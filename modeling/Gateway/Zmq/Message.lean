import Gateway.Model.Base

/-! @src zmq/ZMQMessage.cpp, model/ModuleID.cpp, model/DeviceManagerID.cpp | name:Messages |
    family:formats

    `ZMQMessage`: the functions that build a message from a command, a result or sensor data, and those
    that read one back. A decoder of results does not return anything, it calls the setters of a result
    one after the other, each under the lock of the answer; so it is the list of these calls in order,
    ended by an exception if one is raised. -/

namespace BeeeOn
open Schemes
variable {V : Type} (B : Base V)

def USHRT_MAX : ℕ := 65535

def ModuleID.toString (m : ModuleID) : String := formatHex m.value.toNat

def ModuleID.parse (s : String) : Except Exn ModuleID := do
  let moduleID ← B.parseUnsigned s
  if moduleID > USHRT_MAX then .error .range else .ok ⟨BitVec.ofNat 16 moduleID⟩

def DeviceManagerID.toString (id : DeviceManagerID) : String := formatHex id.value.toNat

/-- `DeviceManagerID(uint16_t)`: the high byte has to be a prefix. -/
def DeviceManagerID.fromWord (w : BitVec 16) : Except Exn DeviceManagerID := do
  let p ← B.devicePrefixFromRaw ((w >>> PREFIX_SHIFT).setWidth 8)
  if p = B.devicePrefixInvalid then .error .invalidArgument else .ok ⟨w⟩

def DeviceManagerID.parse (s : String) : Except Exn DeviceManagerID := do
  let deviceManagerID ← B.parseHex s
  if deviceManagerID > USHRT_MAX then .error .range
  else DeviceManagerID.fromWord B (BitVec.ofNat 16 deviceManagerID)

/-- `ZMQMessageError::Error`. -/
inductive ZMQMessageError where
  | jsonSyntax | maximumDeviceManagers | missingAttribute | unsupportedMessage
  deriving DecidableEq, Repr

def ZMQMessageError.code : ZMQMessageError → ℤ
  | jsonSyntax => 0
  | maximumDeviceManagers => 1
  | missingAttribute => 2
  | unsupportedMessage => 3

/-- `Poco::Timespan::SECONDS`, in microseconds. -/
def SECONDS : ℤ := 1000000

/-- `Timespan::totalSeconds`, an `int`. -/
def totalSeconds (span : ℤ) : ℤ := (span.tdiv SECONDS).bmod (2 ^ 32)

/-- A call that a decoder makes on the result it is given. -/
inductive ResultOp (V : Type) where
  | setStatus (s : Status)
  | setPayload (p : Payload V)
  deriving DecidableEq, Repr

/-- The calls of a decoder in order; nothing follows an exception. -/
abbrev Decoding (V : Type) := List (Except Exn (ResultOp V))

def calls : Except Exn (List (ResultOp V)) → Decoding V
  | .ok ops => ops.map .ok
  | .error e => [.error e]

theorem mem_calls {x : Except Exn (List (ResultOp V))} {op : ResultOp V} (h : .ok op ∈ calls x) :
    ∃ ops, x = .ok ops ∧ op ∈ ops := by
  cases x with
  | error e => exact absurd (List.mem_singleton.mp h) nofun
  | ok ops =>
    obtain ⟨op', hmem, heq⟩ := List.mem_map.mp h
    exact ⟨ops, rfl, Except.ok.inj heq ▸ hmem⟩

abbrev ZMQMessage := JsonObject

namespace ZMQMessage

/-! ### Members -/

def type (m : ZMQMessage) : Except Exn ZMQMessageType := do
  B.parseMessageType (← B.extractString m "message_type")

def setType (m : ZMQMessage) (t : ZMQMessageType) : ZMQMessage := m.set "message_type" (.str t.text)
def setErrorCode (m : ZMQMessage) (e : ZMQMessageError) : ZMQMessage := m.set "error_code" (.num e.code)
def setErrorMessage (m : ZMQMessage) (s : String) : ZMQMessage := m.set "error_message" (.str s)
def setDeviceManagerPrefix (m : ZMQMessage) (p : DevicePrefix) : ZMQMessage :=
  m.set "device_manager_prefix" (.str (B.devicePrefixText p))
def setDeviceManagerID (m : ZMQMessage) (id : DeviceManagerID) : ZMQMessage :=
  m.set "device_manager_id" (.str id.toString)
def setDeviceID (o : JsonObject) (d : DeviceID) : JsonObject := o.set "device_id" (.str (B.deviceIDText d))
def setModuleID (o : JsonObject) (m : ModuleID) : JsonObject := o.set "module_id" (.str m.toString)

/-- `setValue`, with `setRawValue` and `setRawValueType`; the text of a double is `to_string`'s. -/
def setValue (o : JsonObject) (v : V) : JsonObject :=
  (o.set "raw" (.str (B.floatText v))).set "type" (.str ZMQMessageValueType.double.text)

def setSensorValue (o : JsonObject) (x : SensorValue V) : JsonObject :=
  setValue B (setModuleID o x.moduleID) x.value

def setDuration (m : ZMQMessage) (duration : ℤ) : ZMQMessage :=
  m.set "duration" (.num (totalSeconds duration))
def setID (m : ZMQMessage) (id : GlobalID) : ZMQMessage := m.set "id" (.str (B.globalIDText id))
def setResultState (m : ZMQMessage) (s : Status) : ZMQMessage := m.set "result_status" (.num s.raw)
def setTimeout (m : ZMQMessage) (timeout : ℤ) : ZMQMessage :=
  m.set "timeout" (.num (totalSeconds timeout))
def setExtendetSetStatus (m : ZMQMessage) (s : SetStatus) : ZMQMessage :=
  m.set "extented_set_status" (.num s.raw)

def getDevicePrefix (o : JsonObject) : Except Exn DevicePrefix := do
  B.parseDevicePrefix (← B.extractString o "device_manager_prefix")
def getDeviceID (o : JsonObject) : Except Exn DeviceID := do
  B.parseDeviceID (← B.extractString o "device_id")
def getModuleID (o : JsonObject) : Except Exn ModuleID := do
  ModuleID.parse B (← B.extractString o "module_id")

/-- `getValue`: `none` where the source returns false, for a type that is not double. -/
def getValue (o : JsonObject) : Except Exn (Option V) := do
  match ← B.parseValueType (← B.extractString o "type") with
  | .double => return some (← B.parseFloat (← B.extractString o "raw"))

def getSensorValue (o : JsonObject) : Except Exn (SensorValue V) := do
  let moduleID ← getModuleID B o
  match ← getValue B o with
  | none => return ⟨moduleID, B.nan, false⟩
  | some raw => return ⟨moduleID, raw, true⟩

def getDuration (m : ZMQMessage) : Except Exn ℤ := do return SECONDS * (← B.extractInt m "duration")
def getTimeout (o : JsonObject) : Except Exn ℤ := do return SECONDS * (← B.extractInt o "timeout")

-- The `int` of the message is cast as it is. The enumerations promote to `int` where they are compared,
-- so a negative one is below all members.

def getResultState (m : ZMQMessage) : Except Exn Status := do
  return ⟨← B.extractInt m "result_status"⟩
def getExtendetSetStatus (m : ZMQMessage) : Except Exn SetStatus := do
  return ⟨← B.extractInt m "extented_set_status"⟩
def id (m : ZMQMessage) : Except Exn GlobalID := do B.parseGlobalID (← B.extractString m "id")

/-! ### Building messages -/

def fromError (e : ZMQMessageError) (message : String) : ZMQMessage :=
  setErrorMessage (setErrorCode (setType [] .error) e) message

def fromHelloRequest (p : DevicePrefix) : ZMQMessage :=
  setDeviceManagerPrefix B (setType [] .helloRequest) p

def fromHelloResponse (id : DeviceManagerID) : ZMQMessage :=
  setDeviceManagerID (setType [] .helloResponse) id

def fromSensorData (d : SensorData V) : ZMQMessage :=
  (setDeviceID B (setType [] .measuredValues) d.deviceID).set "values"
    (.arr (d.values.map fun item => .obj (setSensorValue B [] item)))

def fromGatewayListenCommand (id : GlobalID) (duration : ℤ) : ZMQMessage :=
  setDuration (setID B (setType [] .listenCmd) id) duration

def fromDeviceSetValueCommand (id : GlobalID) (deviceID : DeviceID) (moduleID : ModuleID) (value : V)
    (timeout : ℤ) : ZMQMessage :=
  (setDeviceID B (setTimeout (setType (setID B [] id) .setValuesCmd) timeout) deviceID).set "values"
    (.obj (setModuleID (setValue B [] value) moduleID))

def fromServerDeviceListCommand (p : DevicePrefix) : ZMQMessage :=
  setDeviceManagerPrefix B (setType [] .deviceListCmd) p

def fromServerLastValueCommand (deviceID : DeviceID) (moduleID : ModuleID) : ZMQMessage :=
  setModuleID (setDeviceID B (setType [] .deviceLastValueCmd) deviceID) moduleID

def fromDeviceUnpairCommand (id : GlobalID) (deviceID : DeviceID) : ZMQMessage :=
  setDeviceID B (setType (setID B [] id) .deviceUnpairCmd) deviceID

/-- `fromCommand`; `id` is the one `GlobalID::random` gives where a message takes one. -/
def fromCommand (id : GlobalID) : Command V → Except Exn ZMQMessage
  | .gatewayListen duration => .ok (fromGatewayListenCommand B id duration)
  | .deviceSetValue deviceID moduleID value timeout =>
    .ok (fromDeviceSetValueCommand B id deviceID moduleID value timeout)
  | .serverDeviceList p => .ok (fromServerDeviceListCommand B p)
  | .serverLastValue deviceID moduleID => .ok (fromServerLastValueCommand B deviceID moduleID)
  | .deviceUnpair deviceID => .ok (fromDeviceUnpairCommand B id deviceID)
  | .other _ => .error .existing

/-- `fromResult`; `none` where it would read a member that has never been set. -/
def fromResult (r : Result V) : Option ZMQMessage :=
  match r.payload with
  | .plain => some (setResultState (setType [] .defaultResult) r.status)
  | .deviceList devices => some
      ((setResultState (setType [] .deviceListResult) r.status).set "device_list"
        (.arr (devices.map fun item => .obj (setDeviceID B [] item))))
  | .lastValue value => value.map fun v =>
      (setResultState (setType [] .deviceLastValueResult) r.status).set "values"
        (.obj (setValue B [] v))
  | .setValue status => status.map fun s =>
      setExtendetSetStatus (setResultState (setType [] .setValuesResult) r.status) s

/-! ### Reading messages -/

def fromJSON (s : String) : Except Exn ZMQMessage := B.parseJson s

def toHelloRequest (m : ZMQMessage) : Except Exn DevicePrefix := getDevicePrefix B m

def toHelloResponse (m : ZMQMessage) : Except Exn DeviceManagerID := do
  DeviceManagerID.parse B (← B.extractString m "device_manager_id")

def toSensorData (m : ZMQMessage) : Except Exn (SensorData V) := do
  let deviceID ← getDeviceID B m
  let jsonArray ← m.getArray "values"
  let values ← jsonArray.mapM fun item => do getSensorValue B (← item.asObject)
  return ⟨deviceID, values⟩

def toGatewayListenCommand (m : ZMQMessage) : Except Exn (Command V) := do
  return .gatewayListen (← getDuration B m)

def toDeviceSetValueCommand (m : ZMQMessage) : Except Exn (Command V) := do
  let jsonObject ← m.getObject "values"
  match ← getValue B jsonObject with
  | none => .error .invalidArgument
  | some raw =>
    let deviceID ← getDeviceID B m
    let moduleID ← getModuleID B jsonObject
    let timeout ← getTimeout B m
    return .deviceSetValue deviceID moduleID raw timeout

def toDeviceListRequest (m : ZMQMessage) : Except Exn (Command V) := do
  return .serverDeviceList (← getDevicePrefix B m)

def toServerLastValueCommand (m : ZMQMessage) : Except Exn (Command V) := do
  let deviceID ← getDeviceID B m
  let moduleID ← getModuleID B m
  return .serverLastValue deviceID moduleID

def toDeviceUnpairCommand (m : ZMQMessage) : Except Exn (Command V) := do
  return .deviceUnpair (← getDeviceID B m)

def toDefaultResult (m : ZMQMessage) : Decoding V := calls do
  let s ← getResultState B m
  return [.setStatus s]

/-- The list is read before the status, and the status is set before the list. -/
def toServerDeviceListResult (m : ZMQMessage) : Decoding V := calls do
  let jsonArray ← m.getArray "device_list"
  let deviceList ← jsonArray.mapM fun item => do getDeviceID B (← item.asObject)
  let s ← getResultState B m
  return [.setStatus s, .setPayload (.deviceList deviceList)]

def toServerLastValueResult (m : ZMQMessage) : Decoding V := calls do
  let jsonObject ← m.getObject "values"
  match ← getValue B jsonObject with
  | none => .error .invalidArgument
  | some raw =>
    let s ← getResultState B m
    return [.setStatus s, .setPayload (.lastValue (some raw))]

/-- Here the status is set before the rest of the message is looked at. -/
def toDeviceSetValueResult (m : ZMQMessage) : Decoding V :=
  calls (do let s ← getResultState B m; return [.setStatus s]) ++
  calls (do let s ← getExtendetSetStatus B m; return [.setPayload (.setValue (some s))])

/-- Every result message carries the status of its result. -/
theorem fromResult_status {r : Result V} {m : ZMQMessage} (h : fromResult B r = some m) :
    m.get "result_status" = some (.num r.status.raw) := by
  rw [fromResult] at h
  split at h
  · cases h; rfl
  · cases h; rfl
  · obtain ⟨v, _, rfl⟩ := Option.map_eq_some_iff.mp h; rfl
  · obtain ⟨v, _, rfl⟩ := Option.map_eq_some_iff.mp h; rfl

end ZMQMessage
end BeeeOn
