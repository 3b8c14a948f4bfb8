import Gateway.Schemes.Numeral
import Gateway.Core.Answer

/-! @src zmq/ZMQMessageType.cpp, zmq/ZMQMessageValueType.cpp, model/SensorValue.h, model/SensorData.h |
    name:Messages as JSON objects, and what the base library does | family:data

    A message is a `Poco::JSON::Object`. The base library is not part of the repository: how it reads a
    member, parses an enumeration, a device id or a number is the structure `Base`, a parameter of
    everything that touches a message; `Base.Lawful` states what the encoders and decoders rely on. -/

namespace BeeeOn
open Schemes
variable {V : Type}

/-- A JSON value; an object lists its members, each name once. -/
inductive Json where
  | null
  | bool (b : Bool)
  | num (n : ℤ)
  | str (s : String)
  | arr (items : List Json)
  | obj (fields : List (String × Json))

/-- `Poco::JSON::Object`. -/
abbrev JsonObject := List (String × Json)

namespace JsonObject

def get (o : JsonObject) (k : String) : Option Json := o.lookup k

/-- `set`: the member is replaced if there is one of that name. -/
def set (o : JsonObject) (k : String) (v : Json) : JsonObject :=
  (k, v) :: o.filter (fun f => f.1 ≠ k)

/-- `getArray`, followed by a use of the pointer: a member that is no array raises. -/
def getArray (o : JsonObject) (k : String) : Except Exn (List Json) :=
  match o.get k with
  | some (.arr items) => .ok items
  | _ => .error .nullPointer

def getObject (o : JsonObject) (k : String) : Except Exn JsonObject :=
  match o.get k with
  | some (.obj fields) => .ok fields
  | _ => .error .nullPointer

@[simp] theorem get_set_self (o : JsonObject) (k : String) (v : Json) :
    (o.set k v).get k = some v := by
  simp [get, set]

theorem lookup_filter_ne {j k : String} (h : j ≠ k) : ∀ o : JsonObject,
    (o.filter fun f => f.1 ≠ k).lookup j = o.lookup j := by
  intro o
  induction o with
  | nil => rfl
  | cons f o ih =>
    obtain ⟨i, v⟩ := f
    by_cases hik : i = k
    · subst hik
      rw [List.filter_cons_of_neg (by simp), ih, List.lookup_cons,
        beq_eq_false_iff_ne.mpr h]
    · rw [List.filter_cons_of_pos (by simpa using hik), List.lookup_cons, List.lookup_cons, ih]

theorem get_set_ne (o : JsonObject) {j k : String} (v : Json) (h : j ≠ k) :
    (o.set k v).get j = o.get j := by
  rw [get, set, List.lookup_cons, beq_eq_false_iff_ne.mpr h]
  exact lookup_filter_ne h o

end JsonObject

/-- `Array::getObject` on an element, followed by a use of the pointer. -/
def Json.asObject : Json → Except Exn JsonObject
  | .obj fields => .ok fields
  | _ => .error .nullPointer

inductive ZMQMessageType where
  | error | defaultResult | deviceLastValueCmd | deviceLastValueResult | deviceListCmd
  | deviceListResult | deviceUnpairCmd | helloResponse | helloRequest | listenCmd | measuredValues
  | setValuesCmd | setValuesResult
  deriving DecidableEq, Repr

/-- `ZMQMessageTypeEnum::valueMap`. -/
def ZMQMessageType.text : ZMQMessageType → String
  | error => "error"
  | defaultResult => "default_result"
  | deviceLastValueCmd => "device_last_value_cmd"
  | deviceLastValueResult => "device_last_value_result"
  | deviceListCmd => "device_list_cmd"
  | deviceListResult => "device_list_result"
  | deviceUnpairCmd => "device_unpair_cmd"
  | helloResponse => "hello_response"
  | helloRequest => "hello_request"
  | listenCmd => "listen_cmd"
  | measuredValues => "measured_values"
  | setValuesCmd => "set_values_cmd"
  | setValuesResult => "set_values_result"

inductive ZMQMessageValueType where
  | double
  deriving DecidableEq, Repr

/-- `ZMQMessageValueTypeEnum::valueMap`. -/
def ZMQMessageValueType.text : ZMQMessageValueType → String
  | double => "double"

/-- `SensorValue`. -/
structure SensorValue (V : Type) where
  moduleID : ModuleID
  value : V
  valid : Bool
  deriving DecidableEq, Repr

/-- What `operator ==` compares: the module and, if the value is valid, the value. -/
def SensorValue.content (x : SensorValue V) : ModuleID × Option V :=
  (x.moduleID, if x.valid then some x.value else none)

/-- `SensorData`, without the timestamp, which is not sent. -/
structure SensorData (V : Type) where
  deviceID : DeviceID
  values : List (SensorValue V)
  deriving DecidableEq, Repr

/-! ### Numbers as texts -/

/-- A digit of an upper-case hexadecimal numeral. -/
def hexChar (d : ℕ) : Char :=
  if d < 10 then Char.ofNat (d + 48) else Char.ofNat (d + 55)

def hexText (ds : List ℕ) : String := String.ofList (ds.map hexChar)

/-- `Poco::NumberFormatter::formatHex`: upper case, without prefix or padding. -/
def formatHex (n : ℕ) : String := hexText (Numeral.digits 16 n)

/-! ### The base library -/

/-- The functions of the base library and of Poco that messages go through; `exact` are the doubles
    that are exact multiples of 10^-6. -/
structure Base (V : Type) where
  parseJson : String → Except Exn JsonObject
  extractString : JsonObject → String → Except Exn String
  extractInt : JsonObject → String → Except Exn ℤ
  parseMessageType : String → Except Exn ZMQMessageType
  parseValueType : String → Except Exn ZMQMessageValueType
  parseDevicePrefix : String → Except Exn DevicePrefix
  devicePrefixFromRaw : BitVec 8 → Except Exn DevicePrefix
  devicePrefixInvalid : DevicePrefix
  devicePrefixText : DevicePrefix → String
  parseDeviceID : String → Except Exn DeviceID
  deviceIDText : DeviceID → String
  parseGlobalID : String → Except Exn GlobalID
  globalIDText : GlobalID → String
  parseUnsigned : String → Except Exn ℕ
  parseHex : String → Except Exn ℕ
  parseFloat : String → Except Exn V
  floatText : V → String
  nan : V
  exact : V → Prop

/-- What the codecs of the messages rely on. -/
structure Base.Lawful (B : Base V) : Prop where
  extractString_str : ∀ {o : JsonObject} {k s : String}, o.get k = some (.str s) →
    B.extractString o k = .ok s
  extractInt_num : ∀ {o : JsonObject} {k : String} {n : ℤ}, o.get k = some (.num n) →
    -2 ^ 31 ≤ n → n < 2 ^ 31 → B.extractInt o k = .ok n
  parseValueType_text : ∀ t : ZMQMessageValueType, B.parseValueType t.text = .ok t
  parseDeviceID_text : ∀ d, B.parseDeviceID (B.deviceIDText d) = .ok d
  parseFloat_text : ∀ v, B.exact v → B.parseFloat (B.floatText v) = .ok v
  /-- `parseUnsigned` reads decimal: a hexadecimal digit beyond 9 is a syntax error -/
  parseUnsigned_text : ∀ ds : List ℕ, ds ≠ [] → ds.length ≤ 4 → (∀ d ∈ ds, d < 16) →
    B.parseUnsigned (hexText ds) = match Numeral.read 10 ds with
      | some n => .ok n
      | none => .error .syntaxError

end BeeeOn
