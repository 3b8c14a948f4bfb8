import Gateway.Model.Sample

/-! @src jablotron/JablotronDeviceManager.cpp, jablotron/JablotronDeviceManager.h |
    name:Reading the lines of the Jablotron dongle | family:formats

    A line of the dongle is the serial number of a device in brackets, its name, what happened and, for
    most devices, the battery: `parseMessageFromDevice` reads it by the type that the serial number
    falls into. For an event that has no end of its own the parser also sets two members of the
    manager, `m_sensorEvent` and the value that ends the event; whether a line parses and what it says
    does not depend on them (`parse_sets`). A character of a line is a byte. -/

namespace BeeeOn.JablotronDeviceManager
variable {V α β : Type}

/-- What the manager is built over: its device prefix, and the conversion of an integer to a double
    with the comparison of the two. -/
structure Platform (V : Type) where
  prefixJablotron : DevicePrefix
  ofNat : ℕ → V
  equals : V → ℕ → Bool

/-- `m_sensorEvent` and `m_sensorEventValue`. -/
structure Pending (V : Type) where
  sensorEvent : Bool
  sensorEventValue : SensorValue V
  deriving DecidableEq, Repr

/-- An exception leaves the members as they are by then. -/
abbrev Parse (V : Type) := ExceptT Exn (StateM (Pending V))

/-! ### Tokens -/

/-- `Poco::StringTokenizer` without options: the empty string has no token. -/
def StringTokenizer (s : String) (sep : Char) : List String :=
  if s.toList = [] then [] else (s.toList.splitOn sep).map String.ofList

/-- `operator []`. -/
def token (ts : List String) (i : ℕ) : Except Exn String :=
  match ts[i]? with
  | some t => .ok t
  | none => .error .range

def substr (s : String) (pos n : ℕ) : String := String.ofList ((s.toList.drop pos).take n)

/-! ### Devices -/

abbrev JablotronSerialNumber := BitVec 32

/-- `DeviceList`, with `unknown` for the type 0. -/
inductive DeviceType where
  | unknown | ac88 | ja80l | tp82n | ja83m | ja81m | ja82sh | ja83p | ja85st | rc86k
  deriving DecidableEq, Repr

/-- The ranges of `getDeviceType`, in its order. -/
def ranges : List (ℕ × ℕ × DeviceType) :=
  [(0xCF0000, 0xCFFFFF, .ac88), (0x580000, 0x59FFFF, .ja80l), (0x240000, 0x25FFFF, .tp82n),
    (0x1C0000, 0x1DFFFF, .ja83m), (0x180000, 0x1BFFFF, .ja81m), (0x7F0000, 0x7FFFFF, .ja82sh),
    (0x640000, 0x65FFFF, .ja83p), (0x760000, 0x76FFFF, .ja85st), (0x800000, 0x97FFFF, .rc86k)]

def getDeviceType (serialNumber : JablotronSerialNumber) : DeviceType :=
  match ranges.find? fun r => r.1 ≤ serialNumber.toNat && serialNumber.toNat ≤ r.2.1 with
  | some r => r.2.2
  | none => .unknown

def AC88_SENSOR_STATE : ModuleID := ⟨0⟩
def JA85ST_FIRE_SENSOR : ModuleID := ⟨0⟩
def JA85ST_FIRE_SENSOR_ALARM : ModuleID := ⟨1⟩
def JA85ST_FIRE_SENSOR_ERROR : ModuleID := ⟨2⟩
def JA85ST_BATTERY_STATE : ModuleID := ⟨3⟩
def JA83P_JA82SH_SENSOR : ModuleID := ⟨0⟩
def JA83P_JA82SH_SENSOR_ALARM : ModuleID := ⟨1⟩
def JA81M_JA83M_DOOR_CONTACT : ModuleID := ⟨0⟩
def JA81M_JA83M_DOOR_CONTACT_ALARM : ModuleID := ⟨1⟩
def RC86K_REMOTE_CONTROL : ModuleID := ⟨0⟩
def RC86K_REMOTE_CONTROL_ALARM : ModuleID := ⟨1⟩
def RC86K_BATTERY_STATE : ModuleID := ⟨2⟩
def TP82N_CURRENT_ROOM_TEMPERATURE : ModuleID := ⟨0⟩
def TP82N_REQUESTD_ROOM_TEMPERATURE : ModuleID := ⟨1⟩

def SENSOR_STATE_ON : ℕ := 1
def SENSOR_STATE_OFF : ℕ := 2
def FIRE_SENSOR_STATE_OFF : ℕ := 0
def FIRE_SENSOR_STATE_ON : ℕ := 1
def UNKNOWN_STATE : ℕ := 0
def UNSET_STATE : ℕ := 1
def SET_STATE : ℕ := 2
def FULL_BATTERY : ℕ := 100
def LOW_BATTERY : ℕ := 5

variable (B : Base V) (P : Platform V)

/-- `SensorValue(moduleID, value)` with an integer for the value. -/
def sensorValue (m : ModuleID) (n : ℕ) : SensorValue V := ⟨m, P.ofNat n, true⟩

def createDeviceID (sn : JablotronSerialNumber) : DeviceID := ⟨P.prefixJablotron, sn.setWidth 56⟩

/-- `getSerialNumber`: the eight characters after the bracket. -/
def getSerialNumber (t : String) : Except Exn JablotronSerialNumber :=
  if t.toList.length < 10 then .error .invalidArgument
  else do return BitVec.ofNat 32 (← B.parseUnsigned (substr t 1 8))

/-! ### Values -/

def getValue (msg : String) : Except Exn V := do
  B.parseFloat (← token (StringTokenizer msg ':') 1)

def convert (data : String) (reverse : Bool) : Except Exn ℕ := do
  if P.equals (← getValue B data) 1 then return UNSET_STATE
  else if reverse then return SET_STATE
  else return UNKNOWN_STATE

def getBatteryStatus (msg : String) : Except Exn ℕ := do
  if P.equals (← getValue B msg) 0 then return FULL_BATTERY else return LOW_BATTERY

/-- `SensorValue(moduleID, convert(token))`. -/
def converted (m : ModuleID) (data : String) : Except Exn (SensorValue V) := do
  return sensorValue P m (← convert B P data true)

/-- An event: the value that will end it is stored, the one that begins it is returned. -/
def startEvent (m : ModuleID) (on off : ℕ) : Parse V (SensorValue V) := do
  set (⟨true, sensorValue P m off⟩ : Pending V)
  return sensorValue P m on

def parseMessageFromJA85ST (ts : List String) : Parse V (SensorValue V) := do
  let what ← token ts 2
  if what = "SENSOR" then
    startEvent P JA85ST_FIRE_SENSOR FIRE_SENSOR_STATE_ON FIRE_SENSOR_STATE_OFF
  else if what = "BUTTON" then return sensorValue P JA85ST_FIRE_SENSOR SENSOR_STATE_ON
  else if what = "TAMPER" then converted B P JA85ST_FIRE_SENSOR_ALARM (← token ts 4)
  else if what = "DEFECT" then converted B P JA85ST_FIRE_SENSOR_ERROR (← token ts 4)
  else throw .invalidArgument

def parseMessageFromJA83P_JA82SH (ts : List String) : Parse V (SensorValue V) := do
  let what ← token ts 2
  if what = "TAMPER" then converted B P JA83P_JA82SH_SENSOR_ALARM (← token ts 4)
  else if what = "SENSOR" then startEvent P JA83P_JA82SH_SENSOR SENSOR_STATE_ON SENSOR_STATE_OFF
  else throw .invalidArgument

def parseMessageFromJA81M_JA83M (ts : List String) : Parse V (SensorValue V) := do
  let what ← token ts 2
  if what = "SENSOR" then converted B P JA81M_JA83M_DOOR_CONTACT (← token ts 4)
  else if what = "TAMPER" then converted B P JA81M_JA83M_DOOR_CONTACT_ALARM (← token ts 4)
  else throw .invalidArgument

def parseMessageFromRC86K (data : String) : Parse V (SensorValue V) :=
  if data = "PANIC" then startEvent P RC86K_REMOTE_CONTROL_ALARM SENSOR_STATE_ON SENSOR_STATE_OFF
  else liftM (converted B P RC86K_REMOTE_CONTROL data)

/-- The temperature is four characters of the line, wherever its token ends. -/
def parseMessageFromTP82N (message data : String) : Except Exn (SensorValue V) := do
  if message.toList.length < 26 then throw .invalidArgument
  let temperature := substr message 22 4
  if (← token (StringTokenizer data ':') 0) = "SET" then
    return ⟨TP82N_REQUESTD_ROOM_TEMPERATURE, ← B.parseFloat temperature, true⟩
  else return ⟨TP82N_CURRENT_ROOM_TEMPERATURE, ← B.parseFloat temperature, true⟩

/-- The part of `parseMessageFromDevice` after the battery. -/
def parseByType (t : DeviceType) (message : String) (ts : List String) : Parse V (SensorValue V) :=
  match t with
  | .ja81m | .ja83m => parseMessageFromJA81M_JA83M B P ts
  | .ja83p | .ja82sh => parseMessageFromJA83P_JA82SH B P ts
  | .ja85st => parseMessageFromJA85ST B P ts
  | .rc86k => do parseMessageFromRC86K B P (← token ts 2)
  | .tp82n => do parseMessageFromTP82N B message (← token ts 2)
  | _ => throw .invalidArgument

def batteryModuleID (t : DeviceType) : ModuleID :=
  if t = .ja85st then JA85ST_BATTERY_STATE else RC86K_BATTERY_STATE

def parseMessageFromDevice (message : String) (ts : List String) : Parse V (SensorData V) := do
  let serialNumber ← getSerialNumber B (← token ts 0)
  let deviceID := createDeviceID P serialNumber
  let deviceType := getDeviceType serialNumber
  if deviceType = .ac88 then
    let n ← convert B P (← token ts 2) false
    return ⟨deviceID, [sensorValue P AC88_SENSOR_STATE n]⟩
  else
    let n ← getBatteryStatus B P (← token ts 3)
    let value ← parseByType B P deviceType message ts
    return ⟨deviceID, [sensorValue P (batteryModuleID deviceType) n, value]⟩

/-! ### What the parser does to the members -/

/-- The members after the outcome `r`: a value `o` that ends an event is stored only if it is `ok`. -/
def stored (r : Except Exn α) (o : Option (SensorValue V)) (s : Pending V) : Pending V :=
  match r, o with
  | .ok _, some v => ⟨true, v⟩
  | _, _ => s

/-- The outcome of `p` does not depend on the members, and `p` stores `o`, if it stores anything. -/
def Sets (p : Parse V α) (o : Option (SensorValue V)) : Prop :=
  ∃ r : Except Exn α, ∀ s : Pending V, p.run.run s = (r, stored r o s)

theorem sets_lift (x : Except Exn α) : Sets (liftM x : Parse V α) none := by
  refine ⟨x, fun s => ?_⟩
  cases x <;> rfl

theorem sets_throw (e : Exn) (o : Option (SensorValue V)) : Sets (throw e : Parse V α) o :=
  ⟨.error e, fun _ => by cases o <;> rfl⟩

theorem sets_pure (a : α) : Sets (pure a : Parse V α) none := ⟨.ok a, fun _ => rfl⟩

theorem sets_startEvent (m : ModuleID) (on off : ℕ) :
    Sets (startEvent P m on off) (some (sensorValue P m off)) :=
  ⟨.ok (sensorValue P m on), fun _ => rfl⟩

/-- A value that cannot be computed ends the parser; one that can does not touch the members. -/
theorem Sets.lift_bind {x : Except Exn α} {f : α → Parse V β} {o : Option (SensorValue V)}
    (h : ∀ a, x = .ok a → Sets (f a) o) : Sets (liftM x >>= f) o := by
  cases x with
  | error e => exact ⟨.error e, fun s => by cases o <;> rfl⟩
  | ok a => exact h a rfl

/-- What is built from the value of a parser is built without the members. -/
theorem Sets.map {p : Parse V α} {o : Option (SensorValue V)} (h : Sets p o) (g : α → β) :
    Sets (do let a ← p; return g a) o := by
  obtain ⟨r, hr⟩ := h
  refine ⟨r.map g, fun s => ?_⟩
  rw [ExceptT.run_bind, StateT.run_bind, hr s]
  cases r <;> cases o <;> rfl

/-- The value that ends what a device of type `t` reports with `what`, if that is an event: `SENSOR` of
    JA-85ST, JA-83P and JA-82SH, `PANIC` of RC-86K. -/
def offValue (t : DeviceType) (what : String) : Option (SensorValue V) :=
  match t with
  | .ja85st => if what = "SENSOR" then some (sensorValue P ⟨0⟩ 0) else none
  | .ja83p | .ja82sh => if what = "SENSOR" then some (sensorValue P ⟨0⟩ 2) else none
  | .rc86k => if what = "PANIC" then some (sensorValue P ⟨1⟩ 2) else none
  | _ => none

/-- The same, read off the tokens of a line. -/
def eventOff (ts : List String) : Option (SensorValue V) :=
  match token ts 0 >>= getSerialNumber B, token ts 2 with
  | .ok serialNumber, .ok what => offValue P (getDeviceType serialNumber) what
  | _, _ => none

variable {B P} {ts : List String} {o : Option (SensorValue V)}

theorem sets_converted (m : ModuleID) (ts : List String) :
    Sets (do converted B P m (← token ts 4) : Parse V (SensorValue V)) none :=
  Sets.lift_bind fun _ _ => sets_lift _

/-- `o` is the value that ends what the line begins on a device of type `t`, if the line says. -/
def Ends (P : Platform V) (t : DeviceType) (ts : List String) (o : Option (SensorValue V)) : Prop :=
  ∀ what, token ts 2 = .ok what → offValue P t what = o

theorem parseMessageFromJA85ST_sets (h : Ends P .ja85st ts o) :
    Sets (parseMessageFromJA85ST B P ts) o := by
  refine Sets.lift_bind fun what hw => ?_
  rw [← h what hw, offValue]
  split_ifs
  · exact sets_startEvent P _ _ _
  · exact sets_pure _
  · exact sets_converted _ ts
  · exact sets_converted _ ts
  · exact sets_throw _ _

theorem parseMessageFromJA83P_JA82SH_sets (h : Ends P .ja83p ts o) :
    Sets (parseMessageFromJA83P_JA82SH B P ts) o := by
  refine Sets.lift_bind fun what hw => ?_
  rw [← h what hw, offValue]
  by_cases htamper : what = "TAMPER"
  · rw [if_pos htamper, if_neg (by rw [htamper]; decide)]
    exact sets_converted _ ts
  · rw [if_neg htamper]
    split_ifs
    · exact sets_startEvent P _ _ _
    · exact sets_throw _ _

theorem parseMessageFromJA81M_JA83M_sets (h : Ends P .ja81m ts o) :
    Sets (parseMessageFromJA81M_JA83M B P ts) o := by
  refine Sets.lift_bind fun what hw => ?_
  obtain rfl : none = o := h what hw
  split_ifs
  · exact sets_converted _ ts
  · exact sets_converted _ ts
  · exact sets_throw _ _

theorem parseMessageFromRC86K_sets (what : String) :
    Sets (parseMessageFromRC86K B P what) (offValue P .rc86k what) := by
  rw [parseMessageFromRC86K, offValue]
  split_ifs
  · exact sets_startEvent P _ _ _
  · exact sets_lift _

/-- The parser of a type stores the value that ends an event of that type. -/
theorem parseByType_sets {t : DeviceType} (h : Ends P t ts o) (message : String) :
    Sets (parseByType B P t message ts) o := by
  cases t with
  | ja85st => exact parseMessageFromJA85ST_sets h
  | ja83p => exact parseMessageFromJA83P_JA82SH_sets h
  | ja82sh => exact parseMessageFromJA83P_JA82SH_sets h
  | ja81m => exact parseMessageFromJA81M_JA83M_sets h
  | ja83m => exact parseMessageFromJA81M_JA83M_sets h
  | rc86k =>
    refine Sets.lift_bind fun what hw => ?_
    rw [← h what hw]
    exact parseMessageFromRC86K_sets what
  | tp82n =>
    refine Sets.lift_bind fun what hw => ?_
    rw [← h what hw]
    exact sets_lift _
  | unknown => exact sets_throw _ _
  | ac88 => exact sets_throw _ _
  | ja80l => exact sets_throw _ _

/-- Whether a line parses and what it says is a matter of the line; if it is an event, the members
    hold the value that ends it, and otherwise they are as they were. -/
theorem parse_sets (message : String) (ts : List String) :
    Sets (parseMessageFromDevice B P message ts) (eventOff B P ts) := by
  refine Sets.lift_bind fun t0 h0 => Sets.lift_bind fun sn hsn => ?_
  have hserial : token ts 0 >>= getSerialNumber B = .ok sn := by rw [h0]; exact hsn
  have hends : Ends P (getDeviceType sn) ts (eventOff B P ts) := fun what hw => by
    simp only [eventOff, hserial, hw]
  dsimp only
  split_ifs with hac
  · refine Sets.lift_bind fun what hw => Sets.lift_bind fun n _ => ?_
    rw [← hends what hw, hac]
    exact sets_pure _
  · exact Sets.lift_bind fun _ _ => Sets.lift_bind fun _ _ => (parseByType_sets hends message).map _

end BeeeOn.JablotronDeviceManager
