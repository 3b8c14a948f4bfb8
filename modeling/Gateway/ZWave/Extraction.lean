import Gateway.ZWave.Actuators

/-! @src z-wave/ZWaveMessage.cpp, z-wave/products/*.cpp | name:Values on their way from Z-Wave nodes |
    family:functional correctness

    `extractValues` of a product makes sensor values of what a node reports. The getters look for the
    entries of one command class and index. `getTemperature`, `getSwitchBinary` and `getSensorValue`
    pass over a text that they cannot read; `getSpecificValue` takes the text of the first entry as it
    is, and it is parsed later, outside of any handler. So one text that is no number costs the whole
    report (`extracts_iff`). -/

namespace BeeeOn
namespace ZWaveMessage
variable {V ν : Type}

/-- The conversions of numbers: an integer from its text, and `(temperature - 32)/1.8`. -/
structure Numbers (V : Type) where
  parse : String → Except Exn ℤ
  celsius : V → V
  zero : V
  one : V

def COMMAND_CLASS_ALARM : ℤ := 113
def COMMAND_CLASS_BATTERY : ℤ := 128
def COMMAND_CLASS_SENSOR_BINARY : ℤ := 48
def COMMAND_CLASS_SENSOR_MULTILEVEL : ℤ := 49
def SENSOR_INDEX_BULGAR : ℤ := 10
def SENSOR_INDEX_BATTERY : ℤ := 0
def SENSOR_INDEX_HUMINIDITY : ℤ := 5
def SENSOR_INDEX_LUMINISTANCE : ℤ := 3
def SENSOR_INDEX_SENSOR : ℤ := 0
def SENSOR_INDEX_TEMPERATURE : ℤ := 1
def SENSOR_INDEX_ULTRAVIOLET : ℤ := 27

/-- What the getters rely on: the texts that they make are numbers. -/
structure Numbers.Lawful (B : Base V) (N : Numbers V) : Prop where
  parseFloat_zero : B.parseFloat "0" = .ok N.zero
  parseFloat_one : B.parseFloat "1" = .ok N.one
  parseFloat_level : ∀ level ∈ pirSensor, ∃ v, B.parseFloat level.1 = .ok v
  parseFloat_text : ∀ s v, B.parseFloat s = .ok v → ∃ w, B.parseFloat (B.floatText v) = .ok w
  parseFloat_celsius : ∀ s v, B.parseFloat s = .ok v →
    ∃ w, B.parseFloat (B.floatText (N.celsius v)) = .ok w

variable (B : Base V) (N : Numbers V)

def isEqual (commandClass1 commandClass2 index1 index2 : ℤ) : Bool :=
  commandClass1 = commandClass2 ∧ index1 = index2

def extractFloat (item : ZWaveSensorValue ν) : Option V := (B.parseFloat item.value).toOption

def extractInt (item : ZWaveSensorValue ν) : Option ℤ := (N.parse item.value).toOption

def extractBool (item : ZWaveSensorValue ν) : Option Bool :=
  if item.value = "True" then some true
  else if item.value = "False" then some false
  else none

/-- `to_string` of a truth value. -/
def boolText (b : Bool) : String := if b then "1" else "0"

/-- The loop of the getters: the first entry of the class and index that `extract` makes a text of. -/
def getFirst (commandClass index : ℤ) (extract : ZWaveSensorValue ν → Option String) :
    List (ZWaveSensorValue ν) → Option String
  | [] => none
  | item :: rest =>
    if isEqual item.commandClass commandClass item.index index then
      match extract item with
      | some value => some value
      | none => getFirst commandClass index extract rest
    else getFirst commandClass index extract rest

section
variable (zwaveValues : List (ZWaveSensorValue ν))

/-- The text is not looked at. -/
def getSpecificValue (commandClass index : ℤ) : Option String :=
  getFirst commandClass index (fun item => some item.value) zwaveValues

def getTemperature : Option String :=
  getFirst COMMAND_CLASS_SENSOR_MULTILEVEL SENSOR_INDEX_TEMPERATURE
    (fun item => (extractFloat B item).map fun temperature =>
      B.floatText (if item.unit = "F" then N.celsius temperature else temperature)) zwaveValues

def getSwitchBinary : Option String :=
  getFirst COMMAND_CLASS_SWITCH_BINARY.toNat SENSOR_INDEX_SENSOR
    (fun item => (extractBool item).map boolText) zwaveValues

def getSensorValue : Option String :=
  getFirst COMMAND_CLASS_SENSOR_BINARY SENSOR_INDEX_SENSOR
    (fun item => (extractBool item).map boolText) zwaveValues

def getBatteryLevel : Option String :=
  getSpecificValue zwaveValues COMMAND_CLASS_BATTERY SENSOR_INDEX_BATTERY

def getLuminance : Option String :=
  getSpecificValue zwaveValues COMMAND_CLASS_SENSOR_MULTILEVEL SENSOR_INDEX_LUMINISTANCE

def getHumidity : Option String :=
  getSpecificValue zwaveValues COMMAND_CLASS_SENSOR_MULTILEVEL SENSOR_INDEX_HUMINIDITY

def getUltraviolet : Option String :=
  getSpecificValue zwaveValues COMMAND_CLASS_SENSOR_MULTILEVEL SENSOR_INDEX_ULTRAVIOLET

end

/-- The values that `extractValues` inserts, for the texts that the getters have found: `parseFloat` of
    a text that is no number leaves by its exception. -/
def insertValues : List (ModuleID × Option String) → Except Exn (List (SensorValue V))
  | [] => .ok []
  | (_, none) :: rest => insertValues rest
  | (moduleID, some value) :: rest => do
    let v ← B.parseFloat value
    let data ← insertValues rest
    return ⟨moduleID, v, true⟩ :: data

/-- The states of an alarm that have a meaning: `SHAKE` or `ALARM_SAFETY`, and `MOTION`. -/
def SAFETY : ℤ := 3
def MOTION : ℤ := 8

/-- What one state of the alarm inserts; any other state clears both modules. -/
def detected (safety motion : ModuleID) (idle : List ModuleID) (sensorState : ℤ) :
    List (SensorValue V) :=
  if sensorState = SAFETY then [⟨safety, N.one, true⟩]
  else if sensorState = MOTION then [⟨motion, N.one, true⟩]
  else idle.map fun m => ⟨m, N.zero, true⟩

/-- `getDetectionSensor` of a product, with the two modules and their order when both are cleared. -/
def getDetectionSensor (safety motion : ModuleID) (idle : List ModuleID) :
    List (ZWaveSensorValue ν) → List (SensorValue V)
  | [] => []
  | item :: rest =>
    if isEqual item.commandClass COMMAND_CLASS_ALARM item.index SENSOR_INDEX_BULGAR then
      match extractInt N item with
      | some sensorState =>
        detected N safety motion idle sensorState ++ getDetectionSensor safety motion idle rest
      | none => getDetectionSensor safety motion idle rest
    else getDetectionSensor safety motion idle rest

/-! ### The products -/

namespace AeotecZW100ZWaveMessage

def MODULE_SHAKE_SENSOR : ModuleID := ⟨0⟩
def MODULE_PIR_SENSOR : ModuleID := ⟨1⟩
def MODULE_ULTRAVIOLET : ModuleID := ⟨2⟩
def MODULE_LIGHT : ModuleID := ⟨3⟩
def MODULE_ROOM_TEMPERATURE : ModuleID := ⟨4⟩
def MODULE_ROOM_HUMIDITY : ModuleID := ⟨5⟩
def MODULE_PIR_SENSOR_SENSITIVITY : ModuleID := ⟨6⟩
def MODULE_BATTERY : ModuleID := ⟨7⟩

/-- The number of the level that has the text, if there is one. -/
def getPirSensitivity (zwaveValues : List (ZWaveSensorValue ν)) : Option String := do
  let value ← getSpecificValue zwaveValues COMMAND_CLASS_CONFIGURATION.toNat
    AEOTEC_PIR_SENSOR_INDEX.toNat
  (pirSensor.find? (·.2 = value)).map Prod.fst

def getRefreshTime (zwaveValues : List (ZWaveSensorValue ν)) : Option String :=
  getSpecificValue zwaveValues COMMAND_CLASS_CONFIGURATION.toNat
    AEOTEC_SENSOR_INDEX_REFRESH_TIME.toNat

def extractValues (zwaveValues : List (ZWaveSensorValue ν)) : Except Exn (List (SensorValue V)) := do
  let data ← insertValues B
    [(MODULE_ULTRAVIOLET, getUltraviolet zwaveValues),
      (MODULE_LIGHT, getLuminance zwaveValues),
      (MODULE_ROOM_TEMPERATURE, getTemperature B N zwaveValues),
      (MODULE_ROOM_HUMIDITY, getHumidity zwaveValues),
      (MODULE_PIR_SENSOR_SENSITIVITY, getPirSensitivity zwaveValues),
      (MODULE_BATTERY, getBatteryLevel zwaveValues),
      (AEOTEC_MODULE_REFRESH_TIME, getRefreshTime zwaveValues)]
  return data ++ getDetectionSensor N MODULE_SHAKE_SENSOR MODULE_PIR_SENSOR
    [ MODULE_SHAKE_SENSOR, MODULE_PIR_SENSOR] zwaveValues

end AeotecZW100ZWaveMessage

namespace DLinkDchZ120ZWaveMessage

def MODULE_PIR : ModuleID := ⟨0⟩
def MODULE_LUMINANCE : ModuleID := ⟨1⟩
def MODULE_TEMPERATURE : ModuleID := ⟨2⟩
def MODULE_SENSOR_ALARM : ModuleID := ⟨3⟩
def MODULE_BATTERY : ModuleID := ⟨5⟩

def getPirSensitivity (zwaveValues : List (ZWaveSensorValue ν)) : Option String :=
  getSpecificValue zwaveValues COMMAND_CLASS_CONFIGURATION.toNat
    DLINK_PIR_SENSOR_SENSITIVITY_INDEX.toNat

def extractValues (zwaveValues : List (ZWaveSensorValue ν)) : Except Exn (List (SensorValue V)) := do
  let data ← insertValues B
    [(MODULE_LUMINANCE, getLuminance zwaveValues),
      (MODULE_TEMPERATURE, getTemperature B N zwaveValues),
      (DLINK_MODULE_PIR_SENSITIVITY, getPirSensitivity zwaveValues),
      (MODULE_BATTERY, getBatteryLevel zwaveValues)]
  return data ++ getDetectionSensor N MODULE_SENSOR_ALARM MODULE_PIR
    [ MODULE_PIR, MODULE_SENSOR_ALARM] zwaveValues

end DLinkDchZ120ZWaveMessage

namespace FibaroFGK107ZWaveMessage

def MODULE_MAGNETIC_DOOR_CONTACT : ModuleID := ⟨0⟩
def MODULE_BATTERY : ModuleID := ⟨1⟩

def extractValues (zwaveValues : List (ZWaveSensorValue ν)) : Except Exn (List (SensorValue V)) :=
  insertValues B
    [(MODULE_MAGNETIC_DOOR_CONTACT, getSensorValue zwaveValues),
      (MODULE_BATTERY, getBatteryLevel zwaveValues)]

end FibaroFGK107ZWaveMessage

namespace PhilioPST021CZWaveMessage

def MODULE_MAGNETIC_CONTACT : ModuleID := ⟨0⟩
def MODULE_TEMPERATURE : ModuleID := ⟨1⟩
def MODULE_LUMINANCE : ModuleID := ⟨2⟩
def MODULE_BATTERY : ModuleID := ⟨3⟩

def extractValues (zwaveValues : List (ZWaveSensorValue ν)) : Except Exn (List (SensorValue V)) :=
  insertValues B
    [(MODULE_LUMINANCE, getLuminance zwaveValues),
      (MODULE_TEMPERATURE, getTemperature B N zwaveValues),
      (MODULE_MAGNETIC_CONTACT, getSensorValue zwaveValues),
      (MODULE_BATTERY, getBatteryLevel zwaveValues)]

end PhilioPST021CZWaveMessage

namespace Popp123601ZWaveMessage

def MODULE_SWITCH : ModuleID := ⟨0⟩

def extractValues (zwaveValues : List (ZWaveSensorValue ν)) : Except Exn (List (SensorValue V)) :=
  insertValues B [(MODULE_SWITCH, getSwitchBinary zwaveValues)]

end Popp123601ZWaveMessage

end ZWaveMessage

open ZWaveMessage

namespace ZWaveProduct
variable {V ν : Type} (B : Base V) (N : Numbers V)

/-- `extractValues` of the class of a product. -/
def extractValues : ZWaveProduct → List (ZWaveSensorValue ν) → Except Exn (List (SensorValue V))
  | .aeotecZW100 => AeotecZW100ZWaveMessage.extractValues B N
  | .dLinkDchZ120 => DLinkDchZ120ZWaveMessage.extractValues B N
  | .fibaroFGK107 => FibaroFGK107ZWaveMessage.extractValues B
  | .philioPST021C => PhilioPST021CZWaveMessage.extractValues B N
  | .popp123601 => Popp123601ZWaveMessage.extractValues B

/-- The object that the factory of the product makes. -/
def message (P : ZWaveProduct) : ZWaveMessage V ν := ⟨P.extractValues B N⟩

/-! ### What a report is to contain -/

/-- How a module reads the text of an entry: as a number, as a temperature in its unit, as a truth
    value, or as the name of a level. -/
inductive How where
  | number | temperature | flag | level
  deriving DecidableEq, Repr

/-- A module that is read from the entries of one command class and index. -/
structure Reading where
  moduleID : ModuleID
  commandClass : ℤ
  index : ℤ
  how : How

/-- The modules of a product that are read through the getters. -/
def readings : ZWaveProduct → List Reading
  | .aeotecZW100 =>
    [⟨⟨2⟩, 49, 27, .number⟩, ⟨⟨3⟩, 49, 3, .number⟩, ⟨⟨4⟩, 49, 1, .temperature⟩,
      ⟨⟨5⟩, 49, 5, .number⟩, ⟨⟨6⟩, 112, 4, .level⟩, ⟨⟨7⟩, 128, 0, .number⟩,
      ⟨⟨8⟩, 112, 111, .number⟩]
  | .dLinkDchZ120 =>
    [⟨⟨1⟩, 49, 3, .number⟩, ⟨⟨2⟩, 49, 1, .temperature⟩, ⟨⟨4⟩, 112, 3, .number⟩,
      ⟨⟨5⟩, 128, 0, .number⟩]
  | .fibaroFGK107 => [⟨⟨0⟩, 48, 0, .flag⟩, ⟨⟨1⟩, 128, 0, .number⟩]
  | .philioPST021C =>
    [⟨⟨2⟩, 49, 3, .number⟩, ⟨⟨1⟩, 49, 1, .temperature⟩, ⟨⟨0⟩, 48, 0, .flag⟩,
      ⟨⟨3⟩, 128, 0, .number⟩]
  | .popp123601 => [⟨⟨0⟩, 37, 0, .flag⟩]

/-- The entry is one of the module. -/
def Reading.Matches (r : Reading) (item : ZWaveSensorValue ν) : Prop :=
  item.commandClass = r.commandClass ∧ item.index = r.index

instance (r : Reading) : DecidablePred (@Reading.Matches ν r) := fun _ => instDecidableAnd

/-- The value that an entry gives, if its text parses. -/
def Reading.value (r : Reading) (item : ZWaveSensorValue ν) : Option V :=
  match r.how with
  | .number => (B.parseFloat item.value).toOption
  | .temperature => do
    let t ← (B.parseFloat item.value).toOption
    (B.parseFloat (B.floatText (if item.unit = "F" then N.celsius t else t))).toOption
  | .flag =>
    if item.value = "True" then some N.one
    else if item.value = "False" then some N.zero
    else none
  | .level => do
    let level ← pirSensor.find? (·.2 = item.value)
    (B.parseFloat level.1).toOption

/-- The value of the first entry of the module that parses. -/
def Reading.wanted (r : Reading) (zwaveValues : List (ZWaveSensorValue ν)) : Option V :=
  (zwaveValues.filter fun item => r.Matches item).findSome? (r.value B N)

/-- `extractValues` returns, and each module has the value of its first entry that parses: that value
    and no other, and none if no entry parses. -/
def Extracts (P : ZWaveProduct) (zwaveValues : List (ZWaveSensorValue ν)) : Prop :=
  ∃ data, P.extractValues B N zwaveValues = .ok data ∧ ∀ r ∈ P.readings,
    data.filter (·.moduleID = r.moduleID) =
      (r.wanted B N zwaveValues).toList.map fun v => ⟨r.moduleID, v, true⟩

/-- The first entry of the module decides: its text parses, or it is the name of no level where none of
    the others is one either. What reads on past a text that does not parse needs nothing. -/
def Reading.Settled (r : Reading) (zwaveValues : List (ZWaveSensorValue ν)) : Prop :=
  match r.how with
  | .number => ∀ item, zwaveValues.find? (r.Matches ·) = some item → (r.value B N item).isSome
  | .level => ∀ item, zwaveValues.find? (r.Matches ·) = some item → (r.value B N item).isSome ∨
      ∀ other ∈ zwaveValues, r.Matches other → r.value B N other = none
  | .temperature | .flag => True

/-! ### One getter -/

variable {B N} {zwaveValues : List (ZWaveSensorValue ν)}

/-- What `extractValues` makes of the text that a getter has found. -/
def readText (B : Base V) : Option String → Except Exn (Option V)
  | none => .ok none
  | some value => (B.parseFloat value).map some

theorem getFirst_eq (r : Reading) (extract : ZWaveSensorValue ν → Option String) :
    getFirst r.commandClass r.index extract zwaveValues =
      (zwaveValues.filter fun item => r.Matches item).findSome? extract := by
  induction zwaveValues with
  | nil => rfl
  | cons item rest ih =>
    have heq : isEqual item.commandClass r.commandClass item.index r.index =
        decide (r.Matches item) := rfl
    rw [getFirst, heq]
    by_cases hm : r.Matches item
    · rw [List.filter_cons_of_pos (by simpa using hm), List.findSome?_cons, if_pos (by simpa using hm)]
      cases extract item with
      | some value => rfl
      | none => exact ih
    · rw [List.filter_cons_of_neg (by simpa using hm), if_neg (by simpa using hm)]
      exact ih

/-- A search that passes over what it cannot read finds the first value. -/
theorem readText_findSome? {extract : ZWaveSensorValue ν → Option String}
    {value : ZWaveSensorValue ν → Option V} (items : List (ZWaveSensorValue ν))
    (h : ∀ item, (extract item = none ∧ value item = none) ∨
      ∃ s v, extract item = some s ∧ B.parseFloat s = .ok v ∧ value item = some v) :
    readText B (items.findSome? extract) = .ok (items.findSome? value) := by
  induction items with
  | nil => rfl
  | cons item rest ih =>
    rw [List.findSome?_cons, List.findSome?_cons]
    rcases h item with ⟨he, hv⟩ | ⟨s, v, he, hs, hv⟩
    · rw [he, hv]
      exact ih
    · rw [he, hv, readText, hs]
      rfl

/-- The first text as it is: it has to be a number. -/
theorem readText_head {items : List (ZWaveSensorValue ν)} :
    readText B (items.findSome? fun item => some item.value) =
        .ok (items.findSome? fun item => (B.parseFloat item.value).toOption) ↔
      ∀ item, items.head? = some item → ((B.parseFloat item.value).toOption).isSome := by
  cases items with
  | nil => simp [readText]
  | cons item rest =>
    rw [List.findSome?_cons, List.findSome?_cons, readText]
    cases hp : B.parseFloat item.value with
    | error e => simp [Except.map, Except.toOption, hp]
    | ok v => simp [Except.map, Except.toOption, hp]

/-- The name of the first level, if it is one. -/
theorem readText_level (hN : N.Lawful B) {items : List (ZWaveSensorValue ν)}
    (value : ZWaveSensorValue ν → Option V)
    (hv : ∀ item, value item =
      (pirSensor.find? (·.2 = item.value)).bind fun level => (B.parseFloat level.1).toOption) :
    readText B ((items.findSome? fun item => some item.value).bind fun s =>
        (pirSensor.find? (·.2 = s)).map Prod.fst) = .ok (items.findSome? value) ↔
      ∀ item, items.head? = some item → (value item).isSome ∨ ∀ other ∈ items, value other = none := by
  cases items with
  | nil => simp [readText]
  | cons item rest =>
    rw [List.findSome?_cons, List.findSome?_cons, Option.bind_some]
    cases hf : pirSensor.find? (·.2 = item.value) with
    | none =>
      have hnone : value item = none := by rw [hv, hf]; rfl
      simp only [readText, hnone, List.head?_cons, Option.some.injEq, forall_eq', Except.ok.injEq,
        Option.isSome_none, Bool.false_eq_true, false_or, List.forall_mem_cons, true_and,
        Option.map_none]
      rw [eq_comm, List.findSome?_eq_none_iff]
    | some level =>
      obtain ⟨v, hparse⟩ := hN.parseFloat_level level (List.mem_of_find?_eq_some hf)
      have hsome : value item = some v := by rw [hv, hf, Option.bind_some, hparse]; rfl
      simp [readText, hsome, hparse, Except.map]

/-- The getter of the module. -/
def Reading.text (B : Base V) (N : Numbers V) (r : Reading) (zwaveValues : List (ZWaveSensorValue ν)) :
    Option String :=
  match r.how with
  | .number => getSpecificValue zwaveValues r.commandClass r.index
  | .temperature =>
    getFirst r.commandClass r.index
      (fun item => (extractFloat B item).map fun temperature =>
        B.floatText (if item.unit = "F" then N.celsius temperature else temperature)) zwaveValues
  | .flag =>
    getFirst r.commandClass r.index (fun item => (extractBool item).map boolText) zwaveValues
  | .level =>
    (getSpecificValue zwaveValues r.commandClass r.index).bind fun s =>
      (pirSensor.find? (·.2 = s)).map Prod.fst

/-- The getter of a module makes its first value that parses exactly if the first entry decides. -/
theorem readText_iff (hN : N.Lawful B) (r : Reading) :
    readText B (r.text B N zwaveValues) = .ok (r.wanted B N zwaveValues) ↔
      r.Settled B N zwaveValues := by
  obtain ⟨moduleID, commandClass, index, how⟩ := r
  cases how with
  | number =>
    simp only [Reading.text, getSpecificValue, getFirst_eq ⟨moduleID, commandClass, index, .number⟩]
    rw [Reading.wanted, Reading.Settled, ← List.head?_filter]
    exact readText_head
  | temperature =>
    simp only [Reading.text, Reading.Settled, iff_true,
      getFirst_eq ⟨moduleID, commandClass, index, .temperature⟩]
    refine readText_findSome? _ fun item => ?_
    cases hp : B.parseFloat item.value with
    | error e => exact Or.inl ⟨by rw [extractFloat, hp]; rfl, by rw [Reading.value, hp]; rfl⟩
    | ok t =>
      obtain ⟨w, hw⟩ : ∃ w, B.parseFloat
          (B.floatText (if item.unit = "F" then N.celsius t else t)) = .ok w := by
        split
        · exact hN.parseFloat_celsius _ t hp
        · exact hN.parseFloat_text _ t hp
      refine Or.inr ⟨_, w, by rw [extractFloat, hp]; rfl, hw, ?_⟩
      simp [Reading.value, hp, hw, Except.toOption]
  | flag =>
    simp only [Reading.text, Reading.Settled, iff_true,
      getFirst_eq ⟨moduleID, commandClass, index, .flag⟩]
    refine readText_findSome? _ fun item => ?_
    by_cases ht : item.value = "True"
    · exact Or.inr ⟨"1", N.one, by simp [extractBool, ht, boolText], hN.parseFloat_one,
        by simp [Reading.value, ht]⟩
    · by_cases hf : item.value = "False"
      · exact Or.inr ⟨"0", N.zero, by simp [extractBool, hf, boolText], hN.parseFloat_zero,
          by simp [Reading.value, hf]⟩
      · exact Or.inl ⟨by simp [extractBool, ht, hf], by simp [Reading.value, ht, hf]⟩
  | level =>
    simp only [Reading.text, getSpecificValue, getFirst_eq ⟨moduleID, commandClass, index, .level⟩]
    rw [Reading.wanted, readText_level hN (Reading.value B N _) (fun _ => rfl), Reading.Settled,
      List.head?_filter]
    simp only [List.mem_filter, decide_eq_true_eq, and_imp]

/-! ### All getters of a product -/

theorem filter_moduleID_nil {m : ModuleID} {data : List (SensorValue V)}
    (h : m ∉ data.map (·.moduleID)) : data.filter (·.moduleID = m) = [] := by
  rw [List.filter_eq_nil_iff]
  intro x hx heq
  exact h (List.mem_map.mpr ⟨x, hx, of_decide_eq_true heq⟩)

theorem insertValues_cons_eq {m : ModuleID} {value : String} {rest : List (ModuleID × Option String)}
    {data : List (SensorValue V)} (h : insertValues B ((m, some value) :: rest) = .ok data) :
    ∃ v, B.parseFloat value = .ok v ∧ ∃ data', insertValues B rest = .ok data' ∧
      data = ⟨m, v, true⟩ :: data' := by
  rw [insertValues] at h
  cases hp : B.parseFloat value with
  | error e => rw [hp] at h; cases h
  | ok v =>
    cases hr : insertValues B rest with
    | error e => rw [hp, hr] at h; cases h
    | ok data' =>
      rw [hp, hr] at h
      cases h
      exact ⟨v, rfl, data', rfl, rfl⟩

/-- The values that were inserted: each of a module whose text has been read, in their order. -/
theorem insertValues_spec : ∀ (texts : List (ModuleID × Option String)) {data : List (SensorValue V)},
    insertValues B texts = .ok data → (data.map (·.moduleID)).Sublist (texts.map Prod.fst) ∧
      ((texts.map Prod.fst).Nodup → ∀ x ∈ texts, ∃ o, readText B x.2 = .ok o ∧
        data.filter (·.moduleID = x.1) = o.toList.map fun v => ⟨x.1, v, true⟩) := by
  intro texts
  induction texts with
  | nil =>
    intro data h
    cases h
    exact ⟨.slnil, fun _ x hx => by cases hx⟩
  | cons y rest ih =>
    obtain ⟨m, o⟩ := y
    intro data h
    cases o with
    | none =>
      obtain ⟨hsub, hspec⟩ := ih h
      refine ⟨hsub.cons m, fun hnodup x hx => ?_⟩
      obtain ⟨hm, hrest⟩ := List.nodup_cons.mp hnodup
      rcases List.mem_cons.mp hx with rfl | hx
      · exact ⟨none, rfl, filter_moduleID_nil fun hin => hm (hsub.subset hin)⟩
      · exact hspec hrest x hx
    | some value =>
      obtain ⟨v, hv, rest', hrest', rfl⟩ := insertValues_cons_eq h
      obtain ⟨hsub, hspec⟩ := ih hrest'
      refine ⟨hsub.cons_cons m, fun hnodup x hx => ?_⟩
      obtain ⟨hm, hrest⟩ := List.nodup_cons.mp hnodup
      rcases List.mem_cons.mp hx with rfl | hx
      · refine ⟨some v, by rw [readText, hv]; rfl, ?_⟩
        rw [List.filter_cons_of_pos (by simp), filter_moduleID_nil fun hin => hm (hsub.subset hin)]
        rfl
      · have hne : m ≠ x.1 := fun heq => hm (List.mem_map.mpr ⟨x, hx, heq.symm⟩)
        rw [List.filter_cons_of_neg (by simpa using hne)]
        exact hspec hrest x hx

/-- They are inserted if every text can be read. -/
theorem insertValues_ok : ∀ texts : List (ModuleID × Option String),
    (∀ x ∈ texts, ∃ o, readText B x.2 = .ok o) → ∃ data, insertValues B texts = .ok data := by
  intro texts
  induction texts with
  | nil => exact fun _ => ⟨[], rfl⟩
  | cons y rest ih =>
    obtain ⟨m, o⟩ := y
    intro h
    obtain ⟨data, hdata⟩ := ih fun x hx => h x (List.mem_cons_of_mem _ hx)
    obtain ⟨o', ho'⟩ := h (m, o) List.mem_cons_self
    cases o with
    | none => exact ⟨data, hdata⟩
    | some value =>
      cases hp : B.parseFloat value with
      | error e => simp [readText, hp, Except.map] at ho'
      | ok v => exact ⟨⟨m, v, true⟩ :: data, by rw [insertValues, hp, hdata]; rfl⟩

/-- What the alarm of a product inserts after the rest. -/
def detections (N : Numbers V) : ZWaveProduct → List (ZWaveSensorValue ν) → List (SensorValue V)
  | .aeotecZW100 => getDetectionSensor N ⟨0⟩ ⟨1⟩ [⟨0⟩, ⟨1⟩]
  | .dLinkDchZ120 => getDetectionSensor N ⟨3⟩ ⟨0⟩ [⟨0⟩, ⟨3⟩]
  | .fibaroFGK107 | .philioPST021C | .popp123601 => fun _ => []

/-- The modules of a product with the texts that their getters find. -/
def texts (B : Base V) (N : Numbers V) (P : ZWaveProduct) (zwaveValues : List (ZWaveSensorValue ν)) :
    List (ModuleID × Option String) :=
  P.readings.map fun r => (r.moduleID, r.text B N zwaveValues)

/-- `extractValues` of every product: the modules that are searched for, then the alarm. -/
theorem extractValues_eq (P : ZWaveProduct) :
    P.extractValues B N zwaveValues = (insertValues B (P.texts B N zwaveValues)).map
      (· ++ P.detections N zwaveValues) := by
  cases P with
  | aeotecZW100 | dLinkDchZ120 => rfl
  | fibaroFGK107 | philioPST021C | popp123601 =>
    have hnil : ∀ o : Except Exn (List (SensorValue V)), o = o.map (· ++ []) := fun o => by
      cases o <;> simp [Except.map]
    exact hnil _

theorem readings_nodup (P : ZWaveProduct) : (P.readings.map (·.moduleID)).Nodup := by
  cases P <;> decide

/-- The modules of the alarm are read through no getter. -/
theorem detections_moduleID (P : ZWaveProduct) {x : SensorValue V} (hx : x ∈ P.detections N zwaveValues)
    {r : Reading} (hr : r ∈ P.readings) : x.moduleID ≠ r.moduleID := by
  have hmem : ∀ {safety motion : ModuleID} {idle : List ModuleID},
      x ∈ getDetectionSensor N safety motion idle zwaveValues →
        x.moduleID ∈ safety :: motion :: idle := by
    intro safety motion idle
    clear hx
    induction zwaveValues with
    | nil => intro h; cases h
    | cons item rest ih =>
      intro h
      rw [getDetectionSensor] at h
      split at h
      · split at h
        · rcases List.mem_append.mp h with h | h
          · unfold detected at h
            split_ifs at h
            · rw [List.mem_singleton.mp h]; simp
            · rw [List.mem_singleton.mp h]; simp
            · obtain ⟨m, hm, rfl⟩ := List.mem_map.mp h
              simp [hm]
          · exact ih h
        · exact ih h
      · exact ih h
  have hall : ∀ {ids : List ModuleID}, x.moduleID ∈ ids →
      (∀ m ∈ ids, ∀ r ∈ P.readings, m ≠ r.moduleID) → x.moduleID ≠ r.moduleID :=
    fun hin h => h _ hin r hr
  cases P with
  | aeotecZW100 => exact hall (hmem hx) (by decide)
  | dLinkDchZ120 => exact hall (hmem hx) (by decide)
  | fibaroFGK107 | philioPST021C | popp123601 => cases hx

theorem toList_map_inj {α β : Type} {f : α → β} (hf : Function.Injective f) {o o' : Option α}
    (h : o.toList.map f = o'.toList.map f) : o = o' := by
  cases o with
  | none => cases o' <;> simp_all
  | some x =>
    cases o' with
    | none => cases h
    | some y => rw [hf (List.cons.inj h).1]

/-- For every product and all values of a node: `extractValues` returns and each module that is searched
    for has the value of its first entry that parses, exactly if for each of them the first entry
    decides. -/
theorem extracts_iff (hN : N.Lawful B) (P : ZWaveProduct) (zwaveValues : List (ZWaveSensorValue ν)) :
    Extracts B N P zwaveValues ↔ ∀ r ∈ P.readings, r.Settled B N zwaveValues := by
  have hfst : (P.texts B N zwaveValues).map Prod.fst = P.readings.map (·.moduleID) := by
    rw [texts, List.map_map]; rfl
  have hfilter : ∀ {data : List (SensorValue V)}, insertValues B (P.texts B N zwaveValues) = .ok data →
      ∀ r ∈ P.readings, ∃ o, readText B (r.text B N zwaveValues) = .ok o ∧
        (data ++ P.detections N zwaveValues).filter (·.moduleID = r.moduleID) =
          o.toList.map fun v => ⟨r.moduleID, v, true⟩ := by
    intro data h r hr
    obtain ⟨o, ho, heq⟩ := (insertValues_spec _ h).2 (hfst ▸ readings_nodup P) _
      (List.mem_map_of_mem hr)
    have hnil : (P.detections N zwaveValues).filter (·.moduleID = r.moduleID) = [] :=
      filter_moduleID_nil fun hin => by
        obtain ⟨x, hx, hxr⟩ := List.mem_map.mp hin
        exact detections_moduleID P hx hr hxr
    exact ⟨o, ho, by rw [List.filter_append, heq, hnil, List.append_nil]⟩
  rw [Extracts, extractValues_eq]
  constructor
  · rintro ⟨all, hall, hwanted⟩ r hr
    cases hdata : insertValues B (P.texts B N zwaveValues) with
    | error e => rw [hdata] at hall; cases hall
    | ok data =>
      rw [hdata] at hall
      cases hall
      obtain ⟨o, ho, heq⟩ := hfilter hdata r hr
      rw [← readText_iff hN, ho]
      refine congrArg Except.ok (toList_map_inj ?_ (heq.symm.trans (hwanted r hr)))
      intro v w hvw
      exact (SensorValue.mk.inj hvw).2.1
  · intro hsettled
    have hread : ∀ r ∈ P.readings,
        readText B (r.text B N zwaveValues) = .ok (r.wanted B N zwaveValues) :=
      fun r hr => (readText_iff hN r).mpr (hsettled r hr)
    obtain ⟨data, hdata⟩ := insertValues_ok (P.texts B N zwaveValues) fun x hx => by
      obtain ⟨r, hr, rfl⟩ := List.mem_map.mp hx
      exact ⟨_, hread r hr⟩
    refine ⟨data ++ P.detections N zwaveValues, by rw [hdata]; rfl, fun r hr => ?_⟩
    obtain ⟨o, ho, heq⟩ := hfilter hdata r hr
    rw [heq, Except.ok.inj (ho.symm.trans (hread r hr))]

/-- Whole numbers for doubles. -/
def wholeNumbers : Numbers ℕ where
  parse s := (Sample.parseNumber 10 s).map Int.ofNat
  celsius t := (t - 32) * 10 / 18
  zero := 0
  one := 1

theorem wholeNumbers_lawful : wholeNumbers.Lawful Sample.whole where
  parseFloat_zero := by decide
  parseFloat_one := by decide
  parseFloat_level level h := by
    have hall : ∀ x ∈ pirSensor, (Sample.whole.parseFloat x.1).toOption.isSome := by decide
    have hsome := hall level h
    cases hp : Sample.whole.parseFloat level.1 with
    | error e => rw [hp] at hsome; cases hsome
    | ok v => exact ⟨v, rfl⟩
  parseFloat_text _ v _ := ⟨v, Sample.whole_parseFloat_floatText v⟩
  parseFloat_celsius _ _ _ := ⟨_, Sample.whole_parseFloat_floatText _⟩

/-- The door is open, and the battery at 77 percent. -/
theorem door_extracts : Extracts Sample.whole wholeNumbers .fibaroFGK107
    [⟨48, 0, (), "True", ""⟩, ⟨128, 0, (), "77", "%"⟩] := by
  refine (extracts_iff wholeNumbers_lawful .fibaroFGK107 _).mpr ?_
  intro r hr
  rcases List.mem_cons.mp hr with rfl | hr
  · trivial
  · obtain rfl := List.mem_singleton.mp hr
    intro item hitem
    cases hitem
    rfl

/-- A battery without a text: the state of the door is lost with it. -/
theorem empty_text_raises : ¬ ∀ (P : ZWaveProduct) (zwaveValues : List (ZWaveSensorValue Unit)),
    Extracts Sample.whole wholeNumbers P zwaveValues := by
  intro h
  obtain ⟨data, hdata, -⟩ := h .fibaroFGK107 [⟨48, 0, (), "True", ""⟩, ⟨128, 0, (), "", "%"⟩]
  have herror : extractValues Sample.whole wholeNumbers .fibaroFGK107
      [⟨48, 0, (), "True", ""⟩, ⟨128, 0, (), "", "%"⟩] = .error .syntaxError := by decide
  rw [herror] at hdata
  cases hdata

/-- What is raised while the values are extracted leaves the callback of the library: nothing of the
    report is sent. -/
theorem report_lost {E : NotificationProcessor.Surroundings V ν} {x : Notification ν}
    {s : NotificationProcessor.State ν} {i : NodeInfo ν} {manufacturer product : ℕ} {P : ZWaveProduct}
    {e : Exn} (hx : x.type = .valueChanged) (hi : s.nodesMap x.nodeId = some i)
    (hm : B.parseHex (E.manufacturerId s.homeId x.nodeId) = .ok manufacturer)
    (hp : B.parseHex (E.productId s.homeId x.nodeId) = .ok product)
    (hcreate : E.create manufacturer product = .ok (P.message B N))
    (he : P.extractValues B N (i.values.map fun item =>
      ⟨(E.commandClassId item).toNat, (E.index item).toNat, item, E.valueAsString item,
        E.valueUnits item⟩) = .error e) :
    NotificationProcessor.onNotification B E x s = { s with raised := s.raised ++ [e] } := by
  have hchanged : NotificationProcessor.valueChanged B E s.homeId x s.nodesMap = .error e := by
    rw [NotificationProcessor.valueChanged, hi]
    simp only [hm, hp, hcreate, NotificationProcessor.sendValue, message, he]
    rfl
  rw [NotificationProcessor.onNotification, hx]
  simp only [hchanged]

end ZWaveProduct
end BeeeOn
