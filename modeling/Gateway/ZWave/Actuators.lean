import Gateway.ZWave.Factory
import Gateway.ZWave.NotificationProcessor

/-! @src z-wave/ZWaveMessage.cpp, z-wave/products/*.cpp | name:Values on their way to Z-Wave nodes |
    family:formats

    The class of a product knows which of its modules can be set, and by which command class and index
    the node has them. `setActuator` looks the value up in the map of nodes and hands the text of the
    number to the library, by the type that the library has for the value. What does not parse is only
    logged; an exception of the library itself is none of Poco's, and leaves (`blames_setValue`). -/

namespace BeeeOn
open NotificationProcessor (NodeInfoMap)
variable {V ν : Type}

namespace ZWaveMessage

/-- The types of `OpenZWave::ValueID` that are told apart. -/
inductive ValueType where
  | bool | byte | short | int | list | other
  deriving DecidableEq, Repr

/-- The argument of `Manager::SetValue`, or of `SetValueListSelection`. -/
inductive Passed where
  | bool (b : Bool)
  | byte (n : BitVec 8)
  | short (n : BitVec 16)
  | int (n : BitVec 32)
  | selection (s : String)
  deriving DecidableEq, Repr

/-- What the Z-Wave library knows of a value and what setting it raises, with the conversions of a
    double to an integer, of which the low bits are kept, and to a truth value. -/
structure Library (V ν : Type) where
  commandClassId : ν → BitVec 8
  index : ν → BitVec 8
  valueType : ν → ValueType
  trunc : V → ℤ
  nonzero : V → Bool
  setValue : ν → Passed → Option Exn

def COMMAND_CLASS_SWITCH_BINARY : BitVec 8 := 37
def COMMAND_CLASS_CONFIGURATION : BitVec 8 := 112
def AEOTEC_PIR_SENSOR_ACTUATOR : ModuleID := ⟨6⟩
def AEOTEC_PIR_SENSOR_INDEX : BitVec 8 := 4
def AEOTEC_MODULE_REFRESH_TIME : ModuleID := ⟨8⟩
def AEOTEC_SENSOR_INDEX_REFRESH_TIME : BitVec 8 := 111
def DLINK_MODULE_PIR_SENSITIVITY : ModuleID := ⟨4⟩
def DLINK_PIR_SENSOR_SENSITIVITY_INDEX : BitVec 8 := 3

/-- What has been passed to the library, and the exception that it has answered with. -/
abbrev Outcome (ν : Type) := List (ν × Passed) × Option Exn

/-- Nothing more after an exception. -/
def Outcome.andThen (o o' : Outcome ν) : Outcome ν :=
  match o.2 with
  | none => (o.1 ++ o'.1, o'.2)
  | some e => (o.1, some e)

variable (B : Base V) (L : Library V ν)

def pass (item : ν) (p : Passed) : Outcome ν := ([(item, p)], L.setValue item p)

/-- A text that is no number is only logged. -/
def passNumber (item : ν) (value : String) (f : V → Passed) : Outcome ν :=
  match B.parseFloat value with
  | .ok data => pass L item (f data)
  | .error _ => ([], none)

def sendActuatorValue (item : ν) (value : String) : Outcome ν :=
  match L.valueType item with
  | .bool => passNumber B L item value fun data => .bool (L.nonzero data)
  | .byte => passNumber B L item value fun data => .byte (BitVec.ofInt 8 (L.trunc data))
  | .short => passNumber B L item value fun data => .short (BitVec.ofInt 16 (L.trunc data))
  | .int => passNumber B L item value fun data => .int (BitVec.ofInt 32 (L.trunc data))
  | .list => pass L item (.selection value)
  | .other => ([], none)

variable (nodes : NodeInfoMap ν) (nodeId : BitVec 8)

def setActuator (value : String) (commandClass index : BitVec 8) : Outcome ν :=
  match nodes nodeId with
  | none => ([], none)
  | some nodeInfo =>
    match nodeInfo.values.find? fun item =>
        L.commandClassId item = commandClass ∧ L.index item = index with
    | some item => sendActuatorValue B L item value
    | none => ([], none)

/-! ### The products -/

/-- The loop of a product with one module to set, which is forwarded as the text of its number. -/
def forward (moduleID : ModuleID) (commandClass index : BitVec 8) : List (SensorValue V) → Outcome ν
  | [] => ([], none)
  | data :: rest =>
    if data.moduleID = moduleID then
      (setActuator B L nodes nodeId (B.floatText data.value) commandClass index).andThen
        (forward moduleID commandClass index rest)
    else forward moduleID commandClass index rest

def DLinkDchZ120ZWaveMessage.setValue : List (SensorValue V) → Outcome ν :=
  forward B L nodes nodeId DLINK_MODULE_PIR_SENSITIVITY COMMAND_CLASS_CONFIGURATION
    DLINK_PIR_SENSOR_SENSITIVITY_INDEX

def Popp123601ZWaveMessage.setValue : List (SensorValue V) → Outcome ν :=
  forward B L nodes nodeId ⟨0⟩ COMMAND_CLASS_SWITCH_BINARY 0

def FibaroFGK107ZWaveMessage.setValue (_ : List (SensorValue V)) : Outcome ν := ([], none)

def PhilioPST021CZWaveMessage.setValue (_ : List (SensorValue V)) : Outcome ν := ([], none)

/-- `m_pirSensor`, as `setMapValue` fills it. -/
def pirSensor : List (String × String) :=
  [("0", "Disabled"), ("1", "Enabled level 1 (minimum sensitivity)"), ("2", "Enabled level 2"),
    ("3", "Enabled level 3"), ("4", "Enabled level 4"), ("5", "Enabled level 5 (maximum sensitivity)")]

/-- A sensitivity that is not in the map ends the loop. -/
def AeotecZW100ZWaveMessage.setValue : List (SensorValue V) → Outcome ν
  | [] => ([], none)
  | data :: rest =>
    if data.moduleID = AEOTEC_PIR_SENSOR_ACTUATOR then
      match pirSensor.lookup (toString (BitVec.ofInt 32 (L.trunc data.value)).toInt) with
      | none => ([], none)
      | some level =>
        (setActuator B L nodes nodeId level COMMAND_CLASS_CONFIGURATION
          AEOTEC_PIR_SENSOR_INDEX).andThen (AeotecZW100ZWaveMessage.setValue rest)
    else if data.moduleID = AEOTEC_MODULE_REFRESH_TIME then
      (setActuator B L nodes nodeId (B.floatText data.value) COMMAND_CLASS_CONFIGURATION
        AEOTEC_SENSOR_INDEX_REFRESH_TIME).andThen (AeotecZW100ZWaveMessage.setValue rest)
    else AeotecZW100ZWaveMessage.setValue rest

/-- `setValue` of the class of a product. -/
def setValue : ZWaveProduct → List (SensorValue V) → Outcome ν
  | .aeotecZW100 => AeotecZW100ZWaveMessage.setValue B L nodes nodeId
  | .dLinkDchZ120 => DLinkDchZ120ZWaveMessage.setValue B L nodes nodeId
  | .fibaroFGK107 => FibaroFGK107ZWaveMessage.setValue
  | .philioPST021C => PhilioPST021CZWaveMessage.setValue
  | .popp123601 => Popp123601ZWaveMessage.setValue B L nodes nodeId

/-! ### What it raises -/

/-- The exception is the first one that the library has answered with, and there is none without. -/
def Blames (o : Outcome ν) : Prop := o.2 = o.1.findSome? fun x => L.setValue x.1 x.2

variable {B L nodes nodeId}

theorem blames_none : Blames L (([], none) : Outcome ν) := rfl

theorem blames_pass (item : ν) (p : Passed) : Blames L (pass L item p) := by
  rw [Blames, pass, List.findSome?_singleton]

theorem Blames.andThen {o o' : Outcome ν} (h : Blames L o) (h' : Blames L o') :
    Blames L (o.andThen o') := by
  obtain ⟨sent, r⟩ := o
  cases r with
  | none =>
    have hsent : sent.findSome? (fun x => L.setValue x.1 x.2) = none := h.symm
    rw [Blames, Outcome.andThen, List.findSome?_append, hsent, Option.none_or]
    exact h'
  | some e => exact h

theorem blames_passNumber (item : ν) (value : String) (f : V → Passed) :
    Blames L (passNumber B L item value f) := by
  unfold passNumber
  split
  · exact blames_pass item _
  · exact blames_none

theorem blames_sendActuatorValue (item : ν) (value : String) :
    Blames L (sendActuatorValue B L item value) := by
  unfold sendActuatorValue
  cases L.valueType item with
  | list => exact blames_pass item _
  | other => exact blames_none
  | bool | byte | short | int => exact blames_passNumber item value _

theorem blames_setActuator (value : String) (commandClass index : BitVec 8) :
    Blames L (setActuator B L nodes nodeId value commandClass index) := by
  unfold setActuator
  split
  · exact blames_none
  · split
    · exact blames_sendActuatorValue _ value
    · exact blames_none

theorem blames_forward (moduleID : ModuleID) (commandClass index : BitVec 8)
    (values : List (SensorValue V)) :
    Blames L (forward B L nodes nodeId moduleID commandClass index values) := by
  induction values with
  | nil => exact blames_none
  | cons data rest ih =>
    rw [forward]
    split
    · exact (blames_setActuator _ _ _).andThen ih
    · exact ih

theorem blames_aeotec (values : List (SensorValue V)) :
    Blames L (AeotecZW100ZWaveMessage.setValue B L nodes nodeId values) := by
  induction values with
  | nil => exact blames_none
  | cons data rest ih =>
    rw [AeotecZW100ZWaveMessage.setValue]
    split
    · split
      · exact blames_none
      · exact (blames_setActuator _ _ _).andThen ih
    · split
      · exact (blames_setActuator _ _ _).andThen ih
      · exact ih

/-- For every product and all values: what is raised is what the library raises. -/
theorem blames_setValue (product : ZWaveProduct) (values : List (SensorValue V)) :
    Blames L (setValue B L nodes nodeId product values) := by
  cases product with
  | aeotecZW100 => exact blames_aeotec values
  | dLinkDchZ120 | popp123601 => exact blames_forward _ _ _ values
  | fibaroFGK107 | philioPST021C => exact blames_none

end ZWaveMessage
end BeeeOn
