import Gateway.Managers.Receiving

/-! @src z-wave/ZWaveMessage.cpp, z-wave/products/*.cpp, z-wave/ZWaveDeviceManager.cpp |
    name:Commanded numbers | family:formats

    Two modules of the Z-Wave products are set to any number that a command gives: the refresh time of
    Aeotec and the sensitivity of D-Link. The number goes through text and back, and is then cut to the
    type that the library has for the value. Nothing asks whether it fits, so the device is set to
    another number exactly if it does not (`command_unaltered_iff`). -/

namespace BeeeOn
variable {V ν : Type}

namespace ZWaveMessage

/-- The number that is passed, if it is one. -/
def Passed.number : Passed → Option ℤ
  | byte n => some n.toNat
  | short n => some n.toInt
  | int n => some n.toInt
  | bool _ | selection _ => none

/-- The type has the number; nothing is asked of the types that have none. -/
def Fits : ValueType → ℤ → Prop
  | .byte, v => 0 ≤ v ∧ v < 2 ^ 8
  | .short, v => -2 ^ 15 ≤ v ∧ v < 2 ^ 15
  | .int, v => -2 ^ 31 ≤ v ∧ v < 2 ^ 31
  | .bool, _ | .list, _ | .other, _ => True

/-- The module of a product that is set to any number, and the index that the node has it by. -/
def numeric : ZWaveProduct → Option (ModuleID × BitVec 8)
  | .aeotecZW100 => some (AEOTEC_MODULE_REFRESH_TIME, AEOTEC_SENSOR_INDEX_REFRESH_TIME)
  | .dLinkDchZ120 => some (DLINK_MODULE_PIR_SENSITIVITY, DLINK_PIR_SENSOR_SENSITIVITY_INDEX)
  | .fibaroFGK107 | .philioPST021C | .popp123601 => none

/-- Every number that is passed is this one. -/
def Unaltered (v : ℤ) (o : Outcome ν) : Prop := ∀ x ∈ o.1, ∀ n, x.2.number = some n → n = v

section
variable (L : Library V ν) (nodes : NotificationProcessor.NodeInfoMap ν) (nodeId : BitVec 8)

/-- The value of the configuration that a node has by an index. -/
def configuration (index : BitVec 8) : Option ν :=
  (nodes nodeId).bind fun nodeInfo => nodeInfo.values.find? fun item =>
    L.commandClassId item = COMMAND_CLASS_CONFIGURATION ∧ L.index item = index

end

theorem toNat_ofInt_iff (w : ℕ) (v : ℤ) : ((BitVec.ofInt w v).toNat : ℤ) = v ↔ 0 ≤ v ∧ v < 2 ^ w := by
  have hpos : (0 : ℤ) < 2 ^ w := by positivity
  rw [BitVec.toNat_ofInt]
  constructor
  · intro h
    have hlt := Int.emod_lt_of_pos v hpos
    push_cast at h
    omega
  · rintro ⟨h0, hlt⟩
    push_cast
    rw [Int.emod_eq_of_lt h0 hlt]
    omega

theorem toInt_ofInt_iff {w : ℕ} (hw : 0 < w) (v : ℤ) :
    (BitVec.ofInt w v).toInt = v ↔ -2 ^ (w - 1) ≤ v ∧ v < 2 ^ (w - 1) := by
  constructor
  · intro h
    rw [← h]
    exact ⟨BitVec.le_toInt _, BitVec.toInt_lt⟩
  · rintro ⟨hle, hlt⟩
    exact BitVec.toInt_ofInt_eq_self hw hle hlt

variable {B : Base V} {L : Library V ν} {nodes : NotificationProcessor.NodeInfoMap ν}
  {nodeId : BitVec 8}

theorem unaltered_nil (v : ℤ) (e : Option Exn) : Unaltered v (([], e) : Outcome ν) := fun _ hx => by
  cases hx

theorem unaltered_pass {item : ν} {p : Passed} {v : ℤ} :
    Unaltered v (pass L item p) ↔ ∀ n, p.number = some n → n = v := by
  simp [Unaltered, pass]

/-- A number that is parsed as itself is passed as itself if its type has it. -/
theorem unaltered_send {x : V} {v : ℤ} (item : ν) (hexact : B.parseFloat (B.floatText x) = .ok x)
    (hint : L.trunc x = v) :
    Unaltered v (sendActuatorValue B L item (B.floatText x)) ↔ Fits (L.valueType item) v := by
  unfold sendActuatorValue
  cases L.valueType item with
  | bool => simp [passNumber, hexact, unaltered_pass, Passed.number, Fits]
  | byte =>
    simp only [passNumber, hexact, unaltered_pass, Passed.number, Option.some.injEq, forall_eq', hint]
    exact toNat_ofInt_iff 8 v
  | short =>
    simp only [passNumber, hexact, unaltered_pass, Passed.number, Option.some.injEq, forall_eq', hint]
    exact toInt_ofInt_iff (by decide) v
  | int =>
    simp only [passNumber, hexact, unaltered_pass, Passed.number, Option.some.injEq, forall_eq', hint]
    exact toInt_ofInt_iff (by decide) v
  | list => simp [unaltered_pass, Passed.number, Fits]
  | other => simp [unaltered_nil, Fits]

theorem setActuator_configuration (value : String) (index : BitVec 8) :
    setActuator B L nodes nodeId value COMMAND_CLASS_CONFIGURATION index =
      match configuration L nodes nodeId index with
      | some item => sendActuatorValue B L item value
      | none => ([], none) := by
  rw [setActuator, configuration]
  cases nodes nodeId <;> rfl

/-- A product with such a module passes the text of the one value. -/
theorem setValue_numeric {product : ZWaveProduct} {moduleID : ModuleID} {index : BitVec 8}
    (h : numeric product = some (moduleID, index)) (x : V) :
    (setValue B L nodes nodeId product [⟨moduleID, x, true⟩]).1 =
      (setActuator B L nodes nodeId (B.floatText x) COMMAND_CLASS_CONFIGURATION index).1 := by
  have hthen : ∀ o : Outcome ν, (o.andThen ([], none)).1 = o.1 := fun o => by
    obtain ⟨sent, _ | e⟩ := o <;> simp [Outcome.andThen]
  cases product with
  | aeotecZW100 =>
    cases h
    simp only [setValue, AeotecZW100ZWaveMessage.setValue, AEOTEC_PIR_SENSOR_ACTUATOR,
      AEOTEC_MODULE_REFRESH_TIME]
    exact hthen _
  | dLinkDchZ120 =>
    cases h
    simp only [setValue, DLinkDchZ120ZWaveMessage.setValue, forward, if_true]
    exact hthen _
  | fibaroFGK107 | philioPST021C | popp123601 => cases h

end ZWaveMessage

namespace Receiving
open ZWaveMessage

/-- For every number and every type of the value that it is for: a set command for such a module passes
    the number itself, or nothing, exactly if the type of the value has it. -/
theorem command_unaltered_iff {B : Base V} {C : Controller} {L : Library V ν}
    {nodes : NotificationProcessor.NodeInfoMap ν} {d : DeviceID} {product : ZWaveProduct}
    {moduleID : ModuleID} {index : BitVec 8} {x : V} {v : ℤ}
    (hproduct : nodeProduct B C (DeviceManager.nodeId d) = .ok product)
    (hnumeric : numeric product = some (moduleID, index))
    (hexact : B.parseFloat (B.floatText x) = .ok x) (hint : L.trunc x = v) :
    Unaltered v (setNodeValue B C L nodes d moduleID x) ↔
      ∀ item, configuration L nodes (DeviceManager.nodeId d) index = some item →
        Fits (L.valueType item) v := by
  have hsent : Unaltered v (setNodeValue B C L nodes d moduleID x) ↔ Unaltered v
      (setActuator B L nodes (DeviceManager.nodeId d) (B.floatText x) COMMAND_CLASS_CONFIGURATION
        index) := by
    rw [setNodeValue, hproduct, Unaltered, setValue_numeric hnumeric]
    rfl
  rw [hsent, setActuator_configuration]
  cases configuration L nodes (DeviceManager.nodeId d) index with
  | none => exact iff_of_true (unaltered_nil v none) fun item h => by cases h
  | some item =>
    rw [unaltered_send item hexact hint]
    simp

/-- The node is of Aeotec. -/
def aeotecNode : Controller := ⟨none, none, fun _ => .ok "0086", fun _ => .ok "0064", 0⟩

/-- Every value is a refresh time, of the type that it is named by. -/
def refreshTime : Library ℕ ValueType where
  commandClassId _ := COMMAND_CLASS_CONFIGURATION
  index _ := AEOTEC_SENSOR_INDEX_REFRESH_TIME
  valueType := id
  trunc n := n
  nonzero n := n ≠ 0
  setValue _ _ := none

/-- A byte takes 255. -/
theorem byte_takes_255 : Unaltered 255 (setNodeValue Sample.whole aeotecNode refreshTime
    (fun _ => some ⟨true, [.byte]⟩) ⟨⟨0xa8⟩, 1⟩ AEOTEC_MODULE_REFRESH_TIME 255) := by
  refine (command_unaltered_iff rfl rfl
    (Sample.whole_parseFloat_floatText 255) rfl).mpr ?_
  rintro item hitem
  cases hitem
  exact ⟨by decide, by decide⟩

/-- With 256 it is set to 0. -/
theorem byte_wraps : ¬ ∀ (nodes : NotificationProcessor.NodeInfoMap ValueType) (d : DeviceID) (n : ℕ),
    Unaltered n (setNodeValue Sample.whole aeotecNode refreshTime nodes d
      AEOTEC_MODULE_REFRESH_TIME n) := by
  intro h
  have hpassed := h (fun _ => some ⟨true, [.byte]⟩) ⟨⟨0xa8⟩, 1⟩ 256 (.byte, .byte 0) (by decide) 0 rfl
  cases hpassed

end Receiving
end BeeeOn
