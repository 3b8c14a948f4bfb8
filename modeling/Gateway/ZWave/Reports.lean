import Gateway.ZWave.Extraction
import Gateway.ZWave.Factory
import Gateway.Zmq.Reports

/-! @src z-wave/NotificationProcessor.cpp, z-wave/products/*.cpp | name:Reports of Z-Wave nodes |
    family:composition

    The products number their modules from zero, and none of them has more than ten. So whatever a node
    reports, what is extracted of it comes through a message (`extracted_sound`), and so does every
    record that the processor sends (`reports_sound`). Which these are is a matter of the notifications,
    of the node map and of the home id alone (`sent_reports`). -/

namespace BeeeOn
open Schemes ZWaveMessage
variable {V ν : Type}

namespace ZWaveProduct
variable {B : Base V} {N : Numbers V} {zwaveValues : List (ZWaveSensorValue ν)}

theorem insertValues_sound {items : List (ModuleID × Option String)}
    (h : ∀ item ∈ items, item.1.value.toNat < 10) : ∀ {data : List (SensorValue V)},
    insertValues B items = .ok data → ∀ x ∈ data, x.Sound := by
  induction items with
  | nil =>
    rintro data hdata x hx
    cases hdata
    cases hx
  | cons item items ih =>
    have hrest := @ih fun k hk => h k (List.mem_cons_of_mem item hk)
    obtain ⟨moduleID, text⟩ := item
    intro data hdata
    cases text with
    | none => exact hrest hdata
    | some value =>
      simp only [insertValues, bind, Except.bind, pure, Except.pure] at hdata
      cases hv : B.parseFloat value with
      | error e => rw [hv] at hdata; cases hdata
      | ok v =>
        cases hvs : insertValues B items with
        | error e => rw [hv, hvs] at hdata; cases hdata
        | ok vs =>
          rw [hv, hvs] at hdata
          cases hdata
          intro x hx
          rcases List.mem_cons.mp hx with rfl | hx
          · exact ⟨h (moduleID, some value) List.mem_cons_self, rfl⟩
          · exact hrest hvs x hx

theorem detected_sound {safety motion : ModuleID} {idle : List ModuleID}
    (hsafety : safety.value.toNat < 10) (hmotion : motion.value.toNat < 10)
    (hidle : ∀ m ∈ idle, m.value.toNat < 10) (sensorState : ℤ) :
    ∀ x ∈ detected N safety motion idle sensorState, x.Sound := by
  unfold detected
  split_ifs
  · exact List.forall_mem_singleton.mpr ⟨hsafety, rfl⟩
  · exact List.forall_mem_singleton.mpr ⟨hmotion, rfl⟩
  · exact List.forall_mem_map.mpr fun m hm => ⟨hidle m hm, rfl⟩

theorem detection_sound {safety motion : ModuleID} {idle : List ModuleID}
    (hsafety : safety.value.toNat < 10) (hmotion : motion.value.toNat < 10)
    (hidle : ∀ m ∈ idle, m.value.toNat < 10) :
    ∀ x ∈ getDetectionSensor N safety motion idle zwaveValues, x.Sound := by
  induction zwaveValues with
  | nil => intro x hx; cases hx
  | cons item rest ih =>
    rw [getDetectionSensor]
    split_ifs
    · split
      · intro x hx
        rcases List.mem_append.mp hx with hx | hx
        · exact detected_sound hsafety hmotion hidle _ x hx
        · exact ih x hx
      · exact ih
    · exact ih

/-- What a product reports comes through a message. -/
theorem extracted_sound (P : ZWaveProduct) {data : List (SensorValue V)}
    (h : P.extractValues B N zwaveValues = .ok data) : ∀ x ∈ data, x.Sound := by
  cases P with
  | aeotecZW100 =>
    simp only [extractValues, AeotecZW100ZWaveMessage.extractValues, bind, Except.bind] at h
    split at h
    · cases h
    · next vs hvs =>
      cases h
      intro x hx
      rcases List.mem_append.mp hx with hx | hx
      · exact insertValues_sound (by simp; decide) hvs x hx
      · exact detection_sound (by decide) (by decide) (by decide) x hx
  | dLinkDchZ120 =>
    simp only [extractValues, DLinkDchZ120ZWaveMessage.extractValues, bind, Except.bind] at h
    split at h
    · cases h
    · next vs hvs =>
      cases h
      intro x hx
      rcases List.mem_append.mp hx with hx | hx
      · exact insertValues_sound (by simp; decide) hvs x hx
      · exact detection_sound (by decide) (by decide) (by decide) x hx
  | fibaroFGK107 => exact insertValues_sound (by simp; decide) h
  | philioPST021C => exact insertValues_sound (by simp; decide) h
  | popp123601 => exact insertValues_sound (by simp; decide) h

end ZWaveProduct

namespace NotificationProcessor
variable (B : Base V) (N : Numbers V)

/-- The factory makes the objects of the products that are registered. -/
def Installed (E : Surroundings V ν) : Prop := ∀ manufacturer product, E.create manufacturer product =
  (GenericZWaveMessageFactory.create manufacturer product).map (ZWaveProduct.message B N)

/-- What the library says of a value. -/
def entry (E : Surroundings V ν) (item : ν) : ZWaveSensorValue ν :=
  ⟨(E.commandClassId item).toNat, (E.index item).toNat, item, E.valueAsString item, E.valueUnits item⟩

/-- The record, if it goes out: its device is paired or the manager listens, and the client sends. -/
def offered (E : Surroundings V ν) (data : SensorData V) : Option (SensorData V) :=
  if E.paired data.deviceID || E.listen then
    (E.send (ZMQMessage.fromSensorData B data)).toOption.map fun _ => data
  else none

/-- What goes out for a node with the values `values`: its product has a class, which makes something of
    the values. -/
def record (E : Surroundings V ν) (homeId : BitVec 32) (nodeId : BitVec 8) (values : List ν) :
    Option (SensorData V) := do
  let manufacturer ← (B.parseHex (E.manufacturerId homeId nodeId)).toOption
  let product ← (B.parseHex (E.productId homeId nodeId)).toOption
  let P ← (GenericZWaveMessageFactory.create manufacturer product).toOption
  let extracted ← (P.extractValues B N (values.map (entry E))).toOption
  offered B E ⟨⟨E.prefixZWave, getEUID homeId nodeId⟩, extracted⟩

/-- The record that a notification sends: that of its node, if a value of it has changed. -/
def report (E : Surroundings V ν) (x : Notification ν) (homeId : BitVec 32) (m : NodeInfoMap ν) :
    Option (SensorData V) :=
  if x.type = .valueChanged then
    (m x.nodeId).bind fun i => record B N E homeId x.nodeId i.values
  else none

/-- The home id after a notification. -/
def homeIdAfter (x : Notification ν) (homeId : BitVec 32) : BitVec 32 :=
  if x.type = .driverReady then x.homeId else homeId

/-- The records that are sent for the notifications, with the home id and the map before them. -/
def reports : BitVec 32 → NodeInfoMap ν → List (Surroundings V ν × Notification ν) → List (SensorData V)
  | _, _, [] => []
  | homeId, m, (E, x) :: ls =>
    (report B N E x homeId m).toList ++ reports (homeIdAfter x homeId) (nodesAfter x m) ls

variable {B N} {E : Surroundings V ν} {x : Notification ν} {s t : State ν}

theorem offered_eq {d data : SensorData V} (h : offered B E d = some data) : d = data := by
  unfold offered at h
  split_ifs at h
  obtain ⟨-, -, hd⟩ := Option.map_eq_some_iff.mp h
  exact hd

theorem record_sound {homeId : BitVec 32} {nodeId : BitVec 8} {values : List ν} {data : SensorData V}
    (h : record B N E homeId nodeId values = some data) : data.Sound := by
  obtain ⟨manufacturer, -, h⟩ := Option.bind_eq_some_iff.mp h
  obtain ⟨product, -, h⟩ := Option.bind_eq_some_iff.mp h
  obtain ⟨P, -, h⟩ := Option.bind_eq_some_iff.mp h
  obtain ⟨extracted, hextracted, h⟩ := Option.bind_eq_some_iff.mp h
  obtain rfl := offered_eq h
  cases he : P.extractValues B N (values.map (entry E)) with
  | error e =>
    rw [he] at hextracted
    cases hextracted
  | ok vs =>
    rw [he] at hextracted
    cases hextracted
    exact ZWaveProduct.extracted_sound P he

theorem reports_sound {ls : List (Surroundings V ν × Notification ν)} :
    ∀ {homeId : BitVec 32} {m : NodeInfoMap ν}, ∀ data ∈ reports B N homeId m ls, data.Sound := by
  induction ls with
  | nil =>
    intro homeId m data hdata
    cases hdata
  | cons l ls ih =>
    obtain ⟨E, x⟩ := l
    intro homeId m data hdata
    rcases List.mem_append.mp hdata with hdata | hdata
    · have hreport := Option.mem_toList.mp hdata
      rw [report] at hreport
      split_ifs at hreport
      obtain ⟨i, -, hrecord⟩ := Option.bind_eq_some_iff.mp hreport
      exact record_sound hrecord
    · exact ih data hdata

/-- `sendValue` gives the message of the record, if it goes out. -/
theorem sendValue_eq {P : ZWaveProduct} (homeId : BitVec 32) (nodeId : BitVec 8) (values : List ν) :
    (sendValue B E homeId nodeId (P.message B N) values).toOption.join =
      ((P.extractValues B N (values.map (entry E))).toOption.bind fun extracted =>
        offered B E ⟨⟨E.prefixZWave, getEUID homeId nodeId⟩, extracted⟩).map
          (ZMQMessage.fromSensorData B) := by
  have hsend : sendValue B E homeId nodeId (P.message B N) values =
      (P.extractValues B N (values.map (entry E))).bind fun extracted =>
        let deviceID : DeviceID := ⟨E.prefixZWave, getEUID homeId nodeId⟩
        if !E.paired deviceID && !E.listen then .ok none
        else (E.send (ZMQMessage.fromSensorData B ⟨deviceID, extracted⟩)).map fun _ =>
          some (ZMQMessage.fromSensorData B ⟨deviceID, extracted⟩) := rfl
  rw [hsend]
  cases P.extractValues B N (values.map (entry E)) with
  | error e => rfl
  | ok extracted =>
    dsimp only [Except.bind, Except.toOption, Option.bind_some, offered]
    cases E.paired ⟨E.prefixZWave, getEUID homeId nodeId⟩ <;> cases E.listen
    · rfl
    all_goals
      cases E.send (ZMQMessage.fromSensorData B ⟨⟨E.prefixZWave, getEUID homeId nodeId⟩, extracted⟩)
      · rfl
      · rfl

/-- `valueChanged` gives the message of the record of the node. -/
theorem valueChanged_eq (hE : Installed B N E) (homeId : BitVec 32) (m : NodeInfoMap ν) :
    (valueChanged B E homeId x m).toOption.join =
      ((m x.nodeId).bind fun i => record B N E homeId x.nodeId i.values).map
        (ZMQMessage.fromSensorData B) := by
  unfold valueChanged
  cases m x.nodeId with
  | none => rfl
  | some i =>
    rw [Option.bind_some, record]
    cases B.parseHex (E.manufacturerId homeId x.nodeId) with
    | error e => rfl
    | ok manufacturer =>
      cases B.parseHex (E.productId homeId x.nodeId) with
      | error e => rfl
      | ok product =>
        dsimp only [Except.toOption, bind, Option.bind_some]
        rw [hE]
        cases GenericZWaveMessageFactory.create manufacturer product with
        | error e => rfl
        | ok P => exact sendValue_eq homeId x.nodeId i.values

/-- What a notification sends. -/
theorem onNotification_sent (hE : Installed B N E) : (onNotification B E x s).sent =
    s.sent ++ ((report B N E x s.homeId s.nodesMap).map (ZMQMessage.fromSensorData B)).toList := by
  unfold onNotification report
  cases hx : x.type with
  | valueChanged =>
    rw [if_pos rfl, ← valueChanged_eq hE]
    cases valueChanged B E s.homeId x s.nodesMap with
    | error e => exact (List.append_nil _).symm
    | ok sent =>
      cases sent with
      | none => exact (List.append_nil _).symm
      | some m => rfl
  | _ => exact (List.append_nil _).symm

theorem onNotification_homeId : (onNotification B E x s).homeId = homeIdAfter x s.homeId := by
  unfold onNotification homeIdAfter
  cases x.type with
  | valueChanged =>
    dsimp only
    split <;> rfl
  | _ => rfl

/-- In every run of the processor the messages that are sent are those of the records. -/
theorem sent_reports {ls : List (Surroundings V ν × Notification ν)} (hE : ∀ l ∈ ls, Installed B N l.1) :
    ∀ {s : State ν}, (system B).run s ls = some t →
      t.sent = s.sent ++ (reports B N s.homeId s.nodesMap ls).map (ZMQMessage.fromSensorData B) := by
  induction ls with
  | nil =>
    intro s h
    cases h
    exact (List.append_nil _).symm
  | cons l ls ih =>
    obtain ⟨E, x⟩ := l
    intro s h
    obtain ⟨u, hu, hrest⟩ := ((system B).run_cons_iff).mp h
    obtain rfl : onNotification B E x s = u := Option.some.inj hu
    rw [ih (fun l hl => hE l (List.mem_cons_of_mem _ hl)) hrest, onNotification_homeId,
      onNotification_nodesMap, onNotification_sent (hE (E, x) List.mem_cons_self), reports,
      List.map_append, List.append_assoc]
    cases report B N E x s.homeId s.nodesMap <;> rfl

end NotificationProcessor
end BeeeOn
