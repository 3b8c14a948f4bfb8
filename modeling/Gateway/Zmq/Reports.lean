import Gateway.Zmq.RoundTrip
import Gateway.Zmq.Broker

/-! @src zmq/ZMQMessage.cpp, zmq/ZMQBroker.cpp | name:Reports of measured values | family:composition

    What a manager has measured goes as a message to the broker, which reads it and exports it. If the
    ids of the modules are single digits and the values are valid, the device, the modules and their
    order come through, and each value as what is read of its text (`toSensorData_sound`). In a run of
    the broker nothing else is exported than the messages of measured values that it can read, in the
    order in which it gets them (`run_exported`). -/

namespace BeeeOn
open Schemes
variable {V : Type}

/-- A value that comes through a message, but for what its text leaves out. -/
def SensorValue.Sound (x : SensorValue V) : Prop := x.moduleID.value.toNat < 10 ∧ x.valid = true

def SensorData.Sound (data : SensorData V) : Prop := ∀ x ∈ data.values, x.Sound

namespace ZMQMessage
variable (B : Base V)

/-- The value with what is read of its text. -/
def receivedValue (x : SensorValue V) : Except Exn (SensorValue V) :=
  (B.parseFloat (B.floatText x.value)).map fun value => { x with value := value }

/-- The record as it is received. -/
def received (data : SensorData V) : Except Exn (SensorData V) :=
  (data.values.mapM (receivedValue B)).map (⟨data.deviceID, ·⟩)

variable {B}

theorem getSensorValue_sound (hB : B.Lawful) {x : SensorValue V} (h : x.Sound) :
    getSensorValue B (setSensorValue B [] x) = receivedValue B x := by
  rw [getSensorValue_set hB, (ModuleID.parse_toString hB _).mpr h.1, receivedValue, ← h.2]
  cases B.parseFloat (B.floatText x.value) <;> rfl

theorem toSensorData_sound (hB : B.Lawful) {data : SensorData V} (h : data.Sound) :
    toSensorData B (fromSensorData B data) = received B data := by
  rw [toSensorData_fromSensorData hB, received]
  refine congrArg (Except.map _) ?_
  obtain ⟨deviceID, values⟩ := data
  induction values with
  | nil => rfl
  | cons x values ih =>
    rw [List.mapM_cons, List.mapM_cons, getSensorValue_sound hB (h x List.mem_cons_self),
      ih fun y hy => h y (List.mem_cons_of_mem x hy)]

end ZMQMessage

namespace Broker
open ZMQBroker (parsed)
variable (P : Platform V)

/-- What is exported of a message. -/
def reportOf (m : ZMQMessage) : Option (SensorData V) :=
  match m.type P.base with
  | .ok .measuredValues => (m.toSensorData P.base).toOption
  | _ => none

/-- What a step exports. -/
def exports : Label V → Option (SensorData V)
  | .data identity json =>
    match parsed P.base json, DeviceManagerID.parse P.base identity with
    | .ok m, .ok _ => reportOf P m
    | _, _ => none
  | _ => none

variable {P} {s t : State V} {l : Label V} {ls : List (Label V)}

theorem attempt_exported (s : State V) (identity : String) (m : ZMQMessage) :
    (attempt P s identity m).2.exported = s.exported ++
      (match DeviceManagerID.parse P.base identity with
        | .ok _ => (reportOf P m).toList
        | .error _ => []) := by
  unfold attempt
  cases DeviceManagerID.parse P.base identity with
  | error e => exact (List.append_nil _).symm
  | ok manager =>
    simp only [handleDataMessage, reportOf]
    cases m.type P.base with
    | error e => exact (List.append_nil _).symm
    | ok type =>
      cases type with
      | measuredValues =>
        dsimp only
        cases m.toSensorData P.base with
        | error e => exact (List.append_nil _).symm
        | ok data => rfl
      | defaultResult =>
        obtain ⟨q, b, h⟩ := doDefaultResult_frame (P := P) s m
        dsimp only
        rw [h]
        exact (List.append_nil _).symm
      | deviceLastValueCmd | deviceListCmd =>
        simp only [doDeviceLastValueCommand, doDeviceListCommand, doCommand, Option.toList_none,
          List.append_nil]
        split <;> rfl
      | _ => exact (List.append_nil _).symm

theorem checkItem_exported (now : ℤ) (s : State V) (item : DeviceID × SettingValueItem V) :
    (checkItem now s item).2.exported = s.exported := by
  unfold checkItem
  split
  · rfl
  · split
    · rfl
    · rw [apply_ite Prod.snd, apply_ite State.exported, ite_self]
  · rfl

theorem sweep_exported (now : ℤ) (items : List (DeviceID × SettingValueItem V)) :
    ∀ s : State V, (sweep now s items).2.exported = s.exported := by
  induction items with
  | nil => intro s; rfl
  | cons item items ih =>
    intro s
    have hitem := checkItem_exported now s item
    rw [sweep]
    split
    · next t h =>
      rw [h] at hitem
      exact (ih t).trans hitem
    · exact hitem

/-- A step exports what it is to export, and takes nothing back. -/
theorem step_exported (h : (system P).step s l = some t) :
    t.exported = s.exported ++ (exports P l).toList := by
  cases l with
  | hello json =>
    simp only [system] at h
    split_ifs at h
    obtain rfl := Option.some.inj h
    obtain ⟨b, hb⟩ := ended_eq (helloServerReceive P s json)
    rw [hb]
    exact (List.append_nil _).symm
  | data identity json =>
    simp only [system] at h
    split_ifs at h
    obtain rfl := Option.some.inj h
    rcases data_eq (P := P) s identity json with ⟨m, fs, b, hm, h⟩ | ⟨e, fs, b, he, h⟩
    · rw [h, exports, hm]
      refine (attempt_exported s identity m).trans (congrArg (s.exported ++ ·) ?_)
      cases DeviceManagerID.parse P.base identity <;> rfl
    · rw [h, exports, he]
      exact (List.append_nil _).symm
  | begin cmd now =>
    simp only [system] at h
    split_ifs at h
    obtain rfl := Option.some.inj h
    unfold begin
    split <;> exact (List.append_nil _).symm
  | next k id =>
    simp only [system] at h
    split_ifs at h
    obtain ⟨cmd, a, manager, managers, msg, -, -, -, rfl⟩ := next_eq h
    exact (List.append_nil _).symm
  | tick now =>
    simp only [system] at h
    split_ifs at h
    obtain rfl := Option.some.inj h
    exact (sweep_exported now s.settingTable s).trans (List.append_nil _).symm

/-- In every run the broker exports the messages of measured values that it can read, once each and in the
    order in which it gets them. -/
theorem run_exported (h : (system P).run s ls = some t) :
    t.exported = s.exported ++ ls.filterMap (exports P) := by
  induction ls generalizing s with
  | nil =>
    cases h
    exact (List.append_nil _).symm
  | cons l ls ih =>
    obtain ⟨u, hu, hrest⟩ := ((system P).run_cons_iff).mp h
    rw [ih hrest, step_exported hu, List.append_assoc, List.filterMap_cons]
    cases exports P l <;> rfl

end Broker
end BeeeOn
