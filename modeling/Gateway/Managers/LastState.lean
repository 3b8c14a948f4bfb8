import Gateway.Managers.Batch

/-! @src z-wave/ZWaveDeviceManager.cpp | name:Restoring the paired devices | family:error handling

    When a new list of paired devices has come, `setLastState` asks for the last values of the modules
    that can be set. It reads the manufacturer of every device from a text of the library, outside of
    any handler, where `checkQueue` has a handler around the same call. So the first device whose text
    is no hexadecimal number ends the pass, the loop of `checkQueue`, and the thread. -/

namespace BeeeOn
open GenericZWaveMessageFactory
namespace DeviceManager
variable {V W : Type} {B : Base V} {conv : V → W} {N : Network V}

/-- The manufacturer that the library has for the node of the device. -/
def MadeBy (B : Base V) (N : Network V) (manufacturer : ℕ) (d : DeviceID) : Prop :=
  B.parseHex (N.manufacturerId (nodeId d)) = .ok manufacturer

/-- Restoring the device needs the last value of the module. -/
def Wants (B : Base V) (N : Network V) (d : DeviceID) (m : ModuleID) : Prop :=
  MadeBy B N POPP_MANUFACTURER d ∧ m = ⟨0⟩ ∨
    MadeBy B N DLINK_MANUFACTURER d ∧ m = ⟨4⟩ ∨
    MadeBy B N AEOTEC_MANUFACTURER d ∧ (m = ⟨6⟩ ∨ m = ⟨8⟩)

/-- `setLastState` returns, and has asked for exactly the last values that the devices need. -/
def Restores (B : Base V) (N : Network V) (ds : List DeviceID) : Prop :=
  (setLastState B N ds).2 = none ∧
    ∀ d m, (d, m) ∈ (setLastState B N ds).1 ↔ d ∈ ds ∧ Wants B N d m

theorem mem_lastStateModules {manufacturer : ℕ} {m : ModuleID} : m ∈ lastStateModules manufacturer ↔
    manufacturer = POPP_MANUFACTURER ∧ m = ⟨0⟩ ∨ manufacturer = DLINK_MANUFACTURER ∧ m = ⟨4⟩ ∨
      manufacturer = AEOTEC_MANUFACTURER ∧ (m = ⟨6⟩ ∨ m = ⟨8⟩) := by
  unfold lastStateModules
  split_ifs <;> simp_all

/-- What a device whose manufacturer is known needs. -/
theorem wants_iff {d : DeviceID} {m : ModuleID} {manufacturer : ℕ} (h : MadeBy B N manufacturer d) :
    Wants B N d m ↔ m ∈ lastStateModules manufacturer := by
  have hmade : ∀ k, MadeBy B N k d ↔ manufacturer = k := fun k => by
    rw [MadeBy, h, Except.ok.injEq]
  rw [Wants, hmade, hmade, hmade, mem_lastStateModules]

theorem setLastState_cons {d : DeviceID} {ds : List DeviceID} {manufacturer : ℕ}
    (h : MadeBy B N manufacturer d) : setLastState B N (d :: ds) =
      ((lastStateModules manufacturer).map (d, ·) ++ (setLastState B N ds).1,
        (setLastState B N ds).2) := by
  rw [setLastState, h]

/-- The pass ends without an exception exactly if every manufacturer is known. -/
theorem setLastState_none_iff (ds : List DeviceID) :
    (setLastState B N ds).2 = none ↔ ∀ d ∈ ds, ∃ manufacturer, MadeBy B N manufacturer d := by
  induction ds with
  | nil => simp [setLastState]
  | cons d ds ih =>
    rw [List.forall_mem_cons]
    cases hp : B.parseHex (N.manufacturerId (nodeId d)) with
    | error e => simp [setLastState, hp, MadeBy]
    | ok manufacturer =>
      rw [setLastState_cons hp, ih]
      exact (and_iff_right ⟨manufacturer, hp⟩).symm

theorem mem_setLastState {ds : List DeviceID}
    (h : ∀ d ∈ ds, ∃ manufacturer, MadeBy B N manufacturer d) (d : DeviceID) (m : ModuleID) :
    (d, m) ∈ (setLastState B N ds).1 ↔ d ∈ ds ∧ Wants B N d m := by
  induction ds with
  | nil => simp [setLastState]
  | cons d' ds ih =>
    obtain ⟨⟨manufacturer, hd'⟩, hds⟩ := List.forall_mem_cons.mp h
    rw [setLastState_cons hd', List.mem_append, ih hds, List.mem_cons]
    constructor
    · rintro (hin | ⟨hd, hw⟩)
      · obtain ⟨m', hm', heq⟩ := List.mem_map.mp hin
        cases heq
        exact ⟨Or.inl rfl, (wants_iff hd').mpr hm'⟩
      · exact ⟨Or.inr hd, hw⟩
    · rintro ⟨rfl | hd, hw⟩
      · exact Or.inl (List.mem_map.mpr ⟨m, (wants_iff hd').mp hw, rfl⟩)
      · exact Or.inr ⟨hd, hw⟩

/-- For every set of devices, in every order: all are restored exactly if every manufacturer is known. -/
theorem restores_iff (ds : List DeviceID) :
    Restores B N ds ↔ ∀ d ∈ ds, ∃ manufacturer, MadeBy B N manufacturer d := by
  constructor
  · rintro ⟨hnone, -⟩
    exact (setLastState_none_iff ds).mp hnone
  · intro h
    exact ⟨(setLastState_none_iff ds).mpr h, mem_setLastState h⟩

theorem lastStateModules_nodup (manufacturer : ℕ) : (lastStateModules manufacturer).Nodup := by
  unfold lastStateModules
  split_ifs <;> simp_all [POPP_MANUFACTURER, DLINK_MANUFACTURER, AEOTEC_MANUFACTURER]

/-- No last value is asked for twice. -/
theorem setLastState_nodup {ds : List DeviceID} (hds : ds.Nodup) : (setLastState B N ds).1.Nodup := by
  have hfst : ∀ ds x, x ∈ (setLastState B N ds).1 → x.1 ∈ ds := by
    intro ds
    induction ds with
    | nil => intro x hx; cases hx
    | cons d ds ih =>
      intro x hx
      cases hp : B.parseHex (N.manufacturerId (nodeId d)) with
      | error e => simp [setLastState, hp] at hx
      | ok manufacturer =>
        rw [setLastState_cons hp] at hx
        rcases List.mem_append.mp hx with hx | hx
        · obtain ⟨m, -, rfl⟩ := List.mem_map.mp hx
          exact List.mem_cons_self
        · exact List.mem_cons_of_mem _ (ih x hx)
  induction ds with
  | nil => exact List.nodup_nil
  | cons d ds ih =>
    obtain ⟨hd, hrest⟩ := List.nodup_cons.mp hds
    cases hp : B.parseHex (N.manufacturerId (nodeId d)) with
    | error e => simp [setLastState, hp]
    | ok manufacturer =>
      rw [setLastState_cons hp, List.nodup_append]
      refine ⟨(lastStateModules_nodup _).map fun _ _ h => (Prod.mk.inj h).2, ih hrest, ?_⟩
      rintro x hx y hy rfl
      obtain ⟨m, -, rfl⟩ := List.mem_map.mp hx
      exact hd (hfst ds _ hy)

/-- What that is for `checkQueue`: at a new list of devices it goes on exactly if every manufacturer is
    known. -/
theorem body_done_iff {newID : ℕ → GlobalID} {s : State V W} {a : ℕ} {e : Entry V} {q : DevicePrefix}
    {status : Status} {devices : List DeviceID} (hfind : s.table.find? (·.answer = a) = some e)
    (hcmd : e.cmd = .serverDeviceList q) (hfirst : first s.queue a = some ⟨status, .deviceList devices⟩) :
    (body B conv (zwave B N newID) s a).2 = .done ↔
      ∀ d ∈ N.order devices.toFinset, ∃ manufacturer, MadeBy B N manufacturer d := by
  rw [(body_ran B conv (zwave B N newID) s a).ends, Stops, hfind]
  simp only [hcmd, hfirst]
  rw [← setLastState_none_iff, zwave, Option.not_isSome_iff_eq_none]

/-- Two devices: a node that is not in the network, and a switch of Popp. -/
def twoDevices : List DeviceID := [⟨⟨0xa8⟩, 1⟩, ⟨⟨0xa8⟩, 2⟩]

def oneUnknown : Network Reading :=
  ⟨fun node => if node = 1 then "" else "0154", fun _ => "0001",
    fun devices => twoDevices.filter (· ∈ devices), 0, fun _ _ _ _ => none⟩

/-- The unknown node comes first, and nothing is asked for the switch. -/
theorem switch_not_restored : ¬ ∀ ds : List DeviceID, Restores Sample.base oneUnknown ds := by
  intro h
  have hnone := (h twoDevices).1
  have hraised : (setLastState Sample.base oneUnknown twoDevices).2 = some .syntaxError := by decide
  rw [hraised] at hnone
  cases hnone

end DeviceManager
end BeeeOn
