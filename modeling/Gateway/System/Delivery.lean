import Gateway.System.Exchange

/-! @src zmq/ZMQBroker.cpp, zmq/ZMQUtil.cpp, core/DeviceManager.h | name:Requests that are lost |
    family:exactly once

    The broker enters no request twice; whether it enters every one depends on two things only. A
    message may be lost on the way, and the broker may be unable to read it: the answer is made, and the
    exception that decoding raises is logged and forgotten. As long as neither happens, every request of
    every manager is entered or on the way, and once one of the two has happened, a request is gone
    (`requests_complete_iff`). -/

namespace BeeeOn
open Schemes
variable {V W : Type} {B : Base V} {conv : V → W} {hs : List (CommandHandler V)}

namespace Network
open DeviceManager (Entry)

/-- Every request of manager `k` is entered by the broker or on the way, in the order in which they were
    sent. -/
def State.Complete (B : Base V) (s : State V W) (k : DeviceManagerID) : Prop :=
  s.served k ++ s.underway B k = (s.managers k).sent.map Entry.id

/-- The step does not lose the next request of a manager, and the broker can read it if it takes it. -/
def Keeps (B : Base V) (s : State V W) : Label V → Prop
  | .lost k => s.toBroker k = []
  | .receive k => ∀ m, (s.toBroker k).head? = some m →
      ∃ manager id cmd, handleDataMessage B k m = some (.request manager id cmd)
  | _ => True

/-- How many requests of manager `k` are entered or on the way. -/
def State.count (s : State V W) (k : DeviceManagerID) : ℕ :=
  ((Requests.requests s.work).filter (·.deviceManagerID = k)).length + (s.toBroker k).length

variable {s t : State V W}

/-- In the order in which they were sent they always are, so it is enough to count them. -/
theorem Inv.complete_iff (hI : Inv B conv hs s) (hB : Wired B) (k : DeviceManagerID) :
    s.Complete B k ↔ s.count k = (s.managers k).sent.length := by
  have hunderway : (s.underway B k).length = (s.toBroker k).length := by
    rw [State.underway, List.length_filterMap_eq_countP, List.countP_eq_length]
    intro m hm
    obtain ⟨e, -, hasks⟩ := hI.upward k m hm
    rw [id_asks hB hasks]
    rfl
  have hlen : (s.served k ++ s.underway B k).length = s.count k := by
    rw [List.length_append, hunderway, State.served, List.length_map, State.count]
  constructor
  · intro h
    rw [← hlen, h, List.length_map]
  · intro h
    exact (hI.order k).eq_of_length (by rw [hlen, h, List.length_map])

/-! ### What a step counts -/

theorem count_take (s : State V W) (k k' : DeviceManagerID) : (s.take k).count k' =
    if k' = k then s.count k' - min 1 (s.toBroker k).length else s.count k' := by
  simp only [State.count, State.take]
  split_ifs with hk
  · subst hk
    rw [Function.update_self, List.length_tail]
    omega
  · rw [Function.update_of_ne hk]

theorem count_brokers (s : State V W) (l : Requests.Label V) (b : Requests.State V)
    (k : DeviceManagerID) : (s.brokers l b).count k = s.count k +
      ((Requests.requested l).toList.filter (·.deviceManagerID = k)).length := by
  have hone : [l].filterMap Requests.requested = (Requests.requested l).toList := by
    cases h : Requests.requested l <;> simp [h]
  simp only [State.count, State.brokers, Requests.requests, List.filterMap_append, List.filter_append,
    List.length_append, hone]
  omega

/-- A step of a manager sends what it counts. -/
theorem count_advance {k : DeviceManagerID} {l : DeviceManager.Label} {u : DeviceManager.State V W}
    (h : (DeviceManager.system B conv).step (s.managers k) l = some u) (k' : DeviceManagerID) :
    (s.advance k l u).count k' + (s.managers k').sent.length =
      s.count k' + ((s.advance k l u).managers k').sent.length := by
  simp only [State.count, State.advance]
  by_cases hk : k' = k
  · subst hk
    simp only [Function.update_self]
    rcases manager_out h with ⟨hout, hs⟩ | ⟨e, m, -, hout, hs⟩ <;> rw [hout, hs]
    · simp
    · simp only [List.drop_left, List.length_append, List.length_singleton]
      omega
  · simp only [Function.update_of_ne hk]

/-- All requests of all managers are there. -/
def State.Balanced (s : State V W) : Prop := ∀ k, s.count k = (s.managers k).sent.length

theorem balanced_take {k : DeviceManagerID} (hb : s.Balanced) :
    (s.take k).Balanced ↔ s.toBroker k = [] := by
  constructor
  · intro h
    have hk := h k
    rw [count_take, if_pos rfl] at hk
    have hcount : s.count k - min 1 (s.toBroker k).length = s.count k := hk.trans (hb k).symm
    have hle : (s.toBroker k).length ≤ s.count k := Nat.le_add_left _ _
    exact List.eq_nil_of_length_eq_zero (by omega)
  · intro h k'
    rw [count_take, h]
    split_ifs with hk
    · exact hb k'
    · exact hb k'

/-- The broker takes the next message of manager `k`: no request is gone exactly if it can read it. -/
theorem balanced_receive (hI : Inv B conv hs s) (hB : Wired B) (hb : s.Balanced) {k : DeviceManagerID}
    (h : receive B hs s k = some t) : t.Balanced ↔ Keeps B s (.receive k) := by
  unfold receive at h
  split at h
  · rename_i m _ hm
    have hne : s.toBroker k ≠ [] := by
      rintro hnil
      rw [hnil] at hm
      cases hm
    obtain ⟨e, -, hasks⟩ := hI.upward k m (List.mem_of_mem_head? hm)
    have hkeeps : Keeps B s (.receive k) ↔
        ∃ manager id cmd, handleDataMessage B k m = some (.request manager id cmd) := by
      simp only [Keeps, hm, Option.some.injEq, forall_eq']
    rw [hkeeps]
    rcases handleDataMessage_asks hB hasks k with heq | heq | ⟨cmd, heq, -⟩ <;>
      simp only [heq, Option.map_eq_some_iff, Option.some.injEq] at h
    · refine iff_of_false (fun hbal => ?_) (by simp [heq])
      exact hne ((balanced_take hb).mp (h ▸ hbal))
    · obtain ⟨b, -, rfl⟩ := h
      refine iff_of_false (fun hbal => ?_) (by simp [heq])
      refine hne ((balanced_take hb).mp fun k' => ?_)
      have hk' := hbal k'
      rw [count_brokers] at hk'
      exact hk'
    · obtain ⟨b, -, rfl⟩ := h
      refine iff_of_true (fun k' => ?_) ⟨_, _, _, heq⟩
      rw [count_brokers, count_take]
      have hold := hb k'
      have hpos : 0 < (s.toBroker k).length := List.length_pos_of_ne_nil hne
      by_cases hk : k' = k
      · subst hk
        have hle : (s.toBroker k').length ≤ s.count k' := Nat.le_add_left _ _
        have hone : ((Requests.requested (V := V) (.work (.request k' e.id cmd))).toList.filter
            (·.deviceManagerID = k')).length = 1 := by simp [Requests.requested]
        rw [if_pos rfl, hone]
        simp only [State.brokers, State.take]
        omega
      · have hzero : ((Requests.requested (V := V) (.work (.request k e.id cmd))).toList.filter
            (·.deviceManagerID = k')).length = 0 := by
          simp [Requests.requested, Ne.symm hk]
        rw [if_neg hk, hzero]
        exact hold
  · cases h

/-- One step: from a state with all requests, no request is gone exactly if the step keeps the next. -/
theorem balanced_step (hI : Inv B conv hs s) (hB : Wired B) (hb : s.Balanced) {l : Label V}
    (h : (system B conv hs).step s l = some t) : t.Balanced ↔ Keeps B s l := by
  have hadvance : ∀ {k l u}, (DeviceManager.system B conv).step (s.managers k) l = some u →
      (s.advance k l u).Balanced := by
    intro k l u hu k'
    have hold := hb k'
    have hcount := count_advance hu k'
    omega
  cases l with
  | manager k l =>
    refine iff_of_true ?_ trivial
    cases l with
    | receive m => cases h
    | _ =>
      obtain ⟨u, hu, rfl⟩ := Option.map_eq_some_iff.mp h
      exact hadvance hu
  | deliver k =>
    obtain ⟨m, -, hmap⟩ := Option.bind_eq_some_iff.mp h
    obtain ⟨u, hu, rfl⟩ := Option.map_eq_some_iff.mp hmap
    exact iff_of_true (hadvance hu) trivial
  | receive k => exact balanced_receive hI hB hb h
  | task w =>
    have hmap : (Requests.work hs s.broker w).map (s.brokers (.work w)) = some t ∧
        Requests.requested (V := V) (.work w) = none := by
      cases w with
      | request | malformed => cases h
      | _ => exact ⟨h, rfl⟩
    obtain ⟨b, -, rfl⟩ := Option.map_eq_some_iff.mp hmap.1
    refine iff_of_true (fun k' => ?_) trivial
    rw [count_brokers, hmap.2]
    exact hb k'
  | drain d unset =>
    obtain ⟨b, -, rfl⟩ := Option.map_eq_some_iff.mp h
    refine iff_of_true (fun k' => ?_) trivial
    have hcount := count_brokers s (.drain d) b k'
    exact hcount.trans (hb k')
  | command k m =>
    simp only [system] at h
    split_ifs at h
    cases h
    exact iff_of_true hb trivial
  | lost k =>
    obtain rfl := Option.some.inj h
    exact balanced_take hb
  | lostReply k =>
    obtain rfl := Option.some.inj h
    exact iff_of_true hb trivial

/-- All requests of all managers are entered or on the way, all the time, exactly if none is lost on
    the way and the broker can read each one that it takes. -/
theorem requests_complete_iff (hB : Wired B) {ls : List (Label V)}
    (h : (system B conv hs).run init ls = some s) :
    (∀ as bs t, ls = as ++ bs → (system B conv hs).run init as = some t → ∀ k, t.Complete B k) ↔
      (system B conv hs).Meets (Keeps B) init ls := by
  refine (system B conv hs).run_states_iff (P := fun _ t => Inv B conv hs t ∧ t.Balanced)
    (Q := fun _ t => ∀ k, t.Complete B k) (C := fun _ t l => Keeps B t l)
    ⟨inv_init, fun k => rfl⟩ (fun _ t ⟨hI, hb⟩ k => (hI.complete_iff hB k).mpr (hb k)) ?_ ?_ h
  · rintro - t l u ⟨hI, hb⟩ hu hQ
    have hIu := hI.step hB hu
    exact (balanced_step hI hB hb hu).mp fun k => (hIu.complete_iff hB k).mp (hQ k)
  · rintro - t l u ⟨hI, hb⟩ hu hC
    exact ⟨hI.step hB hu, (balanced_step hI hB hb hu).mpr hC⟩

/-- A request that the broker can read is not gone. -/
theorem sample_complete : ∃ (ls : List (Label Reading)) (s : State Reading Reading),
    sampleSystem.run init ls = some s ∧ (s.managers sampleID).sent.length = 1 ∧
      ∀ k, s.Complete Sample.base k := by
  have hrun : ∃ (ls : List (Label Reading)) (s : State Reading Reading),
      sampleSystem.Meets (Keeps Sample.base) init ls ∧ sampleSystem.run init ls = some s ∧
        (s.managers sampleID).sent.length = 1 := by
    refine ⟨[.manager sampleID (.getDeviceList 0 ⟨7⟩ ⟨0xa8⟩), .receive sampleID], _, ?_, rfl, rfl⟩
    refine .cons _ trivial rfl (.cons _ ?_ rfl (.nil _))
    rintro m hm
    obtain rfl := Option.some.inj hm
    exact ⟨_, _, _, rfl⟩
  obtain ⟨ls, s, hC, h, hsent⟩ := hrun
  exact ⟨ls, s, h, hsent, (requests_complete_iff sample_wired h).mpr hC ls [] s (by simp) h⟩

end Network
end BeeeOn
