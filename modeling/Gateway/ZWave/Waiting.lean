import Gateway.ZWave.NotificationProcessor

/-! @src z-wave/NotificationProcessor.cpp, z-wave/ZWaveDeviceManager.cpp | name:Waiting for the Z-Wave
    network | family:safety

    `run` adds the processor as a watcher, registers the driver and then waits for the network to be
    queried. The callback thread of the library says so by a broadcast, which wakes who is waiting at
    that moment; nothing records that it has happened, and `waitUntilQueried` waits without asking. So
    the signal is missed exactly if it comes before the wait (`signal_not_missed_iff`). -/

namespace BeeeOn
open Schemes
variable {V ν : Type}

namespace NotificationProcessor

/-- The notifications after which `onNotification` broadcasts. -/
def Releases (x : Notification ν) : Prop :=
  x.type ∈ [.driverFailed, .awakeNodesQueried, .allNodesQueried, .allNodesQueriedSomeDead]

instance (x : Notification ν) : Decidable (Releases x) :=
  inferInstanceAs (Decidable (_ ∈ _))

namespace Waiting

/-- Where the run thread is. A thread in `wait` is woken by the broadcasts after the first `since`. -/
inductive Thread where
  | starting
  | watching
  | registered
  | waiting (since : ℕ)
  | queried
  deriving DecidableEq, Repr

structure State (ν : Type) where
  processor : NotificationProcessor.State ν
  thread : Thread

def start (homeId : BitVec 32) : State ν := ⟨.init homeId, .starting⟩

inductive Label (V ν : Type) where
  | addWatcher
  | registerItself
  /-- the call of `wait` in `waitUntilQueried`; nobody else takes `m_initMutex` -/
  | wait
  /-- its return -/
  | wake
  | notify (E : Surroundings V ν) (x : Notification ν)

variable (B : Base V)

/-- `run` from `AddWatcher` to the return of `waitUntilQueried`, beside the thread of the library. -/
def system : Lts (State ν) (Label V ν) where
  step s
    | .addWatcher => if s.thread = .starting then some { s with thread := .watching } else none
    | .registerItself => if s.thread = .watching then some { s with thread := .registered } else none
    | .wait =>
      if s.thread = .registered then some { s with thread := .waiting s.processor.broadcasts } else none
    | .wake => match s.thread with
      | .waiting since =>
        if since < s.processor.broadcasts then some { s with thread := .queried } else none
      | _ => none
    -- there is no callback before there is a watcher
    | .notify E x =>
      if s.thread = .starting then none else some { s with processor := onNotification B E x s.processor }

/-- A broadcast has been made. -/
def Signalled (ls : List (Label V ν)) : Prop := ∃ E x, .notify E x ∈ ls ∧ Releases x

/-- The run thread is in `wait`, and no broadcast since would let it go on. -/
def Blocked (s : State ν) : Prop := ∃ since, s.thread = .waiting since ∧ s.processor.broadcasts ≤ since

/-- The signal has been given, and the run thread still waits for one. -/
def Missed (ls : List (Label V ν)) (s : State ν) : Prop := Signalled ls ∧ Blocked s

/-- The condition on a step: the wait begins before the signal. -/
def InTime (pre : List (Label V ν)) : Label V ν → Prop
  | .wait => ¬ Signalled pre
  | _ => True

/-! ### One step -/

section
variable {B} {s t : State ν}

theorem broadcasts_onNotification (E : Surroundings V ν) (x : Notification ν)
    (p : NotificationProcessor.State ν) : (onNotification B E x p).broadcasts =
      p.broadcasts + if Releases x then 1 else 0 := by
  obtain ⟨type, homeId, nodeId, valueID⟩ := x
  cases type with
  | valueChanged =>
    simp only [onNotification]
    split <;> rfl
  | _ => rfl

theorem signalled_concat {ls : List (Label V ν)} {l : Label V ν} :
    Signalled (ls ++ [l]) ↔ Signalled ls ∨ ∃ E x, l = .notify E x ∧ Releases x := by
  constructor
  · rintro ⟨E, x, hmem, hx⟩
    rcases List.mem_append.mp hmem with hmem | hmem
    · exact Or.inl ⟨E, x, hmem, hx⟩
    · exact Or.inr ⟨E, x, (List.mem_singleton.mp hmem).symm, hx⟩
  · rintro (⟨E, x, hmem, hx⟩ | ⟨E, x, rfl, hx⟩)
    · exact ⟨E, x, List.mem_append_left _ hmem, hx⟩
    · exact ⟨E, x, List.mem_append_right _ List.mem_cons_self, hx⟩

theorem step_cases {l : Label V ν} (h : (system B).step s l = some t) :
    match l with
    | .addWatcher => s.thread = .starting ∧ t = { s with thread := .watching }
    | .registerItself => s.thread = .watching ∧ t = { s with thread := .registered }
    | .wait => s.thread = .registered ∧ t = { s with thread := .waiting s.processor.broadcasts }
    | .wake => ∃ since, s.thread = .waiting since ∧ since < s.processor.broadcasts ∧
        t = { s with thread := .queried }
    | .notify E x => s.thread ≠ .starting ∧
        t = { s with processor := onNotification B E x s.processor } := by
  cases l with
  | wake =>
    simp only [system] at h
    split at h
    · rename_i since hs
      rw [Option.ite_none_right_eq_some, Option.some.injEq] at h
      exact ⟨since, hs, h.1, h.2.symm⟩
    · cases h
  | notify E x =>
    simp only [system, Option.ite_none_left_eq_some, Option.some.injEq] at h
    exact ⟨h.1, h.2.symm⟩
  | _ =>
    simp only [system, Option.ite_none_right_eq_some, Option.some.injEq] at h
    exact ⟨h.1, h.2.symm⟩

/-- A thread in `wait` has counted no broadcast that is still to come. -/
def Counted (s : State ν) : Prop := ∀ since, s.thread = .waiting since → since ≤ s.processor.broadcasts

theorem counted_step (hs : Counted s) {l : Label V ν} (h : (system B).step s l = some t) :
    Counted t := by
  have hcase := step_cases h
  intro since ht
  cases l with
  | addWatcher | registerItself =>
    obtain ⟨-, rfl⟩ := hcase
    cases ht
  | wait =>
    obtain ⟨-, rfl⟩ := hcase
    cases ht
    exact le_rfl
  | wake =>
    obtain ⟨_, -, -, rfl⟩ := hcase
    cases ht
  | notify E x =>
    obtain ⟨-, rfl⟩ := hcase
    rw [broadcasts_onNotification]
    exact (hs since ht).trans (Nat.le_add_right _ _)

/-- Only a wait that begins after the signal misses it. -/
theorem not_missed_step {ls : List (Label V ν)} (hs : Counted s) (hm : ¬ Missed ls s) {l : Label V ν}
    (hC : InTime ls l) (h : (system B).step s l = some t) : ¬ Missed (ls ++ [l]) t := by
  have hcase := step_cases h
  rintro ⟨hsig, since, ht, hle⟩
  rw [signalled_concat] at hsig
  cases l with
  | addWatcher | registerItself =>
    obtain ⟨-, rfl⟩ := hcase
    cases ht
  | wait => exact hC (hsig.resolve_right nofun)
  | wake =>
    obtain ⟨_, -, -, rfl⟩ := hcase
    cases ht
  | notify E x =>
    obtain ⟨-, rfl⟩ := hcase
    rw [broadcasts_onNotification] at hle
    have hsince := hs since ht
    rcases hsig with hsig | ⟨E', x', heq, hx⟩
    · exact hm ⟨hsig, since, ht, (Nat.le_add_right _ _).trans hle⟩
    · cases heq
      rw [if_pos hx] at hle
      omega

/-! ### Runs -/

/-- In every interleaving: no state on the way is one in which the signal has been missed, exactly if
    the wait begins before the signal. -/
theorem signal_not_missed_iff {homeId : BitVec 32} {ls : List (Label V ν)} {u : State ν}
    (h : (system B).run (start homeId) ls = some u) :
    (∀ pre post t, ls = pre ++ post → (system B).run (start homeId) pre = some t → ¬ Missed pre t) ↔
      Throughout InTime ls := by
  rw [← (system B).throughout_iff h]
  refine (system B).run_states_iff (P := fun ls s => Counted s ∧ ¬ Missed ls s)
    (Q := fun ls s => ¬ Missed ls s) (C := fun ls _ l => InTime ls l) ⟨nofun, ?_⟩
    (fun _ _ hP => hP.2) ?_ ?_ h
  · rintro ⟨⟨E, x, hmem, -⟩, -⟩
    cases hmem
  · rintro ls s l t - hl hnot
    cases l with
    | wait =>
      obtain ⟨-, rfl⟩ := step_cases hl
      exact fun hsig => hnot ⟨signalled_concat.mpr (Or.inl hsig), _, rfl, le_rfl⟩
    | _ => trivial
  · rintro ls s l t ⟨hs, hm⟩ hl hC
    exact ⟨counted_step hs hl, not_missed_step hs hm hC hl⟩

/-- A blocked thread stays where it is until the next broadcast. -/
theorem run_blocked {ls : List (Label V ν)} (h : (system B).run s ls = some t) (hs : Blocked s)
    (hquiet : ¬ Signalled ls) : t.thread = s.thread := by
  have hrun := (system B).run_hist (s := s)
    (P := fun ls u => ¬ Signalled ls → u.thread = s.thread ∧ Blocked u) (fun _ => ⟨rfl, hs⟩) ?_ h hquiet
  · exact hrun.1
  · intro ls u l v _ ih hl hq
    rw [signalled_concat, not_or] at hq
    obtain ⟨hsame, since, hu, hle⟩ := ih hq.1
    have hcase := step_cases hl
    cases l with
    | addWatcher | registerItself | wait =>
      rw [hu] at hcase
      cases hcase.1
    | wake =>
      obtain ⟨since', hu', hlt, -⟩ := hcase
      rw [hu] at hu'
      cases hu'
      exact absurd hlt (not_lt.mpr hle)
    | notify E x =>
      obtain ⟨-, rfl⟩ := hcase
      refine ⟨hsame, since, hu, ?_⟩
      rw [broadcasts_onNotification, if_neg fun hx => hq.2 ⟨E, x, rfl, hx⟩]
      exact hle

end

/-- The network is queried while the run thread waits, and it goes on. -/
theorem waiting_in_time : ∃ u, (system Sample.base).run (start 0 : State ℕ)
      [.addWatcher, .registerItself, .wait, .notify bare ⟨.allNodesQueried, 0, 1, 0⟩, .wake] = some u ∧
    ∀ pre post t, [.addWatcher, .registerItself, .wait, .notify bare ⟨.allNodesQueried, 0, 1, 0⟩,
      .wake] = pre ++ post → (system Sample.base).run (start 0 : State ℕ) pre = some t →
        ¬ Missed pre t := by
  obtain ⟨u, h⟩ : ∃ u, (system Sample.base).run (start 0 : State ℕ)
    [.addWatcher, .registerItself, .wait, .notify bare ⟨.allNodesQueried, 0, 1, 0⟩, .wake] = some u :=
    ⟨_, rfl⟩
  refine ⟨u, h, (signal_not_missed_iff h).mpr ?_⟩
  rintro (_ | ⟨_, _ | ⟨_, _ | ⟨_, _ | ⟨_, _ | ⟨_, as⟩⟩⟩⟩⟩) l post heq
  · cases heq; trivial
  · cases heq; trivial
  · cases heq
    rintro ⟨E, x, hmem, -⟩
    simp at hmem
  · cases heq; trivial
  · cases heq; trivial
  · simp at heq

/-- The driver fails while it is registered: the run thread waits for a signal that it has missed. -/
theorem signal_missed : ¬ ∀ (ls : List (Label Reading ℕ)) (u : State ℕ),
    (system Sample.base).run (start 0) ls = some u → ¬ Missed ls u := by
  intro h
  refine h [.addWatcher, .registerItself, .notify bare ⟨.driverFailed, 0, 1, 0⟩, .wait] _ rfl ?_
  exact ⟨⟨bare, ⟨.driverFailed, 0, 1, 0⟩, by simp, by decide⟩, 1, rfl, le_rfl⟩

end Waiting
end NotificationProcessor
end BeeeOn
