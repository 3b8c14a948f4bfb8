import Gateway.Schemes.Lts
import Mathlib.Data.Finset.Insert
import Mathlib.Data.Finset.Erase

/-! @scheme descriptors | name:Open descriptors | family:resources

    What a program does with its descriptors is a log of opens, uses and closes. The descriptors that
    are open after a log are known whatever the program does (`live`); a program that keeps the rules
    uses and closes only what is open, and then its log is a run of `descriptors`. In such a run opens
    and closes pair up (`count_eq`), so one that ends with nothing open has closed each of its
    descriptors exactly once. -/

namespace Schemes

/-- An operation on a descriptor; an open that fails is none. -/
inductive DescriptorOp where
  | opened (fd : ℤ)
  | used (fd : ℤ)
  | closed (fd : ℤ)
  deriving DecidableEq, Repr

namespace DescriptorOp

/-- The descriptors that are open after the operation; closing what is not open changes nothing. -/
def after (s : Finset ℤ) : DescriptorOp → Finset ℤ
  | opened fd => insert fd s
  | used _ => s
  | closed fd => s.erase fd

/-- What is opened is a new descriptor, what is used or closed is open. -/
def Allowed (s : Finset ℤ) : DescriptorOp → Prop
  | opened fd => 0 ≤ fd ∧ fd ∉ s
  | used fd | closed fd => fd ∈ s

instance (s : Finset ℤ) : DecidablePred (Allowed s)
  | opened fd => inferInstanceAs (Decidable (0 ≤ fd ∧ fd ∉ s))
  | used fd | closed fd => inferInstanceAs (Decidable (fd ∈ s))

end DescriptorOp

/-- The descriptors that are open after a log. -/
def live (s : Finset ℤ) (log : List DescriptorOp) : Finset ℤ := log.foldl DescriptorOp.after s

/-- The logs that keep the rules. -/
def descriptors : Lts (Finset ℤ) DescriptorOp where
  step s op := if op.Allowed s then some (op.after s) else none

namespace Descriptors
variable {s t : Finset ℤ} {fd : ℤ} {op : DescriptorOp} {log : List DescriptorOp}

theorem step_iff : descriptors.step s op = some t ↔ op.Allowed s ∧ op.after s = t := by
  simp [descriptors]

theorem run_cons_iff : descriptors.run s (op :: log) = some t ↔
    op.Allowed s ∧ descriptors.run (op.after s) log = some t := by
  rw [Lts.run_cons_iff]
  simp only [step_iff]
  constructor
  · rintro ⟨_, ⟨hop, rfl⟩, h⟩
    exact ⟨hop, h⟩
  · rintro ⟨hop, h⟩
    exact ⟨_, ⟨hop, rfl⟩, h⟩

theorem run_cons_allowed (h : op.Allowed s) :
    descriptors.run s (op :: log) = descriptors.run (op.after s) log := by
  rw [Lts.run_cons, show descriptors.step s op = some (op.after s) from if_pos h, Option.bind_some]

theorem run_cons_not_allowed (h : ¬ op.Allowed s) : descriptors.run s (op :: log) = none := by
  rw [Lts.run_cons, show descriptors.step s op = none from if_neg h, Option.bind_none]

theorem run_opened (h0 : 0 ≤ fd) (hnew : fd ∉ s) :
    descriptors.run s (.opened fd :: log) = descriptors.run (insert fd s) log :=
  run_cons_allowed ⟨h0, hnew⟩

theorem run_used (h : fd ∈ s) : descriptors.run s (.used fd :: log) = descriptors.run s log :=
  run_cons_allowed (by exact h)

theorem run_closed (h : fd ∈ s) :
    descriptors.run s (.closed fd :: log) = descriptors.run (s.erase fd) log :=
  run_cons_allowed (by exact h)

/-- A log that keeps the rules ends with what is open after it. -/
theorem run_eq_live (h : descriptors.run s log = some t) : t = live s log := by
  induction log generalizing s with
  | nil => exact (Option.some.inj h).symm
  | cons op log ih => exact ih (run_cons_iff.mp h).2

/-- All descriptors that are open are numbers of descriptors. -/
theorem nonneg (hs : ∀ fd ∈ s, 0 ≤ fd) (h : descriptors.run s log = some t) : ∀ fd ∈ t, 0 ≤ fd := by
  refine descriptors.run_inv (P := fun s => ∀ fd ∈ s, 0 ≤ fd) ?_ hs h
  intro s op t hs hstep
  obtain ⟨hop, rfl⟩ := step_iff.mp hstep
  intro fd hfd
  cases op with
  | opened n =>
    rcases Finset.mem_insert.mp hfd with rfl | hfd
    · exact hop.1
    · exact hs fd hfd
  | used n => exact hs fd hfd
  | closed n => exact hs fd (Finset.mem_of_mem_erase hfd)

/-- What was open and what has been opened is what has been closed and what is open. -/
theorem count_eq (h : descriptors.run s log = some t) (fd : ℤ) :
    log.count (.opened fd) + (if fd ∈ s then 1 else 0) =
      log.count (.closed fd) + if fd ∈ t then 1 else 0 := by
  induction log generalizing s with
  | nil =>
    rw [Lts.run_nil, Option.some.injEq] at h
    rw [h]
    simp
  | cons op log ih =>
    obtain ⟨hop, hrun⟩ := run_cons_iff.mp h
    have hrest := ih hrun
    cases op with
    | opened n =>
      obtain ⟨-, hn⟩ := hop
      by_cases heq : n = fd
      · subst heq
        simp only [DescriptorOp.after, Finset.mem_insert_self, if_true] at hrest
        rw [List.count_cons_self, List.count_cons_of_ne (by simp), if_neg hn]
        omega
      · have hmem : fd ∈ insert n s ↔ fd ∈ s := by simp [Ne.symm heq]
        simp only [DescriptorOp.after, hmem] at hrest
        rw [List.count_cons_of_ne (by simpa using heq), List.count_cons_of_ne (by simp)]
        exact hrest
    | used n =>
      rw [List.count_cons_of_ne (by simp), List.count_cons_of_ne (by simp)]
      exact hrest
    | closed n =>
      have hn : n ∈ s := hop
      by_cases heq : n = fd
      · subst heq
        simp only [DescriptorOp.after, Finset.notMem_erase, if_false] at hrest
        rw [List.count_cons_self, List.count_cons_of_ne (by simp), if_pos hn]
        omega
      · have hmem : fd ∈ s.erase n ↔ fd ∈ s := by simp [Ne.symm heq]
        simp only [DescriptorOp.after, hmem] at hrest
        rw [List.count_cons_of_ne (by simp), List.count_cons_of_ne (by simpa using heq)]
        exact hrest

/-- Nothing is open at the start nor at the end: each descriptor is closed as often as it is opened. -/
theorem closed_once (h : descriptors.run ∅ log = some ∅) (fd : ℤ) :
    log.count (.opened fd) = log.count (.closed fd) := by
  simpa using count_eq h fd

end Descriptors
end Schemes
