import Gateway.Schemes.Lts

/-! @scheme flag | name:Test-and-clear flag | family:notification

    The flag that a producer raises and a consumer takes: taking is enabled only while the flag is up,
    and puts it down. Two facts make it a sound notification. Nothing is lost: after a raise the flag
    is still up, or a take has come since. Nothing is invented: every take has a raise of its own, so
    the first take comes after a raise and two takes are always separated by one. A system with such a
    flag inherits both through a simulation (`Lts.Sim`). -/

namespace Schemes

inductive FlagOp where | raise | take
  deriving DecidableEq

/-- The flag itself: a `Bool` with the two operations. -/
def flag : Lts Bool FlagOp where
  step
    | _, .raise => some true
    | true, .take => some false
    | false, .take => none

namespace Flag

theorem step_raise {b c : Bool} : flag.step b .raise = some c ↔ c = true := by
  cases b <;> cases c <;> simp [flag]

theorem step_take {b c : Bool} : flag.step b .take = some c ↔ b = true ∧ c = false := by
  cases b <;> cases c <;> simp [flag]

/-- Without a take a raised flag stays up. -/
theorem up_of_no_take : ∀ {ops : List FlagOp} {c : Bool}, flag.run true ops = some c →
    FlagOp.take ∉ ops → c = true
  | [], c, h, _ => by simpa using h.symm
  | .take :: _, _, _, hn => by simp at hn
  | .raise :: ops, c, h, hn => by
    obtain ⟨d, hd, hrun⟩ := (flag.run_cons_iff).mp h
    obtain rfl := step_raise.mp hd
    exact up_of_no_take hrun (fun hm => hn (List.mem_cons_of_mem _ hm))

/-- A flag that was down and is up has been raised. -/
theorem raised_of_up : ∀ {ops : List FlagOp}, flag.run false ops = some true → FlagOp.raise ∈ ops
  | [], h => by simp at h
  | .raise :: _, _ => List.mem_cons_self
  | .take :: _, h => by
    obtain ⟨d, hd, _⟩ := (flag.run_cons_iff).mp h
    exact absurd (step_take.mp hd).1 (by decide)

/-- Nothing is lost: after a raise the flag is up, or a take has come since. -/
theorem up_or_taken {as bs : List FlagOp} {b c : Bool}
    (h : flag.run b (as ++ .raise :: bs) = some c) : c = true ∨ FlagOp.take ∈ bs := by
  obtain ⟨d, _, hrest⟩ := (flag.run_append_iff).mp h
  obtain ⟨e, he, hbs⟩ := (flag.run_cons_iff).mp hrest
  obtain rfl := step_raise.mp he
  by_cases ht : FlagOp.take ∈ bs
  · exact Or.inr ht
  · exact Or.inl (up_of_no_take hbs ht)

/-- Nothing is invented: the first take comes after a raise. -/
theorem raised_before {as bs : List FlagOp} {c : Bool}
    (h : flag.run false (as ++ .take :: bs) = some c) : FlagOp.raise ∈ as := by
  obtain ⟨d, hd, hrest⟩ := (flag.run_append_iff).mp h
  obtain ⟨e, he, _⟩ := (flag.run_cons_iff).mp hrest
  obtain ⟨rfl, _⟩ := step_take.mp he
  exact raised_of_up hd

/-- Nothing is invented: between two takes there is a raise. -/
theorem raised_between {as bs cs : List FlagOp} {b c : Bool}
    (h : flag.run b (as ++ .take :: (bs ++ .take :: cs)) = some c) : FlagOp.raise ∈ bs := by
  obtain ⟨d, _, hrest⟩ := (flag.run_append_iff).mp h
  obtain ⟨e, he, hbs⟩ := (flag.run_cons_iff).mp hrest
  obtain ⟨_, rfl⟩ := step_take.mp he
  exact raised_before hbs

/-! ### Systems that carry a flag

    `R` is a simulation of the flag: some observation of the state is the flag, some labels raise it,
    some take it, and no other label touches it. -/

section
variable {σ ℓ : Type*} {T : Lts σ ℓ} (R : T.Sim flag) {s t : σ}

/-- After a raise, in every run, the flag is up or a take has come since. -/
theorem sim_up_or_taken (hs : R.inv s) {as bs : List ℓ} {l : ℓ} (hl : R.lab l = some .raise)
    (h : T.run s (as ++ l :: bs) = some t) :
    R.abs t = true ∨ ∃ k ∈ bs, R.lab k = some .take := by
  have hrun := R.run hs h
  rw [List.filterMap_append, List.filterMap_cons_some hl] at hrun
  exact (up_or_taken hrun).imp_right fun hm => List.mem_filterMap.mp hm

/-- Before a take, in every run that starts with the flag down, there is a raise. -/
theorem sim_raised_before (hs : R.inv s) (hdown : R.abs s = false) {as bs : List ℓ} {l : ℓ}
    (hl : R.lab l = some .take) (h : T.run s (as ++ l :: bs) = some t) :
    ∃ k ∈ as, R.lab k = some .raise := by
  have hrun := R.run hs h
  rw [List.filterMap_append, List.filterMap_cons_some hl, hdown] at hrun
  exact List.mem_filterMap.mp (raised_before hrun)

/-- Between two takes of a run there is a raise. -/
theorem sim_raised_between (hs : R.inv s) {as bs cs : List ℓ} {l k : ℓ}
    (hl : R.lab l = some .take) (hk : R.lab k = some .take)
    (h : T.run s (as ++ l :: (bs ++ k :: cs)) = some t) :
    ∃ m ∈ bs, R.lab m = some .raise := by
  have hrun := R.run hs h
  rw [List.filterMap_append, List.filterMap_cons_some hl, List.filterMap_append,
    List.filterMap_cons_some hk] at hrun
  exact List.mem_filterMap.mp (raised_between hrun)

end
end Flag
end Schemes
