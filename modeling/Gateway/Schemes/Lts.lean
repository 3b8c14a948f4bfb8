import Mathlib.Data.List.Induction

/-! @scheme lts | name:Executable labelled transition systems | family:runs, invariants, simulation

    A system is a partial step function: `step s l` is the state after label `l`, and `none` where `l`
    is not enabled in `s`. An interleaving of several threads is a list of labels, so "for every
    interleaving" is "for every list of labels that runs". The rules below are the only inductions on
    runs that a development needs: a step lemma goes in, a fact about every run comes out — plain
    (`run_inv`), under a condition on the steps taken (`run_inv_of_meets`), or about the labels taken
    so far together with the state reached (`run_hist`). `run_states_iff` says when a condition on the
    steps is the exact one. `Sim` maps the runs of one system to the runs of a more abstract one. -/

namespace Schemes

/-- An executable transition system; a label that is not enabled steps to `none`. -/
structure Lts (σ ℓ : Type*) where
  step : σ → ℓ → Option σ

namespace Lts
variable {σ ℓ α κ : Type*} (T : Lts σ ℓ)

/-- The state after the labels `ls`, taken from left to right. -/
def run : σ → List ℓ → Option σ
  | s, [] => some s
  | s, l :: ls => (T.step s l).bind fun t => run t ls

@[simp] theorem run_nil (s : σ) : T.run s [] = some s := rfl

theorem run_cons (s : σ) (l : ℓ) (ls : List ℓ) :
    T.run s (l :: ls) = (T.step s l).bind fun t => T.run t ls := rfl

theorem run_cons_iff {s u : σ} {l : ℓ} {ls : List ℓ} :
    T.run s (l :: ls) = some u ↔ ∃ t, T.step s l = some t ∧ T.run t ls = some u := by
  rw [run_cons, Option.bind_eq_some_iff]

/-- A run splits wherever its list of labels does. -/
theorem run_append_iff : ∀ {as bs : List ℓ} {s u : σ},
    T.run s (as ++ bs) = some u ↔ ∃ t, T.run s as = some t ∧ T.run t bs = some u := by
  intro as
  induction as with
  | nil => intro bs s u; simp
  | cons l as ih =>
    intro bs s u
    rw [List.cons_append, run_cons_iff]
    constructor
    · rintro ⟨t, ht, hrun⟩
      obtain ⟨v, hv, hb⟩ := ih.mp hrun
      exact ⟨v, (T.run_cons_iff).mpr ⟨t, ht, hv⟩, hb⟩
    · rintro ⟨v, hv, hb⟩
      obtain ⟨t, ht, has⟩ := (T.run_cons_iff).mp hv
      exact ⟨t, ht, ih.mpr ⟨v, has, hb⟩⟩

theorem run_append_of {s t : σ} {as : List ℓ} (h : T.run s as = some t) (bs : List ℓ) :
    T.run s (as ++ bs) = T.run t bs := by
  cases hb : T.run t bs with
  | some u => exact (T.run_append_iff).mpr ⟨t, h, hb⟩
  | none =>
    by_contra hne
    obtain ⟨u, hu⟩ := Option.ne_none_iff_exists'.mp hne
    obtain ⟨t', ht', hu'⟩ := (T.run_append_iff).mp hu
    obtain rfl := Option.some.inj (h.symm.trans ht')
    cases hb.symm.trans hu'

theorem run_concat_iff {s u : σ} {ls : List ℓ} {l : ℓ} :
    T.run s (ls ++ [l]) = some u ↔ ∃ t, T.run s ls = some t ∧ T.step t l = some u := by
  simp [run_append_iff, run_cons_iff]

/-- A system in which every label is enabled runs on every list of labels. -/
theorem run_total (hstep : ∀ s l, ∃ t, T.step s l = some t) (ls : List ℓ) (s : σ) :
    ∃ u, T.run s ls = some u := by
  induction ls generalizing s with
  | nil => exact ⟨s, rfl⟩
  | cons l ls ih =>
    obtain ⟨t, ht⟩ := hstep s l
    obtain ⟨u, hu⟩ := ih t
    exact ⟨u, (T.run_cons_iff).mpr ⟨t, ht, hu⟩⟩

/-! ### Conditions on the steps of a run -/

/-- Every label of the run is taken in a state in which `C` allows it. -/
def Meets (C : σ → ℓ → Prop) (s : σ) (ls : List ℓ) : Prop :=
  ∀ as l bs t, ls = as ++ l :: bs → T.run s as = some t → C t l

theorem Meets.left {C : σ → ℓ → Prop} {s : σ} {as bs : List ℓ} (h : T.Meets C s (as ++ bs)) :
    T.Meets C s as := by
  rintro as' l bs' t rfl ht
  exact h as' l (bs' ++ bs) t (by simp) ht

theorem Meets.last {C : σ → ℓ → Prop} {s t : σ} {ls : List ℓ} {l : ℓ}
    (h : T.Meets C s (ls ++ [l])) (ht : T.run s ls = some t) : C t l :=
  h ls l [] t rfl ht

theorem Meets.nil {C : σ → ℓ → Prop} {s : σ} : T.Meets C s [] := by
  rintro as l bs t h _
  simp at h

/-- The condition along a run, one step at a time. -/
theorem Meets.cons {C : σ → ℓ → Prop} {s t : σ} {l : ℓ} {ls : List ℓ} (hl : C s l)
    (ht : T.step s l = some t) (h : T.Meets C t ls) : T.Meets C s (l :: ls) := by
  rintro (_ | ⟨k, as⟩) m bs u heq hu
  · rw [List.nil_append, List.cons.injEq] at heq
    rw [run_nil, Option.some.injEq] at hu
    rw [← heq.1, ← hu]; exact hl
  · rw [List.cons_append, List.cons.injEq] at heq
    obtain ⟨v, hv, hrun⟩ := (T.run_cons_iff).mp hu
    rw [← heq.1, ht, Option.some.injEq] at hv
    exact h as m bs u heq.2 (hv ▸ hrun)

theorem Meets.tail {C : σ → ℓ → Prop} {s t : σ} {l : ℓ} {ls : List ℓ} (h : T.Meets C s (l :: ls))
    (ht : T.step s l = some t) : T.Meets C t ls := by
  rintro as k bs u rfl hu
  exact h (l :: as) k bs u rfl ((T.run_cons_iff).mpr ⟨t, ht, hu⟩)

theorem Meets.right {C : σ → ℓ → Prop} {s t : σ} {as bs : List ℓ} (h : T.Meets C s (as ++ bs))
    (ht : T.run s as = some t) : T.Meets C t bs := by
  rintro cs k ds u rfl hu
  exact h (as ++ cs) k ds u (by simp) ((T.run_append_iff).mpr ⟨t, ht, hu⟩)

/-! ### The induction rules -/

/-- What holds at the start and survives every allowed step holds of every run: of the labels taken
    so far and of the state reached. -/
theorem run_hist_of_meets {C : σ → ℓ → Prop} {P : List ℓ → σ → Prop} {s : σ} (h0 : P [] s)
    (hstep : ∀ ls t l u, T.run s ls = some t → P ls t → C t l → T.step t l = some u →
      P (ls ++ [l]) u) :
    ∀ {ls : List ℓ} {t : σ}, T.Meets C s ls → T.run s ls = some t → P ls t := by
  intro ls
  induction ls using List.reverseRecOn with
  | nil => intro t _ ht; rw [run_nil, Option.some.injEq] at ht; exact ht ▸ h0
  | append_singleton ls l ih =>
    intro u hC hu
    obtain ⟨t, ht, hl⟩ := (T.run_concat_iff).mp hu
    exact hstep ls t l u ht (ih (Meets.left T hC) ht) (Meets.last T hC ht) hl

/-- The rule for a property of the labels taken and the state reached, without a condition. -/
theorem run_hist {P : List ℓ → σ → Prop} {s : σ} (h0 : P [] s)
    (hstep : ∀ ls t l u, T.run s ls = some t → P ls t → T.step t l = some u → P (ls ++ [l]) u)
    {ls : List ℓ} {t : σ} (h : T.run s ls = some t) : P ls t :=
  T.run_hist_of_meets (C := fun _ _ => True) h0 (fun ls t l u ht hP _ hl => hstep ls t l u ht hP hl)
    (fun _ _ _ _ _ _ => trivial) h

/-- The rule for an invariant of the state under a condition on the steps. -/
theorem run_inv_of_meets {C : σ → ℓ → Prop} {P : σ → Prop}
    (hstep : ∀ s l t, P s → C s l → T.step s l = some t → P t) {s t : σ} {ls : List ℓ} (hs : P s)
    (hC : T.Meets C s ls) (h : T.run s ls = some t) : P t :=
  T.run_hist_of_meets (P := fun _ t => P t) hs (fun _ t l u _ hP hc hl => hstep t l u hP hc hl) hC h

/-- The rule for an invariant of the state. -/
theorem run_inv {P : σ → Prop} (hstep : ∀ s l t, P s → T.step s l = some t → P t) {s t : σ}
    {ls : List ℓ} (hs : P s) (h : T.run s ls = some t) : P t :=
  T.run_hist (P := fun _ t => P t) hs (fun _ t l u _ hP hl => hstep t l u hP hl) h

/-- The rule for "every state on the way is good exactly if every step meets a condition": an invariant
    that implies good, from which a step to a good state meets the condition, and which a step that
    meets it keeps. Good and the condition may look at the labels so far. -/
theorem run_states_iff {C : List ℓ → σ → ℓ → Prop} {P Q : List ℓ → σ → Prop} {s u : σ} {ls : List ℓ}
    (h0 : P [] s) (hgood : ∀ ls t, P ls t → Q ls t)
    (hmeets : ∀ ls t l u, P ls t → T.step t l = some u → Q (ls ++ [l]) u → C ls t l)
    (hkeeps : ∀ ls t l u, P ls t → T.step t l = some u → C ls t l → P (ls ++ [l]) u)
    (h : T.run s ls = some u) :
    (∀ pre post t, ls = pre ++ post → T.run s pre = some t → Q pre t) ↔
      ∀ pre l post t, ls = pre ++ l :: post → T.run s pre = some t → C pre t l := by
  have hP : (∀ pre l post t v, ls = pre ++ l :: post → T.run s pre = some t → T.step t l = some v →
      P pre t → C pre t l) → ∀ pre post t, ls = pre ++ post → T.run s pre = some t → P pre t := by
    intro hC pre
    induction pre using List.reverseRecOn with
    | nil =>
      intro post t _ ht
      rw [run_nil, Option.some.injEq] at ht
      exact ht ▸ h0
    | append_singleton pre l ih =>
      intro post v heq hv
      rw [List.append_assoc, List.singleton_append] at heq
      obtain ⟨t, ht, hl⟩ := (T.run_concat_iff).mp hv
      have hPt := ih (l :: post) t heq ht
      exact hkeeps pre t l v hPt hl (hC pre l post t v heq ht hl hPt)
  constructor
  · intro hQ
    have hC : ∀ pre l post t v, ls = pre ++ l :: post → T.run s pre = some t →
        T.step t l = some v → P pre t → C pre t l := by
      intro pre l post t v heq ht hl hPt
      exact hmeets pre t l v hPt hl (hQ (pre ++ [l]) post v (by simpa using heq)
        ((T.run_concat_iff).mpr ⟨t, ht, hl⟩))
    intro pre l post t heq ht
    obtain ⟨t', ht', hrest⟩ := (T.run_append_iff).mp (heq ▸ h)
    obtain rfl := Option.some.inj (ht.symm.trans ht')
    obtain ⟨v, hv, -⟩ := (T.run_cons_iff).mp hrest
    exact hC pre l post t v heq ht hv (hP hC pre (l :: post) t heq ht)
  · intro hC pre post t heq ht
    exact hgood pre t
      (hP (fun pre l post t _ heq ht _ _ => hC pre l post t heq ht) pre post t heq ht)

/-! ### Simulation -/

/-- `T` simulates `A` from the states of an invariant: every step is invisible above, or is the step
    of the abstract label that `lab` gives it. -/
structure Sim (A : Lts α κ) where
  abs : σ → α
  lab : ℓ → Option κ
  inv : σ → Prop
  inv_step : ∀ s l t, inv s → T.step s l = some t → inv t
  hidden : ∀ s l t, inv s → T.step s l = some t → lab l = none → abs t = abs s
  shown : ∀ s l t k, inv s → T.step s l = some t → lab l = some k → A.step (abs s) k = some (abs t)

/-- A run of the concrete system is a run of the abstract one over the visible labels. -/
theorem Sim.run {T : Lts σ ℓ} {A : Lts α κ} (R : T.Sim A) : ∀ {ls : List ℓ} {s t : σ}, R.inv s →
    T.run s ls = some t → A.run (R.abs s) (ls.filterMap R.lab) = some (R.abs t) := by
  intro ls
  induction ls with
  | nil =>
    intro s t _ h
    rw [run_nil, Option.some.injEq] at h
    simp [h]
  | cons l ls ih =>
    intro s u hs h
    obtain ⟨t, ht, hrun⟩ := (T.run_cons_iff).mp h
    have hrest := ih (R.inv_step s l t hs ht) hrun
    cases hl : R.lab l with
    | none => rw [List.filterMap_cons_none hl, ← R.hidden s l t hs ht hl]; exact hrest
    | some k =>
      rw [List.filterMap_cons_some hl]
      exact (A.run_cons_iff).mpr ⟨_, R.shown s l t k hs ht hl, hrest⟩

section
variable {T : Lts σ ℓ} {A : Lts α κ} (R : T.Sim A) {s u : σ} {ls : List ℓ}

/-- What holds in the states on the way of a run holds in those of its image. -/
theorem Sim.states_iff (hs : R.inv s) (h : T.run s ls = some u) (Q : α → Prop) :
    (∀ pre post t, ls = pre ++ post → T.run s pre = some t → Q (R.abs t)) ↔
      ∀ pre post a, ls.filterMap R.lab = pre ++ post → A.run (R.abs s) pre = some a → Q a := by
  constructor
  · intro hQ pre post a heq ha
    obtain ⟨l₁, l₂, rfl, rfl, -⟩ := List.filterMap_eq_append_iff.mp heq
    obtain ⟨t, ht, -⟩ := (T.run_append_iff).mp h
    obtain rfl := Option.some.inj ((R.run hs ht).symm.trans ha)
    exact hQ l₁ l₂ t rfl ht
  · rintro hQ pre post t rfl ht
    exact hQ _ _ _ List.filterMap_append (R.run hs ht)

/-- A condition on the abstract steps, taken back to the concrete ones. -/
theorem Sim.meets_iff (hs : R.inv s) (h : T.run s ls = some u) (C : α → κ → Prop) :
    T.Meets (fun t l => ∀ k, R.lab l = some k → C (R.abs t) k) s ls ↔
      A.Meets C (R.abs s) (ls.filterMap R.lab) := by
  constructor
  · intro hC as k bs a heq ha
    obtain ⟨l₁, l₂, rfl, rfl, h₂⟩ := List.filterMap_eq_append_iff.mp heq
    obtain ⟨m₁, l, m₂, rfl, hnone, hl, -⟩ := List.filterMap_eq_cons_iff.mp h₂
    obtain ⟨t, ht, -⟩ := (T.run_append_iff).mp (by rw [← List.append_assoc] at h; exact h)
    have hat : A.run (R.abs s) (l₁.filterMap R.lab) = some (R.abs t) := by
      have hrun := R.run hs ht
      rwa [List.filterMap_append, List.filterMap_eq_nil_iff.mpr hnone, List.append_nil] at hrun
    obtain rfl := Option.some.inj (hat.symm.trans ha)
    exact hC (l₁ ++ m₁) l m₂ t (by simp) ht k hl
  · rintro hC as l bs t rfl ht k hk
    refine hC (as.filterMap R.lab) k (bs.filterMap R.lab) _ ?_ (R.run hs ht)
    rw [List.filterMap_append, List.filterMap_cons_some hk]

end

end Lts
end Schemes
