import Gateway.Schemes.Lts

/-! @scheme since | name:Since, over a history | family:temporal

    "Some event of one kind has happened, and none of another kind since", read off the list of the
    events so far. What makes an event count may depend on the history before it, so conditions nest:
    an entry that was made while its owner was present and not withdrawn since. One rule extends a
    history by its newest event. `Throughout` is the companion: every event of a history meets a
    condition on it and on what came before it. -/

namespace Schemes
variable {ℓ : Type*} {p : List ℓ → ℓ → Prop} {q : ℓ → Prop} {h : List ℓ} {x : ℓ}

/-- An event that counts, by what came before it, with no event of `q` after it. -/
def Since (p : List ℓ → ℓ → Prop) (q : ℓ → Prop) (h : List ℓ) : Prop :=
  ∃ as x bs, h = as ++ x :: bs ∧ p as x ∧ ∀ y ∈ bs, ¬ q y

theorem not_since_nil : ¬ Since p q [] := by
  rintro ⟨as, x, bs, h, _⟩
  simp at h

theorem Since.append {as bs : List ℓ} (hs : Since p q as) (hb : ∀ y ∈ bs, ¬ q y) :
    Since p q (as ++ bs) := by
  obtain ⟨cs, x, ds, rfl, hp, hd⟩ := hs
  refine ⟨cs, x, ds ++ bs, by simp, hp, fun y hy => ?_⟩
  exact (List.mem_append.mp hy).elim (hd y) (hb y)

/-- The newest event counts itself, or it is not one of `q` and one before it counts. -/
theorem since_concat : Since p q (h ++ [x]) ↔ p h x ∨ Since p q h ∧ ¬ q x := by
  constructor
  · rintro ⟨as, y, bs, heq, hp, hq⟩
    rcases List.eq_nil_or_concat bs with rfl | ⟨cs, z, rfl⟩
    · obtain ⟨rfl, hx⟩ := List.append_inj' heq rfl
      rw [List.cons.injEq] at hx
      exact Or.inl (hx.1 ▸ hp)
    · rw [List.concat_eq_append, ← List.cons_append, ← List.append_assoc] at heq
      obtain ⟨rfl, hx⟩ := List.append_inj' heq rfl
      rw [List.cons.injEq] at hx
      rw [List.concat_eq_append] at hq
      refine Or.inr ⟨⟨as, y, cs, rfl, hp, fun w hw => hq w (List.mem_append_left _ hw)⟩, ?_⟩
      exact hx.1 ▸ hq z (List.mem_append_right _ List.mem_cons_self)
  · rintro (hp | ⟨⟨as, y, bs, rfl, hp, hq⟩, hx⟩)
    · exact ⟨h, x, [], rfl, hp, by simp⟩
    · refine ⟨as, y, bs ++ [x], by simp, hp, fun w hw => ?_⟩
      rcases List.mem_append.mp hw with hw | hw
      · exact hq w hw
      · rw [List.mem_singleton] at hw
        exact hw ▸ hx

/-- Every event meets `p`, given what came before it. -/
def Throughout (p : List ℓ → ℓ → Prop) (h : List ℓ) : Prop :=
  ∀ as x bs, h = as ++ x :: bs → p as x

theorem throughout_nil : Throughout p [] := by
  rintro as x bs h
  simp at h

theorem Throughout.left {as bs : List ℓ} (hall : Throughout p (as ++ bs)) : Throughout p as := by
  rintro cs x ds rfl
  exact hall cs x (ds ++ bs) (by simp)

theorem throughout_concat : Throughout p (h ++ [x]) ↔ Throughout p h ∧ p h x := by
  constructor
  · intro hall
    exact ⟨hall.left, hall h x [] rfl⟩
  · rintro ⟨hall, hx⟩ as y bs heq
    rcases List.eq_nil_or_concat bs with rfl | ⟨cs, z, rfl⟩
    · obtain ⟨rfl, hy⟩ := List.append_inj' heq rfl
      rw [List.cons.injEq] at hy
      exact hy.1 ▸ hx
    · rw [List.concat_eq_append, ← List.cons_append, ← List.append_assoc] at heq
      obtain ⟨rfl, _⟩ := List.append_inj' heq rfl
      exact hall as y cs rfl

/-- A condition on the labels of a run and what came before them, as the rule for the states of a run
    has it. -/
theorem Lts.throughout_iff {σ : Type*} (T : Lts σ ℓ) {s u : σ} (hu : T.run s h = some u) :
    (∀ pre l post t, h = pre ++ l :: post → T.run s pre = some t → p pre l) ↔ Throughout p h := by
  constructor
  · intro hall pre l post heq
    obtain ⟨t, ht, -⟩ := (T.run_append_iff).mp (heq ▸ hu)
    exact hall pre l post t heq ht
  · intro hall pre l post t heq _
    exact hall pre l post heq

end Schemes
