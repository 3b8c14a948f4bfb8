import Mathlib.Data.List.Basic

/-! @scheme latest | name:The latest value of a key | family:temporal

    A history of assignments, each a key with the value it is given. What a store that only keeps the
    current values should hold is the value that the newest assignment gave the key. One rule extends a
    history by its newest assignment. -/

namespace Schemes
variable {κ α : Type*} [DecidableEq κ] {k : κ} {d : α} {h : List (κ × α)}

/-- The value that `k` was given last, and `d` if it never was given one. -/
def latest (k : κ) (d : α) (h : List (κ × α)) : α :=
  ((h.filter (·.1 = k)).getLast?.map Prod.snd).getD d

/-- The newest assignment counts for its own key and for no other. -/
theorem latest_concat (x : κ × α) : latest k d (h ++ [x]) = if x.1 = k then x.2 else latest k d h := by
  unfold latest
  rw [List.filter_append]
  split_ifs with hx
  · simp [hx]
  · simp [hx]

@[simp] theorem latest_concat_self (v : α) : latest k d (h ++ [(k, v)]) = v := by
  rw [latest_concat, if_pos rfl]

theorem latest_concat_ne {x : κ × α} (hx : x.1 ≠ k) : latest k d (h ++ [x]) = latest k d h := by
  rw [latest_concat, if_neg hx]

/-- A key that has not been given a value yet. -/
theorem latest_of_not_mem (hk : k ∉ h.map Prod.fst) : latest k d h = d := by
  have hnil : h.filter (·.1 = k) = [] := by
    rw [List.filter_eq_nil_iff]
    intro x hx hkey
    exact hk (List.mem_map.mpr ⟨x, hx, of_decide_eq_true hkey⟩)
  rw [latest, hnil]
  rfl

end Schemes
