import Mathlib.Data.List.Basic

/-! @scheme regex | name:Backtracking regular expressions | family:formats

    A pattern is matched at a place by trying its ways there in order: a repetition takes as much as it
    can and then gives back, a lookahead takes nothing. `ways r s` are the lengths that `r` can take off
    the front of `s`, the first one first; a search takes the first way at the first place that has one. -/

namespace Schemes

inductive Regex (α : Type*) where
  | one (p : α → Bool)
  /-- `*` on a class of characters, greedy -/
  | star (p : α → Bool)
  | seq (r t : Regex α)
  | ahead (r : Regex α)
  | notAhead (r : Regex α)

namespace Regex
variable {α : Type*}

def ways : Regex α → List α → List ℕ
  | one _, [] => []
  | one p, x :: _ => if p x then [1] else []
  | star p, s => (List.range ((s.takeWhile p).length + 1)).reverse
  | seq r t, s => (ways r s).flatMap fun k => (ways t (s.drop k)).map (k + ·)
  | ahead r, s => if ways r s = [] then [] else [0]
  | notAhead r, s => if ways r s = [] then [0] else []

/-- The place and the length of the first match. -/
def search (r : Regex α) : List α → Option (ℕ × ℕ)
  | [] => (ways r []).head?.map fun k => (0, k)
  | x :: s => match (ways r (x :: s)).head? with
    | some k => some (0, k)
    | none => (search r s).map fun m => (m.1 + 1, m.2)

/-- The text of the first match. -/
def firstMatch (r : Regex α) (s : List α) : Option (List α) :=
  (search r s).map fun m => (s.drop m.1).take m.2

section
variable {r t : Regex α} {s : List α} {x : α} {p q : α → Bool}

theorem firstMatch_of_ways {k : ℕ} {ks : List ℕ} (h : ways r s = k :: ks) :
    firstMatch r s = some (s.take k) := by
  cases s with
  | nil => simp [firstMatch, search, h]
  | cons x s => simp [firstMatch, search, h]

/-- A place without a match is passed over. -/
theorem firstMatch_cons (h : ways r (x :: s) = []) : firstMatch r (x :: s) = firstMatch r s := by
  simp only [firstMatch, search, h, List.head?_nil, Option.map_map]
  rfl

/-- No place has a match. -/
theorem firstMatch_eq_none (h : ∀ t, t <:+ s → ways r t = []) : firstMatch r s = none := by
  induction s with
  | nil => simp [firstMatch, search, h [] List.suffix_rfl]
  | cons x s ih =>
    rw [firstMatch_cons (h _ List.suffix_rfl)]
    exact ih fun t ht => h t (ht.trans (List.suffix_cons x s))

theorem ways_ahead_one : ways (.ahead (.one p)) s = if s.head?.any p then [0] else [] := by
  cases s with
  | nil => simp [ways]
  | cons x s => by_cases hx : p x <;> simp [ways, hx]

theorem ways_notAhead_one : ways (.notAhead (.one p)) s = if s.head?.any p then [] else [0] := by
  cases s with
  | nil => simp [ways]
  | cons x s => by_cases hx : p x <;> simp [ways, hx]

/-- A pattern behind a lookahead for what must not be there. -/
theorem ways_notAhead_seq : ways (.seq (.notAhead (.one p)) r) s =
    if s.head?.any p then [] else ways r s := by
  rw [ways, ways_notAhead_one]
  split_ifs
  · rfl
  · simp

/-- At a place where no `q` comes next, nothing is left of a way that ends there. -/
theorem ways_ahead_nil {l : List α} {k : ℕ} (hl : ∀ y ∈ l[k]?, q y = false) :
    (ways (.ahead (.one q)) (l.drop k)).map (k + ·) = [] := by
  rw [ways_ahead_one, List.head?_drop]
  cases hy : l[k]? with
  | none => rfl
  | some y => simp [hl y hy]

/-- A run of a class up to an element that is not in it: the star gives nothing back. -/
theorem ways_run {m : List α} (hm : ∀ y ∈ m, p y = true ∧ q y = false) (hp : p x = false)
    (hq : q x = true) (s : List α) :
    ways (.seq (.star p) (.ahead (.one q))) (m ++ x :: s) = [m.length] := by
  have htake : (m ++ x :: s).takeWhile p = m := by
    rw [List.takeWhile_append_of_pos fun y hy => (hm y hy).1, List.takeWhile_cons_of_neg (by simp [hp]),
      List.append_nil]
  have hshort : (List.range m.length).reverse.flatMap
      (fun k => (ways (.ahead (.one q)) ((m ++ x :: s).drop k)).map (k + ·)) = [] := by
    refine List.flatMap_eq_nil_iff.mpr fun k hk => ways_ahead_nil fun y hy => ?_
    have hlt : k < m.length := List.mem_range.mp (List.mem_reverse.mp hk)
    rw [List.getElem?_append_left hlt] at hy
    exact (hm y (List.mem_of_getElem? hy)).2
  rw [ways, ways, htake, List.range_succ, List.reverse_append, List.reverse_singleton,
    List.singleton_append, List.flatMap_cons, hshort, List.drop_left, ways_ahead_one]
  simp [hq]

/-- Without a `q` no run ends in front of one. -/
theorem ways_run_nil (hs : ∀ y ∈ s, q y = false) :
    ways (.seq (.star p) (.ahead (.one q))) s = [] := by
  rw [ways]
  exact List.flatMap_eq_nil_iff.mpr fun k _ => ways_ahead_nil fun y hy =>
    hs y (List.mem_of_getElem? hy)

end

end Regex
end Schemes
