import Mathlib.Data.List.Basic
import Mathlib.Order.Lattice

/-! @scheme sweep | name:A loop over an ordered set that grows | family:interleaving

    A loop goes through a set in the order of its elements, one element a step, and collects those that
    it looks for, while others insert elements. It goes from each element to the next larger one that is
    in the set by then, so of what is inserted meanwhile it finds what is still ahead of it. What it has
    collected when it ends lies between the set as it was when the loop began and the set as it is
    (`Swept.done`); it need not be the set as it was at any time. -/

namespace Schemes

/-- The elements of a set in their order. -/
structure OrderedSet (α : Type*) [LinearOrder α] where
  list : List α
  sorted : list.Pairwise (· < ·)

namespace OrderedSet
variable {α : Type*} [LinearOrder α]

def empty : OrderedSet α := ⟨[], .nil⟩

/-- `x` among the others in their order, once. -/
def insertList (x : α) : List α → List α
  | [] => [x]
  | y :: ys => if x < y then x :: y :: ys else if y < x then y :: insertList x ys else y :: ys

theorem mem_insertList {x z : α} {ys : List α} (h : z ∈ insertList x ys) : z = x ∨ z ∈ ys := by
  induction ys with
  | nil => exact Or.inl (List.mem_singleton.mp h)
  | cons y ys ih =>
    rw [insertList] at h
    split_ifs at h
    · exact List.mem_cons.mp h
    · rcases List.mem_cons.mp h with rfl | h
      · exact Or.inr List.mem_cons_self
      · exact (ih h).imp_right (List.mem_cons_of_mem y)
    · exact Or.inr h

theorem sorted_insertList {x : α} {ys : List α} (h : ys.Pairwise (· < ·)) :
    (insertList x ys).Pairwise (· < ·) := by
  induction ys with
  | nil => exact List.pairwise_singleton _ _
  | cons y ys ih =>
    obtain ⟨hy, hys⟩ := List.pairwise_cons.mp h
    rw [insertList]
    split_ifs with hxy hyx
    · refine List.pairwise_cons.mpr ⟨fun z hz => ?_, h⟩
      rcases List.mem_cons.mp hz with rfl | hz
      · exact hxy
      · exact lt_trans hxy (hy z hz)
    · refine List.pairwise_cons.mpr ⟨fun z hz => ?_, ih hys⟩
      rcases mem_insertList hz with rfl | hz
      · exact hyx
      · exact hy z hz
    · exact h

theorem sublist_insertList (x : α) (ys : List α) : ys.Sublist (insertList x ys) := by
  induction ys with
  | nil => exact List.nil_sublist _
  | cons y ys ih =>
    rw [insertList]
    split_ifs
    · exact List.sublist_cons_self x _
    · exact ih.cons_cons y
    · exact List.Sublist.refl _

def insert (s : OrderedSet α) (x : α) : OrderedSet α := ⟨insertList x s.list, sorted_insertList s.sorted⟩

/-- The loop has not come to the element yet; `last` is the one that it has come to. -/
def Ahead (last : Option α) (x : α) : Prop := ∀ y ∈ last, y < x

instance (last : Option α) (x : α) : Decidable (Ahead last x) := by
  cases last with
  | none => exact .isTrue fun _ h => by cases h
  | some y => exact decidable_of_iff (y < x) ⟨fun h _ hz => Option.some.inj hz ▸ h, fun h => h y rfl⟩

/-- The element that the loop comes to next. -/
def next (s : OrderedSet α) (last : Option α) : Option α := s.list.find? fun x => Ahead last x

/-- What the loop has behind it. -/
def passed (last : Option α) (xs : List α) : List α := xs.filter fun x => ¬ Ahead last x

/-- The loop began with the set `t`, which is `s` now; it has come to `last` and has collected `found` of
    the elements that it looks for. -/
structure Swept (f : α → Bool) (t s : OrderedSet α) (last : Option α) (found : List α) : Prop where
  lower : ((passed last t.list).filter f).Sublist found
  upper : found.Sublist ((passed last s.list).filter f)
  grown : t.list.Sublist s.list

variable {f : α → Bool} {s t : OrderedSet α} {last : Option α} {found : List α} {d : α}

theorem passed_none (xs : List α) : passed none xs = [] := by
  refine List.filter_eq_nil_iff.mpr fun x _ => ?_
  have hahead : Ahead none x := fun y hy => by cases hy
  simpa using hahead

/-- The next element splits the set: in front of it is what the loop has behind it. -/
theorem next_split (h : s.next last = some d) : ∃ as bs, s.list = as ++ d :: bs ∧ Ahead last d ∧
    (∀ a ∈ as, ¬ Ahead last a ∧ ¬ Ahead (some d) a) ∧ ∀ b ∈ bs, Ahead last b ∧ Ahead (some d) b := by
  obtain ⟨hd, as, bs, hlist, has⟩ := List.find?_eq_some_iff_append.mp h
  have hahead : Ahead last d := by simpa using hd
  obtain ⟨-, hright, hcross⟩ := List.pairwise_append.mp (hlist ▸ s.sorted)
  refine ⟨as, bs, hlist, hahead, fun a ha => ⟨by simpa using has a ha, fun had => ?_⟩, fun b hb => ?_⟩
  · exact lt_asymm (had d rfl) (hcross a ha d List.mem_cons_self)
  · have hdb := (List.pairwise_cons.mp hright).1 b hb
    exact ⟨fun y hy => lt_trans (hahead y hy) hdb, fun y hy => Option.some.inj hy ▸ hdb⟩

theorem passed_append (last : Option α) (xs ys : List α) :
    passed last (xs ++ ys) = passed last xs ++ passed last ys := List.filter_append ..

theorem passed_of_not {xs : List α} (h : ∀ x ∈ xs, ¬ Ahead last x) : passed last xs = xs :=
  List.filter_eq_self.mpr fun x hx => by simpa using h x hx

theorem passed_of_ahead {xs : List α} (h : ∀ x ∈ xs, Ahead last x) : passed last xs = [] :=
  List.filter_eq_nil_iff.mpr fun x hx => by simpa using h x hx

/-- A step of the loop passes the next element and no other. -/
theorem passed_next (h : s.next last = some d) : passed (some d) s.list = passed last s.list ++ [d] := by
  obtain ⟨as, bs, hlist, hd, has, hbs⟩ := next_split h
  have hself : ¬ Ahead (some d) d := fun hdd => lt_irrefl d (hdd d rfl)
  have hcons : ∀ b ∈ d :: bs, Ahead last b := List.forall_mem_cons.mpr ⟨hd, fun b hb => (hbs b hb).1⟩
  have hbehind : passed (some d) bs = [] := passed_of_ahead fun b hb => (hbs b hb).2
  rw [hlist, passed_append, passed_append, passed_of_not fun a ha => (has a ha).1,
    passed_of_not fun a ha => (has a ha).2, passed_of_ahead hcons, List.append_nil,
    ← List.singleton_append, passed_append, hbehind, passed_of_not (by simpa using hself),
    List.append_nil]

/-- Of a part of the set it passes perhaps this element. -/
theorem passed_next_sublist (h : s.next last = some d) {ts : List α} (hts : ts.Sublist s.list) :
    ∃ es : List α, es.Sublist [d] ∧ passed (some d) ts = passed last ts ++ es := by
  obtain ⟨as, bs, hlist, hd, has, hbs⟩ := next_split h
  rw [hlist] at hts
  obtain ⟨xs, ys, rfl, hxs, hys⟩ := List.sublist_append_iff.mp hts
  have hxs' : ∀ x ∈ xs, ¬ Ahead last x ∧ ¬ Ahead (some d) x := fun x hx => has x (hxs.mem hx)
  have hys' : ∀ y ∈ ys, Ahead last y := fun y hy => by
    rcases List.mem_cons.mp (hys.mem hy) with rfl | hy
    · exact hd
    · exact (hbs y hy).1
  refine ⟨passed (some d) ys, ?_, ?_⟩
  · have hsub := hys.filter fun x => ¬ Ahead (some d) x
    have hself : ¬ Ahead (some d) d := fun hdd => lt_irrefl d (hdd d rfl)
    rw [List.filter_cons_of_pos (by simpa using hself)] at hsub
    have hnil : passed (some d) bs = [] := passed_of_ahead fun b hb => (hbs b hb).2
    rw [passed] at hnil
    rwa [hnil] at hsub
  · rw [passed_append, passed_append, passed_of_not fun x hx => (hxs' x hx).1,
      passed_of_not fun x hx => (hxs' x hx).2, passed_of_ahead hys', List.append_nil]

/-! ### The loop -/

theorem Swept.start (f : α → Bool) (s : OrderedSet α) : Swept f s s none [] := by
  refine ⟨?_, List.nil_sublist _, List.Sublist.refl _⟩
  rw [passed_none]
  exact List.nil_sublist _

/-- Somebody inserts an element. -/
theorem Swept.insert (h : Swept f t s last found) (x : α) : Swept f t (s.insert x) last found :=
  have hgrow := sublist_insertList x s.list
  ⟨h.lower, h.upper.trans ((hgrow.filter _).filter _), h.grown.trans hgrow⟩

/-- The loop comes to its next element. -/
theorem Swept.next (h : Swept f t s last found) (hd : s.next last = some d) :
    Swept f t s (some d) (if f d then found ++ [d] else found) := by
  obtain ⟨es, hes, hpassed⟩ := passed_next_sublist hd h.grown
  have hkept : (if f d then found ++ [d] else found) = found ++ [d].filter f := by
    cases hf : f d <;> simp [hf]
  refine ⟨?_, ?_, h.grown⟩
  · rw [hkept, hpassed, List.filter_append]
    exact h.lower.append (hes.filter f)
  · rw [hkept, passed_next hd, List.filter_append]
    exact h.upper.append (List.Sublist.refl _)

/-- Where the loop ends it has collected what was in the set when it began, and nothing that is not in the
    set now, in the order of the elements. -/
theorem Swept.done (h : Swept f t s last found) (hd : s.next last = none) :
    (t.list.filter f).Sublist found ∧ found.Sublist (s.list.filter f) := by
  have hall : ∀ x ∈ s.list, ¬ Ahead last x := fun x hx => by
    simpa using List.find?_eq_none.mp hd x hx
  have hs := passed_of_not hall
  have ht := passed_of_not fun x hx => hall x (h.grown.mem hx)
  exact ⟨ht ▸ h.lower, hs ▸ h.upper⟩

end OrderedSet
end Schemes
