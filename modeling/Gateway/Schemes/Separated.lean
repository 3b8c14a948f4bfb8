import Mathlib.Data.List.Basic
import Mathlib.Data.List.Infix

/-! @scheme separated | name:Texts of terminated items | family:formats

    A text that is written as items, each followed by a terminator. If the terminator is one letter,
    every text is a list of items without it and a rest without it, in one way only (`lines_eq_iff`);
    so a reader of a stream gets back what was written, and from parts of texts written one after the
    other just the whole items, exactly if no rest is left in front of a later item (`items_read_iff`).
    If the terminator is a word, the reader that cuts at its first occurrence gets the items back exactly
    if the word does not occur earlier in any of them with the word behind it (`columns_iff`). -/

namespace Schemes
namespace Separated
variable {α : Type*}

/-- Every item followed by the word `w`. -/
def terminated (w : List α) (items : List (List α)) : List α := items.flatMap (· ++ w)

section
variable {w x : List α} {xs ys : List (List α)}

@[simp] theorem terminated_nil : terminated w [] = [] := rfl

@[simp] theorem terminated_cons : terminated w (x :: xs) = x ++ w ++ terminated w xs := rfl

end

/-! ### One letter -/

/-- What a reader of lines makes of a text: the whole items, and what is behind the last terminator. -/
def lines [DecidableEq α] (e : α) (t : List α) : List (List α) × List α :=
  ((t.splitOn e).dropLast, (t.splitOn e).getLastD [])

section
variable [DecidableEq α] {e : α} {x r s t : List α} {xs : List (List α)}

theorem lines_rest (h : e ∉ r) : lines e r = ([], r) := by
  rw [lines, List.splitOn_eq_singleton h]
  rfl

theorem lines_cons (h : e ∉ x) (t : List α) :
    lines e (x ++ e :: t) = (x :: (lines e t).1, (lines e t).2) := by
  have hne := List.splitOn_ne_nil e t
  rw [lines, List.splitOn_append_cons_self_of_not_mem h, List.dropLast_cons_of_ne_nil hne,
    List.getLastD_cons]
  refine Prod.ext rfl ?_
  simp only [lines, List.getLastD_eq_getLast?, List.getLast?_eq_getLast_of_ne_nil hne, Option.getD_some]

theorem lines_terminated (hxs : ∀ x ∈ xs, e ∉ x) (t : List α) :
    lines e (terminated [e] xs ++ t) = (xs ++ (lines e t).1, (lines e t).2) := by
  induction xs with
  | nil => rfl
  | cons x xs ih =>
    rw [terminated_cons, List.append_assoc, List.append_assoc, List.singleton_append,
      lines_cons (hxs x List.mem_cons_self), ih fun y hy => hxs y (List.mem_cons_of_mem x hy)]
    rfl

/-- Every text is made of its lines and the rest, and they are without the letter. -/
theorem lines_spec (e : α) (t : List α) : terminated [e] (lines e t).1 ++ (lines e t).2 = t ∧
    (∀ x ∈ (lines e t).1, e ∉ x) ∧ e ∉ (lines e t).2 := by
  induction hn : t.length using Nat.strong_induction_on generalizing t with
  | _ n ih =>
    by_cases he : e ∈ t
    · obtain ⟨x, t', rfl, hx⟩ := List.eq_append_cons_of_mem he
      obtain ⟨htext, hitems, hrest⟩ := ih t'.length (by rw [← hn]; simp; omega) t' rfl
      rw [lines_cons hx]
      refine ⟨?_, ?_, hrest⟩
      · rw [terminated_cons, List.append_assoc, htext, List.append_assoc, List.singleton_append]
      · intro y hy
        rcases List.mem_cons.mp hy with rfl | hy
        · exact hx
        · exact hitems y hy
    · rw [lines_rest he]
      exact ⟨rfl, fun x hx => absurd hx List.not_mem_nil, he⟩

/-- There is one way only to read a text. -/
theorem lines_eq_iff : lines e t = (xs, r) ↔
    t = terminated [e] xs ++ r ∧ (∀ x ∈ xs, e ∉ x) ∧ e ∉ r := by
  constructor
  · intro h
    obtain ⟨htext, hitems, hrest⟩ := lines_spec e t
    rw [h] at htext hitems hrest
    exact ⟨htext.symm, hitems, hrest⟩
  · rintro ⟨rfl, hxs, hr⟩
    rw [lines_terminated hxs, lines_rest hr, List.append_nil]

/-- There are as many lines as terminators. -/
theorem length_lines (e : α) (t : List α) : (lines e t).1.length = t.count e := by
  obtain ⟨htext, hitems, hrest⟩ := lines_spec e t
  have hcount : ∀ xs : List (List α), (∀ x ∈ xs, e ∉ x) → (terminated [e] xs).count e = xs.length := by
    intro xs hxs
    induction xs with
    | nil => rfl
    | cons x xs ih =>
      rw [terminated_cons, List.count_append, List.count_append, List.count_singleton_self,
        List.count_eq_zero.mpr (hxs x List.mem_cons_self),
        ih fun y hy => hxs y (List.mem_cons_of_mem x hy), List.length_cons]
      omega
  conv_rhs => rw [← htext]
  rw [List.count_append, List.count_eq_zero.mpr hrest, hcount _ hitems, Nat.add_zero]

/-- A terminator in an item makes a line more. -/
theorem count_terminated (e : α) (xs : List (List α)) : xs.length ≤ (terminated [e] xs).count e ∧
    ((terminated [e] xs).count e = xs.length ↔ ∀ x ∈ xs, e ∉ x) := by
  induction xs with
  | nil => simp
  | cons x xs ih =>
    obtain ⟨hle, hiff⟩ := ih
    rw [terminated_cons, List.count_append, List.count_append, List.count_singleton_self,
      List.length_cons, List.forall_mem_cons, ← hiff, ← List.count_eq_zero]
    omega

/-- The lines of a beginning of a text are a beginning of its lines. -/
theorem lines_prefix (h : s <+: t) : (lines e s).1 <+: (lines e t).1 := by
  obtain ⟨u, rfl⟩ := h
  obtain ⟨htext, hitems, -⟩ := lines_spec e s
  have hread := lines_terminated hitems ((lines e s).2 ++ u)
  rw [← List.append_assoc, htext] at hread
  rw [hread]
  exact List.prefix_append _ _

end

/-! ### Parts of texts one after the other -/

/-- What is read of parts with whole items and a rest each, behind `c`: a rest is in front of the next
    item. -/
def merge (c : List α) : List (List (List α) × List α) → List (List α) × List α
  | [] => ([], c)
  | ([], r) :: ps => merge (c ++ r) ps
  | (x :: xs, r) :: ps => ((c ++ x) :: xs ++ (merge r ps).1, (merge r ps).2)

/-- The text that is made of the parts. -/
def joined (e : α) (ps : List (List (List α) × List α)) : List α :=
  ps.flatMap fun p => terminated [e] p.1 ++ p.2

section
variable {e : α} {c : List α} {ps : List (List (List α) × List α)}

/-- The items are read as they are exactly if no rest, nor `c`, is in front of a later item. -/
theorem merge_items_iff : (merge c ps).1 = ps.flatMap Prod.fst ↔
    (c ≠ [] → ∀ p ∈ ps, p.1 = []) ∧ ps.Pairwise fun p p' => p.2 ≠ [] → p'.1 = [] := by
  induction ps generalizing c with
  | nil => simp [merge]
  | cons p ps ih =>
    obtain ⟨xs, r⟩ := p
    rw [List.pairwise_cons, List.flatMap_cons]
    cases xs with
    | nil =>
      rw [merge, List.nil_append, ih]
      simp only [ne_eq, List.append_eq_nil_iff, not_and_or, List.forall_mem_cons, true_and]
      constructor
      · rintro ⟨hcr, hps⟩
        exact ⟨fun hc => hcr (Or.inl hc), fun p hp hr => hcr (Or.inr hr) p hp, hps⟩
      · rintro ⟨hc, hr, hps⟩
        exact ⟨fun hcr p hp => hcr.elim (fun h => hc h p hp) (hr p hp), hps⟩
    | cons x xs =>
      have hhead : (c ++ x) :: xs ++ (merge r ps).1 = x :: xs ++ ps.flatMap Prod.fst ↔
          c = [] ∧ (merge r ps).1 = ps.flatMap Prod.fst := by
        simp only [List.cons_append, List.cons.injEq, List.append_cancel_left_eq,
          List.append_left_eq_self]
      rw [merge, hhead, ih]
      simp only [ne_eq, List.forall_mem_cons, reduceCtorEq, false_and, imp_false, not_not]
      constructor
      · rintro ⟨hc, hr, hps⟩
        exact ⟨hc, fun p hp hne => hr hne p hp, hps⟩
      · rintro ⟨hc, hr, hps⟩
        exact ⟨hc, fun hne p hp => hr p hp hne, hps⟩

variable [DecidableEq α]

theorem lines_joined (hc : e ∉ c) (hps : ∀ p ∈ ps, (∀ x ∈ p.1, e ∉ x) ∧ e ∉ p.2) :
    lines e (c ++ joined e ps) = merge c ps := by
  induction ps generalizing c with
  | nil => rw [joined, List.flatMap_nil, List.append_nil, lines_rest hc]; rfl
  | cons p ps ih =>
    obtain ⟨xs, r⟩ := p
    obtain ⟨hxs, hr⟩ := hps _ List.mem_cons_self
    have hrest := fun p hp => hps p (List.mem_cons_of_mem _ hp)
    have hsplit : joined e ((xs, r) :: ps) = terminated [e] xs ++ (r ++ joined e ps) := by
      rw [joined, List.flatMap_cons, List.append_assoc]
      rfl
    rw [hsplit]
    cases xs with
    | nil =>
      have hcr : e ∉ c ++ r := fun h => (List.mem_append.mp h).elim hc hr
      rw [terminated_nil, List.nil_append, ← List.append_assoc, ih hcr hrest]
      rfl
    | cons x xs =>
      have hcx : e ∉ c ++ x := fun h => (List.mem_append.mp h).elim hc (hxs x List.mem_cons_self)
      have hall : ∀ y ∈ (c ++ x) :: xs, e ∉ y := by
        intro y hy
        rcases List.mem_cons.mp hy with rfl | hy
        · exact hcx
        · exact hxs y (List.mem_cons_of_mem x hy)
      have hread := lines_terminated hall (r ++ joined e ps)
      rw [ih hr hrest] at hread
      rw [merge, ← hread]
      simp only [terminated_cons, List.append_assoc]

/-- A reader of texts one after the other gets their whole lines, and nothing else, exactly if none of
    them leaves a rest before a later one has a line. -/
theorem items_read_iff (e : α) (ts : List (List α)) :
    (lines e ts.flatten).1 = ts.flatMap (fun t => (lines e t).1) ↔
      ts.Pairwise fun t t' => (lines e t).2 ≠ [] → (lines e t').1 = [] := by
  have hjoin : joined e (ts.map (lines e)) = ts.flatten := by
    rw [joined, List.flatMap_map, List.flatMap_congr fun t _ => (lines_spec e t).1, List.flatMap_id']
  have hparts : ∀ p ∈ ts.map (lines e), (∀ x ∈ p.1, e ∉ x) ∧ e ∉ p.2 := by
    intro p hp
    obtain ⟨t, -, rfl⟩ := List.mem_map.mp hp
    exact (lines_spec e t).2
  have hread := lines_joined (c := []) List.not_mem_nil hparts
  rw [List.nil_append, hjoin] at hread
  rw [hread, ← List.flatMap_map, merge_items_iff, List.pairwise_map]
  simp

end

/-! ### A word -/

variable [DecidableEq α]

/-- What is before the first occurrence of the word, and what is behind it. -/
def cut (w : List α) : List α → Option (List α × List α)
  | [] => none
  | a :: t =>
    if w.isPrefixOf (a :: t) then some ([], (a :: t).drop w.length)
    else (cut w t).map fun p => (a :: p.1, p.2)

/-- What a reader of columns makes of a text: it cuts at one occurrence of the word after the other. -/
def columns (w t : List α) : List (List α) × List α :=
  match cut w t with
  | none => ([], t)
  | some (x, t') =>
    if t'.length < t.length then
      let rest := columns w t'
      (x :: rest.1, rest.2)
    else ([], t)
termination_by t.length

/-- The word is met first where it ends the item. -/
def Clear (w x : List α) : Prop := cut w (x ++ w) = some (x, [])

instance (w x : List α) : Decidable (Clear w x) := inferInstanceAs (Decidable (_ = _))

section
variable {w x p q s t : List α} {xs : List (List α)}

theorem cut_cons_pos {a : α} (h : w <+: a :: t) : cut w (a :: t) = some ([], (a :: t).drop w.length) := by
  rw [cut, if_pos (List.isPrefixOf_iff_prefix.mpr h)]

theorem cut_cons_neg {a : α} (h : ¬ w <+: a :: t) :
    cut w (a :: t) = (cut w t).map fun p => (a :: p.1, p.2) := by
  rw [cut, if_neg fun hp => h (List.isPrefixOf_iff_prefix.mp hp)]

theorem cut_spec (h : cut w t = some (p, q)) : t = p ++ w ++ q := by
  induction t generalizing p with
  | nil => cases h
  | cons a t ih =>
    by_cases hw : w <+: a :: t
    · rw [cut_cons_pos hw] at h
      obtain ⟨rfl, rfl⟩ := Prod.mk.inj (Option.some.inj h)
      obtain ⟨u, hu⟩ := hw
      rw [← hu, List.drop_left, List.nil_append]
    · rw [cut_cons_neg hw] at h
      obtain ⟨⟨p', q'⟩, hcut, heq⟩ := Option.map_eq_some_iff.mp h
      obtain ⟨rfl, rfl⟩ := Prod.mk.inj heq
      rw [ih hcut]
      rfl

/-- What is behind the occurrence does not matter. -/
theorem cut_append (h : cut w t = some (p, q)) (s : List α) : cut w (t ++ s) = some (p, q ++ s) := by
  induction t generalizing p with
  | nil => cases h
  | cons a t ih =>
    have hlen : w.length ≤ (a :: t).length := by
      rw [cut_spec h]
      simp only [List.length_append]
      omega
    have hiff : w <+: a :: (t ++ s) ↔ w <+: a :: t :=
      ⟨fun hw => List.prefix_of_prefix_length_le hw (List.prefix_append (a :: t) s) hlen,
        fun hw => hw.trans (List.prefix_append (a :: t) s)⟩
    by_cases hw : w <+: a :: t
    · rw [List.cons_append, cut_cons_pos (hiff.mpr hw)]
      rw [cut_cons_pos hw] at h
      obtain ⟨rfl, rfl⟩ := Prod.mk.inj (Option.some.inj h)
      rw [← List.cons_append, List.drop_append_of_le_length hlen]
    · rw [List.cons_append, cut_cons_neg fun h' => hw (hiff.mp h')]
      rw [cut_cons_neg hw] at h
      obtain ⟨⟨p', q'⟩, hcut, heq⟩ := Option.map_eq_some_iff.mp h
      obtain ⟨rfl, rfl⟩ := Prod.mk.inj heq
      rw [ih hcut]
      rfl

/-- An item with the word behind it is cut somewhere. -/
theorem cut_item (hw : w ≠ []) (x : List α) : ∃ p q, cut w (x ++ w) = some (p, q) := by
  induction x with
  | nil =>
    obtain ⟨a, w', rfl⟩ := List.exists_cons_of_ne_nil hw
    exact ⟨_, _, cut_cons_pos (List.prefix_refl _)⟩
  | cons a x ih =>
    by_cases hp : w <+: a :: (x ++ w)
    · exact ⟨_, _, cut_cons_pos hp⟩
    · obtain ⟨p, q, hcut⟩ := ih
      exact ⟨a :: p, q, by rw [List.cons_append, cut_cons_neg hp, hcut]; rfl⟩

theorem columns_cons (hw : w ≠ []) (h : cut w t = some (p, q)) :
    columns w t = (p :: (columns w q).1, (columns w q).2) := by
  have hlt : q.length < t.length := by
    have hpos := List.length_pos_of_ne_nil hw
    rw [cut_spec h]
    simp only [List.length_append]
    omega
  rw [columns, h]
  simp only [if_pos hlt]

/-- The empty word is not met at the end of an item, and cuts nothing. -/
theorem cut_empty (x : List α) : ¬ Clear [] x ∧ columns [] x = ([], x) := by
  cases x with
  | nil => exact ⟨fun h => (by cases h), by rw [columns, cut]⟩
  | cons a x =>
    have hcut : cut [] (a :: x) = some ([], a :: x) := cut_cons_pos (List.nil_prefix)
    refine ⟨fun h => ?_, ?_⟩
    · rw [Clear, List.append_nil, hcut] at h
      cases h
    · rw [columns, hcut]
      simp

/-- The reader gets the items back exactly if each is met whole. -/
theorem columns_iff : columns w (terminated w xs) = (xs, []) ↔ ∀ x ∈ xs, Clear w x := by
  induction xs with
  | nil =>
    rw [terminated_nil, columns, cut]
    simp
  | cons x xs ih =>
    by_cases hw : w = []
    · subst hw
      rw [(cut_empty _).2]
      exact iff_of_false (fun h => by cases h) fun h => (cut_empty x).1 (h x List.mem_cons_self)
    obtain ⟨p, q, hcut⟩ := cut_item hw x
    rw [terminated_cons, columns_cons hw (cut_append hcut _), List.forall_mem_cons, ← ih]
    have hlen : p.length + q.length = x.length := by
      have := congrArg List.length (cut_spec hcut)
      simp only [List.length_append] at this
      omega
    constructor
    · intro h
      obtain ⟨hcons, hrest⟩ := Prod.mk.inj h
      obtain ⟨rfl, htail⟩ := List.cons.inj hcons
      obtain rfl := List.eq_nil_of_length_eq_zero (l := q) (by omega)
      exact ⟨hcut, Prod.ext htail hrest⟩
    · rintro ⟨hclear, h⟩
      obtain ⟨rfl, rfl⟩ := Prod.mk.inj (Option.some.inj (hcut.symm.trans hclear))
      rw [List.nil_append, h]

end

end Separated
end Schemes
