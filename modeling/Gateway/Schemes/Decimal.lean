import Mathlib.Data.Nat.Digits.Lemmas
import Mathlib.Data.Rat.Lemmas
import Mathlib.Tactic.FieldSimp
import Mathlib.Tactic.Linarith
import Mathlib.Tactic.Positivity
import Mathlib.Tactic.Ring

/-! @scheme decimal | name:Decimal numerals cut to a width | family:formats

    A decimal numeral is a sign, digits, and digits behind the point. Cutting its text to a number of
    characters cuts digits off, and perhaps leaves a point at the end. The numeral that is left is
    worth as much as the whole one exactly if the digits in front of the point are all kept, or are all
    zero, and no other digit than zero is lost behind the point; otherwise it is worth less, at least
    by the place of the first digit that is lost. -/

namespace Schemes

/-- Perhaps a minus sign, digits, and perhaps a point with more of them. -/
structure Decimal where
  minus : Bool
  digits : List (Fin 10)
  fraction : List (Fin 10)

namespace Decimal

def digitChar (d : Fin 10) : Char := Char.ofNat (48 + d)

def sign (minus : Bool) : List Char := if minus then ['-'] else []

/-- The characters, with or without the point. -/
def chars (point : Bool) (t : Decimal) : List Char :=
  sign t.minus ++ t.digits.map digitChar ++ if point then '.' :: t.fraction.map digitChar else []

/-- The numeral as it is written: there is a point if digits follow it. -/
def text (t : Decimal) : List Char := t.chars (!t.fraction.isEmpty)

def number (ds : List (Fin 10)) : ℕ := Nat.ofDigits 10 (ds.reverse.map Fin.val)

/-- The digits behind the point. -/
def part (ds : List (Fin 10)) : ℚ := number ds / 10 ^ ds.length

/-- The value without the sign. -/
def magnitude (t : Decimal) : ℚ := number t.digits + part t.fraction

/-- What the first `k` characters behind the sign hold. -/
def cut (k : ℕ) (t : Decimal) : Decimal :=
  ⟨t.minus, t.digits.take k, t.fraction.take (k - t.digits.length - 1)⟩

variable {k p : ℕ} {t : Decimal} {ds as bs : List (Fin 10)}

/-! ### Values -/

theorem number_append (as bs : List (Fin 10)) :
    number (as ++ bs) = number as * 10 ^ bs.length + number bs := by
  rw [number, List.reverse_append, List.map_append, Nat.ofDigits_append, ← number, ← number,
    List.length_map, List.length_reverse, mul_comm, add_comm]

theorem number_lt (ds : List (Fin 10)) : number ds < 10 ^ ds.length := by
  have hlt := Nat.ofDigits_lt_base_pow_length (b := 10) (l := ds.reverse.map Fin.val) (by decide)
    (by simp)
  rwa [List.length_map, List.length_reverse] at hlt

theorem number_eq_zero_iff : number ds = 0 ↔ ∀ d ∈ ds, d = 0 := by
  constructor
  · intro h d hd
    exact Fin.ext (Nat.digits_zero_of_eq_zero (by decide) h d
      (List.mem_map_of_mem (List.mem_reverse.mpr hd)))
  · intro h
    have hzero : ds = List.replicate ds.length 0 := List.eq_replicate_of_mem h
    rw [hzero, number, List.reverse_replicate, List.map_replicate]
    exact Nat.ofDigits_replicate_zero

theorem part_nonneg (ds : List (Fin 10)) : 0 ≤ part ds := by
  rw [part]
  positivity

theorem part_append (as bs : List (Fin 10)) : part (as ++ bs) = part as + part bs / 10 ^ as.length := by
  have hpow (n : ℕ) : (10 : ℚ) ^ n ≠ 0 := by positivity
  rw [part, part, part, number_append, List.length_append, pow_add]
  push_cast
  field_simp [hpow]

theorem part_eq_zero (h : ∀ d ∈ ds, d = 0) : part ds = 0 := by
  rw [part, number_eq_zero_iff.mpr h, Nat.cast_zero, zero_div]

/-- A digit that is not zero is worth at least its place. -/
theorem le_part (hlen : ds.length ≤ p) (h : ¬ ∀ d ∈ ds, d = 0) : 1 / 10 ^ p ≤ part ds := by
  have hnumber : 1 ≤ number ds := Nat.one_le_iff_ne_zero.mpr (mt number_eq_zero_iff.mp h)
  have hcast : (1 : ℚ) ≤ number ds := by exact_mod_cast hnumber
  calc (1 : ℚ) / 10 ^ p ≤ 1 / 10 ^ ds.length :=
        one_div_le_one_div_of_le (by positivity) (pow_le_pow_right₀ (by norm_num) hlen)
    _ ≤ part ds := div_le_div_of_nonneg_right hcast (by positivity)

/-- The same for a digit behind the first `j` ones. -/
theorem take_add_le_part {j : ℕ} (h : ¬ ∀ d ∈ (ds.take p).drop j, d = 0) :
    part (ds.take j) + 1 / 10 ^ p ≤ part ds := by
  set lost := (ds.take p).drop j with hlost
  have hne : lost ≠ [] := fun hnil => h (by simp [hnil])
  have hlen : 0 < lost.length := List.length_pos_iff.mpr hne
  rw [hlost, List.length_drop, List.length_take] at hlen
  have hkept : (ds.take p).take j = ds.take j := by rw [List.take_take, min_eq_left (by omega)]
  have hsplit : ds = ds.take j ++ (lost ++ ds.drop p) := by
    rw [← hkept, ← List.append_assoc, hlost, List.take_append_drop, List.take_append_drop]
  have hj : (ds.take j).length = j := by rw [List.length_take]; omega
  have hplace : lost.length ≤ p - j := by rw [hlost, List.length_drop, List.length_take]; omega
  have hpart : 1 / 10 ^ (p - j) ≤ part (lost ++ ds.drop p) := by
    rw [part_append]
    exact (le_part hplace h).trans (le_add_of_nonneg_right (div_nonneg (part_nonneg _) (by positivity)))
  have hpow : (10 : ℚ) ^ p = 10 ^ (p - j) * 10 ^ j := by rw [← pow_add]; congr 1; omega
  conv_rhs => rw [hsplit, part_append, hj]
  rw [hpow, ← div_div]
  exact add_le_add_right (div_le_div_of_nonneg_right hpart (by positivity)) _

/-! ### Cutting -/

/-- The digits in front of the point are kept, or are zero. -/
def Fits (k : ℕ) (t : Decimal) : Prop := t.digits.length ≤ k ∨ ∀ d ∈ t.digits, d = 0

theorem Fits.number_take (h : Fits k t) : number (t.digits.take k) = number t.digits := by
  rcases h with hlen | hzero
  · rw [List.take_of_length_le hlen]
  · rw [number_eq_zero_iff.mpr hzero, number_eq_zero_iff]
    exact fun d hd => hzero d (List.mem_of_mem_take hd)

theorem magnitude_cut (hfits : Fits k t)
    (hzero : ∀ d ∈ t.fraction.drop (k - t.digits.length - 1), d = 0) :
    (t.cut k).magnitude = t.magnitude := by
  rw [magnitude, magnitude, cut]
  conv_rhs => rw [← List.take_append_drop (k - t.digits.length - 1) t.fraction, part_append,
    part_eq_zero hzero, zero_div, add_zero]
  rw [hfits.number_take]

/-- The numeral up to place `p` behind the point. -/
def upTo (p : ℕ) (t : Decimal) : Decimal := { t with fraction := t.fraction.take p }

theorem cut_upTo (hk : k ≤ p + 1) : (t.upTo p).cut k = t.cut k := by
  rw [cut, cut, upTo, List.take_take, min_eq_left (by omega)]

/-- If the digits that are lost up to place `p` are zero, the numeral is worth as much as up to there. -/
theorem magnitude_cut_upTo (hk : k ≤ p + 1) (hfits : Fits k t)
    (hzero : ∀ d ∈ (t.upTo p).fraction.drop (k - t.digits.length - 1), d = 0) :
    (t.cut k).magnitude = (t.upTo p).magnitude := by
  rw [← cut_upTo hk]
  exact magnitude_cut hfits hzero

/-- Digits that are lost in front of the point. -/
theorem number_take_lt (h : ¬ Fits k t) : number (t.digits.take k) + 1 ≤ number t.digits := by
  rw [Fits, not_or, ← number_eq_zero_iff] at h
  have hsplit := number_append (t.digits.take k) (t.digits.drop k)
  rw [List.take_append_drop] at hsplit
  have hlen : 0 < (t.digits.drop k).length := by rw [List.length_drop]; omega
  have hpow : 10 ^ 1 ≤ 10 ^ (t.digits.drop k).length := Nat.pow_le_pow_right (by decide) hlen
  have hmul := Nat.mul_le_mul_left (number (t.digits.take k)) hpow
  omega

/-- What is lost is worth at least the last of the first `p` places. -/
theorem magnitude_cut_add_le
    (h : ¬ (Fits k t ∧ ∀ d ∈ (t.upTo p).fraction.drop (k - t.digits.length - 1), d = 0)) :
    (t.cut k).magnitude + 1 / 10 ^ p ≤ t.magnitude := by
  by_cases hfits : Fits k t
  · have hlost := take_add_le_part fun hzero => h ⟨hfits, hzero⟩
    rw [magnitude, magnitude, cut, hfits.number_take]
    linarith
  · have hwide : ¬ t.digits.length ≤ k := fun hlen => hfits (Or.inl hlen)
    have hnumber : ((number (t.digits.take k) + 1 : ℕ) : ℚ) ≤ number t.digits :=
      Nat.cast_le.mpr (number_take_lt hfits)
    have hplace : 1 / (10 : ℚ) ^ p ≤ 1 := by
      rw [div_le_one (by positivity)]
      exact one_le_pow₀ (by norm_num)
    have hkept : t.fraction.take (k - t.digits.length - 1) = [] := by
      rw [Nat.sub_eq_zero_of_le (by omega), List.take_zero]
    have hzero : part [] = 0 := part_eq_zero (by simp)
    have hpart := part_nonneg t.fraction
    push_cast at hnumber
    rw [magnitude, magnitude, cut, hkept, hzero]
    linarith

/-- The text of a numeral, cut `k` characters behind the sign. -/
theorem take_text (k : ℕ) (t : Decimal) :
    ∃ point, (point = true ∨ (t.cut k).fraction = []) ∧
      t.text.take ((sign t.minus).length + k) = (t.cut k).chars point := by
  have htake (rest : List Char) :
      (sign t.minus ++ t.digits.map digitChar ++ rest).take ((sign t.minus).length + k) =
        sign t.minus ++ (t.digits.take k).map digitChar ++ rest.take (k - t.digits.length) := by
    rw [List.append_assoc, List.take_length_add_append, List.take_append, List.map_take,
      List.length_map, List.append_assoc]
  rw [text, chars, htake]
  by_cases hpoint : t.fraction ≠ [] ∧ t.digits.length < k
  · obtain ⟨n, hn⟩ : ∃ n, k - t.digits.length = n + 1 := ⟨k - t.digits.length - 1, by omega⟩
    refine ⟨true, Or.inl rfl, ?_⟩
    simp [chars, cut, hn, hpoint.1, List.map_take]
  · have hfraction : (t.cut k).fraction = [] := by
      rw [cut, List.take_eq_nil_iff, or_iff_not_imp_right]
      intro hne
      have hlen : ¬ t.digits.length < k := fun hlt => hpoint ⟨hne, hlt⟩
      omega
    refine ⟨false, Or.inr hfraction, ?_⟩
    rw [chars, if_neg Bool.false_ne_true]
    congr 1
    split_ifs with hsome
    · have hne : t.fraction ≠ [] := by simpa using hsome
      have hlen : ¬ t.digits.length < k := fun hlt => hpoint ⟨hne, hlt⟩
      rw [Nat.sub_eq_zero_of_le (by omega), List.take_zero]
    · exact List.take_nil

theorem cut_nonempty (hk : 2 ≤ k) (h : t.digits ≠ [] ∨ t.fraction ≠ []) :
    (t.cut k).digits ≠ [] ∨ (t.cut k).fraction ≠ [] := by
  simp only [cut, ne_eq, List.take_eq_nil_iff, not_or]
  by_cases hdigits : t.digits = []
  · exact Or.inr ⟨by simp [hdigits]; omega, h.resolve_left (not_not_intro hdigits)⟩
  · exact Or.inl ⟨by omega, hdigits⟩

theorem length_cut (k : ℕ) (t : Decimal) : (t.cut k).digits.length + (t.cut k).fraction.length ≤ k := by
  simp only [cut, List.length_take]
  omega

/-- A numeral of at most `n` digits, counted in units of its last place or of a smaller one. -/
theorem magnitude_eq_div {n : ℕ} (hlen : t.digits.length + t.fraction.length ≤ n)
    (hp : t.fraction.length ≤ p) :
    ∃ m : ℕ, t.magnitude = m / 10 ^ p ∧ m + 10 ^ (p - t.fraction.length) ≤ 10 ^ (n + p) := by
  refine ⟨number (t.digits ++ t.fraction) * 10 ^ (p - t.fraction.length), ?_, ?_⟩
  · have hpow : (10 : ℚ) ^ p = 10 ^ t.fraction.length * 10 ^ (p - t.fraction.length) := by
      rw [← pow_add]; congr 1; omega
    rw [magnitude, part, number_append, hpow]
    push_cast
    field_simp
  · have hlt := number_lt (t.digits ++ t.fraction)
    rw [List.length_append] at hlt
    calc number (t.digits ++ t.fraction) * 10 ^ (p - t.fraction.length) + 10 ^ (p - t.fraction.length)
        = (number (t.digits ++ t.fraction) + 1) * 10 ^ (p - t.fraction.length) := by ring
      _ ≤ 10 ^ n * 10 ^ p := Nat.mul_le_mul (hlt.trans_le (Nat.pow_le_pow_right (by decide) hlen))
          (Nat.pow_le_pow_right (by decide) (Nat.sub_le _ _))
      _ = 10 ^ (n + p) := (pow_add 10 n p).symm

end Decimal
end Schemes
