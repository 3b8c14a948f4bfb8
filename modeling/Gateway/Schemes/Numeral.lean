import Mathlib.Data.Nat.Digits.Lemmas

/-! @scheme numeral | name:Positional numerals | family:formats

    Numerals as lists of digits, the most significant first. Writing a number in a base and reading it
    in the same base gives it back. Reading it in a smaller base gives it back only for the numbers
    that are a single digit of both: any longer numeral is worth strictly less there, or has a digit
    that the smaller base does not know. -/

namespace Schemes.Numeral

/-- The digits of `n` in base `b`; zero has one. -/
def digits (b n : ℕ) : List ℕ := if n = 0 then [0] else (Nat.digits b n).reverse

/-- Reading in base `b`: there is a digit, and every digit is one of the base. -/
def read (b : ℕ) (ds : List ℕ) : Option ℕ :=
  if ds ≠ [] ∧ ∀ d ∈ ds, d < b then some (Nat.ofDigits b ds.reverse) else none

variable {b c n : ℕ}

theorem digits_ne_nil (b n : ℕ) : digits b n ≠ [] := by
  unfold digits
  split_ifs with h
  · simp
  · exact List.reverse_ne_nil_iff.mpr (Nat.digits_ne_nil_iff_ne_zero.mpr h)

theorem digit_lt (hb : 1 < b) {d : ℕ} (hd : d ∈ digits b n) : d < b := by
  unfold digits at hd
  split_ifs at hd
  · rw [List.mem_singleton] at hd; omega
  · exact Nat.digits_lt_base hb (List.mem_reverse.mp hd)

theorem digits_of_lt (h : n < b) : digits b n = [n] := by
  unfold digits
  split_ifs with h0
  · rw [h0]
  · rw [Nat.digits_of_lt b n h0 h]; rfl

/-- The value of the digits in their own base. -/
theorem ofDigits_digits (b n : ℕ) : Nat.ofDigits b (digits b n).reverse = n := by
  unfold digits
  split_ifs with h
  · simp [h]
  · rw [List.reverse_reverse, Nat.ofDigits_digits]

theorem read_digits (hb : 1 < b) (n : ℕ) : read b (digits b n) = some n := by
  rw [read, if_pos ⟨digits_ne_nil b n, fun d => digit_lt hb⟩, ofDigits_digits]

theorem length_digits_le {k : ℕ} (hb : 1 < b) (hk : 0 < k) (h : n < b ^ k) :
    (digits b n).length ≤ k := by
  unfold digits
  split_ifs
  · exact hk
  · rw [List.length_reverse]; exact (Nat.digits_length_le_iff hb n).mpr h

/-- A numeral of more than one digit is worth less in a smaller base. -/
theorem ofDigits_lt (hb : 1 < b) (hcb : c < b) (hn : b ≤ n) :
    Nat.ofDigits c (Nat.digits b n) < n := by
  conv_rhs => rw [← Nat.ofDigits_digits b n]
  rw [Nat.digits_def' hb (by omega), Nat.ofDigits_cons, Nat.ofDigits_cons]
  have hle := Nat.ofDigits_monotone (Nat.digits b (n / b)) hcb.le
  have hpos : 0 < Nat.ofDigits b (Nat.digits b (n / b)) := by
    rw [Nat.ofDigits_digits]; exact Nat.div_pos hn (by omega)
  have hmul := Nat.mul_lt_mul_of_lt_of_le hcb hle hpos
  simpa using hmul

/-- What is written in base `b` and read in a smaller base `c` comes back exactly if it is a digit of
    base `c`. -/
theorem read_digits_iff (hb : 1 < b) (hcb : c < b) : read c (digits b n) = some n ↔ n < c := by
  constructor
  · intro h
    unfold read at h
    split_ifs at h with hok
    rw [Option.some.injEq] at h
    by_contra hge
    rcases lt_or_ge n b with hlt | hle
    · exact hge (hok.2 n (by rw [digits_of_lt hlt]; exact List.mem_singleton_self n))
    · have hn : n ≠ 0 := by omega
      rw [digits, if_neg hn, List.reverse_reverse] at h
      exact absurd h (ofDigits_lt hb hcb hle).ne
  · intro h
    rw [digits_of_lt (h.trans hcb), read, if_pos (by simpa using h)]
    simp

end Schemes.Numeral
