import Mathlib.Data.Prod.Lex
import Mathlib.Order.Lattice

/-! @src util/Incomplete.h, util/IncompleteTimestamp.h | name:Incomplete timestamps | family:algebra

    A timestamp up to the beginning of 2015 is incomplete: it counts from the start of the system, and
    is completed by the time at which that was. The comparisons put every incomplete value before every
    complete one, and values of one kind as they are: they are the order of the pairs of completeness
    and value (`comparisons_agree`). Completing twice is completing once unless the clock has not been
    set and the sum is incomplete again (`completed_twice_iff`). -/

namespace BeeeOn

/-- The template argument `CompleteTest` of a type. -/
class CompleteTest (T : Type) where
  test : T → Bool

structure Incomplete (T : Type) where
  value : T
  deriving DecidableEq, Repr

namespace Incomplete
variable {T : Type} [CompleteTest T]

def isComplete (x : Incomplete T) : Bool := CompleteTest.test x.value

def deriveComplete (x : Incomplete T) (complete : T → T) : T :=
  if x.isComplete then x.value else complete x.value

def assign (_ : Incomplete T) (value : T) : Incomplete T := ⟨value⟩

def completeSelf (x : Incomplete T) (complete : T → T) : Incomplete T :=
  x.assign (x.deriveComplete complete)

section
variable [LinearOrder T]

/-- `operator ==(const Incomplete &)`. -/
def eq (x other : Incomplete T) : Bool :=
  if x.isComplete ≠ other.isComplete then false else other.value = x.value

/-- `operator ==(const T &)`. -/
def eqValue (x : Incomplete T) (other : T) : Bool :=
  if !x.isComplete then false else x.value = other

/-- `operator !=(const Incomplete &)`. -/
def ne (x other : Incomplete T) : Bool :=
  if x.isComplete ≠ other.isComplete then true else other.value ≠ x.value

/-- `operator !=(const T &)`. -/
def neValue (x : Incomplete T) (other : T) : Bool :=
  if !x.isComplete then true else x.value ≠ other

/-- `operator <(const Incomplete &)`. -/
def lt (x other : Incomplete T) : Bool :=
  if x.isComplete = other.isComplete then x.value < other.value
  else if !x.isComplete && other.isComplete then true
  else false

/-- `operator <(const T &)`. -/
def ltValue (x : Incomplete T) (other : T) : Bool :=
  if x.isComplete then x.value < other else true

/-- `operator >(const Incomplete &)`. -/
def gt (x other : Incomplete T) : Bool := !(x.eq other) && !(x.lt other)

end

/-! ### The order -/

/-- Where a value stands: what is incomplete before what is complete, and each by the value. -/
def rank (x : Incomplete T) : Bool ×ₗ T := toLex (x.isComplete, x.value)

section
variable {x y : Incomplete T} {t : T}

theorem rank_inj : x.rank = y.rank ↔ x.isComplete = y.isComplete ∧ x.value = y.value := by
  rw [rank, rank, toLex_inj, Prod.mk.injEq]

variable [LinearOrder T]

theorem rank_lt_iff : x.rank < y.rank ↔
    x.isComplete < y.isComplete ∨ x.isComplete = y.isComplete ∧ x.value < y.value :=
  Prod.Lex.toLex_lt_toLex

theorem lt_iff : x.lt y = true ↔ x.rank < y.rank := by
  rw [rank_lt_iff, lt]
  cases x.isComplete <;> cases y.isComplete <;> simp

theorem eq_iff : x.eq y = true ↔ x.rank = y.rank := by
  rw [rank_inj, eq]
  cases x.isComplete <;> cases y.isComplete <;> simp [eq_comm]

theorem gt_iff : x.gt y = true ↔ y.rank < x.rank := by
  have hgt : x.gt y = true ↔ ¬ x.rank = y.rank ∧ ¬ x.rank < y.rank := by
    rw [← eq_iff, ← lt_iff, gt]
    simp
  rw [hgt]
  constructor
  · rintro ⟨hne, hnlt⟩
    exact lt_of_le_of_ne (not_lt.mp hnlt) (Ne.symm hne)
  · intro h
    exact ⟨h.ne', h.asymm⟩

theorem ne_eq_not : x.ne y = !(x.eq y) := by
  unfold ne eq
  split_ifs <;> simp

/-- A complete value compares as what holds it. -/
theorem eqValue_eq (ht : CompleteTest.test t = true) : x.eqValue t = x.eq ⟨t⟩ := by
  have hcomplete : isComplete ⟨t⟩ = true := ht
  rw [eqValue, eq, hcomplete]
  cases x.isComplete <;> simp [eq_comm]

theorem neValue_eq (ht : CompleteTest.test t = true) : x.neValue t = x.ne ⟨t⟩ := by
  have hnot : x.neValue t = !(x.eqValue t) := by
    unfold neValue eqValue
    split_ifs <;> simp
  rw [hnot, ne_eq_not, eqValue_eq ht]

theorem ltValue_eq (ht : CompleteTest.test t = true) : x.ltValue t = x.lt ⟨t⟩ := by
  have hcomplete : isComplete ⟨t⟩ = true := ht
  rw [ltValue, lt, hcomplete]
  cases x.isComplete <;> simp

theorem lt_of_incomplete (hx : x.isComplete = false) (hy : y.isComplete = true) : x.lt y = true := by
  rw [lt_iff, rank_lt_iff, hx, hy]
  exact Or.inl (by decide)

end

/-! ### Completing -/

section
variable {x : Incomplete T} {complete : T → T}

theorem completeSelf_of_complete (hx : x.isComplete = true) : x.completeSelf complete = x := by
  rw [completeSelf, deriveComplete, if_pos hx]
  rfl

theorem completeSelf_of_incomplete (hx : x.isComplete = false) :
    x.completeSelf complete = ⟨complete x.value⟩ := by
  rw [completeSelf, deriveComplete, hx]
  rfl

/-- Completing again changes nothing if the value was complete, is complete now, or is where another
    completion leaves it. -/
theorem completeSelf_twice_iff :
    (x.completeSelf complete).completeSelf complete = x.completeSelf complete ↔
      x.isComplete = true ∨ CompleteTest.test (complete x.value) = true ∨
        complete (complete x.value) = complete x.value := by
  cases hx : x.isComplete with
  | true =>
    rw [completeSelf_of_complete hx, completeSelf_of_complete hx]
    simp
  | false =>
    rw [completeSelf_of_incomplete hx]
    cases hy : CompleteTest.test (complete x.value) with
    | true => simp [completeSelf_of_complete (x := ⟨complete x.value⟩) hy]
    | false => simp [completeSelf_of_incomplete (x := ⟨complete x.value⟩) hy]

end
end Incomplete

/-! ### Timestamps -/

/-- `Poco::Timestamp`: microseconds since the beginning of 1970. -/
structure Timestamp where
  epochMicroseconds : Int64
  deriving DecidableEq, Repr

namespace Timestamp

theorem toInt_injective : Function.Injective fun t : Timestamp => t.epochMicroseconds.toInt := by
  rintro ⟨a⟩ ⟨b⟩ h
  exact congrArg mk (Int64.toInt_inj.mp h)

instance : LinearOrder Timestamp :=
  LinearOrder.lift' (fun t => t.epochMicroseconds.toInt) toInt_injective

theorem lt_iff {s t : Timestamp} : s < t ↔ s.epochMicroseconds.toInt < t.epochMicroseconds.toInt :=
  Iff.rfl

def fromEpochTime (seconds : Int64) : Timestamp := ⟨seconds * 1000000⟩

end Timestamp

/-- `Poco::Timespan`. -/
structure Timespan where
  totalMicroseconds : Int64
  deriving DecidableEq, Repr

namespace TimestampCompleteTest

def TOO_OLD : Int64 := 1420070400

def tooOld : Timestamp := .fromEpochTime TOO_OLD

instance : CompleteTest Timestamp where
  test t := tooOld < t

end TimestampCompleteTest

structure TimestampComplete where
  uptime : Timespan
  now : Timestamp

/-- `operator ()`. -/
def TimestampComplete.apply (c : TimestampComplete) (t : Timestamp) : Timestamp :=
  ⟨c.now.epochMicroseconds - c.uptime.totalMicroseconds + t.epochMicroseconds⟩

abbrev IncompleteTimestamp := Incomplete Timestamp

namespace IncompleteTimestamp
open TimestampCompleteTest

/-- One hour after the start of a system that has been running for two. -/
example (now : Int64) : (⟨⟨3600000000⟩⟩ : IncompleteTimestamp).deriveComplete
    (TimestampComplete.apply ⟨⟨7200000000⟩, ⟨now⟩⟩) = ⟨now - 7200000000 + 3600000000⟩ := rfl

/-- What the comparisons say of three timestamps and a complete value. -/
structure Ordered (a b c : IncompleteTimestamp) (t : Timestamp) : Prop where
  one : (a.lt b = true ∧ a.eq b = false ∧ a.gt b = false) ∨
    (a.lt b = false ∧ a.eq b = true ∧ a.gt b = false) ∨
      (a.lt b = false ∧ a.eq b = false ∧ a.gt b = true)
  trans : a.lt b = true → b.lt c = true → a.lt c = true
  ne : a.ne b = !(a.eq b)
  incomplete : a.isComplete = false → b.isComplete = true → a.lt b = true
  value : tooOld < t → a.ltValue t = a.lt ⟨t⟩ ∧ a.eqValue t = a.eq ⟨t⟩ ∧ a.neValue t = a.ne ⟨t⟩

theorem comparisons_agree (a b c : IncompleteTimestamp) (t : Timestamp) : Ordered a b c t where
  one := by
    simp only [← Bool.not_eq_true, Incomplete.lt_iff, Incomplete.eq_iff, Incomplete.gt_iff]
    rcases lt_trichotomy a.rank b.rank with h | h | h
    · exact Or.inl ⟨h, h.ne, h.asymm⟩
    · exact Or.inr (Or.inl ⟨h.not_lt, h, h.not_gt⟩)
    · exact Or.inr (Or.inr ⟨h.asymm, h.ne', h⟩)
  trans := by
    simp only [Incomplete.lt_iff]
    exact lt_trans
  ne := Incomplete.ne_eq_not
  incomplete := Incomplete.lt_of_incomplete
  value ht := by
    have htest : CompleteTest.test t = true := decide_eq_true ht
    exact ⟨Incomplete.ltValue_eq htest, Incomplete.eqValue_eq htest, Incomplete.neValue_eq htest⟩

/-- Two incomplete timestamps, one complete, and a complete value. -/
theorem incomplete_before_complete : Ordered ⟨⟨1⟩⟩ ⟨⟨2⟩⟩ ⟨⟨1500000000000000⟩⟩ ⟨1500000000000000⟩ ∧
    (⟨⟨1⟩⟩ : IncompleteTimestamp).lt ⟨⟨1500000000000000⟩⟩ = true := by
  have hordered := comparisons_agree ⟨⟨1⟩⟩ ⟨⟨2⟩⟩ ⟨⟨1500000000000000⟩⟩ ⟨1500000000000000⟩
  exact ⟨hordered, hordered.trans (by decide) (by decide)⟩

theorem apply_apply_iff (c : TimestampComplete) (t : Timestamp) :
    c.apply (c.apply t) = c.apply t ↔ c.now.epochMicroseconds = c.uptime.totalMicroseconds := by
  simp only [TimestampComplete.apply, Timestamp.mk.injEq]
  grind

/-- For every timestamp, uptime and time: completing is idempotent exactly if the timestamp is complete,
    or is completed past the threshold, or the clock shows the uptime. -/
theorem completed_twice_iff (c : TimestampComplete) (x : IncompleteTimestamp) :
    ((x.completeSelf c.apply).completeSelf c.apply = x.completeSelf c.apply ∧
      (x.isComplete = true → x.completeSelf c.apply = x)) ↔
    tooOld < x.value ∨
      tooOld < ⟨c.now.epochMicroseconds - c.uptime.totalMicroseconds + x.value.epochMicroseconds⟩ ∨
        c.now.epochMicroseconds = c.uptime.totalMicroseconds := by
  have htest : ∀ t : Timestamp, CompleteTest.test t = true ↔ tooOld < t := fun t => decide_eq_true_iff
  rw [and_iff_left Incomplete.completeSelf_of_complete, Incomplete.completeSelf_twice_iff,
    apply_apply_iff, Incomplete.isComplete, htest, htest]
  rfl

/-- The clock has not been set: it shows one minute after five seconds, and the second completion adds
    the difference again. -/
theorem unset_clock_adds_again : ¬ ∀ (c : TimestampComplete) (x : IncompleteTimestamp),
    (x.completeSelf c.apply).completeSelf c.apply = x.completeSelf c.apply := by
  intro h
  exact absurd (h ⟨⟨5000000⟩, ⟨60000000⟩⟩ ⟨⟨1000000⟩⟩) (by decide)

end IncompleteTimestamp
end BeeeOn
