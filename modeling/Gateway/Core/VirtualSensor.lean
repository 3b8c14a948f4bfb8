import Gateway.Schemes.Lts
import Gateway.Util.CSV

/-! @src core/VirtualSensor.cpp, core/VirtualSensor.h | name:A sensor that makes up its values |
    family:concurrency

    `run` measures, exports and waits for the refresh time, one round after the other, until there are no
    more values or it is told to stop. `stop` comes from another thread: it sets the flag, and then
    signals the condition that the sensor waits on. The flag is not read under the lock of the condition,
    so the signal may come when nobody waits and is then lost.

    All the same a sensor that is told to stop ends: from then on it does what is left of its round and
    no more, in which it exports at most once and waits for at most one refresh time (`stop_ends`). How
    long that is, is computed in 32 bits: it is the time that was set exactly up to 4294967 seconds, and
    no time at all for the multiples of `2 ^ 29` (`refreshMillis_iff`). -/

namespace BeeeOn
open Schemes
namespace VirtualSensor
variable {V : Type}

/-- Where the sensor is in the loop of `run`. -/
inductive Phase where
  /-- about to read the flag -/
  | check
  /-- the flag was not set -/
  | measure
  /-- in `exportData` -/
  | exporting
  /-- about to wait -/
  | exported
  /-- in `tryWait` -/
  | waiting
  /-- in `tryWait`, and signalled -/
  | signalled
  | ended
  deriving DecidableEq, Repr

structure State where
  phase : Phase
  m_stopRequested : Bool
  /-- how many values the generator has given -/
  generated : ℕ
  deriving DecidableEq, Repr

def init : State := ⟨.check, false, 0⟩

/-- What the sensor does, and the two parts of `stop`. -/
inductive Label where
  | check
  | measure
  /-- `exportData` returns -/
  | returned
  | wait
  | timeout
  | wake
  | requestStop
  | signal
  deriving DecidableEq, Repr

/-- The values of the generator; none if `hasNext` says so. -/
def system (values : ℕ → Option V) : Lts State Label where
  step s
    | .check =>
      if s.phase = .check then some { s with phase := if s.m_stopRequested then .ended else .measure }
      else none
    | .measure =>
      if s.phase = .measure then
        match values s.generated with
        | some _ => some { s with phase := .exporting, generated := s.generated + 1 }
        | none => some { s with phase := .ended }
      else none
    | .returned => if s.phase = .exporting then some { s with phase := .exported } else none
    | .wait => if s.phase = .exported then some { s with phase := .waiting } else none
    | .timeout => if s.phase = .waiting then some { s with phase := .check } else none
    | .wake => if s.phase = .signalled then some { s with phase := .ended } else none
    | .requestStop => some { s with m_stopRequested := true }
    | .signal =>
      if s.m_stopRequested then
        some { s with phase := if s.phase = .waiting then .signalled else s.phase }
      else none

/-- The record that is exported of a value. -/
def record (m_deviceId : DeviceID) (value : V) (now : ℤ) : Record V :=
  ⟨⟨m_deviceId, [⟨⟨0⟩, value, true⟩]⟩, now⟩

/-! ### Stopping -/

/-- How many steps the sensor has still to do when the flag is set. -/
def Phase.left : Phase → ℕ
  | measure => 5
  | exporting => 4
  | exported => 3
  | waiting => 2
  | check | signalled => 1
  | ended => 0

/-- What is left when the sensor does the step; none if it is not the sensor that does it. -/
def Label.left : Label → Option ℕ
  | measure => some 5
  | returned => some 4
  | wait => some 3
  | timeout => some 2
  | check | wake => some 1
  | requestStop | signal => none

section
variable {values : ℕ → Option V} {s s' : State} {l : Label} {ls : List Label} {n : ℕ}

/-- When the flag is set, every step of the sensor takes it nearer to the end, and others keep it there. -/
theorem step_left (hstop : s.m_stopRequested = true) (h : (system values).step s l = some s') :
    s'.m_stopRequested = true ∧ match l.left with
      | some n => s.phase.left = n ∧ s'.phase.left < n
      | none => s'.phase.left ≤ s.phase.left := by
  obtain ⟨phase, stop, generated⟩ := s
  obtain rfl : stop = true := hstop
  cases l with
  | measure =>
    simp only [system] at h
    split_ifs at h with hphase
    obtain rfl : phase = .measure := hphase
    cases hv : values generated <;> rw [hv] at h <;> cases h <;> simp [Phase.left, Label.left]
  | check | returned | wait | timeout | wake =>
    simp only [system] at h
    split_ifs at h with hphase
    obtain rfl := hphase
    cases h
    simp [Phase.left, Label.left]
  | requestStop =>
    cases h
    simp [Label.left]
  | signal =>
    cases h
    cases phase <;> simp [Phase.left, Label.left]

/-- Once the flag is set, each step of the loop is done at most once more, and not at all once it is
    passed. -/
theorem run_left (hstop : s.m_stopRequested = true) (h : (system values).run s ls = some s') :
    s'.phase.left ≤ s.phase.left ∧
      ∀ l n, l.left = some n → ls.count l ≤ if n ≤ s.phase.left then 1 else 0 := by
  induction ls generalizing s with
  | nil =>
    cases h
    exact ⟨le_rfl, fun l n _ => by simp⟩
  | cons k ls ih =>
    obtain ⟨t, ht, hrest⟩ := ((system values).run_cons_iff).mp h
    obtain ⟨hstop', hleft⟩ := step_left hstop ht
    obtain ⟨hle, hcount⟩ := ih hstop' hrest
    have hdown : t.phase.left ≤ s.phase.left := by
      split at hleft <;> omega
    refine ⟨hle.trans hdown, fun l n hl => ?_⟩
    have hl' := hcount l n hl
    by_cases hk : k = l
    · subst hk
      rw [hl] at hleft
      rw [List.count_cons_self, if_pos (by omega)]
      rw [if_neg (by omega)] at hl'
      omega
    · rw [List.count_cons_of_ne hk]
      split_ifs at hl' ⊢ <;> omega

/-- A sensor that has not ended can do its next step. -/
theorem step_exists (values : ℕ → Option V) (hphase : s.phase ≠ .ended) :
    ∃ l s', l.left ≠ none ∧ (system values).step s l = some s' := by
  obtain ⟨phase, stop, generated⟩ := s
  cases phase with
  | check => exact ⟨.check, _, by simp [Label.left], rfl⟩
  | measure =>
    cases hv : values generated with
    | none => exact ⟨.measure, _, by simp [Label.left], by simp only [system, hv]; rfl⟩
    | some v => exact ⟨.measure, _, by simp [Label.left], by simp only [system, hv]; rfl⟩
  | exporting => exact ⟨.returned, _, by simp [Label.left], rfl⟩
  | exported => exact ⟨.wait, _, by simp [Label.left], rfl⟩
  | waiting => exact ⟨.timeout, _, by simp [Label.left], rfl⟩
  | signalled => exact ⟨.wake, _, by simp [Label.left], rfl⟩
  | ended => exact absurd rfl hphase

/-- For every order of the steps of the sensor and of others: a sensor that is told to stop does each step
    of its loop at most once more, in particular exports at most once and only if it has already read the
    flag, and waits for at most one refresh time; and it stops doing steps only when it has ended. -/
theorem stop_ends (hstop : s.m_stopRequested = true) (h : (system values).run s ls = some s') :
    (∀ l, l.left ≠ none → ls.count l ≤ 1) ∧
    (s.phase ≠ .measure → ls.count .measure = 0) ∧
    (s'.phase ≠ .ended → ∃ l s'', l.left ≠ none ∧ (system values).step s' l = some s'') := by
  obtain ⟨-, hcount⟩ := run_left hstop h
  refine ⟨fun l hl => ?_, fun hphase => ?_, step_exists values⟩
  · obtain ⟨n, hn⟩ := Option.ne_none_iff_exists'.mp hl
    have hle := hcount l n hn
    split_ifs at hle <;> omega
  · have hle := hcount .measure 5 rfl
    have hlt : s.phase.left < 5 := by
      cases hp : s.phase <;> simp [Phase.left]
      exact absurd hp hphase
    rw [if_neg (by omega)] at hle
    omega

/-- One that is told to stop after it has read the flag; the signal comes too early. -/
def sampleStopped : List Label := [.signal, .measure, .returned, .wait, .timeout, .check]

theorem sample_stop_ends : sampleStopped.count .measure ≤ 1 ∧ sampleStopped.count .wait ≤ 1 :=
  have hrun : (system fun k => some k).run ⟨.measure, true, 0⟩ sampleStopped =
    some ⟨.ended, true, 1⟩ := rfl
  ⟨(stop_ends rfl hrun).1 .measure (by decide), (stop_ends rfl hrun).1 .wait (by decide)⟩

end

/-! ### The refresh time -/

/-- `setRefresh`; none if it throws. -/
def setRefresh (secs : BitVec 32) : Option (BitVec 32) := if secs.toInt ≤ 0 then none else some secs

/-- `refreshMillis` -/
def refreshMillis (m_refresh : BitVec 32) : ℕ := (m_refresh * 1000).toNat

/-- For every time that can be set: the sensor waits for that time exactly up to 4294967 seconds, and
    not at all exactly for the multiples of `2 ^ 29`. -/
theorem refreshMillis_iff {secs m_refresh : BitVec 32} (h : setRefresh secs = some m_refresh) :
    (refreshMillis m_refresh = secs.toNat * 1000 ↔ secs.toNat ≤ 4294967) ∧
      (refreshMillis m_refresh = 0 ↔ 2 ^ 29 ∣ secs.toNat) := by
  unfold setRefresh at h
  split_ifs at h with hpos
  obtain rfl := Option.some.inj h
  have hmul : refreshMillis secs = secs.toNat * 1000 % 2 ^ 32 := by
    rw [refreshMillis, BitVec.toNat_mul]
    rfl
  rw [hmul]
  omega

/-- The default refresh time. -/
example : refreshMillis 5 = 5000 := rfl

end VirtualSensor
end BeeeOn
