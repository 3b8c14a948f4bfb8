import Gateway.Jablotron.Parser
import Mathlib.Order.Bounds.Basic

/-! @src jablotron/JablotronDeviceManager.cpp, jablotron/SerialControl.cpp | name:Packets sent several
    times | family:loops

    A packet for the dongle is sent three times, with a pause after each; a write that fails is tried
    again, up to ten times in all. `ssend` is to say whether the write was successful, and says the
    opposite, so the two limits change places: the loop ends with the third failure or the tenth
    success (`stops_at`), which is never the end that was meant (`never_stops_as_meant`). -/

namespace BeeeOn.JablotronDeviceManager

def NUMBER_OF_RETRIES : ℕ := 3
def MAX_NUMBER_FAILED_REPEATS : ℕ := 10
def DELAY_BEETWEEN_CYCLES : ℕ := 400000
def DELAY_AFTER_SET_SWITCH : ℕ := 2

/-- What happens on the line: calls of `write`, and pauses. -/
inductive Action where
  | write (packet : String)
  | usleep (microseconds : ℕ)
  | sleep (seconds : ℕ)
  deriving DecidableEq, Repr

/-- `SerialControl::ssend`, by what `write` returns. -/
def ssend (written : ℤ) : Bool := written < 0

variable (w : ℕ → ℤ) (msg : String)

/-- The loop; call number `k` of `write` returns `w k`. A turn counts either `i` or `maximum`. -/
def transmit (i maximum : ℕ) : List Action :=
  if i < NUMBER_OF_RETRIES ∧ maximum < MAX_NUMBER_FAILED_REPEATS then
    if ssend (w (i + maximum)) then
      .write msg :: .usleep DELAY_BEETWEEN_CYCLES :: transmit (i + 1) maximum
    else .write msg :: transmit i (maximum + 1)
  else []
termination_by (NUMBER_OF_RETRIES - i) + (MAX_NUMBER_FAILED_REPEATS - maximum)

def retransmissionPacket : List Action := transmit w msg 0 0 ++ [.sleep DELAY_AFTER_SET_SWITCH]

/-! ### Where it stops -/

def Action.isWrite : Action → Bool
  | .write _ => true
  | _ => false

/-- The number of calls of `write`. -/
def calls (as : List Action) : ℕ := as.countP Action.isWrite

theorem calls_write (p : String) (as : List Action) : calls (.write p :: as) = calls as + 1 :=
  List.countP_cons_of_pos rfl

theorem calls_usleep (n : ℕ) (as : List Action) : calls (.usleep n :: as) = calls as :=
  List.countP_cons_of_neg nofun

/-- Those of the first `n` calls that fail. -/
def failures (n : ℕ) : ℕ := (List.range n).countP fun k => w k < 0

/-- Those of the first `n` calls that succeed. -/
def successes (n : ℕ) : ℕ := (List.range n).countP fun k => 0 ≤ w k

/-- It stops right after the third success or the tenth failure, whichever is first. -/
def StopsAsMeant (as : List Action) : Prop :=
  IsLeast {n | NUMBER_OF_RETRIES ≤ successes w n ∨ MAX_NUMBER_FAILED_REPEATS ≤ failures w n} (calls as)

theorem failures_succ (n : ℕ) : failures w (n + 1) = failures w n + if w n < 0 then 1 else 0 := by
  simp [failures, List.range_succ, List.countP_append, List.countP_singleton]

theorem successes_succ (n : ℕ) : successes w (n + 1) = successes w n + if w n < 0 then 0 else 1 := by
  simp only [successes, List.range_succ, List.countP_append, List.countP_singleton, decide_eq_true_eq]
  split_ifs <;> omega

/-- The first number from `k` on with a property that `k` does not have. -/
theorem isLeast_from {p : ℕ → Prop} {k m : ℕ} (hk : ¬ p k) (h : IsLeast {n | k + 1 ≤ n ∧ p n} m) :
    IsLeast {n | k ≤ n ∧ p n} m := by
  refine ⟨⟨(Nat.le_succ k).trans h.1.1, h.1.2⟩, fun n hn => h.2 ⟨lt_of_le_of_ne hn.1 ?_, hn.2⟩⟩
  rintro rfl
  exact hk hn.2

/-- From turn `i + maximum` on the loop goes to the first call that fills one of its two counts. -/
theorem transmit_stops (i maximum : ℕ) (hi : failures w (i + maximum) = i)
    (hm : successes w (i + maximum) = maximum) :
    IsLeast {n | i + maximum ≤ n ∧
        (NUMBER_OF_RETRIES ≤ failures w n ∨ MAX_NUMBER_FAILED_REPEATS ≤ successes w n)}
      (i + maximum + calls (transmit w msg i maximum)) := by
  induction i, maximum using transmit.induct w with
  | case1 i maximum hlt hsend ih =>
    have hneg : w (i + maximum) < 0 := of_decide_eq_true hsend
    have hidx : i + 1 + maximum = i + maximum + 1 := by omega
    have hnext := ih (by rw [hidx, failures_succ, hi, if_pos hneg])
      (by rw [hidx, successes_succ, hm, if_pos hneg, Nat.add_zero])
    rw [transmit, if_pos hlt, if_pos hsend, calls_write, calls_usleep]
    refine isLeast_from (by rw [hi, hm]; omega) ?_
    rwa [hidx, Nat.add_assoc (i + maximum) 1, Nat.add_comm 1] at hnext
  | case2 i maximum hlt hsend ih =>
    have hneg : ¬ w (i + maximum) < 0 := fun hneg => hsend (decide_eq_true hneg)
    have hnext := ih (by rw [← Nat.add_assoc, failures_succ, hi, if_neg hneg, Nat.add_zero])
      (by rw [← Nat.add_assoc, successes_succ, hm, if_neg hneg])
    rw [transmit, if_pos hlt, if_neg hsend, calls_write]
    refine isLeast_from (by rw [hi, hm]; omega) ?_
    rwa [← Nat.add_assoc i, Nat.add_assoc (i + maximum) 1, Nat.add_comm 1] at hnext
  | case3 i maximum hge =>
    rw [transmit, if_neg hge]
    refine ⟨⟨le_rfl, ?_⟩, fun n hn => hn.1⟩
    change _ ≤ failures w (i + maximum) ∨ _ ≤ successes w (i + maximum)
    rw [hi, hm]
    omega

/-- What the code does: it stops right after the third failure or the tenth success. -/
theorem stops_at : IsLeast {n | NUMBER_OF_RETRIES ≤ failures w n ∨
    MAX_NUMBER_FAILED_REPEATS ≤ successes w n} (calls (retransmissionPacket w msg)) := by
  have hstops := transmit_stops w msg 0 0 rfl rfl
  simpa [retransmissionPacket, calls, Action.isWrite] using hstops

/-- Nothing but the packet is written. -/
theorem packets_eq {p : String} (hp : .write p ∈ retransmissionPacket w msg) : p = msg := by
  have hall : ∀ i maximum, ∀ p, .write p ∈ transmit w msg i maximum → p = msg := by
    intro i maximum
    induction i, maximum using transmit.induct w with
    | case1 i maximum hlt hsend ih =>
      rw [transmit, if_pos hlt, if_pos hsend]
      intro p hp
      rcases List.mem_cons.mp hp with hp | hp
      · exact Action.write.inj hp
      · exact ih p ((List.mem_cons.mp hp).resolve_left nofun)
    | case2 i maximum hlt hsend ih =>
      rw [transmit, if_pos hlt, if_neg hsend]
      intro p hp
      rcases List.mem_cons.mp hp with hp | hp
      · exact Action.write.inj hp
      · exact ih p hp
    | case3 i maximum hge =>
      rw [transmit, if_neg hge]
      nofun
  rcases List.mem_append.mp hp with hp | hp
  · exact hall 0 0 p hp
  · exact absurd (List.mem_singleton.mp hp) nofun

/-- Whatever the outcomes of the writes: the last one fills one count of the code, and that is never the
    one that was to end the loop. -/
theorem never_stops_as_meant : ¬ StopsAsMeant w (retransmissionPacket w msg) := by
  intro hmeant
  have hcode := stops_at w msg
  rw [StopsAsMeant] at hmeant
  generalize calls (retransmissionPacket w msg) = n at hmeant hcode
  have hin : NUMBER_OF_RETRIES ≤ failures w n ∨ MAX_NUMBER_FAILED_REPEATS ≤ successes w n := hcode.1
  have hin' : NUMBER_OF_RETRIES ≤ successes w n ∨ MAX_NUMBER_FAILED_REPEATS ≤ failures w n := hmeant.1
  cases n with
  | zero => exact absurd hin (by simp [failures, successes, NUMBER_OF_RETRIES, MAX_NUMBER_FAILED_REPEATS])
  | succ n =>
    have hout : ¬ (NUMBER_OF_RETRIES ≤ failures w n ∨ MAX_NUMBER_FAILED_REPEATS ≤ successes w n) :=
      fun h => Nat.not_succ_le_self n (hcode.2 h)
    have hout' : ¬ (NUMBER_OF_RETRIES ≤ successes w n ∨ MAX_NUMBER_FAILED_REPEATS ≤ failures w n) :=
      fun h => Nat.not_succ_le_self n (hmeant.2 h)
    rw [failures_succ, successes_succ] at hin hin'
    simp only [NUMBER_OF_RETRIES, MAX_NUMBER_FAILED_REPEATS] at hin hin' hout hout'
    split_ifs at hin hin' <;> omega

/-- On a line where every write succeeds the packet is written ten times, without a pause. -/
theorem ten_packets : ¬ ∀ (w : ℕ → ℤ) (msg : String),
    StopsAsMeant w (retransmissionPacket w msg) := by
  intro h
  have hten : retransmissionPacket (fun _ => 1) "" = List.replicate 10 (.write "") ++ [.sleep 2] := by
    simp [retransmissionPacket, transmit, ssend, NUMBER_OF_RETRIES, MAX_NUMBER_FAILED_REPEATS,
      DELAY_AFTER_SET_SWITCH, List.replicate]
  have hthird : NUMBER_OF_RETRIES ≤ successes (fun _ => 1) 3 := by decide
  have hle := (h (fun _ => 1) "").2 (Or.inl hthird)
  rw [hten] at hle
  exact absurd hle (by decide)

end BeeeOn.JablotronDeviceManager
