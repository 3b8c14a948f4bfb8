import Gateway.Schemes.Lts
import Gateway.Schemes.Since
import Gateway.Jablotron.Parser
import Gateway.Zmq.Message

/-! @src jablotron/JablotronDeviceManager.cpp | name:Events of Jablotron sensors | family:state

    `sendMeasuredValues` sends what a line says, if its device is paired or the manager listens. Some
    devices report that an event begins and never that it ends, so a second message is to end it. The
    pending event lives in the manager between the parser, which sets it for every line, and the
    sender, which clears it only after a line that is sent: the event of a dropped line stays, and
    counts for the next line that is not dropped. The value that ends it is inserted into the data
    that has just been sent, so the second message never has it. -/

namespace BeeeOn.JablotronDeviceManager
open Schemes
variable {V : Type}

/-- A line, and what the manager looks up for it: the paired devices and whether it listens. -/
structure Line where
  message : String
  paired : DeviceID → Bool
  listen : Bool

def Line.token (l : Line) : List String := StringTokenizer l.message ' '

/-- The members that `sendMeasuredValues` uses, with the messages sent so far. -/
structure State (V : Type) where
  pending : Pending V
  sent : List ZMQMessage

variable (B : Base V) (P : Platform V)

def sendMeasuredValues (l : Line) (s : State V) : State V :=
  match (parseMessageFromDevice B P l.message l.token).run.run s.pending with
  | (.error _, pending) => { s with pending := pending }
  | (.ok sensorData, pending) =>
    if !l.paired sensorData.deviceID && !l.listen then { s with pending := pending }
    else if pending.sensorEvent then
      -- `sensorDataEvent` is sent as it was made: the value goes into `sensorData`
      { pending := { pending with sensorEvent := false }
        sent := s.sent ++ [ZMQMessage.fromSensorData B sensorData,
          ZMQMessage.fromSensorData B ⟨sensorData.deviceID, []⟩] }
    else { pending := pending, sent := s.sent ++ [ZMQMessage.fromSensorData B sensorData] }

/-- The lines of the dongle, one after the other. -/
def serialLines : Lts (State V) Line where
  step s l := some (sendMeasuredValues B P l s)

/-- The constructor: no event, and a value that has never been set. -/
def State.init (v : SensorValue V) : State V := ⟨⟨false, v⟩, []⟩

/-! ### What is expected of a line -/

/-- What a line says, whatever the members are. -/
def parsed (l : Line) : Except Exn (SensorData V) :=
  ((parseMessageFromDevice B P l.message l.token).run.run ⟨false, sensorValue P ⟨0⟩ 0⟩).1

def offOf (l : Line) : Option (SensorValue V) := eventOff B P l.token

/-- A line that parses and begins an event. -/
def IsEvent (l : Line) : Prop := (∃ data, parsed B P l = .ok data) ∧ (offOf B P l).isSome

/-- A line that parses, of a device that is paired or while the manager listens. -/
def Accepted (l : Line) : Prop :=
  ∃ data, parsed B P l = .ok data ∧ (l.paired data.deviceID || l.listen) = true

/-- One message for an accepted line, and one more with the value that ends the event it begins. -/
def expected (l : Line) : List ZMQMessage :=
  match parsed B P l with
  | .error _ => []
  | .ok data =>
    if l.paired data.deviceID || l.listen then
      ZMQMessage.fromSensorData B data ::
        (offOf B P l).toList.map fun off => ZMQMessage.fromSensorData B ⟨data.deviceID, [off]⟩
    else []

/-- After every line of a run, what was sent is what is expected of the lines so far. -/
def SentAsExpected (v : SensorValue V) (ls : List Line) : Prop :=
  ∀ as bs t, ls = as ++ bs → (serialLines B P).run (State.init v) as = some t →
    t.sent = as.flatMap (expected B P)

/-- No accepted line is an event or comes after one. -/
def NoEvent : List Line → Prop :=
  Throughout fun before l => Accepted B P l → ∀ k ∈ before ++ [l], ¬ IsEvent B P k

variable {B P} {l : Line} {s : State V}

/-! ### One line -/

theorem parse_eq (l : Line) (p : Pending V) : (parseMessageFromDevice B P l.message l.token).run.run p =
    (parsed B P l, stored (parsed B P l) (offOf B P l) p) := by
  obtain ⟨r, hr⟩ := parse_sets (B := B) (P := P) l.message l.token
  have hparsed : parsed B P l = r := by rw [parsed, hr]
  rw [hr, hparsed, offOf]

/-- The pending event after a line: one that the line begins, or the one before, unless it is sent. -/
def pendingAfter (B : Base V) (P : Platform V) (l : Line) (p : Pending V) : Pending V :=
  stored (parsed B P l) (offOf B P l) p

theorem accepted_iff {data : SensorData V} (h : parsed B P l = .ok data) :
    Accepted B P l ↔ (l.paired data.deviceID || l.listen) = true := by
  simp [Accepted, h]

/-- A line that is dropped or does not parse sends nothing; its event is pending all the same. -/
theorem send_dropped (hl : ¬ Accepted B P l) :
    sendMeasuredValues B P l s = ⟨pendingAfter B P l s.pending, s.sent⟩ := by
  rw [sendMeasuredValues, parse_eq, pendingAfter]
  cases h : parsed B P l with
  | error e => rfl
  | ok data =>
    rw [accepted_iff h, Bool.or_eq_true, not_or, Bool.not_eq_true, Bool.not_eq_true] at hl
    dsimp only
    rw [hl.1, hl.2]
    rfl

/-- An accepted line sends what it says, and an empty message after it if an event is pending. -/
theorem send_accepted {data : SensorData V} (h : parsed B P l = .ok data) (hl : Accepted B P l) :
    sendMeasuredValues B P l s =
      if (pendingAfter B P l s.pending).sensorEvent then
        ⟨⟨false, (pendingAfter B P l s.pending).sensorEventValue⟩,
          s.sent ++ [ZMQMessage.fromSensorData B data, ZMQMessage.fromSensorData B ⟨data.deviceID, []⟩]⟩
      else ⟨pendingAfter B P l s.pending, s.sent ++ [ZMQMessage.fromSensorData B data]⟩ := by
  rw [accepted_iff h] at hl
  have hkeep : (!l.paired data.deviceID && !l.listen) = false := by
    rw [← Bool.not_or, hl]
    rfl
  rw [sendMeasuredValues, parse_eq, pendingAfter, h]
  dsimp only
  rw [hkeep]
  rfl

theorem expected_dropped (hl : ¬ Accepted B P l) : expected B P l = [] := by
  rw [expected]
  cases h : parsed B P l with
  | error e => rfl
  | ok data => rw [accepted_iff h] at hl; exact if_neg hl

theorem expected_accepted {data : SensorData V} (h : parsed B P l = .ok data) (hl : Accepted B P l) :
    expected B P l = ZMQMessage.fromSensorData B data ::
      (offOf B P l).toList.map fun off => ZMQMessage.fromSensorData B ⟨data.deviceID, [off]⟩ := by
  rw [expected, h]
  exact if_pos ((accepted_iff h).mp hl)

/-- No event is pending when the line is sent: neither its own nor an earlier one. -/
def Calm (B : Base V) (P : Platform V) (l : Line) (s : State V) : Prop :=
  Accepted B P l → ¬ IsEvent B P l ∧ s.pending.sensorEvent = false

theorem sensorEvent_after : (pendingAfter B P l s.pending).sensorEvent = true ↔
    s.pending.sensorEvent = true ∨ IsEvent B P l := by
  rw [pendingAfter, IsEvent]
  cases parsed B P l <;> cases offOf B P l <;> simp [stored]

theorem fromSensorData_ne (d : DeviceID) (v : SensorValue V) :
    ZMQMessage.fromSensorData B ⟨d, []⟩ ≠ ZMQMessage.fromSensorData B ⟨d, [v]⟩ := by
  intro h
  have hget := congrArg (fun m => JsonObject.get m "values") h
  simp [ZMQMessage.fromSensorData] at hget

/-- A line is answered as expected exactly if no event is pending when it is sent. -/
theorem sent_iff : (sendMeasuredValues B P l s).sent = s.sent ++ expected B P l ↔ Calm B P l s := by
  by_cases hl : Accepted B P l
  · obtain ⟨data, h, _⟩ := id hl
    have hcalm : Calm B P l s ↔ ¬ (pendingAfter B P l s.pending).sensorEvent = true := by
      rw [sensorEvent_after, not_or, Bool.not_eq_true, Calm, and_comm]
      exact ⟨fun hc => hc hl, fun hc _ => hc⟩
    rw [send_accepted h hl, expected_accepted h hl, hcalm]
    split_ifs with hev
    · simp only [hev, not_true_eq_false, iff_false, List.append_cancel_left_eq, List.cons.injEq,
        true_and]
      cases offOf B P l with
      | none => simp
      | some off => simpa using fromSensorData_ne data.deviceID off
    · have hoff : offOf B P l = none := by
        rw [sensorEvent_after, not_or, IsEvent, not_and] at hev
        simpa using hev.2 ⟨data, h⟩
      simp [hev, hoff]
  · rw [send_dropped hl, expected_dropped hl]
    simp [Calm, hl]

/-- A line that leaves nothing to clear adds its event to what is pending. -/
theorem sensorEvent_step (hcalm : Calm B P l s) :
    (sendMeasuredValues B P l s).pending.sensorEvent = true ↔
      s.pending.sensorEvent = true ∨ IsEvent B P l := by
  by_cases hl : Accepted B P l
  · obtain ⟨data, h, _⟩ := id hl
    have hno : ¬ (pendingAfter B P l s.pending).sensorEvent = true := by
      rw [sensorEvent_after, not_or, Bool.not_eq_true]
      exact (hcalm hl).symm
    rw [send_accepted h hl, if_neg hno, sensorEvent_after]
  · rw [send_dropped hl, sensorEvent_after]

/-! ### Runs -/

/-- An event is pending exactly after an event, and what was sent is what is expected. -/
structure Fine (B : Base V) (P : Platform V) (ls : List Line) (t : State V) : Prop where
  pending : t.pending.sensorEvent = true ↔ ∃ k ∈ ls, IsEvent B P k
  sent : t.sent = ls.flatMap (expected B P)

theorem Fine.calm_iff {ls : List Line} (h : Fine B P ls s) :
    Calm B P l s ↔ (Accepted B P l → ∀ k ∈ ls ++ [l], ¬ IsEvent B P k) := by
  have hflag : s.pending.sensorEvent = false ↔ ∀ k ∈ ls, ¬ IsEvent B P k := by
    rw [← Bool.not_eq_true, h.pending]
    simp only [not_exists, not_and]
  refine imp_congr_right fun _ => ?_
  rw [hflag]
  simp only [List.mem_append, List.mem_singleton, or_imp, forall_and, forall_eq]
  exact and_comm

theorem fine_step {ls : List Line} (h : Fine B P ls s) (hcalm : Calm B P l s) :
    Fine B P (ls ++ [l]) (sendMeasuredValues B P l s) where
  pending := by
    rw [sensorEvent_step hcalm, h.pending]
    simp only [List.mem_append, List.mem_singleton, or_and_right, exists_or, exists_eq_left]
  sent := by rw [sent_iff.mpr hcalm, h.sent, List.flatMap_append, List.flatMap_singleton]

/-- Every line of a run is answered as expected exactly if no accepted line is an event or comes after
    one. -/
theorem sent_as_expected_iff (v : SensorValue V) (ls : List Line) :
    SentAsExpected B P v ls ↔ NoEvent B P ls := by
  obtain ⟨u, hu⟩ := (serialLines B P).run_total (fun _ _ => ⟨_, rfl⟩) ls (State.init v)
  have hiff := (serialLines B P).run_states_iff (P := Fine B P)
    (Q := fun ls t => t.sent = ls.flatMap (expected B P))
    (C := fun ls _ l => Accepted B P l → ∀ k ∈ ls ++ [l], ¬ IsEvent B P k)
    ⟨by simp [State.init], rfl⟩ (fun _ _ hfine => hfine.sent) ?_ ?_ hu
  · exact hiff.trans ((serialLines B P).throughout_iff hu)
  · intro ls s l t hfine ht hsent
    obtain rfl : sendMeasuredValues B P l s = t := Option.some.inj ht
    rw [List.flatMap_append, List.flatMap_singleton, ← hfine.sent, sent_iff] at hsent
    exact hfine.calm_iff.mp hsent
  · intro ls s l t hfine ht hno
    obtain rfl : sendMeasuredValues B P l s = t := Option.some.inj ht
    exact fine_step hfine (hfine.calm_iff.mpr hno)

/-! ### A smoke detector -/

/-- Whole numbers for doubles. -/
def wholePlatform : Platform ℕ := ⟨⟨0x09⟩, id, (· == ·)⟩

def smoke : Line := ⟨"[06553600] JA-83P SENSOR LB:0", fun _ => true, false⟩

/-- The number of values in each message. -/
def valueCounts (ms : List ZMQMessage) : List ℕ :=
  ms.map fun m => match m.get "values" with
    | some (.arr items) => items.length
    | _ => 0

/-- The event of a paired detector is followed by a message without any value. -/
theorem follow_up_empty : ¬ ∀ ls : List Line,
    SentAsExpected Sample.whole wholePlatform (sensorValue wholePlatform ⟨0⟩ 0) ls := by
  intro h
  have hsent := h [smoke] [smoke] [] _ rfl rfl
  exact absurd (congrArg valueCounts hsent) (by decide)

end BeeeOn.JablotronDeviceManager
