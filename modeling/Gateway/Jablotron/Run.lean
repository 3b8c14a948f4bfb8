import Gateway.Jablotron.Events
import Gateway.Jablotron.Framing
import Gateway.Zmq.Reports

/-! @src jablotron/JablotronDeviceManager.cpp | name:From the serial line to the reports |
    family:composition

    A round of `run` reads the serial line, once the devices are known; a message that has been extracted
    is trimmed, dropped if it is a reply to a command or has fewer than three tokens, and otherwise
    handed to `sendMeasuredValues`, which looks up whether the device is paired and whether the manager
    listens. What is sent is a matter of the messages and of what is looked up in the round that extracts
    each (`serialSent_eq`); which messages these are does not depend on how the stream is cut into
    reads, nor on which rounds read nothing (`handled_all`).

    All that is sent is a record of an accepted line, or an empty one of its device behind it
    (`reports`), with modules that come through a message (`reports_sound`). -/

namespace BeeeOn.JablotronDeviceManager
open Schemes
variable {V : Type}

/-- `std::isspace` -/
def isSpace (c : Char) : Bool := c = ' ' || ('\t' ≤ c && c ≤ '\r')

/-- `Poco::trim` -/
def trim (cs : List Char) : List Char := ((cs.dropWhile isSpace).reverse.dropWhile isSpace).reverse

/-- What a round of the loop in `run` finds: whether there are paired devices and the devices of the
    dongle are loaded, what `sread` gives, and what `sendMeasuredValues` looks up. -/
structure Round where
  ready : Bool
  chunk : List Char
  paired : DeviceID → Bool
  listen : Bool

/-- The line that a message is handled as; none if there are too few tokens. -/
def lineOf (paired : DeviceID → Bool) (listen : Bool) (data : List Char) : Option Line :=
  let message := String.ofList (trim data)
  if (StringTokenizer message ' ').length < 3 then none else some ⟨message, paired, listen⟩

/-- The members that a round uses. -/
structure Loop (V : Type) where
  buffer : List Char
  manager : State V

variable (B : Base V) (P : Platform V)

/-- A round of the loop. -/
def Loop.round (s : Loop V) (r : Round) : Loop V :=
  if r.ready then
    let received := readFromSerial s.buffer r.chunk
    ⟨received.2,
      if received.1.ret then
        match received.1.data.bind (lineOf r.paired r.listen) with
        | some line => sendMeasuredValues B P line s.manager
        | none => s.manager
      else s.manager⟩
  else s

def Loop.rounds (s : Loop V) (rs : List Round) : Loop V := rs.foldl (Loop.round B P) s

/-! ### What is sent for the lines -/

/-- The records that are sent for the lines, `p` being pending before them. -/
def reports : Pending V → List Line → List (SensorData V)
  | _, [] => []
  | p, l :: ls =>
    let q := pendingAfter B P l p
    match parsed B P l with
    | .error _ => reports q ls
    | .ok data =>
      if l.paired data.deviceID || l.listen then
        if q.sensorEvent then data :: ⟨data.deviceID, []⟩ :: reports ⟨false, q.sensorEventValue⟩ ls
        else data :: reports q ls
      else reports q ls

variable {B P}

theorem sent_reports (ls : List Line) : ∀ s : State V,
    (ls.foldl (fun s l => sendMeasuredValues B P l s) s).sent =
      s.sent ++ (reports B P s.pending ls).map (ZMQMessage.fromSensorData B) := by
  induction ls with
  | nil => intro s; exact (List.append_nil _).symm
  | cons l ls ih =>
    intro s
    rw [List.foldl_cons, ih, reports]
    by_cases hl : Accepted B P l
    · obtain ⟨data, h, _⟩ := id hl
      have hkeep := (accepted_iff h).mp hl
      rw [send_accepted h hl, h]
      simp only [hkeep, if_true]
      split_ifs <;> simp only [List.map_cons, List.append_assoc, List.cons_append, List.nil_append]
    · rw [send_dropped hl]
      cases h : parsed B P l with
      | error e => rfl
      | ok data =>
        have hdrop := mt (accepted_iff h).mpr hl
        simp only [hdrop, Bool.false_eq_true, if_false]

/-- The record of an accepted line. -/
def dataOf (B : Base V) (P : Platform V) (l : Line) : Option (SensorData V) :=
  match parsed B P l with
  | .error _ => none
  | .ok data => if l.paired data.deviceID || l.listen then some data else none

/-- Where no line is an event, the records of the accepted lines are all that is sent. -/
theorem reports_calm {ls : List Line} (h : ∀ l ∈ ls, ¬ IsEvent B P l) {p : Pending V}
    (hp : p.sensorEvent = false) : reports B P p ls = ls.filterMap (dataOf B P) := by
  induction ls generalizing p with
  | nil => rfl
  | cons l ls ih =>
    have hq : (pendingAfter B P l p).sensorEvent = false := by
      have hafter := sensorEvent_after (B := B) (P := P) (l := l) (s := ⟨p, []⟩)
      rw [← Bool.not_eq_true, hafter, hp]
      simpa using h l List.mem_cons_self
    have hrest := ih (fun k hk => h k (List.mem_cons_of_mem l hk)) hq
    rw [reports, List.filterMap_cons, dataOf]
    cases parsed B P l with
    | error e => exact hrest
    | ok data =>
      dsimp only
      split_ifs with hkeep hev
      · rw [hq] at hev
        cases hev
      · exact congrArg (data :: ·) hrest
      · exact hrest

/-! ### The records come through a message -/

section
variable {α β : Type} {Q : α → Prop}

/-- What the parser returns has the property. -/
def Yields (p : Parse V α) (Q : α → Prop) : Prop :=
  ∀ (s : Pending V) (a : α), (p.run.run s).1 = .ok a → Q a

theorem Yields.lift {x : Except Exn α} (h : ∀ a, x = .ok a → Q a) :
    Yields (liftM x : Parse V α) Q := by
  intro s a ha
  cases x with
  | error e => cases ha
  | ok b => exact h a ha

theorem Yields.throw (e : Exn) : Yields (throw e : Parse V α) Q := by
  intro s a ha
  cases ha

theorem Yields.pure {a : α} (h : Q a) : Yields (pure a : Parse V α) Q := by
  intro s b hb
  cases hb
  exact h

theorem Yields.lift_bind {Q : β → Prop} {x : Except Exn α} {f : α → Parse V β}
    (h : ∀ a, x = .ok a → Yields (f a) Q) : Yields (liftM x >>= f) Q := by
  cases x with
  | error e =>
    intro s a ha
    cases ha
  | ok a => exact h a rfl

theorem Yields.map {Q' : β → Prop} {p : Parse V α} (h : Yields p Q) {g : α → β}
    (hg : ∀ a, Q a → Q' (g a)) : Yields (do let a ← p; return g a) Q' := by
  intro s b hb
  rw [ExceptT.run_bind, StateT.run_bind] at hb
  have hs := h s
  rcases hp : p.run.run s with ⟨r, s'⟩
  rw [hp] at hb hs
  cases r with
  | error e => cases hb
  | ok a =>
    cases hb
    exact hg a (hs a rfl)

end

theorem sensorValue_sound {m : ModuleID} (h : m.value.toNat < 10) (n : ℕ) : (sensorValue P m n).Sound :=
  ⟨h, rfl⟩

theorem converted_sound {m : ModuleID} (h : m.value.toNat < 10) {data : String} {x : SensorValue V}
    (hx : converted B P m data = .ok x) : x.Sound := by
  unfold converted at hx
  cases hn : convert B P data true with
  | error e => rw [hn] at hx; cases hx
  | ok n => rw [hn] at hx; cases hx; exact sensorValue_sound h n

theorem yields_converted {m : ModuleID} (h : m.value.toNat < 10) (ts : List String) :
    Yields (do converted B P m (← token ts 4) : Parse V (SensorValue V)) SensorValue.Sound :=
  .lift_bind fun _ _ => .lift fun _ hx => converted_sound h hx

theorem yields_startEvent {m : ModuleID} (h : m.value.toNat < 10) (on off : ℕ) :
    Yields (startEvent P m on off) SensorValue.Sound := by
  intro s a ha
  cases ha
  exact sensorValue_sound h on

theorem temperature_sound {message data : String} {x : SensorValue V}
    (hx : parseMessageFromTP82N B message data = .ok x) : x.Sound := by
  simp only [parseMessageFromTP82N, bind, Except.bind, pure, Except.pure] at hx
  split_ifs at hx
  cases hwhat : token (StringTokenizer data ':') 0 with
  | error e =>
    rw [hwhat] at hx
    cases hx
  | ok what =>
    rw [hwhat] at hx
    dsimp only at hx
    cases hv : B.parseFloat (substr message 22 4) with
    | error e =>
      rw [hv] at hx
      split_ifs at hx
    | ok v =>
      rw [hv] at hx
      split_ifs at hx
      · cases hx
        exact ⟨show TP82N_REQUESTD_ROOM_TEMPERATURE.value.toNat < 10 by decide, rfl⟩
      · cases hx
        exact ⟨show TP82N_CURRENT_ROOM_TEMPERATURE.value.toNat < 10 by decide, rfl⟩

/-- Every device reports under a module of one digit. -/
theorem yields_parseByType (t : DeviceType) (message : String) (ts : List String) :
    Yields (parseByType B P t message ts) SensorValue.Sound := by
  cases t with
  | ja85st =>
    refine .lift_bind fun what _ => ?_
    split_ifs
    · exact yields_startEvent (by decide) _ _
    · exact .pure (sensorValue_sound (by decide) _)
    · exact yields_converted (by decide) ts
    · exact yields_converted (by decide) ts
    · exact .throw _
  | ja83p | ja82sh =>
    refine .lift_bind fun what _ => ?_
    split_ifs
    · exact yields_converted (by decide) ts
    · exact yields_startEvent (by decide) _ _
    · exact .throw _
  | ja81m | ja83m =>
    refine .lift_bind fun what _ => ?_
    split_ifs
    · exact yields_converted (by decide) ts
    · exact yields_converted (by decide) ts
    · exact .throw _
  | rc86k =>
    refine .lift_bind fun what _ => ?_
    unfold parseMessageFromRC86K
    split_ifs
    · exact yields_startEvent (by decide) _ _
    · exact .lift fun _ hx => converted_sound (by decide) hx
  | tp82n =>
    exact .lift_bind fun _ _ => .lift fun _ hx => temperature_sound hx
  | unknown | ac88 | ja80l => exact .throw _

/-- What a line says comes through a message. -/
theorem parsed_sound {l : Line} {data : SensorData V} (h : parsed B P l = .ok data) : data.Sound := by
  have hyields : Yields (parseMessageFromDevice B P l.message l.token) SensorData.Sound := by
    refine .lift_bind fun t0 _ => .lift_bind fun sn _ => ?_
    dsimp only
    split_ifs
    · refine .lift_bind fun what _ => .lift_bind fun n _ => .pure ?_
      intro x hx
      rw [List.mem_singleton.mp hx]
      exact sensorValue_sound (by decide) n
    · refine .lift_bind fun what _ => .lift_bind fun n _ => (yields_parseByType _ _ _).map ?_
      intro value hvalue x hx
      rcases List.mem_cons.mp hx with rfl | hx
      · refine sensorValue_sound ?_ n
        unfold batteryModuleID
        split_ifs <;> decide
      · rw [List.mem_singleton.mp hx]
        exact hvalue
  exact hyields _ _ h

theorem reports_sound (p : Pending V) (ls : List Line) : ∀ data ∈ reports B P p ls, data.Sound := by
  induction ls generalizing p with
  | nil => intro data hdata; cases hdata
  | cons l ls ih =>
    intro data hdata
    rw [reports] at hdata
    cases h : parsed B P l with
    | error e =>
      rw [h] at hdata
      exact ih _ data hdata
    | ok said =>
      rw [h] at hdata
      dsimp only at hdata
      split_ifs at hdata
      · rcases List.mem_cons.mp hdata with rfl | hdata
        · exact parsed_sound h
        · rcases List.mem_cons.mp hdata with rfl | hdata
          · exact fun x hx => absurd hx List.not_mem_nil
          · exact ih _ data hdata
      · rcases List.mem_cons.mp hdata with rfl | hdata
        · exact parsed_sound h
        · exact ih _ data hdata
      · exact ih _ data hdata

/-! ### What is read in the rounds -/

/-- What a call of `readFromSerial` hands on. -/
def accepted (data : List Char) : Bool := !(data = "OK".toList || data = "ERROR".toList)

/-- The rounds that extract a message, each with the message. -/
def handled (buffer : List Char) : List Round → List (Round × List Char)
  | [] => []
  | r :: rs =>
    if r.ready then
      let received := readFromSerial buffer r.chunk
      (received.1.data.map fun data => (r, data)).toList ++ handled received.2 rs
    else handled buffer rs

/-- The lines that messages are handled as, with what their rounds look up. -/
def linesOf (hs : List (Round × List Char)) : List Line :=
  (hs.filter fun h => accepted h.2).filterMap fun h => lineOf h.1.paired h.1.listen h.2

theorem linesOf_append (hs hs' : List (Round × List Char)) :
    linesOf (hs ++ hs') = linesOf hs ++ linesOf hs' := by
  rw [linesOf, List.filter_append, List.filterMap_append]
  rfl

theorem linesOf_singleton (r : Round) (data : List Char) : linesOf [(r, data)] =
    if accepted data then (lineOf r.paired r.listen data).toList else [] := by
  rw [linesOf, List.filter_cons]
  split_ifs
  · rw [List.filterMap_cons]
    cases lineOf r.paired r.listen data <;> rfl
  · rfl

/-- Which messages are extracted is what the reads of the rounds that are ready extract. -/
theorem handled_messages (buffer : List Char) (rs : List Round) :
    (handled buffer rs).map Prod.snd =
      extracted (readAll buffer ((rs.filter Round.ready).map Round.chunk)) := by
  induction rs generalizing buffer with
  | nil => rfl
  | cons r rs ih =>
    rw [handled]
    by_cases hready : r.ready = true
    · rw [if_pos hready, List.filter_cons_of_pos hready, List.map_cons, readAll, List.map_append, ih]
      cases hdata : (readFromSerial buffer r.chunk).1.data with
      | none =>
        rw [extracted_cons_none hdata]
        rfl
      | some data =>
        rw [extracted_cons_some hdata]
        rfl
    · rw [if_neg hready, List.filter_cons_of_neg hready, ih]

/-- What a call stores and what it returns. -/
theorem readFromSerial_ret (buffer chunk : List Char) : (readFromSerial buffer chunk).1.ret =
    match (readFromSerial buffer chunk).1.data with
    | none => false
    | some data => accepted data := by
  unfold readFromSerial
  split <;> rfl

/-- A round handles the line of the message that it extracts, if there is one. -/
theorem round_eq (s : Loop V) {r : Round} (hready : r.ready = true) : s.round B P r =
    ⟨(readFromSerial s.buffer r.chunk).2,
      (linesOf ((readFromSerial s.buffer r.chunk).1.data.map fun data => (r, data)).toList).foldl
        (fun s l => sendMeasuredValues B P l s) s.manager⟩ := by
  have hret := readFromSerial_ret s.buffer r.chunk
  rw [Loop.round, if_pos hready]
  refine congrArg (Loop.mk _) ?_
  cases hdata : (readFromSerial s.buffer r.chunk).1.data with
  | none =>
    rw [hdata] at hret
    rw [hret]
    rfl
  | some data =>
    rw [hdata] at hret
    rw [hret, Option.bind_some, Option.map_some, Option.toList_some, linesOf_singleton]
    by_cases hacc : accepted data = true
    · simp only [hacc, if_true]
      cases lineOf r.paired r.listen data <;> rfl
    · simp only [hacc, Bool.false_eq_true, if_false, List.foldl_nil]

/-- The rounds handle the lines of the messages that they extract. -/
theorem rounds_eq (rs : List Round) : ∀ s : Loop V, (s.rounds B P rs).manager =
    (linesOf (handled s.buffer rs)).foldl (fun s l => sendMeasuredValues B P l s) s.manager := by
  induction rs with
  | nil => intro s; rfl
  | cons r rs ih =>
    intro s
    have hrounds : s.rounds B P (r :: rs) = (s.round B P r).rounds B P rs := rfl
    rw [hrounds, ih, handled]
    by_cases hready : r.ready = true
    · rw [if_pos hready, round_eq s hready, linesOf_append, List.foldl_append]
    · rw [if_neg hready, Loop.round, if_neg hready]

/-- What the rounds send, from the start with the sensor value `v`. -/
def serialSent (B : Base V) (P : Platform V) (v : SensorValue V) (rs : List Round) : List ZMQMessage :=
  ((⟨[], State.init v⟩ : Loop V).rounds B P rs).manager.sent

/-- The records of the messages that are handled. -/
def serialReports (B : Base V) (P : Platform V) (v : SensorValue V) (hs : List (Round × List Char)) :
    List (SensorData V) :=
  reports B P ⟨false, v⟩ (linesOf hs)

/-- What has been sent are the records of the lines of the messages, each with what the round that has
    extracted it has looked up. -/
theorem serialSent_eq (v : SensorValue V) (rs : List Round) : serialSent B P v rs =
    (serialReports B P v (handled [] rs)).map (ZMQMessage.fromSensorData B) := by
  rw [serialSent, rounds_eq, sent_reports]
  rfl

/-- For every stream that begins anywhere in a frame, every way of cutting it into reads, and with any
    rounds that read nothing between them: once there were as many rounds more as there are messages, the
    messages that have been handled are those of the stream, once each and in their order. -/
theorem handled_all {partFrame : List Char} {m : Message} (hp : partFrame <:+ m.frame)
    {ms : List Message} {chunks : List (List Char)} (hc : chunks.flatten = partFrame ++ frames ms)
    {n : ℕ} (hn : (leading partFrame ++ ms).length ≤ n) {rs : List Round}
    (hread : (rs.filter Round.ready).map Round.chunk = chunks ++ List.replicate n []) :
    (handled [] rs).map Prod.snd = (leading partFrame ++ ms).map Message.text := by
  have haligned : Aligned ([] ++ chunks.flatten) (leading partFrame ++ ms) := by
    rw [List.nil_append, hc]
    exact aligned_start hp ms
  rw [handled_messages, hread, extracted_all chunks haligned hn]

/-! ### What is sent at all -/

theorem round_measured (s : Loop V) (r : Round)
    (h : ∀ m ∈ s.manager.sent, ∃ data, m = ZMQMessage.fromSensorData B data) :
    ∀ m ∈ (s.round B P r).manager.sent, ∃ data, m = ZMQMessage.fromSensorData B data := by
  have hsend : ∀ l, ∀ m ∈ (sendMeasuredValues B P l s.manager).sent,
      ∃ data, m = ZMQMessage.fromSensorData B data := by
    intro l m hm
    have hsent : (sendMeasuredValues B P l s.manager).sent = s.manager.sent ++
        (reports B P s.manager.pending [l]).map (ZMQMessage.fromSensorData B) := sent_reports [l] s.manager
    rw [hsent] at hm
    rcases List.mem_append.mp hm with hm | hm
    · exact h m hm
    · obtain ⟨data, -, rfl⟩ := List.mem_map.mp hm
      exact ⟨data, rfl⟩
  unfold Loop.round
  dsimp only
  split_ifs
  · split
    · exact hsend _
    · exact h
  · exact h
  · exact h

/-- Whatever is read, the rounds send measured values. -/
theorem serialSent_measured {v : SensorValue V} {rs : List Round} :
    ∀ m ∈ serialSent B P v rs, ∃ data, m = ZMQMessage.fromSensorData B data := by
  have hrounds : ∀ s : Loop V, (∀ m ∈ s.manager.sent, ∃ data, m = ZMQMessage.fromSensorData B data) →
      ∀ m ∈ (s.rounds B P rs).manager.sent, ∃ data, m = ZMQMessage.fromSensorData B data := by
    induction rs with
    | nil => exact fun s hs => hs
    | cons r rs ih => exact fun s hs => ih (s.round B P r) (round_measured s r hs)
  exact hrounds ⟨[], State.init v⟩ fun m hm => absurd hm List.not_mem_nil

end BeeeOn.JablotronDeviceManager
