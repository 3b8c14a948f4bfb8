import Gateway.Zmq.Handle
import Gateway.Zmq.Hello
import Gateway.Zmq.Requests

/-! @src zmq/ZMQBroker.cpp, zmq/ZMQConnector.cpp | name:The broker | family:state machine

    The whole broker: the thread that receives on the two sockets, the tasks that run `handle` for the
    commands handed to it, and the timer that looks at the set commands. A step of the thread is one
    received message, a step of a task one turn of its loop, a step of the timer one tick. What the
    steps may do to the results of the commands is `step_results`: they add one, or set the status of
    one that a `default_result` names. -/

namespace BeeeOn
open Schemes AnswerQueue
variable {V : Type}

namespace SetStatus

def gwDeviceSuccess : SetStatus := ⟨0⟩
def gwDeviceFailed : SetStatus := ⟨1⟩
def gwDeviceTimeout : SetStatus := ⟨2⟩
def deviceSuccess : SetStatus := ⟨3⟩
def deviceFailed : SetStatus := ⟨4⟩
def deviceTimeout : SetStatus := ⟨5⟩

/-- The statuses that the gateway gives at the end. -/
def IsFinal (s : SetStatus) : Prop := s = gwDeviceSuccess ∨ s = gwDeviceFailed ∨ s = gwDeviceTimeout

end SetStatus

namespace Broker
open ZMQBroker (Socket Hello parsed parseMessage accept recipients insertNew_of_none)

/-- What the broker is given: the base library, `toString` of a message, the order of device ids and
    the handlers of its dispatcher. -/
structure Platform (V : Type) where
  base : Base V
  text : ZMQMessage → String
  before : DeviceID → DeviceID → Bool
  handlers : List (CommandHandler V)

/-- The answers of the commands that the broker handles live on the queues of those who sent them;
    `answers` holds them all. -/
structure State (V : Type) where
  table : ZMQDeviceManagerTable
  answerQueue : AnswerQueue V
  resultTable : ℕ → Option (ResultData V)
  answers : AnswerQueue V
  cmdTable : GlobalID → Option (ResultData2 V)
  /-- `m_settingTable` in the order of its keys -/
  settingTable : List (DeviceID × SettingValueItem V)
  /-- the tasks of `handle`, each with the managers it has not sent to -/
  loops : List (Command V × ℕ × List DeviceManagerID)
  /-- the set commands handled so far: their answers and end times -/
  handled : List (ℕ × ℤ)
  exported : List (SensorData V)
  pairedDevices : Finset DeviceID
  dispatched : List (ℕ × Command V)
  frames : Socket → List String
  clock : ℤ
  running : Bool
  undefined : Bool

/-- A broker with the given table, before it has received anything. -/
def start (table : ZMQDeviceManagerTable) : State V :=
  ⟨table, .empty, fun _ => none, .empty, fun _ => none, [], [], [], [], ∅, [], fun _ => [], 0, true,
    false⟩

inductive Label (V : Type) where
  | hello (json : String)
  | data (identity json : String)
  | begin (cmd : Command V) (now : ℤ)
  | next (k : ℕ) (id : GlobalID)
  | tick (now : ℤ)

variable (P : Platform V)

/-! ### The thread of the sockets -/

def State.emit (s : State V) (sock : Socket) (fs : List String) : State V :=
  { s with frames := Function.update s.frames sock (s.frames sock ++ fs) }

/-- `sendError` on the data socket: one frame. -/
def sendError (s : State V) (e : ZMQMessageError) (message : String) : State V :=
  s.emit .data [P.text (.fromError e message)]

/-- The state that the functions of the hello socket work on; nothing is sent yet. -/
def State.quiet (s : State V) : Hello := ⟨s.table, fun _ => []⟩

/-- The table that they leave, and what they have sent. -/
def State.absorb (s : State V) (h : Hello) : State V :=
  { s with table := h.table, frames := fun sock => s.frames sock ++ (h.sent sock).map P.text }

/-- `helloServerReceive`, with the exception it raises. -/
def helloServerReceive (s : State V) (json : String) : Except Exn Unit × State V :=
  let r := ZMQBroker.helloServerReceive P.base s.quiet json
  (r.1, s.absorb P r.2)

/-- A decoder at work on result `i` of answer `a`: its calls, until one raises. -/
def decode (q : AnswerQueue V) (a i : ℕ) : Decoding V → Except Exn Unit × AnswerQueue V
  | [] => (.ok (), q)
  | .error e :: _ => (.error e, q)
  | .ok (.setStatus s) :: ops => match q.setStatus a i s with
    | .ok q => decode q a i ops
    | .error e => (.error e, q)
  | .ok (.setPayload p) :: ops => decode (q.setPayload a i p) a i ops

/-- `doDefaultResult`; for an id that is not in the table it reads behind the end of the map. -/
def doDefaultResult (s : State V) (m : ZMQMessage) : Except Exn Unit × State V :=
  match m.id P.base with
  | .error e => (.error e, s)
  | .ok id => match s.cmdTable id with
    | none => (.ok (), { s with undefined := true })
    | some e =>
      let r := decode s.answers e.answer e.result (m.toDefaultResult P.base)
      (r.1, { s with answers := r.2 })

/-- The body of `doDeviceListCommand` and `doDeviceLastValueCommand`: the answer is made before the
    message is decoded. -/
def doCommand (s : State V) (m : ZMQMessage) (manager : DeviceManagerID)
    (cmd : Except Exn (Command V)) : Except Exn Unit × State V :=
  let a := s.answerQueue.next
  let q := s.answerQueue.newAnswer
  match cmd, m.id P.base with
  | .error e, _ => (.error e, { s with answerQueue := q })
  | .ok _, .error e => (.error e, { s with answerQueue := q })
  | .ok c, .ok id => (.ok (),
      { s with
        answerQueue := (dispatch P.handlers c a q).1
        resultTable := Function.update s.resultTable a (some ⟨id, manager, c⟩)
        dispatched := s.dispatched ++ [(a, c)] })

def doDeviceListCommand (s : State V) (m : ZMQMessage) (manager : DeviceManagerID) :
    Except Exn Unit × State V := doCommand P s m manager (m.toDeviceListRequest P.base)

def doDeviceLastValueCommand (s : State V) (m : ZMQMessage) (manager : DeviceManagerID) :
    Except Exn Unit × State V := doCommand P s m manager (m.toServerLastValueCommand P.base)

/-- `exportData` logs what an exporter raises and goes on. -/
def handleDataMessage (s : State V) (m : ZMQMessage) (manager : DeviceManagerID) :
    Except Exn Unit × State V :=
  match m.type P.base with
  | .ok .measuredValues => match m.toSensorData P.base with
    | .ok data => (.ok (),
        { s with
          exported := s.exported ++ [data]
          pairedDevices := insert data.deviceID s.pairedDevices })
    | .error e => (.error e, s)
  | .ok .defaultResult => doDefaultResult P s m
  | .ok .deviceLastValueCmd => doDeviceLastValueCommand P s m manager
  | .ok .deviceListCmd => doDeviceListCommand P s m manager
  | .ok _ => (.ok (), sendError P s .unsupportedMessage "unsupported message type")
  | .error e => (.error e, s)

/-- The `try` block of `dataServerReceive`. -/
def attempt (s : State V) (identity : String) (m : ZMQMessage) : Except Exn Unit × State V :=
  match DeviceManagerID.parse P.base identity with
  | .error e => (.error e, s)
  | .ok manager => handleDataMessage P s m manager

/-- Its `catch` blocks. -/
def recover : Except Exn Unit × State V → State V
  | (.error .invalidAccess, s) => sendError P s .missingAttribute "missing JSON attribute"
  | (_, s) => s

/-- `dataServerReceive` on the two frames of a message, with the exception it raises. -/
def dataServerReceive (s : State V) (identity json : String) : Except Exn Unit × State V :=
  match parseMessage P.base s.quiet json .data with
  | (.ok (some m), _) => (.ok (), recover P (attempt P s identity m))
  | (.ok none, h) => (.ok (), s.absorb P h)
  | (.error e, h) => (.error e, s.absorb P h)

/-- An exception that leaves the loop of `run` ends the thread. -/
def ended : Except Exn Unit × State V → State V
  | (.ok _, s) => s
  | (.error _, s) => { s with running := false }

/-! ### The tasks -/

/-- `std::map::insert` on the entries in the order of their keys. -/
def insertItem (k : DeviceID) (item : SettingValueItem V) :
    List (DeviceID × SettingValueItem V) → List (DeviceID × SettingValueItem V)
  | [] => [(k, item)]
  | x :: xs =>
    if x.1 = k then x :: xs
    else if P.before k x.1 then (k, item) :: x :: xs
    else x :: insertItem k item xs

/-- An answer as `dispatch` hands it to the broker: its one command is counted and started. -/
def handed (s : State V) (cmd : Command V) : AnswerQueue V :=
  let a := s.answers.next
  ((s.answers.newAnswer.addCommand a ⟨0, accept s.table⟩ cmd).runCommands a).1

/-- `handle` up to its loop, for a command with an answer of its own. -/
def begin (s : State V) (cmd : Command V) (now : ℤ) : State V :=
  let a := s.answers.next
  let t := { s with
    answers := handed s cmd
    loops := s.loops ++ [(cmd, a, recipients s.table cmd)]
    clock := now }
  match cmd with
  | .deviceSetValue deviceID _ _ timeout =>
    { t with
      settingTable := insertItem P deviceID ⟨cmd, a, now + timeout⟩ s.settingTable
      handled := s.handled ++ [(a, now + timeout)] }
  | _ => t

/-- A turn of the loop of task `k`: a message with the fresh id, a result for it, two frames. -/
def next (s : State V) (k : ℕ) (id : GlobalID) : Option (State V) :=
  match s.loops[k]?, s.cmdTable id with
  | some (cmd, a, manager :: managers), none =>
    match ZMQMessage.fromCommand P.base id cmd with
    | .ok msg => some
        { s.emit .data [manager.toString, P.text msg] with
          answers := s.answers.addResult a .plain
          cmdTable := insertNew s.cmdTable id ⟨a, cmd, (s.answers.heap a).results.length⟩
          loops := s.loops.set k (cmd, a, managers) }
    | .error _ => none
  | _, _ => none

/-! ### The timer -/

/-- How a walk over a map ends; `undefined` if it reads what is not there. -/
inductive Sweep where
  | returned
  | raised (e : Exn)
  | undefined
  deriving DecidableEq, Repr

/-- The body of the loop of `checkSettingTable`. The loop goes on from the entry it has looked at, also
    if that has been erased. -/
def checkItem (now : ℤ) (s : State V) (item : DeviceID × SettingValueItem V) : Sweep × State V :=
  match ((s.answers.heap item.2.answer).results[0]?).map Result.payload with
  | none => (.returned, s)
  | some (.setValue status) =>
    match if item.2.endTime < now then some SetStatus.gwDeviceTimeout else status with
    -- the member has never been set
    | none => (.undefined, s)
    | some st =>
      let st' := if st = .deviceFailed then .gwDeviceFailed else st
      let st'' := if st' = .deviceSuccess then .gwDeviceSuccess else st'
      if item.2.endTime < now ∨ st = .deviceFailed ∨ st' = .deviceSuccess then
        (.undefined,
          { s with
            answers := s.answers.setPayload item.2.answer 0 (.setValue (some st''))
            settingTable := s.settingTable.filter (·.1 ≠ item.1) })
      else (.returned, s)
  -- the cast gives a null pointer
  | some _ => (.raised .nullPointer, s)

def sweep (now : ℤ) : State V → List (DeviceID × SettingValueItem V) → Sweep × State V
  | s, [] => (.returned, s)
  | s, item :: items => match checkItem now s item with
    | (.returned, t) => sweep now t items
    | r => r

def checkSettingTable (now : ℤ) (s : State V) : Sweep × State V := sweep now s s.settingTable

/-- The timer goes on after an exception. -/
def tick (now : ℤ) (s : State V) : State V :=
  let r := checkSettingTable now s
  { r.2 with clock := now, undefined := r.1 = .undefined }

/-- The broker: the time never goes back, and nothing can be said after undefined behaviour. -/
def system : Lts (State V) (Label V) where
  step s l := if s.undefined then none else match l with
    | .hello json => if s.running then some (ended (helloServerReceive P s json)) else none
    | .data identity json =>
      if s.running then some (ended (dataServerReceive P s identity json)) else none
    | .begin cmd now => if s.clock ≤ now then some (begin P s cmd now) else none
    | .next k id => next P s k id
    | .tick now => if s.clock ≤ now then some (tick now s) else none

/-- A platform to try out: the JSON parser knows the texts of `texts`, and there is no handler. -/
def sample (texts : List (String × JsonObject)) : Platform Reading where
  base := { Sample.base with
    parseJson := fun s => match texts.lookup s with
      | some o => .ok o
      | none => .error .syntaxError }
  text := Sample.jsonText
  before d e := decide (Sample.word d < Sample.word e)
  handlers := []

/-! ### What one step can do -/

/-- The result that a data message is about and the status it asks for: a `default_result` with the id
    of a message that a command was sent in. -/
def reply (s : State V) (identity json : String) : Option (ℕ × ℕ × Status) :=
  match parsed P.base json with
  | .error _ => none
  | .ok m =>
    match DeviceManagerID.parse P.base identity, m.type P.base, m.id P.base,
        m.getResultState P.base with
    | .ok _, .ok .defaultResult, .ok id, .ok st =>
      (s.cmdTable id).map fun e => (e.answer, e.result, st)
    | _, _, _, _ => none

section
variable {P} (s : State V)

theorem absorb_quiet : s.absorb P s.quiet = s := by
  simp [State.absorb, State.quiet]

theorem absorb_sendError (e : ZMQMessageError) (message : String) :
    s.absorb P (ZMQBroker.sendError s.quiet e message .data) = sendError P s e message := by
  have hframes : (fun sock => s.frames sock ++ ((ZMQBroker.sendError s.quiet e message .data).sent
      sock).map P.text) = (sendError P s e message).frames := by
    funext sock
    cases sock <;> simp [ZMQBroker.sendError, ZMQBroker.send, State.quiet, sendError, State.emit]
  rw [State.absorb, hframes]
  rfl

/-- What the `try` block may do: raise before it has done anything; export what was measured; take a
    reply; hand a command of the server on; or say that it has no case for the type. -/
theorem attempt_cases (identity : String) (m : ZMQMessage) :
    (∃ e, attempt P s identity m = (.error e, s)) ∨
    (∃ data devices, attempt P s identity m =
      (.ok (), { s with exported := data, pairedDevices := devices })) ∨
    attempt P s identity m = doDefaultResult P s m ∨
    (∃ manager cmd, attempt P s identity m = doCommand P s m manager cmd) ∨
    attempt P s identity m =
      (.ok (), sendError P s .unsupportedMessage "unsupported message type") := by
  unfold attempt
  cases DeviceManagerID.parse P.base identity with
  | error e => exact Or.inl ⟨e, rfl⟩
  | ok manager =>
    simp only [handleDataMessage]
    cases m.type P.base with
    | error e => exact Or.inl ⟨e, rfl⟩
    | ok t =>
      cases t with
      | measuredValues =>
        cases m.toSensorData P.base with
        | error e => exact Or.inl ⟨e, rfl⟩
        | ok data => exact Or.inr (Or.inl ⟨_, _, rfl⟩)
      | defaultResult => exact Or.inr (Or.inr (Or.inl rfl))
      | deviceLastValueCmd => exact Or.inr (Or.inr (Or.inr (Or.inl ⟨manager, _, rfl⟩)))
      | deviceListCmd => exact Or.inr (Or.inr (Or.inr (Or.inl ⟨manager, _, rfl⟩)))
      | _ => exact Or.inr (Or.inr (Or.inr (Or.inr rfl)))

/-- A reply works on the results of the commands. -/
theorem doDefaultResult_frame (m : ZMQMessage) : ∃ q b,
    (doDefaultResult P s m).2 = { s with answers := q, undefined := b } := by
  unfold doDefaultResult
  split
  · exact ⟨_, _, rfl⟩
  · split
    · exact ⟨_, _, rfl⟩
    · exact ⟨_, _, rfl⟩

/-- A message is either read and then handled, or it is not and leaves at most an error message. -/
theorem receive_cases (identity json : String) :
    (∃ m, parsed P.base json = .ok m ∧
      dataServerReceive P s identity json = (.ok (), recover P (attempt P s identity m))) ∨
    ∃ e, parsed P.base json = .error e ∧ (dataServerReceive P s identity json = (.error e, s) ∨
      ∃ e' message, dataServerReceive P s identity json = (.ok (), sendError P s e' message)) := by
  unfold dataServerReceive parseMessage
  cases h : parsed P.base json with
  | ok m => exact Or.inl ⟨m, rfl, rfl⟩
  | error e =>
    refine Or.inr ⟨e, rfl, ?_⟩
    cases e <;> first
      | exact Or.inl (congrArg _ (absorb_quiet s))
      | exact Or.inr ⟨_, _, congrArg _ (absorb_sendError s _ _)⟩

/-- The rest of the thread, once a message has been handled, only sends or ends. -/
theorem recover_eq (r : Except Exn Unit × State V) :
    ∃ fs, recover P r = { r.2 with frames := fs } := by
  unfold recover
  split
  · exact ⟨_, rfl⟩
  · exact ⟨_, rfl⟩

theorem ended_eq (r : Except Exn Unit × State V) :
    ∃ b, ended r = { r.2 with running := b } := by
  unfold ended
  split
  · exact ⟨_, rfl⟩
  · exact ⟨_, rfl⟩

/-- What a data message changes, apart from the frames sent and whether the thread goes on: the state
    that the `try` block leaves. -/
theorem data_eq (identity json : String) :
    (∃ m fs b, parsed P.base json = .ok m ∧ ended (dataServerReceive P s identity json) =
      { (attempt P s identity m).2 with frames := fs, running := b }) ∨
    (∃ e fs b, parsed P.base json = .error e ∧
      ended (dataServerReceive P s identity json) = { s with frames := fs, running := b }) := by
  obtain ⟨b, hb⟩ := ended_eq (dataServerReceive P s identity json)
  rw [hb]
  rcases receive_cases s identity json with ⟨m, hm, h⟩ | ⟨e, he, h | ⟨e', message, h⟩⟩ <;> rw [h]
  · obtain ⟨fs, hfs⟩ := recover_eq (P := P) (attempt P s identity m)
    exact Or.inl ⟨m, fs, b, hm, by rw [hfs]⟩
  · exact Or.inr ⟨e, _, b, he, rfl⟩
  · exact Or.inr ⟨e, _, b, he, rfl⟩

theorem decode_default (q : AnswerQueue V) (a i : ℕ) (m : ZMQMessage) :
    (decode q a i (m.toDefaultResult P.base)).2 = match m.getResultState P.base with
      | .ok st => q.afterSetStatus a i st
      | .error _ => q := by
  unfold ZMQMessage.toDefaultResult
  cases m.getResultState P.base with
  | error e => rfl
  | ok st =>
    simp only [bind, Except.bind, pure, Except.pure, calls, List.map_cons, List.map_nil, decode,
      afterSetStatus]
    cases q.setStatus a i st <;> rfl

theorem doCommand_frame (m : ZMQMessage) (manager : DeviceManagerID) (cmd : Except Exn (Command V)) :
    (doCommand P s m manager cmd).2.answers = s.answers ∧
      (doCommand P s m manager cmd).2.loops = s.loops := by
  unfold doCommand
  split <;> exact ⟨rfl, rfl⟩

/-- The only thing a data message does to the results of the commands. -/
theorem data_answers (identity json : String) :
    (ended (dataServerReceive P s identity json)).answers =
      match reply P s identity json with
      | some (a, i, st) => s.answers.afterSetStatus a i st
      | none => s.answers := by
  rcases data_eq (P := P) s identity json with ⟨m, fs, b, hm, h⟩ | ⟨e, fs, b, he, h⟩ <;> rw [h, reply]
  · simp only [hm, attempt]
    cases DeviceManagerID.parse P.base identity with
    | error e => rfl
    | ok manager =>
      simp only [handleDataMessage]
      cases m.type P.base with
      | error e => rfl
      | ok t =>
        cases t <;> try rfl
        case measuredValues => dsimp only; split <;> rfl
        case deviceLastValueCmd => exact (doCommand_frame s _ _ _).1
        case deviceListCmd => exact (doCommand_frame s _ _ _).1
        case defaultResult =>
          simp only [doDefaultResult]
          cases m.id P.base with
          | error e => rfl
          | ok id =>
            cases hid : s.cmdTable id with
            | none => cases m.getResultState P.base <;> simp only [hid, Option.map_none]
            | some e =>
              simp only [hid, decode_default]
              cases m.getResultState P.base <;> simp only [hid, Option.map_some]
  · simp only [he]

/-- What a data message leaves alone: the managers, and what `handle` has filed. -/
theorem data_frame (identity json : String) : ∃ queue results q exported devices dispatched fs b u,
    ended (dataServerReceive P s identity json) =
      { s with
        answerQueue := queue
        resultTable := results
        answers := q
        exported := exported
        pairedDevices := devices
        dispatched := dispatched
        frames := fs
        running := b
        undefined := u } := by
  rcases data_eq (P := P) s identity json with ⟨m, fs, b, hm, h⟩ | ⟨e, fs, b, he, h⟩ <;> rw [h]
  · rcases attempt_cases (P := P) s identity m with
      ⟨e, h⟩ | ⟨data, devices, h⟩ | h | ⟨manager, cmd, h⟩ | h <;> rw [h]
    · exact ⟨_, _, _, _, _, _, _, _, _, rfl⟩
    · exact ⟨_, _, _, _, _, _, _, _, _, rfl⟩
    · obtain ⟨q, u, hq⟩ := doDefaultResult_frame (P := P) s m
      rw [hq]
      exact ⟨_, _, _, _, _, _, _, _, _, rfl⟩
    · unfold doCommand
      split <;> exact ⟨_, _, _, _, _, _, _, _, _, rfl⟩
    · exact ⟨_, _, _, _, _, _, _, _, _, rfl⟩
  · exact ⟨_, _, _, _, _, _, _, _, _, rfl⟩

theorem data_loops (identity json : String) :
    (ended (dataServerReceive P s identity json)).loops = s.loops := by
  obtain ⟨_, _, _, _, _, _, _, _, _, h⟩ := data_frame (P := P) s identity json
  rw [h]

end

/-- The results of the answer `a`. -/
def State.results (s : State V) (a : ℕ) : List (Result V) := (s.answers.heap a).results

/-- The results of the commands are plain, and only answers that exist have any. -/
structure Inv (s : State V) : Prop where
  plain : ∀ a, ∀ r ∈ s.results a, r.payload = .plain
  unborn : ∀ a, s.answers.next ≤ a → s.results a = []
  loops : ∀ x ∈ s.loops, x.2.1 < s.answers.next

theorem inv_start (table : ZMQDeviceManagerTable) : Inv (start table : State V) where
  plain _ _ hr := by cases hr
  unborn _ _ := rfl
  loops _ hx := by cases hx

/-- What a step may do to the results: nothing; add one to an answer; or raise the status of the result
    that a reply is about. -/
inductive Change (s t : State V) (l : Label V) : Prop where
  | none (h : t.results = s.results)
  | add (a : ℕ) (ha : a < s.answers.next)
      (h : t.results = Function.update s.results a (s.results a ++ [.new .plain]))
  | set (identity json : String) (a i : ℕ) (st : Status) (r : Result V) (hl : l = .data identity json)
      (hreply : reply P s identity json = some (a, i, st)) (hr : (s.results a)[i]? = some r)
      (hlt : r.status.raw < st.raw)
      (h : t.results = Function.update s.results a ((s.results a).set i { r with status := st }))

section
variable {P} {s t : State V}

theorem sweep_plain (hplain : ∀ a, ∀ r ∈ s.results a, r.payload = .plain) (now : ℤ) :
    ∀ items : List (DeviceID × SettingValueItem V), sweep now s items =
      (if ∀ item ∈ items, s.results item.2.answer = [] then .returned
        else .raised .nullPointer, s) := by
  intro items
  induction items with
  | nil => simp [sweep]
  | cons item items ih =>
    rw [sweep, checkItem]
    cases hres : (s.answers.heap item.2.answer).results with
    | nil =>
      simp only [List.getElem?_nil, Option.map_none, ih, List.forall_mem_cons, State.results, hres,
        true_and]
      congr
    | cons r rs =>
      have hr : r.payload = .plain := hplain item.2.answer r (by
        rw [State.results, hres]; exact List.mem_cons_self)
      simp only [List.getElem?_cons_zero, Option.map_some, hr]
      rw [if_neg]
      intro hall
      have hnil := hall item List.mem_cons_self
      rw [State.results, hres] at hnil
      cases hnil

/-- A tick finds no result that it could give a set status. -/
theorem check_plain (hI : Inv s) (now : ℤ) : checkSettingTable now s =
    (if ∀ item ∈ s.settingTable, s.results item.2.answer = [] then .returned
      else .raised .nullPointer, s) :=
  sweep_plain hI.plain now s.settingTable

theorem handed_results (hI : Inv s) (cmd : Command V) (b : ℕ) :
    ((handed s cmd).heap b).results = s.results b := by
  simp only [handed, runCommands, addCommand, modify_heap, newAnswer_heap]
  by_cases hb : b = s.answers.next
  · subst hb
    simp only [if_true, Answer.fresh]
    exact (hI.unborn _ le_rfl).symm
  · simp only [if_neg hb, State.results]

theorem begin_answers (cmd : Command V) (now : ℤ) : (begin P s cmd now).answers = handed s cmd := by
  unfold begin
  split <;> rfl

theorem begin_loops (cmd : Command V) (now : ℤ) : (begin P s cmd now).loops =
    s.loops ++ [(cmd, s.answers.next, recipients s.table cmd)] := by
  unfold begin
  split <;> rfl

/-- The turn of a loop: a message with a fresh id to the next manager, and a result under this id. -/
theorem next_eq {k : ℕ} {id : GlobalID} (h : next P s k id = some t) :
    ∃ cmd a manager managers msg, s.loops[k]? = some (cmd, a, manager :: managers) ∧
      s.cmdTable id = none ∧ ZMQMessage.fromCommand P.base id cmd = .ok msg ∧
      t = { s.emit .data [manager.toString, P.text msg] with
        answers := s.answers.addResult a .plain
        cmdTable := insertNew s.cmdTable id ⟨a, cmd, (s.answers.heap a).results.length⟩
        loops := s.loops.set k (cmd, a, managers) } := by
  unfold next at h
  split at h
  · rename_i cmd a manager managers hk hid
    split at h <;> cases h
    rename_i msg hmsg
    exact ⟨cmd, a, manager, managers, msg, hk, hid, hmsg, rfl⟩
  · cases h

/-- The turn of a loop adds a result to the answer of its command. -/
theorem next_cases {k : ℕ} {id : GlobalID} (h : next P s k id = some t) :
    ∃ cmd a manager managers, s.loops[k]? = some (cmd, a, manager :: managers) ∧ s.cmdTable id = none ∧
      t.answers = s.answers.addResult a .plain ∧ t.loops = s.loops.set k (cmd, a, managers) := by
  obtain ⟨cmd, a, manager, managers, msg, hk, hid, -, rfl⟩ := next_eq h
  exact ⟨cmd, a, manager, managers, hk, hid, rfl, rfl⟩

/-- What each step is, with its guard. -/
theorem step_cases {l : Label V} (h : (system P).step s l = some t) :
    s.undefined = false ∧ match l with
      | .hello json => s.running = true ∧ t = ended (helloServerReceive P s json)
      | .data identity json => s.running = true ∧ t = ended (dataServerReceive P s identity json)
      | .begin cmd now => s.clock ≤ now ∧ t = begin P s cmd now
      | .next k id => next P s k id = some t
      | .tick now => s.clock ≤ now ∧ t = tick now s := by
  have hu : s.undefined = false := by
    by_contra hu
    simp only [system, if_pos (eq_true_of_ne_false hu)] at h
    cases h
  refine ⟨hu, ?_⟩
  cases l with
  | next k id => simpa only [system, hu, Bool.false_eq_true, if_false] using h
  | _ =>
    simp only [system, hu, Bool.false_eq_true, if_false, Option.ite_none_right_eq_some,
      Option.some.injEq] at h
    exact ⟨h.1, h.2.symm⟩

/-- A hello request changes the table, and the thread may end. -/
theorem hello_eq (json : String) : ∃ table fs b, ended (helloServerReceive P s json) =
    { s with table := table, frames := fs, running := b } := by
  obtain ⟨b, hb⟩ := ended_eq (helloServerReceive P s json)
  exact ⟨_, _, b, hb⟩

/-- A tick changes the time alone. -/
theorem tick_eq (hI : Inv s) (now : ℤ) :
    tick now s = { s with clock := now, undefined := false } := by
  rw [tick, check_plain hI]
  split_ifs <;> rfl

theorem begin_cmdTable (cmd : Command V) (now : ℤ) : (begin P s cmd now).cmdTable = s.cmdTable := by
  unfold begin
  split <;> rfl

/-- Only the turn of a loop files an id. -/
theorem step_cmdTable (hI : Inv s) {l : Label V} (h : (system P).step s l = some t) :
    (∃ k id e, l = .next k id ∧ s.cmdTable id = none ∧
      t.cmdTable = Function.update s.cmdTable id (some e)) ∨
    ((∀ k id, l ≠ .next k id) ∧ t.cmdTable = s.cmdTable) := by
  obtain ⟨-, h⟩ := step_cases h
  cases l with
  | hello json =>
    obtain ⟨-, rfl⟩ := h
    obtain ⟨table, fs, b, heq⟩ := hello_eq (P := P) (s := s) json
    exact Or.inr ⟨nofun, by rw [heq]⟩
  | data identity json =>
    obtain ⟨-, rfl⟩ := h
    obtain ⟨_, _, _, _, _, _, _, _, _, heq⟩ := data_frame (P := P) s identity json
    exact Or.inr ⟨nofun, by rw [heq]⟩
  | begin cmd now =>
    obtain ⟨-, rfl⟩ := h
    exact Or.inr ⟨nofun, begin_cmdTable cmd now⟩
  | next k id =>
    obtain ⟨cmd, a, manager, managers, msg, -, hid, -, rfl⟩ := next_eq h
    exact Or.inl ⟨k, id, _, rfl, hid, insertNew_of_none _ hid⟩
  | tick now =>
    obtain ⟨-, rfl⟩ := h
    exact Or.inr ⟨nofun, by rw [tick_eq hI]⟩

/-- A reply with a higher status than its result has sets it. -/
theorem results_of_reply {identity json : String} {a i : ℕ} {st : Status} {r : Result V}
    (hreply : reply P s identity json = some (a, i, st)) (hr : (s.results a)[i]? = some r)
    (hlt : r.status.raw < st.raw) : (ended (dataServerReceive P s identity json)).results =
      Function.update s.results a ((s.results a).set i { r with status := st }) := by
  have ha := data_answers (P := P) s identity json
  simp only [hreply] at ha
  rcases s.answers.afterSetStatus_cases a i st with ⟨-, hle⟩ | ⟨r', hr', -, hq⟩
  · exact absurd (hle r hr) (not_le.mpr hlt)
  · obtain rfl := Option.some.inj (hr.symm.trans hr')
    funext b
    rw [State.results, ha, hq, setStatus_heap, Function.update_apply]
    split_ifs <;> rfl

theorem step_results (hI : Inv s) {l : Label V} (h : (system P).step s l = some t) :
    Change P s t l := by
  obtain ⟨-, h⟩ := step_cases h
  cases l with
  | hello json =>
    obtain ⟨-, rfl⟩ := h
    obtain ⟨table, fs, b, heq⟩ := hello_eq (P := P) (s := s) json
    exact .none (by rw [heq]; rfl)
  | data identity json =>
    obtain ⟨-, rfl⟩ := h
    have ha := data_answers (P := P) s identity json
    cases hreply : reply P s identity json with
    | none =>
      rw [hreply] at ha
      exact .none (by funext b; rw [State.results, ha]; rfl)
    | some x =>
      obtain ⟨a, i, st⟩ := x
      rw [hreply] at ha
      rcases s.answers.afterSetStatus_cases a i st with ⟨hq, -⟩ | ⟨r, hr, hlt, -⟩
      · exact .none (by funext b; rw [State.results, ha]; simp only [hq, State.results])
      · exact .set identity json a i st r rfl hreply hr hlt (results_of_reply hreply hr hlt)
  | begin cmd now =>
    obtain ⟨-, rfl⟩ := h
    exact .none (by funext b; rw [State.results, begin_answers, handed_results hI])
  | next k id =>
    obtain ⟨cmd, a, manager, managers, hk, -, ha, -⟩ := next_cases h
    refine .add a (hI.loops _ (List.mem_of_getElem? hk)) ?_
    funext b
    rw [State.results, ha, addResult_heap, Function.update_apply]
    split_ifs <;> rfl
  | tick now =>
    obtain ⟨-, rfl⟩ := h
    exact .none (by rw [tick_eq hI]; rfl)

theorem handed_next (cmd : Command V) : (handed s cmd).next = s.answers.next + 1 := rfl

/-- Answers are only ever made, and a task works on one that exists. -/
theorem step_loops (hI : Inv s) {l : Label V} (h : (system P).step s l = some t) :
    s.answers.next ≤ t.answers.next ∧ ∀ x ∈ t.loops, x.2.1 < t.answers.next := by
  obtain ⟨-, h⟩ := step_cases h
  cases l with
  | hello json =>
    obtain ⟨-, rfl⟩ := h
    obtain ⟨table, fs, b, heq⟩ := hello_eq (P := P) (s := s) json
    rw [heq]
    exact ⟨le_rfl, hI.loops⟩
  | data identity json =>
    obtain ⟨-, rfl⟩ := h
    have hnext : (ended (dataServerReceive P s identity json)).answers.next = s.answers.next := by
      rw [data_answers]
      cases reply P s identity json with
      | none => rfl
      | some x => exact (s.answers.afterSetStatus_frame x.1 x.2.1 x.2.2).2
    rw [hnext, data_loops]
    exact ⟨le_rfl, hI.loops⟩
  | begin cmd now =>
    obtain ⟨-, rfl⟩ := h
    rw [begin_answers, begin_loops, handed_next]
    refine ⟨Nat.le_succ _, fun x hx => ?_⟩
    rcases List.mem_append.mp hx with hx | hx
    · exact Nat.lt_succ_of_lt (hI.loops x hx)
    · rw [List.mem_singleton.mp hx]
      exact Nat.lt_succ_self _
  | next k id =>
    obtain ⟨cmd, a, manager, managers, hk, -, ha, hloops⟩ := next_cases h
    rw [ha, hloops]
    refine ⟨le_rfl, fun x hx => ?_⟩
    rcases List.mem_or_eq_of_mem_set hx with hx | rfl
    · exact hI.loops x hx
    · exact hI.loops (cmd, a, manager :: managers) (List.mem_of_getElem? hk)
  | tick now =>
    obtain ⟨-, rfl⟩ := h
    rw [tick_eq hI]
    exact ⟨le_rfl, hI.loops⟩

/-- A property of results that a new result has and a change of status keeps is kept by every step. -/
theorem Change.forall_results {l : Label V} (h : Change P s t l) {C : Result V → Prop}
    (hnew : C (.new .plain)) (hset : ∀ identity json a i st r, l = .data identity json →
      reply P s identity json = some (a, i, st) → (s.results a)[i]? = some r →
        r.status.raw < st.raw → C { r with status := st })
    (hs : ∀ a, ∀ r ∈ s.results a, C r) : ∀ a, ∀ r ∈ t.results a, C r := by
  intro b r hr
  cases h with
  | none h => exact hs b r (h ▸ hr)
  | add a ha h =>
    rw [h, Function.update_apply] at hr
    split_ifs at hr
    · rcases List.mem_append.mp hr with hr | hr
      · exact hs a r hr
      · rw [List.mem_singleton.mp hr]; exact hnew
    · exact hs b r hr
  | set identity json a i st r' hl hreply hr' hlt h =>
    rw [h, Function.update_apply] at hr
    split_ifs at hr
    · rcases List.mem_or_eq_of_mem_set hr with hr | rfl
      · exact hs a r hr
      · exact hset identity json a i st r' hl hreply hr' hlt
    · exact hs b r hr

theorem inv_step (hI : Inv s) {l : Label V} (h : (system P).step s l = some t) : Inv t := by
  obtain ⟨hnext, hloops⟩ := step_loops hI h
  have hchange := step_results hI h
  refine ⟨?_, fun b hb => ?_, hloops⟩
  · exact hchange.forall_results (C := fun r => r.payload = .plain) rfl
      (fun _ _ a _ _ r _ _ hr _ => hI.plain a r (List.mem_of_getElem? hr)) hI.plain
  · have hnil := hI.unborn b (hnext.trans hb)
    cases hchange with
    | none h => rw [h, hnil]
    | add a ha h =>
      rw [h, Function.update_of_ne (by omega), hnil]
    | set identity json a i st r hl hreply hr hlt h =>
      have hne : b ≠ a := by
        rintro rfl
        rw [hnil, List.getElem?_nil] at hr
        cases hr
      rw [h, Function.update_of_ne hne, hnil]

theorem run_broker {table : ZMQDeviceManagerTable} {ls : List (Label V)}
    (h : (system P).run (start table) ls = some s) : Inv s :=
  (system P).run_inv (fun _ _ _ hI hl => inv_step hI hl) (inv_start table) h

end

end Broker
end BeeeOn
