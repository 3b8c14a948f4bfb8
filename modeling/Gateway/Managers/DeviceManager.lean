import Gateway.Schemes.Lts
import Gateway.Zmq.Message
import Gateway.Managers.Listening

/-! @src core/DeviceManager.h, jablotron/JablotronDeviceManager.cpp, z-wave/ZWaveDeviceManager.cpp,
    zmq/ZMQClient.cpp | name:Device managers | family:request-reply

    A device manager asks the broker for its device list and for last values, and acts on the replies.
    A request is sent and then stored in `m_table` under its answer; the client thread receives a
    reply, looks its id up in `m_table` and decodes it into a new result of the answer found;
    `checkQueue` takes the dirty answers and acts on their first result. Requests come from the
    manager's own thread and from the timer that ends a listening period, so they may overlap with
    each other, with the client thread and with `checkQueue`. The Jablotron and the Z-Wave manager
    share this code; they differ in how they hand a last value to the device. -/

namespace BeeeOn
open Schemes
variable {V W : Type}

namespace DeviceManager

/-- An item of `m_table`: the answer with its `DeviceManager::ResultData`. -/
structure Entry (V : Type) where
  answer : ℕ
  id : GlobalID
  cmd : Command V
  deriving DecidableEq, Repr

/-- The client thread: in the loop over `m_table` with the items `todo` ahead, or decoding the message
    into result `i` of answer `a` with the calls `ops` ahead. An exception ends the thread. -/
inductive Client (V : Type) where
  | idle
  | looking (m : ZMQMessage) (todo : List (Entry V))
  | decoding (m : ZMQMessage) (todo : List (Entry V)) (a i : ℕ) (ops : Decoding V)
  | raised

/-- The manager thread in `checkQueue`: in the scan of `listDirty`, in the loop over the dirty answers,
    or between the two reads of a last value of the device `d`. -/
inductive Check where
  | idle
  | scanning (todo taken : List ℕ)
  | acting (as : List ℕ)
  | reading (d : DeviceID) (a : ℕ) (as : List ℕ)
  | raised

/-- `table` is `m_table`, `devices` the set of paired devices, `switched` the values handed to devices
    (`none` for one that has never been set), `out` the messages sent, `window` the listening. `sending`
    holds the requests that are sent and not yet stored, by thread. The others are histories: all
    requests, the ids of all replies, and the answers that `checkQueue` has acted on with what it has
    read there. -/
structure State (V W : Type) where
  queue : AnswerQueue V
  table : List (Entry V)
  sending : ℕ → Option (Entry V)
  client : Client V
  pc : Check
  devices : Finset DeviceID
  switched : List (DeviceID × Option W)
  out : List ZMQMessage
  sent : List (Entry V)
  received : List GlobalID
  acted : List (ℕ × Payload V)
  window : Window

inductive Label where
  | getDeviceList (th : ℕ) (id : GlobalID) (p : DevicePrefix)
  | getLastValue (th : ℕ) (id : GlobalID) (d : DeviceID) (m : ModuleID)
  | insert (th : ℕ)
  | receive (m : ZMQMessage)
  | handle
  | expire
  | begin | visit | endScan | act | read | leave

/-- An id that `GlobalID::random` may give: no other request and no reply has it. -/
def Fresh (s : State V W) (id : GlobalID) : Prop :=
  id ∉ s.sent.map Entry.id ∧ id ∉ s.received

instance (s : State V W) (id : GlobalID) : Decidable (Fresh s id) :=
  inferInstanceAs (Decidable (_ ∧ _))

variable (B : Base V) (conv : V → W)

/-- A request of thread `th` up to the send; the message gets a fresh id. -/
def request (s : State V W) (th : ℕ) (id : GlobalID) (cmd : Command V) : Option (State V W) :=
  match s.sending th, ZMQMessage.fromCommand B id cmd with
  | none, .ok msg =>
    if Fresh s id then some
      { s with
        queue := s.queue.newAnswer
        sending := Function.update s.sending th (some ⟨s.queue.next, id, cmd⟩)
        out := s.out ++ [msg.setID B id]
        sent := s.sent ++ [⟨s.queue.next, id, cmd⟩] }
    else none
  | _, _ => none

/-- The end of a request: `m_table.insert`. -/
def insert (s : State V W) (th : ℕ) : Option (State V W) :=
  (s.sending th).map fun e =>
    { s with table := s.table ++ [e], sending := Function.update s.sending th none }

/-! ### The client thread -/

/-- The messages whose handler looks the id up in `m_table`. -/
def isReply (m : ZMQMessage) : Bool :=
  match m.type B with
  | .ok .deviceListResult | .ok .deviceLastValueResult => true
  | _ => false

/-- The result that the handler of a reply creates, as its constructor leaves it. -/
def newResult (m : ZMQMessage) : Payload V :=
  match m.type B with
  | .ok .deviceLastValueResult => .lastValue none
  | _ => .deviceList []

/-- The decoder that the handler of a reply runs. -/
def decoder (m : ZMQMessage) : Decoding V :=
  match m.type B with
  | .ok .deviceLastValueResult => m.toServerLastValueResult B
  | _ => m.toServerDeviceListResult B

/-- The id of a reply, if it has one. -/
def replyID (m : ZMQMessage) : Option GlobalID :=
  if isReply B m then (m.id B).toOption else none

/-- `doListenCommand`: an exception of the timer ends the thread. -/
def listenCommand (s : State V W) (duration : ℤ) : State V W :=
  let window := s.window.doListenCommand (0 ≤ ·) duration
  { s with
    window := window
    client := if window.raised = s.window.raised then s.client else .raised }

/-- `onEvent`. The handler of a reply begins its loop over `m_table`; the other commands are handled at
    once. -/
def onEvent (s : State V W) (m : ZMQMessage) : State V W :=
  if isReply B m then
    { s with client := .looking m s.table, received := s.received ++ (replyID B m).toList }
  else match m.type B with
  | .ok .deviceUnpairCmd => match m.toDeviceUnpairCommand B with
    | .ok (.deviceUnpair d) => { s with devices := s.devices.erase d }
    | _ => { s with client := .raised }
  | .ok .setValuesCmd => match m.toDeviceSetValueCommand B with
    | .ok (.deviceSetValue d _ v _) => { s with switched := s.switched ++ [(d, some (conv v))] }
    | _ => { s with client := .raised }
  | .ok .listenCmd => match m.toGatewayListenCommand B with
    | .ok (.gatewayListen duration) => listenCommand s duration
    | _ => { s with client := .raised }
  | _ => s

/-- `dataServerReceive` on a message with a known type. -/
def receive (s : State V W) (m : ZMQMessage) : Option (State V W) :=
  match s.client, m.type B with
  | .idle, .ok _ => some (onEvent B conv s m)
  | _, _ => none

/-- One call of the decoder on result `i` of answer `a`. -/
def call (q : AnswerQueue V) (a i : ℕ) : Except Exn (ResultOp V) → Except Exn (AnswerQueue V)
  | .ok (.setStatus s) => q.setStatus a i s
  | .ok (.setPayload p) => .ok (q.setPayload a i p)
  | .error e => .error e

/-- The next step of `doDeviceListResult` or `doDeviceLastValueResult`. -/
def handle (s : State V W) : Option (State V W) :=
  match s.client with
  | .idle | .raised => none
  | .looking _ [] => some { s with client := .idle }
  | .looking m (e :: todo) => match m.id B with
    | .error _ => some { s with client := .raised }
    | .ok id =>
      if e.id = id then some
        { s with
          queue := s.queue.addResult e.answer (newResult B m)
          client := .decoding m todo e.answer (s.queue.heap e.answer).results.length (decoder B m) }
      else some { s with client := .looking m todo }
  | .decoding m todo _ _ [] => some { s with client := .looking m todo }
  | .decoding m todo a i (op :: ops) => match call s.queue a i op with
    | .ok q => some { s with queue := q, client := .decoding m todo a i ops }
    | .error _ => some { s with client := .raised }

/-! ### checkQueue -/

/-- `answer->at(0)`. -/
def first (q : AnswerQueue V) (a : ℕ) : Option (Result V) := (q.heap a).results[0]?

/-- The body of the loop of `checkQueue` on the answer `a`, up to the check of the status. An answer
    that is not in `m_table` and a last value that is not a success both leave the loop; a device list
    clears the set before it looks at the result. -/
def act (s : State V W) (a : ℕ) (as : List ℕ) : State V W :=
  match s.table.find? (·.answer = a) with
  | none => { s with pc := .idle }
  | some e => match e.cmd, first s.queue a with
    | .serverDeviceList _, some ⟨_, .deviceList devices⟩ =>
      { s with
        devices := devices.toFinset
        pc := .acting as
        acted := s.acted ++ [(a, .deviceList devices)] }
    | .serverLastValue d _, some ⟨status, .lastValue _⟩ =>
      { s with pc := if status = .success then .reading d a as else .idle }
    | .serverDeviceList _, _ => { s with devices := ∅, pc := .raised }
    | _, _ => { s with pc := .raised }

/-- The rest of the body for a last value: `setSwitch` with the value that is read now. -/
def readValue (s : State V W) (d : DeviceID) (a : ℕ) (as : List ℕ) : State V W :=
  match first s.queue a with
  | some ⟨_, .lastValue v⟩ =>
    { s with
      switched := s.switched ++ [(d, v.map conv)]
      pc := .acting as
      acted := s.acted ++ [(a, .lastValue v)] }
  | _ => { s with pc := .raised }

/-- A step of `checkQueue`. -/
def check (s : State V W) : Label → Option (State V W)
  | .begin => match s.pc with
    | .idle => some { s with pc := .scanning s.queue.answerList [] }
    | _ => none
  | .visit => match s.pc with
    | .scanning (a :: todo) taken => some
        { s with
          queue := (s.queue.visit a).2
          pc := .scanning todo (if (s.queue.heap a).dirty then taken ++ [a] else taken) }
    | _ => none
  | .endScan => match s.pc with
    | .scanning [] taken => some { s with pc := .acting taken }
    | _ => none
  | .act => match s.pc with
    | .acting (a :: as) => some (act s a as)
    | _ => none
  | .read => match s.pc with
    | .reading d a as => some (readValue conv s d a as)
    | _ => none
  | .leave => match s.pc with
    | .acting [] => some { s with pc := .idle }
    | _ => none
  | _ => none

/-- A device manager: its requests, its client thread and `checkQueue`. -/
def system : Lts (State V W) Label where
  step s
    | .getDeviceList th id p =>
      (request B s th id (.serverDeviceList p)).map fun t => { t with devices := ∅ }
    | .getLastValue th id d m => request B s th id (.serverLastValue d m)
    | .insert th => insert s th
    | .receive m => receive B conv s m
    | .handle => handle B s
    | .expire => s.window.stopListen.map fun w => { s with window := w }
    | l => check conv s l

def init : State V W := ⟨.empty, [], fun _ => none, .idle, .idle, ∅, [], [], [], [], [], .closed⟩

/-! ### What one step can do -/

variable {B conv}

theorem replyID_eq_some {m : ZMQMessage} {id : GlobalID} (h : replyID B m = some id) :
    isReply B m = true ∧ m.id B = .ok id := by
  unfold replyID at h
  split_ifs at h with hr
  refine ⟨hr, ?_⟩
  cases hm : m.id B with
  | error err => rw [hm] at h; cases h
  | ok id' => rw [hm] at h; cases h; rfl

/-- A request that is sent: its thread was free, its id is fresh, its answer is new. -/
theorem request_eq {s t : State V W} {th : ℕ} {id : GlobalID} {cmd : Command V}
    (h : request B s th id cmd = some t) : s.sending th = none ∧ Fresh s id ∧ ∃ out, t =
      { s with
        queue := s.queue.newAnswer
        sending := Function.update s.sending th (some ⟨s.queue.next, id, cmd⟩)
        out := out
        sent := s.sent ++ [⟨s.queue.next, id, cmd⟩] } := by
  unfold request at h
  split at h
  · split_ifs at h with hf
    exact ⟨‹_›, hf, _, (Option.some.inj h).symm⟩
  · cases h

theorem insert_eq {s t : State V W} {th : ℕ} (h : insert s th = some t) : ∃ e,
    s.sending th = some e ∧
      t = { s with table := s.table ++ [e], sending := Function.update s.sending th none } := by
  obtain ⟨e, he, rfl⟩ := Option.map_eq_some_iff.mp h
  exact ⟨e, he, rfl⟩

theorem setStatus_ok {q q' : AnswerQueue V} {a i : ℕ} {st : Status} (h : q.setStatus a i st = .ok q') :
    q.afterSetStatus a i st = q' := by
  rw [AnswerQueue.afterSetStatus, h]

/-- The calls of a decoder neither add results nor answers. -/
theorem call_frame {q q' : AnswerQueue V} {a i : ℕ} {op : Except Exn (ResultOp V)}
    (h : call q a i op = .ok q') : q'.answerList = q.answerList ∧ q'.next = q.next ∧
      ∀ b, (q'.heap b).results.length = (q.heap b).results.length := by
  match op, h with
  | .ok (.setStatus st), h =>
    rw [← setStatus_ok h]
    obtain ⟨hlist, hnext⟩ := q.afterSetStatus_frame a i st
    exact ⟨hlist, hnext, fun b => (q.afterSetStatus_results a i b st).2.1⟩
  | .ok (.setPayload p), h =>
    obtain rfl := Except.ok.inj h
    unfold AnswerQueue.setPayload
    split
    · exact ⟨rfl, rfl, fun _ => rfl⟩
    · refine ⟨rfl, rfl, fun b => ?_⟩
      rw [AnswerQueue.modify_heap]
      split_ifs with hb
      · rw [hb, Answer.setResult, List.length_set]
      · rfl

/-- What the client thread leaves alone when it handles a reply. -/
structure Handles (s t : State V W) : Prop where
  table : t.table = s.table
  sending : t.sending = s.sending
  sent : t.sent = s.sent
  received : t.received = s.received
  pc : t.pc = s.pc
  answerList : t.queue.answerList = s.queue.answerList
  next : t.queue.next = s.queue.next
  devices : t.devices = s.devices
  switched : t.switched = s.switched
  acted : t.acted = s.acted
  window : t.window = s.window

/-- What `checkQueue` leaves alone. -/
structure Checks (s t : State V W) : Prop where
  table : t.table = s.table
  sending : t.sending = s.sending
  sent : t.sent = s.sent
  received : t.received = s.received
  client : t.client = s.client
  answerList : t.queue.answerList = s.queue.answerList
  next : t.queue.next = s.queue.next
  results : ∀ b, (t.queue.heap b).results = (s.queue.heap b).results
  window : t.window = s.window

/-- The steps of the client thread in its loop, each with where it starts and what it leaves. -/
inductive Handled (B : Base V) (s : State V W) : State V W → Prop
  | done (m) (hc : s.client = .looking m []) : Handled B s { s with client := .idle }
  | noID (m x todo e) (hc : s.client = .looking m (x :: todo)) (hm : m.id B = .error e) :
    Handled B s { s with client := .raised }
  | create (m x todo) (hc : s.client = .looking m (x :: todo)) (hm : m.id B = .ok x.id) :
    Handled B s
      { s with
        queue := s.queue.addResult x.answer (newResult B m)
        client := .decoding m todo x.answer (s.queue.heap x.answer).results.length (decoder B m) }
  | pass (m x todo id) (hc : s.client = .looking m (x :: todo)) (hm : m.id B = .ok id)
    (hne : x.id ≠ id) : Handled B s { s with client := .looking m todo }
  | decoded (m todo a i) (hc : s.client = .decoding m todo a i []) :
    Handled B s { s with client := .looking m todo }
  | called (m todo a i op ops q) (hc : s.client = .decoding m todo a i (op :: ops))
    (hq : call s.queue a i op = .ok q) :
    Handled B s { s with queue := q, client := .decoding m todo a i ops }
  | failed (m todo a i op ops e) (hc : s.client = .decoding m todo a i (op :: ops))
    (hq : call s.queue a i op = .error e) : Handled B s { s with client := .raised }

theorem handled {s t : State V W} (h : handle B s = some t) : Handled B s t := by
  unfold handle at h
  split at h
  · cases h
  · cases h
  · rename_i m hc
    cases h
    exact .done m hc
  · rename_i m x todo hc
    split at h
    · rename_i e hm
      cases h
      exact .noID m x todo e hc hm
    · rename_i id hm
      split_ifs at h with hid
      · cases h
        exact .create m x todo hc (hid ▸ hm)
      · cases h
        exact .pass m x todo id hc hm hid
  · rename_i m todo a i hc
    cases h
    exact .decoded m todo a i hc
  · rename_i m todo a i op ops hc
    split at h
    · rename_i q hq
      cases h
      exact .called m todo a i op ops q hc hq
    · rename_i e hq
      cases h
      exact .failed m todo a i op ops e hc hq

theorem handle_frame {s t : State V W} (h : handle B s = some t) : Handles s t := by
  cases handled h with
  | called m todo a i op ops q hc hq =>
    obtain ⟨hlist, hnext, -⟩ := call_frame hq
    exact ⟨rfl, rfl, rfl, rfl, rfl, hlist, hnext, rfl, rfl, rfl, rfl⟩
  | _ => exact ⟨rfl, rfl, rfl, rfl, rfl, rfl, rfl, rfl, rfl, rfl, rfl⟩

theorem act_frame (s : State V W) (a : ℕ) (as : List ℕ) : Checks s (act s a as) := by
  unfold act
  split
  · exact ⟨rfl, rfl, rfl, rfl, rfl, rfl, rfl, fun _ => rfl, rfl⟩
  · split <;> exact ⟨rfl, rfl, rfl, rfl, rfl, rfl, rfl, fun _ => rfl, rfl⟩

theorem visit_results (q : AnswerQueue V) (a b : ℕ) :
    ((q.visit a).2.heap b).results = (q.heap b).results := by
  rw [AnswerQueue.visit_heap]
  split_ifs with h
  · rw [h]; rfl
  · rfl

theorem readValue_frame (s : State V W) (d : DeviceID) (a : ℕ) (as : List ℕ) :
    Checks s (readValue conv s d a as) := by
  unfold readValue
  split <;> exact ⟨rfl, rfl, rfl, rfl, rfl, rfl, rfl, fun _ => rfl, rfl⟩

/-- The steps of `checkQueue`, each with where it starts and what it leaves. -/
inductive Checked (conv : V → W) (s : State V W) : Label → State V W → Prop
  | begin (hpc : s.pc = .idle) :
    Checked conv s .begin { s with pc := .scanning s.queue.answerList [] }
  | visit (a todo taken) (hpc : s.pc = .scanning (a :: todo) taken) :
    Checked conv s .visit
      { s with
        queue := (s.queue.visit a).2
        pc := .scanning todo (if (s.queue.heap a).dirty then taken ++ [a] else taken) }
  | endScan (taken) (hpc : s.pc = .scanning [] taken) :
    Checked conv s .endScan { s with pc := .acting taken }
  | act (a as) (hpc : s.pc = .acting (a :: as)) : Checked conv s .act (act s a as)
  | read (d a as) (hpc : s.pc = .reading d a as) : Checked conv s .read (readValue conv s d a as)
  | leave (hpc : s.pc = .acting []) : Checked conv s .leave { s with pc := .idle }

theorem checked {s t : State V W} {l : Label} (h : check conv s l = some t) : Checked conv s l t := by
  unfold check at h
  split at h
  case h_7 => cases h
  all_goals
    split at h
    · cases h; constructor; assumption
    · cases h

theorem check_frame {s t : State V W} {l : Label} (h : check conv s l = some t) : Checks s t := by
  cases checked h with
  | begin | endScan | leave => exact ⟨rfl, rfl, rfl, rfl, rfl, rfl, rfl, fun _ => rfl, rfl⟩
  | visit a todo taken =>
    obtain ⟨hlist, hnext, -⟩ := s.queue.visit_frame a
    exact ⟨rfl, rfl, rfl, rfl, rfl, hlist, hnext, visit_results s.queue a, rfl⟩
  | act a as => exact act_frame s a as
  | read d a as => exact readValue_frame s d a as

/-- The items that the loop of the client thread has ahead. -/
def Client.todo : Client V → List (Entry V)
  | .looking _ todo | .decoding _ todo _ _ _ => todo
  | .idle | .raised => []

/-- The loop only gets shorter. -/
theorem handle_todo {s t : State V W} (h : handle B s = some t) :
    ∀ e ∈ t.client.todo, e ∈ s.client.todo := by
  intro e he
  cases handled h with
  | done | noID | failed => cases he
  | create m x todo hc hm => rw [hc]; exact List.mem_cons_of_mem _ he
  | pass m x todo id hc hm hne => rw [hc]; exact List.mem_cons_of_mem _ he
  | decoded m todo a i hc => rw [hc]; exact he
  | called m todo a i op ops q hc hq => rw [hc]; exact he

/-- A message that is no reply may change the devices, or end the thread. -/
theorem receive_eq {s t : State V W} {m : ZMQMessage} (h : receive B conv s m = some t) :
    s.client = .idle ∧
      (isReply B m = true ∧ t =
          { s with client := .looking m s.table, received := s.received ++ (replyID B m).toList } ∨
        isReply B m = false ∧ (t.client = .idle ∨ t.client = .raised) ∧
          t = { s with
            client := t.client
            devices := t.devices
            switched := t.switched
            window := t.window }) := by
  unfold receive at h
  split at h
  · rename_i hidle _
    cases h
    refine ⟨hidle, ?_⟩
    unfold onEvent
    split_ifs with hr
    · exact Or.inl ⟨hr, rfl⟩
    · refine Or.inr ⟨Bool.not_eq_true _ ▸ hr, ?_⟩
      split
      · split
        · exact ⟨Or.inl hidle, rfl⟩
        · exact ⟨Or.inr rfl, rfl⟩
      · split
        · exact ⟨Or.inl hidle, rfl⟩
        · exact ⟨Or.inr rfl, rfl⟩
      · split
        · refine ⟨?_, rfl⟩
          unfold listenCommand
          dsimp only
          split_ifs
          · exact Or.inl hidle
          · exact Or.inr rfl
        · exact ⟨Or.inr rfl, rfl⟩
      · exact ⟨Or.inl hidle, rfl⟩
  · cases h

/-! ### The tables -/

/-- Every request has an id and an answer of its own; it is stored or its thread is about to store it,
    and not both; and the client thread looks through requests only. -/
structure Inv (s : State V W) : Prop where
  ids : (s.sent.map Entry.id).Nodup
  answers : (s.sent.map Entry.answer).Nodup
  queued : ∀ e ∈ s.sent, e.answer ∈ s.queue.answerList ∧ e.answer < s.queue.next
  tableIds : (s.table.map Entry.id).Nodup
  stored : ∀ e ∈ s.table, e ∈ s.sent
  flying : ∀ th e, s.sending th = some e → e ∈ s.sent ∧ e ∉ s.table
  apart : ∀ th th' e, s.sending th = some e → s.sending th' = some e → th = th'
  covered : ∀ e ∈ s.sent, e ∈ s.table ∨ ∃ th, s.sending th = some e
  todo : ∀ e ∈ s.client.todo, e ∈ s.sent

theorem inv_init : Inv (init : State V W) :=
  ⟨List.nodup_nil, List.nodup_nil, nofun, List.nodup_nil, nofun, nofun, nofun, nofun, nofun⟩

/-- The id of a request determines it. -/
theorem Inv.eq_of_id {s : State V W} (hI : Inv s) {e e' : Entry V} (he : e ∈ s.sent)
    (he' : e' ∈ s.sent) (h : e.id = e'.id) : e = e' :=
  List.inj_on_of_nodup_map hI.ids he he' h

theorem Inv.eq_of_answer {s : State V W} (hI : Inv s) {e e' : Entry V} (he : e ∈ s.sent)
    (he' : e' ∈ s.sent) (h : e.answer = e'.answer) : e = e' :=
  List.inj_on_of_nodup_map hI.answers he he' h

theorem Inv.id_notMem_table {s : State V W} (hI : Inv s) {th : ℕ} {e : Entry V}
    (h : s.sending th = some e) : e.id ∉ s.table.map Entry.id := by
  intro hmem
  obtain ⟨e', he', hid⟩ := List.mem_map.mp hmem
  obtain rfl := hI.eq_of_id (hI.stored e' he') (hI.flying th e h).1 hid
  exact (hI.flying th e' h).2 he'

theorem Inv.of_frame {s t : State V W} (hI : Inv s) (htable : t.table = s.table)
    (hsending : t.sending = s.sending) (hsent : t.sent = s.sent)
    (hlist : t.queue.answerList = s.queue.answerList) (hnext : t.queue.next = s.queue.next)
    (htodo : ∀ e ∈ t.client.todo, e ∈ s.sent) : Inv t where
  ids := hsent ▸ hI.ids
  answers := hsent ▸ hI.answers
  queued := by rw [hsent, hlist, hnext]; exact hI.queued
  tableIds := htable ▸ hI.tableIds
  stored := by rw [htable, hsent]; exact hI.stored
  flying := by rw [hsending, hsent, htable]; exact hI.flying
  apart := hsending ▸ hI.apart
  covered := by rw [hsent, htable, hsending]; exact hI.covered
  todo := hsent ▸ htodo

theorem handle_inv {s t : State V W} (hI : Inv s) (h : handle B s = some t) : Inv t :=
  have hf := handle_frame h
  hI.of_frame hf.table hf.sending hf.sent hf.answerList hf.next fun e he =>
    hI.todo e (handle_todo h e he)

theorem check_inv {s t : State V W} (hI : Inv s) {l : Label} (h : check conv s l = some t) : Inv t :=
  have hf := check_frame h
  hI.of_frame hf.table hf.sending hf.sent hf.answerList hf.next (hf.client ▸ hI.todo)

theorem request_inv {s t : State V W} (hI : Inv s) {th : ℕ} {id : GlobalID} {cmd : Command V}
    (h : request B s th id cmd = some t) : Inv t := by
  obtain ⟨hfree, ⟨hfresh, -⟩, out, rfl⟩ := request_eq h
  have hnew : ∀ e ∈ s.sent, e ≠ ⟨s.queue.next, id, cmd⟩ := by
    rintro e he rfl
    exact hfresh (List.mem_map_of_mem he)
  have hset : ∀ th' e', Function.update s.sending th (some ⟨s.queue.next, id, cmd⟩) th' = some e' →
      th' = th ∧ e' = ⟨s.queue.next, id, cmd⟩ ∨ s.sending th' = some e' := by
    intro th' e' h'
    rw [Function.update_apply] at h'
    split_ifs at h' with hth
    · exact Or.inl ⟨hth, (Option.some.inj h').symm⟩
    · exact Or.inr h'
  constructor
  case ids =>
    rw [List.map_append, List.nodup_append']
    exact ⟨hI.ids, List.nodup_singleton _, List.disjoint_singleton.mpr hfresh⟩
  case answers =>
    rw [List.map_append, List.nodup_append']
    refine ⟨hI.answers, List.nodup_singleton _, List.disjoint_singleton.mpr fun hmem => ?_⟩
    obtain ⟨e, he, heq⟩ := List.mem_map.mp hmem
    exact absurd (hI.queued e he).2 (heq ▸ lt_irrefl _)
  case queued =>
    intro e he
    simp only [AnswerQueue.newAnswer_answerList, AnswerQueue.newAnswer_next, List.mem_append,
      List.mem_singleton] at he ⊢
    rcases he with he | rfl
    · exact ⟨Or.inl (hI.queued e he).1, Nat.lt_succ_of_lt (hI.queued e he).2⟩
    · exact ⟨Or.inr rfl, Nat.lt_succ_self _⟩
  case tableIds => exact hI.tableIds
  case stored => exact fun e he => List.mem_append_left _ (hI.stored e he)
  case flying =>
    intro th' e h'
    rcases hset th' e h' with ⟨-, rfl⟩ | h'
    · exact ⟨by simp, fun hmem => hnew _ (hI.stored _ hmem) rfl⟩
    · exact ⟨List.mem_append_left _ (hI.flying th' e h').1, (hI.flying th' e h').2⟩
  case apart =>
    intro th₁ th₂ e h₁ h₂
    rcases hset th₁ e h₁ with ⟨e₁, heq⟩ | h₁' <;> rcases hset th₂ e h₂ with ⟨e₂, heq'⟩ | h₂'
    · exact e₁.trans e₂.symm
    · exact absurd heq (hnew e (hI.flying th₂ e h₂').1)
    · exact absurd heq' (hnew e (hI.flying th₁ e h₁').1)
    · exact hI.apart th₁ th₂ e h₁' h₂'
  case covered =>
    intro e he
    rcases List.mem_append.mp he with he | he
    · refine (hI.covered e he).imp_right fun ⟨th', h'⟩ => ⟨th', ?_⟩
      have hth : th' ≠ th := by
        rintro rfl
        rw [hfree] at h'; cases h'
      exact (Function.update_of_ne hth _ _).trans h'
    · obtain rfl := List.mem_singleton.mp he
      exact Or.inr ⟨th, Function.update_self ..⟩
  case todo => exact fun e he => List.mem_append_left _ (hI.todo e he)

theorem insert_inv {s t : State V W} (hI : Inv s) {th : ℕ} (h : insert s th = some t) : Inv t := by
  obtain ⟨e, he, rfl⟩ := insert_eq h
  have hother : ∀ th' e', Function.update s.sending th none th' = some e' →
      s.sending th' = some e' ∧ e' ≠ e := by
    intro th' e' h'
    rw [Function.update_apply] at h'
    split_ifs at h' with hth
    exact ⟨h', by rintro rfl; exact hth (hI.apart _ _ _ h' he)⟩
  constructor
  case ids => exact hI.ids
  case answers => exact hI.answers
  case queued => exact hI.queued
  case tableIds =>
    rw [List.map_append, List.nodup_append']
    exact ⟨hI.tableIds, List.nodup_singleton _, List.disjoint_singleton.mpr (hI.id_notMem_table he)⟩
  case stored =>
    intro e' he'
    rcases List.mem_append.mp he' with he' | he'
    · exact hI.stored e' he'
    · exact List.mem_singleton.mp he' ▸ (hI.flying th e he).1
  case flying =>
    intro th' e' h'
    obtain ⟨hs, hne⟩ := hother th' e' h'
    refine ⟨(hI.flying th' e' hs).1, fun hmem => ?_⟩
    rcases List.mem_append.mp hmem with hmem | hmem
    · exact (hI.flying th' e' hs).2 hmem
    · exact hne (List.mem_singleton.mp hmem)
  case apart =>
    intro th₁ th₂ e' h₁ h₂
    exact hI.apart th₁ th₂ e' (hother _ _ h₁).1 (hother _ _ h₂).1
  case covered =>
    intro e' he'
    rcases hI.covered e' he' with hmem | ⟨th', h'⟩
    · exact Or.inl (List.mem_append_left _ hmem)
    · by_cases hth : th' = th
      · subst hth
        obtain rfl := Option.some.inj (he.symm.trans h')
        exact Or.inl (by simp)
      · exact Or.inr ⟨th', (Function.update_of_ne hth _ _).trans h'⟩
  case todo => exact hI.todo

theorem receive_inv {s t : State V W} (hI : Inv s) {m : ZMQMessage}
    (h : receive B conv s m = some t) : Inv t := by
  obtain ⟨-, ⟨-, rfl⟩ | ⟨-, hend, heq⟩⟩ := receive_eq h
  · exact hI.of_frame rfl rfl rfl rfl rfl hI.stored
  · rw [heq]
    exact hI.of_frame rfl rfl rfl rfl rfl (by rcases hend with h | h <;> rw [h] <;> exact nofun)

theorem step_inv {s t : State V W} (hI : Inv s) {l : Label}
    (h : (system B conv).step s l = some t) : Inv t := by
  have hcheck : check conv s l = some t → Inv t := check_inv hI
  cases l with
  | getDeviceList th id p =>
    obtain ⟨u, hu, rfl⟩ := Option.map_eq_some_iff.mp h
    have hI' := request_inv hI hu
    exact hI'.of_frame rfl rfl rfl rfl rfl hI'.todo
  | getLastValue th id d m => exact request_inv hI h
  | insert th => exact insert_inv hI h
  | receive m => exact receive_inv hI h
  | handle => exact handle_inv hI h
  | expire =>
    obtain ⟨w, -, rfl⟩ := Option.map_eq_some_iff.mp h
    exact hI.of_frame rfl rfl rfl rfl rfl hI.todo
  | begin | visit | endScan | act | read | leave => exact hcheck h

theorem run_inv {s : State V W} {ls : List Label} (h : (system B conv).run init ls = some s) : Inv s :=
  (system B conv).run_inv (fun _ _ _ hI hl => step_inv hI hl) inv_init h

/-! ### The listening window -/

/-- What a step means for the window. -/
def listenOp (B : Base V) : Label → Option Window.Op
  | .receive m => match m.type B with
    | .ok .listenCmd => match m.toGatewayListenCommand B with
      | .ok (.gatewayListen duration) => some (.listen duration)
      | _ => none
    | _ => none
  | .expire => some .expire
  | _ => none

theorem listenOp_receive {m : ZMQMessage} {op : Window.Op} (h : listenOp B (.receive m) = some op) :
    ∃ duration, op = .listen duration := by
  unfold listenOp at h
  dsimp only at h
  split at h
  · split at h
    · exact ⟨_, (Option.some.inj h).symm⟩
    · cases h
  · cases h

theorem onEvent_window (s : State V W) (m : ZMQMessage) : (onEvent B conv s m).window =
    match listenOp B (.receive m) with
    | some (.listen duration) => s.window.doListenCommand (0 ≤ ·) duration
    | _ => s.window := by
  unfold onEvent listenOp isReply
  dsimp only
  cases m.type B with
  | error e => rfl
  | ok t =>
    cases t with
    | listenCmd =>
      cases m.toGatewayListenCommand B with
      | error e => rfl
      | ok cmd => cases cmd <;> rfl
    | deviceUnpairCmd =>
      cases m.toDeviceUnpairCommand B with
      | error e => rfl
      | ok cmd => cases cmd <;> rfl
    | setValuesCmd =>
      cases m.toDeviceSetValueCommand B with
      | error e => rfl
      | ok cmd => cases cmd <;> rfl
    | _ => rfl

/-- A manager does to its window what its listen commands and expiries do. -/
def windowSim (B : Base V) (conv : V → W) : (system B conv).Sim (Window.system (0 ≤ ·)) where
  abs := State.window
  lab := listenOp B
  inv _ := True
  inv_step _ _ _ _ _ := trivial
  hidden s l t _ h hl := by
    have hcheck : check conv s l = some t → t.window = s.window := fun hc => (check_frame hc).window
    cases l with
    | getDeviceList th id p =>
      obtain ⟨u, hu, rfl⟩ := Option.map_eq_some_iff.mp h
      obtain ⟨-, -, out, rfl⟩ := request_eq hu
      rfl
    | getLastValue th id d m =>
      obtain ⟨-, -, out, rfl⟩ := request_eq h
      rfl
    | insert th =>
      obtain ⟨e, -, rfl⟩ := insert_eq h
      rfl
    | receive m =>
      change receive B conv s m = some t at h
      unfold receive at h
      split at h
      · cases h
        rw [onEvent_window, hl]
      · cases h
    | handle => exact (handle_frame h).window
    | expire => cases hl
    | begin | visit | endScan | act | read | leave => exact hcheck h
  shown s l t op _ h hl := by
    cases l with
    | receive m =>
      obtain ⟨duration, rfl⟩ := listenOp_receive hl
      change receive B conv s m = some t at h
      unfold receive at h
      split at h
      · cases h
        rw [onEvent_window, hl]
        rfl
      · cases h
    | expire =>
      obtain rfl := Option.some.inj hl
      obtain ⟨w, hw, rfl⟩ := Option.map_eq_some_iff.mp h
      exact hw
    | _ => cases hl

/-- A manager that is told to listen at most once stops listening again. -/
theorem window_ends {ls : List Label} {s : State V W} (h : (system B conv).run init ls = some s)
    (hone : Window.Once (0 ≤ ·) (ls.filterMap (listenOp B))) : s.window.Ends :=
  (Window.sound_run ((windowSim B conv).run trivial h) hone).ends

end DeviceManager

/-- `JablotronDeviceManager`: a last value is cast to `short` for `setSwitch`. -/
def JablotronDeviceManager.system (B : Base V) (toShort : V → BitVec 16) :
    Lts (DeviceManager.State V (BitVec 16)) DeviceManager.Label :=
  DeviceManager.system B toShort

/-- `ZWaveDeviceManager`: a last value is sent to the node as it is. -/
def ZWaveDeviceManager.system (B : Base V) : Lts (DeviceManager.State V V) DeviceManager.Label :=
  DeviceManager.system B fun v => v

end BeeeOn
