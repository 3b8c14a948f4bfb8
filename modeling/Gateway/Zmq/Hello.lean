import Gateway.Zmq.DeviceManagerTable
import Gateway.Zmq.Message
import Gateway.Model.Sample

/-! @src zmq/ZMQBroker.cpp, zmq/ZMQConnector.cpp | name:The hello socket | family:request-reply

    A device manager registers on the hello socket, where every request has to be answered before the
    next one can be received. `registerDeviceManager` answers there, but the error paths around it
    answer on the data socket, and an unknown prefix raises past all of them; so the request is
    answered where it came from only if it is a hello request with a prefix that is known
    (`hello_answered_iff`). -/

namespace BeeeOn
variable {V : Type} (B : Base V)

namespace ZMQBroker

inductive Socket where
  | hello | data
  deriving DecidableEq, Repr

/-- What a receive changes: the table, and the messages sent on the two sockets. -/
structure Hello where
  table : ZMQDeviceManagerTable
  sent : Socket → List ZMQMessage

/-- The outcome of a call: the state it leaves also when it raises. -/
abbrev Outcome (α : Type) := Except Exn α × Hello

def send (s : Hello) (sock : Socket) (m : ZMQMessage) : Hello :=
  { s with sent := Function.update s.sent sock (s.sent sock ++ [m]) }

def sendError (s : Hello) (e : ZMQMessageError) (message : String) (sock : Socket) : Hello :=
  send s sock (.fromError e message)

/-- `fromJSON`, and `type()` for the exceptions it may raise. -/
def parsed (jsonMessage : String) : Except Exn ZMQMessage := do
  let msg ← ZMQMessage.fromJSON B jsonMessage
  let _ ← msg.type B
  return msg

/-- `ZMQConnector::parseMessage`; `none` where the source returns false. -/
def parseMessage (s : Hello) (jsonMessage : String) (sock : Socket) : Outcome (Option ZMQMessage) :=
  match parsed B jsonMessage with
  | .ok msg => (.ok (some msg), s)
  | .error .invalidAccess =>
    (.ok none, sendError s .missingAttribute "missing attribute: message_type" sock)
  | .error .invalidArgument => (.ok none, sendError s .missingAttribute "unknown message_type" sock)
  | .error .syntaxError => (.ok none, sendError s .jsonSyntax "json syntax" sock)
  | .error e => (.error e, s)

def registerDeviceManager (s : Hello) (zmqMessage : ZMQMessage) : Outcome Unit :=
  match (zmqMessage.toHelloRequest B).bind s.table.registerDaemonPrefix with
  | .ok (deviceManagerID, table) =>
    (.ok (), send { s with table := table } .hello (.fromHelloResponse deviceManagerID))
  | .error .range => (.ok (), sendError s .maximumDeviceManagers
      "maximum number of registered device managers" .hello)
  | .error e => (.error e, s)

def handleHelloMessage (s : Hello) (zmqMessage : ZMQMessage) : Outcome Unit :=
  match zmqMessage.type B with
  | .ok .helloRequest => registerDeviceManager B s zmqMessage
  | .ok _ => (.ok (), sendError s .unsupportedMessage "unsupported message type" .data)
  | .error e => (.error e, s)

/-- `helloServerReceive` after a string has been received. -/
def helloServerReceive (s : Hello) (jsonMessage : String) : Outcome Unit :=
  match parseMessage B s jsonMessage .data with
  | (.ok (some zmqMessage), s) => match handleHelloMessage B s zmqMessage with
    | (.error .invalidAccess, s) =>
      (.ok (), sendError s .missingAttribute "missing JSON attribute" .data)
    | r => r
  | (.ok none, s) => (.ok (), s)
  | (.error e, s) => (.error e, s)

/-- The call returns, has sent one message on the hello socket and none on the data socket. -/
def Answered (r : Outcome Unit) (s : Hello) : Prop :=
  r.1 = .ok () ∧ (∃ m, r.2.sent .hello = s.sent .hello ++ [m]) ∧ r.2.sent .data = s.sent .data

/-- A hello request whose prefix `DevicePrefix::parse` knows; were the prefix to raise a range
    exception, it would be answered as a full table is. -/
def KnownHello (jsonMessage : String) : Prop :=
  ∃ msg, ZMQMessage.fromJSON B jsonMessage = .ok msg ∧ msg.type B = .ok .helloRequest ∧
    ∀ e, msg.toHelloRequest B = .error e → e = .range

variable {B}

theorem sendError_data (s : Hello) (e : ZMQMessageError) (text : String) :
    (sendError s e text .data).sent .data ≠ s.sent .data := by
  simp [sendError, send]

theorem not_answered_of_data (s : Hello) (e : ZMQMessageError) (text : String) :
    ¬ Answered (.ok (), sendError s e text .data) s :=
  fun h => sendError_data s e text h.2.2

theorem not_answered_of_error (e : Exn) (s u : Hello) : ¬ Answered (.error e, u) s :=
  fun h => nomatch h.1

theorem answered_of_hello {s u : Hello} (m : ZMQMessage) (hu : u.sent = s.sent) :
    Answered (.ok (), send u .hello m) s := by
  refine ⟨rfl, ⟨m, ?_⟩, ?_⟩
  · simp only [send, Function.update_self, hu]
  · simp only [send, ne_eq, reduceCtorEq, not_false_eq_true, Function.update_of_ne, hu]

/-- Registration answers on the hello socket, full table or not, unless the prefix raises. -/
theorem registerDeviceManager_cases (s : Hello) (msg : ZMQMessage) :
    (∀ e, msg.toHelloRequest B = .error e → e = .range) ∧
        Answered (registerDeviceManager B s msg) s ∨
      ∃ e, e ≠ .range ∧ msg.toHelloRequest B = .error e ∧
        registerDeviceManager B s msg = (.error e, s) := by
  rw [registerDeviceManager]
  cases hp : msg.toHelloRequest B with
  | error e =>
    by_cases he : e = .range
    · subst he
      exact Or.inl ⟨fun e h => (Except.error.inj h).symm, answered_of_hello _ rfl⟩
    · refine Or.inr ⟨e, he, rfl, ?_⟩
      cases e <;> first | rfl | exact absurd rfl he
  | ok p =>
    refine Or.inl ⟨fun e h => (nomatch h), ?_⟩
    simp only [Except.bind, ZMQDeviceManagerTable.registerDaemonPrefix,
      ZMQDeviceManagerTable.fromPrefix]
    split_ifs
    · exact answered_of_hello _ rfl
    · exact answered_of_hello _ rfl

/-- The hello socket stays in step exactly for the hello requests with a known prefix. -/
theorem hello_answered_iff (s : Hello) (jsonMessage : String) :
    Answered (helloServerReceive B s jsonMessage) s ↔ KnownHello B jsonMessage := by
  rw [helloServerReceive, parseMessage, parsed, KnownHello]
  cases hj : ZMQMessage.fromJSON B jsonMessage with
  | error e =>
    refine iff_of_false ?_ fun ⟨_, h, _⟩ => nomatch h
    cases e <;> first | exact not_answered_of_data _ _ _ | exact not_answered_of_error _ _ _
  | ok msg =>
    simp only [Except.ok.injEq, exists_eq_left', bind, Except.bind, pure, Except.pure]
    cases ht : msg.type B with
    | error e =>
      refine iff_of_false ?_ fun ⟨h, _⟩ => nomatch h
      cases e <;> first | exact not_answered_of_data _ _ _ | exact not_answered_of_error _ _ _
    | ok t =>
      simp only [handleHelloMessage, ht, Except.ok.injEq]
      by_cases hreq : t = .helloRequest
      · subst hreq
        rcases registerDeviceManager_cases s msg with ⟨hp, ha⟩ | ⟨e, he, hp, hr⟩
        · refine iff_of_true ?_ ⟨rfl, hp⟩
          revert ha
          rcases registerDeviceManager B s msg with ⟨_ | _, u⟩
          · exact fun ha => absurd ha (not_answered_of_error _ _ _)
          · exact id
        · refine iff_of_false ?_ fun ⟨_, h⟩ => he (h e hp)
          simp only [hr]
          cases e <;> first | exact not_answered_of_data _ _ _ | exact not_answered_of_error _ _ _
      · refine iff_of_false ?_ fun ⟨h, _⟩ => hreq h
        cases t <;> first | exact absurd rfl hreq | exact not_answered_of_data _ _ _

example : KnownHello Sample.base Sample.helloText := ⟨_, rfl, rfl, nofun⟩

/-- Malformed text is answered on the data socket. -/
theorem hello_unanswered : ¬ ∀ (s : Hello) (jsonMessage : String),
    Answered (helloServerReceive Sample.base s jsonMessage) s := by
  intro h
  obtain ⟨_, _, hd⟩ := h ⟨[], fun _ => []⟩ "invalidJSON"
  cases hd

end ZMQBroker
end BeeeOn
