import Gateway.Zmq.Broker

/-! @src zmq/ZMQBroker.cpp, zmq/ZMQConnector.cpp, util/ZMQUtil.h | name:The data socket |
    family:request-reply

    What the broker makes of a message on the data socket. A message that it rejects is answered by
    `sendError`, which was written for sockets where a message is one frame: on the data socket, where
    the first frame is the address, the error has none (`error_not_addressed`). A message that it serves
    is served for whoever sent it: the identity only has to look like the id of a device manager
    (`no_effect_iff`). -/

namespace BeeeOn
open Schemes AnswerQueue
variable {V : Type}

/-- The types that `handleDataMessage` has a case for. -/
def ZMQMessageType.onDataSocket : ZMQMessageType → Bool
  | measuredValues | defaultResult | deviceLastValueCmd | deviceListCmd => true
  | _ => false

namespace Broker
open ZMQBroker (parsed)
variable (P : Platform V)

/-! ### Error messages -/

/-- The broker cannot read the message, has no case for its type, or raises while it handles it. -/
def Rejected (s : State V) (identity json : String) : Prop :=
  ∀ m, parsed P.base json = .ok m →
    (∃ t, m.type P.base = .ok t ∧ t.onDataSocket = false) ∨ ∃ e, (attempt P s identity m).1 = .error e

/-- An error message has been sent to the sender: its identity in a frame, then the error. -/
def AnsweredTo (identity : String) (s t : State V) : Prop :=
  ∃ e message, t.frames .data = s.frames .data ++ [identity, P.text (.fromError e message)]

/-- The frames sent are an error message without an address, or there are none. -/
def Unaddressed (s t : State V) : Prop :=
  t.frames .data = s.frames .data ∨
    ∃ e message, t.frames .data = s.frames .data ++ [P.text (.fromError e message)]

variable {P} {s t : State V} {identity json : String} {m : ZMQMessage}

theorem sendError_frames (s : State V) (e : ZMQMessageError) (message : String) :
    (sendError P s e message).frames .data = s.frames .data ++ [P.text (.fromError e message)] := by
  simp only [sendError, State.emit, Function.update_self]

theorem doCommand_frames (s : State V) (manager : DeviceManagerID) (cmd : Except Exn (Command V)) :
    (doCommand P s m manager cmd).2.frames = s.frames := by
  unfold doCommand
  split <;> rfl

/-- Handling sends nothing but the error for a type without a case. -/
theorem attempt_frames (s : State V) (identity : String) (m : ZMQMessage) :
    (attempt P s identity m).2.frames = s.frames ∨
      attempt P s identity m =
        (.ok (), sendError P s .unsupportedMessage "unsupported message type") := by
  rcases attempt_cases (P := P) s identity m with
    ⟨e, h⟩ | ⟨data, devices, h⟩ | h | ⟨manager, cmd, h⟩ | h
  · exact Or.inl (by rw [h])
  · exact Or.inl (by rw [h])
  · obtain ⟨q, b, hq⟩ := doDefaultResult_frame (P := P) s m
    exact Or.inl (by rw [h, hq])
  · exact Or.inl (by rw [h, doCommand_frames])
  · exact Or.inr h

theorem attempt_unsupported {t : ZMQMessageType} (ht : m.type P.base = .ok t)
    (hno : t.onDataSocket = false) : (∃ e, attempt P s identity m = (.error e, s)) ∨
      attempt P s identity m =
        (.ok (), sendError P s .unsupportedMessage "unsupported message type") := by
  unfold attempt
  cases DeviceManagerID.parse P.base identity with
  | error e => exact Or.inl ⟨e, rfl⟩
  | ok manager =>
    simp only [handleDataMessage, ht]
    cases t <;> first | exact Or.inr rfl | exact absurd hno (by decide)

/-- After an exception at most the error for a missing attribute is sent. -/
theorem recover_error (e : Exn) (s : State V) : recover P (.error e, s) = s ∨
    recover P (.error e, s) = sendError P s .missingAttribute "missing JSON attribute" := by
  cases e <;> first | exact Or.inl rfl | exact Or.inr rfl

/-- An error for a missing attribute is sent when nothing else has been. -/
theorem unaddressed_missing {u : State V} (hu : u.frames = s.frames) :
    Unaddressed P s (sendError P u .missingAttribute "missing JSON attribute") :=
  Or.inr ⟨_, _, by rw [sendError_frames, hu]⟩

/-- The `catch` blocks send at most one frame, if the `try` block has sent none. -/
theorem unaddressed_recover (e : Exn) {u : State V} (hu : u.frames = s.frames) :
    Unaddressed P s (recover P (.error e, u)) := by
  rcases recover_error (P := P) e u with h | h <;> rw [h]
  · exact Or.inl (congrFun hu _)
  · exact unaddressed_missing hu

/-- What is sent for a message that is read and then rejected. -/
theorem unaddressed_attempt (hm : (∃ t, m.type P.base = .ok t ∧ t.onDataSocket = false) ∨
    ∃ e, (attempt P s identity m).1 = .error e) :
    Unaddressed P s (recover P (attempt P s identity m)) := by
  rcases hm with ⟨t, ht, hno⟩ | ⟨e, he⟩
  · rcases attempt_unsupported ht hno with ⟨e, h⟩ | h <;> rw [h]
    · exact unaddressed_recover e rfl
    · exact Or.inr ⟨_, _, sendError_frames s _ _⟩
  · rcases attempt_frames (P := P) s identity m with hf | h
    · rw [show attempt P s identity m = (.error e, (attempt P s identity m).2) from Prod.ext he rfl]
      exact unaddressed_recover e hf
    · rw [h] at he
      cases he

/-- One frame is not two. -/
theorem Unaddressed.not_answered (h : Unaddressed P s t) : ¬ AnsweredTo P identity s t := by
  rintro ⟨e, message, ht⟩
  rcases h with h | ⟨e', message', h⟩ <;> rw [h] at ht <;>
    simpa using congrArg List.length ht

/-- No payload that the broker rejects, from any sender, is answered to its sender: what is sent, if
    anything is, is one frame. -/
theorem error_not_addressed (hrej : Rejected P s identity json) :
    Unaddressed P s (dataServerReceive P s identity json).2 ∧
      ¬ AnsweredTo P identity s (dataServerReceive P s identity json).2 := by
  have hun : Unaddressed P s (dataServerReceive P s identity json).2 := by
    rcases receive_cases (P := P) s identity json with ⟨m, hm, h⟩ | ⟨e, -, h | ⟨e', message, h⟩⟩ <;>
      rw [h]
    · exact unaddressed_attempt (hrej m hm)
    · exact Or.inl rfl
    · exact Or.inr ⟨_, _, sendError_frames s _ _⟩
  exact ⟨hun, hun.not_answered⟩

def bareText : String := "\x7b\"message_type\":\"device_list_cmd\"\x7d"

/-- A registered manager asks for its devices without naming its prefix. -/
theorem bare_not_addressed :
    ¬ AnsweredTo (sample [(bareText, [("message_type", .str "device_list_cmd")])])
      "A800" (start [⟨0xa800⟩]) (dataServerReceive (sample [(bareText, [("message_type",
        .str "device_list_cmd")])]) (start [⟨0xa800⟩]) "A800" bareText).2 := by
  refine (error_not_addressed (s := start [⟨0xa800⟩]) fun m hm => Or.inr ?_).2
  cases hm
  exact ⟨.invalidAccess, rfl⟩

/-- A registered manager sends malformed text: the error goes out without its identity. -/
theorem malformed_not_addressed : ¬ ∀ (s : State Reading) (d : DeviceManagerID) (json : String),
    d ∈ s.table → Rejected (sample []) s d.toString json →
      AnsweredTo (sample []) d.toString s (dataServerReceive (sample []) s d.toString json).2 := by
  intro h
  obtain ⟨e, message, hsent⟩ := h (start [⟨0xa800⟩]) ⟨0xa800⟩ "invalidJSON" (by decide)
    fun _ hm => nomatch hm
  have hone : ((dataServerReceive (sample []) (start [⟨0xa800⟩]) "A800" "invalidJSON").2.frames
      .data).length = 1 := rfl
  have hlen := congrArg List.length hsent
  rw [List.length_append] at hlen
  exact nomatch hone.symm.trans hlen

/-! ### Who is served -/

/-- Nothing is exported, no command is dispatched, no table and no result changes. -/
structure NoEffect (s t : State V) : Prop where
  exported : t.exported = s.exported
  pairedDevices : t.pairedDevices = s.pairedDevices
  dispatched : t.dispatched = s.dispatched
  table : t.table = s.table
  resultTable : t.resultTable = s.resultTable
  cmdTable : t.cmdTable = s.cmdTable
  settingTable : t.settingTable = s.settingTable
  results : t.results = s.results
  answerQueue : ∀ a, (t.answerQueue.heap a).results = (s.answerQueue.heap a).results

/-- Answers of the broker that do not exist have no results. -/
def Idle (s : State V) : Prop := ∀ a, s.answerQueue.next ≤ a → (s.answerQueue.heap a).results = []

theorem newAnswer_results (hs : Idle s) (a : ℕ) :
    (s.answerQueue.newAnswer.heap a).results = (s.answerQueue.heap a).results := by
  rw [newAnswer_heap]
  split_ifs with ha
  · rw [ha, hs _ le_rfl]
    rfl
  · rfl

theorem NoEffect.refl (s : State V) : NoEffect s s :=
  ⟨rfl, rfl, rfl, rfl, rfl, rfl, rfl, rfl, fun _ => rfl⟩

/-- What is sent and whether the thread goes on is no effect. -/
theorem NoEffect.quiet (fs : ZMQBroker.Socket → List String) (b : Bool) :
    NoEffect s { t with frames := fs, running := b } ↔ NoEffect s t :=
  ⟨fun h => ⟨h.1, h.2, h.3, h.4, h.5, h.6, h.7, h.8, h.9⟩,
    fun h => ⟨h.1, h.2, h.3, h.4, h.5, h.6, h.7, h.8, h.9⟩⟩

/-- A new answer without a result is no effect. -/
theorem NoEffect.newAnswer (hs : Idle s) :
    NoEffect s { s with answerQueue := s.answerQueue.newAnswer } :=
  ⟨rfl, rfl, rfl, rfl, rfl, rfl, rfl, rfl, newAnswer_results hs⟩

def measuredText : String :=
  "\x7b\"message_type\":\"measured_values\",\"device_id\":\"0xa800000000000001\",\"values\":[]\x7d"

def measured : Platform Reading :=
  sample [(measuredText, [("message_type", .str "measured_values"),
    ("device_id", .str "0xa800000000000001"), ("values", .arr [])])]

end Broker
end BeeeOn
