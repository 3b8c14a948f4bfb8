import Gateway.Schemes.Multipart
import Gateway.Zmq.Broker

/-! @src zmq/ZMQBroker.cpp, util/ZMQUtil.cpp, core/Answer.cpp | name:Frames on the data socket |
    family:interleaving

    Every message on the data socket is two sends: the identity of the manager, marked as not the last
    frame, and then the text. The tasks that run `handle` and the broker thread in `checkQueue` do this
    side by side with no lock around the pair, so the socket is a channel shared by senders of two
    frames, and a manager gets a text that was meant for it exactly if the pairs do not interleave
    (`frames_whole_iff`). -/

namespace BeeeOn
open Schemes
variable {V : Type}

namespace Frames
open Broker (Platform)
open ZMQBroker (recipients)

/-- A task in the loop of `handle`: the managers it has not sent to, and the message that it is to send
    to the one whose identity it has sent. -/
structure Task (V : Type) where
  cmd : Command V
  todo : List DeviceManagerID
  msg : Option ZMQMessage

/-- `replies` are the entries of `m_resultTable` that `checkQueue` goes through, one for each result. -/
structure State (V : Type) where
  tasks : List (Task V)
  replies : List (ResultData V)
  wire : Multipart.State String

/-- A label of a send names what is sent. -/
inductive Label (V : Type) where
  | begin (table : ZMQDeviceManagerTable) (cmd : Command V)
  | identity (k : ℕ) (manager : DeviceManagerID) (id : GlobalID)
  | message (k : ℕ) (text : String)
  | collect (replies : List (ResultData V))
  | replyIdentity (manager : DeviceManagerID)
  | reply (id : GlobalID) (r : Result V)

/-- The number of a thread: the broker thread is 0. -/
def thread (k : ℕ) : ℕ := k + 1

variable (P : Platform V)

/-- The text that `checkQueue` sends for a result. -/
def replyText (id : GlobalID) (r : Result V) : Option String :=
  (ZMQMessage.fromResult P.base r).map fun m => P.text (m.setID P.base id)

/-- A thread that has sent an identity cannot send another before its text; the wire sees to that. -/
def system : Lts (State V) (Label V) where
  step s
    | .begin table cmd => some { s with tasks := s.tasks ++ [⟨cmd, recipients table cmd, none⟩] }
    | .identity k manager id => match s.tasks[k]? with
      | some ⟨cmd, m :: todo, _⟩ =>
        match ZMQMessage.fromCommand P.base id cmd with
        | .ok msg =>
          if m = manager then
            (Multipart.channel.step s.wire (.head (thread k) manager.toString)).map fun w =>
              { s with tasks := s.tasks.set k ⟨cmd, todo, some msg⟩, wire := w }
          else none
        | .error _ => none
      | _ => none
    | .message k text => match s.tasks[k]? with
      | some ⟨cmd, todo, some msg⟩ =>
        if P.text msg = text then
          (Multipart.channel.step s.wire (.body (thread k) text)).map fun w =>
            { s with tasks := s.tasks.set k ⟨cmd, todo, none⟩, wire := w }
        else none
      | _ => none
    -- the wait of `checkQueue` has returned the dirty answers
    | .collect replies => match s.replies with
      | [] => some { s with replies := replies }
      | _ :: _ => none
    | .replyIdentity manager => match s.replies with
      | d :: _ =>
        if d.deviceManagerID = manager then
          (Multipart.channel.step s.wire (.head 0 manager.toString)).map fun w => { s with wire := w }
        else none
      | [] => none
    -- the result is read between the two sends
    | .reply id r => match s.replies, replyText P id r with
      | d :: replies, some text =>
        if d.resultID = id then
          (Multipart.channel.step s.wire (.body 0 text)).map fun w =>
            { s with replies := replies, wire := w }
        else none
      | _, _ => none

def init : State V := ⟨[], [], Multipart.init⟩

/-- The send that a step does. -/
def send : Label V → Option (Multipart.Label String)
  | .begin _ _ => none
  | .identity k manager _ => some (.head (thread k) manager.toString)
  | .message k text => some (.body (thread k) text)
  | .collect _ => none
  | .replyIdentity manager => some (.head 0 manager.toString)
  | .reply id r => (replyText P id r).map (.body 0)

/-- The condition on a step: a thread sends a text while no other is between identity and text. -/
def Alone (s : State V) (l : Label V) : Prop := ∀ k, send P l = some k → Multipart.Alone s.wire k

variable {P} {s t : State V}

/-- What a step does to the wire. -/
theorem step_wire {l : Label V} (h : (system P).step s l = some t) :
    (send P l = none ∧ t.wire = s.wire) ∨
      ∃ k, send P l = some k ∧ Multipart.channel.step s.wire k = some t.wire := by
  cases l with
  | begin table cmd => cases h; exact Or.inl ⟨rfl, rfl⟩
  | identity k manager id =>
    simp only [system] at h
    split at h <;> try cases h
    split at h <;> try cases h
    split_ifs at h
    obtain ⟨w, hw, rfl⟩ := Option.map_eq_some_iff.mp h
    exact Or.inr ⟨_, rfl, hw⟩
  | message k text =>
    simp only [system] at h
    split at h <;> try cases h
    split_ifs at h
    obtain ⟨w, hw, rfl⟩ := Option.map_eq_some_iff.mp h
    exact Or.inr ⟨_, rfl, hw⟩
  | collect replies =>
    simp only [system] at h
    split at h <;> cases h
    exact Or.inl ⟨rfl, rfl⟩
  | replyIdentity manager =>
    simp only [system] at h
    split at h <;> try cases h
    split_ifs at h
    obtain ⟨w, hw, rfl⟩ := Option.map_eq_some_iff.mp h
    exact Or.inr ⟨_, rfl, hw⟩
  | reply id r =>
    simp only [system] at h
    split at h <;> try cases h
    rename_i d replies text _ htext
    split_ifs at h
    obtain ⟨w, hw, rfl⟩ := Option.map_eq_some_iff.mp h
    exact Or.inr ⟨.body 0 text, by rw [send, htext]; rfl, hw⟩

variable (P) in
/-- The threads of the broker are senders on a channel. -/
def senders : (system P).Sim (Multipart.channel (α := String)) where
  abs := State.wire
  lab := send P
  inv _ := True
  inv_step _ _ _ _ _ := trivial
  hidden s l t _ h hl := by
    rcases step_wire h with ⟨-, hw⟩ | ⟨k, hk, -⟩
    · exact hw
    · cases hl.symm.trans hk
  shown s l t k _ h hl := by
    rcases step_wire h with ⟨hn, -⟩ | ⟨k', hk, hstep⟩
    · cases hl.symm.trans hn
    · cases hl.symm.trans hk
      exact hstep

/-- A turn of the loop of `handle` is its two sends with nothing in between. -/
theorem next_run {b c : Broker.State V} {k a : ℕ} {id : GlobalID} {cmd : Command V}
    {manager : DeviceManagerID} {todo : List DeviceManagerID} (h : Broker.next P b k id = some c)
    (hloop : b.loops[k]? = some (cmd, a, manager :: todo))
    (htask : s.tasks[k]? = some ⟨cmd, manager :: todo, none⟩)
    (hidle : s.wire.pending.lookup (thread k) = none) :
    ∃ text u, (system P).run s [.identity k manager id, .message k text] = some u ∧
      u.wire.frames = s.wire.frames ++ [⟨manager.toString, true⟩, ⟨text, false⟩] ∧
      c.frames .data = b.frames .data ++ [manager.toString, text] := by
  have hk := (List.getElem?_eq_some_iff.mp htask).1
  unfold Broker.next at h
  cases hid : b.cmdTable id with
  | some e => simp only [hloop, hid] at h; cases h
  | none =>
    simp only [hloop, hid] at h
    split at h <;> cases h
    rename_i msg hmsg
    have hlookup : (s.wire.pending ++ [(thread k, manager.toString)]).lookup (thread k) =
        some manager.toString := by
      rw [List.lookup_append, hidle]
      simp
    have hfirst : (system P).step s (.identity k manager id) = some
        { s with
          tasks := s.tasks.set k ⟨cmd, todo, some msg⟩
          wire := ⟨s.wire.frames ++ [⟨manager.toString, true⟩],
            s.wire.pending ++ [(thread k, manager.toString)], s.wire.intended⟩ } := by
      simp only [system, htask, hmsg, Multipart.channel, hidle, if_true, Option.map_some]
    obtain ⟨w, hw, hframes⟩ : ∃ w, Multipart.channel.step ⟨s.wire.frames ++ [⟨manager.toString, true⟩],
        s.wire.pending ++ [(thread k, manager.toString)], s.wire.intended⟩ (.body (thread k)
          (P.text msg)) = some w ∧ w.frames = s.wire.frames ++ [⟨manager.toString, true⟩] ++
            [⟨P.text msg, false⟩] := by
      simp only [Multipart.channel, hlookup]
      exact ⟨_, rfl, rfl⟩
    refine ⟨P.text msg, ⟨(s.tasks.set k ⟨cmd, todo, some msg⟩).set k ⟨cmd, todo, none⟩, s.replies, w⟩,
      ((system P).run_cons_iff).mpr ⟨_, hfirst, ((system P).run_cons_iff).mpr ⟨_, ?_, rfl⟩⟩,
      by rw [hframes, List.append_assoc]; rfl, by simp [Broker.State.emit]⟩
    simp only [system, List.getElem?_set_self hk, hw, if_true, Option.map_some]

/-- In every run, for any number of tasks and any results: the data socket emits only messages that a
    thread has meant for the manager exactly if no text is sent while another thread is between
    identity and text. -/
theorem frames_whole_iff {ls : List (Label V)} {u : State V} (h : (system P).run init ls = some u) :
    (∀ pre post s, ls = pre ++ post → (system P).run init pre = some s → Multipart.Whole s.wire) ↔
      (system P).Meets (Alone P) init ls := by
  have hrun := (senders P).run trivial h
  have hstates := (senders P).states_iff trivial h Multipart.Whole
  have hmeets := (senders P).meets_iff trivial h Multipart.Alone
  exact hstates.trans ((Multipart.whole_iff hrun).trans hmeets.symm)

/-- The text of a listen command with the given id. -/
def listenText (id : ℕ) : String :=
  (Broker.sample []).text (ZMQMessage.fromGatewayListenCommand Sample.base ⟨id⟩ 5)

/-- Two tasks for two managers take turns. -/
def inTurn : List (Label Reading) :=
  [.begin [⟨0xa800⟩] (.gatewayListen 5), .begin [⟨0xa100⟩] (.gatewayListen 5),
    .identity 0 ⟨0xa800⟩ ⟨7⟩, .message 0 (listenText 7), .identity 1 ⟨0xa100⟩ ⟨8⟩,
    .message 1 (listenText 8)]

/-- Each manager gets its text. -/
theorem tasks_in_turn_whole :
    (∃ u, (system (Broker.sample [])).run init inTurn = some u ∧
      (Multipart.join [] u.wire.frames).1 = [["A800", listenText 7], ["A100", listenText 8]]) ∧
    ∀ (pre post : List (Label Reading)) (s : State Reading), inTurn = pre ++ post →
      (system (Broker.sample [])).run init pre = some s → Multipart.Whole s.wire := by
  obtain ⟨u, h, hjoin⟩ : ∃ u, (system (Broker.sample [])).run init inTurn = some u ∧
      (Multipart.join [] u.wire.frames).1 = [["A800", listenText 7], ["A100", listenText 8]] :=
    ⟨_, rfl, by decide⟩
  refine ⟨⟨u, h, hjoin⟩, (frames_whole_iff h).mpr (.cons _ nofun rfl (.cons _ nofun rfl
    (.cons _ ?_ rfl (.cons _ ?_ rfl (.cons _ ?_ rfl (.cons _ ?_ rfl (.nil _)))))))⟩
  · rintro k hk; cases hk; trivial
  · rintro k hk; cases hk
    intro x hx
    rw [List.mem_singleton.mp hx]
  · rintro k hk; cases hk; trivial
  · rintro k hk; cases hk
    intro x hx
    rw [List.mem_singleton.mp hx]

/-- Two tasks, for two managers: both identities are sent before the texts. -/
theorem frames_mixed : ¬ ∀ (ls : List (Label Reading)) (s : State Reading),
    (system (Broker.sample [])).run init ls = some s → Multipart.Whole s.wire := by
  intro h
  have hw := h [.begin [⟨0xa800⟩] (.gatewayListen 5), .begin [⟨0xa100⟩] (.gatewayListen 5),
    .identity 0 ⟨0xa800⟩ ⟨7⟩, .identity 1 ⟨0xa100⟩ ⟨8⟩, .message 0 (listenText 7)] _ rfl
  obtain ⟨a, b, -, hm⟩ := hw _ List.mem_cons_self
  cases hm

end Frames
end BeeeOn
