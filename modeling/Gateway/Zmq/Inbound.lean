import Gateway.Schemes.Pairs
import Gateway.Zmq.Broker

/-! @src zmq/ZMQBroker.cpp, util/ZMQUtil.cpp | name:What comes in on the data socket | family:framing

    The router delivers a message as the identity of its sender and the frames that were sent.
    `dataServerReceive` takes a frame as the identity of a manager, and another as its message, does not
    ask where a message ends, and does not wait for the second. So the socket is a queue read by pairs,
    to which the router may add between the two, and a payload is attributed to its sender exactly if
    the first frame is an identity at every call that finds a second (`inbound_attributed_iff`). -/

namespace BeeeOn
open Schemes
variable {V : Type}

namespace Inbound
open Broker (Platform)

structure State (V : Type) where
  broker : Broker.State V
  socket : Pairs.State String

inductive Label (V : Type) where
  /-- the router delivers a message with one payload frame or more -/
  | arrive (identity payload : String) (more : List String)
  /-- the first receive of `dataServerReceive`, and the second with what follows it -/
  | identity
  | payload
  /-- a step of the broker that receives nothing on the data socket -/
  | other (l : Broker.Label V)

variable (P : Platform V)

/-- The first receive. Without a frame the call returns. -/
def receiveIdentity (s : State V) : Option (State V) :=
  if s.broker.running ∧ ¬ s.broker.undefined ∧ s.socket.held.isNone then
    some { s with socket := s.socket.takeHead }
  else none

/-- The second receive, and the handling of the message. Without a frame the call returns, and the first
    one is gone. -/
def receivePayload (s : State V) : Option (State V) :=
  match s.socket.held, s.socket.waiting with
  | some identity, payload :: _ =>
    ((Broker.system P).step s.broker (.data identity.content payload.content)).map fun b =>
      ⟨b, s.socket.takeBody identity⟩
  | some identity, [] =>
    if s.broker.running ∧ ¬ s.broker.undefined then
      some { s with socket := s.socket.takeBody identity }
    else none
  | none, _ => none

/-- The thread of the data socket is also that of the hello socket, which it does not look at between its
    two receives. -/
def system : Lts (State V) (Label V) where
  step s
    | .arrive identity payload more =>
      some { s with socket := s.socket.arrive identity payload more }
    | .identity => receiveIdentity s
    | .payload => receivePayload P s
    | .other (.data _ _) => none
    | .other (.hello json) =>
      if s.socket.held.isNone then
        ((Broker.system P).step s.broker (.hello json)).map fun b => { s with broker := b }
      else none
    | .other l => ((Broker.system P).step s.broker l).map fun b => { s with broker := b }

def start (table : ZMQDeviceManagerTable) : State V :=
  ⟨Broker.start table, Pairs.init⟩

variable {P} {s t : State V}

/-- What a step does to the socket. -/
def onSocket : Label V → Option (Pairs.Label String)
  | .arrive identity payload more => some (.arrive identity payload more)
  | .identity => some .head
  | .payload => some .body
  | .other _ => none

theorem step_other {l : Broker.Label V} (h : (system P).step s (.other l) = some t) :
    (Broker.system P).step s.broker l = some t.broker ∧ t.socket = s.socket ∧
      ∀ identity json, l ≠ .data identity json := by
  cases l with
  | data identity json => cases h
  | hello json =>
    obtain ⟨-, h⟩ := Option.ite_none_right_eq_some.mp h
    obtain ⟨b, hb, rfl⟩ := Option.map_eq_some_iff.mp h
    exact ⟨hb, rfl, by simp⟩
  | begin | next | tick =>
    obtain ⟨b, hb, rfl⟩ := Option.map_eq_some_iff.mp h
    exact ⟨hb, rfl, by simp⟩

theorem step_identity (h : (system P).step s .identity = some t) :
    s.socket.held.isNone ∧ t = { s with socket := s.socket.takeHead } := by
  obtain ⟨⟨-, -, hnone⟩, h⟩ := Option.ite_none_right_eq_some.mp h
  exact ⟨hnone, (Option.some.inj h).symm⟩

/-- Two frames are handled as a message, or nothing is. -/
theorem step_payload (h : (system P).step s .payload = some t) : ∃ f, s.socket.held = some f ∧
    t.socket = s.socket.takeBody f ∧
    ((∃ g, t.socket.read = s.socket.read ++ [(f, g)] ∧
        (Broker.system P).step s.broker (.data f.content g.content) = some t.broker) ∨
      t.socket.read = s.socket.read ∧ t.broker = s.broker) := by
  obtain ⟨b, ps, n, held, read⟩ := s
  cases held with
  | none => cases h
  | some f =>
    cases ps with
    | nil =>
      obtain ⟨-, h⟩ := Option.ite_none_right_eq_some.mp h
      cases h
      exact ⟨f, rfl, rfl, Or.inr ⟨rfl, rfl⟩⟩
    | cons g rest =>
      obtain ⟨b', hb, rfl⟩ := Option.map_eq_some_iff.mp h
      exact ⟨f, rfl, rfl, Or.inl ⟨g, rfl, hb⟩⟩

variable (P) in
/-- The socket is a queue that is read by pairs. -/
def queue : (system P).Sim (Pairs.reader (α := String)) where
  abs := State.socket
  lab := onSocket
  inv _ := True
  inv_step _ _ _ _ _ := trivial
  hidden s l t _ h hl := by
    cases l with
    | arrive | identity | payload => cases hl
    | other l => exact (step_other h).2.1
  shown s l t k _ h hl := by
    cases l with
    | arrive identity payload more =>
      cases hl
      cases h
      rfl
    | identity =>
      cases hl
      obtain ⟨hnone, rfl⟩ := step_identity h
      exact if_pos hnone
    | payload =>
      cases hl
      obtain ⟨f, hf, hsocket, -⟩ := step_payload h
      exact Option.map_eq_some_iff.mpr ⟨f, hf, hsocket.symm⟩
    | other l => cases hl

/-- The identity and the text of a data message. -/
def dataOf : Broker.Label V → Option (String × String)
  | .data identity json => some (identity, json)
  | _ => none

/-- The pairs that have been read are the data messages that the broker has handled, in this order. -/
theorem read_handled {table : ZMQDeviceManagerTable} {ls : List (Label V)} {u : State V}
    (h : (system P).run (start table) ls = some u) :
    ∃ bs, (Broker.system P).run (Broker.start table) bs = some u.broker ∧
      bs.filterMap dataOf = u.socket.read.map fun p => (p.1.content, p.2.content) := by
  refine (system P).run_hist (P := fun _ u => ∃ bs, (Broker.system P).run (Broker.start table) bs =
    some u.broker ∧ bs.filterMap dataOf = u.socket.read.map fun p => (p.1.content, p.2.content))
    ⟨[], rfl, rfl⟩ ?_ h
  rintro ls s l t - ⟨bs, hrun, hread⟩ hl
  cases l with
  | arrive identity payload more =>
    cases hl
    exact ⟨bs, hrun, hread⟩
  | identity =>
    obtain ⟨-, rfl⟩ := step_identity hl
    exact ⟨bs, hrun, hread⟩
  | payload =>
    obtain ⟨f, -, -, ⟨g, hlog, hb⟩ | ⟨hlog, hb⟩⟩ := step_payload hl
    · refine ⟨bs ++ [.data f.content g.content],
        ((Broker.system P).run_concat_iff).mpr ⟨_, hrun, hb⟩, ?_⟩
      rw [List.filterMap_append, hread, hlog, List.map_append]
      rfl
    · exact ⟨bs, by rw [hb, hrun], by rw [hlog, hread]⟩
  | other l =>
    obtain ⟨hb, hsocket, hdata⟩ := step_other hl
    refine ⟨bs ++ [l], ((Broker.system P).run_concat_iff).mpr ⟨_, hrun, hb⟩, ?_⟩
    have hnone : dataOf l = none := by
      cases l with
      | data identity json => exact absurd rfl (hdata identity json)
      | hello | begin | next | tick => rfl
    rw [List.filterMap_append, List.filterMap_cons_none hnone, hread, hsocket]
    simp

/-- In every run, for any messages that are delivered at any time: every payload that is handled is
    attributed to the identity of its own message exactly if every second receive that finds a frame is
    behind a first one that has found an identity. -/
theorem inbound_attributed_iff {table : ZMQDeviceManagerTable} {ls : List (Label V)} {u : State V}
    (h : (system P).run (start table) ls = some u) :
    (∀ pre post s, ls = pre ++ post → (system P).run (start table) pre = some s →
      Pairs.Attributed s.socket) ↔
    (system P).Meets (fun s l => l = .payload → Pairs.InStep s.socket) (start table) ls := by
  have hrun := (queue P).run trivial h
  have hstates := (queue P).states_iff trivial h Pairs.Attributed
  have hmeets := (queue P).meets_iff trivial h fun s l => l = .body → Pairs.InStep s
  refine hstates.trans ((Pairs.attributed_iff hrun).trans (hmeets.symm.trans ?_))
  refine forall₄_congr fun pre l post s => imp_congr_right fun _ => imp_congr_right fun _ => ?_
  cases l with
  | arrive | identity | payload | other => simp [queue, onSocket]

/-- Managers that send one frame each time are never mistaken for others. -/
theorem single_payloads_attributed {table : ZMQDeviceManagerTable} {ls : List (Label V)} {u : State V}
    (h : (system P).run (start table) ls = some u)
    (hsingle : ∀ identity payload more, .arrive identity payload more ∈ ls → more = []) :
    ∀ pre post s, ls = pre ++ post → (system P).run (start table) pre = some s →
      Pairs.Attributed s.socket := by
  refine ((queue P).states_iff trivial h Pairs.Attributed).mpr
    (Pairs.attributed_of_single ((queue P).run trivial h) ?_)
  intro identity payload more hmem
  obtain ⟨l, hl, heq⟩ := List.mem_filterMap.mp hmem
  cases l with
  | arrive =>
    cases heq
    exact hsingle _ _ _ hl
  | identity | payload | other => cases heq

/-- Two messages of one payload each, the second delivered while the first is received. -/
theorem one_payload_attributed : ∃ u, (system (Broker.sample [])).run (start [])
    [.arrive "A800" "x" [], .identity, .arrive "A100" "z" [], .payload, .identity, .payload] = some u ∧
      Pairs.Attributed u.socket := by
  obtain ⟨u, h⟩ : ∃ u, (system (Broker.sample [])).run (start [])
      [.arrive "A800" "x" [], .identity, .arrive "A100" "z" [], .payload, .identity, .payload] = some u :=
    ⟨_, rfl⟩
  have hno : ∀ {s : State Reading} {l : Label Reading}, l ≠ .payload → l = .payload →
      Pairs.InStep s.socket := fun hne heq => absurd heq hne
  have hstates := (inbound_attributed_iff h).mpr (.cons _ (hno (by simp)) rfl (.cons _ (hno (by simp)) rfl
    (.cons _ (hno (by simp)) rfl (.cons _ (fun _ f hf _ => by cases hf; rfl) rfl
      (.cons _ (hno (by simp)) rfl (.cons _ (fun _ f hf _ => by cases hf; rfl) rfl (.nil _)))))))
  exact ⟨u, h, hstates _ [] u (List.append_nil _).symm h⟩

/-- The second payload of one message is taken for an identity, and the next message, delivered behind
    it, begins with what is taken for its payload. -/
theorem second_payload_misread : ¬ ∀ (ls : List (Label Reading)) (s : State Reading),
    (system (Broker.sample [])).run (start []) ls = some s → Pairs.Attributed s.socket := by
  intro h
  have hread := h [.arrive "A800" "x" ["y"], .identity, .payload, .identity, .arrive "A100" "z" [],
    .payload] _ rfl
  have hlast := hread (⟨"y", 0, false⟩, ⟨"A100", 1, true⟩) (by decide)
  cases hlast.1

end Inbound
end BeeeOn
