import Gateway.Schemes.Multipart
import Gateway.Zmq.Routing

/-! @src zmq/ZMQBroker.cpp, util/ZMQUtil.cpp | name:The commands on the data socket |
    family:interleaving

    The identity of a manager and the text for it are two sends, and the tasks and the broker thread,
    which sends its replies in the same way and the text of an error alone, share the socket. Here each
    send is a step of its own. The second one of a task is the step of `Routing.system` that sends the
    message (`routed`). As long as nobody sends a text while another thread is between its two sends, the
    socket emits just these messages, each with the identity that it is for, and the replies and errors
    between them (`step_messages`). -/

namespace BeeeOn
open Schemes
variable {V : Type}

namespace Wire
open Routing (Outgoing)

/-- What a frame holds. -/
inductive Content (V : Type) where
  | identity (manager : DeviceManagerID)
  | command (x : Outgoing V)
  | reply (json : String)
  | error (json : String)

structure State (V : Type) where
  routing : Routing.State V
  wire : Multipart.State (Content V)

inductive Label (V : Type) where
  /-- a step of the broker other than a send -/
  | routing (l : Routing.Label V)
  /-- `sendMultipart` in the loop of `handle` -/
  | identity (k : ℕ)
  /-- `send` in the loop of `handle` -/
  | command (k : ℕ)
  /-- `sendMultipart` in `checkQueue` -/
  | replyIdentity (manager : DeviceManagerID)
  /-- `send` in `checkQueue` -/
  | reply (json : String)
  /-- `sendError`, between any two messages that the broker thread sends -/
  | error (json : String)

def start (table : ZMQDeviceManagerTable) : State V := ⟨Routing.start table, Multipart.init⟩

/-- The number of a task; the broker thread is 0. -/
def thread (k : ℕ) : ℕ := k + 1

variable (P : Broker.Platform V)

def system : Lts (State V) (Label V) where
  step s
    | .routing (.send _) => none
    | .routing l => ((Routing.system P).step s.routing l).map fun r => { s with routing := r }
    | .identity k => (s.routing.ready k).bind fun x =>
      (Multipart.channel.step s.wire (.head (thread k) (.identity x.manager))).map fun w =>
        { s with wire := w }
    | .command k => (s.routing.ready k).bind fun x =>
      (Multipart.channel.step s.wire (.body (thread k) (.command x))).bind fun w =>
        ((Routing.system P).step s.routing (.send k)).map fun r => ⟨r, w⟩
    | .replyIdentity manager =>
      (Multipart.channel.step s.wire (.head 0 (.identity manager))).map fun w => { s with wire := w }
    | .reply json =>
      (Multipart.channel.step s.wire (.body 0 (.reply json))).map fun w => { s with wire := w }
    | .error json => match s.wire.pending.lookup 0 with
      | none => some { s with wire := s.wire.lone (.error json) }
      | some _ => none

/-- The messages that the socket has emitted. -/
def State.messages (s : State V) : List (List (Content V)) := (Multipart.join [] s.wire.frames).1

/-- The condition on a step: a text is sent while no other thread is between identity and text. -/
def Alone (s : State V) : Label V → Prop
  | .command k => ∀ x ∈ s.wire.pending, x.1 = thread k
  | .reply _ | .error _ => ∀ x ∈ s.wire.pending, x.1 = 0
  | _ => True

/-- The step of the broker whose sends are one step. -/
def turn : Label V → Option (Routing.Label V)
  | .routing l => some l
  | .command k => some (.send k)
  | _ => none

/-- What a step does. -/
inductive Steps (P : Broker.Platform V) (s : State V) : Label V → State V → Prop
  | routing (l : Routing.Label V) (r : Routing.State V) (hl : ∀ k, l ≠ .send k)
      (h : (Routing.system P).step s.routing l = some r) :
      Steps P s (.routing l) { s with routing := r }
  | identity (k : ℕ) (x : Outgoing V) (w : Multipart.State (Content V))
      (hready : s.routing.ready k = some x)
      (hw : Multipart.channel.step s.wire (.head (thread k) (.identity x.manager)) = some w) :
      Steps P s (.identity k) { s with wire := w }
  | command (k : ℕ) (x : Outgoing V) (w : Multipart.State (Content V)) (r : Routing.State V)
      (hready : s.routing.ready k = some x)
      (hw : Multipart.channel.step s.wire (.body (thread k) (.command x)) = some w)
      (h : (Routing.system P).step s.routing (.send k) = some r) : Steps P s (.command k) ⟨r, w⟩
  | replyIdentity (manager : DeviceManagerID) (w : Multipart.State (Content V))
      (hw : Multipart.channel.step s.wire (.head 0 (.identity manager)) = some w) :
      Steps P s (.replyIdentity manager) { s with wire := w }
  | reply (json : String) (w : Multipart.State (Content V))
      (hw : Multipart.channel.step s.wire (.body 0 (.reply json)) = some w) :
      Steps P s (.reply json) { s with wire := w }
  | error (json : String) (hnone : s.wire.pending.lookup 0 = none) :
      Steps P s (.error json) { s with wire := s.wire.lone (.error json) }

/-- What holds as long as every text is sent by a thread that is alone between identity and text: a task
    in between has sent the identity that its message is for. -/
structure Kept (s : State V) : Prop where
  inTurn : Multipart.InTurn s.wire
  head : ∀ k y, (thread k, y) ∈ s.wire.pending →
    ∃ x, s.routing.ready k = some x ∧ y = .identity x.manager
  reply : ∀ y, (0, y) ∈ s.wire.pending → ∃ manager, y = .identity manager

section
variable {P} {s t : State V} {l : Label V}

theorem steps_of_step (h : (system P).step s l = some t) : Steps P s l t := by
  cases l with
  | routing l =>
    cases l with
    | send k => cases h
    | thread l =>
      obtain ⟨r, hr, rfl⟩ := Option.map_eq_some_iff.mp h
      exact .routing _ r (fun k hk => by cases hk) hr
    | file k id =>
      obtain ⟨r, hr, rfl⟩ := Option.map_eq_some_iff.mp h
      exact .routing _ r (fun k hk => by cases hk) hr
  | identity k =>
    obtain ⟨x, hready, hmap⟩ := Option.bind_eq_some_iff.mp h
    obtain ⟨w, hw, rfl⟩ := Option.map_eq_some_iff.mp hmap
    exact .identity k x w hready hw
  | command k =>
    obtain ⟨x, hready, hbind⟩ := Option.bind_eq_some_iff.mp h
    obtain ⟨w, hw, hmap⟩ := Option.bind_eq_some_iff.mp hbind
    obtain ⟨r, hr, rfl⟩ := Option.map_eq_some_iff.mp hmap
    exact .command k x w r hready hw hr
  | replyIdentity manager =>
    obtain ⟨w, hw, rfl⟩ := Option.map_eq_some_iff.mp h
    exact .replyIdentity manager w hw
  | reply json =>
    obtain ⟨w, hw, rfl⟩ := Option.map_eq_some_iff.mp h
    exact .reply json w hw
  | error json =>
    simp only [system] at h
    split at h
    · next hnone => exact Option.some.inj h ▸ .error json hnone
    · cases h

/-- A thread that sends an error is not in between, so nobody is if it is alone. -/
theorem pending_nil {json : String} (halone : Alone s (.error json))
    (hnone : s.wire.pending.lookup 0 = none) : s.wire.pending = [] := by
  refine List.eq_nil_iff_forall_not_mem.mpr fun x hx => ?_
  have hne := List.lookup_eq_none_iff.mp hnone x hx
  rw [halone x hx] at hne
  simp at hne

variable (P) in
/-- With the second send as the one that sends the message, the broker does what it does there. -/
def routed : (system P).Sim (Routing.system P) where
  abs := State.routing
  lab := turn
  inv _ := True
  inv_step _ _ _ _ _ := trivial
  hidden s l t _ h hl := by
    cases steps_of_step h with
    | routing | command => cases hl
    | identity | replyIdentity | reply | error => rfl
  shown s l t k _ h hl := by
    cases steps_of_step h with
    | routing l r hsend hstep => exact Option.some.inj hl ▸ hstep
    | command k x w r hready hw hstep => exact Option.some.inj hl ▸ hstep
    | identity | replyIdentity | reply | error => cases hl

/-- A step of the broker that is no send leaves what is ready for a task in between. -/
theorem ready_kept {r r' : Routing.State V} {k : ℕ} {x : Outgoing V} {l : Routing.Label V}
    (hl : ∀ k, l ≠ .send k) (h : (Routing.system P).step r l = some r') (hx : r.ready k = some x) :
    r'.ready k = some x := by
  rcases Routing.step_cases h with ⟨bl, b, -, -, -, rfl⟩ | ⟨k', id, -, -, hfile⟩ | ⟨k', rfl, -⟩
  · exact hx
  · obtain ⟨cmd, a, manager, managers, msg, hready, -, -, -, rfl⟩ := Routing.file_eq hfile
    have hne : k ≠ k' := by
      rintro rfl
      rw [hready] at hx
      cases hx
    exact (Function.update_of_ne hne ..).trans hx
  · exact absurd rfl (hl k')

theorem kept_start (table : ZMQDeviceManagerTable) : Kept (start table : State V) :=
  ⟨Multipart.inTurn_init, fun _ _ h => absurd h List.not_mem_nil,
    fun _ h => absurd h List.not_mem_nil⟩

theorem kept_step (hs : Kept s) (halone : Alone s l) (h : (system P).step s l = some t) : Kept t := by
  cases steps_of_step h with
  | routing l r hl hstep =>
    refine ⟨hs.inTurn, fun k y hy => ?_, hs.reply⟩
    obtain ⟨x, hx, hyx⟩ := hs.head k y hy
    exact ⟨x, ready_kept hl hstep hx, hyx⟩
  | identity k x w hready hw =>
    obtain ⟨hpending, -⟩ := Multipart.messages_head hw
    refine ⟨Multipart.inTurn_head hs.inTurn hw, fun k' y hy => ?_, fun y hy => ?_⟩
    all_goals
      dsimp only at hy
      rw [hpending, List.mem_append, List.mem_singleton, Prod.mk.injEq] at hy
      rcases hy with hy | ⟨hk, rfl⟩
    · exact hs.head k' y hy
    · obtain rfl : k' = k := Nat.succ.inj hk
      exact ⟨x, hready, rfl⟩
    · exact hs.reply y hy
    · cases hk
  | command k x w r hready hw hstep =>
    obtain ⟨-, -, hpending, -⟩ := Multipart.messages_body hs.inTurn halone hw
    exact ⟨Multipart.inTurn_body hs.inTurn halone hw, by simp [hpending], by simp [hpending]⟩
  | replyIdentity manager w hw =>
    obtain ⟨hpending, -⟩ := Multipart.messages_head hw
    refine ⟨Multipart.inTurn_head hs.inTurn hw, fun k' y hy => ?_, fun y hy => ?_⟩
    all_goals
      dsimp only at hy
      rw [hpending, List.mem_append, List.mem_singleton, Prod.mk.injEq] at hy
      rcases hy with hy | ⟨hk, rfl⟩
    · exact hs.head k' y hy
    · cases hk
    · exact hs.reply y hy
    · exact ⟨manager, rfl⟩
  | reply json w hw =>
    obtain ⟨-, -, hpending, -⟩ := Multipart.messages_body hs.inTurn halone hw
    exact ⟨Multipart.inTurn_body hs.inTurn halone hw, by simp [hpending], by simp [hpending]⟩
  | error json hnone =>
    have hp := pending_nil halone hnone
    refine ⟨(Multipart.messages_lone hs.inTurn hp _).1, fun k y hy => ?_, fun y hy => ?_⟩
    all_goals
      change _ ∈ s.wire.pending at hy
      rw [hp] at hy
      cases hy

/-- What the socket emits in a step: the message that is sent in it, with the identity of its manager, or
    a reply, or an error. -/
theorem step_messages (hs : Kept s) (halone : Alone s l) (h : (system P).step s l = some t) :
    (∃ x, t.routing.sent = s.routing.sent ++ [x] ∧
      t.messages = s.messages ++ [[.identity x.manager, .command x]]) ∨
    (t.routing.sent = s.routing.sent ∧ (t.messages = s.messages ∨
      (∃ manager json, t.messages = s.messages ++ [[.identity manager, .reply json]]) ∨
      ∃ json, t.messages = s.messages ++ [[.error json]])) := by
  cases steps_of_step h with
  | routing l r hl hstep =>
    refine Or.inr ⟨?_, Or.inl rfl⟩
    rcases Routing.step_cases hstep with ⟨bl, b, -, -, -, rfl⟩ | ⟨k, id, -, -, hfile⟩ | ⟨k, rfl, -⟩
    · rfl
    · obtain ⟨_, _, _, _, _, -, -, -, -, rfl⟩ := Routing.file_eq hfile
      rfl
    · exact absurd rfl (hl k)
  | identity k x w hready hw => exact Or.inr ⟨rfl, Or.inl (Multipart.messages_head hw).2⟩
  | command k x w r hready hw hstep =>
    obtain ⟨y, hpending, -, -, hmessages, -⟩ := Multipart.messages_body hs.inTurn halone hw
    obtain ⟨x', hx', rfl⟩ := hs.head k y (hpending ▸ List.mem_singleton_self _)
    obtain rfl := Option.some.inj (hready.symm.trans hx')
    refine Or.inl ⟨x, ?_, hmessages⟩
    rcases Routing.step_cases hstep with ⟨bl, b, hl, -⟩ | ⟨k', id, hl, -⟩ | ⟨k', hl, hsend⟩
    · cases hl
    · cases hl
    · cases hl
      obtain ⟨x', hx', rfl⟩ := Routing.send_eq hsend
      rw [Option.some.inj (hready.symm.trans hx')]
  | replyIdentity manager w hw => exact Or.inr ⟨rfl, Or.inl (Multipart.messages_head hw).2⟩
  | reply json w hw =>
    obtain ⟨y, hpending, -, -, hmessages, -⟩ := Multipart.messages_body hs.inTurn halone hw
    obtain ⟨manager, rfl⟩ := hs.reply y (hpending ▸ List.mem_singleton_self _)
    exact Or.inr ⟨rfl, Or.inr (Or.inl ⟨manager, json, hmessages⟩)⟩
  | error json hnone =>
    exact Or.inr ⟨rfl, Or.inr (Or.inr ⟨json,
      (Multipart.messages_lone hs.inTurn (pending_nil halone hnone) _).2⟩)⟩

end

end Wire
end BeeeOn
