import Gateway.Managers.Performing
import Gateway.Zmq.Wire

/-! @src zmq/ZMQBroker.cpp, zmq/ZMQClient.cpp, z-wave/ZWaveDeviceManager.cpp,
    jablotron/JablotronDeviceManager.cpp | name:Commands of the server end to end |
    family:distributed system

    The broker handles the commands of the server, each in a task of its own, and sends them to the
    managers, every message in two frames on a socket that the tasks and the broker thread share; each
    manager receives its messages one at a time, and goes on by itself between them. Any message may be
    lost on the way. As long as nobody sends a text while another thread is between its two sends, what
    a manager does comes of the commands that it has received, which were begun at the broker and are
    for it, in the order in which they were sent (`commands_executed`); and none is done more often than
    the manager is in the table (`executed_at_most_once`). -/

namespace BeeeOn.Commands
open Schemes Routing
open Receiving (Kind execute onEvent)
variable {V D : Type}

/-! ### The tasks of the broker -/

/-- The command that a step begins. -/
def begun : Routing.Label V → Option (Command V)
  | .thread (.begin cmd _) => some cmd
  | _ => none

/-- The tasks are those of the commands that were begun, in this order; what they have sent, and what they
    have left, is for managers that the command is for. -/
structure Tasks (P : Broker.Platform V) (cmds : List (Command V)) (s : Routing.State V) : Prop where
  filed : Filed P s
  cmds : s.broker.loops.map Prod.fst = cmds
  left : ∀ x ∈ s.broker.loops, ∀ manager ∈ x.2.2, Addressed x.1 manager = true
  made : ∀ x, s.Made x → Addressed x.entry.cmd x.manager = true

section
variable {P : Broker.Platform V} {cmds : List (Command V)} {s t : Routing.State V}

/-- A thread of the broker other than the tasks keeps the tasks, or begins one. -/
theorem thread_loops {b c : Broker.State V} (hI : Broker.Inv b) {l : Broker.Label V}
    (hl : ∀ k id, l ≠ .next k id) (h : (Broker.system P).step b l = some c) :
    c.loops = b.loops ++ ((begun (.thread l)).map fun cmd =>
      (cmd, b.answers.next, b.table.filter (Addressed cmd))).toList := by
  obtain ⟨-, hcase⟩ := Broker.step_cases h
  cases l with
  | hello json =>
    obtain ⟨-, rfl⟩ := hcase
    obtain ⟨_, _, _, heq⟩ := Broker.hello_eq (P := P) (s := b) json
    rw [heq]
    exact (List.append_nil _).symm
  | data identity json =>
    obtain ⟨-, rfl⟩ := hcase
    rw [Broker.data_loops]
    exact (List.append_nil _).symm
  | begin cmd now =>
    obtain ⟨-, rfl⟩ := hcase
    rw [Broker.begin_loops, recipients_eq]
    rfl
  | next k id => exact absurd rfl (hl k id)
  | tick now =>
    obtain ⟨-, rfl⟩ := hcase
    rw [Broker.tick_eq hI]
    exact (List.append_nil _).symm

theorem tasks_thread (hT : Tasks P cmds s) {l : Broker.Label V} (hl : ∀ k id, l ≠ .next k id)
    {b : Broker.State V} (h : (Broker.system P).step s.broker l = some b)
    (hF : Filed P { s with broker := b }) :
    Tasks P (cmds ++ (begun (.thread l)).toList) { s with broker := b } := by
  have hloops := thread_loops hT.filed.inv hl h
  refine ⟨hF, ?_, fun x hx => ?_, hT.made⟩
  · rw [hloops, List.map_append, hT.cmds]
    cases begun (.thread l) <;> rfl
  · rw [hloops] at hx
    rcases List.mem_append.mp hx with hx | hx
    · exact hT.left x hx
    · obtain ⟨cmd, -, rfl⟩ := Option.map_eq_some_iff.mp (Option.mem_toList.mp hx)
      exact fun manager hm => (List.mem_filter.mp hm).2

theorem tasks_file (hT : Tasks P cmds s) {k : ℕ} {id : GlobalID} (h : file P s k id = some t)
    (hF : Filed P t) : Tasks P cmds t := by
  obtain ⟨cmd, a, manager, managers, msg, hready, hk, -, -, rfl⟩ := file_eq h
  have hmem := List.mem_of_getElem? hk
  refine ⟨hF, ?_, fun x hx => ?_, fun x hx => ?_⟩
  · obtain ⟨hlt, hget⟩ := List.getElem?_eq_some_iff.mp hk
    have hlt' : k < (s.broker.loops.map Prod.fst).length := by simpa using hlt
    have hcmd : cmd = (s.broker.loops.map Prod.fst)[k] := by rw [List.getElem_map, hget]
    rw [← hT.cmds, List.map_set]
    dsimp only
    rw [hcmd, List.set_getElem_self]
  · rcases List.mem_or_eq_of_mem_set hx with hx | rfl
    · exact hT.left x hx
    · exact fun m hm => hT.left _ hmem m (List.mem_cons_of_mem manager hm)
  · rcases hx with hx | hx
    · exact hT.made x (Or.inl hx)
    · dsimp only at hx
      rw [Function.update_apply] at hx
      split_ifs at hx
      · cases hx
        exact hT.left _ hmem manager List.mem_cons_self
      · exact hT.made x (Or.inr hx)

theorem tasks_send (hT : Tasks P cmds s) {k : ℕ} (h : send P s k = some t) (hF : Filed P t) :
    Tasks P cmds t := by
  obtain ⟨x, hx, rfl⟩ := send_eq h
  refine ⟨hF, hT.cmds, hT.left, fun y hy => ?_⟩
  have hready : ∀ k' z, s.ready k' = some z → s.Made z := fun k' z hz =>
    Or.inr ((hT.filed.task k' z hz).symm ▸ hz)
  rcases hy with hy | hy
  · rcases List.mem_append.mp hy with hy | hy
    · exact hT.made y (Or.inl hy)
    · rw [List.mem_singleton.mp hy]
      exact hT.made x (hready k x hx)
  · dsimp only at hy
    rw [Function.update_apply] at hy
    split_ifs at hy
    exact hT.made y (hready _ y hy)

theorem tasks_step (hT : Tasks P cmds s) {l : Routing.Label V} (h : (Routing.system P).step s l = some t) :
    Tasks P (cmds ++ (begun l).toList) t := by
  have hF := filed_step hT.filed h
  rcases Routing.step_cases h with ⟨bl, b, rfl, hl, hb, rfl⟩ | ⟨k, id, rfl, -, hfile⟩ | ⟨k, rfl, hsend⟩
  · exact tasks_thread hT hl hb hF
  · exact (List.append_nil cmds).symm ▸ tasks_file hT hfile hF
  · exact (List.append_nil cmds).symm ▸ tasks_send hT hsend hF

theorem tasks_start (table : ZMQDeviceManagerTable) : Tasks P [] (Routing.start table) := by
  refine ⟨filed_start table, rfl, fun x hx => absurd hx List.not_mem_nil, fun x hx => ?_⟩
  rcases hx with hx | hx <;> cases hx

end

/-! ### The broker with its managers -/

/-- What happens to a manager: a command that it receives, with what its kind is like then, or a step of
    its other threads. -/
inductive Event (V D : Type) where
  | command (K : Kind V D) (x : Outgoing V)
  | own (f : Receiving.State V D → Receiving.State V D)

/-- `toManager` are the frames on the way to each manager, `ended` tells whose client thread has ended.
    `did` is a history: what has happened to each manager. -/
structure State (V D : Type) where
  broker : Wire.State V
  managers : DeviceManagerID → Receiving.State V D
  ended : DeviceManagerID → Bool
  toManager : DeviceManagerID → List (Wire.Content V)
  did : DeviceManagerID → List (Event V D)

inductive Label (V D : Type) where
  | broker (l : Wire.Label V)
  | deliver (k : DeviceManagerID) (K : Kind V D)
  /-- the manager receives a frame that is no command, and does something of its own with it -/
  | other (k : DeviceManagerID) (f : Receiving.State V D → Receiving.State V D)
  | own (k : DeviceManagerID) (f : Receiving.State V D → Receiving.State V D)
  | lost (k : DeviceManagerID)

def init (table : ZMQDeviceManagerTable) (managers : DeviceManagerID → Receiving.State V D) : State V D :=
  ⟨Wire.start table, managers, fun _ => false, fun _ => [], fun _ => []⟩

variable (P : Broker.Platform V)

/-- The router takes the first frame of a message for the identity of who it is for. -/
def payload (k : DeviceManagerID) : List (Wire.Content V) → List (Wire.Content V)
  | .identity manager :: frames => if manager = k then frames else []
  | _ => []

/-- The broker goes to the state `b`; the messages that its socket has emitted are on the way. -/
def State.advance (s : State V D) (b : Wire.State V) : State V D :=
  { s with
    broker := b
    toManager := fun k => s.toManager k ++
      (b.messages.drop s.broker.messages.length).flatMap (payload k) }

/-- Manager `k` receives its next frame, a command; an exception ends its client thread. -/
def deliver (s : State V D) (k : DeviceManagerID) (K : Kind V D) : Option (State V D) :=
  match s.ended k, s.toManager k with
  | false, .command x :: rest =>
    let r := onEvent P.base K (s.managers k) x.message
    some
      { s with
        managers := Function.update s.managers k r.2
        ended := Function.update s.ended k (!r.1.toBool)
        toManager := Function.update s.toManager k rest
        did := Function.update s.did k (s.did k ++ [.command K x]) }
  | _, _ => none

/-- The other threads of manager `k` change its members. -/
def own (s : State V D) (k : DeviceManagerID) (f : Receiving.State V D → Receiving.State V D) :
    State V D :=
  { s with
    managers := Function.update s.managers k (f (s.managers k))
    did := Function.update s.did k (s.did k ++ [.own f]) }

/-- The next frame for manager `k` is taken away. -/
def State.drop (s : State V D) (k : DeviceManagerID) : State V D :=
  { s with toManager := Function.update s.toManager k (s.toManager k).tail }

/-- Manager `k` receives its next frame, which is no command. -/
def other (s : State V D) (k : DeviceManagerID) (f : Receiving.State V D → Receiving.State V D) :
    Option (State V D) :=
  match s.ended k, s.toManager k with
  | false, .reply _ :: _ | false, .error _ :: _ | false, .identity _ :: _ => some (own (s.drop k) k f)
  | _, _ => none

def system : Lts (State V D) (Label V D) where
  step s
    | .broker l => ((Wire.system P).step s.broker l).map s.advance
    | .deliver k K => deliver P s k K
    | .other k f => other s k f
    | .own k f => some (own s k f)
    | .lost k => some (s.drop k)

/-- The condition on a step: a text is sent while no other thread is between its two sends. -/
def Alone (s : State V D) : Label V D → Prop
  | .broker l => Wire.Alone s.broker l
  | _ => True

/-! ### What is to hold -/

def Event.received : Event V D → Option (Outgoing V)
  | .command _ x => some x
  | .own _ => none

/-- The messages that manager `k` has received. -/
def State.received (s : State V D) (k : DeviceManagerID) : List (Outgoing V) :=
  (s.did k).filterMap Event.received

def command? : Wire.Content V → Option (Outgoing V)
  | .command x => some x
  | _ => none

/-- The commands on the way to manager `k`. -/
def State.coming (s : State V D) (k : DeviceManagerID) : List (Outgoing V) :=
  (s.toManager k).filterMap command?

/-- The messages that the broker has sent to manager `k`. -/
def State.sentTo (s : State V D) (k : DeviceManagerID) : List (Outgoing V) :=
  s.broker.routing.sent.filter (·.manager = k)

/-- What an event does to its manager: a command is done as it has been given to the broker. -/
def apply (B : Base V) (s : Receiving.State V D) : Event V D → Receiving.State V D
  | .command K x => (execute B K s x.entry.cmd).2
  | .own f => f s

/-- What the broker does in a step. -/
def Label.broker? : Label V D → Option (Wire.Label V)
  | .broker l => some l
  | _ => none

/-- The step of the broker, if it is not the first send of a message or of a reply. -/
def Label.turn (l : Label V D) : Option (Routing.Label V) := l.broker?.bind Wire.turn

/-- The commands that are begun in a run. -/
def commands (ls : List (Label V D)) : List (Command V) := (ls.filterMap Label.turn).filterMap begun

/-- A manager has come to its state by what has happened to it; what it has received and what is on the way
    to it was sent to it, in this order, and that is all if nothing for it was lost. -/
structure Inv (P : Broker.Platform V) (managers : DeviceManagerID → Receiving.State V D)
    (ls : List (Label V D)) (s : State V D) : Prop where
  tasks : Tasks P (commands ls) s.broker.routing
  kept : Wire.Kept s.broker
  state : ∀ k, s.managers k = (s.did k).foldl (apply P.base) (managers k)
  order : ∀ k, (s.received k ++ s.coming k).Sublist (s.sentTo k)
  whole : ∀ k, .lost k ∉ ls → s.received k ++ s.coming k = s.sentTo k

section
variable {P} {managers : DeviceManagerID → Receiving.State V D} {ls : List (Label V D)}
  {s t : State V D}

theorem commands_concat (ls : List (Label V D)) (l : Label V D) :
    commands (ls ++ [l]) = commands ls ++ (l.turn.bind begun).toList := by
  rw [commands, List.filterMap_append, List.filterMap_append]
  refine congrArg (commands ls ++ ·) ?_
  cases h : l.turn with
  | none => simp [h]
  | some k => cases hb : begun k <;> simp [h, hb]

/-- A step that is none of the broker's begins no command. -/
theorem commands_own (ls : List (Label V D)) {l : Label V D} (h : l.broker? = none) :
    commands (ls ++ [l]) = commands ls := by
  rw [commands_concat, Label.turn, h]
  exact List.append_nil _

theorem inv_init (table : ZMQDeviceManagerTable) : Inv P managers [] (init table managers) where
  tasks := tasks_start table
  kept := Wire.kept_start table
  state _ := rfl
  order _ := List.nil_sublist _
  whole _ _ := rfl

/-- What the socket emits in a step is on the way to the manager that it was sent to. -/
theorem advance_coming (hs : Wire.Kept s.broker) {l : Wire.Label V} (halone : Wire.Alone s.broker l)
    {b : Wire.State V} (h : (Wire.system P).step s.broker l = some b) :
    ∃ xs : List (Outgoing V), ∀ k, (s.advance b).sentTo k = s.sentTo k ++ xs.filter (·.manager = k) ∧
      (s.advance b).coming k = s.coming k ++ xs.filter (·.manager = k) := by
  have hcoming : ∀ k, (s.advance b).coming k = s.coming k ++
      ((b.messages.drop s.broker.messages.length).flatMap (payload k)).filterMap command? := fun k => by
    simp only [State.coming, State.advance, List.filterMap_append]
  simp only [hcoming, List.append_cancel_left_eq]
  rcases Wire.step_messages hs halone h with ⟨x, hsent, hmessages⟩ | ⟨hsent, hmessages⟩
  · refine ⟨[x], fun k => ⟨by simp only [State.sentTo, State.advance, hsent, List.filter_append], ?_⟩⟩
    rw [hmessages, List.drop_left]
    by_cases hk : x.manager = k <;> simp [payload, command?, hk]
  · refine ⟨[], fun k => ⟨by simp [State.sentTo, State.advance, hsent], ?_⟩⟩
    rcases hmessages with hsame | ⟨manager, json, hreply⟩ | ⟨json, herror⟩
    · rw [hsame, List.drop_length]
      rfl
    · rw [hreply, List.drop_left]
      by_cases hk : manager = k <;> simp [payload, command?, hk]
    · rw [herror, List.drop_left]
      rfl

theorem inv_broker (hI : Inv P managers ls s) {l : Wire.Label V} (halone : Wire.Alone s.broker l)
    {b : Wire.State V} (h : (Wire.system P).step s.broker l = some b) :
    Inv P managers (ls ++ [.broker l]) (s.advance b) := by
  obtain ⟨xs, hxs⟩ := advance_coming hI.kept halone h
  refine ⟨?_, Wire.kept_step hI.kept halone h, hI.state, fun k => ?_, fun k hk => ?_⟩
  · rw [commands_concat]
    dsimp only [Label.turn, Label.broker?, Option.bind_some]
    cases hl : Wire.turn l with
    | none =>
      have hrouting : b.routing = s.broker.routing := (Wire.routed P).hidden _ _ _ trivial h hl
      rw [Option.bind_none, Option.toList_none, List.append_nil]
      exact hrouting.symm ▸ hI.tasks
    | some r => exact tasks_step hI.tasks ((Wire.routed P).shown _ _ _ r trivial h hl)
  · obtain ⟨hsent, hcoming⟩ := hxs k
    rw [hsent, hcoming, ← List.append_assoc]
    exact (hI.order k).append (List.Sublist.refl _)
  · obtain ⟨hsent, hcoming⟩ := hxs k
    rw [hsent, hcoming, ← List.append_assoc]
    exact congrArg (· ++ _) (hI.whole k fun hlost => hk (List.mem_append_left _ hlost))

/-- What has happened to manager `k` goes on with `e`. -/
theorem state_update {did : DeviceManagerID → List (Event V D)}
    {ms : DeviceManagerID → Receiving.State V D}
    (h : ∀ k, ms k = (did k).foldl (apply P.base) (managers k)) (k : DeviceManagerID) (e : Event V D)
    (k' : DeviceManagerID) : Function.update ms k (apply P.base (ms k) e) k' =
      (Function.update did k (did k ++ [e]) k').foldl (apply P.base) (managers k') := by
  by_cases hk : k' = k
  · subst hk
    rw [Function.update_self, Function.update_self, List.foldl_append, ← h k']
    rfl
  · rw [Function.update_of_ne hk, Function.update_of_ne hk, h k']

theorem received_update (did : DeviceManagerID → List (Event V D)) (k : DeviceManagerID) (e : Event V D)
    (k' : DeviceManagerID) : (Function.update did k (did k ++ [e]) k').filterMap Event.received =
      (did k').filterMap Event.received ++ if k' = k then e.received.toList else [] := by
  by_cases hk : k' = k
  · subst hk
    rw [Function.update_self, List.filterMap_append, if_pos rfl]
    cases e <;> rfl
  · rw [Function.update_of_ne hk, if_neg hk, List.append_nil]

/-- A step that is none of the broker's: what is neither received nor on the way any more has been
    lost. -/
theorem inv_manager (hI : Inv P managers ls s) {l : Label V D} (hl : l.broker? = none)
    (hbroker : t.broker = s.broker)
    (hstate : ∀ k, t.managers k = (t.did k).foldl (apply P.base) (managers k))
    (hsub : ∀ k, (t.received k ++ t.coming k).Sublist (s.received k ++ s.coming k))
    (hall : ∀ k, l ≠ .lost k → t.received k ++ t.coming k = s.received k ++ s.coming k) :
    Inv P managers (ls ++ [l]) t := by
  have hsent : ∀ k, t.sentTo k = s.sentTo k := fun k => by rw [State.sentTo, hbroker]; rfl
  refine ⟨?_, hbroker ▸ hI.kept, hstate, fun k => ?_, fun k hk => ?_⟩
  · rw [commands_own ls hl, hbroker]
    exact hI.tasks
  · rw [hsent]
    exact (hsub k).trans (hI.order k)
  · rw [hsent, hall k fun heq => hk (heq ▸ List.mem_append_right _ (List.mem_singleton_self _))]
    exact hI.whole k fun hlost => hk (List.mem_append_left _ hlost)

/-- A command that is delivered is no longer on the way. -/
theorem deliver_way {k : DeviceManagerID} {K : Kind V D} (h : deliver P s k K = some t)
    (k' : DeviceManagerID) : t.received k' ++ t.coming k' = s.received k' ++ s.coming k' := by
  unfold deliver at h
  split at h
  · next x rest hended hway =>
    obtain rfl := Option.some.inj h
    dsimp only [State.received, State.coming]
    rw [received_update]
    by_cases hk : k' = k
    · subst hk
      rw [Function.update_self, if_pos rfl, hway, List.append_assoc]
      rfl
    · rw [Function.update_of_ne hk, if_neg hk, List.append_nil]
  · cases h

theorem inv_deliver (hB : P.base.Lawful)
    (hT : ∀ t : ZMQMessageType, P.base.parseMessageType t.text = .ok t) (hI : Inv P managers ls s)
    {k : DeviceManagerID} {K : Kind V D} (h : deliver P s k K = some t) :
    Inv P managers (ls ++ [.deliver k K]) t := by
  have hway := deliver_way h
  unfold deliver at h
  split at h
  · next x rest hended hnext =>
    have hmem : x ∈ s.broker.routing.sent := by
      have hin : x ∈ s.received k ++ s.coming k := by simp [State.coming, hnext, command?]
      exact List.mem_of_mem_filter ((hI.order k).mem hin)
    obtain ⟨-, hmsg, -⟩ := hI.tasks.filed.made x (Or.inl hmem)
    obtain rfl := Option.some.inj h
    refine inv_manager hI rfl rfl ?_ (fun k' => hway k' ▸ List.Sublist.refl _) fun k' _ => hway k'
    dsimp only
    rw [Receiving.onEvent_command hB hT hmsg]
    exact state_update hI.state k (.command K x)
  · cases h

theorem received_own (s : State V D) (k : DeviceManagerID)
    (f : Receiving.State V D → Receiving.State V D) (k' : DeviceManagerID) :
    (own s k f).received k' = s.received k' := by
  refine (received_update s.did k (.own f) k').trans ?_
  split_ifs
  · exact List.append_nil _
  · exact List.append_nil _

theorem inv_own (hI : Inv P managers ls s) (k : DeviceManagerID)
    (f : Receiving.State V D → Receiving.State V D) : Inv P managers (ls ++ [.own k f]) (own s k f) := by
  have hway : ∀ k', (own s k f).received k' ++ (own s k f).coming k' = s.received k' ++ s.coming k' :=
    fun k' => by rw [received_own]; rfl
  exact inv_manager hI rfl rfl (state_update hI.state k (.own f))
    (fun k' => hway k' ▸ List.Sublist.refl _) fun k' _ => hway k'

theorem coming_drop (s : State V D) (k k' : DeviceManagerID) : (s.drop k).coming k' =
    if k' = k then ((s.toManager k).tail).filterMap command? else s.coming k' := by
  simp only [State.coming, State.drop, Function.update_apply]
  split_ifs <;> rfl

/-- A frame that is no command takes none away. -/
theorem inv_other (hI : Inv P managers ls s) {k : DeviceManagerID}
    {f : Receiving.State V D → Receiving.State V D} (h : other s k f = some t) :
    Inv P managers (ls ++ [.other k f]) t := by
  have hdrop : ∀ y rest, s.toManager k = y :: rest → command? y = none → t = own (s.drop k) k f →
      Inv P managers (ls ++ [.other k f]) t := by
    rintro y rest hnext hy rfl
    have hway : ∀ k', (own (s.drop k) k f).received k' ++ (own (s.drop k) k f).coming k' =
        s.received k' ++ s.coming k' := fun k' => by
      have hcoming : (own (s.drop k) k f).coming k' = (s.drop k).coming k' := rfl
      rw [received_own, hcoming, coming_drop]
      split_ifs with hk
      · rw [hk, State.coming, hnext, List.tail_cons, List.filterMap_cons_none hy]
        rfl
      · rfl
    exact inv_manager hI rfl rfl (state_update hI.state k (.own f))
      (fun k' => hway k' ▸ List.Sublist.refl _) fun k' _ => hway k'
  unfold other at h
  split at h
  · next _ _ hnext => exact hdrop _ _ hnext rfl (Option.some.inj h).symm
  · next _ _ hnext => exact hdrop _ _ hnext rfl (Option.some.inj h).symm
  · next _ _ hnext => exact hdrop _ _ hnext rfl (Option.some.inj h).symm
  · cases h

theorem inv_lost (hI : Inv P managers ls s) (k : DeviceManagerID) :
    Inv P managers (ls ++ [.lost k]) (s.drop k) := by
  refine inv_manager hI rfl rfl hI.state (fun k' => ?_) fun k' hk' => ?_
  · rw [coming_drop]
    refine (List.Sublist.refl _).append ?_
    split_ifs with hk
    · exact hk ▸ (List.tail_sublist _).filterMap _
    · exact List.Sublist.refl _
  · rw [coming_drop, if_neg fun hk => hk' (by rw [hk])]
    rfl

theorem run_inv (hB : P.base.Lawful)
    (hT : ∀ t : ZMQMessageType, P.base.parseMessageType t.text = .ok t) {table : ZMQDeviceManagerTable}
    (halone : (system P).Meets Alone (init table managers) ls)
    (h : (system P).run (init table managers) ls = some s) : Inv P managers ls s := by
  refine (system P).run_hist_of_meets (P := Inv P managers) (inv_init table) ?_ halone h
  intro ls s l t _ hI halone hl
  cases l with
  | broker l =>
    obtain ⟨b, hb, rfl⟩ := Option.map_eq_some_iff.mp hl
    exact inv_broker hI halone hb
  | deliver k K => exact inv_deliver hB hT hI hl
  | other k f => exact inv_other hI hl
  | own k f =>
    obtain rfl := Option.some.inj hl
    exact inv_own hI k f
  | lost k =>
    obtain rfl := Option.some.inj hl
    exact inv_lost hI k

/-- In every run in which each text is sent while no other thread is between its two sends: a manager has
    come to its state by what has happened to it, each command that it has received being done as it was
    given to the broker; it has received them in the order in which they were sent to it, all of them if
    none was lost and none is on the way; and each was begun at the broker, in the task that has sent it,
    and is for the manager. -/
theorem commands_executed (hB : P.base.Lawful)
    (hT : ∀ t : ZMQMessageType, P.base.parseMessageType t.text = .ok t) {table : ZMQDeviceManagerTable}
    (halone : (system P).Meets Alone (init table managers) ls)
    (h : (system P).run (init table managers) ls = some s) (k : DeviceManagerID) :
    s.managers k = (s.did k).foldl (apply P.base) (managers k) ∧
    (s.received k).Sublist (s.sentTo k) ∧
    (.lost k ∉ ls → s.toManager k = [] → s.received k = s.sentTo k) ∧
    ∀ x ∈ s.received k, (commands ls)[x.task]? = some x.entry.cmd ∧ Addressed x.entry.cmd k = true := by
  have hI := run_inv hB hT halone h
  have hsub : (s.received k).Sublist (s.sentTo k) :=
    (List.sublist_append_left _ _).trans (hI.order k)
  refine ⟨hI.state k, hsub, fun hlost hway => ?_, fun x hx => ?_⟩
  · have hall := hI.whole k hlost
    rwa [State.coming, hway, List.filterMap_nil, List.append_nil] at hall
  · obtain ⟨hsent, hk⟩ := List.mem_filter.mp (hsub.mem hx)
    obtain rfl : x.manager = k := by simpa using hk
    obtain ⟨-, -, rest, hrest⟩ := hI.tasks.filed.made x (Or.inl hsent)
    refine ⟨?_, hI.tasks.made x (Or.inl hsent)⟩
    rw [← hI.tasks.cmds, List.getElem?_map, hrest]
    rfl

variable (P) in
/-- The broker by itself takes the steps that it takes here. -/
def sends : (system P (D := D)).Sim (Routing.system P) where
  abs s := s.broker.routing
  lab := Label.turn
  inv _ := True
  inv_step _ _ _ _ _ := trivial
  hidden s l t _ h hl := by
    cases l with
    | broker l =>
      obtain ⟨b, hb, rfl⟩ := Option.map_eq_some_iff.mp h
      exact (Wire.routed P).hidden _ _ _ trivial hb hl
    | deliver k K =>
      simp only [system, deliver] at h
      split at h <;> cases h
      rfl
    | other k f =>
      simp only [system, other] at h
      split at h <;> cases h <;> rfl
    | own | lost =>
      cases h
      rfl
  shown s l t r _ h hl := by
    cases l with
    | broker l =>
      obtain ⟨b, hb, rfl⟩ := Option.map_eq_some_iff.mp h
      exact (Wire.routed P).shown _ _ _ r trivial hb hl
    | deliver | other | own | lost => cases hl

/-- The messages of a task to manager `k`. -/
theorem count_sentBy (s : State V D) (k : DeviceManagerID) (task : ℕ) :
    ((s.sentTo k).filter (·.task = task)).length = (s.broker.routing.sentBy task).count k := by
  rw [State.sentTo, State.sentBy, List.filter_filter, List.count, List.countP_map,
    List.countP_eq_length_filter, List.filter_filter]
  refine congrArg List.length (List.filter_congr fun x _ => ?_)
  simp [Bool.and_comm, beq_eq_decide]

/-- The step that begins a command. -/
def beginning (cmd : Command V) (now : ℤ) : Label V D := .broker (.routing (.thread (.begin cmd now)))

/-- For every command that is begun in a run: its task goes on to send it to those managers that are in the
    table then and that it is for. -/
theorem routes_of_begin {table : ZMQDeviceManagerTable} {pre post : List (Label V D)} {cmd : Command V}
    {now : ℤ} {b : State V D} (hb : (system P).run (init table managers) pre = some b)
    (h : (system P).run (init table managers) (pre ++ beginning cmd now :: post) = some s) :
    Routes b.broker.routing.broker.loops.length cmd b.broker.routing.broker.answers.next
      (b.broker.routing.broker.table.filter (Addressed cmd)) s.broker.routing := by
  obtain ⟨b', hb', hrest⟩ := ((system P).run_append_iff).mp h
  obtain rfl := Option.some.inj (hb.symm.trans hb')
  obtain ⟨u, hu, hrun⟩ := ((system P).run_cons_iff).mp hrest
  have hF : Filed P b.broker.routing := run_filed ((sends P).run trivial hb)
  have hstep := (sends P).shown _ _ _ _ trivial hu rfl
  have hF' := filed_step hF hstep
  obtain ⟨d, hd, heq⟩ := Option.map_eq_some_iff.mp hstep
  obtain ⟨-, -, rfl⟩ := Broker.step_cases hd
  exact run_routes hF' (heq ▸ routes_begin hF cmd now) ((sends P).run trivial hrun)

/-- In every such run: of the messages of a command, a manager receives no more than it has entries in the
    table when the command is begun, if the command is for it, and else none; and as many if none is
    lost, none is on the way and the task has sent them all. -/
theorem executed_at_most_once (hB : P.base.Lawful)
    (hT : ∀ t : ZMQMessageType, P.base.parseMessageType t.text = .ok t) {table : ZMQDeviceManagerTable}
    {pre post : List (Label V D)} {cmd : Command V} {now : ℤ} {b : State V D}
    (hb : (system P).run (init table managers) pre = some b)
    (halone : (system P).Meets Alone (init table managers) (pre ++ beginning cmd now :: post))
    (h : (system P).run (init table managers) (pre ++ beginning cmd now :: post) = some s)
    (k : DeviceManagerID) :
    ((s.received k).filter (·.task = b.broker.routing.broker.loops.length)).length ≤
      (b.broker.routing.broker.table.filter (Addressed cmd)).count k ∧
    (.lost k ∉ pre ++ beginning cmd now :: post → s.toManager k = [] →
      s.broker.routing.sentBy b.broker.routing.broker.loops.length =
        b.broker.routing.broker.table.filter (Addressed cmd) →
        ((s.received k).filter (·.task = b.broker.routing.broker.loops.length)).length =
          (b.broker.routing.broker.table.filter (Addressed cmd)).count k) := by
  have hI := run_inv hB hT halone h
  obtain ⟨rest, -, hall⟩ := routes_of_begin hb h
  constructor
  · have hreceived : (s.received k).Sublist (s.sentTo k) :=
      (List.sublist_append_left _ _).trans (hI.order k)
    have hsentBy : (s.broker.routing.sentBy b.broker.routing.broker.loops.length).Sublist
        (b.broker.routing.broker.table.filter (Addressed cmd)) := by
      rw [← hall, List.append_assoc]
      exact List.sublist_append_left _ _
    calc ((s.received k).filter (·.task = b.broker.routing.broker.loops.length)).length
        ≤ ((s.sentTo k).filter (·.task = b.broker.routing.broker.loops.length)).length :=
          (hreceived.filter _).length_le
      _ = (s.broker.routing.sentBy b.broker.routing.broker.loops.length).count k := count_sentBy s k _
      _ ≤ (b.broker.routing.broker.table.filter (Addressed cmd)).count k := hsentBy.count_le k
  · intro hlost hway hsent
    have hreceived := hI.whole k hlost
    rw [State.coming, hway, List.filterMap_nil, List.append_nil] at hreceived
    rw [hreceived, count_sentBy, hsent]

end

/-! ### A device is unpaired -/

def jablotronID : DeviceManagerID := ⟨0x0900⟩

/-- Steps of a broker with two managers before the command, and those in which it is done: an error and a
    reply to the other manager are sent before it, and a second command is begun between its two sends. -/
def sampleBefore : List (Label Reading JablotronDeviceManager.Outputs) :=
  [.broker (.routing (.thread (.tick 1))), .own ⟨0xa800⟩ fun s => { s with table := [] }]

def sampleAfter : List (Label Reading JablotronDeviceManager.Outputs) :=
  [.broker (.routing (.file 0 ⟨7⟩)), .broker (.error "json syntax"), .broker (.replyIdentity ⟨0xa800⟩),
    .broker (.reply "no command"), .broker (.identity 0),
    .broker (.routing (.thread (.begin (.gatewayListen 5) 2))), .broker (.command 0),
    .other ⟨0xa800⟩ id, .deliver jablotronID Receiving.aJablotron]

def sampleCommand : Command Reading := .deviceUnpair ⟨⟨0x09⟩, 1⟩

def sampleInit : State Reading JablotronDeviceManager.Outputs :=
  init [⟨0xa800⟩, jablotronID] fun _ =>
    { Receiving.start .init with devices := {⟨⟨0x09⟩, 1⟩, ⟨⟨0x09⟩, 2⟩} }

def sampleRun : List (Label Reading JablotronDeviceManager.Outputs) :=
  sampleBefore ++ beginning sampleCommand 1 :: sampleAfter

def sampleBegin : State Reading JablotronDeviceManager.Outputs :=
  ((system (Broker.sample [])).run sampleInit sampleBefore).getD sampleInit

def sampleState : State Reading JablotronDeviceManager.Outputs :=
  ((system (Broker.sample [])).run sampleInit sampleRun).getD sampleInit

theorem sample_begin : (system (Broker.sample [])).run sampleInit sampleBefore = some sampleBegin := rfl

theorem sample_run : (system (Broker.sample [])).run sampleInit sampleRun = some sampleState := rfl

/-- Each text is sent by a thread that is alone between its two sends. -/
theorem sample_alone : (system (Broker.sample [])).Meets Alone sampleInit sampleRun := by
  refine .cons _ trivial rfl (.cons _ trivial rfl (.cons _ trivial rfl (.cons _ trivial rfl
    (.cons _ ?_ rfl (.cons _ trivial rfl (.cons _ ?_ rfl (.cons _ trivial rfl (.cons _ trivial rfl
      (.cons _ ?_ rfl (.cons _ trivial rfl (.cons _ trivial rfl (.nil _))))))))))))
  · intro x hx
    cases hx
  · intro x hx
    rw [List.mem_singleton.mp hx]
  · intro x hx
    rw [List.mem_singleton.mp hx]

theorem sample_lawful : (Broker.sample []).base.Lawful := Sample.lawful_parseJson Sample.base_lawful _

theorem sample_types (t : ZMQMessageType) : (Broker.sample []).base.parseMessageType t.text = .ok t := by
  cases t <;> rfl

/-- The manager has received what was sent to it, and its set of devices is what is left. -/
theorem sample_executed : sampleState.received jablotronID = sampleState.sentTo jablotronID ∧
    (sampleState.managers jablotronID).devices = {⟨⟨0x09⟩, 2⟩} := by
  obtain ⟨hstate, -, hall, -⟩ := commands_executed sample_lawful sample_types sample_alone sample_run
    jablotronID
  refine ⟨hall (by simp [sampleRun, sampleBefore, sampleAfter, beginning]) rfl, ?_⟩
  rw [hstate]
  decide

/-- It has received one message of the command. -/
theorem sample_at_most_once : ((sampleState.received jablotronID).filter (·.task = 0)).length = 1 := by
  have hcount := (executed_at_most_once sample_lawful sample_types sample_begin sample_alone sample_run
    jablotronID).2
  exact hcount (by simp [sampleBefore, sampleAfter, beginning]) rfl rfl

end BeeeOn.Commands
