import Gateway.Core.Refusal
import Gateway.Zmq.Message
import Gateway.Zmq.Requests
import Gateway.Model.Sample

/-! @src zmq/ZMQBroker.cpp, core/Answer.cpp | name:Owners of the dirty answers | family:request-reply

    `checkQueue` looks a dirty answer up in `m_resultTable` and uses what it finds without a test. An
    answer enters the queue in its constructor, before the request is decoded and before it has an
    entry, and decoding may raise in between: such an answer stays in the queue for good. This module
    has `doDeviceListCommand` and `doDeviceLastValueCommand` statement by statement, with whatever the
    handlers do to the answers in between. An answer is marked by `dispatch` or by a handler that has
    been given it, and both come after the entry (`Inv`), so the lookup always finds one
    (`dirty_owned`). -/

namespace BeeeOn
open Schemes AnswerQueue

namespace Owners
variable {V : Type}

/-- Where the broker thread is. `decoding` and `inserting` have created answer `a` and not yet entered
    it; `dispatching` has `todo` to offer the command to; `sending` is at the head of the loop over the
    results of the first answer of `as`; `astray` has used the end iterator. -/
inductive Phase (V : Type) where
  | idle
  | decoding (a : ℕ) (manager : DeviceManagerID) (m : ZMQMessage) (cmd : Except Exn (Command V))
  | inserting (a : ℕ) (manager : DeviceManagerID) (m : ZMQMessage) (cmd : Command V)
  | dispatching (a : ℕ) (cmd : Command V) (todo : List (CommandHandler V))
  | scanning (todo taken : List ℕ)
  | sending (as : List ℕ) (i : ℕ)
  | astray

/-- `origin` is the request for which an answer was created, and who sent it; no step reads it. -/
structure State (V : Type) where
  queue : AnswerQueue V
  resultTable : ℕ → Option (ResultData V)
  started : List (CommandRunner V)
  out : List (Reply V)
  pc : Phase V
  origin : ℕ → Option (DeviceManagerID × ZMQMessage)

/-- What a handler can do to the answer it is given: a result of it is named by its index. -/
inductive Update (V : Type) where
  | create (p : Payload V)
  | setStatus (i : ℕ) (s : Status)
  | setPayload (i : ℕ) (p : Payload V)
  | notify

def Update.apply (q : AnswerQueue V) (a : ℕ) : Update V → AnswerQueue V
  | .create p => q.addResult a p
  | .setStatus i s => q.afterSetStatus a i s
  | .setPayload i p => q.setPayload a i p
  | .notify => q.notifyUpdated a

/-- The steps of the broker thread. -/
inductive Move (V : Type) where
  | receive (manager : DeviceManagerID) (m : ZMQMessage)
  | decode
  | insert
  | offer
  | start (pool : ℕ → Bool)
  | scan
  | visit
  | endScan
  | send
  | leave

inductive Label (V : Type) where
  | broker (l : Move V)
  | update (k : ℕ) (u : Update V)

variable (B : Base V) (hs : List (CommandHandler V))

/-- The first statement of `doDeviceListCommand` and `doDeviceLastValueCommand`; `cmd` is what the next
    one will make of the message. -/
def doCommand (s : State V) (manager : DeviceManagerID) (m : ZMQMessage) (cmd : Except Exn (Command V)) :
    State V :=
  { s with
    queue := s.queue.newAnswer
    pc := .decoding s.queue.next manager m cmd
    origin := Function.update s.origin s.queue.next (some (manager, m)) }

def doDeviceListCommand (s : State V) (manager : DeviceManagerID) (m : ZMQMessage) : State V :=
  doCommand s manager m (m.toDeviceListRequest B)

def doDeviceLastValueCommand (s : State V) (manager : DeviceManagerID) (m : ZMQMessage) : State V :=
  doCommand s manager m (m.toServerLastValueCommand B)

/-- `handleDataMessage`; the messages of the other types do not come to the queue or the table. -/
def handleDataMessage (s : State V) (manager : DeviceManagerID) (m : ZMQMessage) : State V :=
  match m.type B with
  | .ok .deviceLastValueCmd => doDeviceLastValueCommand B s manager m
  | .ok .deviceListCmd => doDeviceListCommand B s manager m
  | _ => s

/-- `std::map::insert`. -/
def insert (table : ℕ → Option (ResultData V)) (a : ℕ) (d : ResultData V) : ℕ → Option (ResultData V) :=
  if table a = none then Function.update table a (some d) else table

/-- The critical section at the end of `dispatch`, over a pool that may refuse: an exception ends the
    handling of the message as its return does. -/
def start (pool : ℕ → Bool) (s : State V) (a : ℕ) : State V :=
  let d := if (s.queue.heap a).isPending then s.queue.runCommandsIn pool a
    else ⟨s.queue.notifyUpdated a, [], false⟩
  { s with queue := d.queue, started := s.started ++ d.started, pc := .idle }

/-- A turn of the loops of `checkQueue`. An answer never loses a result, so the result is there. -/
def send (s : State V) (a : ℕ) (as : List ℕ) (i : ℕ) : State V :=
  match (s.queue.heap a).results[i]? with
  | none => { s with pc := .sending as 0 }
  | some r => match s.resultTable a with
    | none => { s with pc := .astray }
    | some d =>
      { s with
        out := s.out ++ [⟨d.deviceManagerID, d.resultID, r, a, i⟩]
        pc := .sending (a :: as) (i + 1) }

def broker (s : State V) : Move V → Option (State V)
  | .receive manager m => match s.pc with
    | .idle => some (handleDataMessage B s manager m)
    | _ => none
  | .decode => match s.pc with
    | .decoding a manager m (.ok cmd) => some { s with pc := .inserting a manager m cmd }
    | .decoding _ _ _ (.error _) => some { s with pc := .idle }
    | _ => none
  | .insert => match s.pc with
    | .inserting a manager m cmd => match m.id B with
      | .ok id => some
          { s with
            resultTable := insert s.resultTable a ⟨id, manager, cmd⟩
            pc := .dispatching a cmd hs }
      | .error _ => some { s with pc := .idle }
    | _ => none
  | .offer => match s.pc with
    | .dispatching a cmd (h :: todo) => some
        { s with queue := s.queue.offer cmd a h, pc := .dispatching a cmd todo }
    | _ => none
  | .start pool => match s.pc with
    | .dispatching a _ [] => some (start pool s a)
    | _ => none
  | .scan => match s.pc with
    | .idle => some { s with pc := .scanning s.queue.answerList [] }
    | _ => none
  | .visit => match s.pc with
    | .scanning (a :: todo) taken => some
        { s with
          queue := (s.queue.visit a).2
          pc := .scanning todo (if (s.queue.heap a).dirty then taken ++ [a] else taken) }
    | _ => none
  | .endScan => match s.pc with
    | .scanning [] taken => some { s with pc := .sending taken 0 }
    | _ => none
  | .send => match s.pc with
    | .sending (a :: as) i => some (send s a as i)
    | _ => none
  | .leave => match s.pc with
    | .sending [] _ => some { s with pc := .idle }
    | _ => none

/-- The broker thread, and the handlers at work on the answers of the tasks that have been started; a
    handler may keep the answer and come back to it at any time. -/
def system : Lts (State V) (Label V) where
  step
    | s, .broker l => broker B hs s l
    | s, .update k u => s.started[k]?.map fun c => { s with queue := u.apply s.queue c.answer }

def init : State V := ⟨.empty, fun _ => none, [], [], .idle, fun _ => none⟩

/-- The answers that `wait` has taken and `checkQueue` has not done with. -/
def State.returned (s : State V) : List ℕ :=
  match s.pc with
  | .scanning _ taken => taken
  | .sending as _ => as
  | _ => []

/-- The answer has an entry, and it holds the manager and the id of the request that it was made for. -/
def Owned (s : State V) (a : ℕ) : Prop :=
  ∃ d manager m, s.resultTable a = some d ∧ s.origin a = some (manager, m) ∧
    d.deviceManagerID = manager ∧ m.id B = .ok d.resultID

/-- What the invariant says of the phases. -/
def Fits (s : State V) : Phase V → Prop
  | .idle => True
  | .decoding a manager m _ | .inserting a manager m _ =>
    s.origin a = some (manager, m) ∧ s.resultTable a = none ∧ a < s.queue.next
  | .dispatching a _ _ => Owned B s a
  | .scanning _ taken => ∀ a ∈ taken, Owned B s a
  | .sending as _ => ∀ a ∈ as, Owned B s a
  | .astray => False

/-- An answer is given to tasks, and marked, only after it has its entry. -/
structure Inv (s : State V) : Prop where
  dirty : ∀ a, (s.queue.heap a).dirty = true → Owned B s a
  counted : ∀ a, ∀ c ∈ (s.queue.heap a).commandList, c.answer = a
  started : ∀ c ∈ s.started, Owned B s c.answer
  unborn : ∀ a, s.queue.next ≤ a → s.origin a = none ∧ s.resultTable a = none
  phase : Fits B s s.pc

theorem inv_init : Inv B (init : State V) := by
  refine ⟨fun a h => ?_, fun a c h => ?_, fun c h => ?_, fun a _ => ⟨rfl, rfl⟩, trivial⟩
  · cases h
  · cases h
  · cases h

/-! ### One step -/

theorem apply_frame (q : AnswerQueue V) (a : ℕ) (u : Update V) : (u.apply q a).next = q.next ∧
    (∀ b, ((u.apply q a).heap b).commandList = (q.heap b).commandList) ∧
      ∀ b ≠ a, (u.apply q a).heap b = q.heap b := by
  have hmodify : ∀ f : Answer V → Answer V, (∀ x, (f x).commandList = x.commandList) →
      (∀ b, ((q.modify a f).heap b).commandList = (q.heap b).commandList) ∧
        ∀ b ≠ a, (q.modify a f).heap b = q.heap b := by
    intro f hf
    refine ⟨fun b => ?_, fun b hb => modify_heap_ne q f hb⟩
    rw [modify_heap]
    split_ifs with hb
    · rw [hf, hb]
    · rfl
  cases u with
  | create p => exact ⟨rfl, hmodify (·.addResult (.new p)) fun _ => rfl⟩
  | notify => exact ⟨rfl, hmodify (·.setDirty true) fun _ => rfl⟩
  | setStatus i st =>
    rcases q.afterSetStatus_cases a i st with ⟨h, -⟩ | ⟨r, -, -, h⟩ <;> rw [Update.apply, h]
    · exact ⟨rfl, fun _ => rfl, fun _ _ => rfl⟩
    · refine ⟨rfl, fun b => ?_, fun b hb => ?_⟩ <;> rw [setStatus_heap]
      · split_ifs with hb
        · rw [hb]; rfl
        · rfl
      · exact if_neg hb
  | setPayload i p =>
    rw [Update.apply, setPayload]
    split
    · exact ⟨rfl, fun _ => rfl, fun _ _ => rfl⟩
    · exact ⟨rfl, hmodify _ fun _ => rfl⟩

variable {B hs} {s t : State V} {a : ℕ}

/-- An entry is not changed by what leaves the table and the origins as they are. -/
theorem Owned.of_eq (h : Owned B s a) (htable : t.resultTable = s.resultTable)
    (horigin : t.origin = s.origin) : Owned B t a := by
  obtain ⟨d, manager, m, hd, ho, hmanager, hid⟩ := h
  exact ⟨d, manager, m, htable ▸ hd, horigin ▸ ho, hmanager, hid⟩

theorem Fits.of_eq {pc : Phase V} (h : Fits B s pc) (htable : t.resultTable = s.resultTable)
    (horigin : t.origin = s.origin) (hnext : t.queue.next = s.queue.next) : Fits B t pc := by
  cases pc with
  | idle => trivial
  | astray => exact h
  | decoding b manager m cmd | inserting b manager m cmd =>
    obtain ⟨ho, hnone, hb⟩ := h
    exact ⟨horigin ▸ ho, htable ▸ hnone, hnext ▸ hb⟩
  | dispatching b cmd todo => exact Owned.of_eq h htable horigin
  | scanning todo taken => exact fun b hb => (h b hb).of_eq htable horigin
  | sending as i => exact fun b hb => (h b hb).of_eq htable horigin

/-- The invariant after a step that leaves the table and the origins as they are. -/
theorem inv_of_eq (hI : Inv B s) (htable : t.resultTable = s.resultTable)
    (horigin : t.origin = s.origin) (hnext : t.queue.next = s.queue.next)
    (hdirty : ∀ a, (t.queue.heap a).dirty = true → Owned B s a)
    (hcounted : ∀ a, ∀ c ∈ (t.queue.heap a).commandList, c.answer = a)
    (hstarted : ∀ c ∈ t.started, Owned B s c.answer) (hphase : Fits B s t.pc) : Inv B t := by
  refine ⟨fun a h => (hdirty a h).of_eq htable horigin, hcounted,
    fun c hc => (hstarted c hc).of_eq htable horigin, fun a ha => ?_,
    hphase.of_eq htable horigin hnext⟩
  rw [htable, horigin]
  exact hI.unborn a (hnext ▸ ha)

/-- A step that changes one answer: its runners stay its own, and it is marked only with an entry. -/
theorem inv_at (hI : Inv B s) (a : ℕ) (htable : t.resultTable = s.resultTable)
    (horigin : t.origin = s.origin) (hnext : t.queue.next = s.queue.next)
    (hheap : ∀ b ≠ a, t.queue.heap b = s.queue.heap b)
    (hdirty : (t.queue.heap a).dirty = true → Owned B s a)
    (hcounted : ∀ c ∈ (t.queue.heap a).commandList, c.answer = a)
    (hstarted : ∀ c ∈ t.started, Owned B s c.answer) (hphase : Fits B s t.pc) : Inv B t := by
  refine inv_of_eq hI htable horigin hnext (fun b hb => ?_) (fun b c hc => ?_) hstarted hphase
  · by_cases hba : b = a
    · subst hba; exact hdirty hb
    · rw [hheap b hba] at hb
      exact hI.dirty b hb
  · by_cases hba : b = a
    · subst hba; exact hcounted c hc
    · rw [hheap b hba] at hc
      exact hI.counted b c hc

/-- A step that only moves the broker thread. -/
theorem inv_move (hI : Inv B s) {pc : Phase V} (hphase : Fits B s pc) : Inv B { s with pc := pc } :=
  inv_of_eq hI rfl rfl rfl hI.dirty hI.counted hI.started hphase

/-- A new answer is not marked, and it is nobody's yet. -/
theorem inv_doCommand (hI : Inv B s) (manager : DeviceManagerID) (m : ZMQMessage)
    (cmd : Except Exn (Command V)) : Inv B (doCommand s manager m cmd) := by
  have hnew := hI.unborn s.queue.next le_rfl
  have hold : ∀ b, Owned B s b → Owned B (doCommand s manager m cmd) b := by
    rintro b ⟨d, manager', m', hd, ho, hrest⟩
    have hb : b ≠ s.queue.next := by
      rintro rfl
      rw [hnew.2] at hd; cases hd
    exact ⟨d, manager', m', hd, (Function.update_of_ne hb _ _).trans ho, hrest⟩
  have hheap : ∀ b, (doCommand s manager m cmd).queue.heap b =
      if b = s.queue.next then .fresh else s.queue.heap b := s.queue.newAnswer_heap
  constructor
  case dirty =>
    intro b hb
    rw [hheap] at hb
    split_ifs at hb
    · cases hb
    · exact hold b (hI.dirty b hb)
  case counted =>
    intro b c hc
    rw [hheap] at hc
    split_ifs at hc
    · cases hc
    · exact hI.counted b c hc
  case started => exact fun c hc => hold _ (hI.started c hc)
  case phase => exact ⟨Function.update_self _ _ _, hnew.2, Nat.lt_succ_self _⟩
  case unborn =>
    intro b hb
    have hb' : s.queue.next + 1 ≤ b := hb
    obtain ⟨ho, hd⟩ := hI.unborn b (by omega)
    exact ⟨(Function.update_of_ne (by omega) _ _).trans ho, hd⟩

/-- The entry goes in under a new key, with the manager and the id of the message. -/
theorem inv_insert (hI : Inv B s) {manager : DeviceManagerID} {m : ZMQMessage} {cmd : Command V}
    {id : GlobalID} (hpc : s.pc = .inserting a manager m cmd) (hid : m.id B = .ok id) :
    Inv B
      { s with
        resultTable := insert s.resultTable a ⟨id, manager, cmd⟩
        pc := .dispatching a cmd hs } := by
  have hphase := hI.phase
  rw [hpc] at hphase
  obtain ⟨horigin, hnone, ha⟩ := hphase
  have htable : insert s.resultTable a ⟨id, manager, cmd⟩ =
      Function.update s.resultTable a (some ⟨id, manager, cmd⟩) := by rw [insert, if_pos hnone]
  rw [htable]
  have hold : ∀ b, Owned B s b → Owned B
      { s with
        resultTable := Function.update s.resultTable a (some ⟨id, manager, cmd⟩)
        pc := .dispatching a cmd hs } b := by
    rintro b ⟨d, manager', m', hd, hrest⟩
    have hb : b ≠ a := by
      rintro rfl
      rw [hnone] at hd; cases hd
    exact ⟨d, manager', m', (Function.update_of_ne hb _ _).trans hd, hrest⟩
  constructor
  case dirty => exact fun b hb => hold b (hI.dirty b hb)
  case counted => exact hI.counted
  case started => exact fun c hc => hold _ (hI.started c hc)
  case phase => exact ⟨⟨id, manager, cmd⟩, manager, m, Function.update_self _ _ _, horigin, rfl, hid⟩
  case unborn =>
    intro b hb
    obtain ⟨ho, hd⟩ := hI.unborn b hb
    have hne : b ≠ a := fun h => absurd hb (not_le.mpr (h ▸ ha))
    exact ⟨ho, (Function.update_of_ne hne _ _).trans hd⟩

/-- A handler that accepts gets a runner for this answer. -/
theorem inv_offer (hI : Inv B s) {cmd : Command V} {h : CommandHandler V}
    {todo : List (CommandHandler V)} (hpc : s.pc = .dispatching a cmd (h :: todo)) :
    Inv B { s with queue := s.queue.offer cmd a h, pc := .dispatching a cmd todo } := by
  have hphase := hI.phase
  rw [hpc] at hphase
  by_cases hacc : h.accept cmd = true
  · have hoffer : s.queue.offer cmd a h = s.queue.addCommand a h cmd := if_pos hacc
    rw [hoffer]
    refine inv_at hI a rfl rfl rfl (fun b hb => Function.update_of_ne hb _ _) (fun hd => ?_)
      (fun c hc => ?_) hI.started hphase
    · exact hI.dirty a (by simpa [addCommand] using hd)
    · have hmem : c ∈ (s.queue.heap a).commandList ++ [⟨cmd, a, h.id⟩] := by
        simpa [addCommand] using hc
      rcases List.mem_append.mp hmem with hc | hc
      · exact hI.counted a c hc
      · rw [List.mem_singleton.mp hc]
  · have hoffer : s.queue.offer cmd a h = s.queue := if_neg hacc
    rw [hoffer]
    exact inv_move hI hphase

/-- The tasks that are started are from the list. -/
theorem startTasks_subset {pool : ℕ → Bool} : ∀ (l : List (CommandRunner V)) (j : ℕ),
    ∀ c ∈ (startTasks pool j l).1, c ∈ l := by
  intro l
  induction l with
  | nil => intro j c hc; exact hc
  | cons item rest ih =>
    intro j c hc
    rw [startTasks] at hc
    split_ifs at hc
    · rcases List.mem_cons.mp hc with rfl | hc
      · exact List.mem_cons_self
      · exact List.mem_cons_of_mem _ (ih (j + 1) c hc)
    · cases hc

/-- `dispatch` marks this answer, or gives it to tasks: it has its entry by now. -/
theorem inv_start (hI : Inv B s) {cmd : Command V} (hpc : s.pc = .dispatching a cmd [])
    (pool : ℕ → Bool) : Inv B (start pool s a) := by
  have hown := hI.phase
  rw [hpc] at hown
  rw [start]
  split_ifs with hpending
  · have hstarted : ∀ c ∈ s.started ++ (startTasks pool 0 (s.queue.heap a).commandList).1,
        Owned B s c.answer := by
      intro c hc
      rcases List.mem_append.mp hc with hc | hc
      · exact hI.started c hc
      · rw [hI.counted a c (startTasks_subset _ 0 c hc)]; exact hown
    rw [runCommandsIn]
    split_ifs
    · refine inv_at hI a rfl rfl rfl (fun b hb => Function.update_of_ne hb _ _) (fun hd => ?_)
        (fun c hc => ?_) hstarted trivial
      · exact hI.dirty a (by simpa [runCommands] using hd)
      · simp [runCommands] at hc
    · exact inv_of_eq hI rfl rfl rfl hI.dirty hI.counted hstarted trivial
  · refine inv_at hI a rfl rfl rfl (fun b hb => Function.update_of_ne hb _ _) (fun _ => hown)
      (fun c hc => ?_) (fun c hc => ?_) trivial
    · rw [notifyUpdated_heap, if_pos rfl] at hc
      exact hI.counted a c hc
    · rw [List.append_nil] at hc
      exact hI.started c hc

/-- The scan takes an answer that is marked, and lowers its flag. -/
theorem inv_visit (hI : Inv B s) {todo taken : List ℕ} (hpc : s.pc = .scanning (a :: todo) taken) :
    Inv B
      { s with
        queue := (s.queue.visit a).2
        pc := .scanning todo (if (s.queue.heap a).dirty then taken ++ [a] else taken) } := by
  have hphase := hI.phase
  rw [hpc] at hphase
  refine inv_at hI a rfl rfl (s.queue.visit_frame a).2.1 (fun b hb => ?_) (fun hd => ?_) (fun c hc => ?_)
    hI.started fun b hb => ?_
  · change (s.queue.visit a).2.heap b = s.queue.heap b
    rw [visit_heap, if_neg hb]
  · rw [visit_heap, if_pos rfl] at hd
    cases hd
  · rw [visit_heap, if_pos rfl] at hc
    exact hI.counted a c hc
  · split_ifs at hb with hdirty
    · rcases List.mem_append.mp hb with hb | hb
      · exact hphase b hb
      · rw [List.mem_singleton.mp hb]; exact hI.dirty a hdirty
    · exact hphase b hb

/-- The lookup finds the entry. -/
theorem inv_send (hI : Inv B s) {as : List ℕ} {i : ℕ} (hpc : s.pc = .sending (a :: as) i) :
    Inv B (send s a as i) := by
  have hphase := hI.phase
  rw [hpc] at hphase
  rw [send]
  split
  · exact inv_move hI fun b hb => hphase b (List.mem_cons_of_mem _ hb)
  · obtain ⟨d, -, -, hd, -⟩ := hphase a List.mem_cons_self
    rw [hd]
    exact inv_of_eq hI rfl rfl rfl hI.dirty hI.counted hI.started hphase

/-- A handler comes to an answer only through a task. -/
theorem inv_update (hI : Inv B s) {c : CommandRunner V} (hc : c ∈ s.started) (u : Update V) :
    Inv B { s with queue := u.apply s.queue c.answer } := by
  obtain ⟨hnext, hlist, hne⟩ := apply_frame s.queue c.answer u
  refine inv_at hI c.answer rfl rfl hnext hne (fun _ => hI.started c hc) (fun c' hc' => ?_)
    hI.started hI.phase
  exact hI.counted _ c' (hlist _ ▸ hc')

theorem inv_broker (hI : Inv B s) {l : Move V} (h : broker B hs s l = some t) : Inv B t := by
  have hphase := hI.phase
  cases l with
  | receive manager m =>
    simp only [broker] at h
    split at h <;> cases h
    rw [handleDataMessage]
    split
    · exact inv_doCommand hI manager m _
    · exact inv_doCommand hI manager m _
    · exact hI
  | decode =>
    simp only [broker] at h
    split at h <;> cases h
    · rename_i hpc
      rw [hpc] at hphase
      exact inv_move hI hphase
    · exact inv_move hI trivial
  | insert =>
    simp only [broker] at h
    split at h <;> try cases h
    rename_i a manager m cmd hpc
    split at h <;> cases h
    · rename_i id hid
      exact inv_insert hI hpc hid
    · exact inv_move hI trivial
  | offer =>
    simp only [broker] at h
    split at h <;> cases h
    rename_i hpc
    exact inv_offer hI hpc
  | start pool =>
    simp only [broker] at h
    split at h <;> cases h
    rename_i hpc
    exact inv_start hI hpc pool
  | scan =>
    simp only [broker] at h
    split at h <;> cases h
    exact inv_move hI fun a ha => by cases ha
  | visit =>
    simp only [broker] at h
    split at h <;> cases h
    rename_i hpc
    exact inv_visit hI hpc
  | endScan =>
    simp only [broker] at h
    split at h <;> cases h
    rename_i hpc
    rw [hpc] at hphase
    exact inv_move hI hphase
  | send =>
    simp only [broker] at h
    split at h <;> cases h
    rename_i hpc
    exact inv_send hI hpc
  | leave =>
    simp only [broker] at h
    split at h <;> cases h
    exact inv_move hI trivial

theorem inv_step (hI : Inv B s) {l : Label V} (h : (system B hs).step s l = some t) : Inv B t := by
  cases l with
  | update k u =>
    obtain ⟨c, hc, rfl⟩ := Option.map_eq_some_iff.mp h
    exact inv_update hI (List.mem_of_getElem? hc) u
  | broker l => exact inv_broker hI h

theorem inv_run {ls : List (Label V)} (h : (system B hs).run init ls = some s) : Inv B s :=
  (system B hs).run_inv (fun _ _ _ hI hstep => inv_step hI hstep) (inv_init B) h

/-- At every point of every run an answer that is marked, or that `wait` has returned, has an entry
    with the manager and the id of the request it was made for, so `checkQueue` never uses the end
    iterator. -/
theorem dirty_owned {ls : List (Label V)} (h : (system B hs).run init ls = some s) :
    (∀ a, (s.queue.heap a).dirty = true ∨ a ∈ s.returned → Owned B s a) ∧ s.pc ≠ .astray := by
  have hI := inv_run h
  have hphase := hI.phase
  refine ⟨fun a ha => ?_, fun hpc => ?_⟩
  · rcases ha with hdirty | hreturned
    · exact hI.dirty a hdirty
    · rw [State.returned] at hreturned
      split at hreturned
      · rename_i hpc
        rw [hpc] at hphase
        exact hphase a hreturned
      · rename_i hpc
        rw [hpc] at hphase
        exact hphase a hreturned
      · cases hreturned
  · rw [hpc] at hphase
    exact hphase

/-- A request that raises for want of a prefix, then one that the only handler takes and answers. -/
def twoRequests : List (Label Reading) :=
  [.broker (.receive ⟨0xa800⟩ [("message_type", .str "device_list_cmd")]), .broker .decode,
    .broker (.receive ⟨0xa800⟩ [("message_type", .str "device_list_cmd"), ("id", .str "7"),
      ("device_manager_prefix", .str "Z-Wave")]), .broker .decode, .broker .insert, .broker .offer,
    .broker (.start fun _ => true), .update 0 (.create (.deviceList [])),
    .update 0 (.setStatus 0 .success), .broker .scan, .broker .visit, .broker .visit, .broker .endScan]

/-- Both answers are in the queue, and the second has been returned. -/
theorem second_owned : ∃ s, (system Sample.base [⟨0, fun _ => true⟩]).run init twoRequests = some s ∧
    s.queue.answerList = [0, 1] ∧ s.returned = [1] ∧
    (∀ a, (s.queue.heap a).dirty = true ∨ a ∈ s.returned → Owned Sample.base s a) ∧
    s.pc ≠ .astray := by
  obtain ⟨s, h, hlist, hreturned⟩ : ∃ s, (system Sample.base [⟨0, fun _ => true⟩]).run init
      twoRequests = some s ∧ s.queue.answerList = [0, 1] ∧ s.returned = [1] := ⟨_, rfl, rfl, rfl⟩
  exact ⟨s, h, hlist, hreturned, dirty_owned h⟩

/-! ### One request, when nothing else runs -/

theorem run_offers (cmd : Command V) : ∀ (todo : List (CommandHandler V)) {s : State V},
    s.pc = .dispatching a cmd todo →
    (system B hs).run s (todo.map fun _ => .broker .offer) = some
      { s with queue := todo.foldl (offer cmd a) s.queue, pc := .dispatching a cmd [] } := by
  intro todo
  induction todo with
  | nil =>
    intro s hpc
    rw [List.foldl_nil, ← hpc]
    rfl
  | cons h todo ih =>
    intro s hpc
    have hstep : (system B hs).step s (.broker .offer) = some
        { s with queue := s.queue.offer cmd a h, pc := .dispatching a cmd todo } := by
      simp only [system, broker, hpc]
    rw [List.map_cons, Lts.run_cons, hstep, Option.bind_some, ih rfl]
    rfl

/-- The phases of a request that does not raise make up `dispatch` after the entry has been made. -/
theorem request_phases (hI : Inv B s) (hpc : s.pc = .idle) {manager : DeviceManagerID} {m : ZMQMessage}
    {cmd : Command V} {id : GlobalID}
    (hcmd : handleDataMessage B s manager m = doCommand s manager m (.ok cmd)) (hid : m.id B = .ok id)
    (pool : ℕ → Bool) :
    (system B hs).run s ([.broker (.receive manager m), .broker .decode, .broker .insert] ++
        (hs.map fun _ => .broker .offer) ++ [.broker (.start pool)]) = some
      { s with
        queue := (dispatchIn pool hs cmd s.queue.next s.queue.newAnswer).queue
        resultTable := Function.update s.resultTable s.queue.next (some ⟨id, manager, cmd⟩)
        started := s.started ++ (dispatchIn pool hs cmd s.queue.next s.queue.newAnswer).started
        origin := Function.update s.origin s.queue.next (some (manager, m)) } := by
  have hnone := (hI.unborn s.queue.next le_rfl).2
  have hentry : (system B hs).run s [.broker (.receive manager m), .broker .decode, .broker .insert] =
      some
        { s with
          queue := s.queue.newAnswer
          resultTable := Function.update s.resultTable s.queue.next (some ⟨id, manager, cmd⟩)
          pc := .dispatching s.queue.next cmd hs
          origin := Function.update s.origin s.queue.next (some (manager, m)) } := by
    simp only [Lts.run_cons, system, broker, hpc, hcmd, doCommand, hid, insert, hnone, if_true,
      Option.bind_some, Lts.run_nil]
  rw [List.append_assoc, Lts.run_append_of _ hentry, Lts.run_append_of _ (run_offers cmd hs rfl)]
  simp only [Lts.run_cons, Lts.run_nil, system, broker, Option.bind_some, start, dispatchIn, ← hpc]

end Owners
end BeeeOn
