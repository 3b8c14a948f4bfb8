import Gateway.Schemes.Lts
import Gateway.Core.Answer

/-! @src core/CommandDispatcher.cpp, core/Answer.cpp | name:Command dispatcher | family:dispatch

    `dispatch` offers the command to every registered handler, counts the ones that accept on the answer
    and then, in one critical section, either starts their tasks or tells the queue that nobody will
    answer. From then on the answer is pending until each task has added its result and moved it off
    `PENDING`. The system below interleaves the loop of `dispatch`, the tasks and a consumer of the
    queue; the invariant ties the command counter to the tasks and the results to the tasks that have
    created one. -/

namespace BeeeOn
open Schemes
variable {V : Type}

namespace CommandDispatcher

def registerHandler (hs : List (CommandHandler V)) (h : CommandHandler V) :
    Except Exn (List (CommandHandler V)) :=
  if hs.any (fun item => item.id = h.id) then .error .existing else .ok (hs ++ [h])

/-- No handler is registered twice. -/
theorem registerHandler_nodup {hs hs' : List (CommandHandler V)} {h : CommandHandler V}
    (hnodup : (hs.map CommandHandler.id).Nodup) (hr : registerHandler hs h = .ok hs') :
    (hs'.map CommandHandler.id).Nodup := by
  rw [registerHandler] at hr
  split_ifs at hr with hany
  cases hr
  rw [List.map_append, List.nodup_append']
  refine ⟨hnodup, List.nodup_singleton _, List.disjoint_singleton.mpr fun hmem => hany ?_⟩
  obtain ⟨item, hitem, hid⟩ := List.mem_map.mp hmem
  exact List.any_eq_true.mpr ⟨item, hitem, by simpa using hid⟩

end CommandDispatcher

namespace AnswerQueue

/-- `Answer::addCommand`. -/
def addCommand (q : AnswerQueue V) (a : ℕ) (h : CommandHandler V) (cmd : Command V) : AnswerQueue V :=
  q.modify a fun x =>
    { x with commandList := x.commandList ++ [⟨cmd, a, h.id⟩], commands := x.commands + 1 }

/-- `Answer::runCommands`: the tasks it starts; the list is cleared, the counter stays. -/
def runCommands (q : AnswerQueue V) (a : ℕ) : AnswerQueue V × List (CommandRunner V) :=
  (q.modify a fun x => { x with commandList := [] }, (q.heap a).commandList)

/-- The body of the loop of `dispatch`. -/
def offer (cmd : Command V) (a : ℕ) (q : AnswerQueue V) (h : CommandHandler V) : AnswerQueue V :=
  if h.accept cmd then q.addCommand a h cmd else q

/-- The critical section at the end of `dispatch`. -/
def startOrNotify (q : AnswerQueue V) (a : ℕ) : AnswerQueue V × List (CommandRunner V) :=
  if (q.heap a).isPending then q.runCommands a else (q.notifyUpdated a, [])

/-- `CommandDispatcher::dispatch`, when nothing else runs: the queue and the tasks it has started. -/
def dispatch (hs : List (CommandHandler V)) (cmd : Command V) (a : ℕ) (q : AnswerQueue V) :
    AnswerQueue V × List (CommandRunner V) :=
  (hs.foldl (offer cmd a) q).startOrNotify a

end AnswerQueue

/-- Writing an element back into a list does not show in a projection that it agrees on. -/
theorem map_set_same {α β : Type} {f : α → β} {l : List α} {i : ℕ} {x y : α} (h : l[i]? = some x)
    (hf : f y = f x) : (l.set i y).map f = l.map f := by
  obtain ⟨hi, rfl⟩ := List.getElem?_eq_some_iff.mp h
  rw [List.map_set, hf, ← List.map_set, List.set_getElem_self]

namespace CommandDispatcher
open AnswerQueue

/-- The tasks for the handlers that accept. -/
def runners (hs : List (CommandHandler V)) (cmd : Command V) (a : ℕ) : List (CommandRunner V) :=
  (hs.filter (·.accept cmd)).map fun h => ⟨cmd, a, h.id⟩

theorem runners_cons (h : CommandHandler V) (hs : List (CommandHandler V)) (cmd : Command V) (a : ℕ) :
    runners (h :: hs) cmd a =
      if h.accept cmd then ⟨cmd, a, h.id⟩ :: runners hs cmd a else runners hs cmd a := by
  rw [runners, List.filter_cons]
  split_ifs <;> rfl

theorem answer_of_mem_runners {hs : List (CommandHandler V)} {cmd : Command V} {a : ℕ}
    {c : CommandRunner V} (hc : c ∈ runners hs cmd a) : c.answer = a := by
  obtain ⟨h, _, rfl⟩ := List.mem_map.mp hc
  rfl

/-- An answer as its constructor leaves it, up to the dirty flag. -/
def Untouched (x : Answer V) : Prop := x.commands = 0 ∧ x.results = [] ∧ x.commandList = []

/-! ### The interleavings of a dispatch

    A task is a runner with the index of the result it has created, if it has. `create` and `setStatus`
    are the calls a handler makes; `consume` is a scan of the queue passing the answer. -/

structure State (V : Type) where
  queue : AnswerQueue V
  /-- the handlers the loop has not offered the command to; `none` once `dispatch` has returned -/
  todo : Option (List (CommandHandler V))
  tasks : List (CommandRunner V × Option ℕ)

inductive Label (V : Type) where
  | visit
  | finish
  | create (t : ℕ) (p : Payload V)
  | setStatus (t : ℕ) (s : Status)
  | consume

def start (hs : List (CommandHandler V)) (q : AnswerQueue V) : State V := ⟨q, some hs, []⟩

/-- One dispatch of `cmd` with answer `a`. -/
def system (cmd : Command V) (a : ℕ) : Lts (State V) (Label V) where
  step
    | s, .visit => match s.todo with
      | some (h :: hs) => some { s with queue := offer cmd a s.queue h, todo := some hs }
      | _ => none
    | s, .finish => match s.todo with
      | some [] => some
          { queue := (s.queue.startOrNotify a).1
            todo := none
            tasks := (s.queue.startOrNotify a).2.map (·, none) }
      | _ => none
    | s, .create t p => match s.tasks[t]? with
      | some (c, none) => some
          { s with
            queue := s.queue.addResult c.answer p
            tasks := s.tasks.set t (c, some (s.queue.heap c.answer).results.length) }
      | _ => none
    | s, .setStatus t st => match s.tasks[t]? with
      | some (c, some i) => some { s with queue := s.queue.afterSetStatus c.answer i st }
      | _ => none
    | s, .consume => some { s with queue := (s.queue.visit a).2 }

/-- The loop has offered the command to every handler. -/
def State.Counted (s : State V) : Prop := s.todo = some [] ∨ s.todo = none

/-- `dispatch` is the run of the system in which nobody else takes a step. -/
theorem dispatch_run (hs : List (CommandHandler V)) (cmd : Command V) (a : ℕ) (q : AnswerQueue V) :
    (system cmd a).run (start hs q) (hs.map (fun _ => .visit) ++ [.finish]) =
      some ⟨(dispatch hs cmd a q).1, none, (dispatch hs cmd a q).2.map (·, none)⟩ := by
  induction hs generalizing q with
  | nil => rfl
  | cons h hs ih => exact ih (offer cmd a q h)

/-! ### The counter, the results and the tasks -/

/-- What ties the parts of a state together. While the loop runs nothing has started: the handlers it
    has passed and the ones it has not make up `k`. Afterwards there are `k` tasks, and as many
    results as tasks that have created theirs. -/
structure Inv (hs : List (CommandHandler V)) (cmd : Command V) (a : ℕ) (s : State V) : Prop where
  counting : ∀ todo, s.todo = some todo → s.tasks = [] ∧ (s.queue.heap a).results = [] ∧
    (s.queue.heap a).commands = (s.queue.heap a).commandList.length ∧
    (s.queue.heap a).commandList ++ runners todo cmd a = runners hs cmd a
  returned : s.todo = none → s.tasks.map Prod.fst = runners hs cmd a ∧
    (s.queue.heap a).commands = s.tasks.length ∧
    (s.queue.heap a).results.length = s.tasks.countP (·.2.isSome)
  nonneg : ∀ r ∈ (s.queue.heap a).results, 0 ≤ r.status.raw

theorem inv_start {hs : List (CommandHandler V)} {cmd : Command V} {a : ℕ} {q : AnswerQueue V}
    (hq : Untouched (q.heap a)) : Inv hs cmd a (start hs q) := by
  obtain ⟨hc, hr, hl⟩ := hq
  refine ⟨?_, fun h => (by cases h), fun r hm => ?_⟩
  · rintro todo h
    obtain rfl : hs = todo := Option.some.inj h
    exact ⟨rfl, hr, by simp [start, hc, hl], by simp [start, hl]⟩
  · rw [start, hr] at hm; cases hm

theorem offer_heap (cmd : Command V) (a : ℕ) (q : AnswerQueue V) (h : CommandHandler V) :
    (offer cmd a q h).heap a = if h.accept cmd then
      { q.heap a with
        commandList := (q.heap a).commandList ++ [⟨cmd, a, h.id⟩]
        commands := (q.heap a).commands + 1 } else q.heap a := by
  rw [offer]
  split_ifs
  · exact modify_heap_self q a _
  · rfl

section
variable {hs : List (CommandHandler V)} {cmd : Command V} {a : ℕ} {s t : State V}

/-- The answer's task list holds the runners of the handlers that the loop has passed. -/
theorem inv_visit (hI : Inv hs cmd a s) (h : (system cmd a).step s .visit = some t) :
    Inv hs cmd a t := by
  simp only [system] at h
  split at h <;> cases h
  rename_i h todo htodo
  obtain ⟨htasks, hr, hc, hl⟩ := hI.counting _ htodo
  rw [runners_cons] at hl
  refine ⟨?_, fun hn => (by cases hn), ?_⟩
  · rintro todo' h'
    obtain rfl := Option.some.inj h'
    simp only [offer_heap]
    split_ifs at hl ⊢ with hacc
    · exact ⟨htasks, hr, by simp [hc], by rw [List.append_assoc]; exact hl⟩
    · exact ⟨htasks, hr, hc, hl⟩
  · intro r hm
    simp only [offer_heap] at hm
    split_ifs at hm <;> exact hI.nonneg r hm

/-- At the end of the loop an answer is pending exactly if some handler has accepted. -/
theorem pending_at_end (hI : Inv hs cmd a s) (hend : s.todo = some []) :
    (s.queue.heap a).isPending = true ↔ runners hs cmd a ≠ [] := by
  obtain ⟨_, hr, hc, hl⟩ := hI.counting [] hend
  rw [show runners [] cmd a = [] from rfl, List.append_nil] at hl
  have hzero : 0 = (runners hs cmd a).length ↔ runners hs cmd a = [] := by
    rw [eq_comm, List.length_eq_zero_iff]
  rw [← Bool.not_eq_false, Answer.isPending_eq_false, hr, hc, hl]
  simp [hzero]

/-- The last critical section starts every counted task, or marks the answer and signals. -/
theorem finish_cases (hI : Inv hs cmd a s) (h : (system cmd a).step s .finish = some t) :
    s.todo = some [] ∧ t.todo = none ∧ t.tasks = (runners hs cmd a).map (·, none) ∧
    ((runners hs cmd a ≠ [] ∧ t.queue = (s.queue.runCommands a).1) ∨
      (runners hs cmd a = [] ∧ t.queue = s.queue.notifyUpdated a)) := by
  simp only [system] at h
  split at h <;> cases h
  rename_i hend
  obtain ⟨_, _, _, hl⟩ := hI.counting [] hend
  rw [show runners [] cmd a = [] from rfl, List.append_nil] at hl
  refine ⟨hend, rfl, ?_⟩
  by_cases hp : (s.queue.heap a).isPending = true
  · have hne := (pending_at_end hI hend).mp hp
    rw [startOrNotify, if_pos hp]
    exact ⟨by rw [runCommands, hl], Or.inl ⟨hne, rfl⟩⟩
  · have hnil := not_not.mp (mt (pending_at_end hI hend).mpr hp)
    rw [startOrNotify, if_neg hp, hnil]
    exact ⟨rfl, Or.inr ⟨rfl, rfl⟩⟩

theorem inv_finish (hI : Inv hs cmd a s) (h : (system cmd a).step s .finish = some t) :
    Inv hs cmd a t := by
  obtain ⟨hend, hnone, htasks, hcase⟩ := finish_cases hI h
  obtain ⟨_, hr, hc, hl⟩ := hI.counting [] hend
  rw [show runners [] cmd a = [] from rfl, List.append_nil] at hl
  have hfst : t.tasks.map Prod.fst = runners hs cmd a := by
    rw [htasks, List.map_map]; exact List.map_id _
  have hlen : (runners hs cmd a).length = t.tasks.length := by rw [htasks, List.length_map]
  have hnew : t.tasks.countP (·.2.isSome) = 0 := by
    rw [htasks, List.countP_map, List.countP_eq_zero]; intro c _; simp
  have hres : (t.queue.heap a).results = [] := by
    rcases hcase with ⟨_, hq⟩ | ⟨_, hq⟩ <;> rw [hq]
    · rw [runCommands, modify_heap_self, hr]
    · rw [notifyUpdated_heap, if_pos rfl, Answer.setDirty, hr]
  have hcom : (t.queue.heap a).commands = (runners hs cmd a).length := by
    rcases hcase with ⟨_, hq⟩ | ⟨_, hq⟩ <;> rw [hq]
    · rw [runCommands, modify_heap_self, hc, hl]
    · rw [notifyUpdated_heap, if_pos rfl, Answer.setDirty, hc, hl]
  refine ⟨fun todo h' => ?_, fun _ => ⟨hfst, by rw [hcom, hlen], by rw [hres, hnew]; rfl⟩, ?_⟩
  · rw [hnone] at h'; cases h'
  · intro r hm; rw [hres] at hm; cases hm

/-- A task runs only after `dispatch` has returned, and works on the answer of the command. -/
theorem task_answer (hI : Inv hs cmd a s) {i : ℕ} {c : CommandRunner V} {o : Option ℕ}
    (h : s.tasks[i]? = some (c, o)) : s.todo = none ∧ c.answer = a := by
  cases htodo : s.todo with
  | some todo =>
    rw [(hI.counting todo htodo).1] at h; simp at h
  | none =>
    have hm : c ∈ runners hs cmd a := by
      rw [← (hI.returned htodo).1]
      exact List.mem_map.mpr ⟨_, List.mem_of_getElem? h, rfl⟩
    exact ⟨rfl, answer_of_mem_runners hm⟩

theorem inv_create (hI : Inv hs cmd a s) {i : ℕ} {p : Payload V}
    (h : (system cmd a).step s (.create i p) = some t) : Inv hs cmd a t := by
  simp only [system] at h
  split at h <;> cases h
  rename_i c hi
  obtain ⟨hnone, rfl⟩ := task_answer hI hi
  obtain ⟨hfst, hcom, hcnt⟩ := hI.returned hnone
  obtain ⟨hlt, hget⟩ := List.getElem?_eq_some_iff.mp hi
  have hheap : (s.queue.addResult c.answer p).heap c.answer =
      (s.queue.heap c.answer).addResult (.new p) := modify_heap_self _ _ _
  refine ⟨fun todo h' => ?_, fun _ => ⟨?_, ?_, ?_⟩, ?_⟩
  · rw [show s.todo = some todo from h'] at hnone; cases hnone
  · rw [← hfst]; exact map_set_same hi rfl
  · rw [hheap, List.length_set]; exact hcom
  · rw [hheap, List.countP_set hlt, hget]
    simp [Answer.addResult, hcnt]
  · intro r hm
    rw [hheap, Answer.addResult, List.mem_append, List.mem_singleton] at hm
    rcases hm with hm | rfl
    · exact hI.nonneg r hm
    · exact le_rfl

/-- The statuses only grow: what a status change does to the answer of the command. -/
theorem setStatus_cases (hI : Inv hs cmd a s) {i : ℕ} {st : Status}
    (h : (system cmd a).step s (.setStatus i st) = some t) : t = s ∨
      ∃ j r, (s.queue.heap a).results[j]? = some r ∧ r.status.raw < st.raw ∧ t.todo = s.todo ∧
        t.tasks = s.tasks ∧ t.queue.heap a =
          ((s.queue.heap a).setResult j { r with status := st }).setDirty true := by
  simp only [system] at h
  split at h <;> cases h
  rename_i c j hi
  obtain ⟨-, rfl⟩ := task_answer hI hi
  rcases s.queue.afterSetStatus_cases c.answer j st with ⟨heq, -⟩ | ⟨r, hr, hlt, heq⟩
  · exact Or.inl (by rw [heq])
  · exact Or.inr ⟨j, r, hr, hlt, rfl, rfl, by simp only [heq, setStatus_heap, if_pos]⟩

theorem inv_setStatus (hI : Inv hs cmd a s) {i : ℕ} {st : Status}
    (h : (system cmd a).step s (.setStatus i st) = some t) : Inv hs cmd a t := by
  rcases setStatus_cases hI h with rfl | ⟨j, r, hr, hlt, htodo, htasks, hheap⟩
  · exact hI
  have hr0 := hI.nonneg r (List.mem_of_getElem? hr)
  refine ⟨fun todo h' => ?_, fun h' => ?_, fun x hm => ?_⟩
  · rw [(hI.counting todo (htodo ▸ h')).2.1] at hr; simp at hr
  · rw [htodo] at h'
    obtain ⟨hfst, hcom, hcnt⟩ := hI.returned h'
    rw [htasks, hheap]
    exact ⟨hfst, hcom, by simp [Answer.setDirty, Answer.setResult, hcnt]⟩
  · rw [hheap] at hm
    rcases List.mem_or_eq_of_mem_set hm with hm | rfl
    · exact hI.nonneg x hm
    · exact hr0.trans hlt.le

theorem inv_consume (hI : Inv hs cmd a s) (h : (system cmd a).step s .consume = some t) :
    Inv hs cmd a t := by
  obtain rfl : { s with queue := (s.queue.visit a).2 } = t := Option.some.inj h
  have hheap : (s.queue.visit a).2.heap a = (s.queue.heap a).setDirty false := by
    rw [visit_heap, if_pos rfl]
  constructor <;> simp only [hheap]
  · exact hI.counting
  · exact hI.returned
  · exact hI.nonneg

theorem inv_step {l : Label V} (hI : Inv hs cmd a s) (h : (system cmd a).step s l = some t) :
    Inv hs cmd a t := by
  cases l with
  | visit => exact inv_visit hI h
  | finish => exact inv_finish hI h
  | create i p => exact inv_create hI h
  | setStatus i st => exact inv_setStatus hI h
  | consume => exact inv_consume hI h

/-- Once the commands are counted, the counter is the number of accepting handlers. -/
theorem commands_of_counted (hI : Inv hs cmd a s) (hs' : s.Counted) :
    (s.queue.heap a).commands = (runners hs cmd a).length := by
  rcases hs' with h | h
  · obtain ⟨_, _, hc, hl⟩ := hI.counting [] h
    rw [hc, ← hl, show runners [] cmd a = [] from rfl, List.append_nil]
  · obtain ⟨hfst, hc, _⟩ := hI.returned h
    rw [hc, ← hfst, List.length_map]

theorem counted_step {l : Label V} (hs' : s.Counted) (h : (system cmd a).step s l = some t) :
    t.Counted := by
  cases l with
  | visit =>
    simp only [system] at h
    split at h <;> cases h
    rename_i htodo
    rcases hs' with h' | h' <;> rw [htodo] at h' <;> cases h'
  | finish => simp only [system] at h; split at h <;> cases h; exact Or.inr rfl
  | create => simp only [system] at h; split at h <;> cases h; exact hs'
  | setStatus => simp only [system] at h; split at h <;> cases h; exact hs'
  | consume => obtain rfl := Option.some.inj h; exact hs'

/-- An answer that is no longer pending stays so: there is no task left to add a result, and no status
    goes back. -/
theorem settled_step {l : Label V} (hI : Inv hs cmd a s) (hc : s.Counted)
    (hp : (s.queue.heap a).isPending = false) (h : (system cmd a).step s l = some t) :
    (t.queue.heap a).isPending = false := by
  have hcom := commands_of_counted (inv_step hI h) (counted_step hc h)
  have hcom' := commands_of_counted hI hc
  rw [Answer.isPending_eq_false] at hp ⊢
  obtain ⟨hlen, hst⟩ := hp
  rw [hcom, ← hcom', ← hlen]
  cases l with
  | visit =>
    simp only [system] at h
    split at h <;> cases h
    rename_i htodo
    rcases hc with h' | h' <;> rw [htodo] at h' <;> cases h'
  | finish =>
    obtain ⟨_, _, _, ⟨_, hq⟩ | ⟨_, hq⟩⟩ := finish_cases hI h <;> rw [hq]
    · rw [runCommands, modify_heap_self]; exact ⟨rfl, hst⟩
    · rw [notifyUpdated_heap, if_pos rfl]; exact ⟨rfl, hst⟩
  | create i p =>
    simp only [system] at h
    split at h <;> cases h
    rename_i c hi
    obtain ⟨hnone, -⟩ := task_answer hI hi
    obtain ⟨_, hlt, hcnt⟩ := hI.returned hnone
    -- a task that has not created its result leaves fewer results than tasks
    have hall := List.countP_eq_length.mp (hcnt ▸ hlen ▸ hlt ▸ rfl :
      s.tasks.countP (·.2.isSome) = s.tasks.length)
    exact absurd (hall _ (List.mem_of_getElem? hi)) (by simp)
  | setStatus i st =>
    rcases setStatus_cases hI h with rfl | ⟨j, r, hr, hlt, _, _, hheap⟩
    · exact ⟨rfl, hst⟩
    · rw [hheap]
      refine ⟨by simp [Answer.setDirty, Answer.setResult], fun x hm => ?_⟩
      rcases List.mem_or_eq_of_mem_set hm with hm | rfl
      · exact hst x hm
      · have := hI.nonneg r (List.mem_of_getElem? hr)
        exact Status.ne_pending_of_one_le (by simp only; omega)
  | consume =>
    obtain rfl : { s with queue := (s.queue.visit a).2 } = t := Option.some.inj h
    simp only [visit_heap, if_true]
    exact ⟨rfl, hst⟩

end

theorem runners_eq_nil {hs : List (CommandHandler V)} {cmd : Command V} {a : ℕ} :
    runners hs cmd a = [] ↔ hs.countP (·.accept cmd) = 0 := by
  rw [runners, List.map_eq_nil_iff, List.filter_eq_nil_iff, List.countP_eq_zero]

theorem length_runners (hs : List (CommandHandler V)) (cmd : Command V) (a : ℕ) :
    (runners hs cmd a).length = hs.countP (·.accept cmd) := by
  rw [runners, List.length_map, List.countP_eq_length_filter]

/-- The dispatch contract. In every interleaving: as `dispatch` returns, either nobody accepts, nothing
    has started, and the answer is settled, dirty and signalled; or exactly the accepting handlers have
    been started, once each. From the end of the counting on the answer is pending until all `k`
    results exist and have left `PENDING`, and what has stopped being pending never is again. -/
theorem dispatch_contract (hs : List (CommandHandler V)) (cmd : Command V) (a : ℕ)
    (q : AnswerQueue V) (hq : Untouched (q.heap a)) :
    (∀ ls s, (system cmd a).run (start hs q) (ls ++ [.finish]) = some s →
      (hs.countP (·.accept cmd) = 0 → s.tasks = [] ∧ (s.queue.heap a).isPending = false ∧
        (s.queue.heap a).dirty = true ∧ s.queue.event = true) ∧
      (0 < hs.countP (·.accept cmd) → s.tasks = (runners hs cmd a).map (·, none))) ∧
    (∀ ls s, (system cmd a).run (start hs q) ls = some s →
      (s.todo = none → s.tasks.map Prod.fst = runners hs cmd a) ∧
      (s.todo ≠ none → s.tasks = []) ∧
      (s.Counted → ((s.queue.heap a).isPending = false ↔
        (s.queue.heap a).results.length = hs.countP (·.accept cmd) ∧
          ∀ r ∈ (s.queue.heap a).results, r.status ≠ .pending)) ∧
      (s.Counted → (s.queue.heap a).isPending = false → ∀ ls' t,
        (system cmd a).run s ls' = some t → (t.queue.heap a).isPending = false)) := by
  have hinv : ∀ {ls s}, (system cmd a).run (start hs q) ls = some s → Inv hs cmd a s :=
    fun h => (system cmd a).run_inv (fun _ _ _ hI hl => inv_step hI hl) (inv_start hq) h
  refine ⟨fun ls s h => ?_, fun ls s h => ⟨fun hn => ((hinv h).returned hn).1, fun hn => ?_, fun hc => ?_,
    fun hc hp ls' t h' => ?_⟩⟩
  · obtain ⟨r, hr, hl⟩ := ((system cmd a).run_concat_iff).mp h
    obtain ⟨hend, hnone, htasks, hcase⟩ := finish_cases (hinv hr) hl
    refine ⟨fun hk => ?_, fun _ => htasks⟩
    have hnil : runners hs cmd a = [] := runners_eq_nil.mpr hk
    rcases hcase with ⟨hne, _⟩ | ⟨_, hq'⟩
    · exact absurd hnil hne
    · have hp : (r.queue.heap a).isPending = false := by
        rw [← Bool.not_eq_true, pending_at_end (hinv hr) hend, not_not]; exact hnil
      exact ⟨by rw [htasks, hnil]; rfl, settled_step (hinv hr) (Or.inl hend) hp hl,
        by rw [hq', notifyUpdated_heap, if_pos rfl]; rfl, by rw [hq']; rfl⟩
  · obtain ⟨todo, htodo⟩ := Option.ne_none_iff_exists'.mp hn
    exact ((hinv h).counting todo htodo).1
  · rw [Answer.isPending_eq_false, commands_of_counted (hinv h) hc, length_runners]
  · exact ((system cmd a).run_inv
      (P := fun t => Inv hs cmd a t ∧ t.Counted ∧ (t.queue.heap a).isPending = false)
      (fun _ _ _ ⟨hI, hc, hp⟩ hl => ⟨inv_step hI hl, counted_step hc hl, settled_step hI hc hp hl⟩)
      ⟨hinv h, hc, hp⟩ h').2.2

/-- A new answer, a handler that accepts and one that does not: one task is started. -/
theorem dispatch_contract_one_of_two : ∃ s : State ℤ,
    (system (.gatewayListen 5) 0).run
      (start [⟨7, fun _ => true⟩, ⟨8, fun _ => false⟩] AnswerQueue.empty.newAnswer)
      ([.visit, .visit] ++ [.finish]) = some s ∧ s.tasks = [(⟨.gatewayListen 5, 0, 7⟩, none)] := by
  obtain ⟨s, h⟩ : ∃ s : State ℤ, (system (.gatewayListen 5) 0).run
      (start [⟨7, fun _ => true⟩, ⟨8, fun _ => false⟩] AnswerQueue.empty.newAnswer)
      ([.visit, .visit] ++ [.finish]) = some s := ⟨_, rfl⟩
  exact ⟨s, h, ((dispatch_contract _ _ _ _ ⟨rfl, rfl, rfl⟩).1 _ s h).2 (Nat.succ_pos 0)⟩

/-! ### A dispatch that runs on its own -/

theorem foldl_offer_ne (cmd : Command V) {a b : ℕ} (hb : b ≠ a) :
    ∀ (hs : List (CommandHandler V)) (q : AnswerQueue V),
      (hs.foldl (offer cmd a) q).heap b = q.heap b := by
  intro hs
  induction hs with
  | nil => intro q; rfl
  | cons h hs ih =>
    intro q
    rw [List.foldl_cons, ih, offer]
    split_ifs
    · exact modify_heap_ne q _ hb
    · rfl

theorem foldl_offer_frame (cmd : Command V) (a : ℕ) :
    ∀ (hs : List (CommandHandler V)) (q : AnswerQueue V),
      (hs.foldl (offer cmd a) q).answerList = q.answerList ∧
        (hs.foldl (offer cmd a) q).next = q.next := by
  intro hs
  induction hs with
  | nil => intro q; exact ⟨rfl, rfl⟩
  | cons h hs ih =>
    intro q
    rw [List.foldl_cons, (ih _).1, (ih _).2, offer]
    split_ifs <;> exact ⟨rfl, rfl⟩

/-- `dispatch` touches one answer and leaves the list of answers alone. -/
theorem dispatch_frame (hs : List (CommandHandler V)) (cmd : Command V) (a : ℕ) (q : AnswerQueue V) :
    (dispatch hs cmd a q).1.answerList = q.answerList ∧ (dispatch hs cmd a q).1.next = q.next ∧
      ∀ b ≠ a, (dispatch hs cmd a q).1.heap b = q.heap b := by
  have hf := foldl_offer_frame cmd a hs q
  have hne : ∀ b ≠ a, _ := fun b hb => foldl_offer_ne cmd hb hs q
  rw [dispatch, startOrNotify]
  split_ifs
  · exact ⟨hf.1, hf.2, fun b hb =>
      (modify_heap_ne _ (fun x => { x with commandList := [] }) hb).trans (hne b hb)⟩
  · exact ⟨hf.1, hf.2, fun b hb => (modify_heap_ne _ (·.setDirty true) hb).trans (hne b hb)⟩

/-- What a dispatch makes of a fresh answer: the accepting handlers are started and counted, and there
    is no result yet; the answer is marked if there is none to come. -/
theorem dispatch_untouched (hs : List (CommandHandler V)) (cmd : Command V) (a : ℕ)
    {q : AnswerQueue V} (hq : Untouched (q.heap a)) :
    (dispatch hs cmd a q).2 = runners hs cmd a ∧
      ((dispatch hs cmd a q).1.heap a).commands = (runners hs cmd a).length ∧
      ((dispatch hs cmd a q).1.heap a).results = [] := by
  have hI := (system cmd a).run_inv (fun _ _ _ hI hl => inv_step hI hl) (inv_start hq)
    (dispatch_run hs cmd a q)
  obtain ⟨hfst, hcom, hlen⟩ := hI.returned rfl
  rw [List.map_map, show Prod.fst ∘ (fun c : CommandRunner V => (c, (none : Option ℕ))) = id from rfl,
    List.map_id] at hfst
  rw [List.countP_map, List.countP_eq_zero.mpr (by simp)] at hlen
  exact ⟨hfst, by rw [hcom, List.length_map, hfst], List.length_eq_zero_iff.mp hlen⟩

end CommandDispatcher
end BeeeOn
