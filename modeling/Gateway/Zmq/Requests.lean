import Gateway.Core.Dispatcher
import Mathlib.Data.List.Nodup

/-! @src zmq/ZMQBroker.cpp | name:Requests of the device managers | family:request-reply

    A device manager asks the broker for its device list or for a last value. The broker makes an
    answer, remembers in `m_resultTable` whom it is for and dispatches the command; the handlers run as
    tasks and fill in results; `checkQueue` drains the dirty answers and sends a message for every
    result that a dirty answer has at that moment. This module has the system and what a step of it can
    do: the tasks only ever add results and raise statuses, and leave an answer dirty when a result has
    ended; `checkQueue` lowers flags and nothing else. -/

namespace BeeeOn
open Schemes AnswerQueue CommandDispatcher
variable {V : Type}

/-- `ZMQBroker::ResultData`. -/
structure ResultData (V : Type) where
  resultID : GlobalID
  deviceManagerID : DeviceManagerID
  cmd : Command V
  deriving DecidableEq, Repr

/-- A result message on the data socket: whom it goes to, its id and the result it encodes; `answer` and
    `index` record which result that is. -/
structure Reply (V : Type) where
  deviceManagerID : DeviceManagerID
  id : GlobalID
  result : Result V
  answer : ℕ
  index : ℕ
  deriving DecidableEq, Repr

namespace Requests

/-- A started task: the index of the result it has created, if it has, and whether it has ended. -/
structure Task (V : Type) where
  runner : CommandRunner V
  result : Option ℕ
  ended : Bool

/-- Where the broker thread is in `checkQueue`: in the scan of `listDirty`, at the head of the loop over
    the results of the first answer of `as`, or between the two reads of `fromResult`. -/
inductive Check (V : Type) where
  | idle
  | scanning (todo taken : List ℕ)
  | sending (as : List ℕ) (i : ℕ)
  | building (as : List ℕ) (i : ℕ) (read : Result V)

structure State (V : Type) where
  queue : AnswerQueue V
  resultTable : ℕ → Option (ResultData V)
  tasks : ℕ → List (Task V)
  out : List (Reply V)
  pc : Check V

/-- The steps of the broker thread outside `checkQueue`, and of the tasks. -/
inductive Work (V : Type) where
  | request (manager : DeviceManagerID) (id : GlobalID) (cmd : Command V)
  | malformed
  | create (a t : ℕ) (p : Payload V)
  | setStatus (a t : ℕ) (s : Status)
  | setPayload (a t : ℕ) (p : Payload V)
  | notify (a t : ℕ)
  | stop (a t : ℕ) (raised : Bool)

/-- The steps of `checkQueue`. -/
inductive Drain where
  | begin | visit | endScan | pick | send | leave

inductive Label (V : Type) where
  | work (w : Work V)
  | drain (d : Drain)

/-- `doDeviceListCommand` and `doDeviceLastValueCommand` on a well-formed message. -/
def doCommand (hs : List (CommandHandler V)) (s : State V) (manager : DeviceManagerID) (id : GlobalID)
    (cmd : Command V) : State V :=
  let a := s.queue.next
  let r := dispatch hs cmd a s.queue.newAnswer
  { s with
    queue := r.1
    resultTable := Function.update s.resultTable a (some ⟨id, manager, cmd⟩)
    tasks := Function.update s.tasks a (r.2.map fun c => ⟨c, none, false⟩) }

/-- Two payloads of one result class. -/
def SameClass : Payload V → Payload V → Prop
  | .plain, .plain | .deviceList _, .deviceList _ | .lastValue _, .lastValue _
  | .setValue _, .setValue _ => True
  | _, _ => False

instance : ∀ p q : Payload V, Decidable (SameClass p q) := fun p q => by
  unfold SameClass; split <;> infer_instance

/-- What `fromResult` encodes after reading the result twice: the last value before the status, in the
    other classes the status first. -/
def encoded (first second : Result V) : Result V :=
  match first.payload with
  | .lastValue _ => ⟨second.status, first.payload⟩
  | _ => ⟨first.status, second.payload⟩

/-- A task that has not ended. -/
def liveTask (s : State V) (a t : ℕ) : Option (Task V) := (s.tasks a)[t]?.filter (!·.ended)

/-- A step outside `checkQueue`. A request is one step: it runs on the broker thread, which is also the
    one that drains the queue. The other steps are critical sections of one answer. -/
def work (hs : List (CommandHandler V)) (s : State V) : Work V → Option (State V)
  | .request manager id cmd => match s.pc, cmd with
    | .idle, .serverDeviceList _ => some (doCommand hs s manager id cmd)
    | .idle, .serverLastValue _ _ => some (doCommand hs s manager id cmd)
    | _, _ => none
  -- decoding raises after the answer has been created
  | .malformed => match s.pc with
    | .idle => some { s with queue := s.queue.newAnswer }
    | _ => none
  | .create a t p => match liveTask s a t with
    | some ⟨c, none, _⟩ => some
        { s with
          queue := s.queue.addResult a p
          tasks := Function.update s.tasks a
            ((s.tasks a).set t ⟨c, some (s.queue.heap a).results.length, false⟩) }
    | _ => none
  | .setStatus a t st => match liveTask s a t with
    | some ⟨_, some i, _⟩ =>
      if st = .pending ∨ st.IsTerminal then some { s with queue := s.queue.afterSetStatus a i st }
      else none
    | _ => none
  | .setPayload a t p => match liveTask s a t with
    | some ⟨_, some i, _⟩ => match (s.queue.heap a).results[i]? with
      | some r =>
        if SameClass r.payload p then some { s with queue := s.queue.setPayload a i p } else none
      | none => none
    | _ => none
  | .notify a t => match liveTask s a t with
    | some _ => some { s with queue := s.queue.notifyUpdated a }
    | none => none
  -- `CommandProgressHandler` logs how a task has ended and does nothing else
  | .stop a t _ => match liveTask s a t with
    | some k => some
        { s with tasks := Function.update s.tasks a ((s.tasks a).set t { k with ended := true }) }
    | none => none

/-- A step of `checkQueue`. -/
def drain (s : State V) : Drain → Option (State V)
  | .begin => match s.pc with
    | .idle => some { s with pc := .scanning s.queue.answerList [] }
    | _ => none
  | .visit => match s.pc with
    | .scanning (a :: todo) taken => some
        { s with
          queue := (s.queue.visit a).2
          pc := .scanning todo (if (s.queue.heap a).dirty then taken ++ [a] else taken) }
    | _ => none
  | .endScan => match s.pc with
    | .scanning [] taken => some { s with pc := .sending taken 0 }
    | _ => none
  | .pick => match s.pc with
    | .sending (a :: as) i => match (s.queue.heap a).results[i]? with
      | some r => some { s with pc := .building (a :: as) i r }
      | none => some { s with pc := .sending as 0 }
    | _ => none
  | .send => match s.pc with
    | .building (a :: as) i read => match s.resultTable a, (s.queue.heap a).results[i]? with
      | some d, some r => some
          { s with
            out := s.out ++ [⟨d.deviceManagerID, d.resultID, encoded read r, a, i⟩]
            pc := .sending (a :: as) (i + 1) }
      | _, _ => none
    | _ => none
  | .leave => match s.pc with
    | .sending [] _ => some { s with pc := .idle }
    | _ => none

/-- The broker thread and the tasks of the handlers `hs`. -/
def system (hs : List (CommandHandler V)) : Lts (State V) (Label V) where
  step
    | s, .work w => work hs s w
    | s, .drain d => drain s d

def init : State V := ⟨.empty, fun _ => none, fun _ => [], [], .idle⟩

/-! ### What the tasks do to an answer -/

/-- Every counted command has its result, and every result is `SUCCESS` or `FAILED`. -/
def Settled (x : Answer V) : Prop :=
  x.results.length = x.commands ∧ ∀ r ∈ x.results, r.status.IsTerminal

def Valid (x : Answer V) : Prop := ∀ r ∈ x.results, r.status = .pending ∨ r.status.IsTerminal

theorem Valid.settled {x : Answer V} (hv : Valid x) (hp : x.isPending = false) : Settled x := by
  rw [Answer.isPending_eq_false] at hp
  exact ⟨hp.1, fun r hr => (hv r hr).resolve_left (hp.2 r hr)⟩

/-- How the tasks may change an answer: results are not lost and do not fall back, a result that has
    just ended leaves the answer dirty, and a settled answer stays so. -/
structure Evolves (x y : Answer V) : Prop where
  dirty : x.dirty = true → y.dirty = true
  kept : ∀ (j : ℕ) (r : Result V), x.results[j]? = some r →
    ∃ r', y.results[j]? = some r' ∧ (r.status.IsTerminal → r'.status.IsTerminal)
  marked : ∀ (j : ℕ) (r' : Result V), y.results[j]? = some r' → r'.status.IsTerminal →
    y.dirty = true ∨ ∃ r, x.results[j]? = some r ∧ r.status.IsTerminal
  settled : Settled x → Settled y

theorem Evolves.refl (x : Answer V) : Evolves x x :=
  ⟨id, fun _ r hr => ⟨r, hr, id⟩, fun _ r hr ht => Or.inr ⟨r, hr, ht⟩, id⟩

theorem evolves_setDirty (x : Answer V) : Evolves x (x.setDirty true) :=
  ⟨fun _ => rfl, fun _ r hr => ⟨r, hr, id⟩, fun _ _ _ _ => Or.inl rfl, id⟩

/-- Adding a result is safe as long as a counted command is without one. -/
theorem evolves_addResult {x : Answer V} (p : Payload V) (hlt : x.results.length < x.commands) :
    Evolves x (x.addResult (.new p)) := by
  refine ⟨id, fun j r hr => ⟨r, ?_, id⟩, fun j r' hr ht => Or.inr ?_, fun hs => ?_⟩
  · rw [Answer.addResult, List.getElem?_append_left (List.getElem?_eq_some_iff.mp hr).1, hr]
  · rw [Answer.addResult, List.getElem?_append] at hr
    split_ifs at hr with hj
    · exact ⟨r', hr, ht⟩
    · obtain rfl := List.mem_singleton.mp (List.mem_of_getElem? hr)
      exact absurd ht Status.not_isTerminal_pending
  · exact absurd hs.1 hlt.ne

theorem getElem?_setResult {x : Answer V} {i j : ℕ} {r r' : Result V} (hi : x.results[i]? = some r) :
    (x.setResult i r').results[j]? = if i = j then some r' else x.results[j]? := by
  rw [Answer.setResult, List.getElem?_set]
  simp [(List.getElem?_eq_some_iff.mp hi).1]

theorem settled_setResult {x : Answer V} {i : ℕ} {r' : Result V}
    (ht : Settled x → r'.status.IsTerminal) (hs : Settled x) : Settled (x.setResult i r') := by
  refine ⟨by rw [Answer.setResult, List.length_set]; exact hs.1, fun y hy => ?_⟩
  rcases List.mem_or_eq_of_mem_set hy with hy | rfl
  · exact hs.2 y hy
  · exact ht hs

theorem evolves_setStatus {x : Answer V} {i : ℕ} {r : Result V} {st : Status}
    (hi : x.results[i]? = some r) (ht : st.IsTerminal) :
    Evolves x ((x.setResult i { r with status := st }).setDirty true) := by
  refine ⟨fun _ => rfl, fun j q hq => ?_, fun _ _ _ _ => Or.inl rfl,
    settled_setResult (fun _ => ht)⟩
  rw [Answer.setDirty, getElem?_setResult hi]
  split_ifs
  · exact ⟨_, rfl, fun _ => ht⟩
  · exact ⟨q, hq, id⟩

theorem evolves_setPayload {x : Answer V} {i : ℕ} {r : Result V} (p : Payload V)
    (hi : x.results[i]? = some r) : Evolves x (x.setResult i { r with payload := p }) := by
  refine ⟨id, fun j q hq => ?_, fun j q hq ht => Or.inr ?_,
    settled_setResult (fun hs => hs.2 r (List.mem_of_getElem? hi))⟩
  · rw [getElem?_setResult hi]
    split_ifs with hij
    · subst hij
      obtain rfl := Option.some.inj (hi.symm.trans hq)
      exact ⟨_, rfl, id⟩
    · exact ⟨q, hq, id⟩
  · rw [getElem?_setResult hi] at hq
    split_ifs at hq with hij
    · subst hij
      obtain rfl := Option.some.inj hq
      exact ⟨r, hi, ht⟩
    · exact ⟨q, hq, ht⟩

/-! ### The tables -/

/-- The counter of an answer is the number of its tasks, its results are those the tasks have created,
    and nothing is known of answers that do not exist yet. -/
structure Inv (s : State V) : Prop where
  counted : ∀ a, (s.queue.heap a).commands = (s.tasks a).length ∧
    (s.queue.heap a).results.length = (s.tasks a).countP (·.result.isSome)
  valid : ∀ a, Valid (s.queue.heap a)
  unborn : ∀ a, s.queue.next ≤ a → (s.queue.heap a).results = [] ∧
    (s.queue.heap a).dirty = false ∧ s.tasks a = [] ∧ s.resultTable a = none
  listed : ∀ a, a ∈ s.queue.answerList ↔ a < s.queue.next
  nodup : s.queue.answerList.Nodup

theorem inv_init : Inv (init : State V) :=
  ⟨fun _ => ⟨rfl, rfl⟩, fun _ _ hr => (by cases hr), fun _ _ => ⟨rfl, rfl, rfl, rfl⟩,
    fun _ => ⟨fun h => (by cases h), fun h => (by cases h)⟩, List.nodup_nil⟩

/-- A step that changes one existing answer and its tasks, if it keeps them in line. -/
theorem inv_of_heap {s t : State V} {a : ℕ} {y : Answer V} (hI : Inv s) (ha : a < s.queue.next)
    (hheap : ∀ b, t.queue.heap b = if b = a then y else s.queue.heap b)
    (hnext : t.queue.next = s.queue.next) (hlist : t.queue.answerList = s.queue.answerList)
    (htasks : ∀ b ≠ a, t.tasks b = s.tasks b) (htable : t.resultTable = s.resultTable)
    (hc : y.commands = (t.tasks a).length ∧
      y.results.length = (t.tasks a).countP (·.result.isSome)) (hv : Valid y) : Inv t := by
  refine ⟨fun b => ?_, fun b => ?_, fun b hb => ?_, ?_, hlist ▸ hI.nodup⟩
  · rw [hheap]
    split_ifs with hba
    · rw [hba]; exact hc
    · rw [htasks b hba]; exact hI.counted b
  · rw [hheap]
    split_ifs
    · exact hv
    · exact hI.valid b
  · rw [hnext] at hb
    have hba : b ≠ a := by omega
    rw [hheap, if_neg hba, htasks b hba, htable]
    exact hI.unborn b hb
  · rw [hlist, hnext]; exact hI.listed

theorem liveTask_eq {s : State V} {a t : ℕ} {k : Task V} (h : liveTask s a t = some k) :
    (s.tasks a)[t]? = some k := by
  rw [liveTask] at h
  exact (Option.filter_eq_some_iff.mp h).1

/-- A task belongs to an answer that exists. -/
theorem lt_of_liveTask {s : State V} (hI : Inv s) {a t : ℕ} {k : Task V}
    (h : liveTask s a t = some k) : a < s.queue.next := by
  by_contra hge
  have hk := liveTask_eq h
  rw [(hI.unborn a (not_lt.mp hge)).2.2.1] at hk
  simp at hk

/-- What a step outside `checkQueue` leaves alone. -/
structure Frame (s t : State V) : Prop where
  pc : t.pc = s.pc
  out : t.out = s.out
  next : s.queue.next ≤ t.queue.next
  table : ∀ a d, s.resultTable a = some d → t.resultTable a = some d
  evolves : ∀ a < s.queue.next, Evolves (s.queue.heap a) (t.queue.heap a)
  unborn : ∀ a, s.queue.next ≤ a → (t.queue.heap a).results = []

/-- The frame of a step that changes one answer only. -/
theorem frame_of_heap {s t : State V} {a : ℕ} {y : Answer V} (hI : Inv s) (ha : a < s.queue.next)
    (hheap : ∀ b, t.queue.heap b = if b = a then y else s.queue.heap b)
    (hnext : t.queue.next = s.queue.next) (hpc : t.pc = s.pc) (hout : t.out = s.out)
    (htable : t.resultTable = s.resultTable) (hy : Evolves (s.queue.heap a) y) : Frame s t := by
  refine ⟨hpc, hout, hnext.ge, fun b d hd => htable ▸ hd, fun b _ => ?_, fun b hb => ?_⟩
  · rw [hheap]
    split_ifs with hba
    · rw [hba]; exact hy
    · exact Evolves.refl _
  · rw [hheap, if_neg (by omega)]
    exact (hI.unborn b hb).1

section
variable {hs : List (CommandHandler V)} {s t : State V}

/-- A new answer goes to the end of the list. -/
theorem newAnswer_listed (hI : Inv s) : (∀ b, b ∈ s.queue.newAnswer.answerList ↔
    b < s.queue.newAnswer.next) ∧ s.queue.newAnswer.answerList.Nodup := by
  rw [newAnswer_answerList, newAnswer_next]
  refine ⟨fun b => ?_, List.nodup_append.mpr ⟨hI.nodup, List.nodup_singleton _, fun b hb c hc hbc => ?_⟩⟩
  · rw [List.mem_append, hI.listed, List.mem_singleton]; omega
  · rw [List.mem_singleton.mp hc] at hbc
    exact absurd ((hI.listed b).mp hb) (by omega)

theorem doCommand_spec (hI : Inv s) (manager : DeviceManagerID) (id : GlobalID) (cmd : Command V) :
    Inv (doCommand hs s manager id cmd) ∧ Frame s (doCommand hs s manager id cmd) := by
  have hfresh : Untouched (s.queue.newAnswer.heap s.queue.next) := by
    rw [newAnswer_heap, if_pos rfl]; exact ⟨rfl, rfl, rfl⟩
  obtain ⟨hstarted, hcom, hres⟩ := dispatch_untouched hs cmd s.queue.next hfresh
  obtain ⟨hlist, hnext, hne⟩ := dispatch_frame hs cmd s.queue.next s.queue.newAnswer
  have hold : ∀ b ≠ s.queue.next, (doCommand hs s manager id cmd).queue.heap b = s.queue.heap b :=
    fun b hb => (hne b hb).trans (by rw [newAnswer_heap, if_neg hb])
  refine ⟨⟨fun b => ?_, fun b => ?_, fun b hb => ?_, fun b => ?_, ?_⟩,
    ⟨rfl, rfl, ?_, fun b d hd => ?_, fun b hb => ?_, fun b hb => ?_⟩⟩
  · by_cases hb : b = s.queue.next
    · subst hb
      simp only [doCommand, Function.update_self, hcom, hres, hstarted, List.length_map,
        List.countP_map]
      exact ⟨trivial, (List.countP_eq_zero.mpr (by simp)).symm⟩
    · rw [hold b hb]
      simp only [doCommand, Function.update_of_ne hb]
      exact hI.counted b
  · by_cases hb : b = s.queue.next
    · subst hb
      intro r hr
      simp only [doCommand, hres] at hr
      cases hr
    · rw [hold b hb]; exact hI.valid b
  · have hb' : s.queue.next + 1 ≤ b := by simpa only [doCommand, hnext, newAnswer_next] using hb
    have hne' : b ≠ s.queue.next := by omega
    rw [hold b hne']
    simp only [doCommand, Function.update_of_ne hne']
    exact hI.unborn b (by omega)
  · simp only [doCommand, hlist, hnext]; exact (newAnswer_listed hI).1 b
  · simp only [doCommand, hlist]; exact (newAnswer_listed hI).2
  · simp only [doCommand, hnext, newAnswer_next]; exact Nat.le_succ _
  · have hbne : b ≠ s.queue.next := by
      rintro rfl
      rw [(hI.unborn _ le_rfl).2.2.2] at hd; cases hd
    simp only [doCommand, Function.update_of_ne hbne, hd]
  · rw [hold b (by omega)]; exact Evolves.refl _
  · by_cases hbn : b = s.queue.next
    · rw [hbn]; exact hres
    · rw [hold b hbn]; exact (hI.unborn b hb).1

theorem malformed_spec (hI : Inv s) : Inv { s with queue := s.queue.newAnswer } ∧
    Frame s { s with queue := s.queue.newAnswer } := by
  have hnew := (hI.unborn s.queue.next le_rfl)
  refine ⟨⟨fun b => ?_, fun b => ?_, fun b hb => ?_, (newAnswer_listed hI).1,
    (newAnswer_listed hI).2⟩,
    ⟨rfl, rfl, Nat.le_succ _, fun b d hd => hd, fun b hb => ?_, fun b hb => ?_⟩⟩
  · rw [newAnswer_heap]
    split_ifs with hb
    · rw [hb, hnew.2.2.1]; exact ⟨rfl, rfl⟩
    · exact hI.counted b
  · rw [newAnswer_heap]
    split_ifs with hb
    · intro r hr; cases hr
    · exact hI.valid b
  · have hb' : s.queue.next + 1 ≤ b := hb
    rw [newAnswer_heap, if_neg (by omega)]
    exact hI.unborn b (by omega)
  · rw [newAnswer_heap, if_neg (by omega)]; exact Evolves.refl _
  · rw [newAnswer_heap]
    split_ifs
    · rfl
    · exact (hI.unborn b hb).1

theorem create_spec (hI : Inv s) {a i : ℕ} {p : Payload V} (h : work hs s (.create a i p) = some t) :
    Inv t ∧ Frame s t := by
  simp only [work] at h
  split at h <;> cases h
  rename_i c e hk
  have ha := lt_of_liveTask hI hk
  obtain ⟨hcom, hlen⟩ := hI.counted a
  obtain ⟨hi, hget⟩ := List.getElem?_eq_some_iff.mp (liveTask_eq hk)
  have hheap := fun b => s.queue.addResult_heap a b p
  -- the task at hand has no result yet, so the counter is ahead of the results
  have hlt : (s.queue.heap a).results.length < (s.queue.heap a).commands := by
    rw [hcom, hlen]
    refine lt_of_le_of_ne List.countP_le_length fun heq => ?_
    have := List.countP_eq_length.mp heq _ (List.getElem_mem hi)
    rw [hget] at this
    simp at this
  refine ⟨inv_of_heap hI ha hheap rfl rfl (fun b hb => Function.update_of_ne hb _ _) rfl ⟨?_, ?_⟩ ?_,
    frame_of_heap hI ha hheap rfl rfl rfl rfl (evolves_addResult p hlt)⟩
  · simp [Answer.addResult, hcom]
  · simp only [Function.update_self, List.countP_set hi, hget]
    simp [Answer.addResult, hlen]
  · intro r hr
    rcases List.mem_append.mp hr with hr | hr
    · exact hI.valid a r hr
    · exact Or.inl (by rw [List.mem_singleton.mp hr]; rfl)

theorem setStatus_spec (hI : Inv s) {a i : ℕ} {st : Status}
    (h : work hs s (.setStatus a i st) = some t) : Inv t ∧ Frame s t := by
  simp only [work] at h
  split at h <;> try cases h
  rename_i c j e hk
  split_ifs at h with hst
  cases h
  have ha := lt_of_liveTask hI hk
  obtain ⟨hlist, hnext⟩ := s.queue.afterSetStatus_frame a j st
  rcases s.queue.afterSetStatus_cases a j st with ⟨heq, -⟩ | ⟨r, hr, hlt, heq⟩
  · rw [heq]
    exact ⟨hI, rfl, rfl, le_rfl, fun _ _ hd => hd, fun b _ => Evolves.refl _,
      fun b hb => (hI.unborn b hb).1⟩
  have hterm : st.IsTerminal := by
    refine hst.resolve_left ?_
    rintro rfl
    rcases hI.valid a r (List.mem_of_getElem? hr) with hp | ht
    · rw [hp] at hlt; exact absurd hlt (lt_irrefl _)
    · have := ht.one_le; simp only [Status.pending] at hlt; omega
  have hheap : ∀ b, (s.queue.afterSetStatus a j st).heap b = if b = a then
      ((s.queue.heap a).setResult j { r with status := st }).setDirty true else s.queue.heap b :=
    fun b => by rw [heq, setStatus_heap]
  obtain ⟨hcom, hlen⟩ := hI.counted a
  refine ⟨inv_of_heap hI ha hheap hnext hlist (fun b _ => rfl) rfl ⟨hcom, ?_⟩ ?_,
    frame_of_heap hI ha hheap hnext rfl rfl rfl (evolves_setStatus hr hterm)⟩
  · simp [Answer.setDirty, Answer.setResult, hlen]
  · intro x hx
    rcases List.mem_or_eq_of_mem_set hx with hx | rfl
    · exact hI.valid a x hx
    · exact Or.inr hterm

theorem setPayload_spec (hI : Inv s) {a i : ℕ} {p : Payload V}
    (h : work hs s (.setPayload a i p) = some t) : Inv t ∧ Frame s t := by
  simp only [work] at h
  split at h <;> try cases h
  rename_i c j e hk
  split at h <;> try cases h
  rename_i r hr
  split_ifs at h
  cases h
  have ha := lt_of_liveTask hI hk
  obtain ⟨hcom, hlen⟩ := hI.counted a
  have heq : s.queue.setPayload a j p =
      s.queue.modify a (·.setResult j { r with payload := p }) := by rw [setPayload, hr]
  have hheap : ∀ b, (s.queue.setPayload a j p).heap b = if b = a then
      (s.queue.heap a).setResult j { r with payload := p } else s.queue.heap b :=
    fun b => by rw [heq, modify_heap]
  refine ⟨inv_of_heap hI ha hheap (by rw [heq]; rfl) (by rw [heq]; rfl) (fun b _ => rfl) rfl
    ⟨hcom, ?_⟩ ?_, frame_of_heap hI ha hheap (by rw [heq]; rfl) rfl rfl rfl (evolves_setPayload p hr)⟩
  · simp [Answer.setResult, hlen]
  · intro x hx
    rcases List.mem_or_eq_of_mem_set hx with hx | rfl
    · exact hI.valid a x hx
    · exact hI.valid a r (List.mem_of_getElem? hr)

theorem notify_spec (hI : Inv s) {a i : ℕ} (h : work hs s (.notify a i) = some t) :
    Inv t ∧ Frame s t := by
  simp only [work] at h
  split at h <;> cases h
  rename_i k hk
  have ha := lt_of_liveTask hI hk
  have hheap := s.queue.notifyUpdated_heap a
  exact ⟨inv_of_heap hI ha hheap rfl rfl (fun b _ => rfl) rfl (hI.counted a) (hI.valid a),
    frame_of_heap hI ha hheap rfl rfl rfl rfl (evolves_setDirty _)⟩

theorem stop_spec (hI : Inv s) {a i : ℕ} {raised : Bool} (h : work hs s (.stop a i raised) = some t) :
    Inv t ∧ Frame s t := by
  simp only [work] at h
  split at h <;> cases h
  rename_i k hk
  have ha := lt_of_liveTask hI hk
  have hheap : ∀ b, s.queue.heap b = if b = a then s.queue.heap a else s.queue.heap b := by
    intro b
    split_ifs with hb
    · rw [hb]
    · rfl
  obtain ⟨hcom, hlen⟩ := hI.counted a
  have hsame : ((s.tasks a).set i { k with ended := true }).map (·.result) =
      (s.tasks a).map (·.result) := map_set_same (liveTask_eq hk) rfl
  refine ⟨inv_of_heap hI ha hheap rfl rfl (fun b hb => Function.update_of_ne hb _ _) rfl ⟨?_, ?_⟩
    (hI.valid a), frame_of_heap hI ha hheap rfl rfl rfl rfl (Evolves.refl _)⟩
  · simp [hcom]
  · have hcount : ∀ l : List (Task V), l.countP (·.result.isSome) =
        (l.map (·.result)).countP (·.isSome) := fun l => by rw [List.countP_map]; rfl
    simp only [Function.update_self, hcount, hsame, hlen]

/-- A step outside `checkQueue` keeps the tables in line and stays within its frame. -/
theorem work_spec (hI : Inv s) {w : Work V} (h : work hs s w = some t) : Inv t ∧ Frame s t := by
  cases w with
  | request manager id cmd =>
    simp only [work] at h
    split at h <;> cases h <;> exact doCommand_spec hI manager id _
  | malformed =>
    simp only [work] at h
    split at h <;> cases h
    exact malformed_spec hI
  | create a i p => exact create_spec hI h
  | setStatus a i st => exact setStatus_spec hI h
  | setPayload a i p => exact setPayload_spec hI h
  | notify a i => exact notify_spec hI h
  | stop a i raised => exact stop_spec hI h

/-- What each step of `checkQueue` is, with its guard. -/
theorem drain_cases {d : Drain} (h : drain s d = some t) : match d with
    | .begin => s.pc = .idle ∧ t = { s with pc := .scanning s.queue.answerList [] }
    | .visit => ∃ a todo taken, s.pc = .scanning (a :: todo) taken ∧ t =
        { s with
          queue := (s.queue.visit a).2
          pc := .scanning todo (if (s.queue.heap a).dirty then taken ++ [a] else taken) }
    | .endScan => ∃ taken, s.pc = .scanning [] taken ∧ t = { s with pc := .sending taken 0 }
    | .pick => ∃ a as i, s.pc = .sending (a :: as) i ∧
        ((∃ r, (s.queue.heap a).results[i]? = some r ∧ t = { s with pc := .building (a :: as) i r }) ∨
          (s.queue.heap a).results[i]? = none ∧ t = { s with pc := .sending as 0 })
    | .send => ∃ a as i read d r, s.pc = .building (a :: as) i read ∧ s.resultTable a = some d ∧
        (s.queue.heap a).results[i]? = some r ∧ t =
          { s with
            out := s.out ++ [⟨d.deviceManagerID, d.resultID, encoded read r, a, i⟩]
            pc := .sending (a :: as) (i + 1) }
    | .leave => ∃ i, s.pc = .sending [] i ∧ t = { s with pc := .idle } := by
  cases d with
  | begin =>
    simp only [drain] at h
    split at h <;> cases h
    rename_i heq
    exact ⟨heq, rfl⟩
  | visit =>
    simp only [drain] at h
    split at h <;> cases h
    rename_i a todo taken heq
    exact ⟨a, todo, taken, heq, rfl⟩
  | endScan =>
    simp only [drain] at h
    split at h <;> cases h
    rename_i taken heq
    exact ⟨taken, heq, rfl⟩
  | pick =>
    simp only [drain] at h
    split at h <;> try cases h
    rename_i a as i heq
    refine ⟨a, as, i, heq, ?_⟩
    split at h <;> cases h
    · rename_i r hr
      exact Or.inl ⟨r, hr, rfl⟩
    · rename_i hr
      exact Or.inr ⟨hr, rfl⟩
  | send =>
    simp only [drain] at h
    split at h <;> try cases h
    rename_i a as i read heq
    split at h <;> cases h
    rename_i d r hd hr
    exact ⟨a, as, i, read, d, r, heq, hd, hr, rfl⟩
  | leave =>
    simp only [drain] at h
    split at h <;> cases h
    rename_i i heq
    exact ⟨i, heq, rfl⟩

/-- `checkQueue` changes nothing of an answer but its flag, which it only lowers. -/
theorem drain_frame {d : Drain} (h : drain s d = some t) : t.resultTable = s.resultTable ∧
    t.tasks = s.tasks ∧ t.queue.next = s.queue.next ∧ t.queue.answerList = s.queue.answerList ∧
      ∀ a, ∃ b, (b = true → (s.queue.heap a).dirty = true) ∧
        t.queue.heap a = (s.queue.heap a).setDirty b := by
  have hsame : ∀ a, ∃ b, (b = true → (s.queue.heap a).dirty = true) ∧
      s.queue.heap a = (s.queue.heap a).setDirty b := fun a => ⟨_, id, rfl⟩
  have hcases := drain_cases h
  cases d with
  | visit =>
    obtain ⟨a, todo, taken, -, rfl⟩ := hcases
    obtain ⟨hlist, hnext, _⟩ := s.queue.visit_frame a
    refine ⟨rfl, rfl, hnext, hlist, fun b => ?_⟩
    simp only [visit_heap]
    split_ifs with hba
    · exact ⟨false, by simp, by rw [hba]⟩
    · exact hsame b
  | begin =>
    obtain ⟨-, rfl⟩ := hcases
    exact ⟨rfl, rfl, rfl, rfl, hsame⟩
  | endScan | leave =>
    obtain ⟨_, -, rfl⟩ := hcases
    exact ⟨rfl, rfl, rfl, rfl, hsame⟩
  | pick =>
    obtain ⟨a, as, i, -, ⟨r, -, rfl⟩ | ⟨-, rfl⟩⟩ := hcases <;> exact ⟨rfl, rfl, rfl, rfl, hsame⟩
  | send =>
    obtain ⟨a, as, i, read, d, r, -, -, -, rfl⟩ := hcases
    exact ⟨rfl, rfl, rfl, rfl, hsame⟩

theorem inv_drain (hI : Inv s) {d : Drain} (h : drain s d = some t) : Inv t := by
  obtain ⟨htable, htasks, hnext, hlist, hheap⟩ := drain_frame h
  refine ⟨fun a => ?_, fun a => ?_, fun a ha => ?_, by rw [hlist, hnext]; exact hI.listed,
    hlist ▸ hI.nodup⟩ <;> obtain ⟨b, hdown, hb⟩ := hheap a <;> rw [hb]
  · rw [htasks]; exact hI.counted a
  · exact hI.valid a
  · obtain ⟨hr, hd, ht, hn⟩ := hI.unborn a (hnext ▸ ha)
    rw [htasks, htable]
    refine ⟨hr, ?_, ht, hn⟩
    rw [hd] at hdown
    cases b with
    | false => rfl
    | true => exact (hdown rfl).symm

/-- What is between its two reads is a result that there is; and what is sent, behind what has been, has
    been read twice and goes where its entry says. -/
theorem drain_sends {d : Drain} (h : drain s d = some t) :
    (∀ a as i read, t.pc = .building (a :: as) i read → (s.queue.heap a).results[i]? = some read) ∧
      ∃ xs, t.out = s.out ++ xs ∧ ∀ x ∈ xs, ∃ a as i read d r, s.pc = .building (a :: as) i read ∧
        s.resultTable a = some d ∧ (s.queue.heap a).results[i]? = some r ∧
        x = ⟨d.deviceManagerID, d.resultID, encoded read r, a, i⟩ := by
  have hcases := drain_cases h
  -- all steps but one send nothing
  have hnone : ∀ p : Reply V → Prop, ∃ xs, s.out = s.out ++ xs ∧ ∀ x ∈ xs, p x := fun p =>
    ⟨[], (List.append_nil _).symm, fun x hx => by cases hx⟩
  cases d with
  | begin =>
    obtain ⟨-, rfl⟩ := hcases
    exact ⟨fun _ _ _ _ h => (by cases h), hnone _⟩
  | visit =>
    obtain ⟨_, _, _, -, rfl⟩ := hcases
    exact ⟨fun _ _ _ _ h => (by cases h), hnone _⟩
  | endScan | leave =>
    obtain ⟨_, -, rfl⟩ := hcases
    exact ⟨fun _ _ _ _ h => (by cases h), hnone _⟩
  | pick =>
    obtain ⟨a, as, i, -, ⟨r, hr, rfl⟩ | ⟨-, rfl⟩⟩ := hcases
    · refine ⟨?_, hnone _⟩
      rintro _ _ _ _ ⟨⟩
      exact hr
    · exact ⟨fun _ _ _ _ h => (by cases h), hnone _⟩
  | send =>
    obtain ⟨a, as, i, read, d, r, hpc, hentry, hr, rfl⟩ := hcases
    refine ⟨fun _ _ _ _ h => (by cases h), _, rfl, fun x hx => ?_⟩
    exact ⟨a, as, i, read, d, r, hpc, hentry, hr, List.mem_singleton.mp hx⟩

end

end Requests
end BeeeOn
