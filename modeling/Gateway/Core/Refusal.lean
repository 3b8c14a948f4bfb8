import Gateway.Core.Dispatcher

/-! @src core/CommandDispatcher.cpp, core/Answer.cpp | name:A dispatch that is refused |
    family:error handling

    `Poco::TaskManager::start` takes its task over and raises when the pool has no thread for it. Then
    `runCommands` leaves its loop where it is: the tasks before are running, the commands are counted,
    and the list is not cleared, though the manager has taken the tasks in it. -/

namespace BeeeOn
variable {V : Type}

/-- What a call of `dispatch` leaves: the queue, the tasks it has started, and whether it has raised. -/
structure Dispatched (V : Type) where
  queue : AnswerQueue V
  started : List (CommandRunner V)
  raised : Bool

namespace AnswerQueue

/-- The loop of `runCommands`: the tasks it starts, and whether it gets through. `pool j` is whether the
    pool takes the task `j` of the call. -/
def startTasks (pool : ℕ → Bool) : ℕ → List (CommandRunner V) → List (CommandRunner V) × Bool
  | _, [] => ([], true)
  | j, item :: rest =>
    if pool j then
      let more := startTasks pool (j + 1) rest
      (item :: more.1, more.2)
    else ([], false)

/-- `runCommands` over a pool that may refuse. -/
def runCommandsIn (pool : ℕ → Bool) (q : AnswerQueue V) (a : ℕ) : Dispatched V :=
  let r := startTasks pool 0 (q.heap a).commandList
  if r.2 then ⟨(q.runCommands a).1, r.1, false⟩ else ⟨q, r.1, true⟩

/-- `dispatch` over a pool that may refuse. -/
def dispatchIn (pool : ℕ → Bool) (hs : List (CommandHandler V)) (cmd : Command V) (a : ℕ)
    (q : AnswerQueue V) : Dispatched V :=
  let counted := hs.foldl (offer cmd a) q
  if (counted.heap a).isPending then counted.runCommandsIn pool a
  else ⟨counted.notifyUpdated a, [], false⟩

end AnswerQueue

namespace CommandDispatcher
open AnswerQueue
variable {pool : ℕ → Bool} {hs : List (CommandHandler V)} {cmd : Command V} {a : ℕ} {q : AnswerQueue V}

/-- Where the call raises none of its commands has been started, and the count and the list of the
    answer are what they were. -/
def AllOrNothing (hs : List (CommandHandler V)) (cmd : Command V) (a : ℕ) (q : AnswerQueue V)
    (d : Dispatched V) : Prop :=
  d.raised = true → (∀ c ∈ runners hs cmd a, c ∉ d.started) ∧
    (d.queue.heap a).commands = (q.heap a).commands ∧
    (d.queue.heap a).commandList = (q.heap a).commandList

/-- No handler accepts, or the answer has all its results with those that accept, and none of them is
    pending, or the pool takes every task: those of the list, and one for each that accepts. -/
def NothingRefused (pool : ℕ → Bool) (hs : List (CommandHandler V)) (cmd : Command V) (x : Answer V) :
    Prop :=
  hs.countP (·.accept cmd) = 0 ∨
    (x.results.length = x.commands + hs.countP (·.accept cmd) ∧ ∀ r ∈ x.results, r.status ≠ .pending) ∨
    ∀ j < x.commandList.length + hs.countP (·.accept cmd), pool j = true

/-- The loop of `dispatch`: a command for each handler that accepts, in the list and in the count. -/
theorem foldl_offer_heap (cmd : Command V) (a : ℕ) (hs : List (CommandHandler V)) (q : AnswerQueue V) :
    (hs.foldl (offer cmd a) q).heap a =
      { q.heap a with
        commandList := (q.heap a).commandList ++ runners hs cmd a
        commands := (q.heap a).commands + hs.countP (·.accept cmd) } := by
  induction hs generalizing q with
  | nil => simp [runners]
  | cons h hs ih =>
    rw [List.foldl_cons, ih, offer_heap, runners_cons, List.countP_cons]
    split_ifs with hacc
    · simp only [List.append_assoc, List.singleton_append, Answer.mk.injEq, true_and]
      omega
    · rfl

/-- A pool that takes every task lets the loop through. -/
theorem startTasks_all (l : List (CommandRunner V)) (j : ℕ) (h : ∀ i < l.length, pool (j + i) = true) :
    startTasks pool j l = (l, true) := by
  induction l generalizing j with
  | nil => rfl
  | cons item rest ih =>
    have hj : pool j = true := h 0 (by simp)
    have hrest : startTasks pool (j + 1) rest = (rest, true) := ih (j + 1) fun i hi => by
      rw [show j + 1 + i = j + (i + 1) by omega]
      exact h (i + 1) (by simpa using hi)
    rw [startTasks, if_pos hj, hrest]

/-- One that refuses the task `k` has started the tasks before it. -/
theorem startTasks_refused (l : List (CommandRunner V)) (j k : ℕ) (hk : k < l.length)
    (h : ∀ i < k, pool (j + i) = true) (hrefused : pool (j + k) = false) :
    startTasks pool j l = (l.take k, false) := by
  induction l generalizing j k with
  | nil => simp at hk
  | cons item rest ih =>
    cases k with
    | zero => rw [startTasks, if_neg (by simpa using hrefused), List.take_zero]
    | succ k =>
      have hplace : ∀ i, j + 1 + i = j + (i + 1) := fun i => by omega
      have hrest : startTasks pool (j + 1) rest = (rest.take k, false) :=
        ih (j + 1) k (by simpa using hk) (fun i hi => by rw [hplace]; exact h (i + 1) (by omega))
          (by rw [hplace]; exact hrefused)
      have hj : pool j = true := h 0 (Nat.succ_pos k)
      rw [startTasks, if_pos hj, hrest, List.take_succ_cons]

theorem startTasks_iff (l : List (CommandRunner V)) :
    (startTasks pool 0 l).2 = true ↔ ∀ i < l.length, pool i = true := by
  constructor
  · intro hthrough
    by_contra hno
    push Not at hno
    obtain ⟨hk, hrefused⟩ := Nat.find_spec hno
    have hbefore : ∀ i < Nat.find hno, pool (0 + i) = true := fun i hi => by
      have hmin := Nat.find_min hno hi
      rw [Nat.zero_add]
      by_contra hp
      exact hmin ⟨hi.trans hk, hp⟩
    rw [startTasks_refused l 0 _ hk hbefore (by simpa using hrefused)] at hthrough
    cases hthrough
  · intro h
    rw [startTasks_all l 0 fun i hi => by rw [Nat.zero_add]; exact h i hi]

/-- With a pool that takes every task this is `dispatch`. -/
theorem dispatchIn_eq_dispatch (h : ∀ j, pool j = true) : dispatchIn pool hs cmd a q =
    ⟨(dispatch hs cmd a q).1, (dispatch hs cmd a q).2, false⟩ := by
  rw [dispatchIn, dispatch, startOrNotify]
  split_ifs
  · rw [runCommandsIn, startTasks_all _ 0 fun i _ => h _]
    rfl
  · rfl

/-- The answer when its commands have been counted is pending, or has all its results. -/
theorem counted_isPending : ((hs.foldl (offer cmd a) q).heap a).isPending = false ↔
    (q.heap a).results.length = (q.heap a).commands + hs.countP (·.accept cmd) ∧
      ∀ r ∈ (q.heap a).results, r.status ≠ .pending := by
  rw [Answer.isPending_eq_false, foldl_offer_heap]

/-- A dispatch that is refused at the task `k`: those before it are running, and the answer is as it was
    counted. -/
theorem dispatchIn_refused {k : ℕ} (hpending : ((hs.foldl (offer cmd a) q).heap a).isPending = true)
    (hk : k < ((q.heap a).commandList ++ runners hs cmd a).length) (h : ∀ i < k, pool i = true)
    (hrefused : pool k = false) : dispatchIn pool hs cmd a q =
      ⟨hs.foldl (offer cmd a) q, ((q.heap a).commandList ++ runners hs cmd a).take k, true⟩ := by
  have hlist : ((hs.foldl (offer cmd a) q).heap a).commandList =
      (q.heap a).commandList ++ runners hs cmd a := by rw [foldl_offer_heap]
  rw [dispatchIn, if_pos hpending, runCommandsIn, hlist, startTasks_refused _ 0 k hk
    (fun i hi => by rw [Nat.zero_add]; exact h i hi) (by rw [Nat.zero_add]; exact hrefused)]
  rfl

/-- It raises exactly if the answer is pending and a task is refused. -/
theorem dispatchIn_raised_iff : (dispatchIn pool hs cmd a q).raised = true ↔
    ((hs.foldl (offer cmd a) q).heap a).isPending = true ∧
      ¬ ∀ j < (q.heap a).commandList.length + hs.countP (·.accept cmd), pool j = true := by
  have hlist : ((hs.foldl (offer cmd a) q).heap a).commandList =
      (q.heap a).commandList ++ runners hs cmd a := by rw [foldl_offer_heap]
  have hthrough := @startTasks_iff _ pool ((q.heap a).commandList ++ runners hs cmd a)
  rw [List.length_append, length_runners] at hthrough
  rw [← hthrough, dispatchIn]
  by_cases hp : ((hs.foldl (offer cmd a) q).heap a).isPending = true
  · rw [if_pos hp, runCommandsIn, hlist]
    cases hs2 : (startTasks pool 0 ((q.heap a).commandList ++ runners hs cmd a)).2 <;> simp [hp]
  · rw [if_neg hp]
    simp [hp]

/-- A dispatch that raises has counted the commands and keeps them in the list. -/
theorem dispatchIn_raised_heap (h : (dispatchIn pool hs cmd a q).raised = true) :
    (dispatchIn pool hs cmd a q).queue = hs.foldl (offer cmd a) q := by
  simp only [dispatchIn, runCommandsIn] at h ⊢
  split_ifs at h ⊢
  rfl

/-- For any handlers, any answer and any pool: `dispatch` is all or nothing exactly if it has nothing to
    start or nothing is refused. -/
theorem all_or_nothing_iff (pool : ℕ → Bool) (hs : List (CommandHandler V)) (cmd : Command V) (a : ℕ)
    (q : AnswerQueue V) :
    AllOrNothing hs cmd a q (dispatchIn pool hs cmd a q) ↔ NothingRefused pool hs cmd (q.heap a) := by
  rw [NothingRefused, ← counted_isPending]
  by_cases hraised : (dispatchIn pool hs cmd a q).raised = true
  · obtain ⟨hp, hrefused⟩ := dispatchIn_raised_iff.mp hraised
    have hright : (hs.countP (·.accept cmd) = 0 ∨ ((hs.foldl (offer cmd a) q).heap a).isPending = false ∨
        ∀ j < (q.heap a).commandList.length + hs.countP (·.accept cmd), pool j = true) ↔
        hs.countP (·.accept cmd) = 0 := by simp [hp, hrefused]
    rw [hright, AllOrNothing, dispatchIn_raised_heap hraised, foldl_offer_heap]
    constructor
    · intro hall
      have hcommands := (hall hraised).2.1
      simp only at hcommands
      omega
    · intro hnone _
      have hnil : runners hs cmd a = [] := runners_eq_nil.mpr hnone
      simp [hnil, hnone]
  · refine iff_of_true (fun h => absurd h hraised) ?_
    by_contra hno
    obtain ⟨-, hpend, hrefused⟩ := by simpa only [not_or] using hno
    exact hraised (dispatchIn_raised_iff.mpr ⟨by simpa using hpend, hrefused⟩)

/-- Two handlers accept and the pool refuses the second: both commands stay counted. -/
theorem refused_stays_counted : ¬ ∀ (pool : ℕ → Bool) (hs : List (CommandHandler ℤ)) (cmd : Command ℤ)
    (a : ℕ) (q : AnswerQueue ℤ), AllOrNothing hs cmd a q (dispatchIn pool hs cmd a q) := by
  intro h
  have hcommands := (h (fun j => j = 0) [⟨7, fun _ => true⟩, ⟨8, fun _ => true⟩] (.gatewayListen 5) 0
    AnswerQueue.empty.newAnswer (by decide)).2.1
  revert hcommands
  decide

end CommandDispatcher
end BeeeOn
