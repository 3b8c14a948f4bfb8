import Gateway.Core.Command
import Mathlib.Logic.Function.Basic

/-! @src core/Answer.cpp, core/Result.cpp, core/AnswerQueue.cpp | name:Answers, results and their queue |
    family:state

    An `Answer` collects the `Result`s of one command; a change of a result's status marks its answer
    dirty and signals the queue the answer lives in. Objects behind an `Answer::Ptr` are cells of a
    heap, named by numbers; a `Result::Ptr` is an answer with an index into its list, which only grows.
    Every operation here is one critical section of the source, run under the answer's lock (`Answer`
    and `Result` share it), so it is one atomic step of the systems built on top. -/

namespace BeeeOn
variable {V : Type}

/-- `Result::Status`. The decoder casts arbitrary integers to it, so it is the integer it holds. -/
structure Status where
  raw : ℤ
  deriving DecidableEq, Repr

namespace Status

def pending : Status := ⟨0⟩
def success : Status := ⟨1⟩
def failed : Status := ⟨2⟩

/-- `SUCCESS` or `FAILED`. -/
def IsTerminal (s : Status) : Prop := s = success ∨ s = failed

instance (s : Status) : Decidable s.IsTerminal := inferInstanceAs (Decidable (_ ∨ _))

theorem not_isTerminal_pending : ¬ pending.IsTerminal := by decide

theorem IsTerminal.one_le {s : Status} (h : s.IsTerminal) : 1 ≤ s.raw := by
  rcases h with rfl | rfl <;> decide

theorem ne_pending_of_one_le {s : Status} (h : 1 ≤ s.raw) : s ≠ pending := by
  rintro rfl; exact absurd h (by decide)

/-- The tests of `Result::setStatusUnlocked`: whether the status is to change, or the exception. -/
def change (old new : Status) : Except Exn Bool :=
  if old = new then .ok false
  else if new.raw < old.raw then .error .invalidArgument
  else .ok true

theorem change_eq_true {old new : Status} : change old new = .ok true ↔ old.raw < new.raw := by
  obtain ⟨o⟩ := old; obtain ⟨n⟩ := new
  simp only [change, Status.mk.injEq]
  split_ifs <;> simp <;> omega

theorem change_eq_false {old new : Status} : change old new = .ok false ↔ old = new := by
  simp only [change]
  split_ifs <;> simp_all

end Status

/-- `DeviceSetValueResult::SetStatus`, again the integer it holds. -/
structure SetStatus where
  raw : ℤ
  deriving DecidableEq, Repr

/-- The class of a result with the members it adds; `none` is a member its constructor leaves unset. -/
inductive Payload (V : Type) where
  | plain
  | deviceList (devices : List DeviceID)
  | lastValue (value : Option V)
  | setValue (status : Option SetStatus)
  deriving DecidableEq, Repr

structure Result (V : Type) where
  status : Status
  payload : Payload V
  deriving DecidableEq, Repr

/-- The constructors of the result classes: the status is `PENDING`. -/
def Result.new (p : Payload V) : Result V := ⟨.pending, p⟩

structure Answer (V : Type) where
  dirty : Bool
  results : List (Result V)
  commandList : List (CommandRunner V)
  commands : ℕ
  deriving DecidableEq, Repr

namespace Answer

def fresh : Answer V := ⟨false, [], [], 0⟩

/-- `isPendingUnlocked`. -/
def isPending (x : Answer V) : Bool :=
  if x.commands ≠ x.results.length then true
  else if x.commands = 0 then false
  else x.results.any (fun r => r.status = .pending)

/-- Not pending: every counted command has its result, and none of the results is `PENDING`. -/
theorem isPending_eq_false {x : Answer V} :
    x.isPending = false ↔ x.results.length = x.commands ∧ ∀ r ∈ x.results, r.status ≠ .pending := by
  rw [isPending]
  split_ifs with hne hz
  · simp [Ne.symm hne]
  · have hnil : x.results = [] := List.length_eq_zero_iff.mp (by omega)
    simp [hnil, hz]
  · rw [not_not] at hne
    simp [hne]

/-- `setDirtyUnlocked`. -/
def setDirty (x : Answer V) (d : Bool) : Answer V := { x with dirty := d }

/-- `addResult`, called by the constructor of a result. -/
def addResult (x : Answer V) (r : Result V) : Answer V := { x with results := x.results ++ [r] }

def setResult (x : Answer V) (i : ℕ) (r : Result V) : Answer V :=
  { x with results := x.results.set i r }

end Answer

/-- `AnswerQueue` with the answers created on it: `answerList` is `m_answerList`, `event` is whether
    `m_event` is signalled, `heap` holds the answers (removed ones too) and `next` is not yet used. -/
structure AnswerQueue (V : Type) where
  heap : ℕ → Answer V
  next : ℕ
  answerList : List ℕ
  event : Bool

namespace AnswerQueue

def empty : AnswerQueue V := ⟨fun _ => .fresh, 0, [], false⟩

/-- Change one answer in place. -/
def modify (q : AnswerQueue V) (a : ℕ) (f : Answer V → Answer V) : AnswerQueue V :=
  { q with heap := Function.update q.heap a (f (q.heap a)) }

@[simp] theorem modify_next (q : AnswerQueue V) (a) (f) : (q.modify a f).next = q.next := rfl
@[simp] theorem modify_answerList (q : AnswerQueue V) (a) (f) :
    (q.modify a f).answerList = q.answerList := rfl
@[simp] theorem modify_event (q : AnswerQueue V) (a) (f) : (q.modify a f).event = q.event := rfl

@[simp] theorem modify_heap_self (q : AnswerQueue V) (a) (f) :
    (q.modify a f).heap a = f (q.heap a) := by simp [modify]

theorem modify_heap_ne (q : AnswerQueue V) {a b : ℕ} (f) (h : b ≠ a) :
    (q.modify a f).heap b = q.heap b := by simp [modify, h]

theorem modify_heap (q : AnswerQueue V) (a b : ℕ) (f) :
    (q.modify a f).heap b = if b = a then f (q.heap a) else q.heap b := by
  by_cases h : b = a
  · subst h; simp
  · rw [modify_heap_ne q f h, if_neg h]

/-- `new Answer(queue)`: the constructor appends the answer to the queue. -/
def newAnswer (q : AnswerQueue V) : AnswerQueue V :=
  { q with
    heap := Function.update q.heap q.next .fresh
    next := q.next + 1
    answerList := q.answerList ++ [q.next] }

@[simp] theorem newAnswer_next (q : AnswerQueue V) : q.newAnswer.next = q.next + 1 := rfl
@[simp] theorem newAnswer_answerList (q : AnswerQueue V) :
    q.newAnswer.answerList = q.answerList ++ [q.next] := rfl

theorem newAnswer_heap (q : AnswerQueue V) (b : ℕ) :
    q.newAnswer.heap b = if b = q.next then .fresh else q.heap b := by
  by_cases h : b = q.next
  · subst h; simp [newAnswer]
  · simp [newAnswer, h]

/-- The constructor of a result, on the answer it belongs to. -/
def addResult (q : AnswerQueue V) (a : ℕ) (p : Payload V) : AnswerQueue V :=
  q.modify a (·.addResult (.new p))

theorem addResult_heap (q : AnswerQueue V) (a b : ℕ) (p : Payload V) :
    (q.addResult a p).heap b = if b = a then (q.heap a).addResult (.new p) else q.heap b :=
  q.modify_heap a b (·.addResult (.new p))

/-- `Answer::setDirtyUnlocked(true)`, the first half of `notifyUpdated`. -/
def markDirty (q : AnswerQueue V) (a : ℕ) : AnswerQueue V := q.modify a (·.setDirty true)

/-- `event().set()`, the second half of `notifyUpdated`. -/
def signal (q : AnswerQueue V) : AnswerQueue V := { q with event := true }

/-- `Answer::notifyUpdated` and `Result::notifyUpdated`. -/
def notifyUpdated (q : AnswerQueue V) (a : ℕ) : AnswerQueue V := (q.markDirty a).signal

/-- `Result::setStatus` on result `i` of answer `a`. -/
def setStatus (q : AnswerQueue V) (a i : ℕ) (s : Status) : Except Exn (AnswerQueue V) :=
  match (q.heap a).results[i]? with
  | none => .error .nullPointer
  | some r =>
    match r.status.change s with
    | .error e => .error e
    | .ok false => .ok q
    | .ok true => .ok ((q.modify a (·.setResult i { r with status := s })).notifyUpdated a)

/-- The queue after a call of `setStatus`; a call that raises leaves it as it was. -/
def afterSetStatus (q : AnswerQueue V) (a i : ℕ) (s : Status) : AnswerQueue V :=
  match q.setStatus a i s with
  | .ok q' => q'
  | .error _ => q

/-- `setDeviceList`, `setValue`, `setExtendetSetStatus`: a member is written, nobody is notified. -/
def setPayload (q : AnswerQueue V) (a i : ℕ) (p : Payload V) : AnswerQueue V :=
  match (q.heap a).results[i]? with
  | none => q
  | some r => q.modify a (·.setResult i { r with payload := p })

/-- The body of the loop of `listDirty` on one answer: whether it was dirty; it no longer is. -/
def visit (q : AnswerQueue V) (a : ℕ) : Bool × AnswerQueue V :=
  if (q.heap a).dirty then (true, q.modify a (·.setDirty false)) else (false, q)

/-- The loop of `listDirty` over the answers `as`. -/
def listDirtyFrom (q : AnswerQueue V) : List ℕ → List ℕ × AnswerQueue V
  | [] => ([], q)
  | a :: as =>
    let (taken, q') := q.visit a
    let (rest, q'') := listDirtyFrom q' as
    (if taken then a :: rest else rest, q'')

/-- `listDirty`, when nothing else runs. -/
def listDirty (q : AnswerQueue V) : List ℕ × AnswerQueue V := q.listDirtyFrom q.answerList

def remove (q : AnswerQueue V) (a : ℕ) : AnswerQueue V :=
  { q with answerList := q.answerList.erase a }

/-! ### What one critical section changes -/

@[simp] theorem notifyUpdated_event (q : AnswerQueue V) (a : ℕ) : (q.notifyUpdated a).event = true :=
  rfl

theorem notifyUpdated_heap (q : AnswerQueue V) (a b : ℕ) :
    (q.notifyUpdated a).heap b = if b = a then (q.heap a).setDirty true else q.heap b :=
  q.modify_heap a b (·.setDirty true)

/-- A call of `setStatus` either finds a status that is already as far and changes nothing, or raises
    the status and marks the answer. -/
theorem afterSetStatus_cases (q : AnswerQueue V) (a i : ℕ) (s : Status) :
    (q.afterSetStatus a i s = q ∧ ∀ r, (q.heap a).results[i]? = some r → s.raw ≤ r.status.raw) ∨
    ∃ r, (q.heap a).results[i]? = some r ∧ r.status.raw < s.raw ∧
      q.afterSetStatus a i s = (q.modify a (·.setResult i { r with status := s })).notifyUpdated a := by
  rw [afterSetStatus, setStatus]
  cases hr : (q.heap a).results[i]? with
  | none => exact Or.inl ⟨rfl, fun r h => (by cases h)⟩
  | some r =>
    cases hc : r.status.change s with
    | error e =>
      refine Or.inl ⟨by simp only [hc], fun r' h => ?_⟩
      obtain rfl := Option.some.inj h
      by_contra hlt
      rw [Status.change_eq_true.mpr (not_le.mp hlt)] at hc
      cases hc
    | ok b =>
      cases b with
      | false =>
        refine Or.inl ⟨by simp only [hc], fun r' h => ?_⟩
        obtain rfl := Option.some.inj h
        rw [Status.change_eq_false.mp hc]
      | true => exact Or.inr ⟨r, rfl, Status.change_eq_true.mp hc, by simp only [hc]⟩

/-- A scan only ever touches the flag. -/
theorem visit_heap (q : AnswerQueue V) (a b : ℕ) :
    (q.visit a).2.heap b = if b = a then (q.heap a).setDirty false else q.heap b := by
  rw [visit]
  split_ifs with hd hb hb
  · rw [hb, modify_heap_self]
  · exact modify_heap_ne q (·.setDirty false) hb
  · rw [hb, Answer.setDirty, ← (Bool.not_eq_true _).mp hd]
  · rfl

/-- Neither the list of answers nor their number depends on the statuses. -/
theorem afterSetStatus_frame (q : AnswerQueue V) (a i : ℕ) (s : Status) :
    (q.afterSetStatus a i s).answerList = q.answerList ∧ (q.afterSetStatus a i s).next = q.next := by
  rcases q.afterSetStatus_cases a i s with ⟨h, -⟩ | ⟨r, _, _, h⟩ <;> rw [h] <;> exact ⟨rfl, rfl⟩

theorem visit_frame (q : AnswerQueue V) (a : ℕ) :
    (q.visit a).2.answerList = q.answerList ∧ (q.visit a).2.next = q.next ∧
      (q.visit a).2.event = q.event := by
  rw [visit]
  split_ifs <;> exact ⟨rfl, rfl, rfl⟩

/-- The answer after a status change. -/
theorem setStatus_heap (q : AnswerQueue V) (a i b : ℕ) (r : Result V) :
    ((q.modify a (·.setResult i r)).notifyUpdated a).heap b =
      if b = a then ((q.heap a).setResult i r).setDirty true else q.heap b := by
  rw [notifyUpdated_heap]
  by_cases h : b = a
  · subst h; simp
  · rw [if_neg h, if_neg h, modify_heap_ne q _ h]

/-- Statuses only grow, and after a call of `setStatus` the status is as far as asked for. -/
theorem afterSetStatus_results (q : AnswerQueue V) (b i a : ℕ) (s : Status) :
    ((q.afterSetStatus b i s).heap a).commands = (q.heap a).commands ∧
    ((q.afterSetStatus b i s).heap a).results.length = (q.heap a).results.length ∧
    ∀ j r, (q.heap a).results[j]? = some r → ∃ r', ((q.afterSetStatus b i s).heap a).results[j]? =
      some r' ∧ r.status.raw ≤ r'.status.raw ∧ (b = a → i = j → s.raw ≤ r'.status.raw) := by
  rcases q.afterSetStatus_cases b i s with ⟨heq, hle⟩ | ⟨r, hr, hlt, heq⟩ <;> rw [heq]
  · refine ⟨rfl, rfl, fun j r hr => ⟨r, hr, le_rfl, ?_⟩⟩
    rintro rfl rfl
    exact hle r hr
  · rw [setStatus_heap]
    split_ifs with hab
    · subst hab
      refine ⟨rfl, by simp [Answer.setDirty, Answer.setResult], fun j q' hq => ?_⟩
      rw [Answer.setDirty, Answer.setResult, List.getElem?_set]
      split_ifs with hij hlen
      · subst hij
        obtain rfl := Option.some.inj (hr.symm.trans hq)
        exact ⟨_, rfl, hlt.le, fun _ _ => le_rfl⟩
      · subst hij
        exact absurd (List.getElem?_eq_some_iff.mp hr).1 hlen
      · exact ⟨q', hq, le_rfl, fun _ h => absurd h hij⟩
    · exact ⟨rfl, rfl, fun j q' hq => ⟨q', hq, le_rfl, fun h => absurd h.symm hab⟩⟩

/-- A call of `setStatus` that returns has not been given a status below that of the result. -/
theorem le_of_setStatus {q q' : AnswerQueue V} {a i : ℕ} {s : Status} {r : Result V}
    (hr : (q.heap a).results[i]? = some r) (h : q.setStatus a i s = .ok q') : r.status.raw ≤ s.raw := by
  rw [setStatus, hr] at h
  cases hc : r.status.change s with
  | error e =>
    simp only [hc] at h
    cases h
  | ok b =>
    cases b with
    | false => rw [Status.change_eq_false.mp hc]
    | true => exact (Status.change_eq_true.mp hc).le

/-- A status that is not below that of the result becomes its status, and nothing else changes. -/
theorem afterSetStatus_of_le (q : AnswerQueue V) {a i : ℕ} {s : Status} {r : Result V}
    (hr : (q.heap a).results[i]? = some r) (hle : r.status.raw ≤ s.raw) (b : ℕ) :
    ((q.afterSetStatus a i s).heap b).results =
      if b = a then (q.heap a).results.set i { r with status := s } else (q.heap b).results := by
  rcases q.afterSetStatus_cases a i s with ⟨heq, hge⟩ | ⟨r', hr', -, heq⟩ <;> rw [heq]
  · have hst : r.status = s := by
      have := hge r hr
      obtain ⟨⟨x⟩, p⟩ := r
      obtain ⟨y⟩ := s
      exact congrArg Status.mk (le_antisymm hle this)
    have hsame : (q.heap a).results.set i { r with status := s } = (q.heap a).results := by
      obtain ⟨hi, hri⟩ := List.getElem?_eq_some_iff.mp hr
      rw [← hst, show ({ r with status := r.status } : Result V) = (q.heap a).results[i] from hri.symm]
      exact List.set_getElem_self hi
    rw [hsame]
    split_ifs with hb
    · rw [hb]
    · rfl
  · obtain rfl := Option.some.inj (hr.symm.trans hr')
    rw [setStatus_heap]
    split_ifs <;> rfl

/-- A change of a status leaves the payloads that there were. -/
theorem afterSetStatus_payload {q : AnswerQueue V} {a i b : ℕ} {s : Status} {r' : Result V}
    (h : r' ∈ ((q.afterSetStatus a i s).heap b).results) :
    ∃ r ∈ (q.heap b).results, r'.payload = r.payload := by
  rcases q.afterSetStatus_cases a i s with ⟨heq, -⟩ | ⟨x, hx, -, heq⟩ <;> rw [heq] at h
  · exact ⟨r', h, rfl⟩
  · rw [setStatus_heap] at h
    split_ifs at h with hb
    · rcases List.mem_or_eq_of_mem_set h with h | rfl
      · exact ⟨r', hb ▸ h, rfl⟩
      · exact ⟨x, hb ▸ List.mem_of_getElem? hx, rfl⟩
    · exact ⟨r', h, rfl⟩

/-- A write of a payload leaves those that there were, and this one on its answer. -/
theorem setPayload_payload {q : AnswerQueue V} {a i b : ℕ} {p : Payload V} {r' : Result V}
    (h : r' ∈ ((q.setPayload a i p).heap b).results) :
    (∃ r ∈ (q.heap b).results, r'.payload = r.payload) ∨ b = a ∧ r'.payload = p := by
  rw [setPayload] at h
  split at h
  · exact Or.inl ⟨r', h, rfl⟩
  · rw [modify_heap] at h
    split_ifs at h with hb
    · rcases List.mem_or_eq_of_mem_set h with h | rfl
      · exact Or.inl ⟨r', hb ▸ h, rfl⟩
      · exact Or.inr ⟨hb, rfl⟩
    · exact Or.inl ⟨r', h, rfl⟩

/-- A new result leaves the payloads that there were, and its own on its answer. -/
theorem addResult_payload {q : AnswerQueue V} {a b : ℕ} {p : Payload V} {r' : Result V}
    (h : r' ∈ ((q.addResult a p).heap b).results) :
    (∃ r ∈ (q.heap b).results, r'.payload = r.payload) ∨ b = a ∧ r'.payload = p := by
  rw [addResult_heap] at h
  split_ifs at h with hb
  · rcases List.mem_append.mp h with h | h
    · exact Or.inl ⟨r', hb ▸ h, rfl⟩
    · rw [List.mem_singleton.mp h]
      exact Or.inr ⟨hb, rfl⟩
  · exact Or.inl ⟨r', h, rfl⟩

end AnswerQueue
end BeeeOn
