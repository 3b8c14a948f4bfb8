import Gateway.Schemes.Flag
import Gateway.Core.Answer

/-! @src core/AnswerQueue.cpp, core/Answer.cpp, core/Result.cpp | name:Waiting for dirty answers |
    family:notification

    The interleavings of the threads around one `AnswerQueue`, lock by lock. A producer changes the
    status of a result, or notifies by hand: under the lock of the answer it sets the flag and then the
    event. A consumer loops in `wait`: under `m_mutex` it walks the queue and, under the lock of each
    answer, takes the dirty ones; if it has found none it blocks on the event, which is auto-reset.
    Each answer's flag is a test-and-clear flag, so no mark is lost and none is taken twice; and a dirty
    answer always has somebody who will see it: the event, a producer about to set it, or a woken
    consumer whose scan has not passed the answer. -/

namespace BeeeOn
open Schemes
variable {V : Type}

namespace AnswerQueue

/-- What the threads share: the queue, the lock of each answer (whether it is held) and `m_mutex`. -/
structure Shared (V : Type) where
  queue : AnswerQueue V
  locked : ℕ → Bool
  mutex : Bool

def Shared.dirty (m : Shared V) (a : ℕ) : Bool := (m.queue.heap a).dirty

/-! ### Producers -/

inductive Update where
  | setStatus (i : ℕ) (s : Status)
  | notifyUpdated

/-- Where a producer is: nowhere, inside the lock of `a`, past the change of the status, between the
    flag and the event, about to leave the lock. -/
inductive Producer where
  | idle
  | locked (a : ℕ) (u : Update)
  | changed (a : ℕ)
  | marked (a : ℕ)
  | leaving (a : ℕ)

inductive Produce where
  | lock (a : ℕ) (u : Update)
  | apply
  | mark (a : ℕ)
  | signal
  | unlock

/-- `Result::setStatus` and a guarded `Answer::notifyUpdated`, statement by statement. -/
def Producer.step (m : Shared V) : Producer → Produce → Option (Shared V × Producer)
  | .idle, .lock a u =>
    if m.locked a = false ∧ a < m.queue.next then
      some ({ m with locked := Function.update m.locked a true }, .locked a u)
    else none
  | .locked a .notifyUpdated, .apply => some (m, .changed a)
  | .locked a (.setStatus i s), .apply =>
    match (m.queue.heap a).results[i]? with
    | none => none
    | some r =>
      match r.status.change s with
      | .ok true =>
        some ({ m with queue := m.queue.modify a (·.setResult i { r with status := s }) }, .changed a)
      -- nothing to do, or the exception; either way the lock is released
      | _ => some (m, .leaving a)
  | .changed a, .mark b =>
    if a = b then some ({ m with queue := m.queue.markDirty a }, .marked a) else none
  | .marked a, .signal => some ({ m with queue := m.queue.signal }, .leaving a)
  | .leaving a, .unlock => some ({ m with locked := Function.update m.locked a false }, .idle)
  | _, _ => none

/-! ### Consumers -/

/-- Where a consumer is in `wait`: about to scan, scanning, done with a scan that has found something,
    or in `block`. `woken` tells whether the event has let it out of `block` since its last scan. -/
inductive Consumer where
  | idle
  | entering (timeout : ℤ) (woken : Bool)
  | scanning (timeout : ℤ) (woken : Bool) (todo taken : List ℕ)
  | found (taken : List ℕ)
  | blocked (timeout : ℤ)

inductive Consume where
  | wait (timeout : ℤ)
  | enter
  | take (a : ℕ)
  | skip (a : ℕ)
  | endScan
  | wake
  | ret (b : Bool) (dirtyList : List ℕ)

/-- `AnswerQueue::wait` with `listDirty` and `block`. The look at one answer is one step, since the
    whole of it is under the lock of the answer. -/
def Consumer.step (m : Shared V) : Consumer → Consume → Option (Shared V × Consumer)
  | .idle, .wait timeout => some (m, .entering timeout false)
  | .entering timeout woken, .enter =>
    if m.mutex then none
    else some ({ m with mutex := true }, .scanning timeout woken m.queue.answerList [])
  | .scanning timeout woken (a :: todo) taken, .take b =>
    if a = b ∧ m.locked a = false ∧ m.dirty a = true then
      some ({ m with queue := (m.queue.visit a).2 }, .scanning timeout woken todo (taken ++ [a]))
    else none
  | .scanning timeout woken (a :: todo) taken, .skip b =>
    if a = b ∧ m.locked a = false ∧ m.dirty a = false then
      some ({ m with queue := (m.queue.visit a).2 }, .scanning timeout woken todo taken)
    else none
  | .scanning timeout _ [] taken, .endScan =>
    some ({ m with mutex := false }, if taken = [] then .blocked timeout else .found taken)
  | .found taken, .ret true l => if l = taken then some (m, .idle) else none
  -- `tryWait` can give up at any moment, a zero timeout does at once
  | .blocked timeout, .ret false [] => if 0 ≤ timeout then some (m, .idle) else none
  | .blocked timeout, .wake =>
    if timeout ≠ 0 ∧ m.queue.event = true then
      some ({ m with queue := { m.queue with event := false } }, .entering timeout true)
    else none
  | _, _ => none

/-! ### The system -/

structure Threads (V : Type) where
  shared : Shared V
  producer : ℕ → Producer
  consumer : ℕ → Consumer

inductive Label (V : Type) where
  | producer (p : ℕ) (l : Produce)
  | consumer (c : ℕ) (l : Consume)
  | add
  | remove (a : ℕ)
  | addResult (a : ℕ) (p : Payload V)

/-- Any number of producers and consumers on one queue, while answers and results come and go. -/
def threads : Lts (Threads V) (Label V) where
  step
    | s, .producer p l => ((s.producer p).step s.shared l).map fun (m, pc) =>
        { s with shared := m, producer := Function.update s.producer p pc }
    | s, .consumer c l => ((s.consumer c).step s.shared l).map fun (m, pc) =>
        { s with shared := m, consumer := Function.update s.consumer c pc }
    | s, .add =>
      if s.shared.mutex then none
      else some { s with shared := { s.shared with queue := s.shared.queue.newAnswer } }
    | s, .remove a =>
      if s.shared.mutex then none
      else some { s with shared := { s.shared with queue := s.shared.queue.remove a } }
    | s, .addResult a p =>
      if s.shared.locked a = false ∧ a < s.shared.queue.next then
        some { s with shared := { s.shared with queue := s.shared.queue.addResult a p } }
      else none

def Threads.init : Threads V := ⟨⟨.empty, fun _ => false, false⟩, fun _ => .idle, fun _ => .idle⟩

/-! ### What a step of one thread does to the flags and the event -/

/-- The answer whose lock a producer holds. -/
def Producer.on : Producer → Option ℕ
  | .idle => none
  | .locked a _ | .changed a | .marked a | .leaving a => some a

/-- A woken consumer whose scan is still to reach `a`. -/
def Consumer.Covers (a : ℕ) : Consumer → Prop
  | .entering _ woken => woken = true
  | .scanning _ woken todo _ => woken = true ∧ a ∈ todo
  | _ => False

/-- A consumer that has taken `a` and has not returned yet. -/
def Consumer.Holds (a : ℕ) : Consumer → Prop
  | .scanning _ _ _ taken => a ∈ taken
  | .found taken => a ∈ taken
  | _ => False

theorem modify_dirty (q : AnswerQueue V) {a b : ℕ} {f : Answer V → Answer V}
    (hf : (f (q.heap a)).dirty = (q.heap a).dirty) :
    ((q.modify a f).heap b).dirty = (q.heap b).dirty := by
  rw [modify_heap]
  split_ifs with h
  · rw [hf, h]
  · rfl

section
variable {m m' : Shared V}

/-- The steps of a producer. -/
inductive Producer.Steps (m : Shared V) : Producer → Produce → Shared V → Producer → Prop
  | lock {a : ℕ} (u : Update) (ha : a < m.queue.next) :
    Steps m .idle (.lock a u) { m with locked := Function.update m.locked a true } (.locked a u)
  | notify {a : ℕ} : Steps m (.locked a .notifyUpdated) .apply m (.changed a)
  | change {a i : ℕ} {s : Status} (r : Result V) :
    Steps m (.locked a (.setStatus i s)) .apply
      { m with queue := m.queue.modify a (·.setResult i { r with status := s }) } (.changed a)
  | keep {a i : ℕ} {s : Status} : Steps m (.locked a (.setStatus i s)) .apply m (.leaving a)
  | mark {a : ℕ} : Steps m (.changed a) (.mark a) { m with queue := m.queue.markDirty a } (.marked a)
  | signal {a : ℕ} : Steps m (.marked a) .signal { m with queue := m.queue.signal } (.leaving a)
  | unlock {a : ℕ} :
    Steps m (.leaving a) .unlock { m with locked := Function.update m.locked a false } .idle

theorem Producer.steps_of {pc pc' : Producer} {l : Produce} (h : pc.step m l = some (m', pc')) :
    Producer.Steps m pc l m' pc' := by
  simp only [Producer.step] at h
  split at h
  · split_ifs at h with hl
    cases h
    exact .lock _ hl.2
  · cases h
    exact .notify
  · split at h
    · cases h
    · split at h <;> cases h
      · exact .change _
      · exact .keep
  · split_ifs at h with hab
    cases h
    exact hab ▸ .mark
  · cases h
    exact .signal
  · cases h
    exact .unlock
  · cases h

/-- A producer's step: it raises the flag of the answer it marks and no other, never lowers the event,
    and leaves the gap between the two only by setting the event. -/
theorem Producer.step_effect {pc pc' : Producer} {l : Produce}
    (h : pc.step m l = some (m', pc')) (b : ℕ) :
    m'.queue.answerList = m.queue.answerList ∧ m'.queue.next = m.queue.next ∧
    (m.queue.event = true → m'.queue.event = true) ∧
    ((l = .mark b ∧ pc = .changed b ∧ pc' = .marked b ∧ m'.dirty b = true) ∨
      (l ≠ .mark b ∧ m'.dirty b = m.dirty b ∧ (pc = .marked b → m'.queue.event = true))) := by
  cases Producer.steps_of h with
  | change r =>
    exact ⟨rfl, rfl, id, Or.inr ⟨by simp, by rw [Shared.dirty, modify_dirty _ rfl]; rfl, by simp⟩⟩
  | @mark a =>
    refine ⟨rfl, rfl, id, ?_⟩
    by_cases hab : a = b
    · subst hab
      exact Or.inl ⟨rfl, rfl, rfl, by simp [Shared.dirty, markDirty, Answer.setDirty]⟩
    · refine Or.inr ⟨by simpa using hab, ?_, by simp⟩
      simp only [Shared.dirty, markDirty, modify_heap_ne _ _ (Ne.symm hab)]
  | signal => exact ⟨rfl, rfl, fun _ => rfl, Or.inr ⟨by simp, rfl, fun _ => rfl⟩⟩
  | lock | notify | keep | unlock => exact ⟨rfl, rfl, id, Or.inr ⟨by simp, rfl, by simp⟩⟩

/-- A producer only ever works on answers that exist. -/
theorem Producer.step_on {pc pc' : Producer} {l : Produce} (h : pc.step m l = some (m', pc')) {a : ℕ}
    (ha : pc'.on = some a) : pc.on = some a ∨ a < m.queue.next := by
  cases Producer.steps_of h with
  | lock u hb => exact Or.inr (Option.some.inj ha ▸ hb)
  | notify | change | keep | mark | signal => exact Or.inl ha
  | unlock => cases ha

/-- The look at an answer: what it does to the flags, taken or not. -/
theorem visit_dirty (m : Shared V) (a b : ℕ) :
    (((m.queue.visit a).2.heap b)).dirty = if b = a then false else m.dirty b := by
  rw [visit_heap]
  split_ifs <;> rfl

/-- The steps of a consumer. -/
inductive Consumer.Steps (m : Shared V) : Consumer → Consume → Shared V → Consumer → Prop
  | wait {timeout : ℤ} : Steps m .idle (.wait timeout) m (.entering timeout false)
  | enter {timeout : ℤ} {woken : Bool} :
    Steps m (.entering timeout woken) .enter { m with mutex := true }
      (.scanning timeout woken m.queue.answerList [])
  | take {timeout : ℤ} {woken : Bool} {todo taken : List ℕ} (a : ℕ) (hd : m.dirty a = true) :
    Steps m (.scanning timeout woken (a :: todo) taken) (.take a)
      { m with queue := (m.queue.visit a).2 } (.scanning timeout woken todo (taken ++ [a]))
  | skip {timeout : ℤ} {woken : Bool} {todo taken : List ℕ} (a : ℕ) (hd : m.dirty a = false) :
    Steps m (.scanning timeout woken (a :: todo) taken) (.skip a)
      { m with queue := (m.queue.visit a).2 } (.scanning timeout woken todo taken)
  | endScan {timeout : ℤ} {woken : Bool} {taken : List ℕ} :
    Steps m (.scanning timeout woken [] taken) .endScan { m with mutex := false }
      (if taken = [] then .blocked timeout else .found taken)
  | found {taken : List ℕ} : Steps m (.found taken) (.ret true taken) m .idle
  | giveUp {timeout : ℤ} : Steps m (.blocked timeout) (.ret false []) m .idle
  | wake {timeout : ℤ} :
    Steps m (.blocked timeout) .wake { m with queue := { m.queue with event := false } }
      (.entering timeout true)

theorem Consumer.steps_of {pc pc' : Consumer} {l : Consume} (h : pc.step m l = some (m', pc')) :
    Consumer.Steps m pc l m' pc' := by
  simp only [Consumer.step] at h
  split at h
  · cases h
    exact .wait
  · split_ifs at h
    cases h
    exact .enter
  · split_ifs at h with hl
    obtain ⟨rfl, -, hd⟩ := hl
    cases h
    exact .take _ hd
  · split_ifs at h with hl
    obtain ⟨rfl, -, hd⟩ := hl
    cases h
    exact .skip _ hd
  · cases h
    exact .endScan
  · split_ifs at h with hl
    cases h
    exact hl ▸ .found
  · split_ifs at h
    cases h
    exact .giveUp
  · split_ifs at h
    cases h
    exact .wake
  · cases h

/-- A consumer's step: it lowers the flag of the answer it takes, which was up, and no other, and it
    lowers the event only on its way to a scan. -/
theorem Consumer.step_effect {pc pc' : Consumer} {l : Consume}
    (h : pc.step m l = some (m', pc')) (b : ℕ) :
    m'.queue.answerList = m.queue.answerList ∧ m'.queue.next = m.queue.next ∧
    (m.queue.event = true → m'.queue.event = true ∨ pc'.Covers b) ∧
    ((l = .take b ∧ m.dirty b = true ∧ m'.dirty b = false ∧ pc'.Holds b) ∨
      (l ≠ .take b ∧ m'.dirty b = m.dirty b)) := by
  cases Consumer.steps_of h with
  | take a hd =>
    obtain ⟨hl, hn, hv⟩ := m.queue.visit_frame a
    refine ⟨hl, hn, fun he => Or.inl (hv.trans he), ?_⟩
    by_cases hab : b = a
    · subst hab
      exact Or.inl ⟨rfl, hd, by rw [Shared.dirty, visit_dirty, if_pos rfl],
        List.mem_append_right _ (List.mem_singleton_self b)⟩
    · exact Or.inr ⟨by simpa using Ne.symm hab, by rw [Shared.dirty, visit_dirty, if_neg hab]⟩
  | skip a hd =>
    obtain ⟨hl, hn, hv⟩ := m.queue.visit_frame a
    refine ⟨hl, hn, fun he => Or.inl (hv.trans he), Or.inr ⟨by simp, ?_⟩⟩
    rw [Shared.dirty, visit_dirty]
    split_ifs with hab
    · rw [hab, hd]
    · rfl
  | wake => exact ⟨rfl, rfl, fun _ => Or.inr rfl, Or.inr ⟨by simp, rfl⟩⟩
  | wait | enter | endScan | found | giveUp => exact ⟨rfl, rfl, Or.inl, Or.inr ⟨by simp, rfl⟩⟩

/-- A woken consumer stays on its way to an answer until it has seen it with the flag down. -/
theorem Consumer.covers_step {pc pc' : Consumer} {l : Consume} (h : pc.step m l = some (m', pc'))
    {a : ℕ} (ha : a ∈ m.queue.answerList) (hc : pc.Covers a) :
    pc'.Covers a ∨ m'.dirty a = false := by
  cases Consumer.steps_of h with
  | enter => exact Or.inl ⟨hc, ha⟩
  | take b | skip b =>
    rcases List.mem_cons.mp hc.2 with rfl | hm
    · exact Or.inr (by rw [Shared.dirty, visit_dirty, if_pos rfl])
    · exact Or.inl ⟨hc.1, hm⟩
  | endScan => cases hc.2
  | wait | found | giveUp | wake => cases hc

/-- What a consumer has taken stays in its hands until it returns it. -/
theorem Consumer.holds_step {pc pc' : Consumer} {l : Consume} (h : pc.step m l = some (m', pc'))
    {a : ℕ} (hh : pc.Holds a) :
    (∃ dl, l = .ret true dl ∧ a ∈ dl) ∨ ((∀ b dl, l ≠ .ret b dl) ∧ pc'.Holds a) := by
  cases Consumer.steps_of h with
  | take b => exact Or.inr ⟨by simp, List.mem_append_left _ hh⟩
  | skip b => exact Or.inr ⟨by simp, hh⟩
  | endScan =>
    refine Or.inr ⟨by simp, ?_⟩
    rw [if_neg (List.ne_nil_of_mem hh)]
    exact hh
  | found => exact Or.inl ⟨_, rfl, hh⟩
  | wait | enter | giveUp | wake => cases hh

end

/-! ### The flag of an answer along a run -/

/-- Only answers that exist are worked on or marked. -/
def Threads.Allocated (s : Threads V) : Prop :=
  (∀ b, s.shared.queue.next ≤ b → s.shared.dirty b = false) ∧
    ∀ p a, (s.producer p).on = some a → a < s.shared.queue.next

section
variable {s t : Threads V}

theorem producer_step_iff {p : ℕ} {l : Produce} : threads.step s (.producer p l) = some t ↔
    ∃ m pc, (s.producer p).step s.shared l = some (m, pc) ∧
      t = { s with shared := m, producer := Function.update s.producer p pc } := by
  simp only [threads, Option.map_eq_some_iff, Prod.exists]
  exact exists_congr fun _ => exists_congr fun _ => and_congr_right fun _ => eq_comm

theorem consumer_step_iff {c : ℕ} {l : Consume} : threads.step s (.consumer c l) = some t ↔
    ∃ m pc, (s.consumer c).step s.shared l = some (m, pc) ∧
      t = { s with shared := m, consumer := Function.update s.consumer c pc } := by
  simp only [threads, Option.map_eq_some_iff, Prod.exists]
  exact exists_congr fun _ => exists_congr fun _ => and_congr_right fun _ => eq_comm

theorem newAnswer_dirty (q : AnswerQueue V) (b : ℕ) :
    (q.newAnswer.heap b).dirty = if b = q.next then false else (q.heap b).dirty := by
  rw [newAnswer_heap]
  split_ifs <;> rfl

/-- The steps that are no thread's: no thread moves, no flag is raised, the event stays. -/
theorem other_step {l : Label V} (hp : ∀ p k, l ≠ .producer p k) (hc : ∀ c k, l ≠ .consumer c k)
    (h : threads.step s l = some t) : t.producer = s.producer ∧ t.consumer = s.consumer ∧
      t.shared.queue.event = s.shared.queue.event ∧ s.shared.queue.next ≤ t.shared.queue.next ∧
      (∀ a, t.shared.dirty a = s.shared.dirty a ∨ (a = s.shared.queue.next ∧ t.shared.dirty a = false)) ∧
      ∀ a ∈ t.shared.queue.answerList, a ∈ s.shared.queue.answerList ∨ a = s.shared.queue.next := by
  cases l with
  | producer p k => exact absurd rfl (hp p k)
  | consumer c k => exact absurd rfl (hc c k)
  | add =>
    simp only [threads] at h
    split_ifs at h
    cases h
    refine ⟨rfl, rfl, rfl, Nat.le_succ _, fun a => ?_, fun a ha => ?_⟩
    · simp only [Shared.dirty, newAnswer_dirty]
      split_ifs with ha
      · exact Or.inr ⟨ha, rfl⟩
      · exact Or.inl rfl
    · rcases List.mem_append.mp ha with ha | ha
      · exact Or.inl ha
      · exact Or.inr (List.mem_singleton.mp ha)
  | remove a =>
    simp only [threads] at h
    split_ifs at h
    cases h
    exact ⟨rfl, rfl, rfl, le_rfl, fun _ => Or.inl rfl, fun b hb => Or.inl (List.mem_of_mem_erase hb)⟩
  | addResult a p =>
    simp only [threads] at h
    split_ifs at h
    cases h
    refine ⟨rfl, rfl, rfl, le_rfl, fun b => Or.inl ?_, fun b hb => Or.inl hb⟩
    exact modify_dirty s.shared.queue (f := (·.addResult (.new p))) rfl

theorem allocated_step {l : Label V} (hs : s.Allocated) (h : threads.step s l = some t) :
    t.Allocated := by
  cases l with
  | producer p k =>
    obtain ⟨m, pc, hstep, rfl⟩ := producer_step_iff.mp h
    refine ⟨fun b hb => ?_, fun r a ha => ?_⟩
    · obtain ⟨_, hnext, _, ⟨_, hpc, _, _⟩ | ⟨_, hd, _⟩⟩ := Producer.step_effect hstep b
      · have := hs.2 p b (by rw [hpc]; rfl)
        simp only [hnext] at hb
        omega
      · exact hd.trans (hs.1 b (hnext ▸ hb))
    · obtain ⟨_, hnext, _⟩ := Producer.step_effect hstep 0
      simp only [hnext]
      by_cases hr : r = p
      · subst hr
        simp only [Function.update_self] at ha
        exact (Producer.step_on hstep ha).elim (hs.2 r a) id
      · simp only [Function.update_of_ne hr] at ha
        exact hs.2 r a ha
  | consumer c k =>
    obtain ⟨m, pc, hstep, rfl⟩ := consumer_step_iff.mp h
    obtain ⟨_, hnext, _⟩ := Consumer.step_effect hstep 0
    refine ⟨fun b hb => ?_, fun r a ha => (hs.2 r a ha).trans_eq hnext.symm⟩
    obtain ⟨_, _, _, ⟨_, _, hd, _⟩ | ⟨_, hd⟩⟩ := Consumer.step_effect hstep b
    · exact hd
    · exact hd.trans (hs.1 b (hnext ▸ hb))
  | add | remove | addResult =>
    obtain ⟨hp, _, _, hnext, hd, _⟩ := other_step (by simp) (by simp) h
    refine ⟨fun b hb => ?_, fun r a ha => (hs.2 r a (hp ▸ ha)).trans_le hnext⟩
    rcases hd b with hd | ⟨_, hd⟩
    · exact hd.trans (hs.1 b (hnext.trans hb))
    · exact hd

/-- How the labels act on the flag of `a`. -/
def flagLabel (a : ℕ) : Label V → Option FlagOp
  | .producer _ (.mark b) => if b = a then some .raise else none
  | .consumer _ (.take b) => if b = a then some .take else none
  | _ => none

theorem flagLabel_producer {a p : ℕ} {k : Produce} (hk : k ≠ .mark a) :
    flagLabel a (.producer p k : Label V) = none := by
  cases k with
  | mark b => exact if_neg fun (hb : b = a) => hk (hb ▸ rfl)
  | lock | apply | signal | unlock => rfl

theorem flagLabel_consumer {a c : ℕ} {k : Consume} (hk : k ≠ .take a) :
    flagLabel a (.consumer c k : Label V) = none := by
  cases k with
  | take b => exact if_neg fun (hb : b = a) => hk (hb ▸ rfl)
  | wait | enter | skip | endScan | wake | ret => rfl

theorem flagLabel_mark (p a : ℕ) : flagLabel a (.producer p (.mark a) : Label V) = some .raise :=
  if_pos rfl

theorem flagLabel_taken (c a : ℕ) : flagLabel a (.consumer c (.take a) : Label V) = some .take :=
  if_pos rfl

theorem flagLabel_raise {a : ℕ} {l : Label V} :
    flagLabel a l = some .raise ↔ ∃ p, l = .producer p (.mark a) := by
  refine ⟨fun h => ?_, fun ⟨p, hl⟩ => hl ▸ flagLabel_mark p a⟩
  cases l with
  | producer p k =>
    by_cases hk : k = .mark a
    · exact ⟨p, hk ▸ rfl⟩
    · rw [flagLabel_producer hk] at h
      cases h
  | consumer c k =>
    by_cases hk : k = .take a
    · rw [hk, flagLabel_taken] at h
      cases h
    · rw [flagLabel_consumer hk] at h
      cases h
  | add | remove | addResult => cases h

theorem flagLabel_take {a : ℕ} {l : Label V} :
    flagLabel a l = some .take ↔ ∃ c, l = .consumer c (.take a) := by
  refine ⟨fun h => ?_, fun ⟨c, hl⟩ => hl ▸ flagLabel_taken c a⟩
  cases l with
  | producer p k =>
    by_cases hk : k = .mark a
    · rw [hk, flagLabel_mark] at h
      cases h
    · rw [flagLabel_producer hk] at h
      cases h
  | consumer c k =>
    by_cases hk : k = .take a
    · exact ⟨c, hk ▸ rfl⟩
    · rw [flagLabel_consumer hk] at h
      cases h
  | add | remove | addResult => cases h

/-- A step either leaves the flag of `a` alone, or marks `a`, or takes it; it does the latter two
    exactly if its label says so. -/
theorem flag_step (a : ℕ) {l : Label V} (hs : s.Allocated) (h : threads.step s l = some t) :
    (flagLabel a l = none ∧ t.shared.dirty a = s.shared.dirty a) ∨
    (flagLabel a l = some .raise ∧ t.shared.dirty a = true) ∨
    (flagLabel a l = some .take ∧ s.shared.dirty a = true ∧ t.shared.dirty a = false) := by
  cases l with
  | producer p k =>
    obtain ⟨m, pc, hstep, rfl⟩ := producer_step_iff.mp h
    obtain ⟨_, _, _, ⟨rfl, _, _, hd⟩ | ⟨hk, hd, _⟩⟩ := Producer.step_effect hstep a
    · exact Or.inr (Or.inl ⟨flagLabel_raise.mpr ⟨p, rfl⟩, hd⟩)
    · exact Or.inl ⟨flagLabel_producer hk, hd⟩
  | consumer c k =>
    obtain ⟨m, pc, hstep, rfl⟩ := consumer_step_iff.mp h
    obtain ⟨_, _, _, ⟨rfl, hup, hd, _⟩ | ⟨hk, hd⟩⟩ := Consumer.step_effect hstep a
    · exact Or.inr (Or.inr ⟨flagLabel_take.mpr ⟨c, rfl⟩, hup, hd⟩)
    · exact Or.inl ⟨flagLabel_consumer hk, hd⟩
  | add | remove | addResult =>
    obtain ⟨_, _, _, _, hd, _⟩ := other_step (by simp) (by simp) h
    rcases hd a with hd | ⟨ha, hd⟩
    · exact Or.inl ⟨rfl, hd⟩
    · exact Or.inl ⟨rfl, by rw [hd, hs.1 a ha.ge]⟩

end

/-- The flag of one answer, seen on its own. -/
def flagOf (a : ℕ) : (threads (V := V)).Sim flag where
  abs s := s.shared.dirty a
  lab := flagLabel a
  inv := Threads.Allocated
  inv_step _ _ _ hs h := allocated_step hs h
  hidden _ _ _ hs h hl := by
    rcases flag_step a hs h with ⟨_, hd⟩ | ⟨hr, _⟩ | ⟨ht, _⟩
    · exact hd
    · rw [hl] at hr; cases hr
    · rw [hl] at ht; cases ht
  shown _ _ _ k hs h hl := by
    rcases flag_step a hs h with ⟨hn, _⟩ | ⟨hr, hd⟩ | ⟨ht, hup, hd⟩
    · rw [hl] at hn; cases hn
    · rw [hl, Option.some.injEq] at hr; rw [hr, hd, Flag.step_raise]
    · rw [hl, Option.some.injEq] at ht; rw [ht, hup, hd]; rfl

theorem init_allocated : (Threads.init : Threads V).Allocated :=
  ⟨fun _ _ => rfl, fun _ _ ha => (by cases ha)⟩

/-! ### Who will see a dirty answer -/

/-- Every dirty answer of the queue has somebody who will see it. -/
def Threads.Watched (s : Threads V) : Prop :=
  ∀ a ∈ s.shared.queue.answerList, s.shared.dirty a = true →
    s.shared.queue.event = true ∨ (∃ p, s.producer p = .marked a) ∨ ∃ c, (s.consumer c).Covers a

theorem watched_step {s t : Threads V} {l : Label V} (hs : s.Allocated) (hw : s.Watched)
    (h : threads.step s l = some t) : t.Watched := by
  intro a ha hd
  cases l with
  | producer p k =>
    obtain ⟨m, pc, hstep, rfl⟩ := producer_step_iff.mp h
    obtain ⟨hlist, _, hev, ⟨_, _, hpc, _⟩ | ⟨_, hdd, hgap⟩⟩ := Producer.step_effect hstep a
    · exact Or.inr (Or.inl ⟨p, by simp only [Function.update_self, hpc]⟩)
    · rcases hw a (hlist ▸ ha) (hdd ▸ hd) with he | ⟨r, hr⟩ | hc
      · exact Or.inl (hev he)
      · by_cases hrp : r = p
        · exact Or.inl (hgap (hrp ▸ hr))
        · exact Or.inr (Or.inl ⟨r, by simp only [Function.update_of_ne hrp, hr]⟩)
      · exact Or.inr (Or.inr hc)
  | consumer c k =>
    obtain ⟨m, pc, hstep, rfl⟩ := consumer_step_iff.mp h
    obtain ⟨hlist, _, hev, ⟨_, _, hdd, _⟩ | ⟨_, hdd⟩⟩ := Consumer.step_effect hstep a
    · rw [show m.dirty a = true from hd] at hdd; cases hdd
    · rcases hw a (hlist ▸ ha) (hdd ▸ hd) with he | hp | ⟨b, hb⟩
      · rcases hev he with he | hcov
        · exact Or.inl he
        · exact Or.inr (Or.inr ⟨c, by simpa only [Function.update_self] using hcov⟩)
      · exact Or.inr (Or.inl hp)
      · refine Or.inr (Or.inr ⟨b, ?_⟩)
        by_cases hbc : b = c
        · subst hbc
          rcases Consumer.covers_step hstep (hlist ▸ ha) hb with hcov | hno
          · simpa only [Function.update_self] using hcov
          · rw [show m.dirty a = true from hd] at hno; cases hno
        · simpa only [Function.update_of_ne hbc] using hb
  | add | remove | addResult =>
    obtain ⟨hp, hc, he, _, hdd, hlist⟩ := other_step (by simp) (by simp) h
    rcases hdd a with hdd | ⟨_, hdd⟩
    · rw [hdd] at hd
      rcases hlist a ha with ha' | rfl
      · rw [hp, hc, he]; exact hw a ha' hd
      · rw [hs.1 _ le_rfl] at hd; cases hd
    · rw [hdd] at hd; cases hd

/-! ### The update contract -/

/-- After a consumer has taken `a`, along `ls`: its next return is `true` with a list that has `a`, or
    it has not returned yet and still holds `a`. -/
def Delivers (c a : ℕ) (ls : List (Label V)) (s : Threads V) : Prop :=
  (∃ as dl bs, ls = as ++ .consumer c (.ret true dl) :: bs ∧ a ∈ dl ∧
    ∀ b dl', .consumer c (.ret b dl') ∉ as) ∨
  ((∀ b dl, .consumer c (.ret b dl) ∉ ls) ∧ (s.consumer c).Holds a)

theorem delivers_of_holds {c a : ℕ} {s t : Threads V} {ls : List (Label V)}
    (hh : (s.consumer c).Holds a) (h : threads.run s ls = some t) : Delivers c a ls t := by
  refine threads.run_hist (P := fun ls t => Delivers c a ls t) (Or.inr ⟨by simp, hh⟩) ?_ h
  rintro ls t l u _ (⟨as, dl, bs, rfl, hm, hno⟩ | ⟨hno, hold⟩) hl
  · exact Or.inl ⟨as, dl, bs ++ [l], by simp, hm, hno⟩
  · by_cases hlc : ∃ k, l = .consumer c k
    · obtain ⟨k, rfl⟩ := hlc
      obtain ⟨m, pc, hstep, rfl⟩ := consumer_step_iff.mp hl
      rcases Consumer.holds_step hstep hold with ⟨dl, rfl, hm⟩ | ⟨hk, hold'⟩
      · exact Or.inl ⟨ls, dl, [], rfl, hm, hno⟩
      · refine Or.inr ⟨fun b dl hm => ?_, by simpa only [Function.update_self] using hold'⟩
        rcases List.mem_append.mp hm with hm | hm
        · exact hno b dl hm
        · exact hk b dl (by simpa using (List.mem_singleton.mp hm).symm)
    · have hsame : u.consumer c = t.consumer c := by
        cases l with
        | producer p k => obtain ⟨m, pc, _, rfl⟩ := producer_step_iff.mp hl; rfl
        | consumer d k =>
          obtain ⟨m, pc, _, rfl⟩ := consumer_step_iff.mp hl
          exact Function.update_of_ne (fun hcd => hlc ⟨k, by rw [hcd]⟩) _ _
        | add | remove | addResult =>
          obtain ⟨_, hc, _⟩ := other_step (by simp) (by simp) hl
          rw [hc]
      refine Or.inr ⟨fun b dl hm => ?_, hsame ▸ hold⟩
      rcases List.mem_append.mp hm with hm | hm
      · exact hno b dl hm
      · exact hlc ⟨_, (List.mem_singleton.mp hm).symm⟩

/-- A take is followed by the delivery of what was taken. -/
theorem delivers_of_take {c a : ℕ} {s t : Threads V} {ls : List (Label V)}
    (h : threads.run s (.consumer c (.take a) :: ls) = some t) : Delivers c a ls t := by
  obtain ⟨u, hu, hrun⟩ := (threads.run_cons_iff).mp h
  obtain ⟨m, pc, hstep, rfl⟩ := consumer_step_iff.mp hu
  obtain ⟨_, _, _, ⟨_, _, _, hold⟩ | ⟨hne, _⟩⟩ := Consumer.step_effect hstep a
  · exact delivers_of_holds (by simpa only [Function.update_self] using hold) hrun
  · exact absurd rfl hne

/-- No lost update and no lost wake-up. In every run of any number of producers and consumers: a mark
    is still visible or has been taken since, and then delivered; every take has a mark of its own; and
    a consumer blocks beside a dirty answer only while the event is set, a producer is about to set it,
    or a consumer that has consumed it is still to finish its scan. -/
theorem no_lost_update {ls : List (Label V)} {s : Threads V}
    (h : threads.run .init ls = some s) :
    (∀ as p a bs, ls = as ++ .producer p (.mark a) :: bs → s.shared.dirty a = true ∨
      ∃ cs c ds, bs = cs ++ .consumer c (.take a) :: ds ∧ Delivers c a ds s) ∧
    (∀ as c a bs, ls = as ++ .consumer c (.take a) :: bs → ∃ p, .producer p (.mark a) ∈ as) ∧
    (∀ as c a bs d cs, ls = as ++ .consumer c (.take a) :: (bs ++ .consumer d (.take a) :: cs) →
      ∃ p, .producer p (.mark a) ∈ bs) ∧
    (∀ c timeout a, s.consumer c = .blocked timeout → a ∈ s.shared.queue.answerList →
      s.shared.dirty a = true → s.shared.queue.event = true ∨ (∃ p, s.producer p = .marked a) ∨
        ∃ d timeout, s.consumer d = .entering timeout true ∨
          ∃ todo taken, s.consumer d = .scanning timeout true todo taken ∧ a ∈ todo) := by
  refine ⟨?_, ?_, ?_, ?_⟩
  · rintro as p a bs rfl
    rcases Flag.sim_up_or_taken (flagOf a) init_allocated (flagLabel_raise.mpr ⟨p, rfl⟩) h with
      hup | ⟨k, hk, htake⟩
    · exact Or.inl hup
    · obtain ⟨c, rfl⟩ := flagLabel_take.mp htake
      obtain ⟨cs, ds, rfl⟩ := List.append_of_mem hk
      refine Or.inr ⟨cs, c, ds, rfl, ?_⟩
      rw [← List.cons_append, ← List.append_assoc] at h
      obtain ⟨_, _, hrest⟩ := (threads.run_append_iff).mp h
      exact delivers_of_take hrest
  · rintro as c a bs rfl
    obtain ⟨k, hk, hr⟩ := Flag.sim_raised_before (flagOf a) init_allocated rfl
      (flagLabel_take.mpr ⟨c, rfl⟩) h
    obtain ⟨p, rfl⟩ := flagLabel_raise.mp hr
    exact ⟨p, hk⟩
  · rintro as c a bs d cs rfl
    obtain ⟨k, hk, hr⟩ := Flag.sim_raised_between (flagOf a) init_allocated
      (flagLabel_take.mpr ⟨c, rfl⟩) (flagLabel_take.mpr ⟨d, rfl⟩) h
    obtain ⟨p, rfl⟩ := flagLabel_raise.mp hr
    exact ⟨p, hk⟩
  · intro c timeout a _ ha hd
    have hinv := threads.run_inv (P := fun s => s.Allocated ∧ s.Watched)
      (fun _ _ _ ⟨hs, hw⟩ hl => ⟨allocated_step hs hl, watched_step hs hw hl⟩)
      ⟨init_allocated, fun a ha => (by cases ha)⟩ h
    refine (hinv.2 a ha hd).imp_right (Or.imp_right ?_)
    rintro ⟨d, hc⟩
    cases hpc : s.consumer d with
    | entering t w => rw [hpc] at hc; exact ⟨d, t, Or.inl (by rw [hpc, show w = true from hc])⟩
    | scanning t w todo taken =>
      rw [hpc] at hc
      exact ⟨d, t, Or.inr ⟨todo, taken, by rw [hpc, hc.1], hc.2⟩⟩
    | idle | found | blocked => rw [hpc] at hc; cases hc

/-- A consumer finds nothing and waits; a producer has changed the answer. -/
def waited : List (Label ℤ) :=
  [.add, .consumer 0 (.wait 5), .consumer 0 .enter, .consumer 0 (.skip 0), .consumer 0 .endScan,
    .producer 0 (.lock 0 .notifyUpdated), .producer 0 .apply]

/-- The producer goes on behind the mark, and the consumer wakes up. -/
def woken : List (Label ℤ) :=
  [.producer 0 .signal, .producer 0 .unlock, .consumer 0 .wake, .consumer 0 .enter,
    .consumer 0 (.take 0), .consumer 0 .endScan, .consumer 0 (.ret true [0])]

/-- The first part at work: the consumer has taken what the producer has marked. -/
theorem no_lost_update_taken : ∃ s : Threads ℤ,
    threads.run .init (waited ++ .producer 0 (.mark 0) :: woken) = some s ∧
      ∃ cs c ds, woken = cs ++ .consumer c (.take 0) :: ds ∧ Delivers c 0 ds s := by
  obtain ⟨s, h, hclean⟩ : ∃ s : Threads ℤ,
      threads.run .init (waited ++ .producer 0 (.mark 0) :: woken) = some s ∧
        s.shared.dirty 0 = false := ⟨_, rfl, rfl⟩
  refine ⟨s, h, ((no_lost_update h).1 waited 0 0 woken rfl).resolve_left fun hdirty => ?_⟩
  rw [hclean] at hdirty
  cases hdirty

/-! ### One thread on its own

    When nothing else runs in between, the steps of a thread make up the operations on the queue. -/

theorem producer_run_cons {s : Threads V} {p : ℕ} {k : Produce} {m : Shared V} {pc pc' : Producer}
    (hp : s.producer p = pc) (hstep : pc.step s.shared k = some (m, pc')) (ls : List (Label V)) :
    threads.run s (.producer p k :: ls) =
      threads.run { s with shared := m, producer := Function.update s.producer p pc' } ls := by
  rw [Lts.run_cons, producer_step_iff.mpr ⟨m, pc', hp ▸ hstep, rfl⟩]
  rfl

/-- The steps of a guarded `notifyUpdated` are the operation. -/
theorem notifyUpdated_run {s : Threads V} {p a : ℕ} (hp : s.producer p = .idle)
    (hl : s.shared.locked a = false) (ha : a < s.shared.queue.next) :
    threads.run s [.producer p (.lock a .notifyUpdated), .producer p .apply, .producer p (.mark a),
      .producer p .signal, .producer p .unlock] =
    some { s with shared := { s.shared with queue := s.shared.queue.notifyUpdated a } } := by
  have hlock : Function.update s.shared.locked a false = s.shared.locked := by
    rw [← hl]; exact Function.update_eq_self a _
  have hidle : Function.update s.producer p .idle = s.producer := by
    rw [← hp]; exact Function.update_eq_self p _
  have hfree : (Producer.idle).step s.shared (.lock a .notifyUpdated) = some _ := if_pos ⟨hl, ha⟩
  have hmark (m : Shared V) : (Producer.changed a).step m (.mark a) = some _ := if_pos rfl
  rw [producer_run_cons hp hfree, producer_run_cons (Function.update_self ..) rfl,
    producer_run_cons (Function.update_self ..) (hmark _),
    producer_run_cons (Function.update_self ..) rfl,
    producer_run_cons (Function.update_self ..) rfl, Lts.run_nil]
  simp only [Function.update_idem, hlock, hidle]
  rfl

/-- The looks of a scan over the answers `as`. -/
def looks (q : AnswerQueue V) : List ℕ → List Consume
  | [] => []
  | a :: as => (if (q.heap a).dirty then .take a else .skip a) :: looks (q.visit a).2 as

/-- The looks of one consumer over the rest of its list are the loop of `listDirty`. -/
theorem listDirty_run {timeout : ℤ} {woken : Bool} {c : ℕ} : ∀ (todo taken : List ℕ) (s : Threads V),
    (∀ a, s.shared.locked a = false) → s.consumer c = .scanning timeout woken todo taken →
    threads.run s ((looks s.shared.queue todo).map (.consumer c)) =
      some { s with
        shared := { s.shared with queue := (s.shared.queue.listDirtyFrom todo).2 }
        consumer := Function.update s.consumer c
          (.scanning timeout woken [] (taken ++ (s.shared.queue.listDirtyFrom todo).1)) } := by
  intro todo
  induction todo with
  | nil =>
    intro taken s _ hc
    simp only [looks, List.map_nil, Lts.run_nil, listDirtyFrom, List.append_nil]
    rw [← hc, Function.update_eq_self]
  | cons a todo ih =>
    intro taken s hl hc
    have hstep : threads.step s (.consumer c (if (s.shared.queue.heap a).dirty then .take a else .skip a)) =
        some { s with
          shared := { s.shared with queue := (s.shared.queue.visit a).2 }
          consumer := Function.update s.consumer c (.scanning timeout woken todo
            (if (s.shared.queue.visit a).1 then taken ++ [a] else taken)) } := by
      refine consumer_step_iff.mpr ⟨_, _, ?_, rfl⟩
      by_cases hd : (s.shared.queue.heap a).dirty = true
      · simp [hc, hd, Consumer.step, hl, Shared.dirty, visit]
      · simp [hc, hd, Consumer.step, hl, Shared.dirty, visit]
    have hrest := ih (if (s.shared.queue.visit a).1 then taken ++ [a] else taken)
      { s with
        shared := { s.shared with queue := (s.shared.queue.visit a).2 }
        consumer := Function.update s.consumer c (.scanning timeout woken todo
          (if (s.shared.queue.visit a).1 then taken ++ [a] else taken)) } hl
      (Function.update_self _ _ _)
    rw [looks, List.map_cons, Lts.run_cons, hstep, Option.bind_some, hrest]
    simp only [listDirtyFrom, Function.update_idem]
    cases (s.shared.queue.visit a).1 <;> simp

end AnswerQueue
end BeeeOn
