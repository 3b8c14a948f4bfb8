import Gateway.Zmq.Requests

/-! @src zmq/ZMQBroker.cpp | name:Replies to the device managers | family:request-reply

    The loop of `checkQueue` sends a message for every result that a dirty answer has when it gets to
    it; it looks neither at the status of a result nor at what has been sent before. So a reply can be
    premature or sent twice, unless the answers that the scan takes are settled and taken once
    (`replies_once`); and an answer without a settled result is never replied to at all
    (`replied_iff`). -/

namespace BeeeOn
open Schemes AnswerQueue CommandDispatcher
variable {V : Type}

namespace Requests

/-! ### Replies are sent once -/

/-- The answers still to be replied to: settled, each there once, and only the first has been replied
    to, for the results below `i`. -/
def Queued (s : State V) (as : List ℕ) (i : ℕ) : Prop :=
  as.Nodup ∧ ∀ a ∈ as, a < s.queue.next ∧ Settled (s.queue.heap a) ∧
    ∀ m ∈ s.out, m.answer = a → as.head? = some a ∧ m.index < i

/-- What the place of the broker thread says when every answer it takes is settled and new. -/
def OncePc (s : State V) : Prop :=
  match s.pc with
  | .idle => True
  | .scanning todo taken => Queued s taken 0 ∧ (taken ++ todo).Nodup ∧ ∀ a ∈ todo, a < s.queue.next
  | .sending as i => Queued s as i
  | .building as i read => Queued s as i ∧ read.status.IsTerminal

structure Once (s : State V) : Prop where
  terminal : ∀ m ∈ s.out, m.result.status.IsTerminal
  distinct : (s.out.map fun m => (m.answer, m.index)).Nodup
  pc : OncePc s

/-- The condition on the steps: an answer that the scan finds dirty is not pending, and no message has
    been sent for it. -/
def TakesSettled (s : State V) : Label V → Prop
  | .drain .visit => ∀ a todo taken, s.pc = .scanning (a :: todo) taken →
      (s.queue.heap a).dirty = true →
        (s.queue.heap a).isPending = false ∧ ∀ m ∈ s.out, m.answer ≠ a
  | _ => True

section
variable {hs : List (CommandHandler V)} {s t : State V}

theorem Queued.mono {as : List ℕ} {i : ℕ} (hq : Queued s as i) (hnext : s.queue.next ≤ t.queue.next)
    (hset : ∀ a < s.queue.next, Settled (s.queue.heap a) → Settled (t.queue.heap a))
    (hout : t.out = s.out) : Queued t as i := by
  refine ⟨hq.1, fun a ha => ?_⟩
  obtain ⟨hlt, hs, hm⟩ := hq.2 a ha
  exact ⟨hlt.trans_le hnext, hset a hlt hs, hout ▸ hm⟩

/-- Behind the first answer nothing has been sent, so the tail starts afresh. -/
theorem Queued.tail {a : ℕ} {as : List ℕ} {i : ℕ} (hq : Queued s (a :: as) i) : Queued s as 0 := by
  obtain ⟨hnd, hall⟩ := hq
  rw [List.nodup_cons] at hnd
  refine ⟨hnd.2, fun b hb => ?_⟩
  obtain ⟨hlt, hs, hm⟩ := hall b (List.mem_cons_of_mem a hb)
  refine ⟨hlt, hs, fun m hmm heq => ?_⟩
  obtain rfl : a = b := Option.some.inj (hm m hmm heq).1
  exact absurd hb hnd.1

theorem once_work (hI : Inv s) (ho : Once s) {w : Work V} (h : work hs s w = some t) : Once t := by
  obtain ⟨_, hf⟩ := work_spec hI h
  have hmono : ∀ {as i}, Queued s as i → Queued t as i := fun hq =>
    hq.mono hf.next (fun a ha => (hf.evolves a ha).settled) hf.out
  refine ⟨hf.out ▸ ho.terminal, hf.out ▸ ho.distinct, ?_⟩
  have hpc := ho.pc
  rw [OncePc] at hpc ⊢
  rw [hf.pc]
  split at hpc
  · trivial
  · exact ⟨hmono hpc.1, hpc.2.1, fun a ha => (hpc.2.2 a ha).trans_le hf.next⟩
  · exact hmono hpc
  · exact ⟨hmono hpc.1, hpc.2⟩

theorem encoded_isTerminal {r q : Result V} (hr : r.status.IsTerminal) (hq : q.status.IsTerminal) :
    (encoded r q).status.IsTerminal := by
  rw [encoded]
  split <;> assumption

/-- The scan takes an answer that is settled and has not been replied to. -/
theorem once_visit (hI : Inv s) (ho : Once s) (hC : TakesSettled s (.drain .visit))
    (h : drain s .visit = some t) : Once t := by
  have hpc := ho.pc
  obtain ⟨a, todo, taken, heq, rfl⟩ := drain_cases h
  rw [OncePc, heq] at hpc
  obtain ⟨⟨hnd, hall⟩, happ, hlt⟩ := hpc
  have hheap : ∀ b, Settled (s.queue.heap b) → Settled ((s.queue.visit a).2.heap b) := by
    intro b hb
    rw [visit_heap]
    split_ifs with hba
    · rw [hba] at hb; exact hb
    · exact hb
  obtain ⟨_, hnext, _⟩ := s.queue.visit_frame a
  have hmono : Queued { s with queue := (s.queue.visit a).2 } taken 0 :=
    Queued.mono ⟨hnd, hall⟩ hnext.ge (fun b _ => hheap b) rfl
  refine ⟨ho.terminal, ho.distinct, ?_⟩
  by_cases hd : (s.queue.heap a).dirty = true
  · obtain ⟨hp, hm⟩ := hC a todo taken heq hd
    have happ' : (taken ++ [a] ++ todo).Nodup := by rw [List.append_assoc]; exact happ
    simp only [OncePc, hd, if_true]
    refine ⟨⟨(List.nodup_append.mp happ').1, fun b hb => ?_⟩, happ', fun b hb =>
      (hlt b (List.mem_cons_of_mem a hb)).trans_le hnext.ge⟩
    rcases List.mem_append.mp hb with hb | hb
    · obtain ⟨h1, h2, h3⟩ := hmono.2 b hb
      exact ⟨h1, h2, fun m hmm he => absurd (h3 m hmm he).2 (Nat.not_lt_zero _)⟩
    · obtain rfl := List.mem_singleton.mp hb
      exact ⟨(hlt b List.mem_cons_self).trans_le hnext.ge,
        hheap b ((hI.valid b).settled hp), fun m hmm he => absurd he (hm m hmm)⟩
  · simp only [OncePc, hd]
    refine ⟨hmono, ?_, fun b hb => (hlt b (List.mem_cons_of_mem a hb)).trans_le hnext.ge⟩
    exact happ.sublist (List.Sublist.append_left (List.sublist_cons_self a todo) taken)

/-- A message for result `i` of the first answer: those before it were for the results below `i`. -/
theorem once_send (ho : Once s) (h : drain s .send = some t) : Once t := by
  have hpc := ho.pc
  obtain ⟨a, as, i, read, d, r, heq, -, hr, rfl⟩ := drain_cases h
  rw [OncePc, heq] at hpc
  obtain ⟨⟨hnd, hall⟩, hread⟩ := hpc
  obtain ⟨hlt, hset, hbelow⟩ := hall a List.mem_cons_self
  refine ⟨fun m hm => ?_, ?_, hnd, fun b hb => ?_⟩
  · rcases List.mem_append.mp hm with hm | hm
    · exact ho.terminal m hm
    · rw [List.mem_singleton.mp hm]
      exact encoded_isTerminal hread (hset.2 r (List.mem_of_getElem? hr))
  · rw [List.map_append, List.nodup_append]
    refine ⟨ho.distinct, List.nodup_singleton _, fun x hx y hy hxy => ?_⟩
    obtain ⟨m, hm, rfl⟩ := List.mem_map.mp hx
    rw [List.map_singleton, List.mem_singleton] at hy
    rw [hy, Prod.mk.injEq] at hxy
    exact absurd hxy.2 (hbelow m hm hxy.1).2.ne
  · obtain ⟨h1, h2, h3⟩ := hall b hb
    refine ⟨h1, h2, fun m hm he => ?_⟩
    rcases List.mem_append.mp hm with hm | hm
    · exact ⟨(h3 m hm he).1, Nat.lt_succ_of_lt (h3 m hm he).2⟩
    · rw [List.mem_singleton.mp hm] at he ⊢
      exact ⟨congrArg some he, Nat.lt_succ_self i⟩

theorem once_drain (hI : Inv s) (ho : Once s) {d : Drain} (hC : TakesSettled s (.drain d))
    (h : drain s d = some t) : Once t := by
  have hpc := ho.pc
  have hcases := drain_cases h
  cases d with
  | begin =>
    obtain ⟨-, rfl⟩ := hcases
    refine ⟨ho.terminal, ho.distinct, ⟨List.nodup_nil, by simp⟩, hI.nodup, ?_⟩
    exact fun a ha => (hI.listed a).mp ha
  | visit => exact once_visit hI ho hC h
  | endScan =>
    obtain ⟨taken, heq, rfl⟩ := hcases
    rw [OncePc, heq] at hpc
    exact ⟨ho.terminal, ho.distinct, hpc.1⟩
  | pick =>
    obtain ⟨a, as, i, heq, ⟨r, hr, rfl⟩ | ⟨-, rfl⟩⟩ := hcases <;> rw [OncePc, heq] at hpc
    · exact ⟨ho.terminal, ho.distinct, hpc,
        (hpc.2 a List.mem_cons_self).2.1.2 r (List.mem_of_getElem? hr)⟩
    · exact ⟨ho.terminal, ho.distinct, hpc.tail⟩
  | send => exact once_send ho h
  | leave =>
    obtain ⟨i, -, rfl⟩ := hcases
    exact ⟨ho.terminal, ho.distinct, trivial⟩

end

/-- In every run in which the scan takes answers only when they are not pending and have not been
    replied to, every result is replied to at most once and every reply is terminal. -/
theorem replies_once {hs : List (CommandHandler V)} {ls : List (Label V)} {s : State V}
    (hC : (system hs).Meets TakesSettled init ls) (h : (system hs).run init ls = some s) :
    (s.out.map fun m => (m.answer, m.index)).Nodup ∧ ∀ m ∈ s.out, m.result.status.IsTerminal := by
  have hinv := (system hs).run_inv_of_meets (P := fun s => Inv s ∧ Once s) ?_
    ⟨inv_init, ⟨by simp [init], List.nodup_nil, trivial⟩⟩ hC h
  · exact ⟨hinv.2.distinct, hinv.2.terminal⟩
  · rintro s l t ⟨hI, ho⟩ hc hl
    cases l with
    | work w => exact ⟨(work_spec hI hl).1, once_work hI ho hl⟩
    | drain d => exact ⟨inv_drain hI hl, once_drain hI ho hc hl⟩

/-- Two handlers, both done before the queue is drained: one reply for each. -/
theorem replies_once_two_handlers : ∃ (ls : List (Label ℤ)) (s : State ℤ),
    (system [⟨0, fun _ => true⟩, ⟨1, fun _ => true⟩]).run init ls = some s ∧ s.out.length = 2 ∧
      (s.out.map fun m => (m.answer, m.index)).Nodup ∧ ∀ m ∈ s.out, m.result.status.IsTerminal := by
  have hrun : ∃ (ls : List (Label ℤ)) (s : State ℤ),
      (system [⟨0, fun _ => true⟩, ⟨1, fun _ => true⟩]).Meets TakesSettled init ls ∧
        (system [⟨0, fun _ => true⟩, ⟨1, fun _ => true⟩]).run init ls = some s ∧ s.out.length = 2 := by
    refine ⟨[.work (.request ⟨0xa800⟩ ⟨1⟩ (.serverDeviceList ⟨0xa8⟩)),
      .work (.create 0 0 (.deviceList [])), .work (.create 0 1 (.deviceList [])),
      .work (.setStatus 0 1 .success), .work (.setStatus 0 0 .failed), .drain .begin, .drain .visit,
      .drain .endScan, .drain .pick, .drain .send, .drain .pick, .drain .send], _, ?_, rfl, rfl⟩
    refine .cons _ trivial rfl (.cons _ trivial rfl (.cons _ trivial rfl (.cons _ trivial rfl
      (.cons _ trivial rfl (.cons _ trivial rfl (.cons _ ?_ rfl (.cons _ trivial rfl
        (.cons _ trivial rfl (.cons _ trivial rfl (.cons _ trivial rfl
          (.cons _ trivial rfl (.nil _))))))))))))
    rintro a todo taken heq _
    cases heq
    exact ⟨rfl, fun m hm => (by cases hm)⟩
  obtain ⟨ls, s, hC, h, hlen⟩ := hrun
  exact ⟨ls, s, h, hlen, replies_once hC h⟩

/-- Two handlers: the first one's result is sent when it is there, together with the pending one of
    the second, and both are sent again when the second has ended. -/
theorem replies_not_once : ¬ ∀ (hs : List (CommandHandler ℤ)) (ls : List (Label ℤ)) (s : State ℤ),
    (system hs).run init ls = some s →
      (s.out.map fun m => (m.answer, m.index)).Nodup ∧ ∀ m ∈ s.out, m.result.status.IsTerminal := by
  intro h
  have := h [⟨0, fun _ => true⟩, ⟨1, fun _ => true⟩]
    [.work (.request ⟨0xa800⟩ ⟨1⟩ (.serverDeviceList ⟨0xa8⟩)), .work (.create 0 0 (.deviceList [])),
      .work (.create 0 1 (.deviceList [])), .work (.setStatus 0 0 .success), .drain .begin,
      .drain .visit, .drain .endScan, .drain .pick, .drain .send, .drain .pick, .drain .send,
      .drain .pick, .drain .leave, .work (.setStatus 0 1 .success), .drain .begin, .drain .visit,
      .drain .endScan, .drain .pick, .drain .send] _ rfl
  exact absurd this.1 (by decide)

/-! ### Replies are sent for what has ended -/

/-- The class that `fromResult` encodes with the value first. -/
def readsValueFirst (r : Result V) : Bool :=
  match r.payload with
  | .lastValue _ => true
  | _ => false

theorem encoded_status (r q : Result V) :
    (encoded r q).status = if readsValueFirst r then q.status else r.status := by
  cases h : r.payload <;> simp [encoded, readsValueFirst, h]

/-- Result `j` of an answer exists and is terminal. -/
def Ended (x : Answer V) (j : ℕ) : Prop := ∃ r, x.results[j]? = some r ∧ r.status.IsTerminal

/-- The place of the broker thread promises a terminal reply for result `j` of answer `a`. -/
def Promised (pc : Check V) (a j : ℕ) : Prop :=
  match pc with
  | .scanning _ taken => a ∈ taken
  | .sending (b :: as) i => a ∈ as ∨ (a = b ∧ i ≤ j)
  | .building (b :: as) i read => a ∈ as ∨
      (a = b ∧ (i < j ∨ (i = j ∧ (read.status.IsTerminal ∨ readsValueFirst read = true))))
  | _ => False

/-- A terminal reply for result `j` of answer `a` is due or has been sent. -/
def Due (s : State V) (a j : ℕ) : Prop :=
  (s.queue.heap a).dirty = true ∨ Promised s.pc a j ∨
    ∃ m ∈ s.out, m.answer = a ∧ m.index = j ∧ m.result.status.IsTerminal

/-- Every message goes to the manager that asked, with its id, and if it is terminal so is its result;
    and every result that has ended is replied to. -/
structure Replied (s : State V) : Prop where
  owner : ∀ m ∈ s.out, ∃ d, s.resultTable m.answer = some d ∧
    m.deviceManagerID = d.deviceManagerID ∧ m.id = d.resultID
  ended : ∀ m ∈ s.out, m.answer < s.queue.next ∧
    (m.result.status.IsTerminal → Ended (s.queue.heap m.answer) m.index)
  read : ∀ a as i read, s.pc = .building (a :: as) i read → a < s.queue.next ∧
    ∃ r, (s.queue.heap a).results[i]? = some r ∧ (read.status.IsTerminal → r.status.IsTerminal)
  due : ∀ a j, Ended (s.queue.heap a) j → Due s a j

theorem Evolves.ended {x y : Answer V} (h : Evolves x y) {j : ℕ} (hx : Ended x j) : Ended y j := by
  obtain ⟨r, hr, ht⟩ := hx
  obtain ⟨r', hr', hk⟩ := h.kept j r hr
  exact ⟨r', hr', hk ht⟩

theorem promised_sending {a : ℕ} {as : List ℕ} (h : a ∈ as) (j : ℕ) :
    Promised (.sending as 0 : Check V) a j := by
  cases as with
  | nil => cases h
  | cons b as =>
    rcases List.mem_cons.mp h with rfl | h
    · exact Or.inr ⟨rfl, Nat.zero_le j⟩
    · exact Or.inl h

section
variable {hs : List (CommandHandler V)} {s t : State V}

theorem replied_work (hI : Inv s) (hR : Replied s) {w : Work V} (h : work hs s w = some t) :
    Replied t := by
  obtain ⟨hI', hf⟩ := work_spec hI h
  refine ⟨fun m hm => ?_, fun m hm => ?_, fun a as i read heq => ?_, fun a j hj => ?_⟩
  · obtain ⟨d, hd, hmd⟩ := hR.owner m (hf.out ▸ hm)
    exact ⟨d, hf.table _ _ hd, hmd⟩
  · obtain ⟨hlt, hend⟩ := hR.ended m (hf.out ▸ hm)
    exact ⟨hlt.trans_le hf.next, fun ht => (hf.evolves _ hlt).ended (hend ht)⟩
  · obtain ⟨hlt, r, hr, hk⟩ := hR.read a as i read (hf.pc ▸ heq)
    obtain ⟨r', hr', hk'⟩ := (hf.evolves a hlt).kept i r hr
    exact ⟨hlt.trans_le hf.next, r', hr', fun ht => hk' (hk ht)⟩
  · obtain ⟨r', hr', ht'⟩ := hj
    by_cases hlt : a < s.queue.next
    · rcases (hf.evolves a hlt).marked j r' hr' ht' with hd | hold
      · exact Or.inl hd
      · rw [Due, hf.pc, hf.out]
        exact (hR.due a j hold).imp_left (hf.evolves a hlt).dirty
    · rw [hf.unborn a (not_lt.mp hlt)] at hr'
      simp at hr'

/-- The loop of `checkQueue` keeps its promises: a step that does not send keeps the messages, and
    only the due part is to be shown. -/
theorem replied_of_due (hR : Replied s) {d : Drain} (h : drain s d = some t) (hout : t.out = s.out)
    (hread : ∀ a as i read, t.pc = .building (a :: as) i read → a < t.queue.next ∧
      ∃ r, (t.queue.heap a).results[i]? = some r ∧ (read.status.IsTerminal → r.status.IsTerminal))
    (hdue : ∀ a j, Ended (s.queue.heap a) j → Due s a j → Due t a j) : Replied t := by
  obtain ⟨htable, _, hnext, _, hheap⟩ := drain_frame h
  have hsame : ∀ a j, Ended (t.queue.heap a) j ↔ Ended (s.queue.heap a) j := by
    intro a j
    obtain ⟨b, _, hb⟩ := hheap a
    rw [hb]; rfl
  refine ⟨fun m hm => ?_, fun m hm => ?_, hread, fun a j hj => ?_⟩
  · rw [htable]; exact hR.owner m (hout ▸ hm)
  · obtain ⟨hlt, hend⟩ := hR.ended m (hout ▸ hm)
    exact ⟨hnext ▸ hlt, fun ht => (hsame _ _).mpr (hend ht)⟩
  · have hj' := (hsame a j).mp hj
    exact hdue a j hj' (hR.due a j hj')

theorem replied_visit (hR : Replied s) (h : drain s .visit = some t) : Replied t := by
  have hstep := h
  obtain ⟨b, todo, taken, heq, rfl⟩ := drain_cases h
  refine replied_of_due hR hstep rfl (by simp) fun a j _ hdue => ?_
  rw [Due] at hdue ⊢
  rw [heq] at hdue
  simp only [visit_heap]
  rcases hdue with hd | hp | hm
  · by_cases hab : a = b
    · subst hab
      exact Or.inr (Or.inl (by rw [if_pos hd]; exact List.mem_append_right _ (List.mem_singleton_self a)))
    · exact Or.inl (by rw [if_neg hab]; exact hd)
  · refine Or.inr (Or.inl ?_)
    show a ∈ _
    split_ifs
    · exact List.mem_append_left _ hp
    · exact hp
  · exact Or.inr (Or.inr hm)

theorem replied_pick (hI : Inv s) (hR : Replied s) (h : drain s .pick = some t) : Replied t := by
  have hstep := h
  obtain ⟨b, as, i, heq, ⟨r, hr, rfl⟩ | ⟨hr, rfl⟩⟩ := drain_cases h
  · refine replied_of_due hR hstep rfl ?_ fun a j hj hdue => ?_
    · rintro a as' i' read' hpc
      cases hpc
      refine ⟨?_, r, hr, id⟩
      by_contra hge
      rw [(hI.unborn b (not_lt.mp hge)).1] at hr
      simp at hr
    · rw [Due] at hdue ⊢
      rw [heq] at hdue
      refine hdue.imp_right (Or.imp_left ?_)
      rintro (hm | ⟨rfl, hle⟩)
      · exact Or.inl hm
      · refine Or.inr ⟨rfl, ?_⟩
        rcases hle.lt_or_eq with hlt | rfl
        · exact Or.inl hlt
        · obtain ⟨q, hq, ht⟩ := hj
          rw [hr, Option.some.injEq] at hq
          exact Or.inr ⟨rfl, Or.inl (hq ▸ ht)⟩
  · refine replied_of_due hR hstep rfl (by simp) fun a j hj hdue => ?_
    rw [Due] at hdue ⊢
    rw [heq] at hdue
    refine hdue.imp_right (Or.imp_left ?_)
    rintro (hm | ⟨rfl, hle⟩)
    · exact promised_sending hm j
    · -- the loop has reached the end of the list, so no ended result is left
      obtain ⟨q, hq, _⟩ := hj
      have := (List.getElem?_eq_some_iff.mp hq).1
      rw [List.getElem?_eq_none_iff] at hr
      omega

theorem replied_send (hR : Replied s) (h : drain s .send = some t) : Replied t := by
  obtain ⟨b, as, i, read, d, r, heq, hd, hr, rfl⟩ := drain_cases h
  obtain ⟨hlt, r', hr', hk⟩ := hR.read b as i read heq
  obtain rfl : r' = r := Option.some.inj (hr'.symm.trans hr)
  refine ⟨fun m hm => ?_, fun m hm => ?_, by simp, fun a j hj => ?_⟩
  · rcases List.mem_append.mp hm with hm | hm
    · exact hR.owner m hm
    · rw [List.mem_singleton.mp hm]
      exact ⟨d, hd, rfl, rfl⟩
  · rcases List.mem_append.mp hm with hm | hm
    · exact hR.ended m hm
    · rw [List.mem_singleton.mp hm]
      refine ⟨hlt, fun ht => ⟨r', hr, ?_⟩⟩
      rw [encoded_status] at ht
      split_ifs at ht
      · exact ht
      · exact hk ht
  · have hdue := hR.due a j hj
    rw [Due] at hdue ⊢
    rw [heq] at hdue
    rcases hdue with hdirty | hp | ⟨m, hm, hmj⟩
    · exact Or.inl hdirty
    · rcases hp with hm | ⟨rfl, hlt' | ⟨rfl, hread⟩⟩
      · exact Or.inr (Or.inl (Or.inl hm))
      · exact Or.inr (Or.inl (Or.inr ⟨rfl, hlt'⟩))
      · refine Or.inr (Or.inr ⟨_, List.mem_append_right _ (List.mem_singleton_self _), rfl, rfl, ?_⟩)
        obtain ⟨q, hq, ht⟩ := hj
        rw [hr, Option.some.injEq] at hq
        rw [encoded_status]
        split_ifs with hl
        · exact hq ▸ ht
        · exact hread.resolve_right hl
    · exact Or.inr (Or.inr ⟨m, List.mem_append_left _ hm, hmj⟩)

theorem replied_drain (hI : Inv s) (hR : Replied s) {d : Drain} (h : drain s d = some t) :
    Replied t := by
  have hcases := drain_cases h
  cases d with
  | visit => exact replied_visit hR h
  | pick => exact replied_pick hI hR h
  | send => exact replied_send hR h
  | begin =>
    obtain ⟨heq, rfl⟩ := hcases
    refine replied_of_due hR h rfl (by simp) fun a j _ hdue => ?_
    rw [Due] at hdue ⊢
    rw [heq] at hdue
    exact hdue.imp_right (Or.imp_left False.elim)
  | endScan =>
    obtain ⟨taken, heq, rfl⟩ := hcases
    refine replied_of_due hR h rfl (by simp) fun a j _ hdue => ?_
    rw [Due] at hdue ⊢
    rw [heq] at hdue
    exact hdue.imp_right (Or.imp_left fun hm => promised_sending hm j)
  | leave =>
    obtain ⟨i, heq, rfl⟩ := hcases
    refine replied_of_due hR h rfl (by simp) fun a j _ hdue => ?_
    rw [Due] at hdue ⊢
    rw [heq] at hdue
    exact hdue.imp_right (Or.imp_left False.elim)

end

/-- `checkQueue` is not at work and has left no answer of the queue dirty. -/
def Drained (s : State V) : Prop :=
  s.pc = .idle ∧ ∀ a ∈ s.queue.answerList, (s.queue.heap a).dirty = false

/-- In every run, once the queue has been drained: a manager has got a terminal reply to a request with
    an id exactly if a task of such a request has moved its result to `SUCCESS` or `FAILED`. -/
theorem replied_iff {hs : List (CommandHandler V)} {ls : List (Label V)} {s : State V}
    (h : (system hs).run init ls = some s) (hd : Drained s) (manager : DeviceManagerID)
    (id : GlobalID) :
    (∃ m ∈ s.out, m.deviceManagerID = manager ∧ m.id = id ∧ m.result.status.IsTerminal) ↔
      ∃ a d, s.resultTable a = some d ∧ d.deviceManagerID = manager ∧ d.resultID = id ∧
        ∃ r ∈ (s.queue.heap a).results, r.status.IsTerminal := by
  obtain ⟨hI, hR⟩ : Inv s ∧ Replied s := by
    refine (system hs).run_inv (P := fun s => Inv s ∧ Replied s) ?_
      ⟨inv_init, by simp [init], by simp [init], by simp [init], ?_⟩ h
    · rintro s l t ⟨hI, hR⟩ hl
      cases l with
      | work w => exact ⟨(work_spec hI hl).1, replied_work hI hR hl⟩
      | drain d => exact ⟨inv_drain hI hl, replied_drain hI hR hl⟩
    · rintro a j ⟨r, hr, _⟩
      simp [init, AnswerQueue.empty, Answer.fresh] at hr
  constructor
  · rintro ⟨m, hm, rfl, rfl, ht⟩
    obtain ⟨d, hown, h1, h2⟩ := hR.owner m hm
    obtain ⟨r, hr, hrt⟩ := (hR.ended m hm).2 ht
    exact ⟨m.answer, d, hown, h1.symm, h2.symm, r, List.mem_of_getElem? hr, hrt⟩
  · rintro ⟨a, d, htab, rfl, rfl, r, hr, hrt⟩
    obtain ⟨j, hj⟩ := List.mem_iff_getElem?.mp hr
    rcases hR.due a j ⟨r, hj, hrt⟩ with hdirty | hp | ⟨m, hm, rfl, _, ht⟩
    · have hlt : a < s.queue.next := by
        by_contra hge
        rw [(hI.unborn a (not_lt.mp hge)).2.1] at hdirty
        cases hdirty
      rw [hd.2 a ((hI.listed a).mpr hlt)] at hdirty
      cases hdirty
    · rw [hd.1] at hp; exact hp.elim
    · obtain ⟨d', hown, h1, h2⟩ := hR.owner m hm
      obtain rfl : d = d' := Option.some.inj (htab.symm.trans hown)
      exact ⟨m, hm, h1, h2, ht⟩

/-- Of two handlers one has answered: a final reply is there. -/
theorem replied_two_handlers : ∃ (ls : List (Label ℤ)) (s : State ℤ),
    (system [⟨0, fun _ => true⟩, ⟨1, fun _ => true⟩]).run init ls = some s ∧ Drained s ∧
      ∃ m ∈ s.out, m.deviceManagerID = ⟨0xa800⟩ ∧ m.id = ⟨1⟩ ∧ m.result.status.IsTerminal := by
  have hrun : ∃ (ls : List (Label ℤ)) (s : State ℤ),
      (system [⟨0, fun _ => true⟩, ⟨1, fun _ => true⟩]).run init ls = some s ∧ Drained s ∧ ∃ a d,
        s.resultTable a = some d ∧ d.deviceManagerID = ⟨0xa800⟩ ∧ d.resultID = ⟨1⟩ ∧
          ∃ r ∈ (s.queue.heap a).results, r.status.IsTerminal := by
    refine ⟨[.work (.request ⟨0xa800⟩ ⟨1⟩ (.serverDeviceList ⟨0xa8⟩)),
      .work (.create 0 0 (.deviceList [])), .work (.create 0 1 (.deviceList [])),
      .work (.setStatus 0 1 .success), .drain .begin, .drain .visit, .drain .endScan, .drain .pick,
      .drain .send, .drain .pick, .drain .send, .drain .pick, .drain .leave], _, rfl, ⟨rfl, by decide⟩,
      0, _, rfl, rfl, rfl, ⟨.success, .deviceList []⟩,
      List.mem_cons_of_mem _ (List.mem_singleton_self _), Or.inl rfl⟩
  obtain ⟨ls, s, h, hd, hended⟩ := hrun
  exact ⟨ls, s, h, hd, (replied_iff h hd ⟨0xa800⟩ ⟨1⟩).mpr hended⟩

/-- No handler accepts the command: nothing is ever sent. -/
theorem request_unanswered : ¬ ∀ (hs : List (CommandHandler ℤ)) (ls : List (Label ℤ)) (s : State ℤ),
    (system hs).run init ls = some s → (∀ a, ∀ k ∈ s.tasks a, k.ended = true) → Drained s →
      ∀ a d, s.resultTable a = some d → ∃ m ∈ s.out, m.deviceManagerID = d.deviceManagerID ∧
        m.id = d.resultID ∧ m.result.status.IsTerminal := by
  intro h
  have hall := h [] [.work (.request ⟨0xa800⟩ ⟨1⟩ (.serverDeviceList ⟨0xa8⟩)), .drain .begin,
    .drain .visit, .drain .endScan, .drain .pick, .drain .leave] _ rfl
  have hended := fun hk => hall hk ⟨rfl, by decide⟩ 0 _ rfl
  refine absurd (hended fun a k hk => ?_) (fun ⟨m, hm, _⟩ => by cases hm)
  by_cases ha : a = 0
  · subst ha; cases hk
  · simp only [doCommand] at hk
    rw [Function.update_of_ne (show a ≠ (init : State ℤ).queue.next from ha)] at hk
    cases hk

end Requests
end BeeeOn
