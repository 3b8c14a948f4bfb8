import Gateway.Zmq.Requests

/-! @src zmq/ZMQBroker.cpp, core/Answer.cpp | name:Where a reply comes from | family:provenance

    The broker makes an answer for every request that it receives and enters it in `m_resultTable` in
    the order of the requests (`Traced.entries`). What it sends is addressed by that entry, and says
    what a task of the answer has put into a result of it (`run_traced`). -/

namespace BeeeOn
open Schemes AnswerQueue CommandDispatcher
variable {V : Type}

namespace Requests

/-- A task of answer `a` has made a result with this payload, or has given it to its result. -/
def Given (ls : List (Label V)) (a : ℕ) (p : Payload V) : Prop :=
  ∃ t, .work (.create a t p) ∈ ls ∨ .work (.setPayload a t p) ∈ ls

theorem Given.mono {ls : List (Label V)} {a : ℕ} {p : Payload V} (h : Given ls a p) (l : Label V) :
    Given (ls ++ [l]) a p := by
  obtain ⟨t, h⟩ := h
  exact ⟨t, h.imp (List.mem_append_left _) (List.mem_append_left _)⟩

/-- The entry that a request gets. -/
def requested : Label V → Option (ResultData V)
  | .work (.request manager id cmd) => some ⟨id, manager, cmd⟩
  | _ => none

/-- The requests of a run, in their order. -/
def requests (ls : List (Label V)) : List (ResultData V) := ls.filterMap requested

/-- The entries of `m_resultTable`, in the order of their answers. -/
def State.entries (s : State V) : List (ResultData V) :=
  (List.range s.queue.next).filterMap s.resultTable

section
variable {hs : List (CommandHandler V)} {s t : State V} {ls : List (Label V)}

/-! ### The entries -/

theorem mem_entries {a : ℕ} {d : ResultData V} (hI : Inv s) (h : s.resultTable a = some d) :
    d ∈ s.entries := by
  refine List.mem_filterMap.mpr ⟨a, List.mem_range.mpr ?_, h⟩
  by_contra hge
  rw [(hI.unborn a (not_lt.mp hge)).2.2.2] at h
  cases h

theorem entries_doCommand (manager : DeviceManagerID) (id : GlobalID) (cmd : Command V) :
    (doCommand hs s manager id cmd).entries = s.entries ++ [⟨id, manager, cmd⟩] := by
  have hnext : (doCommand hs s manager id cmd).queue.next = s.queue.next + 1 :=
    (dispatch_frame hs cmd s.queue.next s.queue.newAnswer).2.1
  rw [State.entries, hnext, List.range_succ, List.filterMap_append]
  congr 1
  · refine List.filterMap_congr fun a ha => Function.update_of_ne ?_ _ _
    exact (List.mem_range.mp ha).ne
  · simp [doCommand]

theorem entries_drain {d : Drain} (h : drain s d = some t) : t.entries = s.entries := by
  obtain ⟨htable, -, hnext, -⟩ := drain_frame h
  rw [State.entries, htable, hnext]
  rfl

/-- A request gets its entry, and every other step leaves the entries as they are. -/
theorem entries_step (hI : Inv s) {l : Label V} (h : (system hs).step s l = some t) :
    t.entries = s.entries ++ (requested l).toList := by
  rcases l with w | d
  · cases w with
    | request manager id cmd =>
      simp only [system, work] at h
      split at h <;> cases h <;> exact entries_doCommand manager id _
    | malformed =>
      simp only [system, work] at h
      split at h <;> cases h
      rw [State.entries, newAnswer_next, List.range_succ, List.filterMap_append]
      simp [(hI.unborn s.queue.next le_rfl).2.2.2, requested, State.entries]
    | create a i p | notify a i | stop a i raised =>
      simp only [system, work] at h
      split at h <;> cases h
      exact (List.append_nil _).symm
    | setStatus a i st =>
      simp only [system, work] at h
      split at h <;> try cases h
      split_ifs at h
      cases h
      simp only [State.entries, (s.queue.afterSetStatus_frame a _ st).2]
      exact (List.append_nil _).symm
    | setPayload a i p =>
      simp only [system, work] at h
      split at h <;> try cases h
      split at h <;> try cases h
      split_ifs at h
      cases h
      have hnext : ∀ j, (s.queue.setPayload a j p).next = s.queue.next := fun j => by
        rw [setPayload]; split <;> rfl
      simp only [State.entries, hnext]
      exact (List.append_nil _).symm
  · rw [entries_drain h]
    exact (List.append_nil _).symm

/-! ### The payloads -/

/-- What a step leaves on an answer: the payloads that were there, or one that a task gives it. -/
theorem step_payload (hI : Inv s) {l : Label V} (h : (system hs).step s l = some t) {b : ℕ}
    {r' : Result V} (hr' : r' ∈ (t.queue.heap b).results) :
    (∃ r ∈ (s.queue.heap b).results, r'.payload = r.payload) ∨ Given (ls ++ [l]) b r'.payload := by
  rcases l with w | d
  · have hw : work hs s w = some t := h
    -- a new answer has no results
    have hborn : b < s.queue.next := by
      by_contra hge
      rw [(work_spec hI hw).2.unborn b (not_lt.mp hge)] at hr'
      cases hr'
    cases w with
    | request manager id cmd =>
      refine Or.inl ⟨r', ?_, rfl⟩
      have hheap : (doCommand hs s manager id cmd).queue.heap b = s.queue.heap b :=
        ((dispatch_frame hs cmd s.queue.next s.queue.newAnswer).2.2 b hborn.ne).trans
          (by rw [newAnswer_heap, if_neg hborn.ne])
      simp only [work] at hw
      split at hw <;> cases hw <;> exact hheap ▸ hr'
    | malformed =>
      simp only [work] at hw
      split at hw <;> cases hw
      rw [newAnswer_heap, if_neg hborn.ne] at hr'
      exact Or.inl ⟨r', hr', rfl⟩
    | create a i p =>
      simp only [work] at hw
      split at hw <;> cases hw
      refine (addResult_payload hr').imp_right ?_
      rintro ⟨rfl, hp⟩
      exact ⟨i, Or.inl (by simp [hp])⟩
    | notify a i =>
      simp only [work] at hw
      split at hw <;> cases hw
      refine Or.inl ⟨r', ?_, rfl⟩
      rw [notifyUpdated_heap] at hr'
      split_ifs at hr' with hb
      · exact hb ▸ hr'
      · exact hr'
    | stop a i raised =>
      simp only [work] at hw
      split at hw <;> cases hw
      exact Or.inl ⟨r', hr', rfl⟩
    | setStatus a i st =>
      simp only [work] at hw
      split at hw <;> try cases hw
      split_ifs at hw
      cases hw
      exact Or.inl (afterSetStatus_payload hr')
    | setPayload a i p =>
      simp only [work] at hw
      split at hw <;> try cases hw
      split at hw <;> try cases hw
      split_ifs at hw
      cases hw
      refine (setPayload_payload hr').imp_right ?_
      rintro ⟨rfl, hp⟩
      exact ⟨i, Or.inr (by simp [hp])⟩
  · obtain ⟨-, -, -, -, hheap⟩ := drain_frame h
    obtain ⟨_, -, hb⟩ := hheap b
    rw [hb] at hr'
    exact Or.inl ⟨r', hr', rfl⟩

/-- `fromResult` says what one of its two reads has found. -/
theorem encoded_payload (first second : Result V) :
    (encoded first second).payload = first.payload ∨ (encoded first second).payload = second.payload := by
  rw [encoded]
  split
  · exact Or.inl rfl
  · exact Or.inr rfl

/-- Everything on the answers has been given by a task, and so has everything that is read or sent; what
    is sent is addressed by the entry of its answer. -/
structure Traced (ls : List (Label V)) (s : State V) : Prop where
  entries : s.entries = requests ls
  results : ∀ a, ∀ r ∈ (s.queue.heap a).results, Given ls a r.payload
  building : ∀ a as i read, s.pc = .building (a :: as) i read → Given ls a read.payload
  out : ∀ x ∈ s.out, (∃ d, s.resultTable x.answer = some d ∧ d.deviceManagerID = x.deviceManagerID ∧
    d.resultID = x.id) ∧ Given ls x.answer x.result.payload

theorem traced_init : Traced [] (init : State V) :=
  ⟨rfl, fun _ _ hr => (by cases hr), fun _ _ _ _ h => (by cases h), fun _ hx => (by cases hx)⟩

/-- The steps beside `checkQueue` neither read nor send. -/
theorem traced_work (h : Traced ls s) (hI : Inv s) {w : Work V} (hw : work hs s w = some t) :
    Traced (ls ++ [.work w]) t := by
  have hf := (work_spec hI hw).2
  have hstep : (system hs).step s (.work w) = some t := hw
  constructor
  case entries =>
    rw [requests, List.filterMap_append, entries_step hI hstep, h.entries]
    rfl
  case results =>
    intro a r hr
    have hcases : (∃ r₀ ∈ (s.queue.heap a).results, r.payload = r₀.payload) ∨
        Given (ls ++ [.work w]) a r.payload := step_payload hI hstep hr
    rcases hcases with ⟨r₀, hr₀, hsame⟩ | hgiven
    · exact hsame ▸ (h.results a r₀ hr₀).mono _
    · exact hgiven
  case building => exact fun a as i read hpc => (h.building a as i read (hf.pc ▸ hpc)).mono _
  case out =>
    rw [hf.out]
    intro x hx
    obtain ⟨⟨d, hd, hto⟩, hgiven⟩ := h.out x hx
    exact ⟨⟨d, hf.table _ d hd, hto⟩, hgiven.mono _⟩

/-- `checkQueue` sends what it has read, to whom the entry says. -/
theorem traced_drain (h : Traced ls s) {d : Drain} (hd : drain s d = some t) :
    Traced (ls ++ [.drain d]) t := by
  obtain ⟨htable, -, -, -, hheap⟩ := drain_frame hd
  obtain ⟨hbuilding, xs, hout, hsent⟩ := drain_sends hd
  constructor
  case entries =>
    rw [requests, List.filterMap_append, entries_drain hd, h.entries]
    exact (List.append_nil _).symm
  case results =>
    intro a r hr
    obtain ⟨_, -, ha⟩ := hheap a
    exact (h.results a r (by rw [ha] at hr; exact hr)).mono _
  case building =>
    exact fun a as i read hpc =>
      (h.results a read (List.mem_of_getElem? (hbuilding a as i read hpc))).mono _
  case out =>
    rw [htable, hout]
    intro x hx
    rcases List.mem_append.mp hx with hx | hx
    · exact ⟨(h.out x hx).1, (h.out x hx).2.mono _⟩
    · obtain ⟨a, as, i, read, d, r, hpc, hentry, hr, rfl⟩ := hsent x hx
      refine ⟨⟨d, hentry, rfl, rfl⟩, ?_⟩
      rcases encoded_payload read r with heq | heq <;> rw [heq]
      · exact (h.building a as i read hpc).mono _
      · exact (h.results a r (List.mem_of_getElem? hr)).mono _

/-- In every run what the broker sends goes where its entry says, and says what a task of the answer has
    put there; and there is one entry for each request, in the order of the requests. -/
theorem run_traced (h : (system hs).run init ls = some s) : Inv s ∧ Traced ls s :=
  (system hs).run_hist (P := fun ls s => Inv s ∧ Traced ls s) ⟨inv_init, traced_init⟩
    (fun _ _ l _ _ ⟨hI, hT⟩ hl => match l, hl with
      | .work _, hl => ⟨(work_spec hI hl).1, traced_work hT hI hl⟩
      | .drain _, hl => ⟨inv_drain hI hl, traced_drain hT hl⟩) h

end

end Requests
end BeeeOn
