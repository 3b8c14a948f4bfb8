import Gateway.Schemes.Lts
import Gateway.Core.Answer

/-! @src core/Result.cpp, core/Answer.cpp | name:Changes of a status | family:state

    Anybody may set the status of a result, and anything else may go on around its answer meanwhile:
    other results, new answers, consumers that take the flag and the event. Through all of it the status
    only grows, a call that raises does nothing, and the calls that mark the answer and set the event
    are those that change the status, of which there are two at most (`status_changes`). -/

namespace BeeeOn
open Schemes
variable {V : Type}

namespace AnswerQueue

/-- A critical section of one of the threads around a queue. -/
inductive Section (V : Type) where
  | setStatus (a i : ℕ) (s : Status)
  | setPayload (a i : ℕ) (p : Payload V)
  | addResult (a : ℕ) (p : Payload V)
  | newAnswer
  | notifyUpdated (a : ℕ)
  | remove (a : ℕ)
  /-- a consumer looks at the flag of an answer, and takes it -/
  | visit (a : ℕ)
  /-- a consumer takes the event -/
  | wake

/-- The statuses that have a name. -/
def Valid (s : Status) : Prop := s = .pending ∨ s.IsTerminal

instance (s : Status) : Decidable (Valid s) := inferInstanceAs (Decidable (_ ∨ _))

/-- The sections in any order; only valid statuses are set. -/
def sections : Lts (AnswerQueue V) (Section V) where
  step q
    | .setStatus a i s => if Valid s then some (q.afterSetStatus a i s) else none
    | .setPayload a i p => some (q.setPayload a i p)
    | .addResult a p => if a < q.next then some (q.addResult a p) else none
    | .newAnswer => some q.newAnswer
    | .notifyUpdated a => some (q.notifyUpdated a)
    | .remove a => some (q.remove a)
    | .visit a => some (q.visit a).2
    | .wake => some { q with event := false }

/-- The status of result `i` of answer `a`. -/
def statusOf (q : AnswerQueue V) (a i : ℕ) : Option Status :=
  ((q.heap a).results[i]?).map Result.status

/-- How often the status has changed along a run. -/
def changes (a i : ℕ) : AnswerQueue V → List (Section V) → ℕ
  | _, [] => 0
  | q, l :: ls => match sections.step q l with
    | none => 0
    | some t => (if t.statusOf a i = q.statusOf a i then 0 else 1) + changes a i t ls

/-- What a call of `setStatus` does: one that raises, or changes nothing of the status, changes nothing
    at all, and one that changes the status marks the answer and sets the event. -/
structure Notifies (a i : ℕ) (s : Status) (q t : AnswerQueue V) : Prop where
  raised : ∀ e, q.setStatus a i s = .error e → t = q
  quiet : t.statusOf a i = q.statusOf a i → t = q
  marked : t.statusOf a i ≠ q.statusOf a i → (t.heap a).dirty = true ∧ t.event = true

/-- What a section does to the status, where that was `x` and is `y`. -/
structure Changes (a i : ℕ) (l : Section V) (q t : AnswerQueue V) : Prop where
  grows : ∃ x y, q.statusOf a i = some x ∧ t.statusOf a i = some y ∧ x.raw ≤ y.raw
  call : ∀ s, l = .setStatus a i s → Notifies a i s q t
  other : (∀ s, l ≠ .setStatus a i s) → t.statusOf a i = q.statusOf a i

/-- The result is there, with a valid status. -/
structure Live (q : AnswerQueue V) (a i : ℕ) : Prop where
  allocated : a < q.next
  status : ∃ x, q.statusOf a i = some x ∧ Valid x

theorem Valid.bounds {s : Status} (h : Valid s) : 0 ≤ s.raw ∧ s.raw ≤ 2 := by
  rcases h with rfl | rfl | rfl <;> decide

section
variable {q t : AnswerQueue V} {a i : ℕ}

theorem statusOf_of_results (h : (t.heap a).results[i]? = (q.heap a).results[i]?) :
    t.statusOf a i = q.statusOf a i := by
  rw [statusOf, statusOf, h]

/-- A result that is replaced keeps its status, or is another one. -/
theorem statusOf_setResult {b j : ℕ} {r r' : Result V} (hr : (q.heap b).results[j]? = some r)
    (hne : b ≠ a ∨ j ≠ i ∨ r'.status = r.status) :
    (q.modify b (·.setResult j r')).statusOf a i = q.statusOf a i := by
  rw [statusOf, statusOf, modify_heap]
  split_ifs with hab
  · subst hab
    rw [Answer.setResult, List.getElem?_set]
    split_ifs with hji hlen
    · subst hji
      rw [hr]
      simpa using hne
    · subst hji
      exact absurd (List.getElem?_eq_some_iff.mp hr).1 hlen
    · rfl
  · rfl

/-- The flag and the event are not the status. -/
theorem statusOf_notifyUpdated (b : ℕ) : (q.notifyUpdated b).statusOf a i = q.statusOf a i := by
  apply statusOf_of_results
  rw [notifyUpdated_heap]
  split_ifs with hab
  · rw [hab]
    rfl
  · rfl

theorem statusOf_visit (b : ℕ) : (q.visit b).2.statusOf a i = q.statusOf a i := by
  apply statusOf_of_results
  rw [visit_heap]
  split_ifs with hab
  · rw [hab]
    rfl
  · rfl

theorem statusOf_setPayload (b j : ℕ) (p : Payload V) :
    (q.setPayload b j p).statusOf a i = q.statusOf a i := by
  rw [setPayload]
  cases hr : (q.heap b).results[j]? with
  | none => rfl
  | some r => exact statusOf_setResult hr (Or.inr (Or.inr rfl))

/-- A result is added behind those that are there. -/
theorem statusOf_addResult {x : Status} (hx : q.statusOf a i = some x) (b : ℕ) (p : Payload V) :
    (q.addResult b p).statusOf a i = q.statusOf a i := by
  obtain ⟨r, hr, -⟩ := Option.map_eq_some_iff.mp hx
  apply statusOf_of_results
  rw [addResult_heap]
  split_ifs with hab
  · subst hab
    exact List.getElem?_append_left (List.getElem?_eq_some_iff.mp hr).1
  · rfl

/-- The status that has been set. -/
theorem statusOf_changed {r : Result V} {s : Status} (hr : (q.heap a).results[i]? = some r) :
    ((q.modify a (·.setResult i { r with status := s })).notifyUpdated a).statusOf a i = some s := by
  rw [statusOf_notifyUpdated, statusOf, modify_heap_self, Answer.setResult,
    List.getElem?_set_self (List.getElem?_eq_some_iff.mp hr).1]
  rfl

/-- A call for another result. -/
theorem statusOf_afterSetStatus_ne {b j : ℕ} {s : Status} (hne : b ≠ a ∨ j ≠ i) :
    (q.afterSetStatus b j s).statusOf a i = q.statusOf a i := by
  rcases q.afterSetStatus_cases b j s with ⟨heq, -⟩ | ⟨r, hr, -, heq⟩
  · rw [heq]
  · rw [heq, statusOf_notifyUpdated, statusOf_setResult hr]
    exact hne.imp_right Or.inl

/-- The sections that set no status leave it. -/
theorem statusOf_step {l : Section V} (hlive : q.Live a i) (h : sections.step q l = some t)
    (hl : ∀ s, l ≠ .setStatus a i s) : t.statusOf a i = q.statusOf a i := by
  obtain ⟨x, hx, -⟩ := hlive.status
  cases l with
  | setStatus b j s =>
    simp only [sections] at h
    split_ifs at h
    cases h
    refine statusOf_afterSetStatus_ne ?_
    by_contra hsame
    rw [not_or, not_not, not_not] at hsame
    obtain ⟨rfl, rfl⟩ := hsame
    exact hl s rfl
  | setPayload b j p =>
    cases h
    exact statusOf_setPayload b j p
  | addResult b p =>
    simp only [sections] at h
    split_ifs at h
    cases h
    exact statusOf_addResult hx b p
  | newAnswer =>
    cases h
    apply statusOf_of_results
    rw [newAnswer_heap, if_neg hlive.allocated.ne]
  | notifyUpdated b =>
    cases h
    exact statusOf_notifyUpdated b
  | remove b => cases h; rfl
  | visit b =>
    cases h
    exact statusOf_visit b
  | wake => cases h; rfl

/-- A call of `setStatus` on the result itself. -/
theorem notifies_afterSetStatus (s : Status) : Notifies a i s q (q.afterSetStatus a i s) := by
  constructor
  · intro e he
    rw [afterSetStatus, he]
  · intro hsame
    rcases q.afterSetStatus_cases a i s with ⟨heq, -⟩ | ⟨r, hr, hlt, heq⟩
    · exact heq
    · rw [heq, statusOf_changed hr, statusOf, hr] at hsame
      obtain rfl := Option.some.inj hsame
      exact absurd hlt (lt_irrefl _)
  · intro hne
    rcases q.afterSetStatus_cases a i s with ⟨heq, -⟩ | ⟨r, hr, hlt, heq⟩
    · rw [heq] at hne
      exact absurd rfl hne
    · rw [heq, setStatus_heap, if_pos rfl]
      exact ⟨rfl, rfl⟩

/-- A call leaves a valid status that is not below the one before. -/
theorem grows_afterSetStatus {s x : Status} (hs : Valid s) (hx : q.statusOf a i = some x)
    (hv : Valid x) : ∃ y, (q.afterSetStatus a i s).statusOf a i = some y ∧ x.raw ≤ y.raw ∧ Valid y := by
  rcases q.afterSetStatus_cases a i s with ⟨heq, -⟩ | ⟨r, hr, hlt, heq⟩
  · exact ⟨x, by rw [heq, hx], le_rfl, hv⟩
  · rw [statusOf, hr] at hx
    obtain rfl := Option.some.inj hx
    exact ⟨s, by rw [heq, statusOf_changed hr], hlt.le, hs⟩

/-- No section takes back an answer. -/
theorem next_step {l : Section V} (h : sections.step q l = some t) : q.next ≤ t.next := by
  cases l with
  | setStatus b j s =>
    simp only [sections] at h
    split_ifs at h
    cases h
    rw [(q.afterSetStatus_frame b j s).2]
  | setPayload b j p =>
    cases h
    rw [setPayload]
    split <;> exact le_rfl
  | addResult b p =>
    simp only [sections] at h
    split_ifs at h
    cases h
    exact le_rfl
  | newAnswer => cases h; exact Nat.le_succ _
  | visit b =>
    cases h
    rw [(q.visit_frame b).2.1]
  | notifyUpdated | remove | wake => cases h; exact le_rfl

/-- What one section does to a result that is there. -/
theorem changes_step {l : Section V} (hlive : q.Live a i) (h : sections.step q l = some t) :
    Changes a i l q t ∧ t.Live a i := by
  obtain ⟨x, hx, hvalid⟩ := hlive.status
  have hnext := hlive.allocated.trans_le (next_step h)
  by_cases hl : ∃ s, l = .setStatus a i s
  · obtain ⟨s, rfl⟩ := hl
    simp only [sections] at h
    split_ifs at h with hs
    cases h
    obtain ⟨y, hy, hle, hyvalid⟩ := grows_afterSetStatus hs hx hvalid
    refine ⟨⟨⟨x, y, hx, hy, hle⟩, fun s' heq => ?_, fun hno => absurd rfl (hno s)⟩,
      hnext, y, hy, hyvalid⟩
    cases heq
    exact notifies_afterSetStatus s
  · have hno : ∀ s, l ≠ .setStatus a i s := fun s heq => hl ⟨s, heq⟩
    have hsame := statusOf_step hlive h hno
    exact ⟨⟨⟨x, x, hx, hsame.trans hx, le_rfl⟩, fun s heq => absurd heq (hno s), fun _ => hsame⟩,
      hnext, x, hsame.trans hx, hvalid⟩

/-- Each change takes the status up, so there are no more of them than it is up in the end. -/
theorem changes_le {ls : List (Section V)} (hlive : q.Live a i) (h : sections.run q ls = some t) :
    ∃ x y, q.statusOf a i = some x ∧ t.statusOf a i = some y ∧ Valid y ∧
      changes a i q ls + x.raw ≤ y.raw := by
  induction ls generalizing q with
  | nil =>
    obtain rfl := Option.some.inj h
    obtain ⟨x, hx, hvalid⟩ := hlive.status
    exact ⟨x, x, hx, hx, hvalid, by simp [changes]⟩
  | cons l ls ih =>
    obtain ⟨u, hu, hrun⟩ := (sections.run_cons_iff).mp h
    obtain ⟨hchanges, hlive'⟩ := changes_step hlive hu
    obtain ⟨x, y, hx, hy, hle⟩ := hchanges.grows
    obtain ⟨y', z, hy', hz, hvalid, hcount⟩ := ih hlive' hrun
    obtain rfl := Option.some.inj (hy.symm.trans hy')
    refine ⟨x, z, hx, hz, hvalid, ?_⟩
    simp only [changes, hu]
    split_ifs with hsame
    · push_cast
      omega
    · have hne : x.raw ≠ y.raw := fun heq => by
        apply hsame
        rw [hx, hy]
        obtain ⟨m⟩ := x
        obtain ⟨n⟩ := y
        exact congrArg (fun k => some (Status.mk k)) heq.symm
      push_cast
      omega

/-- For every result and every run of what the threads do: no section takes the status back; a call that
    raises does nothing; the calls that mark the answer and set the event are those that change the
    status; and there are at most two of these. -/
theorem status_changes {ls : List (Section V)} (hlive : q.Live a i) (h : sections.run q ls = some t) :
    (∀ pre l post u v, ls = pre ++ l :: post → sections.run q pre = some u →
      sections.step u l = some v → Changes a i l u v) ∧ changes a i q ls ≤ 2 := by
  constructor
  · intro pre l post u v _ hu hv
    have hlive' : u.Live a i :=
      sections.run_inv (P := fun u => u.Live a i) (fun _ _ _ hq ht => (changes_step hq ht).2) hlive hu
    exact (changes_step hlive' hv).1
  · obtain ⟨x, y, hx, -, hvalid, hcount⟩ := changes_le hlive h
    obtain ⟨x', hx', hvalid'⟩ := hlive.status
    obtain rfl := Option.some.inj (hx.symm.trans hx')
    have hupper := hvalid.bounds.2
    have hlower := hvalid'.bounds.1
    omega

end

/-- A result that fails, after a success was reported: two changes, and a call that raises. -/
theorem success_then_failed :
    (∃ ls : List (Section ℕ), changes 0 0 (empty.newAnswer.addResult 0 .plain) ls = 2) ∧
      changes 0 0 ((empty : AnswerQueue ℕ).newAnswer.addResult 0 .plain)
        [.setStatus 0 0 .success, .visit 0, .setStatus 0 0 .pending, .setStatus 0 0 .failed] ≤ 2 :=
  ⟨⟨[.setStatus 0 0 .success, .visit 0, .setStatus 0 0 .pending, .setStatus 0 0 .failed], rfl⟩,
    (status_changes ⟨by decide, .pending, rfl, Or.inl rfl⟩ rfl).2⟩
end AnswerQueue
end BeeeOn
