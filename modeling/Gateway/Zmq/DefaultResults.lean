import Gateway.Zmq.Broker

/-! @src zmq/ZMQBroker.cpp, zmq/ZMQMessage.cpp, core/Result.cpp | name:Results reported by managers |
    family:state machine

    A `default_result` sets the status of the result that its id is filed under, to whatever integer the
    message carries. `Result::setStatus` only refuses to go back, so a result can be given a number that
    is no status, and one that is `SUCCESS` can still become `FAILED`. The results are sound exactly if
    every message that gets through the test finds its result `PENDING` and carries a terminal status
    (`terminal_final_iff`). -/

namespace BeeeOn
open Schemes
variable {V : Type}

namespace Broker
variable (P : Platform V)

/-- Every result has one of the three statuses. -/
def Typed (s : State V) : Prop := ∀ a, ∀ r ∈ s.results a, r.status = .pending ∨ r.status.IsTerminal

/-- The terminal statuses of `s` are still there in `t`. -/
def Kept (s t : State V) : Prop :=
  ∀ (a i : ℕ) (r : Result V), (s.results a)[i]? = some r → r.status.IsTerminal →
    ∃ r' : Result V, (t.results a)[i]? = some r' ∧ r'.status = r.status

/-- Terminal results are final and well-typed, in every state that the run goes through. -/
def TerminalFinal (table : ZMQDeviceManagerTable) (ls : List (Label V)) : Prop :=
  (∀ pre post s, ls = pre ++ post → (system P).run (start table) pre = some s → Typed s) ∧
  ∀ pre mid post s t, ls = pre ++ mid ++ post → (system P).run (start table) pre = some s →
    (system P).run s mid = some t → Kept s t

/-- The condition on a message: if it carries a status above that of its result, the result is `PENDING`
    and the status terminal. -/
def FirstTerminal (s : State V) : Label V → Prop
  | .data identity json => ∀ (a i : ℕ) (st : Status) (r : Result V),
      reply P s identity json = some (a, i, st) → (s.results a)[i]? = some r →
        r.status.raw < st.raw → r.status = .pending ∧ st.IsTerminal
  | _ => True

variable {P} {s t : State V} {l : Label V}

theorem typed_step (hI : Inv s) (hs : Typed s) (hC : FirstTerminal P s l)
    (h : (system P).step s l = some t) : Typed t := by
  refine (step_results hI h).forall_results (Or.inl rfl) ?_ hs
  rintro identity json a i st r rfl hreply hr hlt
  exact Or.inr (hC a i st r hreply hr hlt).2

theorem kept_step (hI : Inv s) (hC : FirstTerminal P s l) (h : (system P).step s l = some t) :
    Kept s t := by
  intro a i r hr hterminal
  cases step_results hI h with
  | none heq => exact ⟨r, by rw [heq, hr], rfl⟩
  | add b _ heq =>
    refine ⟨r, ?_, rfl⟩
    rw [heq, Function.update_apply]
    split_ifs with hab
    · subst hab
      rw [List.getElem?_append_left (List.getElem?_eq_some_iff.mp hr).1, hr]
    · exact hr
  | set identity json b j st r' hl hreply hr' hlt heq =>
    subst hl
    refine ⟨r, ?_, rfl⟩
    rw [heq, Function.update_apply]
    split_ifs with hab
    · subst hab
      have hij : j ≠ i := by
        rintro rfl
        obtain rfl := Option.some.inj (hr.symm.trans hr')
        have hpending := (hC _ _ st _ hreply hr hlt).1
        rw [hpending] at hterminal
        exact Status.not_isTerminal_pending hterminal
      rw [List.getElem?_set_ne hij, hr]
    · exact hr

theorem Kept.trans {u : State V} (h : Kept s t) (h' : Kept t u) : Kept s u := by
  intro a i r hr hterminal
  obtain ⟨r', hr', heq⟩ := h a i r hr hterminal
  obtain ⟨r'', hr'', heq'⟩ := h' a i r' hr' (heq ▸ hterminal)
  exact ⟨r'', hr'', heq'.trans heq⟩

theorem kept_run {ls : List (Label V)} (hI : Inv s) (hC : (system P).Meets (FirstTerminal P) s ls)
    (h : (system P).run s ls = some t) : Kept s t := by
  have hrun := (system P).run_inv_of_meets (P := fun u => Inv u ∧ Kept s u) ?_
    ⟨hI, fun a i r hr _ => ⟨r, hr, rfl⟩⟩ hC h
  · exact hrun.2
  · rintro u l v ⟨hIu, hk⟩ hl hv
    exact ⟨inv_step hIu hv, hk.trans (kept_step hIu hl hv)⟩

/-- A message that gets through the test without meeting the condition leaves a status that is none, or
    has changed a terminal one. -/
theorem first_terminal_of_kept (h : (system P).step s l = some t) (hs : Typed s)
    (ht : Typed t) (hk : Kept s t) : FirstTerminal P s l := by
  cases l with
  | data identity json =>
    intro a i st r hreply hr hlt
    have hset : (t.results a)[i]? = some { r with status := st } := by
      rw [(step_cases h).2.2, results_of_reply hreply hr hlt, Function.update_self,
        List.getElem?_set_self (List.getElem?_eq_some_iff.mp hr).1]
    have hst : st = .pending ∨ st.IsTerminal := ht a _ (List.mem_of_getElem? hset)
    rcases hs a r (List.mem_of_getElem? hr) with hpending | hterminal
    · refine ⟨hpending, hst.resolve_left ?_⟩
      rintro rfl
      rw [hpending] at hlt
      exact lt_irrefl _ hlt
    · obtain ⟨r', hr', heq⟩ := hk a i r hr hterminal
      obtain rfl := Option.some.inj (hset.symm.trans hr')
      rw [show st = r.status from heq] at hlt
      exact absurd hlt (lt_irrefl _)
  | _ => trivial

/-- In every run, for whatever the managers report: all results have a status and keep a terminal one
    exactly if every message meets the condition. -/
theorem terminal_final_iff {table : ZMQDeviceManagerTable} {ls : List (Label V)} {u : State V}
    (h : (system P).run (start table) ls = some u) :
    TerminalFinal P table ls ↔ (system P).Meets (FirstTerminal P) (start table) ls := by
  constructor
  · rintro ⟨htyped, hkept⟩ pre l post s rfl hs
    obtain ⟨s', hs', hrest⟩ := ((system P).run_append_iff).mp h
    obtain rfl := Option.some.inj (hs.symm.trans hs')
    obtain ⟨t, ht, -⟩ := ((system P).run_cons_iff).mp hrest
    have hrun : (system P).run s [l] = some t := ((system P).run_cons_iff).mpr ⟨t, ht, rfl⟩
    exact first_terminal_of_kept ht (htyped pre (l :: post) s rfl hs)
      (htyped (pre ++ [l]) post t (by simp) (((system P).run_append_iff).mpr ⟨s, hs, hrun⟩))
      (hkept pre [l] post s t (by simp) hs hrun)
  · intro hC
    refine ⟨fun pre post s heq hs => ?_, fun pre mid post s t heq hs ht => ?_⟩
    · have hrun := (system P).run_inv_of_meets (P := fun s => Inv s ∧ Typed s)
        (fun s l t hs hl ht => ⟨inv_step hs.1 ht, typed_step hs.1 hs.2 hl ht⟩)
        ⟨inv_start table, fun a r hr => (by cases hr)⟩ (Lts.Meets.left _ (heq ▸ hC)) hs
      exact hrun.2
    · rw [heq, List.append_assoc] at hC
      exact kept_run (run_broker hs) (Lts.Meets.left _ (Lts.Meets.right _ hC hs)) ht

/-! ### Two replies to one message -/

def successText : String :=
  "\x7b\"message_type\":\"default_result\",\"id\":\"7\",\"result_status\":1\x7d"

def failureText : String :=
  "\x7b\"message_type\":\"default_result\",\"id\":\"7\",\"result_status\":2\x7d"

def replyWith (status : ℤ) : ZMQMessage :=
  [("message_type", .str "default_result"), ("id", .str "7"), ("result_status", .num status)]

def replies : Platform Reading := sample [(successText, replyWith 1), (failureText, replyWith 2)]

/-- A listen command goes to the one manager, which reports a success. -/
theorem success_is_final : TerminalFinal replies [⟨0xa800⟩]
    [.begin (.gatewayListen 5) 0, .next 0 ⟨7⟩, .data "A800" successText] := by
  obtain ⟨s, h⟩ : ∃ s, (system replies).run (start [⟨0xa800⟩]) [.begin (.gatewayListen 5) 0,
      .next 0 ⟨7⟩, .data "A800" successText] = some s := ⟨_, rfl⟩
  refine (terminal_final_iff h).mpr
    (.cons _ trivial rfl (.cons _ trivial rfl (.cons _ ?_ rfl (.nil _))))
  intro a i st r hreply hr _
  cases hreply
  cases hr
  exact ⟨rfl, Or.inl rfl⟩

/-- The same manager reports a success and then a failure for one message: both are taken. -/
theorem success_not_final : ¬ ∀ (table : ZMQDeviceManagerTable) (ls : List (Label Reading))
    (s : State Reading), (system replies).run (start table) ls = some s →
      TerminalFinal replies table ls := by
  intro h
  obtain ⟨-, hkept⟩ := h [⟨0xa800⟩] [.begin (.gatewayListen 5) 0, .next 0 ⟨7⟩,
    .data "A800" successText, .data "A800" failureText] _ rfl
  obtain ⟨r, hr, hst⟩ := hkept [.begin (.gatewayListen 5) 0, .next 0 ⟨7⟩, .data "A800" successText]
    [.data "A800" failureText] [] _ _ rfl rfl rfl 0 0 ⟨.success, .plain⟩ rfl (Or.inl rfl)
  cases hr
  cases hst

end Broker
end BeeeOn
