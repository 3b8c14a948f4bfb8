import Gateway.Schemes.Lts
import Mathlib.Data.List.Infix
import Mathlib.Logic.Function.Basic

/-! @scheme serial | name:Calls under one lock | family:runs, concurrency

    Threads call an operation that takes a lock, does one action after the other, whatever each comes
    to, and releases the lock. Which actions a call does is decided when it has the lock, by what is
    called and by a configuration that does not change while the lock is held. However the threads
    interleave, what has been done is a sequence of whole calls in the order of the locks and a
    beginning of the last one (`run_progress`), and a thread's calls get the lock once each and in the
    order in which they were made (`run_threads`). -/

namespace Schemes
namespace Serial
variable {θ E C A R : Type*}

structure State (θ E C A R : Type*) where
  config : E
  /-- the call of each thread that waits for the lock -/
  waiting : θ → Option C
  /-- the thread that has the lock, its call, and the actions that are still to be done -/
  inside : Option (θ × C × List A)
  /-- the actions that have been done, and what they came to -/
  log : List (A × R)
  /-- the calls in the order in which they were made -/
  calls : List (θ × C)
  /-- the calls in the order in which they got the lock, each with the configuration -/
  order : List (E × θ × C)

inductive Label (θ E C R : Type*) where
  | configure (e : E)
  | call (t : θ) (c : C)
  | lock (t : θ)
  | act (r : R)
  | unlock

/-- No call has been made yet. -/
def init (e : E) : State θ E C A R := ⟨e, fun _ => none, none, [], [], []⟩

/-- What the calls do, one after the other. -/
def whole (body : E → C → List A) (order : List (E × θ × C)) : List A :=
  order.flatMap fun x => body x.1 x.2.2

/-- What has been done is whole calls, and a beginning of the last one while it has the lock. -/
def Progress (body : E → C → List A) (s : State θ E C A R) : Prop :=
  match s.inside with
  | none => s.log.map Prod.fst = whole body s.order
  | some (t, c, rest) => ∃ (e : E) (before : List (E × θ × C)) (did : List A),
      s.order = before ++ [(e, t, c)] ∧ body e c = did ++ rest ∧
        s.log.map Prod.fst = whole body before ++ did

section
variable {body : E → C → List A}

@[simp] theorem whole_append (xs ys : List (E × θ × C)) :
    whole body (xs ++ ys) = whole body xs ++ whole body ys := List.flatMap_append

@[simp] theorem whole_singleton (x : E × θ × C) : whole body [x] = body x.1 x.2.2 :=
  List.append_nil _

/-- All that has been done is a beginning of the calls that got the lock, and nothing of them is missing
    while the lock is free. -/
theorem Progress.done {s : State θ E C A R} (hs : Progress body s) :
    s.log.map Prod.fst <+: whole body s.order ∧
    (s.inside = none → s.log.map Prod.fst = whole body s.order) ∧
    whole body s.order.dropLast <+: s.log.map Prod.fst := by
  unfold Progress at hs
  cases hin : s.inside with
  | none =>
    rw [hin] at hs
    refine ⟨hs ▸ List.prefix_refl _, fun _ => hs, ?_⟩
    rw [hs]
    rcases List.eq_nil_or_concat s.order with hnil | ⟨before, x, hconcat⟩
    · rw [hnil]
      exact List.prefix_refl _
    · rw [hconcat, List.concat_eq_append, List.dropLast_concat, whole_append]
      exact List.prefix_append _ _
  | some held =>
    obtain ⟨t, c, rest⟩ := held
    rw [hin] at hs
    obtain ⟨e, before, did, horder, hbody, hlog⟩ := hs
    refine ⟨?_, fun h => absurd h (by simp), ?_⟩
    · rw [hlog, horder, whole_append, whole_singleton, hbody, ← List.append_assoc]
      exact List.prefix_append _ _
    · rw [hlog, horder, List.dropLast_concat]
      exact List.prefix_append _ _

end

variable [DecidableEq θ] (body : E → C → List A)

/-- A thread calls when it is neither waiting nor inside. -/
def system : Lts (State θ E C A R) (Label θ E C R) where
  step s
    | .configure e => if s.inside.isNone then some { s with config := e } else none
    | .call t c =>
      if (s.waiting t).isNone ∧ s.inside.map Prod.fst ≠ some t then
        some { s with waiting := Function.update s.waiting t (some c), calls := s.calls ++ [(t, c)] }
      else none
    | .lock t =>
      match s.inside, s.waiting t with
      | none, some c =>
        some { s with
          waiting := Function.update s.waiting t none, inside := some (t, c, body s.config c),
          order := s.order ++ [(s.config, t, c)] }
      | _, _ => none
    | .act r =>
      match s.inside with
      | some (t, c, a :: rest) => some { s with inside := some (t, c, rest), log := s.log ++ [(a, r)] }
      | _ => none
    | .unlock =>
      match s.inside with
      | some (_, _, []) => some { s with inside := none }
      | _ => none

/-- The calls of a thread, among those that were made and among those that got the lock. -/
def ofThread (t : θ) (calls : List (θ × C)) : List C :=
  calls.filterMap fun x => if x.1 = t then some x.2 else none

def State.locked (s : State θ E C A R) : List (θ × C) := s.order.map Prod.snd

/-- Every call of a thread but the one that waits has got the lock, in the order of the calls. -/
def Threads (s : State θ E C A R) : Prop :=
  ∀ t, ofThread t s.locked ++ (s.waiting t).toList = ofThread t s.calls

section
variable {body} {s s' : State θ E C A R} {l : Label θ E C R} {ls : List (Label θ E C R)} {e : E}

theorem ofThread_concat (t u : θ) (c : C) (calls : List (θ × C)) :
    ofThread t (calls ++ [(u, c)]) = ofThread t calls ++ if u = t then [c] else [] := by
  rw [ofThread, List.filterMap_append]
  split_ifs with h
  · simp [h, ofThread]
  · simp [h, ofThread]

/-- What a step does. -/
inductive Steps (body : E → C → List A) (s : State θ E C A R) :
    Label θ E C R → State θ E C A R → Prop
  | configure (e : E) (hfree : s.inside = none) : Steps body s (.configure e) { s with config := e }
  | call (t : θ) (c : C) (hwait : s.waiting t = none) (hin : s.inside.map Prod.fst ≠ some t) :
      Steps body s (.call t c) { s with
        waiting := Function.update s.waiting t (some c), calls := s.calls ++ [(t, c)] }
  | lock (t : θ) (c : C) (hfree : s.inside = none) (hwait : s.waiting t = some c) :
      Steps body s (.lock t) { s with
        waiting := Function.update s.waiting t none, inside := some (t, c, body s.config c),
        order := s.order ++ [(s.config, t, c)] }
  | act (r : R) (t : θ) (c : C) (a : A) (rest : List A) (hin : s.inside = some (t, c, a :: rest)) :
      Steps body s (.act r) { s with inside := some (t, c, rest), log := s.log ++ [(a, r)] }
  | unlock (t : θ) (c : C) (hin : s.inside = some (t, c, [])) :
      Steps body s .unlock { s with inside := none }

theorem steps_of_step (h : (system body).step s l = some s') : Steps body s l s' := by
  cases l with
  | configure e =>
    simp only [system] at h
    split_ifs at h with hfree
    exact Option.some.inj h ▸ .configure e (Option.isNone_iff_eq_none.mp hfree)
  | call t c =>
    simp only [system] at h
    split_ifs at h with hcall
    exact Option.some.inj h ▸ .call t c (Option.isNone_iff_eq_none.mp hcall.1) hcall.2
  | lock t =>
    simp only [system] at h
    split at h
    · next c hfree hwait => exact Option.some.inj h ▸ .lock t c hfree hwait
    · cases h
  | act r =>
    simp only [system] at h
    split at h
    · next t c a rest hin => exact Option.some.inj h ▸ .act r t c a rest hin
    · cases h
  | unlock =>
    simp only [system] at h
    split at h
    · next t c hin => exact Option.some.inj h ▸ .unlock t c hin
    · cases h

theorem step_progress (hs : Progress body s) (h : (system body).step s l = some s') :
    Progress body s' := by
  unfold Progress at hs
  cases steps_of_step h with
  | configure e hfree =>
    rw [hfree] at hs
    simpa only [Progress, hfree] using hs
  | call t c hwait hin => exact hs
  | lock t c hfree hwait =>
    rw [hfree] at hs
    exact ⟨s.config, s.order, [], rfl, rfl, by rw [hs, List.append_nil]⟩
  | act r t c a rest hin =>
    rw [hin] at hs
    obtain ⟨e, before, did, horder, hbody, hlog⟩ := hs
    refine ⟨e, before, did ++ [a], horder, ?_, ?_⟩
    · rw [hbody, List.append_assoc, List.singleton_append]
    · rw [List.map_append, hlog, List.append_assoc]
      rfl
  | unlock t c hin =>
    rw [hin] at hs
    obtain ⟨e, before, did, horder, hbody, hlog⟩ := hs
    rw [List.append_nil] at hbody
    simp only [Progress, hlog, horder, whole_append, whole_singleton, hbody]

theorem step_threads (hs : Threads s) (h : (system body).step s l = some s') : Threads s' := by
  cases steps_of_step h with
  | configure e hfree | act r t c a rest hin | unlock t c hin => exact hs
  | call t c hwait hin =>
    intro u
    have hu := hs u
    simp only [State.locked, ofThread_concat] at hu ⊢
    by_cases htu : t = u
    · subst htu
      rw [hwait, Option.toList_none, List.append_nil] at hu
      rw [Function.update_self, if_pos rfl, hu, Option.toList_some]
    · rw [Function.update_of_ne (Ne.symm htu), if_neg htu, List.append_nil, hu]
  | lock t c hfree hwait =>
    intro u
    have hu := hs u
    simp only [State.locked, List.map_append, List.map_cons, List.map_nil, ofThread_concat] at hu ⊢
    by_cases htu : t = u
    · subst htu
      rw [hwait, Option.toList_some] at hu
      rw [Function.update_self, if_pos rfl, Option.toList_none, List.append_nil, hu]
    · rw [Function.update_of_ne (Ne.symm htu), if_neg htu, List.append_nil, hu]

/-- A call that gets the lock finds the configuration, and only a change of it changes it. -/
theorem step_config (h : (system body).step s l = some s') :
    (∀ x ∈ s'.order, x ∈ s.order ∨ x.1 = s.config) ∧
      (s'.config = s.config ∨ l = .configure s'.config) := by
  cases steps_of_step h with
  | configure e hfree => exact ⟨fun x hx => Or.inl hx, Or.inr rfl⟩
  | call t c hwait hin | act r t c a rest hin | unlock t c hin =>
    exact ⟨fun x hx => Or.inl hx, Or.inl rfl⟩
  | lock t c hfree hwait =>
    refine ⟨fun x hx => ?_, Or.inl rfl⟩
    rcases List.mem_append.mp hx with hx | hx
    · exact Or.inl hx
    · rw [List.mem_singleton.mp hx]
      exact Or.inr rfl

/-- In every interleaving the calls do not mix. -/
theorem run_progress (h : (system body).run (init e) ls = some s) : Progress body s :=
  (system body).run_inv (fun _ _ _ hs hl => step_progress hs hl) (s := init e) rfl h

/-- In every interleaving each thread's calls get the lock once each and in order. -/
theorem run_threads (h : (system body).run (init e) ls = some s) : Threads s :=
  (system body).run_inv (fun _ _ _ hs hl => step_threads hs hl) (s := init e) (fun _ => rfl) h

end

end Serial
end Schemes
