import Gateway.Zmq.FakeHandlerTest

/-! @src zmq/FakeHandlerTest.cpp, core/CommandRunner.cpp, zmq/ZMQBroker.cpp |
    name:The invariant of the tasks | family:request-reply

    A call of `handle` marks its answer only when the result is as it stays, so what the broker reads then
    is what `handle` ends with. Where the task of an answer is says what is on the answer (`Stands`): no
    result, a new one, or one with these calls ahead. A list that is being made lies between the devices
    that were paired when its loop began and those that are paired now; a device that is paired meanwhile
    keeps it so, behind the loop and ahead of it.

    `Inv` is that with what the queue and the table keep, and every step keeps it (`inv_step`). -/

namespace BeeeOn
open Schemes AnswerQueue CommandDispatcher
variable {V : Type}

namespace FakeHandlerTest

/-! ### The invariant -/

/-- The broker has taken answer `a` from the queue and is not done with it. -/
def Held (a : ℕ) : Requests.Check V → Prop
  | .idle => False
  | .scanning _ taken => a ∈ taken
  | .sending as _ | .building as _ _ => a ∈ as

/-- The broker sends the results of answer `a`, now or when it drains the queue. -/
def Marked (b : Requests.State V) (a : ℕ) : Prop := (b.queue.heap a).dirty = true ∨ Held a b.pc

/-- The task of answer `a` goes on and has no result. -/
def Unfilled (b : Requests.State V) (a : ℕ) : Prop :=
  (∀ k ∈ b.tasks a, k.ended = false) ∧ (b.queue.heap a).results = []

/-- The task of answer `a` goes on and has the result `r`. -/
def Filling (b : Requests.State V) (a : ℕ) (r : Result V) : Prop :=
  (∀ k ∈ b.tasks a, k.result = some 0 ∧ k.ended = false) ∧ (b.queue.heap a).results = [r]

/-- The answer has an entry and a task for the command of it, which is accepted, or neither. -/
def Matched (b : Requests.State V) (a : ℕ) : Prop :=
  b.tasks a = [] ∧ b.resultTable a = none ∨
    ∃ k d, b.tasks a = [k] ∧ b.resultTable a = some d ∧ d.cmd = k.runner.cmd ∧ accept d.cmd = true

/-- `checkQueue` takes only what is dirty. -/
theorem held_drain {b b' : Requests.State V} {a : ℕ} {d : Requests.Drain}
    (hd : Requests.drain b d = some b') (ha : Held a b'.pc) : Marked b a := by
  have hcases := Requests.drain_cases hd
  cases d with
  | begin =>
    obtain ⟨-, rfl⟩ := hcases
    cases ha
  | visit =>
    obtain ⟨a', todo, taken, hpc, rfl⟩ := hcases
    simp only [Held] at ha
    split_ifs at ha with hdirty
    · rcases List.mem_append.mp ha with ha | ha
      · exact Or.inr (by rw [hpc]; exact ha)
      · rw [List.mem_singleton.mp ha]
        exact Or.inl hdirty
    · exact Or.inr (by rw [hpc]; exact ha)
  | endScan =>
    obtain ⟨taken, hpc, rfl⟩ := hcases
    exact Or.inr (by rw [hpc]; exact ha)
  | pick =>
    obtain ⟨a', as, i, hpc, ⟨r, -, rfl⟩ | ⟨-, rfl⟩⟩ := hcases
    · exact Or.inr (by rw [hpc]; exact ha)
    · exact Or.inr (by rw [hpc]; exact List.mem_cons_of_mem a' ha)
  | send =>
    obtain ⟨a', as, i, read, d, r, hpc, -, -, rfl⟩ := hcases
    exact Or.inr (by rw [hpc]; exact ha)
  | leave =>
    obtain ⟨i, -, rfl⟩ := hcases
    cases ha

theorem encoded_self (r : Result V) : Requests.encoded r r = r := by
  rw [Requests.encoded]
  split <;> rfl

section
variable [LinearOrder DeviceID] (P : Platform V)

/-- What is on answer `a`, by the place of its task: a list that is being made is between the devices that
    were paired when its loop began and those that are `paired`; and with the calls that are left, the
    result is one that `handle` tells. -/
def Stands (F : Place V → FakeHandlerTest → Prop) (paired : OrderedSet DeviceID) (b : Requests.State V)
    (a : ℕ) : Place V → Prop
  | .waiting => Unfilled b a
  | .starting | .started | .ready => Unfilled b a ∧ b.resultTable a ≠ none
  | .raised => (b.queue.heap a).results = [] ∧ b.resultTable a ≠ none
  | .created => ∃ d, b.resultTable a = some d ∧ Filling b a (.new (newPayload d.cmd))
  | .listing last deviceList => ∃ d p, b.resultTable a = some d ∧ d.cmd = .serverDeviceList p ∧
      Filling b a (.new (newPayload d.cmd)) ∧ ∃ f, F (.listing none []) f ∧
        OrderedSet.Swept (fun e => e.devicePrefix = p) f.pairedDevice paired last deviceList
  | .calling cs => ∃ d r, b.resultTable a = some d ∧ (b.queue.heap a).results = [r] ∧
      (∀ k ∈ b.tasks a, k.result = some 0 ∧ (k.ended = true → cs = [])) ∧
      Tidy cs ∧ Fits r.payload cs ∧ Told P F d.cmd (after cs r)

/-- Every entry has its task; what is marked, read or sent is the result as it stays; and what has ended is
    sent. -/
structure Inv (F : ℕ → Place V → FakeHandlerTest → Prop) (s : State V) : Prop where
  broker : Requests.Inv s.broker
  replied : Requests.Replied s.broker
  matched : ∀ a, Matched s.broker a
  stands : ∀ a, Stands P (F a) s.handler.pairedDevice s.broker a (s.places a)
  marked : ∀ a, Marked s.broker a → ∃ cs, s.places a = .calling cs ∧ ∀ c ∈ cs, c.Silent
  building : ∀ a as i read, s.broker.pc = .building (a :: as) i read →
    (s.broker.queue.heap a).results[i]? = some read
  out : ∀ x ∈ s.broker.out, (s.broker.queue.heap x.answer).results ≠ [] ∧
    ∃ d, s.broker.resultTable x.answer = some d ∧ Told P (F x.answer) d.cmd x.result

end

/-! ### One step -/

section
variable [LinearOrder DeviceID] {P : Platform V} {F G : ℕ → Place V → FakeHandlerTest → Prop}
variable {b b' : Requests.State V} {s t : State V} {a : ℕ} {raised : Bool}

theorem inv_init (f : FakeHandlerTest) : Inv P F (init f : State V) where
  broker := Requests.inv_init
  replied := replied_init
  matched _ := Or.inl ⟨rfl, rfl⟩
  stands _ := ⟨fun _ hk => (by cases hk), rfl⟩
  marked _ h := by rcases h with h | h <;> cases h
  building _ _ _ _ h := by cases h
  out _ h := by cases h

theorem Inv.mono (h : Inv P F s) (hFG : ∀ a p f, F a p f → G a p f) : Inv P G s :=
  { h with
    stands := fun a => by
      have hs := h.stands a
      cases hp : s.places a with
      | waiting | starting | started | raised | ready | created =>
        rw [hp] at hs
        exact hs
      | listing last deviceList =>
        rw [hp] at hs
        obtain ⟨d, p, hd, hcmd, hfilling, f, hf, hswept⟩ := hs
        exact ⟨d, p, hd, hcmd, hfilling, f, hFG a _ f hf, hswept⟩
      | calling cs =>
        rw [hp] at hs
        obtain ⟨d, r, hd, hr, hk, htidy, hfits, htold⟩ := hs
        exact ⟨d, r, hd, hr, hk, htidy, hfits, htold.mono (hFG a)⟩
    out := fun x hx => by
      obtain ⟨hne, d, hd, htold⟩ := h.out x hx
      exact ⟨hne, d, hd, htold.mono (hFG _)⟩ }

/-- What is on an answer depends on its results, its tasks and its entry only. -/
theorem Stands.congr {F : Place V → FakeHandlerTest → Prop} {paired : OrderedSet DeviceID} {p : Place V}
    (h : Stands P F paired b a p)
    (hresults : (b'.queue.heap a).results = (b.queue.heap a).results) (htasks : b'.tasks a = b.tasks a)
    (htable : b'.resultTable a = b.resultTable a) : Stands P F paired b' a p := by
  cases p <;> simpa only [Stands, Unfilled, Filling, hresults, htasks, htable] using h

/-- A marked answer has the result as it stays. -/
theorem Inv.final (h : Inv P F s) (ha : Marked s.broker a) {i : ℕ} {r : Result V}
    (hr : (s.broker.queue.heap a).results[i]? = some r) :
    ∃ d, s.broker.resultTable a = some d ∧ Told P (F a) d.cmd r := by
  obtain ⟨cs, hplace, hsilent⟩ := h.marked a ha
  have hs := h.stands a
  rw [hplace] at hs
  obtain ⟨d, r', hd, hr', -, -, -, htold⟩ := hs
  rw [hr'] at hr
  obtain rfl : r' = r := (List.mem_singleton.mp (List.mem_of_getElem? hr)).symm
  exact ⟨d, hd, after_silent hsilent r' ▸ htold⟩

/-- A step that changes answer `a` only, and not its results if it is marked. -/
theorem Inv.own {f : FakeHandlerTest} {p : Place V} (h : Inv P F s)
    (hpaired : f.pairedDevice = s.handler.pairedDevice) (hI : Requests.Inv b')
    (hR : Requests.Replied b') (hf : Requests.Frame s.broker b')
    (hother : ∀ c ≠ a, b'.queue.heap c = s.broker.queue.heap c ∧ b'.tasks c = s.broker.tasks c ∧
      b'.resultTable c = s.broker.resultTable c)
    (hmatched : Matched b' a) (hstands : Stands P (F a) s.handler.pairedDevice b' a p)
    (hmarked : (b'.queue.heap a).dirty = true ∨ Held a s.broker.pc →
      ∃ cs, p = .calling cs ∧ ∀ c ∈ cs, c.Silent)
    (hresults : Marked s.broker a → (b'.queue.heap a).results = (s.broker.queue.heap a).results) :
    Inv P F ⟨b', f, Function.update s.places a p⟩ := by
  constructor
  case broker => exact hI
  case replied => exact hR
  case matched =>
    intro c
    by_cases hc : c = a
    · exact hc ▸ hmatched
    · obtain ⟨-, htasks, htable⟩ := hother c hc
      rw [Matched, htasks, htable]
      exact h.matched c
  case stands =>
    intro c
    by_cases hc : c = a
    · subst hc
      simpa [hpaired] using hstands
    · obtain ⟨hheap, htasks, htable⟩ := hother c hc
      simp only [Function.update_of_ne hc, hpaired]
      exact (h.stands c).congr (by rw [hheap]) htasks htable
  case marked =>
    intro c hm
    simp only [Marked, hf.pc] at hm
    by_cases hc : c = a
    · subst hc
      simpa using hmarked hm
    · rw [(hother c hc).1] at hm
      simp only [Function.update_of_ne hc]
      exact h.marked c hm
  case building =>
    intro c as i read hpc
    rw [hf.pc] at hpc
    have hread := h.building c as i read hpc
    by_cases hc : c = a
    · subst hc
      rw [hresults (Or.inr (by rw [hpc]; exact List.mem_cons_self)), hread]
    · rw [(hother c hc).1, hread]
  case out =>
    rw [hf.out]
    intro x hx
    obtain ⟨hne, d, hd, htold⟩ := h.out x hx
    exact ⟨results_kept h.broker hf hne, d, hf.table _ d hd, htold⟩

/-- An answer that does not exist yet is not marked. -/
theorem Inv.unborn (h : Inv P F s) (ha : s.broker.queue.next ≤ a) :
    s.places a = .waiting ∧ ¬ Marked s.broker a := by
  have hnone := (h.broker.unborn a ha).2.2.2
  have hs := h.stands a
  have hplace : s.places a = .waiting := by
    cases hp : s.places a with
    | waiting => rfl
    | starting | started | ready | raised =>
      rw [hp] at hs
      exact absurd hnone hs.2
    | created =>
      rw [hp] at hs
      obtain ⟨d, hd, -⟩ := hs
      rw [hnone] at hd
      cases hd
    | listing | calling =>
      rw [hp] at hs
      obtain ⟨d, _, hd, -⟩ := hs
      rw [hnone] at hd
      cases hd
  refine ⟨hplace, fun hm => ?_⟩
  obtain ⟨cs, hcs, -⟩ := h.marked a hm
  rw [hplace] at hcs
  cases hcs

/-- A step that makes a new answer, with an entry and a task or without. -/
theorem Inv.born (h : Inv P F s) {w : Requests.Work V}
    (hw : Requests.work handlers s.broker w = some b')
    (hother : ∀ c ≠ s.broker.queue.next, b'.queue.heap c = s.broker.queue.heap c ∧
      b'.tasks c = s.broker.tasks c ∧ b'.resultTable c = s.broker.resultTable c)
    (hmatched : Matched b' s.broker.queue.next) (hk : ∀ k ∈ b'.tasks s.broker.queue.next, k.ended = false)
    (hresults : (b'.queue.heap s.broker.queue.next).results = [])
    (hclean : (b'.queue.heap s.broker.queue.next).dirty = false) : Inv P F { s with broker := b' } := by
  obtain ⟨hI, hf⟩ := Requests.work_spec h.broker hw
  obtain ⟨hplace, hm⟩ := h.unborn le_rfl
  have hnew := h.own (p := .waiting) rfl hI (Requests.replied_work h.broker h.replied hw) hf hother
    hmatched ⟨hk, hresults⟩ (fun hmarked => ?_) fun hmarked => absurd hmarked hm
  · rwa [← hplace, Function.update_eq_self] at hnew
  · rw [hclean] at hmarked
    exact absurd (Or.inr (hmarked.resolve_left Bool.false_ne_true)) hm

theorem inv_request (h : Inv P F s) {manager : DeviceManagerID} {id : GlobalID} {cmd : Command V}
    (hw : Requests.work handlers s.broker (.request manager id cmd) = some b') :
    Inv P F { s with broker := b' } := by
  have hcmd : accept cmd = true ∧ b' = Requests.doCommand handlers s.broker manager id cmd := by
    simp only [Requests.work] at hw
    split at hw <;> cases hw <;> exact ⟨rfl, rfl⟩
  obtain ⟨hcmd, rfl⟩ := hcmd
  obtain ⟨htasks, htable, hnil, hclean⟩ := doCommand_new s.broker manager id hcmd
  refine h.born hw (fun c hc => ⟨?_, Function.update_of_ne hc _ _, Function.update_of_ne hc _ _⟩)
    (Or.inr ⟨_, _, htasks, htable, rfl, hcmd⟩) (fun k hk => ?_) hnil hclean
  · exact ((dispatch_frame handlers cmd s.broker.queue.next s.broker.queue.newAnswer).2.2 c hc).trans
      (by rw [newAnswer_heap, if_neg hc])
  · rw [htasks] at hk
    rw [List.mem_singleton.mp hk]

theorem inv_malformed (h : Inv P F s) (hw : Requests.work handlers s.broker .malformed = some b') :
    Inv P F { s with broker := b' } := by
  obtain rfl : b' = { s.broker with queue := s.broker.queue.newAnswer } := by
    simp only [Requests.work] at hw
    split at hw <;> cases hw
    rfl
  obtain ⟨-, -, htasks, htable⟩ := h.broker.unborn s.broker.queue.next le_rfl
  refine h.born hw (fun c hc => ⟨?_, rfl, rfl⟩) (Or.inl ⟨htasks, htable⟩) (fun k hk => ?_) ?_ ?_
  · rw [newAnswer_heap, if_neg hc]
  · rw [htasks] at hk
    cases hk
  · rw [newAnswer_heap, if_pos rfl]
    rfl
  · rw [newAnswer_heap, if_pos rfl]
    rfl

/-! ### A step of a task -/

@[simp] theorem settle_pairedDevice (f : FakeHandlerTest) (p : Place V) :
    (f.settle p).pairedDevice = f.pairedDevice := by
  cases p <;> rfl

/-- What the next step of a task is. -/
theorem run_cases (h : run P s a raised = some t) : ∃ k w p b', (s.broker.tasks a)[0]? = some k ∧
    s.handler.next P a k.runner.cmd raised (s.places a) = some (w, p) ∧
      (w = none ∧ b' = s.broker ∨ ∃ w', w = some w' ∧ Requests.work handlers s.broker w' = some b') ∧
        t = ⟨b', s.handler.settle (s.places a), Function.update s.places a p⟩ := by
  obtain ⟨k, hk, h⟩ := Option.bind_eq_some_iff.mp h
  obtain ⟨⟨w, p⟩, hnext, h⟩ := Option.bind_eq_some_iff.mp h
  cases w with
  | none =>
    cases h
    exact ⟨k, none, p, s.broker, hk, hnext, Or.inl ⟨rfl, rfl⟩, rfl⟩
  | some w =>
    obtain ⟨b', hw, rfl⟩ := Option.map_eq_some_iff.mp h
    exact ⟨k, some w, p, b', hk, hnext, Or.inr ⟨w, rfl, hw⟩, rfl⟩

/-- The task of the answer, with its entry. -/
theorem Inv.task (h : Inv P F s) {k : Requests.Task V} (hk : (s.broker.tasks a)[0]? = some k) :
    s.broker.tasks a = [k] ∧ ∃ d, s.broker.resultTable a = some d ∧ d.cmd = k.runner.cmd ∧
      accept d.cmd = true := by
  rcases h.matched a with ⟨hnil, -⟩ | ⟨k', d, hone, hd, hcmd⟩
  · rw [hnil] at hk
    cases hk
  · rw [hone] at hk
    cases hk
    exact ⟨hone, d, hd, hcmd⟩

/-- A task that has not come to its calls has not marked its answer. -/
theorem Inv.unmarked (h : Inv P F s) {p : Place V} (hplace : s.places a = p)
    (hp : ∀ cs, p ≠ .calling cs) : ¬ Marked s.broker a := by
  intro hm
  obtain ⟨cs, hcs, -⟩ := h.marked a hm
  exact hp cs (hplace.symm.trans hcs)

/-- A step of a task that has not come to its calls, if it leaves the answer as it is. -/
theorem Inv.quiet {f : FakeHandlerTest} {p p' : Place V} (h : Inv P F s)
    (hpaired : f.pairedDevice = s.handler.pairedDevice) (hplace : s.places a = p)
    (hp : ∀ cs, p ≠ .calling cs)
    (hstands : Stands P (F a) s.handler.pairedDevice s.broker a p') :
    Inv P F ⟨s.broker, f, Function.update s.places a p'⟩ :=
  h.own hpaired h.broker h.replied
    ⟨rfl, rfl, le_rfl, fun _ _ hd => hd, fun _ _ => Requests.Evolves.refl _,
      fun c hc => (h.broker.unborn c hc).1⟩
    (fun _ _ => ⟨rfl, rfl, rfl⟩) (h.matched a) hstands (fun hm => absurd hm (h.unmarked hplace hp))
    fun _ => rfl

/-- `startAction` has raised: the task ends without a result. -/
theorem inv_raise {f : FakeHandlerTest} (h : Inv P F s)
    (hpaired : f.pairedDevice = s.handler.pairedDevice) {k : Requests.Task V}
    (hk : (s.broker.tasks a)[0]? = some k) (hplace : s.places a = .starting)
    (hw : Requests.work handlers s.broker (.stop a 0 true) = some b') :
    Inv P F ⟨b', f, Function.update s.places a .raised⟩ := by
  obtain ⟨hI, hf⟩ := Requests.work_spec h.broker hw
  obtain ⟨hone, d, hd, hcmd, haccept⟩ := h.task hk
  have hm := h.unmarked hplace nofun
  have hs := h.stands a
  rw [hplace] at hs
  obtain ⟨⟨-, hnil⟩, hne⟩ := hs
  obtain ⟨hother, hone', hqueue, htable⟩ := work_stop hone hw
  refine h.own hpaired hI (Requests.replied_work h.broker h.replied hw) hf
    (fun c hc => ⟨by rw [hqueue], hother c hc, by rw [htable]⟩)
    (Or.inr ⟨_, d, hone', htable ▸ hd, hcmd, haccept⟩) ⟨?_, ?_⟩ (fun hm' => absurd ?_ hm) fun _ => ?_
  · rw [hqueue]
    exact hnil
  · rw [htable]
    exact hne
  · rw [hqueue] at hm'
    exact hm'
  · rw [hqueue]

theorem inv_create {f : FakeHandlerTest} (h : Inv P F s)
    (hpaired : f.pairedDevice = s.handler.pairedDevice) {k : Requests.Task V}
    (hk : (s.broker.tasks a)[0]? = some k) (hplace : s.places a = .ready)
    (hw : Requests.work handlers s.broker (.create a 0 (newPayload k.runner.cmd)) = some b') :
    Inv P F ⟨b', f, Function.update s.places a .created⟩ := by
  obtain ⟨hI, hf⟩ := Requests.work_spec h.broker hw
  obtain ⟨hone, d, hd, hcmd, haccept⟩ := h.task hk
  have hm := h.unmarked hplace nofun
  have hs := h.stands a
  rw [hplace] at hs
  obtain ⟨⟨-, hnil⟩, -⟩ := hs
  obtain ⟨hother, ⟨k', hk', hrunner, hresult, hlive⟩, hheap, htable⟩ := work_create hone hnil hw
  rw [← htable] at hd
  refine h.own hpaired hI (Requests.replied_work h.broker h.replied hw) hf
    (fun c hc => ⟨(hother c hc).1, (hother c hc).2, congrFun htable c⟩)
    (Or.inr ⟨k', d, hk', hd, by rw [hcmd, hrunner], haccept⟩) ⟨d, hd, fun k'' hk'' => ?_, ?_⟩ ?_
    fun hm' => absurd hm' hm
  · rw [hk'] at hk''
    rw [List.mem_singleton.mp hk'']
    exact ⟨hresult, hlive⟩
  · rw [hheap, Answer.addResult, hnil, hcmd]
    rfl
  · rw [hheap]
    exact fun hm' => absurd hm' hm

/-- The task comes to its calls. -/
theorem Filling.calling {F : Place V → FakeHandlerTest → Prop} {paired : OrderedSet DeviceID}
    {d : ResultData V} {cs : List (Call V)} (h : Filling b a (.new (newPayload d.cmd)))
    (hd : b.resultTable a = some d) (htidy : Tidy cs) (hfits : Fits (newPayload d.cmd) cs)
    (htold : Told P F d.cmd (after cs (.new (newPayload d.cmd)))) :
    Stands P F paired b a (.calling cs) := by
  refine ⟨d, _, hd, h.2, fun k hk => ⟨(h.1 k hk).1, fun hended => ?_⟩, htidy, hfits, htold⟩
  rw [(h.1 k hk).2] at hended
  cases hended

/-- The task has its result and begins to fill it in. -/
theorem inv_begin {f : FakeHandlerTest} (h : Inv P F s)
    (hpaired : f.pairedDevice = s.handler.pairedDevice) (hF : F a (s.places a) s.handler)
    {k : Requests.Task V} (hk : (s.broker.tasks a)[0]? = some k) (hplace : s.places a = .created)
    {w : Option (Requests.Work V)} {p : Place V} (hF' : F a p f)
    (hnext : s.handler.next P a k.runner.cmd raised .created = some (w, p)) :
    w = none ∧ Inv P F ⟨s.broker, f, Function.update s.places a p⟩ := by
  obtain ⟨-, d, hd, hcmd, haccept⟩ := h.task hk
  have hs := h.stands a
  rw [hplace] at hs
  obtain ⟨d', hd', hfilling⟩ := hs
  obtain rfl := Option.some.inj (hd.symm.trans hd')
  rw [hplace] at hF
  rw [← hcmd] at hnext
  cases hc : d.cmd with
  | serverDeviceList pre =>
    rw [hc] at hnext
    cases hnext
    exact ⟨rfl, h.quiet hpaired hplace nofun ⟨d, pre, hd, hc, hfilling, f, hF', hpaired ▸ .start _ _⟩⟩
  | serverLastValue e i =>
    rw [hc] at hnext
    cases hnext
    refine ⟨rfl, h.quiet hpaired hplace nofun (hfilling.calling hd (tidy_valueCalls P s.handler e i) ?_ ?_)⟩
    · rw [hc]
      exact fits_valueCalls P s.handler e i
    · rw [hc]
      exact ⟨s.handler, hF, after_valueCalls P s.handler e i⟩
  | gatewayListen | deviceSetValue | deviceUnpair | other =>
    rw [hc] at haccept
    cases haccept

/-- The loop of `pairedDevices` goes on, or ends. -/
theorem inv_list {f : FakeHandlerTest} (h : Inv P F s)
    (hpaired : f.pairedDevice = s.handler.pairedDevice) (hF : F a (s.places a) s.handler)
    {k : Requests.Task V} (hk : (s.broker.tasks a)[0]? = some k) {last : Option DeviceID}
    {deviceList : List DeviceID} (hplace : s.places a = .listing last deviceList)
    {w : Option (Requests.Work V)} {p : Place V}
    (hnext : s.handler.next P a k.runner.cmd raised (.listing last deviceList) = some (w, p)) :
    w = none ∧ Inv P F ⟨s.broker, f, Function.update s.places a p⟩ := by
  obtain ⟨-, d, hd, hcmd, -⟩ := h.task hk
  have hs := h.stands a
  rw [hplace] at hs hF
  obtain ⟨d', pre, hd', hpre, hfilling, g, hg, hswept⟩ := hs
  obtain rfl := Option.some.inj (hd.symm.trans hd')
  rw [← hcmd, hpre] at hnext
  cases hn : s.handler.pairedDevice.next last with
  | some e =>
    simp only [next, hn] at hnext
    cases hnext
    have hswept' := hswept.next hn
    simp only [decide_eq_true_eq] at hswept'
    exact ⟨rfl, h.quiet hpaired hplace nofun ⟨d, pre, hd, hpre, hfilling, g, hg, hswept'⟩⟩
  | none =>
    simp only [next, hn] at hnext
    cases hnext
    obtain ⟨hlower, hupper⟩ := hswept.done hn
    refine ⟨rfl, h.quiet hpaired hplace nofun (hfilling.calling hd (tidy_listCalls deviceList) ?_ ?_)⟩
    · rw [hpre]
      exact fits_listCalls pre deviceList
    · rw [hpre]
      exact ⟨deviceList, after_listCalls pre deviceList, ⟨g, hg, hlower⟩, s.handler, last, hF, hupper⟩

theorem inv_call {f : FakeHandlerTest} (h : Inv P F s)
    (hpaired : f.pairedDevice = s.handler.pairedDevice) {k : Requests.Task V} {c : Call V}
    {cs : List (Call V)} (hk : (s.broker.tasks a)[0]? = some k)
    (hplace : s.places a = .calling (c :: cs))
    (hw : Requests.work handlers s.broker (c.work a) = some b') :
    Inv P F ⟨b', f, Function.update s.places a (.calling cs)⟩ := by
  obtain ⟨hI, hf⟩ := Requests.work_spec h.broker hw
  obtain ⟨hone, d, hd, hcmd, haccept⟩ := h.task hk
  -- what is marked already has no call ahead that changes the result
  have hsilent : Marked s.broker a → ∀ c' ∈ c :: cs, c'.Silent := fun hm => by
    obtain ⟨cs', hcs', hsilent⟩ := h.marked a hm
    rw [hplace] at hcs'
    cases hcs'
    exact hsilent
  have hrest : Marked s.broker a → ∃ cs', Place.calling cs = .calling cs' ∧ ∀ c ∈ cs', c.Silent :=
    fun hm => ⟨cs, rfl, fun c' hc => hsilent hm c' (List.mem_cons_of_mem c hc)⟩
  have hs := h.stands a
  rw [hplace] at hs
  obtain ⟨d', r, hd', hsingle, hkept, htidy, hfits, htold⟩ := hs
  obtain rfl := Option.some.inj (hd.symm.trans hd')
  obtain ⟨hresult, hlive⟩ := hkept k (List.mem_of_getElem? hk)
  obtain ⟨hother, ⟨k', hk', hrunner, hresult', hended⟩, hresults, htable, hmarks⟩ :=
    called hone hresult hsingle hw
  rw [← htable] at hd
  refine h.own hpaired hI (Requests.replied_work h.broker h.replied hw) hf
    (fun c hc => ⟨(hother c hc).1, (hother c hc).2, congrFun htable c⟩)
    (Or.inr ⟨k', d, hk', hd, by rw [hcmd, hrunner], haccept⟩)
    ⟨d, _, hd, hresults, fun k'' hk'' => ?_, htidy.tail, hfits.tail, htold⟩ ?_ fun hm => ?_
  · rw [hk'] at hk''
    rw [List.mem_singleton.mp hk'']
    refine ⟨hresult', fun he => ?_⟩
    rcases hended he with he | ⟨raised, rfl⟩
    · cases hlive he
    · exact hfits
  · rintro (hdirty | hheld)
    · exact (hmarks hdirty).elim (fun hdirty => hrest (Or.inl hdirty)) fun htail =>
        ⟨cs, rfl, htail cs htidy⟩
    · exact hrest (Or.inr hheld)
  · have hkeep : after [c] r = r := after_silent (fun c' hc => by
      rw [List.mem_singleton.mp hc]
      exact hsilent hm c List.mem_cons_self) r
    rw [hresults, hsingle]
    exact congrArg (fun x => [x]) hkeep

/-- A step of a task, where `F` holds of every place and the handler before it and behind it. -/
theorem inv_run (h : Inv P F s) (hF : ∀ c, F c (s.places c) s.handler)
    (hF' : ∀ c, F c (t.places c) t.handler) (hr : run P s a raised = some t) : Inv P F t := by
  obtain ⟨k, w, p, b', hk, hnext, hcase, rfl⟩ := run_cases hr
  have hpaired := settle_pairedDevice s.handler (s.places a)
  have hF'a : F a p (s.handler.settle (s.places a)) := by simpa using hF' a
  have hsame : w = none → b' = s.broker := by
    rintro rfl
    rcases hcase with ⟨-, hb⟩ | ⟨w', hw', -⟩
    · exact hb
    · cases hw'
  have hwork : ∀ w', w = some w' → Requests.work handlers s.broker w' = some b' := by
    rintro w' rfl
    rcases hcase with ⟨hw', -⟩ | ⟨w'', hw'', hw⟩
    · cases hw'
    · exact Option.some.inj hw'' ▸ hw
  obtain ⟨-, d, hd, -⟩ := h.task hk
  have hne : s.broker.resultTable a ≠ none := by
    rw [hd]
    exact Option.some_ne_none d
  have hs := h.stands a
  generalize s.handler.settle (s.places a) = f at hpaired hF'a
  cases hplace : s.places a with
  | waiting =>
    rw [hplace] at hnext hs
    simp only [next] at hnext
    split at hnext <;> cases hnext <;> obtain rfl := hsame rfl
    · refine h.quiet hpaired hplace nofun ?_
      split_ifs <;> exact ⟨hs, hne⟩
    · exact h.quiet hpaired hplace nofun ⟨hs, hne⟩
  | starting =>
    rw [hplace] at hnext hs
    simp only [next] at hnext
    split_ifs at hnext <;> cases hnext
    · exact inv_raise h hpaired hk hplace (hwork _ rfl)
    · obtain rfl := hsame rfl
      exact h.quiet hpaired hplace nofun hs
  | started =>
    rw [hplace] at hnext hs
    cases hnext
    obtain rfl := hsame rfl
    exact h.quiet hpaired hplace nofun hs
  | raised =>
    rw [hplace] at hnext
    cases hnext
  | ready =>
    rw [hplace] at hnext
    cases hnext
    exact inv_create h hpaired hk hplace (hwork _ rfl)
  | created =>
    rw [hplace] at hnext
    obtain ⟨hw, hI⟩ := inv_begin h hpaired (hF a) hk hplace hF'a hnext
    exact hsame hw ▸ hI
  | listing last deviceList =>
    rw [hplace] at hnext
    obtain ⟨hw, hI⟩ := inv_list h hpaired (hF a) hk hplace hnext
    exact hsame hw ▸ hI
  | calling cs =>
    rw [hplace] at hnext
    cases cs with
    | nil => cases hnext
    | cons c cs =>
      cases hnext
      exact inv_call h hpaired hk hplace (hwork _ rfl)

/-! ### A step of the broker -/

theorem inv_drain (h : Inv P F s) {d : Requests.Drain} (hd : Requests.drain s.broker d = some b') :
    Inv P F { s with broker := b' } := by
  obtain ⟨htable, htasks, -, -, hheap⟩ := Requests.drain_frame hd
  obtain ⟨hbuilding, xs, hout, hsent⟩ := Requests.drain_sends hd
  have hresults : ∀ a, (b'.queue.heap a).results = (s.broker.queue.heap a).results := fun a => by
    obtain ⟨_, -, ha⟩ := hheap a
    rw [ha]
    rfl
  refine ⟨Requests.inv_drain h.broker hd, Requests.replied_drain h.broker h.replied hd, fun a => ?_,
    fun a => (h.stands a).congr (hresults a) (congrFun htasks a) (congrFun htable a),
    fun a hm => h.marked a ?_, fun a as i read hpc => ?_, fun x hx => ?_⟩
  · rw [Matched, htasks, htable]
    exact h.matched a
  · rcases hm with hdirty | hheld
    · obtain ⟨x, hdown, ha⟩ := hheap a
      rw [ha] at hdirty
      exact Or.inl (hdown hdirty)
    · exact held_drain hd hheld
  · rw [hresults]
    exact hbuilding a as i read hpc
  · rw [htable, hresults]
    rcases List.mem_append.mp (hout ▸ hx) with hx | hx
    · exact h.out x hx
    · obtain ⟨a, as, i, read, d, r, hpc, -, hr, rfl⟩ := hsent x hx
      -- both reads find the result as it stays
      obtain rfl := Option.some.inj ((h.building a as i read hpc).symm.trans hr)
      rw [encoded_self]
      refine ⟨fun hnil => ?_, h.final (Or.inr (by rw [hpc]; exact List.mem_cons_self)) hr⟩
      rw [hnil] at hr
      cases hr

/-- The broker has exported data of a device: a list that is being made stays between. -/
theorem inv_paired (h : Inv P F s) (deviceID : DeviceID) :
    Inv P F { s with handler := s.handler.addPairedDeviceID deviceID } :=
  { h with
    stands := fun a => by
      have hs := h.stands a
      cases hp : s.places a with
      | waiting | starting | started | raised | ready | created | calling =>
        rw [hp] at hs
        exact hs
      | listing last deviceList =>
        rw [hp] at hs
        obtain ⟨d, p, hd, hcmd, hfilling, f, hf, hswept⟩ := hs
        exact ⟨d, p, hd, hcmd, hfilling, f, hf, hswept.insert deviceID⟩ }

theorem inv_step (h : Inv P F s) (hF : ∀ c, F c (s.places c) s.handler) {l : Label V}
    (hl : (system P).step s l = some t) (hF' : ∀ c, F c (t.places c) t.handler) : Inv P F t := by
  cases l with
  | request manager id cmd =>
    obtain ⟨b', hw, rfl⟩ := Option.map_eq_some_iff.mp hl
    exact inv_request h hw
  | malformed =>
    obtain ⟨b', hw, rfl⟩ := Option.map_eq_some_iff.mp hl
    exact inv_malformed h hw
  | drain d =>
    obtain ⟨b', hd, rfl⟩ := Option.map_eq_some_iff.mp hl
    exact inv_drain h hd
  | run a raised => exact inv_run h hF hF' hl
  | paired deviceID =>
    cases hl
    exact inv_paired h deviceID

end

end FakeHandlerTest
end BeeeOn
