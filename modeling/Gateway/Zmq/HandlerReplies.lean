import Gateway.Model.Sample
import Gateway.Zmq.HandlerTasks

/-! @src zmq/FakeHandlerTest.cpp, core/CommandRunner.cpp, zmq/ZMQBroker.cpp |
    name:What the handler replies | family:request-reply

    Whatever the broker sends, and whenever it drains the queue, is the result that `handle` ends with
    (`replies_final`). The list of a reply may be one that the paired devices never were as a whole, since
    some can be paired behind and some ahead of the loop; but it has all that were paired when the loop
    began and none that was not paired when it ended.

    A task can go on until it ends, and then its request gets a final reply; but for a last value of a
    device of Z-Wave that the handler does not know, which gets none, and for a task whose timer could not
    be started, which gets no reply at all (`requests_answered`). -/

namespace BeeeOn
open Schemes AnswerQueue CommandDispatcher
variable {V : Type}

namespace FakeHandlerTest

section
variable [LinearOrder DeviceID] {P : Platform V} {F : ℕ → Place V → FakeHandlerTest → Prop}
variable {s : State V} {a : ℕ} {raised : Bool}

/-! ### Until the end -/

/-- A task takes its next step if what it does to the answer can be done. -/
theorem run_of_next {k : Requests.Task V} {w : Option (Requests.Work V)} {p : Place V}
    (hk : (s.broker.tasks a)[0]? = some k)
    (hnext : s.handler.next P a k.runner.cmd raised (s.places a) = some (w, p))
    (hw : ∀ w', w = some w' → ∃ b', Requests.work handlers s.broker w' = some b') :
    ∃ t, run P s a raised = some t := by
  rw [run, hk, Option.bind_some, hnext, Option.bind_some]
  cases w with
  | none => exact ⟨_, rfl⟩
  | some w =>
    obtain ⟨b', hb'⟩ := hw w rfl
    exact ⟨_, Option.map_eq_some_iff.mpr ⟨b', hb', rfl⟩⟩

/-- A task that has not ended can go on. -/
theorem Inv.goes_on (h : Inv P F s) {d : ResultData V} (hd : s.broker.resultTable a = some d)
    (hplace : s.places a ≠ .calling []) (hraised : s.places a ≠ .raised) (raised : Bool) :
    ∃ t, run P s a raised = some t := by
  rcases h.matched a with ⟨-, hnone⟩ | ⟨k, -, hone, -, -, -⟩
  · rw [hnone] at hd
    cases hd
  have hk : (s.broker.tasks a)[0]? = some k := by rw [hone]; rfl
  have hmem : k ∈ s.broker.tasks a := List.mem_of_getElem? hk
  have hnothing : ∀ w' : Requests.Work V, none = some w' → ∃ b', Requests.work handlers s.broker w' =
      some b' := fun w' hw' => by cases hw'
  have hs := h.stands a
  cases hp : s.places a with
  | waiting =>
    cases hc : k.runner.cmd <;> exact run_of_next hk (by rw [hp, hc]; rfl) hnothing
  | starting =>
    rw [hp] at hs
    cases raised with
    | true =>
      refine run_of_next hk (by rw [hp]; rfl) ?_
      rintro _ ⟨⟩
      exact stop_can hk (hs.1.1 k hmem) true
    | false => exact run_of_next hk (by rw [hp]; rfl) hnothing
  | started => exact run_of_next hk (by rw [hp]; rfl) hnothing
  | raised => exact absurd hp hraised
  | ready =>
    rw [hp] at hs
    refine run_of_next hk (by rw [hp]; rfl) ?_
    rintro _ ⟨⟩
    refine create_can hk ?_ (hs.1.1 k hmem) _
    -- there are as many results as tasks that have created theirs
    have hcount := (h.broker.counted a).2
    rw [hs.1.2, hone, List.countP_singleton] at hcount
    simpa using hcount
  | created =>
    cases hc : k.runner.cmd <;> exact run_of_next hk (by rw [hp, hc]; rfl) hnothing
  | listing last deviceList =>
    obtain ⟨p, hnext⟩ : ∃ p, s.handler.next P a k.runner.cmd raised (s.places a) = some (none, p) := by
      rw [hp]
      simp only [next]
      split <;> exact ⟨_, rfl⟩
    exact run_of_next hk hnext hnothing
  | calling cs =>
    cases cs with
    | nil => exact absurd hp hplace
    | cons c cs =>
      rw [hp] at hs
      obtain ⟨d', r, -, hsingle, hkept, -, hfits, -⟩ := hs
      obtain ⟨hresult, hended⟩ := hkept k hmem
      refine run_of_next hk (by rw [hp]; rfl) ?_
      rintro _ ⟨⟩
      refine call_can hk hresult ?_ (by rw [hsingle]; rfl) hfits
      cases he : k.ended with
      | false => rfl
      | true => cases hended he

/-- Once the queue has been drained, what has ended has been sent. -/
theorem Inv.sent (h : Inv P F s) (hdrained : Requests.Drained s.broker) {i : ℕ}
    (hended : Requests.Ended (s.broker.queue.heap a) i) :
    ∃ x ∈ s.broker.out, x.answer = a ∧ x.result.status.IsTerminal := by
  rcases h.replied.due a i hended with hdirty | hpromised | ⟨x, hx, hxa, -, hterminal⟩
  · -- an answer that there is is listed, and what is listed is clean
    have hlt : a < s.broker.queue.next := by
      by_contra hge
      rw [(h.broker.unborn a (not_lt.mp hge)).2.1] at hdirty
      cases hdirty
    rw [hdrained.2 a ((h.broker.listed a).mpr hlt)] at hdirty
    cases hdirty
  · rw [hdrained.1] at hpromised
    exact hpromised.elim
  · exact ⟨x, hx, hxa, hterminal⟩

end

section
variable [LinearOrder DeviceID] (P : Platform V)

/-- The handler as it is at some time of the run when the task of answer `a` is at the place. -/
def Past (f₀ : FakeHandlerTest) (ls : List (Label V)) (a : ℕ) (p : Place V) (f : FakeHandlerTest) : Prop :=
  ∃ as bs s, ls = as ++ bs ∧ (system P).run (init f₀) as = some s ∧ s.places a = p ∧ s.handler = f

variable {f₀ f : FakeHandlerTest} {ls : List (Label V)} {s : State V} {a : ℕ}

variable {P} in
theorem run_inv (h : (system P).run (init f₀) ls = some s) : Inv P (Past P f₀ ls) s := by
  refine (system P).run_hist (P := fun ls s => Inv P (Past P f₀ ls) s) (inv_init f₀) ?_ h
  intro ls t l u ht hI hl
  have hu : (system P).run (init f₀) (ls ++ [l]) = some u := (system P).run_concat_iff.mpr ⟨t, ht, hl⟩
  have hold : Inv P (Past P f₀ (ls ++ [l])) t := hI.mono fun _ _ _ ⟨as, bs, v, hls, hrest⟩ =>
    ⟨as, bs ++ [l], v, by rw [hls, List.append_assoc], hrest⟩
  exact inv_step hold (fun c => ⟨ls, [l], t, rfl, ht, rfl, rfl⟩) hl
    fun c => ⟨ls ++ [l], [], u, (List.append_nil _).symm, hu, rfl, rfl⟩

/-- For every interleaving of the broker and the tasks of `handle`: everything that the broker sends is
    the result that `handle` ends with for the command of its entry, with the handler as it was when its
    own task was there; it never sends one that is not filled in yet. -/
theorem replies_final (h : (system P).run (init f₀) ls = some s) {x : Reply V} (hx : x ∈ s.broker.out) :
    ∃ d, s.broker.resultTable x.answer = some d ∧
      Told P (Past P f₀ ls x.answer) d.cmd x.result :=
  ((run_inv h).out x hx).2

variable {P} in
/-- The steps of the system pair devices and start the action, which does not change what is known of last
    values. -/
theorem lastValue_past {p : Place V} (h : Past P f₀ ls a p f) : f.lastValue P = f₀.lastValue P := by
  obtain ⟨as, -, s, -, hs, -, rfl⟩ := h
  refine (system P).run_inv (P := fun s => s.handler.lastValue P = f₀.lastValue P) ?_ rfl hs
  rintro s l t heq hl
  cases l with
  | request | malformed | drain =>
    obtain ⟨b', -, rfl⟩ := Option.map_eq_some_iff.mp hl
    exact heq
  | run a raised =>
    obtain ⟨-, -, -, -, -, -, -, rfl⟩ := run_cases hl
    rw [← heq]
    cases s.places a <;> rfl
  | paired deviceID =>
    cases hl
    exact heq

/-- For every interleaving: the task of a request can go on until `handle` has ended, and when the queue
    has been drained then, the request has its final reply; but if it asks for a last value that the
    handler does not know, it has none at any time, and if `startAction` has raised, it has no reply. -/
theorem requests_answered (h : (system P).run (init f₀) ls = some s) {d : ResultData V}
    (hd : s.broker.resultTable a = some d) :
    (s.places a ≠ .calling [] → s.places a ≠ .raised →
      ∀ raised, ∃ t, (system P).step s (.run a raised) = some t) ∧
      (s.places a = .calling [] → Requests.Drained s.broker → f₀.Known P d.cmd →
        ∃ x ∈ s.broker.out, x.answer = a ∧ x.result.status.IsTerminal) ∧
      (¬ f₀.Known P d.cmd → ∀ x ∈ s.broker.out, x.answer = a → ¬ x.result.status.IsTerminal) ∧
      (s.places a = .raised → ∀ x ∈ s.broker.out, x.answer ≠ a) := by
  have hI := run_inv h
  have hpast : ∀ a p f, Past P f₀ ls a p f → f.lastValue P = f₀.lastValue P :=
    fun _ _ _ hf => lastValue_past hf
  refine ⟨hI.goes_on hd, fun hplace hdrained hknown => ?_, fun hunknown x hx hxa hterminal => ?_,
    fun hraised x hx hxa => ?_⟩
  · have hs := hI.stands a
    rw [hplace] at hs
    obtain ⟨d', r, hd', hsingle, -, -, -, htold⟩ := hs
    obtain rfl := Option.some.inj (hd.symm.trans hd')
    exact hI.sent hdrained (i := 0) ⟨r, by rw [hsingle]; rfl, (htold.terminal_iff (hpast a)).mpr hknown⟩
  · obtain ⟨-, d', hd', htold⟩ := hI.out x hx
    rw [hxa] at hd'
    obtain rfl := Option.some.inj (hd.symm.trans hd')
    exact hunknown ((htold.terminal_iff (hpast _)).mp hterminal)
  · have hs := hI.stands a
    rw [hraised] at hs
    exact (hI.out x hx).1 (hxa ▸ hs.1)

end

/-! ### A list that the set never was -/

local instance : LinearOrder DeviceID := Sample.order

/-- A device of a Z-Wave network. -/
def sampleDevice (n : BitVec 56) : DeviceID := ⟨⟨0xa8⟩, n⟩

/-- A platform with whole numbers for doubles. -/
def sample : Platform ℤ := ⟨⟨0x09⟩, id⟩

/-- A handler without a device that has its action to start. -/
def bare : FakeHandlerTest := ⟨none, none, 0, 0, none, none, none, 0, 0, 0, 0, .empty, true⟩

/-- The loop has come to the device 5 when the devices 3 and 7 are paired. -/
def sampleRun : List (Label ℤ) :=
  [.request ⟨0xa801⟩ ⟨7⟩ (.serverDeviceList ⟨0xa8⟩), .paired (sampleDevice 5)] ++
    List.replicate 6 (.run 0 false) ++ [.paired (sampleDevice 3), .paired (sampleDevice 7)] ++
    List.replicate 4 (.run 0 false) ++
    [.drain .begin, .drain .visit, .drain .endScan, .drain .pick, .drain .send]

/-- The reply lists 5 and 7. -/
theorem sample_reply_final : ∃ s x, (system sample).run (init bare) sampleRun = some s ∧
    x ∈ s.broker.out ∧ x.result = ⟨.success, .deviceList [sampleDevice 5, sampleDevice 7]⟩ ∧
    ∃ d, s.broker.resultTable x.answer = some d ∧
      Told sample (Past sample bare sampleRun x.answer) d.cmd x.result := by
  obtain ⟨s, hs, hout⟩ : ∃ s, (system sample).run (init bare) sampleRun = some s ∧
      s.broker.out = [⟨⟨0xa801⟩, ⟨7⟩, ⟨.success, .deviceList [sampleDevice 5, sampleDevice 7]⟩, 0, 0⟩] :=
    ⟨_, rfl, rfl⟩
  have hx : _ ∈ s.broker.out := hout ▸ List.mem_singleton_self _
  exact ⟨s, _, hs, hx, rfl, replies_final sample hs hx⟩

/-- The task ends, and the queue is drained. -/
def sampleRest : List (Label ℤ) := [.run 0 false, .drain .pick, .drain .leave]

/-- The request for the list then has its final reply. -/
theorem sample_requests_answered : ∃ s, (system sample).run (init bare)
      (sampleRun ++ sampleRest) = some s ∧
    ∃ x ∈ s.broker.out, x.answer = 0 ∧ x.result.status.IsTerminal := by
  obtain ⟨s, d, hs, hd, hplace, hdrained, hcmd⟩ : ∃ s d,
      (system sample).run (init bare) (sampleRun ++ sampleRest) = some s ∧
      s.broker.resultTable 0 = some d ∧ s.places 0 = .calling [] ∧ Requests.Drained s.broker ∧
      d.cmd = .serverDeviceList ⟨0xa8⟩ := ⟨_, _, rfl, rfl, rfl, ⟨rfl, by decide⟩, rfl⟩
  refine ⟨s, hs, (requests_answered sample hs hd).2.1 hplace hdrained fun e i h => ?_⟩
  rw [hcmd] at h
  cases h

end FakeHandlerTest
end BeeeOn
