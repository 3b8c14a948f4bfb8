import Gateway.Schemes.Sweep
import Gateway.Zmq.Replies

/-! @src zmq/FakeHandlerTest.cpp, core/CommandRunner.cpp, zmq/ZMQBroker.cpp |
    name:The handler of the requests | family:request-reply

    `FakeHandlerTest` stands in for the server: it is the handler to which the dispatcher gives the
    requests of the device managers (the broker, which is the other one, accepts none of them). Its
    `handle` creates one result, fills it in and ends; before the first device list it starts the timer
    of its own action, which may raise. The devices that it lists are those of its configuration and those
    that the broker has exported data of since: the thread of the broker inserts them without a lock, so
    the loop over them is a step for each. Here `handle` runs as the task of every answer beside the
    thread of the broker. Every task is started: a thread pool that is used up is not in these runs.

    This module has the system and what the calls of `handle` come to. -/

namespace BeeeOn
open Schemes AnswerQueue CommandDispatcher
variable {V : Type}

/-- The members of `FakeHandlerTest` that `handle` reads; `pairedDevice` is in the order of the ids. -/
structure FakeHandlerTest [LinearOrder DeviceID] where
  deviceAC881 : Option DeviceID
  deviceAC882 : Option DeviceID
  deviceAC881LastState : ℤ
  deviceAC882LastState : ℤ
  deviceAeotec : Option DeviceID
  deviceDLink : Option DeviceID
  devicePopp : Option DeviceID
  devicePoppLastState : ℤ
  deviceDLinkLastState : ℤ
  deviceAeotecPirSensorLastValue : ℤ
  deviceAeotecRefreshTimeLastValue : ℤ
  pairedDevice : OrderedSet DeviceID
  activeAction : Bool

namespace FakeHandlerTest

/-- What `handle` relies on: the prefix that is parsed from "Jablotron", and an `int` as a double. -/
structure Platform (V : Type) where
  jablotronPrefix : DevicePrefix
  double : ℤ → V

def accept : Command V → Bool
  | .serverDeviceList _ | .serverLastValue _ _ => true
  | _ => false

/-- What `handle` does with its result and at its end. -/
inductive Call (V : Type) where
  | setPayload (p : Payload V)
  | setStatus (s : Status)
  | notify
  | stop (raised : Bool)

/-- The result as its constructor leaves it. -/
def newPayload : Command V → Payload V
  | .serverDeviceList _ => .deviceList []
  | _ => .lastValue none

/-- The end of `handle` for a device list, with what `pairedDevices` has returned. -/
def listCalls (deviceList : List DeviceID) : List (Call V) :=
  [.setPayload (.deviceList deviceList), .setStatus .success, .stop false]

section
variable [LinearOrder DeviceID] (P : Platform V)

def addPairedDeviceID (f : FakeHandlerTest) (deviceID : DeviceID) : FakeHandlerTest :=
  { f with pairedDevice := f.pairedDevice.insert deviceID }

/-- What `pairedDevices` would return if nothing were inserted while it runs. -/
def pairedDevices (f : FakeHandlerTest) (p : DevicePrefix) : List DeviceID :=
  f.pairedDevice.list.filter (·.devicePrefix = p)

/-- The value and the status for a last value, where `handle` sets them. -/
def lastValue (f : FakeHandlerTest) (deviceID : DeviceID) (moduleID : ModuleID) : Option (V × Status) :=
  if deviceID.devicePrefix = P.jablotronPrefix then
    if f.deviceAC881 = some deviceID then some (P.double f.deviceAC881LastState, .success)
    else if f.deviceAC882 = some deviceID then some (P.double f.deviceAC882LastState, .success)
    else some (P.double 0, .failed)
  else if f.devicePopp = some deviceID then some (P.double f.devicePoppLastState, .success)
  else if f.deviceDLink = some deviceID then some (P.double f.deviceDLinkLastState, .success)
  else if f.deviceAeotec = some deviceID ∧ moduleID = ⟨6⟩ then
    some (P.double f.deviceAeotecPirSensorLastValue, .success)
  else if f.deviceAeotec = some deviceID ∧ moduleID = ⟨8⟩ then
    some (P.double f.deviceAeotecRefreshTimeLastValue, .success)
  else none

/-- The command does not ask for a last value that `handle` leaves unset. -/
def Known (f : FakeHandlerTest) (cmd : Command V) : Prop :=
  ∀ d i, cmd = .serverLastValue d i → f.lastValue P d i ≠ none

/-- `handle` for a last value, behind the constructor of the result. An unknown device of Jablotron fails
    and raises, for one of Z-Wave nothing is set. -/
def valueCalls (f : FakeHandlerTest) (d : DeviceID) (i : ModuleID) : List (Call V) :=
  match f.lastValue P d i with
  | some (v, st) => .setPayload (.lastValue (some v)) :: .setStatus st ::
    if st = .failed then [.stop true] else [.notify, .stop false]
  | none => [.notify, .stop false]

/-- The result that `handle` ends with for a last value. -/
def valueResult (f : FakeHandlerTest) (d : DeviceID) (i : ModuleID) : Result V :=
  match f.lastValue P d i with
  | some (v, st) => ⟨st, .lastValue (some v)⟩
  | none => .new (.lastValue none)

/-! ### The task -/

/-- Where the task of an answer is: it has not begun; it is to call `startAction`, which has then returned
    or raised; it is to create its result, and has created it; it has come to a device in the loop of
    `pairedDevices` and has found some; or it has these calls to do. -/
inductive Place (V : Type) where
  | waiting
  | starting
  | started
  | raised
  | ready
  | created
  | listing (last : Option DeviceID) (deviceList : List DeviceID)
  | calling (cs : List (Call V))

/-- The step of the task that the call is. -/
def Call.work (a : ℕ) : Call V → Requests.Work V
  | .setPayload p => .setPayload a 0 p
  | .setStatus s => .setStatus a 0 s
  | .notify => .notify a 0
  | .stop raised => .stop a 0 raised

/-- The handler behind a step of a task: `m_activeAction = false` once the action has been started. -/
def settle (f : FakeHandlerTest) : Place V → FakeHandlerTest
  | .started => { f with activeAction := false }
  | _ => f

/-- The next step of the task of answer `a`, if it does anything to the answer, and where the task is then;
    `raised` tells whether `startAction` raises if it is called. -/
def next (f : FakeHandlerTest) (a : ℕ) (cmd : Command V) (raised : Bool) :
    Place V → Option (Option (Requests.Work V) × Place V)
  | .waiting => match cmd with
    | .serverDeviceList _ => some (none, if f.activeAction then .starting else .ready)
    | _ => some (none, .ready)
  | .starting => if raised then some (some (.stop a 0 true), .raised) else some (none, .started)
  | .started => some (none, .ready)
  | .raised => none
  | .ready => some (some (.create a 0 (newPayload cmd)), .created)
  | .created => match cmd with
    | .serverDeviceList _ => some (none, .listing none [])
    | .serverLastValue d i => some (none, .calling (f.valueCalls P d i))
    | _ => some (none, .calling [])
  | .listing last deviceList => match cmd, f.pairedDevice.next last with
    | .serverDeviceList p, some deviceID => some (none, .listing (some deviceID)
        (if deviceID.devicePrefix = p then deviceList ++ [deviceID] else deviceList))
    | _, _ => some (none, .calling (listCalls deviceList))
  | .calling (c :: cs) => some (some (c.work a), .calling cs)
  | .calling [] => none

structure State (V : Type) [LinearOrder DeviceID] where
  broker : Requests.State V
  handler : FakeHandlerTest
  places : ℕ → Place V

/-- The steps of the thread of the broker, of the task of an answer, and of the broker where it has
    exported data of a device. -/
inductive Label (V : Type) where
  | request (manager : DeviceManagerID) (id : GlobalID) (cmd : Command V)
  | malformed
  | drain (d : Requests.Drain)
  | run (a : ℕ) (raised : Bool)
  | paired (deviceID : DeviceID)

def handlers : List (CommandHandler V) := [⟨0, accept⟩]

/-- A step of the task of answer `a`. -/
def run (s : State V) (a : ℕ) (raised : Bool) : Option (State V) :=
  (s.broker.tasks a)[0]?.bind fun k =>
    (s.handler.next P a k.runner.cmd raised (s.places a)).bind fun x =>
      let t : State V :=
        { s with
          handler := s.handler.settle (s.places a)
          places := Function.update s.places a x.2 }
      match x.1 with
      | some w => (Requests.work handlers s.broker w).map fun b => { t with broker := b }
      | none => some t

def system : Lts (State V) (Label V) where
  step s
    | .request manager id cmd =>
      (Requests.work handlers s.broker (.request manager id cmd)).map fun b => { s with broker := b }
    | .malformed => (Requests.work handlers s.broker .malformed).map fun b => { s with broker := b }
    | .drain d => (Requests.drain s.broker d).map fun b => { s with broker := b }
    | .run a raised => run P s a raised
    | .paired deviceID => some { s with handler := s.handler.addPairedDeviceID deviceID }

def init (f : FakeHandlerTest) : State V := ⟨Requests.init, f, fun _ => .waiting⟩

end

/-! ### What is left to do -/

/-- What a call does to the result. -/
def Call.apply : Call V → Result V → Result V
  | .setPayload p, r => { r with payload := p }
  | .setStatus st, r => if r.status.raw < st.raw then { r with status := st } else r
  | .notify, r | .stop _, r => r

/-- The result after the calls. -/
def after (cs : List (Call V)) (r : Result V) : Result V := cs.foldl (fun r c => c.apply r) r

/-- The call leaves the result as it is. -/
def Call.Silent : Call V → Prop
  | .setPayload _ | .setStatus _ => False
  | .notify | .stop _ => True

/-- Behind a call that may mark the answer, the result stays as it is. -/
def Tidy : List (Call V) → Prop
  | [] => True
  | .setPayload _ :: cs | .stop _ :: cs => Tidy cs
  | .setStatus _ :: cs | .notify :: cs => ∀ c ∈ cs, c.Silent

/-- The calls can be made on a result with this payload: its class stays, statuses are final, and the end
    is the end. -/
def Fits (p : Payload V) : List (Call V) → Prop
  | [] => True
  | .setPayload q :: cs => Requests.SameClass p q ∧ Fits q cs
  | .setStatus st :: cs => st.IsTerminal ∧ Fits p cs
  | .notify :: cs => Fits p cs
  | .stop _ :: cs => cs = []

theorem Fits.tail {c : Call V} {cs : List (Call V)} {r : Result V} (h : Fits r.payload (c :: cs)) :
    Fits (c.apply r).payload cs := by
  cases c with
  | setPayload p => exact h.2
  | setStatus st =>
    rw [Call.apply]
    split_ifs <;> exact h.2
  | notify => exact h
  | stop raised =>
    obtain rfl : cs = [] := h
    trivial

theorem after_silent {cs : List (Call V)} (h : ∀ c ∈ cs, c.Silent) (r : Result V) : after cs r = r := by
  induction cs with
  | nil => rfl
  | cons c cs ih =>
    have hrest := ih fun c' hc => h c' (List.mem_cons_of_mem c hc)
    cases c with
    | setPayload | setStatus => exact (h _ List.mem_cons_self).elim
    | notify | stop => exact hrest

theorem tidy_of_silent {cs : List (Call V)} (h : ∀ c ∈ cs, c.Silent) : Tidy cs := by
  induction cs with
  | nil => trivial
  | cons c cs ih =>
    have hrest : ∀ c ∈ cs, c.Silent := fun c' hc => h c' (List.mem_cons_of_mem c hc)
    cases c with
    | setPayload | stop => exact ih hrest
    | setStatus | notify => exact hrest

theorem Tidy.tail {c : Call V} {cs : List (Call V)} (h : Tidy (c :: cs)) : Tidy cs := by
  cases c with
  | setPayload | stop => exact h
  | setStatus | notify => exact tidy_of_silent h

theorem tidy_listCalls (deviceList : List DeviceID) : Tidy (listCalls deviceList : List (Call V)) := by
  simp [listCalls, Tidy, Call.Silent]

theorem fits_listCalls (p : DevicePrefix) (deviceList : List DeviceID) :
    Fits (newPayload (.serverDeviceList p)) (listCalls deviceList : List (Call V)) := by
  simp [listCalls, Fits, newPayload, Requests.SameClass, Status.IsTerminal]

theorem after_listCalls (p : DevicePrefix) (deviceList : List DeviceID) :
    after (listCalls deviceList) (.new (newPayload (.serverDeviceList p)) : Result V) =
      ⟨.success, .deviceList deviceList⟩ := rfl

section
variable [LinearOrder DeviceID] (P : Platform V)

theorem tidy_valueCalls (f : FakeHandlerTest) (d : DeviceID) (i : ModuleID) :
    Tidy (f.valueCalls P d i) := by
  unfold valueCalls
  split
  · split_ifs <;> simp [Tidy, Call.Silent]
  · simp [Tidy, Call.Silent]

/-- Statuses that `handle` sets are final. -/
theorem lastValue_terminal {f : FakeHandlerTest} {d : DeviceID} {i : ModuleID} {x : V × Status}
    (h : f.lastValue P d i = some x) : x.2.IsTerminal := by
  unfold lastValue at h
  split_ifs at h <;> cases h <;> simp [Status.IsTerminal]

theorem fits_valueCalls (f : FakeHandlerTest) (d : DeviceID) (i : ModuleID) :
    Fits (newPayload (.serverLastValue d i)) (f.valueCalls P d i) := by
  unfold valueCalls
  split
  · rename_i h
    have hst := lastValue_terminal P h
    split_ifs <;> simpa [Fits, newPayload, Requests.SameClass] using hst
  · simp [Fits]

theorem after_valueCalls (f : FakeHandlerTest) (d : DeviceID) (i : ModuleID) :
    after (f.valueCalls P d i) (.new (newPayload (.serverLastValue d i))) = f.valueResult P d i := by
  rw [valueCalls, valueResult]
  cases h : f.lastValue P d i with
  | none => rfl
  | some x =>
    rcases lastValue_terminal P h with hst | hst <;> simp only [hst] <;> rfl

/-! ### What is told -/

/-- What `handle` ends with for a command, where `F` says how the handler was when the task was at a place:
    a list of all devices under the prefix that were paired when the loop began, with others that were
    paired when it ended; or the value that is configured. -/
def Told (F : Place V → FakeHandlerTest → Prop) : Command V → Result V → Prop
  | .serverDeviceList p, r => ∃ deviceList, r = ⟨.success, .deviceList deviceList⟩ ∧
    (∃ f, F (.listing none []) f ∧ (f.pairedDevices p).Sublist deviceList) ∧
    ∃ f last, F (.listing last deviceList) f ∧ deviceList.Sublist (f.pairedDevices p)
  | .serverLastValue d i, r => ∃ f, F .created f ∧ r = f.valueResult P d i
  | _, _ => False

section
variable {P} {F G : Place V → FakeHandlerTest → Prop} {cmd : Command V} {r : Result V}

theorem Told.mono (h : Told P F cmd r) (hFG : ∀ p f, F p f → G p f) : Told P G cmd r := by
  cases cmd with
  | serverDeviceList p =>
    obtain ⟨deviceList, hr, ⟨f, hf, hlower⟩, g, last, hg, hupper⟩ := h
    exact ⟨deviceList, hr, ⟨f, hFG _ _ hf, hlower⟩, g, last, hFG _ _ hg, hupper⟩
  | serverLastValue d i =>
    obtain ⟨f, hf, hr⟩ := h
    exact ⟨f, hFG _ _ hf, hr⟩
  | gatewayListen | deviceSetValue | deviceUnpair | other => exact h.elim

/-- The status is final, but for a last value that the handler does not know. -/
theorem Told.terminal_iff (h : Told P F cmd r) {f₀ : FakeHandlerTest}
    (hF : ∀ p f, F p f → f.lastValue P = f₀.lastValue P) :
    r.status.IsTerminal ↔ f₀.Known P cmd := by
  cases cmd with
  | serverDeviceList p =>
    obtain ⟨deviceList, rfl, -⟩ := h
    exact ⟨fun _ _ _ h => (by cases h), fun _ => Or.inl rfl⟩
  | serverLastValue e i =>
    obtain ⟨f, hf, rfl⟩ := h
    rw [Known, ← hF _ _ hf, valueResult]
    cases hv : f.lastValue P e i with
    | none =>
      refine ⟨fun ht => ?_, fun hall => absurd hv (hall e i rfl)⟩
      rcases ht with ht | ht <;> cases ht
    | some x =>
      refine ⟨?_, fun _ => lastValue_terminal P hv⟩
      rintro - _ _ ⟨⟩
      rw [hv]
      exact Option.some_ne_none x
  | gatewayListen | deviceSetValue | deviceUnpair | other => exact h.elim

theorem Told.status (h : Told P F cmd r) : r.status = .pending ∨ r.status.IsTerminal := by
  cases cmd with
  | serverDeviceList p =>
    obtain ⟨deviceList, rfl, -⟩ := h
    exact Or.inr (Or.inl rfl)
  | serverLastValue d i =>
    obtain ⟨f, -, rfl⟩ := h
    rw [valueResult]
    cases hv : f.lastValue P d i with
    | none => exact Or.inl rfl
    | some x => exact Or.inr (lastValue_terminal P hv)
  | gatewayListen | deviceSetValue | deviceUnpair | other => exact h.elim

end
end

/-! ### The work of a task -/

section
variable {b b' : Requests.State V} {a : ℕ} {k : Requests.Task V}

theorem replied_init : Requests.Replied (Requests.init : Requests.State V) where
  owner _ h := by cases h
  ended _ h := by cases h
  read _ _ _ _ h := by cases h
  due a j h := by
    obtain ⟨r, hr, -⟩ := h
    exact absurd hr (by simp [Requests.init, AnswerQueue.empty, Answer.fresh])

/-- What has a result keeps it. -/
theorem results_kept (hI : Requests.Inv b) (hf : Requests.Frame b b')
    (h : (b.queue.heap a).results ≠ []) : (b'.queue.heap a).results ≠ [] := by
  have hlt : a < b.queue.next := by
    by_contra hge
    exact h (hI.unborn a (not_lt.mp hge)).1
  obtain ⟨r, rs, hr⟩ := List.exists_cons_of_ne_nil h
  obtain ⟨r', hr', -⟩ := (hf.evolves a hlt).kept 0 r (by rw [hr]; rfl)
  rintro hnil
  rw [hnil] at hr'
  cases hr'

/-- A new answer with its task. -/
theorem doCommand_new (b : Requests.State V) (manager : DeviceManagerID) (id : GlobalID)
    {cmd : Command V} (hcmd : accept cmd = true) :
    (Requests.doCommand handlers b manager id cmd).tasks b.queue.next =
        [⟨⟨cmd, b.queue.next, 0⟩, none, false⟩] ∧
      (Requests.doCommand handlers b manager id cmd).resultTable b.queue.next =
        some ⟨id, manager, cmd⟩ ∧
      ((Requests.doCommand handlers b manager id cmd).queue.heap b.queue.next).results = [] ∧
      ((Requests.doCommand handlers b manager id cmd).queue.heap b.queue.next).dirty = false := by
  simp [Requests.doCommand, dispatch, handlers, offer, hcmd, addCommand, startOrNotify, runCommands,
    newAnswer_heap, Answer.fresh, Answer.isPending]

/-- The task creates its result. -/
theorem work_create {p : Payload V} (hk : b.tasks a = [k]) (hr : (b.queue.heap a).results = [])
    (hw : Requests.work handlers b (.create a 0 p) = some b') :
    (∀ c ≠ a, b'.queue.heap c = b.queue.heap c ∧ b'.tasks c = b.tasks c) ∧
      (∃ k', b'.tasks a = [k'] ∧ k'.runner = k.runner ∧ k'.result = some 0 ∧ k'.ended = false) ∧
      b'.queue.heap a = (b.queue.heap a).addResult (.new p) ∧ b'.resultTable = b.resultTable := by
  simp only [Requests.work] at hw
  split at hw <;> cases hw
  rename_i c e hlive
  have hget := Requests.liveTask_eq hlive
  rw [hk, List.getElem?_cons_zero] at hget
  cases hget
  refine ⟨fun c hc => ⟨?_, Function.update_of_ne hc _ _⟩, ⟨⟨c, some 0, false⟩, ?_, rfl, rfl, rfl⟩,
    ?_, rfl⟩
  · rw [addResult_heap, if_neg hc]
  · simp [hk, hr]
  · rw [addResult_heap, if_pos rfl]

theorem eq_of_liveTask {k' : Requests.Task V} (hk : b.tasks a = [k])
    (hlive : Requests.liveTask b a 0 = some k') : k' = k := by
  have hget := Requests.liveTask_eq hlive
  rw [hk, List.getElem?_cons_zero] at hget
  exact (Option.some.inj hget).symm

/-- The task ends. -/
theorem work_stop {raised : Bool} (hk : b.tasks a = [k])
    (hw : Requests.work handlers b (.stop a 0 raised) = some b') :
    (∀ c ≠ a, b'.tasks c = b.tasks c) ∧ b'.tasks a = [{ k with ended := true }] ∧
      b'.queue = b.queue ∧ b'.resultTable = b.resultTable := by
  simp only [Requests.work] at hw
  split at hw <;> cases hw
  rename_i k' hl
  obtain rfl := eq_of_liveTask hk hl
  exact ⟨fun c hc => Function.update_of_ne hc _ _, by simp [hk], rfl, rfl⟩

/-- What a call of the task does: it changes the result as it does, and marks the answer only if the result
    then stays. -/
structure Called (b b' : Requests.State V) (a : ℕ) (k : Requests.Task V) (c : Call V) (r : Result V) :
    Prop where
  other : ∀ d ≠ a, b'.queue.heap d = b.queue.heap d ∧ b'.tasks d = b.tasks d
  task : ∃ k', b'.tasks a = [k'] ∧ k'.runner = k.runner ∧ k'.result = some 0 ∧
    (k'.ended = true → k.ended = true ∨ ∃ raised, c = .stop raised)
  results : (b'.queue.heap a).results = [c.apply r]
  table : b'.resultTable = b.resultTable
  marks : (b'.queue.heap a).dirty = true → (b.queue.heap a).dirty = true ∨
    ∀ cs, Tidy (c :: cs) → ∀ c ∈ cs, c.Silent

theorem called_setPayload {p : Payload V} {r : Result V} (hk : b.tasks a = [k])
    (hresult : k.result = some 0) (hr : (b.queue.heap a).results = [r])
    (hw : Requests.work handlers b (.setPayload a 0 p) = some b') :
    Called b b' a k (.setPayload p) r := by
  have hget : (b.queue.heap a).results[0]? = some r := by rw [hr]; rfl
  simp only [Requests.work] at hw
  split at hw <;> try cases hw
  rename_i i e hl
  obtain rfl := eq_of_liveTask hk hl
  obtain rfl := Option.some.inj hresult
  simp only [hget] at hw
  split_ifs at hw
  cases hw
  have hheap : ∀ c, (b.queue.setPayload a 0 p).heap c =
      if c = a then (b.queue.heap a).setResult 0 { r with payload := p } else b.queue.heap c := by
    intro c
    rw [AnswerQueue.setPayload, hget]
    exact modify_heap _ _ _ _
  refine ⟨fun c hc => ⟨by rw [hheap, if_neg hc], rfl⟩, ⟨_, hk, rfl, rfl, Or.inl⟩, ?_, rfl, ?_⟩
  · rw [hheap, if_pos rfl, Answer.setResult, hr]
    rfl
  · rw [hheap, if_pos rfl]
    exact Or.inl

theorem called_setStatus {st : Status} {r : Result V} (hk : b.tasks a = [k])
    (hresult : k.result = some 0) (hr : (b.queue.heap a).results = [r])
    (hw : Requests.work handlers b (.setStatus a 0 st) = some b') :
    Called b b' a k (.setStatus st) r := by
  have hget : (b.queue.heap a).results[0]? = some r := by rw [hr]; rfl
  simp only [Requests.work] at hw
  split at hw <;> try cases hw
  rename_i i e hl
  obtain rfl := eq_of_liveTask hk hl
  obtain rfl := Option.some.inj hresult
  split_ifs at hw
  cases hw
  refine ⟨fun c hc => ⟨?_, rfl⟩, ⟨_, hk, rfl, rfl, Or.inl⟩, ?_, rfl, fun _ => Or.inr fun cs hcs => hcs⟩
  · rcases b.queue.afterSetStatus_cases a 0 st with ⟨heq, -⟩ | ⟨_, _, _, heq⟩ <;> rw [heq]
    rw [setStatus_heap, if_neg hc]
  · rcases b.queue.afterSetStatus_cases a 0 st with ⟨heq, hle⟩ | ⟨r', hr', hlt, heq⟩ <;> rw [heq]
    · rw [hr, Call.apply, if_neg (not_lt.mpr (hle r hget))]
    · obtain rfl := Option.some.inj (hget.symm.trans hr')
      rw [setStatus_heap, if_pos rfl, Answer.setDirty, Answer.setResult, hr, Call.apply, if_pos hlt]
      rfl

theorem called {c : Call V} {r : Result V} (hk : b.tasks a = [k]) (hresult : k.result = some 0)
    (hr : (b.queue.heap a).results = [r]) (hw : Requests.work handlers b (c.work a) = some b') :
    Called b b' a k c r := by
  cases c with
  | setPayload p => exact called_setPayload hk hresult hr hw
  | setStatus st => exact called_setStatus hk hresult hr hw
  | notify =>
    simp only [Call.work, Requests.work] at hw
    split at hw <;> cases hw
    rename_i k' hl
    obtain rfl := eq_of_liveTask hk hl
    refine ⟨fun c hc => ⟨by rw [notifyUpdated_heap, if_neg hc], rfl⟩, ⟨_, hk, rfl, hresult, Or.inl⟩,
      ?_, rfl, fun _ => Or.inr fun cs hcs => hcs⟩
    rw [notifyUpdated_heap, if_pos rfl]
    exact hr
  | stop raised =>
    obtain ⟨hother, hone, hqueue, htable⟩ := work_stop hk hw
    refine ⟨fun c hc => ⟨by rw [hqueue], hother c hc⟩, ⟨{ k with ended := true }, hone, rfl, hresult,
      fun _ => Or.inr ⟨raised, rfl⟩⟩, ?_, htable, ?_⟩ <;> rw [hqueue]
    · exact hr
    · exact Or.inl

/-- A live task has no result yet and can create one. -/
theorem create_can (hk : (b.tasks a)[0]? = some k) (hresult : k.result = none) (hended : k.ended = false)
    (p : Payload V) : ∃ b', Requests.work handlers b (.create a 0 p) = some b' := by
  obtain ⟨runner, result, ended⟩ := k
  obtain rfl : result = none := hresult
  obtain rfl : ended = false := hended
  simp only [Requests.work, Requests.liveTask, hk, Option.filter_some, Bool.not_false, if_true]
  exact ⟨_, rfl⟩

/-- A live task can end. -/
theorem stop_can (hk : (b.tasks a)[0]? = some k) (hended : k.ended = false) (raised : Bool) :
    ∃ b', Requests.work handlers b (.stop a 0 raised) = some b' := by
  obtain ⟨runner, result, ended⟩ := k
  obtain rfl : ended = false := hended
  simp only [Requests.work, Requests.liveTask, hk, Option.filter_some, Bool.not_false, if_true]
  exact ⟨_, rfl⟩

/-- A task that has a result can make every call that fits it. -/
theorem call_can {r : Result V} {c : Call V} {cs : List (Call V)} (hk : (b.tasks a)[0]? = some k)
    (hresult : k.result = some 0) (hended : k.ended = false)
    (hr : (b.queue.heap a).results[0]? = some r) (hfits : Fits r.payload (c :: cs)) :
    ∃ b', Requests.work handlers b (c.work a) = some b' := by
  have hlive : Requests.liveTask b a 0 = some k := by
    rw [Requests.liveTask, hk, Option.filter_some, hended]
    rfl
  obtain ⟨runner, result, ended⟩ := k
  obtain rfl : result = some 0 := hresult
  cases c with
  | setPayload p =>
    simp only [Call.work, Requests.work, hlive, hr, if_pos hfits.1]
    exact ⟨_, rfl⟩
  | setStatus st =>
    simp only [Call.work, Requests.work, hlive, if_pos (Or.inr hfits.1)]
    exact ⟨_, rfl⟩
  | notify =>
    simp only [Call.work, Requests.work, hlive]
    exact ⟨_, rfl⟩
  | stop raised => exact stop_can hk hended raised

end

end FakeHandlerTest
end BeeeOn
