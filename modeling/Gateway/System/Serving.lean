import Gateway.System.Exchange
import Gateway.Zmq.HandlerReplies

/-! @src zmq/FakeHandlerTest.cpp, zmq/ZMQBroker.cpp, zmq/ZMQMessage.cpp, core/DeviceManager.h |
    name:Managers, broker and handler | family:distributed system

    The managers, the broker and the tasks of `FakeHandlerTest::handle` as one system, in which nothing
    is left open but the order of the steps, what is lost on the way and which devices the broker
    exports data of. A step is one of the network without a task of its own, or the next step of the task
    of an answer; seen from the broker it is a step of `FakeHandlerTest`, or none (`broker_step`).

    What a manager acts on, if anything has been set, is what `handle` tells it for its own request, whose
    entry the broker has: a list between the devices under the prefix that it asks for that were paired
    when the loop of the task began and those that were paired when it ended, or the last value of the
    device and the module that it asks for (`served`). An answer that is not filled in never reaches a
    device. -/

namespace BeeeOn
open Schemes
variable {V W : Type}

namespace Serving
open FakeHandlerTest (Place handlers)
open Network (Wired)

structure State (V W : Type) [LinearOrder DeviceID] where
  net : Network.State V W
  handler : FakeHandlerTest
  places : ℕ → Place V

inductive Label (V : Type) where
  /-- a step of the network other than of a task -/
  | network (l : Network.Label V)
  /-- the task of answer `a` goes on -/
  | run (a : ℕ) (raised : Bool)
  /-- the broker has exported data of the device -/
  | paired (deviceID : DeviceID)

section
variable [LinearOrder DeviceID] (B : Base V) (conv : V → W) (P : FakeHandlerTest.Platform V)

/-- The next step of the task of answer `a`. -/
def run (s : State V W) (a : ℕ) (raised : Bool) : Option (State V W) :=
  (s.net.broker.tasks a)[0]?.bind fun k =>
    (s.handler.next P a k.runner.cmd raised (s.places a)).bind fun x =>
      let t : State V W :=
        { s with
          handler := s.handler.settle (s.places a)
          places := Function.update s.places a x.2 }
      match x.1 with
      | some w => (Network.task handlers s.net w).map fun n => { t with net := n }
      | none => some t

def system : Lts (State V W) (Label V) where
  step s
    | .network (.task _) => none
    | .network l => ((Network.system B conv handlers).step s.net l).map fun n => { s with net := n }
    | .run a raised => run P s a raised
    | .paired deviceID => some { s with handler := s.handler.addPairedDeviceID deviceID }

def init (f : FakeHandlerTest) : State V W := ⟨Network.init, f, fun _ => .waiting⟩

/-- The system as it is at the broker. -/
def State.broker (s : State V W) : FakeHandlerTest.State V := ⟨s.net.broker, s.handler, s.places⟩

/-- What the manager hears for its command where `handle` says it, with `F` as in
    `FakeHandlerTest.Told`. -/
def Tells (F : Place V → FakeHandlerTest → Prop) : Command V → Payload V → Prop
  | .serverDeviceList p, .deviceList devices =>
    ∃ p', B.parseDevicePrefix (B.devicePrefixText p) = .ok p' ∧
      (∃ f, F (.listing none []) f ∧ (f.pairedDevices p').Sublist devices) ∧
      ∃ f last, F (.listing last devices) f ∧ devices.Sublist (f.pairedDevices p')
  | .serverLastValue d i, .lastValue (some v) => ∃ f i' x, F .created f ∧
      ModuleID.parse B i.toString = .ok i' ∧ f.lastValue P d i' = some (x, .success) ∧
      B.parseFloat (B.floatText x) = .ok v
  | _, _ => False

end

section
variable {B : Base V} {conv : V → W}

/-- What a step of the network other than of a task is for the broker. -/
theorem network_broker {n n' : Network.State V W} {l : Network.Label V} (hl : ∀ w, l ≠ .task w)
    (h : (Network.system B conv handlers).step n l = some n') : n'.broker = n.broker ∨
      (∃ manager id cmd, Requests.work handlers n.broker (.request manager id cmd) = some n'.broker) ∨
      Requests.work handlers n.broker .malformed = some n'.broker ∨
      ∃ d, Requests.drain n.broker d = some n'.broker := by
  cases l with
  | task w => exact absurd rfl (hl w)
  | manager k l =>
    left
    cases l with
    | receive m => cases h
    | _ =>
      obtain ⟨_, -, rfl⟩ := Option.map_eq_some_iff.mp h
      rfl
  | deliver k =>
    obtain ⟨m, -, h⟩ := Option.bind_eq_some_iff.mp h
    obtain ⟨_, -, rfl⟩ := Option.map_eq_some_iff.mp h
    exact Or.inl rfl
  | receive k =>
    simp only [Network.system, Network.receive] at h
    split at h
    · rename_i m hpc hm
      split at h
      · rename_i w hw
        obtain ⟨b, hb, rfl⟩ := Option.map_eq_some_iff.mp h
        rw [Network.handleDataMessage] at hw
        have hasked : ∀ {manager} {c : Except Exn (Command V)} {id : Except Exn GlobalID},
            Network.asked manager c id = w →
              (∃ manager id cmd, Requests.work handlers n.broker (.request manager id cmd) = some b) ∨
                Requests.work handlers n.broker .malformed = some b := by
          rintro manager (_ | cmd) (_ | id) rfl
          · exact Or.inr hb
          · exact Or.inr hb
          · exact Or.inr hb
          · exact Or.inl ⟨manager, id, cmd, hb⟩
        split at hw
        · exact (Or.inr ((hasked (Option.some.inj hw)).imp_right Or.inl))
        · exact (Or.inr ((hasked (Option.some.inj hw)).imp_right Or.inl))
        · cases hw
      · cases h
        exact Or.inl rfl
    · cases h
  | drain d unset =>
    obtain ⟨b, hb, rfl⟩ := Option.map_eq_some_iff.mp h
    exact Or.inr (Or.inr (Or.inr ⟨d, hb⟩))
  | command k m =>
    simp only [Network.system] at h
    split_ifs at h
    cases h
    exact Or.inl rfl
  | lost k | lostReply k =>
    cases h
    exact Or.inl rfl

/-- A task neither makes requests nor finds them malformed. -/
theorem task_broker {n n' : Network.State V W} {w : Requests.Work V}
    (h : Network.task handlers n w = some n') : Requests.work handlers n.broker w = some n'.broker := by
  have hwork : ∀ x, Option.map (n.brokers (.work w)) x = some n' → x = some n'.broker := by
    intro x hx
    obtain ⟨b, rfl, rfl⟩ := Option.map_eq_some_iff.mp hx
    rfl
  cases w with
  | request | malformed => cases h
  | create | setStatus | setPayload | notify | stop => exact hwork _ h

end

section
variable [LinearOrder DeviceID] {B : Base V} {conv : V → W} {P : FakeHandlerTest.Platform V}
variable {s t : State V W}

theorem network_cases {l : Network.Label V} (h : (system B conv P).step s (.network l) = some t) :
    (∀ w, l ≠ .task w) ∧ ∃ n, (Network.system B conv handlers).step s.net l = some n ∧
      t = { s with net := n } := by
  have hnot : ∀ w, l ≠ .task w := by
    rintro w rfl
    cases h
  have hstep : ((Network.system B conv handlers).step s.net l).map (fun n => { s with net := n }) =
      some t := by
    cases l with
    | task w => exact absurd rfl (hnot w)
    | _ => exact h
  obtain ⟨n, hn, rfl⟩ := Option.map_eq_some_iff.mp hstep
  exact ⟨hnot, n, hn, rfl⟩

theorem run_cases {a : ℕ} {raised : Bool} (h : run P s a raised = some t) : ∃ k w p n,
    (s.net.broker.tasks a)[0]? = some k ∧
    s.handler.next P a k.runner.cmd raised (s.places a) = some (w, p) ∧
      (w = none ∧ n = s.net ∨ ∃ w', w = some w' ∧ Network.task handlers s.net w' = some n) ∧
        t = ⟨n, s.handler.settle (s.places a), Function.update s.places a p⟩ := by
  obtain ⟨k, hk, h⟩ := Option.bind_eq_some_iff.mp h
  obtain ⟨⟨w, p⟩, hnext, h⟩ := Option.bind_eq_some_iff.mp h
  cases w with
  | none =>
    cases h
    exact ⟨k, none, p, s.net, hk, hnext, Or.inl ⟨rfl, rfl⟩, rfl⟩
  | some w =>
    obtain ⟨n, hn, rfl⟩ := Option.map_eq_some_iff.mp h
    exact ⟨k, some w, p, n, hk, hnext, Or.inr ⟨w, rfl, hn⟩, rfl⟩

/-- A step is one of the network, or leaves it as it is. -/
theorem network_step {l : Label V} (h : (system B conv P).step s l = some t) : t.net = s.net ∨
    ∃ l', (Network.system B conv handlers).step s.net l' = some t.net := by
  cases l with
  | network l =>
    obtain ⟨-, n, hn, rfl⟩ := network_cases h
    exact Or.inr ⟨l, hn⟩
  | run a raised =>
    obtain ⟨-, -, -, n, -, -, ⟨-, rfl⟩ | ⟨w, -, hn⟩, rfl⟩ := run_cases h
    · exact Or.inl rfl
    · exact Or.inr ⟨.task w, hn⟩
  | paired deviceID =>
    cases h
    exact Or.inl rfl

/-- Seen from the broker a step is one of the handler and the broker, or none. -/
theorem broker_step {l : Label V} (h : (system B conv P).step s l = some t) : t.broker = s.broker ∨
    ∃ l', (FakeHandlerTest.system P).step s.broker l' = some t.broker := by
  cases l with
  | network l =>
    obtain ⟨hnot, n, hn, rfl⟩ := network_cases h
    rcases network_broker hnot hn with heq | ⟨manager, id, cmd, hw⟩ | hw | ⟨d, hd⟩
    · exact Or.inl (by rw [State.broker, heq]; rfl)
    · exact Or.inr ⟨.request manager id cmd, Option.map_eq_some_iff.mpr ⟨_, hw, rfl⟩⟩
    · exact Or.inr ⟨.malformed, Option.map_eq_some_iff.mpr ⟨_, hw, rfl⟩⟩
    · exact Or.inr ⟨.drain d, Option.map_eq_some_iff.mpr ⟨_, hd, rfl⟩⟩
  | run a raised =>
    obtain ⟨k, w, p, n, hk, hnext, hcase, rfl⟩ := run_cases h
    refine Or.inr ⟨.run a raised, Option.bind_eq_some_iff.mpr ⟨k, hk, Option.bind_eq_some_iff.mpr
      ⟨(w, p), hnext, ?_⟩⟩⟩
    rcases hcase with ⟨rfl, rfl⟩ | ⟨w, rfl, hn⟩
    · rfl
    · exact Option.map_eq_some_iff.mpr ⟨_, task_broker hn, rfl⟩
  | paired deviceID =>
    cases h
    exact Or.inr ⟨.paired deviceID, rfl⟩

variable (B conv P) in
/-- The handler as it is at some time of the run when the task of answer `a` is at the place. -/
def Past (f₀ : FakeHandlerTest) (ls : List (Label V)) (a : ℕ) (p : Place V) (f : FakeHandlerTest) : Prop :=
  ∃ as bs t, ls = as ++ bs ∧ (system B conv P).run (init f₀) as = some t ∧ t.places a = p ∧ t.handler = f

variable {f₀ : FakeHandlerTest} {ls : List (Label V)}

/-- In every run the network is as it is without what is known of its tasks, and the broker and the
    handler are as they are without the managers. -/
theorem run_inv (hB : Wired B) (h : (system B conv P).run (init f₀) ls = some s) :
    Network.Inv B conv handlers s.net ∧ FakeHandlerTest.Inv P (Past B conv P f₀ ls) s.broker := by
  refine (system B conv P).run_hist (P := fun ls s => Network.Inv B conv handlers s.net ∧
    FakeHandlerTest.Inv P (Past B conv P f₀ ls) s.broker)
    ⟨Network.inv_init, FakeHandlerTest.inv_init f₀⟩ ?_ h
  intro ls t l u ht ⟨hN, hF⟩ hl
  constructor
  · rcases network_step hl with heq | ⟨l', hl'⟩
    · exact heq ▸ hN
    · exact hN.step hB hl'
  · have hu : (system B conv P).run (init f₀) (ls ++ [l]) = some u :=
      (system B conv P).run_concat_iff.mpr ⟨t, ht, hl⟩
    have hold : FakeHandlerTest.Inv P (Past B conv P f₀ (ls ++ [l])) t.broker :=
      hF.mono fun _ _ _ ⟨as, bs, v, hls, hrest⟩ =>
        ⟨as, bs ++ [l], v, by rw [hls, List.append_assoc], hrest⟩
    rcases broker_step hl with heq | ⟨l', hl'⟩
    · exact heq ▸ hold
    · exact FakeHandlerTest.inv_step hold (fun c => ⟨ls, [l], t, rfl, ht, rfl, rfl⟩) hl'
        fun c => ⟨ls ++ [l], [], u, (List.append_nil _).symm, hu, rfl, rfl⟩

/-- A success that is heard for a command is what the handler tells. -/
theorem tells_of_heard {F : Place V → FakeHandlerTest → Prop} {asked cmd : Command V} {r : Result V}
    {p : Payload V} (hread : asked.ReadAs B cmd) (hclass : asked.Answers p)
    (htold : FakeHandlerTest.Told P F cmd r) (hheard : Network.Heard B r.payload p)
    (hs : p.isLastValue = true → r.status = .success) : Tells B P F asked p := by
  cases asked with
  | serverDeviceList pre =>
    cases cmd <;> try exact hread.elim
    rename_i pre'
    cases p <;> try exact hclass.elim
    obtain ⟨deviceList, rfl, hlower, hupper⟩ := htold
    obtain rfl := hheard
    exact ⟨pre', hread, hlower, hupper⟩
  | serverLastValue d i =>
    cases cmd <;> try exact hread.elim
    rename_i d' i'
    obtain ⟨rfl, hi⟩ := hread
    cases p <;> try exact hclass.elim
    rename_i v
    have hsuccess := hs rfl
    obtain ⟨f, hf, rfl⟩ := htold
    rw [FakeHandlerTest.valueResult] at hheard hsuccess
    cases hx : f.lastValue P d' i' with
    | none =>
      rw [hx] at hsuccess
      cases hsuccess
    | some x =>
      obtain ⟨w, st⟩ := x
      rw [hx] at hheard hsuccess
      cases v with
      | none => exact hheard.elim
      | some v =>
        obtain rfl : st = .success := hsuccess
        exact ⟨f, i', w, hf, hi, hx, hheard⟩
  | gatewayListen | deviceSetValue | deviceUnpair | other => exact hclass.elim

/-- For every interleaving of managers, broker and handler, with any messages lost: what a manager acts
    on is the empty payload of a new result, or what `handle` tells it for its own request, which the
    broker has entered for an answer `b`, with the handler as it was when the task of `b` was there. -/
theorem served (hB : Wired B) (h : (system B conv P).run (init f₀) ls = some s) {k : DeviceManagerID}
    {a : ℕ} {p : Payload V} (ha : (a, p) ∈ (s.net.managers k).acted) :
    ∃ e ∈ (s.net.managers k).sent, e.answer = a ∧ ((p = .deviceList [] ∨ p = .lastValue none) ∨
      ∃ b cmd, s.net.broker.resultTable b = some ⟨e.id, k, cmd⟩ ∧
        Tells B P (Past B conv P f₀ ls b) e.cmd p) := by
  obtain ⟨hN, hF⟩ := run_inv hB h
  obtain ⟨e, he, hea, hclass, hp⟩ := hN.acted_heard hB ha
  refine ⟨e, he, hea, hp.imp_right ?_⟩
  rintro ⟨x, hx, cmd, hd, hread, hheard, hsucceeds⟩
  obtain ⟨-, d, hd', htold⟩ := hF.out x hx
  obtain rfl : _ = d := Option.some.inj (hd.symm.trans hd')
  refine ⟨x.answer, cmd, hd, tells_of_heard hread hclass htold hheard fun hv => ?_⟩
  obtain ⟨m, unset, hm, hs⟩ := hsucceeds hv
  exact Network.message_succeeds hB htold.status hm hs

end

/-! ### A request while devices are paired -/

open FakeHandlerTest (sampleDevice bare)
open Network (sampleID sample_wired)

local instance : LinearOrder DeviceID := Sample.order

def samplePlatform : FakeHandlerTest.Platform Reading := ⟨⟨0x09⟩, fun _ => .warm⟩

def sampleSystem : Lts (State Reading Reading) (Label Reading) :=
  system Sample.base (fun v => v) samplePlatform

/-- A manager asks for its devices; the loop has come to the device 5 when 3 and 7 are paired. -/
def sampleRun : List (Label Reading) :=
  let unset : Reading × SetStatus := (.nan, ⟨0⟩)
  ([.manager sampleID (.getDeviceList 0 ⟨7⟩ ⟨0xa8⟩), .manager sampleID (.insert 0),
      .receive sampleID] : List (Network.Label Reading)).map .network ++
    .paired (sampleDevice 5) :: List.replicate 6 (.run 0 false) ++
    .paired (sampleDevice 3) :: .paired (sampleDevice 7) :: List.replicate 4 (.run 0 false) ++
    ([.drain .begin unset, .drain .visit unset, .drain .endScan unset, .drain .pick unset,
      .drain .send unset, .deliver sampleID, .manager sampleID .handle, .manager sampleID .handle,
      .manager sampleID .handle, .manager sampleID .begin, .manager sampleID .visit,
      .manager sampleID .endScan, .manager sampleID .act] : List (Network.Label Reading)).map .network

/-- The manager takes 5 and 7 over. -/
theorem sample_served : ∃ s : State Reading Reading, sampleSystem.run (init bare) sampleRun = some s ∧
    ∃ e ∈ (s.net.managers sampleID).sent, e.answer = 0 ∧
      ∃ b cmd, s.net.broker.resultTable b = some ⟨e.id, sampleID, cmd⟩ ∧
        Tells Sample.base samplePlatform
          (Past Sample.base (fun v => v) samplePlatform bare sampleRun b) e.cmd
          (.deviceList [sampleDevice 5, sampleDevice 7]) := by
  obtain ⟨s, hs, hacted⟩ : ∃ s, sampleSystem.run (init bare) sampleRun = some s ∧
      (0, .deviceList [sampleDevice 5, sampleDevice 7]) ∈ (s.net.managers sampleID).acted :=
    ⟨_, rfl, List.mem_singleton_self _⟩
  obtain ⟨e, he, ha, (h | h) | h⟩ := served sample_wired hs hacted
  · cases h
  · cases h
  · exact ⟨s, hs, e, he, ha, h⟩

end Serving
end BeeeOn
