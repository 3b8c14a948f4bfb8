import Gateway.Jablotron.Switch
import Gateway.Managers.Batch
import Gateway.Zmq.Client
import Gateway.Zmq.ResultRoundTrip
import Gateway.ZWave.Actuators

/-! @src zmq/ZMQClient.cpp, jablotron/JablotronDeviceManager.cpp, z-wave/ZWaveDeviceManager.cpp |
    name:What a device manager receives | family:error handling

    The client thread hands every message with a known type to `onEvent` of its manager, in the same
    call. Only the type is read under a `try`: what a handler raises, for an attribute that is missing,
    a timer that does not start or a library that does not know a node, leaves `dataServerReceive` and
    ends the thread. So the thread survives a string exactly if its handler finds all it needs
    (`survives_iff`). The two managers share the handlers but for what a `Kind` says. Here a reply is
    handled in one go; `receive_reply` ties that to the steps of `DeviceManager.system`. -/

namespace BeeeOn
open Schemes
variable {V W D ν : Type}

namespace Receiving
open DeviceManager (Entry newResult decoder decoder_cases)
open ZMQBroker (parsed)

/-- A manager as its client thread finds it: `m_queue`, `m_table`, the paired devices, the listening, the
    timer `m_derefUnpair` and what has become of the devices. -/
structure State (V D : Type) where
  queue : AnswerQueue V
  table : List (Entry V)
  devices : Finset DeviceID
  window : Window
  unpair : Timer
  device : D

/-- In what the managers differ: what is called after the timer of the listening has been started, what
    unpairing does beside the set of devices, and setting a value on a device. The last two come with the
    condition under which they go well. -/
structure Kind (V D : Type) where
  addNode : Option Exn
  startUnpair : Timer → Except Exn Timer
  setValue : DeviceID → ModuleID → V → D → Except Exn Unit × D
  Unpairs : Timer → Prop
  Sets : DeviceID → ModuleID → V → Prop
  startUnpair_iff : ∀ t, (∃ u, startUnpair t = .ok u) ↔ Unpairs t
  setValue_iff : ∀ d m v x, (setValue d m v x).1 = .ok () ↔ Sets d m v

variable (B : Base V) (K : Kind V D)

/-! ### The handlers -/

-- A decoder returns a command of its own class; a cast to it of any other would be a null pointer.

/-- The loop of `doDeviceListResult` and `doDeviceLastValueResult` over `m_table`. -/
def doResult (m : ZMQMessage) : List (Entry V) → AnswerQueue V → Except Exn Unit × AnswerQueue V
  | [], q => (.ok (), q)
  | item :: table, q => match m.id B with
    | .error e => (.error e, q)
    | .ok id =>
      if item.id = id then
        match Broker.decode (q.addResult item.answer (newResult B m)) item.answer
            (q.heap item.answer).results.length (decoder B m) with
        | (.ok _, q) => doResult m table q
        | (.error e, q) => (.error e, q)
      else doResult m table q

/-- `Except.ok` without an exception. -/
def raising : Option Exn → Except Exn Unit
  | none => .ok ()
  | some e => .error e

theorem raising_eq_ok {o : Option Exn} : raising o = .ok () ↔ o = none := by
  cases o with
  | none => exact iff_of_true rfl rfl
  | some e => exact iff_of_false nofun nofun

def doListenCommand (s : State V D) (m : ZMQMessage) : Except Exn Unit × State V D :=
  match m.toGatewayListenCommand B with
  | .ok (.gatewayListen duration) =>
    let window := s.window.doListenCommand (0 ≤ ·) duration
    (if window.raised = s.window.raised then raising K.addNode else .error .other,
      { s with window := window })
  | .ok _ => (.error .nullPointer, s)
  | .error e => (.error e, s)

def doDeviceUnpairCommand (s : State V D) (m : ZMQMessage) : Except Exn Unit × State V D :=
  match m.toDeviceUnpairCommand B with
  | .ok (.deviceUnpair deviceID) =>
    let t := { s with devices := s.devices.erase deviceID }
    match K.startUnpair s.unpair with
    | .ok timer => (.ok (), { t with unpair := timer })
    | .error e => (.error e, t)
  | .ok _ => (.error .nullPointer, s)
  | .error e => (.error e, s)

/-- `doSetValuesCommand`, or `doSetValueCommand`. -/
def doSetValueCommand (s : State V D) (m : ZMQMessage) : Except Exn Unit × State V D :=
  match m.toDeviceSetValueCommand B with
  | .ok (.deviceSetValue deviceID moduleID value _) =>
    let r := K.setValue deviceID moduleID value s.device
    (r.1, { s with device := r.2 })
  | .ok _ => (.error .nullPointer, s)
  | .error e => (.error e, s)

def onEvent (s : State V D) (m : ZMQMessage) : Except Exn Unit × State V D :=
  match m.type B with
  | .ok .deviceListResult | .ok .deviceLastValueResult =>
    let r := doResult B m s.table s.queue
    (r.1, { s with queue := r.2 })
  | .ok .listenCmd => doListenCommand B K s m
  | .ok .deviceUnpairCmd => doDeviceUnpairCommand B K s m
  | .ok .setValuesCmd => doSetValueCommand B K s m
  | .ok _ => (.ok (), s)
  | .error e => (.error e, s)

/-- `dataServerReceive` of a client with the handler `onEvent`. -/
def dataServerReceive (p : DevicePrefix) (s : State V D) (c : ZMQClient.State) (json : String) :
    Except Exn Unit :=
  (ZMQClient.dataServerReceive ⟨B, p, fun m => (onEvent B K s m).1⟩ c json).1

/-! ### The two managers -/

/-- `setSwitch` with the low 16 bits of the value; it raises nothing, whatever the writes return. -/
def jablotron (P : JablotronDeviceManager.Platform V)
    (devices : List JablotronDeviceManager.JablotronSerialNumber) (toShort : V → BitVec 16)
    (written : ℕ → ℤ) : Kind V JablotronDeviceManager.Outputs where
  addNode := none
  startUnpair t := .ok t
  setValue d _ v x :=
    (.ok (), JablotronDeviceManager.setSwitch P devices ⟨d, toShort v, written⟩ x)
  Unpairs _ := True
  Sets _ _ _ := True
  startUnpair_iff t := iff_of_true ⟨t, rfl⟩ trivial
  setValue_iff _ _ _ _ := iff_of_true rfl trivial

/-- What the calls of the Z-Wave library raise or return for the home id that the manager has by now;
    before the library has been created they are calls on a null pointer. `unset` is what a variable holds
    that no parse has set. -/
structure Controller where
  addNode : Option Exn
  removeNode : Option Exn
  manufacturerId : BitVec 8 → Except Exn String
  productId : BitVec 8 → Except Exn String
  unset : ℕ

section
variable (C : Controller) (L : ZWaveMessage.Library V ν) (nodes : NotificationProcessor.NodeInfoMap ν)

/-- Only the exceptions of the parses are caught: what follows one is not set. -/
def manufacturerAndProduct (node : BitVec 8) : Except Exn (ℕ × ℕ) := do
  match B.parseHex (← C.manufacturerId node) with
  | .error _ => return (C.unset, C.unset)
  | .ok manufacturer =>
    match B.parseHex (← C.productId node) with
    | .error _ => return (manufacturer, C.unset)
    | .ok product => return (manufacturer, product)

/-- With a library that raises nothing it is what `checkQueue` does. -/
theorem manufacturerAndProduct_ok (N : DeviceManager.Network V) (addNode removeNode : Option Exn)
    (node : BitVec 8) :
    manufacturerAndProduct B ⟨addNode, removeNode, fun n => .ok (N.manufacturerId n),
      fun n => .ok (N.productId n), N.unset⟩ node = .ok (DeviceManager.manufacturerAndProduct B N node) := by
  simp only [manufacturerAndProduct, DeviceManager.manufacturerAndProduct, bind, Except.bind]
  cases B.parseHex (N.manufacturerId node) with
  | error e => rfl
  | ok manufacturer => cases B.parseHex (N.productId node) <;> rfl

/-- The class of the product of a node. -/
def nodeProduct (node : BitVec 8) : Except Exn ZWaveProduct := do
  let numbers ← manufacturerAndProduct B C node
  GenericZWaveMessageFactory.create numbers.1 numbers.2

/-- What `doSetValueCommand` of the Z-Wave manager passes to the library, and what it raises. -/
def setNodeValue (d : DeviceID) (m : ModuleID) (v : V) : ZWaveMessage.Outcome ν :=
  match nodeProduct B C (DeviceManager.nodeId d) with
  | .error e => ([], some e)
  | .ok product => ZWaveMessage.setValue B L nodes (DeviceManager.nodeId d) product [⟨m, v, true⟩]

/-- The product of the node is known, and the library takes the value wherever its class passes it. -/
def Settable (d : DeviceID) (m : ModuleID) (v : V) : Prop :=
  ∃ product, nodeProduct B C (DeviceManager.nodeId d) = .ok product ∧
    ∀ x ∈ (ZWaveMessage.setValue B L nodes (DeviceManager.nodeId d) product [⟨m, v, true⟩]).1,
      L.setValue x.1 x.2 = none

theorem setNodeValue_iff (d : DeviceID) (m : ModuleID) (v : V) :
    (setNodeValue B C L nodes d m v).2 = none ↔ Settable B C L nodes d m v := by
  rw [setNodeValue, Settable]
  cases nodeProduct B C (DeviceManager.nodeId d) with
  | error e => exact iff_of_false nofun fun ⟨_, h, _⟩ => nomatch h
  | ok product =>
    have hblames : ZWaveMessage.Blames L
        (ZWaveMessage.setValue B L nodes (DeviceManager.nodeId d) product [⟨m, v, true⟩]) :=
      ZWaveMessage.blames_setValue product _
    simp only [Except.ok.injEq, exists_eq_left']
    rw [hblames, List.findSome?_eq_none_iff]

/-- The second timer only counts down once, as the first; `D` is what has been passed to the library. -/
def zwave : Kind V (List (ν × ZWaveMessage.Passed)) where
  addNode := C.addNode
  startUnpair t := (raising C.removeNode).bind fun _ => t.start
  setValue d m v x :=
    let o := setNodeValue B C L nodes d m v
    (raising o.2, x ++ o.1)
  Unpairs t := C.removeNode = none ∧ t.callback = false
  Sets := Settable B C L nodes
  startUnpair_iff t := by
    rw [Timer.start]
    cases C.removeNode with
    | none => cases t.callback <;> simp [raising, Except.bind]
    | some e => simp [raising, Except.bind]
  setValue_iff d m v x := raising_eq_ok.trans (setNodeValue_iff B C L nodes d m v)

end

/-! ### What the handlers need -/

/-- The decoder of a reply reads all that it looks for, and the status is not below `PENDING`, which the
    new result has. -/
def Decodes (m : ZMQMessage) : Prop :=
  ∀ op ∈ (decoder B m : Decoding V), ∃ o, op = .ok o ∧ ∀ st, o = .setStatus st → 0 ≤ st.raw

/-- The message has what its handler needs, and the handler finds its timer and the device in order. A
    reply is only looked at if there is a request, and decoded if it is for one. -/
def Manageable (s : State V D) (m : ZMQMessage) : Prop :=
  match m.type B with
  | .ok .deviceListResult | .ok .deviceLastValueResult =>
    s.table ≠ [] → ∃ id, m.id B = .ok id ∧ ((∃ e ∈ s.table, e.id = id) → Decodes B m)
  | .ok .listenCmd => ∃ duration, m.toGatewayListenCommand B = .ok (.gatewayListen duration) ∧
      0 ≤ totalMilliseconds duration ∧ s.window.timer.callback = false ∧ K.addNode = none
  | .ok .deviceUnpairCmd =>
    (∃ d, m.toDeviceUnpairCommand B = .ok (.deviceUnpair d)) ∧ K.Unpairs s.unpair
  | .ok .setValuesCmd => ∃ d mod v timeout,
      m.toDeviceSetValueCommand B = .ok (.deviceSetValue d mod v timeout) ∧ K.Sets d mod v
  | _ => True

/-- A string that is no message with a known type is reported, if the exception says so. -/
def Receivable (s : State V D) (json : String) : Prop :=
  match parsed B json with
  | .ok m => Manageable B K s m
  | .error e => e = .invalidAccess ∨ e = .invalidArgument ∨ e = .syntaxError

variable {B K} {s : State V D} {m : ZMQMessage}

/-! ### Replies -/

/-- A new result takes what the decoder sets. -/
theorem decode_new (m : ZMQMessage) (q : AnswerQueue V) (a : ℕ) :
    (Broker.decode (q.addResult a (newResult B m)) a (q.heap a).results.length (decoder B m)).1 = .ok () ↔
      Decodes B m := by
  rw [Decodes]
  have hnew := q.addResult_last a (newResult B m)
  rcases decoder_cases B m with ⟨st, p, hops⟩ | ⟨e, hops⟩
  · rw [hops]
    by_cases hst : 0 ≤ st.raw
    · obtain ⟨q', hq, -⟩ := Broker.decode_setBoth hnew hst p
      rw [hq]
      refine iff_of_true rfl fun op hop => ?_
      rcases List.mem_pair.mp hop with rfl | rfl
      · refine ⟨_, rfl, ?_⟩
        rintro _ ⟨⟩
        exact hst
      · exact ⟨_, rfl, fun _ h => (by cases h)⟩
    · -- `setStatus` refuses a status below that of the new result
      refine iff_of_false (fun hok => hst ?_) fun h => hst ?_
      · rw [Broker.decode] at hok
        cases hset : (q.addResult a (newResult B m)).setStatus a (q.heap a).results.length st with
        | error e =>
          rw [hset] at hok
          cases hok
        | ok q' => exact AnswerQueue.le_of_setStatus hnew hset
      · obtain ⟨o, ho, hall⟩ := h _ List.mem_cons_self
        exact hall st (Except.ok.inj ho).symm
  · rw [hops]
    exact iff_of_false (fun h => by cases h) fun h => by simpa using h _ (List.mem_singleton_self _)

/-- The loop of a reply with the id `id`. -/
theorem doResult_of_id {id : GlobalID} (hid : m.id B = .ok id) (table : List (Entry V))
    (q : AnswerQueue V) :
    (doResult B m table q).1 = .ok () ↔ ((∃ e ∈ table, e.id = id) → Decodes B m) := by
  induction table generalizing q with
  | nil => exact iff_of_true rfl fun ⟨_, he, _⟩ => absurd he List.not_mem_nil
  | cons item table ih =>
    rw [doResult, hid]
    by_cases heq : item.id = id
    · have hsome : ∃ e ∈ item :: table, e.id = id := ⟨item, List.mem_cons_self, heq⟩
      have hnew := decode_new (B := B) m q item.answer
      simp only [heq, if_true, hsome, true_imp_iff]
      rw [← hnew]
      cases hdec : Broker.decode (q.addResult item.answer (newResult B m)) item.answer
        (q.heap item.answer).results.length (decoder B m) with | mk r q'
      cases r with
      | error e => exact Iff.rfl
      | ok _ => exact iff_of_true ((ih q').mpr fun _ => hnew.mp (by rw [hdec])) rfl
    · simp only [heq, if_false, ih, List.exists_mem_cons_iff, false_or]

/-- The loop without a request returns; otherwise it reads the id, and decodes if there is a request with
    that id. -/
theorem doResult_iff (m : ZMQMessage) (table : List (Entry V)) (q : AnswerQueue V) :
    (doResult B m table q).1 = .ok () ↔
      (table ≠ [] → ∃ id, m.id B = .ok id ∧ ((∃ e ∈ table, e.id = id) → Decodes B m)) := by
  cases table with
  | nil => exact iff_of_true rfl fun h => absurd rfl h
  | cons item table =>
    cases hid : m.id B with
    | error e =>
      rw [doResult, hid]
      exact iff_of_false nofun fun h => by simpa using h (List.cons_ne_nil _ _)
    | ok id => simp [doResult_of_id hid]

/-! ### Replies, step by step -/

section
variable (conv : V → W)

/-- Where the client thread goes on, or that it has ended. -/
def goesOn (c : DeviceManager.Client V) : Except Exn Unit → DeviceManager.Client V
  | .ok _ => c
  | .error _ => .raised

/-- The client thread gets from one state to the other without a step of another thread. -/
def Alone (s t : DeviceManager.State V W) : Prop :=
  ∃ n, (DeviceManager.system B conv).run s (List.replicate n .handle) = some t

variable {conv} {s t u : DeviceManager.State V W} {todo : List (Entry V)} {a i : ℕ}

theorem Alone.step (h : DeviceManager.handle B s = some t) (ht : Alone (B := B) conv t u) :
    Alone (B := B) conv s u := by
  obtain ⟨n, hn⟩ := ht
  exact ⟨n + 1, (Lts.run_cons_iff _).mpr ⟨t, h, hn⟩⟩

theorem Alone.refl (s : DeviceManager.State V W) : Alone (B := B) conv s s := ⟨0, rfl⟩

theorem Alone.trans (h : Alone (B := B) conv s t) (h' : Alone (B := B) conv t u) :
    Alone (B := B) conv s u := by
  obtain ⟨n, hn⟩ := h
  obtain ⟨k, hk⟩ := h'
  refine ⟨n + k, ?_⟩
  rw [List.replicate_add]
  exact (Lts.run_append_iff _).mpr ⟨t, hn, hk⟩

/-- The first call of a decoder returns. -/
theorem decode_of_ok {q q' : AnswerQueue V} {op : Except Exn (ResultOp V)} (ops : Decoding V)
    (h : DeviceManager.call q a i op = .ok q') :
    Broker.decode q a i (op :: ops) = Broker.decode q' a i ops := by
  match op, h with
  | .ok (.setStatus st), h =>
    rw [DeviceManager.call] at h
    rw [Broker.decode, h]
  | .ok (.setPayload p), h =>
    obtain rfl := Except.ok.inj h
    rfl

/-- It raises: nothing follows. -/
theorem decode_of_error {q : AnswerQueue V} {e : Exn} {op : Except Exn (ResultOp V)} (ops : Decoding V)
    (h : DeviceManager.call q a i op = .error e) :
    Broker.decode q a i (op :: ops) = (.error e, q) := by
  match op, h with
  | .ok (.setStatus st), h =>
    rw [DeviceManager.call] at h
    rw [Broker.decode, h]
  | .error e', h =>
    obtain rfl := Except.error.inj h
    rfl

/-- The calls of a decoder, one after the other, do what `decode` does. -/
theorem alone_decoding (ops : Decoding V) {s : DeviceManager.State V W}
    (h : s.client = .decoding m todo a i ops) : Alone (B := B) conv s
      { s with
        queue := (Broker.decode s.queue a i ops).2
        client := goesOn (.looking m todo) (Broker.decode s.queue a i ops).1 } := by
  induction ops generalizing s with
  | nil =>
    refine Alone.step ?_ (Alone.refl _)
    simp only [DeviceManager.handle, h, Broker.decode, goesOn]
  | cons op ops ih =>
    cases hcall : DeviceManager.call s.queue a i op with
    | ok q =>
      rw [decode_of_ok ops hcall]
      refine Alone.step (t := { s with queue := q, client := .decoding m todo a i ops }) ?_ (ih rfl)
      simp only [DeviceManager.handle, h, hcall]
    | error e =>
      rw [decode_of_error ops hcall]
      refine Alone.step ?_ (Alone.refl _)
      simp only [DeviceManager.handle, h, hcall, goesOn]

/-- If no other thread comes between, the loop over the requests does what `doResult` does. -/
theorem alone_looking (todo : List (Entry V)) {s : DeviceManager.State V W}
    (h : s.client = .looking m todo) : Alone (B := B) conv s
      { s with
        queue := (doResult B m todo s.queue).2
        client := goesOn .idle (doResult B m todo s.queue).1 } := by
  induction todo generalizing s with
  | nil =>
    refine Alone.step ?_ (Alone.refl _)
    simp only [DeviceManager.handle, h, doResult, goesOn]
  | cons e todo ih =>
    rw [doResult]
    cases hid : m.id B with
    | error err =>
      refine Alone.step ?_ (Alone.refl _)
      simp only [DeviceManager.handle, h, hid, goesOn]
    | ok id =>
      by_cases heq : e.id = id
      · simp only [heq, if_true]
        refine Alone.trans (t :=
          { s with
            queue := s.queue.addResult e.answer (newResult B m)
            client := .decoding m todo e.answer (s.queue.heap e.answer).results.length (decoder B m) })
          (Alone.step (by simp only [DeviceManager.handle, h, hid, heq, if_true]) (Alone.refl _)) ?_
        refine Alone.trans (alone_decoding (decoder B m) rfl) ?_
        cases hdec : Broker.decode (s.queue.addResult e.answer (newResult B m)) e.answer
          (s.queue.heap e.answer).results.length (decoder B m) with | mk r q
        cases r with
        | error err => exact Alone.refl _
        | ok _ => exact ih rfl
      · simp only [heq, if_false]
        refine Alone.step (t := { s with client := .looking m todo }) ?_ (ih rfl)
        simp only [DeviceManager.handle, h, hid, heq, if_false]

/-- A reply that is received, while no other thread takes a step. -/
theorem receive_reply {s : DeviceManager.State V W} (h : s.client = .idle)
    (hr : DeviceManager.isReply B m = true) :
    ∃ t, (DeviceManager.system B conv).step s (.receive m) = some t ∧ Alone (B := B) conv t
      { s with
        queue := (doResult B m s.table s.queue).2
        client := goesOn .idle (doResult B m s.table s.queue).1
        received := s.received ++ (DeviceManager.replyID B m).toList } := by
  have htype : ∃ t, m.type B = .ok t := by
    unfold DeviceManager.isReply at hr
    split at hr
    · exact ⟨_, ‹_›⟩
    · exact ⟨_, ‹_›⟩
    · cases hr
  obtain ⟨t, ht⟩ := htype
  refine ⟨{ s with
    client := .looking m s.table
    received := s.received ++ (DeviceManager.replyID B m).toList }, ?_, alone_looking s.table rfl⟩
  simp only [DeviceManager.system, DeviceManager.receive, h, ht, DeviceManager.onEvent, hr, if_true]

end

/-! ### Commands -/

theorem doListenCommand_iff (s : State V D) (m : ZMQMessage) :
    (doListenCommand B K s m).1 = .ok () ↔
      ∃ duration, m.toGatewayListenCommand B = .ok (.gatewayListen duration) ∧
        0 ≤ totalMilliseconds duration ∧ s.window.timer.callback = false ∧ K.addNode = none := by
  rw [doListenCommand]
  split
  next duration h =>
    rw [h]
    simp only [Except.ok.injEq, Command.gatewayListen.injEq, exists_eq_left']
    by_cases hw : 0 ≤ totalMilliseconds duration ∧ s.window.timer.callback = false
    · rw [Window.doListenCommand_first (by simpa using hw.1) hw.2, if_pos rfl, raising_eq_ok]
      simp only [hw.1, hw.2, true_and]
    · rw [if_neg]
      · exact iff_of_false nofun fun h => hw ⟨h.1, h.2.1⟩
      · rw [Window.doListenCommand_raises (by simpa using hw)]
        simp
  next cmd hno h =>
    exact iff_of_false nofun fun ⟨duration, hd, _⟩ => hno duration (Except.ok.inj (h.symm.trans hd))
  next e h => rw [h]; exact iff_of_false nofun fun ⟨_, hd, _⟩ => nomatch hd

theorem doDeviceUnpairCommand_iff (s : State V D) (m : ZMQMessage) :
    (doDeviceUnpairCommand B K s m).1 = .ok () ↔
      (∃ d, m.toDeviceUnpairCommand B = .ok (.deviceUnpair d)) ∧ K.Unpairs s.unpair := by
  rw [doDeviceUnpairCommand, ← K.startUnpair_iff]
  split
  next d h =>
    cases ht : K.startUnpair s.unpair with
    | ok timer => exact iff_of_true rfl ⟨⟨d, h⟩, timer, rfl⟩
    | error e => exact iff_of_false nofun fun ⟨_, _, hu⟩ => nomatch hu
  next cmd hno h =>
    exact iff_of_false nofun fun ⟨⟨d, hd⟩, _⟩ => hno d (Except.ok.inj (h.symm.trans hd))
  next e h => rw [h]; exact iff_of_false nofun fun ⟨⟨_, hd⟩, _⟩ => nomatch hd

theorem doSetValueCommand_iff (s : State V D) (m : ZMQMessage) :
    (doSetValueCommand B K s m).1 = .ok () ↔ ∃ d mod v timeout,
      m.toDeviceSetValueCommand B = .ok (.deviceSetValue d mod v timeout) ∧ K.Sets d mod v := by
  rw [doSetValueCommand]
  split
  next d mod v timeout h =>
    rw [h]
    simp [K.setValue_iff]
  next cmd hno h =>
    refine iff_of_false nofun fun ⟨d, mod, v, timeout, hd, _⟩ => hno d mod v timeout ?_
    exact Except.ok.inj (h.symm.trans hd)
  next e h => rw [h]; exact iff_of_false nofun fun ⟨_, _, _, _, hd, _⟩ => nomatch hd

/-! ### The thread -/

theorem onEvent_iff (s : State V D) (m : ZMQMessage) {t : ZMQMessageType} (ht : m.type B = .ok t) :
    (onEvent B K s m).1 = .ok () ↔ Manageable B K s m := by
  rw [onEvent, Manageable, ht]
  cases t with
  | deviceListResult | deviceLastValueResult => exact doResult_iff m s.table s.queue
  | listenCmd => exact doListenCommand_iff s m
  | deviceUnpairCmd => exact doDeviceUnpairCommand_iff s m
  | setValuesCmd => exact doSetValueCommand_iff s m
  | _ => exact iff_of_true rfl trivial

theorem type_of_parsed {json : String} (h : parsed B json = .ok m) : ∃ t, m.type B = .ok t := by
  rw [parsed] at h
  cases hj : ZMQMessage.fromJSON B json with
  | error e => rw [hj] at h; cases h
  | ok msg =>
    rw [hj] at h
    cases ht : msg.type B with
    | error e => simp only [bind, Except.bind, ht] at h; cases h
    | ok t =>
      simp only [bind, Except.bind, ht] at h
      cases h
      exact ⟨t, ht⟩

/-- For every kind of manager (`jablotron` and `zwave` are the two), every state of it and every string on
    the data socket: `dataServerReceive` returns exactly if the handler finds what it needs. -/
theorem survives_iff (B : Base V) (K : Kind V D) (p : DevicePrefix) (s : State V D)
    {c : ZMQClient.State} (hc : c.dataSocket = true) (json : String) :
    dataServerReceive B K p s c json = .ok () ↔ Receivable B K s json := by
  unfold dataServerReceive ZMQClient.dataServerReceive ZMQClient.parseMessage ZMQBroker.parseMessage
    Receivable
  cases h : parsed B json with
  | ok m =>
    obtain ⟨t, ht⟩ := type_of_parsed h
    exact onEvent_iff s m ht
  | error e =>
    have hsend : ∀ m, (ZMQClient.send c m).1 = .ok () := fun m => by rw [ZMQClient.send, if_pos hc]
    cases e with
    | invalidAccess | invalidArgument | syntaxError =>
      refine iff_of_true ?_ (by simp)
      simp [ZMQBroker.sendError, ZMQBroker.send, hsend, Except.bind]
    | range | nullPointer | existing | other => exact iff_of_false (fun hok => by cases hok) (by simp)

/-! ### Two messages that are received, and one that is not -/

def listenText : String := "\x7b\"message_type\":\"listen_cmd\",\"duration\":5\x7d"
def unpairText : String :=
  "\x7b\"message_type\":\"device_unpair_cmd\",\"device_id\":\"0xa800000000000001\"\x7d"
def withoutDuration : String := "\x7b\"message_type\":\"listen_cmd\"\x7d"

def commands : Base Reading := (Broker.sample
  [(listenText, [("message_type", .str "listen_cmd"), ("duration", .num 5)]),
    (unpairText, [("message_type", .str "device_unpair_cmd"), ("device_id", .str "0xa800000000000001")]),
    (withoutDuration, [("message_type", .str "listen_cmd")])]).base

def connected : ZMQClient.State := ⟨.data, .running, some ⟨0x0900⟩, true, false, [], [], []⟩

def aJablotron : Kind Reading JablotronDeviceManager.Outputs :=
  jablotron ⟨⟨0x09⟩, fun _ => .warm, fun _ _ => false⟩ [] (fun _ => 0) fun _ => 1

def aZWave : Kind Reading (List (ℕ × ZWaveMessage.Passed)) :=
  zwave commands ⟨none, none, fun _ => .ok "", fun _ => .ok "", 0⟩
    ⟨fun _ => 0, fun _ => 0, fun _ => .other, fun _ => 0, fun _ => false, fun _ _ => none⟩ fun _ => none

/-- A manager as its constructor leaves it, with `x` for its devices. -/
def start (x : D) : State V D := ⟨.empty, [], ∅, .closed, .new 10000, x⟩

/-- The Jablotron manager begins to listen, and the Z-Wave manager to unpair. -/
theorem two_commands :
    dataServerReceive commands aJablotron ⟨0x09⟩ (start .init) connected listenText = .ok () ∧
    dataServerReceive commands aZWave ⟨0xa8⟩ (start []) connected unpairText = .ok () := by
  refine ⟨(survives_iff commands aJablotron _ _ rfl _).mpr ?_,
    (survives_iff commands aZWave _ _ rfl _).mpr ?_⟩
  · exact ⟨5000000, rfl, by decide, rfl, rfl⟩
  · exact ⟨⟨⟨⟨0xa8⟩, 1⟩, rfl⟩, rfl, rfl⟩

/-- A listen command without a duration: reading it raises, and the exception leaves the thread. -/
theorem duration_missing : ¬ ∀ (s : State Reading JablotronDeviceManager.Outputs) (json : String),
    dataServerReceive commands aJablotron ⟨0x09⟩ s connected json = .ok () := by
  intro h
  have hrun : dataServerReceive commands aJablotron ⟨0x09⟩ (start .init) connected withoutDuration =
      .error .invalidAccess := rfl
  exact nomatch (hrun.symm.trans (h (start .init) withoutDuration))

end Receiving
end BeeeOn
