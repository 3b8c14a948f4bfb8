import Gateway.System.Network
import Gateway.Zmq.ResultRoundTrip

/-! @src zmq/ZMQBroker.cpp, zmq/ZMQMessage.cpp, core/DeviceManager.h |
    name:Requests and replies end to end | family:safety

    Several managers ask the one broker for device lists and last values, over any interleaving of all
    their threads, of the broker's and of its tasks, with any messages lost. The broker serves the
    requests of each manager in the order in which they were sent, none twice (`requests_in_order`); and
    what a manager acts on is what a task of the gateway has reported for its own request
    (`acted_on_own_answer`), or the empty payload that a new result starts with. -/

namespace BeeeOn
open Schemes
variable {V W : Type}

/-- The command that the broker reads where a manager has written one: a module id is written in
    hexadecimal and read as decimal. -/
def Command.ReadAs (B : Base V) : Command V → Command V → Prop
  | .serverDeviceList p, .serverDeviceList p' => B.parseDevicePrefix (B.devicePrefixText p) = .ok p'
  | .serverLastValue d i, .serverLastValue d' i' => d' = d ∧ ModuleID.parse B i.toString = .ok i'
  | _, _ => False

namespace Network
open DeviceManager (Entry isReply decoder)

/-- What is read on the sockets is what has been written: message types, ids and identities, beside what
    the codecs rely on. -/
structure Wired (B : Base V) : Prop where
  lawful : B.Lawful
  parseMessageType_text : ∀ t : ZMQMessageType, B.parseMessageType t.text = .ok t
  parseGlobalID_text : ∀ id, B.parseGlobalID (B.globalIDText id) = .ok id
  parseHex_formatHex : ∀ n ≤ USHRT_MAX, B.parseHex (formatHex n) = .ok n

/-- What a manager hears where a task has said `p`. -/
def Heard (B : Base V) : Payload V → Payload V → Prop
  | .deviceList devices, .deviceList devices' => devices' = devices
  | .lastValue (some v), .lastValue (some v') => B.parseFloat (B.floatText v) = .ok v'
  -- no value has been set
  | .lastValue none, .lastValue (some _) => True
  | _, _ => False

/-- The message of a request. -/
def Asks (B : Base V) (e : Entry V) (m : ZMQMessage) : Prop :=
  match e.cmd with
  | .serverDeviceList p => m = (ZMQMessage.fromServerDeviceListCommand B p).setID B e.id
  | .serverLastValue d i => m = (ZMQMessage.fromServerLastValueCommand B d i).setID B e.id
  | _ => False

/-- The message of a reply of the broker to manager `k`. -/
def Tells (B : Base V) (out : List (Reply V)) (k : DeviceManagerID) (m : ZMQMessage) : Prop :=
  ∃ x ∈ out, x.deviceManagerID = k ∧ ∃ unset, message B unset x = some m

/-! ### What the messages say -/

section
variable {B : Base V} {m : ZMQMessage}

theorem type_of_get (hB : Wired B) {t : ZMQMessageType}
    (h : m.get "message_type" = some (.str t.text)) : m.type B = .ok t := by
  rw [ZMQMessage.type, hB.lawful.extractString_str h]
  exact hB.parseMessageType_text t

theorem id_of_get (hB : Wired B) {id : GlobalID} (h : m.get "id" = some (.str (B.globalIDText id))) :
    m.id B = .ok id := by
  rw [ZMQMessage.id, hB.lawful.extractString_str h]
  exact hB.parseGlobalID_text id

/-- The identity of a socket is read as the manager that it belongs to, if at all. -/
theorem parse_identity (hB : Wired B) {k k' : DeviceManagerID}
    (h : DeviceManagerID.parse B k.toString = .ok k') : k' = k := by
  have hlt : k.value.toNat ≤ USHRT_MAX := Nat.le_of_lt_succ k.value.isLt
  rw [DeviceManagerID.parse, DeviceManagerID.toString, hB.parseHex_formatHex _ hlt] at h
  simp only [bind, Except.bind, if_neg (not_lt.mpr hlt), DeviceManagerID.fromWord, BitVec.ofNat_toNat,
    BitVec.setWidth_eq] at h
  split at h
  · cases h
  · split_ifs at h
    exact (Except.ok.inj h).symm

theorem id_asks (hB : Wired B) {e : Entry V} (h : Asks B e m) : m.id B = .ok e.id := by
  rw [Asks] at h
  split at h
  · exact id_of_get hB (by rw [h]; exact JsonObject.get_set_self _ _ _)
  · exact id_of_get hB (by rw [h]; exact JsonObject.get_set_self _ _ _)
  · exact h.elim

/-- What the broker makes of a request: it has no identity, cannot be read, or is the command. -/
theorem handleDataMessage_asks (hB : Wired B) {e : Entry V} (h : Asks B e m) (k : DeviceManagerID) :
    handleDataMessage B k m = none ∨ handleDataMessage B k m = some .malformed ∨
      ∃ cmd, handleDataMessage B k m = some (.request k e.id cmd) ∧ e.cmd.ReadAs B cmd := by
  have hid := id_asks hB h
  rw [handleDataMessage]
  cases hk : DeviceManagerID.parse B k.toString with
  | error err => exact Or.inl rfl
  | ok manager =>
    obtain rfl := parse_identity hB hk
    refine Or.inr ?_
    rw [Asks] at h
    split at h
    · rename_i p hcmd
      have htype : m.type B = .ok .deviceListCmd := type_of_get hB (by rw [h]; rfl)
      have hprefix : B.extractString m "device_manager_prefix" = .ok (B.devicePrefixText p) :=
        hB.lawful.extractString_str (by rw [h]; rfl)
      simp only [htype, hid, ZMQMessage.toDeviceListRequest, ZMQMessage.getDevicePrefix, hprefix, bind,
        Except.bind, pure, Except.pure]
      cases hp : B.parseDevicePrefix (B.devicePrefixText p) with
      | error err => exact Or.inl rfl
      | ok p' => exact Or.inr ⟨_, rfl, by rw [hcmd]; exact hp⟩
    · rename_i d i hcmd
      have htype : m.type B = .ok .deviceLastValueCmd := type_of_get hB (by rw [h]; rfl)
      have hdevice : ZMQMessage.getDeviceID B m = .ok d :=
        ZMQMessage.getDeviceID_of_get hB.lawful (by rw [h]; rfl)
      have hmodule : ZMQMessage.getModuleID B m = ModuleID.parse B i.toString :=
        ZMQMessage.getModuleID_of_get hB.lawful (by rw [h]; rfl)
      simp only [htype, hid, ZMQMessage.toServerLastValueCommand, hdevice, hmodule, bind, Except.bind,
        pure, Except.pure]
      cases hi : ModuleID.parse B i.toString with
      | error err => exact Or.inl rfl
      | ok i' => exact Or.inr ⟨_, rfl, by rw [hcmd]; exact ⟨rfl, hi⟩⟩
    · exact h.elim

/-- A list of devices is heard as it was said. -/
theorem heard_deviceList (hB : Wired B) {st : Status} {devices : List DeviceID} {id : GlobalID}
    (h : (ZMQMessage.fromResult B ⟨st, .deviceList devices⟩).map (·.setID B id) = some m)
    {p : Payload V} (hp : .ok (.setPayload p) ∈ decoder B m) : p = .deviceList devices := by
  have hm := Option.some.inj h
  have htype : m.type B = .ok .deviceListResult := type_of_get hB (by rw [← hm]; rfl)
  have hlist := ZMQMessage.mapM_getDeviceID hB.lawful devices
  simp only [bind, Except.bind] at hlist
  rw [decoder, htype] at hp
  obtain ⟨ops, hops, hmem⟩ := mem_calls hp
  have harray : JsonObject.getArray m "device_list" =
      .ok (devices.map fun item => .obj (ZMQMessage.setDeviceID B [] item)) := by rw [← hm]; rfl
  simp only [harray, bind, Except.bind, pure, Except.pure, hlist] at hops
  split at hops
  · cases hops
  · cases hops
    simpa using hmem

/-- A value is heard as its text is read. -/
theorem heard_lastValue (hB : Wired B) {st : Status} {v : V} {id : GlobalID}
    (h : (ZMQMessage.fromResult B ⟨st, .lastValue (some v)⟩).map (·.setID B id) = some m)
    {p : Payload V} (hp : .ok (.setPayload p) ∈ decoder B m) :
    ∃ v', p = .lastValue (some v') ∧ B.parseFloat (B.floatText v) = .ok v' := by
  have hm := Option.some.inj h
  have htype : m.type B = .ok .deviceLastValueResult := type_of_get hB (by rw [← hm]; rfl)
  rw [decoder, htype] at hp
  obtain ⟨ops, hops, hmem⟩ := mem_calls hp
  have hobject : JsonObject.getObject m "values" = .ok (ZMQMessage.setValue B [] v) := by
    rw [← hm]; rfl
  have hvalue : ZMQMessage.getValue B (ZMQMessage.setValue B [] v) =
      (B.parseFloat (B.floatText v)).map some := ZMQMessage.getValue_of_get hB.lawful rfl rfl
  simp only [hobject, bind, Except.bind, pure, Except.pure, hvalue] at hops
  cases hv : B.parseFloat (B.floatText v) with
  | error e => rw [hv] at hops; cases hops
  | ok v' =>
    rw [hv] at hops
    simp only [Except.map] at hops
    split at hops
    · cases hops
    · cases hops
      exact ⟨v', by simpa using hmem, rfl⟩

/-- A reply has the id of its request, and the decoder hears in it what was said. -/
theorem message_heard (hB : Wired B) {unset : V × SetStatus} {x : Reply V}
    (h : message B unset x = some m) : m.id B = .ok x.id ∧
      (isReply B m = true → ∀ p, .ok (.setPayload p) ∈ decoder B m → Heard B x.result.payload p) := by
  obtain ⟨k, id, ⟨st, payload⟩, a, i⟩ := x
  rw [message] at h
  constructor
  · obtain ⟨msg, -, rfl⟩ := Option.map_eq_some_iff.mp h
    exact id_of_get hB (JsonObject.get_set_self _ _ _)
  · intro hreply p hp
    have hother : ∀ t : ZMQMessageType, m.type B = .ok t →
        t = .deviceListResult ∨ t = .deviceLastValueResult := by
      intro t ht
      rw [isReply, ht] at hreply
      cases t <;> simp_all
    cases payload with
    | plain =>
      obtain rfl := Option.some.inj h
      rcases hother .defaultResult (type_of_get hB rfl) with h | h <;> cases h
    | deviceList devices =>
      rw [heard_deviceList hB h hp]
      exact rfl
    | lastValue value =>
      cases value with
      | none =>
        obtain ⟨v', rfl, -⟩ := heard_lastValue hB h hp
        trivial
      | some v =>
        obtain ⟨v', rfl, hv⟩ := heard_lastValue hB h hp
        exact hv
    | setValue status =>
      cases status <;> obtain rfl := Option.some.inj h <;>
        rcases hother .setValuesResult (type_of_get hB rfl) with h | h <;> cases h

/-- A reply that tells a success is for a result that is one. -/
theorem message_succeeds (hB : Wired B) {unset : V × SetStatus} {x : Reply V}
    (hst : x.result.status = .pending ∨ x.result.status.IsTerminal) (h : message B unset x = some m)
    (hs : DeviceManager.Succeeds B m) : x.result.status = .success := by
  have hstate : m.getResultState B = .ok .success := by
    rw [DeviceManager.Succeeds, decoder] at hs
    split at hs
    all_goals
      obtain ⟨ops, hops, hmem⟩ := mem_calls hs
      simp only [bind, Except.bind, pure, Except.pure] at hops
      repeat' (split at hops <;> try cases hops)
      rename_i st hst
      obtain rfl : Status.success = st := by simpa using hmem
      exact hst
  obtain ⟨m', hm', rfl⟩ := Option.map_eq_some_iff.mp h
  have hget : (m'.setID B x.id).get "result_status" = some (.num x.result.status.raw) := by
    rw [ZMQMessage.setID, JsonObject.get_set_ne _ _ (by decide)]
    have hstatus := ZMQMessage.fromResult_status B hm'
    exact hstatus
  have hsame := ZMQMessage.getResultState_of_get hB.lawful hst hget
  exact Except.ok.inj (hsame.symm.trans hstate)

end

/-! ### What the parts send -/

section
variable {B : Base V} {conv : V → W} {hs : List (CommandHandler V)}

/-- A step of a manager sends nothing, or the message of the request that it makes. -/
theorem manager_out {s t : DeviceManager.State V W} {l : DeviceManager.Label}
    (h : (DeviceManager.system B conv).step s l = some t) : (t.out = s.out ∧ t.sent = s.sent) ∨
      ∃ e m, Asks B e m ∧ t.out = s.out ++ [m] ∧ t.sent = s.sent ++ [e] := by
  have hcheck : DeviceManager.check conv s l = some t → t.out = s.out ∧ t.sent = s.sent := by
    intro hc
    refine ⟨?_, (DeviceManager.check_frame hc).sent⟩
    cases DeviceManager.checked hc with
    | begin | visit | endScan | leave => rfl
    | act a as =>
      have ha := DeviceManager.acts s a as
      generalize DeviceManager.act s a as = t at ha
      cases ha <;> rfl
    | read d a as =>
      rcases DeviceManager.readValue_cases conv s d a as with ⟨_, _, -, heq⟩ | ⟨-, heq⟩ <;> rw [heq]
  have hrequest : ∀ {th id cmd u}, DeviceManager.request B s th id cmd = some u →
      (∀ msg, ZMQMessage.fromCommand B id cmd = .ok msg → Asks B ⟨s.queue.next, id, cmd⟩
        (msg.setID B id)) →
      ∃ e m, Asks B e m ∧ u.out = s.out ++ [m] ∧ u.sent = s.sent ++ [e] := by
    intro th id cmd u hu hasks
    unfold DeviceManager.request at hu
    split at hu
    · rename_i msg _ hmsg
      split_ifs at hu
      cases hu
      exact ⟨_, _, hasks msg hmsg, rfl, rfl⟩
    · cases hu
  cases l with
  | getDeviceList th id p =>
    obtain ⟨u, hu, rfl⟩ := Option.map_eq_some_iff.mp h
    have hsends := hrequest hu fun msg hmsg => by rw [← Except.ok.inj hmsg]; exact rfl
    exact Or.inr hsends
  | getLastValue th id d m =>
    have hsends := hrequest h fun msg hmsg => by rw [← Except.ok.inj hmsg]; exact rfl
    exact Or.inr hsends
  | insert th =>
    obtain ⟨e, -, rfl⟩ := DeviceManager.insert_eq h
    exact Or.inl ⟨rfl, rfl⟩
  | receive m =>
    obtain ⟨-, ⟨-, rfl⟩ | ⟨-, -, heq⟩⟩ := DeviceManager.receive_eq h
    · exact Or.inl ⟨rfl, rfl⟩
    · rw [heq]; exact Or.inl ⟨rfl, rfl⟩
  | handle =>
    refine Or.inl ⟨?_, (DeviceManager.handle_frame h).sent⟩
    cases DeviceManager.handled h <;> rfl
  | expire =>
    obtain ⟨w, -, rfl⟩ := Option.map_eq_some_iff.mp h
    exact Or.inl ⟨rfl, rfl⟩
  | begin | visit | endScan | act | read | leave => exact Or.inl (hcheck h)

/-! ### The invariant -/

/-- The requests of manager `k` that the broker has entered, in the order of their answers. -/
def State.served (s : State V W) (k : DeviceManagerID) : List GlobalID :=
  ((Requests.requests s.work).filter (·.deviceManagerID = k)).map ResultData.resultID

/-- The ids of the requests of manager `k` on the way. -/
def State.underway (B : Base V) (s : State V W) (k : DeviceManagerID) : List GlobalID :=
  (s.toBroker k).filterMap fun m => (m.id B).toOption

/-- Every part has taken a run of its own system; what is on the way, what a manager has received and
    what the broker has entered was sent by the others; and the requests of a manager are served and on
    the way in the order in which they were sent. -/
structure Inv (B : Base V) (conv : V → W) (hs : List (CommandHandler V)) (s : State V W) : Prop where
  managers : ∀ k, (DeviceManager.system B conv).run DeviceManager.init (s.steps k) =
    some (s.managers k)
  broker : (Requests.system hs).run Requests.init s.work = some s.broker
  upward : ∀ k, ∀ m ∈ s.toBroker k, ∃ e ∈ (s.managers k).sent, Asks B e m
  downward : ∀ k, ∀ m ∈ s.toManager k, isReply B m = true → Tells B s.broker.out k m
  heard : ∀ k m, .receive m ∈ s.steps k → isReply B m = true → Tells B s.broker.out k m
  asked : ∀ d ∈ Requests.requests s.work, ∃ e ∈ (s.managers d.deviceManagerID).sent,
    e.id = d.resultID ∧ e.cmd.ReadAs B d.cmd
  order : ∀ k, (s.served k ++ s.underway B k).Sublist ((s.managers k).sent.map Entry.id)

theorem inv_init : Inv B conv hs (init : State V W) where
  managers _ := rfl
  broker := rfl
  upward _ m hm := by cases hm
  downward _ m hm := by cases hm
  heard _ m hm := by cases hm
  asked d hd := by cases hd
  order _ := List.Sublist.slnil

theorem Tells.mono {out : List (Reply V)} {k : DeviceManagerID} {m : ZMQMessage} (h : Tells B out k m)
    (xs : List (Reply V)) : Tells B (out ++ xs) k m := by
  obtain ⟨x, hx, hto, hm⟩ := h
  exact ⟨x, List.mem_append_left _ hx, hto, hm⟩

section
variable {s : State V W} {k : DeviceManagerID}

/-- A step of manager `k`, which receives only what it has been told. -/
theorem Inv.advance (hI : Inv B conv hs s) (hB : Wired B) {l : DeviceManager.Label}
    {t : DeviceManager.State V W} (h : (DeviceManager.system B conv).step (s.managers k) l = some t)
    (hl : ∀ m, l = .receive m → isReply B m = true → Tells B s.broker.out k m) :
    Inv B conv hs (s.advance k l t) := by
  -- a manager forgets none of its requests
  have hsent : ∀ k' e, e ∈ (s.managers k').sent → e ∈ ((s.advance k l t).managers k').sent := by
    intro k' e he
    by_cases hk : k' = k
    · subst hk
      simp only [State.advance, Function.update_self]
      rcases manager_out h with ⟨-, hs⟩ | ⟨e', m, -, -, hs⟩ <;> rw [hs]
      · exact he
      · exact List.mem_append_left _ he
    · simp only [State.advance, Function.update_of_ne hk]
      exact he
  constructor
  case managers =>
    intro k'
    by_cases hk : k' = k
    · subst hk
      simp only [State.advance, Function.update_self]
      exact ((DeviceManager.system B conv).run_concat_iff).mpr ⟨_, hI.managers k', h⟩
    · simp only [State.advance, Function.update_of_ne hk]
      exact hI.managers k'
  case broker => exact hI.broker
  case upward =>
    intro k' m hm
    by_cases hk : k' = k
    · subst hk
      simp only [State.advance, Function.update_self] at hm ⊢
      rcases manager_out h with ⟨hout, hs⟩ | ⟨e, m', hasks, hout, hs⟩ <;> rw [hout] at hm <;> rw [hs]
      · simp only [List.drop_length, List.append_nil] at hm
        exact hI.upward k' m hm
      · simp only [List.drop_left, List.mem_append, List.mem_singleton] at hm
        rcases hm with hm | rfl
        · obtain ⟨e', he', hasks'⟩ := hI.upward k' m hm
          exact ⟨e', List.mem_append_left _ he', hasks'⟩
        · exact ⟨e, by simp, hasks⟩
    · simp only [State.advance, Function.update_of_ne hk] at hm ⊢
      exact hI.upward k' m hm
  case downward => exact hI.downward
  case heard =>
    intro k' m hm hreply
    by_cases hk : k' = k
    · subst hk
      simp only [State.advance, Function.update_self, List.mem_append, List.mem_singleton] at hm
      rcases hm with hm | hm
      · exact hI.heard k' m hm hreply
      · exact hl m hm.symm hreply
    · simp only [State.advance, Function.update_of_ne hk] at hm
      exact hI.heard k' m hm hreply
  case asked =>
    intro d hd
    obtain ⟨e, he, hread⟩ := hI.asked d hd
    exact ⟨e, hsent _ e he, hread⟩
  case order =>
    intro k'
    by_cases hk : k' = k
    · subst hk
      have hold := hI.order k'
      simp only [State.underway, State.served, State.advance, Function.update_self] at hold ⊢
      rcases manager_out h with ⟨hout, hs⟩ | ⟨e, m', hasks, hout, hs⟩ <;> rw [hout, hs]
      · simpa using hold
      · simp only [List.drop_left, List.filterMap_append, List.map_append, ← List.append_assoc]
        refine hold.append ?_
        simp [id_asks hB hasks, Except.toOption]
    · simp only [State.underway, State.advance, Function.update_of_ne hk]
      exact hI.order k'

/-- The next message of a manager is lost. -/
theorem Inv.take (hI : Inv B conv hs s) (k : DeviceManagerID) : Inv B conv hs (s.take k) := by
  have htail : ∀ k', ((s.take k).toBroker k').Sublist (s.toBroker k') := by
    intro k'
    by_cases hk : k' = k
    · subst hk
      simp only [State.take, Function.update_self]
      exact List.tail_sublist _
    · simp only [State.take, Function.update_of_ne hk]
      exact List.Sublist.refl _
  exact
    { hI with
      upward := fun k' m hm => hI.upward k' m ((htail k').subset hm)
      order := fun k' => ((List.Sublist.refl _).append ((htail k').filterMap _)).trans (hI.order k') }

theorem Inv.takeReply (hI : Inv B conv hs s) (k : DeviceManagerID) :
    Inv B conv hs (s.takeReply k) := by
  have htail : ∀ k', ∀ m ∈ (s.takeReply k).toManager k', m ∈ s.toManager k' := by
    intro k' m hm
    by_cases hk : k' = k
    · subst hk
      simp only [State.takeReply, Function.update_self] at hm
      exact List.mem_of_mem_tail hm
    · simp only [State.takeReply, Function.update_of_ne hk] at hm
      exact hm
  exact { hI with downward := fun k' m hm => hI.downward k' m (htail k' m hm) }

/-- A step of the broker that enters no request; the messages on the way to the managers are what it has
    sent. -/
theorem Inv.brokers (hI : Inv B conv hs s) {l : Requests.Label V} {b : Requests.State V}
    (h : (Requests.system hs).step s.broker l = some b) (hl : Requests.requested l = none)
    {sockets : DeviceManagerID → List ZMQMessage} {xs : List (Reply V)}
    (hout : b.out = s.broker.out ++ xs)
    (hsockets : ∀ k, ∀ m ∈ sockets k, m ∈ s.toManager k ∨ Tells B xs k m) :
    Inv B conv hs { s.brokers l b with toManager := sockets } := by
  have hrequests : Requests.requests (s.work ++ [l]) = Requests.requests s.work := by
    simp [Requests.requests, hl]
  constructor
  case managers => exact hI.managers
  case broker => exact ((Requests.system hs).run_concat_iff).mpr ⟨_, hI.broker, h⟩
  case upward => exact hI.upward
  case downward =>
    intro k m hm hreply
    simp only [State.brokers, hout]
    rcases hsockets k m hm with hm | ⟨x, hx, hto⟩
    · exact (hI.downward k m hm hreply).mono xs
    · exact ⟨x, List.mem_append_right _ hx, hto⟩
  case heard =>
    intro k m hm hreply
    simp only [State.brokers, hout]
    exact (hI.heard k m hm hreply).mono xs
  case asked => simp only [State.brokers, hrequests]; exact hI.asked
  case order => simp only [State.served, State.brokers, hrequests]; exact hI.order

/-- The broker takes a request, which is the next of its manager. -/
theorem Inv.request (hI : Inv B conv hs s) (hB : Wired B) {m : ZMQMessage} {e : Entry V}
    {cmd : Command V} {b : Requests.State V} (hm : (s.toBroker k).head? = some m)
    (he : e ∈ (s.managers k).sent) (hasks : Asks B e m) (hread : e.cmd.ReadAs B cmd)
    (h : Requests.work hs s.broker (.request k e.id cmd) = some b) :
    Inv B conv hs ((s.take k).brokers (.work (.request k e.id cmd)) b) := by
  have hout : b.out = s.broker.out := (Requests.work_spec (Requests.run_traced hI.broker).1 h).2.out
  have hrequests : Requests.requests (s.work ++ [.work (.request k e.id cmd)]) =
      Requests.requests s.work ++ [⟨e.id, k, cmd⟩] := by
    simp [Requests.requests, Requests.requested]
  have hT := hI.take k
  constructor
  case managers => exact hI.managers
  case broker => exact ((Requests.system hs).run_concat_iff).mpr ⟨_, hI.broker, h⟩
  case upward => exact hT.upward
  case downward => simp only [State.brokers, hout]; exact hT.downward
  case heard => simp only [State.brokers, hout]; exact hT.heard
  case asked =>
    simp only [State.brokers, State.take, hrequests]
    intro d hd
    rcases List.mem_append.mp hd with hd | hd
    · exact hI.asked d hd
    · rw [List.mem_singleton.mp hd]
      exact ⟨e, he, rfl, hread⟩
  case order =>
    intro k'
    by_cases hk : k' = k
    · -- the id goes from the head of those on the way to the end of those served
      subst hk
      have hold := hI.order k'
      obtain ⟨rest, hrest⟩ : ∃ rest, s.toBroker k' = m :: rest := List.head?_eq_some_iff.mp hm
      have hid : (m.id B).toOption = some e.id := by rw [id_asks hB hasks]; rfl
      simp only [State.served, State.underway, hrest, List.filterMap_cons, hid] at hold
      simp only [State.served, State.underway, State.brokers, State.take, hrequests, hrest,
        Function.update_self, List.tail_cons, List.filter_append, List.map_append]
      simpa using hold
    · simp only [State.served, State.brokers, State.take, hrequests, List.filter_append]
      have hne : ¬ k = k' := fun h => hk h.symm
      have hold := (hT.order k')
      simpa [State.served, State.underway, State.take, hne] using hold

theorem Inv.receive (hI : Inv B conv hs s) (hB : Wired B) {t : State V W}
    (h : Network.receive B hs s k = some t) : Inv B conv hs t := by
  unfold Network.receive at h
  split at h
  · rename_i m _ hm
    obtain ⟨e, he, hasks⟩ := hI.upward k m (List.mem_of_mem_head? hm)
    rcases handleDataMessage_asks hB hasks k with heq | heq | ⟨cmd, heq, hread⟩ <;>
      simp only [heq, Option.map_eq_some_iff, Option.some.injEq] at h
    · exact h ▸ hI.take k
    · obtain ⟨b, hb, rfl⟩ := h
      have hout : b.out = s.broker.out ++ [] := by
        rw [(Requests.work_spec (Requests.run_traced hI.broker).1 hb).2.out, List.append_nil]
      exact (hI.take k).brokers (l := .work .malformed) hb rfl hout fun _ _ hm => Or.inl hm
    · obtain ⟨b, hb, rfl⟩ := h
      exact hI.request hB hm he hasks hread hb
  · cases h

theorem Inv.step (hI : Inv B conv hs s) (hB : Wired B) {l : Label V} {t : State V W}
    (h : (system B conv hs).step s l = some t) : Inv B conv hs t := by
  cases l with
  | manager k l =>
    have hadvance : ((DeviceManager.system B conv).step (s.managers k) l).map (s.advance k l) = some t →
        (∀ m, l ≠ .receive m) → Inv B conv hs t := by
      intro hmap hne
      obtain ⟨u, hu, rfl⟩ := Option.map_eq_some_iff.mp hmap
      exact hI.advance hB hu fun m hm => absurd hm (hne m)
    cases l with
    | receive m => cases h
    | _ => exact hadvance h fun m => by simp
  | deliver k =>
    obtain ⟨m, hm, hmap⟩ := Option.bind_eq_some_iff.mp h
    obtain ⟨u, hu, rfl⟩ := Option.map_eq_some_iff.mp hmap
    refine (hI.takeReply k).advance hB hu ?_
    rintro _ ⟨⟩ hreply
    exact hI.downward k m (List.mem_of_mem_head? hm) hreply
  | receive k => exact hI.receive hB h
  | task w =>
    have hwork : (Requests.work hs s.broker w).map (s.brokers (.work w)) = some t →
        Requests.requested (.work w) = none → Inv B conv hs t := by
      intro hmap hw
      obtain ⟨b, hb, rfl⟩ := Option.map_eq_some_iff.mp hmap
      have hout : b.out = s.broker.out ++ [] := by
        rw [(Requests.work_spec (Requests.run_traced hI.broker).1 hb).2.out, List.append_nil]
      exact hI.brokers (l := .work w) hb hw hout fun _ _ hm => Or.inl hm
    cases w with
    | request | malformed => cases h
    | _ => exact hwork h rfl
  | drain d unset =>
    obtain ⟨b, hb, rfl⟩ := Option.map_eq_some_iff.mp h
    obtain ⟨-, xs, hout, -⟩ := Requests.drain_sends hb
    refine hI.brokers (l := .drain d) hb rfl hout fun k m hm => ?_
    rw [hout, List.drop_left] at hm
    refine (List.mem_append.mp hm).imp_right fun hm => ?_
    obtain ⟨x, hx, hmx⟩ := List.mem_filterMap.mp hm
    obtain ⟨hx, hto⟩ := List.mem_filter.mp hx
    exact ⟨x, hx, of_decide_eq_true hto, unset, hmx⟩
  | command k m =>
    simp only [system] at h
    split_ifs at h with hreply
    cases h
    refine { hI with downward := fun k' m' hm' hreply' => ?_ }
    by_cases hk : k' = k
    · subst hk
      simp only [Function.update_self, List.mem_append, List.mem_singleton] at hm'
      rcases hm' with hm' | rfl
      · exact hI.downward k' m' hm' hreply'
      · exact absurd hreply' hreply
    · simp only [Function.update_of_ne hk] at hm'
      exact hI.downward k' m' hm' hreply'
  | lost k =>
    obtain rfl := Option.some.inj h
    exact hI.take k
  | lostReply k =>
    obtain rfl := Option.some.inj h
    exact hI.takeReply k

theorem run_inv (hB : Wired B) {ls : List (Label V)} (h : (system B conv hs).run init ls = some s) :
    Inv B conv hs s :=
  (system B conv hs).run_inv (fun _ _ _ hI hl => hI.step hB hl) inv_init h

/-! ### Every run -/

/-- A task of answer `b` of the broker has reported `p`. -/
def Reported (ls : List (Label V)) (b : ℕ) (p : Payload V) : Prop :=
  ∃ t, .task (.create b t p) ∈ ls ∨ .task (.setPayload b t p) ∈ ls

/-- Two elements with one image have one place in a list of images without duplicates. -/
theorem eq_of_nodup_filterMap {α β : Type*} {f : α → Option β} {l : List α} {a b : α} {v : β}
    (h : (l.filterMap f).Nodup) (ha : a ∈ l) (hb : b ∈ l) (hfa : f a = some v) (hfb : f b = some v) :
    a = b := by
  induction l with
  | nil => cases ha
  | cons x l ih =>
    rw [List.mem_cons] at ha hb
    rcases ha with rfl | ha <;> rcases hb with rfl | hb
    · rfl
    · rw [List.filterMap_cons_some hfa, List.nodup_cons] at h
      exact absurd (List.mem_filterMap.mpr ⟨b, hb, hfb⟩) h.1
    · rw [List.filterMap_cons_some hfb, List.nodup_cons] at h
      exact absurd (List.mem_filterMap.mpr ⟨a, ha, hfa⟩) h.1
    · exact ih (h.sublist ((List.sublist_cons_self x l).filterMap f)) ha hb

/-- What the broker has done beside taking requests and checking its queue, its tasks have done. -/
theorem task_mem {ls : List (Label V)} (h : (system B conv hs).run init ls = some s) :
    ∀ w, .work w ∈ s.work → (∀ k id cmd, w ≠ .request k id cmd) → w ≠ .malformed → .task w ∈ ls := by
  refine (system B conv hs).run_hist (P := fun ls s => ∀ w, .work w ∈ s.work →
    (∀ k id cmd, w ≠ .request k id cmd) → w ≠ .malformed → .task w ∈ ls) (fun _ hw => by cases hw) ?_ h
  intro ls s l t _ hP hl w hw hreq hmal
  have hold : .work w ∈ s.work → .task w ∈ ls ++ [l] := fun hmem =>
    List.mem_append_left _ (hP w hmem hreq hmal)
  cases l with
  | manager k l =>
    cases l with
    | receive m => cases hl
    | _ =>
      obtain ⟨u, -, rfl⟩ := Option.map_eq_some_iff.mp hl
      exact hold hw
  | deliver k =>
    obtain ⟨m, -, hmap⟩ := Option.bind_eq_some_iff.mp hl
    obtain ⟨u, -, rfl⟩ := Option.map_eq_some_iff.mp hmap
    exact hold hw
  | receive k =>
    simp only [system, receive] at hl
    split at hl
    · split at hl
      · rename_i m _ _ w' hw'
        obtain ⟨b, -, rfl⟩ := Option.map_eq_some_iff.mp hl
        rcases List.mem_append.mp hw with hw | hw
        · exact hold hw
        · -- the broker has taken a request
          obtain rfl := Requests.Label.work.inj (List.mem_singleton.mp hw)
          rw [handleDataMessage] at hw'
          split at hw' <;> cases hw' <;>
            (unfold asked at hreq hmal; split at hreq <;> simp_all)
      · cases hl
        exact hold hw
    · cases hl
  | task w' =>
    have hmap : (Requests.work hs s.broker w').map (s.brokers (.work w')) = some t := by
      cases w' with
      | request | malformed => cases hl
      | _ => exact hl
    obtain ⟨b, -, rfl⟩ := Option.map_eq_some_iff.mp hmap
    rcases List.mem_append.mp hw with hw | hw
    · exact hold hw
    · rw [Requests.Label.work.inj (List.mem_singleton.mp hw)]
      simp
  | drain d unset =>
    obtain ⟨b, -, rfl⟩ := Option.map_eq_some_iff.mp hl
    rcases List.mem_append.mp hw with hw | hw
    · exact hold hw
    · cases List.mem_singleton.mp hw
  | command k m =>
    simp only [system] at hl
    split_ifs at hl
    cases hl
    exact hold hw
  | lost k | lostReply k =>
    cases hl
    exact hold hw

theorem reported_of_given {ls : List (Label V)} (h : (system B conv hs).run init ls = some s) {b : ℕ}
    {p : Payload V} (hp : Requests.Given s.work b p) : Reported ls b p := by
  obtain ⟨t, hp⟩ := hp
  refine ⟨t, hp.imp (fun hp => ?_) fun hp => ?_⟩ <;> exact task_mem h _ hp (by simp) (by simp)

/-- The entries of the broker for manager `k` are for different requests. -/
theorem Inv.entry_unique (hI : Inv B conv hs s) {b b' : ℕ} {id : GlobalID} {cmd cmd' : Command V}
    (h : s.broker.resultTable b = some ⟨id, k, cmd⟩)
    (h' : s.broker.resultTable b' = some ⟨id, k, cmd'⟩) : b' = b := by
  obtain ⟨hR, hT⟩ := Requests.run_traced hI.broker
  have hnodup : (s.served k).Nodup :=
    ((List.sublist_append_left _ _).trans (hI.order k)).nodup (DeviceManager.run_inv (hI.managers k)).ids
  have hlt : ∀ {b cmd}, s.broker.resultTable b = some ⟨id, k, cmd⟩ →
      b ∈ List.range s.broker.queue.next := by
    intro b cmd hb
    refine List.mem_range.mpr ?_
    by_contra hge
    rw [(hR.unborn b (not_lt.mp hge)).2.2.2] at hb
    cases hb
  rw [State.served, ← hT.entries, Requests.State.entries, List.filter_filterMap, List.map_filterMap]
    at hnodup
  exact eq_of_nodup_filterMap hnodup (hlt h') (hlt h) (v := id) (by simp [h']) (by simp [h])

/-- The requests of a manager are entered by the broker in the order in which they were sent, none of
    them twice and none before another that is still on the way; and every entry is for a request of its
    manager, with the command that the broker reads in it. -/
theorem requests_in_order (hB : Wired B) {ls : List (Label V)}
    (h : (system B conv hs).run init ls = some s) :
    (∀ k, ((s.broker.entries.filter (·.deviceManagerID = k)).map ResultData.resultID ++
        s.underway B k).Sublist ((s.managers k).sent.map Entry.id)) ∧
      (∀ k, ((s.managers k).sent.map Entry.id).Nodup) ∧
      ∀ d ∈ s.broker.entries, ∃ e ∈ (s.managers d.deviceManagerID).sent,
        e.id = d.resultID ∧ e.cmd.ReadAs B d.cmd := by
  have hI := run_inv hB h
  rw [(Requests.run_traced hI.broker).2.entries]
  exact ⟨hI.order, fun k => (DeviceManager.run_inv (hI.managers k)).ids, hI.asked⟩

/-- What a manager acts on is the empty payload of a new result, or what is heard of a reply that the
    broker has sent for the entry of this request; and a last value only if the reply tells a success. -/
theorem Inv.acted_heard (hI : Inv B conv hs s) (hB : Wired B) {a : ℕ} {p : Payload V}
    (ha : (a, p) ∈ (s.managers k).acted) :
    ∃ e ∈ (s.managers k).sent, e.answer = a ∧ e.cmd.Answers p ∧
      ((p = .deviceList [] ∨ p = .lastValue none) ∨ ∃ x ∈ s.broker.out, ∃ cmd,
        s.broker.resultTable x.answer = some ⟨e.id, k, cmd⟩ ∧ e.cmd.ReadAs B cmd ∧
        Heard B x.result.payload p ∧
        (p.isLastValue = true → ∃ m unset, message B unset x = some m ∧ DeviceManager.Succeeds B m)) := by
  obtain ⟨e, he, hea, hclass, m, r, htold, rfl, hsucceeds⟩ :=
    (DeviceManager.run_traced (hI.managers k)).acted _ ha
  refine ⟨e, he, hea, hclass, ?_⟩
  rcases htold.payload with hnew | hp
  · left
    rw [hnew, DeviceManager.newResult]
    split
    · exact Or.inr rfl
    · exact Or.inl rfl
  · right
    obtain ⟨x, hx, hto, unset, hmx⟩ := hI.heard k m htold.received htold.reply
    obtain ⟨hxid, hheard⟩ := message_heard hB hmx
    have hxe : x.id = e.id := Except.ok.inj (hxid.symm.trans htold.named)
    obtain ⟨hR, hT⟩ := Requests.run_traced hI.broker
    obtain ⟨⟨⟨did, dk, cmd⟩, hd, hdk, hdid⟩, -⟩ := hT.out x hx
    obtain rfl : dk = k := hdk.trans hto
    obtain rfl : did = e.id := hdid.trans hxe
    obtain ⟨e', he', heid, hread⟩ := hI.asked _ (hT.entries ▸ Requests.mem_entries hR hd)
    obtain rfl := (DeviceManager.run_inv (hI.managers dk)).eq_of_id he' he heid
    exact ⟨x, hx, cmd, hd, hread, hheard htold.reply _ hp, fun hv => ⟨m, unset, hmx, hsucceeds hv⟩⟩

/-- What a manager acts on is of the class that its request asks for; and it is the empty payload of a
    new result, or what is heard of what a task has reported for the one answer that the broker has made
    for this request of this manager. -/
theorem acted_on_own_answer (hB : Wired B) {ls : List (Label V)}
    (h : (system B conv hs).run init ls = some s) {a : ℕ} {p : Payload V}
    (ha : (a, p) ∈ (s.managers k).acted) :
    ∃ e ∈ (s.managers k).sent, e.answer = a ∧ e.cmd.Answers p ∧
      ((p = .deviceList [] ∨ p = .lastValue none) ∨ ∃ b cmd said,
        s.broker.resultTable b = some ⟨e.id, k, cmd⟩ ∧
        (∀ b' cmd', s.broker.resultTable b' = some ⟨e.id, k, cmd'⟩ → b' = b) ∧
        e.cmd.ReadAs B cmd ∧ Reported ls b said ∧ Heard B said p) := by
  have hI := run_inv hB h
  obtain ⟨e, he, hea, hclass, hp⟩ := hI.acted_heard hB ha
  refine ⟨e, he, hea, hclass, hp.imp_right ?_⟩
  rintro ⟨x, hx, cmd, hd, hread, hheard, -⟩
  obtain ⟨-, hgiven⟩ := (Requests.run_traced hI.broker).2.out x hx
  exact ⟨x.answer, cmd, x.result.payload, hd, fun b' cmd' hb' => hI.entry_unique hd hb', hread,
    reported_of_given h hgiven, hheard⟩

end

end

/-! ### A base library to try it with -/

theorem readText_digits {b : ℕ} (hb : 1 < b) (hle : b ≤ 16) (n : ℕ) :
    Sample.readText b (hexText (Numeral.digits b n)).toList = some n := by
  rw [hexText, String.toList_ofList, Sample.readText,
    Sample.mapM_charDigit (fun _ => Sample.charDigit_hexChar) _
      (fun _ hd => (Numeral.digit_lt hb hd).trans_le hle)]
  exact Numeral.read_digits hb n

theorem sample_wired : Wired Sample.base where
  lawful := Sample.base_lawful
  parseMessageType_text t := by cases t <;> rfl
  parseGlobalID_text id := by
    simp only [Sample.base, Sample.parseNumber, readText_digits (show 1 < 10 by decide) (by decide)]
    rfl
  parseHex_formatHex n _ := by
    simp only [Sample.base, Sample.parseNumber, formatHex,
      readText_digits (show 1 < 16 by decide) le_rfl]

/-- A Z-Wave manager. -/
def sampleID : DeviceManagerID := ⟨0xa801⟩

def sampleSystem : Lts (State Reading Reading) (Label Reading) :=
  system Sample.base (fun v => v) [⟨0, fun _ => true⟩]

/-- The manager asks for its devices, a task reports one, and the reply comes back. -/
def sampleRun : List (Label Reading) :=
  let unset : Reading × SetStatus := (.nan, ⟨0⟩)
  [.manager sampleID (.getDeviceList 0 ⟨7⟩ ⟨0xa8⟩), .manager sampleID (.insert 0), .receive sampleID,
    .task (.create 0 0 (.deviceList [])), .task (.setPayload 0 0 (.deviceList [⟨⟨0xa8⟩, 1⟩])),
    .task (.setStatus 0 0 .success), .drain .begin unset, .drain .visit unset, .drain .endScan unset,
    .drain .pick unset, .drain .send unset, .drain .pick unset, .drain .leave unset, .deliver sampleID,
    .manager sampleID .handle, .manager sampleID .handle, .manager sampleID .handle,
    .manager sampleID .handle, .manager sampleID .handle, .manager sampleID .begin,
    .manager sampleID .visit, .manager sampleID .endScan, .manager sampleID .act]

/-- A Jablotron manager. -/
def otherID : DeviceManagerID := ⟨0xa101⟩

/-- Both managers ask, the first one twice, and the broker takes the requests in turn. -/
def crossing : List (Label Reading) :=
  [.manager sampleID (.getDeviceList 0 ⟨7⟩ ⟨0xa8⟩), .manager sampleID (.insert 0),
    .manager otherID (.getDeviceList 0 ⟨9⟩ ⟨0xa1⟩), .manager otherID (.insert 0),
    .manager sampleID (.getDeviceList 1 ⟨8⟩ ⟨0xa8⟩), .manager sampleID (.insert 1),
    .receive sampleID, .receive otherID, .receive sampleID]

/-- Each manager's requests are entered in the order in which it has sent them. -/
theorem sample_requests_in_order : ∃ s : State Reading Reading,
    sampleSystem.run init crossing = some s ∧ s.served sampleID = [⟨7⟩, ⟨8⟩] ∧
      s.served otherID = [⟨9⟩] ∧
      (∀ k, ((s.broker.entries.filter (·.deviceManagerID = k)).map ResultData.resultID ++
        s.underway Sample.base k).Sublist ((s.managers k).sent.map Entry.id)) ∧
      ∀ d ∈ s.broker.entries, ∃ e ∈ (s.managers d.deviceManagerID).sent,
        e.id = d.resultID ∧ e.cmd.ReadAs Sample.base d.cmd := by
  obtain ⟨s, hs, hserved, hother⟩ : ∃ s, sampleSystem.run init crossing = some s ∧
      s.served sampleID = [⟨7⟩, ⟨8⟩] ∧ s.served otherID = [⟨9⟩] := ⟨_, rfl, rfl, rfl⟩
  obtain ⟨horder, -, hread⟩ := requests_in_order sample_wired hs
  exact ⟨s, hs, hserved, hother, horder, hread⟩

/-- The manager acts on the device that the task has reported for its request. -/
theorem sample_acted_on_own_answer : ∃ s : State Reading Reading,
    sampleSystem.run init sampleRun = some s ∧ ∃ e ∈ (s.managers sampleID).sent, e.answer = 0 ∧
      ∃ b cmd said, s.broker.resultTable b = some ⟨e.id, sampleID, cmd⟩ ∧
        Reported sampleRun b said ∧ Heard Sample.base said (.deviceList [⟨⟨0xa8⟩, 1⟩]) := by
  obtain ⟨s, hs, hacted⟩ : ∃ s, sampleSystem.run init sampleRun = some s ∧
      (0, .deviceList [⟨⟨0xa8⟩, 1⟩]) ∈ (s.managers sampleID).acted :=
    ⟨_, rfl, List.mem_singleton_self _⟩
  obtain ⟨e, he, ha, -, (h | h) | ⟨b, cmd, said, hb, -, -, hreported, hheard⟩⟩ :=
    acted_on_own_answer sample_wired hs hacted
  · cases h
  · cases h
  · exact ⟨s, hs, e, he, ha, b, cmd, said, hb, hreported, hheard⟩

end Network
end BeeeOn
