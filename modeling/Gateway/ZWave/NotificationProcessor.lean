import Gateway.Schemes.Lts
import Gateway.Schemes.Since
import Gateway.Zmq.Message
import Gateway.Model.Sample

/-! @src z-wave/NotificationProcessor.cpp, z-wave/ZWaveMessage.h | name:The map of Z-Wave nodes |
    family:state

    The Z-Wave library reports every change of its network as a notification. The processor keeps a
    map from the node ids to the values of each node; `valueChanged` looks its node up there and sends
    the values of all of them. The notifications are handled one at a time, under `m_lock`.

    What the map is for is said over the history alone: a node is present from its `NodeAdded` to its
    `NodeRemoved`, and holds a value from the `ValueAdded` that comes while it is present to the
    `ValueRemoved` of that value, or the `NodeRemoved`. The code follows it with one exception:
    `valueRemoved` takes the node out with all its values. -/

namespace BeeeOn
open Schemes
variable {V ν : Type}

/-- `OpenZWave::Notification::NotificationType`. -/
inductive NotificationType where
  | valueAdded | valueRemoved | valueChanged | valueRefreshed | nodeAdded | nodeRemoved | nodeEvent
  | nodeNaming | nodeProtocolInfo | nodeQueriesComplete | pollingDisabled | pollingEnabled
  | driverReady | driverFailed | driverReset | awakeNodesQueried | allNodesQueried
  | allNodesQueriedSomeDead | notification | unknown
  deriving DecidableEq, Repr

/-- `OpenZWave::Notification`; `ν` are the value ids. -/
structure Notification (ν : Type) where
  type : NotificationType
  homeId : BitVec 32
  nodeId : BitVec 8
  valueID : ν
  deriving DecidableEq, Repr

structure NodeInfo (ν : Type) where
  polled : Bool
  values : List ν
  deriving DecidableEq, Repr

structure ZWaveSensorValue (ν : Type) where
  commandClass : ℤ
  index : ℤ
  valueID : ν
  value : String
  unit : String

/-- A product's class: `extractValues` is virtual. -/
structure ZWaveMessage (V ν : Type) where
  extractValues : List (ZWaveSensorValue ν) → Except Exn (List (SensorValue V))

namespace ZWaveMessage

def TEST_HOME_ID : BitVec 32 := 0xef1f4302

/-- `getEUID`: the home id that is passed is not used. -/
def getEUID (_homeId : BitVec 32) (nodeId : BitVec 8) : BitVec 56 :=
  (TEST_HOME_ID.setWidth 56 <<< 8) ||| nodeId.setWidth 56

end ZWaveMessage

namespace NotificationProcessor

abbrev NodeInfoMap (ν : Type) := BitVec 8 → Option (NodeInfo ν)

/-- What the calls of the processor meet while it handles one notification: the Z-Wave library with
    the texts it has for nodes and values, the registered factories, the set of paired devices and
    the listen counter, and the client that sends. -/
structure Surroundings (V ν : Type) where
  manufacturerId : BitVec 32 → BitVec 8 → String
  productId : BitVec 32 → BitVec 8 → String
  commandClassId : ν → BitVec 8
  index : ν → BitVec 8
  valueAsString : ν → String
  valueUnits : ν → String
  create : ℕ → ℕ → Except Exn (ZWaveMessage V ν)
  prefixZWave : DevicePrefix
  paired : DeviceID → Bool
  listen : Bool
  send : ZMQMessage → Except Exn Unit

/-- The calls of the library that return nothing. -/
inductive DriverCall where
  | cancelControllerCommand (homeId : BitVec 32)
  | writeConfig (homeId : BitVec 32)
  deriving DecidableEq, Repr

/-- `nodesMap` is `m_nodesMap`, `broadcasts` counts the broadcasts of `m_initCondition`. The others
    are histories: what the library was told, what was sent, and the exceptions that left
    `onNotification`. -/
structure State (ν : Type) where
  nodesMap : NodeInfoMap ν
  homeId : BitVec 32
  initFailed : Bool
  broadcasts : ℕ
  driver : List DriverCall
  sent : List ZMQMessage
  raised : List Exn

/-- The constructor; `m_homeId` is left as it is found. -/
def State.init (homeId : BitVec 32) : State ν := ⟨fun _ => none, homeId, false, 0, [], [], []⟩

/-! ### The handlers of the map -/

def valueAdded (x : Notification ν) (m : NodeInfoMap ν) : NodeInfoMap ν :=
  match m x.nodeId with
  | none => m
  | some i => Function.update m x.nodeId (some ⟨i.polled, i.values ++ [x.valueID]⟩)

/-- The node is erased, not the value. -/
def valueRemoved (x : Notification ν) (m : NodeInfoMap ν) : NodeInfoMap ν :=
  match m x.nodeId with
  | none => m
  | some _ => Function.update m x.nodeId none

/-- `emplace` leaves an existing node as it is. -/
def nodeAdded (x : Notification ν) (m : NodeInfoMap ν) : NodeInfoMap ν :=
  match m x.nodeId with
  | none => Function.update m x.nodeId (some ⟨false, []⟩)
  | some _ => m

def nodeRemoved (x : Notification ν) (m : NodeInfoMap ν) : NodeInfoMap ν :=
  match m x.nodeId with
  | none => m
  | some _ => Function.update m x.nodeId none

def setPolled (x : Notification ν) (polled : Bool) (m : NodeInfoMap ν) : NodeInfoMap ν :=
  match m x.nodeId with
  | none => m
  | some i => Function.update m x.nodeId (some ⟨polled, i.values⟩)

/-! ### Sending the values of a node -/

variable (B : Base V) (E : Surroundings V ν)

/-- `sendValue`: the message that was sent, if the device is paired or the manager listens. -/
def sendValue (homeId : BitVec 32) (nodeId : BitVec 8) (message : ZWaveMessage V ν) (values : List ν) :
    Except Exn (Option ZMQMessage) := do
  let extracted ← message.extractValues (values.map fun item =>
    ⟨(E.commandClassId item).toNat, (E.index item).toNat, item, E.valueAsString item,
      E.valueUnits item⟩)
  let deviceID : DeviceID := ⟨E.prefixZWave, ZWaveMessage.getEUID homeId nodeId⟩
  if !E.paired deviceID && !E.listen then return none
  else
    let m := ZMQMessage.fromSensorData B ⟨deviceID, extracted⟩
    E.send m
    return some m

/-- `valueChanged`: a number that does not parse or a product without a class is only logged. -/
def valueChanged (homeId : BitVec 32) (x : Notification ν) (m : NodeInfoMap ν) :
    Except Exn (Option ZMQMessage) :=
  match m x.nodeId with
  | none => .ok none
  | some i =>
    match B.parseHex (E.manufacturerId homeId x.nodeId), B.parseHex (E.productId homeId x.nodeId) with
    | .ok manufacturer, .ok product =>
      match E.create manufacturer product with
      | .error _ => .ok none
      | .ok message => sendValue B E homeId x.nodeId message i.values
    | _, _ => .ok none

/-- `onNotification`. -/
def onNotification (x : Notification ν) (s : State ν) : State ν :=
  match x.type with
  | .valueAdded => { s with nodesMap := valueAdded x s.nodesMap }
  | .valueRemoved => { s with nodesMap := valueRemoved x s.nodesMap }
  | .valueChanged =>
    match valueChanged B E s.homeId x s.nodesMap with
    | .ok none => s
    | .ok (some m) => { s with sent := s.sent ++ [m] }
    | .error e => { s with raised := s.raised ++ [e] }
  | .nodeAdded =>
    { s with
      nodesMap := nodeAdded x s.nodesMap
      driver := s.driver ++ [.cancelControllerCommand x.homeId, .writeConfig s.homeId] }
  | .nodeRemoved =>
    { s with nodesMap := nodeRemoved x s.nodesMap, driver := s.driver ++ [.writeConfig s.homeId] }
  | .pollingDisabled => { s with nodesMap := setPolled x false s.nodesMap }
  | .pollingEnabled => { s with nodesMap := setPolled x true s.nodesMap }
  | .driverReady => { s with homeId := x.homeId, driver := s.driver ++ [.writeConfig x.homeId] }
  | .driverFailed => { s with initFailed := true, broadcasts := s.broadcasts + 1 }
  | .awakeNodesQueried | .allNodesQueried | .allNodesQueriedSomeDead =>
    { s with broadcasts := s.broadcasts + 1 }
  | .nodeEvent | .valueRefreshed | .driverReset | .notification | .nodeNaming | .nodeProtocolInfo
  | .nodeQueriesComplete | .unknown => s

/-- The notifications of a run, each with the surroundings it is handled in. -/
def system : Lts (State ν) (Surroundings V ν × Notification ν) where
  step s l := some (onNotification B l.1 l.2 s)

/-- What a notification does to the map. -/
def nodesAfter (x : Notification ν) (m : NodeInfoMap ν) : NodeInfoMap ν :=
  match x.type with
  | .valueAdded => valueAdded x m
  | .valueRemoved => valueRemoved x m
  | .nodeAdded => nodeAdded x m
  | .nodeRemoved => nodeRemoved x m
  | .pollingDisabled => setPolled x false m
  | .pollingEnabled => setPolled x true m
  | _ => m

theorem onNotification_nodesMap (x : Notification ν) (s : State ν) :
    (onNotification B E x s).nodesMap = nodesAfter x s.nodesMap := by
  unfold onNotification nodesAfter
  cases x.type with
  | valueChanged =>
    simp only
    split <;> rfl
  | _ => rfl

/-! ### What the map is for -/

def Is (t : NotificationType) (n : BitVec 8) (x : Notification ν) : Prop := x.type = t ∧ x.nodeId = n

/-- Node `n` was added and not removed since. -/
def Present (n : BitVec 8) : List (Notification ν) → Prop :=
  Since (fun _ => Is .nodeAdded n) (Is .nodeRemoved n)

/-- Value `v` was added to node `n` while it was present, and neither was removed since. -/
def Holds (n : BitVec 8) (v : ν) : List (Notification ν) → Prop :=
  Since (fun before x => (Is .valueAdded n x ∧ x.valueID = v) ∧ Present n before)
    (fun x => Is .nodeRemoved n x ∨ Is .valueRemoved n x ∧ x.valueID = v)

/-- The entry `o` of node `n` says what the history says of it. -/
def FollowsAt (h : List (Notification ν)) (n : BitVec 8) (o : Option (NodeInfo ν)) : Prop :=
  (o.isSome ↔ Present n h) ∧ ∀ i, o = some i → ∀ v, v ∈ i.values ↔ Holds n v h

/-- The map says what the history says. -/
def Follows (h : List (Notification ν)) (m : NodeInfoMap ν) : Prop := ∀ n, FollowsAt h n (m n)

/-- The notification that takes more out of the map than it should. -/
def ErasesNode (m : NodeInfoMap ν) (x : Notification ν) : Prop :=
  x.type = .valueRemoved ∧ (m x.nodeId).isSome

section
variable {h : List (Notification ν)} {n : BitVec 8} {v : ν} {x : Notification ν}
  {m : NodeInfoMap ν}

theorem present_concat :
    Present n (h ++ [x]) ↔ Is .nodeAdded n x ∨ Present n h ∧ ¬ Is .nodeRemoved n x := since_concat

theorem holds_concat : Holds n v (h ++ [x]) ↔
    (Is .valueAdded n x ∧ x.valueID = v) ∧ Present n h ∨
    Holds n v h ∧ ¬ (Is .nodeRemoved n x ∨ Is .valueRemoved n x ∧ x.valueID = v) := since_concat

/-- A value is held by a node that is present. -/
theorem Holds.present (hv : Holds n v h) : Present n h := by
  obtain ⟨as, x, bs, rfl, ⟨⟨hx, _⟩, hp⟩, hb⟩ := hv
  refine hp.append fun y hy => ?_
  rcases List.mem_cons.mp hy with rfl | hy
  · rintro ⟨ht, _⟩
    rw [hx.1] at ht
    cases ht
  · exact fun hr => hb y hy (Or.inl hr)

/-- A notification about another node changes nothing for this one. -/
theorem followsAt_other (hn : x.nodeId ≠ n) {o : Option (NodeInfo ν)} :
    FollowsAt (h ++ [x]) n o ↔ FollowsAt h n o := by
  have his : ∀ t, ¬ Is t n x := fun t ht => hn ht.2
  simp only [FollowsAt, present_concat, holds_concat, his, false_or, false_and, not_false_eq_true,
    and_true, or_false]

theorem follows_nil : Follows ([] : List (Notification ν)) fun _ => none :=
  fun _ => ⟨by simp [Present, not_since_nil], nofun⟩

/-! ### One notification -/

/-- What a notification does to the entry of its node. -/
def entryAfter (x : Notification ν) (o : Option (NodeInfo ν)) : Option (NodeInfo ν) :=
  match x.type with
  | .valueAdded => o.map fun i => ⟨i.polled, i.values ++ [x.valueID]⟩
  | .valueRemoved | .nodeRemoved => none
  | .nodeAdded => some (o.getD ⟨false, []⟩)
  | .pollingDisabled => o.map fun i => ⟨false, i.values⟩
  | .pollingEnabled => o.map fun i => ⟨true, i.values⟩
  | _ => o

theorem nodesAfter_eq (x : Notification ν) (m : NodeInfoMap ν) :
    nodesAfter x m = Function.update m x.nodeId (entryAfter x (m x.nodeId)) := by
  unfold nodesAfter entryAfter valueAdded valueRemoved nodeAdded nodeRemoved setPolled
  cases ho : m x.nodeId <;> cases x.type <;>
    simp only [Option.map_none, Option.map_some, Option.getD_none, Option.getD_some] <;>
    first | rfl | rw [← ho, Function.update_eq_self]

/-- The history of a node goes on as its entry does, unless a value is removed from it. -/
theorem followsAt_entryAfter {o : Option (NodeInfo ν)} (hf : FollowsAt h x.nodeId o)
    (hx : ¬ (x.type = .valueRemoved ∧ o.isSome)) :
    FollowsAt (h ++ [x]) x.nodeId (entryAfter x o) := by
  obtain ⟨hp, hv⟩ := hf
  simp only [FollowsAt, present_concat, holds_concat, Is, and_true, entryAfter]
  cases ht : x.type with
  | valueAdded =>
    refine ⟨by simpa using hp, fun i hi v => ?_⟩
    obtain ⟨j, rfl, rfl⟩ := Option.map_eq_some_iff.mp hi
    have hpres : Present x.nodeId h := hp.mp rfl
    simp [hv j rfl, hpres, or_comm, eq_comm]
  | valueRemoved =>
    have hnone : o = none := by simpa [ht] using hx
    subst hnone
    exact ⟨by simpa using hp, nofun⟩
  | nodeAdded =>
    refine ⟨by simp, fun i hi v => ?_⟩
    cases o with
    | some j => cases hi; simpa using hv j rfl v
    | none =>
      cases hi
      have habs : ¬ Present x.nodeId h := fun hc => Bool.noConfusion (hp.mpr hc)
      simpa using fun hc : Holds x.nodeId v h => habs hc.present
  | nodeRemoved => exact ⟨by simp, nofun⟩
  | pollingDisabled =>
    refine ⟨by simpa using hp, fun i hi v => ?_⟩
    obtain ⟨j, rfl, rfl⟩ := Option.map_eq_some_iff.mp hi
    simpa using hv j rfl v
  | pollingEnabled =>
    refine ⟨by simpa using hp, fun i hi v => ?_⟩
    obtain ⟨j, rfl, rfl⟩ := Option.map_eq_some_iff.mp hi
    simpa using hv j rfl v
  | _ => exact ⟨by simpa using hp, fun i hi v => by simpa using hv i hi v⟩

theorem follows_step (hf : Follows h m) (hx : ¬ ErasesNode m x) :
    Follows (h ++ [x]) (nodesAfter x m) := by
  intro n
  rw [nodesAfter_eq]
  by_cases hn : n = x.nodeId
  · subst hn
    rw [Function.update_self]
    exact followsAt_entryAfter (hf _) hx
  · rw [Function.update_of_ne hn, followsAt_other (Ne.symm hn)]
    exact hf n

/-- A removed value takes its node out of the map, and leaves it in the history. -/
theorem not_follows_step (hf : Follows h m) (hx : ErasesNode m x) :
    ¬ Follows (h ++ [x]) (nodesAfter x m) := by
  intro hf'
  have hpres : Present x.nodeId (h ++ [x]) := by
    rw [present_concat]
    refine Or.inr ⟨(hf x.nodeId).1.mp hx.2, ?_⟩
    simp [Is, hx.1]
  have hsome := (hf' x.nodeId).1.mpr hpres
  rw [nodesAfter_eq, Function.update_self] at hsome
  simp [entryAfter, hx.1] at hsome

end

/-! ### Runs -/

/-- In every state of a run the map says what the notifications so far say. -/
def FollowsAlong (homeId : BitVec 32) (ls : List (Surroundings V ν × Notification ν)) : Prop :=
  ∀ as bs t, ls = as ++ bs → (system B).run (State.init homeId) as = some t →
    Follows (as.map Prod.snd) t.nodesMap

theorem system_step {s t : State ν} {l : Surroundings V ν × Notification ν} :
    (system B).step s l = some t ↔ onNotification B l.1 l.2 s = t :=
  Option.some_inj

/-- The map follows the history of a run exactly if no `ValueRemoved` comes for a node that is in the
    map. -/
theorem nodes_follow_history_iff (homeId : BitVec 32) (ls : List (Surroundings V ν × Notification ν)) :
    FollowsAlong B homeId ls ↔
      (system B).Meets (fun s l => ¬ ErasesNode s.nodesMap l.2) (State.init homeId) ls := by
  obtain ⟨u, hu⟩ := (system B).run_total (fun _ _ => ⟨_, rfl⟩) ls (State.init homeId)
  refine (system B).run_states_iff (P := fun ls s => Follows (ls.map Prod.snd) s.nodesMap)
    (Q := fun ls s => Follows (ls.map Prod.snd) s.nodesMap)
    (C := fun _ s l => ¬ ErasesNode s.nodesMap l.2) follows_nil (fun _ _ hf => hf) ?_ ?_ hu
  · intro as s l t hf ht hnext hx
    obtain rfl := (system_step B).mp ht
    rw [List.map_append, List.map_singleton, onNotification_nodesMap] at hnext
    exact not_follows_step hf hx hnext
  · intro as s l t hf ht hx
    obtain rfl := (system_step B).mp ht
    rw [List.map_append, List.map_singleton, onNotification_nodesMap]
    exact follows_step hf hx

/-- Surroundings in which no product has a class. -/
def bare : Surroundings Reading ℕ where
  manufacturerId _ _ := "0x0086"
  productId _ _ := "0x0064"
  commandClassId _ := 0
  index _ := 0
  valueAsString _ := ""
  valueUnits _ := ""
  create _ _ := .error .other
  prefixZWave := ⟨0xa8⟩
  paired _ := false
  listen := false
  send _ := .ok ()

/-- Node 5 is added with the values 1 and 2; when value 1 is removed, the node is gone. -/
theorem node_lost : ¬ ∀ ls : List (Surroundings Reading ℕ × Notification ℕ),
    FollowsAlong Sample.base 0 ls := by
  intro hall
  let h : List (Notification ℕ) :=
    [⟨.nodeAdded, 0, 5, 0⟩, ⟨.valueAdded, 0, 5, 1⟩, ⟨.valueAdded, 0, 5, 2⟩, ⟨.valueRemoved, 0, 5, 1⟩]
  have hf := hall (h.map fun x => (bare, x)) (h.map fun x => (bare, x)) [] _ (by simp) rfl 5
  have hpres : Present 5 h := ⟨[], _, _, rfl, ⟨rfl, rfl⟩, by simp [Is]⟩
  exact Bool.noConfusion (hf.1.mpr hpres)

end NotificationProcessor
end BeeeOn
