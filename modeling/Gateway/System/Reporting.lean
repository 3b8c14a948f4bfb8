import Gateway.Jablotron.Run
import Gateway.ZWave.Reports

/-! @src jablotron/JablotronDeviceManager.cpp, z-wave/NotificationProcessor.cpp, zmq/ZMQBroker.cpp |
    name:From a sensor to the exporters | family:end to end

    A measured value goes from the serial line, or from the Z-Wave library, through its manager and the
    sockets to the broker, and from there to the exporters. The broker hears of many managers at a time,
    of the server and of its timer; it tells the managers apart by the identities of their sockets.

    What is exported of one manager is what that manager has to report, record by record and in its
    order, as far as its messages have arrived: nothing the broker does besides comes in between
    (`exported_reports`). With what the managers send, this says of the serial stream
    (`stream_exported`) and of the notifications of a Z-Wave network (`nodes_exported`) what comes of
    them in the end. -/

namespace BeeeOn.Reporting
open Schemes Broker
open ZMQBroker (parsed)
variable {V ν : Type}

/-- The text that a step of the broker receives under the identity. -/
def textFrom (identity : String) : Label V → Option String
  | .data sender json => if sender = identity then some json else none
  | _ => none

def arrived (identity : String) (ls : List (Label V)) : List String := ls.filterMap (textFrom identity)

/-- What is exported in the steps that receive under the identity. -/
def exportedFrom (P : Broker.Platform V) (identity : String) (ls : List (Label V)) : List (SensorData V) :=
  (ls.filter fun l => (textFrom identity l).isSome).filterMap (exports P)

/-- What the sockets between a manager and the broker rely on: the manager has an identity that parses,
    and the texts of its messages are read as what they are. -/
structure Link (P : Broker.Platform V) (identity : String) (sent : List ZMQMessage) : Prop where
  lawful : P.base.Lawful
  parseMessageType : P.base.parseMessageType ZMQMessageType.measuredValues.text = .ok .measuredValues
  parseJson : ∀ m ∈ sent, P.base.parseJson (P.text m) = .ok m
  identity : ∃ manager, DeviceManagerID.parse P.base identity = .ok manager

variable {P : Broker.Platform V} {identity : String}

theorem exportedFrom_eq (ls : List (Label V)) : exportedFrom P identity ls =
    (arrived identity ls).filterMap fun json => exports P (.data identity json) := by
  induction ls with
  | nil => rfl
  | cons l ls ih =>
    rw [exportedFrom, List.filter_cons, arrived, List.filterMap_cons]
    cases l with
    | data sender json =>
      by_cases hs : sender = identity
      · subst hs
        have htext : textFrom sender (.data sender json : Label V) = some json := if_pos rfl
        rw [htext, Option.isSome_some, if_pos rfl, List.filterMap_cons, List.filterMap_cons]
        cases exports P (.data sender json) with
        | none => exact ih
        | some data => exact congrArg (data :: ·) ih
      · have htext : textFrom identity (.data sender json : Label V) = none := if_neg hs
        rw [htext]
        exact ih
    | _ => exact ih

/-- A record that comes through a message is exported as it is received. -/
theorem exports_message {sent : List ZMQMessage} (hlink : Link P identity sent) {data : SensorData V}
    (hsound : data.Sound) (hsent : ZMQMessage.fromSensorData P.base data ∈ sent) :
    exports P (.data identity (P.text (ZMQMessage.fromSensorData P.base data))) =
      (ZMQMessage.received P.base data).toOption := by
  obtain ⟨manager, hmanager⟩ := hlink.identity
  have htype : (ZMQMessage.fromSensorData P.base data).type P.base = .ok .measuredValues := by
    have hget : (ZMQMessage.fromSensorData P.base data).get "message_type" =
        some (.str ZMQMessageType.measuredValues.text) := by
      rw [ZMQMessage.fromSensorData, JsonObject.get_set_ne _ _ (by decide)]
      rfl
    rw [ZMQMessage.type, hlink.lawful.extractString_str hget]
    exact hlink.parseMessageType
  have hparsed : parsed P.base (P.text (ZMQMessage.fromSensorData P.base data)) =
      .ok (ZMQMessage.fromSensorData P.base data) := by
    simp only [parsed, ZMQMessage.fromJSON, hlink.parseJson _ hsent, bind, Except.bind, htype]
    rfl
  rw [exports, hparsed, hmanager]
  dsimp only
  rw [reportOf, htype]
  dsimp only
  rw [ZMQMessage.toSensorData_sound hlink.lawful hsound]

/-- As far as the messages for the records have arrived, the records are exported, in every run of the
    broker. -/
theorem exported_reports {table : ZMQDeviceManagerTable} {ls : List (Label V)} {t : State V}
    (hrun : (Broker.system P).run (start table) ls = some t) {datas : List (SensorData V)}
    (hsound : ∀ data ∈ datas, data.Sound)
    (hlink : Link P identity (datas.map (ZMQMessage.fromSensorData P.base)))
    (harrived : arrived identity ls <+: (datas.map (ZMQMessage.fromSensorData P.base)).map P.text) :
    exportedFrom P identity ls = (datas.take (arrived identity ls).length).filterMap
        (fun data => (ZMQMessage.received P.base data).toOption) ∧
      (exportedFrom P identity ls).Sublist t.exported := by
  constructor
  · generalize hn : (arrived identity ls).length = n
    have htake := List.prefix_iff_eq_take.mp harrived
    rw [hn, List.map_map, ← List.map_take] at htake
    rw [exportedFrom_eq, htake, List.filterMap_map]
    refine List.filterMap_congr fun data hdata => ?_
    have hmem := List.mem_of_mem_take hdata
    exact exports_message hlink (hsound data hmem) (List.mem_map_of_mem hmem)
  · rw [run_exported hrun]
    exact (List.filter_sublist.filterMap _).trans (List.nil_append _ ▸ List.Sublist.refl _)

/-! ### The serial line and the Z-Wave network -/

section
open JablotronDeviceManager
variable {J : JablotronDeviceManager.Platform V}

/-- For every serial stream that begins anywhere in a frame, every way of cutting it into reads and every
    run of the broker: the messages that are handled are those of the stream, and what has arrived of the
    manager's messages is exported, which are the records of their lines, each with what the round that
    has extracted it looks up. -/
theorem stream_exported {partFrame : List Char} {m : Message} (hp : partFrame <:+ m.frame)
    {ms : List Message} {chunks : List (List Char)} (hc : chunks.flatten = partFrame ++ frames ms)
    {n : ℕ} (hn : (leading partFrame ++ ms).length ≤ n) {rs : List Round}
    (hread : (rs.filter Round.ready).map Round.chunk = chunks ++ List.replicate n [])
    {v : SensorValue V} {table : ZMQDeviceManagerTable} {ls : List (Label V)} {t : Broker.State V}
    (hrun : (Broker.system P).run (start table) ls = some t)
    (hlink : Link P identity (serialSent P.base J v rs))
    (harrived : arrived identity ls <+: (serialSent P.base J v rs).map P.text) :
    (handled [] rs).map Prod.snd = (leading partFrame ++ ms).map Message.text ∧
      exportedFrom P identity ls = ((serialReports P.base J v (handled [] rs)).take
        (arrived identity ls).length).filterMap
          (fun data => (ZMQMessage.received P.base data).toOption) ∧
      (exportedFrom P identity ls).Sublist t.exported := by
  rw [serialSent_eq] at hlink harrived
  exact ⟨handled_all hp hc hn hread, exported_reports hrun (reports_sound _ _) hlink harrived⟩

end

section
open NotificationProcessor
variable {N : ZWaveMessage.Numbers V}

/-- For every run of the Z-Wave processor and every run of the broker: what has arrived of the messages of
    the processor is exported, which are the records of the nodes whose values have changed. -/
theorem nodes_exported {ns : List (Surroundings V ν × Notification ν)}
    (hE : ∀ l ∈ ns, Installed P.base N l.1) {homeId : BitVec 32} {u : NotificationProcessor.State ν}
    (hu : (NotificationProcessor.system P.base).run (State.init homeId) ns = some u)
    {table : ZMQDeviceManagerTable} {ls : List (Label V)} {t : Broker.State V}
    (hrun : (Broker.system P).run (start table) ls = some t) (hlink : Link P identity u.sent)
    (harrived : arrived identity ls <+: u.sent.map P.text) :
    exportedFrom P identity ls = ((NotificationProcessor.reports P.base N homeId (fun _ => none) ns).take
        (arrived identity ls).length).filterMap
          (fun data => (ZMQMessage.received P.base data).toOption) ∧
      (exportedFrom P identity ls).Sublist t.exported := by
  have hsent : u.sent =
      (NotificationProcessor.reports P.base N homeId (fun _ => none) ns).map
        (ZMQMessage.fromSensorData P.base) := sent_reports hE hu
  rw [hsent] at hlink harrived
  exact exported_reports hrun reports_sound hlink harrived

end

/-! ### A smoke detector and a switch -/

/-- The text of a JSON value, as deep as `depth`. -/
def deepText : ℕ → Json → String
  | _, .str s => "\"" ++ s ++ "\""
  | _, .num n => toString n
  | depth + 1, .arr items => "[" ++ String.intercalate "," (items.map (deepText depth)) ++ "]"
  | depth + 1, .obj fields => "\x7b" ++ String.intercalate "," (fields.map fun f =>
      "\"" ++ f.1 ++ "\":" ++ deepText depth f.2) ++ "\x7d"
  | _, _ => "null"

def messageText (m : ZMQMessage) : String := deepText 3 (.obj m)

/-- A platform on which the JSON parser knows the texts of the messages in `sent`. -/
def reading (sent : List ZMQMessage) : Broker.Platform ℕ where
  base := { Sample.whole with
    parseJson := fun s => match sent.find? fun m => messageText m = s with
      | some m => .ok m
      | none => .error .syntaxError }
  text := messageText
  before d e := decide (Sample.word d < Sample.word e)
  handlers := []

/-- A message is found by its text. -/
theorem find_messageText {sent : List ZMQMessage} (h : (sent.map messageText).Nodup) {m : ZMQMessage}
    (hm : m ∈ sent) : (sent.find? fun m' => messageText m' = messageText m) = some m := by
  induction sent with
  | nil => cases hm
  | cons m' sent ih =>
    rw [List.map_cons, List.nodup_cons] at h
    rcases List.mem_cons.mp hm with rfl | hm
    · exact List.find?_cons_of_pos (decide_eq_true rfl)
    · have hne : messageText m' ≠ messageText m := fun heq =>
        h.1 (heq ▸ List.mem_map_of_mem hm)
      rw [List.find?_cons_of_neg (by simpa using hne)]
      exact ih h.2 hm

theorem reading_link {sent : List ZMQMessage} (h : (sent.map messageText).Nodup) :
    Link (reading sent) "A801" sent where
  lawful := Sample.lawful_parseJson Sample.whole_lawful _
  parseMessageType := rfl
  parseJson m hm := by
    have hfind := find_messageText h hm
    simp only [reading, hfind]
  identity := ⟨⟨0xa801⟩, rfl⟩

def smokeData : SensorData ℕ := ⟨⟨⟨0x09⟩, 0x640000⟩, [⟨⟨2⟩, 100, true⟩, ⟨⟨0⟩, 1, true⟩]⟩

/-- What a smoke detector comes to that gives alarm. -/
def smokeDatas : List (SensorData ℕ) := [smokeData, ⟨smokeData.deviceID, []⟩]

def smokeSent : List ZMQMessage := smokeDatas.map (ZMQMessage.fromSensorData Sample.whole)

/-- The messages in `sent` reach the broker, with other things between them. -/
def reaching (sent : List ZMQMessage) : List (Label ℕ) :=
  [.tick 1, .data "A802" "no message"] ++ sent.flatMap fun m =>
    [.data "A801" (messageText m), .tick 2]

section
open JablotronDeviceManager

def partFrame : List Char := "B\n".toList

def smokeChunks : List (List Char) := ["B\n\n[0655".toList, "3600] JA-83P SENSOR LB:0\n".toList]

/-- The rounds in which the detector is heard: the devices are not known at first, the stream begins within
    a frame, and the message is cut in two. It is extracted while the manager listens, and only then. -/
def smokeRounds : List Round :=
  [⟨false, "lost".toList, fun _ => false, false⟩, ⟨true, "B\n\n[0655".toList, fun _ => false, false⟩,
    ⟨true, "3600] JA-83P SENSOR LB:0\n".toList, fun _ => false, true⟩, ⟨true, [], fun _ => false, false⟩,
    ⟨true, [], fun _ => false, false⟩]

def smokeMessage : Message := ⟨"[06553600] JA-83P SENSOR LB:0".toList, by decide, by decide⟩

def quietValue : SensorValue ℕ := sensorValue wholePlatform ⟨0⟩ 0

theorem smoke_reports : serialReports (reading smokeSent).base wholePlatform quietValue
    (handled [] smokeRounds) = smokeDatas := by
  decide +kernel

/-- The alarm and the empty record behind it are exported, in this order. -/
theorem smoke_exported : exportedFrom (reading smokeSent) "A801" (reaching smokeSent) = smokeDatas := by
  let ab : Message := ⟨"AB".toList, by decide, by decide⟩
  have hp : partFrame <:+ ab.frame := ⟨"\nA".toList, rfl⟩
  have hc : smokeChunks.flatten = partFrame ++ frames [smokeMessage] := rfl
  have hn : (leading partFrame ++ [smokeMessage]).length ≤ 2 := by decide
  have hread : (smokeRounds.filter Round.ready).map Round.chunk = smokeChunks ++ List.replicate 2 [] := rfl
  have hsent : serialSent (reading smokeSent).base wholePlatform quietValue smokeRounds = smokeSent := by
    rw [serialSent_eq, smoke_reports]
    rfl
  have hlink : Link (reading smokeSent) "A801" smokeSent := reading_link (by decide +kernel)
  have hrun : ((Broker.system (reading smokeSent)).run (start []) (reaching smokeSent)).isSome = true := by
    decide +kernel
  obtain ⟨t, hrun⟩ := Option.isSome_iff_exists.mp hrun
  have hexported := (stream_exported hp hc hn hread hrun (hsent ▸ hlink) (by
    rw [hsent]
    exact ⟨[], rfl⟩)).2.1
  rw [hexported, smoke_reports]
  decide +kernel

end

section
open NotificationProcessor

def wholeNumbers : ZWaveMessage.Numbers ℕ where
  parse s := (Sample.parseNumber 10 s).map Int.ofNat
  celsius t := (t - 32) * 5 / 9
  zero := 0
  one := 1

/-- A network in which every node is the switch of Popp, with the value `text`. -/
def switches (B : Base ℕ) (text : String) : Surroundings ℕ ℕ where
  manufacturerId _ _ := "0154"
  productId _ _ := "0001"
  commandClassId _ := 37
  index _ := 0
  valueAsString _ := text
  valueUnits _ := ""
  create manufacturer product := (GenericZWaveMessageFactory.create manufacturer product).map
    (ZWaveProduct.message B wholeNumbers)
  prefixZWave := ⟨0xa8⟩
  paired _ := true
  listen := false
  send _ := .ok ()

/-- Node 5 is added and switched on, then off. -/
def switching (B : Base ℕ) : List (Surroundings ℕ ℕ × Notification ℕ) :=
  [(switches B "True", ⟨.nodeAdded, 0, 5, 0⟩), (switches B "True", ⟨.valueAdded, 0, 5, 1⟩),
    (switches B "True", ⟨.valueChanged, 0, 5, 1⟩), (switches B "False", ⟨.valueChanged, 0, 5, 1⟩)]

def switchDatas : List (SensorData ℕ) :=
  [⟨⟨⟨0xa8⟩, ZWaveMessage.getEUID 0 5⟩, [⟨⟨0⟩, 1, true⟩]⟩,
    ⟨⟨⟨0xa8⟩, ZWaveMessage.getEUID 0 5⟩, [⟨⟨0⟩, 0, true⟩]⟩]

def switchSent : List ZMQMessage := switchDatas.map (ZMQMessage.fromSensorData Sample.whole)

/-- Of the two messages the first has arrived. -/
theorem switch_exported : exportedFrom (reading switchSent) "A801" (reaching (switchSent.take 1)) =
    switchDatas.take 1 := by
  let B := (reading switchSent).base
  have hE : ∀ l ∈ switching B, Installed B wholeNumbers l.1 := by
    simp [switching, Installed, switches]
  obtain ⟨u, hu⟩ := (NotificationProcessor.system B).run_total (fun _ _ => ⟨_, rfl⟩) (switching B)
    (State.init 0)
  have hreports : NotificationProcessor.reports B wholeNumbers 0 (fun _ => none) (switching B) =
      switchDatas := by decide +kernel
  have hsent : u.sent = switchSent := by
    have hdatas := sent_reports hE hu
    change u.sent = (NotificationProcessor.reports B wholeNumbers 0 (fun _ => none) (switching B)).map
      (ZMQMessage.fromSensorData B) at hdatas
    rw [hdatas, hreports]
    rfl
  have hlink : Link (reading switchSent) "A801" u.sent := by
    rw [hsent]
    exact reading_link (by decide +kernel)
  have hrun : ((Broker.system (reading switchSent)).run (start [])
      (reaching (switchSent.take 1))).isSome = true := by decide +kernel
  obtain ⟨t, hrun⟩ := Option.isSome_iff_exists.mp hrun
  have hexported := (nodes_exported hE hu hrun hlink (by
    rw [hsent]
    exact ⟨(switchSent.drop 1).map messageText, rfl⟩)).1
  rw [hexported, hreports]
  decide +kernel

end

end BeeeOn.Reporting
