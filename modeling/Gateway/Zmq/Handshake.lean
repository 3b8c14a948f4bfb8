import Gateway.Zmq.Client

/-! @src model/DeviceManagerID.cpp, zmq/ZMQBroker.cpp, zmq/ZMQMessage.cpp, zmq/ZMQClient.cpp |
    name:The handshake of two programs | family:agreement

    The id of a device manager is made in the broker from a prefix and an ident, sent as hexadecimal
    text in JSON, read by the client, and comes back to the broker as the identity of a socket. The two
    constructors of `DeviceManagerID` do not check the same: a prefix and an ident always make an id,
    while a word is refused if its prefix is `Invalid`, which is the prefix of a client that has not been
    given one. So the two programs agree for every other prefix that can be asked for
    (`handshake_agrees_iff`), and for that one the client raises on the answer. -/

namespace BeeeOn
variable {V : Type}

namespace Handshake
open ZMQBroker (Hello)

/-- What both programs are built over: the base library and `toString` of a message. -/
structure Wire (V : Type) where
  base : Base V
  text : ZMQMessage → String

/-- What the handshake relies on: members, message types and hexadecimal numbers are read as they are
    written, the text of a response is JSON, and `DevicePrefix::fromRaw` knows the prefixes that
    `DevicePrefix::parse` knows. -/
structure Wire.Lawful (W : Wire V) : Prop where
  extractString_str : ∀ {o : JsonObject} {k s : String}, o.get k = some (.str s) →
    W.base.extractString o k = .ok s
  parseMessageType_text : ∀ t : ZMQMessageType, W.base.parseMessageType t.text = .ok t
  parseJson_text : ∀ id, W.base.parseJson (W.text (ZMQMessage.fromHelloResponse id)) =
    .ok (ZMQMessage.fromHelloResponse id)
  parseHex_formatHex : ∀ n ≤ USHRT_MAX, W.base.parseHex (formatHex n) = .ok n
  fromRaw_parse : ∀ {name p}, W.base.parseDevicePrefix name = .ok p →
    W.base.devicePrefixFromRaw p.raw = .ok p

/-- The text is a hello request for the prefix of that name. -/
def HelloRequest (W : Wire V) (json name : String) : Prop :=
  ∃ req, ZMQMessage.fromJSON W.base json = .ok req ∧ req.type W.base = .ok .helloRequest ∧
    W.base.extractString req "device_manager_prefix" = .ok name

/-- The broker answers the request with a new id of the prefix `p`, stored in its table; whatever its
    state, the client that reads the answer has this id and has not raised; and the identity that it
    makes of the id is read by the data path of the broker as the same id. -/
def Agrees (W : Wire V) (s : Hello) (json : String) (p : DevicePrefix) : Prop :=
  ∃ id, ZMQBroker.helloServerReceive W.base s json =
      (.ok (), ZMQBroker.send { s with table := s.table ++ [id] } .hello (.fromHelloResponse id)) ∧
    id.devicePrefix = p ∧
    (∀ (C : ZMQClient.Platform V) (c : ZMQClient.State), C.base = W.base →
      ZMQClient.helloServerReceive C c (W.text (.fromHelloResponse id)) =
        (.ok (), { c with deviceManagerID := some id })) ∧
    DeviceManagerID.parse W.base id.toString = .ok id

variable {W : Wire V}

/-! ### The three programs on the way -/

/-- The broker answers a request for a known prefix if there is a slot. -/
theorem hello_registers {s : Hello} {json name : String} {p : DevicePrefix}
    (hreq : HelloRequest W json name) (hp : W.base.parseDevicePrefix name = .ok p)
    (hfree : s.table.length ≤ ZMQDeviceManagerTable.UINT8_MAX) :
    ∃ id, id.devicePrefix = p ∧ ZMQBroker.helloServerReceive W.base s json =
      (.ok (), ZMQBroker.send { s with table := s.table ++ [id] } .hello (.fromHelloResponse id)) := by
  obtain ⟨req, hjson, htype, hname⟩ := hreq
  have hregister : (req.toHelloRequest W.base).bind s.table.registerDaemonPrefix =
      .ok (.ofPrefix p s.table.getFirstEmptyID, s.table ++ [.ofPrefix p s.table.getFirstEmptyID]) := by
    rw [ZMQMessage.toHelloRequest, ZMQMessage.getDevicePrefix, hname]
    simp only [bind, Except.bind, hp]
    exact ZMQDeviceManagerTable.registerDaemonPrefix_ok.mpr ⟨hfree, rfl, rfl⟩
  refine ⟨.ofPrefix p s.table.getFirstEmptyID, DeviceManagerID.devicePrefix_ofPrefix _ _, ?_⟩
  have hparsed : ZMQBroker.parsed W.base json = .ok req := by
    rw [ZMQBroker.parsed, hjson]
    simp only [bind, Except.bind, htype, pure, Except.pure]
  simp only [ZMQBroker.helloServerReceive, ZMQBroker.parseMessage, hparsed,
    ZMQBroker.handleHelloMessage, htype, ZMQBroker.registerDeviceManager, hregister]

/-- What the constructor from a word makes of the text of an id. -/
theorem parse_toString (hW : W.Lawful) {id : DeviceManagerID}
    (hraw : W.base.devicePrefixFromRaw id.devicePrefix.raw = .ok id.devicePrefix) :
    DeviceManagerID.parse W.base id.toString =
      if id.devicePrefix = W.base.devicePrefixInvalid then .error .invalidArgument else .ok id := by
  have hlt : id.value.toNat ≤ USHRT_MAX := Nat.le_of_lt_succ id.value.isLt
  have hword : BitVec.ofNat 16 id.value.toNat = id.value := by
    rw [BitVec.ofNat_toNat, BitVec.setWidth_eq]
  have hpre : W.base.devicePrefixFromRaw ((id.value >>> DeviceManagerID.PREFIX_SHIFT).setWidth 8) =
      .ok id.devicePrefix := hraw
  rw [DeviceManagerID.parse, DeviceManagerID.toString, hW.parseHex_formatHex _ hlt]
  simp only [bind, Except.bind, if_neg (not_lt.mpr hlt), hword, DeviceManagerID.fromWord, hpre]

/-- The client takes from the response what the constructor takes from its text. -/
theorem client_receives (hW : W.Lawful) (C : ZMQClient.Platform V) (c : ZMQClient.State)
    (hC : C.base = W.base) (id : DeviceManagerID) :
    ZMQClient.helloServerReceive C c (W.text (.fromHelloResponse id)) =
      match DeviceManagerID.parse W.base id.toString with
      | .ok id' => (.ok (), { c with deviceManagerID := some id' })
      | .error e => (.error e, c) := by
  have htype : (ZMQMessage.fromHelloResponse id).type W.base = .ok .helloResponse := by
    rw [ZMQMessage.type, hW.extractString_str (s := ZMQMessageType.helloResponse.text) rfl]
    exact hW.parseMessageType_text _
  have hread : (ZMQMessage.fromHelloResponse id).toHelloResponse W.base =
      DeviceManagerID.parse W.base id.toString := by
    rw [ZMQMessage.toHelloResponse, hW.extractString_str (s := id.toString) rfl]
    rfl
  have hparsed : ZMQBroker.parsed W.base (W.text (.fromHelloResponse id)) =
      .ok (ZMQMessage.fromHelloResponse id) := by
    rw [ZMQBroker.parsed, ZMQMessage.fromJSON, hW.parseJson_text]
    simp only [bind, Except.bind, htype, pure, Except.pure]
  cases hid : DeviceManagerID.parse W.base id.toString <;>
    simp only [ZMQClient.helloServerReceive, ZMQClient.parseMessage, ZMQBroker.parseMessage, hC, hparsed,
      ZMQClient.handleHello, htype, hread, hid]

/-- For every prefix that can be asked for and every table with a free slot: the client and the data
    path of the broker come to the id that is in the table exactly if the prefix is not `Invalid`. -/
theorem handshake_agrees_iff (hW : W.Lawful) {s : Hello} {json name : String} {p : DevicePrefix}
    (hreq : HelloRequest W json name) (hp : W.base.parseDevicePrefix name = .ok p)
    (hfree : s.table.length ≤ ZMQDeviceManagerTable.UINT8_MAX) :
    Agrees W s json p ↔ p ≠ W.base.devicePrefixInvalid := by
  have hraw : ∀ id : DeviceManagerID, id.devicePrefix = p →
      W.base.devicePrefixFromRaw id.devicePrefix.raw = .ok id.devicePrefix := by
    rintro id rfl
    exact hW.fromRaw_parse hp
  constructor
  · rintro ⟨id, -, hid, -, hback⟩ hinvalid
    rw [parse_toString hW (hraw id hid), if_pos (hid.trans hinvalid)] at hback
    cases hback
  · intro hvalid
    obtain ⟨id, hid, hanswer⟩ := hello_registers hreq hp hfree
    have hback : DeviceManagerID.parse W.base id.toString = .ok id := by
      rw [parse_toString hW (hraw id hid), if_neg (hid ▸ hvalid)]
    refine ⟨id, hanswer, hid, fun C c hC => ?_, hback⟩
    rw [client_receives hW C c hC, hback]

/-! ### Two handshakes -/

def requestText (name : String) : String :=
  "\x7b\"message_type\":\"hello_request\",\"device_manager_prefix\":\"" ++ name ++ "\"\x7d"

/-- The text of a response up to the id. -/
def responseHead : List Char := "\x7b\"device_manager_id\":\"".toList

def parseJson (s : String) : Except Exn JsonObject :=
  if responseHead.isPrefixOf s.toList then
    .ok [("device_manager_id", .str (String.ofList
        ((s.toList.drop responseHead.length).takeWhile (· ≠ '"')))),
      ("message_type", .str "hello_response")]
  else match ["Z-Wave", "Fitprotocol", "Invalid"].find? (requestText · = s) with
    | some name => .ok [("message_type", .str "hello_request"), ("device_manager_prefix", .str name)]
    | none => .error .syntaxError

/-- The base library on the texts of the handshake, with the prefix `Invalid` declared. -/
def sample : Wire Reading where
  base := { Sample.base with
    parseJson := parseJson
    parseDevicePrefix := fun s => if s = "Invalid" then .ok ⟨0⟩ else Sample.parseDevicePrefix s
    devicePrefixFromRaw := fun b => if b = 0 then .ok ⟨0⟩ else Sample.base.devicePrefixFromRaw b }
  text := Sample.jsonText

theorem fromHelloResponse_eq (id : DeviceManagerID) : ZMQMessage.fromHelloResponse id =
    [("device_manager_id", .str id.toString), ("message_type", .str "hello_response")] := by
  simp [ZMQMessage.fromHelloResponse, ZMQMessage.setType, ZMQMessage.setDeviceManagerID,
    JsonObject.set, ZMQMessageType.text]

theorem responseText_toList (id : DeviceManagerID) :
    (Sample.jsonText (ZMQMessage.fromHelloResponse id)).toList = responseHead ++
      (id.toString.toList ++ '"' :: ",\"message_type\":\"hello_response\"\x7d".toList) := by
  rw [fromHelloResponse_eq]
  simp only [Sample.jsonText, List.map_cons, List.map_nil, String.toList_append,
    String.intercalate_cons_cons, String.intercalate_singleton, List.append_assoc]
  rfl

theorem toString_toList (id : DeviceManagerID) :
    id.toString.toList = (Schemes.Numeral.digits 16 id.value.toNat).map hexChar :=
  String.toList_ofList

theorem hexChar_ne_quote {d : ℕ} (h : d < 16) : hexChar d ≠ '"' := by
  interval_cases d <;> decide

theorem sample_lawful : sample.Lawful where
  extractString_str h := Sample.base_lawful.extractString_str h
  parseMessageType_text t := by cases t <;> rfl
  parseJson_text id := by
    have htext : ((Sample.jsonText (ZMQMessage.fromHelloResponse id)).toList.drop
        responseHead.length).takeWhile (· ≠ '"') = id.toString.toList := by
      rw [responseText_toList, List.drop_left, List.takeWhile_append_of_pos]
      · simp
      · intro c hc
        rw [toString_toList] at hc
        obtain ⟨d, hd, rfl⟩ := List.mem_map.mp hc
        simpa using hexChar_ne_quote (Schemes.Numeral.digit_lt (by decide) hd)
    have hhead : responseHead.isPrefixOf
        (Sample.jsonText (ZMQMessage.fromHelloResponse id)).toList = true := by
      rw [responseText_toList, List.isPrefixOf_iff_prefix]
      exact List.prefix_append _ _
    simp only [sample, parseJson, hhead, htext, if_true, String.ofList_toList]
    rw [fromHelloResponse_eq]
  parseHex_formatHex n _ := by
    have hread : Sample.readText 16 (formatHex n).toList = some n := by
      rw [formatHex, hexText, String.toList_ofList, Sample.readText,
        Sample.mapM_charDigit (fun _ => Sample.charDigit_hexChar) _
          (fun _ => Schemes.Numeral.digit_lt (by decide))]
      exact Schemes.Numeral.read_digits (by decide) n
    simp only [sample, Sample.base, Sample.parseNumber, hread]
  fromRaw_parse {name p} h := by
    simp only [sample, Sample.parseDevicePrefix] at h ⊢
    split_ifs at h <;> cases h <;> rfl

/-- A Z-Wave manager registers on an empty table. -/
theorem zwave_agrees : Agrees sample ⟨[], fun _ => []⟩ (requestText "Z-Wave") ⟨0xa8⟩ :=
  (handshake_agrees_iff sample_lawful ⟨_, rfl, rfl, rfl⟩ rfl (by decide)).mpr (by decide)

/-- A client without a prefix of its own asks for `Invalid`: the broker gives it an id, on which the
    client raises. -/
theorem invalid_prefix_disagrees : ¬ ∀ (W : Wire Reading), W.Lawful → ∀ (s : Hello)
    (json name : String) (p : DevicePrefix), HelloRequest W json name →
      W.base.parseDevicePrefix name = .ok p → s.table.length ≤ ZMQDeviceManagerTable.UINT8_MAX →
        Agrees W s json p := by
  intro h
  obtain ⟨id, hanswer, hid, -, hback⟩ := h sample sample_lawful ⟨[], fun _ => []⟩
    (requestText "Invalid") "Invalid" ⟨0⟩ ⟨_, rfl, rfl, rfl⟩ rfl (by decide)
  rw [parse_toString sample_lawful (hid ▸ rfl), hid] at hback
  cases hback

end Handshake
end BeeeOn
