import Gateway.Model.Base

/-! @src test/zmq/ZMQMessageTest.cpp, test/zmq/ZMQBrokerTest.cpp | name:A base library to try out |
    family:data

    A concrete `Base` that does on the messages of the tests what the base library does there: two
    device prefixes, three measured values, device ids as `0x` and hexadecimal digits. It satisfies the
    laws, so results that assume them are about something. -/

namespace BeeeOn
open Schemes

/-- The measured values of the sample: a NaN, 123.5 and -59.4. -/
inductive Reading where
  | nan | warm | cold
  deriving DecidableEq, Repr

namespace Sample

/-- The digit that a character stands for, in either case. -/
def charDigit (c : Char) : Option ℕ :=
  if 48 ≤ c.toNat ∧ c.toNat < 58 then some (c.toNat - 48)
  else if 65 ≤ c.toNat ∧ c.toNat < 71 then some (c.toNat - 55)
  else if 97 ≤ c.toNat ∧ c.toNat < 103 then some (c.toNat - 87)
  else none

def lowerHexChar (d : ℕ) : Char :=
  if d < 10 then Char.ofNat (d + 48) else Char.ofNat (d + 87)

/-- Reading a text in base `b`. -/
def readText (b : ℕ) (cs : List Char) : Option ℕ :=
  (cs.mapM charDigit).bind (Numeral.read b)

theorem charDigit_hexChar {d : ℕ} (h : d < 16) : charDigit (hexChar d) = some d := by
  interval_cases d <;> rfl

theorem charDigit_lowerHexChar {d : ℕ} (h : d < 16) : charDigit (lowerHexChar d) = some d := by
  interval_cases d <;> rfl

theorem mapM_charDigit {f : ℕ → Char} (hf : ∀ d < 16, charDigit (f d) = some d) :
    ∀ ds : List ℕ, (∀ d ∈ ds, d < 16) → (ds.map f).mapM charDigit = some ds := by
  intro ds
  induction ds with
  | nil => intro _; rfl
  | cons d ds ih =>
    intro h
    rw [List.map_cons, List.mapM_cons, hf d (h d List.mem_cons_self),
      ih (fun e he => h e (List.mem_cons_of_mem d he))]
    rfl

def word (d : DeviceID) : ℕ := d.devicePrefix.raw.toNat * 2 ^ 56 + d.ident.toNat

def ofWord (n : ℕ) : DeviceID := ⟨⟨BitVec.ofNat 8 (n / 2 ^ 56)⟩, BitVec.ofNat 56 n⟩

theorem ofWord_word (d : DeviceID) : ofWord (word d) = d := by
  obtain ⟨⟨p⟩, i⟩ := d
  have hi := i.isLt
  have hdiv : (p.toNat * 2 ^ 56 + i.toNat) / 2 ^ 56 = p.toNat := by omega
  have hlow : BitVec.ofNat 56 (p.toNat * 2 ^ 56 + i.toNat) = i := by
    apply BitVec.eq_of_toNat_eq
    rw [BitVec.toNat_ofNat]
    omega
  simp only [ofWord, word, hdiv, hlow, BitVec.ofNat_toNat, BitVec.setWidth_eq]

theorem word_injective : Function.Injective word := Function.LeftInverse.injective ofWord_word

/-- Device ids in the order of their words. -/
@[reducible] def order : LinearOrder DeviceID := LinearOrder.lift' word word_injective

def deviceIDText (d : DeviceID) : String :=
  String.ofList ('0' :: 'x' :: (Numeral.digits 16 (word d)).map lowerHexChar)

def parseDeviceID (s : String) : Except Exn DeviceID :=
  match s.toList with
  | '0' :: 'x' :: cs => match readText 16 cs with
    | some n => .ok (ofWord n)
    | none => .error .syntaxError
  | _ => .error .syntaxError

theorem readText_lower (n : ℕ) :
    readText 16 ((Numeral.digits 16 n).map lowerHexChar) = some n := by
  rw [readText, mapM_charDigit (fun _ => charDigit_lowerHexChar) _
    (fun _ => Numeral.digit_lt (by decide))]
  exact Numeral.read_digits (by decide) n

theorem parseDeviceID_text (d : DeviceID) : parseDeviceID (deviceIDText d) = .ok d := by
  rw [parseDeviceID, deviceIDText, String.toList_ofList]
  simp only [readText_lower, ofWord_word]

def parseNumber (b : ℕ) (s : String) : Except Exn ℕ :=
  match readText b s.toList with
  | some n => .ok n
  | none => .error .syntaxError

def floatText : Reading → String
  | .nan => "nan"
  | .warm => "123.500000"
  | .cold => "-59.400000"

def parseFloat (s : String) : Except Exn Reading :=
  if s = "123.500000" then .ok .warm
  else if s = "-59.400000" then .ok .cold
  else .error .syntaxError

def extractString (o : JsonObject) (k : String) : Except Exn String :=
  match o.get k with
  | some (.str s) => .ok s
  | some _ => .error .other
  | none => .error .invalidAccess

def extractInt (o : JsonObject) (k : String) : Except Exn ℤ :=
  match o.get k with
  | some (.num n) => if -2 ^ 31 ≤ n ∧ n < 2 ^ 31 then .ok n else .error .range
  | some _ => .error .other
  | none => .error .invalidAccess

def messageTypes : List ZMQMessageType :=
  [.error, .defaultResult, .deviceLastValueCmd, .deviceLastValueResult, .deviceListCmd,
    .deviceListResult, .deviceUnpairCmd, .helloResponse, .helloRequest, .listenCmd, .measuredValues,
    .setValuesCmd, .setValuesResult]

def parseMessageType (s : String) : Except Exn ZMQMessageType :=
  match messageTypes.find? (·.text = s) with
  | some t => .ok t
  | none => .error .invalidArgument

def parseDevicePrefix (s : String) : Except Exn DevicePrefix :=
  if s = "Z-Wave" then .ok ⟨0xa8⟩
  else if s = "Fitprotocol" then .ok ⟨0xa1⟩
  else .error .invalidArgument

def helloText : String := "\x7b\"message_type\":\"hello_request\",\"device_manager_prefix\":\"Z-Wave\"\x7d"

def parseJson (s : String) : Except Exn JsonObject :=
  if s = helloText then
    .ok [("message_type", .str "hello_request"), ("device_manager_prefix", .str "Z-Wave")]
  else .error .syntaxError

/-- A reply with the id 7 and one device. -/
def deviceListReply : JsonObject :=
  [("message_type", .str "device_list_result"), ("id", .str "7"), ("result_status", .num 1),
    ("device_list", .arr [.obj [("device_id", .str "0xa800000000000001")]])]

def base : Base Reading where
  parseJson := parseJson
  extractString := extractString
  extractInt := extractInt
  parseMessageType := parseMessageType
  parseValueType s := if s = "double" then .ok .double else .error .invalidArgument
  parseDevicePrefix := parseDevicePrefix
  devicePrefixFromRaw b := if b = 0xa8 ∨ b = 0xa1 then .ok ⟨b⟩ else .error .invalidArgument
  devicePrefixInvalid := ⟨0⟩
  devicePrefixText p := if p.raw = 0xa8 then "Z-Wave" else if p.raw = 0xa1 then "Fitprotocol" else "Invalid"
  parseDeviceID := parseDeviceID
  deviceIDText := deviceIDText
  parseGlobalID s := (parseNumber 10 s).map GlobalID.mk
  globalIDText id := hexText (Numeral.digits 10 id.value)
  parseUnsigned := parseNumber 10
  parseHex := parseNumber 16
  parseFloat := parseFloat
  floatText := floatText
  nan := .nan
  exact v := v ≠ .nan

theorem base_lawful : base.Lawful where
  extractString_str h := by simp only [base, extractString, h]
  extractInt_num h h1 h2 := by simp only [base, extractInt, h, if_pos (And.intro h1 h2)]
  parseValueType_text t := by cases t; rfl
  parseDeviceID_text := parseDeviceID_text
  parseFloat_text v h := by cases v <;> first | rfl | exact absurd rfl h
  parseUnsigned_text ds _ _ h := by
    have hread : readText 10 (ds.map hexChar) = Numeral.read 10 ds := by
      rw [readText, mapM_charDigit (fun _ => charDigit_hexChar) ds h]; rfl
    cases hr : Numeral.read 10 ds <;>
      simp only [base, parseNumber, hexText, String.toList_ofList, hread, hr]

/-- The text of an object whose members are texts and numbers. -/
def jsonText (o : JsonObject) : String :=
  "\x7b" ++ String.intercalate "," (o.map fun f => "\"" ++ f.1 ++ "\":" ++ match f.2 with
    | .str s => "\"" ++ s ++ "\""
    | .num n => toString n
    | _ => "null") ++ "\x7d"

/-- The same over the whole numbers for doubles: what follows the point is not read. -/
def whole : Base ℕ where
  parseJson := parseJson
  extractString := extractString
  extractInt := extractInt
  parseMessageType := parseMessageType
  parseValueType := base.parseValueType
  parseDevicePrefix := parseDevicePrefix
  devicePrefixFromRaw := base.devicePrefixFromRaw
  devicePrefixInvalid := base.devicePrefixInvalid
  devicePrefixText := base.devicePrefixText
  parseDeviceID := parseDeviceID
  deviceIDText := deviceIDText
  parseGlobalID := base.parseGlobalID
  globalIDText := base.globalIDText
  parseUnsigned := parseNumber 10
  parseHex := parseNumber 16
  parseFloat s := parseNumber 10 (String.ofList (s.toList.takeWhile (· ≠ '.')))
  floatText n := hexText (Numeral.digits 10 n) ++ ".000000"
  nan := 0
  exact _ := True

theorem whole_parseFloat_floatText (n : ℕ) : whole.parseFloat (whole.floatText n) = .ok n := by
  have hlt : ∀ d ∈ Numeral.digits 10 n, d < 10 := fun _ => Numeral.digit_lt (by decide)
  have hdigit : ∀ d < 10, hexChar d ≠ '.' := by decide
  have hchars : (hexText (Numeral.digits 10 n) ++ ".000000").toList.takeWhile (· ≠ '.') =
      (Numeral.digits 10 n).map hexChar := by
    rw [String.toList_append, hexText, String.toList_ofList,
      List.takeWhile_append_of_pos fun c hc => by
        obtain ⟨d, hd, rfl⟩ := List.mem_map.mp hc
        simpa using hdigit d (hlt d hd)]
    exact List.append_nil _
  have hread : readText 10 ((Numeral.digits 10 n).map hexChar) = some n := by
    rw [readText, mapM_charDigit (fun _ => charDigit_hexChar) _
      (fun d hd => (hlt d hd).trans (by decide))]
    exact Numeral.read_digits (by decide) n
  simp only [whole, parseNumber, hchars, String.toList_ofList, hread]

theorem whole_lawful : whole.Lawful where
  extractString_str h := base_lawful.extractString_str h
  extractInt_num h h1 h2 := base_lawful.extractInt_num h h1 h2
  parseValueType_text := base_lawful.parseValueType_text
  parseDeviceID_text := parseDeviceID_text
  parseFloat_text n _ := whole_parseFloat_floatText n
  parseUnsigned_text := base_lawful.parseUnsigned_text

/-- The codecs do not rely on how JSON is read. -/
theorem lawful_parseJson {V : Type} {B : Base V} (hB : B.Lawful) (parseJson : String → Except Exn JsonObject) :
    ({ B with parseJson := parseJson } : Base V).Lawful where
  extractString_str := hB.extractString_str
  extractInt_num := hB.extractInt_num
  parseValueType_text := hB.parseValueType_text
  parseDeviceID_text := hB.parseDeviceID_text
  parseFloat_text := hB.parseFloat_text
  parseUnsigned_text := hB.parseUnsigned_text

end Sample
end BeeeOn
