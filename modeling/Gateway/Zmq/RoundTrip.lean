import Gateway.Zmq.Message
import Gateway.Model.Sample

/-! @src zmq/ZMQMessage.cpp, model/ModuleID.cpp | name:Encoding and decoding | family:formats

    A message that has been built from a command or from sensor data is to give it back when it is
    read. The members all do, but for two: a module id is written in hexadecimal and read as decimal,
    so only the ids of one decimal digit survive; and an invalid value is sent as a number like a valid
    one, so it is rejected or comes back valid. -/

namespace BeeeOn
open Schemes
variable {V : Type} {B : Base V}

theorem ModuleID.ofNat_toNat (m : ModuleID) : (⟨BitVec.ofNat 16 m.value.toNat⟩ : ModuleID) = m := by
  obtain ⟨v⟩ := m
  rw [BitVec.ofNat_toNat, BitVec.setWidth_eq]

/-- A module id comes back from its text exactly if it is a single decimal digit. -/
theorem ModuleID.parse_toString (hB : B.Lawful) (m : ModuleID) :
    ModuleID.parse B m.toString = .ok m ↔ m.value.toNat < 10 := by
  have hlt : m.value.toNat < 16 ^ 4 := m.value.isLt
  have hds := hB.parseUnsigned_text (Numeral.digits 16 m.value.toNat) (Numeral.digits_ne_nil _ _)
    (Numeral.length_digits_le (by decide) (by decide) hlt) (fun _ => Numeral.digit_lt (by decide))
  rw [← Numeral.read_digits_iff (b := 16) (by decide) (by decide), ModuleID.parse, ModuleID.toString,
    formatHex, hds]
  cases hr : Numeral.read 10 (Numeral.digits 16 m.value.toNat) with
  | none => simp [bind, Except.bind]
  | some n =>
    simp only [bind, Except.bind, Option.some.injEq]
    constructor
    · intro h
      split_ifs at h with hn
      rw [← Except.ok.inj h, BitVec.toNat_ofNat]
      rw [USHRT_MAX] at hn
      omega
    · rintro rfl
      rw [if_neg (by rw [USHRT_MAX]; omega), ModuleID.ofNat_toNat]

namespace ZMQMessage

/-! ### One value -/

theorem getModuleID_of_get (hB : B.Lawful) {o : JsonObject} {m : ModuleID}
    (h : o.get "module_id" = some (.str m.toString)) :
    getModuleID B o = ModuleID.parse B m.toString := by
  rw [getModuleID, hB.extractString_str h]; rfl

theorem getDeviceID_of_get (hB : B.Lawful) {o : JsonObject} {d : DeviceID}
    (h : o.get "device_id" = some (.str (B.deviceIDText d))) : getDeviceID B o = .ok d := by
  rw [getDeviceID, hB.extractString_str h]
  exact hB.parseDeviceID_text d

theorem getValue_of_get (hB : B.Lawful) {o : JsonObject} {v : V}
    (hr : o.get "raw" = some (.str (B.floatText v)))
    (ht : o.get "type" = some (.str ZMQMessageValueType.double.text)) :
    getValue B o = (B.parseFloat (B.floatText v)).map some := by
  rw [getValue, hB.extractString_str hr, hB.extractString_str ht]
  simp only [bind, Except.bind, hB.parseValueType_text]
  cases B.parseFloat (B.floatText v) <;> rfl

theorem get_setSensorValue (x : SensorValue V) :
    (setSensorValue B [] x).get "module_id" = some (.str x.moduleID.toString) ∧
    (setSensorValue B [] x).get "raw" = some (.str (B.floatText x.value)) ∧
    (setSensorValue B [] x).get "type" = some (.str ZMQMessageValueType.double.text) := by
  simp [setSensorValue, setValue, setModuleID, JsonObject.get_set_ne]

/-- What is read of one value: always a valid one. -/
theorem getSensorValue_set (hB : B.Lawful) (x : SensorValue V) :
    getSensorValue B (setSensorValue B [] x) = (do
      let m ← ModuleID.parse B x.moduleID.toString
      let v ← B.parseFloat (B.floatText x.value)
      return ⟨m, v, true⟩) := by
  obtain ⟨hm, hr, ht⟩ := get_setSensorValue (B := B) x
  rw [getSensorValue, getModuleID_of_get hB hm, getValue_of_get hB hr ht]
  cases ModuleID.parse B x.moduleID.toString with
  | error e => rfl
  | ok m => cases B.parseFloat (B.floatText x.value) <;> rfl

/-- A value comes back, up to what is compared of it, exactly if it is valid and its module id is a
    decimal digit. -/
theorem sensorValue_iff (hB : B.Lawful) {x : SensorValue V} (hx : x.valid = true → B.exact x.value) :
    (∃ y, getSensorValue B (setSensorValue B [] x) = .ok y ∧ y.content = x.content) ↔
      x.moduleID.value.toNat < 10 ∧ x.valid = true := by
  rw [getSensorValue_set hB]
  constructor
  · rintro ⟨y, hy, hc⟩
    cases hm : ModuleID.parse B x.moduleID.toString with
    | error e => rw [hm] at hy; cases hy
    | ok m =>
      cases hv : B.parseFloat (B.floatText x.value) with
      | error e => rw [hm, hv] at hy; cases hy
      | ok v =>
        rw [hm, hv] at hy
        cases hy
        rw [SensorValue.content, SensorValue.content, Prod.mk.injEq, if_pos rfl] at hc
        refine ⟨(ModuleID.parse_toString hB _).mp (hm.trans (by rw [← hc.1])), ?_⟩
        by_contra hvalid
        rw [if_neg hvalid] at hc
        cases hc.2
  · rintro ⟨hlt, hvalid⟩
    rw [(ModuleID.parse_toString hB _).mpr hlt, hB.parseFloat_text _ (hx hvalid)]
    exact ⟨_, rfl, by simp [SensorValue.content, hvalid]⟩

/-! ### Lists of values -/

/-- A list is read element by element. -/
theorem mapM_iff {α β γ ε : Type} (f : α → Except ε β) (g : β → γ) (k : α → γ) : ∀ l : List α,
    (∃ ys, l.mapM f = .ok ys ∧ ys.map g = l.map k) ↔ ∀ x ∈ l, ∃ y, f x = .ok y ∧ g y = k x := by
  intro l
  induction l with
  | nil => simp [pure, Except.pure]
  | cons x l ih =>
    rw [List.forall_mem_cons, ← ih]
    constructor
    · rintro ⟨ys, hys, hmap⟩
      rw [List.mapM_cons] at hys
      cases hx : f x with
      | error e => rw [hx] at hys; cases hys
      | ok y =>
        cases hl : l.mapM f with
        | error e => rw [hx, hl] at hys; cases hys
        | ok zs =>
          rw [hx, hl] at hys
          cases hys
          rw [List.map_cons, List.map_cons, List.cons.injEq] at hmap
          exact ⟨⟨y, rfl, hmap.1⟩, zs, rfl, hmap.2⟩
    · rintro ⟨⟨y, hy, hgy⟩, zs, hzs, hmap⟩
      refine ⟨y :: zs, ?_, by rw [List.map_cons, List.map_cons, hgy, hmap]⟩
      rw [List.mapM_cons, hy, hzs]; rfl

theorem mapM_asObject {α β : Type} (f : JsonObject → Except Exn β) (g : α → JsonObject)
    (l : List α) :
    ((l.map fun x => Json.obj (g x)).mapM fun i => do f (← i.asObject)) = l.mapM fun x => f (g x) := by
  rw [List.mapM_map]; rfl

theorem toSensorData_fromSensorData (hB : B.Lawful) (d : SensorData V) :
    toSensorData B (fromSensorData B d) =
      (d.values.mapM fun x => getSensorValue B (setSensorValue B [] x)).map (⟨d.deviceID, ·⟩) := by
  have hid : (fromSensorData B d).get "device_id" = some (.str (B.deviceIDText d.deviceID)) := by
    rw [fromSensorData, JsonObject.get_set_ne _ _ (by decide), setDeviceID, JsonObject.get_set_self]
  have harr : (fromSensorData B d).getArray "values" =
      .ok (d.values.map fun item => .obj (setSensorValue B [] item)) := by
    rw [JsonObject.getArray, fromSensorData, JsonObject.get_set_self]
  rw [toSensorData, getDeviceID_of_get hB hid, harr]
  simp only [bind, Except.bind]
  have hmap := mapM_asObject (getSensorValue B) (setSensorValue B []) d.values
  simp only [bind, Except.bind] at hmap
  rw [hmap]
  cases d.values.mapM fun x => getSensorValue B (setSensorValue B [] x) <;> rfl

/-! ### Commands -/

theorem totalSeconds_mul {k : ℤ} (hlo : -2 ^ 31 ≤ k) (hhi : k < 2 ^ 31) :
    totalSeconds (SECONDS * k) = k := by
  rw [totalSeconds, Int.mul_tdiv_cancel_left k (by decide), Int.bmod_eq_of_le] <;> omega

theorem toDeviceSetValueCommand_of_exact (hB : B.Lawful) (id : GlobalID) (deviceID : DeviceID)
    (moduleID : ModuleID) {value : V} (hv : B.exact value) {k : ℤ} (hlo : -2 ^ 31 ≤ k)
    (hhi : k < 2 ^ 31) :
    toDeviceSetValueCommand B
      (fromDeviceSetValueCommand B id deviceID moduleID value (SECONDS * k)) =
        (ModuleID.parse B moduleID.toString).map
          (.deviceSetValue deviceID · value (SECONDS * k)) := by
  set m := fromDeviceSetValueCommand B id deviceID moduleID value (SECONDS * k) with hm
  set o : JsonObject := setModuleID (setValue B [] value) moduleID with ho
  have hobj : m.getObject "values" = .ok o := by
    rw [JsonObject.getObject, hm, fromDeviceSetValueCommand, JsonObject.get_set_self]
  have hid : m.get "device_id" = some (.str (B.deviceIDText deviceID)) := by
    rw [hm, fromDeviceSetValueCommand, JsonObject.get_set_ne _ _ (by decide), setDeviceID,
      JsonObject.get_set_self]
  have htime : m.get "timeout" = some (.num k) := by
    rw [hm, fromDeviceSetValueCommand, JsonObject.get_set_ne _ _ (by decide), setDeviceID,
      JsonObject.get_set_ne _ _ (by decide), setTimeout, JsonObject.get_set_self,
      totalSeconds_mul hlo hhi]
  have hmod : o.get "module_id" = some (.str moduleID.toString) := JsonObject.get_set_self _ _ _
  have hraw : o.get "raw" = some (.str (B.floatText value)) := by
    rw [ho, setModuleID, JsonObject.get_set_ne _ _ (by decide), setValue,
      JsonObject.get_set_ne _ _ (by decide), JsonObject.get_set_self]
  have htype : o.get "type" = some (.str ZMQMessageValueType.double.text) := by
    rw [ho, setModuleID, JsonObject.get_set_ne _ _ (by decide), setValue, JsonObject.get_set_self]
  rw [toDeviceSetValueCommand, hobj]
  simp only [bind, Except.bind, getValue_of_get hB hraw htype, hB.parseFloat_text value hv, Except.map,
    getDeviceID_of_get hB hid, getModuleID_of_get hB hmod, getTimeout,
    hB.extractInt_num htime hlo hhi]
  cases ModuleID.parse B moduleID.toString <;> rfl

theorem toServerLastValueCommand_of_from (hB : B.Lawful) (deviceID : DeviceID) (moduleID : ModuleID) :
    toServerLastValueCommand B (fromServerLastValueCommand B deviceID moduleID) =
      (ModuleID.parse B moduleID.toString).map (Command.serverLastValue (V := V) deviceID ·) := by
  have hid : (fromServerLastValueCommand B deviceID moduleID).get "device_id" =
      some (.str (B.deviceIDText deviceID)) := by
    rw [fromServerLastValueCommand, setModuleID, JsonObject.get_set_ne _ _ (by decide), setDeviceID,
      JsonObject.get_set_self]
  have hmod : (fromServerLastValueCommand B deviceID moduleID).get "module_id" =
      some (.str moduleID.toString) := JsonObject.get_set_self _ _ _
  rw [toServerLastValueCommand, getDeviceID_of_get hB hid, getModuleID_of_get hB hmod]
  cases ModuleID.parse B moduleID.toString <;> rfl

/-- Mapping an injective constructor over a parsed module id. -/
theorem map_parse_iff (hB : B.Lawful) (m : ModuleID) {c : ModuleID → Command V}
    (hc : Function.Injective c) :
    (ModuleID.parse B m.toString).map c = .ok (c m) ↔ m.value.toNat < 10 := by
  rw [← ModuleID.parse_toString hB]
  cases h : ModuleID.parse B m.toString with
  | error e => simp [Except.map]
  | ok n => simp only [Except.map, Except.ok.injEq, hc.eq_iff]

/-- Which messages give back what they have been built from: sensor data whose values are valid and
    whose module ids are single decimal digits, and commands whose module id is one. -/
theorem round_trip_iff (hB : B.Lawful) :
    (∀ d : SensorData V, (∀ x ∈ d.values, x.valid = true → B.exact x.value) →
      ((∃ d', toSensorData B (fromSensorData B d) = .ok d' ∧ d'.deviceID = d.deviceID ∧
          d'.values.map SensorValue.content = d.values.map SensorValue.content) ↔
        ∀ x ∈ d.values, x.moduleID.value.toNat < 10 ∧ x.valid = true)) ∧
    (∀ id deviceID moduleID value k, B.exact value → -2 ^ 31 ≤ k → k < 2 ^ 31 →
      ((fromCommand B id (.deviceSetValue deviceID moduleID value (SECONDS * k))).bind
          (toDeviceSetValueCommand B) = .ok (.deviceSetValue deviceID moduleID value (SECONDS * k)) ↔
        moduleID.value.toNat < 10)) ∧
    (∀ id deviceID moduleID,
      ((fromCommand B id (.serverLastValue deviceID moduleID)).bind (toServerLastValueCommand B) =
          .ok (.serverLastValue deviceID moduleID) ↔ moduleID.value.toNat < 10)) := by
  refine ⟨fun d hd => ?_, fun id deviceID moduleID value k hv hlo hhi => ?_,
    fun id deviceID moduleID => ?_⟩
  · rw [toSensorData_fromSensorData hB]
    have hlist := mapM_iff (fun x => getSensorValue B (setSensorValue B [] x)) SensorValue.content
      SensorValue.content d.values
    have heach : (∀ x ∈ d.values, ∃ y, getSensorValue B (setSensorValue B [] x) = .ok y ∧
        y.content = x.content) ↔ ∀ x ∈ d.values, x.moduleID.value.toNat < 10 ∧ x.valid = true :=
      forall₂_congr fun x hx => sensorValue_iff hB (hd x hx)
    rw [← heach, ← hlist]
    constructor
    · rintro ⟨d', hd', _, hc⟩
      cases hm : d.values.mapM fun x => getSensorValue B (setSensorValue B [] x) with
      | error e => rw [hm] at hd'; cases hd'
      | ok ys => rw [hm] at hd'; cases hd'; exact ⟨ys, rfl, hc⟩
    · rintro ⟨ys, hys, hc⟩
      exact ⟨⟨d.deviceID, ys⟩, by rw [hys]; rfl, rfl, hc⟩
  · rw [fromCommand, Except.bind, toDeviceSetValueCommand_of_exact hB id deviceID moduleID hv hlo hhi]
    exact map_parse_iff hB moduleID (c := (.deviceSetValue deviceID · value (SECONDS * k)))
      fun m n h => (by cases h; rfl)
  · rw [fromCommand, Except.bind, toServerLastValueCommand_of_from hB]
    exact map_parse_iff hB moduleID (c := (.serverLastValue deviceID ·)) fun m n h => (by cases h; rfl)

/-- The message of the tests: modules 0 and 1, both values valid. -/
theorem round_trip_sample : ∃ d', toSensorData Sample.base (fromSensorData Sample.base
      ⟨⟨⟨0xfe⟩, 0x01020304050607⟩, [⟨⟨0⟩, .warm, true⟩, ⟨⟨1⟩, .cold, true⟩]⟩) = .ok d' ∧
    d'.deviceID = ⟨⟨0xfe⟩, 0x01020304050607⟩ ∧
    d'.values.map SensorValue.content = [(⟨0⟩, some .warm), (⟨1⟩, some .cold)] :=
  ((round_trip_iff Sample.base_lawful).1 ⟨⟨⟨0xfe⟩, 0x01020304050607⟩,
    [⟨⟨0⟩, .warm, true⟩, ⟨⟨1⟩, .cold, true⟩]⟩ (by simp [Sample.base])).mpr (by decide)

/-- A module id of 16 is written as "10" and read as ten. -/
theorem module_id_lost : ¬ ∀ (B : Base Reading) (_ : B.Lawful),
    (∀ d : SensorData Reading, (∀ x ∈ d.values, x.valid = true → B.exact x.value) →
      ∃ d', toSensorData B (fromSensorData B d) = .ok d' ∧ d'.deviceID = d.deviceID ∧
        d'.values.map SensorValue.content = d.values.map SensorValue.content) ∧
    (∀ id deviceID moduleID value k, B.exact value → -2 ^ 31 ≤ k → k < 2 ^ 31 →
      (fromCommand B id (.deviceSetValue deviceID moduleID value (SECONDS * k))).bind
        (toDeviceSetValueCommand B) = .ok (.deviceSetValue deviceID moduleID value (SECONDS * k))) ∧
    (∀ id deviceID moduleID,
      (fromCommand B id (.serverLastValue deviceID moduleID)).bind (toServerLastValueCommand B) =
        .ok (.serverLastValue deviceID moduleID)) := by
  intro h
  have hid := (h Sample.base Sample.base_lawful).2.2 ⟨0⟩ ⟨⟨0xfe⟩, 1⟩ ⟨16⟩
  rw [fromCommand, Except.bind, toServerLastValueCommand_of_from Sample.base_lawful] at hid
  have hlt := (map_parse_iff Sample.base_lawful ⟨16⟩ (c := (.serverLastValue ⟨⟨0xfe⟩, 1⟩ ·))
    fun m n h => (by cases h; rfl)).mp hid
  exact absurd hlt (by decide)

end ZMQMessage
end BeeeOn
