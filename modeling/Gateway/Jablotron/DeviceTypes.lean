import Gateway.Jablotron.Events
import Gateway.Jablotron.Scan

/-! @src jablotron/JablotronDeviceManager.cpp | name:The type of a Jablotron device | family:formats

    The type of a device is read off its serial number. The messages and the switch take the whole
    number, but the scan, which asks for the last values of the AC-88s, takes the low 24 bits of the
    device id. All ranges of `getDeviceType` lie below 2^24. So a greater number has no type where it
    is taken whole, and the two agree on it exactly if its low 24 bits fall into no range either
    (`deviceType_agrees_iff`). -/

namespace BeeeOn.JablotronDeviceManager
variable {V : Type}

/-- The type by which `loadRegDevices` chooses the devices it asks for. -/
def registeredType (deviceID : DeviceID) : DeviceType :=
  getDeviceType ((deviceID.ident &&& 0xffffff).setWidth 32)

/-- One of the ranges has the number. -/
def InRange (n : ℕ) : Prop := ∃ r ∈ ranges, r.1 ≤ n ∧ n ≤ r.2.1

instance (n : ℕ) : Decidable (InRange n) :=
  inferInstanceAs (Decidable (∃ r ∈ ranges, r.1 ≤ n ∧ n ≤ r.2.1))

def EightDigits (ds : List Char) : Prop := ds.length ≤ 8 ∧ ∀ c ∈ ds, c.isDigit = true

/-- A serial number that is read off a line or off the reply for a slot, from at most eight digits. -/
def Produced (B : Base V) (sn : JablotronSerialNumber) : Prop :=
  (∃ t, EightDigits (substr t 1 8).toList ∧ getSerialNumber B t = .ok sn) ∨
    ∃ msg ds, slotDigits msg = some ds ∧ EightDigits ds ∧ slot B msg = some (.ok sn)

/-! ### The ranges -/

theorem InRange.lt {n : ℕ} (h : InRange n) : n < 2 ^ 24 := by
  have hbelow : ∀ r ∈ ranges, r.2.1 < 2 ^ 24 := by decide
  obtain ⟨r, hr, -, hle⟩ := h
  exact hle.trans_lt (hbelow r hr)

/-- Each range has a type, so a number without one is in none. -/
theorem getDeviceType_eq_unknown {sn : JablotronSerialNumber} :
    getDeviceType sn = .unknown ↔ ¬ InRange sn.toNat := by
  have htyped : ∀ r ∈ ranges, r.2.2 ≠ .unknown := by decide
  unfold getDeviceType InRange
  cases hfind : ranges.find? fun r => r.1 ≤ sn.toNat && sn.toNat ≤ r.2.1 with
  | none =>
    have hnone := List.find?_eq_none.mp hfind
    refine iff_of_true rfl ?_
    rintro ⟨r, hr, hlo, hhi⟩
    exact hnone r hr (by simp [hlo, hhi])
  | some r =>
    have hr := List.mem_of_find?_eq_some hfind
    have hin := List.find?_some hfind
    simp only [Bool.and_eq_true, decide_eq_true_eq] at hin
    exact iff_of_false (htyped r hr) fun hno => hno ⟨r, hr, hin⟩

theorem getDeviceType_of_le {sn : JablotronSerialNumber} (h : 2 ^ 24 ≤ sn.toNat) :
    getDeviceType sn = .unknown :=
  getDeviceType_eq_unknown.mpr fun hin => absurd hin.lt (by omega)

/-! ### The low 24 bits -/

section
variable {B : Base V} {P : Platform V} {sn : JablotronSerialNumber}

/-- What the scan takes of the id of a device. -/
theorem toNat_low (P : Platform V) (sn : JablotronSerialNumber) :
    (((createDeviceID P sn).ident &&& 0xffffff).setWidth 32).toNat = sn.toNat % 2 ^ 24 := by
  have hmask : (0xffffff : BitVec 56).toNat = 2 ^ 24 - 1 := rfl
  rw [createDeviceID, BitVec.toNat_setWidth, BitVec.toNat_and, BitVec.toNat_setWidth, hmask,
    Nat.and_two_pow_sub_one_eq_mod]
  omega

theorem registeredType_of_lt (h : sn.toNat < 2 ^ 24) :
    registeredType (createDeviceID P sn) = getDeviceType sn := by
  refine congrArg getDeviceType (BitVec.eq_of_toNat_eq ?_)
  rw [toNat_low, Nat.mod_eq_of_lt h]

theorem registeredType_eq_unknown :
    registeredType (createDeviceID P sn) = .unknown ↔ ¬ InRange (sn.toNat % 2 ^ 24) := by
  rw [registeredType, getDeviceType_eq_unknown, toNat_low]

/-- A scan that succeeds asks for the devices whose registered type is AC-88. -/
theorem mem_asked {devicesWithFlag : List DeviceID} {replies : Replies}
    {devices : List JablotronSerialNumber} {deviceID : DeviceID}
    (hret : (loadRegDevices B devicesWithFlag replies devices).ret = true) :
    deviceID ∈ (loadRegDevices B devicesWithFlag replies devices).asked ↔
      deviceID ∈ devicesWithFlag ∧ registeredType deviceID = .ac88 := by
  have hread : (readSlots B replies.slots devices).1 = true := hret
  simp [loadRegDevices, hread, registeredType]

/-- For every serial number: the type that the scan takes is that of the messages and of the switch,
    exactly if the number is below 2^24 or its low 24 bits are in no range. -/
theorem deviceType_agrees_iff (P : Platform V) (sn : JablotronSerialNumber) :
    registeredType (createDeviceID P sn) = getDeviceType sn ↔
      sn.toNat < 2 ^ 24 ∨ ¬ InRange (sn.toNat % 2 ^ 24) := by
  by_cases hlt : sn.toNat < 2 ^ 24
  · exact iff_of_true (registeredType_of_lt hlt) (.inl hlt)
  · rw [getDeviceType_of_le (not_lt.mp hlt), registeredType_eq_unknown, or_iff_right hlt]

end

/-- 30343168 is 2^24 + 0xCF0000: of no type, and an AC-88 for the scan. -/
theorem high_serial_aliased : ¬ ∀ sn, Produced Sample.whole sn →
    registeredType (createDeviceID wholePlatform sn) = getDeviceType sn := by
  intro h
  have hagree := h 30343168 (.inl ⟨"[30343168]", ⟨by decide, List.all_eq_true.mp rfl⟩, rfl⟩)
  exact absurd hagree (by decide)

end BeeeOn.JablotronDeviceManager
