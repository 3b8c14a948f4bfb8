import Mathlib.Data.BitVec

/-! @src model/DeviceManagerID.h, model/ModuleID.h | name:Identifiers | family:data

    The identifiers that commands, results and messages carry. `DevicePrefix`, `DeviceID` and `GlobalID`
    come from the base library: a prefix is its raw byte (the cast in `DeviceManagerID` keeps no more
    of it), a device id is a prefix with a 56-bit ident, a global id is opaque. A `DeviceManagerID` is
    one 16-bit word, the prefix in its high byte and the ident in its low byte. -/

namespace BeeeOn

/-- The exceptions that the modelled code raises or tells apart. -/
inductive Exn where
  | invalidAccess | invalidArgument | range | syntaxError | nullPointer | existing | other
  deriving DecidableEq, Repr

structure DevicePrefix where
  raw : BitVec 8
  deriving DecidableEq, Repr

structure DeviceID where
  devicePrefix : DevicePrefix
  ident : BitVec 56
  deriving DecidableEq, Repr

structure ModuleID where
  value : BitVec 16
  deriving DecidableEq, Repr

structure GlobalID where
  value : ℕ
  deriving DecidableEq, Repr

/-- `DeviceManagerID`: the word `m_id`. -/
structure DeviceManagerID where
  value : BitVec 16
  deriving DecidableEq, Repr

namespace DeviceManagerID

def PREFIX_SHIFT : ℕ := 8

/-- `DeviceManagerID(prefix, ident)`. -/
def ofPrefix (p : DevicePrefix) (ident : BitVec 8) : DeviceManagerID :=
  ⟨(p.raw.setWidth 16 <<< PREFIX_SHIFT) ||| ident.setWidth 16⟩

/-- `ident()`: the low byte. -/
def ident (id : DeviceManagerID) : BitVec 8 := id.value.setWidth 8

/-- `prefix()`: the high byte. `DevicePrefix::fromRaw` accepts it, since it came from a prefix. -/
def devicePrefix (id : DeviceManagerID) : DevicePrefix :=
  ⟨(id.value >>> PREFIX_SHIFT).setWidth 8⟩

@[simp] theorem ident_ofPrefix (p : DevicePrefix) (i : BitVec 8) : (ofPrefix p i).ident = i := by
  ext k hk
  simp only [ofPrefix, ident, PREFIX_SHIFT, BitVec.getElem_setWidth, BitVec.getLsbD_or,
    BitVec.getLsbD_shiftLeft, BitVec.getLsbD_setWidth]
  simp [hk, show k < 16 by omega]

@[simp] theorem devicePrefix_ofPrefix (p : DevicePrefix) (i : BitVec 8) :
    (ofPrefix p i).devicePrefix = p := by
  have h : ((p.raw.setWidth 16 <<< 8 ||| i.setWidth 16) >>> 8).setWidth 8 = p.raw := by
    ext k hk
    simp [hk, show 8 + k < 16 by omega, show ¬ 8 + k < 8 by omega]
  simp only [devicePrefix, ofPrefix, PREFIX_SHIFT, h]

theorem ofPrefix_eta (id : DeviceManagerID) : ofPrefix id.devicePrefix id.ident = id := by
  obtain ⟨v⟩ := id
  have h : ((v >>> 8).setWidth 8).setWidth 16 <<< 8 ||| (v.setWidth 8).setWidth 16 = v := by
    ext k hk
    by_cases h8 : k < 8
    · simp [hk, h8]
    · simp [hk, h8, show k - 8 < 8 by omega, show 8 + (k - 8) = k by omega]
  simp only [ofPrefix, devicePrefix, ident, PREFIX_SHIFT, h]

end DeviceManagerID
end BeeeOn
