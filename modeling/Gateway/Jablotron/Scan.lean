import Gateway.Jablotron.Parser
import Gateway.Schemes.Lts
import Gateway.Schemes.Regex

/-! @src jablotron/JablotronDeviceManager.cpp | name:The scan of the dongle's slots |
    family:error handling

    `loadRegDevices` asks the dongle for its 32 slots and appends the serial number in each reply to
    `m_devices`. Nothing empties that list, neither before a scan nor where a scan is given up. So after
    every scan the list is what all scans so far have found (`devices_eq`), and a scan leaves what it
    should exactly if no other has found anything before it. -/

namespace BeeeOn.JablotronDeviceManager
open Schemes
variable {V : Type} (B : Base V)

def MAX_DEVICES_IN_JABLOTRON : ℕ := 32

/-- `\[([0-9]+)\]` -/
def slotRegex : Regex Char :=
  .seq (.one (· = '[')) (.seq (.one Char.isDigit) (.seq (.star Char.isDigit) (.one (· = ']'))))

/-- The group of the pattern, where `split` finds one. -/
def slotDigits (msg : List Char) : Option (List Char) :=
  (slotRegex.firstMatch msg).map fun m => m.tail.dropLast

example : slotDigits "SLOT:00 [13582137]".toList = some "13582137".toList := by decide

/-- What the reply for a slot says: nothing, a serial number, or digits that are no number. -/
def slot (msg : List Char) : Option (Except Exn JablotronSerialNumber) :=
  (slotDigits msg).map fun ds => (B.parseUnsigned (String.ofList ds)).map (BitVec.ofNat 32)

/-- The loop of `loadRegDevices` over the replies, with `m_devices`. -/
def readSlots : List (List Char) → List JablotronSerialNumber → Bool × List JablotronSerialNumber
  | [], devices => (true, devices)
  | msg :: rest, devices => match slot B msg with
    | none => readSlots rest devices
    | some (.error _) => (false, devices)
    | some (.ok deviceSN) => readSlots rest (devices ++ [deviceSN])

/-- What a scan leaves: its result, `m_devices`, and the devices whose last value it asks for. -/
structure Scanned where
  ret : Bool
  devices : List JablotronSerialNumber
  asked : List DeviceID

/-- The replies of the dongle to the queries of one scan. -/
abbrev Replies := ℕ → List Char

def Replies.slots (replies : Replies) : List (List Char) :=
  (List.range MAX_DEVICES_IN_JABLOTRON).map replies

def loadRegDevices (devicesWithFlag : List DeviceID) (replies : Replies)
    (devices : List JablotronSerialNumber) : Scanned :=
  let r := readSlots B replies.slots devices
  ⟨r.1, r.2, if r.1 then devicesWithFlag.filter fun deviceID =>
    getDeviceType ((deviceID.ident &&& 0xffffff).setWidth 32) = .ac88 else []⟩

/-- A pass of `loadJablotronDevices`: whether the line is valid, else whether it can be opened. -/
structure Pass where
  valid : Bool
  opens : Bool
  replies : Replies

/-- `m_devices`, and the flag that is passed by reference. -/
structure Load where
  devices : List JablotronSerialNumber
  loadDevices : Bool

/-- `loadJablotronDevices`; only a line that cannot be opened makes it scan again after a success. -/
def loadJablotronDevices (devicesWithFlag : List DeviceID) (p : Pass) (s : Load) : Bool × Load :=
  if !p.valid && !p.opens then (false, ⟨s.devices, false⟩)
  else if s.loadDevices then (true, s)
  else
    let r := loadRegDevices B devicesWithFlag p.replies s.devices
    (r.ret, ⟨r.devices, r.ret⟩)

/-- The scans of a run, one after the other. -/
def scans (devicesWithFlag : List DeviceID) : Lts (List JablotronSerialNumber) Replies where
  step devices replies := some (loadRegDevices B devicesWithFlag replies devices).devices

/-! ### What a scan is to leave -/

/-- The serial numbers that the dongle reports, in the order of the slots. -/
def reported (replies : Replies) : List JablotronSerialNumber :=
  replies.slots.filterMap fun msg => (slot B msg).bind Except.toOption

/-- A scan that returns true leaves what was reported, and one that returns false leaves what there
    was. -/
def Atomic (before : List JablotronSerialNumber) (replies : Replies) (r : Scanned) : Prop :=
  r.devices = if r.ret then reported B replies else before

/-- The reply has digits that are no number. -/
def Unreadable (msg : List Char) : Prop := ∃ e, slot B msg = some (.error e)

instance : DecidablePred (Unreadable B) := fun msg =>
  match h : slot B msg with
  | some (.error e) => isTrue ⟨e, h⟩
  | some (.ok _) => isFalse fun ⟨e, he⟩ => by rw [h] at he; cases he
  | none => isFalse fun ⟨e, he⟩ => by rw [h] at he; cases he

/-- One of the replies is unreadable. -/
def Fails (replies : Replies) : Prop := ∃ msg ∈ replies.slots, Unreadable B msg

instance (replies : Replies) : Decidable (Fails B replies) :=
  inferInstanceAs (Decidable (∃ msg ∈ replies.slots, Unreadable B msg))

/-- The serial numbers before the first reply that is unreadable. -/
def found (replies : Replies) : List JablotronSerialNumber :=
  (replies.slots.takeWhile fun msg => ¬ Unreadable B msg).filterMap fun msg =>
    (slot B msg).bind Except.toOption

/-- Where the scan fails nothing has been found before; where it does not, no scan before it has found
    anything. -/
def Alone (before : List Replies) (replies : Replies) : Prop :=
  (Fails B replies → found B replies = []) ∧ (¬ Fails B replies → ∀ r ∈ before, found B r = [])

variable {B} {devicesWithFlag : List DeviceID}

/-- The loop appends what it finds, and fails at the first reply that is unreadable. -/
theorem readSlots_eq (msgs : List (List Char)) (devices : List JablotronSerialNumber) :
    readSlots B msgs devices = (decide (∀ msg ∈ msgs, ¬ Unreadable B msg),
      devices ++ (msgs.takeWhile fun msg => ¬ Unreadable B msg).filterMap fun msg =>
        (slot B msg).bind Except.toOption) := by
  induction msgs generalizing devices with
  | nil => simp [readSlots]
  | cons msg msgs ih =>
    rcases hslot : slot B msg with _ | e | deviceSN
    · have hread : ¬ Unreadable B msg := fun ⟨e, he⟩ => by rw [hslot] at he; cases he
      simp [readSlots, hslot, ih, hread]
    · have hread : Unreadable B msg := ⟨e, hslot⟩
      simp [readSlots, hslot, hread]
    · have hread : ¬ Unreadable B msg := fun ⟨e, he⟩ => by rw [hslot] at he; cases he
      simp [readSlots, hslot, ih, hread, Except.toOption]

theorem loadRegDevices_ret (replies : Replies) (devices : List JablotronSerialNumber) :
    (loadRegDevices B devicesWithFlag replies devices).ret = true ↔ ¬ Fails B replies := by
  simp [loadRegDevices, readSlots_eq, Fails]

theorem loadRegDevices_devices (replies : Replies) (devices : List JablotronSerialNumber) :
    (loadRegDevices B devicesWithFlag replies devices).devices = devices ++ found B replies := by
  simp [loadRegDevices, readSlots_eq, found]

/-- Of a scan that does not fail everything is found. -/
theorem found_eq {replies : Replies} (h : ¬ Fails B replies) : found B replies = reported B replies := by
  have hall : ∀ msg ∈ replies.slots, decide (¬ Unreadable B msg) = true := fun msg hmsg =>
    decide_eq_true fun hread => h ⟨msg, hmsg, hread⟩
  have htake : (replies.slots ++ []).takeWhile (fun msg => ¬ Unreadable B msg) = replies.slots := by
    rw [List.takeWhile_append_of_pos hall, List.takeWhile_nil, List.append_nil]
  rw [List.append_nil] at htake
  rw [found, reported, htake]

/-- What is in `m_devices` after any scans: everything they have found. -/
theorem devices_eq {ls : List Replies} {devices : List JablotronSerialNumber}
    (h : (scans B devicesWithFlag).run [] ls = some devices) : devices = ls.flatMap (found B) := by
  refine (scans B devicesWithFlag).run_hist (P := fun ls devices => devices = ls.flatMap (found B))
    rfl ?_ h
  rintro ls before replies after - rfl hstep
  cases hstep
  rw [loadRegDevices_devices, List.flatMap_append, List.flatMap_singleton]

/-- One scan after others. -/
theorem atomic_iff {pre : List Replies} {before : List JablotronSerialNumber}
    (h : (scans B devicesWithFlag).run [] pre = some before) (replies : Replies) :
    Atomic B before replies (loadRegDevices B devicesWithFlag replies before) ↔ Alone B pre replies := by
  have hbefore := devices_eq h
  rw [Atomic, loadRegDevices_devices, Alone]
  by_cases hfails : Fails B replies
  · have hret : ¬ (loadRegDevices B devicesWithFlag replies before).ret = true := fun hret =>
      (loadRegDevices_ret replies before).mp hret hfails
    rw [if_neg hret, List.append_right_eq_self]
    exact ⟨fun hfound => ⟨fun _ => hfound, fun hno => absurd hfails hno⟩, fun hall => hall.1 hfails⟩
  · rw [if_pos ((loadRegDevices_ret replies before).mpr hfails), found_eq hfails,
      List.append_left_eq_self, hbefore, List.flatMap_eq_nil_iff]
    exact ⟨fun hnil => ⟨fun hno => absurd hno hfails, fun _ => hnil⟩, fun hall => hall.2 hfails⟩

/-- In every sequence of scans and for all replies: every scan leaves what it should, exactly if each
    that fails has found nothing by then, and each that succeeds comes after scans that have found
    nothing. -/
theorem scans_atomic_iff (devicesWithFlag : List DeviceID) (ls : List Replies) :
    (∀ pre replies post before, ls = pre ++ replies :: post →
        (scans B devicesWithFlag).run [] pre = some before →
        Atomic B before replies (loadRegDevices B devicesWithFlag replies before)) ↔
      ∀ pre replies post, ls = pre ++ replies :: post → Alone B pre replies := by
  constructor
  · intro h pre replies post heq
    obtain ⟨before, hbefore⟩ := (scans B devicesWithFlag).run_total (fun s l => ⟨_, rfl⟩) pre []
    exact (atomic_iff hbefore replies).mp (h pre replies post before heq hbefore)
  · intro h pre replies post before heq hbefore
    exact (atomic_iff hbefore replies).mpr (h pre replies post heq)

/-- The passes of `loadJablotronDevices` are scans, or leave the devices alone. -/
theorem passes_scan (ps : List Pass) (s : Load) : ∃ ls, (scans B devicesWithFlag).run s.devices ls =
    some (ps.foldl (fun s p => (loadJablotronDevices B devicesWithFlag p s).2) s).devices := by
  induction ps generalizing s with
  | nil => exact ⟨[], rfl⟩
  | cons p ps ih =>
    obtain ⟨ls, hls⟩ := ih (loadJablotronDevices B devicesWithFlag p s).2
    rw [List.foldl_cons]
    unfold loadJablotronDevices at hls ⊢
    split_ifs at hls ⊢
    · exact ⟨ls, hls⟩
    · exact ⟨ls, hls⟩
    · exact ⟨p.replies :: ls, hls⟩

/-- A dongle with one device, in its first slot. -/
def oneDevice : Replies := fun i => if i = 0 then "SLOT:00 [13582137]".toList else []

/-- It is scanned again after the line was lost: the device is there twice. -/
theorem scanned_twice : ¬ ∀ (ls pre : List Replies) (replies : Replies) (post : List Replies) before,
    ls = pre ++ replies :: post → (scans Sample.base []).run [] pre = some before →
      Atomic Sample.base before replies (loadRegDevices Sample.base [] replies before) := by
  intro h
  obtain ⟨before, hbefore⟩ := (scans Sample.base []).run_total (fun s l => ⟨_, rfl⟩) [oneDevice] []
  have hatomic := h [oneDevice, oneDevice] [oneDevice] oneDevice [] before rfl hbefore
  have hfails : ¬ Fails Sample.base oneDevice := by decide
  have hfound : found Sample.base oneDevice = [13582137] := by decide
  have hnone := ((atomic_iff hbefore oneDevice).mp hatomic).2 hfails oneDevice (by simp)
  rw [hfound] at hnone
  cases hnone

end BeeeOn.JablotronDeviceManager
