import Gateway.Jablotron.Retransmission
import Gateway.Schemes.Latest
import Gateway.Schemes.Lts

/-! @src jablotron/JablotronDeviceManager.cpp, jablotron/JablotronDeviceManager.h | name:The outputs of
    the dongle | family:state

    The dongle has two outputs, X for the first AC-88 that is registered and Y for the second, and every
    command to switch one sends the states of both. `setSwitch` looks for the first AC-88 only and takes
    what is not for it as a command for output Y. So the outputs follow the commands exactly if each of
    these is for one of the two devices, or asks for what the output it falls to has already
    (`outputs_follow_iff`). -/

namespace BeeeOn.JablotronDeviceManager
open Schemes
variable {V : Type}

/-- `pgx` and `pgy`, and what each command has done on the line. -/
structure Outputs where
  pgx : BitVec 16
  pgy : BitVec 16
  line : List (List Action)

def Outputs.init : Outputs := ⟨0, 0, []⟩

/-- A call of `setSwitch`, with the outcomes of the writes. -/
structure Switch where
  deviceID : DeviceID
  sw : BitVec 16
  written : ℕ → ℤ

/-- The scan of `m_devices` in `setSwitch`. -/
def ac88_sn_pgx (devices : List JablotronSerialNumber) : JablotronSerialNumber :=
  devices.foldl (fun sn device => if getDeviceType device = .ac88 ∧ sn = 0 then device else sn) 0

def packet (pgx pgy : BitVec 16) : String :=
  "\x1bTX ENROLL:0 PGX:" ++ toString pgx.toInt ++ " PGY:" ++ toString pgy.toInt ++
    " ALARM:0 BEEP:FAST\n"

variable (P : Platform V) (devices : List JablotronSerialNumber)

/-- The output that a command falls to is `pgx`. -/
def SetsX (deviceID : DeviceID) : Prop := createDeviceID P (ac88_sn_pgx devices) = deviceID

instance (deviceID : DeviceID) : Decidable (SetsX P devices deviceID) :=
  inferInstanceAs (Decidable (_ = _))

def setSwitch (c : Switch) (s : Outputs) : Outputs :=
  let pgx := if SetsX P devices c.deviceID then c.sw else s.pgx
  let pgy := if SetsX P devices c.deviceID then s.pgy else c.sw
  ⟨pgx, pgy, s.line ++ [retransmissionPacket c.written (packet pgx pgy)]⟩

def switching : Lts Outputs Switch where
  step s c := some (setSwitch P devices c s)

/-! ### What the outputs are for -/

def firstAC88 : Option JablotronSerialNumber := devices.find? (getDeviceType · = .ac88)

/-- The first AC-88 that is another one. -/
def secondAC88 : Option JablotronSerialNumber :=
  devices.find? fun d => getDeviceType d = .ac88 ∧ some d ≠ firstAC88 devices

/-- The value commanded last for a device; 0 for none. -/
def commanded (o : Option JablotronSerialNumber) (cs : List Switch) : BitVec 16 :=
  match o with
  | none => 0
  | some d => latest (createDeviceID P d) 0 (cs.map fun c => (c.deviceID, c.sw))

/-- The outputs are the values commanded last for the two devices, and the packets of the last command
    carry these. -/
structure Follows (cs : List Switch) (s : Outputs) : Prop where
  pgx : s.pgx = commanded P (firstAC88 devices) cs
  pgy : s.pgy = commanded P (secondAC88 devices) cs
  packets : ∀ as ∈ s.line.getLast?, ∀ p, .write p ∈ as →
    p = packet (commanded P (firstAC88 devices) cs) (commanded P (secondAC88 devices) cs)

/-- The id is that of the device. -/
def Names (o : Option JablotronSerialNumber) (deviceID : DeviceID) : Prop :=
  ∃ d, o = some d ∧ createDeviceID P d = deviceID

/-- The condition on a command: it is for one of the two devices, or leaves the output it falls to as it
    is. -/
def Fits (s : Outputs) (c : Switch) : Prop :=
  Names P (firstAC88 devices) c.deviceID ∨ Names P (secondAC88 devices) c.deviceID ∨
    c.sw = if SetsX P devices c.deviceID then s.pgx else s.pgy

/-! ### The devices -/

section
variable {P devices} {cs : List Switch} {s : Outputs} {c : Switch}

theorem createDeviceID_inj {sn sn' : JablotronSerialNumber}
    (h : createDeviceID P sn = createDeviceID P sn') : sn = sn' := by
  have hident : sn.setWidth 56 = sn'.setWidth 56 := congrArg DeviceID.ident h
  have hback := congrArg (BitVec.setWidth 32) hident
  simpa using hback

/-- The scan finds the first AC-88: the number 0 is none. -/
theorem scan_eq : ac88_sn_pgx devices = (firstAC88 devices).getD 0 := by
  have hstay : ∀ (ds : List JablotronSerialNumber) (sn : JablotronSerialNumber), sn ≠ 0 →
      ds.foldl (fun sn device => if getDeviceType device = .ac88 ∧ sn = 0 then device else sn) sn = sn := by
    intro ds
    induction ds with
    | nil => intro sn _; rfl
    | cons d ds ih =>
      intro sn hsn
      rw [List.foldl_cons, if_neg fun h => hsn h.2]
      exact ih sn hsn
  unfold ac88_sn_pgx firstAC88
  induction devices with
  | nil => rfl
  | cons d ds ih =>
    rw [List.foldl_cons, List.find?_cons]
    by_cases hd : getDeviceType d = .ac88
    · have hne : d ≠ 0 := by
        rintro rfl
        exact absurd hd (by decide)
      rw [if_pos ⟨hd, rfl⟩, decide_eq_true hd]
      exact hstay ds d hne
    · rw [if_neg fun h => hd h.1, decide_eq_false hd]
      exact ih

/-- A command for the first AC-88 falls to output X. -/
theorem Names.setsX {deviceID : DeviceID} (h : Names P (firstAC88 devices) deviceID) :
    SetsX P devices deviceID := by
  obtain ⟨d, hd, rfl⟩ := h
  rw [SetsX, scan_eq, hd]
  rfl

/-- A command for the second AC-88 falls to output Y. -/
theorem Names.not_setsX {deviceID : DeviceID} (h : Names P (secondAC88 devices) deviceID) :
    ¬ SetsX P devices deviceID := by
  obtain ⟨d, hd, rfl⟩ := h
  have hsome := List.find?_some hd
  have hmem := List.mem_of_find?_eq_some hd
  obtain ⟨hac, hne⟩ := of_decide_eq_true hsome
  obtain ⟨d', hd'⟩ : ∃ d', firstAC88 devices = some d' :=
    Option.isSome_iff_exists.mp (List.find?_isSome.mpr ⟨d, hmem, decide_eq_true hac⟩)
  rw [SetsX, scan_eq, hd']
  intro heq
  have hsame : d' = d := createDeviceID_inj heq
  rw [hd', hsame] at hne
  exact hne rfl

/-! ### One command -/

theorem commanded_concat (o : Option JablotronSerialNumber) [Decidable (Names P o c.deviceID)] :
    commanded P o (cs ++ [c]) = if Names P o c.deviceID then c.sw else commanded P o cs := by
  cases o with
  | none =>
    rw [if_neg fun h : Names P none c.deviceID => nomatch h.choose_spec.1]
    rfl
  | some d =>
    have hnames : Names P (some d) c.deviceID ↔ c.deviceID = createDeviceID P d := by
      constructor
      · rintro ⟨d', hd', heq⟩
        cases hd'
        exact heq.symm
      · intro heq
        exact ⟨d, rfl, heq.symm⟩
    simp only [commanded, List.map_append, List.map_singleton, latest_concat, hnames]

/-- The packets of the last command carry the outputs that it has left. -/
theorem packets_setSwitch {as : List Action} (has : as ∈ (setSwitch P devices c s).line.getLast?)
    {p : String} (hp : .write p ∈ as) :
    p = packet (setSwitch P devices c s).pgx (setSwitch P devices c s).pgy := by
  rw [setSwitch, List.getLast?_concat, Option.mem_some_iff] at has
  rw [← has] at hp
  exact packets_eq _ _ hp

open Classical in
/-- A command that fits leaves in output X what is commanded for the first AC-88. -/
theorem pgx_setSwitch (hs : Follows P devices cs s) (hfits : Fits P devices s c) :
    (setSwitch P devices c s).pgx = commanded P (firstAC88 devices) (cs ++ [c]) := by
  rw [commanded_concat, ← hs.pgx]
  simp only [setSwitch]
  split_ifs with hset hfirst hfirst
  · rfl
  · rcases hfits with hfits | hfits | hfits
    · exact absurd hfits hfirst
    · exact absurd hset hfits.not_setsX
    · rwa [if_pos hset] at hfits
  · exact absurd hfirst.setsX hset
  · rfl

open Classical in
/-- And in output Y what is commanded for the second. -/
theorem pgy_setSwitch (hs : Follows P devices cs s) (hfits : Fits P devices s c) :
    (setSwitch P devices c s).pgy = commanded P (secondAC88 devices) (cs ++ [c]) := by
  rw [commanded_concat, ← hs.pgy]
  simp only [setSwitch]
  split_ifs with hset hsecond hsecond
  · exact absurd hset hsecond.not_setsX
  · rfl
  · rfl
  · rcases hfits with hfits | hfits | hfits
    · exact absurd hfits.setsX hset
    · exact absurd hfits hsecond
    · rwa [if_neg hset] at hfits

/-- The outputs follow a command exactly if it is for one of the two devices or changes nothing. -/
theorem follows_step (hs : Follows P devices cs s) :
    Follows P devices (cs ++ [c]) (setSwitch P devices c s) ↔ Fits P devices s c := by
  classical
  constructor
  · rintro ⟨hx, hy, -⟩
    rw [commanded_concat] at hx hy
    by_cases hfirst : Names P (firstAC88 devices) c.deviceID
    · exact Or.inl hfirst
    · by_cases hsecond : Names P (secondAC88 devices) c.deviceID
      · exact Or.inr (Or.inl hsecond)
      · refine Or.inr (Or.inr ?_)
        rw [if_neg hfirst, ← hs.pgx] at hx
        rw [if_neg hsecond, ← hs.pgy] at hy
        simp only [setSwitch] at hx hy
        split_ifs at hx hy ⊢ with hset
        · exact hx
        · exact hy
  · intro hfits
    have hx := pgx_setSwitch hs hfits
    have hy := pgy_setSwitch hs hfits
    refine ⟨hx, hy, fun as has p hp => ?_⟩
    rw [← hx, ← hy]
    exact packets_setSwitch has hp

/-! ### Runs -/

theorem follows_init : Follows P devices [] Outputs.init := by
  refine ⟨?_, ?_, nofun⟩
  · cases firstAC88 devices <;> rfl
  · cases secondAC88 devices <;> rfl

end

/-- For every list of devices and every sequence of commands: in every state on the way both outputs and
    all packets follow the commands, exactly if every command fits. -/
theorem outputs_follow_iff (cs : List Switch) :
    (∀ pre post t, cs = pre ++ post → (switching P devices).run Outputs.init pre = some t →
      Follows P devices pre t) ↔
      (switching P devices).Meets (Fits P devices) Outputs.init cs := by
  obtain ⟨u, hu⟩ := (switching P devices).run_total (fun _ _ => ⟨_, rfl⟩) cs Outputs.init
  refine (switching P devices).run_states_iff (P := Follows P devices) (Q := Follows P devices)
    (C := fun _ s c => Fits P devices s c) follows_init (fun _ _ hs => hs) ?_ ?_ hu
  · intro as s c t hs ht hnext
    cases ht
    exact (follows_step hs).mp hnext
  · intro as s c t hs ht hfits
    cases ht
    exact (follows_step hs).mpr hfits

/-- One AC-88, and a command for another device: it switches output Y. -/
theorem foreign_switches : ¬ ∀ (P : Platform ℕ) (devices : List JablotronSerialNumber)
    (cs : List Switch) (t : Outputs), (switching P devices).run Outputs.init cs = some t →
      Follows P devices cs t := by
  intro h
  have hy := (h ⟨⟨0x09⟩, id, (· == ·)⟩ [0xcf0001] [⟨⟨⟨0x09⟩, 0x180000⟩, 1, fun _ => 1⟩] _ rfl).pgy
  exact absurd hy (by decide)

end BeeeOn.JablotronDeviceManager
