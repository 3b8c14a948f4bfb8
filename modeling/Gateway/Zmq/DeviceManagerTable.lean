import Gateway.Schemes.Lts
import Gateway.Model.Ids

/-! @src zmq/ZMQDeviceManagerTable.cpp | name:Device manager table | family:allocation

    The broker gives every device manager that says hello an id: the prefix it asked for and the first
    free ident. The search for that ident walks the table from the front, counts up from the ident of
    the first entry and stops at the first entry that does not continue the count. The table keeps the
    order of registration, so once a removal has been followed by a registration the idents are no
    longer ascending and the walk can stop short of an entry that bears the very ident it returns.
    Without removals the 256 idents are given out in order (`registration_capacity`). -/

namespace BeeeOn
open Schemes

/-- `ZMQDeviceManagerTable`: the vector `m_deviceManagers`, in the order of registration. -/
abbrev ZMQDeviceManagerTable := List DeviceManagerID

namespace ZMQDeviceManagerTable

def FIRST_DAEMON_IDENT : BitVec 8 := 0
def UINT8_MAX : ℕ := 255

/-- The loop of `getFirstEmptyID`; the ident wraps at 8 bits. -/
def firstEmptyFrom (daemonID : BitVec 8) : ZMQDeviceManagerTable → BitVec 8
  | [] => daemonID
  | item :: items => if item.ident = daemonID then firstEmptyFrom (daemonID + 1) items else daemonID

def getFirstEmptyID : ZMQDeviceManagerTable → BitVec 8
  | [] => FIRST_DAEMON_IDENT
  | front :: items => firstEmptyFrom front.ident (front :: items)

def fromPrefix (t : ZMQDeviceManagerTable) (p : DevicePrefix) : Except Exn DeviceManagerID :=
  if t.length > UINT8_MAX then .error .range
  else .ok (.ofPrefix p t.getFirstEmptyID)

/-- `registerDaemonPrefix`: the new id and the table with it. -/
def registerDaemonPrefix (t : ZMQDeviceManagerTable) (p : DevicePrefix) :
    Except Exn (DeviceManagerID × ZMQDeviceManagerTable) :=
  match t.fromPrefix p with
  | .error e => .error e
  | .ok id => .ok (id, t ++ [id])

def unregisterDaemon (t : ZMQDeviceManagerTable) (id : DeviceManagerID) :
    Except Exn ZMQDeviceManagerTable :=
  if id ∈ t then .ok (t.erase id) else .error .invalidArgument

def getAll (t : ZMQDeviceManagerTable) : List DeviceManagerID := t

/-- `getAll(prefix)`. -/
def getAllOf (t : ZMQDeviceManagerTable) (p : DevicePrefix) : List DeviceManagerID :=
  t.filter (fun item => item.devicePrefix = p)

def isDeviceManagerRegistered (t : ZMQDeviceManagerTable) (p : DevicePrefix) : Bool :=
  t.any (fun item => p = item.devicePrefix)

theorem isDeviceManagerRegistered_iff {t : ZMQDeviceManagerTable} {p : DevicePrefix} :
    t.isDeviceManagerRegistered p = true ↔ t.getAllOf p ≠ [] := by
  rw [isDeviceManagerRegistered, getAllOf, List.any_eq_true, ← List.length_pos_iff,
    List.length_pos_iff_exists_mem]
  simp only [List.mem_filter, decide_eq_true_eq]
  exact exists_congr fun x => and_congr_right fun _ => eq_comm

/-- When a registration succeeds, and what it returns. -/
theorem registerDaemonPrefix_ok {t t' : ZMQDeviceManagerTable} {p : DevicePrefix}
    {id : DeviceManagerID} : t.registerDaemonPrefix p = .ok (id, t') ↔
      t.length ≤ UINT8_MAX ∧ id = .ofPrefix p t.getFirstEmptyID ∧ t' = t ++ [id] := by
  rw [registerDaemonPrefix, fromPrefix]
  by_cases h : t.length > UINT8_MAX
  · rw [if_pos h]
    simp [Nat.not_le.mpr h]
  · rw [if_neg h]
    simp only [Except.ok.injEq, Prod.mk.injEq]
    constructor
    · rintro ⟨rfl, rfl⟩; exact ⟨Nat.not_lt.mp h, rfl, rfl⟩
    · rintro ⟨_, rfl, rfl⟩; exact ⟨rfl, rfl⟩

/-! ### Where the search stops -/

/-- How many leading entries count up by one from the ident `d`. -/
def runLength (d : BitVec 8) : ZMQDeviceManagerTable → ℕ
  | [] => 0
  | item :: items => if item.ident = d then runLength (d + 1) items + 1 else 0

theorem runLength_le (d : BitVec 8) (t : ZMQDeviceManagerTable) : runLength d t ≤ t.length := by
  induction t generalizing d with
  | nil => exact le_rfl
  | cons item items ih =>
    rw [runLength]
    split_ifs
    · simpa using ih (d + 1)
    · exact Nat.zero_le _

theorem add_one_add_ofNat (d : BitVec 8) (n : ℕ) :
    d + 1 + BitVec.ofNat 8 n = d + BitVec.ofNat 8 (n + 1) := by
  rw [BitVec.ofNat_add, BitVec.add_assoc, BitVec.add_comm 1]
  rfl

theorem firstEmptyFrom_eq (d : BitVec 8) (t : ZMQDeviceManagerTable) :
    firstEmptyFrom d t = d + BitVec.ofNat 8 (runLength d t) := by
  induction t generalizing d with
  | nil => simp [firstEmptyFrom, runLength]
  | cons item items ih =>
    rw [firstEmptyFrom, runLength]
    split_ifs
    · rw [ih (d + 1), add_one_add_ofNat]
    · simp

/-- The entries of the run have the idents `d`, `d + 1`, … -/
theorem ident_of_mem_run {d : BitVec 8} {t : ZMQDeviceManagerTable} {x : DeviceManagerID}
    (hx : x ∈ t.take (runLength d t)) :
    ∃ j < runLength d t, x.ident = d + BitVec.ofNat 8 j := by
  induction t generalizing d with
  | nil => simp at hx
  | cons item items ih =>
    rw [runLength] at hx ⊢
    split_ifs at hx ⊢ with hd
    · rw [List.take_succ_cons] at hx
      rcases List.mem_cons.mp hx with rfl | hx
      · exact ⟨0, Nat.succ_pos _, by simp [hd]⟩
      · obtain ⟨j, hj, hid⟩ := ih hx
        exact ⟨j + 1, Nat.succ_lt_succ hj, by rw [hid, add_one_add_ofNat]⟩
    · simp at hx

/-- No entry behind the leading run bears the prefix `p` and the ident that continues the run. -/
def NoneBehind (t : ZMQDeviceManagerTable) (p : DevicePrefix) : Prop :=
  ∀ front, t.head? = some front → ∀ x ∈ t.drop (runLength front.ident t),
    ¬ (x.devicePrefix = p ∧ x.ident = front.ident + BitVec.ofNat 8 (runLength front.ident t))

instance (t : ZMQDeviceManagerTable) (p : DevicePrefix) : Decidable (t.NoneBehind p) :=
  match h : t.head? with
  | none => isTrue (by rintro front hf; rw [h] at hf; cases hf)
  | some front => decidable_of_iff
      (∀ x ∈ t.drop (runLength front.ident t), ¬ (x.devicePrefix = p ∧
        x.ident = front.ident + BitVec.ofNat 8 (runLength front.ident t)))
      ⟨fun hx f hf => by rw [h, Option.some.injEq] at hf; exact hf ▸ hx, fun hx => hx front h⟩

/-- A successful registration returns an id that is new to the table exactly when no entry behind the
    leading run already bears it. -/
theorem register_new_iff {t t' : ZMQDeviceManagerTable} {p : DevicePrefix} {id : DeviceManagerID}
    (h : t.registerDaemonPrefix p = .ok (id, t')) : id ∉ t ↔ t.NoneBehind p := by
  obtain ⟨hlen, hid, -⟩ := registerDaemonPrefix_ok.mp h
  cases t with
  | nil => simp [NoneBehind]
  | cons front items =>
    set t : ZMQDeviceManagerTable := front :: items with ht
    set n := runLength front.ident t
    have hfe : t.getFirstEmptyID = front.ident + BitVec.ofNat 8 n := firstEmptyFrom_eq _ _
    rw [hfe] at hid
    have hnle : n ≤ UINT8_MAX := le_trans (runLength_le _ _) hlen
    -- the idents of the run differ from the one that continues it, for want of a wrap
    have hrun : id ∉ t.take n := by
      intro hm
      obtain ⟨j, hj, hji⟩ := ident_of_mem_run hm
      rw [hid, DeviceManagerID.ident_ofPrefix, BitVec.add_right_inj] at hji
      have hnat := congrArg BitVec.toNat hji
      simp only [BitVec.toNat_ofNat] at hnat
      rw [UINT8_MAX] at hnle
      omega
    have hsplit : id ∉ t ↔ id ∉ t.drop n := by
      conv_lhs => rw [← List.take_append_drop n t]
      rw [List.mem_append, not_or]
      exact and_iff_right hrun
    rw [hsplit]
    constructor
    · rintro hnot f hf x hx ⟨hp, hi⟩
      obtain rfl : front = f := by simpa [ht] using hf
      apply hnot
      rwa [hid, ← hi, ← hp, DeviceManagerID.ofPrefix_eta]
    · intro hno hm
      refine hno front rfl id hm ⟨?_, ?_⟩
      · rw [hid, DeviceManagerID.devicePrefix_ofPrefix]
      · rw [hid, DeviceManagerID.ident_ofPrefix]

/-! ### Histories of the table -/

inductive Op where
  | register (p : DevicePrefix)
  | unregister (id : DeviceManagerID)
  deriving DecidableEq

/-- The table under a sequence of calls; a call that raises leaves it as it was. -/
def calls : Lts ZMQDeviceManagerTable Op where
  step
    | t, .register p => some (match t.registerDaemonPrefix p with
      | .ok (_, t') => t'
      | .error _ => t)
    | t, .unregister id => some (match t.unregisterDaemon id with
      | .ok t' => t'
      | .error _ => t)

/-- What a call can do: append the id it returns, remove one entry, or raise. -/
theorem calls_step {t u : ZMQDeviceManagerTable} {op : Op} (h : calls.step t op = some u) :
    (∃ p id, op = .register p ∧ t.registerDaemonPrefix p = .ok (id, u) ∧ u = t ++ [id]) ∨
    (∃ id, op = .unregister id ∧ u = t.erase id) ∨ u = t := by
  cases op with
  | register p =>
    simp only [calls, Option.some.injEq] at h
    cases hr : t.registerDaemonPrefix p with
    | error e => rw [hr] at h; exact Or.inr (Or.inr h.symm)
    | ok r =>
      obtain ⟨id, t'⟩ := r
      rw [hr] at h
      obtain rfl : t' = u := h
      exact Or.inl ⟨p, id, rfl, hr, (registerDaemonPrefix_ok.mp hr).2.2⟩
  | unregister id =>
    simp only [calls, Option.some.injEq, unregisterDaemon] at h
    split_ifs at h with hm
    · exact Or.inr (Or.inl ⟨id, rfl, h.symm⟩)
    · exact Or.inr (Or.inr h.symm)

/-- The condition on a call: a registration that succeeds finds no entry behind the leading run. -/
def Orderly (t : ZMQDeviceManagerTable) : Op → Prop
  | .register p => t.length ≤ UINT8_MAX → t.NoneBehind p
  | .unregister _ => True

theorem nodup_step {t u : ZMQDeviceManagerTable} {op : Op} (ht : t.Nodup) (hc : t.Orderly op)
    (h : calls.step t op = some u) : u.Nodup := by
  rcases calls_step h with ⟨p, id, rfl, hr, rfl⟩ | ⟨id, rfl, rfl⟩ | rfl
  · have hnew : id ∉ t := (register_new_iff hr).mpr (hc (registerDaemonPrefix_ok.mp hr).1)
    exact List.nodup_append.mpr ⟨ht, List.nodup_singleton id,
      fun a ha b hb hab => hnew (List.mem_singleton.mp hb ▸ hab ▸ ha)⟩
  · exact ht.erase id
  · exact ht

/-- A registration that hands out a new id meets the condition. -/
theorem orderly_of_nodup {t u : ZMQDeviceManagerTable} {op : Op} (h : calls.step t op = some u)
    (hu : u.Nodup) : t.Orderly op := by
  cases op with
  | unregister id => trivial
  | register p =>
    intro hlen
    have hr : t.registerDaemonPrefix p =
        .ok (.ofPrefix p t.getFirstEmptyID, t ++ [.ofPrefix p t.getFirstEmptyID]) :=
      registerDaemonPrefix_ok.mpr ⟨hlen, rfl, rfl⟩
    simp only [calls, hr, Option.some.injEq] at h
    subst h
    rw [← register_new_iff hr]
    intro hm
    exact (List.nodup_append.mp hu).2.2 _ hm _ (by simp) rfl

/-- Over any sequence of calls from the empty table: the ids are pairwise distinct in every state
    reached exactly when every registration meets the condition. -/
theorem ids_distinct_iff (ops : List Op) :
    (∀ as bs t, ops = as ++ bs → calls.run [] as = some t → t.Nodup) ↔
      calls.Meets Orderly [] ops := by
  obtain ⟨u, hu⟩ := calls.run_total (fun t op => by cases op <;> exact ⟨_, rfl⟩) ops []
  refine calls.run_states_iff (P := fun _ t => t.Nodup) (Q := fun _ t => t.Nodup)
    (C := fun _ t op => t.Orderly op) List.nodup_nil (fun _ _ ht => ht) ?_ ?_ hu
  · intro _ t op u _ h hu
    exact orderly_of_nodup h hu
  · intro _ t op u ht h hc
    exact nodup_step ht hc h

/-- Three managers register, the second leaves, and two more register: the walk fills the gap with
    ident 1 behind ident 2, stops there the next time and hands out ident 1 again. -/
theorem ids_not_distinct : ¬ ∀ (ops : List Op) (t : ZMQDeviceManagerTable),
    calls.run [] ops = some t → t.Nodup := by
  intro h
  have := h [.register ⟨0xa8⟩, .register ⟨0xa8⟩, .register ⟨0xa8⟩, .unregister ⟨0xa801⟩,
    .register ⟨0xa8⟩, .register ⟨0xa8⟩] [⟨0xa800⟩, ⟨0xa802⟩, ⟨0xa801⟩, ⟨0xa801⟩] (by decide)
  exact absurd this (by decide)

/-! ### Registrations alone -/

/-- The idents count from zero in the order of the table. -/
def Counts (t : ZMQDeviceManagerTable) : Prop :=
  t.map (fun x => x.ident.toNat) = List.range t.length

theorem Counts.ident {t : ZMQDeviceManagerTable} (h : t.Counts) {i : ℕ} {x : DeviceManagerID}
    (hx : t[i]? = some x) : x.ident = BitVec.ofNat 8 i := by
  have hi := congrArg (fun l => l[i]?) h
  simp only [List.getElem?_map, hx, Option.map_some] at hi
  obtain ⟨hlt, hget⟩ := List.getElem?_eq_some_iff.mp hi.symm
  rw [List.getElem_range] at hget
  rw [hget, BitVec.ofNat_toNat, BitVec.setWidth_eq]

theorem runLength_eq_length {d : BitVec 8} {t : ZMQDeviceManagerTable}
    (h : ∀ i x, t[i]? = some x → x.ident = d + BitVec.ofNat 8 i) : runLength d t = t.length := by
  induction t generalizing d with
  | nil => rfl
  | cons item items ih =>
    have hitem : item.ident = d := by simpa using h 0 item rfl
    rw [runLength, if_pos hitem, List.length_cons, ih fun i x hx => ?_]
    rw [add_one_add_ofNat]
    exact h (i + 1) x hx

/-- A table that counts is left at its end by the walk. -/
theorem Counts.getFirstEmptyID {t : ZMQDeviceManagerTable} (h : t.Counts) :
    t.getFirstEmptyID = BitVec.ofNat 8 t.length := by
  cases t with
  | nil => rfl
  | cons front items =>
    have hfront : front.ident = 0 := h.ident (i := 0) rfl
    rw [ZMQDeviceManagerTable.getFirstEmptyID, hfront, firstEmptyFrom_eq, runLength_eq_length]
    · exact BitVec.zero_add _
    · intro i x hx
      rw [h.ident hx]
      exact (BitVec.zero_add _).symm

/-- A registration with a free slot gets the next number. -/
theorem Counts.register {t : ZMQDeviceManagerTable} (h : t.Counts) (hlen : t.length ≤ UINT8_MAX)
    (p : DevicePrefix) : ∃ id, t.registerDaemonPrefix p = .ok (id, t ++ [id]) ∧
      id.devicePrefix = p ∧ id.ident.toNat = t.length ∧ Counts (t ++ [id]) := by
  have hident : (DeviceManagerID.ofPrefix p t.getFirstEmptyID).ident.toNat = t.length := by
    rw [DeviceManagerID.ident_ofPrefix, h.getFirstEmptyID, BitVec.toNat_ofNat]
    rw [UINT8_MAX] at hlen
    omega
  refine ⟨.ofPrefix p t.getFirstEmptyID, registerDaemonPrefix_ok.mpr ⟨hlen, rfl, rfl⟩,
    DeviceManagerID.devicePrefix_ofPrefix _ _, hident, ?_⟩
  rw [Counts, List.map_append, h, List.map_singleton, hident, List.length_append,
    List.length_singleton, List.range_succ]

/-- A registration that finds no free slot raises. -/
theorem register_full {t : ZMQDeviceManagerTable} (h : UINT8_MAX < t.length) (p : DevicePrefix) :
    t.registerDaemonPrefix p = .error .range := by
  rw [registerDaemonPrefix, fromPrefix, if_pos h]

/-- The table after the registrations `ps`: its entries bear the first 256 prefixes and count. -/
theorem run_register (ps : List DevicePrefix) : ∃ t, calls.run [] (ps.map .register) = some t ∧
    t.map DeviceManagerID.devicePrefix = ps.take (UINT8_MAX + 1) ∧ t.Counts := by
  induction ps using List.reverseRecOn with
  | nil => exact ⟨[], rfl, rfl, rfl⟩
  | append_singleton ps p ih =>
    obtain ⟨t, hrun, hpre, hcounts⟩ := ih
    have hlen := congrArg List.length hpre
    rw [List.length_map, List.length_take] at hlen
    have hstep : ∀ u, calls.step t (.register p) = some u →
        calls.run [] ((ps ++ [p]).map .register) = some u := fun u hu => by
      rw [List.map_append, List.map_singleton]
      exact (calls.run_concat_iff).mpr ⟨t, hrun, hu⟩
    by_cases hfree : t.length ≤ UINT8_MAX
    · obtain ⟨id, hr, hp, -, hnext⟩ := hcounts.register hfree p
      refine ⟨t ++ [id], hstep _ (by simp only [calls, hr]), ?_, hnext⟩
      rw [List.map_append, hpre, List.map_singleton, hp, List.take_of_length_le (by omega),
        List.take_of_length_le (by simp; omega)]
    · refine ⟨t, hstep _ (by simp only [calls, register_full (not_le.mp hfree)]), ?_, hcounts⟩
      rw [hpre, List.take_append_of_le_length (by omega)]

/-- For every sequence of prefixes registered on the empty table: the idents are 0, 1, 2, … in the order
    of the table; as long as there are fewer than 256, the next registration gets the prefix it asks
    for and the next ident; from then on it raises and the table stays as it is. -/
theorem registration_capacity (ps : List DevicePrefix) (p : DevicePrefix) :
    ∃ t, calls.run [] (ps.map .register) = some t ∧
      t.map (fun x => x.ident.toNat) = List.range (min 256 ps.length) ∧
      t.map DeviceManagerID.devicePrefix = ps.take 256 ∧
      (ps.length < 256 → ∃ id, t.registerDaemonPrefix p = .ok (id, t ++ [id]) ∧
        id.devicePrefix = p ∧ id.ident.toNat = ps.length) ∧
      (256 ≤ ps.length → t.registerDaemonPrefix p = .error .range ∧
        calls.step t (.register p) = some t) := by
  obtain ⟨t, hrun, hpre, hcounts⟩ := run_register ps
  have hlen : t.length = min 256 ps.length := by
    have h := congrArg List.length hpre
    rwa [List.length_map, List.length_take] at h
  refine ⟨t, hrun, hlen ▸ hcounts, hpre, fun hfree => ?_, fun hfull => ?_⟩
  · obtain ⟨id, hr, hp, hi, -⟩ := hcounts.register (by rw [UINT8_MAX]; omega) p
    exact ⟨id, hr, hp, by omega⟩
  · have hr := register_full (t := t) (by rw [UINT8_MAX]; omega) p
    exact ⟨hr, by simp only [calls, hr]⟩

end ZMQDeviceManagerTable
end BeeeOn
