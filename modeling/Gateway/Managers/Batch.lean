import Gateway.Managers.Publication
import Gateway.ZWave.Factory
import Gateway.Model.Sample

/-! @src jablotron/JablotronDeviceManager.cpp, z-wave/ZWaveDeviceManager.cpp | name:A batch of answers |
    family:functional correctness

    `checkQueue` as one function of the list that `AnswerQueue::wait` has handed out, for both managers.
    They share the loop and differ in two places: what follows a new set of paired devices (the Z-Wave
    manager asks for last values) and how a last value is set on the device; either may raise. The list
    is handed out once, with the dirty flags cleared, so what the loop does not reach is lost. It leaves
    by `break` at an answer that is not in `m_table`, by `return` at a last value that is no success,
    and by every exception. -/

namespace BeeeOn
open Schemes
variable {V W : Type}

namespace DeviceManager

/-- What a manager brings to the loop: the last values it asks for when the paired devices have changed,
    up to an exception, and the exception that setting a value on a device ends with; and the ids that
    `GlobalID::random` gives to its requests. -/
structure Manager (V : Type) where
  setLastState : Finset DeviceID → List (DeviceID × ModuleID) × Option Exn
  setValue : DeviceID → ModuleID → Option V → Option Exn
  newID : ℕ → GlobalID

/-- How the body of the loop, or the loop, ends. -/
inductive End where
  | done | left | raised
  deriving DecidableEq, Repr

variable (B : Base V) (conv : V → W) (M : Manager V)

/-- `getLastValue`. -/
def getLastValue (s : State V W) (x : DeviceID × ModuleID) : State V W :=
  let e : Entry V := ⟨s.queue.next, M.newID s.sent.length, .serverLastValue x.1 x.2⟩
  { s with
    queue := s.queue.newAnswer
    table := s.table ++ [e]
    out := s.out ++ [(ZMQMessage.fromServerLastValueCommand B x.1 x.2).setID B e.id]
    sent := s.sent ++ [e] }

/-- The body of the loop. -/
def body (s : State V W) (a : ℕ) : State V W × End :=
  match s.table.find? (·.answer = a) with
  | none => (s, .left)
  | some e => match e.cmd, first s.queue a with
    | .serverDeviceList _, some ⟨_, .deviceList devices⟩ =>
      let asked := M.setLastState devices.toFinset
      (asked.1.foldl (getLastValue B M)
        { s with devices := devices.toFinset, acted := s.acted ++ [(a, .deviceList devices)] },
        if asked.2.isSome then .raised else .done)
    | .serverDeviceList _, _ => ({ s with devices := ∅ }, .raised)
    | .serverLastValue d m, some ⟨status, .lastValue v⟩ =>
      if status ≠ .success then (s, .left)
      else if (M.setValue d m v).isSome then (s, .raised)
      else
        ({ s with
          switched := s.switched ++ [(d, v.map conv)]
          acted := s.acted ++ [(a, .lastValue v)] }, .done)
    | .serverLastValue _ _, _ => (s, .raised)
    | _, _ => (s, .done)

/-- `checkQueue` on the list of dirty answers. -/
def checkQueue : State V W → List ℕ → State V W × End
  | s, [] => (s, .done)
  | s, a :: as => match body B conv M s a with
    | (t, .done) => checkQueue t as
    | (t, e) => (t, e)

/-! ### The two managers -/

/-- `setSwitch` sends a packet and raises nothing. -/
def jablotron (newID : ℕ → GlobalID) : Manager V := ⟨fun _ => ([], none), fun _ _ _ => none, newID⟩

/-- What the Z-Wave manager finds: the texts of the library for a node, the order of the set of devices,
    what a variable holds that no parse has set, and the exception of a product's `setValue`. -/
structure Network (V : Type) where
  manufacturerId : BitVec 8 → String
  productId : BitVec 8 → String
  order : Finset DeviceID → List DeviceID
  unset : ℕ
  setValue : ZWaveProduct → ModuleID → Option V → BitVec 8 → Option Exn

variable (N : Network V)

def nodeId (d : DeviceID) : BitVec 8 := d.ident.setWidth 8

/-- The modules that `setLastState` asks for, by manufacturer. -/
def lastStateModules (manufacturer : ℕ) : List ModuleID :=
  (if manufacturer = GenericZWaveMessageFactory.POPP_MANUFACTURER then [⟨0⟩] else []) ++
  (if manufacturer = GenericZWaveMessageFactory.DLINK_MANUFACTURER then [⟨4⟩] else []) ++
  (if manufacturer = GenericZWaveMessageFactory.AEOTEC_MANUFACTURER then [⟨6⟩, ⟨8⟩] else [])

/-- `setLastState`: a manufacturer that does not parse raises. -/
def setLastState : List DeviceID → List (DeviceID × ModuleID) × Option Exn
  | [] => ([], none)
  | d :: ds => match B.parseHex (N.manufacturerId (nodeId d)) with
    | .error e => ([], some e)
    | .ok manufacturer =>
      let rest := setLastState ds
      ((lastStateModules manufacturer).map (d, ·) ++ rest.1, rest.2)

/-- The parse of the two numbers: after an exception, which is logged, what follows is not set. -/
def manufacturerAndProduct (node : BitVec 8) : ℕ × ℕ :=
  match B.parseHex (N.manufacturerId node) with
  | .error _ => (N.unset, N.unset)
  | .ok manufacturer => match B.parseHex (N.productId node) with
    | .error _ => (manufacturer, N.unset)
    | .ok product => (manufacturer, product)

/-- The last value on its way to the node: the class of its product, and `setValue` of that class. -/
def setNodeValue (d : DeviceID) (m : ModuleID) (v : Option V) : Option Exn :=
  let numbers := manufacturerAndProduct B N (nodeId d)
  match GenericZWaveMessageFactory.create numbers.1 numbers.2 with
  | .error e => some e
  | .ok product => N.setValue product m v (nodeId d)

def zwave (newID : ℕ → GlobalID) : Manager V :=
  ⟨fun devices => setLastState B N (N.order devices), setNodeValue B N, newID⟩

/-! ### What the loop is to do -/

/-- The answer is in `m_table` and its first result is a success, with the payload `p` that the command
    asks for. -/
def Successful (s : State V W) (a : ℕ) (p : Payload V) : Prop :=
  ∃ e, s.table.find? (·.answer = a) = some e ∧ first s.queue a = some ⟨.success, p⟩ ∧ Expects e.cmd p

/-- Every successful answer of the batch is acted on. -/
def ActsOnAll (s : State V W) (batch : List ℕ) : Prop :=
  ∃ new, (checkQueue B conv M s batch).1.acted = s.acted ++ new ∧
    ∀ a ∈ batch, ∀ p, Successful s a p → (a, p) ∈ new

/-- The loop does not go on after the answer: it is not in `m_table`, it has no result of the class that
    its command asks for, it is a last value that is no success or cannot be set, or it is a device list
    after which `setLastState` raises. -/
def Stops (s : State V W) (a : ℕ) : Prop :=
  match s.table.find? (·.answer = a) with
  | none => True
  | some e => match e.cmd, first s.queue a with
    | .serverDeviceList _, some ⟨_, .deviceList devices⟩ =>
      (M.setLastState devices.toFinset).2.isSome = true
    | .serverDeviceList _, _ => True
    | .serverLastValue d m, some ⟨status, .lastValue v⟩ =>
      status ≠ .success ∨ (M.setValue d m v).isSome = true
    | .serverLastValue _ _, _ => True
    | _, _ => False

/-- The answer is a last value that cannot be set on its device. -/
def CannotSet (s : State V W) (a : ℕ) : Prop :=
  ∃ e d m v, s.table.find? (·.answer = a) = some e ∧ e.cmd = .serverLastValue d m ∧
    first s.queue a = some ⟨.success, .lastValue v⟩ ∧ (M.setValue d m v).isSome = true

/-- No answer before a successful one ends the loop, and its own value can be set. -/
def AllReached (s : State V W) (batch : List ℕ) : Prop :=
  ∀ pre a post p, batch = pre ++ a :: post → a ∉ pre → Successful s a p →
    (∀ b ∈ pre, ¬ Stops M s b) ∧ ¬ CannotSet M s a

/-! ### One answer -/

variable {B conv M} {s t : State V W} {a : ℕ} {p : Payload V}

/-- `t` finds the same at the answers of `s` as `s` does: it has new ones at most. -/
structure Keeps (s t : State V W) : Prop where
  next : s.queue.next ≤ t.queue.next
  find : ∀ a < s.queue.next, t.table.find? (·.answer = a) = s.table.find? (·.answer = a)
  first : ∀ a < s.queue.next, first t.queue a = first s.queue a

theorem Keeps.of_eq (hq : t.queue = s.queue) (ht : t.table = s.table) : Keeps s t :=
  ⟨by rw [hq], fun _ _ => by rw [ht], fun _ _ => by rw [hq]⟩

theorem Keeps.trans {u : State V W} (h : Keeps s t) (h' : Keeps t u) : Keeps s u where
  next := h.next.trans h'.next
  find a ha := (h'.find a (ha.trans_le h.next)).trans (h.find a ha)
  first a ha := (h'.first a (ha.trans_le h.next)).trans (h.first a ha)

theorem keeps_getLastValue (s : State V W) (x : DeviceID × ModuleID) :
    Keeps s (getLastValue B M s x) where
  next := Nat.le_succ _
  find a ha := by
    have hne : ¬ s.queue.next = a := ha.ne'
    rw [getLastValue, List.find?_append, List.find?_cons_of_neg (by simpa using hne),
      List.find?_nil, Option.or_none]
  first a ha := by
    rw [getLastValue, DeviceManager.first, AnswerQueue.newAnswer_heap, if_neg ha.ne]
    rfl

/-- The requests of `setLastState` come with answers of their own, and are nothing that is acted on. -/
theorem getLastValues_spec (xs : List (DeviceID × ModuleID)) (s : State V W) :
    Keeps s (xs.foldl (getLastValue B M) s) ∧ (xs.foldl (getLastValue B M) s).acted = s.acted := by
  induction xs generalizing s with
  | nil => exact ⟨.of_eq rfl rfl, rfl⟩
  | cons x xs ih =>
    obtain ⟨hkeeps, hacted⟩ := ih (getLastValue B M s x)
    exact ⟨(keeps_getLastValue s x).trans hkeeps, hacted⟩

/-- What the body of the loop acts on at the answer `a`. -/
def Does (M : Manager V) (s : State V W) (a : ℕ) (p : Payload V) : Prop :=
  ∃ e status, s.table.find? (·.answer = a) = some e ∧ first s.queue a = some ⟨status, p⟩ ∧
    match e.cmd, p with
    | .serverDeviceList _, .deviceList _ => True
    | .serverLastValue d m, .lastValue v => status = .success ∧ M.setValue d m v = none
    | _, _ => False

/-- The body of the loop: it ends early where it stops, and it acts on at most one payload. -/
structure Ran (M : Manager V) (s : State V W) (a : ℕ) (r : State V W × End) : Prop where
  keeps : Keeps s r.1
  ends : r.2 = .done ↔ ¬ Stops M s a
  acted : ∃ new, r.1.acted = s.acted ++ new ∧ ∀ x, x ∈ new ↔ x.1 = a ∧ Does M s a x.2

theorem Ran.idle {r : State V W × End} (hs : r.1.queue = s.queue ∧ r.1.table = s.table ∧
    r.1.acted = s.acted) (ends : r.2 = .done ↔ ¬ Stops M s a) (hno : ∀ p, ¬ Does M s a p) :
    Ran M s a r where
  keeps := .of_eq hs.1 hs.2.1
  ends := ends
  acted := ⟨[], by rw [hs.2.2, List.append_nil], fun x => by simp [hno]⟩

theorem Ran.did {r : State V W × End} (hk : Keeps s r.1) (ends : r.2 = .done ↔ ¬ Stops M s a)
    (hacted : r.1.acted = s.acted ++ [(a, p)]) (hdoes : ∀ p', Does M s a p' ↔ p' = p) :
    Ran M s a r where
  keeps := hk
  ends := ends
  acted := ⟨[(a, p)], hacted, fun x => by simp [hdoes, Prod.ext_iff]⟩

theorem does_iff {e : Entry V} (hfind : s.table.find? (·.answer = a) = some e) :
    Does M s a p ↔ ∃ status, first s.queue a = some ⟨status, p⟩ ∧
      match e.cmd, p with
      | .serverDeviceList _, .deviceList _ => True
      | .serverLastValue d m, .lastValue v => status = .success ∧ M.setValue d m v = none
      | _, _ => False := by
  simp [Does, hfind]

/-- A device list replaces the paired devices before anything can raise. -/
theorem body_ran_list {e : Entry V} {q : DevicePrefix} (hfind : s.table.find? (·.answer = a) = some e)
    (hcmd : e.cmd = .serverDeviceList q) : Ran M s a (body B conv M s a) := by
  rcases hfirst : first s.queue a with _ | ⟨status, _ | devices | _ | _⟩
  case some.deviceList =>
    simp only [body, hfind, hcmd, hfirst]
    let t : State V W :=
      { s with devices := devices.toFinset, acted := s.acted ++ [(a, .deviceList devices)] }
    obtain ⟨hkeeps, hacted⟩ :=
      getLastValues_spec (B := B) (M := M) (M.setLastState devices.toFinset).1 t
    have hst : Keeps s t := .of_eq rfl rfl
    refine .did (hst.trans hkeeps) ?_ hacted fun p => ?_
    · cases hq : (M.setLastState devices.toFinset).2 <;> simp [Stops, hfind, hcmd, hfirst, hq]
    · rw [does_iff hfind, hcmd, hfirst]
      constructor
      · rintro ⟨_, heq, -⟩
        cases heq; rfl
      · rintro rfl
        exact ⟨status, rfl, trivial⟩
  all_goals
    simp only [body, hfind, hcmd, hfirst]
    exact .idle ⟨rfl, rfl, rfl⟩ (by simp [Stops, hfind, hcmd, hfirst])
      (by simp [does_iff hfind, hcmd, hfirst])

/-- A last value is set on its device if it is a success and nothing is raised. -/
theorem body_ran_value {e : Entry V} {d : DeviceID} {m : ModuleID}
    (hfind : s.table.find? (·.answer = a) = some e) (hcmd : e.cmd = .serverLastValue d m) :
    Ran M s a (body B conv M s a) := by
  rcases hfirst : first s.queue a with _ | ⟨status, _ | _ | v | _⟩
  case some.lastValue =>
    simp only [body, hfind, hcmd, hfirst]
    have hdoes : ∀ p', Does M s a p' ↔
        p' = .lastValue v ∧ status = .success ∧ M.setValue d m v = none := by
      intro p'
      rw [does_iff hfind, hcmd, hfirst]
      constructor
      · rintro ⟨_, heq, hset⟩
        cases heq
        exact ⟨rfl, hset⟩
      · rintro ⟨rfl, hset⟩
        exact ⟨status, rfl, hset⟩
    split_ifs with hs hv
    · exact .idle ⟨rfl, rfl, rfl⟩ (by simp [Stops, hfind, hcmd, hfirst, hs]) (by simp [hdoes, hs])
    · refine .idle ⟨rfl, rfl, rfl⟩ (by simp [Stops, hfind, hcmd, hfirst, hv]) fun p' hp => ?_
      rw [((hdoes p').mp hp).2.2] at hv
      cases hv
    · rw [not_not] at hs
      have hnone : M.setValue d m v = none := by simpa using hv
      exact .did (.of_eq rfl rfl) (by simp [Stops, hfind, hcmd, hfirst, hs, hnone]) rfl
        (by simp [hdoes, hs, hnone])
  all_goals
    simp only [body, hfind, hcmd, hfirst]
    exact .idle ⟨rfl, rfl, rfl⟩ (by simp [Stops, hfind, hcmd, hfirst])
      (by simp [does_iff hfind, hcmd, hfirst])

theorem body_ran (B : Base V) (conv : V → W) (M : Manager V) (s : State V W) (a : ℕ) :
    Ran M s a (body B conv M s a) := by
  cases hfind : s.table.find? (·.answer = a) with
  | none =>
    rw [body, hfind]
    exact .idle ⟨rfl, rfl, rfl⟩ (by simp [Stops, hfind]) (by simp [Does, hfind])
  | some e =>
    cases hcmd : e.cmd with
    | serverDeviceList q => exact body_ran_list hfind hcmd
    | serverLastValue d m => exact body_ran_value hfind hcmd
    | _ =>
      simp only [body, hfind, hcmd]
      exact .idle ⟨rfl, rfl, rfl⟩ (by simp [Stops, hfind, hcmd]) (by simp [does_iff hfind, hcmd])

/-! ### The loop -/

theorem Keeps.stops (h : Keeps s t) (ha : a < s.queue.next) : Stops M t a ↔ Stops M s a := by
  rw [Stops, Stops, h.find a ha, h.first a ha]

theorem Keeps.does (h : Keeps s t) (ha : a < s.queue.next) : Does M t a p ↔ Does M s a p := by
  rw [Does, Does, h.find a ha, h.first a ha]

/-- The answer `b` is in the batch and the loop gets to it. -/
def Gets (M : Manager V) (s : State V W) (batch : List ℕ) (b : ℕ) : Prop :=
  ∃ pre post, batch = pre ++ b :: post ∧ ∀ c ∈ pre, ¬ Stops M s c

theorem Gets.mem {as : List ℕ} {b : ℕ} (h : Gets M s as b) : b ∈ as := by
  obtain ⟨pre, post, rfl, -⟩ := h
  simp

theorem gets_cons {as : List ℕ} {b : ℕ} :
    Gets M s (a :: as) b ↔ b = a ∨ ¬ Stops M s a ∧ Gets M s as b := by
  constructor
  · rintro ⟨_ | ⟨c, pre⟩, post, heq, hpre⟩
    · exact Or.inl (List.cons.inj heq).1.symm
    · obtain ⟨rfl, rfl⟩ := List.cons.inj heq
      exact Or.inr ⟨hpre a List.mem_cons_self, pre, post, rfl, fun d hd =>
        hpre d (List.mem_cons_of_mem _ hd)⟩
  · rintro (rfl | ⟨ha, pre, post, rfl, hpre⟩)
    · exact ⟨[], as, rfl, by simp⟩
    · exact ⟨a :: pre, post, rfl, List.forall_mem_cons.mpr ⟨ha, hpre⟩⟩

theorem Keeps.gets (h : Keeps s t) {as : List ℕ} (has : ∀ b ∈ as, b < s.queue.next) {b : ℕ} :
    Gets M t as b ↔ Gets M s as b := by
  have hstops : ∀ pre post, as = pre ++ b :: post →
      ((∀ c ∈ pre, ¬ Stops M t c) ↔ ∀ c ∈ pre, ¬ Stops M s c) := by
    rintro pre post rfl
    exact forall₂_congr fun c hc => not_congr (h.stops (has c (List.mem_append_left _ hc)))
  exact exists₂_congr fun pre post => and_congr_right fun heq => hstops pre post heq

/-- The loop acts on what it gets to. -/
theorem checkQueue_acted (B : Base V) (conv : V → W) (M : Manager V) : ∀ (batch : List ℕ)
    (s : State V W), (∀ a ∈ batch, a < s.queue.next) →
    ∃ new, (checkQueue B conv M s batch).1.acted = s.acted ++ new ∧
      ∀ x, x ∈ new ↔ Gets M s batch x.1 ∧ Does M s x.1 x.2 := by
  intro batch
  induction batch with
  | nil =>
    intro s _
    exact ⟨[], by simp [checkQueue], by simp [Gets]⟩
  | cons a as ih =>
    intro s h
    obtain ⟨hkeeps, hends, new, hacted, hnew⟩ := body_ran B conv M s a
    have has : ∀ b ∈ as, b < s.queue.next := fun b hb => h b (List.mem_cons_of_mem _ hb)
    have hself : ∀ x, x ∈ new ↔ x.1 = a ∧ Does M s x.1 x.2 := fun x =>
      (hnew x).trans (and_congr_right fun hx => by rw [hx])
    rw [checkQueue]
    split
    · rename_i t ht
      rw [ht] at hkeeps hends hacted
      have hgo : ¬ Stops M s a := hends.mp rfl
      obtain ⟨rest, hrest, hmem⟩ := ih t fun b hb => (has b hb).trans_le hkeeps.next
      refine ⟨new ++ rest, by rw [hrest, hacted, List.append_assoc], fun x => ?_⟩
      have hdoes : Gets M s as x.1 → (Does M t x.1 x.2 ↔ Does M s x.1 x.2) := fun hg =>
        hkeeps.does (has _ hg.mem)
      rw [List.mem_append, hself, hmem, hkeeps.gets has, gets_cons, and_congr_right hdoes, or_and_right,
        and_iff_right hgo]
    · rename_i t e hne ht
      rw [ht] at hkeeps hends hacted
      have hstop : Stops M s a := by
        by_contra hno
        exact hne (hends.mpr hno)
      refine ⟨new, hacted, fun x => ?_⟩
      simp [hself, gets_cons, hstop]

/-- At a successful answer the body of the loop acts, unless the value cannot be set. -/
theorem Successful.does_iff (h : Successful s a p) : Does M s a p ↔ ¬ CannotSet M s a := by
  obtain ⟨e, hfind, hfirst, hexp⟩ := h
  constructor
  · rintro ⟨e', status, hfind', -, hmatch⟩ ⟨e'', d, m, v, hfind'', hcmd, hfirst', hset⟩
    obtain rfl := Option.some.inj (hfind.symm.trans hfind')
    obtain rfl := Option.some.inj (hfind.symm.trans hfind'')
    obtain rfl : p = .lastValue v := by simpa [hfirst] using hfirst'
    rw [hcmd] at hmatch
    rw [hmatch.2] at hset
    cases hset
  · intro hno
    refine ⟨e, .success, hfind, hfirst, ?_⟩
    cases hcmd : e.cmd with
    | serverDeviceList q =>
      rw [hcmd] at hexp
      cases p with
      | deviceList devices => trivial
      | _ => exact hexp.elim
    | serverLastValue d m =>
      rw [hcmd] at hexp
      cases p with
      | lastValue v =>
        refine ⟨rfl, Option.not_isSome_iff_eq_none.mp fun hset => ?_⟩
        exact hno ⟨e, d, m, v, hfind, hcmd, hfirst, hset⟩
      | _ => exact hexp.elim
    | _ => rw [hcmd] at hexp; exact hexp.elim

/-- To get to an answer is to get to where it first occurs. -/
theorem gets_first {pre post : List ℕ} (ha : a ∉ pre) :
    Gets M s (pre ++ a :: post) a ↔ ∀ b ∈ pre, ¬ Stops M s b := by
  constructor
  · rintro ⟨pre', post', heq, hgo⟩ b hb
    rcases List.append_eq_append_iff.mp heq with ⟨l, rfl, -⟩ | ⟨l, rfl, hl⟩
    · exact hgo b (List.mem_append_left _ hb)
    · cases l with
      | nil => exact hgo b (by simpa using hb)
      | cons c l =>
        obtain rfl := (List.cons.inj hl).1
        exact absurd (List.mem_append_right _ List.mem_cons_self) ha
  · exact fun hgo => ⟨pre, post, rfl, hgo⟩

/-- Every successful answer of a batch is acted on exactly if no answer before it ends the loop and its
    own value can be set. -/
theorem acts_on_all_iff {batch : List ℕ} (h : ∀ a ∈ batch, a < s.queue.next) :
    ActsOnAll B conv M s batch ↔ AllReached M s batch := by
  obtain ⟨new, hacted, hmem⟩ := checkQueue_acted B conv M batch s h
  constructor
  · rintro ⟨new', hacted', hall⟩ pre a post p rfl ha hsucc
    obtain rfl := List.append_cancel_left (hacted.symm.trans hacted')
    obtain ⟨hgets, hdoes⟩ := (hmem (a, p)).mp (hall a (by simp) p hsucc)
    exact ⟨(gets_first ha).mp hgets, hsucc.does_iff.mp hdoes⟩
  · intro hreach
    refine ⟨new, hacted, fun a hab p hsucc => (hmem (a, p)).mpr ?_⟩
    obtain ⟨pre, post, rfl, ha⟩ := List.eq_append_cons_of_mem hab
    obtain ⟨hgo, hset⟩ := hreach pre a post p rfl ha hsucc
    exact ⟨(gets_first ha).mpr hgo, hsucc.does_iff.mpr hset⟩

/-! ### The loop in the steps of the manager

    The Jablotron manager's loop, when no other thread comes in between, is the loop that its step
    system takes answer by answer. -/

/-- The commands that a manager sends. -/
def Asks : Command V → Prop
  | .serverDeviceList _ | .serverLastValue _ _ => True
  | _ => False

theorem asks_step {l : Label} (hs : ∀ e ∈ s.sent, Asks e.cmd) (h : (system B conv).step s l = some t) :
    ∀ e ∈ t.sent, Asks e.cmd := by
  have hnew : ∀ {cmd : Command V} {th id u}, request B s th id cmd = some u → Asks cmd →
      ∀ e ∈ u.sent, Asks e.cmd := by
    intro cmd th id u hu hcmd e he
    obtain ⟨-, -, out, rfl⟩ := request_eq hu
    rcases List.mem_append.mp he with he | he
    · exact hs e he
    · rw [List.mem_singleton.mp he]; exact hcmd
  have hcheck : check conv s l = some t → ∀ e ∈ t.sent, Asks e.cmd := fun hc => by
    rw [(check_frame hc).sent]; exact hs
  cases l with
  | getDeviceList th id q =>
    obtain ⟨u, hu, rfl⟩ := Option.map_eq_some_iff.mp h
    have hall := hnew hu trivial
    exact hall
  | getLastValue th id d m => exact hnew h trivial
  | insert th =>
    obtain ⟨e, -, rfl⟩ := insert_eq h
    exact hs
  | receive m =>
    obtain ⟨-, ⟨-, rfl⟩ | ⟨-, -, heq⟩⟩ := receive_eq h
    · exact hs
    · rw [heq]; exact hs
  | handle => rw [(handle_frame h).sent]; exact hs
  | expire =>
    obtain ⟨w, -, rfl⟩ := Option.map_eq_some_iff.mp h
    exact hs
  | begin | visit | endScan | act | read | leave => exact hcheck h

/-- In every run `m_table` holds requests for device lists and for last values only. -/
theorem table_asks {ls : List Label} (h : (system B conv).run init ls = some s) :
    ∀ e ∈ s.table, Asks e.cmd := by
  have hsent : ∀ e ∈ s.sent, Asks e.cmd :=
    (system B conv).run_inv (P := fun s => ∀ e ∈ s.sent, Asks e.cmd)
      (fun _ _ _ hs hl => asks_step hs hl) (fun e he => by cases he) h
  exact fun e he => hsent e ((run_inv h).stored e he)

/-- Where the manager thread is after the body of the loop, with the answers `as` ahead. -/
def End.pc (as : List ℕ) : End → Check
  | .done => .acting as
  | .left => .idle
  | .raised => .raised

theorem run_act (B : Base V) (conv : V → W) (s : State V W) (a : ℕ) (as : List ℕ) :
    (system B conv).run { s with pc := .acting (a :: as) } [.act] =
      some (act { s with pc := .acting (a :: as) } a as) := rfl

/-- A last value that is a success is read in a step of its own. -/
theorem run_read (B : Base V) {e : Entry V} {d : DeviceID} {m : ModuleID} {v : Option V} {as : List ℕ}
    (hfind : s.table.find? (·.answer = a) = some e) (hcmd : e.cmd = .serverLastValue d m)
    (hfirst : first s.queue a = some ⟨.success, .lastValue v⟩) :
    (system B conv).run { s with pc := .acting (a :: as) } [.act, .read] =
      some (readValue conv { s with pc := .reading d a as } d a as) := by
  have hact : act { s with pc := .acting (a :: as) } a as = { s with pc := .reading d a as } := by
    simp [act, hfind, hcmd, hfirst]
  rw [Lts.run_cons_iff]
  exact ⟨{ s with pc := .reading d a as }, congrArg some hact, rfl⟩

/-- The body of the loop is one step of the manager, or two for a last value. -/
theorem body_run (B : Base V) (conv : V → W) (newID : ℕ → GlobalID)
    (hs : ∀ e ∈ s.table, Asks e.cmd) (a : ℕ) (as : List ℕ) :
    ∃ ls, (system B conv).run { s with pc := .acting (a :: as) } ls =
      some { (body B conv (jablotron newID) s a).1 with
        pc := (body B conv (jablotron newID) s a).2.pc as } := by
  cases hfind : s.table.find? (·.answer = a) with
  | none =>
    refine ⟨[.act], ?_⟩
    rw [run_act]
    simp [act, body, End.pc, hfind]
  | some e =>
    have hasks := hs e (List.mem_of_find?_eq_some hfind)
    cases hcmd : e.cmd with
    | serverDeviceList q =>
      refine ⟨[.act], ?_⟩
      rw [run_act]
      rcases hfirst : first s.queue a with _ | ⟨status, _ | devices | _ | _⟩ <;>
        simp [act, body, End.pc, jablotron, hfind, hcmd, hfirst]
    | serverLastValue d m =>
      rcases hfirst : first s.queue a with _ | ⟨status, _ | _ | v | _⟩
      case some.lastValue =>
        by_cases hok : status = .success
        · subst hok
          refine ⟨[.act, .read], ?_⟩
          rw [run_read B hfind hcmd hfirst]
          simp [readValue, body, End.pc, jablotron, hfind, hcmd, hfirst]
        · refine ⟨[.act], ?_⟩
          rw [run_act]
          simp [act, body, End.pc, hfind, hcmd, hfirst, hok]
      all_goals
        refine ⟨[.act], ?_⟩
        rw [run_act]
        simp [act, body, End.pc, hfind, hcmd, hfirst]
    | _ => rw [hcmd] at hasks; exact hasks.elim

theorem body_table (B : Base V) (conv : V → W) (newID : ℕ → GlobalID) (s : State V W) (a : ℕ) :
    (body B conv (jablotron newID) s a).1.table = s.table := by
  unfold body
  split
  · rfl
  · split
    · rfl
    · rfl
    · split_ifs <;> rfl
    · rfl
    · rfl

/-- So is `checkQueue` a run of the manager's steps. -/
theorem batch_run (B : Base V) (conv : V → W) (newID : ℕ → GlobalID) : ∀ (batch : List ℕ)
    (s : State V W), (∀ e ∈ s.table, Asks e.cmd) →
      ∃ ls, (system B conv).run { s with pc := .acting batch } ls =
        some { (checkQueue B conv (jablotron newID) s batch).1 with
          pc := (checkQueue B conv (jablotron newID) s batch).2.pc [] } := by
  intro batch
  induction batch with
  | nil =>
    intro s _
    exact ⟨[], rfl⟩
  | cons a as ih =>
    intro s hs
    obtain ⟨ls, hls⟩ := body_run B conv newID hs a as
    have htable := body_table B conv newID s a
    rw [checkQueue]
    generalize body B conv (jablotron newID) s a = r at hls htable
    obtain ⟨t, e⟩ := r
    cases e with
    | done =>
      obtain ⟨rest, hrest⟩ := ih t (by rw [htable]; exact hs)
      exact ⟨ls ++ rest, ((system B conv).run_append_iff).mpr ⟨_, hls, hrest⟩⟩
    | left => exact ⟨ls, hls⟩
    | raised => exact ⟨ls, hls⟩

/-- From every state of a run in which the list has just been handed out, the manager can get to where
    `checkQueue` ends. -/
theorem batch_reached (newID : ℕ → GlobalID) {batch : List ℕ} {ls : List Label}
    (h : (system B conv).run init ls = some s) (hpc : s.pc = .acting batch) :
    ∃ rest, (system B conv).run init (ls ++ rest) =
      some { (checkQueue B conv (jablotron newID) s batch).1 with
        pc := (checkQueue B conv (jablotron newID) s batch).2.pc [] } := by
  obtain ⟨rest, hrest⟩ := batch_run B conv newID batch s (table_asks h)
  have hs : { s with pc := .acting batch } = s := by rw [← hpc]
  rw [hs] at hrest
  exact ⟨rest, ((system B conv).run_append_iff).mpr ⟨s, h, hrest⟩⟩

/-- The Jablotron manager can set every value. -/
theorem jablotron_sets (newID : ℕ → GlobalID) (s : State V W) (a : ℕ) :
    ¬ CannotSet (jablotron newID) s a := by
  rintro ⟨e, d, m, v, -, -, -, hset⟩
  cases hset

/-- Two answers with a result: a failed last value, and a device list. -/
def twoAnswers : State Reading Reading :=
  { init with
    queue := ⟨fun
      | 0 => ⟨false, [⟨.failed, .lastValue (some .warm)⟩], [], 0⟩
      | 1 => ⟨false, [⟨.success, .deviceList [⟨⟨0xa8⟩, 1⟩]⟩], [], 0⟩
      | _ => .fresh, 2, [0, 1], false⟩
    table := [⟨0, ⟨7⟩, .serverLastValue ⟨⟨0xa8⟩, 1⟩ ⟨0⟩⟩, ⟨1, ⟨8⟩, .serverDeviceList ⟨⟨0xa8⟩⟩⟩] }

/-- The list comes first and is acted on. -/
theorem list_first_acts :
    ActsOnAll Sample.base (fun v => v) (jablotron GlobalID.mk) twoAnswers [1, 0] := by
  refine (acts_on_all_iff (by decide)).mpr ?_
  rintro pre a post p heq - hsucc
  refine ⟨fun b hb => ?_, jablotron_sets _ _ _⟩
  rcases pre with _ | ⟨c, _ | ⟨d, pre⟩⟩
  · cases hb
  · obtain rfl := (List.cons.inj heq).1
    rw [List.mem_singleton.mp hb]
    exact Bool.noConfusion
  · have hlen := congrArg List.length heq
    simp at hlen

/-- The failed last value comes first: the manager returns, and the list is lost. -/
theorem list_lost : ¬ ∀ (s : State Reading Reading) (batch : List ℕ), (∀ a ∈ batch, a < s.queue.next) →
    ActsOnAll Sample.base (fun v => v) (jablotron GlobalID.mk) s batch := by
  intro h
  obtain ⟨new, hnew, hall⟩ := h twoAnswers [0, 1] (by decide)
  have hnil : new = [] := hnew.symm
  have hin := hall 1 (by simp) (.deviceList [⟨⟨0xa8⟩, 1⟩]) ⟨_, rfl, rfl, trivial⟩
  rw [hnil] at hin
  cases hin

end DeviceManager
end BeeeOn
