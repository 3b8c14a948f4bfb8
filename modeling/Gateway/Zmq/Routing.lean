import Gateway.Schemes.Latest
import Gateway.Zmq.UnknownIds

/-! @src zmq/ZMQBroker.cpp, zmq/ZMQMessage.cpp | name:Commands out, results back | family:correlation

    The loop of `handle` seen closer: the message is made and its id filed in one step, and its two frames
    are sent in a later one, with anything in between but not between the two (`Wire` takes them apart
    and says when the manager gets just this). A command goes to the managers that its kind and
    its device say; the id of a message is in `m_cmdTable`, with a result of the command's answer that is
    no other id's, by the time it is sent; and what the managers report under an id arrives at its result
    and nowhere else (`routing_correlation`). -/

namespace BeeeOn
open Schemes
variable {V : Type}

namespace Routing

/-- A message of the loop of `handle`: the task and the manager it is for, its id with the entry that is
    filed under it. -/
structure Outgoing (V : Type) where
  task : ℕ
  manager : DeviceManagerID
  id : GlobalID
  entry : ResultData2 V
  message : ZMQMessage

/-- The broker, with the message that each task has made and not yet sent, and all that were sent. -/
structure State (V : Type) where
  broker : Broker.State V
  ready : ℕ → Option (Outgoing V)
  sent : List (Outgoing V)

def start (table : ZMQDeviceManagerTable) : State V := ⟨Broker.start table, fun _ => none, []⟩

inductive Label (V : Type) where
  /-- a step of the broker other than a turn of a loop -/
  | thread (l : Broker.Label V)
  | file (k : ℕ) (id : GlobalID)
  | send (k : ℕ)

variable (P : Broker.Platform V)

/-- The first half of a turn of the loop of task `k`: `fromCommand` with a fresh id, the new result and
    `m_cmdTable.insert`. -/
def file (s : State V) (k : ℕ) (id : GlobalID) : Option (State V) :=
  match s.ready k, s.broker.loops[k]?, s.broker.cmdTable id with
  | none, some (cmd, a, manager :: managers), none =>
    match ZMQMessage.fromCommand P.base id cmd with
    | .ok msg =>
      let entry : ResultData2 V := ⟨a, cmd, (s.broker.answers.heap a).results.length⟩
      some
        { s with
          broker := { s.broker with
            answers := s.broker.answers.addResult a .plain
            cmdTable := insertNew s.broker.cmdTable id entry
            loops := s.broker.loops.set k (cmd, a, managers) }
          ready := Function.update s.ready k (some ⟨k, manager, id, entry, msg⟩) }
    | .error _ => none
  | _, _, _ => none

/-- The second half: `sendMultipart` of the manager's id and `send` of the message. -/
def send (s : State V) (k : ℕ) : Option (State V) :=
  (s.ready k).map fun x =>
    { broker := s.broker.emit .data [x.manager.toString, P.text x.message]
      ready := Function.update s.ready k none
      sent := s.sent ++ [x] }

/-- The broker with the two halves of a turn as steps of their own. -/
def system : Lts (State V) (Label V) where
  step s
    | .thread (.next _ _) => none
    | .thread l => ((Broker.system P).step s.broker l).map fun b => { s with broker := b }
    | .file k id => if s.broker.undefined then none else file P s k id
    | .send k => if s.broker.undefined then none else send P s k

/-! ### What is to hold -/

/-- The managers a command is for: those with the prefix of its device, or all of them. -/
def Addressed : Command V → DeviceManagerID → Bool
  | .deviceSetValue deviceID _ _ _, manager => manager.devicePrefix = deviceID.devicePrefix
  | .deviceUnpair deviceID, manager => manager.devicePrefix = deviceID.devicePrefix
  | .gatewayListen _, _ => true
  | _, _ => false

/-- The managers that task `k` has sent a message to, in this order. -/
def State.sentBy (s : State V) (k : ℕ) : List DeviceManagerID :=
  (s.sent.filter (·.task = k)).map Outgoing.manager

/-- The manager that its next message is for, if that is made. -/
def State.waiting (s : State V) (k : ℕ) : List DeviceManagerID :=
  (s.ready k).toList.map Outgoing.manager

/-- What a string on the data socket reports to the broker: a `default_result` of a manager whose
    identity it reads, with an id and a status. -/
def reported (identity json : String) : Option (GlobalID × Status) :=
  match ZMQBroker.parsed P.base json with
  | .error _ => none
  | .ok m =>
    match DeviceManagerID.parse P.base identity, m.type P.base, m.id P.base,
        m.getResultState P.base with
    | .ok _, .ok .defaultResult, .ok id, .ok st => some (id, st)
    | _, _, _, _ => none

def report : Label V → Option (GlobalID × Status)
  | .thread (.data identity json) => reported P identity json
  | _ => none

/-- The statuses reported in a run, each with its id. -/
def reports (ls : List (Label V)) : List (GlobalID × Status) := ls.filterMap (report P)

/-- No status is below the one reported last under the same id, or below `PENDING`. -/
def Ascending (pre : List (Label V)) (l : Label V) : Prop :=
  ∀ id st, report P l = some (id, st) → (latest id .pending (reports P pre)).raw ≤ st.raw

/-! ### One step -/

section
variable {P} {s t : State V}

/-- The first half of a turn, with what it finds and what it leaves. -/
theorem file_eq {k : ℕ} {id : GlobalID} (h : file P s k id = some t) :
    ∃ cmd a manager managers msg, s.ready k = none ∧
      s.broker.loops[k]? = some (cmd, a, manager :: managers) ∧ s.broker.cmdTable id = none ∧
      ZMQMessage.fromCommand P.base id cmd = .ok msg ∧ t =
        { s with
          broker := { s.broker with
            answers := s.broker.answers.addResult a .plain
            cmdTable := Function.update s.broker.cmdTable id
              (some ⟨a, cmd, (s.broker.results a).length⟩)
            loops := s.broker.loops.set k (cmd, a, managers) }
          ready := Function.update s.ready k
            (some ⟨k, manager, id, ⟨a, cmd, (s.broker.results a).length⟩, msg⟩) } := by
  unfold file at h
  split at h
  · rename_i cmd a manager managers hready hk hid
    split at h <;> cases h
    rename_i msg hmsg
    rw [ZMQBroker.insertNew_of_none _ hid]
    exact ⟨cmd, a, manager, managers, msg, hready, hk, hid, hmsg, rfl⟩
  · cases h

theorem send_eq {k : ℕ} (h : send P s k = some t) : ∃ x, s.ready k = some x ∧ t =
    { broker := s.broker.emit .data [x.manager.toString, P.text x.message]
      ready := Function.update s.ready k none
      sent := s.sent ++ [x] } := by
  obtain ⟨x, hx, rfl⟩ := Option.map_eq_some_iff.mp h
  exact ⟨x, hx, rfl⟩

/-- The two halves, one after the other, are the turn of the loop as one step. -/
theorem file_send {k : ℕ} {id : GlobalID} (h : file P s k id = some t) :
    ∃ u, send P t k = some u ∧ Broker.next P s.broker k id = some u.broker := by
  obtain ⟨cmd, a, manager, managers, msg, -, hk, hid, hmsg, rfl⟩ := file_eq h
  refine ⟨_, by simp only [send, Function.update_self, Option.map_some]; rfl, ?_⟩
  simp only [Broker.next, hk, hid, hmsg, ZMQBroker.insertNew_of_none _ hid]
  rfl

/-- What each step is, with its guard. -/
theorem step_cases {l : Label V} (h : (system P).step s l = some t) :
    (∃ bl b, l = .thread bl ∧ (∀ k id, bl ≠ .next k id) ∧
      (Broker.system P).step s.broker bl = some b ∧ t = { s with broker := b }) ∨
    (∃ k id, l = .file k id ∧ s.broker.undefined = false ∧ file P s k id = some t) ∨
    ∃ k, l = .send k ∧ send P s k = some t := by
  cases l with
  | thread bl =>
    cases bl with
    | next k id => cases h
    | _ =>
      obtain ⟨b, hb, rfl⟩ := Option.map_eq_some_iff.mp h
      exact Or.inl ⟨_, b, rfl, nofun, hb, rfl⟩
  | file k id =>
    simp only [system, Option.ite_none_left_eq_some, Bool.not_eq_true] at h
    exact Or.inr (Or.inl ⟨k, id, rfl, h.1, h.2⟩)
  | send k =>
    simp only [system, Option.ite_none_left_eq_some] at h
    exact Or.inr (Or.inr ⟨k, rfl, h.2⟩)

/-- The invariant of the broker does not look at the frames. -/
theorem inv_step (hI : Broker.Inv s.broker) {l : Label V} (h : (system P).step s l = some t) :
    Broker.Inv t.broker := by
  rcases step_cases h with ⟨bl, b, -, -, hb, rfl⟩ | ⟨k, id, -, hu, hfile⟩ | ⟨k, -, hsend⟩
  · exact Broker.inv_step hI hb
  · obtain ⟨u, hsend, hnext⟩ := file_send hfile
    obtain ⟨x, -, rfl⟩ := send_eq hsend
    have hstep : (Broker.system P).step s.broker (.next k id) =
        some (t.broker.emit .data [x.manager.toString, P.text x.message]) := by
      simpa [Broker.system, hu] using hnext
    have hIt := Broker.inv_step hI hstep
    exact ⟨hIt.plain, hIt.unborn, hIt.loops⟩
  · obtain ⟨x, -, rfl⟩ := send_eq hsend
    exact ⟨hI.plain, hI.unborn, hI.loops⟩

/-! ### Where the messages go -/

theorem recipients_eq (table : ZMQDeviceManagerTable) (cmd : Command V) :
    ZMQBroker.recipients table cmd = table.filter (Addressed cmd) := by
  cases cmd with
  | gatewayListen duration => exact (List.filter_true table).symm
  | deviceSetValue | deviceUnpair => rfl
  | serverDeviceList | serverLastValue | other => exact (List.filter_false table).symm

/-! ### What the other threads do -/

theorem reported_none_or (identity json : String) : reported P identity json = none ∨
    ∃ id st, reported P identity json = some (id, st) ∧ Broker.Readable P identity ∧
      Broker.IsDefaultResult P json id := by
  unfold reported
  split
  · exact Or.inl rfl
  · rename_i m hm
    split
    · rename_i manager id st hmanager ht hid _
      exact Or.inr ⟨id, st, rfl, ⟨manager, hmanager⟩, m, hm, ht, hid⟩
    · exact Or.inl rfl

/-- What a report is about is what is filed under its id. -/
theorem reply_eq (b : Broker.State V) (identity json : String) : Broker.reply P b identity json =
    (reported P identity json).bind fun x =>
      (b.cmdTable x.1).map fun e => (e.answer, e.result, x.2) := by
  unfold Broker.reply reported
  cases ZMQBroker.parsed P.base json with
  | error e => rfl
  | ok m =>
    dsimp only
    cases DeviceManagerID.parse P.base identity with
    | error e => rfl
    | ok manager =>
      cases m.type P.base with
      | error e => rfl
      | ok t => cases t <;> cases m.id P.base <;> cases m.getResultState P.base <;> rfl

/-- The other threads file nothing, and keep the tasks. -/
theorem thread_frame {b c : Broker.State V} (hI : Broker.Inv b) {l : Broker.Label V}
    (hl : ∀ k id, l ≠ .next k id) (h : (Broker.system P).step b l = some c) :
    c.cmdTable = b.cmdTable ∧ ∀ (k : ℕ) x, b.loops[k]? = some x → c.loops[k]? = some x := by
  have htable : c.cmdTable = b.cmdTable := by
    rcases Broker.step_cmdTable hI h with ⟨k, id, -, rfl, -⟩ | ⟨-, heq⟩
    · exact absurd rfl (hl k id)
    · exact heq
  refine ⟨htable, fun k x hx => ?_⟩
  obtain ⟨-, hcase⟩ := Broker.step_cases h
  cases l with
  | hello json =>
    obtain ⟨-, rfl⟩ := hcase
    obtain ⟨_, _, _, heq⟩ := Broker.hello_eq (P := P) (s := b) json
    rw [heq]
    exact hx
  | data identity json =>
    obtain ⟨-, rfl⟩ := hcase
    rw [Broker.data_loops]
    exact hx
  | begin cmd now =>
    obtain ⟨-, rfl⟩ := hcase
    rw [Broker.begin_loops, List.getElem?_append_left (List.getElem?_eq_some_iff.mp hx).1]
    exact hx
  | next k id => exact absurd rfl (hl k id)
  | tick now =>
    obtain ⟨-, rfl⟩ := hcase
    rw [Broker.tick_eq hI]
    exact hx

/-- A message on the data socket sets the result that it reports on; under an id that is not filed it
    changes no result, and what the broker reads is undefined. -/
theorem data_results (b : Broker.State V) (identity json : String) :
    let c := Broker.ended (Broker.dataServerReceive P b identity json)
    (reported P identity json = none ∧ c.results = b.results) ∨
    ∃ id st, reported P identity json = some (id, st) ∧
      ((b.cmdTable id = none ∧ c.undefined = true ∧ c.results = b.results) ∨
        ∃ e, b.cmdTable id = some e ∧ c.answers = b.answers.afterSetStatus e.answer e.result st) := by
  have ha := Broker.data_answers (P := P) b identity json
  rw [reply_eq] at ha
  have hsame : (Broker.ended (Broker.dataServerReceive P b identity json)).answers = b.answers →
      (Broker.ended (Broker.dataServerReceive P b identity json)).results = b.results := by
    intro h
    funext a
    rw [Broker.State.results, h]
    rfl
  rcases reported_none_or (P := P) identity json with hnone | ⟨id, st, hsome, hread, hresult⟩
  · rw [hnone] at ha
    exact Or.inl ⟨hnone, hsame ha⟩
  · rw [hsome] at ha
    refine Or.inr ⟨id, st, hsome, ?_⟩
    cases he : b.cmdTable id with
    | none =>
      simp only [Option.bind_some, he, Option.map_none] at ha
      exact Or.inl ⟨rfl, Broker.undefined_of_unknown hread hresult he, hsame ha⟩
    | some e =>
      simp only [Option.bind_some, he, Option.map_some] at ha
      exact Or.inr ⟨e, rfl, ha⟩

/-- They change results by reports alone: under a filed id, a call of `setStatus` on its result. -/
theorem thread_results {b c : Broker.State V} (hI : Broker.Inv b) {l : Broker.Label V}
    (hl : ∀ k id, l ≠ .next k id) (h : (Broker.system P).step b l = some c) :
    (report P (.thread l) = none ∧ c.results = b.results) ∨
    ∃ id st, report P (.thread l) = some (id, st) ∧
      ((b.cmdTable id = none ∧ c.undefined = true ∧ c.results = b.results) ∨
        ∃ e, b.cmdTable id = some e ∧ c.answers = b.answers.afterSetStatus e.answer e.result st) := by
  obtain ⟨-, hcase⟩ := Broker.step_cases h
  cases l with
  | hello json =>
    obtain ⟨-, rfl⟩ := hcase
    obtain ⟨_, _, _, heq⟩ := Broker.hello_eq (P := P) (s := b) json
    exact Or.inl ⟨rfl, by rw [heq]; rfl⟩
  | data identity json =>
    obtain ⟨-, rfl⟩ := hcase
    exact data_results b identity json
  | begin cmd now =>
    obtain ⟨-, rfl⟩ := hcase
    refine Or.inl ⟨rfl, ?_⟩
    funext a
    rw [Broker.State.results, Broker.begin_answers, Broker.handed_results hI]
  | next k id => exact absurd rfl (hl k id)
  | tick now =>
    obtain ⟨-, rfl⟩ := hcase
    exact Or.inl ⟨rfl, by rw [Broker.tick_eq hI]; rfl⟩

theorem thread_length {b c : Broker.State V} (hI : Broker.Inv b) {l : Broker.Label V}
    (hl : ∀ k id, l ≠ .next k id) (h : (Broker.system P).step b l = some c) (a : ℕ) :
    (c.results a).length = (b.results a).length := by
  rcases thread_results hI hl h with ⟨-, heq⟩ | ⟨id, st, -, ⟨-, -, heq⟩ | ⟨e, -, heq⟩⟩
  · rw [heq]
  · rw [heq]
  · rw [Broker.State.results, heq]
    exact (b.answers.afterSetStatus_results e.answer e.result a st).2.1

/-! ### What is filed -/

/-- The message has been made, and perhaps sent. -/
def State.Made (s : State V) (x : Outgoing V) : Prop := x ∈ s.sent ∨ s.ready x.task = some x

/-- The ids lead to results and back, each to its own; a message is the one of its command, under an id
    that is filed. -/
structure Filed (P : Broker.Platform V) (s : State V) : Prop where
  inv : Broker.Inv s.broker
  task : ∀ k x, s.ready k = some x → x.task = k
  made : ∀ x, s.Made x → s.broker.cmdTable x.id = some x.entry ∧
    ZMQMessage.fromCommand P.base x.id x.entry.cmd = .ok x.message ∧
      ∃ rest, s.broker.loops[x.task]? = some (x.entry.cmd, x.entry.answer, rest)
  bound : ∀ id e, s.broker.cmdTable id = some e → e.result < (s.broker.results e.answer).length
  own : ∀ id id' e e', s.broker.cmdTable id = some e → s.broker.cmdTable id' = some e' →
    e.answer = e'.answer → e.result = e'.result → id = id'
  covered : ∀ a i, i < (s.broker.results a).length →
    ∃ id e, s.broker.cmdTable id = some e ∧ e.answer = a ∧ e.result = i

theorem filed_start (table : ZMQDeviceManagerTable) : Filed P (start table) where
  inv := Broker.inv_start table
  task _ _ h := by cases h
  made _ h := by rcases h with h | h <;> cases h
  bound _ _ h := by cases h
  own _ _ _ _ h := by cases h
  covered _ _ h := absurd h (Nat.not_lt_zero _)

theorem filed_thread (hF : Filed P s) {l : Broker.Label V} {b : Broker.State V}
    (hl : ∀ k id, l ≠ .next k id) (h : (Broker.system P).step s.broker l = some b) :
    Filed P { s with broker := b } := by
  obtain ⟨htable, hloops⟩ := thread_frame hF.inv hl h
  have hlen := thread_length hF.inv hl h
  refine ⟨Broker.inv_step hF.inv h, hF.task, fun x hx => ?_, fun id e he => ?_, ?_, fun a i hi => ?_⟩
  · obtain ⟨hid, hmsg, rest, hrest⟩ := hF.made x hx
    exact ⟨by rw [htable]; exact hid, hmsg, rest, hloops _ _ hrest⟩
  · rw [htable] at he
    rw [hlen]
    exact hF.bound id e he
  · rw [htable]
    exact hF.own
  · rw [hlen] at hi
    rw [htable]
    exact hF.covered a i hi

theorem results_addResult (b : Broker.State V) (a : ℕ) (c : ℕ) :
    ((b.answers.addResult a .plain).heap c).results =
      if c = a then b.results a ++ [.new .plain] else b.results c := by
  rw [AnswerQueue.addResult_heap]
  split_ifs <;> rfl

theorem length_addResult (b : Broker.State V) (a : ℕ) (c : ℕ) :
    ((b.answers.addResult a .plain).heap c).results.length =
      (b.results c).length + if c = a then 1 else 0 := by
  rw [results_addResult]
  split_ifs with h
  · rw [h, List.length_append, List.length_singleton]
  · rfl

theorem ne_of_filed {b : Broker.State V} {id id' : GlobalID} {e : ResultData2 V}
    (hid : b.cmdTable id = none) (he : b.cmdTable id' = some e) : id' ≠ id := by
  rintro rfl
  rw [hid] at he
  cases he

/-- The message made last is for the task that makes it; the others are as before. -/
theorem made_file (hF : Filed P s) {k : ℕ} {id : GlobalID} (h : file P s k id = some t)
    {x : Outgoing V} (hx : t.Made x) : t.broker.cmdTable x.id = some x.entry ∧
      ZMQMessage.fromCommand P.base x.id x.entry.cmd = .ok x.message ∧
        ∃ rest, t.broker.loops[x.task]? = some (x.entry.cmd, x.entry.answer, rest) := by
  obtain ⟨cmd, a, manager, managers, msg, hready, hk, hid, hmsg, rfl⟩ := file_eq h
  have hklt : k < s.broker.loops.length := (List.getElem?_eq_some_iff.mp hk).1
  dsimp only [State.Made] at hx ⊢
  rw [Function.update_apply] at hx
  split_ifs at hx with hxk
  · rcases hx with hx | hx
    · obtain ⟨hxid, hxmsg, rest, hrest⟩ := hF.made x (Or.inl hx)
      rw [hxk, hk] at hrest
      cases hrest
      exact ⟨by rw [Function.update_of_ne (ne_of_filed hid hxid)]; exact hxid, hxmsg, managers,
        by rw [hxk]; exact List.getElem?_set_self hklt⟩
    · cases hx
      exact ⟨Function.update_self .., hmsg, managers, List.getElem?_set_self hklt⟩
  · obtain ⟨hxid, hxmsg, rest, hrest⟩ := hF.made x hx
    exact ⟨by rw [Function.update_of_ne (ne_of_filed hid hxid)]; exact hxid, hxmsg, rest,
      by rw [List.getElem?_set_ne (Ne.symm hxk)]; exact hrest⟩

/-- The new result lies behind all those that are filed. -/
theorem own_file (hF : Filed P s) {k : ℕ} {id : GlobalID} (h : file P s k id = some t)
    {id₁ id₂ : GlobalID} {e₁ e₂ : ResultData2 V} (h₁ : t.broker.cmdTable id₁ = some e₁)
    (h₂ : t.broker.cmdTable id₂ = some e₂) (ha : e₁.answer = e₂.answer) (hr : e₁.result = e₂.result) :
    id₁ = id₂ := by
  obtain ⟨cmd, a, manager, managers, msg, -, -, hid, -, rfl⟩ := file_eq h
  dsimp only at h₁ h₂
  rw [Function.update_apply] at h₁ h₂
  split_ifs at h₁ h₂ with hid₁ hid₂ hid₂
  · rw [hid₁, hid₂]
  · cases h₁
    have := hF.bound id₂ e₂ h₂
    rw [← ha, ← hr] at this
    exact absurd this (lt_irrefl _)
  · cases h₂
    have := hF.bound id₁ e₁ h₁
    rw [ha, hr] at this
    exact absurd this (lt_irrefl _)
  · exact hF.own id₁ id₂ e₁ e₂ h₁ h₂ ha hr

theorem covered_file (hF : Filed P s) {k : ℕ} {id : GlobalID} (h : file P s k id = some t) {b i : ℕ}
    (hi : i < (t.broker.results b).length) :
    ∃ id' e, t.broker.cmdTable id' = some e ∧ e.answer = b ∧ e.result = i := by
  obtain ⟨cmd, a, manager, managers, msg, -, -, hid, -, rfl⟩ := file_eq h
  dsimp only [Broker.State.results] at hi ⊢
  rw [length_addResult] at hi
  by_cases hlast : b = a ∧ i = (s.broker.results a).length
  · obtain ⟨rfl, rfl⟩ := hlast
    exact ⟨id, _, Function.update_self .., rfl, rfl⟩
  · have hold : i < (s.broker.results b).length := by
      split_ifs at hi with hb
      · subst hb
        have hi' : i ≠ (s.broker.results b).length := fun hi' => hlast ⟨rfl, hi'⟩
        omega
      · omega
    obtain ⟨id', e, he, ha, hr⟩ := hF.covered b i hold
    exact ⟨id', e, by rw [Function.update_of_ne (ne_of_filed hid he)]; exact he, ha, hr⟩

theorem filed_file (hF : Filed P s) {k : ℕ} {id : GlobalID} (h : file P s k id = some t)
    (hI : Broker.Inv t.broker) : Filed P t := by
  refine ⟨hI, fun k' x hx => ?_, fun _ hx => made_file hF h hx, fun id' e he => ?_,
    fun _ _ _ _ h₁ h₂ ha hr => own_file hF h h₁ h₂ ha hr, fun _ _ hi => covered_file hF h hi⟩
  · obtain ⟨cmd, a, manager, managers, msg, -, -, -, -, rfl⟩ := file_eq h
    dsimp only at hx
    rw [Function.update_apply] at hx
    split_ifs at hx with hk'
    · cases hx
      exact hk'.symm
    · exact hF.task k' x hx
  · obtain ⟨cmd, a, manager, managers, msg, -, -, -, -, rfl⟩ := file_eq h
    dsimp only [Broker.State.results] at he ⊢
    rw [length_addResult]
    rw [Function.update_apply] at he
    split_ifs at he with hid'
    · cases he
      rw [if_pos rfl]
      exact Nat.lt_succ_self _
    · have := hF.bound id' e he
      omega

theorem filed_send (hF : Filed P s) {k : ℕ} (h : send P s k = some t) : Filed P t := by
  obtain ⟨x, hx, rfl⟩ := send_eq h
  refine ⟨⟨hF.inv.plain, hF.inv.unborn, hF.inv.loops⟩, fun k' y hy => ?_, fun y hy => ?_, hF.bound,
    hF.own, hF.covered⟩
  · dsimp only at hy
    rw [Function.update_apply] at hy
    split_ifs at hy with hk'
    exact hF.task k' y hy
  · refine hF.made y ?_
    dsimp only [State.Made] at hy ⊢
    rcases hy with hy | hy
    · rcases List.mem_append.mp hy with hy | hy
      · exact Or.inl hy
      · rw [List.mem_singleton.mp hy, hF.task k x hx]
        exact Or.inr hx
    · rw [Function.update_apply] at hy
      split_ifs at hy
      exact Or.inr hy

theorem filed_step (hF : Filed P s) {l : Label V} (h : (system P).step s l = some t) : Filed P t := by
  have hI := inv_step hF.inv h
  rcases step_cases h with ⟨bl, b, -, hl, hb, rfl⟩ | ⟨k, id, -, -, hfile⟩ | ⟨k, -, hsend⟩
  · exact filed_thread hF hl hb
  · exact filed_file hF hfile hI
  · exact filed_send hF hsend

theorem run_filed {table : ZMQDeviceManagerTable} {ls : List (Label V)}
    (h : (system P).run (start table) ls = some s) : Filed P s :=
  (system P).run_inv (fun _ _ _ hF hl => filed_step hF hl) (filed_start table) h

/-! ### What comes back -/

/-- The results stand where the reports under their ids have put them; before anything undefined has
    happened, there are reports under filed ids only. -/
structure Reported (P : Broker.Platform V) (ls : List (Label V)) (s : State V) : Prop where
  early : s.broker.undefined = false →
    ∀ id, s.broker.cmdTable id = none → id ∉ (reports P ls).map Prod.fst
  status : ∀ id e r, s.broker.cmdTable id = some e →
    (s.broker.results e.answer)[e.result]? = some r → r.status = latest id .pending (reports P ls)

theorem reports_of_none (ls : List (Label V)) {l : Label V} (hl : report P l = none) :
    reports P (ls ++ [l]) = reports P ls := by
  rw [reports, List.filterMap_append, List.filterMap_cons_none hl, List.filterMap_nil, List.append_nil]
  rfl

theorem reports_of_some (ls : List (Label V)) {l : Label V} {x : GlobalID × Status}
    (hl : report P l = some x) : reports P (ls ++ [l]) = reports P ls ++ [x] := by
  rw [reports, List.filterMap_append, List.filterMap_cons_some hl, List.filterMap_nil]
  rfl

theorem reported_start (table : ZMQDeviceManagerTable) : Reported P [] (start table) where
  early _ _ _ := List.not_mem_nil
  status _ _ _ h := by cases h

/-- Where the report for result `e.result` of `e.answer` goes: it is not below what that result has. -/
theorem results_report {ls : List (Label V)} {b : Broker.State V} {l : Label V} {id : GlobalID}
    {st : Status} {e : ResultData2 V} (hF : Filed P s) (hR : Reported P ls s) (hA : Ascending P ls l)
    (hl : report P l = some (id, st)) (he : s.broker.cmdTable id = some e)
    (hb : b.answers = s.broker.answers.afterSetStatus e.answer e.result st) :
    ∃ r, r.status = st ∧ ∀ a, b.results a =
      if a = e.answer then (s.broker.results e.answer).set e.result r else s.broker.results a := by
  have hlt := hF.bound id e he
  have hr : (s.broker.results e.answer)[e.result]? = some (s.broker.results e.answer)[e.result] :=
    List.getElem?_eq_getElem hlt
  have hle := hA id st hl
  rw [← hR.status id e _ he hr] at hle
  refine ⟨{ (s.broker.results e.answer)[e.result] with status := st }, rfl, fun a => ?_⟩
  rw [Broker.State.results, hb]
  exact s.broker.answers.afterSetStatus_of_le hr hle a

/-- The results under other ids are not touched. -/
theorem reported_set {ls : List (Label V)} {b : Broker.State V} {l : Label V} {id : GlobalID}
    {st : Status} {e : ResultData2 V} (hF : Filed P s) (hR : Reported P ls s)
    (hu : s.broker.undefined = false) (hA : Ascending P ls l) (hl : report P l = some (id, st))
    (htable : b.cmdTable = s.broker.cmdTable) (he : s.broker.cmdTable id = some e)
    (hb : b.answers = s.broker.answers.afterSetStatus e.answer e.result st) :
    Reported P (ls ++ [l]) { s with broker := b } := by
  obtain ⟨r, hst, hres⟩ := results_report hF hR hA hl he hb
  refine ⟨fun _ id' hid' => ?_, fun id' e' r' he' hr' => ?_⟩
  · dsimp only at hid'
    rw [htable] at hid'
    rw [reports_of_some ls hl, List.map_append, List.mem_append]
    rintro (hmem | hmem)
    · exact hR.early hu id' hid' hmem
    · rw [List.map_singleton, List.mem_singleton] at hmem
      rw [hmem, he] at hid'
      cases hid'
  · dsimp only at he' hr'
    rw [htable] at he'
    rw [hres] at hr'
    rw [reports_of_some ls hl]
    by_cases hid : id = id'
    · subst hid
      obtain rfl := Option.some.inj (he.symm.trans he')
      rw [if_pos rfl, List.getElem?_set_self (hF.bound id e he)] at hr'
      rw [latest_concat_self, ← Option.some.inj hr', hst]
    · rw [latest_concat_ne hid]
      refine hR.status id' e' r' he' ?_
      split_ifs at hr' with ha
      · have hne : e.result ≠ e'.result := fun hres' => hid (hF.own id id' e e' he he' ha.symm hres')
        rw [List.getElem?_set_ne hne] at hr'
        rw [ha]
        exact hr'
      · exact hr'

theorem reported_thread {ls : List (Label V)} (hF : Filed P s) (hR : Reported P ls s)
    {l : Broker.Label V} {b : Broker.State V} (hA : Ascending P ls (.thread l))
    (hl : ∀ k id, l ≠ .next k id) (h : (Broker.system P).step s.broker l = some b) :
    Reported P (ls ++ [.thread l]) { s with broker := b } := by
  have hu := (Broker.step_cases h).1
  have htable := (thread_frame hF.inv hl h).1
  rcases thread_results hF.inv hl h with
    ⟨hnone, heq⟩ | ⟨id, st, hsome, ⟨hid, hundef, heq⟩ | ⟨e, he, hb⟩⟩
  · refine ⟨fun _ id hid => ?_, fun id e r he hr => ?_⟩
    · rw [reports_of_none ls hnone]
      exact hR.early hu id (htable ▸ hid)
    · rw [reports_of_none ls hnone]
      exact hR.status id e r (htable ▸ he) (heq ▸ hr)
  · -- the broker has read behind its table, and does nothing any more
    refine ⟨fun hdef => ?_, fun id' e r he hr => ?_⟩
    · rw [hundef] at hdef
      cases hdef
    · have he' : s.broker.cmdTable id' = some e := htable ▸ he
      have hne : id ≠ id' := by
        rintro rfl
        rw [hid] at he'
        cases he'
      rw [reports_of_some ls hsome, latest_concat_ne hne]
      exact hR.status id' e r he' (heq ▸ hr)
  · exact reported_set hF hR hu hA hsome htable he hb

/-- A new result is `PENDING`, and nothing has been reported under its id. -/
theorem reported_file {ls : List (Label V)} (hF : Filed P s) (hR : Reported P ls s) {k : ℕ}
    {id : GlobalID} (hu : s.broker.undefined = false) (h : file P s k id = some t) :
    Reported P (ls ++ [.file k id]) t := by
  obtain ⟨cmd, a, manager, managers, msg, -, -, hid, -, rfl⟩ := file_eq h
  have hnone : report P (.file k id) = none := rfl
  refine ⟨fun _ id' hid' => ?_, fun id' e r he hr => ?_⟩
  · rw [reports_of_none ls hnone]
    refine hR.early hu id' ?_
    dsimp only at hid'
    rw [Function.update_apply] at hid'
    split_ifs at hid'
    exact hid'
  · rw [reports_of_none ls hnone]
    dsimp only [Broker.State.results] at he hr
    rw [Function.update_apply] at he
    rw [results_addResult] at hr
    split_ifs at he with hid'
    · cases he
      rw [if_pos rfl] at hr
      have hnew : (.new .plain : Result V) = r :=
        Option.some.inj (List.getElem?_concat_length.symm.trans hr)
      rw [hid', latest_of_not_mem (hR.early hu id hid), ← hnew]
      rfl
    · refine hR.status id' e r he ?_
      have hlt := hF.bound id' e he
      split_ifs at hr with ha
      · rw [ha] at hlt ⊢
        rw [List.getElem?_append_left hlt] at hr
        exact hr
      · exact hr

theorem reported_step {ls : List (Label V)} (hF : Filed P s) (hR : Reported P ls s) {l : Label V}
    (hA : Ascending P ls l) (h : (system P).step s l = some t) : Reported P (ls ++ [l]) t := by
  rcases step_cases h with ⟨bl, b, rfl, hl, hb, rfl⟩ | ⟨k, id, rfl, hu, hfile⟩ | ⟨k, rfl, hsend⟩
  · exact reported_thread hF hR hA hl hb
  · exact reported_file hF hR hu hfile
  · obtain ⟨x, -, rfl⟩ := send_eq hsend
    have hnone : report P (Label.send k : Label V) = none := rfl
    exact ⟨by rw [reports_of_none ls hnone]; exact hR.early,
      by rw [reports_of_none ls hnone]; exact hR.status⟩

theorem run_reported {table : ZMQDeviceManagerTable} {ls : List (Label V)}
    (h : (system P).run (start table) ls = some s) (hA : Throughout (Ascending P) ls) :
    Reported P ls s := by
  refine (system P).run_hist (P := fun ls s => Throughout (Ascending P) ls → Reported P ls s)
    (fun _ => reported_start table) ?_ h hA
  intro ls t l u ht ih hl hall
  obtain ⟨hls, hlast⟩ := throughout_concat.mp hall
  exact reported_step (run_filed ht) (ih hls) hlast hl

/-! ### The managers of a task -/

/-- Task `k` handles `cmd` on answer `a`; those it has sent to, the one its next message is for and those
    still to come are `managers`. -/
def Routes (k : ℕ) (cmd : Command V) (a : ℕ) (managers : List DeviceManagerID) (s : State V) : Prop :=
  ∃ rest, s.broker.loops[k]? = some (cmd, a, rest) ∧ s.sentBy k ++ s.waiting k ++ rest = managers

/-- A task that has not begun has made no message. -/
theorem routes_begin (hF : Filed P s) (cmd : Command V) (now : ℤ) :
    Routes s.broker.loops.length cmd s.broker.answers.next (s.broker.table.filter (Addressed cmd))
      { s with broker := Broker.begin P s.broker cmd now } := by
  have hnot : ∀ x, s.Made x → x.task ≠ s.broker.loops.length := by
    intro x hx heq
    obtain ⟨-, -, rest, hrest⟩ := hF.made x hx
    have hlt := (List.getElem?_eq_some_iff.mp hrest).1
    omega
  have hsent : s.sent.filter (·.task = s.broker.loops.length) = [] :=
    List.filter_eq_nil_iff.mpr fun x hx => by simpa using hnot x (Or.inl hx)
  have hready : s.ready s.broker.loops.length = none := by
    rw [Option.eq_none_iff_forall_ne_some]
    intro x hx
    have htask := hF.task _ x hx
    exact hnot x (Or.inr (htask ▸ hx)) htask
  refine ⟨_, by rw [Broker.begin_loops, List.getElem?_concat_length], ?_⟩
  simp only [State.sentBy, State.waiting, hsent, hready, recipients_eq]
  rfl

theorem routes_file {k k' : ℕ} {id : GlobalID} {cmd : Command V} {a : ℕ}
    {managers : List DeviceManagerID} (hR : Routes k cmd a managers s) (h : file P s k' id = some t) :
    Routes k cmd a managers t := by
  obtain ⟨rest, hk, hall⟩ := hR
  obtain ⟨cmd', a', manager, todo, msg, hready, hk', -, -, rfl⟩ := file_eq h
  by_cases heq : k' = k
  · subst heq
    obtain ⟨rfl, rfl, rfl⟩ := Prod.mk.injEq .. ▸ Option.some.inj (hk.symm.trans hk')
    refine ⟨todo, List.getElem?_set_self (List.getElem?_eq_some_iff.mp hk).1, ?_⟩
    rw [← hall]
    simp [State.sentBy, State.waiting, hready]
  · refine ⟨rest, by rw [List.getElem?_set_ne heq]; exact hk, ?_⟩
    rw [← hall]
    simp only [State.sentBy, State.waiting, Function.update_of_ne (Ne.symm heq)]

theorem routes_send {k k' : ℕ} {cmd : Command V} {a : ℕ} {managers : List DeviceManagerID}
    (hF : Filed P s) (hR : Routes k cmd a managers s) (h : send P s k' = some t) :
    Routes k cmd a managers t := by
  obtain ⟨rest, hk, hall⟩ := hR
  obtain ⟨x, hx, rfl⟩ := send_eq h
  have htask := hF.task k' x hx
  refine ⟨rest, hk, ?_⟩
  rw [← hall]
  by_cases heq : k' = k
  · subst heq
    simp [State.sentBy, State.waiting, hx, htask]
  · have hne : x.task ≠ k := fun hxk => heq (htask.symm.trans hxk)
    simp [State.sentBy, State.waiting, Function.update_of_ne (Ne.symm heq), hne]

theorem routes_step {k : ℕ} {cmd : Command V} {a : ℕ} {managers : List DeviceManagerID}
    (hF : Filed P s) (hR : Routes k cmd a managers s) {l : Label V} (h : (system P).step s l = some t) :
    Routes k cmd a managers t := by
  rcases step_cases h with ⟨bl, b, -, hl, hb, rfl⟩ | ⟨k', id, -, -, hfile⟩ | ⟨k', -, hsend⟩
  · obtain ⟨rest, hk, hall⟩ := hR
    exact ⟨rest, (thread_frame hF.inv hl hb).2 k _ hk, hall⟩
  · exact routes_file hR hfile
  · exact routes_send hF hR hsend

/-- A task with a manager left can take a step, whatever fresh id it is given: one that cannot has sent
    to all. -/
theorem sent_of_stuck {k : ℕ} {cmd : Command V} {a : ℕ} {table : ZMQDeviceManagerTable} {id : GlobalID}
    (hR : Routes k cmd a (table.filter (Addressed cmd)) s) (hu : s.broker.undefined = false)
    (hid : s.broker.cmdTable id = none) (hfile : (system P).step s (.file k id) = none)
    (hsend : (system P).step s (.send k) = none) :
    s.sentBy k = table.filter (Addressed cmd) := by
  obtain ⟨rest, hk, hall⟩ := hR
  have hready : s.ready k = none := by
    simpa [system, hu, send] using hsend
  cases rest with
  | nil => simpa [State.waiting, hready] using hall
  | cons manager rest =>
    -- some manager is addressed, so there is a message for this kind of command
    have hmem : manager ∈ table.filter (Addressed cmd) := by
      rw [← hall]
      simp
    have haddr := (List.mem_filter.mp hmem).2
    have hmsg : ∃ msg, ZMQMessage.fromCommand P.base id cmd = .ok msg := by
      cases cmd with
      | other name => cases haddr
      | _ => exact ⟨_, rfl⟩
    obtain ⟨msg, hmsg⟩ := hmsg
    simp [system, hu, file, hready, hk, hid, hmsg] at hfile

theorem run_routes {k : ℕ} {cmd : Command V} {a : ℕ} {managers : List DeviceManagerID}
    {ls : List (Label V)} (hF : Filed P s) (hR : Routes k cmd a managers s)
    (h : (system P).run s ls = some t) : Routes k cmd a managers t := by
  have hrun := (system P).run_inv (P := fun s => Filed P s ∧ Routes k cmd a managers s) ?_ ⟨hF, hR⟩ h
  · exact hrun.2
  · rintro s l t ⟨hF, hR⟩ hl
    exact ⟨filed_step hF hl, routes_step hF hR hl⟩

/-- In every run: the messages of a task go to the managers its command is addressed to, and to all of
    them by the time it can do no more; the id of a message is filed with a result of its command that
    is no other id's; and if the statuses under each id never go back, every result has the last one
    reported under its own id. -/
theorem routing_correlation {table : ZMQDeviceManagerTable} {ls : List (Label V)} {s : State V}
    (h : (system P).run (start table) ls = some s) :
    (∀ pre cmd now post b, ls = pre ++ .thread (.begin cmd now) :: post →
      (system P).run (start table) pre = some b →
        Routes b.broker.loops.length cmd b.broker.answers.next
          (b.broker.table.filter (Addressed cmd)) s ∧
        ∀ id, s.broker.undefined = false → s.broker.cmdTable id = none →
          (system P).step s (.file b.broker.loops.length id) = none →
          (system P).step s (.send b.broker.loops.length) = none →
            s.sentBy b.broker.loops.length = b.broker.table.filter (Addressed cmd)) ∧
    (∀ x, s.Made x → s.broker.cmdTable x.id = some x.entry ∧
      ZMQMessage.fromCommand P.base x.id x.entry.cmd = .ok x.message ∧
      (∃ rest, s.broker.loops[x.task]? = some (x.entry.cmd, x.entry.answer, rest)) ∧
      x.entry.result < (s.broker.results x.entry.answer).length ∧
      ∀ id e, s.broker.cmdTable id = some e → e.answer = x.entry.answer →
        e.result = x.entry.result → id = x.id) ∧
    (Throughout (Ascending P) ls → ∀ (a i : ℕ) (r : Result V), (s.broker.results a)[i]? = some r →
      ∃ id e, s.broker.cmdTable id = some e ∧ e.answer = a ∧ e.result = i ∧
        r.status = latest id .pending (reports P ls)) := by
  have hF := run_filed h
  refine ⟨fun pre cmd now post b heq hb => ?_, fun x hx => ?_, fun hA a i r hr => ?_⟩
  · subst heq
    obtain ⟨b', hb', hrest⟩ := ((system P).run_append_iff).mp h
    obtain rfl := Option.some.inj (hb.symm.trans hb')
    obtain ⟨u, hu, hrun⟩ := ((system P).run_cons_iff).mp hrest
    have hR : Routes b.broker.loops.length cmd b.broker.answers.next
        (b.broker.table.filter (Addressed cmd)) u := by
      obtain ⟨c, hc, rfl⟩ := Option.map_eq_some_iff.mp hu
      obtain ⟨-, -, rfl⟩ := Broker.step_cases hc
      exact routes_begin (run_filed hb) cmd now
    have hRs := run_routes (filed_step (run_filed hb) hu) hR hrun
    exact ⟨hRs, fun id hdef hid hfile hsend => sent_of_stuck hRs hdef hid hfile hsend⟩
  · obtain ⟨hid, hmsg, hrest⟩ := hF.made x hx
    exact ⟨hid, hmsg, hrest, hF.bound x.id x.entry hid,
      fun id e he ha hres => hF.own id x.id e x.entry he hid ha hres⟩
  · obtain ⟨id, e, he, rfl, rfl⟩ := hF.covered a i (List.getElem?_eq_some_iff.mp hr).1
    exact ⟨id, e, he, rfl, rfl, (run_reported h hA).status id e r he hr⟩

end

/-- A listen command for two managers, the first of which answers. -/
def twoManagers : List (Label Reading) :=
  [.thread (.begin (.gatewayListen 5) 0), .file 0 ⟨7⟩, .send 0, .file 0 ⟨8⟩, .send 0,
    .thread (.data "A800" Broker.successText)]

theorem routing_two_managers : ∃ s, (system Broker.replies).run (start [⟨0xa800⟩, ⟨0xa801⟩])
      twoManagers = some s ∧
    Routes 0 (.gatewayListen 5) 0 [⟨0xa800⟩, ⟨0xa801⟩] s ∧
    ∀ (a i : ℕ) (r : Result Reading), (s.broker.results a)[i]? = some r →
      ∃ id e, s.broker.cmdTable id = some e ∧ e.answer = a ∧ e.result = i ∧
        r.status = latest id .pending [(⟨7⟩, .success)] := by
  obtain ⟨s, h⟩ : ∃ s, (system Broker.replies).run (start [⟨0xa800⟩, ⟨0xa801⟩]) twoManagers = some s :=
    ⟨_, rfl⟩
  obtain ⟨hroutes, -, hstatus⟩ := routing_correlation h
  refine ⟨s, h, (hroutes [] (.gatewayListen 5) 0 _ _ rfl rfl).1, hstatus ?_⟩
  rintro pre l post heq id st hl
  have hlast : reports Broker.replies pre <+: [(⟨7⟩, .success)] := by
    have hpre : pre <+: twoManagers := heq ▸ List.prefix_append pre (l :: post)
    exact hpre.filterMap (report Broker.replies)
  have hl' : l ∈ twoManagers := heq ▸ List.mem_append_right pre List.mem_cons_self
  simp only [twoManagers, List.mem_cons, List.not_mem_nil, or_false] at hl'
  rcases hl' with rfl | rfl | rfl | rfl | rfl | rfl <;> cases hl
  rcases List.prefix_cons_iff.mp hlast with hnil | ⟨rest, hrest, hnil⟩
  · rw [hnil]
    decide
  · rw [hrest, List.prefix_nil.mp hnil]
    decide

end Routing
end BeeeOn
