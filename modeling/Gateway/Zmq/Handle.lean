import Gateway.Core.Dispatcher
import Gateway.Zmq.DeviceManagerTable

/-! @src zmq/ZMQBroker.cpp | name:Commands through the broker | family:dispatch

    The broker is itself a handler: a command for a device goes to every registered manager with the
    prefix of the device, a listen command to all of them. `handle` adds one result for each manager it
    sends to, under the fresh id of the message, and `default_result` messages fill them in. The
    dispatcher has counted one command for the broker, so the answer stops being pending when all have
    replied only if there was exactly one manager to send to (`pending_iff_recipients`). -/

namespace BeeeOn
open Schemes AnswerQueue CommandDispatcher
variable {V : Type}

/-- `ZMQBroker::ResultData2`: the result is number `result` of the answer. -/
structure ResultData2 (V : Type) where
  answer : ℕ
  cmd : Command V
  result : ℕ
  deriving DecidableEq, Repr

/-- `ZMQBroker::SettingValueItem`; the end time in microseconds. -/
structure SettingValueItem (V : Type) where
  cmd : Command V
  answer : ℕ
  endTime : ℤ
  deriving DecidableEq, Repr

/-- `std::map::insert`: an existing entry stays. -/
def insertNew {κ β : Type} [DecidableEq κ] (m : κ → Option β) (k : κ) (v : β) : κ → Option β :=
  match m k with
  | none => Function.update m k (some v)
  | some _ => m

namespace ZMQBroker

def accept (t : ZMQDeviceManagerTable) : Command V → Bool
  | .deviceSetValue deviceID _ _ _ => t.isDeviceManagerRegistered deviceID.devicePrefix
  -- the table is asked here too, but the answer is thrown away
  | .deviceUnpair _ => true
  | .gatewayListen _ => true
  | _ => false

/-- The vector `managers` of `handle`. -/
def recipients (t : ZMQDeviceManagerTable) : Command V → List DeviceManagerID
  | .deviceSetValue deviceID _ _ _ => t.getAllOf deviceID.devicePrefix
  | .deviceUnpair deviceID => t.getAllOf deviceID.devicePrefix
  | .gatewayListen _ => t.getAll
  | _ => []

/-- A value to set is accepted if there is a manager to send it to; the other commands always are. -/
theorem accept_set_iff (t : ZMQDeviceManagerTable) (deviceID : DeviceID) (moduleID : ModuleID)
    (value : V) (timeout : ℤ) : accept t (.deviceSetValue deviceID moduleID value timeout) = true ↔
      recipients t (.deviceSetValue deviceID moduleID value timeout) ≠ [] :=
  ZMQDeviceManagerTable.isDeviceManagerRegistered_iff

structure State (V : Type) where
  queue : AnswerQueue V
  cmdTable : GlobalID → Option (ResultData2 V)
  settingTable : DeviceID → Option (SettingValueItem V)
  /-- the managers that the loop of `handle` has not sent to; `none` before the task runs -/
  todo : Option (List DeviceManagerID)
  sent : List (DeviceManagerID × GlobalID)

inductive Label where
  | begin (now : ℤ)
  | next (id : GlobalID)
  | reply (id : GlobalID) (s : Status)
  | consume (a : ℕ)
  deriving DecidableEq

/-- The task of the broker for `cmd` and answer `a`, beside the broker thread that receives replies and
    a consumer of the queue. `GlobalID::random` gives an id that is not in use. -/
def handling (t : ZMQDeviceManagerTable) (cmd : Command V) (a : ℕ) : Lts (State V) Label where
  step
    | s, .begin now => match s.todo with
      | none => some
          { s with
            todo := some (recipients t cmd)
            settingTable := match cmd with
              | .deviceSetValue deviceID _ _ timeout =>
                insertNew s.settingTable deviceID ⟨cmd, a, now + timeout⟩
              | _ => s.settingTable }
      | some _ => none
    | s, .next id => match s.todo, s.cmdTable id with
      | some (d :: ds), none => some
          { s with
            queue := s.queue.addResult a .plain
            cmdTable := insertNew s.cmdTable id ⟨a, cmd, (s.queue.heap a).results.length⟩
            todo := some ds
            sent := s.sent ++ [(d, id)] }
      | _, _ => none
    -- `doDefaultResult`; an invalid change of status raises, which the receiver catches
    | s, .reply id st => match s.cmdTable id with
      | some e => some { s with queue := s.queue.afterSetStatus e.answer e.result st }
      | none => none
    | s, .consume b => some { s with queue := (s.queue.visit b).2 }

/-- `handle` has returned. -/
def State.Finished (s : State V) : Prop := s.todo = some []

/-- Every manager that was sent a message has answered with `SUCCESS` or `FAILED`. -/
def AllReplied (s : State V) (ls : List Label) : Prop :=
  ∀ d id, (d, id) ∈ s.sent → ∃ st : Status, st.IsTerminal ∧ .reply id st ∈ ls

/-! ### Results and replies -/

/-- What holds of the answer, the table and the labels so far: one command is counted; a result for
    each message sent, filed under its id; and where a manager has answered with a terminal status the
    result has left `PENDING`. -/
structure Ledger (t : ZMQDeviceManagerTable) (cmd : Command V) (a : ℕ) (ls : List Label)
    (s : State V) : Prop where
  commands : (s.queue.heap a).commands = 1
  idle : s.todo = none → s.sent = []
  split : ∀ ds, s.todo = some ds → s.sent.map Prod.fst ++ ds = recipients t cmd
  count : (s.queue.heap a).results.length = s.sent.length
  filed : ∀ i < (s.queue.heap a).results.length,
    ∃ d id, (d, id) ∈ s.sent ∧ s.cmdTable id = some ⟨a, cmd, i⟩
  bound : ∀ id e, s.cmdTable id = some e → e.answer = a → e.result < (s.queue.heap a).results.length
  nonneg : ∀ r ∈ (s.queue.heap a).results, 0 ≤ r.status.raw
  known : ∀ id st, .reply id st ∈ ls → s.cmdTable id ≠ none
  replied : ∀ id (st : Status) e, .reply id st ∈ ls → st.IsTerminal → s.cmdTable id = some e →
    e.answer = a → ∃ r, (s.queue.heap a).results[e.result]? = some r ∧ 1 ≤ r.status.raw

theorem insertNew_of_none {κ β : Type} [DecidableEq κ] {m : κ → Option β} {k : κ} (v : β)
    (h : m k = none) : insertNew m k v = Function.update m k (some v) := by
  rw [insertNew, h]

section
variable {t : ZMQDeviceManagerTable} {cmd : Command V} {a : ℕ} {ls : List Label} {s u : State V}

/-- A label that is no reply, over an answer that keeps its results. -/
theorem ledger_of_heap (hL : Ledger t cmd a ls s) {l : Label} (hl : ∀ id st, l ≠ .reply id st)
    (hheap : ∃ d, u.queue.heap a = (s.queue.heap a).setDirty d) (hsent : u.sent = s.sent)
    (htable : u.cmdTable = s.cmdTable) (hidle : u.todo = none → s.todo = none)
    (hsplit : ∀ ds, u.todo = some ds → s.sent.map Prod.fst ++ ds = recipients t cmd) :
    Ledger t cmd a (ls ++ [l]) u := by
  obtain ⟨d, hd⟩ := hheap
  have hmem : ∀ id st, .reply id st ∈ ls ++ [l] → .reply id st ∈ ls := by
    intro id st hm
    rcases List.mem_append.mp hm with hm | hm
    · exact hm
    · exact absurd (List.mem_singleton.mp hm).symm (hl id st)
  constructor <;> (try rw [hd]) <;> (try rw [htable]) <;> (try rw [hsent])
  case commands => exact hL.commands
  case idle => exact fun hn => hL.idle (hidle hn)
  case split => exact hsplit
  case count => exact hL.count
  case filed => exact hL.filed
  case bound => exact hL.bound
  case nonneg => exact hL.nonneg
  case known => exact fun id st hm => hL.known id st (hmem id st hm)
  case replied => exact fun id st e hm => hL.replied id st e (hmem id st hm)

theorem ledger_next (hL : Ledger t cmd a ls s) {id : GlobalID}
    (h : (handling t cmd a).step s (.next id) = some u) : Ledger t cmd a (ls ++ [.next id]) u := by
  simp only [handling] at h
  split at h <;> cases h
  rename_i d ds htodo hfree
  have hheap : (s.queue.addResult a .plain).heap a = (s.queue.heap a).addResult (.new .plain) := by
    rw [addResult_heap, if_pos rfl]
  have hlen : ((s.queue.addResult a .plain).heap a).results.length =
      (s.queue.heap a).results.length + 1 := by rw [hheap]; simp [Answer.addResult]
  have hother : ∀ k, k ≠ id →
      Function.update s.cmdTable id (some ⟨a, cmd, (s.queue.heap a).results.length⟩) k = s.cmdTable k :=
    fun k hk => Function.update_of_ne hk _ _
  have hmem : ∀ k st, .reply k st ∈ ls ++ [Label.next id] → k ≠ id ∧ .reply k st ∈ ls := by
    intro k st hm
    rcases List.mem_append.mp hm with hm | hm
    · exact ⟨fun hk => hL.known k st hm (hk ▸ hfree), hm⟩
    · cases List.mem_singleton.mp hm
  constructor <;> simp only [insertNew_of_none _ hfree]
  case commands => rw [hheap]; exact hL.commands
  case idle => intro hn; cases hn
  case split =>
    intro ds' h'
    obtain rfl := Option.some.inj h'
    rw [List.map_append, List.append_assoc]
    exact hL.split _ htodo
  case count => rw [hlen, List.length_append, hL.count]; rfl
  case filed =>
    intro i hi
    rw [hlen] at hi
    rcases Nat.lt_succ_iff_lt_or_eq.mp hi with hi | rfl
    · obtain ⟨d', id', hm, hid⟩ := hL.filed i hi
      refine ⟨d', id', List.mem_append_left _ hm, ?_⟩
      rw [hother id' (fun he => by rw [he, hfree] at hid; cases hid), hid]
    · exact ⟨d, id, List.mem_append_right _ (List.mem_singleton_self _), Function.update_self _ _ _⟩
  case bound =>
    intro k e hk ha
    rw [hlen]
    by_cases hkid : k = id
    · subst hkid
      rw [Function.update_self, Option.some.injEq] at hk
      rw [← hk]; exact Nat.lt_succ_self _
    · rw [hother k hkid] at hk
      exact Nat.lt_succ_of_lt (hL.bound k e hk ha)
  case nonneg =>
    intro r hr
    rw [hheap] at hr
    rcases List.mem_append.mp hr with hr | hr
    · exact hL.nonneg r hr
    · rw [List.mem_singleton.mp hr]; exact le_rfl
  case known =>
    intro k st hm
    obtain ⟨hk, hm⟩ := hmem k st hm
    rw [hother k hk]; exact hL.known k st hm
  case replied =>
    intro k st e hm ht hk ha
    obtain ⟨hne, hm⟩ := hmem k st hm
    rw [hother k hne] at hk
    obtain ⟨r, hr, hle⟩ := hL.replied k st e hm ht hk ha
    refine ⟨r, ?_, hle⟩
    rw [hheap, Answer.addResult, List.getElem?_append_left (hL.bound k e hk ha), hr]

theorem ledger_reply (hL : Ledger t cmd a ls s) {id : GlobalID} {st : Status}
    (h : (handling t cmd a).step s (.reply id st) = some u) :
    Ledger t cmd a (ls ++ [.reply id st]) u := by
  simp only [handling] at h
  split at h <;> cases h
  rename_i e he
  obtain ⟨hcom, hlen, hres⟩ := s.queue.afterSetStatus_results e.answer e.result a st
  have hmem : ∀ k q, .reply k q ∈ ls ++ [Label.reply id st] → .reply k q ∈ ls ∨ (k = id ∧ q = st) := by
    intro k q hm
    rcases List.mem_append.mp hm with hm | hm
    · exact Or.inl hm
    · cases List.mem_singleton.mp hm; exact Or.inr ⟨rfl, rfl⟩
  refine ⟨hcom.trans hL.commands, hL.idle, hL.split, hlen.trans hL.count, fun i hi =>
    hL.filed i (hlen ▸ hi), fun k e' hk ha => hlen ▸ hL.bound k e' hk ha, fun r hr => ?_,
    fun k q hm => ?_, fun k q e' hm ht hk ha => ?_⟩
  · obtain ⟨j, hj⟩ := List.mem_iff_getElem?.mp hr
    have hjl : j < (s.queue.heap a).results.length := hlen ▸ (List.getElem?_eq_some_iff.mp hj).1
    obtain ⟨r', hr', hle, _⟩ := hres j _ (List.getElem?_eq_getElem hjl)
    obtain rfl := Option.some.inj (hj.symm.trans hr')
    exact (hL.nonneg _ (List.getElem_mem hjl)).trans hle
  · rcases hmem k q hm with hm | ⟨rfl, _⟩
    · exact hL.known k q hm
    · rw [show s.cmdTable k = some e from he]; exact Option.some_ne_none e
  · rcases hmem k q hm with hm | ⟨rfl, rfl⟩
    · obtain ⟨r, hr, hle⟩ := hL.replied k q e' hm ht hk ha
      obtain ⟨r', hr', hle', _⟩ := hres _ r hr
      exact ⟨r', hr', hle.trans hle'⟩
    · obtain rfl := Option.some.inj (he.symm.trans hk)
      obtain ⟨r', hr', _, hst⟩ := hres _ _ (List.getElem?_eq_getElem (hL.bound k e hk ha))
      exact ⟨r', hr', ht.one_le.trans (hst ha rfl)⟩

theorem ledger_step (hL : Ledger t cmd a ls s) {l : Label}
    (h : (handling t cmd a).step s l = some u) : Ledger t cmd a (ls ++ [l]) u := by
  cases l with
  | next id => exact ledger_next hL h
  | reply id st => exact ledger_reply hL h
  | begin now =>
    simp only [handling] at h
    split at h <;> cases h
    rename_i htodo
    refine ledger_of_heap hL (by simp) ⟨_, rfl⟩ rfl rfl (fun hn => (by cases hn)) fun ds hds => ?_
    rw [hL.idle htodo, ← Option.some.inj hds]
    rfl
  | consume b =>
    obtain rfl := Option.some.inj h
    refine ledger_of_heap hL (by simp) ?_ rfl rfl id fun ds hds => hL.split ds hds
    simp only [visit_heap]
    split_ifs with hab
    · exact ⟨false, by rw [hab]⟩
    · exact ⟨_, rfl⟩

end

/-- The state in which `dispatch` leaves the answer to the task of the broker. -/
def start (hs : List (CommandHandler V)) (cmd : Command V) (a : ℕ) (q : AnswerQueue V)
    (cmdTable : GlobalID → Option (ResultData2 V))
    (settingTable : DeviceID → Option (SettingValueItem V)) : State V :=
  ⟨(dispatch hs cmd a q).1, cmdTable, settingTable, none, []⟩

/-- For every table and every command that the broker accepts as the only handler, over every order of
    replies: once all managers that were sent to have answered, the answer is no longer pending exactly
    if there was one recipient. -/
theorem pending_iff_recipients {t : ZMQDeviceManagerTable} {cmd : Command V} {a b : ℕ}
    {hs : List (CommandHandler V)} {q : AnswerQueue V} {cmdTable : GlobalID → Option (ResultData2 V)}
    {settingTable : DeviceID → Option (SettingValueItem V)}
    (hq : Untouched (q.heap a)) (hno : ∀ id e, cmdTable id = some e → e.answer ≠ a)
    (honly : hs.filter (·.accept cmd) = [⟨b, accept t⟩]) {ls : List Label} {s : State V}
    (h : (handling t cmd a).run (start hs cmd a q cmdTable settingTable) ls = some s)
    (hfin : s.Finished) (hall : AllReplied s ls) :
    (s.queue.heap a).isPending = false ↔ (recipients t cmd).length = 1 := by
  obtain ⟨_, hcom, hres⟩ := dispatch_untouched hs cmd a hq
  have hone : (runners hs cmd a).length = 1 := by rw [runners, honly]; rfl
  have hL : Ledger t cmd a ls s := by
    refine (handling t cmd a).run_hist (P := fun ls s => Ledger t cmd a ls s) ?_
      (fun _ _ _ _ _ hL hl => ledger_step hL hl) h
    refine ⟨hcom.trans hone, fun _ => rfl, fun ds hds => (by cases hds), ?_, fun i hi => ?_,
      fun id e hid ha => absurd ha (hno id e hid), fun r hr => ?_, fun _ _ hm => (by cases hm),
      fun _ _ _ hm => (by cases hm)⟩
    · simp [start, hres]
    · simp [start, hres] at hi
    · simp [start, hres] at hr
  have hlen : (s.queue.heap a).results.length = (recipients t cmd).length := by
    rw [hL.count, ← hL.split [] hfin, List.append_nil, List.length_map]
  rw [Answer.isPending_eq_false, hL.commands, hlen]
  refine and_iff_left fun r hr => ?_
  obtain ⟨i, hi⟩ := List.mem_iff_getElem?.mp hr
  obtain ⟨d, id, hsent, hfiled⟩ := hL.filed i (List.getElem?_eq_some_iff.mp hi).1
  obtain ⟨st, ht, hm⟩ := hall d id hsent
  obtain ⟨r', hr', hle⟩ := hL.replied id st _ hm ht hfiled rfl
  obtain rfl := Option.some.inj (hi.symm.trans hr')
  exact Status.ne_pending_of_one_le hle

/-- One manager in the table: the reply to a listen command settles the answer. -/
theorem pending_one_recipient : ∃ s : State ℤ,
    (handling [⟨0xa800⟩] (.gatewayListen 5) 0).run (start [⟨0, accept [⟨0xa800⟩]⟩] (.gatewayListen 5) 0
      AnswerQueue.empty.newAnswer (fun _ => none) (fun _ => none))
      [.begin 0, .next ⟨7⟩, .reply ⟨7⟩ .success] = some s ∧ (s.queue.heap 0).isPending = false := by
  obtain ⟨s, h, hfin, hsent⟩ : ∃ s : State ℤ, (handling [⟨0xa800⟩] (.gatewayListen 5) 0).run
      (start [⟨0, accept [⟨0xa800⟩]⟩] (.gatewayListen 5) 0 AnswerQueue.empty.newAnswer (fun _ => none)
        (fun _ => none)) [.begin 0, .next ⟨7⟩, .reply ⟨7⟩ .success] = some s ∧ s.Finished ∧
      s.sent = [(⟨0xa800⟩, ⟨7⟩)] := ⟨_, rfl, rfl, rfl⟩
  refine ⟨s, h, (pending_iff_recipients ⟨rfl, rfl, rfl⟩ (fun _ _ he => (by cases he)) rfl h hfin
    fun d id hm => ?_).mpr rfl⟩
  rw [hsent] at hm
  cases List.mem_singleton.mp hm
  exact ⟨.success, Or.inl rfl, by decide⟩

/-- Two managers in the table: both have answered a listen command and the answer is still pending. -/
theorem listen_stays_pending : ¬ ∀ (t : ZMQDeviceManagerTable) (cmd : Command ℤ) (a b : ℕ)
    (hs : List (CommandHandler ℤ)) (q : AnswerQueue ℤ) (ls : List Label) (s : State ℤ),
    accept t cmd = true → Untouched (q.heap a) → hs.filter (·.accept cmd) = [⟨b, accept t⟩] →
      (handling t cmd a).run (start hs cmd a q (fun _ => none) (fun _ => none)) ls = some s →
        s.Finished → AllReplied s ls → (s.queue.heap a).isPending = false := by
  intro h
  have hpending := h [⟨0xa800⟩, ⟨0xa801⟩] (.gatewayListen 5) 0 0 [⟨0, accept [⟨0xa800⟩, ⟨0xa801⟩]⟩]
    AnswerQueue.empty.newAnswer [.begin 0, .next ⟨7⟩, .next ⟨8⟩, .reply ⟨8⟩ .success,
      .reply ⟨7⟩ .success] _ rfl ⟨rfl, rfl, rfl⟩ rfl rfl rfl
  refine absurd (hpending fun d id hm => ?_) (by decide)
  rcases List.mem_cons.mp hm with hm | hm
  · cases hm; exact ⟨.success, Or.inl rfl, by decide⟩
  · cases List.mem_singleton.mp hm; exact ⟨.success, Or.inl rfl, by decide⟩

end ZMQBroker
end BeeeOn
