import Gateway.Schemes.Since
import Gateway.Zmq.DefaultResults

/-! @src zmq/ZMQBroker.cpp | name:Results for ids that the broker does not know | family:safety

    `doDefaultResult` looks the id of a message up in `m_cmdTable`, and if it is not there it logs that
    and goes on with what the iterator behind the last entry points to. An id is filed when a command is
    sent under it, and never taken out again; so nothing is read that is not there exactly if the
    managers answer only under ids that they were sent (`unknown_ids_harmless_iff`). -/

namespace BeeeOn
open Schemes
variable {V : Type}

namespace Broker
open ZMQBroker (parsed)
variable (P : Platform V)

/-- The string is a `default_result` with this id. -/
def IsDefaultResult (json : String) (id : GlobalID) : Prop :=
  ∃ m, parsed P.base json = .ok m ∧ m.type P.base = .ok .defaultResult ∧ m.id P.base = .ok id

/-- The broker reads the identity as the id of a device manager. -/
def Readable (identity : String) : Prop := ∃ manager, DeviceManagerID.parse P.base identity = .ok manager

/-- The results, the answers and the tables are the same. -/
structure Unchanged (s t : State V) : Prop where
  table : t.table = s.table
  answerQueue : t.answerQueue = s.answerQueue
  resultTable : t.resultTable = s.resultTable
  answers : t.answers = s.answers
  cmdTable : t.cmdTable = s.cmdTable
  settingTable : t.settingTable = s.settingTable

/-- What a string on the data socket has done: it has read nothing that is not there, and nothing at all
    if it is a `default_result` for an id that is not in `m_cmdTable`. -/
def Harmless (json : String) (s t : State V) : Prop :=
  t.undefined = false ∧ ∀ id, IsDefaultResult P json id → s.cmdTable id = none → Unchanged s t

/-- The condition on a step, given what came before: a `default_result` of a manager is for an id under
    which a command was sent. -/
def Solicited (pre : List (Label V)) : Label V → Prop
  | .data identity json => ∀ id, Readable P identity → IsDefaultResult P json id →
      ∃ k, .next k id ∈ pre
  | _ => True

variable {P} {s t : State V}

theorem doCommand_undefined (m : ZMQMessage) (manager : DeviceManagerID)
    (cmd : Except Exn (Command V)) : (doCommand P s m manager cmd).2.undefined = s.undefined := by
  unfold doCommand
  split <;> rfl

/-- Only a `default_result` can read behind the table. -/
theorem handleDataMessage_undefined {m : ZMQMessage} (manager : DeviceManagerID)
    (ht : m.type P.base ≠ .ok .defaultResult) :
    (handleDataMessage P s m manager).2.undefined = s.undefined := by
  unfold handleDataMessage
  split
  · split <;> rfl
  · contradiction
  · exact doCommand_undefined m manager _
  · exact doCommand_undefined m manager _
  · rfl
  · rfl

/-- A reply for an id that is not in the table reads behind it. -/
theorem undefined_of_unknown {identity json : String} {id : GlobalID} (hread : Readable P identity)
    (hresult : IsDefaultResult P json id) (hnone : s.cmdTable id = none) :
    (ended (dataServerReceive P s identity json)).undefined = true := by
  obtain ⟨manager, hmanager⟩ := hread
  obtain ⟨m, hm, ht, hid⟩ := hresult
  have hattempt : attempt P s identity m = (.ok (), { s with undefined := true }) := by
    simp only [attempt, hmanager, handleDataMessage, ht, doDefaultResult, hid, hnone]
  rcases data_eq (P := P) s identity json with ⟨m', fs, b, hm', h⟩ | ⟨e, fs, b, he, h⟩
  · obtain rfl := Except.ok.inj (hm.symm.trans hm')
    rw [h, hattempt]
  · rw [hm] at he
    cases he

/-- A string is harmless exactly if it is no reply to an id that is not in the table. -/
theorem harmless_iff (hs : s.undefined = false) (identity json : String) :
    Harmless P json s (ended (dataServerReceive P s identity json)) ↔
      ∀ id, Readable P identity → IsDefaultResult P json id → s.cmdTable id ≠ none := by
  constructor
  · rintro ⟨hu, -⟩ id hread hresult hnone
    rw [undefined_of_unknown hread hresult hnone] at hu
    cases hu
  · intro hknown
    rcases data_eq (P := P) s identity json with ⟨m, fs, b, hm, h⟩ | ⟨e, fs, b, he, h⟩ <;> rw [h]
    · rw [attempt]
      cases hmanager : DeviceManagerID.parse P.base identity with
      | error e => exact ⟨hs, fun _ _ _ => ⟨rfl, rfl, rfl, rfl, rfl, rfl⟩⟩
      | ok manager =>
        have hfiled : ∀ id, IsDefaultResult P json id → s.cmdTable id ≠ none := fun id hresult =>
          hknown id ⟨manager, hmanager⟩ hresult
        refine ⟨?_, fun id hresult hnone => absurd hnone (hfiled id hresult)⟩
        by_cases ht : m.type P.base = .ok .defaultResult
        · simp only [handleDataMessage, ht, doDefaultResult]
          cases hid : m.id P.base with
          | error e => exact hs
          | ok id =>
            obtain ⟨e, he⟩ := Option.ne_none_iff_exists'.mp (hfiled id ⟨m, hm, ht, hid⟩)
            simp only [he]
            exact hs
        · exact (handleDataMessage_undefined manager ht).trans hs
    · refine ⟨hs, ?_⟩
      rintro id ⟨m, hm, -⟩
      rw [he] at hm
      cases hm

/-! ### Runs -/

/-- The ids in `m_cmdTable` are those under which a command was sent. -/
theorem filed_iff {table : ZMQDeviceManagerTable} {ls : List (Label V)}
    (h : (system P).run (start table) ls = some s) (id : GlobalID) :
    s.cmdTable id ≠ none ↔ ∃ k, .next k id ∈ ls := by
  refine (system P).run_hist (P := fun ls s => s.cmdTable id ≠ none ↔ ∃ k, .next k id ∈ ls) ?_ ?_ h
  · simp [start]
  · intro ls t l u ht ih hl
    rcases step_cmdTable (run_broker ht) hl with ⟨k, id', e, rfl, hnone, hu⟩ | ⟨hne, hu⟩
    · rw [hu]
      by_cases hid : id = id'
      · subst hid
        simp
      · rw [Function.update_of_ne hid, ih]
        simp [hid]
    · rw [hu, ih]
      refine exists_congr fun k => ?_
      simp [(hne k id).symm]

/-- In every run: no string on the data socket has read what is not there, and none for an unknown id
    has changed anything, exactly if the managers have answered only under ids that they were sent. -/
theorem unknown_ids_harmless_iff {table : ZMQDeviceManagerTable} {ls : List (Label V)} {u : State V}
    (h : (system P).run (start table) ls = some u) :
    (∀ pre identity json post s t, ls = pre ++ .data identity json :: post →
        (system P).run (start table) pre = some s →
          (system P).step s (.data identity json) = some t → Harmless P json s t) ↔
      Throughout (Solicited P) ls := by
  constructor
  · rintro hall pre l post rfl
    obtain ⟨s, hs, hrest⟩ := ((system P).run_append_iff).mp h
    obtain ⟨t, ht, -⟩ := ((system P).run_cons_iff).mp hrest
    cases l with
    | data identity json =>
      intro id hread hresult
      have hharmless := hall pre identity json post s t rfl hs ht
      obtain ⟨hu, -, rfl⟩ := step_cases ht
      exact (filed_iff hs id).mp ((harmless_iff hu identity json).mp hharmless id hread hresult)
    | _ => trivial
  · rintro hall pre identity json post s t rfl hs ht
    obtain ⟨hu, -, rfl⟩ := step_cases ht
    refine (harmless_iff hu identity json).mpr fun id hread hresult => ?_
    exact (filed_iff hs id).mpr (hall pre _ post rfl id hread hresult)

/-- A listen command is sent under the id 7, and answered under it. -/
theorem solicited_is_harmless : ∃ u, (system replies).run (start [⟨0xa800⟩])
      [.begin (.gatewayListen 5) 0, .next 0 ⟨7⟩, .data "A800" successText] = some u ∧
    ∀ pre identity json post s t,
      [.begin (.gatewayListen 5) 0, .next 0 ⟨7⟩, .data "A800" successText] =
        pre ++ .data identity json :: post → (system replies).run (start [⟨0xa800⟩]) pre = some s →
          (system replies).step s (.data identity json) = some t → Harmless replies json s t := by
  obtain ⟨u, h⟩ : ∃ u, (system replies).run (start [⟨0xa800⟩])
    [.begin (.gatewayListen 5) 0, .next 0 ⟨7⟩, .data "A800" successText] = some u := ⟨_, rfl⟩
  refine ⟨u, h, (unknown_ids_harmless_iff h).mpr ?_⟩
  rintro (_ | ⟨_, _ | ⟨_, _ | ⟨_, as⟩⟩⟩) l bs heq
  · cases heq; trivial
  · cases heq; trivial
  · cases heq
    rintro id - ⟨m, hm, -, hid⟩
    cases hm
    have h7 : (replyWith 1).id replies.base = .ok ⟨7⟩ := rfl
    obtain rfl := Except.ok.inj (h7.symm.trans hid)
    exact ⟨0, by simp⟩
  · simp at heq

/-- A result for the id 7 that no command was sent under. -/
theorem unknown_id_harms : ¬ ∀ (table : ZMQDeviceManagerTable) (ls : List (Label Reading))
    (s t : State Reading) (identity json : String), (system replies).run (start table) ls = some s →
      (system replies).step s (.data identity json) = some t → Harmless replies json s t := by
  intro h
  obtain ⟨hu, -⟩ := h [⟨0xa800⟩] [] _ _ "A800" successText rfl rfl
  cases hu

end Broker
end BeeeOn
