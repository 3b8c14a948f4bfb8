import Gateway.Zmq.Broker

/-! @src zmq/ZMQBroker.cpp, commands/DeviceSetValueCommand.h | name:Set commands and their deadlines |
    family:timer

    A set command goes into `m_settingTable` with its end time, and the timer is to give its result one
    of the statuses of the gateway: that of the device, or a timeout. But `handle` makes plain results,
    and the timer casts the first result of an answer to the class that has such a status; so a tick
    that meets a result raises, and one that meets none leaves the command as it is. A tick is in order
    only if it has nothing to resolve (`all_resolved_iff`).

    Nor would it be with results of that class: the body erases the entry that the loop stands on, and
    an entry that has expired without a result is passed over. The walk is as it should be exactly if
    nothing has to be removed (`swept_iff`). -/

namespace BeeeOn
open Schemes
variable {V : Type}

namespace Broker
variable (P : Platform V)

/-- The tick returns, and leaves each set command whose end time has passed with a final status. -/
def Resolves (s : State V) (now : ℤ) : Prop :=
  (checkSettingTable now s).1 = .returned ∧ ∀ x ∈ s.handled, x.2 < now →
    ∃ r ∈ (checkSettingTable now s).2.results x.1, ∃ st : SetStatus, st.IsFinal ∧
      r.payload = .setValue (some st)

/-- Every tick of the run resolves what is due. -/
def AllResolved (table : ZMQDeviceManagerTable) (ls : List (Label V)) : Prop :=
  ∀ pre now post s, ls = pre ++ .tick now :: post → (system P).run (start table) pre = some s →
    Resolves s now

/-- The condition on a tick: no entry of the setting table has a result, and no set command that has
    been handled is past its end time. -/
def NothingToResolve (s : State V) : Label V → Prop
  | .tick now => (∀ item ∈ s.settingTable, s.results item.2.answer = []) ∧ ∀ x ∈ s.handled, now ≤ x.2
  | _ => True

variable {P} {s : State V}

theorem resolves_iff (hI : Inv s) (now : ℤ) : Resolves s now ↔ NothingToResolve s (.tick now) := by
  simp only [Resolves, NothingToResolve, check_plain hI]
  refine and_congr ?_ (forall₂_congr fun x hx => ?_)
  · split_ifs with hnone
    · exact iff_of_true rfl hnone
    · exact iff_of_false nofun hnone
  · -- no result has a set status, so none may be due
    refine ⟨fun h => not_lt.mp fun hlt => ?_, fun hle hlt => absurd hlt (not_lt.mpr hle)⟩
    obtain ⟨r, hr, st, -, hst⟩ := h hlt
    rw [hI.plain x.1 r hr] at hst
    cases hst

/-- In every run, over any table, any overlapping commands and any timeouts: the ticks return and every
    set command has a final status once its end time has passed exactly if no tick finds a set command
    that has a result or is due. -/
theorem all_resolved_iff (table : ZMQDeviceManagerTable) (ls : List (Label V)) :
    AllResolved P table ls ↔ (system P).Meets NothingToResolve (start table) ls := by
  constructor
  · intro h pre l post s heq hs
    cases l with
    | tick now => exact (resolves_iff (run_broker hs) now).mp (h pre now post s heq hs)
    | _ => trivial
  · intro h pre now post s heq hs
    exact (resolves_iff (run_broker hs) now).mpr (h pre (.tick now) post s heq hs)

/-- One manager and one set command, which is sent: the next tick raises, before the end time. -/
theorem set_command_unresolved : ¬ ∀ (table : ZMQDeviceManagerTable) (ls : List (Label Reading))
    (s : State Reading), (system (sample [])).run (start table) ls = some s →
      AllResolved (sample []) table ls := by
  intro h
  have hall := h [⟨0xa800⟩] [.begin (.deviceSetValue ⟨⟨0xa8⟩, 1⟩ ⟨0⟩ .warm 5000000) 0, .next 0 ⟨7⟩,
    .tick 1000] _ rfl
  have htick := (hall
    [.begin (.deviceSetValue ⟨⟨0xa8⟩, 1⟩ ⟨0⟩ .warm 5000000) 0, .next 0 ⟨7⟩] 1000 [] _ rfl rfl).1
  exact absurd htick (by decide)

/-! ### The walk over the table -/

/-- What the first result of an entry's answer carries. -/
def State.first (s : State V) (item : DeviceID × SettingValueItem V) : Option (Payload V) :=
  (s.results item.2.answer)[0]?.map Result.payload

/-- The entry has to go: it is past its end time, or its device has reported. -/
def Due (s : State V) (now : ℤ) (item : DeviceID × SettingValueItem V) : Prop :=
  item.2.endTime < now ∨ s.first item = some (.setValue (some .deviceSuccess)) ∨
    s.first item = some (.setValue (some .deviceFailed))

/-- The entries that the loop looks at, until its body does not return. -/
def visits (now : ℤ) : State V → List (DeviceID × SettingValueItem V) →
    List (DeviceID × SettingValueItem V)
  | _, [] => []
  | s, item :: items => item :: match checkItem now s item with
    | (.returned, t) => visits now t items
    | _ => []

/-- The tick looks at every entry once, removes those that have to go and leaves the others as they
    are. -/
structure Swept (s : State V) (now : ℤ) : Prop where
  returned : (checkSettingTable now s).1 = .returned
  visited : visits now s s.settingTable = s.settingTable
  removed : ∀ item, item ∈ (checkSettingTable now s).2.settingTable ↔
    item ∈ s.settingTable ∧ ¬ Due s now item
  spared : ∀ item ∈ s.settingTable, ¬ Due s now item →
    (checkSettingTable now s).2.first item = s.first item

/-- The loop goes past such an entry: it has no result yet, or one that says that it stays. -/
def Stays (s : State V) (now : ℤ) (item : DeviceID × SettingValueItem V) : Prop :=
  s.first item = none ∨ ¬ Due s now item ∧ s.first item ≠ some (.setValue none)

/-- What has to be erased, or has no status yet, is where the loop cannot go on. -/
theorem checkItem_spec (now : ℤ) (item : DeviceID × SettingValueItem V)
    (hset : ∀ p, s.first item = some p → ∃ st, p = .setValue st) :
    (Stays s now item → checkItem now s item = (.returned, s)) ∧
      (¬ Stays s now item → (checkItem now s item).1 = .undefined) := by
  have hsuccess : SetStatus.deviceSuccess ≠ .deviceFailed := by decide
  have hfirst : ((s.answers.heap item.2.answer).results[0]?).map Result.payload = s.first item := rfl
  rw [Stays, Due, checkItem, hfirst]
  rcases hp : s.first item with _ | p
  · simp
  · obtain ⟨_ | st, rfl⟩ := hset p hp
    · by_cases hend : item.2.endTime < now <;> simp [hend]
    · by_cases hend : item.2.endTime < now
      · simp [hend]
      · by_cases hst : st = .deviceFailed
        · simp [hend, hst]
        · by_cases hst' : st = .deviceSuccess <;> simp [hend, hst, hst', hsuccess]

/-- The walk returns exactly if no entry stops it, and then nothing has changed. -/
theorem sweep_spec (now : ℤ) (items : List (DeviceID × SettingValueItem V))
    (hset : ∀ item ∈ items, ∀ p, s.first item = some p → ∃ st, p = .setValue st) :
    ((∀ item ∈ items, Stays s now item) →
        sweep now s items = (.returned, s) ∧ visits now s items = items) ∧
      ((sweep now s items).1 = .returned → ∀ item ∈ items, Stays s now item) := by
  induction items with
  | nil => simp [sweep, visits]
  | cons item items ih =>
    obtain ⟨hgoes, hreturns⟩ := ih fun i hi => hset i (List.mem_cons_of_mem _ hi)
    obtain ⟨hstays, hstops⟩ := checkItem_spec now item (hset item List.mem_cons_self)
    rw [List.forall_mem_cons, sweep, visits]
    constructor
    · rintro ⟨hitem, hitems⟩
      rw [hstays hitem]
      obtain ⟨hsweep, hvisits⟩ := hgoes hitems
      exact ⟨hsweep, congrArg (item :: ·) hvisits⟩
    · intro hret
      by_cases hitem : Stays s now item
      · rw [hstays hitem] at hret
        exact ⟨hitem, hreturns hret⟩
      · have hundefined := hstops hitem
        rcases hcheck : checkItem now s item with ⟨_ | e | _, t⟩ <;> rw [hcheck] at hundefined hret
        · cases hundefined
        · cases hundefined
        · cases hret

/-- For every content of the table whose first results can have a set status, and every time: the tick
    is as it should be exactly if no entry has to go, and no first result is without its status. -/
theorem swept_iff (s : State V) (now : ℤ) (hset : ∀ item ∈ s.settingTable, ∀ p,
    s.first item = some p → ∃ st, p = .setValue st) :
    Swept s now ↔ ∀ item ∈ s.settingTable, ¬ Due s now item ∧ s.first item ≠ some (.setValue none) := by
  obtain ⟨hgoes, hreturns⟩ := sweep_spec now s.settingTable hset
  constructor
  · intro h item hitem
    have hstays := hreturns h.returned
    obtain ⟨hsweep, -⟩ := hgoes hstays
    -- nothing is removed by a walk that returns
    have hsame : (checkSettingTable now s).2 = s := by rw [checkSettingTable, hsweep]
    have hdue : ¬ Due s now item := by
      have hiff := h.removed item
      rw [hsame] at hiff
      exact (hiff.mp hitem).2
    rcases hstays item hitem with hnone | ⟨-, hne⟩
    · exact ⟨hdue, by rw [hnone]; simp⟩
    · exact ⟨hdue, hne⟩
  · intro h
    obtain ⟨hsweep, hvisits⟩ := hgoes fun item hitem => Or.inr (h item hitem)
    have hcheck : checkSettingTable now s = (.returned, s) := hsweep
    refine ⟨by rw [hcheck], hvisits, fun item => ?_, fun item _ _ => by rw [hcheck]⟩
    rw [hcheck]
    exact ⟨fun hitem => ⟨hitem, (h item hitem).1⟩, And.left⟩

/-- One entry, due at 5, whose device has reported this status. -/
def reporting (st : SetStatus) : State Reading :=
  { start [] with
    answers := AnswerQueue.empty.newAnswer.addResult 0 (.setValue (some st))
    settingTable := [(⟨⟨0xa8⟩, 1⟩, ⟨.gatewayListen 0, 0, 5⟩)] }

theorem first_reporting {st : SetStatus} {item : DeviceID × SettingValueItem Reading}
    (h : item ∈ (reporting st).settingTable) : item.2.endTime = 5 ∧
      (reporting st).first item = some (.setValue (some st)) := by
  obtain rfl := List.mem_singleton.mp h
  exact ⟨rfl, rfl⟩

/-- Besides that entry, one of another device that is due at 9 and has no result yet. -/
def waiting (st : SetStatus) : State Reading :=
  { reporting st with
    answers := (reporting st).answers.newAnswer
    settingTable := (reporting st).settingTable ++ [(⟨⟨0xa8⟩, 2⟩, ⟨.gatewayListen 0, 1, 9⟩)] }

/-- At 5 both stay. -/
theorem reporting_stays : Swept (waiting .deviceTimeout) 5 := by
  have hitems : ∀ item ∈ (waiting .deviceTimeout).settingTable,
      item.2.endTime = 5 ∧ (waiting .deviceTimeout).first item = some (.setValue (some .deviceTimeout)) ∨
        item.2.endTime = 9 ∧ (waiting .deviceTimeout).first item = none := by
    intro item hitem
    rcases List.mem_pair.mp hitem with rfl | rfl
    · exact Or.inl ⟨rfl, rfl⟩
    · exact Or.inr ⟨rfl, rfl⟩
  refine (swept_iff _ _ fun item hitem p hp => ?_).mpr fun item hitem => ?_
  · rcases hitems item hitem with ⟨-, hfirst⟩ | ⟨-, hfirst⟩ <;> rw [hfirst] at hp
    · exact ⟨_, (Option.some.inj hp).symm⟩
    · cases hp
  · rcases hitems item hitem with ⟨hend, hfirst⟩ | ⟨hend, hfirst⟩ <;> rw [Due, hend, hfirst] <;> decide

/-- The loop goes on from the entry that it has erased. -/
theorem reporting_erased : ¬ ∀ (s : State Reading) (now : ℤ), (∀ item ∈ s.settingTable, ∀ p,
    s.first item = some p → ∃ st, p = .setValue st) → Swept s now := by
  intro h
  have hswept := h (reporting .deviceSuccess) 5 fun item hitem p hp => by
    rw [(first_reporting hitem).2] at hp
    exact ⟨_, (Option.some.inj hp).symm⟩
  exact absurd hswept.returned (by decide)

end Broker
end BeeeOn
