import Gateway.Schemes.Lts
import Gateway.Model.Ids
import Mathlib.Tactic.SplitIfs

/-! @src jablotron/JablotronDeviceManager.cpp, z-wave/ZWaveDeviceManager.cpp | name:Listening windows |
    family:state

    A listen command opens a window in which data of unpaired devices is forwarded: `startListen` sets
    `m_listen` and starts a timer whose expiry calls `stopListen`. The two managers do the same here
    (the Z-Wave one also tells its controller, which returns nothing). The flag is set before the timer
    is started, and a `Poco::Timer` that has expired still holds its callback, so it does not start a
    second time: the second command raises and leaves the flag set for good. -/

namespace BeeeOn
open Schemes

/-- `Poco::Timer` with a periodic interval of zero: `callback` is whether it holds a callback, which
    only `stop` and `restart` clear, `pending` whether its expiry is still to come. -/
structure Timer where
  startInterval : ℤ
  callback : Bool
  pending : Bool
  deriving DecidableEq, Repr

namespace Timer

def new (startInterval : ℤ) : Timer := ⟨startInterval, false, false⟩

/-- `setStartInterval`; `takes` are the intervals it does not raise for. -/
def setStartInterval (takes : ℤ → Bool) (t : Timer) (milliseconds : ℤ) : Except Exn Timer :=
  if takes milliseconds then .ok { t with startInterval := milliseconds } else .error .other

/-- `start`: an `IllegalStateException` if there is a callback. -/
def start (t : Timer) : Except Exn Timer :=
  if t.callback then .error .other else .ok { t with callback := true, pending := true }

/-- The expiry, which calls the callback once. -/
def expire (t : Timer) : Option Timer := if t.pending then some { t with pending := false } else none

end Timer

/-- `Timespan::totalMilliseconds`. -/
def totalMilliseconds (span : ℤ) : ℤ := span.tdiv 1000

/-- `listen` is `m_listen`, `timer` is `m_deferAfter` or `m_derefListen`, `raised` the exceptions of
    listen commands so far. -/
structure Window where
  listen : Bool
  timer : Timer
  raised : List Exn
  deriving DecidableEq, Repr

namespace Window

/-- As the constructors of both managers leave it. -/
def closed : Window := ⟨false, .new 1000, []⟩

/-- `startListen`. -/
def startListen (w : Window) : Window :=
  match w.timer.start with
  | .ok t => { w with listen := true, timer := t }
  | .error e => { w with listen := true, raised := w.raised ++ [e] }

/-- `doListenCommand` once the command has been read. -/
def doListenCommand (takes : ℤ → Bool) (duration : ℤ) (w : Window) : Window :=
  match w.timer.setStartInterval takes (totalMilliseconds duration) with
  | .ok t => startListen { w with timer := t }
  | .error e => { w with raised := w.raised ++ [e] }

/-- The expiry of the timer, which calls `stopListen`; the request that follows is a step of its own. -/
def stopListen (w : Window) : Option Window :=
  w.timer.expire.map fun t => { w with listen := false, timer := t }

inductive Op where
  | listen (duration : ℤ)
  | expire
  deriving DecidableEq, Repr

/-- A manager under listen commands and expiries. -/
def system (takes : ℤ → Bool) : Lts Window Op where
  step w
    | .listen duration => some (doListenCommand takes duration w)
    | .expire => stopListen w

def Op.duration : Op → Option ℤ
  | .listen duration => some duration
  | .expire => none

/-- The durations of the listen commands of a run. -/
def durations (ls : List Op) : List ℤ := ls.filterMap Op.duration

/-- No listen command has raised, and the manager listens only while an expiry is pending. -/
def Ends (w : Window) : Prop := w.raised = [] ∧ (w.listen = true → w.timer.pending = true)

/-- At most one listen command, with a duration that the timer takes. -/
def Once (takes : ℤ → Bool) (ls : List Op) : Prop :=
  (durations ls).length ≤ 1 ∧ ∀ d ∈ durations ls, takes (totalMilliseconds d) = true

variable {takes : ℤ → Bool} {w : Window} {d : ℤ} {ls : List Op}

/-! ### One command -/

/-- A command of a duration that the timer takes, while the timer has no callback. -/
theorem doListenCommand_first (hd : takes (totalMilliseconds d) = true)
    (hc : w.timer.callback = false) :
    doListenCommand takes d w = ⟨true, ⟨totalMilliseconds d, true, true⟩, w.raised⟩ := by
  simp [doListenCommand, Timer.setStartInterval, hd, startListen, Timer.start, hc]

/-- Any other command raises. -/
theorem doListenCommand_raises (h : ¬ (takes (totalMilliseconds d) = true ∧ w.timer.callback = false)) :
    (doListenCommand takes d w).raised = w.raised ++ [.other] := by
  rw [doListenCommand, Timer.setStartInterval]
  split_ifs with hd
  · have hc : w.timer.callback = true := by simpa [hd] using h
    simp [startListen, Timer.start, hc]
  · rfl

theorem stopListen_eq {u : Window} (h : stopListen w = some u) :
    w.timer.pending = true ∧
      u = ⟨false, ⟨w.timer.startInterval, w.timer.callback, false⟩, w.raised⟩ := by
  obtain ⟨t, ht, rfl⟩ := Option.map_eq_some_iff.mp h
  rw [Timer.expire] at ht
  split_ifs at ht with hp
  exact ⟨hp, by rw [← Option.some.inj ht]⟩

/-! ### Runs -/

@[simp] theorem durations_listen : durations (ls ++ [.listen d]) = durations ls ++ [d] := by
  simp [durations, Op.duration]

@[simp] theorem durations_expire : durations (ls ++ [.expire]) = durations ls := by
  simp [durations, Op.duration]

theorem once_listen : Once takes (ls ++ [.listen d]) ↔
    durations ls = [] ∧ takes (totalMilliseconds d) = true := by
  rw [Once, durations_listen]
  constructor
  · rintro ⟨hlen, hall⟩
    have hnil : durations ls = [] := by simpa using hlen
    exact ⟨hnil, hall d (by simp)⟩
  · rintro ⟨hnil, hd⟩
    simp [hnil, hd]

/-- The window ends, and its timer has a callback once there has been a listen command. -/
structure Sound (ls : List Op) (w : Window) : Prop where
  ends : w.Ends
  callback : w.timer.callback = true ↔ durations ls ≠ []

theorem sound_listen (h : Sound ls w) (hd : takes (totalMilliseconds d) = true)
    (hnil : durations ls = []) : Sound (ls ++ [.listen d]) (doListenCommand takes d w) := by
  have hc : w.timer.callback = false := by
    rw [← Bool.not_eq_true, h.callback, not_not]
    exact hnil
  rw [doListenCommand_first hd hc]
  exact ⟨⟨h.ends.1, fun _ => rfl⟩, by simp⟩

theorem sound_expire {u : Window} (h : Sound ls w) (hu : stopListen w = some u) :
    Sound (ls ++ [.expire]) u := by
  obtain ⟨-, rfl⟩ := stopListen_eq hu
  exact ⟨⟨h.ends.1, nofun⟩, by rw [durations_expire]; exact h.callback⟩

theorem Once.left {as bs : List Op} (h : Once takes (as ++ bs)) : Once takes as := by
  obtain ⟨hlen, hall⟩ := h
  rw [durations, List.filterMap_append] at hlen hall
  rw [List.length_append] at hlen
  exact ⟨le_trans (Nat.le_add_right _ _) hlen, fun d hd => hall d (List.mem_append_left _ hd)⟩

/-- A window stays sound as long as there is at most one command. -/
theorem sound_step {l : Op} {u : Window} (h : Sound ls w) (hu : (system takes).step w l = some u)
    (hone : Once takes (ls ++ [l])) : Sound (ls ++ [l]) u := by
  cases l with
  | listen d =>
    obtain rfl : doListenCommand takes d w = u := Option.some.inj hu
    obtain ⟨hnil, hd⟩ := once_listen.mp hone
    exact sound_listen h hd hnil
  | expire => exact sound_expire h hu

theorem sound_closed : Sound [] closed :=
  ⟨⟨rfl, nofun⟩, by simp [closed, Timer.new, durations]⟩

/-- A window with at most one command is sound at the end of every run. -/
theorem sound_run {u : Window} (hu : (system takes).run closed ls = some u) (h : Once takes ls) :
    Sound ls u := by
  refine (system takes).run_hist (P := fun ls u => Once takes ls → Sound ls u) ?_ ?_ hu h
  · intro _
    exact sound_closed
  · intro ls t l u _ ih hu hone
    exact sound_step (ih hone.left) hu hone

/-- A further command, or one of a duration that the timer does not take, raises. -/
theorem once_of_ends {l : Op} {u : Window} (h : Sound ls w) (hone : Once takes ls)
    (hu : (system takes).step w l = some u) (hends : u.Ends) : Once takes (ls ++ [l]) := by
  cases l with
  | listen d =>
    obtain rfl : doListenCommand takes d w = u := Option.some.inj hu
    rw [once_listen]
    by_contra hno
    have hraises : ¬ (takes (totalMilliseconds d) = true ∧ w.timer.callback = false) := by
      rintro ⟨hd, hc⟩
      rw [← Bool.not_eq_true, h.callback, not_not] at hc
      exact hno ⟨hc, hd⟩
    have hraised := hends.1
    rw [doListenCommand_raises hraises] at hraised
    simp at hraised
  | expire => rw [Once, durations_expire]; exact hone

/-- Every state of a run is one in which the listening ends, without an exception before it, exactly if
    the run has at most one listen command, of a duration that the timer takes. -/
theorem listening_ends_iff {u : Window} (h : (system takes).run closed ls = some u) :
    (∀ as bs t, ls = as ++ bs → (system takes).run closed as = some t → t.Ends) ↔ Once takes ls := by
  have hnil : Once takes [] := ⟨by simp [durations], by simp [durations]⟩
  have hiff := (system takes).run_states_iff (P := fun ls w => Sound ls w ∧ Once takes ls)
    (Q := fun _ w => w.Ends) (C := fun ls _ l => Once takes (ls ++ [l])) ⟨sound_closed, hnil⟩
    (fun _ _ hs => hs.1.ends) ?_ ?_ h
  · rw [hiff]
    constructor
    · intro hall
      rcases List.eq_nil_or_concat ls with rfl | ⟨as, l, rfl⟩
      · exact hnil
      · obtain ⟨t, ht, -⟩ := ((system takes).run_concat_iff).mp (List.concat_eq_append ▸ h)
        rw [List.concat_eq_append] at hall ⊢
        exact hall as l [] t rfl ht
    · rintro hone pre l post t rfl -
      have happ : Once takes (pre ++ [l] ++ post) := by simpa using hone
      exact happ.left
  · rintro ls t l v ⟨hsound, hone⟩ hv hends
    exact once_of_ends hsound hone hv hends
  · rintro ls t l v ⟨hsound, -⟩ hv hone
    exact ⟨sound_step hsound hv hone, hone⟩

/-- One window of five seconds, which ends. -/
theorem one_window_ends :
    (system fun _ => true).run closed [.listen 5000000, .expire] =
      some ⟨false, ⟨5000, true, false⟩, []⟩ ∧
    ∀ as bs t, [Op.listen 5000000, .expire] = as ++ bs →
      (system fun _ => true).run closed as = some t → t.Ends :=
  ⟨rfl, (listening_ends_iff rfl).mpr ⟨by decide, by simp⟩⟩

/-- A second command after the first window: it raises, and the manager listens for good. -/
theorem second_window_stays : ¬ ∀ (ls : List Op) (u : Window),
    (system fun _ => true).run closed ls = some u → u.Ends := by
  intro h
  have hends := h [.listen 5000000, .expire, .listen 5000000] _ rfl
  exact absurd hends.1 (by decide)

end Window
end BeeeOn
