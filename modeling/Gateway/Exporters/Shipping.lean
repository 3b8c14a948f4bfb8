import Gateway.Exporters.NamedPipe
import Mathlib.Data.List.Infix

/-! @src exporters/NamedPipeExporter.cpp, core/Exporter.h | name:What is shipped and what is reported |
    family:error handling

    A `write` may take any part of what it is given. `writeAndClose` goes on behind that part until the
    message is written, so what the pipe has taken is always a beginning of the message, and all of it
    when `true` is returned (`message_delivered`).

    What `ship` returns is to tell the caller whether the record is done with: `true` if it is shipped
    or dropped for want of a reader, `false` if it cannot be shipped for the moment, an exception for
    anything else. A pipe that is full is not told apart from a broken one, so it raises; and an
    interrupt is taken for what `errno` is after it has been logged (`ship_promise_iff`). -/

namespace BeeeOn
open Schemes
namespace NamedPipeExporter
variable {V : Type}

/-- What the system answers to a `write`: it takes some of the bytes, or fails. -/
inductive Write where
  | took (n : ℕ)
  | interrupted
  /-- `EAGAIN`: the pipe is full -/
  | full
  | failed
  deriving DecidableEq, Repr

/-- What `writeAndClose` tells apart. -/
def Write.answer : Write → Except Errno ℕ
  | took n => .ok n
  | interrupted => .error .eintr
  | full | failed => .error .other

/-- What the pipe has taken, in the order of the writes: each is given what is left from `restLength`
    on. -/
def taken (msg : List UInt8) : ℕ → List Write → List UInt8
  | restLength, .took n :: writes =>
    (msg.drop restLength).take n ++
      if restLength + n < msg.length then taken msg (restLength + n) writes else []
  | _, _ => []

/-- The answers are possible ones: a write takes at least one byte and at most what it is given, or none
    of an empty message. -/
def Possible (total : ℕ) : ℕ → List Write → Prop
  | restLength, .took n :: writes => n ≤ total - restLength ∧ (n = 0 → total = 0) ∧
      (restLength + n < total → Possible total (restLength + n) writes)
  | _, _ => True

/-! ### Writing -/

section
variable {msg : List UInt8} {fd : ℤ} {total n : ℕ} {w : Write} {writes : List Write}

/-- How the call ends after `restLength` bytes. -/
def ended (fd : ℤ) (total restLength : ℕ) (writes : List Write) : Ended :=
  (writeAndClose fd total restLength (writes.map Write.answer)).2

theorem ended_took {k : ℕ} : ended fd total n (.took k :: writes) =
    if n + k < total then ended fd total (n + k) writes else .returned true := by
  simp only [ended, List.map_cons, Write.answer, writeAndClose]
  split_ifs <;> rfl

theorem taken_prefix (writes : List Write) : ∀ n, taken msg n writes <+: msg.drop n := by
  induction writes with
  | nil => intro n; exact List.nil_prefix
  | cons w writes ih =>
    intro n
    cases w with
    | took k =>
      rw [taken]
      split_ifs
      · obtain ⟨rest, hrest⟩ := ih (n + k)
        refine ⟨rest, ?_⟩
        rw [List.append_assoc, hrest, ← List.drop_drop, List.take_append_drop]
      · rw [List.append_nil]
        exact List.take_prefix _ _
    | interrupted | full | failed => exact List.nil_prefix

/-- What is still to be taken after a part is what the later writes are to take. -/
theorem taken_all_iff {k : ℕ} (hlt : n + k < msg.length) :
    taken msg n (.took k :: writes) = msg.drop n ↔ taken msg (n + k) writes = msg.drop (n + k) := by
  have hsplit : msg.drop n = (msg.drop n).take k ++ msg.drop (n + k) := by
    rw [← List.drop_drop, List.take_append_drop]
  rw [taken, if_pos hlt]
  constructor
  · intro h
    exact List.append_cancel_left (h.trans hsplit)
  · intro h
    rw [h, ← hsplit]

theorem taken_last {k : ℕ} (hge : ¬ n + k < msg.length) :
    taken msg n (.took k :: writes) = msg.drop n := by
  rw [taken, if_neg hge, List.append_nil]
  exact List.take_of_length_le (by rw [List.length_drop]; omega)

/-- Nothing taken is all of it only if nothing is left. -/
theorem drop_ne_nil (hn : n < msg.length) : [] ≠ msg.drop n := by
  intro h
  have hlen := congrArg List.length h
  simp only [List.length_nil, List.length_drop] at hlen
  omega

/-- How the call ends where something is left to write, or the message is empty: with `true` if all of
    that is taken, and unless the message is empty only then. -/
theorem ended_spec (fd : ℤ) (writes : List Write) (hn : n < msg.length ∨ msg.length = 0) :
    match ended fd msg.length n writes with
    | .returned true => taken msg n writes = msg.drop n
    | .returned false => taken msg n writes ≠ msg.drop n
    | .raised | .running => taken msg n writes = msg.drop n → msg.length = 0 := by
  have hnone : [] = msg.drop n → msg.length = 0 := fun h => by
    rcases hn with hn | hn
    · exact absurd h (drop_ne_nil hn)
    · exact hn
  induction writes generalizing n with
  | nil => exact hnone
  | cons w writes ih =>
    cases w with
    | took k =>
      rw [ended_took]
      split_ifs with hlt
      · simp only [ne_eq, taken_all_iff hlt]
        exact ih (Or.inl hlt) fun h => absurd h (drop_ne_nil hlt)
      · exact taken_last hlt
    | interrupted =>
      rcases hn with hn | hn
      · have hends : ended fd msg.length n (.interrupted :: writes) = .returned false := by
          simp [ended, Write.answer, writeAndClose, not_le.mpr hn]
        rw [hends]
        exact drop_ne_nil hn
      · have hends : ended fd msg.length n (.interrupted :: writes) = .returned true := by
          simp [ended, Write.answer, writeAndClose, hn]
        rw [hends, List.eq_nil_of_length_eq_zero hn, List.drop_nil]
        rfl
    | full | failed => exact hnone

theorem ended_true_iff (hn : n < msg.length ∨ msg.length = 0)
    (hends : ended fd msg.length n writes ≠ .running) : ended fd msg.length n writes = .returned true ↔
      taken msg n writes = msg.drop n ∧ ended fd msg.length n writes ≠ .raised := by
  have hspec := ended_spec fd writes hn
  rcases hended : ended fd msg.length n writes with ⟨_ | _⟩ | _ | _
  · rw [hended] at hspec
    exact iff_of_false (by simp) fun hall => hspec hall.1
  · rw [hended] at hspec
    exact iff_of_true rfl ⟨hspec, by simp⟩
  · exact iff_of_false (by simp) fun hall => hall.2 rfl
  · exact absurd hended hends

/-- The call has ended by the time that it could have written one byte after the other. -/
theorem ended_ne_running (hposs : Possible msg.length n writes) (hn : n ≤ msg.length)
    (hlen : msg.length - n ≤ writes.length) (hne : writes ≠ []) :
    ended fd msg.length n writes ≠ .running := by
  induction writes generalizing n with
  | nil => exact absurd rfl hne
  | cons w writes ih =>
    cases w with
    | took k =>
      obtain ⟨-, hpos, hrest⟩ := hposs
      rw [ended_took]
      split_ifs with hlt
      · have hk : k ≠ 0 := fun h => by
          have := hpos h
          omega
        rw [List.length_cons] at hlen
        refine ih (hrest hlt) hlt.le (by omega) ?_
        rintro rfl
        simp only [List.length_nil] at hlen
        omega
      · simp
    | interrupted | full | failed => simp [ended, Write.answer, writeAndClose]

/-- The write that makes the call return `false` has been interrupted. -/
theorem interrupted_of_false (hrun : ended fd total n writes = .running)
    (hend : ended fd total n (writes ++ [w]) = .returned false) : w = .interrupted := by
  induction writes generalizing n with
  | nil =>
    cases w with
    | took k =>
      rw [List.nil_append, ended_took] at hend
      split_ifs at hend <;> cases hend
    | interrupted => rfl
    | full | failed => cases hend
  | cons v writes ih =>
    cases v with
    | took k =>
      rw [List.cons_append, ended_took] at hend
      rw [ended_took] at hrun
      split_ifs at hend hrun
      exact ih hrun hend
    | interrupted | full | failed => cases hrun

/-- A call that goes on has had only parts taken. -/
theorem took_of_running (hrun : ended fd total n writes = .running) : ∀ v ∈ writes, ∃ k, v = .took k := by
  induction writes generalizing n with
  | nil => exact fun v hv => absurd hv List.not_mem_nil
  | cons v writes ih =>
    cases v with
    | took k =>
      rw [ended_took] at hrun
      split_ifs at hrun
      intro v hv
      rcases List.mem_cons.mp hv with rfl | hv
      · exact ⟨k, rfl⟩
      · exact ih hrun v hv
    | interrupted | full | failed => cases hrun

/-- The write that makes the call raise has failed with another error. -/
theorem raised_last_iff (hrun : ended fd total n writes = .running) :
    ended fd total n (writes ++ [w]) = .raised ↔ w = .full ∨ w = .failed := by
  induction writes generalizing n with
  | nil =>
    cases w with
    | took k =>
      rw [List.nil_append, ended_took]
      split_ifs <;> simp [ended, writeAndClose]
    | interrupted | full | failed => simp [ended, Write.answer, writeAndClose]
  | cons v writes ih =>
    cases v with
    | took k =>
      rw [List.cons_append, ended_took]
      rw [ended_took] at hrun
      split_ifs at hrun ⊢ with hlt
      exact ih hrun
    | interrupted | full | failed => cases hrun

/-- The first `m` answers. -/
def firsts (ws : ℕ → Write) (m : ℕ) : List Write := (List.range m).map ws

theorem firsts_succ (ws : ℕ → Write) (m : ℕ) : firsts ws (m + 1) = firsts ws m ++ [ws m] := by
  simp [firsts, List.range_succ]

theorem mem_firsts {ws : ℕ → Write} {m : ℕ} {v : Write} : v ∈ firsts ws m ↔ ∃ j < m, ws j = v := by
  simp [firsts]

/-- Before the call ends no write has failed, so it raises exactly if the last one has. -/
theorem raised_iff {ws : ℕ → Write} {m : ℕ} (hrun : ∀ j < m, ended fd total n (firsts ws j) = .running) :
    ended fd total n (firsts ws m) = .raised ↔ ∃ j < m, ws j = .full ∨ ws j = .failed := by
  cases m with
  | zero => exact iff_of_false (fun h => by cases h) fun ⟨_, hj, _⟩ => absurd hj (Nat.not_lt_zero _)
  | succ m =>
    have hbefore := hrun m (Nat.lt_succ_self m)
    rw [firsts_succ, raised_last_iff hbefore]
    refine ⟨fun h => ⟨m, Nat.lt_succ_self m, h⟩, ?_⟩
    rintro ⟨j, hj, h⟩
    rcases Nat.lt_succ_iff_lt_or_eq.mp hj with hlt | rfl
    · obtain ⟨k, hk⟩ := took_of_running hbefore (ws j) (mem_firsts.mpr ⟨j, hlt, rfl⟩)
      rw [hk] at h
      rcases h with h | h <;> cases h
    · exact h

/-- The call ends with the write before `m`, and what it returns tells what the pipe has taken: a
    beginning of the message. It returns `true` exactly if that is all of it and no write has failed with
    another error than an interrupt, and raises exactly if one has. -/
structure Delivered (fd : ℤ) (msg : List UInt8) (ws : ℕ → Write) (m : ℕ) : Prop where
  running : ∀ j < m, ended fd msg.length 0 (firsts ws j) = .running
  ends : ended fd msg.length 0 (firsts ws m) ≠ .running
  part : taken msg 0 (firsts ws m) <+: msg
  whole : ended fd msg.length 0 (firsts ws m) = .returned true ↔
    taken msg 0 (firsts ws m) = msg ∧ ¬ ∃ j < m, ws j = .full ∨ ws j = .failed
  raised : ended fd msg.length 0 (firsts ws m) = .raised ↔ ∃ j < m, ws j = .full ∨ ws j = .failed
  stopped : ended fd msg.length 0 (firsts ws m) = .returned false →
    ∃ k, m = k + 1 ∧ ws k = .interrupted

/-- For every message and every sequence of possible answers to its writes. -/
theorem message_delivered (msg : List UInt8) (fd : ℤ) (ws : ℕ → Write)
    (h : ∀ m, Possible msg.length 0 (firsts ws m)) : ∃ m, Delivered fd msg ws m := by
  have hexists : ∃ m, ended fd msg.length 0 (firsts ws m) ≠ .running := by
    refine ⟨msg.length + 1, ended_ne_running (h _) (Nat.zero_le _) ?_ ?_⟩
    · simp [firsts]
    · simp [firsts_succ]
  have hrunning : ∀ j < Nat.find hexists, ended fd msg.length 0 (firsts ws j) = .running :=
    fun j hj => not_not.mp (Nat.find_min hexists hj)
  refine ⟨Nat.find hexists, hrunning, Nat.find_spec hexists, taken_prefix _ 0, ?_, raised_iff hrunning, ?_⟩
  · have hiff := ended_true_iff (Nat.eq_zero_or_pos msg.length).symm (Nat.find_spec hexists)
    rwa [List.drop_zero, Ne, raised_iff hrunning] at hiff
  · intro hfalse
    cases hm : Nat.find hexists with
    | zero =>
      rw [hm] at hfalse
      cases hfalse
    | succ k =>
      rw [hm, firsts_succ] at hfalse
      exact ⟨k, rfl, interrupted_of_false (hrunning k (by omega)) hfalse⟩

/-- Two parts, and an interrupt. -/
theorem two_parts_delivered : ∃ m, Delivered 3 [1, 2, 3]
    (fun k => if k = 0 then .took 1 else .interrupted) m := by
  refine message_delivered _ _ _ fun m => ?_
  cases m with
  | zero => trivial
  | succ m =>
    rw [firsts, List.range_succ_eq_map]
    refine ⟨by decide, by decide, fun _ => ?_⟩
    cases m with
    | zero => trivial
    | succ m =>
      rw [List.range_succ_eq_map]
      trivial

/-- Of an empty message nothing is left, but a write that fails raises. -/
theorem empty_message_raises : ¬ ∀ (msg : List UInt8) (fd : ℤ) (ws : ℕ → Write),
    (∀ m, Possible msg.length 0 (firsts ws m)) → ∀ m, ended fd msg.length 0 (firsts ws m) ≠ .running →
      (ended fd msg.length 0 (firsts ws m) = .returned true ↔ taken msg 0 (firsts ws m) = msg) := by
  intro h
  have hposs : ∀ m, Possible 0 0 (firsts (fun _ => .failed) m) := by
    intro m
    cases m with
    | zero => trivial
    | succ m =>
      rw [firsts, List.range_succ_eq_map]
      trivial
  have hall := (h [] 3 (fun _ => .failed) hposs 1 (by decide)).mpr rfl
  cases hall

end

/-! ### What `ship` returns -/

section
variable {o : Outcomes} {fd : ℤ} {total n : ℕ} {v w : Write} {writes : List Write}

/-- The bytes that are written of a formatted record. -/
def bytes (msg : String) : List UInt8 := msg.toUTF8.data.toList

theorem length_bytes (msg : String) : (bytes msg).length = msg.utf8ByteSize := rfl

/-- `ship` where the writes are answered so. -/
def shipping (o : Outcomes) (writes : List Write) (format : SensorData V → Except Exn String)
    (data : SensorData V) : Ended :=
  (ship { o with writes := writes.map Write.answer } format data).2

/-- The first of the four attempts that does not find the pipe gone comes to this. -/
def Meets (o : Outcomes) (m : Met) : Prop := ∃ j < 4, Gone o 0 j ∧ attempt o (0 + j) = some m

/-- After `restLength` bytes, and after some parts of the message, a write is answered so. -/
def WriteMeets (total restLength : ℕ) (writes : List Write) (w : Write) : Prop :=
  ∃ (parts : List ℕ) (rest : List Write),
    writes = parts.map .took ++ w :: rest ∧ (parts ≠ [] → restLength + parts.sum < total)

/-- The record cannot be shipped for the moment: an interrupt, or a full pipe. -/
def Temporary (o : Outcomes) (writes : List Write) (format : SensorData V → Except Exn String)
    (data : SensorData V) : Prop :=
  Meets o .interrupted ∨ Opens o ∧ ∃ msg, format data = .ok msg ∧
    (WriteMeets msg.utf8ByteSize 0 writes .interrupted ∨ WriteMeets msg.utf8ByteSize 0 writes .full)

/-- Another error: the pipe cannot be made or opened, vanishes, is no FIFO, the record cannot be
    formatted, or a write fails. -/
def OtherError (o : Outcomes) (writes : List Write) (format : SensorData V → Except Exn String)
    (data : SensorData V) : Prop :=
  Meets o .failed ∨ Vanishes o ∨ (∃ fd, Meets o (.pipe fd)) ∧ (o.fstat ≠ some true ∨
    (∃ e, format data = .error e) ∨
      ∃ msg, format data = .ok msg ∧ WriteMeets msg.utf8ByteSize 0 writes .failed)

/-- What the caller may rely on. -/
structure KeepsPromise (o : Outcomes) (writes : List Write)
    (format : SensorData V → Except Exn String) (data : SensorData V) : Prop where
  shipped : shipping o writes format data = .returned true →
    Meets o .noReader ∨ Opens o ∧ ∃ msg, format data = .ok msg ∧ taken (bytes msg) 0 writes = bytes msg
  temporary : Temporary o writes format data → shipping o writes format data = .returned false
  raised : shipping o writes format data = .raised → OtherError o writes format data

theorem writeMeets_took {k : ℕ} (hw : ∀ k, w ≠ .took k) :
    WriteMeets total n (.took k :: writes) w ↔ n + k < total ∧ WriteMeets total (n + k) writes w := by
  constructor
  · rintro ⟨_ | ⟨k', parts⟩, rest, heq, hlt⟩
    · exact absurd (List.cons.inj heq).1.symm (hw k)
    · obtain ⟨hk, rfl⟩ := List.cons.inj heq
      obtain rfl := Write.took.inj hk
      have hsum := hlt (by simp)
      rw [List.sum_cons] at hsum
      exact ⟨by omega, parts, rest, rfl, fun _ => by omega⟩
  · rintro ⟨hk, parts, rest, rfl, hlt⟩
    refine ⟨k :: parts, rest, rfl, fun _ => ?_⟩
    rw [List.sum_cons]
    by_cases hparts : parts = []
    · rw [hparts, List.sum_nil]; omega
    · have hsum := hlt hparts; omega

theorem writeMeets_stop (hv : ∀ k, v ≠ .took k) : WriteMeets total n (v :: writes) w ↔ w = v := by
  constructor
  · rintro ⟨_ | ⟨k, parts⟩, rest, heq, -⟩
    · exact (List.cons.inj heq).1.symm
    · exact absurd (List.cons.inj heq).1 (hv k)
  · rintro rfl
    exact ⟨[], writes, rfl, fun hne => absurd rfl hne⟩

theorem not_writeMeets_nil : ¬ WriteMeets total n [] w := by
  rintro ⟨parts, rest, heq, -⟩
  simp at heq

/-- A full pipe is answered as a broken one: `writeAndClose` raises. -/
theorem ended_raised_iff (fd : ℤ) (total : ℕ) (writes : List Write) : ∀ n,
    ended fd total n writes = .raised ↔
      WriteMeets total n writes .full ∨ WriteMeets total n writes .failed := by
  induction writes with
  | nil =>
    intro n
    exact iff_of_false (by simp [ended, writeAndClose]) (by simp [not_writeMeets_nil])
  | cons w writes ih =>
    intro n
    cases w with
    | took k =>
      rw [ended_took, writeMeets_took (by simp), writeMeets_took (by simp)]
      split_ifs with hlt
      · simp [ih, hlt]
      · simp [hlt]
    | interrupted | full | failed =>
      simp [writeMeets_stop, ended, Write.answer, writeAndClose]

theorem ended_false_iff (fd : ℤ) (writes : List Write) (hn : n < total ∨ total = 0) :
    ended fd total n writes = .returned false ↔ WriteMeets total n writes .interrupted ∧ total ≠ 0 := by
  induction writes generalizing n with
  | nil => exact iff_of_false (by simp [ended, writeAndClose]) (by simp [not_writeMeets_nil])
  | cons w writes ih =>
    cases w with
    | took k =>
      rw [ended_took, writeMeets_took (by simp)]
      split_ifs with hlt
      · simp [ih (Or.inl hlt), hlt]
      · simp [hlt]
    | interrupted =>
      simp [writeMeets_stop, ended, Write.answer, writeAndClose]
      omega
    | full | failed => simp [writeMeets_stop, ended, Write.answer, writeAndClose]

end

section
variable {o : Outcomes} {writes : List Write} {format : SensorData V → Except Exn String}
  {data : SensorData V} {m m' : Met}

theorem Meets.unique (h : Meets o m) (h' : Meets o m') : m = m' := by
  obtain ⟨j, -, hgone, hm⟩ := h
  obtain ⟨j', -, hgone', hm'⟩ := h'
  have hle : ∀ {i i' : ℕ} {m : Met}, Gone o 0 i → attempt o (0 + i') = some m → i ≤ i' :=
    fun hg hi => not_lt.mp fun hlt => by
      rw [attempt_eq_none.mpr (hg _ hlt)] at hi
      cases hi
  obtain rfl := le_antisymm (hle hgone hm') (hle hgone' hm)
  exact Option.some.inj (hm.symm.trans hm')

theorem not_vanishes_of_meets (h : Meets o m) : ¬ Vanishes o := by
  obtain ⟨j, hj, -, hm⟩ := h
  intro hall
  rw [attempt_eq_none.mpr (vanishes_iff.mp hall j hj)] at hm
  cases hm

theorem opens_iff_meets : Opens o ↔ (∃ fd, Meets o (.pipe fd)) ∧ o.fstat = some true := by
  rw [opens_iff]
  refine and_congr_left' ⟨?_, ?_⟩
  · rintro ⟨j, hj, hgone, fd, hopen⟩
    exact ⟨fd, j, by omega, hgone, attempt_eq_pipe.mpr hopen⟩
  · rintro ⟨fd, j, hj, hgone, hm⟩
    exact ⟨j, by omega, hgone, fd, attempt_eq_pipe.mp hm⟩

theorem meets_or_vanishes (o : Outcomes) :
    (∃ m left, Meets o m ∧ openLoop o 0 ATTEMPTS_CREATE_PIPE = m.leaves o left) ∨
      Vanishes o ∧ openLoop o 0 ATTEMPTS_CREATE_PIPE = ([], .done (-1) (BitVec.allOnes 32)) := by
  rcases openLoop_meets 3 0 ATTEMPTS_CREATE_PIPE rfl with
    ⟨j, hj, hgone, m, left, hm, heq⟩ | ⟨hgone, heq⟩
  · exact Or.inl ⟨m, left, ⟨j, by omega, hgone, hm⟩, heq⟩
  · exact Or.inr ⟨vanishes_iff.mpr hgone, heq⟩

/-- What `ship` returns after the first attempt that does not find the pipe gone. -/
def Met.outcome (o : Outcomes) (writes : List Write) (format : SensorData V → Except Exn String)
    (data : SensorData V) : Met → Ended
  | pipe fd =>
    if o.fstat = some true then
      match format data with
      | .error _ => .raised
      | .ok msg => ended fd msg.utf8ByteSize 0 writes
    else .raised
  | noReader => .returned true
  | interrupted =>
    if o.noticed = .enxio then .returned true
    else if o.noticed = .eintr then .returned false
    else .raised
  | failed => .raised

theorem ship_meets (o : Outcomes) (hwrites : o.writes = writes.map Write.answer) :
    (∃ m, Meets o m ∧ (ship o format data).2 = m.outcome o writes format data) ∨
      Vanishes o ∧ (ship o format data).2 = .raised := by
  have hneg : (-1 : ℤ) < 0 := by decide
  rcases meets_or_vanishes o with ⟨m, left, hm, hloop⟩ | ⟨hall, hloop⟩
  · refine Or.inl ⟨m, hm, ?_⟩
    cases m with
    | pipe fd =>
      have hfd : ¬ (fd : ℤ) < 0 := by omega
      rcases hstat : o.fstat with _ | _ | _
      · simp [ship, openPipe, hloop, Met.leaves, Met.outcome, hstat, hfd]
      · simp [ship, openPipe, hloop, Met.leaves, Met.outcome, hstat, hfd]
      · simp only [ship, openPipe, hloop, Met.leaves, Met.outcome, hstat, hfd, false_and, if_false,
          if_true]
        cases format data with
        | error e => rfl
        | ok msg =>
          rw [hwrites]
          dsimp only [ended]
          split_ifs with hw
          · exact hw.symm
          · rfl
    | noReader => simp [ship, openPipe, hloop, Met.leaves, Met.outcome]
    | interrupted =>
      simp only [ship, openPipe, hloop, Met.leaves, Met.outcome, hneg, true_and, if_true]
      split_ifs <;> rfl
    | failed => simp [ship, openPipe, hloop, Met.leaves, Met.outcome]
  · refine Or.inr ⟨hall, ?_⟩
    rcases hstat : o.fstat with _ | _ | _ <;> simp [ship, openPipe, hloop, hstat]

theorem shipping_meets (o : Outcomes) (writes : List Write) (format : SensorData V → Except Exn String)
    (data : SensorData V) :
    (∃ m, Meets o m ∧ shipping o writes format data = m.outcome o writes format data) ∨
      Vanishes o ∧ shipping o writes format data = .raised :=
  ship_meets { o with writes := writes.map Write.answer } rfl

theorem Meets.eq_iff (h : Meets o m) : Meets o m' ↔ m' = m :=
  ⟨fun h' => h'.unique h, fun heq => heq ▸ h⟩

/-- A record is formatted and its writes are answered so: what is returned keeps the promise unless
    the pipe is full, or an empty message is interrupted. -/
theorem written_iff {fd : ℕ} {msg : String} (h : Meets o (.pipe fd)) (hstat : o.fstat = some true)
    (hformat : format data = .ok msg)
    (hship : shipping o writes format data = ended fd msg.utf8ByteSize 0 writes) :
    KeepsPromise o writes format data ↔ ¬ WriteMeets msg.utf8ByteSize 0 writes .full ∧
      (msg.utf8ByteSize = 0 → ¬ WriteMeets msg.utf8ByteSize 0 writes .interrupted) := by
  have hopens : Opens o := opens_iff_meets.mpr ⟨⟨fd, h⟩, hstat⟩
  have hzero : 0 < msg.utf8ByteSize ∨ msg.utf8ByteSize = 0 := (Nat.eq_zero_or_pos _).symm
  have hfalse := ended_false_iff fd writes hzero
  have hraised := ended_raised_iff fd msg.utf8ByteSize writes 0
  have htemporary : Temporary o writes format data ↔
      WriteMeets msg.utf8ByteSize 0 writes .interrupted ∨
        WriteMeets msg.utf8ByteSize 0 writes .full := by
    simp [Temporary, h.eq_iff, hopens, hformat]
  have hother : OtherError o writes format data ↔ WriteMeets msg.utf8ByteSize 0 writes .failed := by
    simp [OtherError, h.eq_iff, not_vanishes_of_meets h, hstat, hformat]
  constructor
  · intro hkeeps
    refine ⟨fun hfull => ?_, fun hempty hint => ?_⟩
    · have hreturned := hkeeps.temporary (htemporary.mpr (Or.inr hfull))
      rw [hship, hraised.mpr (Or.inl hfull)] at hreturned
      cases hreturned
    · have hreturned := hkeeps.temporary (htemporary.mpr (Or.inl hint))
      rw [hship] at hreturned
      exact (hfalse.mp hreturned).2 hempty
  · rintro ⟨hfull, hempty⟩
    refine ⟨fun htrue => ?_, fun htemp => ?_, fun hraise => ?_⟩
    · rw [hship] at htrue
      have hends : ended fd (bytes msg).length 0 writes ≠ .running := by
        rw [length_bytes, htrue]
        simp
      have htaken := ((ended_true_iff hzero hends).mp htrue).1
      exact Or.inr ⟨hopens, msg, hformat, htaken⟩
    · have hint := (htemporary.mp htemp).resolve_right hfull
      rw [hship]
      exact hfalse.mpr ⟨hint, fun h0 => hempty h0 hint⟩
    · rw [hship] at hraise
      exact hother.mpr ((hraised.mp hraise).resolve_left hfull)

/-- An exception for another error keeps the promise. -/
theorem keeps_of_raised (hship : shipping o writes format data = .raised)
    (hno : ¬ Temporary o writes format data) (hother : OtherError o writes format data) :
    KeepsPromise o writes format data := by
  refine ⟨fun htrue => ?_, fun htemp => absurd htemp hno, fun _ => hother⟩
  rw [hship] at htrue
  cases htrue

/-- For every sequence of answers: what `ship` returns keeps the promise exactly if an interrupt of the
    open is still in `errno` when it is asked for, and no write finds the pipe full or an empty message
    interrupted. -/
theorem ship_promise_iff (o : Outcomes) (writes : List Write)
    (format : SensorData V → Except Exn String) (data : SensorData V) :
    KeepsPromise o writes format data ↔
      (Meets o .interrupted → o.noticed = .eintr) ∧
        ∀ msg, Opens o → format data = .ok msg → ¬ WriteMeets msg.utf8ByteSize 0 writes .full ∧
          (msg.utf8ByteSize = 0 → ¬ WriteMeets msg.utf8ByteSize 0 writes .interrupted) := by
  rcases shipping_meets o writes format data with ⟨m, hm, hship⟩ | ⟨hall, hship⟩
  · have hopens : Opens o ↔ (∃ fd, m = .pipe fd) ∧ o.fstat = some true := by
      simp only [opens_iff_meets, hm.eq_iff, eq_comm]
    cases m with
    | pipe fd =>
      by_cases hstat : o.fstat = some true
      · rw [Met.outcome, if_pos hstat] at hship
        rcases hformat : format data with e | msg
        · rw [hformat] at hship
          have hno : ¬ Temporary o writes format data := by simp [Temporary, hm.eq_iff, hformat]
          have hother : OtherError o writes format data :=
            Or.inr (Or.inr ⟨⟨fd, hm⟩, Or.inr (Or.inl ⟨e, hformat⟩)⟩)
          exact iff_of_true (keeps_of_raised hship hno hother) ⟨by simp [hm.eq_iff], by simp⟩
        · rw [hformat] at hship
          rw [written_iff hm hstat hformat hship]
          simp [hm.eq_iff, hopens, hstat]
      · rw [Met.outcome, if_neg hstat] at hship
        have hno : ¬ Temporary o writes format data := by simp [Temporary, hm.eq_iff, hopens, hstat]
        have hother : OtherError o writes format data := Or.inr (Or.inr ⟨⟨fd, hm⟩, Or.inl hstat⟩)
        exact iff_of_true (keeps_of_raised hship hno hother)
          ⟨by simp [hm.eq_iff], by simp [hopens, hstat]⟩
    | noReader =>
      refine iff_of_true ⟨fun _ => Or.inl hm, ?_, ?_⟩ ⟨?_, ?_⟩
      · simp [Temporary, hm.eq_iff, hopens]
      · rw [hship]; simp [Met.outcome]
      · simp [hm.eq_iff]
      · simp [hopens]
    | interrupted =>
      constructor
      · intro hkeeps
        have hreturned := hkeeps.temporary (Or.inl hm)
        refine ⟨fun _ => ?_, by simp [hopens]⟩
        by_contra hne
        rw [hship, Met.outcome, if_neg hne] at hreturned
        split_ifs at hreturned
        cases hreturned
      · rintro ⟨hnoticed, -⟩
        have hreturned : shipping o writes format data = .returned false := by
          rw [hship, Met.outcome, hnoticed hm]
          rfl
        exact ⟨by simp [hreturned], fun _ => hreturned, by simp [hreturned]⟩
    | failed =>
      have hno : ¬ Temporary o writes format data := by simp [Temporary, hm.eq_iff, hopens]
      exact iff_of_true (keeps_of_raised hship hno (Or.inl hm)) ⟨by simp [hm.eq_iff], by simp [hopens]⟩
  · have hno : ∀ m, ¬ Meets o m := fun m hm => not_vanishes_of_meets hm hall
    have hopens : ¬ Opens o := fun h => by
      obtain ⟨⟨fd, hfd⟩, -⟩ := opens_iff_meets.mp h
      exact hno _ hfd
    have htemp : ¬ Temporary o writes format data := by simp [Temporary, hno, hopens]
    exact iff_of_true (keeps_of_raised hship htemp (Or.inr (Or.inl hall)))
      ⟨by simp [hno], by simp [hopens]⟩

/-- A pipe that has a reader and is full. -/
def full : Outcomes := ⟨fun _ => .ok 3, fun _ => true, .other, some true, []⟩

/-- The write into a full pipe raises; the record cannot be shipped for the moment. -/
theorem full_pipe_raises : ¬ ∀ (o : Outcomes) (writes : List Write)
    (format : SensorData ℕ → Except Exn String) (data : SensorData ℕ),
    KeepsPromise o writes format data := by
  intro h
  have hmeets : Meets full (.pipe 3) := ⟨0, by decide, gone_zero 0, rfl⟩
  have hreturned := (h full [.full] (fun _ => .ok "1") ⟨⟨⟨0⟩, 0⟩, []⟩).temporary
    (Or.inr ⟨opens_iff_meets.mpr ⟨⟨3, hmeets⟩, rfl⟩, "1", rfl,
      Or.inr ((writeMeets_stop (by simp)).mpr rfl)⟩)
  rcases shipping_meets full [.full] (fun _ => .ok "1") (⟨⟨⟨0⟩, 0⟩, []⟩ : SensorData ℕ) with
    ⟨m, hm, hship⟩ | ⟨-, hship⟩
  · obtain rfl := hm.unique hmeets
    rw [hreturned] at hship
    cases hship
  · rw [hreturned] at hship
    cases hship

end
end NamedPipeExporter
end BeeeOn
