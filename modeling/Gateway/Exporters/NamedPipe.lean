import Gateway.Schemes.Descriptors
import Gateway.Model.Base

/-! @src exporters/NamedPipeExporter.cpp | name:Shipping into a named pipe | family:resources

    `ship` opens the pipe, makes it if there is none, writes one formatted record and closes. What the
    system answers is an input: the opens one after the other, the checks of the file, the writes.

    Two ways lead outside the rules for descriptors. `openPipe` counts its attempts down after the
    fourth failure too, from zero to the largest number, so that its test for zero attempts fails and it
    goes on with the descriptor -1. And `writeAndClose` closes before it throws, into a handler in
    `ship` that closes again. -/

namespace BeeeOn
open Schemes
namespace NamedPipeExporter
variable {V : Type}

/-- The values of `errno` that are told apart. -/
inductive Errno where
  | enoent | enxio | eintr | other
  deriving DecidableEq, Repr

/-- What the system answers in one call of `ship`. -/
structure Outcomes where
  /-- the open of each attempt -/
  opens : ℕ → Except Errno ℕ
  /-- whether `mkfifo` succeeds after it -/
  mkfifos : ℕ → Bool
  /-- `errno` after the notice about an interrupt has been logged -/
  noticed : Errno
  /-- none if `fstat` fails, else whether the file is a FIFO -/
  fstat : Option Bool
  writes : List (Except Errno ℕ)

/-- How a call ends; it is still running if the system has not answered its last write yet. -/
inductive Ended where
  | returned (b : Bool)
  | raised
  | running
  deriving DecidableEq, Repr

/-- How the loop of `openPipe` is left: by a `return`, at its end, or by an exception. -/
inductive Looped where
  | returned (errno : Errno)
  | done (fd : ℤ) (attempts : BitVec 32)
  | raised
  deriving DecidableEq, Repr

def ATTEMPTS_CREATE_PIPE : BitVec 32 := 3

variable (o : Outcomes)

/-- The loop of `openPipe` from the open `k` on; after an open that has failed the condition takes one
    off `attempts`, whether or not it goes on. -/
def openLoop (k : ℕ) (attempts : BitVec 32) : List DescriptorOp × Looped :=
  match o.opens k with
  | .ok fd => ([.opened fd], .done fd attempts)
  | .error .enoent =>
    if o.mkfifos k then
      if 0 < attempts then openLoop (k + 1) (attempts - 1)
      else ([], .done (-1) (attempts - 1))
    else ([], .raised)
  | .error .enxio => ([], .returned .enxio)
  | .error .eintr => ([], .returned o.noticed)
  | .error .other => ([], .raised)
termination_by attempts.toNat
decreasing_by
  have hlt : 0 < attempts.toNat := by simpa [BitVec.lt_def] using ‹0 < attempts›
  bv_omega

/-- `openPipe`: the descriptor with the `errno` that goes with it, or an exception. -/
def openPipe : List DescriptorOp × Option (ℤ × Errno) :=
  let loop := openLoop o 0 ATTEMPTS_CREATE_PIPE
  match loop.2 with
  | .returned errno => (loop.1, some (-1, errno))
  | .raised => (loop.1, none)
  | .done fd attempts =>
    if fd < 0 ∧ attempts = 0 then (loop.1, none)
    else match o.fstat with
      | some true => (loop.1 ++ [.used fd], some (fd, .enoent))
      | some false | none => (loop.1 ++ [.used fd, .closed fd], none)

/-- `writeAndClose`, with the bytes that are written so far. -/
def writeAndClose (fd : ℤ) (totalLength : ℕ) : ℕ → List (Except Errno ℕ) → List DescriptorOp × Ended
  | _, [] => ([.used fd], .running)
  | restLength, .ok writtenLength :: rest =>
    if restLength + writtenLength < totalLength then
      let more := writeAndClose fd totalLength (restLength + writtenLength) rest
      (.used fd :: more.1, more.2)
    else ([.used fd, .closed fd], .returned true)
  | restLength, .error .eintr :: _ =>
    ([.used fd, .closed fd], .returned (totalLength ≤ restLength))
  | _, .error _ :: _ => ([.used fd, .closed fd], .raised)

/-- `ship`; where no pipe is open and `errno` is none of the two, an assertion raises. -/
def ship (format : SensorData V → Except Exn String) (data : SensorData V) :
    List DescriptorOp × Ended :=
  let pipe := openPipe o
  match pipe.2 with
  | none => (pipe.1, .raised)
  | some (fd, errno) =>
    if fd < 0 ∧ errno = .enxio then (pipe.1, .returned true)
    else if fd < 0 ∧ errno = .eintr then (pipe.1, .returned false)
    else if fd < 0 then (pipe.1, .raised)
    else match format data with
      | .error _ => (pipe.1 ++ [.closed fd], .raised)
      | .ok msg =>
        let written := writeAndClose fd msg.utf8ByteSize 0 o.writes
        if written.2 = .raised then (pipe.1 ++ written.1 ++ [.closed fd], .raised)
        else (pipe.1 ++ written.1, written.2)

/-! ### The rules for descriptors -/

/-- Only what is open is used and closed, and when the call has ended nothing is left open: each
    descriptor has been closed exactly once. -/
def Disciplined (call : List DescriptorOp × Ended) : Prop :=
  ∃ s, descriptors.run ∅ call.1 = some s ∧ (call.2 ≠ .running → s = ∅)

/-- The pipe is gone at every attempt, each time after `mkfifo` has made it. -/
def Vanishes : Prop := ∀ k < 4, o.opens k = .error .enoent ∧ o.mkfifos k = true

/-- One of the four attempts opens a FIFO. -/
def Opens : Prop :=
  (∃ k < 4, (∀ j < k, o.opens j = .error .enoent ∧ o.mkfifos j = true) ∧ ∃ fd, o.opens k = .ok fd) ∧
    o.fstat = some true

/-- After `restLength` bytes the first write that is not a part of the message fails, and not for an
    interrupt. -/
def WriteFails (totalLength restLength : ℕ) (writes : List (Except Errno ℕ)) : Prop :=
  ∃ (parts : List ℕ) (errno : Errno) (rest : List (Except Errno ℕ)),
    writes = parts.map .ok ++ .error errno :: rest ∧ errno ≠ .eintr ∧
      (parts ≠ [] → restLength + parts.sum < totalLength)

/-! ### Opening -/

variable {o}

/-- From the open `k` on, the pipe is gone at `j` attempts and is made again. -/
def Gone (o : Outcomes) (k j : ℕ) : Prop :=
  ∀ i < j, o.opens (k + i) = .error .enoent ∧ o.mkfifos (k + i) = true

theorem gone_succ {k j : ℕ} (h : o.opens k = .error .enoent) (hmk : o.mkfifos k = true) :
    Gone o k (j + 1) ↔ Gone o (k + 1) j := by
  constructor
  · intro hg i hi
    have hnext := hg (i + 1) (by omega)
    rwa [show k + (i + 1) = k + 1 + i by omega] at hnext
  · intro hg i hi
    cases i with
    | zero => exact ⟨h, hmk⟩
    | succ i =>
      rw [show k + (i + 1) = k + 1 + i by omega]
      exact hg i (by omega)

/-- What the loop comes to from the open `k` on, with `n` attempts left: an attempt opens the pipe, all
    of them find it gone, or one meets something else. -/
inductive LoopEnds (o : Outcomes) (k n : ℕ) : List DescriptorOp × Looped → Prop
  | opened (fd j : ℕ) (left : BitVec 32) (hj : j ≤ n) (hgone : Gone o k j)
      (hopen : o.opens (k + j) = .ok fd) : LoopEnds o k n ([.opened fd], .done fd left)
  | gone (h : Gone o k (n + 1)) : LoopEnds o k n ([], .done (-1) (BitVec.allOnes 32))
  | other (l : Looped) (hl : ∀ fd left, l ≠ .done fd left) (j : ℕ) (hj : j ≤ n) (hgone : Gone o k j)
      (hno : ¬ Gone o k (j + 1)) (hopen : ∀ fd, o.opens (k + j) ≠ .ok fd) : LoopEnds o k n ([], l)

theorem gone_zero (k : ℕ) : Gone o k 0 := fun i hi => absurd hi (Nat.not_lt_zero i)

/-- What an attempt comes to that does not find the pipe gone. -/
inductive Met where
  | pipe (fd : ℕ)
  | noReader
  | interrupted
  /-- the pipe is gone and cannot be made, or cannot be opened -/
  | failed
  deriving DecidableEq, Repr

/-- The attempt `k`, if it does not find the pipe gone. -/
def attempt (o : Outcomes) (k : ℕ) : Option Met :=
  match o.opens k with
  | .ok fd => some (.pipe fd)
  | .error .enoent => if o.mkfifos k then none else some .failed
  | .error .enxio => some .noReader
  | .error .eintr => some .interrupted
  | .error .other => some .failed

theorem attempt_eq_none {k : ℕ} :
    attempt o k = none ↔ o.opens k = .error .enoent ∧ o.mkfifos k = true := by
  unfold attempt
  rcases o.opens k with errno | fd
  · cases errno <;> simp
  · simp

theorem attempt_eq_pipe {k fd : ℕ} : attempt o k = some (.pipe fd) ↔ o.opens k = .ok fd := by
  unfold attempt
  rcases o.opens k with errno | fd'
  · cases errno with
    | enoent => cases o.mkfifos k <;> simp
    | enxio | eintr | other => simp
  · simp

/-- How the loop is left after such an attempt. -/
def Met.leaves (o : Outcomes) (left : BitVec 32) : Met → List DescriptorOp × Looped
  | pipe fd => ([.opened fd], .done fd left)
  | noReader => ([], .returned .enxio)
  | interrupted => ([], .returned o.noticed)
  | failed => ([], .raised)

theorem openLoop_left {k : ℕ} {attempts : BitVec 32} {m : Met} (h : attempt o k = some m) :
    openLoop o k attempts = m.leaves o attempts := by
  rw [openLoop]
  revert h
  unfold attempt
  rcases o.opens k with errno | fd
  · cases errno with
    | enoent =>
      dsimp only
      split_ifs <;> rintro ⟨⟩
      rfl
    | enxio | eintr | other => rintro ⟨⟩; rfl
  · rintro ⟨⟩
    rfl

/-- The attempts of the loop from the open `k` on, `n` more after the first: one of them is left, or all
    of them find the pipe gone. -/
theorem openLoop_meets (n : ℕ) : ∀ (k : ℕ) (attempts : BitVec 32), attempts.toNat = n →
    (∃ j ≤ n, Gone o k j ∧ ∃ m left, attempt o (k + j) = some m ∧
      openLoop o k attempts = m.leaves o left) ∨
    Gone o k (n + 1) ∧ openLoop o k attempts = ([], .done (-1) (BitVec.allOnes 32)) := by
  induction n with
  | zero =>
    intro k attempts hn
    obtain rfl : attempts = 0 := BitVec.eq_of_toNat_eq hn
    cases hm : attempt o k with
    | none =>
      obtain ⟨hopen, hmk⟩ := attempt_eq_none.mp hm
      refine Or.inr ⟨(gone_succ hopen hmk).mpr (gone_zero _), ?_⟩
      rw [openLoop, hopen, hmk]
      rfl
    | some m => exact Or.inl ⟨0, le_rfl, gone_zero k, m, 0, hm, openLoop_left hm⟩
  | succ n ih =>
    intro k attempts hn
    cases hm : attempt o k with
    | none =>
      obtain ⟨hopen, hmk⟩ := attempt_eq_none.mp hm
      have hpos : 0 < attempts := by rw [BitVec.lt_def]; simp; omega
      have hloop : openLoop o k attempts = openLoop o (k + 1) (attempts - 1) := by
        rw [openLoop, hopen, hmk]
        simp only [hpos, if_true]
      rw [hloop]
      rcases ih (k + 1) (attempts - 1) (by bv_omega) with ⟨j, hj, hgone, m, left, hm', heq⟩ | ⟨hgone, heq⟩
      · refine Or.inl ⟨j + 1, by omega, (gone_succ hopen hmk).mpr hgone, m, left, ?_, heq⟩
        rw [← hm']
        congr 1
        omega
      · exact Or.inr ⟨(gone_succ hopen hmk).mpr hgone, heq⟩
    | some m => exact Or.inl ⟨0, Nat.zero_le _, gone_zero k, m, attempts, hm, openLoop_left hm⟩

theorem openLoop_ends (n k : ℕ) (attempts : BitVec 32) (hn : attempts.toNat = n) :
    LoopEnds o k n (openLoop o k attempts) := by
  rcases openLoop_meets (o := o) n k attempts hn with ⟨j, hj, hgone, m, left, hm, heq⟩ | ⟨hgone, heq⟩
  · have hno : ¬ Gone o k (j + 1) := fun hall => by
      rw [attempt_eq_none.mpr (hall j (Nat.lt_succ_self j))] at hm
      cases hm
    have hopen : (∀ fd, m ≠ .pipe fd) → ∀ fd, o.opens (k + j) ≠ .ok fd := fun hne fd hfd => by
      rw [attempt_eq_pipe.mpr hfd] at hm
      exact hne fd (Option.some.inj hm).symm
    rw [heq]
    cases m with
    | pipe fd => exact .opened fd j left hj hgone (attempt_eq_pipe.mp hm)
    | noReader | interrupted | failed => exact .other _ (by simp) j hj hgone hno (hopen (by simp))
  · rw [heq]
    exact .gone hgone

/-! ### Writing -/

theorem writeFails_ok {total n m : ℕ} {rest : List (Except Errno ℕ)} :
    WriteFails total n (.ok m :: rest) ↔ n + m < total ∧ WriteFails total (n + m) rest := by
  constructor
  · rintro ⟨_ | ⟨m', parts⟩, errno, more, heq, herrno, hlt⟩
    · cases heq
    · obtain ⟨hm, rfl⟩ := List.cons.inj heq
      obtain rfl := Except.ok.inj hm
      have hsum := hlt (by simp)
      rw [List.sum_cons] at hsum
      exact ⟨by omega, parts, errno, more, rfl, herrno, fun _ => by omega⟩
  · rintro ⟨hm, parts, errno, more, rfl, herrno, hlt⟩
    refine ⟨m :: parts, errno, more, rfl, herrno, fun _ => ?_⟩
    rw [List.sum_cons]
    by_cases hparts : parts = []
    · rw [hparts, List.sum_nil]; omega
    · have hsum := hlt hparts; omega

theorem writeFails_error {total n : ℕ} {errno : Errno} {rest : List (Except Errno ℕ)} :
    WriteFails total n (.error errno :: rest) ↔ errno ≠ .eintr := by
  constructor
  · rintro ⟨_ | ⟨m, parts⟩, errno', more, heq, herrno, -⟩
    · rw [Except.error.inj (List.cons.inj heq).1]
      exact herrno
    · cases heq
  · exact fun h => ⟨[], errno, rest, rfl, h, fun hne => absurd rfl hne⟩

/-- `writeAndClose` uses and closes the one descriptor, and it raises exactly if a write fails. -/
theorem writeAndClose_spec {fd : ℤ} {s : Finset ℤ} (hfd : fd ∈ s) (total : ℕ) :
    ∀ (writes : List (Except Errno ℕ)) (n : ℕ),
    descriptors.run s (writeAndClose fd total n writes).1 =
        some (if (writeAndClose fd total n writes).2 = .running then s else s.erase fd) ∧
      ((writeAndClose fd total n writes).2 = .raised ↔ WriteFails total n writes) := by
  have hclose : descriptors.run s [.used fd, .closed fd] = some (s.erase fd) := by
    rw [Descriptors.run_used hfd, Descriptors.run_closed hfd, Lts.run_nil]
  intro writes
  induction writes with
  | nil =>
    intro n
    refine ⟨Descriptors.run_used hfd, iff_of_false (by simp [writeAndClose]) ?_⟩
    rintro ⟨parts, errno, rest, heq, -⟩
    simp at heq
  | cons w rest ih =>
    intro n
    rcases w with errno | m
    · rw [writeFails_error]
      cases errno <;> exact ⟨hclose, by simp [writeAndClose]⟩
    · rw [writeFails_ok, writeAndClose]
      by_cases hlt : n + m < total
      · obtain ⟨hrun, hraised⟩ := ih (n + m)
        simp only [hlt, if_true, true_and]
        exact ⟨(Descriptors.run_used hfd).trans hrun, hraised⟩
      · simp only [hlt, if_false, false_and]
        exact ⟨hclose, by simp⟩

/-! ### The whole call -/

theorem disciplined_of_run {call : List DescriptorOp × Ended} (h : descriptors.run ∅ call.1 = some ∅) :
    Disciplined call := ⟨∅, h, fun _ => rfl⟩

theorem not_disciplined_of_run {call : List DescriptorOp × Ended}
    (h : descriptors.run ∅ call.1 = none) : ¬ Disciplined call := by
  rintro ⟨s, hs, -⟩
  rw [h] at hs
  cases hs

theorem opens_iff : Opens o ↔
    (∃ j ≤ 3, Gone o 0 j ∧ ∃ fd, o.opens (0 + j) = .ok fd) ∧ o.fstat = some true := by
  simp only [Opens, Gone, Nat.zero_add, Nat.lt_succ_iff]

theorem vanishes_iff : Vanishes o ↔ Gone o 0 4 := by simp only [Vanishes, Gone, Nat.zero_add]

/-- The pipe is open: after a formatter that raises it is closed, and after a message it is as
    `writeAndClose` leaves it, but for the second close after a write that fails. -/
theorem ship_open {fd : ℕ} {left : BitVec 32} {format : SensorData V → Except Exn String}
    {data : SensorData V} (h : openLoop o 0 ATTEMPTS_CREATE_PIPE = ([.opened fd], .done fd left)) :
    Disciplined (ship o format data) ↔
      ¬ (o.fstat = some true ∧ ∃ msg, format data = .ok msg ∧ WriteFails msg.utf8ByteSize 0 o.writes) := by
  have hmem : (fd : ℤ) ∈ insert (fd : ℤ) (∅ : Finset ℤ) := Finset.mem_insert_self _ _
  have herase : (insert (fd : ℤ) (∅ : Finset ℤ)).erase fd = ∅ := by
    rw [Finset.erase_insert (Finset.notMem_empty _)]
  have hopened : ∀ log, descriptors.run ∅ (.opened fd :: .used fd :: log) =
      descriptors.run (insert (fd : ℤ) ∅) log := fun log => by
    rw [Descriptors.run_opened (Int.natCast_nonneg fd) (Finset.notMem_empty _),
      Descriptors.run_used hmem]
  have hclosed : descriptors.run ∅ [.opened fd, .used fd, .closed fd] = some ∅ := by
    rw [hopened, Descriptors.run_closed hmem, herase, Lts.run_nil]
  have hneg : ¬ (fd : ℤ) < 0 := by omega
  rcases hstat : o.fstat with _ | _ | _
  · simp only [ship, openPipe, h, hstat, hneg, false_and, if_false]
    exact iff_of_true (disciplined_of_run hclosed) (by simp)
  · simp only [ship, openPipe, h, hstat, hneg, false_and, if_false]
    exact iff_of_true (disciplined_of_run hclosed) (by simp)
  · simp only [ship, openPipe, h, hstat, hneg, false_and, if_false, true_and]
    cases hformat : format data with
    | error e => exact iff_of_true (disciplined_of_run hclosed) (by simp)
    | ok msg =>
      obtain ⟨hrun, hraised⟩ := writeAndClose_spec hmem msg.utf8ByteSize o.writes 0
      rw [herase] at hrun
      have hfails : (∃ m, (.ok msg : Except Exn String) = .ok m ∧ WriteFails m.utf8ByteSize 0 o.writes) ↔
          WriteFails msg.utf8ByteSize 0 o.writes := by simp
      dsimp only
      rw [hfails, ← hraised]
      by_cases hw : (writeAndClose (fd : ℤ) msg.utf8ByteSize 0 o.writes).2 = .raised
      · -- closed by `writeAndClose`, and again by the handler
        rw [if_pos hw]
        refine iff_of_false ?_ (not_not.mpr hw)
        rintro ⟨s, hs, -⟩
        simp only [hw, reduceCtorEq, if_false] at hrun
        have hrest := (hopened _).symm.trans hs
        obtain ⟨t, ht, hlast⟩ := (descriptors.run_append_iff).mp hrest
        obtain rfl := Option.some.inj (hrun.symm.trans ht)
        exact Finset.notMem_empty _ (Descriptors.run_cons_iff.mp hlast).1
      · rw [if_neg hw]
        refine iff_of_true ⟨_, (hopened _).trans hrun, fun hne => if_neg hne⟩ hw

/-- For every answer of the system and every formatter: a call of `ship` keeps the rules exactly if the
    pipe does not vanish at every attempt, and no write into an open pipe fails. -/
theorem ship_disciplined_iff (o : Outcomes) (format : SensorData V → Except Exn String)
    (data : SensorData V) : Disciplined (ship o format data) ↔
      ¬ Vanishes o ∧
        ¬ (Opens o ∧ ∃ msg, format data = .ok msg ∧ WriteFails msg.utf8ByteSize 0 o.writes) := by
  rw [vanishes_iff, opens_iff]
  have hends := openLoop_ends (o := o) 3 0 ATTEMPTS_CREATE_PIPE rfl
  generalize hloop : openLoop o 0 ATTEMPTS_CREATE_PIPE = loop at hends
  cases hends with
  | opened fd j left hj hgone hopen =>
    have hnot : ¬ Gone o 0 4 := fun hall => by
      have hj' := (hall j (by omega)).1
      rw [hopen] at hj'
      cases hj'
    have hone : ∃ i ≤ 3, Gone o 0 i ∧ ∃ fd, o.opens (0 + i) = .ok fd := ⟨j, hj, hgone, fd, hopen⟩
    rw [ship_open hloop, and_iff_right hnot, and_iff_right hone]
  | gone hall =>
    -- the attempts have passed zero, and the descriptor is -1
    have hstart : ∃ more, (ship o format data).1 = .used (-1) :: more := by
      have hwrapped : ¬ ((-1 : ℤ) < 0 ∧ BitVec.allOnes 32 = 0) := by decide
      rcases hstat : o.fstat with _ | _ | _ <;>
        exact ⟨_, by simp only [ship, openPipe, hloop, hstat, hwrapped, if_false]; rfl⟩
    obtain ⟨more, hmore⟩ := hstart
    refine iff_of_false (not_disciplined_of_run ?_) fun h => h.1 hall
    rw [hmore]
    exact Descriptors.run_cons_not_allowed (Finset.notMem_empty _)
  | other l hl j hj hgone hno hopen =>
    have hnot : ¬ Gone o 0 4 := fun hall => hno fun i hi => hall i (by omega)
    have hclosed : ¬ ∃ i ≤ 3, Gone o 0 i ∧ ∃ fd, o.opens (0 + i) = .ok fd := by
      rintro ⟨i, hi, hgone', fd, hfd⟩
      rcases Nat.lt_trichotomy i j with hlt | rfl | hlt
      · have herr := (hgone i hlt).1
        rw [hfd] at herr
        cases herr
      · exact hopen fd hfd
      · exact hno fun m hm => hgone' m (by omega)
    refine iff_of_true ?_ ⟨hnot, fun h => hclosed h.1.1⟩
    cases l with
    | done fd left => exact absurd rfl (hl fd left)
    | raised =>
      simp only [ship, openPipe, hloop]
      exact disciplined_of_run rfl
    | returned errno =>
      have hneg : (-1 : ℤ) < 0 := by decide
      simp only [ship, openPipe, hloop, hneg, true_and, if_true]
      split_ifs <;> exact disciplined_of_run rfl

/-- What keeps the rules closes each descriptor as often as it opens it, unless it still runs. -/
theorem Disciplined.closed_once {call : List DescriptorOp × Ended} (h : Disciplined call)
    (hend : call.2 ≠ .running) (fd : ℤ) : call.1.count (.opened fd) = call.1.count (.closed fd) := by
  obtain ⟨s, hs, hempty⟩ := h
  rw [hempty hend] at hs
  exact Descriptors.closed_once hs fd

/-- A pipe that is made at every attempt and gone at the next. -/
def vanishing : Outcomes := ⟨fun _ => .error .enoent, fun _ => true, .other, none, []⟩

/-- After four attempts the descriptor -1 is checked and closed. -/
theorem vanishing_uses : ¬ ∀ (o : Outcomes) (format : SensorData ℕ → Except Exn String)
    (data : SensorData ℕ), Disciplined (ship o format data) := by
  intro h
  obtain ⟨s, hs, -⟩ := h vanishing (fun _ => .ok "") ⟨⟨⟨0⟩, 0⟩, []⟩
  have hloop : openLoop vanishing 0 ATTEMPTS_CREATE_PIPE = ([], .done (-1) (BitVec.allOnes 32)) := by
    simp [openLoop, vanishing, ATTEMPTS_CREATE_PIPE]
  have hship : (ship vanishing (fun _ => .ok "") (⟨⟨⟨0⟩, 0⟩, []⟩ : SensorData ℕ)).1 =
      [.used (-1), .closed (-1)] := by
    simp only [ship, openPipe, hloop]
    rfl
  rw [hship, Descriptors.run_cons_iff] at hs
  exact Finset.notMem_empty _ hs.1

end NamedPipeExporter
end BeeeOn
