import Gateway.Jablotron.SerialControl

/-! @src jablotron/SerialControl.cpp | name:Who closes the serial line | family:resources

    Over its lifetime a `SerialControl` opens the line in `initSerial` and `sread` and closes it in
    `closeSerial`, which is called by itself, after a set-up that fails, and after a read that fails.
    The state is `m_serialFd` with everything that has been opened and closed.

    The test of `closeSerial` is the wrong way round, so every call of it breaks the ownership: a valid
    descriptor is forgotten and stays open, and what is closed is no descriptor. -/

namespace BeeeOn
open Schemes
namespace SerialControl

structure Line where
  m_serialFd : ℤ
  log : List DescriptorOp

inductive Call where
  | initSerial (o : Opening)
  | closeSerial
  | ssend (written : ℤ)
  | sread (o : Opening) (turns : ℕ → Turn)

/-- The system opens a descriptor that is not open. -/
def Fresh (log : List DescriptorOp) (o : Opening) : Prop := ∀ n, o.opened = some n → (n : ℤ) ∉ live ∅ log

instance (log : List DescriptorOp) (o : Opening) : Decidable (Fresh log o) :=
  match h : o.opened with
  | none => isTrue fun n hn => by rw [h] at hn; cases hn
  | some m => decidable_of_iff ((m : ℤ) ∉ live ∅ log) (by simp [Fresh, h])

/-- The calls of a `SerialControl`, each with what the system answers. -/
def system : Lts Line Call where
  step
    | s, .initSerial o =>
      let r := SerialControl.initSerial s.m_serialFd o
      if Fresh s.log o then some ⟨r.1, s.log ++ r.2⟩ else none
    | s, .closeSerial => some ⟨-1, s.log ++ SerialControl.closeSerial s.m_serialFd⟩
    | s, .ssend _ => some s
    | s, .sread o turns =>
      let r := SerialControl.sread s.m_serialFd o turns
      if isValidFd s.m_serialFd ∨ Fresh s.log o then some ⟨r.fd, s.log ++ ops r.log⟩ else none

/-- A new `SerialControl`. -/
def Line.init : Line := ⟨-1, []⟩

/-- Nothing has been closed that was not open, and what is open is `m_serialFd` if that is valid, and
    nothing else. -/
def Owned (s : Line) : Prop :=
  descriptors.run ∅ s.log = some (if isValidFd s.m_serialFd then {s.m_serialFd} else ∅)

/-- The call does not close: the line is opened when it is not open yet and can be set up, and no read
    fails. -/
def Orderly (s : Line) : Call → Prop
  | .initSerial o => s.m_serialFd < 0 ∧ o.configured
  | .closeSerial => False
  | .ssend _ => True
  | .sread o turns => (0 ≤ s.m_serialFd ∨ o.configured) ∧ ReadsOn turns 0 0

variable {s t : Line} {o : Opening} {turns : ℕ → Turn} {l : Call}

theorem Owned.valid (hs : Owned s) (h : 0 ≤ s.m_serialFd) :
    descriptors.run ∅ s.log = some {s.m_serialFd} := by
  rw [hs, isValidFd, decide_eq_true h, if_pos rfl]

theorem Owned.invalid (hs : Owned s) (h : s.m_serialFd < 0) : descriptors.run ∅ s.log = some ∅ := by
  rw [hs, isValidFd, decide_eq_false (by omega), if_neg Bool.false_ne_true]

/-- A negative number is never closed rightly. -/
theorem run_closed_neg {log more : List DescriptorOp} {fd : ℤ} (hfd : fd < 0) :
    descriptors.run ∅ (log ++ .closed fd :: more) = none := by
  cases h : descriptors.run ∅ log with
  | none =>
    by_contra hne
    obtain ⟨u, hu⟩ := Option.ne_none_iff_exists'.mp hne
    obtain ⟨t, ht, -⟩ := (descriptors.run_append_iff).mp hu
    cases h.symm.trans ht
  | some t =>
    have hnonneg := Descriptors.nonneg (fun fd hfd => absurd hfd (Finset.notMem_empty fd)) h
    rw [descriptors.run_append_of h]
    exact Descriptors.run_cons_not_allowed fun hmem => absurd (hnonneg fd hmem) (by omega)

theorem closeSerial_neg {fd : ℤ} (h : fd < 0) : SerialControl.closeSerial fd = [.closed fd] := by
  rw [SerialControl.closeSerial, isValidFd, decide_eq_false (by omega)]
  rfl

theorem closeSerial_valid {fd : ℤ} (h : 0 ≤ fd) : SerialControl.closeSerial fd = [] := by
  rw [SerialControl.closeSerial, isValidFd, decide_eq_true h]
  rfl

/-- Opening a line that is not open: it is owned if it could be set up. -/
theorem owned_sopen (hs : Owned s) (hneg : s.m_serialFd < 0) :
    Owned ⟨(sopen s.m_serialFd o).1, s.log ++ (sopen s.m_serialFd o).2⟩ ↔ o.configured := by
  have hrun := hs.invalid hneg
  cases hconf : o.configured with
  | true =>
    refine iff_of_true ?_ rfl
    rw [Owned]
    simp only [sopen, hconf, if_true]
    rw [descriptors.run_append_of hrun]
    rcases hopen : o.opened with _ | n
    · simp [Opening.ops, Opening.fd, hopen, isValidFd]
    · simp only [Opening.ops, Opening.fd, hopen, isValidFd, Option.toList_some, List.map_cons, List.map_nil,
        Option.map_some, Option.getD_some]
      rw [Descriptors.run_opened (Int.natCast_nonneg n) (Finset.notMem_empty _)]
      simp
  | false =>
    refine iff_of_false ?_ Bool.false_ne_true
    rw [Owned]
    simp only [sopen, hconf, Bool.false_eq_true, if_false]
    rw [closeSerial_neg hneg, ← List.append_assoc, run_closed_neg hneg]
    exact fun h => by cases h

/-- Whatever a call adds to the log, a descriptor that was owned and is not owned any more is lost. -/
theorem not_owned_of_lost {more : List DescriptorOp} {fd : ℤ} (hs : Owned s) (hvalid : 0 ≤ s.m_serialFd)
    (hfd : fd ≠ s.m_serialFd)
    (hkeep : ∀ t, descriptors.run {s.m_serialFd} more = some t → s.m_serialFd ∈ t) :
    ¬ Owned ⟨fd, s.log ++ more⟩ := by
  rw [Owned, descriptors.run_append_of (hs.valid hvalid)]
  intro h
  have hmem := hkeep _ h
  split_ifs at hmem
  · exact hfd (Finset.mem_singleton.mp hmem).symm
  · exact Finset.notMem_empty _ hmem

theorem run_replicate_closed {fd : ℤ} (hfd : 0 ≤ fd) (m : ℕ) (t : Finset ℤ)
    (h : descriptors.run {fd} (List.replicate m (.closed (-1))) = some t) : fd ∈ t := by
  cases m with
  | zero =>
    rw [List.replicate_zero, Lts.run_nil, Option.some.injEq] at h
    rw [← h]
    exact Finset.mem_singleton_self fd
  | succ m =>
    have hallowed : (-1 : ℤ) ∈ ({fd} : Finset ℤ) := (Descriptors.run_cons_iff.mp h).1
    have heq := Finset.mem_singleton.mp hallowed
    omega

/-- After a read that has failed nothing is owned any more. -/
theorem not_owned_of_endsBadly {r : Done} {st : Locals} (hs : Owned ⟨st.fd, s.log ++ ops st.log⟩)
    (h : EndsBadly st r) : ¬ Owned ⟨r.fd, s.log ++ ops r.log⟩ := by
  obtain ⟨m, hm⟩ := h.ops
  rw [h.fd, hm]
  by_cases hfd : 0 ≤ st.fd
  · rw [closeSerial_valid hfd, List.append_nil, ← List.append_assoc]
    exact not_owned_of_lost hs hfd (by change (-1 : ℤ) ≠ st.fd; omega) (run_replicate_closed hfd m)
  · rw [closeSerial_neg (by omega), List.append_assoc, List.singleton_append, ← List.append_assoc, Owned,
      run_closed_neg (by omega)]
    exact fun h => by cases h

/-- What `sread` has opened before its loop. -/
theorem start_invalid (hneg : s.m_serialFd < 0) : (start s.m_serialFd o).fd = (sopen s.m_serialFd o).1 ∧
    ops (start s.m_serialFd o).log = (sopen s.m_serialFd o).2 := by
  have hfalse : isValidFd s.m_serialFd = false := decide_eq_false (by omega)
  simp [start, hfalse]

theorem start_valid (hvalid : 0 ≤ s.m_serialFd) : (start s.m_serialFd o).fd = s.m_serialFd ∧
    ops (start s.m_serialFd o).log = [] := by
  have htrue : isValidFd s.m_serialFd = true := decide_eq_true hvalid
  simp [start, htrue, ops]

/-- The line before the loop of `sread`: it is owned if it was open or could be opened. -/
theorem owned_start (hs : Owned s) :
    Owned ⟨(start s.m_serialFd o).fd, s.log ++ ops (start s.m_serialFd o).log⟩ ↔
      0 ≤ s.m_serialFd ∨ o.configured := by
  by_cases hvalid : 0 ≤ s.m_serialFd
  · obtain ⟨hfd, hops⟩ := start_valid (o := o) hvalid
    rw [hfd, hops, List.append_nil]
    exact iff_of_true hs (Or.inl hvalid)
  · obtain ⟨hfd, hops⟩ := start_invalid (o := o) (lt_of_not_ge hvalid)
    rw [hfd, hops, owned_sopen hs (by omega)]
    exact (or_iff_right hvalid).symm

theorem owned_sread (hs : Owned s) :
    Owned ⟨(SerialControl.sread s.m_serialFd o turns).fd,
      s.log ++ ops (SerialControl.sread s.m_serialFd o turns).log⟩ ↔ Orderly s (.sread o turns) := by
  obtain ⟨hwell, hbadly⟩ := sread_spec s.m_serialFd o turns
  by_cases hon : ReadsOn turns 0 0
  · have hend := hwell hon
    rw [hend.fd, hend.ops, owned_start hs]
    exact (and_iff_left hon).symm
  · refine iff_of_false ?_ fun h => hon h.2
    by_cases hopen : 0 ≤ s.m_serialFd ∨ o.configured
    · exact not_owned_of_endsBadly ((owned_start hs).mpr hopen) (hbadly hon)
    · -- a line that could not be set up: -1 has been closed before the loop
      obtain ⟨hneg, hconf⟩ := not_or.mp hopen
      obtain ⟨m, hm⟩ := (hbadly hon).ops
      have hstart : ops (start s.m_serialFd o).log = o.ops ++ [.closed s.m_serialFd] := by
        rw [(start_invalid (lt_of_not_ge hneg)).2, sopen, if_neg hconf, closeSerial_neg (by omega)]
      rw [hm, hstart, Owned]
      simp only [List.append_assoc, List.cons_append]
      rw [← List.append_assoc, run_closed_neg (by omega)]
      exact fun h => by cases h

/-- A line that is open is lost when another one is opened. -/
theorem not_owned_initSerial (hs : Owned s) (hvalid : 0 ≤ s.m_serialFd) (hfresh : Fresh s.log o) :
    ¬ Owned ⟨(sopen s.m_serialFd o).1, s.log ++ (sopen s.m_serialFd o).2⟩ := by
  have hlive : live ∅ s.log = {s.m_serialFd} := (Descriptors.run_eq_live (hs.valid hvalid)).symm
  have hops : (sopen s.m_serialFd o).2 = o.ops := by
    rw [sopen, closeSerial_valid hvalid, List.append_nil]
    split_ifs <;> rfl
  have hne : (sopen s.m_serialFd o).1 ≠ s.m_serialFd := by
    rw [sopen]
    split_ifs
    · cases hopen : o.opened with
      | none => rw [Opening.fd, hopen]; change (-1 : ℤ) ≠ _; omega
      | some n =>
        have hn := hfresh n hopen
        rw [hlive, Finset.mem_singleton] at hn
        rw [Opening.fd, hopen]
        exact hn
    · change (-1 : ℤ) ≠ _; omega
  refine not_owned_of_lost hs hvalid hne ?_
  rw [hops, Opening.ops]
  intro t ht
  rw [Descriptors.run_eq_live ht]
  cases o.opened with
  | none => exact Finset.mem_singleton_self _
  | some n => exact Finset.mem_insert_of_mem (Finset.mem_singleton_self _)

/-- One call keeps the ownership exactly if it is orderly. -/
theorem owned_step (hs : Owned s) (h : system.step s l = some t) : Owned t ↔ Orderly s l := by
  cases l with
  | initSerial o =>
    simp only [system] at h
    split_ifs at h with hfresh
    cases h
    by_cases hvalid : 0 ≤ s.m_serialFd
    · exact iff_of_false (not_owned_initSerial hs hvalid hfresh) fun h => absurd h.1 (by omega)
    · rw [Orderly, and_iff_right (by omega)]
      exact owned_sopen hs (by omega)
  | closeSerial =>
    cases h
    refine iff_of_false ?_ id
    by_cases hvalid : 0 ≤ s.m_serialFd
    · refine not_owned_of_lost hs hvalid (by omega) ?_
      rw [closeSerial_valid hvalid]
      intro t ht
      rw [← Option.some.inj ht]
      exact Finset.mem_singleton_self _
    · rw [Owned, closeSerial_neg (by omega), run_closed_neg (by omega)]
      exact fun h => by cases h
  | ssend written =>
    cases h
    exact iff_of_true hs trivial
  | sread o turns =>
    simp only [system] at h
    split_ifs at h with hfresh
    cases h
    exact owned_sread hs

theorem owned_init : Owned Line.init := rfl

/-- For every sequence of calls and every answer of the system: in every state on the way the line is
    owned, exactly if every call is orderly. -/
theorem owned_iff {ls : List Call} {u : Line} (h : system.run Line.init ls = some u) :
    (∀ pre post t, ls = pre ++ post → system.run Line.init pre = some t → Owned t) ↔
      ∀ pre l post t, ls = pre ++ l :: post → system.run Line.init pre = some t → Orderly t l :=
  system.run_states_iff (P := fun _ t => Owned t) (Q := fun _ t => Owned t)
    (C := fun _ t l => Orderly t l) owned_init (fun _ _ ht => ht)
    (fun _ _ _ _ ht hstep => (owned_step ht hstep).mp)
    (fun _ _ _ _ ht hstep => (owned_step ht hstep).mpr) h

/-- The line as descriptor 3. -/
def opening : Opening := ⟨some 3, true, true, true⟩

/-- One byte arrives, and then nothing. -/
def oneByte (k : ℕ) : Turn := if k = 0 then ⟨1, .ok ['V']⟩ else ⟨0, .ok []⟩

/-- A line that is opened, written to and read. -/
def session : List Call := [.initSerial opening, .ssend 4, .sread opening oneByte]

theorem opened_owned : (system.run Line.init session).isSome ∧
    ∀ pre post t, session = pre ++ post → system.run Line.init pre = some t → Owned t := by
  obtain ⟨u, hu⟩ : ∃ u, system.run Line.init session = some u := ⟨_, rfl⟩
  have horderly : system.Meets Orderly Line.init session := by
    refine .cons _ ⟨by decide, rfl⟩ rfl (.cons _ trivial rfl
      (.cons _ ⟨Or.inl (by decide), ?_⟩ rfl (.nil _)))
    refine (readsOn_iff (by decide)).mpr fun _ => ⟨⟨rfl, ['V'], rfl, by decide⟩, fun _ => ?_⟩
    exact (readsOn_iff (by decide)).mpr fun hret => absurd hret (by decide)
  exact ⟨Option.isSome_iff_exists.mpr ⟨u, hu⟩, (owned_iff hu).mpr horderly⟩

/-- Opened and closed: the descriptor 3 is open, and nobody has it. -/
theorem closed_not_owned : ¬ ∀ (ls : List Call) (t : Line), system.run Line.init ls = some t → Owned t := by
  intro h
  have hrun : system.run Line.init [.initSerial opening, .closeSerial] = some ⟨-1, [.opened 3]⟩ := rfl
  have hlive : descriptors.run ∅ [.opened 3] = some {3} := rfl
  have hempty : ({3} : Finset ℤ) = ∅ := Option.some.inj (hlive.symm.trans (h _ _ hrun))
  exact absurd hempty (by decide)

end SerialControl
end BeeeOn
