import Gateway.ZWave.Extraction

/-! @src z-wave/products/AeotecZW100ZWaveMessage.cpp, z-wave/products/DLinkDchZ120ZWaveMessage.cpp |
    name:The alarm in a report of a Z-Wave node | family:invariants

    Where the other getters stop at the first entry, `getDetectionSensor` inserts values for every entry
    of the alarm that is a number. A node may have several such entries, and then the two modules of the
    alarm have a value from each of them (`one_per_module_iff`). -/

namespace BeeeOn
open ZWaveMessage

namespace ZWaveProduct
variable {V ν : Type} {B : Base V} {N : Numbers V} {zwaveValues : List (ZWaveSensorValue ν)}

/-- The states of the alarm entries that are numbers. -/
def alarmStates (N : Numbers V) (zwaveValues : List (ZWaveSensorValue ν)) : List ℤ :=
  (zwaveValues.filter fun item =>
    isEqual item.commandClass COMMAND_CLASS_ALARM item.index SENSOR_INDEX_BULGAR).filterMap
      (extractInt N)

/-- The product looks at the alarm entries. -/
def HasAlarm : ZWaveProduct → Prop
  | .aeotecZW100 | .dLinkDchZ120 => True
  | .fibaroFGK107 | .philioPST021C | .popp123601 => False

/-- The modules that a state of the alarm gives a value to. -/
def marks (safety motion : ModuleID) (idle : List ModuleID) (sensorState : ℤ) : List ModuleID :=
  if sensorState = SAFETY then [safety] else if sensorState = MOTION then [motion] else idle

theorem getDetectionSensor_moduleID (safety motion : ModuleID) (idle : List ModuleID) :
    (getDetectionSensor N safety motion idle zwaveValues).map (·.moduleID) =
      (alarmStates N zwaveValues).flatMap (marks safety motion idle) := by
  induction zwaveValues with
  | nil => rfl
  | cons item rest ih =>
    rw [getDetectionSensor, alarmStates]
    split_ifs with heq
    · rw [List.filter_cons, if_pos heq]
      cases hs : extractInt N item with
      | none =>
        rw [List.filterMap_cons_none hs]
        exact ih
      | some state =>
        have hmarks : (detected N safety motion idle state).map (·.moduleID) =
            marks safety motion idle state := by
          unfold detected marks
          split_ifs <;> simp [Function.comp_def]
        rw [List.filterMap_cons_some hs, List.flatMap_cons, List.map_append, hmarks, ih]
        rfl
    · rw [List.filter_cons, if_neg heq]
      exact ih

section
variable {safety motion : ModuleID} {idle : List ModuleID}

theorem marks_cases {safety motion : ModuleID} (idle : List ModuleID) (state : ℤ) :
    (state = SAFETY ∧ marks safety motion idle state = [safety]) ∨
      (state = MOTION ∧ marks safety motion idle state = [motion]) ∨
      (state ≠ SAFETY ∧ state ≠ MOTION ∧ marks safety motion idle state = idle) := by
  unfold marks
  split_ifs with h1 h2
  · exact Or.inl ⟨h1, rfl⟩
  · exact Or.inr (Or.inl ⟨h2, rfl⟩)
  · exact Or.inr (Or.inr ⟨h1, h2, rfl⟩)

theorem marks_subset (hidle : idle.Perm [safety, motion]) (state : ℤ) :
    marks safety motion idle state ⊆ [safety, motion] := by
  unfold marks
  split_ifs
  · simp
  · simp
  · exact hidle.subset

theorem marks_pos (hidle : idle.Perm [safety, motion]) (state : ℤ) :
    0 < (marks safety motion idle state).length := by
  unfold marks
  split_ifs
  · exact Nat.one_pos
  · exact Nat.one_pos
  · rw [hidle.length_eq]; exact Nat.two_pos

theorem length_le_flatMap_marks (hidle : idle.Perm [safety, motion]) (states : List ℤ) :
    states.length ≤ (states.flatMap (marks safety motion idle)).length := by
  induction states with
  | nil => exact Nat.zero_le _
  | cons state states ih =>
    have hpos := marks_pos hidle state
    rw [List.flatMap_cons, List.length_append, List.length_cons]
    omega

/-- Two states of the alarm give no module a value twice exactly if they are its two meanings. -/
theorem marks_pair (hne : safety ≠ motion) (hidle : idle.Perm [safety, motion]) (s t : ℤ) :
    (marks safety motion idle s ++ marks safety motion idle t).Nodup ↔
      s = SAFETY ∧ t = MOTION ∨ s = MOTION ∧ t = SAFETY := by
  have hsafety : safety ∈ idle := hidle.mem_iff.mpr (by simp)
  have hmotion : motion ∈ idle := hidle.mem_iff.mpr (by simp)
  have hstates : SAFETY ≠ MOTION := by decide
  have htwice : ∀ {l l' : List ModuleID} {m}, m ∈ l → m ∈ l' → ¬ (l ++ l').Nodup :=
    fun h h' hnodup => (List.nodup_append.mp hnodup).2.2 _ h _ h' rfl
  rcases marks_cases idle s with ⟨rfl, hs⟩ | ⟨rfl, hs⟩ | ⟨hs3, hs8, hs⟩
  · rcases marks_cases idle t with ⟨rfl, -⟩ | ⟨rfl, ht⟩ | ⟨ht3, ht8, ht⟩
    · exact iff_of_false (htwice (hs ▸ List.mem_singleton_self _) (hs ▸ List.mem_singleton_self _))
        (by simp [hstates])
    · exact iff_of_true (by rw [hs, ht]; simpa using hne) (Or.inl ⟨rfl, rfl⟩)
    · exact iff_of_false (htwice (hs ▸ List.mem_singleton_self _) (by rw [ht]; exact hsafety))
        (by simp [*])
  · rcases marks_cases idle t with ⟨rfl, ht⟩ | ⟨rfl, -⟩ | ⟨ht3, ht8, ht⟩
    · exact iff_of_true (by rw [hs, ht]; simpa using hne.symm) (Or.inr ⟨rfl, rfl⟩)
    · exact iff_of_false (htwice (hs ▸ List.mem_singleton_self _) (hs ▸ List.mem_singleton_self _))
        (by simp [hstates.symm])
    · exact iff_of_false (htwice (hs ▸ List.mem_singleton_self _) (by rw [ht]; exact hmotion))
        (by simp [*])
  · have hcommon : ∃ m ∈ idle, m ∈ marks safety motion idle t := by
      rcases @marks_cases safety motion idle t with ⟨-, ht⟩ | ⟨-, ht⟩ | ⟨-, -, ht⟩
      · exact ⟨safety, hsafety, by rw [ht]; simp⟩
      · exact ⟨motion, hmotion, by rw [ht]; simp⟩
      · exact ⟨safety, hsafety, by rw [ht]; exact hsafety⟩
    obtain ⟨m, hm, hmt⟩ := hcommon
    exact iff_of_false (htwice (by rw [hs]; exact hm) hmt) (by simp [*])

/-- No module is given a value twice exactly if there is one state at most, or the two meanings once
    each. -/
theorem marks_nodup_iff (hne : safety ≠ motion) (hidle : idle.Perm [safety, motion])
    (states : List ℤ) : (states.flatMap (marks safety motion idle)).Nodup ↔
      states.length ≤ 1 ∨ states.Perm [SAFETY, MOTION] := by
  match states with
  | [] => simp
  | [s] =>
    have hnodup : (marks safety motion idle s).Nodup := by
      unfold marks
      split_ifs
      · exact List.nodup_singleton _
      · exact List.nodup_singleton _
      · exact hidle.nodup_iff.mpr (by simpa using hne)
    simpa using hnodup
  | [s, t] =>
    rw [List.flatMap_cons, List.flatMap_cons, List.flatMap_nil, List.append_nil,
      marks_pair hne hidle]
    constructor
    · rintro (⟨rfl, rfl⟩ | ⟨rfl, rfl⟩)
      · exact Or.inr (.refl _)
      · exact Or.inr (.swap _ _ _)
    · rintro (hlen | hperm)
      · simp at hlen
      · have hs : s ∈ [SAFETY, MOTION] := hperm.subset List.mem_cons_self
        have ht : t ∈ [SAFETY, MOTION] := hperm.subset (by simp)
        have hst : [s, t].Nodup := hperm.nodup_iff.mpr (by decide)
        simp only [List.mem_cons, List.not_mem_nil, or_false] at hs ht
        rcases hs with rfl | rfl <;> rcases ht with rfl | rfl
        · simp at hst
        · exact Or.inl ⟨rfl, rfl⟩
        · exact Or.inr ⟨rfl, rfl⟩
        · simp at hst
  | s :: t :: u :: states =>
    have hlong := length_le_flatMap_marks hidle (s :: t :: u :: states)
    constructor
    · intro hnodup
      have hsub : (s :: t :: u :: states).flatMap (marks safety motion idle) ⊆ [safety, motion] := by
        intro m hm
        obtain ⟨state, -, hm⟩ := List.mem_flatMap.mp hm
        exact marks_subset hidle state hm
      have hle := (List.subperm_of_subset hnodup hsub).length_le
      simp only [List.length_cons, List.length_nil] at hlong hle
      omega
    · rintro (hlen | hperm)
      · simp at hlen
      · have hlen := hperm.length_eq
        simp at hlen

end

theorem detections_nodup_iff (N : Numbers V) (P : ZWaveProduct)
    (zwaveValues : List (ZWaveSensorValue ν)) :
    ((P.detections N zwaveValues).map (·.moduleID)).Nodup ↔ ¬ P.HasAlarm ∨
      (alarmStates N zwaveValues).length ≤ 1 ∨ (alarmStates N zwaveValues).Perm [SAFETY, MOTION] := by
  cases P with
  | aeotecZW100 =>
    rw [detections, getDetectionSensor_moduleID, marks_nodup_iff (by decide) (.refl _)]
    simp [HasAlarm]
  | dLinkDchZ120 =>
    rw [detections, getDetectionSensor_moduleID, marks_nodup_iff (by decide) (.swap _ _ _)]
    simp [HasAlarm]
  | fibaroFGK107 | philioPST021C | popp123601 => simp [detections, HasAlarm]

/-- For every product and all values of a node for which `extractValues` returns: no module has two
    values exactly if the product has no alarm, or at most one alarm entry is a number, or two are, one
    for each of its meanings. -/
theorem one_per_module_iff {P : ZWaveProduct} {data : List (SensorValue V)}
    (h : P.extractValues B N zwaveValues = .ok data) :
    (data.map (·.moduleID)).Nodup ↔ ¬ P.HasAlarm ∨
      (alarmStates N zwaveValues).length ≤ 1 ∨ (alarmStates N zwaveValues).Perm [SAFETY, MOTION] := by
  rw [extractValues_eq] at h
  cases hdata : insertValues B (P.texts B N zwaveValues) with
  | error e => rw [hdata] at h; cases h
  | ok inserted =>
    rw [hdata] at h
    cases h
    have hfst : (P.texts B N zwaveValues).map Prod.fst = P.readings.map (·.moduleID) := by
      rw [texts, List.map_map]; rfl
    have hsub : (inserted.map (·.moduleID)).Sublist (P.readings.map (·.moduleID)) :=
      hfst ▸ (insertValues_spec _ hdata).1
    have hapart : ∀ m ∈ inserted.map (·.moduleID),
        ∀ m' ∈ (P.detections N zwaveValues).map (·.moduleID), m ≠ m' := by
      intro m hm m' hm' heq
      obtain ⟨r, hr, hrm⟩ := List.mem_map.mp (hsub.subset hm)
      obtain ⟨x, hx, hxm⟩ := List.mem_map.mp hm'
      exact detections_moduleID P hx hr (hxm.trans (heq.symm.trans hrm.symm))
    rw [List.map_append, List.nodup_append, detections_nodup_iff]
    exact ⟨fun hall => hall.2.1, fun hstates => ⟨(readings_nodup P).sublist hsub, hstates, hapart⟩⟩

/-- Two alarm entries, a shake and a motion. -/
theorem shake_and_motion :
    (([⟨⟨0⟩, 1, true⟩, ⟨⟨1⟩, 1, true⟩] : List (SensorValue ℕ)).map (·.moduleID)).Nodup := by
  have h : extractValues Sample.whole wholeNumbers .aeotecZW100
      [(⟨113, 10, (), "3", ""⟩ : ZWaveSensorValue Unit), ⟨113, 10, (), "8", ""⟩] =
        .ok [⟨⟨0⟩, 1, true⟩, ⟨⟨1⟩, 1, true⟩] := rfl
  exact (one_per_module_iff h).mpr (Or.inr (Or.inr (by decide)))

/-- Two alarm entries, a shake and an idle one: the shake sensor has a 1 and a 0. -/
theorem shake_and_idle : ¬ ∀ (P : ZWaveProduct) (zwaveValues : List (ZWaveSensorValue Unit)) data,
    P.extractValues Sample.whole wholeNumbers zwaveValues = .ok data →
      (data.map (·.moduleID)).Nodup := by
  intro h
  have hdup := h .aeotecZW100 [⟨113, 10, (), "3", ""⟩, ⟨113, 10, (), "0", ""⟩] _ rfl
  revert hdup
  decide

end ZWaveProduct
end BeeeOn
