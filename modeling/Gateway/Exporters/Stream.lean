import Gateway.Util.CSV

/-! @src exporters/NamedPipeExporter.cpp, util/CSVSensorDataFormatter.cpp |
    name:What is read from the pipe | family:streams

    The calls of `ship` write into one pipe, and its reader sees one stream of lines. Each call opens,
    writes as much of its record as the pipe takes and closes; one that is interrupted, or finds the pipe
    full, may leave its last line torn. Nothing is written to end that line, so the next one is read as
    its end: the reader gets the whole lines of all calls, and nothing else, exactly if no call behind a
    torn line writes a line (`stream_read_iff`). A call that returns `true` never tears one, so where all
    do, the reader gets every record that found a reader, whole and in order (`delivered_read`). -/

namespace BeeeOn
open Schemes Separated
variable {V : Type}

namespace NamedPipeExporter
open CSVSensorDataFormatter (Platform DEFAULT_SEPARATOR newline row bytes_format sample sampleRecord)

/-- A call of `ship`: the record, and what the system answers. -/
structure Call (V : Type) where
  data : Record V
  o : Outcomes
  writes : List Write

variable (P : Platform V) (separator : String)

/-- The text of the record. -/
def Call.text (c : Call V) : String := CSVSensorDataFormatter.format P separator c.data

/-- How the call ends. -/
def Call.ended (c : Call V) : Ended :=
  shipping c.o c.writes (fun _ => .ok (c.text P separator)) c.data.toSensorData

/-- What the system answers, the writes as `writeAndClose` tells them apart. -/
def Call.outcomes (c : Call V) : Outcomes := { c.o with writes := c.writes.map Write.answer }

/-- What the pipe takes in the call. -/
def Call.written (c : Call V) : List UInt8 :=
  match (openPipe c.outcomes).2 with
  | some (fd, _) => if fd < 0 then [] else taken (bytes (c.text P separator)) 0 c.writes
  | none => []

/-- The lines of the record. -/
def Call.rows (c : Call V) : List (List UInt8) := c.data.values.map (row P separator c.data)

/-- The whole lines that the pipe takes, and what it takes of a line behind them. -/
def Call.whole (c : Call V) : List (List UInt8) := (lines newline (c.written P separator)).1

def Call.torn (c : Call V) : List UInt8 := (lines newline (c.written P separator)).2

/-- What the pipe takes in the calls. -/
def stream (cs : List (Call V)) : List UInt8 := (cs.map (Call.written P separator)).flatten

variable {P separator} {c : Call V} {cs : List (Call V)}

/-- The pipe takes a beginning of the text. -/
theorem written_beginning : c.written P separator <+: bytes (c.text P separator) := by
  unfold Call.written
  split
  · split_ifs
    · exact List.nil_prefix
    · exact taken_prefix _ 0
  · exact List.nil_prefix

/-- A call that returns `true` has written all or nothing. -/
theorem written_of_true (h : c.ended P separator = .returned true) :
    c.written P separator = [] ∨ c.written P separator = bytes (c.text P separator) := by
  have h : (ship c.outcomes (fun _ => .ok (c.text P separator)) c.data.toSensorData).2 =
      .returned true := h
  unfold ship at h
  unfold Call.written
  rcases hopen : (openPipe c.outcomes).2 with _ | ⟨fd, errno⟩
  · exact Or.inl rfl
  · simp only [hopen] at h ⊢
    by_cases hfd : fd < 0
    · exact Or.inl (if_pos hfd)
    · rw [if_neg hfd]
      right
      simp only [hfd, false_and, if_false] at h
      have hwrite : NamedPipeExporter.ended fd (bytes (c.text P separator)).length 0 c.writes =
          .returned true := by
        rw [NamedPipeExporter.ended, length_bytes]
        split_ifs at h
        exact h
      have hzero := (Nat.eq_zero_or_pos (bytes (c.text P separator)).length).symm
      exact ((ended_true_iff hzero (by rw [hwrite]; simp)).mp hwrite).1

/-- There is no newline in what is written of a value. -/
def Call.Plain (P : Platform V) (separator : String) (c : Call V) : Prop :=
  ∀ item ∈ c.data.values, newline ∉ row P separator c.data item

instance : Decidable (c.Plain P separator) := inferInstanceAs (Decidable (∀ item ∈ _, _))

theorem lines_text (h : c.Plain P separator) :
    lines newline (bytes (c.text P separator)) = (c.rows P separator, []) := by
  rw [Call.text, bytes_format]
  exact lines_eq_iff.mpr ⟨(List.append_nil _).symm, List.forall_mem_map.mpr h, List.not_mem_nil⟩

/-- The whole lines that the pipe takes are the first ones of the record. -/
theorem whole_beginning (h : c.Plain P separator) : c.whole P separator <+: c.rows P separator := by
  have hpart : c.written P separator <+: bytes (c.text P separator) := written_beginning
  have hpre : (lines newline (c.written P separator)).1 <+: _ := lines_prefix hpart
  rw [lines_text h] at hpre
  exact hpre

/-- A call that returns `true` tears no line, and the pipe takes all of them or none. -/
theorem whole_of_true (h : c.Plain P separator) (htrue : c.ended P separator = .returned true) :
    c.torn P separator = [] ∧
      (c.whole P separator = [] ∨ c.whole P separator = c.rows P separator) := by
  unfold Call.torn Call.whole
  rcases written_of_true htrue with hw | hw <;> rw [hw]
  · exact ⟨rfl, Or.inl rfl⟩
  · rw [lines_text h]
    exact ⟨rfl, Or.inr rfl⟩

/-- For every sequence of calls: the reader gets the whole lines of the calls, which are lines of their
    records, and nothing else, exactly if no call behind a torn line writes a line; and only a call that
    has not returned `true` tears one. -/
theorem stream_read_iff (h : ∀ c ∈ cs, c.Plain P separator) :
    ((lines newline (stream P separator cs)).1 = cs.flatMap (Call.whole P separator) ↔
      cs.Pairwise fun c c' => c.torn P separator ≠ [] → c'.whole P separator = []) ∧
    ∀ c ∈ cs, c.whole P separator <+: c.rows P separator ∧
      (c.torn P separator ≠ [] → c.ended P separator ≠ .returned true) := by
  refine ⟨?_, fun c hc => ⟨whole_beginning (h c hc), fun htorn htrue => ?_⟩⟩
  · have hread := items_read_iff newline (cs.map (Call.written P separator))
    rwa [List.flatMap_map, List.pairwise_map] at hread
  · exact htorn (whole_of_true (h c hc) htrue).1

/-- A call that is interrupted in its second line, and one that is not. -/
def sampleCalls : List (Call Reading) :=
  let o : Outcomes := ⟨fun _ => .ok 3, fun _ => true, .other, some true, []⟩
  [⟨sampleRecord, o, [.took 50, .interrupted]⟩,
    ⟨sampleRecord, o, [.took 30, .took 60]⟩]

/-- The line of the second call that follows the torn one is lost. -/
theorem sample_stream_read : (lines newline (stream sample DEFAULT_SEPARATOR sampleCalls)).1 ≠
    sampleCalls.flatMap (Call.whole sample DEFAULT_SEPARATOR) := by
  rw [ne_eq, (stream_read_iff (by decide +kernel)).1]
  decide +kernel

/-- Where every call returns `true`, the reader gets the records that found a reader, whole and in the
    order of the calls, and nothing is left behind the last line. -/
theorem delivered_read (h : ∀ c ∈ cs, c.Plain P separator)
    (htrue : ∀ c ∈ cs, c.ended P separator = .returned true) :
    lines newline (stream P separator cs) =
      ((cs.filter (fun c => c.written P separator ≠ [])).flatMap (Call.rows P separator), []) := by
  induction cs with
  | nil => rfl
  | cons c cs ih =>
    have hrest := ih (fun c' hc => h c' (List.mem_cons_of_mem c hc))
      fun c' hc => htrue c' (List.mem_cons_of_mem c hc)
    have hsplit : stream P separator (c :: cs) = c.written P separator ++ stream P separator cs := rfl
    rw [hsplit]
    rcases written_of_true (htrue c List.mem_cons_self) with hw | hw
    · rw [hw, List.nil_append, hrest, List.filter_cons_of_neg (by simp [hw])]
    · have hplain := h c List.mem_cons_self
      rw [hw, Call.text, bytes_format, lines_terminated (List.forall_mem_map.mpr hplain), hrest]
      by_cases hne : c.written P separator = []
      · -- a record without values has an empty text
        rw [List.filter_cons_of_neg (by simp [hne])]
        have hnil : c.rows P separator = [] := by
          have htext := lines_text hplain
          rw [← hw, hne] at htext
          exact (Prod.mk.inj htext).1.symm
        rw [show c.data.values.map (row P separator c.data) = [] from hnil, List.nil_append]
      · rw [List.filter_cons_of_pos (by simp [hne]), List.flatMap_cons]
        rfl

end NamedPipeExporter
end BeeeOn
