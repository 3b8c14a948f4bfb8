import Gateway.Schemes.Separated
import Gateway.Exporters.Shipping
import Gateway.Zmq.Message
import Gateway.Model.Sample

/-! @src util/CSVSensorDataFormatter.cpp, model/SensorData.h | name:Records as CSV | family:formats

    One line for each value of a record: the word `sensor`, the time in seconds, the device, the module
    and the value, with the separator behind each. Nothing is quoted, so what a reader of lines and
    columns gets back depends on the separator and on the texts: it gets the fields of every value
    exactly if none of them has a newline in it, and the separator is met first where it stands
    (`format_read_iff`). A separator of one character only has to be absent from the fields. -/

namespace BeeeOn
open Schemes Separated
variable {V : Type}

/-- `SensorData` with its timestamp, in microseconds. -/
structure Record (V : Type) extends SensorData V where
  timestamp : ℤ
  deriving DecidableEq, Repr

namespace CSVSensorDataFormatter
open NamedPipeExporter (bytes)

def DEFAULT_SEPARATOR : String := ";"

/-- `Timestamp::epochTime`. -/
def epochTime (timestamp : ℤ) : ℤ := timestamp.tdiv SECONDS

/-- The base library, and `NumberFormatter::format` of a double with two places. -/
structure Platform (V : Type) where
  base : Base V
  decimal : V → String

variable (P : Platform V) (separator : String)

/-- `CSVSensorDataFormatter::format`. -/
def format (data : Record V) : String :=
  let device := P.base.deviceIDText data.deviceID
  let timestamp := toString (epochTime data.timestamp)
  data.values.foldl (fun output item =>
    let output := output ++ ("sensor" ++ separator ++ timestamp ++ separator ++ device ++ separator)
    let output := output ++ (item.moduleID.toString ++ separator)
    let output := output ++ (P.decimal item.value ++ separator)
    output ++ "\n") ""

/-- The fields of the line for one value. -/
def fields (data : Record V) (item : SensorValue V) : List String :=
  ["sensor", toString (epochTime data.timestamp), P.base.deviceIDText data.deviceID,
    item.moduleID.toString, P.decimal item.value]

/-- The byte of a newline. -/
def newline : UInt8 := 10

/-- The line for one value, without the newline. -/
def row (data : Record V) (item : SensorValue V) : List UInt8 :=
  terminated (bytes separator) ((fields P data item).map bytes)

/-- A reader of lines and columns. -/
def read (separator : List UInt8) (text : List UInt8) : List (List (List UInt8) × List UInt8) :=
  (lines newline text).1.map (columns separator)

/-! ### Writing -/

theorem bytes_append (s t : String) : bytes (s ++ t) = bytes s ++ bytes t := by
  simp [bytes, String.toByteArray_append]

section
variable {P separator}

/-- The text is made of the lines, each with a newline behind it. -/
theorem bytes_format (data : Record V) : bytes (format P separator data) =
    terminated [newline] (data.values.map (row P separator data)) := by
  have hfold : ∀ (values : List (SensorValue V)) (output : String),
      bytes (values.foldl (fun output item =>
        output ++ ("sensor" ++ separator ++ toString (epochTime data.timestamp) ++ separator ++
          P.base.deviceIDText data.deviceID ++ separator) ++ (item.moduleID.toString ++ separator) ++
          (P.decimal item.value ++ separator) ++ "\n") output) =
        bytes output ++ terminated [newline] (values.map (row P separator data)) := by
    intro values
    induction values with
    | nil => intro output; simp
    | cons item values ih =>
      intro output
      rw [List.foldl_cons, ih, List.map_cons, terminated_cons]
      have hnewline : bytes "\n" = [newline] := rfl
      simp only [bytes_append, row, fields, List.map_cons, List.map_nil, terminated_cons,
        terminated_nil, hnewline, List.append_assoc, List.append_nil]
  have h := hfold data.values ""
  rwa [show bytes "" = [] from rfl, List.nil_append] at h

/-! ### Reading -/

/-- What is written of one value is read as it is. -/
def Legible (P : Platform V) (separator : String) (data : Record V) (item : SensorValue V) : Prop :=
  newline ∉ bytes separator ∧ ∀ field ∈ fields P data item,
    newline ∉ bytes field ∧ Clear (bytes separator) (bytes field)

instance (data : Record V) (item : SensorValue V) : Decidable (Legible P separator data item) :=
  inferInstanceAs (Decidable (_ ∧ _))

theorem newline_row_iff (data : Record V) (item : SensorValue V) :
    newline ∉ row P separator data item ↔
      newline ∉ bytes separator ∧ ∀ field ∈ fields P data item, newline ∉ bytes field := by
  simp only [row, terminated, List.mem_flatMap, List.mem_map, List.mem_append, not_exists, not_and,
    not_or, forall_exists_index, and_imp, forall_apply_eq_imp_iff₂]
  constructor
  · intro h
    exact ⟨(h "sensor" List.mem_cons_self).2, fun field hf => (h field hf).1⟩
  · intro h field hf
    exact ⟨h.2 field hf, h.1⟩

/-- The lines of a text are the lines that were written exactly if there is no newline in one. -/
theorem lines_format_iff (data : Record V) :
    (lines newline (bytes (format P separator data))).1.length = data.values.length ↔
      ∀ item ∈ data.values, newline ∉ row P separator data item := by
  rw [length_lines, bytes_format]
  have hcount := (count_terminated newline (data.values.map (row P separator data))).2
  rw [List.length_map] at hcount
  rw [hcount, List.forall_mem_map]

/-- A reader gets the fields of every value of a record, and nothing else, exactly if what is written of
    each value is legible. -/
theorem format_read_iff (data : Record V) :
    read (bytes separator) (bytes (format P separator data)) =
        data.values.map (fun item => ((fields P data item).map bytes, [])) ↔
      ∀ item ∈ data.values, Legible P separator data item := by
  have hlines : (∀ item ∈ data.values, newline ∉ row P separator data item) →
      (lines newline (bytes (format P separator data))).1 = data.values.map (row P separator data) := by
    intro h
    rw [bytes_format, (lines_eq_iff (r := [])).mpr ⟨(List.append_nil _).symm, ?_, List.not_mem_nil⟩]
    exact List.forall_mem_map.mpr h
  have hrow : ∀ item, columns (bytes separator) (row P separator data item) =
      ((fields P data item).map bytes, []) ↔
        ∀ field ∈ fields P data item, Clear (bytes separator) (bytes field) := by
    intro item
    rw [row, columns_iff, List.forall_mem_map]
  constructor
  · intro h
    have hlen := congrArg List.length h
    rw [read, List.length_map, List.length_map] at hlen
    have hnewline := (lines_format_iff data).mp hlen
    rw [read, hlines hnewline, List.map_map, List.map_inj_left] at h
    intro item hitem
    obtain ⟨hs, hf⟩ := (newline_row_iff data item).mp (hnewline item hitem)
    exact ⟨hs, fun field hfield => ⟨hf field hfield, (hrow item).mp (h item hitem) field hfield⟩⟩
  · intro h
    have hnewline : ∀ item ∈ data.values, newline ∉ row P separator data item := fun item hitem =>
      (newline_row_iff data item).mpr ⟨(h item hitem).1, fun field hf => ((h item hitem).2 field hf).1⟩
    rw [read, hlines hnewline, List.map_map, List.map_inj_left]
    exact fun item hitem => (hrow item).mpr fun field hf => ((h item hitem).2 field hf).2

/-- The two places that the base library gives the readings of the sample. -/
def sample : Platform Reading where
  base := Sample.base
  decimal
    | .nan => "nan"
    | .warm => "123.50"
    | .cold => "-59.40"

/-- Two values of a device. -/
def sampleRecord : Record Reading where
  deviceID := Sample.ofWord 0xa800000000000001
  values := [⟨⟨0⟩, .warm, true⟩, ⟨⟨1⟩, .cold, true⟩]
  timestamp := 1500000

theorem sample_format_read :
    read (bytes DEFAULT_SEPARATOR) (bytes (format sample DEFAULT_SEPARATOR sampleRecord)) =
      sampleRecord.values.map (fun item => ((fields sample sampleRecord item).map bytes, [])) :=
  (format_read_iff sampleRecord).mpr (by decide +kernel)

end

end CSVSensorDataFormatter
end BeeeOn
