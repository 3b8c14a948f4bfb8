import Gateway.Jablotron.Parser
import Gateway.Schemes.Regex

/-! @src jablotron/JablotronDeviceManager.cpp | name:Frames from the serial line | family:parsing

    The dongle puts a newline before and after each message. `readFromSerial` looks for the first line
    in what it has read so far, wherever that starts, and then cuts the length of a frame off the front:
    a newline too much stays in front of the next frame, and one that is missing is taken from it. So
    what has not been extracted yet, read or still to come, is always a sequence of whole frames up to
    one newline at its front (`Aligned`), and no message is lost, however the stream is cut
    (`messages_extracted`). A character is a byte. -/

namespace BeeeOn.JablotronDeviceManager
open Schemes

/-- `(?!\n)[^\n]*(?=\n)` -/
def lineRegex : Regex Char :=
  .seq (.notAhead (.one (· = '\n'))) (.seq (.star (· ≠ '\n')) (.ahead (.one (· = '\n'))))

/-- What a call of `readFromSerial` returns, and the `data` that it stores. -/
structure Received where
  ret : Bool
  data : Option (List Char)
  deriving DecidableEq, Repr

/-- `readFromSerial`, with `m_buffer` before and after, when `sread` gives `chunk`. -/
def readFromSerial (buffer chunk : List Char) : Received × List Char :=
  match lineRegex.firstMatch (buffer ++ chunk) with
  | none => (⟨false, none⟩, buffer ++ chunk)
  | some data => (⟨!(data = "OK".toList || data = "ERROR".toList), some data⟩,
      (buffer ++ chunk).drop (data.length + 2))

/-- Successive calls, by the chunks that `sread` gives them. -/
def readAll (buffer : List Char) : List (List Char) → List Received
  | [] => []
  | chunk :: chunks =>
    (readFromSerial buffer chunk).1 :: readAll (readFromSerial buffer chunk).2 chunks

/-- What they extract. -/
def extracted (rs : List Received) : List (List Char) := rs.filterMap Received.data

/-! ### Frames -/

structure Message where
  text : List Char
  ne : text ≠ []
  newline : '\n' ∉ text

def Message.frame (m : Message) : List Char := '\n' :: (m.text ++ ['\n'])

def frames (ms : List Message) : List Char := ms.flatMap Message.frame

/-- The message of a frame that the stream begins in the middle of, if any of it is left. -/
def leading (partFrame : List Char) : List Message :=
  if h : partFrame.filter (· ≠ '\n') = [] then []
  else [⟨partFrame.filter (· ≠ '\n'), h, by simp⟩]

/-- Whole frames, or with a newline too much or too few in front. -/
def Aligned (stream : List Char) (ms : List Message) : Prop :=
  stream = frames ms ∨ stream = '\n' :: frames ms ∨ '\n' :: stream = frames ms

theorem frames_cons (m : Message) (ms : List Message) :
    frames (m :: ms) = '\n' :: (m.text ++ '\n' :: frames ms) := by
  simp [frames, Message.frame]

theorem length_leading (partFrame : List Char) : (leading partFrame).length ≤ 1 := by
  unfold leading
  split_ifs <;> simp

theorem leading_of_ne {q : List Char} (hq : q ≠ []) (hn : '\n' ∉ q) {partFrame : List Char}
    (hp : partFrame.filter (· ≠ '\n') = q) : leading partFrame = [⟨q, hq, hn⟩] := by
  subst hp
  rw [leading, dif_neg hq]

theorem ne_newline {q : List Char} (hq : '\n' ∉ q) : ∀ c ∈ q, ¬ c = '\n' := by
  rintro c hc rfl
  exact hq hc

/-- A stream that begins with a part of a frame. -/
theorem aligned_start {partFrame : List Char} {m : Message} (hp : partFrame <:+ m.frame)
    (ms : List Message) : Aligned (partFrame ++ frames ms) (leading partFrame ++ ms) := by
  rcases List.suffix_cons_iff.mp hp with rfl | hp
  · have hlead : leading ('\n' :: (m.text ++ ['\n'])) = [m] :=
      leading_of_ne m.ne m.newline (by simpa using ne_newline m.newline)
    rw [hlead]
    exact Or.inl rfl
  · rcases List.suffix_concat_iff.mp hp with rfl | ⟨q, rfl, hq⟩
    · exact Or.inl rfl
    · have hn : '\n' ∉ q := fun h => m.newline (hq.subset h)
      by_cases hnil : q = []
      · subst hnil
        exact Or.inr (Or.inl rfl)
      · have hlead : leading (q ++ ['\n']) = [⟨q, hnil, hn⟩] :=
          leading_of_ne hnil hn (by simpa using ne_newline hn)
        rw [hlead]
        exact Or.inr (Or.inr (by simp [frames, Message.frame]))

/-! ### The first line of a buffer -/

theorem firstMatch_newline (s : List Char) :
    lineRegex.firstMatch ('\n' :: s) = lineRegex.firstMatch s :=
  Regex.firstMatch_cons (by rw [lineRegex, Regex.ways_notAhead_seq]; rfl)

theorem firstMatch_newlines (j : ℕ) (s : List Char) :
    lineRegex.firstMatch (List.replicate j '\n' ++ s) = lineRegex.firstMatch s := by
  induction j with
  | zero => rfl
  | succ j ih => rw [List.replicate_succ, List.cons_append, firstMatch_newline, ih]

theorem firstMatch_message (m : Message) (s : List Char) :
    lineRegex.firstMatch (m.text ++ '\n' :: s) = some m.text := by
  have hrun : Regex.ways (.seq (.star (· ≠ '\n')) (.ahead (.one (· = '\n')))) (m.text ++ '\n' :: s) =
      [m.text.length] := by
    refine Regex.ways_run (fun c hc => ?_) (by decide) (by decide) s
    simp [ne_newline m.newline c hc]
  have hways : Regex.ways lineRegex (m.text ++ '\n' :: s) = [m.text.length] := by
    rw [lineRegex, Regex.ways_notAhead_seq, hrun, if_neg]
    obtain ⟨c, cs, hcs⟩ := List.exists_cons_of_ne_nil m.ne
    simp [hcs, ne_newline m.newline c (hcs ▸ List.mem_cons_self)]
  rw [Regex.firstMatch_of_ways hways, List.take_left]

theorem firstMatch_none {s : List Char} (hs : '\n' ∉ s) : lineRegex.firstMatch s = none := by
  refine Regex.firstMatch_eq_none fun t ht => ?_
  rw [lineRegex, Regex.ways_notAhead_seq, Regex.ways_run_nil, ite_self]
  intro c hc
  simp [ne_newline hs c (ht.subset hc)]

/-- What has been read of a stream that begins with `j` newlines and a message: the whole message with its
    newline, or nothing that ends in one. -/
theorem buffer_cases {j : ℕ} {m : Message} {t b future : List Char}
    (h : b ++ future = List.replicate j '\n' ++ (m.text ++ '\n' :: t)) :
    (∃ u, b = List.replicate j '\n' ++ (m.text ++ '\n' :: u) ∧ u ++ future = t) ∨
    ((∃ i q, b = List.replicate i '\n' ++ q ∧ '\n' ∉ q) ∧ future ≠ []) := by
  rcases List.append_eq_append_iff.mp h with ⟨as, hj, hfuture⟩ | ⟨bs, rfl, hbs⟩
  · refine Or.inr ⟨?_, by rw [hfuture]; simp⟩
    obtain ⟨-, hb, -⟩ := List.append_eq_replicate_iff.mp hj.symm
    exact ⟨b.length, [], by rw [List.append_nil]; exact hb, by simp⟩
  · rcases List.append_eq_append_iff.mp hbs with ⟨as, rfl, has⟩ | ⟨cs, hm, hfuture⟩
    · cases as with
      | nil =>
        refine Or.inr ⟨⟨j, m.text, by rw [List.append_nil], m.newline⟩, ?_⟩
        rw [List.nil_append] at has
        exact has ▸ List.cons_ne_nil _ _
      | cons c u =>
        rw [List.cons_append, List.cons.injEq] at has
        obtain ⟨rfl, rfl⟩ := has
        exact Or.inl ⟨u, rfl, rfl⟩
    · refine Or.inr ⟨⟨j, bs, rfl, fun hn => m.newline ?_⟩, by rw [hfuture]; simp⟩
      rw [hm]
      exact List.mem_append_left _ hn

/-! ### One call -/

theorem aligned_cons {stream : List Char} {m : Message} {ms : List Message}
    (h : Aligned stream (m :: ms)) :
    ∃ j ≤ 2, stream = List.replicate j '\n' ++ (m.text ++ '\n' :: frames ms) := by
  rw [Aligned, frames_cons] at h
  rcases h with rfl | rfl | h
  · exact ⟨1, by decide, rfl⟩
  · exact ⟨2, le_rfl, rfl⟩
  · exact ⟨0, by decide, List.tail_eq_of_cons_eq h⟩

/-- No message is left: there is at most a newline. -/
theorem newlines_of_aligned {stream : List Char} (h : Aligned stream []) :
    ∃ i, stream = List.replicate i '\n' := by
  rcases h with rfl | rfl | h
  · exact ⟨0, rfl⟩
  · exact ⟨1, rfl⟩
  · cases h

/-- Behind a message the length of its frame is cut off, or all there is. -/
theorem aligned_drop {j : ℕ} (hj : j ≤ 2) {m : Message} {ms : List Message} {u future : List Char}
    (hu : u ++ future = frames ms) :
    Aligned ((List.replicate j '\n' ++ (m.text ++ '\n' :: u)).drop (m.text.length + 2) ++ future) ms := by
  interval_cases j
  · rw [List.replicate_zero, List.nil_append, List.drop_length_add_append]
    -- the newline that is missing is that of the next frame, if it has been read
    cases u with
    | nil => exact Or.inl hu
    | cons c u =>
      cases ms with
      | nil => cases hu
      | cons m' ms =>
        rw [frames_cons, List.cons_append, List.cons.injEq] at hu
        refine Or.inr (Or.inr ?_)
        rw [frames_cons, ← hu.2]
        rfl
  · rw [List.replicate_one, List.singleton_append, List.drop_succ_cons, List.drop_length_add_append]
    exact Or.inl hu
  · have hlen : m.text.length + 2 = m.text.length + 0 + 2 := rfl
    rw [hlen]
    refine Or.inr (Or.inl ?_)
    rw [← hu, ← List.cons_append]
    refine congrArg (· ++ future) ?_
    exact List.drop_left

/-- A call that stores nothing has read all there is of a line without an end; one that does takes the
    first message, and what is left is frames again. -/
theorem read_aligned (buffer chunk future : List Char) {ms : List Message}
    (h : Aligned (buffer ++ chunk ++ future) ms) :
    ((readFromSerial buffer chunk).1.data = none ∧
      (readFromSerial buffer chunk).2 = buffer ++ chunk ∧ (future = [] → ms = [])) ∨
    ∃ m ms', ms = m :: ms' ∧ (readFromSerial buffer chunk).1.data = some m.text ∧
      Aligned ((readFromSerial buffer chunk).2 ++ future) ms' := by
  unfold readFromSerial
  cases ms with
  | nil =>
    obtain ⟨i, hi⟩ := newlines_of_aligned h
    obtain ⟨-, hb, -⟩ := List.append_eq_replicate_iff.mp hi
    have hnone : lineRegex.firstMatch (buffer ++ chunk) = none := by
      rw [hb, ← List.append_nil (List.replicate _ _), firstMatch_newlines]
      exact firstMatch_none List.not_mem_nil
    rw [hnone]
    exact Or.inl ⟨rfl, rfl, fun _ => rfl⟩
  | cons m ms =>
    obtain ⟨j, hj, hstream⟩ := aligned_cons h
    rcases buffer_cases hstream with ⟨u, hb, hu⟩ | ⟨⟨i, q, hb, hq⟩, hfuture⟩
    · rw [hb, firstMatch_newlines, firstMatch_message]
      exact Or.inr ⟨m, ms, rfl, rfl, aligned_drop hj hu⟩
    · rw [hb, firstMatch_newlines, firstMatch_none hq]
      exact Or.inl ⟨rfl, rfl, fun hnil => absurd hnil hfuture⟩

/-! ### Runs -/

theorem readAll_append (buffer : List Char) (chunks chunks' : List (List Char)) :
    ∃ buffer', readAll buffer (chunks ++ chunks') = readAll buffer chunks ++ readAll buffer' chunks' := by
  induction chunks generalizing buffer with
  | nil => exact ⟨buffer, rfl⟩
  | cons chunk chunks ih =>
    obtain ⟨buffer', h⟩ := ih (readFromSerial buffer chunk).2
    exact ⟨buffer', by rw [List.cons_append, readAll, h]; rfl⟩

theorem extracted_cons_none {r : Received} {rs : List Received} (h : r.data = none) :
    extracted (r :: rs) = extracted rs := List.filterMap_cons_none h

theorem extracted_cons_some {r : Received} {rs : List Received} {m : List Char} (h : r.data = some m) :
    extracted (r :: rs) = m :: extracted rs := List.filterMap_cons_some h

/-- Calls that read nothing more extract what has been read, a message each. -/
theorem extracted_buffered {buffer : List Char} {ms : List Message} {n : ℕ} (h : Aligned buffer ms)
    (hn : ms.length ≤ n) : extracted (readAll buffer (List.replicate n [])) = ms.map Message.text := by
  induction n generalizing buffer ms with
  | zero => rw [List.length_eq_zero_iff.mp (Nat.le_zero.mp hn)]; rfl
  | succ n ih =>
    rw [List.replicate_succ, readAll]
    rcases read_aligned buffer [] [] (by simpa using h) with
      ⟨hdata, hbuffer, hnil⟩ | ⟨m, ms', rfl, hdata, hnext⟩
    · rw [extracted_cons_none hdata, hbuffer, List.append_nil]
      exact ih h (by rw [hnil rfl]; exact Nat.zero_le n)
    · rw [extracted_cons_some hdata, List.map_cons]
      rw [List.append_nil] at hnext
      rw [ih hnext (Nat.le_of_succ_le_succ hn)]

/-- Once the stream has been read, as many calls as there are messages extract all of them. -/
theorem extracted_all (chunks : List (List Char)) {buffer : List Char} {ms : List Message} {n : ℕ}
    (h : Aligned (buffer ++ chunks.flatten) ms) (hn : ms.length ≤ n) :
    extracted (readAll buffer (chunks ++ List.replicate n [])) = ms.map Message.text := by
  induction chunks generalizing buffer ms with
  | nil =>
    rw [List.flatten_nil, List.append_nil] at h
    exact extracted_buffered h hn
  | cons chunk chunks ih =>
    rw [List.flatten_cons, ← List.append_assoc] at h
    rw [List.cons_append, readAll]
    rcases read_aligned buffer chunk _ h with ⟨hdata, hbuffer, -⟩ | ⟨m, ms', rfl, hdata, hnext⟩
    · rw [extracted_cons_none hdata]
      rw [← hbuffer] at h
      exact ih h hn
    · rw [extracted_cons_some hdata, List.map_cons]
      rw [ih hnext (Nat.le_of_succ_le hn)]

/-- A call returns false if it stores nothing, or one of the two replies. -/
theorem ret_eq_false_iff (buffer chunk : List Char) : (readFromSerial buffer chunk).1.ret = false ↔
    ∀ data ∈ (readFromSerial buffer chunk).1.data, data = "OK".toList ∨ data = "ERROR".toList := by
  unfold readFromSerial
  split
  · exact iff_of_true rfl nofun
  · simp only [Bool.not_eq_false', Bool.or_eq_true, decide_eq_true_eq, Option.mem_some_iff, forall_eq']

theorem readAll_ret (buffer : List Char) (chunks : List (List Char)) :
    ∀ r ∈ readAll buffer chunks, (r.ret = false ↔
      ∀ data ∈ r.data, data = "OK".toList ∨ data = "ERROR".toList) := by
  induction chunks generalizing buffer with
  | nil => nofun
  | cons chunk chunks ih =>
    intro r hr
    rcases List.mem_cons.mp hr with rfl | hr
    · exact ret_eq_false_iff buffer chunk
    · exact ih _ r hr

/-- For every stream that begins anywhere in a frame, and every way of cutting it: the calls extract its
    messages in their order, the first perhaps only in part, and nothing else; all of them, once the
    stream has been read and there were as many calls more; and they return false exactly if they have
    extracted nothing, `OK` or `ERROR`. -/
theorem messages_extracted {partFrame : List Char} {m : Message} (hp : partFrame <:+ m.frame)
    (ms : List Message) (chunks : List (List Char)) (hc : chunks.flatten = partFrame ++ frames ms)
    (n : ℕ) :
    let rs := readAll [] (chunks ++ List.replicate n [])
    (leading partFrame).length ≤ 1 ∧
    extracted rs <+: (leading partFrame ++ ms).map Message.text ∧
    ((leading partFrame ++ ms).length ≤ n →
      extracted rs = (leading partFrame ++ ms).map Message.text) ∧
    ∀ r ∈ rs, (r.ret = false ↔ ∀ data ∈ r.data, data = "OK".toList ∨ data = "ERROR".toList) := by
  have h : Aligned ([] ++ chunks.flatten) (leading partFrame ++ ms) := by
    rw [List.nil_append, hc]
    exact aligned_start hp ms
  refine ⟨length_leading partFrame, ?_, extracted_all chunks h, readAll_ret _ _⟩
  obtain ⟨buffer', happ⟩ := readAll_append [] (chunks ++ List.replicate n [])
    (List.replicate (leading partFrame ++ ms).length [])
  have hall := extracted_all (n := n + (leading partFrame ++ ms).length) chunks h (Nat.le_add_left _ n)
  rw [List.replicate_add, ← List.append_assoc, happ, extracted, List.filterMap_append] at hall
  exact ⟨_, hall⟩

/-- The end of one frame and another, in two chunks that cut the newlines between them apart. -/
theorem messages_extracted_cut :
    extracted (readAll [] (["B\n".toList, "\nOK\n".toList] ++ List.replicate 2 [])) =
      ["B".toList, "OK".toList] := by
  let ab : Message := ⟨"AB".toList, by decide, by decide⟩
  let ok : Message := ⟨"OK".toList, by decide, by decide⟩
  have hp : "B\n".toList <:+ ab.frame := ⟨"\nA".toList, rfl⟩
  exact (messages_extracted hp [ok] ["B\n".toList, "\nOK\n".toList] rfl 2).2.2.1 (by decide)

end BeeeOn.JablotronDeviceManager
