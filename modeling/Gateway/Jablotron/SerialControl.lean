import Gateway.Schemes.Descriptors
import Mathlib.Data.List.Basic

/-! @src jablotron/SerialControl.cpp | name:The serial line of the Jablotron dongle | family:resources

    `sread` takes what there is on the line into a buffer of 64 bytes: it asks `select` whether there is
    something and appends what one `read` gives, until there is nothing more or the buffer is full. What
    the system answers is an input, turn by turn.

    A read that fails closes the line, but the loop goes on with it: the next `select` has the
    descriptor -1, and the -1 of the read has been taken off the count. So the call is in order exactly
    as long as no read fails (`sread_iff`). `closeSerial` tests the wrong way round: it closes what is
    not valid and forgets what is. -/

namespace BeeeOn
open Schemes
namespace SerialControl

def MAX_BUFF_SIZE : ℤ := 64
def MAX_REOPEN_COUNT : ℕ := 10

/-- What the system answers to `sopen`: the descriptor, if there is one, and whether the three calls
    that set the line up succeed. -/
structure Opening where
  opened : Option ℕ
  flushIn : Bool
  flushOut : Bool
  setAttr : Bool

/-- What it answers in one turn of the loop of `sread`: the result of `select`, and the bytes that a
    `read` would find, none at the end of the file, or its error. -/
structure Turn where
  ret : ℤ
  found : Except Unit (List Char)

/-- What `sread` does: its calls, and the places of the buffer that it writes. -/
inductive Event where
  | select (fd : ℤ)
  | read (fd offset length : ℤ) (bytes : List Char)
  | store (index : ℤ)
  | descriptor (op : DescriptorOp)
  deriving DecidableEq, Repr

def isValidFd (m_serialFd : ℤ) : Bool := 0 ≤ m_serialFd

/-- The test is the wrong way round; `m_serialFd` is -1 afterwards. -/
def closeSerial (m_serialFd : ℤ) : List DescriptorOp :=
  if isValidFd m_serialFd then [] else [.closed m_serialFd]

namespace Opening

def fd (o : Opening) : ℤ := (o.opened.map Nat.cast).getD (-1)

def ops (o : Opening) : List DescriptorOp := o.opened.toList.map fun n : ℕ => .opened n

def configured (o : Opening) : Bool := o.flushIn && o.flushOut && o.setAttr

end Opening

/-- `sopen`: where the line cannot be set up, it is not the new descriptor that is closed. -/
def sopen (m_serialFd : ℤ) (o : Opening) : ℤ × List DescriptorOp :=
  if o.configured then (o.fd, o.ops) else (-1, o.ops ++ closeSerial m_serialFd)

/-- `initSerial`: the descriptor afterwards. -/
def initSerial (m_serialFd : ℤ) (o : Opening) : ℤ × List DescriptorOp := sopen m_serialFd o

/-- `ssend`, with what `write` returns; it is true where the write has failed. -/
def ssend (written : ℤ) : Bool := written < 0

/-! ### Reading -/

/-- The locals of `sread` between two turns, with what it has done. The buffer is zero where nothing has
    been written. -/
structure Locals where
  fd : ℤ
  count : ℤ
  i : ℕ
  buffer : ℤ → Char
  log : List Event

/-- What a call of `sread` leaves. -/
structure Done where
  fd : ℤ
  log : List Event
  text : List Char

/-- `string(buffer)`: up to the first zero. -/
def text (buffer : ℤ → Char) : List Char :=
  ((List.range 65).map fun j : ℕ => buffer j).takeWhile (· ≠ '\x00')

/-- The bytes of a `read` of this length. -/
def Turn.bytes (t : Turn) (length : ℤ) : List Char :=
  match t.found with
  | .ok bytes => bytes.take length.toNat
  | .error _ => []

/-- What the `read` returns. -/
def Turn.n (t : Turn) (length : ℤ) : ℤ :=
  match t.found with
  | .ok _ => (t.bytes length).length
  | .error _ => -1

/-- The buffer with bytes written from the place `offset` on. -/
def write (buffer : ℤ → Char) (offset : ℤ) (bytes : List Char) : ℤ → Char := fun j =>
  if offset ≤ j then (bytes[(j - offset).toNat]?).getD (buffer j) else buffer j

/-- One turn of the loop. -/
def body (t : Turn) (s : Locals) : Locals ⊕ Done :=
  if t.ret ≠ 1 then .inr ⟨s.fd, s.log ++ [.select s.fd], text s.buffer⟩
  else
    let length := MAX_BUFF_SIZE - s.count
    let n := t.n length
    let read : List Event := [.select s.fd, .read s.fd s.count length (t.bytes length)]
    let closed := read ++ (closeSerial s.fd).map .descriptor
    if n ≤ 0 ∧ s.i > MAX_REOPEN_COUNT then .inr ⟨-1, s.log ++ closed, []⟩
    else
      let count := s.count + n
      let next : Locals :=
        { fd := if n ≤ 0 then -1 else s.fd
          count := count
          i := if n ≤ 0 then s.i + 1 else s.i
          buffer := Function.update (write s.buffer s.count (t.bytes length)) count '\x00'
          log := s.log ++ ((if n ≤ 0 then closed else read) ++ [.store count]) }
      if count < MAX_BUFF_SIZE then .inl next else .inr ⟨next.fd, next.log, text next.buffer⟩

/-- What the loop can still do: bytes that fit, and failures. -/
def Locals.left (s : Locals) : ℕ := (MAX_BUFF_SIZE - s.count).toNat + 2 * (MAX_REOPEN_COUNT + 2 - s.i)

theorem Turn.n_le (t : Turn) (length : ℤ) : t.n length ≤ length.toNat := by
  unfold Turn.n Turn.bytes
  split
  · rename_i bytes _
    simp only
    have := List.length_take_le length.toNat bytes
    omega
  · omega

theorem Turn.neg_one_le_n (t : Turn) (length : ℤ) : -1 ≤ t.n length := by
  unfold Turn.n
  split <;> omega

/-- Every turn after which the loop goes on uses up something. -/
theorem left_lt {t : Turn} {s s' : Locals} (h : body t s = .inl s') : s'.left < s.left := by
  have hle := t.n_le (MAX_BUFF_SIZE - s.count)
  have hge := t.neg_one_le_n (MAX_BUFF_SIZE - s.count)
  simp only [body] at h
  split_ifs at h with hret hgive hcount hn
  all_goals
    cases h
    simp only [Locals.left, MAX_BUFF_SIZE, MAX_REOPEN_COUNT] at *
    omega

/-- The loop from the turn `k` on. -/
def readLoop (turns : ℕ → Turn) (k : ℕ) (s : Locals) : Done :=
  match h : body (turns k) s with
  | .inl s' => readLoop turns (k + 1) s'
  | .inr r => r
termination_by s.left
decreasing_by exact left_lt h

/-- `sread`. -/
def sread (m_serialFd : ℤ) (o : Opening) (turns : ℕ → Turn) : Done :=
  let opening := if isValidFd m_serialFd then (m_serialFd, []) else sopen m_serialFd o
  readLoop turns 0 ⟨opening.1, 0, 0, fun _ => '\x00', opening.2.map .descriptor⟩

/-! ### What a call is to do -/

/-- `select` and `read` have a valid descriptor. -/
def Event.Valid : Event → Prop
  | .select fd | .read fd _ _ _ => 0 ≤ fd
  | .store _ | .descriptor _ => True

/-- The places of the buffer that are used are 0 to 64. -/
def Event.InBuffer : Event → Prop
  | .read _ offset length _ => 0 ≤ offset ∧ offset + length ≤ 65
  | .store index => 0 ≤ index ∧ index ≤ 64
  | .select _ | .descriptor _ => True

def Event.bytes : Event → List Char
  | .read _ _ _ bytes => bytes
  | .select _ | .store _ | .descriptor _ => []

/-- The descriptors opened and closed. -/
def Event.op : Event → Option DescriptorOp
  | .descriptor op => some op
  | .select _ | .read _ _ _ _ | .store _ => none

/-- The bytes that have been read. -/
def bytesRead (log : List Event) : List Char := log.flatMap Event.bytes

/-- The descriptors that have been opened and closed. -/
def ops (log : List Event) : List DescriptorOp := log.filterMap Event.op

/-- Valid descriptors, places inside the buffer, and all bytes that were read are returned, if none of
    them is a zero. -/
structure ReadsWell (r : Done) : Prop where
  valid : ∀ e ∈ r.log, e.Valid
  inBuffer : ∀ e ∈ r.log, e.InBuffer
  returns : '\x00' ∉ r.log.flatMap Event.bytes → r.text = r.log.flatMap Event.bytes

/-- The turn reads something. -/
def Turn.Arrives (t : Turn) : Prop := t.ret = 1 ∧ ∃ bytes, t.found = .ok bytes ∧ bytes ≠ []

/-- How much there is to read in a turn. -/
def Turn.size (t : Turn) : ℕ :=
  match t.found with
  | .ok bytes => bytes.length
  | .error _ => 0

/-- How much there is to read in `m` turns from the turn `k` on. -/
def sizes (turns : ℕ → Turn) : ℕ → ℕ → ℕ
  | _, 0 => 0
  | k, m + 1 => (turns k).size + sizes turns (k + 1) m

/-- From the turn `k` on, with `c` bytes in the buffer: as long as every turn has read something and the
    buffer is not full, a turn with something on the line reads something too. -/
def ReadsOn (turns : ℕ → Turn) (k c : ℕ) : Prop :=
  ∀ m, (∀ j < m, (turns (k + j)).Arrives) → c + sizes turns k m < 64 → (turns (k + m)).ret = 1 →
    (turns (k + m)).Arrives

/-- The line is open, and every read of the call reads something. -/
def InOrder (m_serialFd : ℤ) (o : Opening) (turns : ℕ → Turn) : Prop :=
  (0 ≤ m_serialFd ∨ o.opened.isSome ∧ o.configured) ∧ ReadsOn turns 0 0

variable {turns : ℕ → Turn} {k c : ℕ} {s s' : Locals} {t : Turn}

/-- The condition on the turns, one turn at a time. -/
theorem readsOn_iff (hc : c < 64) : ReadsOn turns k c ↔ ((turns k).ret = 1 → (turns k).Arrives ∧
    (c + (turns k).size < 64 → ReadsOn turns (k + 1) (c + (turns k).size))) := by
  have hplace : ∀ j, k + (j + 1) = k + 1 + j := fun j => by omega
  constructor
  · intro h hret
    have harr : (turns k).Arrives := h 0 (fun j hj => absurd hj (Nat.not_lt_zero j)) (by simpa [sizes]) hret
    refine ⟨harr, fun _ m hall hsum hm => ?_⟩
    rw [← hplace] at hm ⊢
    refine h (m + 1) (fun j hj => ?_) (by rw [sizes]; omega) hm
    cases j with
    | zero => exact harr
    | succ j => rw [hplace]; exact hall j (by omega)
  · intro h m hall hsum hm
    cases m with
    | zero => exact (h hm).1
    | succ m =>
      have harr : (turns k).Arrives := hall 0 (Nat.succ_pos m)
      rw [sizes] at hsum
      rw [hplace] at hm ⊢
      refine (h harr.1).2 (by omega) m (fun j hj => ?_) (by omega) hm
      rw [← hplace]
      exact hall (j + 1) (by omega)

/-! ### The loop -/

@[simp] theorem ops_append (l l' : List Event) : ops (l ++ l') = ops l ++ ops l' :=
  List.filterMap_append

@[simp] theorem ops_descriptor (l : List DescriptorOp) : ops (l.map .descriptor) = l := by
  rw [ops, List.filterMap_map]
  exact List.filterMap_some

/-- What holds between two turns as long as no read has failed: the buffer starts with the bytes that
    were read. -/
structure Steady (s : Locals) : Prop where
  i : s.i = 0
  count : s.count = (bytesRead s.log).length
  room : s.count < 64
  buffer : ∀ j : ℕ, s.buffer j = ((bytesRead s.log)[j]?).getD '\x00'
  inBuffer : ∀ e ∈ s.log, e.InBuffer

/-- How the call ends from there if no read fails: with the same descriptor, which is all that has been
    used, and the bytes. -/
structure EndsWell (s : Locals) (r : Done) : Prop where
  fd : r.fd = s.fd
  ops : ops r.log = ops s.log
  valid : 0 ≤ s.fd → (∀ e ∈ s.log, e.Valid) → ∀ e ∈ r.log, e.Valid
  inBuffer : ∀ e ∈ r.log, e.InBuffer
  returns : '\x00' ∉ bytesRead r.log → r.text = bytesRead r.log

/-- And if one does: without a descriptor, of which nothing has been closed but what is none. -/
structure EndsBadly (s : Locals) (r : Done) : Prop where
  fd : r.fd = -1
  ops : ∃ m, ops r.log = ops s.log ++ closeSerial s.fd ++ List.replicate m (.closed (-1))
  select : .select (-1) ∈ r.log

/-- The string in a buffer that starts with the bytes. -/
theorem text_eq {buffer : ℤ → Char} {bytes : List Char} (hlen : bytes.length ≤ 64)
    (hbuffer : ∀ j : ℕ, buffer j = (bytes[j]?).getD '\x00') (hzero : '\x00' ∉ bytes) :
    text buffer = bytes := by
  have hmap : ((List.range 65).map fun j : ℕ => buffer j) =
      bytes ++ List.replicate (65 - bytes.length) '\x00' := by
    refine List.ext_getElem (by simp; omega) fun j h1 h2 => ?_
    rw [List.getElem_map, List.getElem_range, hbuffer]
    by_cases hj : j < bytes.length
    · rw [List.getElem_append_left hj, List.getElem?_eq_getElem hj, Option.getD_some]
    · rw [List.getElem_append_right (by omega), List.getElem_replicate,
        List.getElem?_eq_none (by omega), Option.getD_none]
  rw [text, hmap, List.takeWhile_append_of_pos fun c hc => by
    have hne : c ≠ '\x00' := fun h => hzero (h ▸ hc)
    simpa using hne]
  cases hn : 65 - bytes.length with
  | zero => omega
  | succ n => simp [List.replicate_succ]

theorem readLoop_again (h : body (turns k) s = .inl s') :
    readLoop turns k s = readLoop turns (k + 1) s' := by
  rw [readLoop]
  split
  · rename_i s'' h'
    rw [h] at h'
    rw [Sum.inl.inj h']
  · rename_i r h'
    rw [h] at h'
    cases h'

theorem readLoop_done {r : Done} (h : body (turns k) s = .inr r) : readLoop turns k s = r := by
  rw [readLoop]
  split
  · rename_i s'' h'
    rw [h] at h'
    cases h'
  · rename_i r' h'
    rw [h] at h'
    exact (Sum.inr.inj h').symm

/-- A turn asks `select` first. -/
theorem body_log (t : Turn) (s : Locals) : (∃ s' more, body t s = .inl s' ∧
    s'.log = s.log ++ .select s.fd :: more) ∨
      ∃ r more, body t s = .inr r ∧ r.log = s.log ++ .select s.fd :: more := by
  simp only [body]
  split_ifs
  · exact Or.inr ⟨_, [], rfl, rfl⟩
  · exact Or.inr ⟨_, _, rfl, rfl⟩
  · exact Or.inl ⟨_, _, rfl, rfl⟩
  · exact Or.inl ⟨_, _, rfl, rfl⟩
  · exact Or.inr ⟨_, _, rfl, rfl⟩
  · exact Or.inr ⟨_, _, rfl, rfl⟩

/-- The loop only adds to what has been done, and first of all a `select`. -/
theorem readLoop_log (turns : ℕ → Turn) (k : ℕ) (s : Locals) :
    ∃ more, (readLoop turns k s).log = s.log ++ .select s.fd :: more := by
  induction k, s using readLoop.induct turns with
  | case1 k s s' h ih =>
    obtain ⟨rest, hrest⟩ := ih
    rcases body_log (turns k) s with ⟨s'', more, h', hlog⟩ | ⟨r, more, h', -⟩
    · obtain rfl := Sum.inl.inj (h.symm.trans h')
      refine ⟨more ++ .select s'.fd :: rest, ?_⟩
      rw [readLoop_again h, hrest, hlog]
      simp
    · cases h.symm.trans h'
  | case2 k s r h =>
    rcases body_log (turns k) s with ⟨s'', more, h', -⟩ | ⟨r', more, h', hlog⟩
    · cases h.symm.trans h'
    · obtain rfl := Sum.inr.inj (h.symm.trans h')
      exact ⟨more, by rw [readLoop_done h, hlog]⟩

/-- The buffer after bytes have been appended, and a zero after them. -/
theorem buffer_append {buffer : ℤ → Char} {before bytes : List Char} {count : ℤ}
    (hcount : count = before.length) (hbuffer : ∀ j : ℕ, buffer j = (before[j]?).getD '\x00') (j : ℕ) :
    Function.update (write buffer count bytes) (count + bytes.length) '\x00' j =
      ((before ++ bytes)[j]?).getD '\x00' := by
  subst hcount
  rw [Function.update_apply, write]
  split_ifs with hend hfrom
  · rw [List.getElem?_eq_none (by simp; omega), Option.getD_none]
  · rw [List.getElem?_append_right (by omega), hbuffer, @List.getElem?_eq_none _ before _ (by omega),
      Option.getD_none]
    congr 2
    omega
  · rw [List.getElem?_append_left (by omega), hbuffer]

/-- The locals after a turn that has read these bytes. -/
def Locals.reads (s : Locals) (bytes : List Char) : Locals where
  fd := s.fd
  count := s.count + bytes.length
  i := s.i
  buffer := Function.update (write s.buffer s.count bytes) (s.count + bytes.length) '\x00'
  log := s.log ++ [.select s.fd, .read s.fd s.count (64 - s.count) bytes,
    .store (s.count + bytes.length)]

theorem body_reads {bytes data : List Char} (hret : t.ret = 1) (hfound : t.found = .ok bytes)
    (hdata : bytes.take (64 - s.count).toNat = data) (hne : data ≠ []) :
    body t s = if s.count + data.length < 64 then .inl (s.reads data)
      else .inr ⟨s.fd, (s.reads data).log, text (s.reads data).buffer⟩ := by
  have hpos : 0 < data.length := List.length_pos_of_ne_nil hne
  have hbytes : t.bytes (MAX_BUFF_SIZE - s.count) = data := by
    rw [Turn.bytes, hfound]; exact hdata
  have hn : t.n (MAX_BUFF_SIZE - s.count) = data.length := by
    rw [← hbytes, Turn.n, hfound]
  have hlt : ¬ (data.length : ℤ) ≤ 0 := by omega
  simp only [body, hret, hbytes, hn, hlt, ne_eq, not_true, if_false, false_and]
  rfl

theorem Steady.reads (hs : Steady s) {data : List Char} (hlen : s.count + data.length ≤ 64) :
    (∀ j : ℕ, (s.reads data).buffer j = ((bytesRead (s.reads data).log)[j]?).getD '\x00') ∧
      (s.reads data).count = (bytesRead (s.reads data).log).length ∧
      ∀ e ∈ (s.reads data).log, e.InBuffer := by
  have hbytes : bytesRead (s.reads data).log = bytesRead s.log ++ data := by
    simp [Locals.reads, bytesRead, Event.bytes]
  rw [hbytes]
  refine ⟨buffer_append hs.count hs.buffer, ?_, fun e he => ?_⟩
  · have hcount := hs.count
    simp only [Locals.reads, List.length_append]
    omega
  · have h0 : 0 ≤ s.count := by rw [hs.count]; omega
    rcases List.mem_append.mp he with he | he
    · exact hs.inBuffer e he
    · simp only [List.mem_cons, List.not_mem_nil, or_false] at he
      rcases he with rfl | rfl | rfl
      · trivial
      · exact ⟨h0, by omega⟩
      · exact ⟨by omega, by omega⟩

/-- A turn that reads something, where there is room for all of it. -/
theorem steady_again (hs : Steady s) {bytes : List Char} (hret : t.ret = 1) (hfound : t.found = .ok bytes)
    (hne : bytes ≠ []) (hroom : s.count + bytes.length < 64) :
    body t s = .inl (s.reads bytes) ∧ Steady (s.reads bytes) := by
  have htake : bytes.take (64 - s.count).toNat = bytes := List.take_of_length_le (by omega)
  obtain ⟨hbuffer, hcount, hin⟩ := @Steady.reads s hs bytes (by omega)
  exact ⟨by rw [body_reads hret hfound htake hne, if_pos hroom], hs.i, hcount, hroom, hbuffer, hin⟩

theorem valid_reads {data : List Char} (hfd : 0 ≤ s.fd) (hvalid : ∀ e ∈ s.log, e.Valid) :
    ∀ e ∈ (s.reads data).log, e.Valid := by
  intro e he
  rcases List.mem_append.mp he with he | he
  · exact hvalid e he
  · simp only [List.mem_cons, List.not_mem_nil, or_false] at he
    rcases he with rfl | rfl | rfl
    · exact hfd
    · exact hfd
    · trivial

theorem ops_reads (data : List Char) : ops (s.reads data).log = ops s.log := by
  simp [Locals.reads, ops, Event.op]

/-- A turn that fills the buffer. -/
theorem steady_full (hs : Steady s) {bytes : List Char} (hret : t.ret = 1) (hfound : t.found = .ok bytes)
    (hroom : 64 ≤ s.count + bytes.length) : ∃ r, body t s = .inr r ∧ EndsWell s r := by
  have hlen : s.count + (bytes.take (64 - s.count).toNat).length = 64 := by
    have hroom' := hs.room
    rw [List.length_take_of_le (by omega)]
    omega
  have hne : bytes.take (64 - s.count).toNat ≠ [] := by
    intro hnil
    have hroom' := hs.room
    simp only [hnil, List.length_nil] at hlen
    omega
  generalize hdata : bytes.take (64 - s.count).toNat = data at hlen hne
  obtain ⟨hbuffer, hcount, hin⟩ := hs.reads hlen.le
  refine ⟨_, by rw [body_reads hret hfound hdata hne, if_neg (by omega)], rfl, ops_reads data,
    valid_reads, hin, fun hzero => text_eq ?_ hbuffer hzero⟩
  have h64 : (s.reads data).count = 64 := hlen
  simp only at *
  omega

theorem steady_idle (hs : Steady s) (hret : t.ret ≠ 1) : ∃ r, body t s = .inr r ∧ EndsWell s r := by
  have hbytes : bytesRead (s.log ++ [.select s.fd]) = bytesRead s.log := by
    simp [bytesRead, Event.bytes]
  refine ⟨_, by rw [body, if_pos hret], rfl, by simp [ops, Event.op], fun hfd hvalid e he => ?_,
    fun e he => ?_, fun hzero => ?_⟩
  · rcases List.mem_append.mp he with he | he
    · exact hvalid e he
    · rw [List.mem_singleton.mp he]; exact hfd
  · rcases List.mem_append.mp he with he | he
    · exact hs.inBuffer e he
    · rw [List.mem_singleton.mp he]; trivial
  · have hroom := hs.room
    have hcount := hs.count
    rw [hbytes] at hzero ⊢
    exact text_eq (by omega) hs.buffer hzero

/-- A read that fails closes, and the loop goes on. -/
theorem steady_fails (hs : Steady s) (hret : t.ret = 1) (hno : ¬ t.Arrives) :
    ∃ s', body t s = .inl s' ∧ s'.fd = -1 ∧ ops s'.log = ops s.log ++ closeSerial s.fd := by
  have hn : t.n (MAX_BUFF_SIZE - s.count) ≤ 0 := by
    unfold Turn.n Turn.bytes
    cases hfound : t.found with
    | error e => simp
    | ok bytes =>
      have hnil : bytes = [] := by
        by_contra hne
        exact hno ⟨hret, bytes, hfound, hne⟩
      simp [hnil]
  have hroom := hs.room
  have hcount : s.count + t.n (MAX_BUFF_SIZE - s.count) < MAX_BUFF_SIZE := by
    simp only [MAX_BUFF_SIZE] at *; omega
  have hi : ¬ s.i > MAX_REOPEN_COUNT := by rw [hs.i]; decide
  simp only [body, hret, hn, hi, hcount, ne_eq, not_true, if_false, if_true, and_false]
  refine ⟨_, rfl, rfl, ?_⟩
  rw [ops_append, ops_append, ops_append, ops_descriptor]
  exact congrArg (ops s.log ++ ·) (List.append_nil _)

/-- A turn without a descriptor leaves none, and closes at most the descriptor -1. -/
theorem body_closed (hfd : s.fd = -1) :
    (∃ s' m, body t s = .inl s' ∧ s'.fd = -1 ∧ ops s'.log = ops s.log ++ List.replicate m (.closed (-1))) ∨
      ∃ r m, body t s = .inr r ∧ r.fd = -1 ∧ ops r.log = ops s.log ++ List.replicate m (.closed (-1)) := by
  have hlog : ∀ (before after : List Event), ops before = [] → ops after = [] →
      ops (s.log ++ (before ++ after)) = ops s.log ++ List.replicate 0 (.closed (-1)) := by
    intro before after hb ha
    rw [ops_append, ops_append, hb, ha]
    rfl
  have hclosed : ∀ (before after : List Event), ops before = [] → ops after = [] →
      ops (s.log ++ (before ++ (closeSerial s.fd).map .descriptor ++ after)) =
        ops s.log ++ List.replicate 1 (.closed (-1)) := by
    intro before after hb ha
    rw [ops_append, ops_append, ops_append, ops_descriptor, hb, ha, hfd]
    rfl
  simp only [body]
  split_ifs
  · exact Or.inr ⟨_, 0, rfl, hfd, hlog [.select s.fd] [] rfl rfl⟩
  · exact Or.inr ⟨_, 1, rfl, rfl, by simpa using hclosed [.select s.fd, .read _ _ _ _] [] rfl rfl⟩
  · exact Or.inl ⟨_, 1, rfl, rfl, hclosed _ _ rfl rfl⟩
  · exact Or.inl ⟨_, 0, rfl, hfd, hlog _ _ rfl rfl⟩
  · exact Or.inr ⟨_, 1, rfl, rfl, hclosed _ _ rfl rfl⟩
  · exact Or.inr ⟨_, 0, rfl, hfd, hlog _ _ rfl rfl⟩

theorem readLoop_closed (turns : ℕ → Turn) (k : ℕ) (s : Locals) (hfd : s.fd = -1) :
    (readLoop turns k s).fd = -1 ∧
      ∃ m, ops (readLoop turns k s).log = ops s.log ++ List.replicate m (.closed (-1)) := by
  induction k, s using readLoop.induct turns with
  | case1 k s s' h ih =>
    rcases body_closed (t := turns k) hfd with ⟨s'', m, h', hfd', hops⟩ | ⟨r, m, h', -⟩
    · obtain rfl := Sum.inl.inj (h.symm.trans h')
      obtain ⟨hend, m', hrest⟩ := ih hfd'
      rw [readLoop_again h]
      exact ⟨hend, m + m', by rw [hrest, hops, List.append_assoc, List.replicate_add]⟩
    · cases h.symm.trans h'
  | case2 k s r h =>
    rcases body_closed (t := turns k) hfd with ⟨s'', m, h', -⟩ | ⟨r', m, h', hfd', hops⟩
    · cases h.symm.trans h'
    · obtain rfl := Sum.inr.inj (h.symm.trans h')
      rw [readLoop_done h]
      exact ⟨hfd', m, hops⟩

theorem EndsWell.of_reads {data : List Char} {r : Done} (h : EndsWell (s.reads data) r) :
    EndsWell s r where
  fd := h.fd
  ops := h.ops.trans (ops_reads data)
  valid hfd hvalid := h.valid hfd (valid_reads hfd hvalid)
  inBuffer := h.inBuffer
  returns := h.returns

theorem EndsBadly.of_reads {data : List Char} {r : Done} (h : EndsBadly (s.reads data) r) :
    EndsBadly s r where
  fd := h.fd
  ops := by
    obtain ⟨m, hm⟩ := h.ops
    exact ⟨m, by rw [hm, ops_reads]; rfl⟩
  select := h.select

/-- After a read that has failed the loop goes on without a descriptor. -/
theorem endsBadly_of_fails (hs : Steady s) (hret : (turns k).ret = 1) (hno : ¬ (turns k).Arrives) :
    EndsBadly s (readLoop turns k s) := by
  obtain ⟨s', hbody, hfd, hops⟩ := steady_fails hs hret hno
  obtain ⟨hend, m, hm⟩ := readLoop_closed turns (k + 1) s' hfd
  obtain ⟨more, hmore⟩ := readLoop_log turns (k + 1) s'
  rw [readLoop_again hbody]
  exact ⟨hend, ⟨m, by rw [hm, hops]⟩, by rw [hmore, hfd]; simp⟩

/-- The loop from a steady state: it ends well if every read reads something, and badly if one fails. -/
theorem readLoop_spec (turns : ℕ → Turn) (n : ℕ) : ∀ (k : ℕ) (s : Locals), s.left = n → Steady s →
    (ReadsOn turns k (bytesRead s.log).length → EndsWell s (readLoop turns k s)) ∧
      (¬ ReadsOn turns k (bytesRead s.log).length → EndsBadly s (readLoop turns k s)) := by
  induction n using Nat.strong_induction_on with
  | _ n ih =>
    intro k s hn hs
    have hcount := hs.count
    have hroom := hs.room
    have hc : (bytesRead s.log).length < 64 := by omega
    rw [readsOn_iff hc]
    by_cases hret : (turns k).ret = 1
    · by_cases harr : (turns k).Arrives
      · obtain ⟨-, bytes, hfound, hne⟩ := harr
        have hsize : (turns k).size = bytes.length := by rw [Turn.size, hfound]
        rw [hsize]
        by_cases hfits : s.count + bytes.length < 64
        · obtain ⟨hbody, hs'⟩ := steady_again hs hret hfound hne hfits
          have hlength : (bytesRead (s.reads bytes).log).length =
              (bytesRead s.log).length + bytes.length := by
            have hcount' := hs'.count
            have hreads : (s.reads bytes).count = s.count + bytes.length := rfl
            omega
          have hrest := ih _ (hn ▸ left_lt hbody) (k + 1) (s.reads bytes) rfl hs'
          rw [hlength] at hrest
          have hiff : ((turns k).ret = 1 → (turns k).Arrives ∧
              ((bytesRead s.log).length + bytes.length < 64 →
                ReadsOn turns (k + 1) ((bytesRead s.log).length + bytes.length))) ↔
              ReadsOn turns (k + 1) ((bytesRead s.log).length + bytes.length) :=
            ⟨fun h => (h hret).2 (by omega), fun h _ => ⟨⟨hret, bytes, hfound, hne⟩, fun _ => h⟩⟩
          rw [hiff, readLoop_again hbody]
          exact ⟨fun h => (hrest.1 h).of_reads, fun h => (hrest.2 h).of_reads⟩
        · obtain ⟨r, hbody, hr⟩ := steady_full hs hret hfound (by omega)
          rw [readLoop_done hbody]
          refine ⟨fun _ => hr, fun h => absurd (fun _ => ⟨⟨hret, bytes, hfound, hne⟩, ?_⟩) h⟩
          exact fun hlt => absurd hlt (by omega)
      · exact ⟨fun h => absurd (h hret).1 harr, fun _ => endsBadly_of_fails hs hret harr⟩
    · obtain ⟨r, hbody, hr⟩ := steady_idle hs hret
      rw [readLoop_done hbody]
      exact ⟨fun _ => hr, fun h => absurd (fun hret' => absurd hret' hret) h⟩

/-! ### The whole call -/

/-- The locals at the start of the loop. -/
def start (m_serialFd : ℤ) (o : Opening) : Locals :=
  let opening := if isValidFd m_serialFd then (m_serialFd, []) else sopen m_serialFd o
  ⟨opening.1, 0, 0, fun _ => '\x00', opening.2.map .descriptor⟩

theorem sread_eq (m_serialFd : ℤ) (o : Opening) (turns : ℕ → Turn) :
    sread m_serialFd o turns = readLoop turns 0 (start m_serialFd o) := rfl

theorem Opening.fd_nonneg_iff (o : Opening) : 0 ≤ o.fd ↔ o.opened.isSome := by
  rw [Opening.fd]
  cases o.opened with
  | none => simp
  | some n => simp

theorem start_fd (m_serialFd : ℤ) (o : Opening) :
    0 ≤ (start m_serialFd o).fd ↔ 0 ≤ m_serialFd ∨ o.opened.isSome ∧ o.configured := by
  by_cases hvalid : 0 ≤ m_serialFd
  · simp [start, isValidFd, hvalid]
  · cases hconf : o.configured <;>
      simp [start, isValidFd, sopen, hvalid, hconf, Opening.fd_nonneg_iff]

theorem bytesRead_descriptor (l : List DescriptorOp) : bytesRead (l.map .descriptor) = [] := by
  rw [bytesRead, List.flatMap_map]
  exact List.flatMap_eq_nil_iff.mpr fun _ _ => rfl

theorem forall_descriptor {p : Event → Prop} {l : List DescriptorOp} (h : ∀ op, p (.descriptor op)) :
    ∀ e ∈ l.map Event.descriptor, p e := by
  intro e he
  obtain ⟨op, -, rfl⟩ := List.mem_map.mp he
  exact h op

theorem steady_start (m_serialFd : ℤ) (o : Opening) : Steady (start m_serialFd o) where
  i := rfl
  count := by rw [start, bytesRead_descriptor]; rfl
  room := by change (0 : ℤ) < 64; decide
  buffer j := by rw [start, bytesRead_descriptor]; rfl
  inBuffer := forall_descriptor fun _ => trivial

/-- How a call ends, by its turns. -/
theorem sread_spec (m_serialFd : ℤ) (o : Opening) (turns : ℕ → Turn) :
    (ReadsOn turns 0 0 → EndsWell (start m_serialFd o) (sread m_serialFd o turns)) ∧
      (¬ ReadsOn turns 0 0 → EndsBadly (start m_serialFd o) (sread m_serialFd o turns)) := by
  have hspec := readLoop_spec turns _ 0 _ rfl (steady_start m_serialFd o)
  rwa [start, bytesRead_descriptor] at hspec

/-- For every descriptor, every answer to the opening and every sequence of turns: `sread` returns; and
    it uses valid descriptors and places of its buffer only, and returns what it has read, exactly if
    the line is open and no read of the call fails. -/
theorem sread_iff (m_serialFd : ℤ) (o : Opening) (turns : ℕ → Turn) :
    ReadsWell (sread m_serialFd o turns) ↔ InOrder m_serialFd o turns := by
  obtain ⟨hwell, hbadly⟩ := sread_spec m_serialFd o turns
  rw [InOrder, ← start_fd]
  constructor
  · intro h
    constructor
    · obtain ⟨more, hmore⟩ := readLoop_log turns 0 (start m_serialFd o)
      have hselect := h.valid (.select (start m_serialFd o).fd) (by rw [sread_eq, hmore]; simp)
      exact hselect
    · by_contra hno
      have hselect : (0 : ℤ) ≤ -1 := h.valid _ (hbadly hno).select
      omega
  · rintro ⟨hfd, hon⟩
    have hend := hwell hon
    exact ⟨hend.valid hfd (forall_descriptor fun _ => trivial), hend.inBuffer, hend.returns⟩

/-- One read fails at the start of a call: the next `select` is without a descriptor. -/
theorem read_fails : ¬ ∀ (m_serialFd : ℤ) (o : Opening) (turns : ℕ → Turn),
    ReadsWell (sread m_serialFd o turns) := by
  intro h
  have hno : ¬ ReadsOn (fun _ => ⟨1, .error ()⟩) 0 0 := by
    intro hon
    obtain ⟨-, bytes, hfound, -⟩ := hon 0 (fun j hj => absurd hj (Nat.not_lt_zero j)) (by decide) rfl
    cases hfound
  have hselect : (0 : ℤ) ≤ -1 := (h 3 ⟨none, true, true, true⟩ fun _ => ⟨1, .error ()⟩).valid _
    ((sread_spec 3 _ _).2 hno).select
  omega

end SerialControl
end BeeeOn
