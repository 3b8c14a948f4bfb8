import Gateway.Schemes.Lts
import Mathlib.Data.List.Nodup

/-! @scheme multipart | name:Messages in two frames | family:interleaving

    A socket joins the frames it is given into messages: a frame marked `more` is kept until the next
    one that is not. Senders that each send a head and a body, in two calls, share it. Nothing keeps
    their frames apart, so the messages are the intended ones exactly if nobody sends a body while
    somebody else is between head and body (`whole_iff`): until then the open frames are the heads of
    the senders in between, one each, and the next body closes them all. -/

namespace Schemes

/-- A frame, and whether more frames of its message follow. -/
structure Frame (α : Type*) where
  content : α
  more : Bool

namespace Multipart
variable {α : Type*}

/-- The messages that a sequence of frames makes after the open frames `acc`, and the frames that it
    leaves open. -/
def join : List α → List (Frame α) → List (List α) × List α
  | acc, [] => ([], acc)
  | acc, f :: fs =>
    if f.more then join (acc ++ [f.content]) fs
    else ((acc ++ [f.content]) :: (join [] fs).1, (join [] fs).2)

theorem join_more (fs : List (Frame α)) (x : α) : ∀ acc : List α,
    join acc (fs ++ [⟨x, true⟩]) = ((join acc fs).1, (join acc fs).2 ++ [x]) := by
  induction fs with
  | nil => intro acc; simp [join]
  | cons f fs ih =>
    intro acc
    simp only [List.cons_append, join, ih]
    split_ifs <;> rfl

theorem join_last (fs : List (Frame α)) (x : α) : ∀ acc : List α,
    join acc (fs ++ [⟨x, false⟩]) = ((join acc fs).1 ++ [(join acc fs).2 ++ [x]], []) := by
  induction fs with
  | nil => intro acc; simp [join]
  | cons f fs ih =>
    intro acc
    simp only [List.cons_append, join, ih]
    split_ifs <;> rfl

structure State (α : Type*) where
  frames : List (Frame α)
  /-- the senders between head and body, with the heads they have sent -/
  pending : List (ℕ × α)
  /-- the messages that the senders have meant to send -/
  intended : List (α × α)

inductive Label (α : Type*) where
  | head (k : ℕ) (h : α)
  | body (k : ℕ) (b : α)

/-- The socket, shared by senders that are known by numbers. -/
def channel : Lts (State α) (Label α) where
  step
    | s, .head k h => match s.pending.lookup k with
      | none => some ⟨s.frames ++ [⟨h, true⟩], s.pending ++ [(k, h)], s.intended⟩
      | some _ => none
    | s, .body k b => match s.pending.lookup k with
      | some h => some
          ⟨s.frames ++ [⟨b, false⟩], s.pending.filter (·.1 ≠ k), s.intended ++ [(h, b)]⟩
      | none => none

def init : State α := ⟨[], [], []⟩

/-- Every message emitted is one that somebody has meant to send. -/
def Whole (s : State α) : Prop :=
  ∀ m ∈ (join [] s.frames).1, ∃ h b, (h, b) ∈ s.intended ∧ m = [h, b]

/-- The condition on a step: who sends a body is the only one between head and body. -/
def Alone (s : State α) : Label α → Prop
  | .head _ _ => True
  | .body k _ => ∀ x ∈ s.pending, x.1 = k

/-- The open frames are the heads of the senders in between, one each. -/
structure InTurn (s : State α) : Prop where
  open_eq : (join [] s.frames).2 = s.pending.map Prod.snd
  nodup : (s.pending.map Prod.fst).Nodup

/-- What holds as long as the messages are whole. -/
structure Steady (s : State α) : Prop extends InTurn s where
  whole : Whole s

theorem inTurn_init : InTurn (init : State α) := ⟨rfl, List.nodup_nil⟩

variable {s t : State α}

theorem inTurn_head (hs : InTurn s) {k : ℕ} {h : α} (hk : channel.step s (.head k h) = some t) :
    InTurn t := by
  simp only [channel] at hk
  split at hk <;> cases hk
  rename_i hnone
  refine ⟨by rw [join_more, hs.open_eq, List.map_append]; rfl, ?_⟩
  rw [List.map_append, List.nodup_append]
  refine ⟨hs.nodup, List.nodup_singleton k, ?_⟩
  intro i hi j hj hij
  obtain ⟨x, hx, rfl⟩ := List.mem_map.mp hi
  have hxk : x.1 = k := hij.trans (List.mem_singleton.mp hj)
  have hkx : k ≠ x.1 := by simpa using List.lookup_eq_none_iff.mp hnone x hx
  exact hkx hxk.symm

/-- A head ends no message; its sender is in between then. -/
theorem messages_head {k : ℕ} {x : α} (h : channel.step s (.head k x) = some t) :
    t.pending = s.pending ++ [(k, x)] ∧ (join [] t.frames).1 = (join [] s.frames).1 := by
  simp only [channel] at h
  split at h <;> cases h
  exact ⟨rfl, by rw [join_more]⟩

theorem steady_head (hs : Steady s) {k : ℕ} {h : α} (hk : channel.step s (.head k h) = some t) :
    Steady t := by
  refine ⟨inTurn_head hs.toInTurn hk, fun m hm => ?_⟩
  rw [(messages_head hk).2] at hm
  obtain ⟨h', b', hmem, rfl⟩ := hs.whole m hm
  simp only [channel] at hk
  split at hk <;> cases hk
  exact ⟨h', b', hmem, rfl⟩

/-- The one sender in between, if no other is. -/
theorem pending_of_alone {k : ℕ} {h : α} {l : List (ℕ × α)} (hnodup : (l.map Prod.fst).Nodup)
    (hk : l.lookup k = some h) : (∀ x ∈ l, x.1 = k) ↔ l = [(k, h)] := by
  constructor
  · intro hall
    match l with
    | [] => cases hk
    | [x] =>
      obtain ⟨i, y⟩ := x
      obtain rfl : i = k := hall (i, y) List.mem_cons_self
      rw [List.lookup_cons_self] at hk
      rw [Option.some.inj hk]
    | x :: y :: l =>
      have hxy : x.1 = y.1 := (hall x (by simp)).trans (hall y (by simp)).symm
      simp [hxy] at hnodup
  · rintro rfl x hx
    rw [List.mem_singleton.mp hx]

/-- A body ends the message of its sender, if no other sender is in between; then none is. -/
theorem messages_body (hs : InTurn s) {k : ℕ} {b : α} (halone : Alone s (.body k b))
    (h : channel.step s (.body k b) = some t) : ∃ x, s.pending = [(k, x)] ∧ t.pending = [] ∧
      t.intended = s.intended ++ [(x, b)] ∧
      (join [] t.frames).1 = (join [] s.frames).1 ++ [[x, b]] ∧ (join [] t.frames).2 = [] := by
  simp only [channel] at h
  split at h <;> cases h
  rename_i x hsome
  have hp := (pending_of_alone hs.nodup hsome).mp halone
  exact ⟨x, hp, by simp [hp], rfl, by simp [join_last, hs.open_eq, hp], by simp [join_last]⟩

theorem inTurn_body (hs : InTurn s) {k : ℕ} {b : α} (halone : Alone s (.body k b))
    (h : channel.step s (.body k b) = some t) : InTurn t := by
  obtain ⟨x, -, hpending, -, -, hopen⟩ := messages_body hs halone h
  exact ⟨by rw [hopen, hpending]; rfl, by rw [hpending]; exact List.nodup_nil⟩

/-- The sender of a body that makes a whole message is alone. -/
theorem alone_of_whole (hs : InTurn s) {k : ℕ} {b : α} (hk : channel.step s (.body k b) = some t)
    (hw : Whole t) : Alone s (.body k b) := by
  simp only [channel] at hk
  split at hk <;> cases hk
  rename_i h hsome
  obtain ⟨h', b', -, hm⟩ := hw (s.pending.map Prod.snd ++ [b]) (by simp [join_last, hs.open_eq])
  -- two frames: one sender in between, and that is `k`
  have hlen : s.pending.length = 1 := by simpa using congrArg List.length hm
  obtain ⟨⟨i, y⟩, hx⟩ := List.length_eq_one_iff.mp hlen
  have hki : k = i := by
    by_contra hne
    rw [hx, List.lookup_cons, beq_eq_false_iff_ne.mpr hne] at hsome
    cases hsome
  intro x hmem
  rw [hx] at hmem
  rw [List.mem_singleton.mp hmem, hki]

theorem steady_body (hs : Steady s) {k : ℕ} {b : α} (halone : Alone s (.body k b))
    (h : channel.step s (.body k b) = some t) : Steady t := by
  obtain ⟨x, -, -, hintended, hmessages, -⟩ := messages_body hs.toInTurn halone h
  refine ⟨inTurn_body hs.toInTurn halone h, fun m hm => ?_⟩
  rw [hmessages] at hm
  rw [hintended]
  rcases List.mem_append.mp hm with hm | hm
  · obtain ⟨h', b', hmem, rfl⟩ := hs.whole m hm
    exact ⟨h', b', List.mem_append_left _ hmem, rfl⟩
  · exact ⟨x, b, by simp, List.mem_singleton.mp hm⟩

/-- What a step does to a socket whose messages are whole so far. -/
theorem steady_step (hs : Steady s) {l : Label α} (h : channel.step s l = some t) :
    (Whole t → Alone s l) ∧ (Alone s l → Steady t) := by
  cases l with
  | head k x => exact ⟨fun _ => trivial, fun _ => steady_head hs h⟩
  | body k b => exact ⟨alone_of_whole hs.toInTurn h, fun halone => steady_body hs halone h⟩

/-- In every run: every message emitted in a state on the way is an intended one exactly if every body
    is sent while nobody else is between head and body. -/
theorem whole_iff {ls : List (Label α)} {u : State α} (h : channel.run init ls = some u) :
    (∀ pre post s, ls = pre ++ post → channel.run init pre = some s → Whole s) ↔
      channel.Meets Alone init ls := by
  refine channel.run_states_iff (P := fun _ s => Steady s) (Q := fun _ s => Whole s)
    (C := fun _ s l => Alone s l) ⟨inTurn_init, fun _ hm => by cases hm⟩ ?_ ?_ ?_ h
  · intro _ s hs
    exact hs.whole
  · intro _ s l t hs ht hwhole
    exact (steady_step hs ht).1 hwhole
  · intro _ s l t hs ht halone
    exact (steady_step hs ht).2 halone

/-! ### A body without a head -/

/-- Somebody sends a body alone. -/
def State.lone (s : State α) (b : α) : State α := { s with frames := s.frames ++ [⟨b, false⟩] }

/-- It is a message of its own if nobody is in between. -/
theorem messages_lone (hs : InTurn s) (hp : s.pending = []) (b : α) :
    InTurn (s.lone b) ∧ (join [] (s.lone b).frames).1 = (join [] s.frames).1 ++ [[b]] := by
  rw [State.lone]
  refine ⟨⟨by simp [join_last, hp], by simp [hp]⟩, ?_⟩
  rw [join_last, hs.open_eq, hp]
  rfl

end Multipart
end Schemes
