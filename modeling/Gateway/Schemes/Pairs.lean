import Gateway.Schemes.Lts

/-! @scheme pairs | name:Messages read two parts at a time | family:framing

    A queue of messages, each a head with one body or more, and a reader that takes one part for the
    head and, later, another for the body, whatever messages they belong to. Messages arrive whole, at
    any time, also between the two. It reads each body with the head of its own message exactly if what
    it has taken for the head is one, whenever it finds a part for the body (`attributed_iff`): a head is
    followed by a body of its message, and everything else must not be read as a head. Where each message
    has one body, the reader cannot get out of step (`attributed_of_single`). -/

namespace Schemes
namespace Pairs
variable {α : Type*}

/-- A part with the number of its message. -/
structure Part (α : Type*) where
  content : α
  message : ℕ
  isHead : Bool
  deriving DecidableEq

structure State (α : Type*) where
  waiting : List (Part α)
  /-- the number of the next message -/
  next : ℕ
  /-- what the reader has taken for a head -/
  held : Option (Part α)
  /-- what has been read, each time as a head and its body -/
  read : List (Part α × Part α)

inductive Label (α : Type*) where
  | arrive (head body : α) (more : List α)
  | head
  | body

def parts (n : ℕ) (head body : α) (more : List α) : List (Part α) :=
  ⟨head, n, true⟩ :: (body :: more).map fun x => ⟨x, n, false⟩

def State.arrive (s : State α) (head body : α) (more : List α) : State α :=
  { s with waiting := s.waiting ++ parts s.next head body more, next := s.next + 1 }

/-- The reader takes a part for the head, if there is one. -/
def State.takeHead (s : State α) : State α :=
  { s with waiting := s.waiting.tail, held := s.waiting.head? }

/-- The reader has taken `f` and looks for the body. Where there is none, `f` is lost. -/
def State.takeBody (s : State α) (f : Part α) : State α :=
  match s.waiting with
  | g :: rest => { s with waiting := rest, held := none, read := s.read ++ [(f, g)] }
  | [] => { s with held := none }

def reader : Lts (State α) (Label α) where
  step
    | s, .arrive head body more => some (s.arrive head body more)
    | s, .head => if s.held.isNone then some s.takeHead else none
    | s, .body => s.held.map s.takeBody

def init : State α := ⟨[], 0, none, []⟩

/-- Everything that has been read is a head and a body of its message. -/
def Attributed (s : State α) : Prop :=
  ∀ p ∈ s.read, p.1.isHead = true ∧ p.2.isHead = false ∧ p.2.message = p.1.message

/-- The condition on taking a body: if there is a part, what has been taken for the head is one. -/
def InStep (s : State α) : Prop := ∀ f, s.held = some f → s.waiting ≠ [] → f.isHead = true

/-- A head is followed by a body of its message. -/
def Joined : List (Part α) → Prop
  | [] => True
  | [f] => f.isHead = false
  | f :: g :: rest => (f.isHead = true → g.isHead = false ∧ g.message = f.message) ∧ Joined (g :: rest)

/-- What has been taken for a head, and what waits behind it. -/
def State.ahead (s : State α) : List (Part α) := s.held.toList ++ s.waiting

variable {s t : State α}

theorem joined_bodies (n : ℕ) (bodies : List α) :
    Joined (bodies.map fun x => (⟨x, n, false⟩ : Part α)) := by
  induction bodies with
  | nil => trivial
  | cons x bodies ih =>
    cases bodies with
    | nil => rfl
    | cons y bodies => exact ⟨fun h => Bool.noConfusion h, ih⟩

theorem joined_parts (n : ℕ) (head body : α) (more : List α) : Joined (parts n head body more) :=
  ⟨fun _ => ⟨rfl, rfl⟩, joined_bodies n (body :: more)⟩

theorem Joined.append {qs : List (Part α)} (hq : Joined qs) : ∀ {ps : List (Part α)}, Joined ps →
    Joined (ps ++ qs) := by
  intro ps
  induction ps with
  | nil => intro _; exact hq
  | cons f ps ih =>
    intro hp
    cases ps with
    | nil =>
      cases qs with
      | nil => exact hp
      | cons q qs =>
        have hf : f.isHead = false := hp
        exact ⟨fun h => absurd h (by simp [hf]), hq⟩
    | cons g ps => exact ⟨hp.1, ih hp.2⟩

theorem Joined.tail {f : Part α} {ps : List (Part α)} (h : Joined (f :: ps)) : Joined ps := by
  cases ps with
  | nil => trivial
  | cons g ps => exact h.2

/-- What holds as long as the reader is in step. -/
structure Steady (s : State α) : Prop where
  joined : Joined s.ahead
  attributed : Attributed s

theorem steady_init : Steady (init : State α) := ⟨trivial, fun p hp => by cases hp⟩

theorem steady_arrive (hs : Steady s) (head body : α) (more : List α) :
    Steady (s.arrive head body more) := by
  refine ⟨?_, hs.attributed⟩
  rw [State.ahead, State.arrive, ← List.append_assoc]
  exact (joined_parts _ head body more).append hs.joined

theorem ahead_takeHead (h : s.held.isNone) : s.takeHead.ahead = s.ahead := by
  rw [Option.isNone_iff_eq_none] at h
  rw [State.ahead, State.ahead, h, State.takeHead]
  cases s.waiting <;> rfl

theorem steady_takeHead (hs : Steady s) (h : s.held.isNone) : Steady s.takeHead :=
  ⟨by rw [ahead_takeHead h]; exact hs.joined, hs.attributed⟩

theorem steady_takeBody (hs : Steady s) {f : Part α} (hf : s.held = some f) :
    (Attributed (s.takeBody f) → InStep s) ∧ (InStep s → Steady (s.takeBody f)) := by
  obtain ⟨ps, n, held, read⟩ := s
  obtain rfl : held = some f := hf
  cases ps with
  | nil => exact ⟨fun _ _ _ h => absurd rfl h, fun _ => ⟨trivial, hs.attributed⟩⟩
  | cons g rest =>
    constructor
    · rintro hread _ ⟨⟩ -
      exact (hread (f, g) (List.mem_append_right _ List.mem_cons_self)).1
    · intro hstep
      have hhead : f.isHead = true := hstep f rfl (List.cons_ne_nil g rest)
      refine ⟨hs.joined.tail.tail, fun p hp => ?_⟩
      rcases List.mem_append.mp hp with hp | hp
      · exact hs.attributed p hp
      · obtain rfl := List.mem_singleton.mp hp
        exact ⟨hhead, hs.joined.1 hhead⟩

/-- In every run: everything read in a state on the way is attributed to the head of its own message
    exactly if what is taken for a head is one, whenever there is a part for its body. -/
theorem attributed_iff {ls : List (Label α)} {u : State α} (h : reader.run init ls = some u) :
    (∀ pre post s, ls = pre ++ post → reader.run init pre = some s → Attributed s) ↔
      reader.Meets (fun s l => l = .body → InStep s) init ls := by
  refine reader.run_states_iff (P := fun _ s => Steady s) (Q := fun _ s => Attributed s)
    (C := fun _ s l => l = .body → InStep s) steady_init ?_ ?_ ?_ h
  · intro _ s hs
    exact hs.attributed
  · rintro _ s l t hs ht hread rfl
    obtain ⟨f, hf, rfl⟩ := Option.map_eq_some_iff.mp ht
    exact (steady_takeBody hs hf).1 hread
  · intro _ s l t hs ht hstep
    cases l with
    | arrive head body more =>
      cases ht
      exact steady_arrive hs head body more
    | head =>
      obtain ⟨hnone, ht⟩ := Option.ite_none_right_eq_some.mp ht
      cases ht
      exact steady_takeHead hs hnone
    | body =>
      obtain ⟨f, hf, rfl⟩ := Option.map_eq_some_iff.mp ht
      exact (steady_takeBody hs hf).2 (hstep rfl)

/-! ### Messages with one body -/

/-- The parts are pairs that begin with a head. -/
def Paired : List (Part α) → Prop
  | [] => True
  | [_] => False
  | f :: _ :: rest => f.isHead = true ∧ Paired rest

theorem paired_init : Paired (init : State α).ahead := trivial

theorem paired_concat {f g : Part α} (hf : f.isHead = true) : ∀ ps : List (Part α), Paired ps →
    Paired (ps ++ [f, g])
  | [], _ => ⟨hf, trivial⟩
  | [_], h => h.elim
  | _ :: _ :: ps, h => ⟨h.1, paired_concat hf ps h.2⟩

theorem paired_takeBody {f : Part α} (hs : Paired s.ahead) (hf : s.held = some f) :
    Paired (s.takeBody f).ahead := by
  obtain ⟨ps, n, held, read⟩ := s
  obtain rfl : held = some f := hf
  cases ps with
  | nil => exact hs.elim
  | cons g rest => exact hs.2

theorem paired_step {l : Label α} (hs : Paired s.ahead)
    (hl : ∀ head body more, l = .arrive head body more → more = []) (h : reader.step s l = some t) :
    Paired t.ahead := by
  cases l with
  | arrive head body more =>
    cases h
    obtain rfl := hl head body more rfl
    rw [State.ahead, State.arrive, ← List.append_assoc]
    exact paired_concat rfl _ hs
  | head =>
    obtain ⟨hnone, h⟩ := Option.ite_none_right_eq_some.mp h
    cases h
    rw [ahead_takeHead hnone]
    exact hs
  | body =>
    obtain ⟨f, hf, rfl⟩ := Option.map_eq_some_iff.mp h
    exact paired_takeBody hs hf

theorem inStep_of_paired (hs : Paired s.ahead) : InStep s := by
  intro f hf hne
  obtain ⟨g, rest, hwait⟩ := List.exists_cons_of_ne_nil hne
  rw [State.ahead, hf, hwait] at hs
  exact hs.1

/-- Whenever it reads: messages of one body each keep the reader in step. -/
theorem attributed_of_single {ls : List (Label α)} {u : State α} (h : reader.run init ls = some u)
    (hsingle : ∀ head body more, .arrive head body more ∈ ls → more = []) :
    ∀ pre post s, ls = pre ++ post → reader.run init pre = some s → Attributed s := by
  refine (attributed_iff h).mpr ?_
  rintro pre l post s heq hs -
  have hpaired : ∀ {pre : List (Label α)} {s : State α}, (∀ l ∈ pre, l ∈ ls) →
      reader.run init pre = some s → Paired s.ahead := by
    intro pre s hsub hs
    refine reader.run_inv_of_meets (P := fun s => Paired s.ahead)
      (C := fun _ l => ∀ head body more, l = .arrive head body more → more = [])
      (fun s l t hs hl ht => paired_step hs hl ht) paired_init ?_ hs
    rintro as l bs t rfl - head body more rfl
    exact hsingle head body more (hsub _ (by simp))
  exact inStep_of_paired (hpaired (fun l hl => by rw [heq]; simp [hl]) hs)

end Pairs
end Schemes
