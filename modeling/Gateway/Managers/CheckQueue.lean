import Gateway.Managers.DeviceManager

/-! @src jablotron/JablotronDeviceManager.cpp, z-wave/ZWaveDeviceManager.cpp, core/AnswerQueue.cpp |
    name:What checkQueue meets | family:invariants

    `checkQueue` looks at the first result of an answer it has taken, through a cast to the class that
    its command asks for. In every run it takes and acts on answers with a result only, and where it
    has seen a last value there still is one when it reads it: a decoder never changes the class of a
    result. -/

namespace BeeeOn
open Schemes
variable {V W : Type} {B : Base V} {conv : V → W}

/-- Whether a result is a `ServerLastValueResult`. -/
def Payload.isLastValue : Payload V → Bool
  | .lastValue _ => true
  | .plain | .deviceList _ | .setValue _ => false

namespace DeviceManager

/-- The answers that `checkQueue` has taken and not acted on. -/
def Check.held : Check → List ℕ
  | .idle | .raised => []
  | .scanning _ taken => taken
  | .acting as => as
  | .reading _ a as => a :: as

/-- The loop of `checkQueue` ends at the answer `a`: it is not in `m_table`, its result is of another
    class than its command asks for, or it is a last value and no success. -/
def Leaves (s : State V W) (a : ℕ) : Prop :=
  match s.table.find? (·.answer = a) with
  | none => True
  | some e => match e.cmd, first s.queue a with
    | .serverDeviceList _, some ⟨_, .deviceList _⟩ => False
    | .serverLastValue _ _, some ⟨status, .lastValue _⟩ => status ≠ .success
    | _, _ => True

/-! ### What one step of checkQueue does -/

/-- The ends of the body of the loop on the answer `a`. -/
inductive Acts (s : State V W) (a : ℕ) (as : List ℕ) : State V W → Prop
  | list (e p status devices) (hfind : s.table.find? (·.answer = a) = some e)
    (hcmd : e.cmd = .serverDeviceList p) (hfirst : first s.queue a = some ⟨status, .deviceList devices⟩) :
    Acts s a as
      { s with
        devices := devices.toFinset
        pc := .acting as
        acted := s.acted ++ [(a, .deviceList devices)] }
  | value (e d k v) (hfind : s.table.find? (·.answer = a) = some e)
    (hcmd : e.cmd = .serverLastValue d k) (hfirst : first s.queue a = some ⟨.success, .lastValue v⟩) :
    Acts s a as { s with pc := .reading d a as }
  | clear (e p) (hfind : s.table.find? (·.answer = a) = some e) (hcmd : e.cmd = .serverDeviceList p)
    (h : Leaves s a) : Acts s a as { s with devices := ∅, pc := .raised }
  | leave (pc) (hpc : pc = .idle ∨ pc = .raised) (h : Leaves s a) : Acts s a as { s with pc := pc }

theorem acts (s : State V W) (a : ℕ) (as : List ℕ) : Acts s a as (act s a as) := by
  rw [act]
  cases hfind : s.table.find? (·.answer = a) with
  | none => exact .leave _ (Or.inl rfl) (by simp [Leaves, hfind])
  | some e =>
    simp only
    split
    · rename_i hcmd hfirst
      exact .list e _ _ _ hfind hcmd hfirst
    · rename_i status v hcmd hfirst
      by_cases hs : status = .success
      · rw [if_pos hs]
        exact .value e _ _ v hfind hcmd (hs ▸ hfirst)
      · rw [if_neg hs]
        exact .leave _ (Or.inl rfl) (by simpa [Leaves, hfind, hcmd, hfirst] using hs)
    · rename_i hcmd hno
      refine .clear e _ hfind hcmd ?_
      simp only [Leaves, hfind, hcmd]
      split
      · exact hno _ _ ‹_›
      · rename_i heq _; cases heq
      · trivial
    · exact .leave _ (Or.inr rfl) (by simp only [Leaves, hfind])

/-- The read of a last value, or of something else. -/
theorem readValue_cases (conv : V → W) (s : State V W) (d : DeviceID) (a : ℕ) (as : List ℕ) :
    (∃ status v, first s.queue a = some ⟨status, .lastValue v⟩ ∧ readValue conv s d a as =
      { s with
        switched := s.switched ++ [(d, v.map conv)]
        pc := .acting as
        acted := s.acted ++ [(a, .lastValue v)] }) ∨
    (∀ r, first s.queue a = some r → r.payload.isLastValue = false) ∧
      readValue conv s d a as = { s with pc := .raised } := by
  rw [readValue]
  split
  · exact Or.inl ⟨_, _, ‹_›, rfl⟩
  · rename_i hno
    refine Or.inr ⟨fun r hr => ?_, rfl⟩
    obtain ⟨status, p⟩ := r
    cases p with
    | lastValue v => exact absurd hr (hno status v)
    | plain | deviceList _ | setValue _ => rfl

theorem act_queue (s : State V W) (a : ℕ) (as : List ℕ) : (act s a as).queue = s.queue := by
  have h := acts s a as
  generalize act s a as = t at h ⊢
  cases h <;> rfl

theorem readValue_queue (s : State V W) (d : DeviceID) (a : ℕ) (as : List ℕ) :
    (readValue conv s d a as).queue = s.queue := by
  rcases readValue_cases conv s d a as with ⟨_, _, _, h⟩ | ⟨_, h⟩ <;> rw [h]

/-- `checkQueue` never marks an answer. -/
theorem check_dirty {s t : State V W} {l : Label} (h : check conv s l = some t) {b : ℕ}
    (hb : (t.queue.heap b).dirty = true) : (s.queue.heap b).dirty = true := by
  cases checked h with
  | begin | endScan | leave => exact hb
  | visit a todo taken =>
    simp only [AnswerQueue.visit_heap] at hb
    split_ifs at hb
    · cases hb
    · exact hb
  | act a as => rwa [act_queue] at hb
  | read d a as => rwa [readValue_queue] at hb

/-! ### What one call of a decoder does -/

/-- The call does not change the class of result `i` of answer `a`. -/
def KeepsClass (q : AnswerQueue V) (a i : ℕ) (op : Except Exn (ResultOp V)) : Prop :=
  ∀ p r, op = .ok (.setPayload p) → (q.heap a).results[i]? = some r →
    p.isLastValue = r.payload.isLastValue

theorem call_results {q q' : AnswerQueue V} {a i : ℕ} {op : Except Exn (ResultOp V)}
    (h : call q a i op = .ok q') (hop : KeepsClass q a i op) {b j : ℕ} {r : Result V}
    (hr : (q.heap b).results[j]? = some r) : ∃ r', (q'.heap b).results[j]? = some r' ∧
      r'.payload.isLastValue = r.payload.isLastValue := by
  match op, h with
  | .ok (.setStatus st), h =>
    rw [← setStatus_ok h]
    rcases q.afterSetStatus_cases a i st with ⟨heq, -⟩ | ⟨x, hx, -, heq⟩ <;> rw [heq]
    · exact ⟨r, hr, rfl⟩
    · rw [AnswerQueue.setStatus_heap]
      split_ifs with hb
      · subst hb
        simp only [Answer.setDirty, Answer.setResult, List.getElem?_set]
        split_ifs with hij hlen
        · subst hij
          obtain rfl := Option.some.inj (hx.symm.trans hr)
          exact ⟨_, rfl, rfl⟩
        · exact absurd (List.getElem?_eq_some_iff.mp hx).1 hlen
        · exact ⟨r, hr, rfl⟩
      · exact ⟨r, hr, rfl⟩
  | .ok (.setPayload p), h =>
    obtain rfl := Except.ok.inj h
    rw [AnswerQueue.setPayload]
    split
    · exact ⟨r, hr, rfl⟩
    · rename_i x hx
      rw [AnswerQueue.modify_heap]
      split_ifs with hb
      · subst hb
        simp only [Answer.setResult, List.getElem?_set]
        split_ifs with hij hlen
        · subst hij
          obtain rfl := Option.some.inj (hx.symm.trans hr)
          exact ⟨_, rfl, hop p _ rfl hx⟩
        · exact absurd (List.getElem?_eq_some_iff.mp hx).1 hlen
        · exact ⟨r, hr, rfl⟩
      · exact ⟨r, hr, rfl⟩

theorem call_dirty {q q' : AnswerQueue V} {a i : ℕ} {op : Except Exn (ResultOp V)}
    (h : call q a i op = .ok q') {b : ℕ} (hb : (q'.heap b).dirty = true) :
    (q.heap b).dirty = true ∨ b = a := by
  by_contra hno
  rw [not_or] at hno
  refine hno.1 ?_
  match op, h with
  | .ok (.setStatus st), h =>
    rw [← setStatus_ok h] at hb
    rcases q.afterSetStatus_cases a i st with ⟨heq, -⟩ | ⟨x, hx, -, heq⟩ <;> rw [heq] at hb
    · exact hb
    · rwa [AnswerQueue.setStatus_heap, if_neg hno.2] at hb
  | .ok (.setPayload p), h =>
    obtain rfl := Except.ok.inj h
    rw [AnswerQueue.setPayload] at hb
    split at hb
    · exact hb
    · rwa [AnswerQueue.modify_heap_ne _ _ hno.2] at hb

/-- What a decoder sets, beside the result that its handler has created. -/
theorem decoder_payload {m : ZMQMessage} {p : Payload V} (h : .ok (.setPayload p) ∈ decoder B m) :
    (∃ list, newResult B m = .deviceList [] ∧ p = .deviceList list) ∨
      ∃ v, newResult B m = .lastValue none ∧ p = .lastValue (some v) := by
  rw [decoder] at h
  rw [newResult]
  split at h
  · right
    obtain ⟨ops, hops, hmem⟩ := mem_calls h
    simp only [bind, Except.bind, pure, Except.pure] at hops
    iterate 4 (split at hops; · cases hops)
    cases hops
    obtain rfl : p = _ := by simpa using hmem
    exact ⟨_, rfl, rfl⟩
  · left
    obtain ⟨ops, hops, hmem⟩ := mem_calls h
    simp only [bind, Except.bind, pure, Except.pure] at hops
    iterate 3 (split at hops; · cases hops)
    cases hops
    obtain rfl : p = _ := by simpa using hmem
    exact ⟨_, rfl, rfl⟩

/-- A decoder sets a payload of the class of the result that its handler creates. -/
theorem decoder_class {m : ZMQMessage} {p : Payload V} (h : .ok (.setPayload p) ∈ decoder B m) :
    p.isLastValue = (newResult B m).isLastValue := by
  rcases decoder_payload h with ⟨list, hnew, rfl⟩ | ⟨v, hnew, rfl⟩ <;> rw [hnew] <;> rfl

theorem calls_reply {x : Except Exn (List (ResultOp V))}
    (h : ∀ ops, x = .ok ops → ∃ st p, ops = [.setStatus st, .setPayload p]) :
    (∃ st p, calls x = [.ok (.setStatus st), .ok (.setPayload p)]) ∨ ∃ e, calls x = [.error e] := by
  cases x with
  | error e => exact Or.inr ⟨e, rfl⟩
  | ok ops =>
    obtain ⟨st, p, rfl⟩ := h ops rfl
    exact Or.inl ⟨st, p, rfl⟩

/-- A decoder of replies sets a status and a payload, or raises at once. -/
theorem decoder_cases (B : Base V) (m : ZMQMessage) :
    (∃ st p, decoder B m = [.ok (.setStatus st), .ok (.setPayload p)]) ∨
    ∃ e, decoder B m = [.error e] := by
  rw [decoder]
  split
  · refine calls_reply fun ops hops => ?_
    simp only [bind, Except.bind, pure, Except.pure] at hops
    iterate 4 (split at hops; · cases hops)
    cases hops
    exact ⟨_, _, rfl⟩
  · refine calls_reply fun ops hops => ?_
    simp only [bind, Except.bind, pure, Except.pure] at hops
    iterate 3 (split at hops; · cases hops)
    cases hops
    exact ⟨_, _, rfl⟩

/-! ### Every run -/

/-- Only answers with a result are dirty, taken or acted on; the calls ahead of the client thread keep
    the class of the result they are on; and `checkQueue` reads a last value where there is one. -/
structure Sound (s : State V W) : Prop where
  born : ∀ b, (s.queue.heap b).results ≠ [] → b < s.queue.next
  busy : ∀ b, (s.queue.heap b).dirty = true ∨ b ∈ s.pc.held ∨ b ∈ s.acted.map Prod.fst →
    (s.queue.heap b).results ≠ []
  class_kept : ∀ m todo a i ops, s.client = .decoding m todo a i ops →
    ∃ r, (s.queue.heap a).results[i]? = some r ∧
      ∀ p, .ok (.setPayload p) ∈ ops → p.isLastValue = r.payload.isLastValue
  reading : ∀ d b as, s.pc = .reading d b as →
    ∃ r, first s.queue b = some r ∧ r.payload.isLastValue = true

theorem sound_init : Sound (init : State V W) where
  born _ h := absurd rfl h
  busy _ h := by rcases h with h | h | h <;> cases h
  class_kept := nofun
  reading := nofun

/-- Results are kept, with their class. -/
def Grows (q q' : AnswerQueue V) : Prop :=
  ∀ (b j : ℕ) (r : Result V), (q.heap b).results[j]? = some r →
    ∃ r', (q'.heap b).results[j]? = some r' ∧ r'.payload.isLastValue = r.payload.isLastValue

theorem Grows.ne_nil {q q' : AnswerQueue V} (h : Grows q q') {b : ℕ}
    (hb : (q.heap b).results ≠ []) : (q'.heap b).results ≠ [] := by
  intro hnil
  obtain ⟨r', hr', -⟩ := h b 0 _ (List.getElem?_eq_getElem (List.length_pos_of_ne_nil hb))
  rw [hnil] at hr'; cases hr'

/-- The steps beside `checkQueue`: results grow, and only what has a result gets dirty. -/
theorem Sound.grow {s t : State V W} (h : Sound s) (hgrow : Grows s.queue t.queue)
    (hborn : ∀ b, (t.queue.heap b).results ≠ [] → b < t.queue.next)
    (hdirty : ∀ b, (t.queue.heap b).dirty = true →
      (s.queue.heap b).dirty = true ∨ (s.queue.heap b).results ≠ [])
    (hpc : t.pc = s.pc) (hacted : t.acted = s.acted)
    (hclass : ∀ m todo a i ops, t.client = .decoding m todo a i ops →
      ∃ r, (t.queue.heap a).results[i]? = some r ∧
        ∀ p, .ok (.setPayload p) ∈ ops → p.isLastValue = r.payload.isLastValue) : Sound t where
  born := hborn
  busy b hb := by
    refine hgrow.ne_nil ?_
    rcases hb with hb | hb | hb
    · exact (hdirty b hb).elim (fun hs => h.busy b (Or.inl hs)) id
    · exact h.busy b (Or.inr (Or.inl (hpc ▸ hb)))
    · exact h.busy b (Or.inr (Or.inr (hacted ▸ hb)))
  class_kept := hclass
  reading d b as hread := by
    obtain ⟨r, hr, hlast⟩ := h.reading d b as (hpc ▸ hread)
    obtain ⟨r', hr', hsame⟩ := hgrow b 0 r hr
    exact ⟨r', hr', hsame.trans hlast⟩

theorem Grows.refl (q : AnswerQueue V) : Grows q q := fun _ _ r hr => ⟨r, hr, rfl⟩

theorem grows_addResult (q : AnswerQueue V) (a : ℕ) (p : Payload V) : Grows q (q.addResult a p) := by
  intro b j r hr
  rw [AnswerQueue.addResult_heap]
  split_ifs with hb
  · subst hb
    refine ⟨r, ?_, rfl⟩
    rw [Answer.addResult, List.getElem?_append_left (List.getElem?_eq_some_iff.mp hr).1, hr]
  · exact ⟨r, hr, rfl⟩

theorem sound_request {s t : State V W} (h : Sound s) {th : ℕ} {id : GlobalID} {cmd : Command V}
    (hr : request B s th id cmd = some t) : Sound t := by
  obtain ⟨-, -, out, rfl⟩ := request_eq hr
  have hnil : (s.queue.heap s.queue.next).results = [] := by
    by_contra hne
    exact lt_irrefl _ (h.born _ hne)
  have hgrow : Grows s.queue s.queue.newAnswer := by
    intro b j r hb
    rw [AnswerQueue.newAnswer_heap]
    split_ifs with hnew
    · rw [hnew, hnil] at hb; cases hb
    · exact ⟨r, hb, rfl⟩
  refine h.grow hgrow (fun b hb => ?_) (fun b hb => ?_) rfl rfl fun m todo a i ops hc => ?_
  · simp only [AnswerQueue.newAnswer_heap] at hb
    split_ifs at hb with hnew
    · exact absurd rfl hb
    · exact Nat.lt_succ_of_lt (h.born b hb)
  · simp only [AnswerQueue.newAnswer_heap] at hb
    split_ifs at hb with hnew
    · cases hb
    · exact Or.inl hb
  · obtain ⟨r, hr, hkeep⟩ := h.class_kept m todo a i ops hc
    obtain ⟨r', hr', hsame⟩ := hgrow a i r hr
    exact ⟨r', hr', fun p hp => (hkeep p hp).trans hsame.symm⟩

/-- A new result, of the class that its decoder fills in. -/
theorem sound_create {s : State V W} (h : Sound s) {m : ZMQMessage} {x : Entry V}
    {todo : List (Entry V)} (hx : x.answer < s.queue.next) : Sound
      { s with
        queue := s.queue.addResult x.answer (newResult B m)
        client := .decoding m todo x.answer (s.queue.heap x.answer).results.length
          (decoder B m) } := by
  refine h.grow (grows_addResult _ _ _) (fun b hb => ?_) (fun b hb => ?_) rfl rfl ?_
  · by_cases hbx : b = x.answer
    · exact hbx ▸ hx
    · rw [AnswerQueue.addResult_heap, if_neg hbx] at hb
      exact h.born b hb
  · rw [AnswerQueue.addResult_heap] at hb
    split_ifs at hb with hbx
    · exact Or.inl (hbx ▸ hb)
    · exact Or.inl hb
  · rintro _ _ _ _ _ ⟨⟩
    refine ⟨.new (newResult B m), ?_, fun p hp => decoder_class hp⟩
    rw [AnswerQueue.addResult_heap, if_pos rfl]
    simp [Answer.addResult]

/-- A call of the decoder, on a result of its class. -/
theorem sound_call {s : State V W} (h : Sound s) {m : ZMQMessage} {todo : List (Entry V)} {a i : ℕ}
    {op : Except Exn (ResultOp V)} {ops : Decoding V} {q : AnswerQueue V}
    (hc : s.client = .decoding m todo a i (op :: ops)) (hq : call s.queue a i op = .ok q) :
    Sound { s with queue := q, client := .decoding m todo a i ops } := by
  obtain ⟨r, hr, hkeep⟩ := h.class_kept m todo a i _ hc
  have hgrow : Grows s.queue q := fun b j x hx => call_results hq (fun p r' hop hr' => by
    rw [← Option.some.inj (hr.symm.trans hr')]
    exact hkeep p (hop ▸ List.mem_cons_self)) hx
  obtain ⟨-, hnext, hlen⟩ := call_frame hq
  refine h.grow hgrow (fun b hb => ?_) (fun b hb => ?_) rfl rfl ?_
  · rw [hnext]
    exact h.born b fun hnil => hb (List.length_eq_zero_iff.mp ((hlen b).trans (by rw [hnil]; rfl)))
  · refine (call_dirty hq hb).imp_right fun hba hnil => ?_
    rw [← hba, hnil] at hr; cases hr
  · rintro _ _ _ _ _ ⟨⟩
    obtain ⟨r', hr', hsame⟩ := hgrow a i r hr
    exact ⟨r', hr', fun p hp => (hkeep p (List.mem_cons_of_mem _ hp)).trans hsame.symm⟩

theorem sound_handle {s t : State V W} (h : Sound s) (hI : Inv s) (hh : handle B s = some t) :
    Sound t := by
  cases handled hh with
  | create m x todo hc hm =>
    exact sound_create h (hI.queued x (hI.todo x (by rw [hc]; exact List.mem_cons_self))).2
  | called m todo a i op ops q hc hq => exact sound_call h hc hq
  | _ => exact h.grow (Grows.refl _) h.born (fun _ => Or.inl) rfl rfl nofun

/-- The steps of `checkQueue`: it takes what is dirty, acts on what it has taken, and sees a last value
    before it reads one. -/
theorem Sound.of_check {s t : State V W} (h : Sound s) {l : Label} (hc : check conv s l = some t)
    (hheld : ∀ b ∈ t.pc.held, (s.queue.heap b).dirty = true ∨ b ∈ s.pc.held)
    (hacted : ∀ x ∈ t.acted, x ∈ s.acted ∨ x.1 ∈ s.pc.held)
    (hread : ∀ d b as, t.pc = .reading d b as →
      ∃ r, first s.queue b = some r ∧ r.payload.isLastValue = true) : Sound t := by
  have hf := check_frame hc
  constructor
  case born => intro b hb; rw [hf.next]; exact h.born b (hf.results b ▸ hb)
  case busy =>
    intro b hb
    rw [hf.results]
    rcases hb with hb | hb | hb
    · exact h.busy b (Or.inl (check_dirty hc hb))
    · exact h.busy b ((hheld b hb).imp_right Or.inl)
    · obtain ⟨x, hx, rfl⟩ := List.mem_map.mp hb
      rcases hacted x hx with hx | hx
      · exact h.busy _ (Or.inr (Or.inr (List.mem_map_of_mem hx)))
      · exact h.busy _ (Or.inr (Or.inl hx))
  case class_kept =>
    intro m todo a i ops hcl
    rw [hf.results]
    exact h.class_kept m todo a i ops (hf.client ▸ hcl)
  case reading =>
    intro d b as hpc
    rw [first, hf.results]
    exact hread d b as hpc

theorem sound_check {s t : State V W} (h : Sound s) {l : Label} (hc : check conv s l = some t) :
    Sound t := by
  cases checked hc with
  | begin hpc | leave hpc => exact h.of_check hc nofun (fun _ => Or.inl) nofun
  | visit a todo taken hpc =>
    refine h.of_check hc (fun b hb => ?_) (fun _ => Or.inl) nofun
    simp only [Check.held] at hb
    split_ifs at hb with ha
    · rcases List.mem_append.mp hb with hb | hb
      · exact Or.inr (hpc ▸ hb)
      · exact Or.inl (List.mem_singleton.mp hb ▸ ha)
    · exact Or.inr (hpc ▸ hb)
  | endScan taken hpc => exact h.of_check hc (fun b hb => Or.inr (hpc ▸ hb)) (fun _ => Or.inl) nofun
  | act a as hpc =>
    have hmem : ∀ b ∈ a :: as, b ∈ s.pc.held := fun b hb => hpc ▸ hb
    have ha := acts s a as
    generalize act s a as = t at hc ha
    cases ha with
    | list e p status devices hfind hcmd hfirst =>
      refine h.of_check hc (fun b hb => Or.inr (hmem b (List.mem_cons_of_mem a hb))) ?_ nofun
      intro x hx
      refine (List.mem_append.mp hx).imp_right fun hx => ?_
      rw [List.mem_singleton.mp hx]
      exact hmem a List.mem_cons_self
    | value e d k v hfind hcmd hfirst =>
      refine h.of_check hc (fun b hb => Or.inr (hmem b hb)) (fun _ => Or.inl) ?_
      rintro _ _ _ ⟨⟩
      exact ⟨_, hfirst, rfl⟩
    | clear e p hfind hcmd hleaves => exact h.of_check hc nofun (fun _ => Or.inl) nofun
    | leave pc hend hleaves =>
      rcases hend with rfl | rfl <;> exact h.of_check hc nofun (fun _ => Or.inl) nofun
  | read d a as hpc =>
    have hmem : ∀ b ∈ a :: as, b ∈ s.pc.held := fun b hb => hpc ▸ hb
    rcases readValue_cases conv s d a as with ⟨status, v, -, heq⟩ | ⟨-, heq⟩ <;> rw [heq] at hc ⊢
    · refine h.of_check hc (fun b hb => Or.inr (hmem b (List.mem_cons_of_mem a hb))) ?_ nofun
      intro x hx
      refine (List.mem_append.mp hx).imp_right fun hx => ?_
      rw [List.mem_singleton.mp hx]
      exact hmem a List.mem_cons_self
    · exact h.of_check hc nofun (fun _ => Or.inl) nofun

theorem sound_step {s t : State V W} (h : Sound s) (hI : Inv s) {l : Label}
    (hl : (system B conv).step s l = some t) : Sound t := by
  have hcheck : check conv s l = some t → Sound t := sound_check h
  cases l with
  | getDeviceList th id p =>
    obtain ⟨u, hu, rfl⟩ := Option.map_eq_some_iff.mp hl
    have h' := sound_request h hu
    exact ⟨h'.born, h'.busy, h'.class_kept, h'.reading⟩
  | getLastValue th id d m => exact sound_request h hl
  | insert th =>
    obtain ⟨e, -, rfl⟩ := insert_eq hl
    exact ⟨h.born, h.busy, h.class_kept, h.reading⟩
  | receive m =>
    obtain ⟨-, ⟨-, rfl⟩ | ⟨-, hend, heq⟩⟩ := receive_eq hl
    · exact ⟨h.born, h.busy, nofun, h.reading⟩
    · rw [heq]
      refine ⟨h.born, h.busy, fun m todo a i ops hc => ?_, h.reading⟩
      rcases hend with hend | hend <;> exact absurd (hend.symm.trans hc) nofun
  | handle => exact sound_handle h hI hl
  | expire =>
    obtain ⟨w, -, rfl⟩ := Option.map_eq_some_iff.mp hl
    exact ⟨h.born, h.busy, h.class_kept, h.reading⟩
  | begin | visit | endScan | act | read | leave => exact hcheck hl

/-- In every run, what is dirty, taken or acted on has a result, and a last value stays one. -/
theorem run_sound {s : State V W} {ls : List Label} (h : (system B conv).run init ls = some s) :
    Sound s :=
  ((system B conv).run_inv (P := fun s => Inv s ∧ Sound s)
    (fun _ _ _ ⟨hI, hS⟩ hl => ⟨step_inv hI hl, sound_step hS hI hl⟩) ⟨inv_init, sound_init⟩ h).2

end DeviceManager
end BeeeOn
