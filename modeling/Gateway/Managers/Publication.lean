import Gateway.Managers.CheckQueue
import Gateway.Model.Sample

/-! @src zmq/ZMQMessage.cpp, core/Result.cpp, jablotron/JablotronDeviceManager.cpp |
    name:Publication of a decoded reply | family:publication

    A decoder sets the status of the new result before it sets what the reply carries, and it is the
    status that marks the answer. If `checkQueue` takes the answer in between, it acts on what the
    constructor of the result has left there, and nothing marks the answer again. A reply is lost too
    when its answer has an earlier result, which is the one `checkQueue` looks at, and when the loop of
    `checkQueue` ends before it comes to the answer. Otherwise a reply passes through the stages below
    in order, whatever the threads do, and the manager acts on it once (`published`). The handlers of
    the broker set the payload first. -/

namespace BeeeOn
open Schemes
variable {V W : Type} (B : Base V) {conv : V → W}

/-- Whether the command asks for a device list. -/
def Command.isServerDeviceList : Command V → Bool
  | .serverDeviceList _ => true
  | _ => false

namespace DeviceManager

/-- The decoding is over, and `checkQueue` has acted on all it has taken and leaves nothing dirty. -/
def Quiet (s : State V W) : Prop :=
  s.client = .idle ∧ s.pc.held = [] ∧ ∀ b ∈ s.queue.answerList, (s.queue.heap b).dirty = false

/-- Not a further message, and not a request that clears the paired devices. -/
def Label.Internal : Label → Prop
  | .receive _ | .getDeviceList _ _ _ => False
  | _ => True

/-- The result is of the class that `checkQueue` casts a result of the command to. -/
def Expects : Command V → Payload V → Prop
  | .serverDeviceList _, .deviceList _ => True
  | .serverLastValue _ _, .lastValue _ => True
  | _, _ => False

/-- What the manager does with the payload of a reply to `cmd` has been done. -/
def Effect (conv : V → W) (cmd : Command V) (p : Payload V) (t : State V W) : Prop :=
  match cmd, p with
  | .serverDeviceList _, .deviceList list => t.devices = list.toFinset
  | .serverLastValue d _, .lastValue v => (d, v.map conv) ∈ t.switched
  | _, _ => False

/-- What `checkQueue` has read from the answer `a`, each time it has acted on it. -/
def State.log (s : State V W) (a : ℕ) : List (Payload V) :=
  (s.acted.filter (·.1 = a)).map Prod.snd

/-- The manager has acted on the request `e` once, on exactly `p`, and the effect stands. -/
def Acted (conv : V → W) (e : Entry V) (p : Payload V) (t : State V W) : Prop :=
  t.log e.answer = [p] ∧ Effect conv e.cmd p t

/-- The steps that do not disturb a reply to `e`. It finds its answer without a result and is of the
    class its command asks for; a scan does not take the answer while the client thread has calls
    ahead on it; `checkQueue` does not leave its loop while the answer is among those ahead, and
    having acted on a device list it does not act on another. -/
def Undisturbed (e : Entry V) (s : State V W) : Label → Prop
  | .receive m => (s.queue.heap e.answer).results = [] ∧ Expects e.cmd (newResult B m)
  | .visit => ∀ todo taken m rest i op ops, s.pc = .scanning (e.answer :: todo) taken →
      s.client = .decoding m rest e.answer i (op :: ops) → (s.queue.heap e.answer).dirty = false
  | .act => ∀ b as, s.pc = .acting (b :: as) → (e.answer ∈ as → ¬ Leaves s b) ∧
      (e.cmd.isServerDeviceList = true → s.log e.answer ≠ [] →
        ∀ x ∈ s.table, x.answer = b → x.cmd.isServerDeviceList = false)
  | _ => True

/-! ### What checkQueue does to one answer -/

variable {B}

theorem log_self {a : ℕ} {x : Payload V} {s t : State V W} (h : t.acted = s.acted ++ [(a, x)]) :
    t.log a = s.log a ++ [x] := by
  rw [State.log, State.log, h]
  simp

theorem log_ne {a b : ℕ} {x : Payload V} {s t : State V W} (h : t.acted = s.acted ++ [(b, x)])
    (hb : b ≠ a) : t.log a = s.log a := by
  rw [State.log, State.log, h]
  simp [hb]

/-- Neither taken nor acted on: the step of `checkQueue` is about other answers than `a`. The paired
    devices change with the device list of another answer only. -/
structure Spares (a : ℕ) (s t : State V W) (l : Label) : Prop where
  heap : t.queue.heap a = s.queue.heap a
  held : t.pc.held.count a = s.pc.held.count a
  reading : ∀ d as, t.pc = .reading d a as → s.pc = .reading d a as
  log : t.log a = s.log a
  switched : ∀ x ∈ s.switched, x ∈ t.switched
  devices : t.devices = s.devices ∨ ∃ b as x, l = .act ∧ s.pc = .acting (b :: as) ∧ x ∈ s.table ∧
    x.answer = b ∧ x.cmd.isServerDeviceList = true

theorem visit_of_clean {q : AnswerQueue V} {a : ℕ} (h : (q.heap a).dirty = false) :
    (q.visit a).2 = q := by
  simp [AnswerQueue.visit, h]

theorem spares_visit {a b : ℕ} {s : State V W} {todo taken : List ℕ}
    (hpc : s.pc = .scanning (b :: todo) taken) (hb : b = a → (s.queue.heap a).dirty = false) :
    Spares a s
      { s with
        queue := (s.queue.visit b).2
        pc := .scanning todo (if (s.queue.heap b).dirty then taken ++ [b] else taken) } .visit := by
  refine ⟨?_, ?_, nofun, rfl, fun _ => id, Or.inl rfl⟩
  · by_cases hba : b = a
    · subst hba; exact congrArg (·.heap b) (visit_of_clean (hb rfl))
    · exact (AnswerQueue.visit_heap _ _ _).trans (if_neg (Ne.symm hba))
  · rw [hpc]
    by_cases hba : b = a
    · subst hba; rw [hb rfl]; rfl
    · simp only [Check.held]
      split_ifs
      · rw [List.count_append, List.count_singleton, beq_false_of_ne hba]; rfl
      · rfl

theorem spares_act {a b : ℕ} {s : State V W} {as : List ℕ} (hpc : s.pc = .acting (b :: as))
    (hba : b ≠ a) (hstay : a ∈ as → ¬ Leaves s b) : Spares a s (act s b as) .act := by
  have hcount : s.pc.held.count a = as.count a := by
    rw [hpc]; exact List.count_cons_of_ne hba
  have h := acts s b as
  generalize act s b as = t at h
  cases h with
  | list e p status devices hfind hcmd hfirst =>
    refine ⟨rfl, hcount.symm, nofun, log_ne rfl hba, fun _ => id,
      Or.inr ⟨b, as, e, rfl, hpc, ?_, ?_, ?_⟩⟩
    · exact List.mem_of_find?_eq_some hfind
    · simpa using List.find?_some hfind
    · rw [hcmd]; rfl
  | value e d k v hfind hcmd hfirst =>
    refine ⟨rfl, (List.count_cons_of_ne hba).trans hcount.symm, ?_, rfl, fun _ => id, Or.inl rfl⟩
    rintro _ _ ⟨⟩
    exact absurd rfl hba
  | clear e p hfind hcmd hleaves =>
    have hzero : as.count a = 0 := List.count_eq_zero.mpr fun hmem => hstay hmem hleaves
    refine ⟨rfl, (hcount.trans hzero).symm, nofun, rfl, fun _ => id,
      Or.inr ⟨b, as, e, rfl, hpc, ?_, ?_, ?_⟩⟩
    · exact List.mem_of_find?_eq_some hfind
    · simpa using List.find?_some hfind
    · rw [hcmd]; rfl
  | leave pc hend hleaves =>
    have hzero : as.count a = 0 := List.count_eq_zero.mpr fun hmem => hstay hmem hleaves
    rcases hend with rfl | rfl <;>
      exact ⟨rfl, (hcount.trans hzero).symm, nofun, rfl, fun _ => id, Or.inl rfl⟩

theorem spares_read {a b : ℕ} {s : State V W} {d : DeviceID} {as : List ℕ} (hS : Sound s)
    (hpc : s.pc = .reading d b as) (hba : b ≠ a) : Spares a s (readValue conv s d b as) .read := by
  rcases readValue_cases conv s d b as with ⟨status, v, -, heq⟩ | ⟨hno, -⟩
  · rw [heq]
    refine ⟨rfl, ?_, nofun, log_ne rfl hba, fun _ => List.mem_append_left _, Or.inl rfl⟩
    rw [hpc]; exact (List.count_cons_of_ne hba).symm
  · obtain ⟨r, hr, hlast⟩ := hS.reading d b as hpc
    rw [hno r hr] at hlast; cases hlast

/-- A step of `checkQueue` takes the answer `a`, acts on it, or is about other answers. -/
theorem check_cases {s t : State V W} {l : Label} (a : ℕ) (hc : check conv s l = some t)
    (hS : Sound s) (hstay : ∀ b as, l = .act → s.pc = .acting (b :: as) → a ∈ as → ¬ Leaves s b) :
    Spares a s t l ∨
    (∃ todo taken, l = .visit ∧ s.pc = .scanning (a :: todo) taken ∧ (s.queue.heap a).dirty = true ∧
      t = { s with queue := (s.queue.visit a).2, pc := .scanning todo (taken ++ [a]) }) ∨
    (∃ as, s.pc = .acting (a :: as) ∧ t = act s a as) ∨
    ∃ d as, s.pc = .reading d a as ∧ t = readValue conv s d a as := by
  cases checked hc with
  | begin hpc | leave hpc =>
    exact Or.inl ⟨rfl, by rw [hpc]; rfl, nofun, rfl, fun _ => id, Or.inl rfl⟩
  | endScan taken hpc => exact Or.inl ⟨rfl, by rw [hpc]; rfl, nofun, rfl, fun _ => id, Or.inl rfl⟩
  | visit b todo taken hpc =>
    by_cases hb : b = a ∧ (s.queue.heap a).dirty = true
    · obtain ⟨rfl, hd⟩ := hb
      exact Or.inr (Or.inl ⟨todo, taken, rfl, hpc, hd, by rw [if_pos hd]⟩)
    · exact Or.inl (spares_visit hpc fun hba => (Bool.not_eq_true _).mp fun hd => hb ⟨hba, hd⟩)
  | act b as hpc =>
    by_cases hba : b = a
    · exact Or.inr (Or.inr (Or.inl ⟨as, hba ▸ hpc, by rw [hba]⟩))
    · exact Or.inl (spares_act hpc hba (hstay b as rfl hpc))
  | read d b as hpc =>
    by_cases hba : b = a
    · exact Or.inr (Or.inr (Or.inr ⟨d, as, hba ▸ hpc, by rw [hba]⟩))
    · exact Or.inl (spares_read hS hpc hba)

/-! ### The stages of a reply -/

/-- The client thread has yet to find the answer; the result is new; its status is set; its payload is
    set too; `checkQueue` has taken the answer; `checkQueue` has acted on it. -/
inductive Stage where
  | looking | created | marked | full | taken | acted

variable (B) (m : ZMQMessage) (e : Entry V) (p : Payload V)

/-- The results of the answer. -/
def Stage.results : Stage → List (Result V)
  | looking => []
  | created => [.new (newResult B m)]
  | marked => [⟨.success, newResult B m⟩]
  | full | taken | acted => [⟨.success, p⟩]

/-- Whether the answer is dirty. -/
def Stage.dirty : Stage → Bool
  | marked | full => true
  | looking | created | taken | acted => false

/-- How often `checkQueue` holds the answer. -/
def Stage.held : Stage → ℕ
  | taken => 1
  | looking | created | marked | full | acted => 0

/-- What `checkQueue` has read from the answer. -/
def Stage.log : Stage → List (Payload V)
  | acted => [p]
  | looking | created | marked | full | taken => []

/-- Where the client thread is; once the result is full, it has no item for the reply ahead. -/
def Stage.Place (c : Client V) : Stage → Prop
  | looking => ∃ todo, c = .looking m todo ∧ e ∈ todo ∧ (todo.map Entry.id).Nodup
  | created => ∃ todo, e.id ∉ todo.map Entry.id ∧
      c = .decoding m todo e.answer 0 [.ok (.setStatus .success), .ok (.setPayload p)]
  | marked => ∃ todo, e.id ∉ todo.map Entry.id ∧ c = .decoding m todo e.answer 0 [.ok (.setPayload p)]
  | full | taken | acted => c = .idle ∨ ∃ todo, e.id ∉ todo.map Entry.id ∧
      (c = .looking m todo ∨ c = .decoding m todo e.answer 0 [])

structure Stage.At (conv : V → W) (st : Stage) (s : State V W) : Prop where
  results : (s.queue.heap e.answer).results = st.results B m p
  dirty : (s.queue.heap e.answer).dirty = st.dirty
  held : s.pc.held.count e.answer = st.held
  reading : ∀ d as, s.pc = .reading d e.answer as → ∃ k, e.cmd = .serverLastValue d k
  log : s.log e.answer = st.log p
  client : st.Place m e p s.client
  effect : st = acted → Effect conv e.cmd p s

variable {B m e p}

/-- The effect of a reply stands while the paired devices and the switches do. -/
theorem Effect.mono {cmd : Command V} {s t : State V W} (h : Effect conv cmd p s)
    (hdevices : cmd.isServerDeviceList = true → t.devices = s.devices)
    (hswitched : ∀ x ∈ s.switched, x ∈ t.switched) : Effect conv cmd p t := by
  simp only [Effect] at h ⊢
  split at h
  · exact (hdevices rfl).trans h
  · exact hswitched _ h
  · exact h.elim

/-! ### The client thread along the stages -/

/-- When the client thread leaves the answer alone, only its place changes. -/
theorem Stage.At.of_client {st : Stage} {s : State V W} (h : st.At B m e p conv s) {c : Client V}
    (hc : st.Place m e p c) : st.At B m e p conv { s with client := c } :=
  ⟨h.results, h.dirty, h.held, h.reading, h.log, hc, fun ha => (h.effect ha).mono (fun _ => rfl)
    fun _ => id⟩

/-- The client thread finds the answer and creates the result. -/
theorem Stage.At.create {s : State V W} (h : Stage.looking.At B m e p conv s) {todo : List (Entry V)}
    (hnot : e.id ∉ todo.map Entry.id) {ops : Decoding V}
    (hops : ops = [.ok (.setStatus .success), .ok (.setPayload p)]) :
    Stage.created.At B m e p conv
      { s with
        queue := s.queue.addResult e.answer (newResult B m)
        client := .decoding m todo e.answer (s.queue.heap e.answer).results.length ops } where
  results := by
    rw [AnswerQueue.addResult_heap, if_pos rfl, Answer.addResult, h.results]; rfl
  dirty := by
    rw [AnswerQueue.addResult_heap, if_pos rfl]; exact h.dirty
  held := h.held
  reading := h.reading
  log := h.log
  client := ⟨todo, hnot, by rw [h.results, hops]; rfl⟩
  effect := nofun

/-- Setting a status that is further raises it and marks the answer. -/
theorem setStatus_of_lt {q : AnswerQueue V} {a i : ℕ} {r : Result V} {st : Status}
    (hr : (q.heap a).results[i]? = some r) (h : r.status.raw < st.raw) : q.setStatus a i st =
      .ok ((q.modify a (·.setResult i { r with status := st })).notifyUpdated a) := by
  simp only [AnswerQueue.setStatus, hr, Status.change_eq_true.mpr h]

/-- The client thread sets the status. -/
theorem Stage.At.setStatus {s t : State V W} (h : Stage.created.At B m e p conv s)
    (hh : DeviceManager.handle B s = some t) : Stage.marked.At B m e p conv t := by
  obtain ⟨todo, hnot, hc⟩ := h.client
  have hr : (s.queue.heap e.answer).results[0]? = some (.new (newResult B m)) := by
    rw [h.results]; rfl
  have hcall : call s.queue e.answer 0 (.ok (.setStatus .success)) = .ok _ :=
    setStatus_of_lt hr (show (0 : ℤ) < 1 by decide)
  simp only [DeviceManager.handle, hc, hcall] at hh
  cases hh
  refine ⟨?_, ?_, h.held, h.reading, h.log, ⟨todo, hnot, rfl⟩, nofun⟩
  · rw [AnswerQueue.setStatus_heap, if_pos rfl, Answer.setDirty, Answer.setResult, h.results]; rfl
  · rw [AnswerQueue.setStatus_heap, if_pos rfl]; rfl

/-- The client thread sets the payload. -/
theorem Stage.At.setPayload {s t : State V W} (h : Stage.marked.At B m e p conv s)
    (hh : DeviceManager.handle B s = some t) : Stage.full.At B m e p conv t := by
  obtain ⟨todo, hnot, hc⟩ := h.client
  have hr : (s.queue.heap e.answer).results[0]? = some ⟨.success, newResult B m⟩ := by
    rw [h.results]; rfl
  simp only [DeviceManager.handle, hc, call, AnswerQueue.setPayload, hr] at hh
  cases hh
  refine ⟨?_, ?_, h.held, h.reading, h.log, Or.inr ⟨todo, hnot, Or.inr rfl⟩,
    fun hst => (by cases hst)⟩
  · rw [AnswerQueue.modify_heap_self, Answer.setResult, h.results]; rfl
  · rw [AnswerQueue.modify_heap_self]; exact h.dirty

/-- Behind the reply, the client thread only goes on in its loop. -/
theorem handle_behind {s t : State V W} (hid : m.id B = .ok e.id)
    (hc : Stage.full.Place m e p s.client) (hh : handle B s = some t) :
    ∃ c, Stage.full.Place m e p c ∧ t = { s with client := c } := by
  rw [handle] at hh
  rcases hc with hc | ⟨todo, hnot, hc | hc⟩
  · simp only [hc] at hh; cases hh
  · cases todo with
    | nil =>
      simp only [hc] at hh; cases hh
      exact ⟨.idle, Or.inl rfl, rfl⟩
    | cons x todo =>
      rw [List.map_cons, List.mem_cons, not_or] at hnot
      simp only [hc, hid, if_neg (Ne.symm hnot.1)] at hh; cases hh
      exact ⟨_, Or.inr ⟨todo, hnot.2, Or.inl rfl⟩, rfl⟩
  · simp only [hc] at hh; cases hh
    exact ⟨_, Or.inr ⟨todo, hnot, Or.inl rfl⟩, rfl⟩

/-- The steps of the client thread take a reply from stage to stage. -/
theorem Stage.At.handle {st : Stage} {s t : State V W} (h : st.At B m e p conv s)
    (hid : m.id B = .ok e.id)
    (hdec : decoder B m = [.ok (.setStatus .success), .ok (.setPayload p)])
    (hh : DeviceManager.handle B s = some t) : ∃ st' : Stage, st'.At B m e p conv t := by
  cases st with
  | looking =>
    obtain ⟨todo, hc, hmem, hnodup⟩ := h.client
    cases todo with
    | nil => cases hmem
    | cons x todo =>
      simp only [DeviceManager.handle, hc, hid] at hh
      split_ifs at hh with hx
      · obtain rfl := List.inj_on_of_nodup_map hnodup List.mem_cons_self hmem hx
        cases hh
        exact ⟨_, h.create (List.nodup_cons.mp hnodup).1 hdec⟩
      · cases hh
        have hmem' : e ∈ todo := (List.mem_cons.mp hmem).resolve_left (by rintro rfl; exact hx rfl)
        exact ⟨_, h.of_client ⟨todo, rfl, hmem', (List.nodup_cons.mp hnodup).2⟩⟩
  | created => exact ⟨_, h.setStatus hh⟩
  | marked => exact ⟨_, h.setPayload hh⟩
  | full | taken | acted =>
    obtain ⟨c, hc, rfl⟩ := handle_behind (p := p) hid h.client hh
    exact ⟨_, h.of_client hc⟩

/-! ### checkQueue along the stages -/

/-- A reply stays at its stage while `checkQueue` is about other answers. -/
theorem Stage.At.spares {st : Stage} {s t : State V W} {l : Label} (h : st.At B m e p conv s)
    (hspares : Spares e.answer s t l) (hclient : t.client = s.client)
    (hdevices : st = acted → e.cmd.isServerDeviceList = true → t.devices = s.devices) :
    st.At B m e p conv t where
  results := hspares.heap ▸ h.results
  dirty := hspares.heap ▸ h.dirty
  held := hspares.held.trans h.held
  reading d as hpc := h.reading d as (hspares.reading d as hpc)
  log := hspares.log.trans h.log
  client := hclient ▸ h.client
  effect ha := (h.effect ha).mono (hdevices ha) hspares.switched

/-- The scan takes the answer of a full result. -/
theorem Stage.At.take {s : State V W} (h : Stage.full.At B m e p conv s) {todo taken : List ℕ}
    (hpc : s.pc = .scanning (e.answer :: todo) taken) :
    Stage.taken.At B m e p conv
      { s with queue := (s.queue.visit e.answer).2, pc := .scanning todo (taken ++ [e.answer]) } where
  results := by rw [visit_results]; exact h.results
  dirty := by rw [AnswerQueue.visit_heap, if_pos rfl]; rfl
  held := by
    have hzero : s.pc.held.count e.answer = 0 := h.held
    rw [hpc] at hzero
    exact List.count_append.trans (by rw [show taken.count e.answer = 0 from hzero]; simp [Stage.held])
  reading := nofun
  log := h.log
  client := h.client
  effect := nofun

/-- The item of a request is found under its answer. -/
theorem find_entry {s : State V W} (hI : Inv s) (he : e ∈ s.table) :
    s.table.find? (·.answer = e.answer) = some e := by
  cases hx : s.table.find? (·.answer = e.answer) with
  | none => exact absurd (List.find?_eq_none.mp hx e he) (by simp)
  | some x =>
    have hans : x.answer = e.answer := by simpa using List.find?_some hx
    rw [hI.eq_of_answer (hI.stored x (List.mem_of_find?_eq_some hx)) (hI.stored e he) hans]

theorem Stage.At.first {s : State V W} {st : Stage} (h : st.At B m e p conv s)
    (hst : st = full ∨ st = taken) : DeviceManager.first s.queue e.answer = some ⟨.success, p⟩ := by
  rw [DeviceManager.first, h.results]
  rcases hst with rfl | rfl <;> rfl

/-- An answer that is taken is not taken a second time. -/
theorem Stage.At.count_rest {s : State V W} {as : List ℕ} (h : Stage.taken.At B m e p conv s)
    (hheld : s.pc.held = e.answer :: as) : as.count e.answer = 0 := by
  have hone : s.pc.held.count e.answer = 1 := h.held
  rw [hheld, List.count_cons_self] at hone
  omega

/-- The loop of `checkQueue` does not end at an answer with a successful result of its class. -/
theorem not_leaves {s : State V W} (hI : Inv s) (he : e ∈ s.table) (hexp : Expects e.cmd p)
    (hfirst : first s.queue e.answer = some ⟨.success, p⟩) : ¬ Leaves s e.answer := by
  rw [Leaves, find_entry hI he]
  simp only [hfirst]
  simp only [Expects] at hexp
  split at hexp
  · rename_i hcmd; simp [hcmd]
  · rename_i hcmd; simp [hcmd]
  · exact hexp.elim

/-- `checkQueue` acts on a device list, or begins with a last value. -/
theorem Stage.At.act {s : State V W} {as : List ℕ} (h : Stage.taken.At B m e p conv s) (hI : Inv s)
    (he : e ∈ s.table) (hexp : Expects e.cmd p) (hpc : s.pc = .acting (e.answer :: as)) :
    ∃ st' : Stage, st'.At B m e p conv (act s e.answer as) := by
  have hfirst := h.first (Or.inr rfl)
  have hheld : s.pc.held = e.answer :: as := by rw [hpc]; rfl
  have hcount := h.count_rest hheld
  have hact := acts s e.answer as
  generalize DeviceManager.act s e.answer as = t at hact
  cases hact with
  | list x p' status devices hfind hcmd hfirst' =>
    obtain rfl := Option.some.inj ((find_entry hI he).symm.trans hfind)
    obtain ⟨rfl, rfl⟩ : status = .success ∧ .deviceList devices = p := by
      simpa using hfirst'.symm.trans hfirst
    refine ⟨.acted, h.results, h.dirty, hcount, nofun, ?_, h.client, fun _ => ?_⟩
    · exact (log_self rfl).trans (by rw [h.log]; rfl)
    · simp only [Effect]; rw [hcmd]
  | value x d k v hfind hcmd hfirst' =>
    obtain rfl := Option.some.inj ((find_entry hI he).symm.trans hfind)
    refine ⟨.taken, h.results, h.dirty, ?_, ?_, h.log, h.client, nofun⟩
    · exact (congrArg (List.count _) (congrArg Check.held hpc)).symm.trans h.held
    · rintro _ _ ⟨⟩
      exact ⟨k, hcmd⟩
  | clear x p' hfind hcmd hleaves => exact absurd hleaves (not_leaves hI he hexp hfirst)
  | leave pc hend hleaves => exact absurd hleaves (not_leaves hI he hexp hfirst)

/-- `checkQueue` reads a last value and hands it to the device. -/
theorem Stage.At.read {s : State V W} {d : DeviceID} {as : List ℕ}
    (h : Stage.taken.At B m e p conv s) (hexp : Expects e.cmd p)
    (hpc : s.pc = .reading d e.answer as) :
    Stage.acted.At B m e p conv (readValue conv s d e.answer as) := by
  have hfirst := h.first (Or.inr rfl)
  have hheld : s.pc.held = e.answer :: as := by rw [hpc]; rfl
  have hcount := h.count_rest hheld
  obtain ⟨k, hcmd⟩ := h.reading d as hpc
  obtain ⟨v, rfl⟩ : ∃ v, p = .lastValue v := by
    rw [hcmd] at hexp
    cases p with
    | lastValue v => exact ⟨v, rfl⟩
    | plain | deviceList _ | setValue _ => exact hexp.elim
  have hread : readValue conv s d e.answer as =
      { s with
        switched := s.switched ++ [(d, v.map conv)]
        pc := .acting as
        acted := s.acted ++ [(e.answer, .lastValue v)] } := by
    simp only [readValue, hfirst]
  rw [hread]
  refine ⟨h.results, h.dirty, hcount, fun _ _ hread' => (by cases hread'), ?_, h.client, fun _ => ?_⟩
  · exact (log_self rfl).trans (by rw [h.log]; rfl)
  · simp only [Effect]; rw [hcmd]; simp

/-- The steps of `checkQueue` take a reply from stage to stage. -/
theorem Stage.At.check {st : Stage} {s t : State V W} {l : Label} (h : st.At B m e p conv s)
    (hI : Inv s) (hS : Sound s) (he : e ∈ s.table) (hexp : Expects e.cmd p)
    (hC : Undisturbed B e s l) (hc : DeviceManager.check conv s l = some t) :
    ∃ st' : Stage, st'.At B m e p conv t := by
  have hstay : ∀ b as, l = .act → s.pc = .acting (b :: as) → e.answer ∈ as → ¬ Leaves s b := by
    rintro b as rfl hpc
    exact (hC b as hpc).1
  have hheld : e.answer ∈ s.pc.held → st = .taken := by
    intro hmem
    have hpos : 0 < st.held := h.held ▸ List.count_pos_iff.mpr hmem
    cases st with
    | taken => rfl
    | looking | created | marked | full | acted => cases hpos
  rcases check_cases e.answer hc hS hstay with
    hspares | ⟨todo, taken, rfl, hpc, hd, rfl⟩ | ⟨as, hpc, rfl⟩ | ⟨d, as, hpc, rfl⟩
  · refine ⟨st, h.spares hspares (check_frame hc).client fun hacted hlist => ?_⟩
    refine hspares.devices.resolve_right ?_
    rintro ⟨b, as, x, rfl, hpc, hx, hxb, hxlist⟩
    have hlog : s.log e.answer ≠ [] := by rw [h.log, hacted]; exact nofun
    rw [(hC b as hpc).2 hlist hlog x hx hxb] at hxlist
    cases hxlist
  · rw [h.dirty] at hd
    cases st with
    | looking | created | taken | acted => cases hd
    | marked =>
      obtain ⟨rest, -, hclient⟩ := h.client
      have hclean := hC todo taken m rest 0 _ _ hpc hclient
      rw [h.dirty] at hclean; cases hclean
    | full => exact ⟨_, h.take hpc⟩
  · obtain rfl := hheld (by rw [hpc]; exact List.mem_cons_self)
    exact h.act hI he hexp hpc
  · obtain rfl := hheld (by rw [hpc]; exact List.mem_cons_self)
    exact ⟨_, h.read hexp hpc⟩

/-! ### Whole runs -/

/-- A reply on its way: its request is in `m_table`, and it is at one of the stages. -/
structure Going (conv : V → W) (B : Base V) (m : ZMQMessage) (e : Entry V) (p : Payload V)
    (s : State V W) : Prop where
  inv : Inv s
  sound : Sound s
  stored : e ∈ s.table
  stage : ∃ st : Stage, st.At B m e p conv s

theorem going_step {s t : State V W} {l : Label} (h : Going conv B m e p s) (hid : m.id B = .ok e.id)
    (hdec : decoder B m = [.ok (.setStatus .success), .ok (.setPayload p)]) (hexp : Expects e.cmd p)
    (hint : l.Internal) (hC : Undisturbed B e s l) (hl : (system B conv).step s l = some t) :
    Going conv B m e p t := by
  obtain ⟨hI, hS, he, st, hst⟩ := h
  have hcheck : check conv s l = some t → Going conv B m e p t := fun hc =>
    ⟨check_inv hI hc, sound_check hS hc, (check_frame hc).table ▸ he, hst.check hI hS he hexp hC hc⟩
  have hI' := step_inv hI hl
  have hS' := sound_step hS hI hl
  cases l with
  | getDeviceList | receive => exact hint.elim
  | getLastValue th gid d k =>
    have hne : e.answer ≠ s.queue.next := (hI.queued e (hI.stored e he)).2.ne
    obtain ⟨-, -, out, rfl⟩ := request_eq hl
    have hheap : s.queue.newAnswer.heap e.answer = s.queue.heap e.answer := by
      rw [AnswerQueue.newAnswer_heap, if_neg hne]
    exact ⟨hI', hS', he, st, hheap ▸ hst.results, hheap ▸ hst.dirty, hst.held, hst.reading, hst.log,
      hst.client, fun ha => (hst.effect ha).mono (fun _ => rfl) fun _ => id⟩
  | insert th =>
    obtain ⟨x, -, rfl⟩ := insert_eq hl
    exact ⟨hI', hS', List.mem_append_left _ he, st, hst.results, hst.dirty, hst.held, hst.reading,
      hst.log, hst.client, fun ha => (hst.effect ha).mono (fun _ => rfl) fun _ => id⟩
  | handle => exact ⟨hI', hS', (handle_frame hl).table ▸ he, hst.handle hid hdec hl⟩
  | expire =>
    obtain ⟨w, -, rfl⟩ := Option.map_eq_some_iff.mp hl
    exact ⟨hI', hS', he, st, hst.results, hst.dirty, hst.held, hst.reading, hst.log, hst.client,
      fun ha => (hst.effect ha).mono (fun _ => rfl) fun _ => id⟩
  | begin | visit | endScan | act | read | leave => exact hcheck hl

/-- A message about a request whose answer has no result starts it on its way: nobody has been at the
    answer. -/
theorem going_receive {s t : State V W} (hI : Inv s) (hS : Sound s) (he : e ∈ s.table)
    (hid : replyID B m = some e.id) (hnil : (s.queue.heap e.answer).results = [])
    (hr : receive B conv s m = some t) : Going conv B m e p t := by
  have hreply := (replyID_eq_some hid).1
  have hidle : ¬ ((s.queue.heap e.answer).dirty = true ∨ e.answer ∈ s.pc.held ∨
      e.answer ∈ s.acted.map Prod.fst) := fun h => hS.busy e.answer h hnil
  rw [not_or, not_or] at hidle
  obtain ⟨hclean, hheld, hacted⟩ := hidle
  have hlog : s.log e.answer = [] := by
    rw [State.log, List.map_eq_nil_iff, List.filter_eq_nil_iff]
    rintro x hx hxa
    exact hacted (List.mem_map.mpr ⟨x, hx, by simpa using hxa⟩)
  have hI' := receive_inv hI hr
  have hS' := sound_step (l := .receive m) hS hI hr
  obtain ⟨-, ⟨-, rfl⟩ | ⟨hno, -, -⟩⟩ := receive_eq hr
  · refine ⟨hI', hS', he, .looking, hnil, (Bool.not_eq_true _).mp hclean, List.count_eq_zero.mpr hheld,
      fun d as hpc => ?_, hlog, ⟨s.table, rfl, he, hI.tableIds⟩, nofun⟩
    exact absurd (hpc ▸ List.mem_cons_self) hheld
  · rw [hreply] at hno; cases hno

/-- The decoder of a reply sets a payload of the class that the constructor has left. -/
theorem Expects.payload {cmd : Command V} (h : Expects cmd (newResult B m))
    (hp : .ok (.setPayload p) ∈ decoder B m) : Expects cmd p := by
  rcases decoder_payload hp with ⟨list, hnew, rfl⟩ | ⟨v, hnew, rfl⟩ <;>
    (rw [hnew] at h; cases cmd <;> exact h)

/-- The answer of a reply on its way is dirty at a scan only with its payload set. -/
theorem Going.first_of_dirty {v : State V W} (h : Going conv B m e p v) {todo taken : List ℕ}
    (hpc : v.pc = .scanning (e.answer :: todo) taken) (hC : Undisturbed B e v .visit)
    (hdirty : (v.queue.heap e.answer).dirty = true) :
    first v.queue e.answer = some ⟨.success, p⟩ := by
  obtain ⟨st, hst⟩ := h.stage
  rw [hst.dirty] at hdirty
  cases st with
  | looking | created | taken | acted => cases hdirty
  | marked =>
    obtain ⟨rest, -, hclient⟩ := hst.client
    have hclean := hC _ _ _ _ _ _ _ hpc hclient
    rw [hst.dirty] at hclean; cases hclean
  | full => exact hst.first (Or.inl rfl)

/-- When everything has come to rest, a reply is at its last stage. -/
theorem Going.acted_of_quiet {v : State V W} (h : Going conv B m e p v) (hend : Quiet v) :
    Acted conv e p v := by
  obtain ⟨hI, -, hstored, st, hst⟩ := h
  obtain ⟨hclient, hnone, hclean⟩ := hend
  have hdirty := hclean e.answer (hI.queued e (hI.stored e hstored)).1
  rw [hst.dirty] at hdirty
  have hplace := hst.client
  rw [hclient] at hplace
  have hheld := hst.held
  rw [hnone] at hheld
  cases st with
  | looking => obtain ⟨_, h, -⟩ := hplace; cases h
  | created | marked => obtain ⟨_, -, h⟩ := hplace; cases h
  | full => cases hdirty
  | taken => cases hheld
  | acted => exact ⟨hst.log, hst.effect rfl⟩

/-- The manager acts on exactly the content of a reply: a scan that takes the answer finds the payload
    set, and when everything has come to rest, `checkQueue` has acted on it. -/
theorem published {pre after : List Label} {u t : State V W}
    (hpre : (system B conv).run init pre = some u)
    (hrun : (system B conv).run u (.receive m :: after) = some t) (hint : ∀ l ∈ after, l.Internal)
    (he : e ∈ u.table) (hid : replyID B m = some e.id)
    (hdec : decoder B m = [.ok (.setStatus .success), .ok (.setPayload p)])
    (hC : (system B conv).Meets (Undisturbed B e) u (.receive m :: after)) :
    (∀ as bs v todo taken, after = as ++ .visit :: bs →
        (system B conv).run u (.receive m :: as) = some v →
        v.pc = .scanning (e.answer :: todo) taken → (v.queue.heap e.answer).dirty = true →
        first v.queue e.answer = some ⟨.success, p⟩) ∧
      (Quiet t → Acted conv e p t) := by
  obtain ⟨w, hw, hrest⟩ := (system B conv).run_cons_iff.mp hrun
  obtain ⟨hnil, hnew⟩ := hC [] _ after u rfl rfl
  have hexp : Expects e.cmd p := hnew.payload (by rw [hdec]; simp)
  have hgo : Going conv B m e p w := going_receive (run_inv hpre) (run_sound hpre) he hid hnil hw
  have hid' := (replyID_eq_some hid).2
  have hgoing : ∀ as bs v, after = as ++ bs → (system B conv).run w as = some v →
      Going conv B m e p v := by
    rintro as bs v rfl hv
    refine (system B conv).run_inv_of_meets (C := fun s l => Undisturbed B e s l ∧ l.Internal)
      (fun _ _ _ h hc hl => going_step h hid' hdec hexp hc.2 hc.1 hl) hgo ?_ hv
    intro as' l bs' v' heq hv'
    exact ⟨Lts.Meets.left _ (Lts.Meets.tail _ hC hw) as' l bs' v' heq hv',
      hint l (List.mem_append_left _ (by simp [heq]))⟩
  refine ⟨?_, fun hend => ?_⟩
  · rintro as bs v todo taken rfl hv hpc hdirty
    obtain ⟨w', hw', hv'⟩ := (system B conv).run_cons_iff.mp hv
    obtain rfl := Option.some.inj (hw.symm.trans hw')
    exact (hgoing as _ v rfl hv').first_of_dirty hpc (hC (.receive m :: as) .visit bs v rfl hv) hdirty
  · exact (hgoing after [] t (by simp) hrest).acted_of_quiet hend

/-- The decoder is done before the scan comes: the list of the reply is the set of paired devices. -/
theorem published_decoded_first : ∃ (pre ls : List Label) (s t : State Reading (BitVec 16)),
    (JablotronDeviceManager.system Sample.base fun _ => 1).run init pre = some s ∧
      (JablotronDeviceManager.system Sample.base fun _ => 1).run s ls = some t ∧
        t.devices = {⟨⟨0xa8⟩, 1⟩} := by
  obtain ⟨pre, after, s, t, hpre, hafter, hint, hend, he, hC⟩ :
      ∃ (pre after : List Label) (s t : State Reading (BitVec 16)),
        (JablotronDeviceManager.system Sample.base fun _ => 1).run init pre = some s ∧
        (JablotronDeviceManager.system Sample.base fun _ => 1).run s
          (.receive Sample.deviceListReply :: after) = some t ∧ (∀ l ∈ after, l.Internal) ∧ Quiet t ∧
        ⟨0, ⟨7⟩, .serverDeviceList ⟨0xa8⟩⟩ ∈ s.table ∧
        (JablotronDeviceManager.system Sample.base fun _ => 1).Meets
          (Undisturbed Sample.base ⟨0, ⟨7⟩, .serverDeviceList ⟨0xa8⟩⟩) s
          (.receive Sample.deviceListReply :: after) := by
    refine ⟨[.getDeviceList 0 ⟨7⟩ ⟨0xa8⟩, .insert 0],
      [.handle, .handle, .handle, .handle, .handle, .begin, .visit, .endScan, .act, .leave], _, _, rfl,
      rfl, by simp [Label.Internal], ⟨rfl, rfl, by decide⟩, List.mem_singleton_self _, ?_⟩
    refine .cons _ ⟨rfl, trivial⟩ rfl (.cons _ trivial rfl (.cons _ trivial rfl (.cons _ trivial rfl
      (.cons _ trivial rfl (.cons _ trivial rfl (.cons _ trivial rfl (.cons _ ?_ rfl (.cons _ trivial
      rfl (.cons _ ?_ rfl (.cons _ trivial rfl (.nil _)))))))))))
    · exact fun _ _ _ _ _ _ _ _ h => nomatch h
    · rintro b as ⟨⟩
      exact ⟨fun h => (by cases h), fun _ h => absurd rfl h⟩
  have hacted := (published (p := .deviceList [⟨⟨0xa8⟩, 1⟩]) hpre hafter hint he rfl rfl hC).2 hend
  exact ⟨pre, _, s, t, hpre, hafter, hacted.2⟩

/-- The scan takes the answer between the two calls of the decoder: the manager has no device. -/
theorem published_too_early : ¬ ∀ (pre after : List Label) (u t : State Reading (BitVec 16))
    (e : Entry Reading) (p : Payload Reading),
    (JablotronDeviceManager.system Sample.base fun _ => 1).run init pre = some u →
    (JablotronDeviceManager.system Sample.base fun _ => 1).run u
      (.receive Sample.deviceListReply :: after) = some t → (∀ l ∈ after, l.Internal) →
    e ∈ u.table → replyID Sample.base Sample.deviceListReply = some e.id →
    decoder Sample.base Sample.deviceListReply = [.ok (.setStatus .success), .ok (.setPayload p)] →
    Expects e.cmd p → Quiet t → Effect (fun _ => 1) e.cmd p t := by
  intro h
  have heffect := h [.getDeviceList 0 ⟨7⟩ ⟨0xa8⟩, .insert 0]
    [.handle, .handle, .begin, .visit, .endScan, .act, .leave, .handle, .handle, .handle] _ _
    ⟨0, ⟨7⟩, .serverDeviceList ⟨0xa8⟩⟩ (.deviceList [⟨⟨0xa8⟩, 1⟩]) rfl rfl
    (by simp [Label.Internal]) (List.mem_singleton_self _) rfl rfl trivial ⟨rfl, rfl, by decide⟩
  exact absurd (show (∅ : Finset DeviceID) = {⟨⟨0xa8⟩, 1⟩} from heffect) (by decide)

end DeviceManager
end BeeeOn
