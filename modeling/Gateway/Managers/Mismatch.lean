import Gateway.Managers.Batch
import Gateway.Managers.Matching

/-! @src jablotron/JablotronDeviceManager.cpp, z-wave/ZWaveDeviceManager.cpp, core/Answer.cpp |
    name:Results and the commands they answer | family:request-reply

    The client thread creates a result of the class that the type of a message stands for, on the answer
    whose request has its id; `checkQueue` casts the first result to the class that the command of the
    request stands for, and every later one stays behind it. Nothing compares the two: a last value with
    the id of a device list is cast to a null pointer, and a second device list is never looked at. As
    long as each reply suits its request, the first result is of its class and the paired devices are
    those of the latest list (`results_match`). -/

namespace BeeeOn
open Schemes
variable {V W : Type} (B : Base V) {conv : V → W}

namespace DeviceManager

/-- The decoder has calls ahead on result `i` of the answer `a`. -/
def Client.Filling (c : Client V) (a i : ℕ) : Prop :=
  ∃ m todo op ops, c = .decoding m todo a i (op :: ops)

section
variable (m : ZMQMessage) (todo : List (Entry V)) (a i b j : ℕ)

@[simp] theorem Client.filling_idle : ¬ (Client.idle : Client V).Filling b j := by
  simp [Client.Filling]

@[simp] theorem Client.filling_looking : ¬ (Client.looking m todo).Filling b j := by
  simp [Client.Filling]

@[simp] theorem Client.filling_done : ¬ (Client.decoding m todo a i []).Filling b j := by
  simp [Client.Filling]

@[simp] theorem Client.filling_cons (op : Except Exn (ResultOp V)) (ops : Decoding V) :
    (Client.decoding m todo a i (op :: ops)).Filling b j ↔ a = b ∧ i = j := by
  simp [Client.Filling]

end

/-- The list of the latest successful device list among the decoded results of the answer `a`. -/
def LatestList (s : State V W) (a : ℕ) (list : List DeviceID) : Prop :=
  ∃ i, (s.queue.heap a).results[i]? = some ⟨.success, .deviceList list⟩ ∧ ¬ s.client.Filling a i ∧
    ∀ j list', i < j → (s.queue.heap a).results[j]? = some ⟨.success, .deviceList list'⟩ →
      s.client.Filling a j

/-- Where `checkQueue` comes to an answer of `m_table`: the first result is there and of the class that
    it is cast to, at the first look and at the read of a last value, and a device list leaves the
    latest list as the paired devices. -/
structure Matches (s : State V W) : Prop where
  cast : ∀ a as e, s.pc = .acting (a :: as) → s.table.find? (·.answer = a) = some e →
    ∃ r, first s.queue a = some r ∧ Expects e.cmd r.payload
  read : ∀ d a as, s.pc = .reading d a as →
    ∃ r, first s.queue a = some r ∧ r.payload.isLastValue = true
  latest : ∀ a as e p list, s.pc = .acting (a :: as) → s.table.find? (·.answer = a) = some e →
    e.cmd = .serverDeviceList p → LatestList s a list → (act s a as).devices = list.toFinset

/-- A successful device list in the message has the devices of the first result of the answer. -/
def Agrees (m : ZMQMessage) (q : AnswerQueue V) (a : ℕ) : Prop :=
  ∀ status list list', first q a = some ⟨status, .deviceList list⟩ →
    decoder B m = [.ok (.setStatus .success), .ok (.setPayload (.deviceList list'))] →
      list'.toFinset = list.toFinset

/-- What the message would add to the answer of the request `e`: a first result of the class that the
    command asks for, or a later one that agrees with the first. -/
def SuitsEntry (q : AnswerQueue V) (m : ZMQMessage) (e : Entry V) : Prop :=
  ((q.heap e.answer).results = [] → Expects e.cmd (newResult B m)) ∧ Agrees B m q e.answer

/-- A reply that is received suits the request in `m_table` with its id. -/
def Suits (s : State V W) : Label → Prop
  | .receive m => ∀ e ∈ s.table, replyID B m = some e.id → SuitsEntry B s.queue m e
  | _ => True

/-- A last value with the id 7. -/
def lastValueReply : JsonObject :=
  [("message_type", .str "device_last_value_result"), ("id", .str "7"), ("result_status", .num 1),
    ("values", .obj [("type", .str "double"), ("raw", .str "123.500000")])]

/-- A last value arrives for a device list: the cast gives a null pointer. -/
theorem last_value_for_list : ¬ ∀ (ls : List Label) (s : State Reading Reading),
    (ZWaveDeviceManager.system Sample.base).run init ls = some s → Matches s := by
  intro h
  obtain ⟨s, hs, hpc, hfind, hfirst⟩ : ∃ s : State Reading Reading,
      (ZWaveDeviceManager.system Sample.base).run init [.getDeviceList 0 ⟨7⟩ ⟨0xa8⟩, .insert 0,
        .receive lastValueReply, .handle, .handle, .handle, .handle, .handle, .begin, .visit,
        .endScan] = some s ∧ s.pc = .acting [0] ∧
      s.table.find? (·.answer = 0) = some ⟨0, ⟨7⟩, .serverDeviceList ⟨0xa8⟩⟩ ∧
      first s.queue 0 = some ⟨.success, .lastValue (some .warm)⟩ := ⟨_, rfl, rfl, rfl, rfl⟩
  obtain ⟨r, hr, hexp⟩ := (h _ s hs).cast 0 [] _ hpc hfind
  obtain rfl := Option.some.inj (hfirst.symm.trans hr)
  exact hexp

/-! ### What the decoder has done -/

/-- How far the decoder of the message has come with result `i` of the answer `a`, by the calls that are
    ahead of it. -/
inductive Progress (m : ZMQMessage) (q : AnswerQueue V) (a i : ℕ) : Decoding V → Prop
  | created (h : (q.heap a).results[i]? = some (.new (newResult B m))) :
    Progress m q a i (decoder B m)
  | marked (st p) (hdec : decoder B m = [.ok (.setStatus st), .ok (.setPayload p)])
    (h : (q.heap a).results[i]? = some ⟨st, newResult B m⟩) : Progress m q a i [.ok (.setPayload p)]
  | done (st p) (hdec : decoder B m = [.ok (.setStatus st), .ok (.setPayload p)])
    (h : (q.heap a).results[i]? = some ⟨st, p⟩) : Progress m q a i []

/-- Results are of the class that their commands ask for, or stand behind one that is; the lists behind
    the first agree with it; and what is on its way suits the request it is for. -/
structure Suited (s : State V W) : Prop where
  cast : ∀ e ∈ s.sent, ∀ r, first s.queue e.answer = some r → Expects e.cmd r.payload
  agree : ∀ e ∈ s.sent, ∀ status list j list', first s.queue e.answer = some ⟨status, .deviceList list⟩ →
    0 < j → (s.queue.heap e.answer).results[j]? = some ⟨.success, .deviceList list'⟩ →
      ¬ s.client.Filling e.answer j → list'.toFinset = list.toFinset
  looking : ∀ m todo, s.client = .looking m todo → ∀ e ∈ todo, m.id B = .ok e.id →
    SuitsEntry B s.queue m e
  decoding : ∀ m todo a i ops, s.client = .decoding m todo a i ops →
    Progress B m s.queue a i ops ∧ (s.queue.heap a).results.length = i + 1 ∧
      (0 < i → Agrees B m s.queue a)

theorem suited_init : Suited B (init : State V W) := ⟨nofun, nofun, nofun, nofun⟩

variable {B}

/-- A step that adds no result and leaves the client thread where it is; a new request has none. -/
theorem Suited.of_eq {s t : State V W} (h : Suited B s)
    (hresults : ∀ b, (t.queue.heap b).results = (s.queue.heap b).results)
    (hclient : t.client = s.client)
    (hsent : ∀ e ∈ t.sent, e ∈ s.sent ∨ (s.queue.heap e.answer).results = []) : Suited B t := by
  have hfirst : ∀ a, first t.queue a = first s.queue a := fun a => by rw [first, first, hresults]
  constructor
  case cast =>
    intro e he r hr
    rw [hfirst] at hr
    rcases hsent e he with he | hnil
    · exact h.cast e he r hr
    · rw [first, hnil] at hr; cases hr
  case agree =>
    intro e he status list j list' hr hj hlist hfill
    rw [hfirst] at hr
    rw [hresults] at hlist
    rw [hclient] at hfill
    rcases hsent e he with he | hnil
    · exact h.agree e he status list j list' hr hj hlist hfill
    · rw [first, hnil] at hr; cases hr
  case looking =>
    intro m todo hc e he hid
    have hsuits := h.looking m todo (hclient ▸ hc) e he hid
    refine ⟨fun hnil => hsuits.1 (hresults _ ▸ hnil), ?_⟩
    intro status list list' hr
    exact hsuits.2 status list list' (hfirst _ ▸ hr)
  case decoding =>
    intro m todo a i ops hc
    obtain ⟨hprogress, hlen, hagree⟩ := h.decoding m todo a i ops (hclient ▸ hc)
    refine ⟨?_, by rw [hresults]; exact hlen, fun hi status list list' hr => ?_⟩
    · cases hprogress with
      | created h => exact .created (by rw [hresults]; exact h)
      | marked st p hdec h => exact .marked st p hdec (by rw [hresults]; exact h)
      | done st p hdec h => exact .done st p hdec (by rw [hresults]; exact h)
    · exact hagree hi status list list' (hfirst _ ▸ hr)

/-! ### The client thread -/

section
variable {s t : State V W} {m : ZMQMessage} {todo : List (Entry V)} {a i : ℕ}

/-- What the decoder has calls ahead on is no successful list yet. -/
def Unfilled (s : State V W) : Prop :=
  ∀ a j, s.client.Filling a j → ∀ list,
    (s.queue.heap a).results[j]? ≠ some ⟨.success, .deviceList list⟩

/-- The client thread moves on, away from results that are decoded or have not got their status. -/
theorem Suited.move (h : Suited B s) {c : Client V}
    (hfill : Unfilled s)
    (hlooking : ∀ m todo, c = .looking m todo → ∀ e ∈ todo, m.id B = .ok e.id →
      SuitsEntry B s.queue m e)
    (hdecoding : ∀ m todo a i ops, c ≠ .decoding m todo a i ops) : Suited B { s with client := c } := by
  refine ⟨h.cast, ?_, hlooking, fun m todo a i ops hc => absurd hc (hdecoding m todo a i ops)⟩
  intro e he status list j list' hr hj hlist _
  exact h.agree e he status list j list' hr hj hlist fun hf => hfill _ _ hf list' hlist

/-- The client thread goes to rest, or ends. -/
theorem Suited.rest (h : Suited B s) {c : Client V}
    (hfill : Unfilled s)
    (hc : c = .idle ∨ c = .raised) : Suited B { s with client := c } := by
  refine h.move hfill (fun m todo heq => ?_) (fun m todo a i ops heq => ?_)
  · rcases hc with rfl | rfl <;> cases heq
  · rcases hc with rfl | rfl <;> cases heq

/-- It goes on in its loop. -/
theorem Suited.look (h : Suited B s)
    (hfill : Unfilled s)
    (hsuits : ∀ e ∈ todo, m.id B = .ok e.id → SuitsEntry B s.queue m e) :
    Suited B { s with client := .looking m todo } := by
  refine h.move hfill (fun m' todo' heq => ?_) (fun m' todo' a i ops heq => ?_)
  · cases heq
    exact hsuits
  · cases heq

/-- The reply starts a loop over the requests in `m_table`. -/
theorem suited_receive (h : Suited B s) (hC : Suits B s (.receive m)) (hr : receive B conv s m = some t) :
    Suited B t := by
  obtain ⟨hidle, hcase⟩ := receive_eq hr
  have hfill : Unfilled s := fun a j hf => absurd hf (by simp [hidle])
  rcases hcase with ⟨hreply, rfl⟩ | ⟨-, hend, heq⟩
  · have hmove : Suited B { s with client := .looking m s.table } := by
      refine h.look hfill fun e he hid => ?_
      exact hC e he (by rw [replyID, if_pos hreply, hid]; rfl)
    exact hmove.of_eq (fun _ => rfl) rfl fun e he => Or.inl he
  · have hmove : Suited B { s with client := t.client } := by
      exact h.rest hfill hend
    rw [heq]
    exact hmove.of_eq (fun _ => rfl) rfl fun e he => Or.inl he

/-- The results after one has been added: those of before, and it. -/
theorem getElem?_added {l : List (Result V)} {new r : Result V} {j : ℕ} (h : (l ++ [new])[j]? = some r) :
    l[j]? = some r ∨ j = l.length ∧ r = new := by
  rw [List.getElem?_append] at h
  split_ifs at h with hj
  · exact Or.inl h
  · obtain ⟨hlt, hget⟩ := List.getElem?_eq_some_iff.mp h
    rw [List.length_singleton] at hlt
    exact Or.inr ⟨by omega, by simpa using hget.symm⟩

/-- The handler of a reply creates the result of the request with its id. -/
theorem suited_create (h : Suited B s) (hI : Inv s) {x : Entry V}
    (hc : s.client = .looking m (x :: todo)) (hm : m.id B = .ok x.id) : Suited B
      { s with
        queue := s.queue.addResult x.answer (newResult B m)
        client := .decoding m todo x.answer (s.queue.heap x.answer).results.length (decoder B m) } := by
  obtain ⟨hfirst, hagree⟩ := h.looking m _ hc x List.mem_cons_self hm
  have hx : x ∈ s.sent := hI.todo x (by rw [hc]; exact List.mem_cons_self)
  have hfill : ∀ b j, ¬ s.client.Filling b j := fun b j => by simp [hc]
  have hresults : ∀ b, ((s.queue.addResult x.answer (newResult B m)).heap b).results =
      if b = x.answer then (s.queue.heap x.answer).results ++ [.new (newResult B m)]
      else (s.queue.heap b).results := by
    intro b
    rw [AnswerQueue.addResult_heap]
    split_ifs <;> rfl
  constructor
  case cast =>
    intro e he r hr
    simp only [first, hresults] at hr
    split_ifs at hr with hex
    · rcases getElem?_added hr with hold | ⟨hzero, rfl⟩
      · exact h.cast e he r (by rw [first, hex]; exact hold)
      · rw [hI.eq_of_answer he hx hex]
        exact hfirst (List.length_eq_zero_iff.mp hzero.symm)
    · exact h.cast e he r hr
  case agree =>
    intro e he status list j list' hr hj hlist _
    simp only [first, hresults] at hr hlist
    split_ifs at hr with hex
    · rw [if_pos hex] at hlist
      rcases getElem?_added hlist with hold | ⟨-, hnew⟩
      · rcases getElem?_added hr with hr | ⟨hzero, -⟩
        · rw [← hex] at hold hr
          exact h.agree e he status list j list' hr hj hold (hfill _ _)
        · have := (List.getElem?_eq_some_iff.mp hold).1
          omega
      · cases congrArg Result.status hnew
    · rw [if_neg hex] at hlist
      exact h.agree e he status list j list' hr hj hlist (hfill _ _)
  case looking => intro _ _ hc'; cases hc'
  case decoding =>
    rintro _ _ _ _ _ ⟨⟩
    refine ⟨.created ?_, ?_, fun hpos status list list' hr => ?_⟩
    · rw [hresults, if_pos rfl]; simp
    · rw [hresults, if_pos rfl]; simp
    · simp only [first, hresults, if_true] at hr
      rcases getElem?_added hr with hr | ⟨hzero, -⟩
      · exact hagree status list list' hr
      · omega

/-- A successful list with no call ahead of it is the one that the decoder found in the message. -/
theorem Progress.list {q : AnswerQueue V} {ops : Decoding V} {list : List DeviceID}
    (h : Progress B m q a i ops)
    (hlist : (q.heap a).results[i]? = some ⟨.success, .deviceList list⟩) :
    (∃ op ops', ops = op :: ops') ∨
      decoder B m = [.ok (.setStatus .success), .ok (.setPayload (.deviceList list))] := by
  cases h with
  | created hres =>
    rw [hlist] at hres
    cases congrArg Result.status (Option.some.inj hres)
  | marked st p hdec hres => exact Or.inl ⟨_, _, rfl⟩
  | done st p hdec hres =>
    rw [hlist] at hres
    cases Option.some.inj hres
    exact Or.inr hdec

/-- The decoder writes to its result, which is the last of the answer. -/
theorem Suited.fill (h : Suited B s) {op : Except Exn (ResultOp V)} {ops : Decoding V}
    {q : AnswerQueue V} {r' : Result V} (hc : s.client = .decoding m todo a i (op :: ops))
    (hq : ∀ b, (q.heap b).results = if b = a then (s.queue.heap a).results.set i r'
      else (s.queue.heap b).results)
    (hprogress : Progress B m q a i ops)
    (hclass : ∀ e ∈ s.sent, e.answer = a → i = 0 → Expects e.cmd r'.payload) :
    Suited B { s with queue := q, client := .decoding m todo a i ops } := by
  obtain ⟨-, hlen, hagree⟩ := h.decoding m todo a i _ hc
  have hfill : ∀ b j, s.client.Filling b j ↔ a = b ∧ i = j := fun b j => by simp [hc]
  have hget : ∀ j, ((s.queue.heap a).results.set i r')[j]? =
      if i = j then some r' else (s.queue.heap a).results[j]? := by
    intro j
    rw [List.getElem?_set]
    split_ifs with hij hlt
    · rfl
    · omega
    · rfl
  constructor
  case cast =>
    intro e he r hr
    simp only [first, hq] at hr
    split_ifs at hr with hea
    · rw [hget] at hr
      split_ifs at hr with hi
      · rw [← Option.some.inj hr]
        exact hclass e he hea hi
      · exact h.cast e he r (by rw [first, hea]; exact hr)
    · exact h.cast e he r hr
  case agree =>
    intro e he status list j list' hr hj hlist hnot
    simp only [first, hq] at hr hlist
    split_ifs at hr with hea
    · rw [if_pos hea] at hlist
      have hji : j < i + 1 := by
        have := (List.getElem?_eq_some_iff.mp hlist).1
        rwa [List.length_set, hlen] at this
      rw [hget, if_neg (by omega)] at hr
      rw [hget] at hlist
      split_ifs at hlist with hij
      · subst hij
        have hr' := Option.some.inj hlist
        have hlast : (q.heap a).results[i]? = some r' := by rw [hq, if_pos rfl, hget, if_pos rfl]
        rcases hprogress.list (hr' ▸ hlast) with ⟨op', ops', rfl⟩ | hdec
        · exact absurd ((Client.filling_cons ..).mpr ⟨hea.symm, rfl⟩) hnot
        · exact hagree hj status list list' hr hdec
      · exact h.agree e he status list j list' (by rw [first, hea]; exact hr) hj (by rw [hea]; exact hlist)
          fun hf => hij ((hfill _ _).mp hf).2
    · rw [if_neg hea] at hlist
      exact h.agree e he status list j list' hr hj hlist fun hf => hea ((hfill _ _).mp hf).1.symm
  case looking => intro _ _ hc'; cases hc'
  case decoding =>
    rintro _ _ _ _ _ ⟨⟩
    refine ⟨hprogress, by rw [hq, if_pos rfl, List.length_set]; exact hlen,
      fun hi status list list' hr => ?_⟩
    simp only [first, hq, if_true, hget] at hr
    rw [if_neg (by omega)] at hr
    exact hagree hi status list list' hr

/-- A call that is ahead of the decoder, with what it is called on. -/
theorem Progress.call {q : AnswerQueue V} {op : Except Exn (ResultOp V)} {ops : Decoding V}
    (h : Progress B m q a i (op :: ops)) :
    (∃ st p, decoder B m = [.ok (.setStatus st), .ok (.setPayload p)] ∧ op = .ok (.setStatus st) ∧
      ops = [.ok (.setPayload p)] ∧ (q.heap a).results[i]? = some (.new (newResult B m))) ∨
    (∃ st p, decoder B m = [.ok (.setStatus st), .ok (.setPayload p)] ∧ op = .ok (.setPayload p) ∧
      ops = [] ∧ (q.heap a).results[i]? = some ⟨st, newResult B m⟩) ∨
    (∃ e, op = .error e) ∧ (q.heap a).results[i]? = some (.new (newResult B m)) := by
  generalize hl : op :: ops = l at h
  cases h with
  | created hres =>
    rcases decoder_cases B m with ⟨st, p, hdec⟩ | ⟨e, hdec⟩
    · obtain ⟨rfl, rfl⟩ := List.cons.inj (hl.trans hdec)
      exact Or.inl ⟨st, p, hdec, rfl, rfl, hres⟩
    · exact Or.inr (Or.inr ⟨⟨e, (List.cons.inj (hl.trans hdec)).1⟩, hres⟩)
  | marked st p hdec hres =>
    obtain ⟨rfl, rfl⟩ := List.cons.inj hl
    exact Or.inr (Or.inl ⟨st, p, hdec, rfl, rfl, hres⟩)
  | done => cases hl

theorem call_setPayload {q q' : AnswerQueue V} {p : Payload V} {r : Result V}
    (h : call q a i (.ok (.setPayload p)) = .ok q') (hr : (q.heap a).results[i]? = some r) (b : ℕ) :
    (q'.heap b).results = if b = a then (q.heap a).results.set i { r with payload := p }
      else (q.heap b).results := by
  obtain rfl := Except.ok.inj h
  simp only [AnswerQueue.setPayload, hr, AnswerQueue.modify_heap]
  split_ifs <;> rfl

theorem suited_call (h : Suited B s) {op : Except Exn (ResultOp V)} {ops : Decoding V}
    {q : AnswerQueue V} (hc : s.client = .decoding m todo a i (op :: ops))
    (hcall : call s.queue a i op = .ok q) :
    Suited B { s with queue := q, client := .decoding m todo a i ops } := by
  obtain ⟨hprogress, hlen, -⟩ := h.decoding m todo a i _ hc
  have hclass : ∀ st, (s.queue.heap a).results[i]? = some ⟨st, newResult B m⟩ → ∀ e ∈ s.sent,
      e.answer = a → i = 0 → Expects e.cmd (newResult B m) := by
    intro st hr e he hea hi
    exact h.cast e he _ (by rw [first, hea, ← hi]; exact hr)
  rcases hprogress.call with ⟨st, p, hdec, rfl, rfl, hres⟩ | ⟨st, p, hdec, rfl, rfl, hres⟩ |
    ⟨⟨e, rfl⟩, -⟩
  · have hq : ∀ b, (q.heap b).results = if b = a then
        (s.queue.heap a).results.set i ⟨st, newResult B m⟩ else (s.queue.heap b).results := by
      rw [← setStatus_ok hcall]
      exact s.queue.afterSetStatus_of_le hres (AnswerQueue.le_of_setStatus hres hcall)
    refine h.fill hc hq (.marked st p hdec ?_) (hclass _ hres)
    rw [hq, if_pos rfl, List.getElem?_set_self (by omega)]
  · have hq := call_setPayload hcall hres
    refine h.fill hc hq (.done st p hdec ?_) fun e he hea hi => ?_
    · rw [hq, if_pos rfl, List.getElem?_set_self (by omega)]
    · exact (hclass st hres e he hea hi).payload (by rw [hdec]; simp)
  · cases hcall

/-- Only the first call raises, if it does: the new result stays as it is. -/
theorem failed_pending (h : Suited B s) {op : Except Exn (ResultOp V)} {ops : Decoding V} {err : Exn}
    (hc : s.client = .decoding m todo a i (op :: ops)) (hcall : call s.queue a i op = .error err) :
    (s.queue.heap a).results[i]? = some (.new (newResult B m)) := by
  rcases (h.decoding m todo a i _ hc).1.call with ⟨st, p, -, rfl, -, hres⟩ |
    ⟨st, p, -, rfl, -, hres⟩ | ⟨-, hres⟩
  · exact hres
  · cases hcall
  · exact hres

theorem suited_handle (h : Suited B s) (hI : Inv s) (hL : Loop B s.client)
    (hh : handle B s = some t) : Suited B t := by
  have hlooking : ∀ m todo, s.client = .looking m todo → Unfilled s := by
    intro m todo hc a j hf
    exact absurd hf (by simp [hc])
  cases handled hh with
  | done m hc => exact h.rest (hlooking m [] hc) (Or.inl rfl)
  | noID m x todo e hc hm => exact h.rest (hlooking m _ hc) (Or.inr rfl)
  | create m x todo hc hm => exact suited_create h hI hc hm
  | pass m x todo id hc hm hne =>
    refine h.look (hlooking m _ hc) fun e he => ?_
    exact h.looking m _ hc e (List.mem_cons_of_mem _ he)
  | decoded m todo a i hc =>
    refine h.look (fun b j hf => absurd hf (by simp [hc])) fun e he hid => ?_
    -- the loop has passed the request with the id of the message
    have hzero := hL.single m todo a i _ hc e.id
    rw [hc] at hzero
    simp only [Client.ahead, hid, Except.toOption, if_true] at hzero
    exact absurd (List.mem_map_of_mem he) (List.count_eq_zero.mp hzero)
  | called m todo a i op ops q hc hq => exact suited_call h hc hq
  | failed m todo a i op ops e hc hq =>
    refine h.rest (fun b j hf list hlist => ?_) (Or.inr rfl)
    obtain ⟨rfl, rfl⟩ : a = b ∧ i = j := by simpa [hc] using hf
    rw [failed_pending h hc hq] at hlist
    cases congrArg Result.status (Option.some.inj hlist)

end

/-! ### Every run -/

/-- What holds along a run whose replies suit their requests. -/
structure Serves (B : Base V) (s : State V W) : Prop where
  inv : Inv s
  sound : Sound s
  asks : ∀ e ∈ s.sent, Asks e.cmd
  loop : Loop B s.client
  suited : Suited B s

theorem serves_init : Serves B (init : State V W) :=
  ⟨inv_init, sound_init, nofun, Loop.idle, suited_init B⟩

theorem suited_request {s t : State V W} (h : Suited B s) (hS : Sound s) {th : ℕ} {id : GlobalID}
    {cmd : Command V} (hr : request B s th id cmd = some t) : Suited B t := by
  obtain ⟨-, -, out, rfl⟩ := request_eq hr
  have hnil : (s.queue.heap s.queue.next).results = [] := by
    by_contra hne
    exact lt_irrefl _ (hS.born _ hne)
  refine h.of_eq (fun b => ?_) rfl fun e he => ?_
  · rw [AnswerQueue.newAnswer_heap]
    split_ifs with hb
    · rw [hb, hnil]; rfl
    · rfl
  · rcases List.mem_append.mp he with he | he
    · exact Or.inl he
    · rw [List.mem_singleton.mp he]
      exact Or.inr hnil

theorem serves_step {s t : State V W} (h : Serves B s) {l : Label} (hC : Suits B s l)
    (hl : (system B conv).step s l = some t) : Serves B t := by
  have hI := step_inv h.inv hl
  have hS := sound_step h.sound h.inv hl
  have hA := asks_step h.asks hl
  have hcheck : check conv s l = some t → Serves B t := fun hc => by
    have hf := check_frame hc
    exact ⟨hI, hS, hA, hf.client ▸ h.loop, h.suited.of_eq hf.results hf.client
      fun e he => Or.inl (hf.sent ▸ he)⟩
  cases l with
  | getDeviceList th id p =>
    obtain ⟨u, hu, rfl⟩ := Option.map_eq_some_iff.mp hl
    have hsuited := suited_request h.suited h.sound hu
    refine ⟨hI, hS, hA, ?_, hsuited.of_eq (fun _ => rfl) rfl fun e he => Or.inl he⟩
    obtain ⟨-, -, out, rfl⟩ := request_eq hu
    exact h.loop
  | getLastValue th id d m =>
    refine ⟨hI, hS, hA, ?_, suited_request h.suited h.sound hl⟩
    obtain ⟨-, -, out, rfl⟩ := request_eq hl
    exact h.loop
  | insert th =>
    obtain ⟨e, -, rfl⟩ := insert_eq hl
    exact ⟨hI, hS, hA, h.loop, h.suited.of_eq (fun _ => rfl) rfl fun e he => Or.inl he⟩
  | receive m =>
    refine ⟨hI, hS, hA, ?_, suited_receive h.suited hC hl⟩
    obtain ⟨-, ⟨-, rfl⟩ | ⟨-, hend, heq⟩⟩ := receive_eq hl
    · exact Loop.looking m h.inv.tableIds
    · rcases hend with hend | hend <;> rw [hend]
      · exact Loop.idle
      · exact Loop.raised
  | handle =>
    exact ⟨hI, hS, hA, (handle_loop h.inv h.loop hl).1, suited_handle h.suited h.inv h.loop hl⟩
  | expire =>
    obtain ⟨w, -, rfl⟩ := Option.map_eq_some_iff.mp hl
    exact ⟨hI, hS, hA, h.loop, h.suited.of_eq (fun _ => rfl) rfl fun e he => Or.inl he⟩
  | begin | visit | endScan | act | read | leave => exact hcheck hl

/-- `checkQueue` finds a first result of the class it casts it to, and its list is the latest. -/
theorem Serves.matches {s : State V W} (h : Serves B s) : Matches s := by
  have hcast : ∀ a as e, s.pc = .acting (a :: as) → s.table.find? (·.answer = a) = some e →
      e ∈ s.sent ∧ e.answer = a ∧ ∃ r, first s.queue a = some r ∧ Expects e.cmd r.payload := by
    intro a as e hpc hfind
    have hmem : e ∈ s.sent := h.inv.stored e (List.mem_of_find?_eq_some hfind)
    have hea : e.answer = a := by simpa using List.find?_some hfind
    have hne := h.sound.busy a (Or.inr (Or.inl (by rw [hpc]; exact List.mem_cons_self)))
    have hfirst : first s.queue a = some _ := List.getElem?_eq_getElem (List.length_pos_of_ne_nil hne)
    exact ⟨hmem, hea, _, hfirst, h.suited.cast e hmem _ (hea ▸ hfirst)⟩
  constructor
  case cast => exact fun a as e hpc hfind => (hcast a as e hpc hfind).2.2
  case read => exact h.sound.reading
  case latest =>
    rintro a as e p list hpc hfind hcmd ⟨i, hi, hdecoded, -⟩
    obtain ⟨hmem, rfl, ⟨status, payload⟩, hfirst, hexp⟩ := hcast a as e hpc hfind
    rw [hcmd] at hexp
    cases payload with
    | plain | lastValue _ | setValue _ => exact hexp.elim
    | deviceList devices =>
      have hact : (act s e.answer as).devices = devices.toFinset := by
        simp only [act, hfind, hcmd, hfirst]
      rw [hact]
      cases i with
      | zero => cases hfirst.symm.trans hi; rfl
      | succ i => exact (h.suited.agree e hmem status devices _ list hfirst i.succ_pos hi hdecoded).symm

/-- In every run in which each reply that is received suits the request with its id, `checkQueue` meets
    results of the class that it casts them to, and a device list leaves the latest list. -/
theorem results_match {ls : List Label} {s : State V W}
    (hC : (system B conv).Meets (Suits B) init ls) (h : (system B conv).run init ls = some s) :
    Matches s := by
  have hserves : Serves B s := (system B conv).run_inv_of_meets
    (fun _ _ _ hs hc hl => serves_step hs hc hl) serves_init hC h
  exact hserves.matches

/-- The later list is not looked at: where it differs from the first, the devices are not the latest. -/
theorem later_list_ignored {s : State V W} {a : ℕ} {as : List ℕ} {e : Entry V} {p : DevicePrefix}
    {status : Status} {devices list : List DeviceID} (hpc : s.pc = .acting (a :: as))
    (hfind : s.table.find? (·.answer = a) = some e) (hcmd : e.cmd = .serverDeviceList p)
    (hfirst : first s.queue a = some ⟨status, .deviceList devices⟩) (hlatest : LatestList s a list)
    (hne : list.toFinset ≠ devices.toFinset) : ¬ Matches s := by
  intro h
  have hact : (act s a as).devices = devices.toFinset := by simp only [act, hfind, hcmd, hfirst]
  exact hne ((h.latest a as e p list hpc hfind hcmd hlatest).symm.trans hact)

/-- An answer without a result has nothing to agree with. -/
theorem agrees_of_nil {q : AnswerQueue V} {m : ZMQMessage} {a : ℕ} (h : (q.heap a).results = []) :
    Agrees B m q a := by
  intro status list list' hfirst
  rw [first, h] at hfirst
  cases hfirst

/-- A list arrives for a device list. -/
theorem one_list_matches : ∃ (ls : List Label) (s : State Reading Reading),
    (ZWaveDeviceManager.system Sample.base).run init ls = some s ∧ s.pc = .acting [0] ∧ Matches s := by
  obtain ⟨ls, s, hC, h, hpc⟩ : ∃ (ls : List Label) (s : State Reading Reading),
      (ZWaveDeviceManager.system Sample.base).Meets (Suits Sample.base) init ls ∧
        (ZWaveDeviceManager.system Sample.base).run init ls = some s ∧ s.pc = .acting [0] := by
    refine ⟨[.getDeviceList 0 ⟨7⟩ ⟨0xa8⟩, .insert 0, .receive Sample.deviceListReply, .handle, .handle,
      .handle, .handle, .handle, .begin, .visit, .endScan], _, ?_, rfl, rfl⟩
    refine .cons _ trivial rfl (.cons _ trivial rfl (.cons _ ?_ rfl (.cons _ trivial rfl (.cons _ trivial
      rfl (.cons _ trivial rfl (.cons _ trivial rfl (.cons _ trivial rfl (.cons _ trivial rfl (.cons _
      trivial rfl (.cons _ trivial rfl (.nil _)))))))))))
    rintro e he -
    obtain rfl := List.mem_singleton.mp he
    exact ⟨fun _ => trivial, agrees_of_nil rfl⟩
  exact ⟨ls, s, h, hpc, results_match hC h⟩

end DeviceManager
end BeeeOn
