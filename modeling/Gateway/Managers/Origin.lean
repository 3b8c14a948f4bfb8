import Gateway.Managers.CheckQueue

/-! @src jablotron/JablotronDeviceManager.cpp, z-wave/ZWaveDeviceManager.cpp, core/Answer.cpp |
    name:Where a manager's results come from | family:provenance

    A result on the answer of a request is made empty by the handler of a reply and then filled by its
    decoder, and `checkQueue` acts on what it finds there. So every result, and whatever a manager acts
    on, comes from one received reply with the id of the request: its status and its payload are those
    of a new result or those that the reply says (`Told`). Acted on is the class that the request asks
    for, and a last value only from a reply of a success (`run_traced`). -/

namespace BeeeOn
open Schemes
variable {V W : Type} {B : Base V} {conv : V → W}

/-- The payload is of the class that a reply to the command has. -/
def Command.Answers : Command V → Payload V → Prop
  | .serverDeviceList _, .deviceList _ | .serverLastValue _ _, .lastValue _ => True
  | _, _ => False

namespace DeviceManager

/-- A result on the answer of the request with this id has come from the reply `m`. -/
structure Told (B : Base V) (ls : List Label) (id : GlobalID) (m : ZMQMessage) (r : Result V) : Prop where
  received : .receive m ∈ ls
  reply : isReply B m = true
  named : m.id B = .ok id
  status : r.status = .pending ∨ .ok (.setStatus r.status) ∈ decoder B m
  payload : r.payload = newResult B m ∨ .ok (.setPayload r.payload) ∈ decoder B m

theorem Told.mono {ls : List Label} {id : GlobalID} {m : ZMQMessage} {r : Result V}
    (h : Told B ls id m r) (l : Label) : Told B (ls ++ [l]) id m r :=
  { h with received := List.mem_append_left _ h.received }

/-- The reply is one of a success. -/
def Succeeds (B : Base V) (m : ZMQMessage) : Prop := .ok (.setStatus .success) ∈ decoder B m

theorem Told.succeeds {ls : List Label} {id : GlobalID} {m : ZMQMessage} {r : Result V}
    (h : Told B ls id m r) (hr : r.status = .success) : Succeeds B m := by
  rcases h.status with hst | hst
  · rw [hr] at hst
    cases hst
  · rwa [hr] at hst

/-- The client thread handles a reply that has been received; while it decodes, what is ahead of it is
    part of the decoder's work, on a result that has come from the reply. -/
def HandlesReply (B : Base V) (ls : List Label) (s : State V W) : Prop :=
  match s.client with
  | .idle | .raised => True
  | .looking m _ => .receive m ∈ ls ∧ isReply B m = true
  | .decoding m _ a i ops => (∀ op ∈ ops, op ∈ decoder B m) ∧ ∃ e ∈ s.sent, e.answer = a ∧
      ∃ r, (s.queue.heap a).results[i]? = some r ∧ Told B ls e.id m r

/-- `checkQueue` is about to read a last value: the first result of the answer has come from a reply of a
    success, and so has what the client thread may be decoding into it. -/
structure Reads (B : Base V) (ls : List Label) (s : State V W) (d : DeviceID) (a : ℕ) : Prop where
  result : ∃ e ∈ s.sent, e.answer = a ∧ (∃ k, e.cmd = .serverLastValue d k) ∧
    ∃ m r, first s.queue a = some r ∧ Told B ls e.id m r ∧ Succeeds B m
  client : ∀ m todo ops, s.client = .decoding m todo a 0 ops → Succeeds B m

/-- Everything on the answers of the requests, and everything acted on, has come from a reply. -/
structure Traced (B : Base V) (ls : List Label) (s : State V W) : Prop where
  results : ∀ e ∈ s.sent, ∀ r ∈ (s.queue.heap e.answer).results, ∃ m, Told B ls e.id m r
  client : HandlesReply B ls s
  reading : ∀ d a as, s.pc = .reading d a as → Reads B ls s d a
  acted : ∀ x ∈ s.acted, ∃ e ∈ s.sent, e.answer = x.1 ∧ e.cmd.Answers x.2 ∧
    ∃ m r, Told B ls e.id m r ∧ r.payload = x.2 ∧ (x.2.isLastValue = true → Succeeds B m)

theorem traced_init : Traced B [] (init : State V W) := ⟨nofun, trivial, nofun, nofun⟩

/-- A call of the decoder keeps the result one of its reply, and leaves the others alone. -/
theorem call_told {q q' : AnswerQueue V} {a i : ℕ} {op : Except Exn (ResultOp V)} {ls : List Label}
    {id : GlobalID} {m : ZMQMessage} {r : Result V} (h : call q a i op = .ok q')
    (hr : (q.heap a).results[i]? = some r) (ht : Told B ls id m r) (hop : op ∈ decoder B m) :
    (∃ r', (q'.heap a).results[i]? = some r' ∧ Told B ls id m r') ∧
      ∀ b j, ¬ (b = a ∧ j = i) → (q'.heap b).results[j]? = (q.heap b).results[j]? := by
  have hset : ∀ r' : Result V, ((q.heap a).setResult i r').results[i]? = some r' := fun r' =>
    List.getElem?_set_self (List.getElem?_eq_some_iff.mp hr).1
  have hother : ∀ (r' : Result V) (b j : ℕ), ¬ (b = a ∧ j = i) → b = a →
      ((q.heap a).setResult i r').results[j]? = (q.heap b).results[j]? := fun r' b j hne hb => by
    rw [Answer.setResult, List.getElem?_set_ne (fun hij => hne ⟨hb, hij.symm⟩), hb]
  rcases op with err | st | p
  · cases h
  · rw [← setStatus_ok h]
    rcases q.afterSetStatus_cases a i st with ⟨heq, -⟩ | ⟨r', hr', -, heq⟩ <;> rw [heq]
    · exact ⟨⟨r, hr, ht⟩, fun _ _ _ => rfl⟩
    · obtain rfl := Option.some.inj (hr.symm.trans hr')
      refine ⟨⟨{ r with status := st }, ?_, { ht with status := Or.inr hop }⟩, fun b j hne => ?_⟩
      · rw [AnswerQueue.setStatus_heap, if_pos rfl]
        exact hset _
      · rw [AnswerQueue.setStatus_heap]
        split_ifs with hb
        · exact hother _ b j hne hb
        · rfl
  · obtain rfl := Except.ok.inj h
    have hheap : ∀ b, (q.setPayload a i p).heap b =
        if b = a then (q.heap a).setResult i { r with payload := p } else q.heap b := fun b => by
      rw [AnswerQueue.setPayload, hr]
      exact AnswerQueue.modify_heap _ _ _ _
    refine ⟨⟨{ r with payload := p }, ?_, { ht with payload := Or.inr hop }⟩, fun b j hne => ?_⟩
    · rw [hheap, if_pos rfl]
      exact hset _
    · rw [hheap]
      split_ifs with hb
      · exact hother _ b j hne hb
      · rfl

/-! ### One step -/

section
variable {ls : List Label} {l : Label} {s t : State V W}

theorem Traced.results_mono (h : Traced B ls s) (l : Label) :
    ∀ e ∈ s.sent, ∀ r ∈ (s.queue.heap e.answer).results, ∃ m, Told B (ls ++ [l]) e.id m r :=
  fun e he r hr => (h.results e he r hr).imp fun _ ht => ht.mono l

theorem Traced.acted_mono (h : Traced B ls s) (l : Label) : ∀ x ∈ s.acted,
    ∃ e ∈ s.sent, e.answer = x.1 ∧ e.cmd.Answers x.2 ∧ ∃ m r, Told B (ls ++ [l]) e.id m r ∧
      r.payload = x.2 ∧ (x.2.isLastValue = true → Succeeds B m) := by
  intro x hx
  obtain ⟨e, he, ha, hclass, m, r, ht, hrest⟩ := h.acted x hx
  exact ⟨e, he, ha, hclass, m, r, ht.mono l, hrest⟩

/-- A step that leaves the client thread where it is, and the results. -/
theorem HandlesReply.mono (h : HandlesReply B ls s) (l : Label) (hclient : t.client = s.client)
    (hsent : ∀ e ∈ s.sent, e ∈ t.sent ∧
      (t.queue.heap e.answer).results = (s.queue.heap e.answer).results) :
    HandlesReply B (ls ++ [l]) t := by
  rw [HandlesReply] at h ⊢
  rw [hclient]
  split at h
  · trivial
  · trivial
  · exact ⟨List.mem_append_left _ h.1, h.2⟩
  · obtain ⟨hops, e, he, rfl, r, hr, ht⟩ := h
    exact ⟨hops, e, (hsent e he).1, rfl, r, by rw [(hsent e he).2, hr], ht.mono l⟩

theorem Reads.mono {d : DeviceID} {a : ℕ} (h : Reads B ls s d a) (l : Label)
    (hclient : t.client = s.client) (hsent : ∀ e ∈ s.sent, e ∈ t.sent ∧
      (t.queue.heap e.answer).results = (s.queue.heap e.answer).results) :
    Reads B (ls ++ [l]) t d a where
  result := by
    obtain ⟨e, he, rfl, hcmd, m, r, hfirst, ht, hs⟩ := h.result
    exact ⟨e, (hsent e he).1, rfl, hcmd, m, r, by rw [first, (hsent e he).2]; exact hfirst, ht.mono l, hs⟩
  client := by rw [hclient]; exact h.client

/-- A step that leaves the answers, the client thread and `checkQueue` as they are. -/
theorem Traced.frame (h : Traced B ls s) (hsent : t.sent = s.sent)
    (hresults : ∀ b, (t.queue.heap b).results = (s.queue.heap b).results)
    (hclient : t.client = s.client) (hpc : t.pc = s.pc) (hacted : t.acted = s.acted) :
    Traced B (ls ++ [l]) t := by
  have hkept : ∀ e ∈ s.sent, e ∈ t.sent ∧
      (t.queue.heap e.answer).results = (s.queue.heap e.answer).results := fun e he =>
    ⟨hsent ▸ he, hresults _⟩
  constructor
  case results => rw [hsent]; exact fun e he r hr => h.results_mono l e he r (hresults _ ▸ hr)
  case client => exact h.client.mono l hclient hkept
  case reading => rw [hpc]; exact fun d a as hpc => (h.reading d a as hpc).mono l hclient hkept
  case acted => rw [hacted, hsent]; exact h.acted_mono l

theorem traced_request (h : Traced B ls s) (hI : Inv s) {th : ℕ} {id : GlobalID} {cmd : Command V}
    (hr : request B s th id cmd = some t) : Traced B (ls ++ [l]) t := by
  obtain ⟨-, -, out, rfl⟩ := request_eq hr
  have hkept : ∀ e ∈ s.sent, e ∈ s.sent ++ [⟨s.queue.next, id, cmd⟩] ∧
      (s.queue.newAnswer.heap e.answer).results = (s.queue.heap e.answer).results := fun e he =>
    ⟨List.mem_append_left _ he, by
      rw [AnswerQueue.newAnswer_heap, if_neg (hI.queued e he).2.ne]⟩
  constructor
  case results =>
    intro e he r hr
    simp only [AnswerQueue.newAnswer_heap] at hr
    rcases List.mem_append.mp he with he | he
    · rw [if_neg (hI.queued e he).2.ne] at hr
      exact h.results_mono l e he r hr
    · rw [List.mem_singleton.mp he, if_pos rfl] at hr
      cases hr
  case client => exact h.client.mono l rfl hkept
  case reading => exact fun d a as hpc => (h.reading d a as hpc).mono l rfl hkept
  case acted =>
    intro x hx
    obtain ⟨e, he, horigin⟩ := h.acted_mono l x hx
    exact ⟨e, (hkept e he).1, horigin⟩

/-- A step of the client thread that leaves the answers alone, and is then not decoding. -/
theorem Traced.of_client (h : Traced B ls s) (hqueue : t.queue = s.queue) (hsent : t.sent = s.sent)
    (hpc : t.pc = s.pc) (hacted : t.acted = s.acted)
    (hc : ∀ m todo a i ops, t.client ≠ .decoding m todo a i ops) (hclient : HandlesReply B (ls ++ [l]) t) :
    Traced B (ls ++ [l]) t where
  results := by rw [hsent, hqueue]; exact h.results_mono l
  client := hclient
  reading d a as hread := by
    rw [hpc] at hread
    obtain ⟨e, he, hea, hcmd, m, r, hfirst, ht, hs⟩ := (h.reading d a as hread).result
    exact ⟨⟨e, hsent ▸ he, hea, hcmd, m, r, hqueue ▸ hfirst, ht.mono l, hs⟩,
      fun m todo ops hdec => absurd hdec (hc m todo a 0 ops)⟩
  acted := by rw [hsent, hacted]; exact h.acted_mono l

theorem traced_receive (h : Traced B ls s) {m : ZMQMessage} (hr : receive B conv s m = some t) :
    Traced B (ls ++ [.receive m]) t := by
  obtain ⟨-, ⟨hreply, rfl⟩ | ⟨-, hend, heq⟩⟩ := receive_eq hr
  · exact h.of_client rfl rfl rfl rfl nofun
      ⟨List.mem_append_right _ (List.mem_singleton_self _), hreply⟩
  · refine h.of_client (by rw [heq]) (by rw [heq]) (by rw [heq]) (by rw [heq]) ?_ ?_
    · rcases hend with hend | hend <;> rw [hend] <;> exact nofun
    · rw [HandlesReply]
      rcases hend with hend | hend <;> simp only [hend]

/-- The client thread makes a result for the reply that it handles. -/
theorem traced_create (h : Traced B ls s) (hI : Inv s) {m : ZMQMessage} {x : Entry V}
    {todo : List (Entry V)} (hc : s.client = .looking m (x :: todo)) (hm : m.id B = .ok x.id) :
    Traced B (ls ++ [l])
      { s with
        queue := s.queue.addResult x.answer (newResult B m)
        client := .decoding m todo x.answer (s.queue.heap x.answer).results.length (decoder B m) } := by
  have hclient := h.client
  rw [HandlesReply, hc] at hclient
  have hx : x ∈ s.sent := hI.todo x (by rw [hc]; exact List.mem_cons_self)
  have hnew : Told B (ls ++ [l]) x.id m (.new (newResult B m)) :=
    ⟨List.mem_append_left _ hclient.1, hclient.2, hm, Or.inl rfl, Or.inl rfl⟩
  constructor
  case results =>
    intro e he r hr
    simp only [AnswerQueue.addResult_heap] at hr
    split_ifs at hr with hea
    · obtain rfl := hI.eq_of_answer he hx hea
      rcases List.mem_append.mp hr with hr | hr
      · exact h.results_mono l e he r hr
      · exact ⟨m, List.mem_singleton.mp hr ▸ hnew⟩
    · exact h.results_mono l e he r hr
  case client =>
    refine ⟨fun _ hop => hop, x, hx, rfl, .new (newResult B m), ?_, hnew⟩
    rw [AnswerQueue.addResult_heap, if_pos rfl]
    exact List.getElem?_concat_length
  case reading =>
    intro d a as hpc
    obtain ⟨e, he, rfl, hcmd, m', r, hfirst, ht, hs⟩ := (h.reading d a as hpc).result
    constructor
    case result =>
      refine ⟨e, he, rfl, hcmd, m', r, ?_, ht.mono l, hs⟩
      simp only [first, AnswerQueue.addResult_heap]
      split_ifs with hea
      · rw [Answer.addResult, ← hea, List.getElem?_append_left (List.getElem?_eq_some_iff.mp hfirst).1]
        exact hfirst
      · exact hfirst
    case client =>
      -- the new result is not the first one
      intro m'' todo' ops hdec
      obtain ⟨-, -, hea, hlen, -⟩ := Client.decoding.inj hdec
      rw [first, ← hea, List.length_eq_zero_iff.mp hlen] at hfirst
      cases hfirst
  case acted => exact h.acted_mono l

/-- The client thread does the next call of the decoder. -/
theorem traced_called (h : Traced B ls s) (hI : Inv s) {m : ZMQMessage} {todo : List (Entry V)}
    {a i : ℕ} {op : Except Exn (ResultOp V)} {ops : Decoding V} {q : AnswerQueue V}
    (hc : s.client = .decoding m todo a i (op :: ops)) (hq : call s.queue a i op = .ok q) :
    Traced B (ls ++ [l]) { s with queue := q, client := .decoding m todo a i ops } := by
  have hclient := h.client
  rw [HandlesReply, hc] at hclient
  obtain ⟨hops, x, hx, rfl, r, hr, ht⟩ := hclient
  obtain ⟨⟨r', hr', ht'⟩, hother⟩ := call_told hq hr ht (hops op List.mem_cons_self)
  constructor
  case results =>
    intro e he y hy
    obtain ⟨j, hj⟩ := List.mem_iff_getElem?.mp hy
    by_cases hij : e.answer = x.answer ∧ j = i
    · obtain rfl := hI.eq_of_answer he hx hij.1
      rw [hij.2, hr'] at hj
      exact ⟨m, Option.some.inj hj ▸ ht'.mono l⟩
    · rw [hother _ _ hij] at hj
      exact h.results_mono l e he y (List.mem_of_getElem? hj)
  case client =>
    exact ⟨fun o ho => hops o (List.mem_cons_of_mem _ ho), x, hx, rfl, r', hr', ht'.mono l⟩
  case reading =>
    intro d b as hpc
    have hreads := h.reading d b as hpc
    obtain ⟨e, he, rfl, hcmd, m', y, hfirst, hty, hs⟩ := hreads.result
    constructor
    case result =>
      by_cases hij : e.answer = x.answer ∧ 0 = i
      · obtain rfl := hI.eq_of_answer he hx hij.1
        refine ⟨e, he, rfl, hcmd, m, r', ?_, ht'.mono l, hreads.client m todo (op :: ops) ?_⟩
        · rw [first, hij.2]
          exact hr'
        · rw [hc, hij.2]
      · exact ⟨e, he, rfl, hcmd, m', y, by rw [first, hother _ _ hij]; exact hfirst, hty.mono l, hs⟩
    case client =>
      intro m'' todo' ops' hdec
      obtain ⟨rfl, rfl, hea, rfl, -⟩ := Client.decoding.inj hdec
      exact hreads.client m todo (op :: ops) (by rw [hc, hea])
  case acted => exact h.acted_mono l

theorem traced_handle (h : Traced B ls s) (hI : Inv s) (hh : handle B s = some t) :
    Traced B (ls ++ [l]) t := by
  have hclient := h.client
  rw [HandlesReply] at hclient
  cases handled hh with
  | done | noID | failed => exact h.of_client rfl rfl rfl rfl nofun trivial
  | create m x todo hc hm => exact traced_create h hI hc hm
  | pass m x todo id hc hm hne =>
    rw [hc] at hclient
    exact h.of_client rfl rfl rfl rfl nofun ⟨List.mem_append_left _ hclient.1, hclient.2⟩
  | decoded m todo a i hc =>
    rw [hc] at hclient
    obtain ⟨-, _, -, -, _, -, ht⟩ := hclient
    exact h.of_client rfl rfl rfl rfl nofun ⟨List.mem_append_left _ ht.received, ht.reply⟩
  | called m todo a i op ops q hc hq => exact traced_called h hI hc hq

/-- The entry that `checkQueue` finds for an answer is a request. -/
theorem Inv.find_sent (hI : Inv s) {a : ℕ} {e : Entry V}
    (h : s.table.find? (·.answer = a) = some e) : e ∈ s.sent ∧ e.answer = a :=
  ⟨hI.stored e (List.mem_of_find?_eq_some h), by simpa using List.find?_some h⟩

/-- `checkQueue` goes on to read a last value only if the first result is a success. -/
theorem reads_act (h : Traced B ls s) (hI : Inv s) {a : ℕ} {e : Entry V} {d : DeviceID} {k : ModuleID}
    {v : Option V} (hfind : s.table.find? (·.answer = a) = some e)
    (hcmd : e.cmd = .serverLastValue d k) (hfirst : first s.queue a = some ⟨.success, .lastValue v⟩) :
    Reads B ls s d a := by
  obtain ⟨he, rfl⟩ := hI.find_sent hfind
  obtain ⟨m, ht⟩ := h.results e he _ (List.mem_of_getElem? hfirst)
  refine ⟨⟨e, he, rfl, ⟨k, hcmd⟩, m, _, hfirst, ht, ht.succeeds rfl⟩, fun m' todo ops hdec => ?_⟩
  have hclient := h.client
  rw [HandlesReply, hdec] at hclient
  obtain ⟨-, _, -, -, r, hr, ht'⟩ := hclient
  obtain rfl := Option.some.inj (hr.symm.trans hfirst)
  exact ht'.succeeds rfl

theorem traced_check (h : Traced B ls s) (hI : Inv s) (hc : check conv s l = some t) :
    Traced B (ls ++ [l]) t := by
  have hf := check_frame hc
  have hold := h.acted_mono l
  have hkept : ∀ e ∈ s.sent, e ∈ t.sent ∧
      (t.queue.heap e.answer).results = (s.queue.heap e.answer).results := fun e he =>
    ⟨hf.sent ▸ he, hf.results _⟩
  have hresults : ∀ e ∈ t.sent, ∀ r ∈ (t.queue.heap e.answer).results,
      ∃ m, Told B (ls ++ [l]) e.id m r := by
    rw [hf.sent]
    exact fun e he r hr => h.results_mono l e he r (hf.results _ ▸ hr)
  refine ⟨hresults, h.client.mono l hf.client hkept, ?_, ?_⟩
  case refine_1 =>
    cases checked hc with
    | begin | visit | endScan | leave => exact nofun
    | act a as hpc =>
      have ha := acts s a as
      generalize act s a as = t at ha hf hkept
      cases ha with
      | list | clear => exact nofun
      | leave pc hpc => rcases hpc with rfl | rfl <;> exact nofun
      | value e d k v hfind hcmd hfirst =>
        rintro d' a' as' ⟨⟩
        exact (reads_act h hI hfind hcmd hfirst).mono _ hf.client hkept
    | read d a as hpc =>
      rcases readValue_cases conv s d a as with ⟨_, _, -, heq⟩ | ⟨-, heq⟩ <;> rw [heq] <;> exact nofun
  case refine_2 =>
    rw [hf.sent]
    cases checked hc with
    | begin | visit | endScan | leave => exact hold
    | act a as hpc =>
      have ha := acts s a as
      generalize act s a as = t at ha
      cases ha with
      | clear | leave | value => exact hold
      | list e p status devices hfind hcmd hfirst =>
        intro x hx
        rcases List.mem_append.mp hx with hx | hx
        · exact hold x hx
        · obtain rfl := List.mem_singleton.mp hx
          obtain ⟨he, hea⟩ := hI.find_sent hfind
          obtain ⟨m, ht⟩ := h.results e he _ (hea ▸ List.mem_of_getElem? hfirst)
          exact ⟨e, he, hea, by rw [hcmd]; trivial, m, _, ht.mono _, rfl, nofun⟩
    | read d a as hpc =>
      rcases readValue_cases conv s d a as with ⟨status, v, hfirst, heq⟩ | ⟨-, heq⟩ <;> rw [heq]
      · intro x hx
        rcases List.mem_append.mp hx with hx | hx
        · exact hold x hx
        · obtain rfl := List.mem_singleton.mp hx
          obtain ⟨e, he, hea, ⟨k, hcmd⟩, m, r, hr, ht, hs⟩ := (h.reading d a as hpc).result
          obtain rfl := Option.some.inj (hr.symm.trans hfirst)
          exact ⟨e, he, hea, by rw [hcmd]; trivial, m, _, ht.mono _, rfl, fun _ => hs⟩
      · exact hold

theorem traced_step (h : Traced B ls s) (hI : Inv s) (hl : (system B conv).step s l = some t) :
    Traced B (ls ++ [l]) t := by
  have hcheck : check conv s l = some t → Traced B (ls ++ [l]) t := traced_check h hI
  cases l with
  | getDeviceList th id p =>
    obtain ⟨u, hu, rfl⟩ := Option.map_eq_some_iff.mp hl
    have hT := traced_request (l := .getDeviceList th id p) h hI hu
    exact ⟨hT.results, hT.client, fun d a as hpc =>
      ⟨(hT.reading d a as hpc).result, (hT.reading d a as hpc).client⟩, hT.acted⟩
  | getLastValue th id d m => exact traced_request h hI hl
  | insert th =>
    obtain ⟨e, -, rfl⟩ := insert_eq hl
    exact h.frame rfl (fun _ => rfl) rfl rfl rfl
  | receive m => exact traced_receive h hl
  | handle => exact traced_handle h hI hl
  | expire =>
    obtain ⟨w, -, rfl⟩ := Option.map_eq_some_iff.mp hl
    exact h.frame rfl (fun _ => rfl) rfl rfl rfl
  | begin | visit | endScan | act | read | leave => exact hcheck hl

end

/-- In every run a manager acts only on what the constructor of a result or a reply to its request says,
    on the class of results that the request asks for, and on a last value only from a success. -/
theorem run_traced {ls : List Label} {s : State V W} (h : (system B conv).run init ls = some s) :
    Traced B ls s :=
  (system B conv).run_hist (P := fun ls s => Traced B ls s) traced_init
    (fun _ _ _ _ hrun hT hl => traced_step hT (run_inv hrun) hl) h

end DeviceManager
end BeeeOn
