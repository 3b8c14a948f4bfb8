import Gateway.System.Exchange
import Gateway.Jablotron.Run
import Gateway.ZWave.Reports

/-! @src zmq/ZMQBroker.cpp, zmq/ZMQClient.cpp, core/DeviceManager.cpp,
    jablotron/JablotronDeviceManager.cpp, z-wave/NotificationProcessor.cpp |
    name:Commands that nobody answers | family:liveness

    The broker counts a command of the server as done when a `default_result` has come for it from the one
    manager that it was sent to. None of the managers sends one: what they send are requests, measured
    values, and reports of what they could not read (`Sends`). So over any run of the broker with these
    managers, in any order, no result of a command leaves `PENDING` and no answer is ever complete
    (`commands_unanswered`). -/

namespace BeeeOn.Unanswered
open Schemes
open Network (Wired Asks type_of_get)
open ZMQBroker (parsed)
variable {V W ν : Type}

/-- The messages that a manager may send: the requests of a run of a device manager, what it makes of the
    serial line or of its Z-Wave network, and the report of its client on a string that it cannot read. -/
inductive Sends (B : Base V) (conv : V → W) (ν : Type) (m : ZMQMessage) : Prop
  | request {ls : List DeviceManager.Label} {s : DeviceManager.State V W}
    (h : (DeviceManager.system B conv).run DeviceManager.init ls = some s) (hm : m ∈ s.out)
  | serial (J : JablotronDeviceManager.Platform V) (v : SensorValue V)
    (rs : List JablotronDeviceManager.Round) (hm : m ∈ JablotronDeviceManager.serialSent B J v rs)
  | nodes {N : ZWaveMessage.Numbers V}
    {ns : List (NotificationProcessor.Surroundings V ν × Notification ν)}
    {homeId : BitVec 32} {s : NotificationProcessor.State ν}
    (hE : ∀ l ∈ ns, NotificationProcessor.Installed B N l.1)
    (h : (NotificationProcessor.system B).run (NotificationProcessor.State.init homeId) ns = some s)
    (hm : m ∈ s.sent)
  | error (e : ZMQMessageError) (text : String) (hm : m = ZMQMessage.fromError e text)

variable {B : Base V} {conv : V → W} {m : ZMQMessage}

theorem measured_type (hB : Wired B) (data : SensorData V) :
    (ZMQMessage.fromSensorData B data).type B = .ok .measuredValues := by
  refine type_of_get hB ?_
  rw [ZMQMessage.fromSensorData, JsonObject.get_set_ne _ _ (by decide)]
  rfl

theorem asks_type (hB : Wired B) {e : DeviceManager.Entry V} (h : Asks B e m) :
    m.type B = .ok .deviceListCmd ∨ m.type B = .ok .deviceLastValueCmd := by
  obtain ⟨a, id, cmd⟩ := e
  cases cmd with
  | serverDeviceList p => exact Or.inl (type_of_get hB (by rw [h]; rfl))
  | serverLastValue d i => exact Or.inr (type_of_get hB (by rw [h]; rfl))
  | _ => cases h

/-- The messages of a device manager are requests. -/
theorem out_asks {ls : List DeviceManager.Label} {s : DeviceManager.State V W}
    (h : (DeviceManager.system B conv).run DeviceManager.init ls = some s) :
    ∀ m ∈ s.out, ∃ e, Asks B e m := by
  refine (DeviceManager.system B conv).run_inv (P := fun s => ∀ m ∈ s.out, ∃ e, Asks B e m) ?_
    (fun m hm => by cases hm) h
  intro s l t hs hl m hm
  rcases Network.manager_out hl with ⟨hout, -⟩ | ⟨e, m', hasks, hout, -⟩
  · exact hs m (hout ▸ hm)
  · rw [hout] at hm
    rcases List.mem_append.mp hm with hm | hm
    · exact hs m hm
    · exact ⟨e, List.mem_singleton.mp hm ▸ hasks⟩

/-- No manager sends a `default_result`. -/
theorem sends_type (hB : Wired B) (h : Sends B conv ν m) : ∃ t, m.type B = .ok t ∧ t ≠ .defaultResult := by
  cases h with
  | request h hm =>
    obtain ⟨e, hasks⟩ := out_asks h m hm
    rcases asks_type hB hasks with ht | ht
    · exact ⟨_, ht, by decide⟩
    · exact ⟨_, ht, by decide⟩
  | serial J v rs hm =>
    obtain ⟨data, rfl⟩ := JablotronDeviceManager.serialSent_measured m hm
    exact ⟨_, measured_type hB data, by decide⟩
  | nodes hE h hm =>
    rw [NotificationProcessor.sent_reports hE h] at hm
    obtain ⟨data, -, rfl⟩ := List.mem_map.mp hm
    exact ⟨_, measured_type hB data, by decide⟩
  | error e text hm =>
    subst hm
    exact ⟨.error, type_of_get hB rfl, by decide⟩

/-! ### The broker -/

/-- Every string on the data socket is the text of what a manager sends. -/
def FromManagers (B : Base V) (conv : V → W) (ν : Type) : Broker.Label V → Prop
  | .data _ json => ∃ m, Sends B conv ν m ∧ B.parseJson json = .ok m
  | _ => True

/-- Nothing has been answered: all results are pending, and an answer waits for the one command that is
    counted for it. -/
structure Open (s : Broker.State V) : Prop where
  inv : Broker.Inv s
  pending : ∀ a, ∀ r ∈ s.results a, r.status = .pending
  counted : ∀ a < s.answers.next, (s.answers.heap a).commands = 1

section
variable {P : Broker.Platform V} {s t : Broker.State V}

theorem Open.isPending (h : Open s) {a : ℕ} (ha : a < s.answers.next) :
    (s.answers.heap a).isPending = true := by
  rw [← Bool.not_eq_false, Answer.isPending_eq_false, h.counted a ha]
  rintro ⟨hlen, hall⟩
  obtain ⟨r, hr⟩ := List.length_eq_one_iff.mp hlen
  have hmem : r ∈ s.results a := by
    rw [Broker.State.results, hr]
    exact List.mem_singleton_self r
  exact hall r hmem (h.pending a r hmem)

/-- What a manager sends asks for no status. -/
theorem reply_of_sends (hB : Wired P.base) {identity json : String}
    (h : FromManagers P.base conv ν (.data identity json)) : Broker.reply P s identity json = none := by
  obtain ⟨m, hm, hjson⟩ := h
  obtain ⟨t, ht, hne⟩ := sends_type hB hm
  have hparsed : parsed P.base json = .ok m := by
    simp only [parsed, ZMQMessage.fromJSON, hjson, bind, Except.bind, ht]
    rfl
  rw [Broker.reply, hparsed]
  dsimp only
  rw [ht]
  cases DeviceManagerID.parse P.base identity with
  | error e => rfl
  | ok manager => cases t <;> first | rfl | exact absurd rfl hne

theorem open_start (table : ZMQDeviceManagerTable) : Open (Broker.start table : Broker.State V) where
  inv := Broker.inv_start table
  pending _ _ hr := absurd hr List.not_mem_nil
  counted a ha := absurd ha (Nat.not_lt_zero a)

theorem handed_commands (h : Open s) (cmd : Command V) {a : ℕ} (ha : a < s.answers.next + 1) :
    ((Broker.handed s cmd).heap a).commands = 1 := by
  simp only [Broker.handed, AnswerQueue.runCommands, AnswerQueue.addCommand, AnswerQueue.modify_heap,
    AnswerQueue.newAnswer_heap]
  split_ifs with hnew
  · rfl
  · exact h.counted a (by omega)

/-- A step keeps everything open if it receives nothing, or what a manager sends. -/
theorem open_step (hB : Wired P.base) (h : Open s) {l : Broker.Label V}
    (hl : FromManagers P.base conv ν l) (hs : (Broker.system P).step s l = some t) : Open t := by
  have hI := Broker.inv_step h.inv hs
  have hsame : t.answers = s.answers → Open t := by
    intro heq
    refine ⟨hI, fun a r hr => h.pending a r ?_, fun a ha => ?_⟩
    · rwa [Broker.State.results, heq] at hr
    · rw [heq] at ha ⊢
      exact h.counted a ha
  obtain ⟨-, hcase⟩ := Broker.step_cases hs
  cases l with
  | hello json =>
    obtain ⟨-, rfl⟩ := hcase
    obtain ⟨_, _, _, heq⟩ := Broker.hello_eq (P := P) (s := s) json
    exact hsame (by rw [heq])
  | data identity json =>
    obtain ⟨-, rfl⟩ := hcase
    exact hsame (by rw [Broker.data_answers, reply_of_sends hB hl])
  | begin cmd now =>
    obtain ⟨-, rfl⟩ := hcase
    refine ⟨hI, fun a r hr => h.pending a r ?_, fun a ha => ?_⟩
    · rw [Broker.State.results, Broker.begin_answers, Broker.handed_results h.inv] at hr
      exact hr
    · rw [Broker.begin_answers] at ha ⊢
      exact handed_commands h cmd ha
  | next k id =>
    obtain ⟨cmd, b, manager, managers, -, -, ha, -⟩ := Broker.next_cases hcase
    refine ⟨hI, fun a r hr => ?_, fun a hlt => ?_⟩
    · rw [Broker.State.results, ha, AnswerQueue.addResult_heap] at hr
      split_ifs at hr with hab
      · rcases List.mem_append.mp hr with hr | hr
        · exact h.pending b r hr
        · rw [List.mem_singleton.mp hr]
          rfl
      · exact h.pending a r hr
    · rw [ha] at hlt ⊢
      rw [AnswerQueue.addResult_heap]
      split_ifs with hab
      · subst hab
        exact h.counted a hlt
      · exact h.counted a hlt
  | tick now =>
    obtain ⟨-, rfl⟩ := hcase
    exact hsame (by rw [Broker.tick_eq h.inv])

/-- In every run of the broker with the managers as they are: every result of a command is pending, and so
    is every answer, whoever the command was sent to and however long one waits. -/
theorem commands_unanswered (hB : Wired P.base) {table : ZMQDeviceManagerTable}
    {ls : List (Broker.Label V)} (hls : ∀ l ∈ ls, FromManagers P.base conv ν l)
    (h : (Broker.system P).run (Broker.start table) ls = some s) :
    (∀ a, ∀ r ∈ s.results a, r.status = .pending) ∧
      ∀ a < s.answers.next, (s.answers.heap a).isPending = true := by
  have hopen := (Broker.system P).run_hist (P := fun ls s => (∀ l ∈ ls, FromManagers P.base conv ν l) →
    Open s) (fun _ => open_start table) ?_ h hls
  · exact ⟨hopen.pending, fun a ha => hopen.isPending ha⟩
  · intro ls s l t _ ih hl hall
    have hs := ih fun l hl => hall l (List.mem_append_left _ hl)
    exact open_step hB hs (hall l (List.mem_append_right _ (List.mem_singleton_self l))) hl

end

/-! ### A listen command -/

theorem wired_parseJson (hB : Wired B) (parseJson : String → Except Exn JsonObject) :
    Wired ({ B with parseJson := parseJson } : Base V) where
  lawful := Sample.lawful_parseJson hB.lawful parseJson
  parseMessageType_text := hB.parseMessageType_text
  parseGlobalID_text := hB.parseGlobalID_text
  parseHex_formatHex := hB.parseHex_formatHex

/-- A Z-Wave manager asks for its devices. -/
def asked : ZMQMessage :=
  (ZMQMessage.fromServerDeviceListCommand Sample.base ⟨0xa8⟩).setID Sample.base ⟨9⟩

def hearing : Broker.Platform Reading := Broker.sample [(Sample.jsonText asked, asked)]

theorem asked_sends : Sends hearing.base (id : Reading → Reading) ℕ asked := by
  obtain ⟨s, hs, hm⟩ : ∃ s, (DeviceManager.system hearing.base (id : Reading → Reading)).run
      DeviceManager.init [.getDeviceList 0 ⟨9⟩ ⟨0xa8⟩] = some s ∧ asked ∈ s.out :=
    ⟨_, rfl, List.mem_singleton_self asked⟩
  exact .request hs hm

/-- A listen command goes to the manager, whose request is all that comes back. -/
def listening : List (Broker.Label Reading) :=
  [.begin (.gatewayListen 5000000) 0, .next 0 ⟨7⟩, .data "A801" (Sample.jsonText asked), .tick 9000000]

/-- The command is not answered. -/
theorem listening_unanswered : ∃ s,
    (Broker.system hearing).run (Broker.start [⟨0xa801⟩]) listening = some s ∧
      (s.answers.heap 0).isPending = true := by
  have hrun : ((Broker.system hearing).run (Broker.start [⟨0xa801⟩]) listening).isSome = true := by
    decide +kernel
  obtain ⟨s, hs⟩ := Option.isSome_iff_exists.mp hrun
  have hls : ∀ l ∈ listening, FromManagers hearing.base (id : Reading → Reading) ℕ l := by
    simp only [listening, List.forall_mem_cons]
    refine ⟨trivial, trivial, ⟨asked, asked_sends, ?_⟩, trivial, fun l hl => absurd hl List.not_mem_nil⟩
    simp only [hearing, Broker.sample, List.lookup_cons, beq_self_eq_true]
  have hnext : ((Broker.system hearing).run (Broker.start [⟨0xa801⟩]) listening).map
      (fun s => s.answers.next) = some 1 := by
    decide +kernel
  rw [hs, Option.map_some, Option.some.injEq] at hnext
  exact ⟨s, hs, (commands_unanswered (wired_parseJson Network.sample_wired _) hls hs).2 0
    (hnext ▸ Nat.one_pos)⟩

end BeeeOn.Unanswered
