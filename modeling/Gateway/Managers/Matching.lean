import Gateway.Managers.DeviceManager
import Gateway.Model.Sample

/-! @src jablotron/JablotronDeviceManager.cpp, z-wave/ZWaveDeviceManager.cpp | name:Replies and requests |
    family:request-reply

    Every reply that the client thread receives is to be recorded as a result on the answer of its
    request. The count of replies with the id of a request is the number of results on its answer, and
    one more while the loop over `m_table` has yet to come to it — as long as no reply arrives between
    the send of a request and its insertion (`replies_recorded_iff`). One that does finds nothing in
    `m_table` and is gone. The broker, on its own table, inserts first and sends then. -/

namespace BeeeOn
open Schemes
variable {V W : Type} (B : Base V) {conv : V → W}

namespace DeviceManager

/-- How many items with the id `id` the loop for a reply with that id has ahead. -/
def Client.ahead (c : Client V) (id : GlobalID) : ℕ :=
  match c with
  | .looking m todo | .decoding m todo _ _ _ =>
    if (m.id B).toOption = some id then (todo.map Entry.id).count id else 0
  | .idle | .raised => 0

/-- The replies to the request `e` are the results of its answer, or the loop will come to it. -/
def Recorded (s : State V W) (e : Entry V) : Prop :=
  s.received.count e.id = (s.queue.heap e.answer).results.length + s.client.ahead B e.id

/-- No reply is received while its request has been sent and is not in `m_table` yet. -/
def NotTooEarly (s : State V W) (l : Label) : Prop :=
  ∀ m th e, l = .receive m → s.sending th = some e → replyID B m ≠ some e.id

/-- The loop comes to each request once; behind the item that is being decoded for, none has the id of
    the message. -/
structure Loop (c : Client V) : Prop where
  ids : (c.todo.map Entry.id).Nodup
  single : ∀ m todo a i ops, c = .decoding m todo a i ops → ∀ id, c.ahead B id = 0

/-- The state of the loop and of the answers, as long as no reply comes too early. -/
structure Matched (s : State V W) : Prop where
  inv : Inv s
  loop : Loop B s.client
  recorded : ∀ e ∈ s.sent, Recorded B s e

variable {B}

theorem Loop.idle : Loop B (.idle : Client V) := ⟨List.nodup_nil, nofun⟩

theorem Loop.raised : Loop B (.raised : Client V) := ⟨List.nodup_nil, nofun⟩

theorem Loop.looking (m : ZMQMessage) {todo : List (Entry V)} (hids : (todo.map Entry.id).Nodup) :
    Loop B (.looking m todo) := ⟨hids, nofun⟩

/-- The loop has nothing ahead for an id that no request has. -/
theorem Inv.ahead_eq_zero {s : State V W} (hI : Inv s) {id : GlobalID}
    (hid : id ∉ s.sent.map Entry.id) : s.client.ahead B id = 0 := by
  have hcount : (s.client.todo.map Entry.id).count id = 0 := by
    refine List.count_eq_zero.mpr fun hmem => hid ?_
    obtain ⟨e, he, rfl⟩ := List.mem_map.mp hmem
    exact List.mem_map_of_mem (hI.todo e he)
  cases hc : s.client with
  | idle | raised => rfl
  | looking m todo | decoding m todo a i ops =>
    rw [hc] at hcount
    simp only [Client.ahead, ite_eq_right_iff]
    exact fun _ => hcount

/-! ### Requests -/

theorem matched_request {s t : State V W} (h : Matched B s) {th : ℕ} {id : GlobalID}
    {cmd : Command V} (hr : request B s th id cmd = some t) : Matched B t := by
  have hI := request_inv h.inv hr
  obtain ⟨-, ⟨hfresh, hunseen⟩, out, rfl⟩ := request_eq hr
  refine ⟨hI, h.loop, fun e he => ?_⟩
  rw [Recorded]
  simp only [AnswerQueue.newAnswer_heap]
  rcases List.mem_append.mp he with he | he
  · rw [if_neg (h.inv.queued e he).2.ne]
    exact h.recorded e he
  · obtain rfl := List.mem_singleton.mp he
    rw [if_pos rfl, List.count_eq_zero.mpr hunseen, h.inv.ahead_eq_zero hfresh]
    rfl

theorem matched_insert {s t : State V W} (h : Matched B s) {th : ℕ} (hi : insert s th = some t) :
    Matched B t := by
  have hI := insert_inv h.inv hi
  obtain ⟨e, he, rfl⟩ := insert_eq hi
  exact ⟨hI, h.loop, h.recorded⟩

/-! ### Replies -/

/-- A reply starts a loop that has the request ahead if and only if it is in `m_table`. -/
theorem receive_recorded {s t : State V W} (hI : Inv s) {m : ZMQMessage} {e : Entry V}
    (he : e ∈ s.sent) (h : receive B conv s m = some t) (hs : Recorded B s e) :
    Recorded B t e ↔ (replyID B m = some e.id → e ∈ s.table) := by
  obtain ⟨hidle, hcase⟩ := receive_eq h
  rw [Recorded] at hs
  rw [hidle] at hs
  rcases hcase with ⟨hr, rfl⟩ | ⟨hr, hend, heq⟩
  · rw [Recorded, replyID, if_pos hr, List.count_append, hs]
    by_cases hid : (m.id B).toOption = some e.id
    · have hmem : e.id ∈ s.table.map Entry.id ↔ e ∈ s.table := by
        refine ⟨fun hmem => ?_, List.mem_map_of_mem⟩
        obtain ⟨x, hx, hxe⟩ := List.mem_map.mp hmem
        exact hI.eq_of_id (hI.stored x hx) he hxe ▸ hx
      simp only [Client.ahead, hid, Option.toList_some, List.count_singleton_self, if_true,
        true_imp_iff, ← hmem, ← List.one_le_count_iff]
      have hle := List.nodup_iff_count_le_one.mp hI.tableIds e.id
      omega
    · have hzero : (m.id B).toOption.toList.count e.id = 0 := by
        rw [List.count_eq_zero, Option.mem_toList]; exact hid
      simp only [Client.ahead, hid, hzero, if_false, false_imp_iff]
  · have hno : replyID B m ≠ some e.id := by simp [replyID, hr]
    have hahead : t.client.ahead B e.id = 0 := by rcases hend with h | h <;> rw [h] <;> rfl
    refine iff_of_true ?_ fun h => absurd h hno
    rw [Recorded, hahead, heq]
    exact hs

theorem matched_receive {s t : State V W} (h : Matched B s) {m : ZMQMessage}
    (hC : NotTooEarly B s (.receive m)) (hr : receive B conv s m = some t) : Matched B t := by
  refine ⟨receive_inv h.inv hr, ?_, ?_⟩
  · obtain ⟨-, ⟨-, rfl⟩ | ⟨-, hend, heq⟩⟩ := receive_eq hr
    · exact Loop.looking m h.inv.tableIds
    · rcases hend with hend | hend <;> rw [heq, hend]
      · exact Loop.idle
      · exact Loop.raised
  · have hsent : t.sent = s.sent := by
      obtain ⟨-, ⟨-, rfl⟩ | ⟨-, -, heq⟩⟩ := receive_eq hr
      · rfl
      · rw [heq]
    rw [hsent]
    refine fun e he => (receive_recorded h.inv he hr (h.recorded e he)).mpr fun hid => ?_
    refine (h.inv.covered e he).resolve_right ?_
    rintro ⟨th, hth⟩
    exact hC m th e rfl hth hid

/-- The steps of the client thread, by what is ahead of them: whatever the loop passes is recorded. -/
theorem handle_loop {s t : State V W} (hI : Inv s) (hL : Loop B s.client)
    (h : handle B s = some t) : Loop B t.client ∧
      ∀ e ∈ s.sent, (t.queue.heap e.answer).results.length + t.client.ahead B e.id =
        (s.queue.heap e.answer).results.length + s.client.ahead B e.id := by
  cases handled h with
  | done m hc => exact ⟨Loop.idle, fun e _ => by simp [hc, Client.ahead]⟩
  | noID m x todo err hc hm =>
    exact ⟨Loop.raised, fun e _ => by simp [hc, Client.ahead, hm, Except.toOption]⟩
  | create m x todo hc hm =>
    rw [hc] at hL
    have hx : x ∈ s.sent := hI.todo x (by rw [hc]; exact List.mem_cons_self)
    obtain ⟨hnot, hnodup⟩ : x.id ∉ todo.map Entry.id ∧ (todo.map Entry.id).Nodup :=
      List.nodup_cons.mp hL.ids
    refine ⟨⟨hnodup, ?_⟩, fun e he => ?_⟩
    · rintro _ _ _ _ _ ⟨⟩ id
      simp only [Client.ahead, hm, Except.toOption, Option.some.injEq, ite_eq_right_iff]
      rintro rfl
      exact List.count_eq_zero.mpr hnot
    · simp only [hc, Client.ahead, hm, Except.toOption, Option.some.injEq,
        AnswerQueue.addResult_heap, List.map_cons, List.count_cons, beq_iff_eq]
      by_cases hxe : x = e
      · subst hxe
        simp only [if_true, Answer.addResult, List.length_append, List.length_singleton]
        omega
      · have hne : x.id ≠ e.id := fun h => hxe (hI.eq_of_id hx he h)
        have hne' : e.answer ≠ x.answer := fun h => hxe (hI.eq_of_answer he hx h).symm
        simp only [if_neg hne, if_neg hne']
  | pass m x todo id hc hm hid =>
    rw [hc] at hL
    refine ⟨Loop.looking m (List.nodup_cons.mp hL.ids).2, fun e _ => ?_⟩
    simp only [hc, Client.ahead, hm, Except.toOption, Option.some.injEq, List.map_cons,
      List.count_cons, beq_iff_eq]
    by_cases he : id = e.id
    · subst he
      simp only [hid, if_true, if_false, Nat.add_zero]
    · simp only [he, if_false]
  | decoded m todo a i hc =>
    rw [hc] at hL ⊢
    exact ⟨Loop.looking m hL.ids, fun e _ => rfl⟩
  | called m todo a i op ops q hc hq =>
    rw [hc] at hL
    refine ⟨⟨hL.ids, ?_⟩, fun e _ => ?_⟩
    · rintro _ _ _ _ _ ⟨⟩
      exact hL.single m todo a i _ rfl
    · rw [(call_frame hq).2.2, hc]; rfl
  | failed m todo a i op ops err hc hq =>
    rw [hc] at hL
    refine ⟨Loop.raised, fun e _ => ?_⟩
    rw [hc, hL.single m todo a i _ rfl]; rfl

theorem matched_handle {s t : State V W} (h : Matched B s) (hh : handle B s = some t) :
    Matched B t := by
  have hf := handle_frame hh
  obtain ⟨hloop, hcount⟩ := handle_loop h.inv h.loop hh
  refine ⟨handle_inv h.inv hh, hloop, ?_⟩
  rw [hf.sent]
  intro e he
  rw [Recorded, hf.received, hcount e he]
  exact h.recorded e he

theorem matched_check {s t : State V W} (h : Matched B s) {l : Label} (hc : check conv s l = some t) :
    Matched B t := by
  have hf := check_frame hc
  refine ⟨check_inv h.inv hc, hf.client ▸ h.loop, ?_⟩
  rw [hf.sent]
  intro e he
  rw [Recorded, hf.received, hf.results, hf.client]
  exact h.recorded e he

theorem matched_step {s t : State V W} (h : Matched B s) {l : Label} (hC : NotTooEarly B s l)
    (hl : (system B conv).step s l = some t) : Matched B t := by
  have hcheck : check conv s l = some t → Matched B t := matched_check h
  cases l with
  | getDeviceList th id p =>
    obtain ⟨u, hu, rfl⟩ := Option.map_eq_some_iff.mp hl
    have hm := matched_request h hu
    exact ⟨hm.inv.of_frame rfl rfl rfl rfl rfl hm.inv.todo, hm.loop, hm.recorded⟩
  | getLastValue th id d m => exact matched_request h hl
  | insert th => exact matched_insert h hl
  | receive m => exact matched_receive h hC hl
  | handle => exact matched_handle h hl
  | expire =>
    obtain ⟨w, -, rfl⟩ := Option.map_eq_some_iff.mp hl
    exact ⟨h.inv.of_frame rfl rfl rfl rfl rfl h.inv.todo, h.loop, h.recorded⟩
  | begin | visit | endScan | act | read | leave => exact hcheck hl

/-- No reply to a request is lost in a run if and only if none arrives before its request is stored. -/
theorem replies_recorded_iff {ls : List Label} {s : State V W}
    (h : (system B conv).run init ls = some s) :
    (∀ as bs t, ls = as ++ bs → (system B conv).run init as = some t →
      ∀ e ∈ t.sent, Recorded B t e) ↔ (system B conv).Meets (NotTooEarly B) init ls := by
  refine (system B conv).run_states_iff (P := fun _ t => Matched B t)
    (Q := fun _ t => ∀ e ∈ t.sent, Recorded B t e) (C := fun _ t l => NotTooEarly B t l)
    ⟨inv_init, Loop.idle, nofun⟩ (fun _ t ht => ht.recorded) ?_ ?_ h
  · rintro _ t l u ht hu hrecorded m th e rfl hth hid
    obtain ⟨hsent, hstored⟩ := ht.inv.flying th e hth
    have husent : e ∈ u.sent := by
      obtain ⟨-, ⟨-, rfl⟩ | ⟨-, -, heq⟩⟩ := receive_eq hu
      · exact hsent
      · rw [heq]; exact hsent
    exact hstored ((receive_recorded ht.inv hsent hu (ht.recorded e hsent)).mp
      (hrecorded e husent) hid)
  · intro _ t l u ht hu hC
    exact matched_step ht hC hu

/-- The request is stored before its reply is received: the reply is recorded. -/
theorem replies_recorded_stored_first : ∃ (ls : List Label) (s : State Reading Reading),
    (ZWaveDeviceManager.system Sample.base).run init ls = some s ∧ s.received = [⟨7⟩] ∧
      s.sent.length = 1 ∧ ∀ e ∈ s.sent, Recorded Sample.base s e := by
  have hrun : ∃ (ls : List Label) (s : State Reading Reading),
      (ZWaveDeviceManager.system Sample.base).Meets (NotTooEarly Sample.base) init ls ∧
        (ZWaveDeviceManager.system Sample.base).run init ls = some s ∧ s.received = [⟨7⟩] ∧
          s.sent.length = 1 := by
    refine ⟨[.getDeviceList 0 ⟨7⟩ ⟨0xa8⟩, .insert 0, .receive Sample.deviceListReply, .handle], _, ?_,
      rfl, rfl, rfl⟩
    refine .cons _ nofun rfl (.cons _ nofun rfl (.cons _ ?_ rfl (.cons _ nofun rfl (.nil _))))
    rintro m th e heq hth
    change Function.update (Function.update (fun _ => none) 0 _) 0 none th = some e at hth
    rw [Function.update_idem, Function.update_eq_self] at hth
    cases hth
  obtain ⟨ls, s, hC, h, hreceived, hsent⟩ := hrun
  exact ⟨ls, s, h, hreceived, hsent, (replies_recorded_iff h).mpr hC ls [] s (by simp) h⟩

/-- The reply arrives before the request is stored: it is recorded nowhere. -/
theorem reply_lost : ¬ ∀ (ls : List Label) (s : State Reading Reading),
    (ZWaveDeviceManager.system Sample.base).run init ls = some s →
      ∀ e ∈ s.sent, Recorded Sample.base s e := by
  intro h
  obtain ⟨s, hs, hsent, hreceived, hresults, hahead⟩ : ∃ s : State Reading Reading,
      (ZWaveDeviceManager.system Sample.base).run init [.getDeviceList 0 ⟨7⟩ ⟨0xa8⟩,
        .receive Sample.deviceListReply, .insert 0, .handle] = some s ∧
      ⟨0, ⟨7⟩, .serverDeviceList ⟨0xa8⟩⟩ ∈ s.sent ∧ s.received = [⟨7⟩] ∧
      (s.queue.heap 0).results = [] ∧ s.client.ahead Sample.base ⟨7⟩ = 0 :=
    ⟨_, rfl, List.mem_singleton_self _, rfl, rfl, rfl⟩
  have hlost := h _ s hs _ hsent
  simp [Recorded, hreceived, hresults, hahead] at hlost

end DeviceManager
end BeeeOn
