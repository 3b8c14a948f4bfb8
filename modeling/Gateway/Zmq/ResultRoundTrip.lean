import Gateway.Zmq.Broker
import Gateway.Zmq.RoundTrip

/-! @src zmq/ZMQMessage.cpp, util/Castable.h, core/Result.cpp | name:Results as messages | family:formats

    A result is sent as the message of its exact class: `is` compares type ids, so the test for the base
    class that stands first does not take the others. It is read into a result that the receiver has
    just created, through `setStatus`, which refuses to go back but not to leave `PENDING`, or to stay
    there. Status and payload all come back (`result_round_trip`). -/

namespace BeeeOn
variable {V : Type}

/-! ### Setting a new result -/

namespace AnswerQueue
variable {q : AnswerQueue V} {a i : ℕ} {p : Payload V}

/-- The result that a constructor has added. -/
theorem addResult_last (q : AnswerQueue V) (a : ℕ) (p : Payload V) :
    ((q.addResult a p).heap a).results[(q.heap a).results.length]? = some (.new p) := by
  rw [addResult_heap, if_pos rfl, Answer.addResult, List.getElem?_concat_length]

/-- A new result takes any status, also the one that it has. -/
theorem setStatus_new (h : (q.heap a).results[i]? = some (.new p)) {st : Status} (hst : 0 ≤ st.raw) :
    ∃ q', q.setStatus a i st = .ok q' ∧ (q'.heap a).results[i]? = some ⟨st, p⟩ := by
  have hlen := (List.getElem?_eq_some_iff.mp h).1
  simp only [setStatus, h, Result.new]
  by_cases hpending : Status.pending = st
  · rw [Status.change_eq_false.mpr hpending, ← hpending]
    exact ⟨q, rfl, h⟩
  · have hlt : Status.pending.raw < st.raw := by
      refine lt_of_le_of_ne hst fun heq => hpending ?_
      obtain ⟨n⟩ := st
      rw [← show Status.pending.raw = n from heq]
    rw [Status.change_eq_true.mpr hlt]
    refine ⟨_, rfl, ?_⟩
    rw [setStatus_heap, if_pos rfl, Answer.setDirty, Answer.setResult, List.getElem?_set_self hlen]

theorem setPayload_results {st : Status} (h : (q.heap a).results[i]? = some ⟨st, p⟩) (p' : Payload V) :
    ((q.setPayload a i p').heap a).results[i]? = some ⟨st, p'⟩ := by
  rw [setPayload, h]
  simp only [modify_heap_self, Answer.setResult]
  exact List.getElem?_set_self (List.getElem?_eq_some_iff.mp h).1

end AnswerQueue

namespace Broker
variable {q : AnswerQueue V} {a i : ℕ} {p : Payload V}

/-- A decoder that sets the status of a new result, and nothing else. -/
theorem decode_setStatus (h : (q.heap a).results[i]? = some (.new p)) {st : Status} (hst : 0 ≤ st.raw) :
    ∃ q', decode q a i [.ok (.setStatus st)] = (.ok (), q') ∧
      (q'.heap a).results[i]? = some ⟨st, p⟩ := by
  obtain ⟨q', hq, hres⟩ := AnswerQueue.setStatus_new h hst
  exact ⟨q', by simp only [decode, hq], hres⟩

/-- A decoder that sets the status and the payload of a new result. -/
theorem decode_setBoth (h : (q.heap a).results[i]? = some (.new p)) {st : Status} (hst : 0 ≤ st.raw)
    (p' : Payload V) : ∃ q', decode q a i [.ok (.setStatus st), .ok (.setPayload p')] = (.ok (), q') ∧
      (q'.heap a).results[i]? = some ⟨st, p'⟩ := by
  obtain ⟨q', hq, hres⟩ := AnswerQueue.setStatus_new h hst
  exact ⟨q'.setPayload a i p', by simp only [decode, hq], AnswerQueue.setPayload_results hres p'⟩

end Broker

namespace ZMQMessage

/-! ### The classes of results -/

/-- The type of the messages that carry a result of this class. -/
def resultType : Payload V → ZMQMessageType
  | .plain => .defaultResult
  | .deviceList _ => .deviceListResult
  | .lastValue _ => .deviceLastValueResult
  | .setValue _ => .setValuesResult

/-- A result of the same class as its constructor leaves it. -/
def newPayload : Payload V → Payload V
  | .plain => .plain
  | .deviceList _ => .deviceList []
  | .lastValue _ => .lastValue none
  | .setValue _ => .setValue none

variable (B : Base V)

/-- The decoder for a result of this class. -/
def resultDecoder : Payload V → ZMQMessage → Decoding V
  | .plain => toDefaultResult B
  | .deviceList _ => toServerDeviceListResult B
  | .lastValue _ => toServerLastValueResult B
  | .setValue _ => toDeviceSetValueResult B

/-- The payload has been set; a value is an exact multiple of 10^-6, a set status one of the six. -/
def Sendable : Payload V → Prop
  | .plain | .deviceList _ => True
  | .lastValue value => ∃ v, value = some v ∧ B.exact v
  | .setValue status => ∃ s, status = some s ∧ 0 ≤ s.raw ∧ s.raw ≤ SetStatus.deviceTimeout.raw

variable {B}

/-- One of the three statuses is read as it was written. -/
theorem getResultState_of_get (hB : B.Lawful) {m : ZMQMessage} {st : Status}
    (hst : st = .pending ∨ st.IsTerminal) (h : m.get "result_status" = some (.num st.raw)) :
    getResultState B m = .ok st := by
  have hrange : 0 ≤ st.raw ∧ st.raw ≤ 2 := by
    rcases hst with rfl | rfl | rfl <;> decide
  rw [getResultState, hB.extractInt_num h (by omega) (by omega)]
  rfl

theorem getExtendetSetStatus_of_get (hB : B.Lawful) {m : ZMQMessage} {s : SetStatus} (h0 : 0 ≤ s.raw)
    (hle : s.raw ≤ SetStatus.deviceTimeout.raw)
    (h : m.get "extented_set_status" = some (.num s.raw)) : getExtendetSetStatus B m = .ok s := by
  have hlt : s.raw < 2 ^ 31 := lt_of_le_of_lt hle (by decide)
  rw [getExtendetSetStatus, hB.extractInt_num h (by omega) hlt]
  rfl

/-- The device ids of a list are read as they were written. -/
theorem mapM_getDeviceID (hB : B.Lawful) (devices : List DeviceID) :
    ((devices.map fun item => Json.obj (setDeviceID B [] item)).mapM
      fun item => do getDeviceID B (← item.asObject)) = .ok devices := by
  rw [mapM_asObject (getDeviceID B) (setDeviceID B [])]
  have hone : ∀ d ∈ devices, ∃ y, getDeviceID B (setDeviceID B [] d) = .ok y ∧ y = d := fun d _ =>
    ⟨d, getDeviceID_of_get hB (JsonObject.get_set_self _ _ _), rfl⟩
  obtain ⟨ys, hys, heq⟩ := (mapM_iff (fun d => getDeviceID B (setDeviceID B [] d))
    (fun y => y) (fun d => d) devices).mpr hone
  rw [List.map_id', List.map_id'] at heq
  exact heq ▸ hys

/-- What a decoder finds in the message of a result of its class: the calls that set just that. -/
theorem resultDecoder_fromResult (hB : B.Lawful) {r : Result V}
    (hst : r.status = .pending ∨ r.status.IsTerminal) (hp : Sendable B r.payload) :
    ∃ m, fromResult B r = some m ∧
      m.get "message_type" = some (.str (resultType r.payload).text) ∧
      resultDecoder B r.payload m = match r.payload with
        | .plain => [.ok (.setStatus r.status)]
        | p => [.ok (.setStatus r.status), .ok (.setPayload p)] := by
  obtain ⟨st, p⟩ := r
  have hstate : ∀ {m}, fromResult B ⟨st, p⟩ = some m → getResultState B m = .ok st := fun h =>
    getResultState_of_get hB hst (fromResult_status B h)
  cases p with
  | plain =>
    refine ⟨_, rfl, rfl, ?_⟩
    simp only [resultDecoder, toDefaultResult, hstate rfl]
    rfl
  | deviceList devices =>
    refine ⟨_, rfl, rfl, ?_⟩
    have hlist := mapM_getDeviceID hB devices
    simp only [bind, Except.bind] at hlist
    simp only [resultDecoder, toServerDeviceListResult, hstate rfl, JsonObject.getArray,
      JsonObject.get_set_self, bind, Except.bind, hlist]
    rfl
  | lastValue value =>
    obtain ⟨v, rfl, hv⟩ := hp
    refine ⟨_, rfl, rfl, ?_⟩
    have hvalue : getValue B (setValue B [] v) = .ok (some v) := by
      rw [getValue_of_get hB (v := v) rfl rfl, hB.parseFloat_text v hv]
      rfl
    simp only [resultDecoder, toServerLastValueResult, hstate rfl, JsonObject.getObject,
      JsonObject.get_set_self, bind, Except.bind, hvalue]
    rfl
  | setValue status =>
    obtain ⟨s, rfl, h0, hle⟩ := hp
    refine ⟨_, rfl, rfl, ?_⟩
    have hset := getExtendetSetStatus_of_get hB h0 hle
      (m := setExtendetSetStatus (setResultState (setType [] .setValuesResult) st) s)
      (JsonObject.get_set_self _ _ _)
    simp only [resultDecoder, toDeviceSetValueResult, hstate rfl, hset]
    rfl

/-- Every result, of whichever class, comes back from its message: the message has the type of the exact
    class, and its decoder gives a new result of this class the same status and the same payload. -/
theorem result_round_trip (hB : B.Lawful) {r : Result V}
    (hst : r.status = .pending ∨ r.status.IsTerminal) (hp : Sendable B r.payload)
    (q : AnswerQueue V) (a : ℕ) :
    ∃ m q', fromResult B r = some m ∧
      m.get "message_type" = some (.str (resultType r.payload).text) ∧
      Broker.decode (q.addResult a (newPayload r.payload)) a (q.heap a).results.length
        (resultDecoder B r.payload m) = (.ok (), q') ∧
      (q'.heap a).results[(q.heap a).results.length]? = some r := by
  obtain ⟨m, hm, htype, hops⟩ := resultDecoder_fromResult hB hst hp
  have hnew := q.addResult_last a (newPayload r.payload)
  have h0 : 0 ≤ r.status.raw := by rcases hst with h | h | h <;> rw [h] <;> decide
  obtain ⟨st, p⟩ := r
  cases p with
  | plain =>
    obtain ⟨q', hq, hres⟩ := Broker.decode_setStatus hnew h0
    exact ⟨m, q', hm, htype, hops ▸ hq, hres⟩
  | deviceList | lastValue | setValue =>
    obtain ⟨q', hq, hres⟩ := Broker.decode_setBoth hnew h0 _
    exact ⟨m, q', hm, htype, hops ▸ hq, hres⟩

/-- The message of the tests: a list of devices that was got. -/
theorem device_list_round_trip : ∃ m q', fromResult Sample.base
      ⟨.success, .deviceList [⟨⟨0xa8⟩, 1⟩, ⟨⟨0xa8⟩, 2⟩]⟩ = some m ∧
    m.get "message_type" = some (.str "device_list_result") ∧
    Broker.decode (AnswerQueue.empty.newAnswer.addResult 0 (.deviceList [])) 0 0
      (toServerDeviceListResult Sample.base m) = (.ok (), q') ∧
    (q'.heap 0).results[0]? = some ⟨.success, .deviceList [⟨⟨0xa8⟩, 1⟩, ⟨⟨0xa8⟩, 2⟩]⟩ :=
  result_round_trip Sample.base_lawful (r := ⟨.success, .deviceList [⟨⟨0xa8⟩, 1⟩, ⟨⟨0xa8⟩, 2⟩]⟩)
    (Or.inr (Or.inl rfl)) trivial AnswerQueue.empty.newAnswer 0

end ZMQMessage
end BeeeOn
