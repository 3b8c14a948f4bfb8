import Gateway.Managers.Receiving

/-! @src z-wave/ZWaveDeviceManager.cpp, jablotron/JablotronDeviceManager.cpp, zmq/ZMQMessage.cpp |
    name:What becomes of a command | family:functional correctness

    The broker writes a command of the server into a message, and the manager that receives it reads it
    and does what it says. On the way a time is cut to whole seconds, a value becomes the number that its
    text is read as, and a module id, which is written in hexadecimal, is read as decimal (`heard`). Up to
    that the handlers do what the command says (`onEvent_command`); if it cannot be read, they raise before
    they have done anything. -/

namespace BeeeOn
open Schemes
variable {V D : Type}

/-- A command as it is read where it has been written. -/
def Command.heard (B : Base V) : Command V → Except Exn (Command V)
  | .gatewayListen duration => .ok (.gatewayListen (SECONDS * totalSeconds duration))
  | .deviceUnpair deviceID => .ok (.deviceUnpair deviceID)
  | .deviceSetValue deviceID moduleID value timeout => do
    let value ← B.parseFloat (B.floatText value)
    let moduleID ← ModuleID.parse B moduleID.toString
    return .deviceSetValue deviceID moduleID value (SECONDS * totalSeconds timeout)
  | c => .ok c

namespace ZMQMessage
variable {B : Base V}

theorem totalSeconds_range (span : ℤ) : -2 ^ 31 ≤ totalSeconds span ∧ totalSeconds span < 2 ^ 31 := by
  have hle := Int.le_bmod (x := span.tdiv SECONDS) (m := 2 ^ 32) (by decide)
  have hlt := Int.bmod_lt (x := span.tdiv SECONDS) (m := 2 ^ 32) (by decide)
  rw [totalSeconds]
  omega

theorem toGatewayListenCommand_from (hB : B.Lawful) (id : GlobalID) (duration : ℤ) :
    toGatewayListenCommand B (fromGatewayListenCommand B id duration) =
      Command.heard B (.gatewayListen duration) := by
  have hget : (fromGatewayListenCommand B id duration).get "duration" =
      some (.num (totalSeconds duration)) := JsonObject.get_set_self _ _ _
  obtain ⟨hlo, hhi⟩ := totalSeconds_range duration
  rw [toGatewayListenCommand, getDuration, hB.extractInt_num hget hlo hhi]
  rfl

theorem toDeviceUnpairCommand_from (hB : B.Lawful) (id : GlobalID) (deviceID : DeviceID) :
    toDeviceUnpairCommand B (fromDeviceUnpairCommand B id deviceID) =
      Command.heard B (.deviceUnpair deviceID) := by
  have hget : (fromDeviceUnpairCommand B id deviceID).get "device_id" =
      some (.str (B.deviceIDText deviceID)) := JsonObject.get_set_self _ _ _
  rw [toDeviceUnpairCommand, getDeviceID_of_get hB hget]
  rfl

theorem toDeviceSetValueCommand_from (hB : B.Lawful) (id : GlobalID) (deviceID : DeviceID)
    (moduleID : ModuleID) (value : V) (timeout : ℤ) :
    toDeviceSetValueCommand B (fromDeviceSetValueCommand B id deviceID moduleID value timeout) =
      Command.heard B (.deviceSetValue deviceID moduleID value timeout) := by
  set m := fromDeviceSetValueCommand B id deviceID moduleID value timeout with hm
  set o : JsonObject := setModuleID (setValue B [] value) moduleID with ho
  obtain ⟨hlo, hhi⟩ := totalSeconds_range timeout
  have hobj : m.getObject "values" = .ok o := by
    rw [JsonObject.getObject, hm, fromDeviceSetValueCommand, JsonObject.get_set_self]
  have hid : m.get "device_id" = some (.str (B.deviceIDText deviceID)) := by
    rw [hm, fromDeviceSetValueCommand, JsonObject.get_set_ne _ _ (by decide)]
    exact JsonObject.get_set_self _ _ _
  have htime : m.get "timeout" = some (.num (totalSeconds timeout)) := by
    rw [hm, fromDeviceSetValueCommand, JsonObject.get_set_ne _ _ (by decide), setDeviceID,
      JsonObject.get_set_ne _ _ (by decide)]
    exact JsonObject.get_set_self _ _ _
  have hmod : o.get "module_id" = some (.str moduleID.toString) := JsonObject.get_set_self _ _ _
  have hraw : o.get "raw" = some (.str (B.floatText value)) := by
    rw [ho, setModuleID, JsonObject.get_set_ne _ _ (by decide), setValue,
      JsonObject.get_set_ne _ _ (by decide), JsonObject.get_set_self]
  have htype : o.get "type" = some (.str ZMQMessageValueType.double.text) := by
    rw [ho, setModuleID, JsonObject.get_set_ne _ _ (by decide), setValue, JsonObject.get_set_self]
  rw [toDeviceSetValueCommand, Command.heard, hobj]
  simp only [bind, Except.bind, getValue_of_get hB hraw htype, getDeviceID_of_get hB hid,
    getModuleID_of_get hB hmod, getTimeout, hB.extractInt_num htime hlo hhi]
  cases B.parseFloat (B.floatText value) with
  | error e => rfl
  | ok v => cases ModuleID.parse B moduleID.toString <;> rfl

end ZMQMessage

namespace Receiving
variable (B : Base V) (K : Kind V D)

/-- What a manager does on a command that it has read. -/
def perform (s : State V D) : Command V → Except Exn Unit × State V D
  | .gatewayListen duration =>
    let window := s.window.doListenCommand (0 ≤ ·) duration
    (if window.raised = s.window.raised then raising K.addNode else .error .other,
      { s with window := window })
  | .deviceUnpair deviceID =>
    let t := { s with devices := s.devices.erase deviceID }
    match K.startUnpair s.unpair with
    | .ok timer => (.ok (), { t with unpair := timer })
    | .error e => (.error e, t)
  | .deviceSetValue deviceID moduleID value _ =>
    let r := K.setValue deviceID moduleID value s.device
    (r.1, { s with device := r.2 })
  -- `onEvent` has no case for these
  | .serverDeviceList _ | .serverLastValue _ _ | .other _ => (.ok (), s)

/-- What a manager does on a command that has been written: it reads it, which may raise. -/
def execute (s : State V D) (cmd : Command V) : Except Exn Unit × State V D :=
  match cmd.heard B with
  | .ok c => perform K s c
  | .error e => (.error e, s)

variable {B K}

/-- A manager that receives the message of a command does what the command says. -/
theorem onEvent_command (hB : B.Lawful) (ht : ∀ t : ZMQMessageType, B.parseMessageType t.text = .ok t)
    {cmd : Command V} {id : GlobalID} {m : ZMQMessage}
    (hm : ZMQMessage.fromCommand B id cmd = .ok m) (s : State V D) :
    onEvent B K s m = execute B K s cmd := by
  have htype : ∀ t : ZMQMessageType, m.get "message_type" = some (.str t.text) → m.type B = .ok t := by
    intro t hget
    rw [ZMQMessage.type, hB.extractString_str hget]
    exact ht t
  cases cmd with
  | gatewayListen duration =>
    obtain rfl := Except.ok.inj hm
    rw [onEvent, htype .listenCmd rfl, execute]
    dsimp only
    rw [doListenCommand, ZMQMessage.toGatewayListenCommand_from hB]
    rfl
  | deviceUnpair deviceID =>
    obtain rfl := Except.ok.inj hm
    rw [onEvent, htype .deviceUnpairCmd rfl, execute]
    dsimp only
    rw [doDeviceUnpairCommand, ZMQMessage.toDeviceUnpairCommand_from hB]
    rfl
  | deviceSetValue deviceID moduleID value timeout =>
    obtain rfl := Except.ok.inj hm
    rw [onEvent, htype .setValuesCmd rfl, execute]
    dsimp only
    rw [doSetValueCommand, ZMQMessage.toDeviceSetValueCommand_from hB, Command.heard]
    cases B.parseFloat (B.floatText value) with
    | error e => rfl
    | ok v => cases ModuleID.parse B moduleID.toString <;> rfl
  | serverDeviceList p =>
    obtain rfl := Except.ok.inj hm
    rw [onEvent, htype .deviceListCmd rfl]
    rfl
  | serverLastValue deviceID moduleID =>
    obtain rfl := Except.ok.inj hm
    rw [onEvent, htype .deviceLastValueCmd rfl]
    rfl
  | other name => cases hm

end Receiving
end BeeeOn
