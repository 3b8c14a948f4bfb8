import Gateway.Managers.Origin
import Gateway.Zmq.Origin

/-! @src zmq/ZMQBroker.cpp, zmq/ZMQClient.cpp, core/DeviceManager.cpp | name:The managers and the broker |
    family:distributed system

    The device managers, the broker and the sockets between them as one system. A manager's requests go
    to the broker in the order in which they are sent; the broker takes them one at a time, under the
    identity of the socket that they come from, and addresses its replies by identity. Besides replies
    the broker sends the commands of the server. Any message may be lost on the way.

    The parts are the systems of `Requests` and `DeviceManager`, which here are given what the others
    send; every step is a step of one part (`Inv.managers`, `Inv.broker`), so that what is known of a
    part alone holds of it here. -/

namespace BeeeOn
open Schemes
variable {V W : Type}

namespace Network

/-- `toBroker` and `toManager` are the messages on the way from and to each manager. `steps` and `work`
    are histories: what each manager has done, and what the broker has done. -/
structure State (V W : Type) where
  managers : DeviceManagerID → DeviceManager.State V W
  broker : Requests.State V
  toBroker : DeviceManagerID → List ZMQMessage
  toManager : DeviceManagerID → List ZMQMessage
  steps : DeviceManagerID → List DeviceManager.Label
  work : List (Requests.Label V)

inductive Label (V : Type) where
  /-- a step of manager `k` other than to receive -/
  | manager (k : DeviceManagerID) (l : DeviceManager.Label)
  /-- manager `k` receives the next message that is for it -/
  | deliver (k : DeviceManagerID)
  /-- the broker receives the next message of manager `k` -/
  | receive (k : DeviceManagerID)
  | task (w : Requests.Work V)
  /-- a step of `checkQueue`; what has never been set is read as `unset` -/
  | drain (d : Requests.Drain) (unset : V × SetStatus)
  /-- `handle` sends a command of the server -/
  | command (k : DeviceManagerID) (m : ZMQMessage)
  | lost (k : DeviceManagerID)
  | lostReply (k : DeviceManagerID)

variable (B : Base V) (conv : V → W) (hs : List (CommandHandler V))

/-! ### The broker's side of the sockets -/

/-- What a message with a request in it comes to: an answer is made before the message is decoded. -/
def asked (manager : DeviceManagerID) : Except Exn (Command V) → Except Exn GlobalID → Requests.Work V
  | .ok cmd, .ok id => .request manager id cmd
  | _, _ => .malformed

/-- `dataServerReceive` on a message from the socket of manager `k`, where it comes to the queue. -/
def handleDataMessage (k : DeviceManagerID) (m : ZMQMessage) : Option (Requests.Work V) :=
  match DeviceManagerID.parse B k.toString, m.type B with
  | .ok manager, .ok .deviceListCmd => some (asked manager (m.toDeviceListRequest B) (m.id B))
  | .ok manager, .ok .deviceLastValueCmd =>
    some (asked manager (m.toServerLastValueCommand B) (m.id B))
  | _, _ => none

/-- The payload as `fromResult` finds it; a member that has never been set holds anything. -/
def found (unset : V × SetStatus) : Payload V → Payload V
  | .lastValue none => .lastValue (some unset.1)
  | .setValue none => .setValue (some unset.2)
  | p => p

/-- The message for a reply. -/
def message (unset : V × SetStatus) (x : Reply V) : Option ZMQMessage :=
  (ZMQMessage.fromResult B ⟨x.result.status, found unset x.result.payload⟩).map (·.setID B x.id)

/-- The messages for the replies `xs` of the broker go on the sockets that they are addressed to. -/
def post (unset : V × SetStatus) (sockets : DeviceManagerID → List ZMQMessage) (xs : List (Reply V)) :
    DeviceManagerID → List ZMQMessage :=
  fun k => sockets k ++ (xs.filter (·.deviceManagerID = k)).filterMap (message B unset)

/-! ### The system -/

/-- Manager `k` goes to the state `t`; what it has sent is on the way. -/
def State.advance (s : State V W) (k : DeviceManagerID) (l : DeviceManager.Label)
    (t : DeviceManager.State V W) : State V W :=
  { s with
    managers := Function.update s.managers k t
    toBroker := Function.update s.toBroker k (s.toBroker k ++ t.out.drop (s.managers k).out.length)
    steps := Function.update s.steps k (s.steps k ++ [l]) }

/-- The broker goes to the state `b`. -/
def State.brokers (s : State V W) (l : Requests.Label V) (b : Requests.State V) : State V W :=
  { s with broker := b, work := s.work ++ [l] }

/-- The next message of manager `k` reaches the broker, or is lost. -/
def State.take (s : State V W) (k : DeviceManagerID) : State V W :=
  { s with toBroker := Function.update s.toBroker k (s.toBroker k).tail }

def State.takeReply (s : State V W) (k : DeviceManagerID) : State V W :=
  { s with toManager := Function.update s.toManager k (s.toManager k).tail }

def manager (s : State V W) (k : DeviceManagerID) : DeviceManager.Label → Option (State V W)
  | .receive _ => none
  | l => ((DeviceManager.system B conv).step (s.managers k) l).map (s.advance k l)

def deliver (s : State V W) (k : DeviceManagerID) : Option (State V W) :=
  (s.toManager k).head?.bind fun m =>
    ((DeviceManager.system B conv).step (s.managers k) (.receive m)).map
      ((s.takeReply k).advance k (.receive m))

/-- The broker receives where it is not in `checkQueue`. -/
def receive (s : State V W) (k : DeviceManagerID) : Option (State V W) :=
  match s.broker.pc, (s.toBroker k).head? with
  | .idle, some m => match handleDataMessage B k m with
    | some w => (Requests.work hs s.broker w).map ((s.take k).brokers (.work w))
    | none => some (s.take k)
  | _, _ => none

def task (s : State V W) : Requests.Work V → Option (State V W)
  | .request _ _ _ | .malformed => none
  | w => (Requests.work hs s.broker w).map (s.brokers (.work w))

def drain (s : State V W) (d : Requests.Drain) (unset : V × SetStatus) : Option (State V W) :=
  (Requests.drain s.broker d).map fun b =>
    { s.brokers (.drain d) b with
      toManager := post B unset s.toManager (b.out.drop s.broker.out.length) }

def system : Lts (State V W) (Label V) where
  step s
    | .manager k l => manager B conv s k l
    | .deliver k => deliver B conv s k
    | .receive k => receive B hs s k
    | .task w => task hs s w
    | .drain d unset => drain B s d unset
    | .command k m =>
      if DeviceManager.isReply B m then none
      else some { s with toManager := Function.update s.toManager k (s.toManager k ++ [m]) }
    | .lost k => some (s.take k)
    | .lostReply k => some (s.takeReply k)

def init : State V W :=
  ⟨fun _ => DeviceManager.init, Requests.init, fun _ => [], fun _ => [], fun _ => [], []⟩

end Network
end BeeeOn
