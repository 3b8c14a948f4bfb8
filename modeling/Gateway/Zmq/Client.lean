import Gateway.Schemes.Lts
import Gateway.Schemes.Since
import Gateway.Zmq.Hello

/-! @src zmq/ZMQClient.cpp, zmq/ZMQConnector.cpp, jablotron/JablotronDeviceManager.cpp |
    name:The client of a device manager | family:handshake

    A device manager starts its client thread and, a second later, asks for its device list. The client
    thread says hello, waits for its id and only then makes the data socket, on which the manager sends
    and on which errors found on either socket are reported. Nothing makes the manager wait for the
    handshake, and an error on the hello socket comes before the data socket by nature; so a send finds
    its socket exactly if the manager happens to come later and the handshake goes well
    (`sends_iff`). -/

namespace BeeeOn
open Schemes
variable {V : Type}

namespace ZMQClient
open ZMQBroker (Socket Hello parsed)

/-- What a client is given: the base library, the prefix of its manager, and whether the handler of
    `onReceive` raises. -/
structure Platform (V : Type) where
  base : Base V
  devicePrefix : DevicePrefix
  onReceive : ZMQMessage → Except Exn Unit

/-- Where the client thread is in `run`. -/
inductive Place where
  | idle | handshake | data | ended | raised
  deriving DecidableEq, Repr

/-- Where the thread of the manager is: before `runClient`, before `getDeviceList`, in its loop. -/
inductive Manager where
  | starting | asking | running | raised
  deriving DecidableEq, Repr

/-- `sends` are the sends on `m_dataServerSocket`, each with whether the socket was there; `out` are the
    messages that have left. -/
structure State where
  client : Place
  manager : Manager
  deviceManagerID : Option DeviceManagerID
  dataSocket : Bool
  stop : Bool
  helloSent : List ZMQMessage
  sends : List (ZMQMessage × Bool)
  out : List ZMQMessage

/-- How `configureDataSockets` ends once it has made the socket: connected; not connected, which stops
    the client; or with an exception about the address. -/
inductive Outcome where
  | connected | refused | raised
  deriving DecidableEq, Repr

inductive Label where
  | runClient
  | getDeviceList (id : GlobalID)
  | send (m : ZMQMessage)
  | hello (json : String)
  | configure (o : Outcome)
  | data (json : String)
  | stop
  | leave

variable (P : Platform V)

/-- `ZMQUtil::send` on the data socket; a null pointer raises. -/
def send (s : State) (m : ZMQMessage) : Except Exn Unit × State :=
  (if s.dataSocket then .ok () else .error .nullPointer,
    { s with
      sends := s.sends ++ [(m, s.dataSocket)]
      out := if s.dataSocket then s.out ++ [m] else s.out })

def sendError (s : State) (e : ZMQMessageError) (message : String) : Except Exn Unit × State :=
  send s (.fromError e message)

/-- `parseMessage` with the data socket: what it does with an error is to send it. -/
def parseMessage (s : State) (json : String) : Except Exn (Option ZMQMessage) × State :=
  let r := ZMQBroker.parseMessage P.base ⟨[], fun _ => []⟩ json .data
  match r.2.sent .data with
  | [] => (r.1, s)
  | m :: _ => ((send s m).1.bind fun _ => r.1, (send s m).2)

/-- The messages of the hello socket: the response gives the client its id. -/
def handleHello (s : State) (m : ZMQMessage) : Except Exn Unit × State :=
  match m.type P.base with
  | .ok .helloResponse => match m.toHelloResponse P.base with
    | .ok id => (.ok (), { s with deviceManagerID := some id })
    | .error e => (.error e, s)
  | .ok _ => sendError s .unsupportedMessage "unsupported message type"
  | .error e => (.error e, s)

def helloServerReceive (s : State) (json : String) : Except Exn Unit × State :=
  match parseMessage P s json with
  | (.ok (some m), s) => handleHello P s m
  | (.ok none, s) => (.ok (), s)
  | (.error e, s) => (.error e, s)

def dataServerReceive (s : State) (json : String) : Except Exn Unit × State :=
  match parseMessage P s json with
  | (.ok (some m), s) => (P.onReceive m, s)
  | (.ok none, s) => (.ok (), s)
  | (.error e, s) => (.error e, s)

/-- An exception ends the client thread. -/
def clientEnded : Except Exn Unit × State → State
  | (.ok _, s) => s
  | (.error _, s) => { s with client := .raised }

/-- A send of the manager's thread; an exception ends it. -/
def managerSends (s : State) (m : ZMQMessage) : State :=
  let r := send s m
  { r.2 with manager := if r.1.isOk then .running else .raised }

/-- The message of `getDeviceList`. -/
def deviceListMessage (id : GlobalID) : ZMQMessage :=
  (ZMQMessage.fromServerDeviceListCommand P.base P.devicePrefix).setID P.base id

/-- `configureDataSockets`: the socket is there before the address is looked at. -/
def configureDataSockets (s : State) : Outcome → State
  | .connected => { s with dataSocket := true, client := .data }
  | .refused => { s with dataSocket := true, client := .data, stop := true }
  | .raised => { s with dataSocket := true, client := .raised }

/-- The thread of the client beside that of the manager. -/
def system : Lts State Label where
  step s
    | .runClient => match s.manager with
      | .starting => some
          { s with
            manager := .asking
            client := .handshake
            helloSent := s.helloSent ++ [ZMQMessage.fromHelloRequest P.base P.devicePrefix] }
      | _ => none
    | .getDeviceList id => match s.manager with
      | .asking => some (managerSends s (deviceListMessage P id))
      | _ => none
    | .send m => match s.manager with
      | .running => some (managerSends s m)
      | _ => none
    | .hello json => match s.client, s.deviceManagerID, s.stop with
      | .handshake, none, false => some (clientEnded (helloServerReceive P s json))
      | _, _, _ => none
    | .configure o => match s.client, s.deviceManagerID, s.stop with
      | .handshake, some _, false => some (configureDataSockets s o)
      | _, _, _ => none
    | .data json => match s.client, s.stop with
      | .data, false => some (clientEnded (dataServerReceive P s json))
      | _, _ => none
    | .stop => some { s with stop := true }
    | .leave => match s.client, s.stop with
      | .handshake, true | .data, true => some { s with client := .ended }
      | _, _ => none

def init : State := ⟨.idle, .starting, none, false, false, [], [], []⟩

/-- Every send has found its socket. -/
def OnSocket (s : State) : Prop := ∀ x ∈ s.sends, x.2 = true

/-- The string is one that the client reports as an error: malformed, without a message type or with an
    unknown one, or no hello response. -/
def Reported (json : String) : Prop :=
  match parsed P.base json with
  | .ok m => ∃ t, m.type P.base = .ok t ∧ t ≠ .helloResponse
  | .error e => e = .invalidAccess ∨ e = .invalidArgument ∨ e = .syntaxError

/-- The condition on a step, given what came before: the manager sends after the data socket has been
    configured, and nothing comes on the hello socket that is reported as an error. -/
def InOrder (pre : List Label) : Label → Prop
  | .getDeviceList _ | .send _ => ∃ o, .configure o ∈ pre
  | .hello json => ¬ Reported P json
  | _ => True

variable {P} {s t : State}

theorem onSocket_send (s : State) (m : ZMQMessage) :
    OnSocket (send s m).2 ↔ OnSocket s ∧ s.dataSocket = true := by
  simp [OnSocket, send, or_imp, forall_and]

/-- What a receive leaves of the state: it may have learnt the id and sent something. -/
def Received (s t : State) : Prop :=
  t.client = s.client ∧ t.manager = s.manager ∧ t.dataSocket = s.dataSocket ∧ t.stop = s.stop

/-- Parsing reports an error if there is one to report, and else leaves the state as it is. -/
theorem parseMessage_cases (s : State) (json : String) :
    (∃ m, parsed P.base json = .ok m ∧ parseMessage P s json = (.ok (some m), s)) ∨
    (∃ e, parsed P.base json = .error e ∧ ¬ Reported P json ∧ parseMessage P s json = (.error e, s)) ∨
    ∃ m x, Reported P json ∧ parseMessage P s json = (x, (send s m).2) ∧ ∀ y, x ≠ .ok (some y) := by
  unfold parseMessage ZMQBroker.parseMessage Reported
  cases h : parsed P.base json with
  | ok m => exact Or.inl ⟨m, rfl, rfl⟩
  | error e =>
    refine Or.inr ?_
    cases e with
    | invalidAccess => exact Or.inr ⟨_, _, by simp, rfl, by simp [Except.bind]; split <;> simp⟩
    | invalidArgument => exact Or.inr ⟨_, _, by simp, rfl, by simp [Except.bind]; split <;> simp⟩
    | syntaxError => exact Or.inr ⟨_, _, by simp, rfl, by simp [Except.bind]; split <;> simp⟩
    | range | nullPointer | existing | other => exact Or.inl ⟨_, rfl, by simp, rfl⟩

/-- A string on the hello socket is reported with one send, or nothing is sent. -/
theorem hello_cases (s : State) (json : String) : Received s (helloServerReceive P s json).2 ∧
    ((Reported P json ∧ ∃ m, (helloServerReceive P s json).2.sends = s.sends ++ [(m, s.dataSocket)]) ∨
      (¬ Reported P json ∧ (helloServerReceive P s json).2.sends = s.sends)) := by
  unfold helloServerReceive
  rcases parseMessage_cases (P := P) s json with ⟨m, hm, h⟩ | ⟨e, he, hno, h⟩ | ⟨m, x, hyes, h, hx⟩ <;>
    rw [h]
  · have hrep : Reported P json ↔ ∃ t, m.type P.base = .ok t ∧ t ≠ .helloResponse := by
      rw [Reported, hm]
    rw [hrep]
    simp only [handleHello]
    cases ht : m.type P.base with
    | error e => exact ⟨⟨rfl, rfl, rfl, rfl⟩, Or.inr ⟨by simp, rfl⟩⟩
    | ok t =>
      by_cases hresponse : t = .helloResponse
      · subst hresponse
        simp only
        split <;> exact ⟨⟨rfl, rfl, rfl, rfl⟩, Or.inr ⟨by simp, rfl⟩⟩
      · cases t <;> first
          | exact absurd rfl hresponse
          | exact ⟨⟨rfl, rfl, rfl, rfl⟩, Or.inl ⟨⟨_, rfl, hresponse⟩, _, rfl⟩⟩
  · exact ⟨⟨rfl, rfl, rfl, rfl⟩, Or.inr ⟨hno, rfl⟩⟩
  · match x, hx with
    | .ok none, _ => exact ⟨⟨rfl, rfl, rfl, rfl⟩, Or.inl ⟨hyes, m, rfl⟩⟩
    | .ok (some y), hx => exact absurd rfl (hx y)
    | .error e, _ => exact ⟨⟨rfl, rfl, rfl, rfl⟩, Or.inl ⟨hyes, m, rfl⟩⟩

/-- A string on the data socket comes when the socket is there. -/
theorem data_cases (hs : s.dataSocket = true) (json : String) :
    Received s (dataServerReceive P s json).2 ∧
      (OnSocket (dataServerReceive P s json).2 ↔ OnSocket s) := by
  unfold dataServerReceive
  rcases parseMessage_cases (P := P) s json with ⟨m, hm, h⟩ | ⟨e, he, hno, h⟩ | ⟨m, x, hyes, h, hx⟩ <;>
    rw [h]
  · exact ⟨⟨rfl, rfl, rfl, rfl⟩, Iff.rfl⟩
  · exact ⟨⟨rfl, rfl, rfl, rfl⟩, Iff.rfl⟩
  · have hsends : OnSocket (send s m).2 ↔ OnSocket s :=
      (onSocket_send s m).trans (and_iff_left hs)
    match x, hx with
    | .ok none, _ => exact ⟨⟨rfl, rfl, rfl, rfl⟩, hsends⟩
    | .ok (some y), hx => exact absurd rfl (hx y)
    | .error e, _ => exact ⟨⟨rfl, rfl, rfl, rfl⟩, hsends⟩

/-- What each step is, with its guard. -/
theorem step_cases {l : Label} (h : (system P).step s l = some t) : match l with
    | .runClient => s.manager = .starting ∧ t =
        { s with
          manager := .asking
          client := .handshake
          helloSent := s.helloSent ++ [ZMQMessage.fromHelloRequest P.base P.devicePrefix] }
    | .getDeviceList id => s.manager = .asking ∧ t = managerSends s (deviceListMessage P id)
    | .send m => s.manager = .running ∧ t = managerSends s m
    | .hello json => s.client = .handshake ∧ s.deviceManagerID = none ∧ s.stop = false ∧
        t = clientEnded (helloServerReceive P s json)
    | .configure o => s.client = .handshake ∧ s.deviceManagerID.isSome ∧ s.stop = false ∧
        t = configureDataSockets s o
    | .data json => s.client = .data ∧ s.stop = false ∧ t = clientEnded (dataServerReceive P s json)
    | .stop => t = { s with stop := true }
    | .leave => (s.client = .handshake ∨ s.client = .data) ∧ s.stop = true ∧
        t = { s with client := .ended } := by
  cases l with
  | runClient | getDeviceList | send =>
    simp only [system] at h
    split at h <;> cases h
    rename_i hm
    exact ⟨hm, rfl⟩
  | hello json =>
    simp only [system] at h
    split at h <;> cases h
    rename_i hclient hid hstop
    exact ⟨hclient, hid, hstop, rfl⟩
  | configure o =>
    simp only [system] at h
    split at h <;> cases h
    rename_i hclient hid hstop
    exact ⟨hclient, by rw [hid]; rfl, hstop, rfl⟩
  | data json =>
    simp only [system] at h
    split at h <;> cases h
    rename_i hclient hstop
    exact ⟨hclient, hstop, rfl⟩
  | stop =>
    cases h
    rfl
  | leave =>
    simp only [system] at h
    split at h <;> cases h
    · rename_i hclient hstop
      exact ⟨Or.inl hclient, hstop, rfl⟩
    · rename_i hclient hstop
      exact ⟨Or.inr hclient, hstop, rfl⟩

/-! ### Runs -/

/-- What ties the state to the labels so far: the socket is there once it has been configured, which
    happens between the handshake and the data loop; and the sends have been in order. -/
structure Inv (ls : List Label) (s : State) : Prop where
  socket : s.dataSocket = true ↔ ∃ o, .configure o ∈ ls
  starting : s.manager = .starting → s.client = .idle ∧ s.dataSocket = false
  handshake : s.client = .handshake → s.dataSocket = false
  data : s.client = .data → s.dataSocket = true
  sends : OnSocket s ↔ Throughout (InOrder P) ls

theorem inv_init : Inv (P := P) [] init where
  socket := by simp [init]
  starting _ := ⟨rfl, rfl⟩
  handshake := nofun
  data := nofun
  sends := iff_of_true (by simp [OnSocket, init]) throughout_nil

/-- Another label than `configure`, which keeps the socket. -/
theorem Inv.socket_append {ls : List Label} (hI : Inv (P := P) ls s)
    (hsocket : t.dataSocket = s.dataSocket) {l : Label} (hl : ∀ o, l ≠ .configure o) :
    t.dataSocket = true ↔ ∃ o, .configure o ∈ ls ++ [l] := by
  rw [hsocket, hI.socket]
  refine exists_congr fun o => ?_
  simp [(hl o).symm]

theorem clientEnded_eq (r : Except Exn Unit × State) :
    clientEnded r = r.2 ∨ clientEnded r = { r.2 with client := .raised } := by
  unfold clientEnded
  split
  · exact Or.inl rfl
  · exact Or.inr rfl

/-- A step of the client thread that keeps its place or ends it. -/
theorem Inv.received {ls : List Label} (hI : Inv (P := P) ls s) {l : Label}
    {r : Except Exn Unit × State} (hl : ∀ o, l ≠ .configure o) (hr : Received s r.2)
    (hplace : s.client ≠ .idle) (hsends : OnSocket r.2 ↔ Throughout (InOrder P) (ls ++ [l])) :
    Inv (P := P) (ls ++ [l]) (clientEnded r) := by
  obtain ⟨hclient, hmanager, hsocket, -⟩ := hr
  rcases clientEnded_eq r with h | h <;> rw [h]
  · refine ⟨hI.socket_append hsocket hl, fun hm => ?_, fun hc => ?_, fun hc => ?_, hsends⟩
    · exact absurd (hI.starting (hmanager ▸ hm)).1 hplace
    · rw [hsocket]; exact hI.handshake (hclient ▸ hc)
    · rw [hsocket]; exact hI.data (hclient ▸ hc)
  · refine ⟨hI.socket_append hsocket hl, fun hm => ?_, nofun, nofun, hsends⟩
    exact absurd (hI.starting (hmanager ▸ hm)).1 hplace

/-- A send of the manager. -/
theorem Inv.managerSends {ls : List Label} (hI : Inv (P := P) ls s) {l : Label} (m : ZMQMessage)
    (hl : ∀ o, l ≠ .configure o) (horder : InOrder P ls l ↔ ∃ o, .configure o ∈ ls) :
    Inv (P := P) (ls ++ [l]) (managerSends s m) := by
  refine ⟨hI.socket_append rfl hl, fun hm => ?_, hI.handshake, hI.data, ?_⟩
  · simp only [ZMQClient.managerSends] at hm
    split_ifs at hm
  · rw [throughout_concat, ← hI.sends, horder, ← hI.socket]
    exact onSocket_send s m

/-- A string on the hello socket comes before there is a socket for a report. -/
theorem Inv.hello {ls : List Label} (hI : Inv (P := P) ls s) (hclient : s.client = .handshake)
    (json : String) :
    Inv (P := P) (ls ++ [.hello json]) (clientEnded (helloServerReceive P s json)) := by
  obtain ⟨hr, hsends⟩ := hello_cases (P := P) s json
  refine hI.received nofun hr (by rw [hclient]; decide) ?_
  rw [throughout_concat, ← hI.sends, InOrder]
  rcases hsends with ⟨hrep, m, hm⟩ | ⟨hno, hm⟩
  · refine iff_of_false (fun hon => ?_) fun hand => hand.2 hrep
    have hfalse := hon (m, s.dataSocket) (by rw [hm]; simp)
    rw [hI.handshake hclient] at hfalse
    cases hfalse
  · rw [OnSocket, hm]
    exact (and_iff_left hno).symm

/-- The data socket is made, whatever else comes of it. -/
theorem Inv.configure {ls : List Label} (hI : Inv (P := P) ls s) (hclient : s.client = .handshake)
    (o : Outcome) : Inv (P := P) (ls ++ [.configure o]) (configureDataSockets s o) := by
  have hplace : ¬ s.manager = .starting := fun hm => by
    rw [(hI.starting hm).1] at hclient
    cases hclient
  have hsends : OnSocket s ↔ Throughout (InOrder P) (ls ++ [.configure o]) := by
    rw [throughout_concat, ← hI.sends]
    exact (and_iff_left trivial).symm
  have hmem : ∃ o', .configure o' ∈ ls ++ [.configure o] := ⟨o, by simp⟩
  cases o with
  | connected => exact ⟨iff_of_true rfl hmem, fun hm => absurd hm hplace, nofun, fun _ => rfl, hsends⟩
  | refused => exact ⟨iff_of_true rfl hmem, fun hm => absurd hm hplace, nofun, fun _ => rfl, hsends⟩
  | raised => exact ⟨iff_of_true rfl hmem, fun hm => absurd hm hplace, nofun, nofun, hsends⟩

theorem inv_step {ls : List Label} (hI : Inv (P := P) ls s) {l : Label}
    (h : (system P).step s l = some t) : Inv (P := P) (ls ++ [l]) t := by
  -- a label without a condition leaves the sends in order
  have hsends : InOrder P ls l → (OnSocket s ↔ Throughout (InOrder P) (ls ++ [l])) := by
    intro horder
    rw [throughout_concat, ← hI.sends]
    exact (and_iff_left horder).symm
  have hcases := step_cases h
  cases l with
  | runClient =>
    obtain ⟨hm, rfl⟩ := hcases
    obtain ⟨-, hsocket⟩ := hI.starting hm
    exact ⟨hI.socket_append rfl nofun, nofun, fun _ => hsocket, nofun, hsends trivial⟩
  | getDeviceList id =>
    obtain ⟨-, rfl⟩ := hcases
    exact hI.managerSends _ nofun Iff.rfl
  | send m =>
    obtain ⟨-, rfl⟩ := hcases
    exact hI.managerSends m nofun Iff.rfl
  | hello json =>
    obtain ⟨hclient, -, -, rfl⟩ := hcases
    exact hI.hello hclient json
  | configure o =>
    obtain ⟨hclient, -, -, rfl⟩ := hcases
    exact hI.configure hclient o
  | data json =>
    obtain ⟨hclient, -, rfl⟩ := hcases
    obtain ⟨hr, hdata⟩ := data_cases (P := P) (hI.data hclient) json
    exact hI.received nofun hr (by rw [hclient]; decide) (hdata.trans (hsends trivial))
  | stop =>
    rw [show t = { s with stop := true } from hcases]
    exact ⟨hI.socket_append rfl nofun, hI.starting, hI.handshake, hI.data, hsends trivial⟩
  | leave =>
    obtain ⟨hclient, -, rfl⟩ := hcases
    refine ⟨hI.socket_append rfl nofun, fun hm => ?_, nofun, nofun, hsends trivial⟩
    rcases hclient with hc | hc <;> rw [(hI.starting hm).1] at hc <;> cases hc

/-- In every run, for any order of the two threads and any strings on the sockets: every send has found
    the data socket exactly if the manager has sent only after it was configured, and no string on the
    hello socket was reported as an error. -/
theorem sends_iff {ls : List Label} {u : State} (h : (system P).run init ls = some u) :
    (∀ pre post s, ls = pre ++ post → (system P).run init pre = some s → OnSocket s) ↔
      Throughout (InOrder P) ls := by
  have hinv : ∀ {ls s}, (system P).run init ls = some s → Inv (P := P) ls s :=
    fun h => (system P).run_hist inv_init (fun _ _ _ _ _ hI hl => inv_step hI hl) h
  constructor
  · intro hall
    exact (hinv h).sends.mp (hall ls [] u (by simp) h)
  · rintro hC pre post s rfl hs
    exact (hinv hs).sends.mpr hC.left

/-! ### Two handshakes -/

def responseText : String :=
  "\x7b\"message_type\":\"hello_response\",\"device_manager_id\":\"A800\"\x7d"

/-- A Z-Wave manager, with a parser that knows the response of the broker. -/
def zwave : Platform Reading where
  base := { Sample.base with
    parseJson := fun s =>
      if s = responseText then
        .ok [("message_type", .str "hello_response"), ("device_manager_id", .str "A800")]
      else .error .syntaxError }
  devicePrefix := ⟨0xa8⟩
  onReceive _ := .ok ()

/-- The response comes before the manager asks for its devices. -/
def inTime : List Label := [.runClient, .hello responseText, .configure .connected, .getDeviceList ⟨7⟩]

theorem in_time_sends :
    (∃ u, (system zwave).run init inTime = some u ∧ u.out = [deviceListMessage zwave ⟨7⟩]) ∧
    ∀ (pre post : List Label) (s : State), inTime = pre ++ post →
      (system zwave).run init pre = some s → OnSocket s := by
  obtain ⟨u, h, hout⟩ : ∃ u, (system zwave).run init inTime = some u ∧
      u.out = [deviceListMessage zwave ⟨7⟩] := ⟨_, rfl, rfl⟩
  refine ⟨⟨u, h, hout⟩, (sends_iff h).mpr ?_⟩
  rintro (_ | ⟨_, _ | ⟨_, _ | ⟨_, _ | ⟨_, as⟩⟩⟩⟩) l bs heq
  · cases heq; trivial
  · cases heq
    rintro ⟨t, ht, hne⟩
    cases ht
    exact hne rfl
  · cases heq; trivial
  · cases heq; exact ⟨.connected, by simp⟩
  · simp [inTime] at heq

/-- The manager asks before the response has come: its thread ends with a null pointer. -/
theorem asks_too_early : ¬ ∀ (ls : List Label) (s : State),
    (system zwave).run init ls = some s → OnSocket s := by
  intro h
  have hon := h [.runClient, .getDeviceList ⟨7⟩] _ rfl
  exact absurd (hon _ List.mem_cons_self) (by decide)

end ZMQClient
end BeeeOn
