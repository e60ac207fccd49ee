import LiberaLink.Idn.Session

/-!
# The IDN server

The server knows its clients by their address and group.  Each has a connection, with a session that
was made for it; datagrams go through the connection into the session, and the housekeeping takes away
connections that were silent and sessions that were abandoned.

* `IDNServer`                      the services, connections and sessions;
* `IDNServer.processRtConnection`  a datagram of a client, with the acknowledgement it asks for;
* `IDNServer.processCommand`       a datagram, by its command;
* `IDNServer.housekeeping`, `IDNServer.shutdown`   what the main loop calls after each wait and at its end;
* `IDNServer.run`                  a run of the main loop, and of the adapters beside it.

A pointer to a session is its number in the order of creation.
-/

namespace LiberaLink.Idn
open IDNService

/-! ## the header of a packet -/

namespace TaxiBuffer

def packetCommand (t : TaxiBuffer) : UInt8 := t.head.byte 0

/-- the client group of a packet -/
def packetGroup (t : TaxiBuffer) : UInt8 := t.head.byte 1 &&& 0x0F

def packetSequence (t : TaxiBuffer) : UInt16 := t.head.word16 2

end TaxiBuffer

/-! ## a connection -/

inductive SockAddr where
  | inet (port : UInt16) (addr : UInt32)
  | inet6 (port : UInt16) (addr : Vector UInt8 16) (flowinfo scopeID : UInt32)
  deriving DecidableEq

structure IDNHelloConnection where
  clientAddr : SockAddr
  clientGroup : UInt8
  inputTimeUS : UInt32
  session : Option Nat
  inputEvents : UInt16
  sequenceValid : Bool
  nextSequence : UInt16
  errCntSequence : UInt32

/-- the events of the input -/
def inputNew : UInt16 := 0x0001
def inputSeqErr : UInt16 := 0x0010
def inputMvErr : UInt16 := 0x0100
def inputIraErr : UInt16 := 0x8000

namespace IDNHelloConnection

def start (clientAddr : SockAddr) (clientGroup : UInt8) (session : Nat) : IDNHelloConnection where
  clientAddr := clientAddr
  clientGroup := clientGroup
  inputTimeUS := 0
  session := some session
  inputEvents := inputNew
  sequenceValid := false
  nextSequence := 0
  errCntSequence := 0

def raise (c : IDNHelloConnection) (event : UInt16) : IDNHelloConnection :=
  { c with inputEvents := c.inputEvents ||| event }

def clientMatch (c : IDNHelloConnection) (addr : SockAddr) (group : UInt8) : Bool :=
  c.clientAddr = addr && c.clientGroup = group

/-- the count of errors stays where it is when it is at its largest -/
def checkSequence (c : IDNHelloConnection) (recvSequence : UInt16) : IDNHelloConnection :=
  let c :=
    if c.sequenceValid ∧ recvSequence ≠ c.nextSequence then
      { c.raise inputSeqErr with
        errCntSequence := if c.errCntSequence ≠ 0xFFFFFFFF then c.errCntSequence + 1 else c.errCntSequence }
    else c
  { c with sequenceValid := true, nextSequence := recvSequence + 1 }

end IDNHelloConnection

/-! ## the sessions -/

/-- what an operation leaves of the sessions and services, with the blocks that it freed -/
structure Floor where
  sessions : List (Nat × ODFSession)
  services : List IDNService

namespace Floor

/-- an operation on the session with a number, if it is still there -/
def onSession (f : Floor) (n : Nat) (op : ODFSession → List IDNService → ODFSession × Served) :
    Floor × List Nat :=
  match f.sessions.findIdx? fun p => p.1 = n with
  | none => (f, [])
  | some i =>
    let p := f.sessions.getD i (n, .start)
    let r := op p.2 f.services
    (⟨f.sessions.set i (p.1, r.1), r.2.services⟩, r.2.freed)

/-- the session of a connection that ends -/
def cleanup (f : Floor) (session : Option Nat) (cancel : ODFSession → List IDNService → ODFSession × Served) :
    Floor × List Nat :=
  match session with
  | none => (f, [])
  | some n => f.onSession n cancel

/-- a message for the session with a number -/
def message (f : Floor) (n : Nat) (t : TaxiBuffer) : Except BuildFault (Floor × List Nat) :=
  match f.sessions.findIdx? fun p => p.1 = n with
  | none => .ok (f, t.ids)
  | some i =>
    let p := f.sessions.getD i (n, .start)
    match p.2.processChannelMessage f.services t with
    | .error fault => .error fault
    | .ok r => .ok (⟨f.sessions.set i (p.1, r.1), r.2.services⟩, r.2.freed)

end Floor

/-! ## a datagram -/

/-- what is wrong with a stream message, as an event -/
def streamError (t : TaxiBuffer) : Option UInt16 :=
  if t.totalSize.toNat ≠ t.getTotalLen then some inputMvErr
  else if t.contentID &&& 0x8000 = 0 then some inputMvErr
  else if t.hasConfig ∧ !(t.coalesce (channelMessageSize + channelConfigSize) &&
      t.coalesce (channelMessageSize + channelConfigSize + t.wordCount.toNat * 4)) then some inputIraErr
  else none

def processStreamMessage (f : Floor) (c : IDNHelloConnection) (t : TaxiBuffer) :
    Except BuildFault (IDNHelloConnection × Floor × List Nat) :=
  match streamError t with
  | some event => .ok (c.raise event, f, t.ids)
  | none =>
    match c.session with
    | none => .ok (c, f, t.ids)
    | some n =>
      match f.message n t with
      | .error fault => .error fault
      | .ok r => .ok (c, r.1, r.2)

/-- a packet without a message is freed -/
def processRtPacket (f : Floor) (c : IDNHelloConnection) (t : TaxiBuffer) :
    Except BuildFault (IDNHelloConnection × Floor × List Nat) :=
  let c := c.checkSequence t.packetSequence
  if t.getTotalLen ≤ packetHeaderSize then .ok (c, f, t.ids)
  else processStreamMessage f c (t.adjustFront packetHeaderSize)

/-- the codes of an acknowledgement -/
def ackNotConnected : UInt8 := 0xEB
def ackExcluded : UInt8 := 0xED
def ackPayload : UInt8 := 0xEE
def ackGeneric : UInt8 := 0xEF

/-- What is wrong with the payload of a packet.  One without a payload keeps its connection. -/
def payloadError (t : TaxiBuffer) : Option UInt8 :=
  if t.getTotalLen = packetHeaderSize then none
  else if t.getTotalLen < packetHeaderSize + channelMessageSize then some ackPayload
  else if !t.coalesce (packetHeaderSize + channelMessageSize) then some ackGeneric
  else if t.getTotalLen < packetHeaderSize + (t.adjustFront packetHeaderSize).totalSize.toNat then
    some ackPayload
  else none

structure RealtimeStatus where
  sessionHasMessages : Bool
  devicesOccupyBuffers : Bool
  latencyValid : Bool
  latencyUS : UInt32
  deriving DecidableEq

structure RtAcknowledge where
  resultCode : UInt8
  inputEventFlags : UInt16
  pipelineEventFlags : UInt16
  statusFlags : UInt8
  latency : UInt32
  deriving DecidableEq

/-- an acknowledgement of a message that was not processed -/
def RtAcknowledge.refuse (resultCode : UInt8) : RtAcknowledge := ⟨resultCode, 0, 0, 0, 0⟩

/-- the flags of the pipeline, and those that stand for them in an acknowledgement -/
def pipelineFlags : List (UInt32 × UInt16) :=
  [(channelRouted, 0x0001), (channelClosed, 0x0002), (channelSmErr, 0x0010), (channelBsyErr, 0x0020),
    (frgErr, 0x0040), (cfgErr, 0x0080), (cktErr, 0x0100), (dcmErr, 0x0200), (ctyErr, 0x0400),
    (mclErr, 0x0800), (0x00008000, 0x8000), (0x00010000, 0x1000), (pvlErr, 0x2000), (0x00040000, 0x4000),
    (0x00800000, 0x8000)]

/-- The source is a number of 16 bits when it is translated. -/
def translateEvents (plFlagsSrc : UInt16) : UInt16 :=
  pipelineFlags.foldl (fun dst p => if plFlagsSrc.toUInt32 &&& p.1 ≠ 0 then dst ||| p.2 else dst) 0

/-- the status of a channel that is connected to a service, which the adapters report -/
def ODFSession.getRealtimeStatus (s : ODFSession) (status : Nat → RealtimeStatus) (id : Option (Fin 64)) :
    RealtimeStatus :=
  let accumulate (sum : RealtimeStatus) (c : IdnChannel) : RealtimeStatus :=
    match c.isOpen && c.connState = .connected, c.serviceHnd with
    | true, some i =>
      let own := status i
      let later := own.latencyValid && (!sum.latencyValid || sum.latencyUS < own.latencyUS)
      { sessionHasMessages := sum.sessionHasMessages || own.sessionHasMessages
        devicesOccupyBuffers := sum.devicesOccupyBuffers || own.devicesOccupyBuffers
        latencyValid := sum.latencyValid || later
        latencyUS := if later then own.latencyUS else sum.latencyUS }
    | _, _ => sum
  match id with
  | some id => accumulate ⟨false, false, false, 0⟩ (s.channel id)
  | none => s.channels.toList.foldl accumulate ⟨false, false, false, 0⟩

/-- The events that are reported are cleared.  Without a channel nothing is asked of the pipeline. -/
def acknowledge (f : Floor) (c : IDNHelloConnection) (status : Nat → RealtimeStatus) (id : Option (Fin 64))
    (resultCode : UInt8) : RtAcknowledge × IDNHelloConnection × Floor :=
  let quiet := { c with inputEvents := 0 }
  match c.session.bind fun n => f.sessions.findIdx? fun p => p.1 = n with
  | none => (⟨resultCode, c.inputEvents, 0, 0, 0⟩, quiet, f)
  | some i =>
    let p := f.sessions.getD i (0, .start)
    let r : UInt16 × ODFSession × List IDNService :=
      match id with
      | none => (0, p.2, f.services)
      | some id => p.2.clearPipelineEvents f.services id
    let rt := r.2.1.getRealtimeStatus status id
    let statusFlags : UInt8 := (if r.2.1.hasOpenChannels then 0x01 else 0) |||
      (if rt.devicesOccupyBuffers then 0x02 else 0) ||| (if rt.sessionHasMessages then 0x04 else 0)
    (⟨resultCode, c.inputEvents, translateEvents r.1, statusFlags, if rt.latencyValid then rt.latencyUS else 0⟩,
      quiet, ⟨f.sessions.set i (p.1, r.2.1), r.2.2⟩)

/-! ## the server -/

structure IDNServer extends Floor where
  connections : List IDNHelloConnection
  clientGroupMask : UInt16
  /-- how many sessions were made -/
  sessionCount : Nat

namespace IDNServer

def start (services : List IDNService) : IDNServer where
  services := services
  sessions := []
  connections := []
  clientGroupMask := 0xFFFF
  sessionCount := 0

def checkExcluded (srv : IDNServer) (group : UInt8) : Bool :=
  srv.clientGroupMask &&& (1 <<< group.toUInt16) = 0

def findConnection (srv : IDNServer) (addr : SockAddr) (group : UInt8) : Option Nat :=
  srv.connections.findIdx? fun c => c.clientMatch addr group

/-- a connection for a new client, with its session -/
def openConnection (srv : IDNServer) (addr : SockAddr) (group : UInt8) : IDNServer :=
  { srv with
    connections := .start addr group srv.sessionCount :: srv.connections
    sessions := (srv.sessionCount, .start) :: srv.sessions
    sessionCount := srv.sessionCount + 1 }

/-- A datagram of a client with a connection.  One with a payload that is not a message is cropped, and
goes on as if it had none. -/
def processConnected (srv : IDNServer) (i : Nat) (c : IDNHelloConnection) (close : Bool)
    (ack : Option (Nat → RealtimeStatus)) (t : TaxiBuffer) :
    Except BuildFault (Option RtAcknowledge × IDNServer × List Nat) :=
  let error := payloadError t
  let id := if error.isNone then some (t.adjustFront packetHeaderSize).channel else none
  let t := if error.isNone then t else t.cropPayload packetHeaderSize
  match processRtPacket srv.toFloor { c with inputTimeUS := t.head.sourceRefTime } t with
  | .error fault => .error fault
  | .ok r =>
    let a : Option RtAcknowledge × IDNHelloConnection × Floor :=
      match ack with
      | none => (none, r.1, r.2.1)
      | some status =>
        let a := acknowledge r.2.1 r.1 status id (error.getD 0)
        (some a.1, a.2)
    if close then
      let f := a.2.2.cleanup a.2.1.session ODFSession.cancelGracefully
      .ok (a.1, { srv with toFloor := f.1, connections := srv.connections.eraseIdx i }, r.2.2 ++ f.2)
    else
      .ok (a.1, { srv with toFloor := a.2.2, connections := srv.connections.set i a.2.1 }, r.2.2)

/-- A client without a connection gets one, unless all it has to say is that it closes. -/
def processRtConnection (srv : IDNServer) (addr : SockAddr) (close : Bool)
    (ack : Option (Nat → RealtimeStatus)) (t : TaxiBuffer) :
    Except BuildFault (Option RtAcknowledge × IDNServer × List Nat) :=
  match srv.findConnection addr t.packetGroup with
  | some i =>
    srv.processConnected i (srv.connections.getD i (.start addr t.packetGroup 0)) close ack t
  | none =>
    if close ∧ t.getTotalLen = packetHeaderSize then
      .ok (ack.map fun _ => .refuse ackNotConnected, srv, t.ids)
    else
      (srv.openConnection addr t.packetGroup).processConnected 0
        (.start addr t.packetGroup srv.sessionCount) close ack t

/-- an abort of the client -/
def abort (srv : IDNServer) (addr : SockAddr) (group : UInt8) : IDNServer × List Nat :=
  match srv.findConnection addr group with
  | none => (srv, [])
  | some i =>
    let c := srv.connections.getD i (.start addr group 0)
    let f := srv.toFloor.cleanup c.session ODFSession.cancelImmediately
    ({ srv with toFloor := f.1, connections := srv.connections.eraseIdx i }, f.2)

/-- A datagram.  The other commands are questions, whose answers change nothing here. -/
def processCommand (srv : IDNServer) (addr : SockAddr) (status : Nat → RealtimeStatus) (t : TaxiBuffer) :
    Except BuildFault (Option RtAcknowledge × IDNServer × List Nat) :=
  let message (close : Bool) (ack : Option (Nat → RealtimeStatus)) :=
    if srv.checkExcluded t.packetGroup then
      .ok (ack.map fun _ => .refuse ackExcluded, srv, t.ids)
    else srv.processRtConnection addr close ack t
  if t.getTotalLen < packetHeaderSize ∨ !t.coalesce packetHeaderSize then .ok (none, srv, t.ids)
  else if t.packetCommand = 0x40 then message false none
  else if t.packetCommand = 0x41 then message false (some status)
  else if t.packetCommand = 0x44 then message true none
  else if t.packetCommand = 0x45 then message true (some status)
  else if t.packetCommand = 0x46 then
    let r := srv.abort addr t.packetGroup
    .ok (none, r.1, r.2 ++ t.ids)
  else .ok (none, srv, t.ids)

/-! ## the housekeeping -/

/-- the connections that go on, after the others were taken from their sessions -/
def dropConnections (f : Floor) (drop : IDNHelloConnection → Bool) :
    List IDNHelloConnection → List IDNHelloConnection × Floor × List Nat
  | [] => ([], f, [])
  | c :: cs =>
    if drop c then
      let r := f.cleanup c.session ODFSession.cancelImmediately
      let r' := dropConnections r.1 drop cs
      (r'.1, r'.2.1, r.2 ++ r'.2.2)
    else
      let r' := dropConnections f drop cs
      (c :: r'.1, r'.2.1, r'.2.2)

/-- the sessions that go on -/
def checkSessions (services : List IDNService) (envTimeUS : UInt32) :
    List (Nat × ODFSession) → List (Nat × ODFSession) × Served
  | [] => ([], ⟨services, []⟩)
  | p :: ps =>
    let r := p.2.checkTeardown services envTimeUS
    let r' := checkSessions r.2.2.services envTimeUS ps
    (if r.1 then r'.1 else (p.1, r.2.1) :: r'.1, ⟨r'.2.services, r.2.2.freed ++ r'.2.freed⟩)

/-- the sessions are cancelled and deleted -/
def cancelSessions (services : List IDNService) : List (Nat × ODFSession) → Served
  | [] => ⟨services, []⟩
  | p :: ps =>
    let r := p.2.cancelImmediately services
    let r' := cancelSessions r.2.services ps
    ⟨r'.services, r.2.freed ++ r'.freed⟩

/-- the housekeeping of the services; `chained` says which queues go on in a ring that their adapter
has not come to -/
def serviceHousekeeping (shutdownFlag : Bool) : List IDNService → List Bool → Served
  | [], _ => ⟨[], []⟩
  | s :: ss, chained =>
    let r := s.lapro.housekeeping shutdownFlag (chained.headD false)
    let r' := serviceHousekeeping shutdownFlag ss chained.tail
    ⟨{ s with lapro := r.1 } :: r'.services, r.2 ++ r'.freed⟩

def housekeeping (srv : IDNServer) (envTimeUS : UInt32) : IDNServer × List Nat :=
  let d := dropConnections srv.toFloor (fun c => ODFSession.timedOut envTimeUS c.inputTimeUS) srv.connections
  let s := checkSessions d.2.1.services envTimeUS d.2.1.sessions
  let k := serviceHousekeeping false s.2.services []
  ({ srv with connections := d.1, sessions := s.1, services := k.services }, d.2.2 ++ s.2.freed ++ k.freed)

/-- some adapter is in the middle of a poll -/
def polling (services : List IDNService) : Bool := services.any fun s => s.lapro.output.polling

/-- The housekeeping at the time 0, which is the end of the server.  It stops the outputs by force. -/
def shutdown (srv : IDNServer) (chained : List Bool) : Except ServiceFault (IDNServer × List Nat) :=
  let d := dropConnections srv.toFloor (fun _ => true) srv.connections
  let s := cancelSessions d.2.1.services d.2.1.sessions
  if polling s.services then .error .stopInPoll
  else
    let k := serviceHousekeeping true s.services chained
    .ok ({ srv with connections := d.1, sessions := [], services := k.services },
      d.2.2 ++ s.freed ++ k.freed)

end IDNServer

/-! ## runs -/

/-- what happens to the server -/
inductive ServerEvent where
  | datagram (addr : SockAddr) (status : Nat → RealtimeStatus) (t : TaxiBuffer)
  | housekeeping (envTimeUS : UInt32)
  | shutdown (chained : List Bool)
  /-- the adapter of a service begins with a chunk -/
  | adapterPeek (service : Nat)
  /-- the adapter of a service is done with its chunk -/
  | adapterRead (service : Nat)

/-- the blocks that an event hands to the server -/
def ServerEvent.given : ServerEvent → List Nat
  | .datagram _ _ t => t.ids
  | _ => []

namespace IDNServer

/-- an event, and the blocks that it frees -/
def step (srv : IDNServer) : ServerEvent → Except ServiceFault (IDNServer × List Nat)
  | .datagram addr status t =>
    match srv.processCommand addr status t with
    | .error fault => .error (.build fault)
    | .ok r => .ok r.2
  | .housekeeping envTimeUS => .ok (srv.housekeeping envTimeUS)
  | .shutdown chained => srv.shutdown chained
  | .adapterPeek i =>
    let r := onService srv.services i (fun s => (s.adapterPeek, ())) ()
    .ok ({ srv with services := r.1 }, [])
  | .adapterRead i =>
    let r := onService srv.services i (fun s => (s.adapterRead, ())) ()
    .ok ({ srv with services := r.1 }, [])

/-- A run, with the blocks that it has freed. -/
def run : IDNServer × List Nat → List ServerEvent → Except ServiceFault (IDNServer × List Nat)
  | r, [] => .ok r
  | r, event :: events =>
    match r.1.step event with
    | .error fault => .error fault
    | .ok r' => run (r'.1, r.2 ++ r'.2) events

end IDNServer

end LiberaLink.Idn
