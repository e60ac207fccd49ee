import Mathlib.Data.List.FinRange
import LiberaLink.Idn.Service

/-!
# The sessions of the IDN server

A session has 64 channels.  A message opens its channel, routes it to a service and closes it, as the
flags of its configuration say, and goes into the inlet that the service has lent to the channel.

* `IdnChannel`, `ODFSession`        the state of a channel and of a session;
* `IDNService`                   a service in the list of the server;
* `ODFSession.processChannelMessage`   a message, from the opening of its channel to the close;
* `ODFSession.reset`, `ODFSession.checkTeardown`   what ends a session.

A handle is the place of a service in the list, which does not change while the server runs.  Each
operation says what became of the services and which blocks were freed.
-/

namespace LiberaLink.Idn

/-! ## the services -/

structure IDNService where
  serviceID : UInt8
  isDefaultService : Bool
  lapro : LaproService

/-- what an operation leaves of the services, with the blocks that it freed -/
structure Served where
  services : List IDNService
  freed : List Nat

namespace IDNService

/-- an operation on the service behind a handle -/
def onService {β : Type} (services : List IDNService) (i : Nat) (f : LaproService → LaproService × β)
    (nothing : β) : List IDNService × β :=
  match services[i]? with
  | none => (services, nothing)
  | some s => (services.set i { s with lapro := (f s.lapro).1 }, (f s.lapro).2)

def getService (services : List IDNService) (serviceID : UInt8) : Option Nat :=
  services.findIdx? fun s => s.serviceID = serviceID

def getDefaultService (services : List IDNService) (serviceMode : UInt8) : Option Nat :=
  services.findIdx? fun s => s.isDefaultService && LaproService.handlesMode serviceMode

def releaseConduit (services : List IDNService) (i : Nat) (kind : InletKind) : Served :=
  let r := onService services i (fun s => s.releaseInlet kind) []
  ⟨r.1, r.2⟩

/-- a message for the inlet that a service has lent -/
def input (services : List IDNService) (i : Nat) (kind : InletKind) (t : TaxiBuffer) :
    Except BuildFault Served :=
  match services[i]? with
  | none => .ok ⟨services, []⟩
  | some s =>
    match s.lapro.process kind t with
    | .error fault => .error fault
    | .ok r => .ok ⟨services.set i { s with lapro := r.1 }, r.2⟩

end IDNService

open IDNService

/-! ## a channel -/

inductive ConnState where
  | unconnected
  | serviceError
  | conduitError
  | connected
  deriving DecidableEq

structure IdnChannel where
  isOpen : Bool
  connState : ConnState
  serviceID : UInt8
  serviceMode : UInt8
  serviceHnd : Option Nat
  conduitHnd : Option InletKind
  deriving DecidableEq

namespace IdnChannel

def closed : IdnChannel := ⟨false, .unconnected, 0, 0, none, none⟩

/-- What the channel holds is given back.  (A conduit without a service is only forgotten.) -/
def releaseHandles (c : IdnChannel) (services : List IDNService) : IdnChannel × Served :=
  let free := { c with serviceHnd := none, conduitHnd := none }
  match c.serviceHnd, c.conduitHnd with
  | some i, some kind => (free, releaseConduit services i kind)
  | _, _ => (free, ⟨services, []⟩)

end IdnChannel

/-- the number of the channel has six bits -/
theorem TaxiBuffer.channelID_lt (t : TaxiBuffer) : t.channelID < 64 := by
  rw [TaxiBuffer.channelID, UInt16.toNat_shiftRight, UInt16.toNat_and]
  have hmask : t.contentID.toNat &&& (0x3F00 : UInt16).toNat ≤ 0x3F00 := Nat.and_le_right
  rw [Nat.shiftRight_eq_div_pow]
  exact Nat.div_lt_of_lt_mul (Nat.lt_of_le_of_lt hmask (by decide))

def TaxiBuffer.channel (t : TaxiBuffer) : Fin 64 := ⟨t.channelID, t.channelID_lt⟩

/-! ## the session -/

inductive SessionState where
  | attached
  | abandoned
  | closing
  | detached
  deriving DecidableEq

def channelRouted : UInt32 := 0x00000001
def channelClosed : UInt32 := 0x00000002
def channelSmErr : UInt32 := 0x00000010
def channelBsyErr : UInt32 := 0x00000020

structure ODFSession where
  channels : Vector IdnChannel 64
  openChannelCount : Nat
  pipelineEvents : Vector UInt32 64
  sessionState : SessionState
  inputTimeValid : Bool
  inputTimeUS : UInt32

namespace ODFSession

def start : ODFSession where
  channels := .replicate 64 .closed
  openChannelCount := 0
  pipelineEvents := .replicate 64 channelClosed
  sessionState := .attached
  inputTimeValid := false
  inputTimeUS := 0

def channel (s : ODFSession) (id : Fin 64) : IdnChannel := s.channels[id]

def events (s : ODFSession) (id : Fin 64) : UInt32 := s.pipelineEvents[id]

def setChannel (s : ODFSession) (id : Fin 64) (c : IdnChannel) : ODFSession :=
  { s with channels := s.channels.set id c }

def setEvents (s : ODFSession) (id : Fin 64) (events : UInt32) : ODFSession :=
  { s with pipelineEvents := s.pipelineEvents.set id events }

def raise (s : ODFSession) (id : Fin 64) (event : UInt32) : ODFSession :=
  s.setEvents id (s.events id ||| event)

def hasOpenChannels (s : ODFSession) : Bool := s.openChannelCount ≠ 0

def openChannel (s : ODFSession) (id : Fin 64) : ODFSession :=
  let s := s.setChannel id { s.channel id with isOpen := true }
  { s with openChannelCount := s.openChannelCount + 1 }.setEvents id channelRouted

def closeChannel (s : ODFSession) (services : List IDNService) (id : Fin 64) : ODFSession × Served :=
  let r := (s.channel id).releaseHandles services
  let s := s.setChannel id .closed
  ({ s with openChannelCount := s.openChannelCount - 1 }.setEvents id channelClosed, r.2)

/-- The first service that fits; without an id it must be a default service that knows the mode. -/
def requestService (services : List IDNService) (serviceID serviceMode : UInt8) : Option Nat :=
  if serviceID ≠ 0 then getService services serviceID else getDefaultService services serviceMode

/-- the inlet that a service lends, or the event that says why it lends none -/
def requestConduit (services : List IDNService) (i : Nat) (serviceMode : UInt8) :
    List IDNService × Except UInt32 InletKind :=
  if LaproService.handlesMode serviceMode then
    let r := onService services i (fun s => s.requestInlet serviceMode) none
    match r.2 with
    | none => (r.1, .error channelBsyErr)
    | some kind => (r.1, .ok kind)
  else (services, .error channelSmErr)

/-- A channel is connected to a service.  Mode 0 connects it to none. -/
def connect (s : ODFSession) (services : List IDNService) (id : Fin 64) (serviceID serviceMode : UInt8) :
    ODFSession × List IDNService :=
  let c := { s.channel id with serviceID := serviceID, serviceMode := serviceMode }
  if serviceMode = 0 then (s.setChannel id { c with connState := .connected }, services)
  else
    match requestService services serviceID serviceMode with
    | none => ((s.setChannel id { c with connState := .serviceError }).raise id channelSmErr, services)
    | some i =>
      let r := requestConduit services i serviceMode
      match r.2 with
      | .error event => ((s.setChannel id { c with connState := .conduitError }).raise id event, r.1)
      | .ok kind =>
        (s.setChannel id { c with connState := .connected, serviceHnd := some i, conduitHnd := some kind }, r.1)

/-- A channel that is connected to another service or mode is disconnected first. -/
def route (s : ODFSession) (services : List IDNService) (id : Fin 64) (serviceID serviceMode : UInt8) :
    ODFSession × Served :=
  let c := s.channel id
  if c.connState = .connected ∧ c.serviceID = serviceID ∧ c.serviceMode = serviceMode then
    (s, ⟨services, []⟩)
  else
    let r : IdnChannel × Served :=
      if c.connState = .connected then c.releaseHandles services else (c, ⟨services, []⟩)
    let r' := (s.setChannel id { r.1 with connState := .unconnected }).connect r.2.services id
      serviceID serviceMode
    (r'.1, ⟨r'.2, r.2.freed⟩)

/-- a message for the service of its channel; one that has none is freed -/
def pass (s : ODFSession) (services : List IDNService) (t : TaxiBuffer) : Except BuildFault Served :=
  match (s.channel t.channel).serviceHnd with
  | none => .ok ⟨services, t.ids⟩
  | some i =>
    match (s.channel t.channel).conduitHnd with
    | none => .ok ⟨services, t.ids⟩
    | some kind => input services i kind t

/-- an open channel, and what the flags of its message say to do with it -/
def processOpen (s : ODFSession) (services : List IDNService) (t : TaxiBuffer) :
    Except BuildFault (ODFSession × Served) :=
  let r : ODFSession × Served :=
    if t.sentFlags &&& 0x01 ≠ 0 then s.route services t.channel t.configServiceID t.configServiceMode
    else (s, ⟨services, []⟩)
  match r.1.pass r.2.services t with
  | .error fault => .error fault
  | .ok r' =>
    if t.sentFlags &&& 0x02 ≠ 0 then
      let r'' := r.1.closeChannel r'.services t.channel
      .ok (r''.1, ⟨r''.2.services, r.2.freed ++ r'.freed ++ r''.2.freed⟩)
    else .ok (r.1, ⟨r'.services, r.2.freed ++ r'.freed⟩)

/-- The time of the session is that of the message, also when the message is dropped.  (The number of
its channel cannot be too large.) -/
def processChannelMessage (s : ODFSession) (services : List IDNService) (t : TaxiBuffer) :
    Except BuildFault (ODFSession × Served) :=
  let s := { s with inputTimeUS := t.head.sourceRefTime, inputTimeValid := true }
  if t.hasConfig ∧ t.totalSize < 12 then .ok (s, ⟨services, t.ids⟩)
  else if (s.channel t.channel).isOpen then s.processOpen services t
  else if t.sentFlags &&& 0x01 = 0 then .ok (s, ⟨services, t.ids⟩)
  else (s.openChannel t.channel).processOpen services t

/-- closes a channel that is open -/
def cancel (s : ODFSession) (services : List IDNService) (id : Fin 64) : ODFSession × Served :=
  if (s.channel id).isOpen then s.closeChannel services id else (s, ⟨services, []⟩)

/-- the channels with these numbers are closed, one after the other -/
def cancelAll (s : ODFSession) (services : List IDNService) : List (Fin 64) → ODFSession × Served
  | [] => (s, ⟨services, []⟩)
  | id :: ids =>
    let r := s.cancel services id
    let r' := cancelAll r.1 r.2.services ids
    (r'.1, ⟨r'.2.services, r.2.freed ++ r'.2.freed⟩)

def reset (s : ODFSession) (services : List IDNService) : ODFSession × Served :=
  let r := s.cancelAll services (List.finRange 64)
  ({ r.1 with inputTimeValid := false }, r.2)

/-- Both ways to cancel a session close its channels and abandon it. -/
def cancelSession (s : ODFSession) (services : List IDNService) : ODFSession × Served :=
  let r := s.reset services
  ({ r.1 with sessionState := .abandoned }, r.2)

def cancelGracefully (s : ODFSession) (services : List IDNService) : ODFSession × Served :=
  s.cancelSession services

def cancelImmediately (s : ODFSession) (services : List IDNService) : ODFSession × Served :=
  s.cancelSession services

/-- `a` is later than `b` by more than a second, as signed numbers of 32 bits go -/
def timedOut (a b : UInt32) : Bool := 1000000 < a - b && a - b < 0x80000000

/-- The result says whether the session is to be deleted. -/
def checkTeardown (s : ODFSession) (services : List IDNService) (envTimeUS : UInt32) :
    Bool × ODFSession × Served :=
  if s.sessionState = .abandoned then (true, s, ⟨services, []⟩)
  else
    let r : ODFSession × Served :=
      if s.inputTimeValid ∧ timedOut envTimeUS s.inputTimeUS then s.reset services
      else (s, ⟨services, []⟩)
    (!r.1.inputTimeValid && r.1.sessionState = .detached, r.1, r.2)

/-- The events of a channel and of its inlet since the last call, in a number of 16 bits. -/
def clearPipelineEvents (s : ODFSession) (services : List IDNService) (id : Fin 64) :
    UInt16 × ODFSession × List IDNService :=
  let own := s.events id
  let s' := s.setEvents id (own &&& channelClosed)
  match (s.channel id).serviceHnd, (s.channel id).conduitHnd with
  | some i, some kind =>
    let r := onService services i (fun s => ((s.clearPipelineEvents kind).2, (s.clearPipelineEvents kind).1)) 0
    (own.toUInt16 ||| r.2.toUInt16, s', r.1)
  | _, _ => (own.toUInt16, s', services)

end ODFSession

end LiberaLink.Idn
