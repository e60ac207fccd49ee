import LiberaLink.Idn.Inlets

/-!
# The laser service

A service has two inlets and one output, which it lends to one channel at a time.  The output puts the
chunks into the queue of its adapter, where they keep their decoder alive, and takes back what the
adapter has read.

* `Output`            the output and the queue of its adapter;
* `LaproService`      the service, with the calls that a session makes;
* `ServiceEvent`, `LaproService.run`   a run of calls, and of the polls of the adapter.

The queue is what `queue_calls` makes of it: the chunks that were put and not yet taken back, and how
many of them were read.  Its rings come in only where the adapter is stopped without waiting for it,
which is what `queue_forcedStop` is about.  A poll is two steps, the peek and the read, and all but this
stop may come between them.
-/

namespace LiberaLink.Idn

/-! ## the output -/

inductive OpMode where
  | idle
  | flushing
  | wave
  | frame
  deriving DecidableEq

/-- the output is open -/
def OpMode.active : OpMode → Bool
  | .wave | .frame => true
  | .idle | .flushing => false

inductive ChunkType where
  | wave
  | frameRepeat
  | frameOnce
  deriving DecidableEq

/-- a buffer in the queue, with its memo -/
structure Chunk where
  taxi : TaxiBuffer
  decoder : Nat
  duration : Nat
  sampleCount : Nat
  type : ChunkType
  isDiscontinuous : Bool

structure Output where
  opMode : OpMode
  enabledFlag : Bool
  queue : List Chunk
  /-- how many of them the adapter has read -/
  seen : Nat
  /-- the adapter was stopped in a ring that is not the last one, and its queue gives nothing back -/
  stuck : Bool
  /-- the adapter has peeked at the next chunk and decodes it -/
  polling : Bool

namespace Output

def start : Output := ⟨.idle, false, [], 0, false, false⟩

/-- the blocks in the queue -/
def held (o : Output) : List Nat := o.queue.flatMap fun c => c.taxi.ids

def gracefulStop (o : Output) : Output :=
  if o.seen = o.queue.length then { o with enabledFlag := false, opMode := .idle }
  else { o with opMode := .flushing }

/-- What the adapter has read is freed, and holds its decoder no longer. -/
def recycle (o : Output) (h : Decoders) : Output × Decoders × List Nat :=
  if o.stuck then (o, h, [])
  else
    let trash := o.queue.take o.seen
    ({ o with queue := o.queue.drop o.seen, seen := 0 },
      trash.foldl (fun h c => h.refDec c.decoder) h, trash.flatMap fun c => c.taxi.ids)

/-- The result says whether the output was opened.  A flushing output goes on with its queue. -/
def open' (o : Output) (opMode : OpMode) : Output × Bool :=
  if o.opMode.active then (o, false)
  else if opMode.active then ({ o with enabledFlag := o.enabledFlag || o.opMode = .idle, opMode := opMode }, true)
  else (o, false)

def close (o : Output) (h : Decoders) : Output × Decoders × List Nat :=
  if o.opMode.active then o.gracefulStop.recycle h else (o, h, [])

/-- the chunk for the queue, unless the output is not open -/
def memo (o : Output) (data : ChunkData) : Option Chunk :=
  let chunk (type : ChunkType) (isDiscontinuous : Bool) : Chunk :=
    ⟨data.taxi, data.decoder, data.chunkDuration, data.sampleCount, type, isDiscontinuous⟩
  match o.opMode with
  | .wave => some (chunk .wave data.discontinuous)
  | .frame => some (chunk (if data.scanOnce then .frameOnce else .frameRepeat) false)
  | _ => none

def process (o : Output) (h : Decoders) (data : ChunkData) : Output × Decoders × List Nat :=
  let h := h.refInc data.decoder
  match o.enabledFlag, o.memo data with
  | true, some chunk => { o with queue := o.queue ++ [chunk] }.recycle h
  | _, _ =>
    let (o, h, freed) := o.recycle (h.refDec data.decoder)
    (o, h, data.taxi.ids ++ freed)

/-- The queue is skipped up to its head.  When it is `chained`, which is to say that it goes on in a
ring after the one of the caret, the caret moves to the last ring and leaves the ones before where they
were.  (Any answer is allowed for `chained`: the rings are not kept here.) -/
def forcedStop (o : Output) (h : Decoders) (chained : Bool) : Output × Decoders × List Nat :=
  if chained && !o.stuck && o.seen < o.queue.length then
    let (o, h, freed) := o.recycle h
    ({ o with enabledFlag := false, seen := o.queue.length, stuck := true }, h, freed)
  else { o with enabledFlag := false, seen := o.queue.length }.recycle h

def housekeeping (o : Output) (h : Decoders) (shutdownFlag chained : Bool) :
    Output × Decoders × List Nat :=
  if o.opMode = .idle then (o, h, [])
  else if shutdownFlag then o.forcedStop h chained
  else if o.opMode = .flushing then o.gracefulStop.recycle h
  else o.recycle h

/-- `peekCaret`, under the mutex of the adapter -/
def peekCaret (o : Output) : Output :=
  if o.seen < o.queue.length then { o with polling := true } else o

/-- `readCaret`, at the end of a poll that had something to read -/
def readCaret (o : Output) : Output :=
  if o.polling then { o with seen := o.seen + 1, polling := false } else o

end Output

/-! ## the service -/

inductive InletKind where
  | con
  | dis
  deriving DecidableEq

structure LaproService where
  con : ConInlet
  dis : DisInlet
  currentInlet : Option InletKind
  output : Output
  decoders : Decoders

namespace LaproService

def start (chronCheckValid : Bool) (chronCheckTime chronCheckErrCnt : UInt32) : LaproService where
  con := .start chronCheckValid chronCheckTime chronCheckErrCnt
  dis := .start
  currentInlet := none
  output := .start
  decoders := .empty

/-- the blocks that the service holds -/
def held (s : LaproService) : List Nat := s.dis.held ++ s.output.held

def handlesMode (serviceMode : UInt8) : Bool := 1 ≤ serviceMode && serviceMode ≤ 4

/-- Modes of effects are handled, but no inlet is lent for them. -/
def requestInlet (s : LaproService) (serviceMode : UInt8) : LaproService × Option InletKind :=
  if s.currentInlet.isSome then (s, none)
  else
    let lend (opMode : OpMode) (kind : InletKind) : LaproService × Option InletKind :=
      let (output, opened) := s.output.open' opMode
      if opened then ({ s with output := output, currentInlet := some kind }, some kind)
      else ({ s with output := output }, none)
    if serviceMode = 1 then lend .wave .con
    else if serviceMode = 2 then lend .frame .dis
    else (s, none)

/-- The discrete inlet keeps its configuration, its decoder and its events. -/
def releaseInlet (s : LaproService) (kind : InletKind) : LaproService × List Nat :=
  if s.currentInlet = some kind then
    let (s, freed) : LaproService × List Nat :=
      match kind with
      | .con =>
        let (config, h) := s.con.toConfigInlet.reset s.decoders
        ({ s with con := { s.con with toConfigInlet := config }, decoders := h }, [])
      | .dis =>
        let (dis, freed) := s.dis.reset
        ({ s with dis := dis }, freed)
    let (output, h, trash) := s.output.close s.decoders
    ({ s with currentInlet := none, output := output, decoders := h }, freed ++ trash)
  else (s, [])

/-- a chunk goes to the output; a message without one is freed -/
def pass (s : LaproService) (t : TaxiBuffer) (chunk : Option ChunkData) : LaproService × List Nat :=
  match chunk with
  | none => (s, t.ids)
  | some chunk =>
    let (output, h, freed) := s.output.process s.decoders chunk
    ({ s with output := output, decoders := h }, freed)

def processCon (s : LaproService) (t : TaxiBuffer) : Except BuildFault (LaproService × List Nat) :=
  match s.con.readConfig s.decoders t with
  | .error fault => .error fault
  | .ok (config, h) =>
    let (con, chunk) := ConInlet.dispatch { s.con with toConfigInlet := config } h t
    let (s, freed) := { s with con := con, decoders := h }.pass t chunk
    let (con, h) := s.con.giveUp s.decoders
    .ok ({ s with con := con, decoders := h }, freed)

def processDis (s : LaproService) (t : TaxiBuffer) : Except BuildFault (LaproService × List Nat) :=
  match s.dis.reassemble t with
  | (dis, none, freed) => .ok ({ s with dis := dis }, freed)
  | (dis, some t, freed) =>
    match dis.readConfig s.decoders t with
    | .error fault => .error fault
    | .ok (config, h) =>
      let (dis, chunk) := DisInlet.dispatch { dis with toConfigInlet := config } h t
      let (s, trash) := { s with dis := dis, decoders := h }.pass t chunk
      .ok (s, freed ++ trash)

def process (s : LaproService) : InletKind → TaxiBuffer → Except BuildFault (LaproService × List Nat)
  | .con => s.processCon
  | .dis => s.processDis

def clearPipelineEvents (s : LaproService) : InletKind → UInt32 × LaproService
  | .con =>
    let (events, config) := s.con.clearPipelineEvents
    (events, { s with con := { s.con with toConfigInlet := config } })
  | .dis =>
    let (events, config) := s.dis.clearPipelineEvents
    (events, { s with dis := { s.dis with toConfigInlet := config } })

def housekeeping (s : LaproService) (shutdownFlag chained : Bool) : LaproService × List Nat :=
  let (output, h, freed) := s.output.housekeeping s.decoders shutdownFlag chained
  ({ s with output := output, decoders := h }, freed)

def adapterPeek (s : LaproService) : LaproService := { s with output := s.output.peekCaret }

def adapterRead (s : LaproService) : LaproService := { s with output := s.output.readCaret }

end LaproService

/-! ## runs -/

/-- what happens to a service -/
inductive ServiceEvent where
  | request (serviceMode : UInt8)
  | release (kind : InletKind)
  | process (kind : InletKind) (t : TaxiBuffer)
  | clearEvents (kind : InletKind)
  | housekeeping (shutdownFlag chained : Bool)
  | adapterPeek
  | adapterRead

/-- what a run does not go on after -/
inductive ServiceFault where
  | build (fault : BuildFault)
  /-- The output was stopped by force in the middle of a poll.  Nothing keeps that from happening: `disable`
  waits for the mutex of the adapter, but the caret is moved when the mutex has been given back, and then
  the chunk that the adapter decodes is freed. -/
  | stopInPoll
  deriving DecidableEq

namespace LaproService

/-- an event, and the blocks that it frees -/
def step (s : LaproService) : ServiceEvent → Except ServiceFault (LaproService × List Nat)
  | .request serviceMode => .ok ((s.requestInlet serviceMode).1, [])
  | .release kind => .ok (s.releaseInlet kind)
  | .process kind t =>
    match s.process kind t with
    | .error fault => .error (.build fault)
    | .ok r => .ok r
  | .clearEvents kind => .ok ((s.clearPipelineEvents kind).2, [])
  | .housekeeping shutdownFlag chained =>
    if shutdownFlag ∧ s.output.polling then .error .stopInPoll
    else .ok (s.housekeeping shutdownFlag chained)
  | .adapterPeek => .ok (s.adapterPeek, [])
  | .adapterRead => .ok (s.adapterRead, [])

end LaproService

/-- the blocks that an event hands to the service -/
def ServiceEvent.given : ServiceEvent → List Nat
  | .process _ t => t.ids
  | _ => []

/-- A run, with the blocks that it has freed. -/
def LaproService.run : LaproService × List Nat → List ServiceEvent →
    Except ServiceFault (LaproService × List Nat)
  | r, [] => .ok r
  | r, event :: events =>
    match r.1.step event with
    | .error fault => .error fault
    | .ok (s, freed) => run (s, r.2 ++ freed) events

end LiberaLink.Idn
