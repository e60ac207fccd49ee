import LiberaLink.Idn.Chunks

/-!
# The inlets of the laser service

A channel puts its messages into an inlet.  The inlet keeps the decoder for the configuration that it
saw last, checks each chunk against it, and passes the chunk on; the discrete inlet first puts the
fragments of a frame together.

* `Decoders`                    the decoders, each with the number of its holders;
* `ConfigInlet.readConfig`      the configuration of a message, and what it makes of the decoder;
* `openChunk`                   the headers of a chunk, and what is checked of it;
* `ConInlet.process`            the continuous inlet, with its check of the time stamps;
* `DisInlet.process`            the discrete inlet, with `DisInlet.reassemble`.

What an inlet frees is a list of blocks, in the order of the calls.
-/

namespace LiberaLink.Idn

/-! ## the decoders -/

/-- Every decoder that was made, in order, with its `refCount`; that of a deleted one is 0.  A pointer
to a decoder is its number. -/
structure Decoders where
  cells : List (IDNLaproDecoder × Nat)
  /-- a decoder was touched after it was deleted -/
  fault : Bool

namespace Decoders

def empty : Decoders := ⟨[], false⟩

def refCount (h : Decoders) (d : Nat) : Nat := (h.cells[d]?.map Prod.snd).getD 0

/-- a new decoder has one holder -/
def create (h : Decoders) (decoder : IDNLaproDecoder) : Decoders :=
  { h with cells := h.cells ++ [(decoder, 1)] }

/-- the count stays where it is when it is at its largest -/
def refInc (h : Decoders) (d : Nat) : Decoders where
  cells := h.cells.modify d fun c => (c.1, if c.2 < 0xFFFFFFFF then c.2 + 1 else c.2)
  fault := h.fault || h.refCount d = 0

/-- the last holder deletes the decoder -/
def refDec (h : Decoders) (d : Nat) : Decoders where
  cells := h.cells.modify d fun c => (c.1, c.2 - 1)
  fault := h.fault || h.refCount d = 0

/-- `refDec` through a pointer that may be null -/
def release (h : Decoders) : Option Nat → Decoders
  | none => h
  | some d => h.refDec d

/-- the decoder behind a pointer -/
def decoder? (h : Decoders) (d : Nat) : Option IDNLaproDecoder := h.cells[d]?.map Prod.fst

end Decoders

/-! ## the configuration -/

/-- the events of the pipeline -/
def frgErr : UInt32 := 0x00000100
def cfgErr : UInt32 := 0x00000200
def cktErr : UInt32 := 0x00000400
def dcmErr : UInt32 := 0x00000800
def ctyErr : UInt32 := 0x00001000
def mclErr : UInt32 := 0x00002000
def pvlErr : UInt32 := 0x00020000

/-- the flags of the configuration that a message has, if any -/
def TaxiBuffer.sentFlags (t : TaxiBuffer) : UInt8 := if t.hasConfig then t.configFlags else 0

structure ConfigInlet where
  pipelineEvents : UInt32
  configValid : Bool
  keptConfigFlags : UInt8
  keptConfigWordCnt : UInt8
  /-- the words that are kept, byte by byte -/
  keptConfigWords : List UInt8
  decoder : Option Nat

namespace ConfigInlet

def start : ConfigInlet where
  pipelineEvents := 0
  configValid := false
  keptConfigFlags := 0
  keptConfigWordCnt := 0
  keptConfigWords := []
  decoder := none

def raise (inlet : ConfigInlet) (event : UInt32) : ConfigInlet :=
  { inlet with pipelineEvents := inlet.pipelineEvents ||| event }

def clearPipelineEvents (inlet : ConfigInlet) : UInt32 × ConfigInlet :=
  (inlet.pipelineEvents, { inlet with pipelineEvents := 0 })

def invalidateConfig (inlet : ConfigInlet) (h : Decoders) : ConfigInlet × Decoders :=
  ({ inlet with
      configValid := false
      keptConfigFlags := 0
      keptConfigWordCnt := 0
      keptConfigWords := []
      decoder := none },
    h.release inlet.decoder)

/-- the result says whether there is a decoder now -/
def createDecoder (inlet : ConfigInlet) (h : Decoders) (param : List UInt8) :
    Except BuildFault (Bool × ConfigInlet × Decoders) :=
  let h := h.release inlet.decoder
  if param.length = 0 then .ok (false, { inlet with decoder := none }, h)
  else
    match buildFrom param with
    | .error fault => .error fault
    | .ok none => .ok (false, { inlet with decoder := none }, h)
    | .ok (some decoder) =>
      .ok (true, { inlet with decoder := some h.cells.length }, h.create decoder)

/-- the configuration differs from the one that is kept -/
def changed (inlet : ConfigInlet) (t : TaxiBuffer) : Bool :=
  t.wordCount ≠ inlet.keptConfigWordCnt || t.configWords ≠ inlet.keptConfigWords

/-- what becomes of a valid configuration when a message has one -/
def checkConfig (inlet : ConfigInlet) (h : Decoders) (t : TaxiBuffer) : ConfigInlet × Decoders :=
  if inlet.configValid && inlet.changed t then inlet.invalidateConfig h else (inlet, h)

/-- a decoder for the configuration of a message, which is kept when it was made -/
def makeConfig (inlet : ConfigInlet) (h : Decoders) (t : TaxiBuffer) :
    Except BuildFault (ConfigInlet × Decoders) :=
  match inlet.createDecoder h t.configWords with
  | .error fault => .error fault
  | .ok (false, inlet, h) => .ok (inlet.raise cfgErr, h)
  | .ok (true, inlet, h) =>
    .ok ({ inlet with
      configValid := true
      keptConfigWordCnt := t.wordCount
      keptConfigWords := t.configWords }, h)

/-- The number of words is a byte, so that every configuration fits into the cache. -/
def renewConfig (inlet : ConfigInlet) (h : Decoders) (t : TaxiBuffer) :
    Except BuildFault (ConfigInlet × Decoders) :=
  if inlet.configValid then .ok (inlet, h) else inlet.makeConfig h t

/-- the flags of a valid configuration, which the chunks are compared with -/
def keepFlags (inlet : ConfigInlet) (configFlags : UInt8) : ConfigInlet :=
  if inlet.configValid then { inlet with keptConfigFlags := configFlags } else inlet

def readConfig (inlet : ConfigInlet) (h : Decoders) (t : TaxiBuffer) :
    Except BuildFault (ConfigInlet × Decoders) :=
  if t.sentFlags &&& 0x01 = 0 then .ok (inlet, h)
  else
    let (inlet, h) := inlet.checkConfig h t
    match inlet.renewConfig h t with
    | .error fault => .error fault
    | .ok (inlet, h) => .ok (inlet.keepFlags t.sentFlags, h)

def reset (inlet : ConfigInlet) (h : Decoders) : ConfigInlet × Decoders :=
  let (inlet, h) := inlet.invalidateConfig h
  ({ inlet with pipelineEvents := 0 }, h)

end ConfigInlet

/-! ## a chunk -/

/-- what an inlet says of a chunk, with the buffer that is left of its message -/
structure ChunkData where
  decoder : Nat
  chunkDuration : Nat
  sampleCount : Nat
  discontinuous : Bool
  scanOnce : Bool
  taxi : TaxiBuffer

/-- the message without its header and its configuration -/
def unwrap (t : TaxiBuffer) : TaxiBuffer :=
  let u := t.adjustFront channelMessageSize
  if t.hasConfig then u.adjustFront (channelConfigSize + t.wordCount.toNat * 4) else u

/-- The checks that every chunk goes through, with the event of the one that fails.  `tooShort` says
what count of samples and what duration do not make a chunk. -/
def openChunk (inlet : ConfigInlet) (h : Decoders) (tooShort : Nat → Nat → Bool) (t : TaxiBuffer) :
    Except UInt32 ChunkData :=
  match inlet.configValid, inlet.decoder.bind fun d => (h.decoder? d).map (d, ·) with
  | true, some (d, decoder) =>
    let u := unwrap t
    let flagsDuration := u.flagsDuration
    let chunkFlags := (flagsDuration >>> 24).toUInt8
    let data := u.adjustFront sampleChunkSize
    if data.getTotalLen % decoder.sampleSize ≠ 0 then .error pvlErr
    else
      let chunkDuration := (flagsDuration &&& 0x00FFFFFF).toNat
      let sampleCount := data.getTotalLen / decoder.sampleSize
      if chunkFlags &&& 0x30 ≠ inlet.keptConfigFlags &&& 0x30 then .error dcmErr
      else if tooShort sampleCount chunkDuration then .error mclErr
      else
        .ok {
          decoder := d
          chunkDuration := chunkDuration
          sampleCount := sampleCount
          discontinuous := false
          scanOnce := chunkFlags &&& 0x01 ≠ 0
          taxi := data }
  | _, _ => .error cfgErr

/-- **No check looks whether there is a header of the samples.**  What a chunk takes for its samples is
inside the block of its message if and only if there is one. -/
theorem openChunk_inside {inlet : ConfigInlet} {h : Decoders} {tooShort : Nat → Nat → Bool} {t : TaxiBuffer}
    {chunk : ChunkData} (hopen : openChunk inlet h tooShort t = .ok chunk)
    (hinside : (unwrap t).head.Inside) (hblock : (unwrap t).head.blockLen < 65536) :
    chunk.taxi.head.Inside ↔ sampleChunkSize ≤ (unwrap t).head.payloadLen.toNat := by
  have htaxi : chunk.taxi = (unwrap t).adjustFront sampleChunkSize := by
    unfold openChunk at hopen
    split at hopen
    · dsimp only at hopen
      split at hopen
      · cases hopen
      · split at hopen
        · cases hopen
        · split at hopen
          · cases hopen
          · obtain rfl := Except.ok.inj hopen
            rfl
    · cases hopen
  rw [htaxi]
  exact Fragment.inside_drop _ hinside hblock (by decide)

/-- a wave that ends with its one configuration word, in front of other memory -/
example :
    let bytes : List UInt8 := [0, 16, 0xC0, 0x01, 0, 0, 0, 0, 1, 0, 0, 1, 0, 0, 0, 0, 0, 0, 16, 0]
    let t := TaxiBuffer.received 0 (fun i => bytes.getD i 0) 16 0
    let inlet : ConfigInlet := { ConfigInlet.start with configValid := true, decoder := some 0 }
    let x : IDNLaproDecoder := ⟨[{ type := .x, precision := 1 }], 2, rfl, by decide⟩
    ((openChunk inlet (Decoders.empty.create x) (fun _ _ => false) t).toOption.map fun chunk =>
      (chunk.taxi.head.payloadLen, chunk.chunkDuration)) = some (65532, 4096) := by
  decide +kernel

/-! ## the continuous inlet -/

/-- The constructor leaves the three fields of the check as they are in memory. -/
structure ConInlet extends ConfigInlet where
  chronCheckValid : Bool
  chronCheckTime : UInt32
  chronCheckErrCnt : UInt32

namespace ConInlet

def start (chronCheckValid : Bool) (chronCheckTime chronCheckErrCnt : UInt32) : ConInlet :=
  { ConfigInlet.start with
    chronCheckValid := chronCheckValid
    chronCheckTime := chronCheckTime
    chronCheckErrCnt := chronCheckErrCnt }

/-- samples of a wave, and microseconds of it -/
def tooShort (sampleCount chunkDuration : Nat) : Bool := sampleCount < 1 || chunkDuration < 200

/-- The check of the time stamps.  The time that is expected next is stored whatever comes of it. -/
def chronology (inlet : ConInlet) (timestamp : UInt32) (chunk : ChunkData) : ConInlet × Option ChunkData :=
  let next := { inlet with
    chronCheckTime := timestamp + UInt32.ofNat chunk.chunkDuration
    chronCheckValid := true }
  if inlet.chronCheckValid then
    let timeDiff := timestamp - inlet.chronCheckTime
    if 0x80000000 ≤ timeDiff then
      ({ next with
        toConfigInlet := next.raise ctyErr
        chronCheckErrCnt := next.chronCheckErrCnt + 1 }, none)
    else if 0 < timeDiff then
      ({ next with
        toConfigInlet := next.raise ctyErr
        chronCheckErrCnt := next.chronCheckErrCnt + 1 }, some { chunk with discontinuous := true })
    else
      (if 0 < next.chronCheckErrCnt then { next with chronCheckErrCnt := next.chronCheckErrCnt - 1 }
        else next, some chunk)
  else (next, some chunk)

/-- the chunk of a message that is passed on, if any -/
def dispatch (inlet : ConInlet) (h : Decoders) (t : TaxiBuffer) : ConInlet × Option ChunkData :=
  if t.chunkType = 0x00 then (inlet, none)
  else if t.chunkType = 0x01 then
    match openChunk inlet.toConfigInlet h tooShort t with
    | .error event => ({ inlet with toConfigInlet := inlet.raise event }, none)
    | .ok chunk => inlet.chronology t.timestamp { chunk with scanOnce := false }
  else ({ inlet with toConfigInlet := inlet.raise cktErr }, none)

/-- after too many errors the inlet starts over with the next configuration -/
def giveUp (inlet : ConInlet) (h : Decoders) : ConInlet × Decoders :=
  if 10 < inlet.chronCheckErrCnt then
    let (config, h) := inlet.toConfigInlet.invalidateConfig h
    ({ toConfigInlet := config, chronCheckValid := false, chronCheckTime := 0, chronCheckErrCnt := 0 }, h)
  else (inlet, h)

end ConInlet

/-! ## the discrete inlet -/

structure DisInlet extends ConfigInlet where
  reassemblyHead : Option TaxiBuffer
  reassemblySeqNum : UInt32

namespace DisInlet

def start : DisInlet := { ConfigInlet.start with reassemblyHead := none, reassemblySeqNum := 0 }

/-- the blocks that wait for the rest of their frame -/
def held (inlet : DisInlet) : List Nat := (inlet.reassemblyHead.map TaxiBuffer.ids).getD []

/-- What fragments come to: the message to process, if any, and the blocks that are freed. -/
def reassemble (inlet : DisInlet) (t : TaxiBuffer) : DisInlet × Option TaxiBuffer × List Nat :=
  if t.chunkType = 0x03 then
    match inlet.reassemblyHead with
    | some head =>
      ({ inlet with
        toConfigInlet := inlet.raise frgErr
        reassemblyHead := some t
        reassemblySeqNum := t.timestamp + 1 }, none, head.ids)
    | none => ({ inlet with reassemblyHead := some t, reassemblySeqNum := t.timestamp + 1 }, none, [])
  else if t.chunkType = 0xC0 then
    match inlet.reassemblyHead with
    | none => ({ inlet with toConfigInlet := inlet.raise frgErr }, none, t.ids)
    | some head =>
      if t.timestamp ≠ inlet.reassemblySeqNum then
        ({ inlet with toConfigInlet := inlet.raise frgErr, reassemblyHead := none }, none,
          t.ids ++ head.ids)
      else
        let inlet := { inlet with reassemblySeqNum := t.timestamp + 1 }
        let joined := head.concat (t.adjustFront channelMessageSize)
        if 200000 < joined.getTotalLen then
          ({ inlet with toConfigInlet := inlet.raise frgErr, reassemblyHead := none }, none, joined.ids)
        else if t.configOrLast then
          ({ inlet with reassemblyHead := none },
            some (joined.setContentID ((joined.contentID &&& 0xFF00) ||| 0x02)), [])
        else ({ inlet with reassemblyHead := some joined }, none, [])
  else
    match inlet.reassemblyHead with
    | none => (inlet, some t, [])
    | some head =>
      let diff := t.timestamp - inlet.reassemblySeqNum
      if (0 < diff ∧ diff < 0x80000000) ∨ t.chunkType ≠ 0x00 then
        ({ inlet with toConfigInlet := inlet.raise frgErr, reassemblyHead := none }, some t, head.ids)
      else (inlet, some t, [])

def reset (inlet : DisInlet) : DisInlet × List Nat :=
  ({ inlet with reassemblyHead := none, reassemblySeqNum := 0 }, inlet.held)

/-- samples of a frame, and microseconds of it -/
def tooShort (sampleCount chunkDuration : Nat) : Bool := sampleCount < 2 || chunkDuration = 0

/-- the chunk of a message that is passed on, if any -/
def dispatch (inlet : DisInlet) (h : Decoders) (t : TaxiBuffer) : DisInlet × Option ChunkData :=
  if t.chunkType = 0x00 then (inlet, none)
  else if t.chunkType = 0x02 then
    match openChunk inlet.toConfigInlet h tooShort t with
    | .error event => ({ inlet with toConfigInlet := inlet.raise event }, none)
    | .ok chunk => (inlet, some chunk)
  else ({ inlet with toConfigInlet := inlet.raise cktErr }, none)

end DisInlet

end LiberaLink.Idn
