import LiberaLink.Sink.Types

/-!
# Libera protocol sessions: records and what they do to a session

What one session keeps, how it is negotiated, and what each decoded record makes of it: a new session
state, at most one call of the sink, and whether the session goes on.  The codec of the libera library
is a parameter.
-/

namespace LiberaLink.Protocol
open Numeric

structure HostOptions where
  listenAddress : String := "0.0.0.0"
  advertisedAddress : String := ""
  broadcastAddresses : List String := ["255.255.255.255"]
  tcpPort : Nat
  discoveryPort : Nat
  broadcastIntervalMs : Nat := 500
  minPointRate : Nat := 1000
  maxPointRate : Nat := 100000
  maxFramePoints : Nat := 300000
  maxRecordPayloadBytes : Nat := 4 * 1024 * 1024
  handshakeTimeoutMs : Nat := 2000
  sessionTimeoutMs : Nat := 1500
  maxUserChannels : Nat := 2
  discoveryEnabled : Bool := true

/-! ## records -/

inductive RecordType where
  | hello | accept | reject | ready | streamConfig | setScannerSync | frameMarker | points
  | ping | pong | close
  | other (code : Nat)
  deriving DecidableEq

inductive StreamMode where
  | rawPointStream | frameByCount | markedPointStream
  | other (code : Nat)
  deriving DecidableEq

structure RecordHeader where
  type : RecordType
  flags : Nat := 0
  sequence : Nat := 0
  payloadSize : Nat

structure Record where
  type : RecordType
  flags : Nat := 0
  sequence : Nat := 0
  payload : List UInt8

structure Hello where
  senderName : String
  requestedStreamMode : StreamMode
  requestedUserChannelCount : Nat
  defaultPointRate : Nat

structure StreamConfig where
  streamMode : StreamMode
  userChannelCount : Nat
  defaultPointRate : Nat

structure ScannerSync where
  offsetNs : Int
  enabled : Bool

structure FrameMarker where
  framePointCount : Nat
  pointRate : Nat
  targetBeginTimeNs : Nat

structure PointSample where
  x : Int
  y : Int
  r : Nat
  g : Nat
  b : Nat
  i : Nat
  user : List Nat

/-- What comes from the libera library: the decoders, and its default-constructed point. -/
structure Codec where
  decodeHello : List UInt8 → Except String Hello
  decodeStreamConfig : List UInt8 → Except String StreamConfig
  decodeScannerSync : List UInt8 → Except String ScannerSync
  decodeFrameMarker : List UInt8 → Except String FrameMarker
  decodePointSamples : List UInt8 → Nat → Except String (List PointSample)
  readUInt64 : List UInt8 → Nat
  defaultPoint : LaserPoint

/-- What a socket gives to one `readRecord`: the header, if it comes in time and decodes, and as many
bytes as the header announces, if they come in time. -/
structure Delivery where
  header : Except String RecordHeader
  payload : Except String (List UInt8) := .ok []

def readRecord (options : HostOptions) (d : Delivery) : Except String Record :=
  match d.header with
  | .error error => .error error
  | .ok header =>
    if header.payloadSize > options.maxRecordPayloadBytes then
      .error "Libera protocol record payload exceeds configured limit."
    else if header.payloadSize = 0 then
      .ok ⟨header.type, header.flags, header.sequence, []⟩
    else match d.payload with
      | .error error => .error error
      | .ok payload => .ok ⟨header.type, header.flags, header.sequence, payload⟩

/-! ## points -/

def coordFromProtocol (value : Int) : ℚ :=
  if value = -32768 then -1 else clamp ((value : ℚ) / 32767) (-1) 1

def channelFromProtocol (value : Nat) : ℚ := (value : ℚ) / 65535

def toLaserPoint (codec : Codec) (sample : PointSample) : LaserPoint where
  x := coordFromProtocol sample.x
  y := coordFromProtocol sample.y
  r := channelFromProtocol sample.r
  g := channelFromProtocol sample.g
  b := channelFromProtocol sample.b
  i := channelFromProtocol sample.i
  u1 := (sample.user[0]?.map channelFromProtocol).getD codec.defaultPoint.u1
  u2 := (sample.user[1]?.map channelFromProtocol).getD codec.defaultPoint.u2

def toLaserPoints (codec : Codec) (samples : List PointSample) : List LaserPoint :=
  samples.map (toLaserPoint codec)

def pointDurationUs (pointCount pointRate : Nat) : Nat :=
  if pointCount = 0 ∨ pointRate = 0 then 0
  else (llround (1000000 * (pointCount : ℚ) / (pointRate : ℚ))).toNat % 2 ^ 32

/-! ## sessions -/

structure PendingFrame where
  marker : FrameMarker
  points : List LaserPoint
  targetBeginTime : Option Int

structure SessionState where
  streamMode : StreamMode := .rawPointStream
  userChannelCount : Nat := 0
  pointRate : Nat := 30000
  sessionStartedAt : Int
  pendingFrame : Option PendingFrame := none

/-- What a `TargetServer` is built with. -/
structure TargetServer where
  codec : Codec
  options : HostOptions
  /-- the info of the target's sink, if it has one -/
  sink : Option TargetInfo

namespace TargetServer
variable (srv : TargetServer)

def effectiveMaxPointRate : Nat :=
  let targetMax := match srv.sink with
    | some info => if 0 < info.maxPointRate then info.maxPointRate else srv.options.maxPointRate
    | none => srv.options.maxPointRate
  max 1 (min targetMax srv.options.maxPointRate)

def effectiveMinPointRate : Nat := min srv.options.minPointRate srv.effectiveMaxPointRate

def clampPointRate (rate : Nat) : Nat :=
  clamp rate srv.effectiveMinPointRate srv.effectiveMaxPointRate

end TargetServer

def acceptedMode (requested : StreamMode) : StreamMode :=
  if requested = .frameByCount ∨ requested = .markedPointStream then .frameByCount
  else .rawPointStream

structure Accept where
  acceptedStreamMode : StreamMode
  acceptedUserChannelCount : Nat
  defaultPointRate : Nat
  maxPointRate : Nat
  maxFramePointCount : Nat
  maxRecordPayloadSize : Nat
  sessionId : Nat
  deriving DecidableEq

inductive RejectCode where
  | malformedHello | busy
  deriving DecidableEq

/-- what the server writes to a socket -/
inductive Reply where
  | accept (accept : Accept)
  | reject (code : RejectCode) (message : String)
  | pong (timestamp : Nat)
  deriving DecidableEq

/-- the state of a session that begins at the time `now` -/
def negotiate (srv : TargetServer) (hello : Hello) (now : Int) : SessionState where
  streamMode := acceptedMode hello.requestedStreamMode
  userChannelCount := min srv.options.maxUserChannels hello.requestedUserChannelCount
  pointRate := srv.clampPointRate (if hello.defaultPointRate = 0 then 30000 else hello.defaultPointRate)
  sessionStartedAt := now

def makeAccept (srv : TargetServer) (state : SessionState) : Accept where
  acceptedStreamMode := state.streamMode
  acceptedUserChannelCount := state.userChannelCount
  defaultPointRate := state.pointRate
  maxPointRate := srv.effectiveMaxPointRate
  maxFramePointCount := srv.options.maxFramePoints
  maxRecordPayloadSize := srv.options.maxRecordPayloadBytes
  sessionId := (state.sessionStartedAt % 2 ^ 64).toNat

/-! ## what a record does -/

/-- The outcome of one record: whether the session goes on, its state, what it called and sent. -/
structure Handled where
  ok : Bool
  state : SessionState
  call : Option SinkCall := none
  reply : Option Reply := none

def handleStreamConfig (srv : TargetServer) (state : SessionState) (record : Record) : Handled :=
  match srv.codec.decodeStreamConfig record.payload with
  | .error _ => { ok := false, state := state }
  | .ok config => {
      ok := true
      state := {
        state with
        streamMode := acceptedMode config.streamMode
        userChannelCount := min srv.options.maxUserChannels config.userChannelCount
        pointRate := if config.defaultPointRate ≠ 0 then srv.clampPointRate config.defaultPointRate
          else state.pointRate
        pendingFrame := none } }

def handleScannerSync (srv : TargetServer) (state : SessionState) (record : Record) : Handled :=
  match srv.codec.decodeScannerSync record.payload with
  | .error _ => { ok := false, state := state }
  | .ok scannerSync => {
      ok := true
      state := state
      call := if srv.sink.isSome then some (.setScannerSync scannerSync.offsetNs scannerSync.enabled)
        else none }

/-- The begin time of a frame: the count of the marker is converted to signed nanoseconds and added to
the start of the session. -/
def frameBeginTime (sessionStartedAt : Int) (targetBeginTimeNs : Nat) : Option Int :=
  if targetBeginTimeNs ≠ 0 then some (wrapInt64 (sessionStartedAt + wrapInt64 targetBeginTimeNs))
  else none

def handleFrameMarker (srv : TargetServer) (state : SessionState) (record : Record) : Handled :=
  match srv.codec.decodeFrameMarker record.payload with
  | .error _ => { ok := false, state := state }
  | .ok marker =>
    if marker.framePointCount = 0 ∨ marker.framePointCount > srv.options.maxFramePoints then
      { ok := false, state := state }
    else if state.streamMode ≠ .frameByCount ∨ state.pendingFrame.isSome then
      { ok := false, state := state }
    else {
      ok := true
      state := {
        state with
        pendingFrame := some {
          marker := marker
          points := []
          targetBeginTime := frameBeginTime state.sessionStartedAt marker.targetBeginTimeNs }
        pointRate := if marker.pointRate ≠ 0 then srv.clampPointRate marker.pointRate
          else state.pointRate } }

def submitContinuousPoints (srv : TargetServer) (points : List LaserPoint) (pointRate : Nat) :
    Option SinkCall :=
  if srv.sink.isNone ∨ points = [] then none
  else some (.submitContinuous {
    points := points
    durationUs := pointDurationUs points.length pointRate
    effectivePointRate := some pointRate })

/-- what the pending frame becomes when its last point has come -/
def submitPendingFrame (srv : TargetServer) (state : SessionState) (pending : PendingFrame) :
    Option SinkCall :=
  if srv.sink.isNone ∨ pending.points = [] then none
  else
    let pointRate := if pending.marker.pointRate ≠ 0 then srv.clampPointRate pending.marker.pointRate
      else state.pointRate
    some (.submitFrame {
      slices := [{
        points := pending.points
        durationUs := pointDurationUs pending.points.length pointRate
        effectivePointRate := some pointRate }]
      effectivePointRate := some pointRate
      targetBeginTime := pending.targetBeginTime })

def appendFramePoints (srv : TargetServer) (state : SessionState) (pending : PendingFrame)
    (points : List LaserPoint) : Handled :=
  let expected := pending.marker.framePointCount
  if expected = 0 ∨ pending.points.length > expected ∨
      points.length > expected - pending.points.length then
    { ok := false, state := state }
  else
    let pending := { pending with points := pending.points ++ points }
    if pending.points.length = expected then {
      ok := true
      state := { state with pendingFrame := none }
      call := submitPendingFrame srv state pending }
    else { ok := true, state := { state with pendingFrame := some pending } }

def handlePoints (srv : TargetServer) (state : SessionState) (record : Record) : Handled :=
  match srv.codec.decodePointSamples record.payload state.userChannelCount with
  | .error _ => { ok := false, state := state }
  | .ok samples =>
    let points := toLaserPoints srv.codec samples
    match state.pendingFrame with
    | some pending => appendFramePoints srv state pending points
    | none =>
      if state.streamMode = .frameByCount then { ok := false, state := state }
      else {
        ok := true
        state := state
        call := submitContinuousPoints srv points state.pointRate }

/-- `handleRecord`; `written` says whether the answer to a ping can be written. -/
def handleRecord (srv : TargetServer) (state : SessionState) (record : Record) (written : Bool) :
    Handled :=
  match record.type with
  | .streamConfig => handleStreamConfig srv state record
  | .setScannerSync => handleScannerSync srv state record
  | .frameMarker => handleFrameMarker srv state record
  | .points => handlePoints srv state record
  | .ping =>
    if record.payload.length = 8 then {
      ok := written
      state := state
      reply := some (.pong (srv.codec.readUInt64 record.payload)) }
    else { ok := false, state := state }
  | .close => { ok := false, state := state }
  | _ => { ok := true, state := state }

/-! ## which calls a record makes -/

theorem appendFramePoints_feeds (srv : TargetServer) (state : SessionState) (pending : PendingFrame)
    (points : List LaserPoint) {c : SinkCall}
    (h : (appendFramePoints srv state pending points).call = some c) : c.Feeds := by
  unfold appendFramePoints submitPendingFrame at h
  simp only at h
  split at h
  · simp at h
  · split at h
    · simp only at h
      split at h
      · simp at h
      · obtain rfl := Option.some.inj h
        trivial
    · simp at h

/-- a record neither resets the target nor replaces its frame -/
theorem handleRecord_feeds (srv : TargetServer) (state : SessionState) (record : Record)
    (written : Bool) {c : SinkCall} (h : (handleRecord srv state record written).call = some c) :
    c.Feeds := by
  unfold handleRecord at h
  split at h
  · unfold handleStreamConfig at h
    split at h <;> simp at h
  · unfold handleScannerSync at h
    split at h
    · simp at h
    · simp only at h
      split at h
      · obtain rfl := Option.some.inj h
        trivial
      · simp at h
  · unfold handleFrameMarker at h
    split at h
    · simp at h
    · split at h
      · simp at h
      · split at h <;> simp at h
  · unfold handlePoints at h
    split at h
    · simp at h
    · simp only at h
      split at h
      · exact appendFramePoints_feeds srv state _ _ h
      · split at h
        · simp at h
        · unfold submitContinuousPoints at h
          simp only at h
          split at h
          · simp at h
          · obtain rfl := Option.some.inj h
            trivial
  · split at h <;> simp at h
  · simp at h
  · simp at h

end LiberaLink.Protocol
