import LiberaLink.Sink.Types

/-!
# The state of a linked target

A `LiberaTarget` sits between a virtual controller host, which submits points, and a libera
controller, which asks for points in a callback.  Its constants, its atomics, its point queue, and the
numbers it derives from them: how many points it wants buffered, how many it keeps, and the rate a
submission commands.  Times are in nanoseconds of the steady clock.
-/

namespace LiberaLink.Target
open Numeric

/-- The constants of a target, with the default-constructed point of the libera library. -/
structure TargetConfig where
  info : TargetInfo
  maxPointRateValue : Nat
  maxQueuedPoints : Nat
  maxLatencyMs : Nat
  autoLatency : Bool
  defaultPoint : LaserPoint
  queue_bound : 1000 ≤ maxQueuedPoints

/-- what the constructor makes of its arguments -/
def TargetConfig.make (target : LinkedTarget) (defaultPoint : LaserPoint) : TargetConfig where
  info := target.info
  maxPointRateValue := if 0 < target.info.maxPointRate then target.info.maxPointRate else 100000
  maxQueuedPoints := max target.maxQueuedPoints 1000
  maxLatencyMs := max target.maxLatencyMs target.latencyMs
  autoLatency := target.autoLatency
  defaultPoint := defaultPoint
  queue_bound := Nat.le_max_right _ _

/-- what the controller has buffered, as far as the target knows -/
structure Downstream where
  pointsInBuffer : Nat := 0
  prefetchedPoints : Nat := 0
  transportBufferedPoints : Nat := 0
  valid : Bool := false
  deriving DecidableEq

/-- what the target asks of its controller -/
inductive ControllerCall where
  | setPointRate (rate : Nat)
  | setArmed (armed : Bool)
  | setRequestPointsCallback
  | sendFrame (points : List LaserPoint) (time : Option Int)
  | clearFrameQueue
  | clearPointCallbackPrefetch
  | setScannerSync (offset : ℚ)
  | setScannerSyncEnabled (enabled : Bool)
  deriving DecidableEq

/-- What happens to points, in the order of the sections under the queue mutex, and what the
submissions report. -/
inductive TargetEvent where
  /-- a submission puts points at the end of the queue -/
  | pushed (points : List LaserPoint)
  /-- points leave the front of the queue and are counted as dropped -/
  | dropped (points : List LaserPoint)
  /-- a callback appends points of the queue and then fallback points to its output -/
  | emitted (points fallback : List LaserPoint)
  /-- a frame takes the place of these points -/
  | replaced (points : List LaserPoint)
  /-- `reset` empties the queue -/
  | reset
  /-- a submission returns with this number of dropped points -/
  | reported (droppedPoints : Nat)
  deriving DecidableEq

structure LiberaTarget where
  currentPointRate : Nat
  latencyMs : Nat
  commandedInputPps : Nat
  lastLatencyIncrease : Int
  lastLatencyUnderrunSample : Int
  latencyUnderrunAccumulator : Nat
  pendingPoints : List LaserPoint
  lastOutputPoint : LaserPoint
  haveLastOutputPoint : Bool
  hasSeenInput : Bool
  frameReplacementMode : Bool
  lastInputAt : Int
  buffering : Bool
  receivedSlices : UInt64
  receivedFrames : UInt64
  receivedPoints : UInt64
  receivedLitPoints : UInt64
  callbackCalls : UInt64
  callbackUnderrunEvents : UInt64
  callbackUnderrunPoints : UInt64
  emittedPoints : UInt64
  blankFillPoints : UInt64
  droppedPoints : UInt64
  lastObserved : Downstream
  /-- the calls of the controller, in order -/
  controller : List ControllerCall
  log : List TargetEvent

/-- The target after its constructor; `avbRate` is the rate an AVB controller runs at. -/
def LiberaTarget.new (cfg : TargetConfig) (latencyMs avbRate : Nat) : LiberaTarget :=
  let initialRate := if cfg.info.type = "AVB" then avbRate else min 30000 cfg.maxPointRateValue
  let startingRate := max initialRate 1000
  { currentPointRate := startingRate
    latencyMs := latencyMs
    commandedInputPps := startingRate
    lastLatencyIncrease := 0
    lastLatencyUnderrunSample := 0
    latencyUnderrunAccumulator := 0
    pendingPoints := []
    lastOutputPoint := cfg.defaultPoint
    haveLastOutputPoint := false
    hasSeenInput := false
    frameReplacementMode := false
    lastInputAt := 0
    buffering := true
    receivedSlices := 0
    receivedFrames := 0
    receivedPoints := 0
    receivedLitPoints := 0
    callbackCalls := 0
    callbackUnderrunEvents := 0
    callbackUnderrunPoints := 0
    emittedPoints := 0
    blankFillPoints := 0
    droppedPoints := 0
    lastObserved := {}
    controller := [.setPointRate startingRate, .setArmed true, .setRequestPointsCallback]
    log := [] }

/-! ## points -/

def isLitPoint (point : LaserPoint) : Bool :=
  decide (0 < point.i) && (decide (0 < point.r) || decide (0 < point.g) || decide (0 < point.b))

/-- the `float` nearest to a number that is not too large for one, the even one of two -/
def toFloat (x : ℚ) : ℚ :=
  if x = 0 then 0
  else
    let magnitude : Int := (Nat.log2 x.num.natAbs : Int) - (Nat.log2 x.den : Int)
    let exponent := if |x| < 2 ^ magnitude then magnitude - 1 else magnitude
    let unit : ℚ := 2 ^ max (exponent - 23) (-149)
    let units := ⌊x / unit⌋
    let rest := x / unit - units
    if rest < 1 / 2 ∨ (rest = 1 / 2 ∧ units % 2 = 0) then units * unit else (units + 1) * unit

/-- a sum of two `float`s, compared with `0.01f` -/
def isBlankForBoundary (point : LaserPoint) : Bool :=
  decide (toFloat (toFloat (point.r + point.g) + point.b) < 5368709 / 2 ^ 29)

/-! ## rates and limits -/

/-- the rate of `pointCount` points in `durationUs`, as an `unsigned` -/
def inferCommandedPointRate (pointCount durationUs : Nat) : Nat :=
  if pointCount = 0 ∨ durationUs = 0 then 0
  else (llround (1000000 * (pointCount : ℚ) / (durationUs : ℚ))).toNat % 2 ^ 32

section
variable (cfg : TargetConfig) (s : LiberaTarget)

def targetBufferedPoints : Nat :=
  let rawPoints : ℚ := (s.currentPointRate : ℚ) * (s.latencyMs : ℚ) / 1000
  clamp (llround rawPoints).toNat 1000 (max 1000 (cfg.maxQueuedPoints - 1))

def livePointLimit (targetMultiplier : Nat) (minimumSeconds : ℚ) : Nat :=
  let targetMultiplier := max targetMultiplier 1
  let targetPoints := targetBufferedPoints cfg s
  let minimumPoints := if 0 < s.currentPointRate
    then (llround ((s.currentPointRate : ℚ) * minimumSeconds)).toNat else 3000
  let targetWindow := if targetPoints > cfg.maxQueuedPoints / targetMultiplier
    then cfg.maxQueuedPoints else targetPoints * targetMultiplier
  clamp (max targetWindow minimumPoints) 1000 cfg.maxQueuedPoints

def liveContinuousPointLimit : Nat := livePointLimit cfg s 2 (1 / 10)

def liveReplacementPointLimit : Nat := livePointLimit cfg s 1 (1 / 20)

/-- `maybeUpdatePointRate`; `avbRate` is the rate an AVB controller runs at. -/
def maybeUpdatePointRate (commandedPointRate avbRate : Nat) : LiberaTarget :=
  if commandedPointRate = 0 then s
  else
    let proposed := clamp commandedPointRate 1000 cfg.maxPointRateValue
    if proposed = s.currentPointRate then { s with commandedInputPps := proposed }
    else {
      s with
      commandedInputPps := proposed
      controller := s.controller ++ [.setPointRate proposed]
      currentPointRate := if cfg.info.type = "AVB" then avbRate else proposed }

end

def installPointCallback (s : LiberaTarget) : LiberaTarget :=
  { s with controller := s.controller ++ [.setRequestPointsCallback] }

/-- `downstreamBufferSnapshot()`, with the controller's answer -/
def downstreamBufferSnapshot (breakdown : Option Downstream) (s : LiberaTarget) : LiberaTarget :=
  { s with lastObserved := match breakdown with
      | none => {}
      | some b => { b with valid := true } }

/-! ## what a submission returns -/

structure TargetStatus where
  queuedPoints : Nat
  maxQueuedPoints : Nat
  controllerPrefetchedPoints : Nat
  controllerTransportBufferedPoints : Nat
  controllerBufferedPoints : Nat
  totalBufferedPoints : Nat
  targetBufferedPoints : Nat
  outputPointRate : Nat
  observedInputPointRate : Nat
  latencyMs : Nat
  receivedFrames : UInt64
  receivedPoints : UInt64
  droppedPoints : UInt64
  underrunEvents : UInt64
  underrunPoints : UInt64
  buffering : Bool
  deriving DecidableEq

structure SubmissionResult where
  accepted : Bool
  submittedPoints : Nat
  acceptedPoints : Nat
  droppedPoints : Nat
  status : TargetStatus
  deriving DecidableEq

/-- the status of a target whose downstream estimate has just been refreshed -/
def targetStatusSnapshot (cfg : TargetConfig) (s : LiberaTarget) : TargetStatus where
  queuedPoints := s.pendingPoints.length
  maxQueuedPoints := cfg.maxQueuedPoints
  controllerPrefetchedPoints := s.lastObserved.prefetchedPoints
  controllerTransportBufferedPoints := s.lastObserved.transportBufferedPoints
  controllerBufferedPoints := s.lastObserved.pointsInBuffer
  totalBufferedPoints := s.pendingPoints.length + s.lastObserved.pointsInBuffer
  targetBufferedPoints := targetBufferedPoints cfg s
  outputPointRate := s.currentPointRate
  observedInputPointRate := s.commandedInputPps
  latencyMs := s.latencyMs
  receivedFrames := s.receivedFrames
  receivedPoints := s.receivedPoints
  droppedPoints := s.droppedPoints
  underrunEvents := s.callbackUnderrunEvents
  underrunPoints := s.callbackUnderrunPoints
  buffering := s.buffering

def makeSubmissionResult (cfg : TargetConfig) (accepted : Bool) (submittedPoints droppedPoints : Nat)
    (s : LiberaTarget) : SubmissionResult where
  accepted := accepted
  submittedPoints := submittedPoints
  acceptedPoints := if accepted then submittedPoints - min submittedPoints droppedPoints else 0
  droppedPoints := droppedPoints
  status := targetStatusSnapshot cfg s

end LiberaLink.Target
