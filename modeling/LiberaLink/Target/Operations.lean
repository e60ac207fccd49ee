import LiberaLink.Lib.Reach
import LiberaLink.Lib.Typestate
import LiberaLink.Target.State

/-!
# The operations of a linked target, section by section

Each operation is a program whose actions are the sections under the queue mutex and, between them,
the updates of the atomics and the calls of the controller.

* `submitContinuous`, `replaceFrame`, `submitFrame`, `reset`   what a host calls;
* `fillFromQueue`                                              what the controller calls back;
* `System.step`                                                any number of operations under way at once.
-/

namespace LiberaLink.Target
open Stepwise

/-! ## sections under the queue mutex -/

/-- how many blank points in a row end right before position `i` -/
def blankRunBefore (queue : List LaserPoint) : Nat → Nat
  | 0 => 0
  | j + 1 => if (queue[j]?.map isBlankForBoundary).getD false then blankRunBefore queue j + 1 else 0

/-- a lit point that at least two blank points come before -/
def isBoundary (queue : List LaserPoint) (i : Nat) : Bool :=
  !(queue[i]?.map isBlankForBoundary).getD true &&
    (queue[i - 1]?.map isBlankForBoundary).getD false && decide (2 ≤ blankRunBefore queue i)

/-- How many points an overfull queue drops: as many as it is over the limit, or up to the first
boundary behind these. -/
def overflowDrop (limit : Nat) (queue : List LaserPoint) : Nat :=
  if queue.length > limit then
    let desiredDrop := queue.length - limit
    let searchStart := min (max desiredDrop 1) queue.length
    let drop := ((List.range' searchStart (queue.length - searchStart)).find? (isBoundary queue)).getD
      desiredDrop
    min drop queue.length
  else 0

/-- the section of `submitContinuous` -/
def queueSlice (points : List LaserPoint) (limit : Nat) (now : Int) (s : LiberaTarget) :
    LiberaTarget :=
  let queue := s.pendingPoints ++ points
  let dropCount := overflowDrop limit queue
  { s with
    hasSeenInput := true
    lastInputAt := now
    pendingPoints := queue.drop dropCount
    droppedPoints := s.droppedPoints + .ofNat dropCount
    log := s.log ++ [.pushed points, .dropped (queue.take dropCount)] }

/-- how many points of a frame the section of `replaceFrame` drops from its front -/
def replaceDrop (cfg : TargetConfig) (points : List LaserPoint) (downstream : Nat) : Nat :=
  min (points.length + downstream - cfg.maxQueuedPoints) points.length

/-- the section of `replaceFrame` -/
def replaceQueue (cfg : TargetConfig) (points : List LaserPoint) (downstream : Nat) (now : Int)
    (s : LiberaTarget) : LiberaTarget :=
  let dropCount := replaceDrop cfg points downstream
  { s with
    hasSeenInput := true
    lastInputAt := now
    pendingPoints := points.drop dropCount
    droppedPoints := s.droppedPoints + .ofNat dropCount
    log := s.log ++ [.replaced s.pendingPoints, .pushed points, .dropped (points.take dropCount)] }

/-- the section of `submitFrame` -/
def clearQueue (now : Int) (s : LiberaTarget) : LiberaTarget :=
  { s with
    pendingPoints := []
    hasSeenInput := true
    lastInputAt := now
    log := s.log ++ [.replaced s.pendingPoints] }

/-- the section of `reset` -/
def resetQueue (s : LiberaTarget) : LiberaTarget :=
  { s with
    pendingPoints := []
    hasSeenInput := false
    haveLastOutputPoint := false
    lastInputAt := 0
    log := s.log ++ [.reset] }

/-! ## the callback -/

structure PointFillRequest where
  minimumPointsRequired : Nat
  maximumPointsRequired : Nat
  allowShortRead : Bool

def isAwaitingInputLocked (s : LiberaTarget) (now idleThreshold : Int) : Bool :=
  if !s.hasSeenInput then true
  else if s.pendingPoints ≠ [] then false
  else decide (idleThreshold ≤ now - s.lastInputAt)

/-- the point that stands in for a missing one -/
def fallbackPoint (cfg : TargetConfig) (s : LiberaTarget) : LaserPoint :=
  if s.haveLastOutputPoint then { s.lastOutputPoint with r := 0, g := 0, b := 0, i := 0 }
  else cfg.defaultPoint

def maybeIncreaseLatencyOnUnderrun (cfg : TargetConfig)
    (missingPoints minimumPointsRequired targetPoints : Nat) (now : Int) (s : LiberaTarget) :
    LiberaTarget :=
  if !cfg.autoLatency || minimumPointsRequired = 0 then s
  else
    let s := if now - s.lastLatencyUnderrunSample > 2000000000
      then { s with latencyUnderrunAccumulator := 0 } else s
    let s := {
      s with
      lastLatencyUnderrunSample := now
      latencyUnderrunAccumulator := s.latencyUnderrunAccumulator + missingPoints }
    if now - s.lastLatencyIncrease < 3000000000 then s
    else
      let threshold := max (minimumPointsRequired / 2) (max 100 (targetPoints / 3))
      if s.latencyUnderrunAccumulator < threshold then s
      else
        let before := s.latencyMs
        if before ≥ cfg.maxLatencyMs then { s with latencyUnderrunAccumulator := 0 }
        else {
          s with
          latencyMs := min cfg.maxLatencyMs (before + max 10 (before / 10))
          lastLatencyIncrease := now
          latencyUnderrunAccumulator := 0 }

/-- What one callback asks with: the request, how many points its output already holds, the cached
downstream estimate, and the clock when it looks at the idle time and when it counts an underrun. -/
structure FillInput where
  req : PointFillRequest
  outSize : Nat
  downstream : Downstream
  now : Int
  underrunNow : Int

/-- What a callback appends to its output: points of the queue and then fallback points. -/
structure Filled where
  points : List LaserPoint
  fallback : List LaserPoint
  deriving DecidableEq

section
variable (cfg : TargetConfig) (f : FillInput) (s : LiberaTarget)

def allowsShortRead : Bool :=
  f.req.allowShortRead && !isAwaitingInputLocked s f.now 2000000000

/-- the callback waits until enough points are buffered -/
def inBufferingHold : Bool :=
  !s.frameReplacementMode && !allowsShortRead f s && s.buffering &&
    decide (s.pendingPoints.length + f.downstream.pointsInBuffer < targetBufferedPoints cfg s)

def toWrite : Nat := min f.req.maximumPointsRequired s.pendingPoints.length

def blankCount : Nat := f.req.minimumPointsRequired - (f.outSize + toWrite f s)

/-- the output is still too short after the points of the queue -/
def fallsShort : Bool := decide (f.outSize + toWrite f s < f.req.minimumPointsRequired)

/-- the last point that is written to the output is remembered -/
def rememberLast (points : List LaserPoint) : LiberaTarget :=
  match points.getLast? with
  | some last => { s with lastOutputPoint := last, haveLastOutputPoint := true }
  | none => s

/-- what the section of `fillFromQueue` appends -/
def fillOutput : Filled :=
  if inBufferingHold cfg f s then ⟨[], List.replicate f.req.minimumPointsRequired (fallbackPoint cfg s)⟩
  else
    let points := s.pendingPoints.take (toWrite f s)
    if fallsShort f s && !allowsShortRead f s then
      ⟨points, List.replicate (blankCount f s) (fallbackPoint cfg (rememberLast s points))⟩
    else ⟨points, []⟩

/-- the points of the queue leave it -/
def drainQueue : LiberaTarget :=
  rememberLast {
    s with
    buffering := false
    pendingPoints := s.pendingPoints.drop (toWrite f s)
    emittedPoints := s.emittedPoints + .ofNat (toWrite f s) } (s.pendingPoints.take (toWrite f s))

/-- an underrun is counted, with `missing` points filled in -/
def countUnderrun (missing : Nat) : LiberaTarget :=
  { s with
    callbackUnderrunEvents := s.callbackUnderrunEvents + 1
    callbackUnderrunPoints := s.callbackUnderrunPoints + .ofNat missing
    blankFillPoints := s.blankFillPoints + .ofNat missing }

/-- the state after the section of `fillFromQueue`, but for the log -/
def fillState : LiberaTarget :=
  if inBufferingHold cfg f s then countUnderrun s f.req.minimumPointsRequired
  else
    let drained := drainQueue f s
    if fallsShort f s then
      if allowsShortRead f s then
        if s.frameReplacementMode then drained else { drained with buffering := true }
      else
        let t := if s.frameReplacementMode then drained
          else maybeIncreaseLatencyOnUnderrun cfg (blankCount f s) f.req.minimumPointsRequired
            (targetBufferedPoints cfg s) f.underrunNow drained
        { countUnderrun t (blankCount f s) with buffering := !s.frameReplacementMode }
    else drained

/-- the section of `fillFromQueue` -/
def fill : LiberaTarget :=
  { fillState cfg f s with
    log := s.log ++ [.emitted (fillOutput cfg f s).points (fillOutput cfg f s).fallback] }

end

/-! ## actions -/

/-- the atomic actions of the operations -/
inductive TargetAct where
  | announceSlice (pointCount : Nat)
  | updatePointRate (commandedPointRate avbRate : Nat)
  | observe (breakdown : Option Downstream)
  | countLit (litCount : Nat)
  | queueSlice (points : List LaserPoint) (limit : Nat) (now : Int)
  | installCallback
  | announceFrame (replacement : Bool) (sliceCount pointCount litCount : Nat)
  | replaceQueue (points : List LaserPoint) (downstream : Nat) (now : Int)
  | clearQueue (now : Int)
  | sendFrame (points : List LaserPoint) (time : Option Int)
  | countDropped (pointCount : Nat)
  | clearPrefetch
  | resetQueue
  | resetAtomics
  | resetController
  | countCallback
  | fill (f : FillInput)
  | report (droppedPoints : Nat)
  | look

def effect (cfg : TargetConfig) : TargetAct → LiberaTarget → LiberaTarget
  | .announceSlice pointCount, s => {
      installPointCallback s with
      frameReplacementMode := false
      receivedSlices := s.receivedSlices + 1
      receivedPoints := s.receivedPoints + .ofNat pointCount }
  | .updatePointRate commandedPointRate avbRate, s =>
      maybeUpdatePointRate cfg s commandedPointRate avbRate
  | .observe breakdown, s => downstreamBufferSnapshot breakdown s
  | .countLit litCount, s =>
      { s with receivedLitPoints := s.receivedLitPoints + .ofNat litCount }
  | .queueSlice points limit now, s => Target.queueSlice points limit now s
  | .installCallback, s => installPointCallback s
  | .announceFrame replacement sliceCount pointCount litCount, s => {
      s with
      frameReplacementMode := replacement
      buffering := false
      receivedSlices := s.receivedSlices + .ofNat sliceCount
      receivedFrames := s.receivedFrames + 1
      receivedPoints := s.receivedPoints + .ofNat pointCount
      receivedLitPoints := s.receivedLitPoints + .ofNat litCount }
  | .replaceQueue points downstream now, s => Target.replaceQueue cfg points downstream now s
  | .clearQueue now, s => Target.clearQueue now s
  | .sendFrame points time, s => { s with controller := s.controller ++ [.sendFrame points time] }
  | .countDropped pointCount, s =>
      { s with droppedPoints := s.droppedPoints + .ofNat pointCount }
  | .clearPrefetch, s => { s with controller := s.controller ++ [.clearPointCallbackPrefetch] }
  | .resetQueue, s => Target.resetQueue s
  | .resetAtomics, s => {
      s with
      buffering := true
      frameReplacementMode := false
      commandedInputPps := s.currentPointRate
      lastObserved := {} }
  | .resetController, s => {
      s with
      controller := s.controller ++
        [.clearFrameQueue, .clearPointCallbackPrefetch, .setRequestPointsCallback] }
  | .countCallback, s => { s with callbackCalls := s.callbackCalls + 1 }
  | .fill f, s => Target.fill cfg f s
  | .report droppedPoints, s => { s with log := s.log ++ [.reported droppedPoints] }
  | .look, s => s

abbrev TargetM := Prog TargetAct LiberaTarget

/-- What the surroundings answer during one submission: the clock in its section, the rate of an AVB
controller, the controller's estimates of its buffers, and whether it takes a frame. -/
structure Answers where
  now : Int
  avbRate : Nat
  breakdown : Option Downstream
  breakdownAfter : Option Downstream
  sends : Bool

section
variable (cfg : TargetConfig)

def perform (l : TargetAct) : TargetM Unit := Prog.modify l (effect cfg l)

def look {α : Type} (r : LiberaTarget → α) : TargetM α := Prog.exchange .look r (effect cfg .look)

/-- the end of a submission -/
def finish (accepted : Bool) (submittedPoints droppedPoints : Nat) (a : Answers) :
    TargetM SubmissionResult := do
  perform cfg (.observe a.breakdownAfter)
  Prog.exchange (.report droppedPoints)
    (makeSubmissionResult cfg accepted submittedPoints droppedPoints)
    (effect cfg (.report droppedPoints))

def submitContinuous (submission : SliceSubmission) (a : Answers) : TargetM SubmissionResult :=
  let pointCount := submission.points.length
  if pointCount = 0 then finish cfg false 0 0 a
  else do
    perform cfg (.announceSlice pointCount)
    perform cfg (.updatePointRate
      (submission.effectivePointRate.getD (inferCommandedPointRate pointCount submission.durationUs))
      a.avbRate)
    perform cfg (.observe a.breakdown)
    let limit ← look cfg (liveContinuousPointLimit cfg)
    perform cfg (.countLit (submission.points.countP isLitPoint))
    let dropCount ← Prog.exchange (.queueSlice submission.points limit a.now)
      (fun s => overflowDrop limit (s.pendingPoints ++ submission.points))
      (effect cfg (.queueSlice submission.points limit a.now))
    finish cfg true pointCount dropCount a

/-- the points of a frame -/
def framePoints (submission : FrameSubmission) : List LaserPoint :=
  submission.slices.flatMap fun slice => slice.points

/-- the slices of a frame that have points -/
def validSlices (submission : FrameSubmission) : List SliceSubmission :=
  submission.slices.filter fun slice => slice.points ≠ []

def totalDurationUs (submission : FrameSubmission) : Nat :=
  ((validSlices submission).map fun slice => slice.durationUs).sum

/-- the rate that the points and the duration of a frame imply -/
def frameRate (submission : FrameSubmission) : Nat :=
  inferCommandedPointRate (framePoints submission).length (totalDurationUs submission)

def replaceFrame (submission : FrameSubmission) (a : Answers) : TargetM SubmissionResult :=
  if submission.slices = [] then finish cfg false 0 0 a
  else do
    perform cfg .installCallback
    let points := framePoints submission
    if points = [] then finish cfg false 0 0 a
    else do
      let limit ← look cfg (liveReplacementPointLimit cfg)
      let replacementPoints := points.take limit
      perform cfg (.announceFrame true (validSlices submission).length points.length
        (points.countP isLitPoint))
      perform cfg (.observe a.breakdown)
      let downstream := ((a.breakdown.map fun b => b.pointsInBuffer).getD 0)
      let dropCount ← Prog.exchange (.replaceQueue replacementPoints downstream a.now)
        (fun _ => replaceDrop cfg replacementPoints downstream)
        (effect cfg (.replaceQueue replacementPoints downstream a.now))
      perform cfg (.updatePointRate (frameRate submission) a.avbRate)
      if submission.clearTransportPrefetch then perform cfg .clearPrefetch else pure ()
      finish cfg true points.length dropCount a

def submitFrame (submission : FrameSubmission) (a : Answers) : TargetM SubmissionResult :=
  let points := framePoints submission
  if submission.slices = [] ∨ points = [] then finish cfg false 0 0 a
  else do
    perform cfg (.announceFrame false (validSlices submission).length points.length
      (points.countP isLitPoint))
    perform cfg (.updatePointRate (submission.effectivePointRate.getD (frameRate submission)) a.avbRate)
    perform cfg (.clearQueue a.now)
    perform cfg (.sendFrame points submission.targetBeginTime)
    if a.sends then finish cfg true points.length 0 a
    else do
      perform cfg (.countDropped points.length)
      finish cfg false points.length points.length a

def reset : TargetM Unit := do
  perform cfg .resetQueue
  perform cfg .resetAtomics
  perform cfg .resetController

/-- `fillFromQueue` with an output that holds `outSize` points, and what it appends -/
def fillFromQueue (req : PointFillRequest) (outSize : Nat) (now underrunNow : Int) : TargetM Filled :=
  if req.maximumPointsRequired = 0 then pure ⟨[], []⟩
  else do
    perform cfg .countCallback
    let downstream ← look cfg fun s => s.lastObserved
    let f : FillInput := ⟨req, outSize, downstream, now, underrunNow⟩
    Prog.exchange (.fill f) (fillOutput cfg f) (effect cfg (.fill f))

end

/-! ## operations that overlap -/

inductive TargetOp where
  | submitContinuous (submission : SliceSubmission) (a : Answers)
  | replaceFrame (submission : FrameSubmission) (a : Answers)
  | submitFrame (submission : FrameSubmission) (a : Answers)
  | reset
  | fillFromQueue (req : PointFillRequest) (outSize : Nat) (now underrunNow : Int)

def TargetOp.run (cfg : TargetConfig) : TargetOp → TargetM Unit
  | .submitContinuous submission a => do
    let _ ← Target.submitContinuous cfg submission a
    pure ()
  | .replaceFrame submission a => do
    let _ ← Target.replaceFrame cfg submission a
    pure ()
  | .submitFrame submission a => do
    let _ ← Target.submitFrame cfg submission a
    pure ()
  | .reset => Target.reset cfg
  | .fillFromQueue req outSize now underrunNow => do
    let _ ← Target.fillFromQueue cfg req outSize now underrunNow
    pure ()

/-- a target with the operations under way on it -/
structure System where
  target : LiberaTarget
  threads : List (TargetM Unit)

inductive SystemInput where
  | start (op : TargetOp)
  /-- one action of an operation under way -/
  | run (thread : Nat)

def System.step (cfg : TargetConfig) (y : System) : SystemInput → System
  | .start op => { y with threads := y.threads ++ [op.run cfg] }
  | .run i => {
      target := (Prog.fireThread i y.threads y.target).2
      threads := (Prog.fireThread i y.threads y.target).1 }

/-- no operation is under way -/
def System.Quiescent (y : System) : Prop := ∀ p ∈ y.threads, p.Finished

end LiberaLink.Target
