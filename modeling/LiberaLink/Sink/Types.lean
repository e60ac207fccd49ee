import LiberaLink.Lib.Numeric
import LiberaLink.Runtime.Types

/-!
# What virtual controllers hand to a target

The points, slices and frames of a submission, and the calls of the `TargetSink` interface that
change a target.  Floating point channels are read as exact rationals.
-/

namespace LiberaLink

/-- A point of the libera core: position, colour, intensity and two user channels. -/
structure LaserPoint where
  x : ℚ
  y : ℚ
  r : ℚ
  g : ℚ
  b : ℚ
  i : ℚ
  u1 : ℚ
  u2 : ℚ
  deriving DecidableEq

/-- no colour -/
def LaserPoint.Dark (p : LaserPoint) : Prop := p.r = 0 ∧ p.g = 0 ∧ p.b = 0

instance : DecidablePred LaserPoint.Dark := fun p =>
  inferInstanceAs (Decidable (p.r = 0 ∧ p.g = 0 ∧ p.b = 0))

structure SliceSubmission where
  points : List LaserPoint
  durationUs : Nat := 0
  effectivePointRate : Option Nat := none
  discontinuous : Bool := false
  deriving DecidableEq

structure FrameSubmission where
  slices : List SliceSubmission
  effectivePointRate : Option Nat := none
  targetBeginTime : Option Int := none
  clearTransportPrefetch : Bool := false
  deriving DecidableEq

/-- the calls of a sink that change its target -/
inductive SinkCall where
  | submitContinuous (submission : SliceSubmission)
  | replaceFrame (submission : FrameSubmission)
  | submitFrame (submission : FrameSubmission)
  | setScannerSync (offsetNs : Int) (enabled : Bool)
  | reset
  deriving DecidableEq

/-- the calls a protocol session feeds the target with -/
def SinkCall.Feeds : SinkCall → Prop
  | .submitContinuous _ => True
  | .submitFrame _ => True
  | .setScannerSync _ _ => True
  | .replaceFrame _ => False
  | .reset => False

instance : DecidablePred SinkCall.Feeds := fun c =>
  match c with
  | .submitContinuous _ => .isTrue trivial
  | .submitFrame _ => .isTrue trivial
  | .setScannerSync _ _ => .isTrue trivial
  | .replaceFrame _ => .isFalse not_false
  | .reset => .isFalse not_false

/-- what a host shows of a target that it serves -/
structure VirtualControllerEndpoint where
  targetId : String
  label : String
  value : String
  kind : String
  protocol : String
  transport : String
  address : String
  port : Nat := 0
  channels : Nat := 0
  attributes : OptionMap := ∅
  deriving DecidableEq

end LiberaLink
