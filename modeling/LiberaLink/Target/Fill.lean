import LiberaLink.Target.Dark

/-!
# What one callback gives

A callback of a controller, alone on a target in any state: how many points it appends, where they come
from, and when it fills in.

* `fillOutput_fallback`   how many fallback points it appends, and when;
* `fillOutput_length`     how many points it appends in all;
* `fill_drained`          it fills in behind an empty queue only, unless it holds;
* `fillFromQueue_run`     the callback is its section under the mutex;
* `fill_meets_request`    **the output meets the request**.
-/

namespace LiberaLink.Target

section
variable (cfg : TargetConfig) (f : FillInput) (s : LiberaTarget)

/-- **The fallback points of a callback** are copies of one point: as many as the request needs at
least in the buffering hold, and as many as are missing after a queue that ran out, unless the callback
may read short. -/
theorem fillOutput_fallback : ∃ blank, (cfg.defaultPoint.Dark → blank.Dark) ∧
    (fillOutput cfg f s).fallback = List.replicate
      (if inBufferingHold cfg f s then f.req.minimumPointsRequired
        else if fallsShort f s && !allowsShortRead f s then blankCount f s else 0) blank := by
  unfold fillOutput
  split
  · exact ⟨_, fun h => fallbackPoint_dark h s, rfl⟩
  · simp only
    split
    · exact ⟨_, fun h => fallbackPoint_dark h _, rfl⟩
    · exact ⟨cfg.defaultPoint, id, rfl⟩

theorem fillOutput_points_length : (fillOutput cfg f s).points.length =
    if inBufferingHold cfg f s then 0 else toWrite f s := by
  cases hh : inBufferingHold cfg f s with
  | true => rw [fillOutput_hold cfg f s hh]; rfl
  | false =>
    rw [fillOutput_points cfg f s hh, List.length_take, toWrite]
    show min (min _ _) _ = min _ _
    omega

theorem fill_pendingPoints : (fill cfg f s).pendingPoints =
    s.pendingPoints.drop (fillOutput cfg f s).points.length :=
  congrArg Books.pendingPoints (fill_books cfg f s)

theorem fillOutput_length :
    ((fillOutput cfg f s).points ++ (fillOutput cfg f s).fallback).length =
      if inBufferingHold cfg f s then f.req.minimumPointsRequired
      else toWrite f s + if fallsShort f s && !allowsShortRead f s then blankCount f s else 0 := by
  obtain ⟨blank, _, hfallback⟩ := fillOutput_fallback cfg f s
  rw [List.length_append, fillOutput_points_length, hfallback, List.length_replicate]
  split
  · omega
  · rfl

/-! ## a callback with an empty output -/

theorem fillOutput_length_le (hempty : f.outSize = 0)
    (hmin : f.req.minimumPointsRequired ≤ f.req.maximumPointsRequired) :
    ((fillOutput cfg f s).points ++ (fillOutput cfg f s).fallback).length ≤
      f.req.maximumPointsRequired := by
  have hwrite : toWrite f s ≤ f.req.maximumPointsRequired := Nat.min_le_left _ _
  rw [fillOutput_length, blankCount, hempty]
  split
  · exact hmin
  · split <;> omega

theorem le_fillOutput_length (hempty : f.outSize = 0) (hread : allowsShortRead f s = false) :
    f.req.minimumPointsRequired ≤
      ((fillOutput cfg f s).points ++ (fillOutput cfg f s).fallback).length := by
  rw [fillOutput_length, hread, blankCount, fallsShort, hempty]
  split
  · exact le_rfl
  · simp only [Bool.not_false, Bool.and_true, decide_eq_true_eq]
    split <;> omega

/-- outside the hold, a callback that fills in has taken the whole queue -/
theorem fill_drained (hempty : f.outSize = 0)
    (hmin : f.req.minimumPointsRequired ≤ f.req.maximumPointsRequired)
    (hhold : inBufferingHold cfg f s = false) (hfills : (fillOutput cfg f s).fallback ≠ []) :
    (fill cfg f s).pendingPoints = [] := by
  have hshort : fallsShort f s = true := by
    by_contra hfalls
    obtain ⟨blank, _, hfallback⟩ := fillOutput_fallback cfg f s
    refine hfills ?_
    rw [hfallback, hhold, Bool.eq_false_of_not_eq_true hfalls]
    rfl
  have hlt : toWrite f s < f.req.minimumPointsRequired := by
    rw [fallsShort, decide_eq_true_eq] at hshort
    omega
  have hall : toWrite f s = s.pendingPoints.length := by
    unfold toWrite at hlt ⊢
    omega
  rw [fill_pendingPoints, fillOutput_points_length, hhold, hall]
  exact List.drop_length

end

section
variable (cfg : TargetConfig) (req : PointFillRequest) (now underrunNow : Int) (s : LiberaTarget)

/-- what a callback with an empty output runs with -/
def fillInput : FillInput := ⟨req, 0, s.lastObserved, now, underrunNow⟩

/-- a callback counts itself and then fills -/
theorem fillFromQueue_run (hmax : 0 < req.maximumPointsRequired) :
    (fillFromQueue cfg req 0 now underrunNow).run s =
      (fillOutput cfg (fillInput req now underrunNow s) { s with callbackCalls := s.callbackCalls + 1 },
        fill cfg (fillInput req now underrunNow s) { s with callbackCalls := s.callbackCalls + 1 }) := by
  unfold fillFromQueue
  rw [if_neg (by omega)]
  rfl

/-- **A callback meets its request.**  It appends a front part of the queue, which it removes, and then
fallback points without colour; at most as many as the request allows, and, unless the callback may read
short, at least as many as it needs; it fills in only when the queue has run out or in the buffering
hold; and in the hold it leaves the queue alone. -/
theorem fill_meets_request (hdefault : cfg.defaultPoint.Dark)
    (hmax : 0 < req.maximumPointsRequired)
    (hmin : req.minimumPointsRequired ≤ req.maximumPointsRequired) :
    let r := (fillFromQueue cfg req 0 now underrunNow).run s
    let output := r.1.points ++ r.1.fallback
    let shortRead := req.allowShortRead && !isAwaitingInputLocked s now 2000000000
    let hold := !s.frameReplacementMode && !shortRead && s.buffering &&
      decide (s.pendingPoints.length + s.lastObserved.pointsInBuffer < targetBufferedPoints cfg s)
    (∃ n k blank, n ≤ s.pendingPoints.length ∧ r.1.points = s.pendingPoints.take n ∧
      r.2.pendingPoints = s.pendingPoints.drop n ∧ r.1.fallback = List.replicate k blank ∧
        blank.Dark) ∧
    output.length ≤ req.maximumPointsRequired ∧
    (shortRead = false → req.minimumPointsRequired ≤ output.length) ∧
    (r.1.fallback ≠ [] → r.2.pendingPoints = [] ∨ hold = true) ∧
    (hold = true → r.1.points = []) := by
  intro r output shortRead hold
  let f := fillInput req now underrunNow s
  let t : LiberaTarget := { s with callbackCalls := s.callbackCalls + 1 }
  have hrun : r = (fillOutput cfg f t, fill cfg f t) := fillFromQueue_run cfg req now underrunNow s hmax
  have houtput : output = (fillOutput cfg f t).points ++ (fillOutput cfg f t).fallback := by
    show r.1.points ++ r.1.fallback = _
    rw [hrun]
  have hhold : inBufferingHold cfg f t = hold := rfl
  rw [houtput, hrun]
  obtain ⟨blank, hdark, hfallback⟩ := fillOutput_fallback cfg f t
  have htaken : (fillOutput cfg f t).points.length ≤ s.pendingPoints.length := by
    have hwrite : toWrite f t ≤ s.pendingPoints.length := Nat.min_le_right _ _
    rw [fillOutput_points_length]
    split <;> omega
  refine ⟨⟨_, _, blank, htaken, fillOutput_take cfg f t, fill_pendingPoints cfg f t, hfallback,
      hdark hdefault⟩,
    fillOutput_length_le cfg f t rfl hmin, le_fillOutput_length cfg f t rfl, ?_, ?_⟩
  · intro hfills
    cases hh : hold with
    | true => exact .inr rfl
    | false => exact .inl (fill_drained cfg f t rfl hmin (hhold.trans hh) hfills)
  · intro hh
    rw [fillOutput_hold cfg f t (hhold.trans hh)]

end

/-- a target that shows a frame of two points -/
def shownFrame : LiberaTarget :=
  ((replaceFrame smallTarget
    { slices := [{ points := [⟨0, 0, 1, 1, 1, 1, 0, 0⟩, ⟨1, 1, 1, 1, 1, 1, 0, 0⟩] }] }
    quietAnswers).run (.new smallTarget 10 0)).2

/-- three points are needed and two are queued: they are taken, and a dark one at the place of the last
of them follows -/
theorem fill_meets_request_short :
    let r := (fillFromQueue smallTarget ⟨3, 5, false⟩ 0 0 0).run shownFrame
    (r.1.points ++ r.1.fallback).length ≤ 5 ∧ 3 ≤ (r.1.points ++ r.1.fallback).length ∧
      r.1.points = shownFrame.pendingPoints ∧ r.1.points.length = 2 ∧
      r.1.fallback = [⟨1, 1, 0, 0, 0, 0, 0, 0⟩] := by
  have h := fill_meets_request smallTarget ⟨3, 5, false⟩ 0 0 shownFrame ⟨rfl, rfl, rfl⟩
    (by decide) (by decide)
  exact ⟨h.2.1, h.2.2.1 rfl, by decide +kernel, by decide +kernel, by decide +kernel⟩

end LiberaLink.Target
