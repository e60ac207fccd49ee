import LiberaLink.Target.Replace

/-!
# What a continuous submission drops

A submission that finds the queue longer than the live limit drops points from its front: as many as
are over the limit, or up to the next boundary, a point with two blank points right before it.

* `BoundaryAt`, `isBoundary_iff`     the boundaries, and the run of blank points that finds them;
* `TrimmedBy`, `overflowDrop_spec`   how many points are dropped;
* `submitContinuous_run`             the call is its section under the mutex;
* `overflow_trim`                    **the queue after a submission**;
* `trim_keeps_target_iff`            **the queue keeps its target unless the boundary is near its end**.
-/

namespace LiberaLink.Target
open Stepwise

/-! ## boundaries -/

/-- The point at `i` is not blank, and the two points before it are. -/
def BoundaryAt (queue : List LaserPoint) (i : Nat) : Prop :=
  ∃ j x y p, i = j + 2 ∧ queue[j]? = some x ∧ queue[j + 1]? = some y ∧ queue[j + 2]? = some p ∧
    isBlankForBoundary x = true ∧ isBlankForBoundary y = true ∧ isBlankForBoundary p = false

section
variable (queue : List LaserPoint)

/-- a blank point is at `i` -/
theorem blank_iff (i : Nat) : (queue[i]?.map isBlankForBoundary).getD false = true ↔
    ∃ p, queue[i]? = some p ∧ isBlankForBoundary p = true := by
  cases queue[i]? with
  | none => simp
  | some p => simp

/-- a point that is not blank is at `i` -/
theorem not_blank_iff (i : Nat) : (!(queue[i]?.map isBlankForBoundary).getD true) = true ↔
    ∃ p, queue[i]? = some p ∧ isBlankForBoundary p = false := by
  cases queue[i]? with
  | none => simp
  | some p => simp

theorem two_le_blankRunBefore (i : Nat) : 2 ≤ blankRunBefore queue i ↔
    ∃ j, i = j + 2 ∧ (queue[j]?.map isBlankForBoundary).getD false = true ∧
      (queue[j + 1]?.map isBlankForBoundary).getD false = true := by
  match i with
  | 0 => simp [blankRunBefore]
  | 1 =>
    unfold blankRunBefore
    constructor
    · intro h
      split at h
      · simp [blankRunBefore] at h
      · omega
    · rintro ⟨j, hj, _⟩
      omega
  | j + 2 =>
    unfold blankRunBefore
    constructor
    · intro h
      split at h
      · rename_i hy
        unfold blankRunBefore at h
        split at h
        · rename_i hx
          exact ⟨j, rfl, hx, hy⟩
        · omega
      · omega
    · rintro ⟨j', hj, hx, hy⟩
      obtain rfl : j = j' := by omega
      rw [if_pos hy, blankRunBefore, if_pos hx]
      omega

theorem isBoundary_iff (i : Nat) : isBoundary queue i = true ↔ BoundaryAt queue i := by
  unfold isBoundary
  rw [Bool.and_eq_true, Bool.and_eq_true, decide_eq_true_eq, two_le_blankRunBefore, not_blank_iff]
  constructor
  · rintro ⟨⟨⟨p, hp, hlit⟩, _⟩, j, rfl, hx, hy⟩
    obtain ⟨x, hx, hxblank⟩ := (blank_iff queue j).mp hx
    obtain ⟨y, hy, hyblank⟩ := (blank_iff queue (j + 1)).mp hy
    exact ⟨j, x, y, p, rfl, hx, hy, hp, hxblank, hyblank, hlit⟩
  · rintro ⟨j, x, y, p, rfl, hx, hy, hp, hxblank, hyblank, hlit⟩
    have hbefore := (blank_iff queue (j + 1)).mpr ⟨y, hy, hyblank⟩
    exact ⟨⟨⟨p, hp, hlit⟩, hbefore⟩, j, rfl, (blank_iff queue j).mpr ⟨x, hx, hxblank⟩, hbefore⟩

end

/-! ## how many points are dropped -/

/-- the boundaries behind the points that are over the limit -/
def Boundaries (limit : Nat) (queue : List LaserPoint) : Set Nat :=
  {i | queue.length - limit ≤ i ∧ i < queue.length ∧ BoundaryAt queue i}

/-- What the trimming is to drop: nothing within the limit; else up to the first boundary behind the
points that are over the limit, or these alone if there is none. -/
def TrimmedBy (limit : Nat) (queue : List LaserPoint) (d : Nat) : Prop :=
  if queue.length ≤ limit then d = 0
  else IsLeast (Boundaries limit queue) d ∨ Boundaries limit queue = ∅ ∧ d = queue.length - limit

section
variable (limit : Nat) (queue : List LaserPoint)

theorem overflowDrop_spec : TrimmedBy limit queue (overflowDrop limit queue) := by
  unfold TrimmedBy overflowDrop
  by_cases hfits : queue.length ≤ limit
  · rw [if_pos hfits, if_neg (by omega)]
  · rw [if_neg hfits, if_pos (by omega)]
    have hstart : min (max (queue.length - limit) 1) queue.length = queue.length - limit := by omega
    simp only
    rw [hstart]
    cases hfind : (List.range' (queue.length - limit)
        (queue.length - (queue.length - limit))).find? (isBoundary queue) with
    | none =>
      refine .inr ⟨?_, Nat.min_eq_left (Nat.sub_le _ _)⟩
      rw [Set.eq_empty_iff_forall_notMem]
      rintro i ⟨hover, hlt, hboundary⟩
      have hnot := List.find?_range'_eq_none.mp hfind i hover (by omega)
      rw [(isBoundary_iff queue i).mpr hboundary] at hnot
      cases hnot
    | some i =>
      obtain ⟨hboundary, hmem, hfirst⟩ := List.find?_range'_eq_some.mp hfind
      rw [List.mem_range'_1] at hmem
      have hlt : i < queue.length := by omega
      have hdrop : min ((some i).getD (queue.length - limit)) queue.length = i :=
        Nat.min_eq_left (Nat.le_of_lt hlt)
      rw [hdrop]
      refine .inl ⟨⟨hmem.1, hlt, (isBoundary_iff queue i).mp hboundary⟩, ?_⟩
      rintro j ⟨hover, _, hj⟩
      by_contra hbefore
      have hnot := hfirst j hover (by omega)
      rw [(isBoundary_iff queue j).mpr hj] at hnot
      cases hnot

/-- the points over the limit are dropped, but never the last point -/
theorem overflowDrop_bounds : queue.length - limit ≤ overflowDrop limit queue ∧
    (1 ≤ limit → queue ≠ [] → overflowDrop limit queue < queue.length) := by
  have hspec := overflowDrop_spec limit queue
  have hsome : queue ≠ [] → 0 < queue.length := List.length_pos_iff.mpr
  unfold TrimmedBy at hspec
  split at hspec
  · exact ⟨by omega, fun _ hne => by have := hsome hne; omega⟩
  · rcases hspec with hleast | ⟨_, hdrop⟩
    · exact ⟨hleast.1.1, fun _ _ => hleast.1.2.1⟩
    · exact ⟨by omega, fun _ hne => by have := hsome hne; omega⟩

end

/-! ## the call -/

/-- the rate that a slice commands -/
def sliceRate (submission : SliceSubmission) : Nat :=
  submission.effectivePointRate.getD
    (inferCommandedPointRate submission.points.length submission.durationUs)

section
variable (cfg : TargetConfig) (submission : SliceSubmission) (a : Answers) (s : LiberaTarget)

/-- the target when a slice has set its rate -/
def paced : LiberaTarget :=
  maybeUpdatePointRate cfg (effect cfg (.announceSlice submission.points.length) s)
    (sliceRate submission) a.avbRate

/-- how many points a slice makes the target drop -/
def sliceDrop : Nat :=
  overflowDrop (liveContinuousPointLimit cfg (paced cfg submission a s))
    (s.pendingPoints ++ submission.points)

/-- the target after the section of `submitContinuous` -/
def streamed : LiberaTarget :=
  queueSlice submission.points (liveContinuousPointLimit cfg (paced cfg submission a s)) a.now
    (effect cfg (.countLit (submission.points.countP isLitPoint))
      (downstreamBufferSnapshot a.breakdown (paced cfg submission a s)))

theorem paced_pendingPoints : (paced cfg submission a s).pendingPoints = s.pendingPoints :=
  congrArg Books.pendingPoints (maybeUpdatePointRate_books cfg _ _ _)

/-- **The call is these actions**, for a slice with points. -/
theorem submitContinuous_run (hne : submission.points ≠ []) :
    (submitContinuous cfg submission a).run s =
      (finish cfg true submission.points.length (sliceDrop cfg submission a s) a).run
        (streamed cfg submission a s) := by
  have hdrop : sliceDrop cfg submission a s =
      overflowDrop (liveContinuousPointLimit cfg (paced cfg submission a s))
        ((paced cfg submission a s).pendingPoints ++ submission.points) := by
    rw [sliceDrop, paced_pendingPoints]
  rw [hdrop]
  unfold submitContinuous
  simp only
  rw [if_neg (fun h => hne (List.length_eq_zero_iff.mp h))]
  simp only [Prog.bind_eq, Prog.run_bind, perform_run, look_run, exchange_run]
  rfl

theorem submitContinuous_run_nil (hnil : submission.points = []) :
    (submitContinuous cfg submission a).run s = (finish cfg false 0 0 a).run s := by
  unfold submitContinuous
  rw [hnil]
  rfl

/-- what the call leaves, for a slice with points -/
theorem submitContinuous_state (hne : submission.points ≠ []) :
    let t := ((submitContinuous cfg submission a).run s).2
    t.pendingPoints = (s.pendingPoints ++ submission.points).drop (sliceDrop cfg submission a s) ∧
      t.currentPointRate = (paced cfg submission a s).currentPointRate ∧
      t.latencyMs = (paced cfg submission a s).latencyMs ∧
      t.commandedInputPps = (paced cfg submission a s).commandedInputPps := by
  intro t
  have hdrop : sliceDrop cfg submission a s =
      overflowDrop (liveContinuousPointLimit cfg (paced cfg submission a s))
        ((paced cfg submission a s).pendingPoints ++ submission.points) := by
    rw [sliceDrop, paced_pendingPoints]
  have ht : t = ((finish cfg true submission.points.length (sliceDrop cfg submission a s) a).run
      (streamed cfg submission a s)).2 := congrArg Prod.snd (submitContinuous_run cfg submission a s hne)
  rw [ht, finish_state, hdrop, ← paced_pendingPoints cfg submission a s]
  show (streamed cfg submission a s).pendingPoints = _ ∧
    (streamed cfg submission a s).currentPointRate = _ ∧
    (streamed cfg submission a s).latencyMs = _ ∧ (streamed cfg submission a s).commandedInputPps = _
  unfold streamed
  generalize liveContinuousPointLimit cfg (paced cfg submission a s) = limit
  generalize paced cfg submission a s = u
  exact ⟨rfl, rfl, rfl, rfl⟩

theorem submitContinuous_droppedPoints (hne : submission.points ≠ []) :
    ((submitContinuous cfg submission a).run s).1.droppedPoints = sliceDrop cfg submission a s := by
  rw [submitContinuous_run cfg submission a s hne, finish_run]
  rfl

/-- the limits after the call are those it has trimmed by -/
theorem submitContinuous_limits (hne : submission.points ≠ []) :
    liveContinuousPointLimit cfg ((submitContinuous cfg submission a).run s).2 =
        liveContinuousPointLimit cfg (paced cfg submission a s) ∧
      targetBufferedPoints cfg ((submitContinuous cfg submission a).run s).2 =
        targetBufferedPoints cfg (paced cfg submission a s) := by
  obtain ⟨_, hrate, hlatency, _⟩ := submitContinuous_state cfg submission a s hne
  generalize ((submitContinuous cfg submission a).run s).2 = t at hrate hlatency
  exact ⟨livePointLimit_congr cfg hrate hlatency 2 (1 / 10),
    targetBufferedPoints_congr cfg hrate hlatency⟩

/-- What a trimmed queue is, with the last point of the whole one. -/
structure Trimmed (limit : Nat) (queue rest : List LaserPoint) : Prop where
  suffix : ∃ d, TrimmedBy limit queue d ∧ rest = queue.drop d
  length : rest.length ≤ limit
  last : rest.getLast? = queue.getLast?

theorem overflowDrop_trims {limit : Nat} {queue : List LaserPoint} (hlimit : 1 ≤ limit)
    (hne : queue ≠ []) : Trimmed limit queue (queue.drop (overflowDrop limit queue)) := by
  obtain ⟨hover, hlast⟩ := overflowDrop_bounds limit queue
  have hlt := hlast hlimit hne
  refine ⟨⟨_, overflowDrop_spec limit queue, rfl⟩, ?_, ?_⟩
  · rw [List.length_drop]
    omega
  · rw [List.getLast?_drop, if_neg (by omega)]

/-- **The queue after a continuous submission** is what the trimming by the live limit leaves of the
old queue and the slice, and the section of the submission trims so for every limit. -/
theorem overflow_trim (hne : submission.points ≠ []) :
    let r := (submitContinuous cfg submission a).run s
    let queue := s.pendingPoints ++ submission.points
    (∀ limit now, 1 ≤ limit →
      Trimmed limit queue (queueSlice submission.points limit now s).pendingPoints) ∧
    1 ≤ liveContinuousPointLimit cfg r.2 ∧
      Trimmed (liveContinuousPointLimit cfg r.2) queue r.2.pendingPoints := by
  intro r queue
  have hqueue : queue ≠ [] := fun h => hne (List.append_eq_nil_iff.mp h).2
  refine ⟨fun limit now hlimit => overflowDrop_trims hlimit hqueue, ?_⟩
  have hlimit : 1000 ≤ liveContinuousPointLimit cfg (paced cfg submission a s) :=
    (livePointLimit_mem cfg _ 2 (1 / 10)).1
  rw [(submitContinuous_limits cfg submission a s hne).1,
    (submitContinuous_state cfg submission a s hne).1]
  exact ⟨by omega, overflowDrop_trims (by omega) hqueue⟩

end

/-- **An overfull queue keeps its target** exactly if the trimming has no boundary to go to, or one
that leaves as many points as the target wants buffered. -/
theorem trim_keeps_target_iff (cfg : TargetConfig) (submission : SliceSubmission) (a : Answers)
    (s : LiberaTarget) :
    let r := (submitContinuous cfg submission a).run s
    let queue := s.pendingPoints ++ submission.points
    let t := paced cfg submission a s
    let boundaries := Boundaries (liveContinuousPointLimit cfg t) queue
    (r.1.droppedPoints ≠ 0 → targetBufferedPoints cfg r.2 ≤ r.2.pendingPoints.length) ↔
      (submission.points ≠ [] → liveContinuousPointLimit cfg t < queue.length →
        boundaries.Nonempty → ∃ i ∈ boundaries, i + targetBufferedPoints cfg t ≤ queue.length) := by
  intro r queue t boundaries
  by_cases hnil : submission.points = []
  · have hrun : r.1.droppedPoints = 0 := by
      show ((submitContinuous cfg submission a).run s).1.droppedPoints = 0
      rw [submitContinuous_run_nil cfg submission a s hnil, finish_run]
      rfl
    exact ⟨fun _ hne => absurd hnil hne, fun _ hdropped => absurd hrun hdropped⟩
  · have hdropped : r.1.droppedPoints = sliceDrop cfg submission a s :=
      submitContinuous_droppedPoints cfg submission a s hnil
    have htarget : targetBufferedPoints cfg r.2 = targetBufferedPoints cfg t :=
      (submitContinuous_limits cfg submission a s hnil).2
    have hqueue : r.2.pendingPoints = queue.drop (sliceDrop cfg submission a s) :=
      (submitContinuous_state cfg submission a s hnil).1
    have hkeep : targetBufferedPoints cfg t ≤ liveContinuousPointLimit cfg t :=
      target_le_livePointLimit cfg t 2 (1 / 10)
    have hspec : TrimmedBy (liveContinuousPointLimit cfg t) queue (sliceDrop cfg submission a s) :=
      overflowDrop_spec _ _
    have hbounds := (overflowDrop_bounds (liveContinuousPointLimit cfg t) queue).1
    rw [hdropped, htarget, hqueue, List.length_drop]
    generalize sliceDrop cfg submission a s = d at hspec
    unfold TrimmedBy at hspec
    split at hspec
    · rename_i hfits
      exact ⟨fun _ _ hover => absurd hover (by omega), fun _ hd => absurd hspec hd⟩
    · rename_i hover
      rcases hspec with hleast | ⟨hnone, hd⟩
      · have hle : d < queue.length := hleast.1.2.1
        have hpos : d ≠ 0 := by
          have := hleast.1.1
          omega
        constructor
        · intro h _ _ _
          have := h hpos
          exact ⟨d, hleast.1, by omega⟩
        · intro h _
          obtain ⟨i, hi, hroom⟩ := h hnil (by omega) ⟨d, hleast.1⟩
          have := hleast.2 hi
          omega
      · constructor
        · intro _ _ _ hsome
          exact absurd hnone hsome.ne_empty
        · intro _ _
          omega

/-- one blank point -/
def onePoint : SliceSubmission := { points := [smallTarget.defaultPoint], durationUs := 33 }

/-- 100 blank points and 903 lit ones, on a target that keeps 1000 points and wants as many buffered -/
def lateBoundary : SliceSubmission where
  points := List.replicate 100 smallTarget.defaultPoint ++ List.replicate 903 ⟨0, 0, 1, 1, 1, 1, 0, 0⟩
  durationUs := 33433

/-- three points too many, and the first boundary behind them is at 100 -/
theorem overflow_trim_late :
    let s := LiberaTarget.new smallTarget 10 0
    let r := (submitContinuous smallTarget lateBoundary quietAnswers).run s
    Trimmed (liveContinuousPointLimit smallTarget r.2) lateBoundary.points r.2.pendingPoints ∧
      liveContinuousPointLimit smallTarget r.2 = 1000 ∧ lateBoundary.points.length = 1003 ∧
      isBoundary lateBoundary.points 100 = true ∧ r.2.pendingPoints.length = 903 := by
  have h := overflow_trim smallTarget lateBoundary quietAnswers (.new smallTarget 10 0)
    (List.cons_ne_nil _ _)
  exact ⟨h.2.2, by decide +kernel, by decide +kernel, by decide +kernel, by decide +kernel⟩

/-- The three points over the limit take 97 others with them, up to the first lit point. -/
theorem trim_starves :
    let r := (submitContinuous smallTarget lateBoundary quietAnswers).run (.new smallTarget 10 0)
    r.1.droppedPoints ≠ 0 ∧ r.2.pendingPoints.length = 903 ∧
      r.2.pendingPoints.length < targetBufferedPoints smallTarget r.2 := by
  decide +kernel

end LiberaLink.Target
