import LiberaLink.Target.Rates

/-!
# What a refused submission leaves

A target refuses a slice without points, a frame without points, and a frame that its controller does
not take.  Which point callback a controller has installed follows from the calls it got, in a way of
its own: it is a parameter.

* `submitContinuous_refused`, `replaceFrame_refused`, `submitFrame_refused`   when each is refused, and
  what it has done by then;
* `refused_unchanged_iff`    **when a refused submission leaves the target as it was**.
-/

namespace LiberaLink.Target
open Stepwise

/-- What a refused submission is to leave alone, on a controller with the point callback `installed`
after the calls it got. -/
structure Unchanged {κ : Type} (installed : List ControllerCall → κ) (s t : LiberaTarget) : Prop where
  pendingPoints : t.pendingPoints = s.pendingPoints
  frameReplacementMode : t.frameReplacementMode = s.frameReplacementMode
  buffering : t.buffering = s.buffering
  callback : installed t.controller = installed s.controller

/-! ## the submissions -/

inductive Submission where
  | continuous (submission : SliceSubmission)
  | replace (submission : FrameSubmission)
  | frame (submission : FrameSubmission)

def Submission.run (cfg : TargetConfig) (a : Answers) : Submission → TargetM SubmissionResult
  | .continuous submission => submitContinuous cfg submission a
  | .replace submission => replaceFrame cfg submission a
  | .frame submission => submitFrame cfg submission a

section
variable (cfg : TargetConfig) (submission : FrameSubmission) (a : Answers) (s : LiberaTarget)

/-- what `submitFrame` has sent to the controller when that takes the frame or not -/
def frameCalls : List ControllerCall :=
  rateCalls cfg s.currentPointRate (submission.effectivePointRate.getD (frameRate submission)) ++
    [.sendFrame (framePoints submission) submission.targetBeginTime]

/-! ## when they are refused -/

/-- the end of a refused submission leaves the target alone -/
theorem finish_unchanged {κ : Type} (installed : List ControllerCall → κ) (submittedPoints n : Nat) :
    Unchanged installed s ((finish cfg false submittedPoints n a).run s).2 := by
  rw [finish_state]
  exact ⟨rfl, rfl, rfl, rfl⟩

/-- and so does the count of its points as dropped -/
theorem dropped_unchanged (n : Nat) :
    Unchanged id s ((finish cfg false n n a).run (effect cfg (.countDropped n) s)).2 := by
  rw [finish_state]
  exact ⟨rfl, rfl, rfl, rfl⟩

/-- the target after a frame has been sent -/
def frameSent : LiberaTarget :=
  effect cfg (.sendFrame (framePoints submission) submission.targetBeginTime)
    (clearQueue a.now (maybeUpdatePointRate cfg
      (effect cfg (.announceFrame false (validSlices submission).length
        (framePoints submission).length ((framePoints submission).countP isLitPoint)) s)
      (submission.effectivePointRate.getD (frameRate submission)) a.avbRate))

theorem frameSent_flags : (frameSent cfg submission a s).frameReplacementMode = false ∧
    (frameSent cfg submission a s).buffering = false := by
  unfold frameSent
  rw [maybeUpdatePointRate_eq]
  exact ⟨rfl, rfl⟩

theorem frameSent_controller : (frameSent cfg submission a s).controller =
    s.controller ++ frameCalls cfg submission s := by
  unfold frameSent
  rw [maybeUpdatePointRate_eq, frameCalls, ← List.append_assoc]
  rfl

/-- **The call is these actions**, for a frame with points. -/
theorem submitFrame_run (hne : framePoints submission ≠ []) :
    (submitFrame cfg submission a).run s =
      if a.sends then (finish cfg true (framePoints submission).length 0 a).run
          (frameSent cfg submission a s)
      else (finish cfg false (framePoints submission).length (framePoints submission).length a).run
          (effect cfg (.countDropped (framePoints submission).length) (frameSent cfg submission a s)) := by
  have hslices : submission.slices ≠ [] := by
    intro h
    exact hne (by rw [framePoints, h]; rfl)
  unfold submitFrame
  simp only
  rw [if_neg (not_or.mpr ⟨hslices, hne⟩)]
  simp only [Prog.bind_eq, Prog.run_bind, perform_run]
  cases a.sends with
  | true => rfl
  | false => rfl

end

section
variable {κ : Type} (installed : List ControllerCall → κ)

/-- A refused submission does nothing to its target: a frame of empty slices may install the callback
again, and a frame that the controller does not take comes to an empty queue in frame mode. -/
def Submission.Harmless (cfg : TargetConfig) (a : Answers) (s : LiberaTarget) : Submission → Prop
  | .continuous _ => True
  | .replace submission => submission.slices ≠ [] → framePoints submission = [] →
      installed (s.controller ++ [.setRequestPointsCallback]) = installed s.controller
  | .frame submission => framePoints submission ≠ [] → a.sends = false →
      s.pendingPoints = [] ∧ s.frameReplacementMode = false ∧ s.buffering = false ∧
        installed (s.controller ++ frameCalls cfg submission s) = installed s.controller

variable (cfg : TargetConfig) (a : Answers) (s : LiberaTarget)

theorem submitContinuous_refused (submission : SliceSubmission)
    (h : ((submitContinuous cfg submission a).run s).1.accepted = false) :
    Unchanged installed s ((submitContinuous cfg submission a).run s).2 := by
  by_cases hnil : submission.points = []
  · rw [submitContinuous_run_nil cfg submission a s hnil]
    exact finish_unchanged cfg a s installed 0 0
  · rw [submitContinuous_run cfg submission a s hnil, finish_run] at h
    cases h

/-- A frame is refused by `replaceFrame` for want of points, with the callback installed before it sees
that. -/
theorem replaceFrame_refused (submission : FrameSubmission) :
    let r := (replaceFrame cfg submission a).run s
    (r.1.accepted = false → Unchanged installed s r.2) ↔
      (Submission.replace submission).Harmless installed cfg a s := by
  intro r
  by_cases hslices : submission.slices = []
  · refine ⟨fun _ h => absurd hslices h, fun _ _ => ?_⟩
    show Unchanged installed s ((replaceFrame cfg submission a).run s).2
    unfold replaceFrame
    rw [if_pos hslices]
    exact finish_unchanged cfg a s installed 0 0
  · by_cases hnil : framePoints submission = []
    · have hrun : r = (finish cfg false 0 0 a).run (installPointCallback s) := by
        show (replaceFrame cfg submission a).run s = _
        unfold replaceFrame
        rw [if_neg hslices, Prog.bind_eq, Prog.run_bind, perform_run]
        simp only
        rw [if_pos hnil]
        rfl
      have hrefused : r.1.accepted = false := by
        rw [hrun]
        rfl
      have hend : Unchanged installed (installPointCallback s) r.2 := by
        rw [hrun]
        exact finish_unchanged cfg a (installPointCallback s) installed 0 0
      constructor
      · intro h _ _
        exact hend.callback.symm.trans (h hrefused).callback
      · intro h _
        exact ⟨hend.pendingPoints, hend.frameReplacementMode, hend.buffering,
          hend.callback.trans (h hslices hnil)⟩
    · have haccepted : r.1.accepted = true := (replaceFrame_result cfg submission a s hnil).1
      rw [haccepted]
      exact ⟨fun _ _ h => absurd h hnil, fun _ h => absurd h (by decide)⟩

/-- A frame that its controller does not take is refused by `submitFrame` after the queue is cleared. -/
theorem submitFrame_refused (submission : FrameSubmission) :
    let r := (submitFrame cfg submission a).run s
    (r.1.accepted = false → Unchanged installed s r.2) ↔
      (Submission.frame submission).Harmless installed cfg a s := by
  intro r
  by_cases hnil : framePoints submission = []
  · refine ⟨fun _ h => absurd hnil h, fun _ _ => ?_⟩
    show Unchanged installed s ((submitFrame cfg submission a).run s).2
    unfold submitFrame
    simp only
    rw [if_pos (.inr hnil)]
    exact finish_unchanged cfg a s installed 0 0
  · have hrun : r = _ := submitFrame_run cfg submission a s hnil
    cases hsends : a.sends with
    | true =>
      rw [hsends, if_pos rfl, finish_run] at hrun
      rw [hrun]
      constructor
      · intro _ _ h
        rw [hsends] at h
        cases h
      · intro _ h
        cases h
    | false =>
      rw [hsends, if_neg Bool.false_ne_true] at hrun
      obtain ⟨hmode, hbuffering⟩ := frameSent_flags cfg submission a s
      have hcalls := frameSent_controller cfg submission a s
      have hqueue : (frameSent cfg submission a s).pendingPoints = [] := rfl
      have hend : Unchanged id (frameSent cfg submission a s) r.2 := by
        rw [hrun]
        exact dropped_unchanged cfg a (frameSent cfg submission a s) _
      rw [← hend.frameReplacementMode] at hmode
      rw [← hend.buffering] at hbuffering
      rw [← hend.pendingPoints] at hqueue
      have hcalls : r.2.controller = _ := hend.callback.trans hcalls
      have hrefused : r.1.accepted = false := by
        rw [hrun]
        rfl
      constructor
      · intro h _ _
        have hsame := h hrefused
        rw [← hcalls, ← hsame.pendingPoints, ← hsame.frameReplacementMode, ← hsame.buffering]
        exact ⟨hqueue, hmode, hbuffering, hsame.callback⟩
      · intro h _
        obtain ⟨hspending, hsmode, hsbuffering, hinstalled⟩ := h hnil hsends
        rw [← hcalls] at hinstalled
        exact ⟨hqueue.trans hspending.symm, hmode.trans hsmode.symm,
          hbuffering.trans hsbuffering.symm, hinstalled⟩

/-- **A refused submission leaves the target as it was** exactly in these cases. -/
theorem refused_unchanged_iff (submission : Submission) :
    let r := (submission.run cfg a).run s
    (r.1.accepted = false → Unchanged installed s r.2) ↔ submission.Harmless installed cfg a s := by
  cases submission with
  | continuous submission =>
    exact ⟨fun _ => trivial, fun _ => submitContinuous_refused installed cfg a s submission⟩
  | replace submission => exact replaceFrame_refused installed cfg a s submission
  | frame submission => exact submitFrame_refused installed cfg a s submission

end

/-- the surroundings of a submission whose frame the controller does not take -/
def refusing : Answers := { quietAnswers with sends := false }

/-- A point is queued, and a frame that the controller does not take clears it. -/
theorem refused_frame_clears_queue :
    let s := ((submitContinuous smallTarget onePoint quietAnswers).run (.new smallTarget 10 0)).2
    let r := (submitFrame smallTarget { slices := [onePoint] } refusing).run s
    s.pendingPoints.length = 1 ∧ r.1.accepted = false ∧ r.2.pendingPoints = [] := by
  decide +kernel

end LiberaLink.Target
