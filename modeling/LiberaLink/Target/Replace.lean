import LiberaLink.Target.Limits

/-!
# A frame that replaces the queue

`replaceFrame` cuts a frame twice: at its end, by the live limit for the rate the target runs at, and at
its front, by what the controller has buffered.  Only the second cut is counted, and the limit is the
one from before the frame has set its rate.

* `replaceFrame_run`          what the call leaves and returns;
* `replace_counts_iff`        **the counts are right for the frames that the limit does not cut**;
* `replace_idempotent_iff`    **a replayed frame is the same picture when both limits cut it alike**.
-/

namespace LiberaLink.Target
open Stepwise

/-- what the controller has buffered when a frame comes -/
def Answers.downstream (a : Answers) : Nat := (a.breakdown.map fun b => b.pointsInBuffer).getD 0

section
variable (cfg : TargetConfig) (submission : FrameSubmission) (a : Answers) (s : LiberaTarget)

/-- what a frame is cut to at its end -/
def replacementPoints : List LaserPoint :=
  (framePoints submission).take (liveReplacementPointLimit cfg s)

/-- how many points the section drops from its front -/
def frontDrop : Nat := replaceDrop cfg (replacementPoints cfg submission s) a.downstream

theorem frontDrop_le : frontDrop cfg submission a s ≤ (replacementPoints cfg submission s).length :=
  Nat.min_le_right _ _

end

/-! ## the call, action by action -/

section
variable (cfg : TargetConfig) (s : LiberaTarget)

theorem perform_run (l : TargetAct) : (perform cfg l).run s = ((), effect cfg l s) := rfl

theorem look_run {α : Type} (r : LiberaTarget → α) : (look cfg r).run s = (r s, s) := rfl

theorem exchange_run {α : Type} (l : TargetAct) (r : LiberaTarget → α) (u : LiberaTarget → LiberaTarget) :
    (Prog.exchange l r u).run s = (r s, u s) := rfl

theorem finish_run (accepted : Bool) (submittedPoints n : Nat) (a : Answers) :
    (finish cfg accepted submittedPoints n a).run s =
      (makeSubmissionResult cfg accepted submittedPoints n (downstreamBufferSnapshot a.breakdownAfter s),
        effect cfg (.report n) (downstreamBufferSnapshot a.breakdownAfter s)) := rfl

theorem finish_state (accepted : Bool) (submittedPoints n : Nat) (a : Answers) :
    ((finish cfg accepted submittedPoints n a).run s).2 = {
      s with
      lastObserved := (downstreamBufferSnapshot a.breakdownAfter s).lastObserved
      log := s.log ++ [.reported n] } := rfl

end

section
variable (cfg : TargetConfig) (submission : FrameSubmission) (a : Answers) (s : LiberaTarget)

/-- the target after the section of `replaceFrame` and the update of its rate -/
def replaced : LiberaTarget :=
  maybeUpdatePointRate cfg
    (replaceQueue cfg (replacementPoints cfg submission s) a.downstream a.now
      (downstreamBufferSnapshot a.breakdown (effect cfg (.announceFrame true
        (validSlices submission).length (framePoints submission).length
        ((framePoints submission).countP isLitPoint)) (installPointCallback s))))
    (frameRate submission) a.avbRate

/-- **The call is these actions**, for a frame with points. -/
theorem replaceFrame_run (hne : framePoints submission ≠ []) :
    (replaceFrame cfg submission a).run s =
      (finish cfg true (framePoints submission).length (frontDrop cfg submission a s) a).run
        (if submission.clearTransportPrefetch
          then effect cfg .clearPrefetch (replaced cfg submission a s)
          else replaced cfg submission a s) := by
  have hslices : submission.slices ≠ [] := by
    intro h
    exact hne (by rw [framePoints, h]; rfl)
  unfold replaceFrame
  rw [if_neg hslices, Prog.bind_eq, Prog.run_bind, perform_run]
  simp only
  rw [if_neg hne]
  simp only [Prog.bind_eq, Prog.run_bind, perform_run, look_run, exchange_run]
  cases submission.clearTransportPrefetch with
  | true => rfl
  | false => rfl

theorem replaceFrame_run_nil (hnil : framePoints submission = []) :
    ((replaceFrame cfg submission a).run s).1.accepted = false ∧
      ((replaceFrame cfg submission a).run s).2.pendingPoints = s.pendingPoints := by
  unfold replaceFrame
  split
  · exact ⟨rfl, rfl⟩
  · rw [Prog.bind_eq, Prog.run_bind, perform_run]
    simp only
    rw [if_pos hnil]
    exact ⟨rfl, rfl⟩

theorem replaced_books : (replaced cfg submission a s).books = {
    pendingPoints := (replacementPoints cfg submission s).drop (frontDrop cfg submission a s)
    receivedPoints := s.receivedPoints + .ofNat (framePoints submission).length
    emittedPoints := s.emittedPoints
    droppedPoints := s.droppedPoints + .ofNat (frontDrop cfg submission a s)
    log := s.log ++ [.replaced s.pendingPoints, .pushed (replacementPoints cfg submission s),
      .dropped ((replacementPoints cfg submission s).take (frontDrop cfg submission a s))] } :=
  maybeUpdatePointRate_books cfg _ _ _

/-- what the call leaves behind the section and the rate, for a frame with points -/
theorem replaceFrame_state (hne : framePoints submission ≠ []) : ∃ calls,
    ((replaceFrame cfg submission a).run s).2 = {
      replaced cfg submission a s with
      controller := (replaced cfg submission a s).controller ++ calls
      lastObserved := (downstreamBufferSnapshot a.breakdownAfter s).lastObserved
      log := (replaced cfg submission a s).log ++ [.reported (frontDrop cfg submission a s)] } := by
  rw [replaceFrame_run cfg submission a s hne, finish_run]
  generalize replaced cfg submission a s = u
  split
  · exact ⟨_, rfl⟩
  · refine ⟨[], ?_⟩
    rw [List.append_nil]
    rfl

theorem replaceFrame_books (hne : framePoints submission ≠ []) :
    ((replaceFrame cfg submission a).run s).2.books = {
      (replaced cfg submission a s).books with
      log := (replaced cfg submission a s).log ++ [.reported (frontDrop cfg submission a s)] } := by
  obtain ⟨_, h⟩ := replaceFrame_state cfg submission a s hne
  rw [h]
  rfl

theorem replaceFrame_pendingPoints (hne : framePoints submission ≠ []) :
    ((replaceFrame cfg submission a).run s).2.pendingPoints =
      (replacementPoints cfg submission s).drop (frontDrop cfg submission a s) := by
  have hbooks := replaceFrame_books cfg submission a s hne
  rw [replaced_books] at hbooks
  exact congrArg Books.pendingPoints hbooks

theorem replaceFrame_droppedPoints (hne : framePoints submission ≠ []) :
    ((replaceFrame cfg submission a).run s).2.droppedPoints =
      s.droppedPoints + .ofNat (frontDrop cfg submission a s) := by
  have hbooks := replaceFrame_books cfg submission a s hne
  rw [replaced_books] at hbooks
  exact congrArg Books.droppedPoints hbooks

theorem replaceFrame_log (hne : framePoints submission ≠ []) :
    ((replaceFrame cfg submission a).run s).2.log =
      s.log ++ ([.replaced s.pendingPoints, .pushed (replacementPoints cfg submission s)] ++
        [.dropped ((replacementPoints cfg submission s).take (frontDrop cfg submission a s)),
          .reported (frontDrop cfg submission a s)]) := by
  have hlog : ((replaceFrame cfg submission a).run s).2.log =
      (replaced cfg submission a s).log ++ [.reported (frontDrop cfg submission a s)] :=
    congrArg Books.log (replaceFrame_books cfg submission a s hne)
  have hbooks : (replaced cfg submission a s).log = _ :=
    congrArg Books.log (replaced_books cfg submission a s)
  rw [hlog, hbooks, List.append_assoc]
  rfl

/-- what the call returns, for a frame with points -/
theorem replaceFrame_result (hne : framePoints submission ≠ []) :
    let r := ((replaceFrame cfg submission a).run s).1
    r.accepted = true ∧ r.submittedPoints = (framePoints submission).length ∧
      r.droppedPoints = frontDrop cfg submission a s ∧
      r.acceptedPoints = (framePoints submission).length - frontDrop cfg submission a s := by
  have hle : frontDrop cfg submission a s ≤ (framePoints submission).length :=
    (frontDrop_le cfg submission a s).trans (List.length_take_le' _ _)
  rw [replaceFrame_run cfg submission a s hne, finish_run]
  refine ⟨rfl, rfl, rfl, ?_⟩
  show (framePoints submission).length - min _ (frontDrop cfg submission a s) = _
  rw [Nat.min_eq_right hle]

theorem replaceFrame_rate (hne : framePoints submission ≠ []) :
    ((replaceFrame cfg submission a).run s).2.currentPointRate =
      commandedRate cfg s.currentPointRate (frameRate submission) a.avbRate := by
  obtain ⟨_, h⟩ := replaceFrame_state cfg submission a s hne
  rw [h]
  show (replaced cfg submission a s).currentPointRate = _
  rw [replaced, maybeUpdatePointRate_eq]
  rfl

theorem replaceFrame_latencyMs (hne : framePoints submission ≠ []) :
    ((replaceFrame cfg submission a).run s).2.latencyMs = s.latencyMs := by
  obtain ⟨_, h⟩ := replaceFrame_state cfg submission a s hne
  rw [h]
  show (replaced cfg submission a s).latencyMs = _
  rw [replaced, maybeUpdatePointRate_eq]
  rfl

/-! ## the counts -/

/-- **The counts of a replaced frame** say what the call has done exactly if the frame is not longer
than the live limit: what the limit cuts off is neither accepted nor dropped. -/
theorem replace_counts_iff (haccepted : ((replaceFrame cfg submission a).run s).1.accepted = true) :
    (let r := (replaceFrame cfg submission a).run s;
      r.1.acceptedPoints = r.2.pendingPoints.length ∧
      r.1.droppedPoints = r.1.submittedPoints - r.1.acceptedPoints ∧
      r.2.droppedPoints = s.droppedPoints + .ofNat (r.1.submittedPoints - r.1.acceptedPoints) ∧
      r.2.pendingPoints.IsInfix (framePoints submission)) ↔
    (framePoints submission).length ≤ liveReplacementPointLimit cfg s := by
  have hne : framePoints submission ≠ [] := by
    intro hnil
    rw [(replaceFrame_run_nil cfg submission a s hnil).1] at haccepted
    cases haccepted
  obtain ⟨_, hsubmitted, hdropped, hpoints⟩ := replaceFrame_result cfg submission a s hne
  have hqueue := replaceFrame_pendingPoints cfg submission a s hne
  have hcount := replaceFrame_droppedPoints cfg submission a s hne
  have hdrop := frontDrop_le cfg submission a s
  have hlen : (replacementPoints cfg submission s).length =
      min (liveReplacementPointLimit cfg s) (framePoints submission).length := List.length_take
  simp only
  rw [hsubmitted, hdropped, hpoints, hqueue, hcount, List.length_drop]
  have hback : (framePoints submission).length -
      ((framePoints submission).length - frontDrop cfg submission a s) =
        frontDrop cfg submission a s := by omega
  rw [hback]
  constructor
  · intro h
    have := h.1
    omega
  · intro h
    refine ⟨by omega, rfl, rfl, ?_⟩
    exact (List.drop_suffix _ _).isInfix.trans (List.take_prefix _ _).isInfix

end

/-- a frame of `n` dark points that lasts `durationUs` -/
def darkFrame (n durationUs : Nat) : FrameSubmission :=
  { slices := [{ points := List.replicate n smallTarget.defaultPoint, durationUs := durationUs }] }

theorem replace_counts_iff_short :
    let r := (replaceFrame smallTarget (darkFrame 2 100) quietAnswers).run (.new smallTarget 10 0)
    r.1.accepted = true ∧ r.1.acceptedPoints = r.2.pendingPoints.length ∧
      r.1.droppedPoints = r.1.submittedPoints - r.1.acceptedPoints := by
  intro r
  have haccepted : r.1.accepted = true := by decide +kernel
  have h := (replace_counts_iff smallTarget (darkFrame 2 100) quietAnswers (.new smallTarget 10 0)
    haccepted).mpr (by decide +kernel)
  exact ⟨haccepted, h.1, h.2.1⟩

/-- One point more than the target keeps is cut off, counted as accepted, and not as dropped. -/
theorem replace_miscounts :
    let r := (replaceFrame smallTarget (darkFrame 1001 33333) quietAnswers).run
      (.new smallTarget 10 0)
    r.1.accepted = true ∧ r.1.acceptedPoints = 1001 ∧ r.2.pendingPoints.length = 1000 ∧
      r.1.acceptedPoints ≠ r.2.pendingPoints.length ∧ r.2.droppedPoints = 0 := by
  decide +kernel

section
variable (cfg : TargetConfig) (submission : FrameSubmission) (a : Answers) (s : LiberaTarget)

/-- the live limit at the rate that a frame commands -/
def commandedLimit : Nat :=
  liveReplacementPointLimit cfg {
    s with currentPointRate := commandedRate cfg s.currentPointRate (frameRate submission) a.avbRate }

end

theorem liveReplacementPointLimit_congr (cfg : TargetConfig) {s t : LiberaTarget}
    (hrate : s.currentPointRate = t.currentPointRate) (hlatency : s.latencyMs = t.latencyMs) :
    liveReplacementPointLimit cfg s = liveReplacementPointLimit cfg t :=
  livePointLimit_congr cfg hrate hlatency 1 (1 / 20)

/-- **A replayed frame.**  The second of two calls with the same frame, with the same downstream
estimate, leaves the queue as it is, and the first has cut the frame by the limit for the rate that the
frame commands, exactly if the limits before and after the frame has set its rate cut it alike. -/
theorem replace_idempotent_iff (cfg : TargetConfig) (submission : FrameSubmission) (a a' : Answers)
    (s : LiberaTarget) (hdownstream : a'.downstream = a.downstream) :
    (let r := (replaceFrame cfg submission a).run s
      let r' := (replaceFrame cfg submission a').run r.2
      r'.2.pendingPoints = r.2.pendingPoints ∧
      (r.1.accepted = true → ∃ rest, r.2.log = s.log ++ [.replaced s.pendingPoints,
        .pushed ((framePoints submission).take (liveReplacementPointLimit cfg r.2))] ++ rest)) ↔
    min (liveReplacementPointLimit cfg s) (framePoints submission).length =
      min (commandedLimit cfg submission a s) (framePoints submission).length := by
  by_cases hne : framePoints submission = []
  · have h := replaceFrame_run_nil cfg submission a s hne
    have h' := replaceFrame_run_nil cfg submission a' ((replaceFrame cfg submission a).run s).2 hne
    simp only [hne, List.length_nil, Nat.min_zero, iff_true]
    refine ⟨h'.2, fun hacc => ?_⟩
    rw [h.1] at hacc
    cases hacc
  · have hlimit : liveReplacementPointLimit cfg ((replaceFrame cfg submission a).run s).2 =
        commandedLimit cfg submission a s :=
      liveReplacementPointLimit_congr cfg (replaceFrame_rate cfg submission a s hne)
        (replaceFrame_latencyMs cfg submission a s hne)
    have hacc := (replaceFrame_result cfg submission a s hne).1
    rw [← List.take_eq_take_iff]
    simp only
    rw [replaceFrame_pendingPoints cfg submission a' _ hne,
      replaceFrame_pendingPoints cfg submission a s hne, replaceFrame_log cfg submission a s hne,
      hlimit]
    constructor
    · intro h
      obtain ⟨rest, hrest⟩ := h.2 hacc
      rw [List.append_assoc, List.append_cancel_left_eq] at hrest
      simp only [List.cons_append, List.nil_append, List.cons.injEq,
        TargetEvent.pushed.injEq] at hrest
      exact hrest.2.1
    · intro h
      have hsame : replacementPoints cfg submission ((replaceFrame cfg submission a).run s).2 =
          replacementPoints cfg submission s := by
        unfold replacementPoints
        rw [hlimit, h]
      have hfront : frontDrop cfg submission a' ((replaceFrame cfg submission a).run s).2 =
          frontDrop cfg submission a s := by
        unfold frontDrop
        rw [hsame, hdownstream]
      rw [hsame, hfront, ← h]
      refine ⟨rfl, fun _ => ⟨[.dropped ((replacementPoints cfg submission s).take
        (frontDrop cfg submission a s)), .reported (frontDrop cfg submission a s)], ?_⟩⟩
      exact (List.append_assoc s.log _ _).symm

/-- a queue that no frame below fills -/
def roomyTarget : TargetConfig :=
  .make ⟨⟨"a", "A", "USB", 60000⟩, 100000, 10, 100, true⟩ ⟨0, 0, 0, 0, 0, 0, 0, 0⟩

theorem replace_idempotent_iff_short :
    let r := (replaceFrame roomyTarget (darkFrame 500 10000) quietAnswers).run (.new roomyTarget 10 0)
    ((replaceFrame roomyTarget (darkFrame 500 10000) quietAnswers).run r.2).2.pendingPoints =
      r.2.pendingPoints := by
  intro r
  exact ((replace_idempotent_iff roomyTarget (darkFrame 500 10000) quietAnswers quietAnswers
    (.new roomyTarget 10 0) rfl).mpr (by decide +kernel)).1

/-- 2000 points in 33 ms, on a target that runs at 30000 points a second: the limit is 1500 points for
the first call, which sets the rate to 60000, and 3000 for the second. -/
theorem replace_not_idempotent :
    let r := (replaceFrame roomyTarget (darkFrame 2000 33333) quietAnswers).run (.new roomyTarget 10 0)
    let r' := (replaceFrame roomyTarget (darkFrame 2000 33333) quietAnswers).run r.2
    r.2.pendingPoints.length = 1500 ∧ r'.2.pendingPoints.length = 2000 ∧
      r'.2.pendingPoints ≠ r.2.pendingPoints := by
  intro r r'
  have hfirst : r.2.pendingPoints.length = 1500 := by decide +kernel
  have hsecond : r'.2.pendingPoints.length = 2000 := by decide +kernel
  refine ⟨hfirst, hsecond, ?_⟩
  intro h
  rw [h, hfirst] at hsecond
  cases hsecond

end LiberaLink.Target
