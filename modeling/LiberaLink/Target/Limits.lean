import LiberaLink.Target.Accounts

/-!
# How much a target keeps

What a target wants buffered is never more than what it keeps, and no operation asks for a queue that is
longer than the target keeps.

* `target_le_livePointLimit`, `livePointLimit_mem`  the limits in order;
* `InLimits`, `op_within`                           what the sections of an operation ask for;
* `System.fired`, `Pool.step`                       the action of a step;
* `run_within`                                      **what these actions keep holds in every run**.
-/

namespace LiberaLink.Target
open Stepwise Numeric

section
variable (cfg : TargetConfig) (s : LiberaTarget)

theorem targetBufferedPoints_mem :
    1000 ≤ targetBufferedPoints cfg s ∧ targetBufferedPoints cfg s ≤ cfg.maxQueuedPoints := by
  have hbound := cfg.queue_bound
  have hmem : 1000 ≤ targetBufferedPoints cfg s ∧
      targetBufferedPoints cfg s ≤ max 1000 (cfg.maxQueuedPoints - 1) :=
    clamp_mem (Nat.le_max_left _ _)
  omega

theorem livePointLimit_mem (targetMultiplier : Nat) (minimumSeconds : ℚ) :
    1000 ≤ livePointLimit cfg s targetMultiplier minimumSeconds ∧
      livePointLimit cfg s targetMultiplier minimumSeconds ≤ cfg.maxQueuedPoints :=
  clamp_mem cfg.queue_bound

/-- **A target keeps what it wants buffered**, so that the buffering hold comes to its end. -/
theorem target_le_livePointLimit (targetMultiplier : Nat) (minimumSeconds : ℚ) :
    targetBufferedPoints cfg s ≤ livePointLimit cfg s targetMultiplier minimumSeconds := by
  have hmax := (targetBufferedPoints_mem cfg s).2
  apply le_clamp _ hmax
  apply le_max_of_le_left
  split
  · exact hmax
  · exact Nat.le_mul_of_pos_right _ (by omega)

end

section
variable (cfg : TargetConfig) {s t : LiberaTarget} (hrate : s.currentPointRate = t.currentPointRate)
  (hlatency : s.latencyMs = t.latencyMs)
include hrate hlatency

theorem targetBufferedPoints_congr : targetBufferedPoints cfg s = targetBufferedPoints cfg t := by
  unfold targetBufferedPoints
  rw [hrate, hlatency]

theorem livePointLimit_congr (targetMultiplier : Nat) (minimumSeconds : ℚ) :
    livePointLimit cfg s targetMultiplier minimumSeconds =
      livePointLimit cfg t targetMultiplier minimumSeconds := by
  unfold livePointLimit
  rw [targetBufferedPoints_congr cfg hrate hlatency, hrate]

end

/-! ## what the sections ask for -/

/-- the points that a section puts into the queue, or leaves in it, are within the bound of the queue -/
def InLimits (cfg : TargetConfig) : TargetAct → Prop
  | .queueSlice _ limit _ => limit ≤ cfg.maxQueuedPoints
  | .replaceQueue points _ _ => points.length ≤ cfg.maxQueuedPoints
  | _ => True

/-- The typestate that allows the actions within the limits. -/
def within (cfg : TargetConfig) : Typestate TargetAct LiberaTarget Unit where
  effect := effect cfg
  next _ l _ := match l with
    | .queueSlice _ limit _ => if limit ≤ cfg.maxQueuedPoints then some () else none
    | .replaceQueue points _ _ => if points.length ≤ cfg.maxQueuedPoints then some () else none
    | _ => some ()

section
variable {cfg : TargetConfig} {α : Type}

theorem within_next {l : TargetAct} {s : LiberaTarget} :
    (within cfg).next () l s = some () ↔ InLimits cfg l := by
  cases l with
  | queueSlice points limit now => simp [within, InLimits]
  | replaceQueue points downstream now => simp [within, InLimits]
  | _ => exact ⟨fun _ => trivial, fun _ => rfl⟩

theorem within_perform {l : TargetAct} (hl : InLimits cfg l) {Q : Unit → Unit → Prop} (h : Q () ()) :
    (within cfg).Follows (perform cfg l) Q () :=
  Typestate.follows_modify (fun _ => within_next.mpr hl) h

theorem within_exchange {l : TargetAct} (hl : InLimits cfg l) {r : LiberaTarget → α}
    {Q : α → Unit → Prop} (h : ∀ s, Q (r s) ()) :
    (within cfg).Follows (Prog.exchange l r (effect cfg l)) Q () :=
  Typestate.follows_exchange fun s => ⟨(), within_next.mpr hl, h s⟩

theorem within_finish (accepted : Bool) (submittedPoints n : Nat) (a : Answers)
    {Q : SubmissionResult → Unit → Prop} (h : ∀ r, Q r ()) :
    (within cfg).Follows (finish cfg accepted submittedPoints n a) Q () := by
  rw [finish, Typestate.follows_bind]
  apply within_perform (by trivial)
  apply within_exchange (by trivial)
  exact fun _ => h _

theorem submitContinuous_within (submission : SliceSubmission) (a : Answers) :
    (within cfg).Follows (submitContinuous cfg submission a) (fun _ _ => True) () := by
  unfold submitContinuous
  simp only
  split
  · exact within_finish _ _ _ _ fun _ => trivial
  · simp only [Typestate.follows_bind]
    apply within_perform (by trivial)
    apply within_perform (by trivial)
    apply within_perform (by trivial)
    apply within_exchange (by trivial)
    intro s
    apply within_perform (by trivial)
    apply within_exchange (by exact (livePointLimit_mem cfg s 2 (1 / 10)).2)
    exact fun _ => within_finish _ _ _ _ fun _ => trivial

theorem replaceFrame_within (submission : FrameSubmission) (a : Answers) :
    (within cfg).Follows (replaceFrame cfg submission a) (fun _ _ => True) () := by
  unfold replaceFrame
  split
  · exact within_finish _ _ _ _ fun _ => trivial
  · rw [Typestate.follows_bind]
    apply within_perform (by trivial)
    simp only
    split
    · exact within_finish _ _ _ _ fun _ => trivial
    · simp only [Typestate.follows_bind]
      apply within_exchange (by trivial)
      intro s
      apply within_perform (by trivial)
      apply within_perform (by trivial)
      have hcut : ((framePoints submission).take (liveReplacementPointLimit cfg s)).length ≤
          cfg.maxQueuedPoints :=
        (List.length_take_le _ _).trans (livePointLimit_mem cfg s 1 (1 / 20)).2
      apply within_exchange (by exact hcut)
      intro _
      apply within_perform (by trivial)
      split
      · rw [Typestate.follows_bind]
        apply within_perform (by trivial)
        exact within_finish _ _ _ _ fun _ => trivial
      · exact within_finish _ _ _ _ fun _ => trivial

theorem submitFrame_within (submission : FrameSubmission) (a : Answers) :
    (within cfg).Follows (submitFrame cfg submission a) (fun _ _ => True) () := by
  unfold submitFrame
  simp only
  split
  · exact within_finish _ _ _ _ fun _ => trivial
  · simp only [Typestate.follows_bind]
    apply within_perform (by trivial)
    apply within_perform (by trivial)
    apply within_perform (by trivial)
    apply within_perform (by trivial)
    split
    · exact within_finish _ _ _ _ fun _ => trivial
    · rw [Typestate.follows_bind]
      apply within_perform (by trivial)
      exact within_finish _ _ _ _ fun _ => trivial

/-- **Every operation keeps to the limits.** -/
theorem op_within (op : TargetOp) : (within cfg).Follows (op.run cfg) (fun _ _ => True) () := by
  cases op with
  | submitContinuous submission a =>
    rw [TargetOp.run, Typestate.follows_bind]
    exact submitContinuous_within submission a
  | replaceFrame submission a =>
    rw [TargetOp.run, Typestate.follows_bind]
    exact replaceFrame_within submission a
  | submitFrame submission a =>
    rw [TargetOp.run, Typestate.follows_bind]
    exact submitFrame_within submission a
  | reset =>
    show (within cfg).Follows (reset cfg) _ ()
    simp only [reset, Typestate.follows_bind]
    apply within_perform (by trivial)
    apply within_perform (by trivial)
    exact within_perform (by trivial) trivial
  | fillFromQueue req outSize now underrunNow =>
    rw [TargetOp.run, Typestate.follows_bind]
    unfold fillFromQueue
    split
    · exact trivial
    · simp only [Typestate.follows_bind]
      apply within_perform (by trivial)
      apply within_exchange (by trivial)
      intro _
      apply within_exchange (by trivial)
      exact fun _ => trivial

end

/-! ## runs -/

/-- the action that a step makes, if it makes one -/
def System.fired (y : System) : SystemInput → Option TargetAct
  | .start _ => none
  | .run i => y.threads[i]?.bind Prog.next

/-- every operation under way keeps to the limits -/
def Pool (cfg : TargetConfig) (y : System) : Prop :=
  ∀ p ∈ y.threads, (within cfg).Follows p (fun _ _ => True) ()

section
variable {cfg : TargetConfig} {y : System}

theorem Pool.new (s : LiberaTarget) : Pool cfg ⟨s, []⟩ := by
  intro p hp
  cases hp

/-- **A step is one action within the limits, or none.** -/
theorem Pool.step (h : Pool cfg y) (input : SystemInput) : Pool cfg (y.step cfg input) ∧
    match y.fired input with
    | none => (y.step cfg input).target = y.target
    | some l => InLimits cfg l ∧ (y.step cfg input).target = effect cfg l y.target := by
  cases input with
  | start op =>
    refine ⟨?_, rfl⟩
    intro p hp
    rcases List.mem_append.mp hp with hold | hnew
    · exact h p hold
    · rw [List.mem_singleton.mp hnew]
      exact op_within op
  | run i =>
    show Pool cfg ⟨(Prog.fireThread i y.threads y.target).2, (Prog.fireThread i y.threads y.target).1⟩ ∧
      match y.threads[i]?.bind Prog.next with
      | none => (Prog.fireThread i y.threads y.target).2 = y.target
      | some l => InLimits cfg l ∧ (Prog.fireThread i y.threads y.target).2 = effect cfg l y.target
    unfold Prog.fireThread
    cases hi : y.threads[i]? with
    | none => exact ⟨h, rfl⟩
    | some p =>
      cases p with
      | ret a => exact ⟨h, rfl⟩
      | act l u k =>
        obtain ⟨hu, hk⟩ := h _ (List.mem_of_getElem? hi)
        obtain ⟨_, hnext, hrest⟩ := hk y.target
        refine ⟨?_, within_next.mp hnext, congrFun hu y.target⟩
        intro p hp
        rcases List.mem_or_eq_of_mem_set hp with hold | rfl
        · exact h p hold
        · exact hrest

/-- **What the actions of operations keep holds in every state of a run.** -/
theorem run_within {P : LiberaTarget → Prop}
    (hact : ∀ s l, InLimits cfg l → P s → P (effect cfg l s)) {s : LiberaTarget} (h0 : P s)
    (h : Reach (System.step cfg) (fun _ _ => True) ⟨s, []⟩ y) : Pool cfg y ∧ P y.target := by
  refine h.invariant (P := fun y => Pool cfg y ∧ P y.target) ⟨Pool.new s, h0⟩ ?_
  intro y input hy _
  obtain ⟨hpool, htarget⟩ := hy.1.step input
  refine ⟨hpool, ?_⟩
  cases hfired : y.fired input with
  | none =>
    rw [hfired] at htarget
    rw [htarget]
    exact hy.2
  | some l =>
    rw [hfired] at htarget
    rw [htarget.2]
    exact hact _ l htarget.1 hy.2

end

end LiberaLink.Target
