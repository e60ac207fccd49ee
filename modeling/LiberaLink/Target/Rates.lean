import LiberaLink.Target.Trim

/-!
# The rates of a target

What a target sends to its controller as a rate, and the rate that the points and the duration of a
submission command.

* `act_controller`            the rates that an action sends, and the clamp they come from;
* `sent_rates_bounded_iff`    **the rates keep to the reported maximum if it is 1000 or more**;
* `pointsOver_commanded`      what a submission without a rate commands;
* `commanded_rate_iff`        **it is the rounded rate of its points unless 32 bits lose it**.
-/

namespace LiberaLink.Target
open Stepwise Numeric

/-! ## what is sent to the controller -/

/-- the bounds of the `std::clamp` call of an action that commands a rate -/
def rateClamp (cfg : TargetConfig) : TargetAct → Option (Nat × Nat)
  | .updatePointRate commanded _ => if commanded = 0 then none else some (1000, cfg.maxPointRateValue)
  | _ => none

section
variable (cfg : TargetConfig) (s : LiberaTarget)

/-- a callback sends nothing to the controller -/
theorem fillState_controller (f : FillInput) : (fillState cfg f s).controller = s.controller := by
  have hdrained : (drainQueue f s).controller = s.controller := by
    obtain ⟨_, _, h⟩ := drainQueue_cases f s
    rw [h]
  have houtcome := fillState_outcome cfg f s
  generalize fillState cfg f s = t at houtcome
  cases houtcome with
  | hold _ => rfl
  | drained _ buffering => exact hdrained
  | missed _ missing buffering => exact hdrained
  | underrun _ missing target buffering =>
    obtain ⟨_, _, _, _, h⟩ := maybeIncreaseLatency_cases cfg (drainQueue f s) missing
      f.req.minimumPointsRequired target f.underrunNow
    rw [h]
    exact hdrained

/-- **What an action sends to the controller** comes behind what was sent, and the rates in it are
clamped. -/
theorem act_controller (l : TargetAct) : ∃ calls, (effect cfg l s).controller = s.controller ++ calls ∧
    ∀ rate, .setPointRate rate ∈ calls → ∃ commanded bounds, rateClamp cfg l = some bounds ∧
      rate = clamp commanded bounds.1 bounds.2 := by
  cases l with
  | updatePointRate commanded avbRate =>
    refine ⟨rateCalls cfg s.currentPointRate commanded, ?_, ?_⟩
    · exact congrArg LiberaTarget.controller (maybeUpdatePointRate_eq cfg s commanded avbRate)
    · intro rate h
      unfold rateCalls at h
      split at h
      · exact absurd h List.not_mem_nil
      · rename_i hsent
        rw [List.mem_singleton] at h
        exact ⟨commanded, _, if_neg (not_or.mp hsent).1, ControllerCall.setPointRate.inj h⟩
  | announceSlice n => exact ⟨[.setRequestPointsCallback], rfl, by simp⟩
  | installCallback => exact ⟨[.setRequestPointsCallback], rfl, by simp⟩
  | sendFrame points time => exact ⟨[.sendFrame points time], rfl, by simp⟩
  | clearPrefetch => exact ⟨[.clearPointCallbackPrefetch], rfl, by simp⟩
  | resetController =>
    exact ⟨[.clearFrameQueue, .clearPointCallbackPrefetch, .setRequestPointsCallback], rfl, by simp⟩
  | fill f =>
    refine ⟨[], ?_, fun rate h => absurd h List.not_mem_nil⟩
    rw [List.append_nil]
    exact fillState_controller cfg s f
  | _ => exact ⟨[], (List.append_nil _).symm, fun rate h => absurd h List.not_mem_nil⟩

end

/-- a target as its constructor leaves it, with no operation under way -/
def System.new (target : LinkedTarget) (defaultPoint : LaserPoint) (avbRate : Nat) : System :=
  ⟨.new (.make target defaultPoint) target.latencyMs avbRate, []⟩

/-- every rate in these calls is one that the controller reported -/
def RatesReported (maxPointRate : Nat) (calls : List ControllerCall) : Prop :=
  ∀ rate, .setPointRate rate ∈ calls → 1 ≤ rate ∧ rate ≤ maxPointRate

section
variable {target : LinkedTarget} (htype : target.info.type ≠ "AVB")
  (hreported : 0 < target.info.maxPointRate) (defaultPoint : LaserPoint) (avbRate : Nat)
include hreported

/-- the bounds of every clamp are 1000 and the reported maximum -/
theorem rateClamp_eq {l : TargetAct} {bounds : Nat × Nat}
    (h : rateClamp (.make target defaultPoint) l = some bounds) :
    bounds = (1000, target.info.maxPointRate) := by
  unfold rateClamp at h
  split at h
  · split at h
    · cases h
    · rw [← Option.some.inj h]
      exact congrArg _ (if_pos hreported)
  · cases h

include htype

/-- what the constructor sends -/
theorem new_controller : (System.new target defaultPoint avbRate).target.controller =
    [.setPointRate (max (min 30000 target.info.maxPointRate) 1000), .setArmed true,
      .setRequestPointsCallback] := by
  have hmax : (TargetConfig.make target defaultPoint).maxPointRateValue = target.info.maxPointRate :=
    if_pos hreported
  have hrate : (if (TargetConfig.make target defaultPoint).info.type = "AVB" then avbRate
      else min 30000 (TargetConfig.make target defaultPoint).maxPointRateValue) =
      min 30000 target.info.maxPointRate := by
    rw [if_neg (by exact htype), hmax]
  unfold System.new LiberaTarget.new
  simp only
  rw [hrate]

variable {y : System} (hreach : Reach (System.step (.make target defaultPoint)) (fun _ _ => True)
  (.new target defaultPoint avbRate) y)
include hreach

/-- the rate that the constructor sent stays among the calls -/
theorem first_rate_sent :
    .setPointRate (max (min 30000 target.info.maxPointRate) 1000) ∈ y.target.controller := by
  refine (run_within (P := fun s => .setPointRate (max (min 30000 target.info.maxPointRate) 1000) ∈
    s.controller) ?_ ?_ hreach).2
  · intro s l _ hs
    obtain ⟨calls, hcalls, _⟩ := act_controller (.make target defaultPoint) s l
    rw [hcalls]
    exact List.mem_append_left _ hs
  · show _ ∈ (System.new target defaultPoint avbRate).target.controller
    rw [new_controller htype hreported]
    exact List.mem_cons_self

theorem rates_reported (hlarge : 1000 ≤ target.info.maxPointRate) :
    RatesReported target.info.maxPointRate y.target.controller := by
  refine (run_within (P := fun s => RatesReported target.info.maxPointRate s.controller)
    ?_ ?_ hreach).2
  · intro s l _ hs rate hrate
    obtain ⟨calls, hcalls, hsent⟩ := act_controller (.make target defaultPoint) s l
    rw [hcalls] at hrate
    rcases List.mem_append.mp hrate with hold | hnew
    · exact hs rate hold
    · obtain ⟨commanded, bounds, hbounds, rfl⟩ := hsent rate hnew
      rw [rateClamp_eq hreported defaultPoint hbounds]
      have hmem : 1000 ≤ clamp commanded 1000 target.info.maxPointRate ∧ _ := clamp_mem hlarge
      exact ⟨(by decide : 1 ≤ 1000).trans hmem.1, hmem.2⟩
  · intro rate hrate
    replace hrate : .setPointRate rate ∈ (System.new target defaultPoint avbRate).target.controller :=
      hrate
    rw [new_controller htype hreported] at hrate
    have hrate : rate = max (min 30000 target.info.maxPointRate) 1000 := by simpa using hrate
    omega

/-- **The rates of a target keep to what its controller reported** exactly if that is 1000 or more: for
less, the constructor already sends 1000. -/
theorem sent_rates_bounded_iff :
    (RatesReported target.info.maxPointRate y.target.controller ∧
      ∀ input l bounds, y.fired input = some l →
        rateClamp (.make target defaultPoint) l = some bounds → bounds.1 ≤ bounds.2) ↔
      1000 ≤ target.info.maxPointRate := by
  constructor
  · rintro ⟨hrates, _⟩
    have hsent := (hrates _ (first_rate_sent htype hreported defaultPoint avbRate hreach)).2
    omega
  · intro hlarge
    refine ⟨rates_reported htype hreported defaultPoint avbRate hreach hlarge, ?_⟩
    intro input l bounds _ hbounds
    rw [rateClamp_eq hreported defaultPoint hbounds]
    exact hlarge

end

/-- a target on a controller that reports no more than `maxPointRate` -/
def usbTarget (maxPointRate : Nat) : LinkedTarget :=
  ⟨⟨"a", "A", "USB", maxPointRate⟩, 1000, 10, 100, true⟩

/-- two submissions that command 90000 and 500 points a second -/
def commandingInputs : List SystemInput :=
  [.start (.submitContinuous
      { points := [smallTarget.defaultPoint], effectivePointRate := some 90000 } quietAnswers),
    .start (.submitContinuous
      { points := [smallTarget.defaultPoint], effectivePointRate := some 500 } quietAnswers),
    .run 0, .run 0, .run 1, .run 1]

theorem sent_rates_bounded_usb :
    let y := commandingInputs.foldl (System.step (.make (usbTarget 60000) smallTarget.defaultPoint))
      (System.new (usbTarget 60000) smallTarget.defaultPoint 0)
    RatesReported 60000 y.target.controller ∧ .setPointRate 60000 ∈ y.target.controller ∧
      .setPointRate 1000 ∈ y.target.controller := by
  have h := (@sent_rates_bounded_iff (usbTarget 60000) (by decide) (by decide)
    smallTarget.defaultPoint 0 _ (.of_list commandingInputs)).mpr (by decide)
  exact ⟨h.1, by decide +kernel, by decide +kernel⟩

/-- A controller that reports 500 is sent 1000, and a submission that commands a rate clamps it
between 1000 and 500. -/
theorem slow_controller_is_sent_more :
    ¬ RatesReported 500 (System.new (usbTarget 500) smallTarget.defaultPoint 0).target.controller ∧
      rateClamp (.make (usbTarget 500) smallTarget.defaultPoint) (.updatePointRate 30000 0) =
        some (1000, 500) := by
  refine ⟨?_, by decide⟩
  intro h
  have hsent := (h 1000 (by decide)).2
  omega

/-! ## what a submission commands -/

/-- how many points a submission that names no rate has, and for how many microseconds -/
def TargetOp.pointsOver : TargetOp → Option (Nat × Nat)
  | .submitContinuous submission _ =>
    if submission.effectivePointRate = none then some (submission.points.length, submission.durationUs)
    else none
  | .replaceFrame submission _ => some ((framePoints submission).length, totalDurationUs submission)
  | _ => none

/-- the rate of `n` points in `d` microseconds, rounded to a whole number -/
def roundedRate (n d : Nat) : Nat := (llround (1000000 * (n : ℚ) / (d : ℚ))).toNat

/-- the commanded input rate after an operation -/
def commandedAfter (cfg : TargetConfig) (s : LiberaTarget) (op : TargetOp) : Nat :=
  ((op.run cfg).run s).2.commandedInputPps

theorem roundedRate_mono {n n' d : Nat} (h : n ≤ n') : roundedRate n d ≤ roundedRate n' d := by
  apply Int.toNat_le_toNat
  apply llround_mono
  · positivity
  · gcongr

section
variable (cfg : TargetConfig) (s : LiberaTarget)

/-- **What a submission without a rate commands** is the inferred rate, clamped, unless that is zero. -/
theorem pointsOver_commanded {op : TargetOp} {n d : Nat} (hop : op.pointsOver = some (n, d))
    (hn : 1 ≤ n) : commandedAfter cfg s op =
      if inferCommandedPointRate n d = 0 then s.commandedInputPps
      else clamp (inferCommandedPointRate n d) 1000 cfg.maxPointRateValue := by
  cases op with
  | submitContinuous submission a =>
    simp only [TargetOp.pointsOver, Option.ite_none_right_eq_some, Option.some.injEq,
      Prod.mk.injEq] at hop
    obtain ⟨hrate, rfl, rfl⟩ := hop
    have hne : submission.points ≠ [] := List.length_pos_iff.mp hn
    have hpaced := congrArg LiberaTarget.commandedInputPps (maybeUpdatePointRate_eq cfg
      (effect cfg (.announceSlice submission.points.length) s) (sliceRate submission) a.avbRate)
    have hrun : commandedAfter cfg s (.submitContinuous submission a) =
        (paced cfg submission a s).commandedInputPps := by
      rw [commandedAfter, TargetOp.run, Prog.bind_eq, Prog.run_bind]
      exact (submitContinuous_state cfg submission a s hne).2.2.2
    rw [sliceRate, hrate] at hpaced
    rw [hrun, paced, sliceRate, hrate]
    exact hpaced
  | replaceFrame submission a =>
    obtain ⟨rfl, rfl⟩ := Prod.mk.inj (Option.some.inj hop)
    have hne : framePoints submission ≠ [] := List.length_pos_iff.mp hn
    have hrun : commandedAfter cfg s (.replaceFrame submission a) =
        (replaced cfg submission a s).commandedInputPps := by
      obtain ⟨_, h⟩ := replaceFrame_state cfg submission a s hne
      rw [commandedAfter, TargetOp.run, Prog.bind_eq, Prog.run_bind, h]
      rfl
    rw [hrun]
    exact congrArg LiberaTarget.commandedInputPps (maybeUpdatePointRate_eq cfg _ _ _)
  | submitFrame submission a => cases hop
  | reset => cases hop
  | fillFromQueue req outSize now underrunNow => cases hop

/-- The clamped rate survives its way through 32 bits: it fits in them, or what they keep of it is
clamped alike, or they keep nothing and the maximum was commanded before. -/
def RateSurvives (rate : Nat) : Prop :=
  rate < 2 ^ 32 ∨ if rate % 2 ^ 32 = 0 then s.commandedInputPps = cfg.maxPointRateValue
    else cfg.maxPointRateValue ≤ max 1000 (rate % 2 ^ 32)

end

section
variable {cfg : TargetConfig} (hmin : 1000 ≤ cfg.maxPointRateValue)
  (hmax : cfg.maxPointRateValue < 2 ^ 32)
include hmin hmax

theorem rateSurvives_iff {s : LiberaTarget} {rate : Nat} (hrate : 1 ≤ rate) :
    (if rate % 2 ^ 32 = 0 then s.commandedInputPps
      else clamp (rate % 2 ^ 32) 1000 cfg.maxPointRateValue) = clamp rate 1000 cfg.maxPointRateValue ↔
      RateSurvives cfg s rate := by
  unfold RateSurvives
  by_cases hfits : rate < 2 ^ 32
  · rw [Nat.mod_eq_of_lt hfits, if_neg (by omega)]
    exact ⟨fun _ => .inl hfits, fun _ => rfl⟩
  · have hclamped : clamp rate 1000 cfg.maxPointRateValue = cfg.maxPointRateValue := by
      unfold clamp
      rw [if_neg (by omega), if_pos (by omega)]
    rw [hclamped, or_iff_right hfits]
    split
    · exact Iff.rfl
    · unfold clamp
      split
      · omega
      · split <;> omega

/-- **The rate that a submission commands** by its points and their duration is the rounded rate,
clamped, exactly if this survives 32 bits; among such submissions of one duration, more points never
command a lower rate. -/
theorem commanded_rate_iff {s : LiberaTarget} {op : TargetOp} {n d : Nat}
    (hop : op.pointsOver = some (n, d)) (hn : 1 ≤ n) (hd : 1 ≤ d) (hrate : 1 ≤ roundedRate n d) :
    (commandedAfter cfg s op = clamp (roundedRate n d) 1000 cfg.maxPointRateValue ↔
      RateSurvives cfg s (roundedRate n d)) ∧
    ∀ s' op' n', op'.pointsOver = some (n', d) → n ≤ n' → RateSurvives cfg s (roundedRate n d) →
      RateSurvives cfg s' (roundedRate n' d) → commandedAfter cfg s op ≤ commandedAfter cfg s' op' := by
  have hinfer : ∀ n', 1 ≤ n' → inferCommandedPointRate n' d = roundedRate n' d % 2 ^ 32 := by
    intro n' hn'
    exact if_neg (by omega)
  have hcommanded : ∀ s' op' n', op'.pointsOver = some (n', d) → n ≤ n' →
      (commandedAfter cfg s' op' = clamp (roundedRate n' d) 1000 cfg.maxPointRateValue ↔
        RateSurvives cfg s' (roundedRate n' d)) := by
    intro s' op' n' hop' hle
    rw [pointsOver_commanded cfg s' hop' (hn.trans hle), hinfer n' (hn.trans hle)]
    exact rateSurvives_iff hmin hmax (hrate.trans (roundedRate_mono hle))
  refine ⟨hcommanded s op n hop le_rfl, ?_⟩
  intro s' op' n' hop' hle hkept hkept'
  rw [(hcommanded s op n hop le_rfl).mpr hkept, (hcommanded s' op' n' hop' hle).mpr hkept']
  exact clamp_mono hmin (roundedRate_mono hle)

end

/-- a slice of `n` dark points that lasts `durationUs` -/
def darkSlice (n durationUs : Nat) : TargetOp :=
  .submitContinuous
    { points := List.replicate n smallTarget.defaultPoint, durationUs := durationUs } quietAnswers

theorem darkSlice_pointsOver (n durationUs : Nat) :
    (darkSlice n durationUs).pointsOver = some (n, durationUs) := by
  rw [darkSlice, TargetOp.pointsOver, if_pos rfl, List.length_replicate]

theorem commanded_rate_two :
    commandedAfter smallTarget (.new smallTarget 10 0) (darkSlice 2 100) =
      clamp (roundedRate 2 100) 1000 smallTarget.maxPointRateValue :=
  (commanded_rate_iff (by decide) (by decide) (darkSlice_pointsOver 2 100) (by decide) (by decide)
    (by decide +kernel)).1.mpr (.inl (by decide +kernel))

/-- 4295 points in a microsecond wrap to a rate below the maximum. -/
theorem commanded_rate_wraps :
    commandedAfter smallTarget (.new smallTarget 10 0) (darkSlice 4295 1) = 32704 ∧
      clamp (roundedRate 4295 1) 1000 smallTarget.maxPointRateValue = 60000 := by
  have hinfer : inferCommandedPointRate 4295 1 = 32704 := by decide +kernel
  have hrate : roundedRate 4295 1 = 4295000000 := by decide +kernel
  refine ⟨?_, ?_⟩
  · rw [pointsOver_commanded _ _ (darkSlice_pointsOver 4295 1) (by decide), hinfer]
    decide
  · rw [hrate]
    decide

end LiberaLink.Target
