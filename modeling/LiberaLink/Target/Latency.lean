import LiberaLink.Target.Trim

/-!
# The latency of a target

A target raises its latency when callbacks run out of points, and with it what it wants buffered and
what it keeps.

* `act_latency`               an action keeps the latency, or raises it by the clock of the control;
* `act_queue_le`              an action within the limits keeps the bound of the queue;
* `raises_apart`              the raises of a run, by their clocks;
* `latency_stays_in_bounds`   **the latency, the limits and the queue in every run**.
-/

namespace LiberaLink.Target
open Stepwise

/-! ## one action -/

/-- the latency and the clock of its last raise are kept -/
def LatencyKept (s t : LiberaTarget) : Prop :=
  t.latencyMs = s.latencyMs ∧ t.lastLatencyIncrease = s.lastLatencyIncrease

/-- the latency is raised at `now`, three seconds or more after the last time -/
structure LatencyRaised (cfg : TargetConfig) (now : Int) (s t : LiberaTarget) : Prop where
  raised : s.latencyMs < t.latencyMs
  bounded : t.latencyMs ≤ cfg.maxLatencyMs
  apart : s.lastLatencyIncrease + 3000000000 ≤ now
  clock : t.lastLatencyIncrease = now

section
variable (cfg : TargetConfig) (s : LiberaTarget)

theorem maybeIncreaseLatency_raise (missing minimum target : Nat) (now : Int) :
    LatencyKept s (maybeIncreaseLatencyOnUnderrun cfg missing minimum target now s) ∨
      LatencyRaised cfg now s (maybeIncreaseLatencyOnUnderrun cfg missing minimum target now s) := by
  unfold maybeIncreaseLatencyOnUnderrun
  split
  · exact .inl ⟨rfl, rfl⟩
  · simp only
    -- the accumulator may begin anew, which the latency does not see
    generalize hforgot : (if now - s.lastLatencyUnderrunSample > 2000000000
      then { s with latencyUnderrunAccumulator := 0 } else s) = t
    have ht : LatencyKept s t := by
      rw [← hforgot]
      split <;> exact ⟨rfl, rfl⟩
    split
    · exact .inl ht
    · rename_i hwaited
      split
      · exact .inl ht
      · split
        · exact .inl ht
        · rename_i hbelow
          have hlatency := ht.1
          have hclock := ht.2
          refine .inr ⟨?_, Nat.min_le_left _ _, ?_, rfl⟩
          · simp only
            omega
          · omega

theorem drainQueue_latency (f : FillInput) : LatencyKept s (drainQueue f s) := by
  obtain ⟨_, _, h⟩ := drainQueue_cases f s
  rw [h]
  exact ⟨rfl, rfl⟩

theorem fillState_latency (f : FillInput) : LatencyKept s (fillState cfg f s) ∨
    LatencyRaised cfg f.underrunNow s (fillState cfg f s) := by
  have hdrained := drainQueue_latency s f
  have houtcome := fillState_outcome cfg f s
  generalize fillState cfg f s = t at houtcome
  cases houtcome with
  | hold _ => exact .inl ⟨rfl, rfl⟩
  | drained _ buffering => exact .inl hdrained
  | missed _ missing buffering => exact .inl hdrained
  | underrun _ missing target buffering =>
    rcases maybeIncreaseLatency_raise cfg (drainQueue f s) missing f.req.minimumPointsRequired target
      f.underrunNow with hkept | hraised
    · exact .inl ⟨hkept.1.trans hdrained.1, hkept.2.trans hdrained.2⟩
    · refine .inr ⟨?_, hraised.bounded, ?_, hraised.clock⟩
      · rw [← hdrained.1]
        exact hraised.raised
      · rw [← hdrained.2]
        exact hraised.apart

/-- the clock that an action counts an underrun by -/
def underrunClock : TargetAct → Option Int
  | .fill f => some f.underrunNow
  | _ => none

/-- **An action keeps the latency, or raises it by the clock of its underrun.** -/
theorem act_latency (l : TargetAct) : LatencyKept s (effect cfg l s) ∨
    ∃ now, underrunClock l = some now ∧ LatencyRaised cfg now s (effect cfg l s) := by
  cases l with
  | fill f =>
    rcases fillState_latency cfg s f with hkept | hraised
    · exact .inl hkept
    · exact .inr ⟨_, rfl, hraised.raised, hraised.bounded, hraised.apart, hraised.clock⟩
  | updatePointRate commanded avbRate =>
    left
    show LatencyKept s (maybeUpdatePointRate cfg s commanded avbRate)
    rw [maybeUpdatePointRate_eq]
    exact ⟨rfl, rfl⟩
  | _ => exact .inl ⟨rfl, rfl⟩

/-- **An action within the limits keeps the bound of the queue.** -/
theorem act_queue_le (l : TargetAct) (hl : InLimits cfg l)
    (h : s.pendingPoints.length ≤ cfg.maxQueuedPoints) :
    (effect cfg l s).pendingPoints.length ≤ cfg.maxQueuedPoints := by
  cases l with
  | queueSlice points limit now =>
    have hlimit : limit ≤ cfg.maxQueuedPoints := hl
    have hover := (overflowDrop_bounds limit (s.pendingPoints ++ points)).1
    show ((s.pendingPoints ++ points).drop (overflowDrop limit _)).length ≤ _
    rw [List.length_drop]
    omega
  | replaceQueue points downstream now =>
    have hpoints : points.length ≤ cfg.maxQueuedPoints := hl
    show (points.drop (replaceDrop cfg points downstream)).length ≤ _
    rw [List.length_drop]
    omega
  | fill f =>
    have hqueue := congrArg Books.pendingPoints (fill_books cfg f s)
    show (fill cfg f s).books.pendingPoints.length ≤ _
    rw [hqueue, List.length_drop]
    exact (Nat.sub_le _ _).trans h
  | updatePointRate commanded avbRate =>
    have hqueue := congrArg Books.pendingPoints (maybeUpdatePointRate_books cfg s commanded avbRate)
    show (maybeUpdatePointRate cfg s commanded avbRate).books.pendingPoints.length ≤ _
    rw [hqueue]
    exact h
  | clearQueue now => exact Nat.zero_le _
  | resetQueue => exact Nat.zero_le _
  | _ => exact h

end

/-! ## runs -/

/-- the clock by which a step raises the latency, if it does -/
def System.raises (cfg : TargetConfig) (y : System) (input : SystemInput) : Option Int :=
  if y.target.latencyMs < (y.step cfg input).target.latencyMs
    then (y.fired input).bind underrunClock else none

/-- the clocks of the raises of a run, in order -/
def raises (cfg : TargetConfig) : System → List SystemInput → List Int
  | _, [] => []
  | y, input :: inputs => (y.raises cfg input).toList ++ raises cfg (y.step cfg input) inputs

section
variable {cfg : TargetConfig} {y : System}

/-- **A step keeps the latency, or is a raise.** -/
theorem step_latency (h : Pool cfg y) (input : SystemInput) :
    (y.raises cfg input = none ∧ LatencyKept y.target (y.step cfg input).target) ∨
      ∃ now, y.raises cfg input = some now ∧
        LatencyRaised cfg now y.target (y.step cfg input).target := by
  have htarget := (h.step input).2
  have hkept : LatencyKept y.target (y.step cfg input).target → y.raises cfg input = none ∧
      LatencyKept y.target (y.step cfg input).target := by
    intro hkept
    exact ⟨if_neg (by have := hkept.1; omega), hkept⟩
  cases hfired : y.fired input with
  | none =>
    rw [hfired] at htarget
    have hsame : (y.step cfg input).target = y.target := htarget
    exact .inl (hkept (by rw [hsame]; exact ⟨rfl, rfl⟩))
  | some l =>
    rw [hfired] at htarget
    have hact : (y.step cfg input).target = effect cfg l y.target := htarget.2
    rcases act_latency cfg y.target l with hkeeps | ⟨now, hclock, hraised⟩
    · exact .inl (hkept (by rw [hact]; exact hkeeps))
    · rw [← hact] at hraised
      refine .inr ⟨now, ?_, hraised⟩
      rw [System.raises, if_pos hraised.raised, hfired]
      exact hclock

/-- **The raises of a run are three seconds apart**, and as far from the last raise before it. -/
theorem raises_apart (h : Pool cfg y) (inputs : List SystemInput) :
    (raises cfg y inputs).Pairwise (fun t t' => t + 3000000000 ≤ t') ∧
      ∀ t ∈ raises cfg y inputs, y.target.lastLatencyIncrease + 3000000000 ≤ t := by
  induction inputs generalizing y with
  | nil => exact ⟨.nil, fun t ht => absurd ht List.not_mem_nil⟩
  | cons input inputs ih =>
    obtain ⟨hpairwise, hlater⟩ := ih (h.step input).1
    unfold raises
    rcases step_latency h input with ⟨hnone, hkept⟩ | ⟨now, hsome, hraised⟩
    · rw [hnone, ← hkept.2]
      exact ⟨hpairwise, hlater⟩
    · rw [hraised.clock] at hlater
      rw [hsome]
      refine ⟨.cons hlater hpairwise, ?_⟩
      intro t ht
      have hnow := hraised.apart
      rcases List.mem_cons.mp ht with rfl | ht
      · exact hnow
      · have := hlater t ht
        omega

end

/-- The limits of a target are in order. -/
structure LimitsInOrder (cfg : TargetConfig) (s : LiberaTarget) : Prop where
  minimum : 1000 ≤ targetBufferedPoints cfg s
  replacement : targetBufferedPoints cfg s ≤ liveReplacementPointLimit cfg s
  continuous : targetBufferedPoints cfg s ≤ liveContinuousPointLimit cfg s
  replacement_le : liveReplacementPointLimit cfg s ≤ cfg.maxQueuedPoints
  continuous_le : liveContinuousPointLimit cfg s ≤ cfg.maxQueuedPoints

theorem limits_in_order (cfg : TargetConfig) (s : LiberaTarget) : LimitsInOrder cfg s where
  minimum := (targetBufferedPoints_mem cfg s).1
  replacement := target_le_livePointLimit cfg s 1 (1 / 20)
  continuous := target_le_livePointLimit cfg s 2 (1 / 10)
  replacement_le := (livePointLimit_mem cfg s 1 (1 / 20)).2
  continuous_le := (livePointLimit_mem cfg s 2 (1 / 10)).2

/-- a queue that is as long as the target wants ends the buffering hold -/
theorem hold_ends (cfg : TargetConfig) (f : FillInput) {s : LiberaTarget}
    (h : targetBufferedPoints cfg s ≤ s.pendingPoints.length) : inBufferingHold cfg f s = false := by
  unfold inBufferingHold
  rw [Bool.and_eq_false_iff]
  refine .inr (decide_eq_false ?_)
  omega

/-- **The latency, the limits and the queue of a target.**  In every run of operations that overlap in
any way: the latency never falls, never exceeds its bound, and two raises are three seconds apart; the
target keeps what it wants buffered, so that a queue at the live limit ends the hold; and the queue
is never longer than its bound. -/
theorem latency_stays_in_bounds (target : LinkedTarget) (defaultPoint : LaserPoint) (avbRate : Nat)
    (inputs : List SystemInput) :
    let cfg := TargetConfig.make target defaultPoint
    let start : System := ⟨.new cfg target.latencyMs avbRate, []⟩
    let y := inputs.foldl (System.step cfg) start
    (∀ input, y.target.latencyMs ≤ (y.step cfg input).target.latencyMs ∧
      (y.target.latencyMs < (y.step cfg input).target.latencyMs → (y.raises cfg input).isSome)) ∧
    y.target.latencyMs ≤ max target.maxLatencyMs target.latencyMs ∧
    (raises cfg start inputs).Pairwise (fun t t' => t + 3000000000 ≤ t') ∧
    LimitsInOrder cfg y.target ∧
    (∀ f, liveContinuousPointLimit cfg y.target ≤ y.target.pendingPoints.length →
      inBufferingHold cfg f y.target = false) ∧
    y.target.pendingPoints.length ≤ cfg.maxQueuedPoints := by
  intro cfg start y
  have hreach : Reach (System.step cfg) (fun _ _ => True) start y := Reach.of_list inputs
  have hlatency : Pool cfg y ∧ y.target.latencyMs ≤ cfg.maxLatencyMs := by
    refine run_within (P := fun s => s.latencyMs ≤ cfg.maxLatencyMs) ?_ (Nat.le_max_right _ _) hreach
    intro s l _ hs
    rcases act_latency cfg s l with hkept | ⟨_, _, hraised⟩
    · rw [hkept.1]
      exact hs
    · exact hraised.bounded
  have hqueue : Pool cfg y ∧ y.target.pendingPoints.length ≤ cfg.maxQueuedPoints :=
    run_within (P := fun s => s.pendingPoints.length ≤ cfg.maxQueuedPoints) (act_queue_le cfg)
      (Nat.zero_le _) hreach
  have horder := limits_in_order cfg y.target
  refine ⟨?_, hlatency.2, (raises_apart (Pool.new _) inputs).1, horder, ?_, hqueue.2⟩
  · intro input
    rcases step_latency hlatency.1 input with ⟨_, hkept⟩ | ⟨now, hsome, hraised⟩
    · rw [hkept.1]
      exact ⟨le_rfl, fun h => absurd h (Nat.lt_irrefl _)⟩
    · refine ⟨Nat.le_of_lt hraised.raised, fun _ => ?_⟩
      rw [hsome]
      rfl
  · intro f hlong
    exact hold_ends cfg f (horder.continuous.trans hlong)

end LiberaLink.Target
