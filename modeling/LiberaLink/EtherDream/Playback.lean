import LiberaLink.EtherDream.Device

/-!
# What a tick takes from the buffer

* `takePoint_cases`                    what one point does;
* `Drained`, `drained`                 the loop takes points from the front and nothing else;
* `SectionOutcome`, `playbackSection_outcome`   the four ways of a tick.
-/

namespace LiberaLink.EtherDream

/-- **Taking a point**: it leaves the buffer and is counted, and the rate is the old one or has come from
the queue. -/
theorem takePoint_cases (point : BufferedPoint) (rest : List BufferedPoint) (s : DeviceState) :
    ∃ rate queue valid accumulator, takePoint point rest s = {
        s with
        pointBuffer := rest
        pointCount := s.pointCount + 1
        pointRate := rate
        pointRateQueue := queue
        playbackClockValid := valid
        playbackAccumulator := accumulator } ∧
      queue <:+ s.pointRateQueue ∧ (rate = s.pointRate ∨ rate ∈ s.pointRateQueue) := by
  unfold takePoint
  simp only
  split
  · split
    · exact ⟨_, _, _, _, rfl, List.suffix_refl _, .inl rfl⟩
    · rename_i rate queue hqueue
      rw [hqueue]
      exact ⟨_, _, _, _, rfl, List.suffix_cons rate queue, .inr List.mem_cons_self⟩
  · exact ⟨_, _, _, _, rfl, List.suffix_refl _, .inl rfl⟩

/-- What the loop over `n` points leaves of the state `s`, and the points it takes. -/
structure Drained (n : Nat) (s s' : DeviceState) (points : List LaserPoint) : Prop where
  points_eq : points = (s.pointBuffer.take n).map fun p => p.point
  pointBuffer : s'.pointBuffer = s.pointBuffer.drop n
  pointCount : s'.pointCount = s.pointCount + .ofNat points.length
  lightEngineState : s'.lightEngineState = s.lightEngineState
  playbackState : s'.playbackState = s.playbackState
  lightEngineFlags : s'.lightEngineFlags = s.lightEngineFlags
  playbackFlags : s'.playbackFlags = s.playbackFlags
  queue : s'.pointRateQueue <:+ s.pointRateQueue
  rate : s'.pointRate = s.pointRate ∨ s'.pointRate ∈ s.pointRateQueue

theorem ofNat_succ (n : Nat) : (UInt32.ofNat (n + 1)) = 1 + UInt32.ofNat n := by
  rw [Nat.add_comm, UInt32.ofNat_add]
  rfl

theorem drained (n : Nat) (s : DeviceState) : Drained n s (drain n s).1 (drain n s).2 := by
  induction n generalizing s with
  | zero => exact ⟨rfl, rfl, (UInt32.add_zero _).symm, rfl, rfl, rfl, rfl, List.suffix_refl _, .inl rfl⟩
  | succ n ih =>
    unfold drain
    split
    · rename_i hnil
      exact ⟨by rw [hnil]; rfl, by rw [hnil]; rfl, (UInt32.add_zero _).symm, rfl, rfl, rfl, rfl,
        List.suffix_refl _, .inl rfl⟩
    · rename_i point rest hbuffer
      obtain ⟨rate, queue, valid, accumulator, htaken, hqueue, hrate⟩ := takePoint_cases point rest s
      have h := ih (takePoint point rest s)
      rw [htaken] at h
      rw [htaken]
      constructor
      · show point.point :: _ = _
        rw [h.points_eq, hbuffer]
        rfl
      · rw [h.pointBuffer, hbuffer]
        rfl
      · show _ = s.pointCount + .ofNat (_ + 1)
        rw [h.pointCount, ofNat_succ, UInt32.add_assoc]
      · exact h.lightEngineState
      · exact h.playbackState
      · exact h.lightEngineFlags
      · exact h.playbackFlags
      · exact h.queue.trans hqueue
      · rcases h.rate with hsame | hmem
        · rw [hsame]
          exact hrate
        · exact .inr (hqueue.subset hmem)

/-- The ways of a tick: nothing is played, the clock is set, nothing is due, or points are taken; when
the buffer holds fewer than are due, the playback stops. -/
inductive SectionOutcome (s : DeviceState) (now : Int) : DeviceState × List LaserPoint → Prop where
  | still (h : s.playbackState ≠ .playing ∨ s.pointRate = 0) : SectionOutcome s now (s, [])
  | clock (h : s.playbackState = .playing) :
      SectionOutcome s now ({ s with lastPlaybackAt := now, playbackClockValid := true }, [])
  | wait (h : s.playbackState = .playing) (accumulator : ℚ) :
      SectionOutcome s now ({ s with lastPlaybackAt := now, playbackAccumulator := accumulator }, [])
  | play (h : s.playbackState = .playing) (n : Nat) (accumulator : ℚ) (s' : DeviceState)
      (points : List LaserPoint)
      (hdrained : Drained n { s with lastPlaybackAt := now, playbackAccumulator := accumulator } s'
        points) (hn : n ≤ s.pointBuffer.length) : SectionOutcome s now (s', points)
  | underflow (h : s.playbackState = .playing) (accumulator : ℚ) (s' : DeviceState)
      (points : List LaserPoint)
      (hdrained : Drained s.pointBuffer.length {
        s with lastPlaybackAt := now, playbackAccumulator := accumulator } s' points) :
      SectionOutcome s now (underflow s', points)

theorem playbackSection_outcome (s : DeviceState) (now : Int) :
    SectionOutcome s now (playbackSection s now) := by
  unfold playbackSection
  split
  · rename_i h
    exact .still h
  · rename_i h
    have hplaying : s.playbackState = .playing := by
      by_contra hother
      exact h (.inl hother)
    split
    · exact .clock hplaying
    · simp only
      split
      · exact .wait hplaying _
      · split
        · rename_i hshort
          have hall : min ⌊accumulated s now⌋.toNat s.pointBuffer.length = s.pointBuffer.length := by
            omega
          rw [hall]
          exact .underflow hplaying _ _ _ (drained _ _)
        · exact .play hplaying _ _ _ _ (drained _ _) (Nat.min_le_right _ _)

end LiberaLink.EtherDream
