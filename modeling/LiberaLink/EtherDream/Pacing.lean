import LiberaLink.EtherDream.Timing

/-!
# The pace of a playback

A tick adds the time it measures to an accumulator and takes the whole points out of it.  What is left
over is carried to the next tick, so that over a playback no time is lost and none is counted twice.

* `playedTicks`, `intervals`   the times at which a playback is ticked, and the microseconds between;
* `tick_paced`                 what one tick submits and carries over;
* `Paced`, `step_paced`        what is kept until another rate comes into force;
* `pacing_does_not_drift`      **the points of a playback are those of its time**.
-/

namespace LiberaLink.EtherDream
open Stepwise Numeric

/-! ## the time of a tick -/

def Event.tick? : Event → Option Int
  | .tick now => some now
  | _ => none

/-- the times of the ticks that find the device playing -/
def playedTicks (options : HostOptions) : Device → List Event → List Int
  | _, [] => []
  | d, e :: es =>
    (if d.state.playbackState = .playing then e.tick?.toList else []) ++
      playedTicks options (d.step options e) es

/-- the whole microseconds from each time to the next; times are in nanoseconds -/
def intervals : List Int → List Int
  | a :: b :: times => (b - a).tdiv 1000 :: intervals (b :: times)
  | _ => []

theorem playedTicks_concat (options : HostOptions) (d : Device) (es : List Event) (e : Event) :
    playedTicks options d (es ++ [e]) = playedTicks options d es ++
      if (es.foldl (Device.step options) d).state.playbackState = .playing then e.tick?.toList
      else [] := by
  induction es generalizing d with
  | nil => exact List.append_nil _
  | cons e' es ih =>
    rw [List.cons_append, playedTicks, playedTicks, ih, List.foldl_cons, List.append_assoc]

theorem playedTicks_sublist (options : HostOptions) (d : Device) (es : List Event) :
    (playedTicks options d es).Sublist (es.filterMap Event.tick?) := by
  induction es generalizing d with
  | nil => exact List.Sublist.refl _
  | cons e es ih =>
    have hsplit : (e :: es).filterMap Event.tick? = e.tick?.toList ++ es.filterMap Event.tick? := by
      cases e <;> rfl
    rw [playedTicks, hsplit]
    refine List.Sublist.append ?_ (ih _)
    split
    · exact List.Sublist.refl _
    · exact List.nil_sublist _

/-- one time more, from the last one before it -/
theorem intervals_concat (times : List Int) (now : Int) :
    (intervals (times ++ [now])).sum = (intervals times).sum +
      match times.getLast? with
      | some t => (now - t).tdiv 1000
      | none => 0 := by
  induction times with
  | nil => rfl
  | cons a times ih =>
    cases times with
    | nil =>
      show (now - a).tdiv 1000 + 0 = 0 + (now - a).tdiv 1000
      omega
    | cons b times =>
      rw [List.cons_append, List.cons_append, intervals, intervals, List.sum_cons, List.sum_cons,
        ← List.cons_append, ih, List.getLast?_cons_cons, Int.add_assoc]

/-! ## points without a rate change -/

/-- the time that the next tick counts from -/
def clock (s : DeviceState) : Option Int := if s.playbackClockValid then some s.lastPlaybackAt else none

/-- the microseconds that a tick counts -/
def elapsed (s : DeviceState) (now : Int) : Int :=
  match clock s with
  | some t => (now - t).tdiv 1000
  | none => 0

section
variable {s : DeviceState}

theorem takePoint_steady {point : BufferedPoint} {rest : List BufferedPoint}
    (h : (takePoint point rest s).pointRateQueue.length = s.pointRateQueue.length) :
    takePoint point rest s = { s with pointBuffer := rest, pointCount := s.pointCount + 1 } := by
  unfold takePoint at h ⊢
  simp only at h ⊢
  split
  · split
    · rfl
    · rename_i rate queue hqueue
      rw [if_pos ‹_›] at h
      simp only [hqueue, List.length_cons] at h
      omega
  · rfl

/-- a loop that takes no rate from the queue leaves rate, accumulator and clock alone -/
theorem drain_steady {n : Nat} (h : (drain n s).1.pointRateQueue = s.pointRateQueue) :
    (drain n s).1.pointRate = s.pointRate ∧
      (drain n s).1.playbackAccumulator = s.playbackAccumulator ∧
      clock (drain n s).1 = clock s := by
  induction n generalizing s with
  | zero => exact ⟨rfl, rfl, rfl⟩
  | succ n ih =>
    unfold drain at h ⊢
    cases hbuffer : s.pointBuffer with
    | nil => exact ⟨rfl, rfl, rfl⟩
    | cons point rest =>
      simp only [hbuffer] at h ⊢
      obtain ⟨rate, queue, valid, accumulator, htaken, hsuffix, _⟩ := takePoint_cases point rest s
      have hlater := (drained n (takePoint point rest s)).queue
      have hqueue : (takePoint point rest s).pointRateQueue.length = s.pointRateQueue.length := by
        have h1 := hlater.length_le
        have h2 := hsuffix.length_le
        rw [h] at h1
        rw [htaken] at h1 ⊢
        exact Nat.le_antisymm h2 h1
      have hsame := takePoint_steady hqueue
      rw [hsame] at h ⊢
      exact ih h

end

/-! ## one tick -/

/-- the tick ends the playback for want of points -/
def Underflows (s : DeviceState) (now : Int) : Prop :=
  s.playbackState = .playing ∧ (playbackSection s now).1.playbackState ≠ .playing

/-- a point that the tick takes brings a rate of the queue into force -/
def ChangesRate (s : DeviceState) (now : Int) : Prop :=
  (playbackSection s now).1.pointRateQueue ≠ s.pointRateQueue

instance (s : DeviceState) (now : Int) : Decidable (Underflows s now) :=
  inferInstanceAs (Decidable (_ ∧ _))

instance (s : DeviceState) (now : Int) : Decidable (ChangesRate s now) :=
  inferInstanceAs (Decidable (_ ≠ _))

section
variable {s : DeviceState} {now : Int}

theorem playbackSection_still (h : s.playbackState ≠ .playing) : playbackSection s now = (s, []) :=
  if_pos (.inl h)

/-- the first tick sets the clock -/
theorem playbackSection_clock (hplaying : s.playbackState = .playing) (hrate : s.pointRate ≠ 0)
    (hclock : s.playbackClockValid = false) :
    playbackSection s now = ({ s with lastPlaybackAt := now, playbackClockValid := true }, []) := by
  unfold playbackSection
  rw [if_neg (by simp [hplaying, hrate]), if_pos (by simp [hclock])]

/-- a tick before a point is due carries everything over -/
theorem playbackSection_carry (hplaying : s.playbackState = .playing) (hrate : s.pointRate ≠ 0)
    (hclock : s.playbackClockValid = true) (hnone : ⌊accumulated s now⌋.toNat = 0) :
    playbackSection s now =
      ({ s with lastPlaybackAt := now, playbackAccumulator := accumulated s now }, []) := by
  unfold playbackSection
  rw [if_neg (by simp [hplaying, hrate]), if_neg (by simp [hclock])]
  simp only
  rw [if_pos hnone]

/-- a tick when points are due, which brings no other rate into force and finds them all -/
theorem playbackSection_play (hplaying : s.playbackState = .playing) (hrate : s.pointRate ≠ 0)
    (hclock : s.playbackClockValid = true) (hdue : ⌊accumulated s now⌋.toNat ≠ 0)
    (hfull : (playbackSection s now).1.playbackState = .playing) (hsteady : ¬ ChangesRate s now) :
    (playbackSection s now).1.pointRate = s.pointRate ∧
      (playbackSection s now).1.playbackAccumulator =
        accumulated s now - (⌊accumulated s now⌋.toNat : ℚ) ∧
      clock (playbackSection s now).1 = some now ∧
      (playbackSection s now).2.length = ⌊accumulated s now⌋.toNat := by
  have hqueue : (playbackSection s now).1.pointRateQueue = s.pointRateQueue := not_not.mp hsteady
  have hsame : due s now = accumulated s now := if_neg (by simp [hrate, hclock])
  have hplayed := playbackSection_due hplaying (show ⌊due s now⌋.toNat ≠ 0 by rwa [hsame])
  rw [hsame] at hplayed
  simp only at hplayed
  by_cases hshort : min ⌊accumulated s now⌋.toNat s.pointBuffer.length < ⌊accumulated s now⌋.toNat
  · -- the buffer holds fewer points than are due, which ends the playback
    rw [hplayed, if_pos hshort] at hfull
    cases hfull
  · have hall : min ⌊accumulated s now⌋.toNat s.pointBuffer.length = ⌊accumulated s now⌋.toNat := by
      omega
    rw [if_neg hshort, hall] at hplayed
    rw [hplayed] at hqueue ⊢
    obtain ⟨hkept, haccumulator, hkeptClock⟩ := drain_steady hqueue
    refine ⟨hkept, haccumulator, hkeptClock.trans (if_pos hclock), ?_⟩
    rw [(drained _ _).points_eq, List.length_map, List.length_take]
    exact hall

/-- **One tick**: the whole points of what is accumulated are submitted, and the rest is carried over. -/
theorem tick_paced (hplaying : s.playbackState = .playing) (hrate : s.pointRate ≠ 0)
    (hcarried : 0 ≤ s.playbackAccumulator ∧ s.playbackAccumulator < 1)
    (hclock : ∀ t ∈ clock s, t ≤ now)
    (hfull : (playbackSection s now).1.playbackState = .playing) (hsteady : ¬ ChangesRate s now) :
    let played := playbackSection s now
    played.1.pointRate = s.pointRate ∧ clock played.1 = some now ∧
      (0 ≤ played.1.playbackAccumulator ∧ played.1.playbackAccumulator < 1) ∧
      (played.2.length : ℚ) + played.1.playbackAccumulator =
        s.playbackAccumulator + (elapsed s now : ℚ) * (s.pointRate : ℚ) / 1000000 := by
  intro played
  cases hvalid : s.playbackClockValid with
  | false =>
    have helapsed : elapsed s now = 0 := by
      rw [elapsed, clock, if_neg (by simp [hvalid])]
    rw [show played = _ from playbackSection_clock hplaying hrate hvalid, helapsed]
    refine ⟨rfl, rfl, hcarried, ?_⟩
    show ((0 : Nat) : ℚ) + s.playbackAccumulator = _
    simp
  | true =>
    have hset : clock s = some s.lastPlaybackAt := if_pos hvalid
    have helapsed : elapsed s now = (now - s.lastPlaybackAt).tdiv 1000 := by
      rw [elapsed, hset]
    have haccumulated : accumulated s now =
        s.playbackAccumulator + (elapsed s now : ℚ) * (s.pointRate : ℚ) / 1000000 := by
      rw [helapsed]
      rfl
    have hnonneg : 0 ≤ accumulated s now := by
      have hpast := hclock s.lastPlaybackAt hset
      have hmicros : 0 ≤ elapsed s now := by
        rw [helapsed]
        exact Int.tdiv_nonneg (by omega) (by omega)
      have hmicros' : (0 : ℚ) ≤ (elapsed s now : ℚ) := by exact_mod_cast hmicros
      rw [haccumulated]
      have : (0 : ℚ) ≤ (elapsed s now : ℚ) * (s.pointRate : ℚ) / 1000000 := by positivity
      linarith [hcarried.1]
    have hrest := sub_floor_mem hnonneg
    rw [← haccumulated]
    by_cases hnone : ⌊accumulated s now⌋.toNat = 0
    · rw [show played = _ from playbackSection_carry hplaying hrate hvalid hnone]
      rw [hnone, Nat.cast_zero, sub_zero] at hrest
      refine ⟨rfl, if_pos hvalid, hrest, ?_⟩
      show ((0 : Nat) : ℚ) + accumulated s now = _
      rw [Nat.cast_zero, zero_add]
    · obtain ⟨hkept, haccumulator, hset', hlength⟩ :=
        playbackSection_play hplaying hrate hvalid hnone hfull hsteady
      refine ⟨hkept, hset', ?_, ?_⟩
      · rw [haccumulator]
        exact hrest
      · rw [haccumulator, hlength]
        ring

end

/-! ## a playback -/

/-- What may happen to a playback whose time is counted: it does not run out of points, no rate change is
taken from the queue, and no begin or update is acknowledged. -/
def Undisturbed (options : HostOptions) (d : Device) : Event → Prop
  | .tick now => ¬ Underflows d.state now ∧ ¬ ChangesRate d.state now
  | .command (.begin update rate) => (handleBegin options d.state update rate).1 ≠ .ack
  | _ => True

instance (options : HostOptions) (d : Device) : DecidablePred (Undisturbed options d) := fun e =>
  match e with
  | .connect => .isTrue trivial
  | .disconnect => .isTrue trivial
  | .tick _ => inferInstanceAs (Decidable (_ ∧ _))
  | .command .query => .isTrue trivial
  | .command .version => .isTrue trivial
  | .command .prepare => .isTrue trivial
  | .command (.begin update rate) =>
    inferInstanceAs (Decidable ((handleBegin options d.state update rate).1 ≠ .ack))
  | .command (.rateChange _) => .isTrue trivial
  | .command (.data _) => .isTrue trivial
  | .command .stop => .isTrue trivial
  | .command .clear => .isTrue trivial
  | .command (.emergencyStop _) => .isTrue trivial

/-- What an event that is no tick does to a playback: it goes on, it ends, or there was none. -/
inductive Kept (s t : DeviceState) : Prop where
  | same (hstate : t.playbackState = s.playbackState) (hrate : t.pointRate = s.pointRate)
      (haccumulator : t.playbackAccumulator = s.playbackAccumulator) (hclock : clock t = clock s)
  | ended (hstate : t.playbackState ≠ .playing) (haccumulator : t.playbackAccumulator = 0)
  | none (hbefore : s.playbackState ≠ .playing) (hstate : t.playbackState ≠ .playing)
      (haccumulator : t.playbackAccumulator = s.playbackAccumulator)

section
variable {options : HostOptions} {s : DeviceState}

theorem prepare_kept : Kept s (handlePrepare s).2 := by
  unfold handlePrepare
  split
  · rename_i hguard
    refine .none ?_ (by decide : PlaybackState.prepared ≠ .playing) rfl
    rw [hguard.2]
    decide
  · exact .same rfl rfl rfl rfl

theorem command_kept {command : Command}
    (h : ∀ update rate, command = .begin update rate → (handleBegin options s update rate).1 ≠ .ack) :
    Kept s (command.run options s).state := by
  cases command with
  | query => exact .same rfl rfl rfl rfl
  | version => exact .same rfl rfl rfl rfl
  | prepare => exact prepare_kept
  | begin update rate =>
    show Kept s (handleBegin options s update rate).2
    rw [begin_refused (h update rate rfl)]
    exact .same rfl rfl rfl rfl
  | rateChange rate =>
    rcases rateChange_whole options s rate with ⟨_, htaken⟩ | ⟨_, hsame⟩
    · show Kept s (handleRateChange options s rate).2
      rw [htaken]
      exact .same rfl rfl rfl rfl
    · show Kept s (handleRateChange options s rate).2
      rw [hsame]
      exact .same rfl rfl rfl rfl
  | data points =>
    rcases data_whole options s points with htaken | ⟨_, hsame⟩
    · show Kept s (handleData options s points).2
      rw [htaken]
      exact .same rfl rfl rfl rfl
    · show Kept s (handleData options s points).2
      rw [hsame]
      exact .same rfl rfl rfl rfl
  | stop =>
    show Kept s (handleStop s).2
    unfold handleStop
    split
    · exact .ended (by decide : PlaybackState.idle ≠ .playing) rfl
    · exact .same rfl rfl rfl rfl
  | clear =>
    show Kept s (handleClear s)
    unfold handleClear
    simp only
    split
    · rename_i hidle
      have hstill : s.playbackState ≠ .playing := by
        rw [hidle]
        decide
      exact .none hstill hstill rfl
    · exact .same rfl rfl rfl rfl
  | emergencyStop byte => exact .ended (by decide : PlaybackState.idle ≠ .playing) rfl

/-- commands submit nothing -/
theorem submitted_outputs (done : Done) (command : Command) : submitted (done.outputs command) = [] := by
  unfold Done.outputs
  rw [submitted_append]
  have hanswer : submitted [command.answer done.response done.state] = [] := by
    cases command <;> rfl
  rw [hanswer, List.append_nil]
  split <;> rfl

end

/-- an event that is no tick -/
theorem event_kept {options : HostOptions} {d : Device} {e : Event} (htick : ∀ now, e ≠ .tick now)
    (h : Undisturbed options d e) : Kept d.state (d.step options e).state ∧
      submitted (d.step options e).log = submitted d.log := by
  cases hconnected : d.connected with
  | true =>
    cases e with
    | connect =>
      rw [step_connect_busy hconnected]
      exact ⟨.same rfl rfl rfl rfl, rfl⟩
    | disconnect =>
      rw [step_disconnect hconnected]
      refine ⟨.ended (by decide : PlaybackState.idle ≠ .playing) rfl, ?_⟩
      rw [submitted_append]
      exact List.append_nil _
    | command command =>
      rw [step_command hconnected]
      refine ⟨command_kept ?_, ?_⟩
      · rintro update rate rfl
        exact h
      · rw [submitted_append, submitted_outputs, List.append_nil]
    | tick now => exact absurd rfl (htick now)
  | false =>
    cases e with
    | connect =>
      rw [step_connect hconnected]
      refine ⟨.ended (by decide : PlaybackState.idle ≠ .playing) rfl, ?_⟩
      rw [submitted_append]
      exact List.append_nil _
    | disconnect =>
      rw [step_disconnect_away hconnected]
      exact ⟨.same rfl rfl rfl rfl, rfl⟩
    | command command =>
      rw [step_command_away hconnected]
      exact ⟨.same rfl rfl rfl rfl, rfl⟩
    | tick now => exact absurd rfl (htick now)

/-- After ticks at `times` of a playback at `rate`, for which `n` points were submitted: the playback goes
on from the last tick with the rest in the accumulator, or it is over. -/
inductive Paced (rate n : Nat) (times : List Int) (s : DeviceState) : Prop where
  | playing (hplaying : s.playbackState = .playing) (hrate : s.pointRate = rate)
      (hclock : clock s = times.getLast?)
      (hcarried : 0 ≤ s.playbackAccumulator ∧ s.playbackAccumulator < 1)
      (htime : (n : ℚ) + s.playbackAccumulator =
        ((intervals times).sum : ℚ) * (rate : ℚ) / 1000000)
  | stopped (hstate : s.playbackState ≠ .playing) (haccumulator : s.playbackAccumulator = 0)
      (htime : (n : Int) = ⌊((intervals times).sum : ℚ) * (rate : ℚ) / 1000000⌋)

namespace Paced
variable {rate n : Nat} {times : List Int} {s t : DeviceState}

theorem floor (h : Paced rate n times s) :
    (n : Int) = ⌊((intervals times).sum : ℚ) * (rate : ℚ) / 1000000⌋ := by
  cases h with
  | playing hplaying hrate hclock hcarried htime => exact floor_of_add hcarried htime
  | stopped hstate haccumulator htime => exact htime

theorem carried (h : Paced rate n times s) :
    0 ≤ s.playbackAccumulator ∧ s.playbackAccumulator < 1 := by
  cases h with
  | playing hplaying hrate hclock hcarried htime => exact hcarried
  | stopped hstate haccumulator htime =>
    rw [haccumulator]
    exact ⟨le_refl _, one_pos⟩

theorem kept (h : Paced rate n times s) (hkept : Kept s t) : Paced rate n times t := by
  have hfloor := h.floor
  cases hkept with
  | ended hstate haccumulator => exact .stopped hstate haccumulator hfloor
  | same hstate hrate haccumulator hclock =>
    cases h with
    | playing hplaying hr hset hcarried htime =>
      rw [← haccumulator] at hcarried htime
      exact .playing (hstate.trans hplaying) (hrate.trans hr) (hclock.trans hset) hcarried htime
    | stopped hover hzero htime =>
      refine .stopped ?_ (haccumulator.trans hzero) htime
      rw [hstate]
      exact hover
  | none hbefore hstate haccumulator =>
    cases h with
    | playing hplaying hr hset hcarried htime => exact absurd hplaying hbefore
    | stopped hover hzero htime => exact .stopped hstate (haccumulator.trans hzero) htime

theorem tick {options : HostOptions} {d : Device} {now : Int} (hrate : rate ≠ 0)
    (h : Paced rate n times d.state) (hundisturbed : Undisturbed options d (.tick now))
    (hplaying : d.state.playbackState = .playing) (hlater : ∀ t ∈ times.getLast?, t ≤ now) :
    Paced rate (n + (playbackSection d.state now).2.length) (times ++ [now])
      (playbackSection d.state now).1 := by
  obtain ⟨hfull, hsteady⟩ := hundisturbed
  cases h with
  | stopped hover hzero htime => exact absurd hplaying hover
  | playing _ hr hclock hcarried htime =>
    have hplays : (playbackSection d.state now).1.playbackState = .playing := by
      by_contra hidle
      exact hfull ⟨hplaying, hidle⟩
    rw [← hclock] at hlater
    obtain ⟨hkept, hset, hrest, hpoints⟩ :=
      tick_paced hplaying (by rw [hr]; exact hrate) hcarried hlater hplays hsteady
    rw [hr] at hpoints hkept
    refine .playing hplays hkept ?_ hrest ?_
    · rw [hset, List.getLast?_concat]
    · have hinterval : (intervals (times ++ [now])).sum =
          (intervals times).sum + elapsed d.state now := by
        rw [intervals_concat, elapsed, hclock]
      rw [hinterval, Nat.cast_add, Int.cast_add, add_assoc, hpoints, ← add_assoc, htime]
      ring

end Paced

/-- **One event** of an undisturbed playback. -/
theorem step_paced {options : HostOptions} {rate n : Nat} {times : List Int} {d : Device} {e : Event}
    (hrate : rate ≠ 0) (h : Paced rate n times d.state) (hundisturbed : Undisturbed options d e)
    (hlater : ∀ now ∈ e.tick?, ∀ t ∈ times.getLast?, t ≤ now) :
    ∃ m, (submitted (d.step options e).log).length = (submitted d.log).length + m ∧
      Paced rate (n + m) (times ++ if d.state.playbackState = .playing then e.tick?.toList else [])
        (d.step options e).state := by
  by_cases htick : ∃ now, e = .tick now
  · obtain ⟨now, rfl⟩ := htick
    refine ⟨(playbackSection d.state now).2.length, ?_, ?_⟩
    · show (submitted (d.log ++ _)).length = _
      rw [submitted_append, submitted_submission, List.length_append]
    · by_cases hplaying : d.state.playbackState = .playing
      · rw [if_pos hplaying]
        exact h.tick hrate hundisturbed hplaying (hlater now rfl)
      · rw [if_neg hplaying, List.append_nil]
        show Paced _ _ _ (playbackSection d.state now).1
        rw [playbackSection_still hplaying]
        exact h
  · obtain ⟨hkept, hsubmitted⟩ := event_kept (fun now he => htick ⟨now, he⟩) hundisturbed
    have hnone : e.tick? = none := by
      cases e with
      | tick now => exact absurd ⟨now, rfl⟩ htick
      | connect => rfl
      | disconnect => rfl
      | command command => rfl
    refine ⟨0, ?_, ?_⟩
    · rw [hsubmitted, Nat.add_zero]
    · rw [hnone, Option.toList_none, ite_self, List.append_nil]
      exact h.kept hkept

/-! ## the begin of a playback -/

/-- nothing is carried over while nothing is played -/
def Unspent (d : Device) : Prop :=
  d.state.playbackState ≠ .playing → d.state.playbackAccumulator = 0

theorem Kept.unspent {s t : DeviceState} (hkept : Kept s t)
    (h : s.playbackState ≠ .playing → s.playbackAccumulator = 0) (ht : t.playbackState ≠ .playing) :
    t.playbackAccumulator = 0 := by
  cases hkept with
  | same hstate hrate haccumulator =>
    rw [hstate] at ht
    exact haccumulator.trans (h ht)
  | ended hstate haccumulator => exact haccumulator
  | none hbefore hstate haccumulator => exact haccumulator.trans (h hbefore)

theorem begin_acked {options : HostOptions} {s : DeviceState} {update : Bool} {rate : Nat}
    (h : (handleBegin options s update rate).1 = .ack) :
    rate ≠ 0 ∧ (handleBegin options s update rate).2.playbackState = .playing ∧
      (handleBegin options s update rate).2.pointRate = rate ∧
      clock (handleBegin options s update rate).2 = none ∧
      (handleBegin options s update rate).2.playbackAccumulator = s.playbackAccumulator := by
  unfold handleBegin at h ⊢
  split
  · rename_i hguard
    exact ⟨by omega, rfl, rfl, rfl, rfl⟩
  · rename_i hguard
    rw [if_neg hguard] at h
    cases h

/-- the only event that disturbs a playback and is no tick -/
theorem begin_of_disturbed {options : HostOptions} {d : Device} {e : Event}
    (htick : ∀ now, e ≠ .tick now) (h : ¬ Undisturbed options d e) :
    ∃ update rate, e = .command (.begin update rate) ∧
      (handleBegin options d.state update rate).1 = .ack := by
  cases e with
  | connect => exact absurd trivial h
  | disconnect => exact absurd trivial h
  | tick now => exact absurd rfl (htick now)
  | command command =>
    cases command with
    | begin update rate => exact ⟨update, rate, rfl, not_not.mp h⟩
    | query => exact absurd trivial h
    | version => exact absurd trivial h
    | prepare => exact absurd trivial h
    | rateChange rate => exact absurd trivial h
    | data points => exact absurd trivial h
    | stop => exact absurd trivial h
    | clear => exact absurd trivial h
    | emergencyStop byte => exact absurd trivial h

theorem Unspent.step {options : HostOptions} {d : Device} (h : Unspent d) (e : Event) :
    Unspent (d.step options e) := by
  by_cases htick : ∃ now, e = .tick now
  · obtain ⟨now, rfl⟩ := htick
    intro hstopped
    change (playbackSection d.state now).1.playbackState ≠ .playing at hstopped
    show (playbackSection d.state now).1.playbackAccumulator = 0
    have hout := playbackSection_outcome d.state now
    generalize playbackSection d.state now = r at hout hstopped
    cases hout with
    | still _ => exact h hstopped
    | clock hplaying => exact absurd hplaying hstopped
    | wait hplaying accumulator => exact absurd hplaying hstopped
    | play hplaying n accumulator s' points hdrained hn =>
      exact absurd (hdrained.playbackState.trans hplaying) hstopped
    | underflow hplaying accumulator s' points hdrained => rfl
  · have hother : ∀ now, e ≠ .tick now := fun now he => htick ⟨now, he⟩
    by_cases hundisturbed : Undisturbed options d e
    · exact (event_kept hother hundisturbed).1.unspent h
    · obtain ⟨update, rate, rfl, hack⟩ := begin_of_disturbed hother hundisturbed
      intro hstopped
      cases hconnected : d.connected with
      | false =>
        rw [step_command_away hconnected] at hstopped ⊢
        exact h hstopped
      | true =>
        rw [step_command hconnected] at hstopped
        exact absurd (begin_acked hack).2.1 hstopped

/-- a device that is prepared plays only after a begin that it has acknowledged -/
theorem begun_paced {options : HostOptions} {d : Device} {update : Bool} {rate : Nat} (h : Unspent d)
    (hprepared : d.state.playbackState = .prepared)
    (hplaying : (d.step options (.command (.begin update rate))).state.playbackState = .playing) :
    rate ≠ 0 ∧ Paced rate 0 [] (d.step options (.command (.begin update rate))).state := by
  have hstill : d.state.playbackState ≠ .playing := by
    rw [hprepared]
    decide
  cases hconnected : d.connected with
  | false =>
    rw [step_command_away hconnected] at hplaying
    exact absurd hplaying hstill
  | true =>
    rw [step_command hconnected] at hplaying ⊢
    change (handleBegin options d.state update rate).2.playbackState = .playing at hplaying
    have hack : (handleBegin options d.state update rate).1 = .ack := by
      by_contra hrefused
      rw [begin_refused hrefused] at hplaying
      exact hstill hplaying
    obtain ⟨hrate, _, hr, hclock, haccumulator⟩ := begin_acked hack
    rw [h hstill] at haccumulator
    refine ⟨hrate, .playing hplaying hr hclock ?_ ?_⟩
    · show 0 ≤ (handleBegin options d.state update rate).2.playbackAccumulator ∧
        (handleBegin options d.state update rate).2.playbackAccumulator < 1
      rw [haccumulator]
      exact ⟨le_refl _, one_pos⟩
    · show ((0 : Nat) : ℚ) + (handleBegin options d.state update rate).2.playbackAccumulator = _
      rw [haccumulator]
      simp [intervals]

/-- The points and the ticks of a playback so far. -/
structure PacedRun (options : HostOptions) (begun : Device) (rate : Nat) (so_far : List Event)
    (mid : Device) : Prop where
  reached : mid = so_far.foldl (Device.step options) begun
  all : mid.state.playbackState = .playing →
    playedTicks options begun so_far = so_far.filterMap Event.tick?
  paced : ∃ n, (submitted mid.log).length = (submitted begun.log).length + n ∧
    Paced rate n (playedTicks options begun so_far) mid.state

/-- a playback that is over does not begin again unnoticed -/
theorem playing_before {options : HostOptions} {d : Device} {e : Event}
    (hundisturbed : Undisturbed options d e)
    (h : (d.step options e).state.playbackState = .playing) : d.state.playbackState = .playing := by
  by_contra hover
  by_cases htick : ∃ now, e = .tick now
  · obtain ⟨now, rfl⟩ := htick
    change (playbackSection d.state now).1.playbackState = .playing at h
    rw [playbackSection_still hover] at h
    exact hover h
  · obtain ⟨hkept, _⟩ := event_kept (fun now he => htick ⟨now, he⟩) hundisturbed
    cases hkept with
    | same hstate hrate haccumulator hclock =>
      rw [hstate] at h
      exact hover h
    | ended hstate haccumulator => exact hstate h
    | none hbefore hstate haccumulator => exact hstate h

theorem PacedRun.step {options : HostOptions} {begun mid : Device} {rate : Nat} {so_far : List Event}
    (h : PacedRun options begun rate so_far mid) (hrate : rate ≠ 0) {e : Event}
    (hundisturbed : Undisturbed options mid e)
    (hlater : ∀ t ∈ so_far.filterMap Event.tick?, ∀ now ∈ [e].filterMap Event.tick?, t ≤ now) :
    PacedRun options begun rate (so_far ++ [e]) (mid.step options e) := by
  obtain ⟨hreached, hall, n, hlength, hpaced⟩ := h
  have hticks : playedTicks options begun (so_far ++ [e]) = playedTicks options begun so_far ++
      if mid.state.playbackState = .playing then e.tick?.toList else [] := by
    rw [playedTicks_concat, ← hreached]
  refine ⟨?_, ?_, ?_⟩
  · rw [hreached, List.foldl_append]
    rfl
  · intro hplaying
    have hbefore := playing_before hundisturbed hplaying
    rw [hticks, if_pos hbefore, hall hbefore, List.filterMap_append]
    cases e <;> rfl
  · obtain ⟨m, hmore, hnext⟩ := step_paced hrate hpaced hundisturbed (by
      intro now hnow t ht
      refine hlater t ?_ now (List.mem_filterMap.mpr ⟨e, List.mem_singleton_self e, hnow⟩)
      exact (playedTicks_sublist options begun so_far).subset (List.mem_of_getLast? ht))
    refine ⟨n + m, ?_, ?_⟩
    · rw [hmore, hlength, Nat.add_assoc]
    · rw [hticks]
      exact hnext

/-- **The pace of a playback does not drift.**  A device has just gone from prepared to playing at a
rate.  After any ticks of a steady clock and any commands, as long as no tick runs out of points, no rate
change is taken from the queue and no other begin or update is acknowledged, the sink has been given as
many points as the time from the first tick to the last one holds at that rate, rounded down, and less
than a point is carried over.  The ticks are those that find the device playing, which are all of them
while it plays. -/
theorem pacing_does_not_drift (ports : DefaultPorts) (config : VirtualControllerHostConfig)
    (before : List Event) (update : Bool) (rate : Nat) :
    let options := makeHostOptions ports config
    let d := before.foldl (Device.step options) {}
    let begun := d.step options (.command (.begin update rate))
    d.state.playbackState = .prepared → begun.state.playbackState = .playing →
    ∀ events, Allowed (Device.step options) (Undisturbed options) begun events →
      (events.filterMap Event.tick?).Pairwise (· ≤ ·) →
      let last := events.foldl (Device.step options) begun
      let ticks := playedTicks options begun events
      ((submitted last.log).length : Int) = (submitted begun.log).length +
          ⌊((intervals ticks).sum : ℚ) * (rate : ℚ) / 1000000⌋ ∧
        (last.state.playbackState = .playing → ticks = events.filterMap Event.tick?) ∧
        0 ≤ last.state.playbackAccumulator ∧ last.state.playbackAccumulator < 1 := by
  intro options d begun hprepared hplaying events hrun hsteady last ticks
  have hreach : Reach (Device.step options) (fun _ _ => True) {} d := Reach.of_list before
  have hunspent : Unspent d := hreach.invariant (fun _ => rfl) fun d e hd _ => hd.step e
  obtain ⟨hrate, hbegun⟩ := begun_paced hunspent hprepared hplaying
  have h : PacedRun options begun rate events last := by
    refine hrun.history (P := fun so_far mid => (so_far.filterMap Event.tick?).Pairwise (· ≤ ·) →
      PacedRun options begun rate so_far mid) ?_ ?_ hsteady
    · intro _
      exact ⟨rfl, fun _ => rfl, 0, rfl, hbegun⟩
    · intro so_far mid e h hundisturbed hlater
      rw [List.filterMap_append, List.pairwise_append] at hlater
      exact (h hlater.1).step hrate hundisturbed hlater.2.2
  obtain ⟨_, hall, n, hlength, hpaced⟩ := h
  refine ⟨?_, hall, hpaced.carried⟩
  rw [hlength, ← hpaced.floor]
  exact Nat.cast_add _ _

/-- Three ticks of 0.7 milliseconds at 1000 points a second, after the one that sets the clock: two points
are submitted, none of them by the first. -/
theorem pacing_does_not_drift_two :
    let options := makeHostOptions ⟨7765, 7654⟩ ⟨0, ∅⟩
    let before : List Event := [.connect, .command .prepare,
      .command (.data (List.replicate 5 plainPoint))]
    let begun := (before.foldl (Device.step options) {}).step options (.command (.begin false 1000))
    let events : List Event := [.tick 0, .tick 700000, .tick 1400000, .tick 2100000]
    ((submitted (events.foldl (Device.step options) begun).log).length : Int) = 2 := by
  intro options before begun events
  have h := (pacing_does_not_drift ⟨7765, 7654⟩ ⟨0, ∅⟩ before false 1000 (by decide +kernel)
    (by decide +kernel) events (by decide +kernel) (by decide +kernel)).1
  have helapsed : (intervals (playedTicks options begun events)).sum = 2100 := by decide +kernel
  have hnone : (submitted begun.log).length = 0 := by decide +kernel
  have hfloor : ⌊((2100 : Int) : ℚ) * ((1000 : Nat) : ℚ) / 1000000⌋ = 2 := by decide +kernel
  exact h.trans (by rw [hnone, helapsed, hfloor]; rfl)

end LiberaLink.EtherDream
