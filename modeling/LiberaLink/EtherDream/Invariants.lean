import LiberaLink.EtherDream.Playback
import LiberaLink.Lib.Reach

/-!
# The state of a device hangs together

Two states, two words of flags, two queues, a rate, a clock and an accumulator are changed by the
commands and the ticks, each of which touches some of them.

* `DeviceState.Inv`             how they hang together;
* `prepare_inv` … `tick_inv`    what each command and each tick keeps;
* `device_invariants`           **in every run of a device with its clients**.
-/

namespace LiberaLink.EtherDream
open Stepwise

/-! ## flags -/

namespace DeviceState

def shutter (s : DeviceState) : Bool := s.playbackFlags.getLsbD 0
def underflowFlag (s : DeviceState) : Bool := s.playbackFlags.getLsbD 1
def playbackEstop (s : DeviceState) : Bool := s.playbackFlags.getLsbD 2
def lightEngineEstop (s : DeviceState) : Bool := s.lightEngineFlags.getLsbD 0

end DeviceState

theorem getLsbD_clear (flags mask : BitVec 16) {i : Nat} (hi : i < 16) :
    (flags &&& ~~~mask).getLsbD i = (flags.getLsbD i && !mask.getLsbD i) := by
  rw [BitVec.getLsbD_and, BitVec.getLsbD_not]
  simp [hi]

/-! ## the invariant -/

/-- the rates that a client may ask for -/
def RateOk (options : HostOptions) (rate : Nat) : Prop := 1 ≤ rate ∧ rate ≤ options.maxPointRate

/-- How the parts of the state hang together. -/
structure DeviceState.Inv (options : HostOptions) (s : DeviceState) : Prop where
  fits : s.pointBuffer.length ≤ options.bufferCapacity
  queue : s.pointRateQueue.length ≤ maxPointRateQueue
  rates : ∀ rate ∈ s.pointRateQueue, RateOk options rate
  shutter : s.shutter = true ↔ s.playbackState = .playing
  estop : s.lightEngineState = .estop ↔ s.lightEngineEstop = true ∧ s.playbackEstop = true
  estopped : s.lightEngineState = .estop → s.playbackState = .idle
  underflow : s.underflowFlag = true → s.playbackState = .idle
  empty : s.playbackState = .idle →
    s.pointBuffer = [] ∧ s.playbackClockValid = false ∧ s.playbackAccumulator = 0

section
variable {options : HostOptions} {s : DeviceState}

/-- an idle state with nothing in its queues -/
theorem DeviceState.inv_idle (hidle : s.playbackState = .idle) (hbuffer : s.pointBuffer = [])
    (hqueue : s.pointRateQueue = []) (hclock : s.playbackClockValid = false)
    (haccumulator : s.playbackAccumulator = 0) (hshutter : s.shutter = false)
    (hestop : s.lightEngineState = .estop ↔ s.lightEngineEstop = true ∧ s.playbackEstop = true) :
    s.Inv options where
  fits := by
    rw [hbuffer]
    exact Nat.zero_le _
  queue := by
    rw [hqueue]
    exact Nat.zero_le _
  rates := by
    intro rate hrate
    rw [hqueue] at hrate
    cases hrate
  shutter := by
    rw [hshutter, hidle]
    simp
  estop := hestop
  estopped := fun _ => hidle
  underflow := fun _ => hidle
  empty := fun _ => ⟨hbuffer, hclock, haccumulator⟩

theorem reset_inv : (resetState options s).Inv options := by
  refine DeviceState.inv_idle rfl rfl rfl rfl rfl ?_ ?_
  · simp [resetState, DeviceState.shutter]
  · simp [resetState, DeviceState.lightEngineEstop]

theorem stopPlayback_shutter : (stopPlayback s).shutter = false := by
  show (s.playbackFlags &&& ~~~playbackFlagShutter).getLsbD 0 = false
  rw [getLsbD_clear _ _ (by omega)]
  simp [playbackFlagShutter]

theorem stopPlayback_playbackEstop : (stopPlayback s).playbackEstop = s.playbackEstop := by
  show (s.playbackFlags &&& ~~~playbackFlagShutter).getLsbD 2 = _
  rw [getLsbD_clear _ _ (by omega)]
  simp [playbackFlagShutter, DeviceState.playbackEstop]

theorem stopPlayback_inv (h : s.Inv options) : (stopPlayback s).Inv options := by
  refine DeviceState.inv_idle rfl rfl rfl rfl rfl stopPlayback_shutter ?_
  rw [stopPlayback_playbackEstop]
  exact h.estop

theorem begin_inv (h : s.Inv options) (update : Bool) (rate : Nat) :
    (handleBegin options s update rate).2.Inv options := by
  unfold handleBegin
  split
  · rename_i hguard
    obtain ⟨_, _, hready, hprepared, hbuffer⟩ := hguard
    -- an idle device has an empty buffer, so the device was prepared or playing
    have hbusy : s.playbackState ≠ .idle := fun hidle => hbuffer (h.empty hidle).1
    refine ⟨h.fits, h.queue, h.rates, ?_, ?_, ?_, ?_, ?_⟩
    · show (s.playbackFlags ||| playbackFlagShutter).getLsbD 0 = true ↔ _
      rw [BitVec.getLsbD_or]
      simp [playbackFlagShutter]
    · show _ ↔ _ ∧ (s.playbackFlags ||| playbackFlagShutter).getLsbD 2 = true
      have hbit : (s.playbackFlags ||| playbackFlagShutter).getLsbD 2 = s.playbackEstop := by
        rw [BitVec.getLsbD_or]
        simp [playbackFlagShutter, DeviceState.playbackEstop]
      rw [hbit]
      exact h.estop
    · intro hestop
      change s.lightEngineState = .estop at hestop
      rw [hready] at hestop
      cases hestop
    · intro hunderflow
      change (s.playbackFlags ||| playbackFlagShutter).getLsbD 1 = true at hunderflow
      have hbit : (s.playbackFlags ||| playbackFlagShutter).getLsbD 1 = s.underflowFlag := by
        rw [BitVec.getLsbD_or]
        simp [playbackFlagShutter, DeviceState.underflowFlag]
      rw [hbit] at hunderflow
      exact absurd (h.underflow hunderflow) hbusy
    · intro hidle
      cases hidle
  · exact h

theorem rateChange_inv (h : s.Inv options) (rate : Nat) :
    (handleRateChange options s rate).2.Inv options := by
  unfold handleRateChange
  split
  · rename_i hguard
    split
    · exact h
    · rename_i hroom
      refine ⟨h.fits, ?_, ?_, h.shutter, h.estop, h.estopped, h.underflow, h.empty⟩
      · show (s.pointRateQueue ++ [rate]).length ≤ maxPointRateQueue
        rw [List.length_append, List.length_singleton]
        omega
      · intro rate' hmem
        rcases List.mem_append.mp hmem with hold | hnew
        · exact h.rates rate' hold
        · rw [List.mem_singleton.mp hnew]
          exact hguard.2
  · exact h

theorem data_inv (h : s.Inv options) (points : List BufferedPoint) :
    (handleData options s points).2.Inv options := by
  unfold handleData
  split
  · rename_i hguard
    split
    · exact h
    · rename_i hroom
      refine ⟨?_, h.queue, h.rates, h.shutter, h.estop, h.estopped, h.underflow, ?_⟩
      · show (s.pointBuffer ++ points).length ≤ options.bufferCapacity
        rw [List.length_append]
        omega
      · intro hidle
        exact absurd hidle hguard.1
  · exact h

theorem prepare_inv (h : s.Inv options) : (handlePrepare s).2.Inv options := by
  unfold handlePrepare
  split
  · rename_i hguard
    obtain ⟨hready, _⟩ := hguard
    have hmask : ∀ i < 3, (s.playbackFlags &&&
        ~~~(playbackFlagUnderflow ||| playbackFlagEstop ||| playbackFlagShutter)).getLsbD i =
          false := by
      intro i hi
      rw [getLsbD_clear _ _ (by omega)]
      have hcases : i = 0 ∨ i = 1 ∨ i = 2 := by omega
      rcases hcases with rfl | rfl | rfl
      · simp [playbackFlagUnderflow, playbackFlagEstop, playbackFlagShutter]
      · simp [playbackFlagUnderflow, playbackFlagEstop, playbackFlagShutter]
      · simp [playbackFlagUnderflow, playbackFlagEstop, playbackFlagShutter]
    refine ⟨Nat.zero_le _, Nat.zero_le _, ?_, ?_, ?_, ?_, ?_, ?_⟩
    · intro rate hrate
      cases hrate
    · show BitVec.getLsbD _ 0 = true ↔ PlaybackState.prepared = .playing
      rw [hmask 0 (by omega)]
      simp
    · show s.lightEngineState = .estop ↔ _ ∧ BitVec.getLsbD _ 2 = true
      rw [hmask 2 (by omega), hready]
      simp
    · intro hestop
      change s.lightEngineState = .estop at hestop
      rw [hready] at hestop
      cases hestop
    · intro hunderflow
      change BitVec.getLsbD _ 1 = true at hunderflow
      rw [hmask 1 (by omega)] at hunderflow
      cases hunderflow
    · intro hidle
      cases hidle
  · exact h

theorem stop_inv (h : s.Inv options) : (handleStop s).2.Inv options := by
  unfold handleStop
  split
  · exact stopPlayback_inv h
  · exact h

theorem clear_inv (h : s.Inv options) : (handleClear s).Inv options := by
  have hbit : ∀ i < 3, (s.playbackFlags &&&
      ~~~(playbackFlagUnderflow ||| playbackFlagEstop)).getLsbD i =
        (s.playbackFlags.getLsbD i && decide (i = 0)) := by
    intro i hi
    rw [getLsbD_clear _ _ (by omega)]
    have hcases : i = 0 ∨ i = 1 ∨ i = 2 := by omega
    rcases hcases with rfl | rfl | rfl
    · simp [playbackFlagUnderflow, playbackFlagEstop]
    · simp [playbackFlagUnderflow, playbackFlagEstop]
    · simp [playbackFlagUnderflow, playbackFlagEstop]
  have hshutter : (s.playbackFlags &&&
      ~~~(playbackFlagUnderflow ||| playbackFlagEstop)).getLsbD 0 = s.shutter := by
    rw [hbit 0 (by omega)]
    exact Bool.and_true _
  unfold handleClear
  simp only
  split
  · rename_i hidle
    obtain ⟨_, hclock, haccumulator⟩ := h.empty hidle
    refine DeviceState.inv_idle hidle rfl rfl rfl haccumulator ?_ ?_
    · show BitVec.getLsbD _ 0 = false
      rw [hshutter, ← Bool.not_eq_true]
      intro hopen
      rw [h.shutter.mp hopen] at hidle
      cases hidle
    · simp [DeviceState.lightEngineEstop]
  · rename_i hbusy
    refine ⟨h.fits, h.queue, h.rates, ?_, ?_, ?_, ?_, ?_⟩
    · show BitVec.getLsbD _ 0 = true ↔ _
      rw [hshutter]
      exact h.shutter
    · simp [DeviceState.lightEngineEstop]
    · intro hestop
      cases hestop
    · intro hunderflow
      change BitVec.getLsbD _ 1 = true at hunderflow
      rw [hbit 1 (by omega)] at hunderflow
      simp at hunderflow
    · intro hidle
      exact absurd hidle hbusy

theorem emergencyStop_inv : (handleEmergencyStop s).Inv options := by
  refine DeviceState.inv_idle rfl rfl rfl rfl rfl stopPlayback_shutter ?_
  unfold handleEmergencyStop
  rw [stopPlayback_playbackEstop]
  simp [stopPlayback, DeviceState.lightEngineEstop, DeviceState.playbackEstop, playbackFlagEstop,
    lightEngineFlagEstopCommand]

theorem Drained.inv {n : Nat} {s' : DeviceState} {points : List LaserPoint}
    (hdrained : Drained n s s' points) (h : s.Inv options) (hplaying : s.playbackState = .playing) :
    s'.Inv options := by
  refine ⟨?_, ?_, ?_, ?_, ?_, ?_, ?_, ?_⟩
  · rw [hdrained.pointBuffer, List.length_drop]
    have := h.fits
    omega
  · exact hdrained.queue.length_le.trans h.queue
  · intro rate hrate
    exact h.rates rate (hdrained.queue.subset hrate)
  · unfold DeviceState.shutter
    rw [hdrained.playbackFlags, hdrained.playbackState]
    exact h.shutter
  · unfold DeviceState.lightEngineEstop DeviceState.playbackEstop
    rw [hdrained.lightEngineState, hdrained.lightEngineFlags, hdrained.playbackFlags]
    exact h.estop
  · rw [hdrained.lightEngineState, hdrained.playbackState]
    exact h.estopped
  · unfold DeviceState.underflowFlag
    rw [hdrained.playbackFlags, hdrained.playbackState]
    exact h.underflow
  · intro hidle
    rw [hdrained.playbackState, hplaying] at hidle
    cases hidle

theorem underflow_inv (h : s.Inv options) (hplaying : s.playbackState = .playing)
    (hbuffer : s.pointBuffer = []) : (underflow s).Inv options := by
  have hready : s.lightEngineState ≠ .estop := by
    intro hestop
    rw [h.estopped hestop] at hplaying
    cases hplaying
  refine ⟨?_, h.queue, h.rates, ?_, ?_, fun _ => rfl, fun _ => rfl, fun _ => ⟨hbuffer, rfl, rfl⟩⟩
  · exact h.fits
  · show (s.playbackFlags &&& ~~~playbackFlagShutter ||| playbackFlagUnderflow).getLsbD 0 = true ↔
      PlaybackState.idle = .playing
    rw [BitVec.getLsbD_or, getLsbD_clear _ _ (by omega)]
    simp [playbackFlagShutter, playbackFlagUnderflow]
  · show _ ↔ _ ∧ (s.playbackFlags &&& ~~~playbackFlagShutter ||| playbackFlagUnderflow).getLsbD 2 = true
    have hbit : (s.playbackFlags &&& ~~~playbackFlagShutter ||| playbackFlagUnderflow).getLsbD 2 =
        s.playbackEstop := by
      rw [BitVec.getLsbD_or, getLsbD_clear _ _ (by omega)]
      simp [playbackFlagShutter, playbackFlagUnderflow, DeviceState.playbackEstop]
    rw [hbit]
    exact h.estop

/-- while points are played, neither the time nor the accumulator matters -/
theorem clock_inv (h : s.Inv options) (hplaying : s.playbackState = .playing) (now : Int) (valid : Bool)
    (accumulator : ℚ) :
    ({
      s with
      lastPlaybackAt := now
      playbackClockValid := valid
      playbackAccumulator := accumulator } : DeviceState).Inv options := by
  refine ⟨h.fits, h.queue, h.rates, h.shutter, h.estop, h.estopped, h.underflow, ?_⟩
  intro hidle
  change s.playbackState = .idle at hidle
  rw [hplaying] at hidle
  cases hidle

theorem tick_inv (h : s.Inv options) (now : Int) : (playbackSection s now).1.Inv options := by
  have hout := playbackSection_outcome s now
  generalize playbackSection s now = r at hout
  cases hout with
  | still _ => exact h
  | clock hplaying => exact clock_inv h hplaying now true s.playbackAccumulator
  | wait hplaying accumulator => exact clock_inv h hplaying now s.playbackClockValid accumulator
  | play hplaying n accumulator s' points hdrained hn =>
    exact hdrained.inv (clock_inv h hplaying now s.playbackClockValid accumulator) hplaying
  | underflow hplaying accumulator s' points hdrained =>
    refine underflow_inv (hdrained.inv (clock_inv h hplaying now s.playbackClockValid accumulator)
      hplaying) ?_ ?_
    · rw [hdrained.playbackState]
      exact hplaying
    · rw [hdrained.pointBuffer]
      exact List.drop_length

theorem command_inv (h : s.Inv options) (command : Command) :
    (command.run options s).state.Inv options := by
  cases command with
  | query => exact h
  | version => exact h
  | prepare => exact prepare_inv h
  | begin update rate => exact begin_inv h update rate
  | rateChange rate => exact rateChange_inv h rate
  | data points => exact data_inv h points
  | stop => exact stop_inv h
  | clear => exact clear_inv h
  | emergencyStop byte => exact emergencyStop_inv

/-! ## rates and fullness -/

/-- a rate that a command sets is one that a client may ask for -/
theorem command_rate (options : HostOptions) (s : DeviceState) (command : Command) :
    (command.run options s).state.pointRate = s.pointRate ∨
      RateOk options (command.run options s).state.pointRate := by
  cases command with
  | query => exact .inl rfl
  | version => exact .inl rfl
  | prepare =>
    show (handlePrepare s).2.pointRate = s.pointRate ∨ _
    unfold handlePrepare
    split <;> exact .inl rfl
  | begin update rate =>
    show (handleBegin options s update rate).2.pointRate = s.pointRate ∨
      RateOk options (handleBegin options s update rate).2.pointRate
    unfold handleBegin
    split
    · rename_i hguard
      exact .inr ⟨hguard.1, hguard.2.1⟩
    · exact .inl rfl
  | rateChange rate =>
    show (handleRateChange options s rate).2.pointRate = s.pointRate ∨ _
    unfold handleRateChange
    split
    · split <;> exact .inl rfl
    · exact .inl rfl
  | data points =>
    show (handleData options s points).2.pointRate = s.pointRate ∨ _
    unfold handleData
    split
    · split <;> exact .inl rfl
    · exact .inl rfl
  | stop =>
    show (handleStop s).2.pointRate = s.pointRate ∨ _
    unfold handleStop
    split <;> exact .inl rfl
  | clear =>
    show (handleClear s).pointRate = s.pointRate ∨ _
    unfold handleClear
    simp only
    split <;> exact .inl rfl
  | emergencyStop byte => exact .inl rfl

/-- a tick takes points out of the buffer, and its rate from the queue -/
theorem tick_frame (now : Int) :
    (playbackSection s now).1.pointBuffer.length ≤ s.pointBuffer.length ∧
      ((playbackSection s now).1.pointRate = s.pointRate ∨
        (playbackSection s now).1.pointRate ∈ s.pointRateQueue) ∧
      (s.playbackState = .idle → (playbackSection s now).1.playbackState = .idle) := by
  have hout := playbackSection_outcome s now
  generalize playbackSection s now = r at hout
  cases hout with
  | still _ => exact ⟨le_refl _, .inl rfl, id⟩
  | clock hplaying => exact ⟨le_refl _, .inl rfl, id⟩
  | wait hplaying accumulator => exact ⟨le_refl _, .inl rfl, id⟩
  | play hplaying n accumulator s' points hdrained hn =>
    refine ⟨?_, hdrained.rate, ?_⟩
    · rw [hdrained.pointBuffer, List.length_drop]
      exact Nat.sub_le _ _
    · intro hidle
      rw [hplaying] at hidle
      cases hidle
  | underflow hplaying accumulator s' points hdrained =>
    refine ⟨?_, hdrained.rate, fun _ => rfl⟩
    show s'.pointBuffer.length ≤ _
    rw [hdrained.pointBuffer, List.length_drop]
    exact Nat.sub_le _ _

theorem status_fullness (h : s.Inv options) (hcapacity : options.bufferCapacity < 2 ^ 16) :
    s.status.bufferFullness = s.pointBuffer.length := by
  have := h.fits
  show min s.pointBuffer.length 65535 = _
  omega

end

/-- the buffer fullness that an output reports -/
def reported : Output → Option Nat
  | .response _ _ status => some status.bufferFullness
  | .version => none
  | .call _ => none

/-- the fullness in the last status that was sent -/
def lastReported (log : List Output) : Nat := ((log.filterMap reported).getLast?).getD 0

theorem lastReported_response (log : List Output) (command : Command) (response : Response)
    (status : Status) :
    lastReported (log ++ [.response command response status]) = status.bufferFullness := by
  unfold lastReported
  rw [List.filterMap_append]
  simp [reported]

theorem lastReported_silent (log : List Output) {outputs : List Output}
    (h : ∀ o ∈ outputs, reported o = none) : lastReported (log ++ outputs) = lastReported log := by
  unfold lastReported
  rw [List.filterMap_append, List.filterMap_eq_nil_iff.mpr h, List.append_nil]

/-! ## runs -/

/-- What holds of a device and its client: the client has been told of at least as many points as are
in the buffer. -/
structure Device.Inv (options : HostOptions) (d : Device) : Prop where
  state : d.state.Inv options
  rate : d.connected = true → RateOk options d.state.pointRate
  away : d.connected = false → d.state.playbackState = .idle
  told : d.connected = true → d.state.pointBuffer.length ≤ lastReported d.log

section
variable {options : HostOptions} {d : Device}

theorem Device.inv_new : Device.Inv options {} where
  state := DeviceState.inv_idle rfl rfl rfl rfl rfl rfl (by simp [DeviceState.lightEngineEstop])
  rate := by
    intro h
    cases h
  away := fun _ => rfl
  told := by
    intro h
    cases h

theorem Device.Inv.connect (h : d.Inv options) (hbounded : options.Bounded) :
    (d.step options .connect).Inv options := by
  cases hconnected : d.connected with
  | true =>
    rw [step_connect_busy hconnected]
    exact h
  | false =>
    rw [step_connect hconnected]
    refine ⟨reset_inv, ?_, ?_, fun _ => Nat.zero_le _⟩
    · intro _
      have := hbounded.maxPointRate_ge
      show 1 ≤ min 30000 options.maxPointRate ∧ min 30000 options.maxPointRate ≤ options.maxPointRate
      omega
    · intro haway
      cases haway

theorem Device.Inv.disconnect (h : d.Inv options) : (d.step options .disconnect).Inv options := by
  cases hconnected : d.connected with
  | true =>
    rw [step_disconnect hconnected]
    refine ⟨stopPlayback_inv h.state, ?_, fun _ => rfl, ?_⟩
    · intro hon
      cases hon
    · intro hon
      cases hon
  | false =>
    rw [step_disconnect_away hconnected]
    exact h

/-- what a client has been told of the buffer, after a command -/
theorem command_told {command : Command} (hinv : (command.run options d.state).state.Inv options)
    (hbounded : options.Bounded) (htold : d.state.pointBuffer.length ≤ lastReported d.log) :
    (command.run options d.state).state.pointBuffer.length ≤
      lastReported (d.log ++ (command.run options d.state).outputs command) := by
  unfold Done.outputs
  by_cases hversion : command = .version
  · subst hversion
    rw [lastReported_silent]
    · exact htold
    · intro o ho
      rw [List.mem_singleton.mp ho]
      rfl
  · rw [answer_of_ne hversion, ← List.append_assoc, lastReported_response,
      status_fullness hinv hbounded.bufferCapacity_lt]

theorem Device.Inv.command (h : d.Inv options) (hbounded : options.Bounded) (command : Command) :
    (d.step options (.command command)).Inv options := by
  cases hconnected : d.connected with
  | true =>
    have hinv := command_inv h.state command
    rw [step_command hconnected]
    refine ⟨hinv, ?_, ?_, fun _ => command_told hinv hbounded (h.told hconnected)⟩
    · intro _
      show RateOk options (command.run options d.state).state.pointRate
      rcases command_rate options d.state command with hsame | hok
      · rw [hsame]
        exact h.rate hconnected
      · exact hok
    · intro haway
      change d.connected = false at haway
      rw [hconnected] at haway
      cases haway
  | false =>
    rw [step_command_away hconnected]
    exact h

theorem Device.Inv.tick (h : d.Inv options) (now : Int) : (d.step options (.tick now)).Inv options := by
  obtain ⟨hless, hrate, hidle⟩ := tick_frame (s := d.state) now
  refine ⟨tick_inv h.state now, ?_, ?_, ?_⟩
  · intro hconnected
    show RateOk options (playbackSection d.state now).1.pointRate
    rcases hrate with hsame | hmem
    · rw [hsame]
      exact h.rate hconnected
    · exact h.state.rates _ hmem
  · intro haway
    exact hidle (h.away haway)
  · intro hconnected
    show (playbackSection d.state now).1.pointBuffer.length ≤ lastReported (d.log ++ _)
    rw [lastReported_silent]
    · exact hless.trans (h.told hconnected)
    · intro o ho
      obtain ⟨c, _, rfl⟩ := Option.map_eq_some_iff.mp (Option.mem_toList.mp ho)
      rfl

theorem Device.Inv.step (h : d.Inv options) (hbounded : options.Bounded) (e : Event) :
    (d.step options e).Inv options := by
  cases e with
  | connect => exact h.connect hbounded
  | disconnect => exact h.disconnect
  | command command => exact h.command hbounded command
  | tick now => exact h.tick now

/-- points that fit into what the buffer is known to have left are not refused for lack of room -/
theorem data_not_full (h : d.Inv options) (hconnected : d.connected = true)
    {points : List BufferedPoint}
    (hroom : lastReported d.log + points.length ≤ options.bufferCapacity) :
    (handleData options d.state points).1 ≠ .full := by
  have htold := h.told hconnected
  unfold handleData
  split
  · split
    · omega
    · simp
  · simp

end

/-- **In every run of a device with its clients**, with any commands and ticks in any order: the buffer
stays within its capacity and every status reports it exactly, so that a client that keeps to the last
status is not refused for lack of room; rates are within bounds; and flags, states, clock and
accumulator agree. -/
theorem device_invariants (ports : DefaultPorts) (config : VirtualControllerHostConfig)
    (events : List Event) :
    let options := makeHostOptions ports config
    let d := events.foldl (Device.step options) {}
    let s := d.state
    (s.pointBuffer.length ≤ options.bufferCapacity ∧
        s.status.bufferFullness = s.pointBuffer.length ∧ s.status.bufferFullness < 2 ^ 16 ∧
        (d.connected = true → ∀ points : List BufferedPoint,
          lastReported d.log + points.length ≤ options.bufferCapacity →
          (handleData options s points).1 ≠ .full)) ∧
      (s.pointRateQueue.length ≤ 100 ∧
        (∀ rate ∈ s.pointRateQueue, 1 ≤ rate ∧ rate ≤ options.maxPointRate) ∧
        (s.playbackState ≠ .idle → 1 ≤ s.pointRate ∧ s.pointRate ≤ options.maxPointRate)) ∧
      (s.shutter = true ↔ s.playbackState = .playing) ∧
      (s.lightEngineState = .estop ↔ s.lightEngineEstop = true ∧ s.playbackEstop = true) ∧
      (s.lightEngineState = .estop → s.playbackState = .idle) ∧
      (s.underflowFlag = true → s.playbackState = .idle) ∧
      (s.playbackState = .idle →
        s.pointBuffer = [] ∧ s.playbackClockValid = false ∧ s.playbackAccumulator = 0) := by
  intro options d s
  have hbounded : options.Bounded := makeHostOptions_bounded ports config
  have h : d.Inv options := (Reach.of_list events).invariant Device.inv_new
    fun d e hd _ => hd.step hbounded e
  have hfull : s.status.bufferFullness = s.pointBuffer.length :=
    status_fullness h.state hbounded.bufferCapacity_lt
  have hfits := h.state.fits
  have hcapacity := hbounded.bufferCapacity_lt
  refine ⟨⟨hfits, hfull, ?_, ?_⟩, ⟨h.state.queue, h.state.rates, ?_⟩, h.state.shutter, h.state.estop,
    h.state.estopped, h.state.underflow, h.state.empty⟩
  · rw [hfull]
    show d.state.pointBuffer.length < 2 ^ 16
    omega
  · intro hconnected points hroom
    exact data_not_full h hconnected hroom
  · intro hbusy
    refine h.rate ?_
    by_contra haway
    exact hbusy (h.away (by simpa using haway))

end LiberaLink.EtherDream
