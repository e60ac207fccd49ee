import LiberaLink.EtherDream.Options
import LiberaLink.Protocol.Options

/-!
# The bounds on host options

Both hosts move the numbers of their option map into bounds once, in `makeHostOptions`; what divides by
these numbers, clamps to them or arms a timer with them does not check again.

* `optionU32_given`, `le_optionU32_iff`   when an option is at least its bound;
* `inBounds_iff`            the one option of the Ether Dream host that is read after the last bound;
* `hostOptions_inBounds`    the Libera protocol host;
* `hostOptions_bounded_iff` **when all bounds hold**.
-/

namespace LiberaLink

/-- an option that was given and reads as a number is that number -/
theorem optionU32_given {config : VirtualControllerHostConfig} {key text : String} {n : Nat}
    (hlookup : config.options.lookup key = some text) (hparse : parseU32 text = some n) (fallback : Nat) :
    optionU32 config key fallback = n := by
  unfold optionU32
  rw [hlookup]
  show (parseU32 text).getD fallback = n
  rw [hparse]
  rfl

/-- whatever bounds a default keeps, a number that was given counts as it is -/
theorem le_optionU32_iff (config : VirtualControllerHostConfig) (key : String) {bound fallback : Nat}
    (h : bound ≤ fallback) : bound ≤ optionU32 config key fallback ↔
      ∀ text n, config.options.lookup key = some text → parseU32 text = some n → bound ≤ n := by
  constructor
  · intro hge text n hlookup hparse
    rw [optionU32_given hlookup hparse] at hge
    exact hge
  · intro hgiven
    cases hlookup : config.options.lookup key with
    | none =>
      unfold optionU32
      rw [hlookup]
      exact h
    | some text =>
      cases hparse : parseU32 text with
      | none =>
        unfold optionU32
        rw [hlookup]
        show bound ≤ (parseU32 text).getD fallback
        rw [hparse]
        exact h
      | some n =>
        rw [optionU32_given hlookup hparse]
        exact hgiven text n hlookup hparse

/-! ## the Ether Dream host -/

namespace EtherDream

/-- what `startPlaybackTimer` waits, in microseconds -/
def HostOptions.playbackDelay (options : HostOptions) : Nat := options.playbackSliceUs

/-- what `startBroadcastTimer` waits between two announcements, in microseconds -/
def HostOptions.broadcastDelay (options : HostOptions) : Nat := 1000 * options.broadcastIntervalMs

/-- the bounds that the host is meant to keep -/
structure HostOptions.InBounds (options : HostOptions) : Prop where
  bufferCapacity_ge : 1 ≤ options.bufferCapacity
  maxPointRate_ge : 1000 ≤ options.maxPointRate
  broadcastIntervalMs_ge : 20 ≤ options.broadcastIntervalMs
  playbackSliceUs_ge : 1000 ≤ options.playbackSliceUs
  playbackDelay_pos : 0 < options.playbackDelay
  broadcastDelay_pos : 0 < options.broadcastDelay

/-- the duration of a slice is in bounds unless the option for it is not -/
theorem playbackSliceUs_ge_iff (ports : DefaultPorts) (config : VirtualControllerHostConfig) :
    1000 ≤ (makeHostOptions ports config).playbackSliceUs ↔
      ∀ text n, config.options.lookup "playback_slice_us" = some text → parseU32 text = some n →
        1000 ≤ n :=
  le_optionU32_iff config "playback_slice_us" (Nat.le_max_left 1000 _)

theorem inBounds_iff (ports : DefaultPorts) (config : VirtualControllerHostConfig) :
    (makeHostOptions ports config).InBounds ↔
      1000 ≤ (makeHostOptions ports config).playbackSliceUs := by
  have hbounded := makeHostOptions_bounded ports config
  constructor
  · intro h
    exact h.playbackSliceUs_ge
  · intro hslice
    have hinterval := hbounded.broadcastIntervalMs_ge
    have hdelay : 0 < (makeHostOptions ports config).playbackDelay := by
      unfold HostOptions.playbackDelay
      omega
    have hbroadcast : 0 < (makeHostOptions ports config).broadcastDelay := by
      unfold HostOptions.broadcastDelay
      omega
    exact ⟨hbounded.bufferCapacity_pos, hbounded.maxPointRate_ge, hinterval, hslice, hdelay, hbroadcast⟩

end EtherDream

/-! ## the Libera protocol host -/

namespace Protocol

/-- the bounds that the host is meant to keep -/
structure HostOptions.InBounds (options : HostOptions) : Prop where
  minPointRate_ge : 1 ≤ options.minPointRate
  maxPointRate_ge : options.minPointRate ≤ options.maxPointRate
  maxFramePoints_ge : 1 ≤ options.maxFramePoints
  maxRecordPayloadBytes_ge : 1024 ≤ options.maxRecordPayloadBytes
  broadcastIntervalMs_ge : 100 ≤ options.broadcastIntervalMs
  handshakeTimeoutMs_ge : 100 ≤ options.handshakeTimeoutMs
  sessionTimeoutMs_ge : 250 ≤ options.sessionTimeoutMs
  maxUserChannels_le : options.maxUserChannels ≤ 2

theorem hostOptions_inBounds (ports : DefaultPorts) (config : VirtualControllerHostConfig) :
    (makeHostOptions ports config).InBounds := by
  have hbounded := makeHostOptions_bounded ports config
  exact
    { minPointRate_ge := hbounded.minPointRate_pos
      maxPointRate_ge := hbounded.minPointRate_le
      maxFramePoints_ge := hbounded.maxFramePoints_pos
      maxRecordPayloadBytes_ge := Nat.le_max_left _ _
      broadcastIntervalMs_ge := Nat.le_max_left _ _
      handshakeTimeoutMs_ge := Nat.le_max_left _ _
      sessionTimeoutMs_ge := Nat.le_max_left _ _
      maxUserChannels_le := hbounded.maxUserChannels_le }

end Protocol

/-! ## both hosts -/

/-- **The bounds hold** exactly if no option gives the Ether Dream host a slice of less than a
millisecond: the bound on its duration comes before the option and not after it. -/
theorem hostOptions_bounded_iff (etherDream : EtherDream.DefaultPorts) (libera : Protocol.DefaultPorts)
    (config : VirtualControllerHostConfig) :
    (EtherDream.makeHostOptions etherDream config).InBounds ∧
        (Protocol.makeHostOptions libera config).InBounds ↔
      ∀ text n, config.options.lookup "playback_slice_us" = some text → parseU32 text = some n →
        1000 ≤ n := by
  rw [EtherDream.inBounds_iff, EtherDream.playbackSliceUs_ge_iff]
  constructor
  · intro h
    exact h.1
  · intro h
    exact ⟨h, Protocol.hostOptions_inBounds libera config⟩

/-- A slice of zero microseconds is taken as it is given, and the playback timer has no delay. -/
theorem playback_slice_zero :
    let config : VirtualControllerHostConfig :=
      { sliceDurationUs := 15000, options := Finmap.insert "playback_slice_us" "0" ∅ }
    let options := EtherDream.makeHostOptions ⟨7765, 7654⟩ config
    options.playbackSliceUs = 0 ∧ options.playbackDelay = 0 ∧ ¬ options.InBounds := by
  intro config options
  have hlookup : config.options.lookup "playback_slice_us" = some "0" := Finmap.lookup_insert _
  have hparse : parseU32 "0" = some 0 := by decide +kernel
  have hzero : options.playbackSliceUs = 0 := optionU32_given hlookup hparse 15000
  refine ⟨hzero, hzero, fun hbounds => ?_⟩
  have hge := hbounds.playbackSliceUs_ge
  omega

end LiberaLink
