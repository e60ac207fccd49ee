import LiberaLink.Lib.Reach
import LiberaLink.Sink.Types

/-!
# The driver loop of an IDN session

A session has one thread, which polls the adapter for slices and hands them to the sink: the slices of
a wave one by one, the slices of a frame as one frame, again and again until another one comes.  Both
wait in the same buffer, and the mode of the latest poll alone decides what becomes of it.

* `DriverState.turn`        one turn of the loop;
* `writeSlices_calls`       what the loop over the slices of a wave writes;
* `DriverState.Inv`, `Inv.turn`   the buffer, the mode and the history;
* `waves_written_once`      **a wave is written once and in order, a frame only as a frame**, unless an
                            empty poll finds a frame in the buffer and the mode is not its mode.
-/

namespace LiberaLink.Idn
open Stepwise Numeric

/-- a sample of an IDN stream: the channels that the adapter reads -/
structure ISPDB25Point where
  x : UInt16
  y : UInt16
  r : UInt16
  g : UInt16
  b : UInt16
  intensity : UInt16
  u1 : UInt16
  u2 : UInt16
  deriving DecidableEq

structure TimeSlice where
  dataChunk : List ISPDB25Point
  durationUs : Nat
  deriving DecidableEq

/-- a queue of pointers to slices -/
abbrev SliceBuf := List (Option TimeSlice)

inductive DriverMode where
  | inactive
  | wave
  | frame
  deriving DecidableEq

/-! ## the adapter -/

def inferPointRate (pointCount : Nat) (durationUs : ℚ) : Option Nat :=
  if pointCount = 0 ∨ durationUs ≤ 0 then none
  else
    let inferredRate : ℚ := 1000000 * (pointCount : ℚ) / durationUs
    if inferredRate ≤ 0 then none else some ((llround inferredRate).toNat % 2 ^ 32)

def unitFromU16 (value : UInt16) : ℚ := (value.toNat : ℚ) / 65535

def signedUnitFromU16 (value : UInt16) : ℚ := unitFromU16 value * 2 - 1

def toLaserPoint (p : ISPDB25Point) : LaserPoint :=
  let r := clamp (unitFromU16 p.r) 0 1
  let g := clamp (unitFromU16 p.g) 0 1
  let b := clamp (unitFromU16 p.b) 0 1
  let intensity := clamp (unitFromU16 p.intensity) 0 1
  let rgbMax := max r (max g b)
  let i := if intensity ≤ 0 ∧ 0 < rgbMax then rgbMax else intensity
  let dark : Bool := i ≤ 0
  { x := clamp (signedUnitFromU16 p.x) (-1) 1
    y := clamp (signedUnitFromU16 p.y) (-1) 1
    r := if dark then 0 else r
    g := if dark then 0 else g
    b := if dark then 0 else b
    i := if dark then 0 else i
    u1 := clamp (unitFromU16 p.u1) 0 1
    u2 := clamp (unitFromU16 p.u2) 0 1 }

def makeSliceSubmission (slice : TimeSlice) (durationUs : ℚ) : SliceSubmission where
  points := slice.dataChunk.map toLaserPoint
  durationUs := if 0 < durationUs then (llround durationUs).toNat % 2 ^ 32 else slice.durationUs
  effectivePointRate := inferPointRate slice.dataChunk.length durationUs

def makeFrameSubmission (buffer : SliceBuf) (clearTransportPrefetch : Bool) : FrameSubmission where
  slices := buffer.reduceOption.map fun slice => makeSliceSubmission slice (slice.durationUs : ℚ)
  clearTransportPrefetch := clearTransportPrefetch

/-- the calls of the adapter that the driver makes -/
inductive AdapterCall where
  | writeFrame (slice : TimeSlice)
  | replaceFrameBuffer (buffer : SliceBuf) (clearTransportPrefetch : Bool)
  deriving DecidableEq

/-- what the adapter makes of a call -/
def AdapterCall.sinkCall : AdapterCall → SinkCall
  | .writeFrame slice => .submitContinuous (makeSliceSubmission slice (slice.durationUs : ℚ))
  | .replaceFrameBuffer buffer clearTransportPrefetch =>
      .replaceFrame (makeFrameSubmission buffer clearTransportPrefetch)

/-! ## the loop -/

/-- the time the slices of a frame last, in microseconds -/
def bufferReplayInterval (buffer : SliceBuf) : Nat :=
  (buffer.reduceOption.map fun slice => slice.durationUs).sum

/-- What the surroundings answer in one turn of the loop: the poll of the adapter, with the mode it
leaves; the clock when a fresh frame comes, when the loop looks whether its frame is due, and after a
frame; and after how many more looks at `running_` that flag is found cleared, if it is cleared before
the loop is back at its head.  Times are in nanoseconds. -/
structure Turn where
  buffer : SliceBuf
  mode : DriverMode
  freshAt : Int
  now : Int
  replayedAt : Int
  stopsAfter : Option Nat

structure DriverState where
  running : Bool
  driverMode : DriverMode
  currentBuffer : SliceBuf
  /-- zero stands for no time -/
  nextFrameReplayAt : Int
  calls : List AdapterCall

def DriverState.start : DriverState where
  running := true
  driverMode := .inactive
  currentBuffer := []
  nextFrameReplayAt := 0
  calls := []

/-- The loop over the slices of a buffer: what it leaves in the buffer, and its calls.  The flag
`running_` is looked at before each slice. -/
def writeSlices : Option Nat → SliceBuf → SliceBuf × List AdapterCall
  | some 0, buffer => (buffer, [])
  | _, [] => ([], [])
  | stopsAfter, nextSlice :: buffer =>
    let rest := writeSlices (stopsAfter.map fun looks => looks - 1) buffer
    (rest.1, (nextSlice.toList.map fun slice => .writeFrame slice) ++ rest.2)

/-- the state after the poll -/
def DriverState.receive (s : DriverState) (t : Turn) : DriverState :=
  { s with
    running := t.stopsAfter.isNone
    driverMode := t.mode
    currentBuffer := if t.buffer = [] then s.currentBuffer else t.buffer
    nextFrameReplayAt :=
      if t.buffer ≠ [] ∧ t.mode = .frame then t.freshAt else s.nextFrameReplayAt }

/-- what the turn does with the buffer -/
def DriverState.output (s : DriverState) (t : Turn) : DriverState :=
  if s.currentBuffer = [] then s
  else if s.driverMode = .frame ∧ s.nextFrameReplayAt ≠ 0 ∧ t.now < s.nextFrameReplayAt then s
  else if s.driverMode = .frame then
    let hasFreshFrameInput : Bool := t.buffer ≠ []
    let replayInterval := bufferReplayInterval s.currentBuffer
    { s with
      nextFrameReplayAt :=
        t.replayedAt + 1000 * (if replayInterval = 0 then 1000 else replayInterval)
      calls := s.calls ++ [.replaceFrameBuffer s.currentBuffer hasFreshFrameInput] }
  else
    let written := writeSlices t.stopsAfter s.currentBuffer
    { s with
      currentBuffer := written.1
      nextFrameReplayAt := 0
      calls := s.calls ++ written.2 }

def DriverState.turn (s : DriverState) (t : Turn) : DriverState :=
  if s.running then (s.receive t).output t else s

/-! ## what a turn calls -/

theorem writeSlices_nil (stopsAfter : Option Nat) : writeSlices stopsAfter [] = ([], []) := by
  cases stopsAfter with
  | none => rfl
  | some looks =>
    cases looks with
    | zero => rfl
    | succ looks => rfl

theorem writeSlices_none (buffer : SliceBuf) :
    writeSlices none buffer = ([], buffer.reduceOption.map AdapterCall.writeFrame) := by
  induction buffer with
  | nil => rfl
  | cons slice buffer ih =>
    show ((writeSlices none buffer).1, _ ++ (writeSlices none buffer).2) = _
    rw [ih]
    cases slice with
    | none => rfl
    | some slice => rfl

/-- The loop writes the slices from the front of the buffer, up to some point. -/
theorem writeSlices_calls (stopsAfter : Option Nat) (buffer : SliceBuf) :
    ∃ slices, slices <+: buffer.reduceOption ∧
      (writeSlices stopsAfter buffer).2 = slices.map AdapterCall.writeFrame := by
  cases stopsAfter with
  | none => exact ⟨_, List.prefix_refl _, by rw [writeSlices_none]⟩
  | some looks =>
    induction buffer generalizing looks with
    | nil => exact ⟨[], List.nil_prefix, by rw [writeSlices_nil]; rfl⟩
    | cons slice buffer ih =>
      cases looks with
      | zero => exact ⟨[], List.nil_prefix, rfl⟩
      | succ looks =>
        obtain ⟨slices, hslices, hcalls⟩ := ih looks
        refine ⟨slice.toList ++ slices, ?_, ?_⟩
        · cases slice with
          | none => exact hslices
          | some slice => exact (List.prefix_cons_inj slice).mpr hslices
        · rw [List.map_append, ← hcalls]
          rfl

section
variable {s : DriverState} {t : Turn}

theorem output_running : (s.output t).running = s.running := by
  unfold DriverState.output
  split
  · rfl
  · split
    · rfl
    · split <;> rfl

theorem output_driverMode : (s.output t).driverMode = s.driverMode := by
  unfold DriverState.output
  split
  · rfl
  · split
    · rfl
    · split <;> rfl

theorem output_of_frame (h : s.driverMode = .frame) :
    (s.output t).currentBuffer = s.currentBuffer ∧
      ((s.output t).calls = s.calls ∨
        s.currentBuffer ≠ [] ∧ ∃ clear, (s.output t).calls =
          s.calls ++ [.replaceFrameBuffer s.currentBuffer clear]) := by
  unfold DriverState.output
  split
  · exact ⟨rfl, .inl rfl⟩
  · rename_i hbuffer
    split
    · exact ⟨rfl, .inl rfl⟩
    · exact ⟨rfl, .inr ⟨hbuffer, _, rfl⟩⟩

theorem output_of_not_frame (h : s.driverMode ≠ .frame) :
    (s.output t).currentBuffer = (writeSlices t.stopsAfter s.currentBuffer).1 ∧
      (s.output t).calls = s.calls ++ (writeSlices t.stopsAfter s.currentBuffer).2 := by
  unfold DriverState.output
  split
  · rename_i hbuffer
    rw [hbuffer, writeSlices_nil]
    exact ⟨rfl, (List.append_nil _).symm⟩
  · split
    · rename_i hdue
      exact absurd hdue.1 h
    · exact ⟨rfl, rfl⟩

end

/-! ## the history -/

/-- the slices that were written one by one, in order -/
def written (calls : List AdapterCall) : List TimeSlice :=
  calls.filterMap fun c => match c with
    | .writeFrame slice => some slice
    | .replaceFrameBuffer _ _ => none

theorem written_append (a b : List AdapterCall) : written (a ++ b) = written a ++ written b :=
  List.filterMap_append

theorem written_writes (slices : List TimeSlice) :
    written (slices.map AdapterCall.writeFrame) = slices := by
  unfold written
  rw [List.filterMap_map]
  exact List.filterMap_some

/-- the slices that the sink was given with `submitContinuous`, in order -/
def continuousSubmissions (calls : List SinkCall) : List SliceSubmission :=
  calls.filterMap fun c => match c with
    | .submitContinuous submission => some submission
    | _ => none

theorem continuousSubmissions_sinkCall (calls : List AdapterCall) :
    continuousSubmissions (calls.map AdapterCall.sinkCall) =
      (written calls).map fun slice => makeSliceSubmission slice (slice.durationUs : ℚ) := by
  unfold continuousSubmissions written
  rw [List.filterMap_map, List.map_filterMap]
  congr 1
  funext c
  cases c with
  | writeFrame slice => rfl
  | replaceFrameBuffer buffer clearTransportPrefetch => rfl

/-- the slices that a poll returns in wave mode -/
def Turn.waveSlices (t : Turn) : List TimeSlice :=
  if t.mode = .wave then t.buffer.reduceOption else []

/-- the slices that the polls in wave mode return, in order -/
def waveSlices (turns : List Turn) : List TimeSlice := turns.flatMap Turn.waveSlices

theorem waveSlices_concat (turns : List Turn) (t : Turn) :
    waveSlices (turns ++ [t]) = waveSlices turns ++ t.waveSlices := by
  unfold waveSlices
  rw [List.flatMap_append, List.flatMap_singleton]

/-- What the adapter returns: slices in wave mode or in frame mode, or no slice and possibly another
mode, inactive or wave. -/
def Turn.Polled (s : DriverState) (t : Turn) : Prop :=
  if t.buffer = [] then t.mode = s.driverMode ∨ t.mode = .inactive ∨ t.mode = .wave
  else t.mode = .wave ∨ t.mode = .frame

/-- no empty poll finds a slice in the buffer and the mode is not frame mode -/
def Turn.Settled (s : DriverState) (t : Turn) : Prop :=
  t.buffer = [] → t.mode ≠ .frame → s.currentBuffer.reduceOption = []

instance (s : DriverState) (t : Turn) : Decidable (t.Polled s) :=
  inferInstanceAs (Decidable (if t.buffer = [] then t.mode = s.driverMode ∨ t.mode = .inactive ∨
    t.mode = .wave else t.mode = .wave ∨ t.mode = .frame))

instance (s : DriverState) (t : Turn) : Decidable (t.Settled s) :=
  inferInstanceAs (Decidable (t.buffer = [] → t.mode ≠ .frame → s.currentBuffer.reduceOption = []))

/-- What holds after the turns: the buffer holds a slice in frame mode only, and then it is the buffer
of a poll in frame mode. -/
structure DriverState.Inv (turns : List Turn) (s : DriverState) : Prop where
  once : written s.calls <+: waveSlices turns
  all : s.running = true → written s.calls = waveSlices turns
  frames : ∀ buffer clear, .replaceFrameBuffer buffer clear ∈ s.calls →
    ∃ t ∈ turns, t.mode = .frame ∧ t.buffer = buffer
  waits : s.running = true → s.driverMode ≠ .frame → s.currentBuffer.reduceOption = []
  kept : s.running = true → s.driverMode = .frame → s.currentBuffer ≠ [] →
    ∃ t ∈ turns, t.mode = .frame ∧ t.buffer = s.currentBuffer

theorem DriverState.inv_start : DriverState.Inv [] .start where
  once := List.prefix_refl _
  all := fun _ => rfl
  frames := by
    intro buffer clear h
    cases h
  waits := fun _ _ => rfl
  kept := by
    intro _ h
    cases h

section
variable {turns : List Turn} {s : DriverState} {t : Turn}

/-- what the loop holds in its buffer, right after a poll in a mode other than frame mode -/
theorem receive_slices (hmode : t.mode ≠ .frame) (hpolled : t.Polled s) (hsettled : t.Settled s) :
    (s.receive t).currentBuffer.reduceOption = t.waveSlices := by
  unfold Turn.Polled at hpolled
  unfold Turn.waveSlices
  show (if t.buffer = [] then s.currentBuffer else t.buffer).reduceOption = _
  by_cases hempty : t.buffer = []
  · rw [if_pos hempty, hsettled hempty hmode, hempty]
    split <;> rfl
  · rw [if_neg hempty] at hpolled ⊢
    rw [if_pos (hpolled.resolve_right hmode)]

/-- a turn in a mode other than frame mode writes its own slices -/
theorem DriverState.Inv.turn_waves (h : s.Inv turns) (hrun : s.running = true)
    (hmode : t.mode ≠ .frame) (hpolled : t.Polled s) (hsettled : t.Settled s) :
    ((s.receive t).output t).Inv (turns ++ [t]) := by
  have hslices := receive_slices hmode hpolled hsettled
  obtain ⟨hbuffer, hcalls⟩ := output_of_not_frame (s := s.receive t) (t := t) hmode
  obtain ⟨slices, hprefix, hwrites⟩ := writeSlices_calls t.stopsAfter (s.receive t).currentBuffer
  have hwritten : written ((s.receive t).output t).calls = waveSlices turns ++ slices := by
    rw [hcalls, hwrites, written_append, written_writes]
    show written s.calls ++ slices = _
    rw [h.all hrun]
  -- a loop that goes on has not been stopped, so it has emptied the buffer
  have hdrained : ((s.receive t).output t).running = true →
      writeSlices t.stopsAfter (s.receive t).currentBuffer =
        ([], (s.receive t).currentBuffer.reduceOption.map AdapterCall.writeFrame) := by
    intro hgoes
    rw [output_running] at hgoes
    rw [Option.isNone_iff_eq_none.mp hgoes, writeSlices_none]
  constructor
  · rw [hwritten, waveSlices_concat, ← hslices]
    exact (List.prefix_append_right_inj _).mpr hprefix
  · intro hgoes
    rw [hcalls, hdrained hgoes, written_append, written_writes, waveSlices_concat, hslices]
    show written s.calls ++ _ = _
    rw [h.all hrun]
  · intro buffer clear hmem
    rw [hcalls, hwrites, List.mem_append] at hmem
    rcases hmem with hmem | hmem
    · obtain ⟨t', ht', hframe⟩ := h.frames buffer clear hmem
      exact ⟨t', List.mem_append_left _ ht', hframe⟩
    · obtain ⟨slice, _, hslice⟩ := List.mem_map.mp hmem
      cases hslice
  · intro hgoes _
    rw [hbuffer, hdrained hgoes]
    rfl
  · intro _ hframe
    rw [output_driverMode] at hframe
    exact absurd hframe hmode

/-- in frame mode, the buffer after the poll is that of a poll in frame mode -/
theorem receive_frame (h : s.Inv turns) (hrun : s.running = true) (hmode : t.mode = .frame)
    (hpolled : t.Polled s) (hbuffer : (s.receive t).currentBuffer ≠ []) :
    ∃ t' ∈ turns ++ [t], t'.mode = .frame ∧ t'.buffer = (s.receive t).currentBuffer := by
  unfold Turn.Polled at hpolled
  change (if t.buffer = [] then s.currentBuffer else t.buffer) ≠ [] at hbuffer
  show ∃ t' ∈ turns ++ [t], t'.mode = .frame ∧
    t'.buffer = if t.buffer = [] then s.currentBuffer else t.buffer
  by_cases hempty : t.buffer = []
  · rw [if_pos hempty, hmode] at hpolled
    rw [if_pos hempty] at hbuffer ⊢
    have hframe : s.driverMode = .frame := by
      rcases hpolled with hprev | hinactive | hwave
      · exact hprev.symm
      · cases hinactive
      · cases hwave
    obtain ⟨t', ht', hkept⟩ := h.kept hrun hframe hbuffer
    exact ⟨t', List.mem_append_left _ ht', hkept⟩
  · rw [if_neg hempty]
    exact ⟨t, List.mem_append_right _ List.mem_cons_self, hmode, rfl⟩

/-- a turn in frame mode writes no slice -/
theorem DriverState.Inv.turn_frame (h : s.Inv turns) (hrun : s.running = true)
    (hmode : t.mode = .frame) (hpolled : t.Polled s) :
    ((s.receive t).output t).Inv (turns ++ [t]) := by
  obtain ⟨hbuffer, hcalls⟩ := output_of_frame (s := s.receive t) (t := t) hmode
  have hnone : t.waveSlices = [] := by
    unfold Turn.waveSlices
    rw [hmode]
    rfl
  have hwritten : written ((s.receive t).output t).calls = written s.calls := by
    rcases hcalls with hcalls | ⟨_, clear, hcalls⟩
    · rw [hcalls]
      rfl
    · rw [hcalls, written_append]
      exact List.append_nil _
  constructor
  · rw [hwritten, waveSlices_concat, hnone, List.append_nil]
    exact h.once
  · intro _
    rw [hwritten, waveSlices_concat, hnone, List.append_nil]
    exact h.all hrun
  · intro buffer clear hmem
    have hold : .replaceFrameBuffer buffer clear ∈ s.calls →
        ∃ t' ∈ turns ++ [t], t'.mode = .frame ∧ t'.buffer = buffer := by
      intro hmem
      obtain ⟨t', ht', hframe⟩ := h.frames buffer clear hmem
      exact ⟨t', List.mem_append_left _ ht', hframe⟩
    rcases hcalls with hcalls | ⟨hnonempty, clear', hcalls⟩
    · rw [hcalls] at hmem
      exact hold hmem
    · rw [hcalls, List.mem_append, List.mem_singleton] at hmem
      rcases hmem with hmem | hmem
      · exact hold hmem
      · cases hmem
        exact receive_frame h hrun hmode hpolled hnonempty
  · intro _ hother
    rw [output_driverMode] at hother
    exact absurd hmode hother
  · intro _ _ hnonempty
    rw [hbuffer] at hnonempty ⊢
    exact receive_frame h hrun hmode hpolled hnonempty

theorem DriverState.Inv.turn (h : s.Inv turns) (hpolled : t.Polled s) (hsettled : t.Settled s) :
    (s.turn t).Inv (turns ++ [t]) := by
  unfold DriverState.turn
  by_cases hrun : s.running = true
  · rw [if_pos hrun]
    by_cases hmode : t.mode = .frame
    · exact h.turn_frame hrun hmode hpolled
    · exact h.turn_waves hrun hmode hpolled hsettled
  · rw [if_neg hrun]
    constructor
    · rw [waveSlices_concat]
      exact h.once.trans (List.prefix_append _ _)
    · intro hgoes
      exact absurd hgoes hrun
    · intro buffer clear hmem
      obtain ⟨t', ht', hframe⟩ := h.frames buffer clear hmem
      exact ⟨t', List.mem_append_left _ ht', hframe⟩
    · intro hgoes
      exact absurd hgoes hrun
    · intro hgoes
      exact absurd hgoes hrun

/-- an empty poll does not lead into frame mode -/
theorem Turn.Polled.not_frame (hpolled : t.Polled s) (hempty : t.buffer = [])
    (hmode : s.driverMode ≠ .frame) : t.mode ≠ .frame := by
  unfold Turn.Polled at hpolled
  rw [if_pos hempty] at hpolled
  rcases hpolled with h | h | h
  · rw [h]
    exact hmode
  · rw [h]
    simp
  · rw [h]
    simp

/-- a poll that leaves the mode inactive returns no slice -/
theorem Turn.Polled.empty_of_inactive (hpolled : t.Polled s) (hmode : t.mode = .inactive) :
    t.buffer = [] := by
  by_contra hslices
  unfold Turn.Polled at hpolled
  rw [if_neg hslices, hmode] at hpolled
  simp at hpolled

/-- a loop that goes on is not in frame mode and holds no slice -/
def DriverState.Silent (s : DriverState) : Prop :=
  s.running = true → s.driverMode ≠ .frame ∧ s.currentBuffer.reduceOption = []

/-- an empty poll, into a mode other than frame mode, with no slice in the buffer calls nothing and
leaves it so -/
theorem turn_silent (hempty : t.buffer = []) (hother : s.running = true → t.mode ≠ .frame)
    (hnone : s.running = true → s.currentBuffer.reduceOption = []) :
    (s.turn t).calls = s.calls ∧ (s.turn t).Silent := by
  unfold DriverState.turn
  by_cases hrun : s.running = true
  · have hbuffer : (s.receive t).currentBuffer = s.currentBuffer := if_pos hempty
    obtain ⟨hrest, hcalls⟩ := output_of_not_frame (s := s.receive t) (t := t) (hother hrun)
    obtain ⟨slices, hprefix, hwrites⟩ := writeSlices_calls t.stopsAfter (s.receive t).currentBuffer
    rw [hbuffer, hnone hrun] at hprefix
    obtain rfl : slices = [] := List.prefix_nil.mp hprefix
    rw [if_pos hrun]
    constructor
    · rw [hcalls, hwrites]
      exact List.append_nil _
    · intro hgoes
      constructor
      · rw [output_driverMode]
        exact hother hrun
      · rw [output_running] at hgoes
        rw [hrest, Option.isNone_iff_eq_none.mp hgoes, writeSlices_none]
        rfl
  · rw [if_neg hrun]
    exact ⟨rfl, fun hgoes => absurd hgoes hrun⟩

end

theorem silent_run {s : DriverState} {turns : List Turn} (hempty : ∀ t ∈ turns, t.buffer = [])
    (hpolled : Allowed DriverState.turn (fun s t => t.Polled s) s turns) (hsilent : s.Silent) :
    (turns.foldl DriverState.turn s).calls = s.calls := by
  induction turns generalizing s with
  | nil => rfl
  | cons t turns ih =>
    have hfirst := hempty t List.mem_cons_self
    obtain ⟨hcalls, hsilent'⟩ := turn_silent hfirst
      (fun hrun => hpolled.1.not_frame hfirst (hsilent hrun).1) fun hrun => (hsilent hrun).2
    rw [List.foldl_cons, ih (fun t' ht' => hempty t' (List.mem_cons_of_mem _ ht')) hpolled.2 hsilent',
      hcalls]

/-- **A run of the driver loop** in which no empty poll finds a slice in the buffer outside frame mode.
What the sink is given with `submitContinuous` is the slices that the polls in wave mode have returned,
each once and in order: all of them, unless the loop has been stopped.  What reaches the sink as a frame
is the buffer of a poll in frame mode.  From the turn whose poll leaves the mode inactive, that turn
with it, nothing reaches the sink until a poll returns slices. -/
theorem waves_written_once (turns : List Turn)
    (hpolled : Allowed DriverState.turn (fun s t => t.Polled s) .start turns)
    (hsettled : Allowed DriverState.turn (fun s t => t.Settled s) .start turns) :
    let s := turns.foldl DriverState.turn .start
    let submissions := (waveSlices turns).map fun slice =>
      makeSliceSubmission slice (slice.durationUs : ℚ)
    written s.calls <+: waveSlices turns ∧
      (s.running = true → written s.calls = waveSlices turns) ∧
      continuousSubmissions (s.calls.map AdapterCall.sinkCall) <+: submissions ∧
      (s.running = true →
        continuousSubmissions (s.calls.map AdapterCall.sinkCall) = submissions) ∧
      (∀ buffer clear, .replaceFrameBuffer buffer clear ∈ s.calls →
        ∃ t ∈ turns, t.mode = .frame ∧ t.buffer = buffer) ∧
      (s.driverMode = .inactive → ∀ polls : List Turn, (∀ t ∈ polls, t.buffer = []) →
        Allowed DriverState.turn (fun s t => t.Polled s) s polls →
        (polls.foldl DriverState.turn s).calls = s.calls) ∧
      (∀ t : Turn, t.mode = .inactive → t.Polled s → t.Settled s →
        ∀ polls : List Turn, (∀ t' ∈ polls, t'.buffer = []) →
          Allowed DriverState.turn (fun s t => t.Polled s) (s.turn t) polls →
          (polls.foldl DriverState.turn (s.turn t)).calls = s.calls) := by
  intro s submissions
  have h : s.Inv turns := (hpolled.and hsettled).history DriverState.inv_start
    fun before s t hinv ht => hinv.turn ht.1 ht.2
  refine ⟨h.once, h.all, ?_, ?_, h.frames, ?_, ?_⟩
  · rw [continuousSubmissions_sinkCall]
    exact h.once.map _
  · intro hrun
    rw [continuousSubmissions_sinkCall, h.all hrun]
  · intro hmode polls hempty hpolls
    have hother : s.driverMode ≠ .frame := by
      rw [hmode]
      simp
    exact silent_run hempty hpolls fun hrun => ⟨hother, h.waits hrun hother⟩
  · intro t hmode hpoll hsettle polls hempty hpolls
    have hfirst : t.buffer = [] := hpoll.empty_of_inactive hmode
    have hother : t.mode ≠ .frame := by
      rw [hmode]
      simp
    obtain ⟨hcalls, hsilent⟩ := turn_silent (s := s) hfirst (fun _ => hother)
      fun _ => hsettle hfirst hother
    rw [silent_run hempty hpolls hsilent, hcalls]

/-- a slice of one sample that lasts a millisecond -/
def oneSlice : TimeSlice := ⟨[⟨0, 0, 0, 0, 0, 0, 0, 0⟩], 1000⟩

/-- a wave, and then a frame that is played twice -/
def waveThenFrame : List Turn :=
  [⟨[some oneSlice, some oneSlice], .wave, 1, 1, 2, none⟩, ⟨[], .wave, 3, 3, 4, none⟩,
    ⟨[some oneSlice], .frame, 5, 5, 6, none⟩, ⟨[], .frame, 7, 2000000, 2000001, none⟩]

theorem waves_written_once_then_frame :
    written (waveThenFrame.foldl DriverState.turn .start).calls = [oneSlice, oneSlice] :=
  (waves_written_once waveThenFrame (by decide) (by decide)).2.1 rfl

/-- the session is closed while its frame is played -/
def closedAfterFrame : List Turn :=
  [⟨[some oneSlice], .frame, 1, 1, 2, none⟩, ⟨[], .inactive, 3, 3, 4, none⟩]

/-- The frame goes to the sink as a wave, when the mode is already inactive. -/
theorem closed_session_streams_frame :
    Allowed DriverState.turn (fun s t => t.Polled s) .start closedAfterFrame ∧
      (closedAfterFrame.foldl DriverState.turn .start).driverMode = .inactive ∧
      written (closedAfterFrame.foldl DriverState.turn .start).calls = [oneSlice] ∧
      waveSlices closedAfterFrame = [] := by
  decide

end LiberaLink.Idn
