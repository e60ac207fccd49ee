import LiberaLink.EtherDream.Options
import LiberaLink.Sink.Types

/-!
# A virtual Ether Dream device

A device serves one client at a time.  The client prepares it, fills its buffer with points and starts
it; a timer then takes out the points that are due and submits them to the sink.  One thread handles the
client and the timer, so that each command and each tick is one step.

* `handlePrepare` … `handleEmergencyStop`   the commands, on the state under the mutex;
* `playbackSection`, `playbackSubmission`   the timer;
* `Device.step`                             the device with its client and what it sends and submits;
* `refused_does_nothing`                    **a refused command leaves no trace but its answer**.
-/

namespace LiberaLink.EtherDream

inductive LightEngineState where
  | ready
  | estop
  deriving DecidableEq

inductive PlaybackState where
  | idle
  | prepared
  | playing
  deriving DecidableEq

structure BufferedPoint where
  point : LaserPoint
  control : UInt16
  deriving DecidableEq

def rateChangeBit : UInt16 := 0x8000

def playbackFlagShutter : BitVec 16 := 0x0001
def playbackFlagUnderflow : BitVec 16 := 0x0002
def playbackFlagEstop : BitVec 16 := 0x0004
def lightEngineFlagEstopCommand : BitVec 16 := 0x0001

/-- what the mutex of a device guards; times are in nanoseconds -/
structure DeviceState where
  lightEngineState : LightEngineState := .ready
  playbackState : PlaybackState := .idle
  lightEngineFlags : BitVec 16 := 0
  playbackFlags : BitVec 16 := 0
  pointRate : Nat := 30000
  pointCount : UInt32 := 0
  pointBuffer : List BufferedPoint := []
  pointRateQueue : List Nat := []
  lastPlaybackAt : Int := 0
  playbackAccumulator : ℚ := 0
  playbackClockValid : Bool := false

/-- the code in the first byte of a response: acknowledged, buffer full, invalid -/
inductive Response where
  | ack
  | full
  | invalid
  deriving DecidableEq

def maxPointRateQueue : Nat := 100

/-! ## the commands -/

section
variable (options : HostOptions) (s : DeviceState)

def resetState : DeviceState :=
  { s with
    lightEngineState := .ready
    playbackState := .idle
    lightEngineFlags := 0
    playbackFlags := 0
    pointRate := min 30000 options.maxPointRate
    pointCount := 0
    pointBuffer := []
    pointRateQueue := []
    playbackAccumulator := 0
    playbackClockValid := false }

def stopPlayback : DeviceState :=
  { s with
    playbackState := .idle
    playbackFlags := s.playbackFlags &&& ~~~playbackFlagShutter
    pointBuffer := []
    pointRateQueue := []
    playbackClockValid := false
    playbackAccumulator := 0 }

/-- `readBegin`, for the commands `b` and `u` -/
def handleBegin (update : Bool) (rate : Nat) : Response × DeviceState :=
  if 0 < rate ∧ rate ≤ options.maxPointRate ∧ s.lightEngineState = .ready ∧
      (update ∨ s.playbackState = .prepared) ∧ s.pointBuffer ≠ [] then
    (.ack, {
      s with
      pointRate := rate
      playbackState := .playing
      playbackFlags := s.playbackFlags ||| playbackFlagShutter
      playbackClockValid := false })
  else (.invalid, s)

def handleRateChange (rate : Nat) : Response × DeviceState :=
  if s.playbackState ≠ .idle ∧ 0 < rate ∧ rate ≤ options.maxPointRate then
    if maxPointRateQueue ≤ s.pointRateQueue.length then (.full, s)
    else (.ack, { s with pointRateQueue := s.pointRateQueue ++ [rate] })
  else (.invalid, s)

def handleData (points : List BufferedPoint) : Response × DeviceState :=
  if s.playbackState ≠ .idle ∧ s.lightEngineState = .ready then
    if s.pointBuffer.length + points.length > options.bufferCapacity then (.full, s)
    else (.ack, { s with pointBuffer := s.pointBuffer ++ points })
  else (.invalid, s)

def handlePrepare : Response × DeviceState :=
  if s.lightEngineState = .ready ∧ s.playbackState = .idle then
    (.ack, {
      s with
      pointBuffer := []
      pointRateQueue := []
      pointCount := 0
      playbackFlags := s.playbackFlags &&&
        ~~~(playbackFlagUnderflow ||| playbackFlagEstop ||| playbackFlagShutter)
      playbackState := .prepared
      playbackClockValid := false })
  else (.invalid, s)

def handleStop : Response × DeviceState :=
  if s.playbackState = .prepared ∨ s.playbackState = .playing then (.ack, stopPlayback s)
  else (.invalid, s)

/-- `handleClear`, which resets the target if nothing is played -/
def handleClear : DeviceState :=
  let s := {
    s with
    lightEngineState := .ready
    lightEngineFlags := 0
    playbackFlags := s.playbackFlags &&& ~~~(playbackFlagUnderflow ||| playbackFlagEstop) }
  if s.playbackState = .idle then
    { s with
      pointBuffer := []
      pointRateQueue := []
      playbackClockValid := false }
  else s

def handleEmergencyStop : DeviceState :=
  stopPlayback {
    s with
    lightEngineState := .estop
    lightEngineFlags := s.lightEngineFlags ||| lightEngineFlagEstopCommand
    playbackFlags := s.playbackFlags ||| playbackFlagEstop }

end

/-! ## the timer -/

/-- a point leaves the buffer; a rate change that it carries takes the next rate of the queue -/
def takePoint (point : BufferedPoint) (rest : List BufferedPoint) (s : DeviceState) : DeviceState :=
  let s := { s with pointBuffer := rest, pointCount := s.pointCount + 1 }
  if point.control &&& rateChangeBit ≠ 0 then
    match s.pointRateQueue with
    | [] => s
    | rate :: queue => {
        s with
        pointRate := rate
        pointRateQueue := queue
        playbackClockValid := false
        playbackAccumulator := 0 }
  else s

/-- the loop of `playbackTick` over the points it takes from the buffer -/
def drain : Nat → DeviceState → DeviceState × List LaserPoint
  | 0, s => (s, [])
  | n + 1, s =>
    match s.pointBuffer with
    | [] => (s, [])
    | point :: rest =>
      let drained := drain n (takePoint point rest s)
      (drained.1, point.point :: drained.2)

def underflow (s : DeviceState) : DeviceState :=
  { s with
    playbackState := .idle
    playbackFlags := s.playbackFlags &&& ~~~playbackFlagShutter ||| playbackFlagUnderflow
    playbackClockValid := false
    playbackAccumulator := 0 }

/-- The accumulated points at the time `now`.  The clock is steady, so this is not negative. -/
def accumulated (s : DeviceState) (now : Int) : ℚ :=
  s.playbackAccumulator + (((now - s.lastPlaybackAt).tdiv 1000 : Int) : ℚ) * (s.pointRate : ℚ) / 1000000

/-- The section of `playbackTick` under the mutex, and the points it takes out.  `effectiveRate` is the
rate after the last of them. -/
def playbackSection (s : DeviceState) (now : Int) : DeviceState × List LaserPoint :=
  if s.playbackState ≠ .playing ∨ s.pointRate = 0 then (s, [])
  else if !s.playbackClockValid then
    ({ s with lastPlaybackAt := now, playbackClockValid := true }, [])
  else
    let accumulator := accumulated s now
    let pointsDue := ⌊accumulator⌋.toNat
    if pointsDue = 0 then ({ s with lastPlaybackAt := now, playbackAccumulator := accumulator }, [])
    else
      let toDrain := min pointsDue s.pointBuffer.length
      let drained := drain toDrain {
        s with
        lastPlaybackAt := now
        playbackAccumulator := accumulator - (pointsDue : ℚ) }
      (if toDrain < pointsDue then underflow drained.1 else drained.1, drained.2)

/-- what `playbackTick` submits -/
def playbackSubmission (options : HostOptions) (effectiveRate : Nat) (points : List LaserPoint) :
    Option SinkCall :=
  if points = [] then none
  else
    let rate := if 0 < effectiveRate then effectiveRate else options.maxPointRate
    some (.submitContinuous {
      points := points
      durationUs := ⌊max 1 (1000000 * (points.length : ℚ) / (rate : ℚ))⌋.toNat % 2 ^ 32
      effectivePointRate := some rate })

/-! ## the device and its client -/

/-- what a status reports -/
structure Status where
  lightEngineState : LightEngineState
  playbackState : PlaybackState
  lightEngineFlags : BitVec 16
  playbackFlags : BitVec 16
  bufferFullness : Nat
  pointRate : Nat
  pointCount : UInt32
  deriving DecidableEq

def DeviceState.status (s : DeviceState) : Status where
  lightEngineState := s.lightEngineState
  playbackState := s.playbackState
  lightEngineFlags := s.lightEngineFlags
  playbackFlags := s.playbackFlags
  bufferFullness := min s.pointBuffer.length 65535
  pointRate := if s.playbackState = .idle then 0 else s.pointRate
  pointCount := if s.playbackState = .playing then s.pointCount else 0

/-- A decoded command.  Every byte that is no other command is an emergency stop. -/
inductive Command where
  | query
  | version
  | prepare
  | begin (update : Bool) (rate : Nat)
  | rateChange (rate : Nat)
  | data (points : List BufferedPoint)
  | stop
  | clear
  | emergencyStop (byte : UInt8)
  deriving DecidableEq

/-- what a device sends to its client and asks of its sink -/
inductive Output where
  | response (command : Command) (response : Response) (status : Status)
  | version
  | call (c : SinkCall)
  deriving DecidableEq

structure Device where
  state : DeviceState := {}
  /-- the socket of a session is open -/
  connected : Bool := false
  log : List Output := []

/-- the state after a command, its response, and whether the target is reset -/
structure Done where
  state : DeviceState
  response : Response
  resets : Bool

def Command.run (options : HostOptions) (s : DeviceState) : Command → Done
  | .query => ⟨s, .ack, false⟩
  | .version => ⟨s, .ack, false⟩
  | .prepare => ⟨(handlePrepare s).2, (handlePrepare s).1, (handlePrepare s).1 = .ack⟩
  | .begin update rate =>
      ⟨(handleBegin options s update rate).2, (handleBegin options s update rate).1, false⟩
  | .rateChange rate => ⟨(handleRateChange options s rate).2, (handleRateChange options s rate).1, false⟩
  | .data points => ⟨(handleData options s points).2, (handleData options s points).1, false⟩
  | .stop => ⟨(handleStop s).2, (handleStop s).1, (handleStop s).1 = .ack⟩
  | .clear => ⟨handleClear s, .ack, s.playbackState = .idle⟩
  | .emergencyStop _ => ⟨handleEmergencyStop s, .ack, true⟩

/-- what a command that has left the state `s` sends -/
def Command.answer (command : Command) (response : Response) (s : DeviceState) : Output :=
  match command with
  | .version => .version
  | _ => .response command response s.status

inductive Event where
  | connect
  | disconnect
  | command (command : Command)
  | tick (now : Int)

/-- what a command that is done sends, after what it asks of the sink -/
def Done.outputs (done : Done) (command : Command) : List Output :=
  (if done.resets then [.call .reset] else []) ++ [command.answer done.response done.state]

/-- One event.  A client that comes while another one is served is turned away. -/
def Device.step (options : HostOptions) (d : Device) : Event → Device
  | .connect =>
    if d.connected then d
    else {
      state := resetState options d.state
      connected := true
      log := d.log ++ [.response .query .ack (resetState options d.state).status] }
  | .disconnect =>
    if d.connected then {
      state := stopPlayback d.state
      connected := false
      log := d.log ++ [.call .reset] }
    else d
  | .command command =>
    if d.connected then
      let done := command.run options d.state
      { d with
        state := done.state
        log := d.log ++ done.outputs command }
    else d
  | .tick now =>
    let played := playbackSection d.state now
    { d with
      state := played.1
      log := d.log ++
        ((playbackSubmission options played.1.pointRate played.2).map Output.call).toList }

/-! ## the events, one by one -/

section
variable {options : HostOptions} {d : Device}

theorem step_connect (h : d.connected = false) : d.step options .connect = {
    state := resetState options d.state
    connected := true
    log := d.log ++ [.response .query .ack (resetState options d.state).status] } := by
  show (if d.connected = true then _ else _) = _
  rw [if_neg (by simp [h])]

theorem step_connect_busy (h : d.connected = true) : d.step options .connect = d := by
  show (if d.connected = true then _ else _) = _
  rw [if_pos h]

theorem step_disconnect (h : d.connected = true) : d.step options .disconnect = {
    state := stopPlayback d.state
    connected := false
    log := d.log ++ [.call .reset] } := by
  show (if d.connected = true then _ else _) = _
  rw [if_pos h]

theorem step_disconnect_away (h : d.connected = false) : d.step options .disconnect = d := by
  show (if d.connected = true then _ else _) = _
  rw [if_neg (by simp [h])]

theorem step_command (h : d.connected = true) (command : Command) :
    d.step options (.command command) = {
      d with
      state := (command.run options d.state).state
      log := d.log ++ (command.run options d.state).outputs command } := by
  show (if d.connected = true then _ else _) = _
  rw [if_pos h]

theorem step_command_away (h : d.connected = false) (command : Command) :
    d.step options (.command command) = d := by
  show (if d.connected = true then _ else _) = _
  rw [if_neg (by simp [h])]

theorem answer_of_ne {command : Command} (h : command ≠ .version) (response : Response)
    (s : DeviceState) : command.answer response s = .response command response s.status := by
  cases command with
  | version => exact absurd rfl h
  | query => rfl
  | prepare => rfl
  | begin update rate => rfl
  | rateChange rate => rfl
  | data points => rfl
  | stop => rfl
  | clear => rfl
  | emergencyStop byte => rfl

end

/-! ## refused commands -/

section
variable {options : HostOptions} {s : DeviceState}

/-- a command with one guard, when it is refused -/
theorem guarded_refused {guard : Prop} [Decidable guard] {t : DeviceState}
    (h : (if guard then (Response.ack, t) else (Response.invalid, s)).1 ≠ .ack) :
    (if guard then (Response.ack, t) else (Response.invalid, s)) = (.invalid, s) := by
  split
  · rename_i hguard
    rw [if_pos hguard] at h
    exact absurd rfl h
  · rfl

theorem begin_refused {update : Bool} {rate : Nat} (h : (handleBegin options s update rate).1 ≠ .ack) :
    handleBegin options s update rate = (.invalid, s) := guarded_refused h

theorem prepare_refused (h : (handlePrepare s).1 ≠ .ack) : handlePrepare s = (.invalid, s) :=
  guarded_refused h

theorem stop_refused (h : (handleStop s).1 ≠ .ack) : handleStop s = (.invalid, s) :=
  guarded_refused h

/-- data is taken whole behind the buffer, or not at all -/
theorem data_whole (options : HostOptions) (s : DeviceState) (points : List BufferedPoint) :
    handleData options s points = (.ack, { s with pointBuffer := s.pointBuffer ++ points }) ∨
      (handleData options s points).1 ≠ .ack ∧ (handleData options s points).2 = s := by
  unfold handleData
  split
  · split
    · exact .inr ⟨(by decide : Response.full ≠ .ack), rfl⟩
    · exact .inl rfl
  · exact .inr ⟨(by decide : Response.invalid ≠ .ack), rfl⟩

/-- a rate goes to the end of a queue that has room for it, or nowhere -/
theorem rateChange_whole (options : HostOptions) (s : DeviceState) (rate : Nat) :
    (s.pointRateQueue.length < maxPointRateQueue ∧ handleRateChange options s rate =
        (.ack, { s with pointRateQueue := s.pointRateQueue ++ [rate] })) ∨
      (handleRateChange options s rate).1 ≠ .ack ∧ (handleRateChange options s rate).2 = s := by
  unfold handleRateChange
  split
  · split
    · exact .inr ⟨(by decide : Response.full ≠ .ack), rfl⟩
    · exact .inl ⟨by omega, rfl⟩
  · exact .inr ⟨(by decide : Response.invalid ≠ .ack), rfl⟩

theorem command_refused {command : Command} (h : (command.run options s).response ≠ .ack) :
    (command.run options s).state = s ∧ (command.run options s).resets = false ∧
      command ≠ .version := by
  cases command with
  | query => exact absurd rfl h
  | version => exact absurd rfl h
  | clear => exact absurd rfl h
  | emergencyStop byte => exact absurd rfl h
  | prepare =>
    exact ⟨congrArg Prod.snd (prepare_refused h), decide_eq_false h, Command.noConfusion⟩
  | stop => exact ⟨congrArg Prod.snd (stop_refused h), decide_eq_false h, Command.noConfusion⟩
  | begin update rate => exact ⟨congrArg Prod.snd (begin_refused h), rfl, Command.noConfusion⟩
  | rateChange rate =>
    rcases rateChange_whole options s rate with ⟨_, htaken⟩ | ⟨_, hsame⟩
    · exact absurd (congrArg Prod.fst htaken) h
    · exact ⟨hsame, rfl, Command.noConfusion⟩
  | data points =>
    rcases data_whole options s points with htaken | ⟨_, hsame⟩
    · exact absurd (congrArg Prod.fst htaken) h
    · exact ⟨hsame, rfl, Command.noConfusion⟩

end

/-- **A refused command leaves no trace but its answer**: the device is as it was and the sink is not
called; data is taken whole or not at all, and a rate that finds its queue full changes nothing. -/
theorem refused_does_nothing (options : HostOptions) (s : DeviceState) (log : List Output) :
    (∀ command : Command, (command.run options s).response ≠ .ack →
      (⟨s, true, log⟩ : Device).step options (.command command) =
        ⟨s, true, log ++ [.response command (command.run options s).response s.status]⟩) ∧
    (∀ points, (handleData options s points).1 = .ack →
      ((⟨s, true, log⟩ : Device).step options (.command (.data points))).state =
        { s with pointBuffer := s.pointBuffer ++ points }) ∧
    ∀ rate, maxPointRateQueue ≤ s.pointRateQueue.length →
      (handleRateChange options s rate).1 ≠ .ack ∧
        ((⟨s, true, log⟩ : Device).step options (.command (.rateChange rate))).state = s := by
  refine ⟨?_, ?_, ?_⟩
  · intro command hrefused
    obtain ⟨hstate, hresets, hversion⟩ := command_refused hrefused
    rw [step_command rfl, Done.outputs, hstate, hresets, answer_of_ne hversion]
    rfl
  · intro points hack
    rcases data_whole options s points with htaken | ⟨hrefused, _⟩
    · exact congrArg Prod.snd htaken
    · exact absurd hack hrefused
  · intro rate hfull
    rcases rateChange_whole options s rate with ⟨hroom, _⟩ | hrefused
    · omega
    · exact hrefused

end LiberaLink.EtherDream
