import LiberaLink.EtherDream.Playback
import LiberaLink.Lib.Reach

/-!
# Every accepted point is played once, in order

From an acknowledged prepare until the buffer is cleared, the points of the data commands that were
acknowledged go through the buffer to the sink.

* `accepted`, `submitted`        what a log says about points;
* `Clears`                       the events that clear the buffer;
* `Moved`, `step_moved`          what one other event does to the buffer and the counter;
* `accepted_points_are_played`   **nothing is lost, doubled or reordered**.
-/

namespace LiberaLink.EtherDream
open Stepwise

/-- the points of the acknowledged data commands, in order -/
def accepted (outputs : List Output) : List LaserPoint :=
  outputs.flatMap fun o => match o with
    | .response (.data points) .ack _ => points.map fun p => p.point
    | _ => []

/-- the points that the sink was given, in order -/
def submitted (outputs : List Output) : List LaserPoint :=
  outputs.flatMap fun o => match o with
    | .call (.submitContinuous submission) => submission.points
    | _ => []

theorem accepted_append (a b : List Output) : accepted (a ++ b) = accepted a ++ accepted b :=
  List.flatMap_append

theorem submitted_append (a b : List Output) : submitted (a ++ b) = submitted a ++ submitted b :=
  List.flatMap_append

/-- The events that clear the buffer: an acknowledged prepare or stop, a clear of an idle device, an
emergency stop, and the end of the session. -/
def Clears (d : Device) : Event → Prop
  | .disconnect => d.connected = true
  | .command .prepare => (handlePrepare d.state).1 = .ack
  | .command .stop => (handleStop d.state).1 = .ack
  | .command .clear => d.state.playbackState = .idle
  | .command (.emergencyStop _) => True
  | _ => False

instance (d : Device) : DecidablePred (Clears d) := fun e =>
  match e with
  | .connect => .isFalse not_false
  | .disconnect => inferInstanceAs (Decidable (d.connected = true))
  | .tick _ => .isFalse not_false
  | .command .query => .isFalse not_false
  | .command .version => .isFalse not_false
  | .command .prepare => inferInstanceAs (Decidable ((handlePrepare d.state).1 = .ack))
  | .command (.begin _ _) => .isFalse not_false
  | .command (.rateChange _) => .isFalse not_false
  | .command (.data _) => .isFalse not_false
  | .command .stop => inferInstanceAs (Decidable ((handleStop d.state).1 = .ack))
  | .command .clear => inferInstanceAs (Decidable (d.state.playbackState = .idle))
  | .command (.emergencyStop _) => .isTrue trivial

def DeviceState.points (s : DeviceState) : List LaserPoint := s.pointBuffer.map fun p => p.point

/-- What an event moves: points come in behind the buffer and leave it at its front. -/
structure Moved (s s' : DeviceState) (outputs : List Output) : Prop where
  points : s.points ++ accepted outputs = submitted outputs ++ s'.points
  count : s'.pointCount = s.pointCount + .ofNat (submitted outputs).length

section
variable {options : HostOptions} {s : DeviceState}

/-- an answer that accepts no points, to a command that leaves buffer and counter alone -/
theorem moved_of_same {s' : DeviceState} {outputs : List Output}
    (hbuffer : s'.pointBuffer = s.pointBuffer) (hcount : s'.pointCount = s.pointCount)
    (haccepted : accepted outputs = []) (hsubmitted : submitted outputs = []) : Moved s s' outputs := by
  constructor
  · rw [haccepted, hsubmitted, DeviceState.points, DeviceState.points, hbuffer, List.append_nil,
      List.nil_append]
  · rw [hsubmitted, hcount]
    exact (UInt32.add_zero _).symm

theorem data_moved (points : List BufferedPoint) :
    Moved s (handleData options s points).2
      [.response (.data points) (handleData options s points).1 (handleData options s points).2.status] := by
  unfold handleData
  split
  · split
    · exact moved_of_same rfl rfl rfl rfl
    · constructor
      · show s.points ++ (points.map _ ++ []) = [] ++ (s.pointBuffer ++ points).map _
        rw [List.append_nil, List.nil_append, List.map_append]
        rfl
      · exact (UInt32.add_zero _).symm
  · exact moved_of_same rfl rfl rfl rfl

theorem begin_frame (options : HostOptions) (s : DeviceState) (update : Bool) (rate : Nat) :
    (handleBegin options s update rate).2.pointBuffer = s.pointBuffer ∧
      (handleBegin options s update rate).2.pointCount = s.pointCount := by
  unfold handleBegin
  split <;> exact ⟨rfl, rfl⟩

theorem rateChange_frame (options : HostOptions) (s : DeviceState) (rate : Nat) :
    (handleRateChange options s rate).2.pointBuffer = s.pointBuffer ∧
      (handleRateChange options s rate).2.pointCount = s.pointCount := by
  unfold handleRateChange
  split
  · split <;> exact ⟨rfl, rfl⟩
  · exact ⟨rfl, rfl⟩

theorem clear_busy (h : s.playbackState ≠ .idle) :
    (handleClear s).pointBuffer = s.pointBuffer ∧ (handleClear s).pointCount = s.pointCount := by
  unfold handleClear
  simp only
  rw [if_neg h]
  exact ⟨rfl, rfl⟩

theorem command_moved {d : Device} {command : Command} (h : ¬ Clears d (.command command)) :
    Moved d.state (command.run options d.state).state
      ((command.run options d.state).outputs command) := by
  cases command with
  | query => exact moved_of_same rfl rfl rfl rfl
  | version => exact moved_of_same rfl rfl rfl rfl
  | prepare =>
    have hrefused : handlePrepare d.state = (.invalid, d.state) := prepare_refused h
    unfold Command.run Done.outputs
    rw [hrefused]
    exact moved_of_same rfl rfl rfl rfl
  | begin update rate =>
    obtain ⟨hbuffer, hcount⟩ := begin_frame options d.state update rate
    exact moved_of_same hbuffer hcount rfl rfl
  | rateChange rate =>
    obtain ⟨hbuffer, hcount⟩ := rateChange_frame options d.state rate
    exact moved_of_same hbuffer hcount rfl rfl
  | data points => exact data_moved points
  | stop =>
    have hrefused : handleStop d.state = (.invalid, d.state) := stop_refused h
    unfold Command.run Done.outputs
    rw [hrefused]
    exact moved_of_same rfl rfl rfl rfl
  | clear =>
    have hbusy : d.state.playbackState ≠ .idle := h
    obtain ⟨hbuffer, hcount⟩ := clear_busy hbusy
    refine moved_of_same hbuffer hcount ?_ ?_
    · show accepted (_ ++ [_]) = []
      rw [accepted_append]
      simp [hbusy, accepted, Command.run, Command.answer]
    · show submitted (_ ++ [_]) = []
      rw [submitted_append]
      simp [hbusy, submitted, Command.run, Command.answer]
  | emergencyStop byte => exact absurd trivial h

theorem submitted_submission (rate : Nat) (points : List LaserPoint) :
    submitted ((playbackSubmission options rate points).map Output.call).toList = points := by
  unfold playbackSubmission
  split
  · rename_i hnil
    rw [hnil]
    rfl
  · exact List.append_nil points

theorem accepted_submission (rate : Nat) (points : List LaserPoint) :
    accepted ((playbackSubmission options rate points).map Output.call).toList = [] := by
  unfold playbackSubmission
  split <;> rfl

theorem Drained.moved {n : Nat} {s' : DeviceState} {points : List LaserPoint}
    (h : Drained n s s' points) :
    s.points = points ++ s'.points ∧ s'.pointCount = s.pointCount + .ofNat points.length := by
  refine ⟨?_, h.pointCount⟩
  rw [h.points_eq, DeviceState.points, DeviceState.points, h.pointBuffer, ← List.map_append,
    List.take_append_drop]

theorem tick_moved (now : Int) (rate : Nat) :
    Moved s (playbackSection s now).1
      ((playbackSubmission options rate (playbackSection s now).2).map Output.call).toList := by
  have hout := playbackSection_outcome s now
  generalize playbackSection s now = r at hout
  have hmoved : s.points = r.2 ++ r.1.points ∧
      r.1.pointCount = s.pointCount + .ofNat r.2.length := by
    cases hout with
    | still _ => exact ⟨rfl, (UInt32.add_zero _).symm⟩
    | clock _ => exact ⟨rfl, (UInt32.add_zero _).symm⟩
    | wait _ _ => exact ⟨rfl, (UInt32.add_zero _).symm⟩
    | play _ n accumulator s' points hdrained hn => exact hdrained.moved
    | underflow _ accumulator s' points hdrained => exact hdrained.moved
  constructor
  · rw [accepted_submission, submitted_submission, List.append_nil]
    exact hmoved.1
  · rw [submitted_submission]
    exact hmoved.2

end

/-- one event that does not clear the buffer, on the device of a client -/
theorem step_moved (options : HostOptions) {d : Device} {e : Event} (hconnected : d.connected = true)
    (h : ¬ Clears d e) : (d.step options e).connected = true ∧
      ∃ outputs, (d.step options e).log = d.log ++ outputs ∧
        Moved d.state (d.step options e).state outputs := by
  cases e with
  | connect =>
    rw [step_connect_busy hconnected]
    exact ⟨hconnected, [], (List.append_nil _).symm, moved_of_same rfl rfl rfl rfl⟩
  | disconnect => exact absurd hconnected h
  | command command =>
    rw [step_command hconnected]
    exact ⟨hconnected, _, rfl, command_moved h⟩
  | tick now => exact ⟨hconnected, _, rfl, tick_moved now _⟩

/-- **Nothing is lost, doubled or reordered.**  After an acknowledged prepare and any events that do not
clear the buffer, the points of the acknowledged data commands are those that the sink was given and
then those in the buffer, and the counter counts the points that the sink was given. -/
theorem accepted_points_are_played (options : HostOptions) (d : Device) (hconnected : d.connected = true)
    (hack : (handlePrepare d.state).1 = .ack) (events : List Event)
    (hrun : Allowed (Device.step options) (fun d e => ¬ Clears d e)
      (d.step options (.command .prepare)) events) :
    let prepared := d.step options (.command .prepare)
    let last := events.foldl (Device.step options) prepared
    ∃ outputs, last.log = prepared.log ++ outputs ∧
      accepted outputs = submitted outputs ++ last.state.pointBuffer.map (fun p => p.point) ∧
      last.state.pointCount.toNat = (submitted outputs).length % 2 ^ 32 := by
  intro prepared last
  have hprepared : prepared.connected = true ∧ prepared.state.pointBuffer = [] ∧
      prepared.state.pointCount = 0 := by
    have hstep : prepared = _ := step_command hconnected .prepare
    rw [hstep]
    refine ⟨hconnected, ?_⟩
    show (handlePrepare d.state).2.pointBuffer = [] ∧ (handlePrepare d.state).2.pointCount = 0
    unfold handlePrepare at hack ⊢
    split
    · exact ⟨rfl, rfl⟩
    · rename_i hguard
      rw [if_neg hguard] at hack
      cases hack
  -- what the events so far have moved, carried along the run
  have h : last.connected = true ∧ ∃ outputs, last.log = prepared.log ++ outputs ∧
      Moved prepared.state last.state outputs := by
    refine hrun.history (P := fun _ last => last.connected = true ∧
      ∃ outputs, last.log = prepared.log ++ outputs ∧ Moved prepared.state last.state outputs) ?_ ?_
    · exact ⟨hprepared.1, [], (List.append_nil _).symm, moved_of_same rfl rfl rfl rfl⟩
    · intro _ mid e hmid he
      obtain ⟨hon, outputs, hlog, hmoved⟩ := hmid
      obtain ⟨hon', outputs', hlog', hmoved'⟩ := step_moved options hon he
      refine ⟨hon', outputs ++ outputs', ?_, ?_, ?_⟩
      · rw [hlog', hlog, List.append_assoc]
      · rw [accepted_append, submitted_append, ← List.append_assoc, hmoved.points, List.append_assoc,
          hmoved'.points, List.append_assoc]
      · rw [submitted_append, hmoved'.count, hmoved.count, List.length_append, UInt32.ofNat_add,
          UInt32.add_assoc]
  obtain ⟨_, outputs, hlog, hmoved⟩ := h
  refine ⟨outputs, hlog, ?_, ?_⟩
  · have hpoints := hmoved.points
    rw [DeviceState.points, hprepared.2.1] at hpoints
    exact hpoints
  · rw [hmoved.count, hprepared.2.2, UInt32.zero_add, UInt32.toNat_ofNat']

/-- the options of a host without any configured ones -/
def defaultOptions : HostOptions := makeHostOptions ⟨7765, 7654⟩ ⟨0, ∅⟩

/-- Two points are accepted and playback begins; a millisecond after the tick that sets the clock, the
first of them is due. -/
def onePlayed : List Event :=
  [.command (.data [⟨⟨0, 0, 0, 0, 0, 0, 0, 0⟩, 0⟩, ⟨⟨1, 0, 0, 0, 0, 0, 0, 0⟩, 0⟩]),
    .command (.begin false 1000), .tick 0, .tick 1000000]

theorem accepted_points_are_played_one :
    let d : Device := Device.step defaultOptions {} .connect
    let last := onePlayed.foldl (Device.step defaultOptions)
      (d.step defaultOptions (.command .prepare))
    ∃ outputs, accepted outputs = submitted outputs ++ last.state.pointBuffer.map (fun p => p.point) ∧
      (submitted outputs).length % 2 ^ 32 = 1 := by
  intro d last
  obtain ⟨outputs, _, hpoints, hcount⟩ := accepted_points_are_played defaultOptions d (by decide +kernel)
    (by decide +kernel) onePlayed (by decide +kernel)
  have hone : last.state.pointCount.toNat = 1 := by decide +kernel
  exact ⟨outputs, hpoints, hcount.symm.trans hone⟩

end LiberaLink.EtherDream
