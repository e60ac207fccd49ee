import LiberaLink.EtherDream.Stream

/-!
# The two threads of a device

A device runs its handlers on an I/O thread of its own, and another thread stops it.  The two share the session
socket, the acceptor, the timer and a flag, and take turns anywhere between two accesses of these.

* `HandlerStep.run`        what the handlers do, one such access at a time;
* `StopStep.run`           what `stop` does;
* `DeviceThreads.step`     the two threads, the client and the clock, in any order;
* `SessionEndResets`       what a session that has ended leaves at the target;
* `step_inv`               **what each step keeps**.
-/

namespace LiberaLink.EtherDream

/-! ## the handlers -/

/-- an asynchronous operation: under way, or done, with its handler still to be called -/
inductive Operation (α : Type) where
  | pending
  | ready (result : α)
  deriving DecidableEq

/-- an operation ends, unless it has done so already -/
def Operation.complete {α : Type} (result : α) : Operation α → Operation α
  | .pending => .ready result
  | .ready earlier => .ready earlier

/-- What is left of a handler.  The reads of a command and its arguments are one operation. -/
inductive HandlerStep where
  | handleAccepted
  | startAccept
  | handleCommand (command : Command)
  | sendResponse (command : Command) (response : Response)
  | startReadCommand
  | clearSession
  | playbackTick
  | startPlaybackTimer
  deriving DecidableEq

/-- what is left of a call of `stop` -/
inductive StopStep where
  | closeAcceptor
  | cancelPlaybackTimer
  | closeSession
  | stopLoop
  | join
  | resetState
  deriving DecidableEq

structure DeviceThreads where
  state : DeviceState := {}
  log : List Output := []
  running : Bool := true
  acceptorOpen : Bool := true
  accept : Option (Operation Bool) := some .pending
  playbackTimer : Option (Operation Bool) := some .pending
  /-- the session socket, and whether it is open -/
  sessionSocket : Option Bool := none
  /-- the reads of commands; a read that fails has no command -/
  reads : List (Operation (Option Command)) := []
  /-- how many sessions there have been -/
  sessions : Nat := 0
  handler : List HandlerStep := []
  loopStopped : Bool := false
  /-- the I/O thread has left `run` -/
  left : Bool := false
  joinable : Bool := true
  stopping : List StopStep := []

/-- A step of a handler at the time `now`, and what takes its place. -/
def HandlerStep.run (options : HostOptions) (now : Int) (t : DeviceThreads) :
    HandlerStep → DeviceThreads × List HandlerStep
  | .handleAccepted =>
    if t.sessionSocket = some true then (t, [])
    else
      ({ t with
          sessionSocket := some true
          state := EtherDream.resetState options t.state
          sessions := t.sessions + 1 }, [.sendResponse .query .ack])
  | .startAccept =>
    ({ t with accept := some (if t.acceptorOpen then .pending else .ready false) }, [])
  | .handleCommand command =>
    let done := command.run options t.state
    ({ t with
        state := done.state
        log := t.log ++ if done.resets then [.call .reset] else [] },
      [.sendResponse command done.response])
  | .sendResponse command response =>
    (if t.sessionSocket = some true
      then { t with log := t.log ++ [command.answer response t.state] } else t, [.startReadCommand])
  | .startReadCommand =>
    if t.sessionSocket = some true then ({ t with reads := t.reads ++ [.pending] }, [])
    else (t, [.clearSession])
  | .clearSession =>
    ({ t with
        state := stopPlayback t.state
        log := t.log ++ [.call .reset]
        sessionSocket := none
        reads := if t.sessionSocket.isSome then t.reads.map (Operation.complete none) else t.reads }, [])
  | .playbackTick =>
    let played := playbackSection t.state now
    ({ t with
        state := played.1
        log := t.log ++
          ((playbackSubmission options played.1.pointRate played.2).map Output.call).toList }, [])
  | .startPlaybackTimer => ({ t with playbackTimer := some .pending }, [])

/-! ## the thread that stops the device -/

/-- A step of `stop`, if it does not wait for the I/O thread. -/
def StopStep.run (options : HostOptions) (t : DeviceThreads) : StopStep → Option DeviceThreads
  | .closeAcceptor =>
    some { t with acceptorOpen := false, accept := t.accept.map (Operation.complete false) }
  | .cancelPlaybackTimer =>
    some { t with playbackTimer := t.playbackTimer.map (Operation.complete false) }
  | .closeSession =>
    if t.sessionSocket.isSome then
      some { t with
        sessionSocket := some false
        reads := t.reads.map (Operation.complete none) }
    else some t
  | .stopLoop => some { t with loopStopped := true }
  | .join => if t.left then some { t with joinable := false } else none
  | .resetState => some { t with loopStopped := false, state := EtherDream.resetState options t.state }

def stopSteps : List StopStep :=
  [.closeAcceptor, .cancelPlaybackTimer, .closeSession, .stopLoop, .join, .resetState]

/-! ## the threads -/

inductive ThreadStep where
  /-- a client comes, or cannot be accepted -/
  | accepted (ok : Bool)
  /-- a read gets a command, or fails -/
  | received (read : Nat) (command : Option Command)
  | elapsed
  /-- the I/O thread calls the handler of an operation that is done -/
  | callAccept
  | callRead (read : Nat)
  | callTimer
  /-- the next step of the handler that is called -/
  | handler (now : Int)
  /-- the I/O thread leaves `run` -/
  | leave
  | stop
  /-- the next step of the call of `stop` -/
  | stopper

namespace DeviceThreads
variable (options : HostOptions) (t : DeviceThreads)

/-- a device that has just been started -/
def started : DeviceThreads := {}

/-- the I/O thread is between two handlers and may call another one -/
def mayCall : Bool := t.handler.isEmpty && !t.loopStopped && !t.left

/-- the loop has been stopped, or has nothing left to wait for -/
def mayLeave : Bool :=
  t.handler.isEmpty && (t.loopStopped || t.accept.isNone && t.playbackTimer.isNone && t.reads.isEmpty)

/-- a call of `stop` has come to its end -/
def Stopped : Prop := t.running = false ∧ t.stopping = []

instance : Decidable t.Stopped := inferInstanceAs (Decidable (_ ∧ _))

def callAccept : DeviceThreads :=
  match t.accept with
  | some (.ready ok) =>
    { t with
      accept := none
      handler := if t.running then (if ok then [.handleAccepted] else []) ++ [.startAccept] else [] }
  | _ => t

def callRead (read : Nat) : DeviceThreads :=
  match t.reads[read]? with
  | some (.ready command) =>
    { t with
      reads := t.reads.eraseIdx read
      handler := match command with
        | some command => [.handleCommand command]
        | none => [.clearSession] }
  | _ => t

def callTimer : DeviceThreads :=
  match t.playbackTimer with
  | some (.ready ok) =>
    { t with
      playbackTimer := none
      handler := if ok && t.running then [.playbackTick, .startPlaybackTimer] else [] }
  | _ => t

def handlerStep (now : Int) : DeviceThreads :=
  match t.handler with
  | [] => t
  | a :: rest => { (a.run options now t).1 with handler := (a.run options now t).2 ++ rest }

def stopStep : DeviceThreads :=
  match t.stopping with
  | [] => t
  | a :: rest =>
    match a.run options t with
    | none => t
    | some t' => { t' with stopping := rest }

/-- One step of one of the threads, of the client or of the clock.  A step that cannot be taken changes
nothing; the device is stopped by one thread at a time. -/
def step (t : DeviceThreads) : ThreadStep → DeviceThreads
  | .accepted ok => { t with accept := t.accept.map (Operation.complete ok) }
  | .received read command => { t with reads := t.reads.modify read (Operation.complete command) }
  | .elapsed => { t with playbackTimer := t.playbackTimer.map (Operation.complete true) }
  | .callAccept => if t.mayCall then t.callAccept else t
  | .callRead read => if t.mayCall then t.callRead read else t
  | .callTimer => if t.mayCall then t.callTimer else t
  | .handler now => t.handlerStep options now
  | .leave => if t.mayLeave then { t with left := true } else t
  | .stop =>
    if t.stopping ≠ [] ∨ !t.running ∧ !t.joinable then t
    else { t with running := false, stopping := stopSteps }
  | .stopper => t.stopStep options

end DeviceThreads

/-! ## what is left at the target -/

/-- the calls of the sink -/
def sinkCalls (log : List Output) : List SinkCall :=
  log.filterMap fun output => match output with
    | .call c => some c
    | _ => none

/-- the points that have been submitted since the target was last reset -/
def pointsLeft (calls : List SinkCall) : List LaserPoint :=
  calls.foldl (fun points c => match c with
    | .submitContinuous submission => points ++ submission.points
    | .reset => []
    | _ => points) []

/-- the last call of the sink is `reset`, so that no point is left -/
def TargetReset (log : List Output) : Prop :=
  (sinkCalls log).getLast? = some .reset ∧ pointsLeft (sinkCalls log) = []

instance (log : List Output) : Decidable (TargetReset log) := inferInstanceAs (Decidable (_ ∧ _))

/-- Once there has been a session, its target has been reset whenever no session is left or a call of
`stop` has come to its end. -/
def SessionEndResets (t : DeviceThreads) : Prop :=
  0 < t.sessions → t.sessionSocket = none ∨ t.Stopped → TargetReset t.log

instance (t : DeviceThreads) : Decidable (SessionEndResets t) := inferInstanceAs (Decidable (_ → _ → _))

theorem sinkCalls_append (a b : List Output) : sinkCalls (a ++ b) = sinkCalls a ++ sinkCalls b :=
  List.filterMap_append

/-- what is no call leaves the target as it is -/
theorem TargetReset.append_silent {log outputs : List Output} (h : TargetReset log)
    (hsilent : sinkCalls outputs = []) : TargetReset (log ++ outputs) := by
  unfold TargetReset
  rw [sinkCalls_append, hsilent, List.append_nil]
  exact h

theorem targetReset_reset (log : List Output) : TargetReset (log ++ [.call .reset]) := by
  unfold TargetReset
  rw [sinkCalls_append, show sinkCalls [.call .reset] = [.reset] from rfl]
  refine ⟨List.getLast?_concat, ?_⟩
  unfold pointsLeft
  rw [List.foldl_append]
  rfl

theorem sinkCalls_answer (command : Command) (response : Response) (s : DeviceState) :
    sinkCalls [command.answer response s] = [] := by
  by_cases h : command = .version
  · rw [h]
    rfl
  · rw [answer_of_ne h]
    rfl

/-! ## the session and its one strand of steps -/

/-- the step belongs to the session, and hands over to another one that does or to a read -/
def HandlerStep.Serves : HandlerStep → Bool
  | .handleAccepted => false
  | .startAccept => false
  | .handleCommand _ => true
  | .sendResponse _ _ => true
  | .startReadCommand => true
  | .clearSession => true
  | .playbackTick => false
  | .startPlaybackTimer => false

namespace DeviceThreads

/-- the reads and the steps that serve the session -/
def strands (t : DeviceThreads) : Nat := t.reads.length + t.handler.countP HandlerStep.Serves

/-- a tick may still come -/
def MayTick (t : DeviceThreads) : Prop := t.running = true ∨ .playbackTick ∈ t.handler

/-- A session is served by one strand of steps, and there is nothing to play without a session. -/
structure Strand (t : DeviceThreads) : Prop where
  one : t.strands ≤ 1
  serving : 0 < t.strands → t.sessionSocket.isSome
  idle : t.sessionSocket = none → t.state.playbackState ≠ .playing

/-- What the threads keep.  Once no tick can come any more, two sessions may be served at a time: a
client that is accepted while the device is being stopped finds the socket of the session before it
closed. -/
structure Inv (t : DeviceThreads) : Prop where
  strand : t.MayTick → t.Strand
  ticking : .playbackTick ∈ t.handler → t.handler = [.playbackTick, .startPlaybackTimer]
  closed : t.sessionSocket = some false → t.running = false
  cleared : t.sessionSocket = none → 0 < t.sessions → TargetReset t.log
  called : t.stopping ≠ [] → t.running = false
  stops : t.running = false → .join ∈ t.stopping ∨ t.left = true
  leaves : t.left = true → t.handler = [] ∧ t.sessionSocket = none

theorem started_inv : started.Inv where
  strand _ := ⟨Nat.zero_le _, fun h => absurd h (Nat.lt_irrefl 0), fun _ => by decide⟩
  ticking := by
    intro h
    cases h
  closed h := by cases h
  cleared _ h := absurd h (Nat.lt_irrefl 0)
  called h := absurd rfl h
  stops h := by cases h
  leaves h := by cases h

/-- the property that the invariant gives -/
theorem Inv.ends {t : DeviceThreads} (h : t.Inv) : SessionEndResets t := by
  intro hsessions hend
  rcases hend with hnone | ⟨hrunning, hstopping⟩
  · exact h.cleared hnone hsessions
  · rcases h.stops hrunning with hjoin | hleft
    · rw [hstopping] at hjoin
      cases hjoin
    · exact h.cleared (h.leaves hleft).2 hsessions

/-! ## what each step keeps -/

section
variable {options : HostOptions} {t : DeviceThreads} {a : HandlerStep} {rest : List HandlerStep}

theorem strands_serves (h : t.handler = a :: rest) (ha : a.Serves = true) :
    t.strands = t.reads.length + rest.countP HandlerStep.Serves + 1 := by
  unfold strands
  rw [h, List.countP_cons_of_pos ha, ← Nat.add_assoc]

theorem strands_aside (h : t.handler = a :: rest) (ha : a.Serves = false) :
    t.strands = t.reads.length + rest.countP HandlerStep.Serves := by
  unfold strands
  rw [h, List.countP_cons_of_neg (by rw [ha]; exact Bool.false_ne_true)]

theorem serving_cons (h : t.handler = a :: rest) (hs : t.Strand) (ha : a.Serves = true) :
    t.sessionSocket.isSome ∧ t.reads.length + rest.countP HandlerStep.Serves = 0 := by
  have hcount := strands_serves h ha
  have hone := hs.one
  exact ⟨hs.serving (by omega), by omega⟩

/-- no tick is left once a step of the handler has been taken -/
theorem tick_not_mem_rest (h : t.handler = a :: rest) (hi : t.Inv) : .playbackTick ∉ rest := by
  intro hmem
  have hall := hi.ticking (by rw [h]; exact List.mem_cons_of_mem _ hmem)
  rw [h] at hall
  rw [(List.cons.inj hall).2] at hmem
  simp at hmem

/-- What a step of the handler has to keep. -/
theorem Inv.of_handler {t' : DeviceThreads} (h : t.handler = a :: rest) (hi : t.Inv)
    (hrunning : t'.running = t.running) (hstopping : t'.stopping = t.stopping) (hleft : t'.left = t.left)
    (htick : .playbackTick ∉ t'.handler) (hstrand : t.running = true → t.Strand → t'.Strand)
    (hclosed : t'.sessionSocket = some false → t.sessionSocket = some false)
    (hcleared : t'.sessionSocket = none → 0 < t'.sessions → TargetReset t'.log) : t'.Inv where
  strand htick' := by
    have hrun : t.running = true := by
      rcases htick' with hrun | hmem
      · rw [← hrunning, hrun]
      · exact absurd hmem htick
    exact hstrand hrun (hi.strand (.inl hrun))
  ticking hmem := absurd hmem htick
  closed hsocket := by
    rw [hrunning]
    exact hi.closed (hclosed hsocket)
  cleared := hcleared
  called hsome := by
    rw [hrunning]
    rw [hstopping] at hsome
    exact hi.called hsome
  stops hrun := by
    rw [hrunning] at hrun
    rw [hstopping, hleft]
    exact hi.stops hrun
  leaves hgone := by
    rw [hleft] at hgone
    have hempty := (hi.leaves hgone).1
    rw [h] at hempty
    cases hempty

/-- a step that leaves the session, its reads and its strands alone -/
theorem Inv.of_handler_aside {t' : DeviceThreads} (h : t.handler = a :: rest) (hi : t.Inv)
    (hrunning : t'.running = t.running) (hstopping : t'.stopping = t.stopping) (hleft : t'.left = t.left)
    (htick : .playbackTick ∉ t'.handler) (hstrands : t'.strands = t.strands)
    (hsocket : t'.sessionSocket = t.sessionSocket) (hsessions : t'.sessions = t.sessions)
    (hnone : t.sessionSocket = none → t.Strand → t'.state.playbackState ≠ .playing)
    (hcleared : t.sessionSocket = none → TargetReset t.log → TargetReset t'.log) : t'.Inv := by
  refine hi.of_handler h hrunning hstopping hleft htick ?_ ?_ ?_
  · intro _ hs
    refine ⟨?_, ?_, ?_⟩
    · rw [hstrands]
      exact hs.one
    · rw [hstrands, hsocket]
      exact hs.serving
    · rw [hsocket]
      exact fun hnosession => hnone hnosession hs
  · intro hclosed
    rw [← hsocket, hclosed]
  · intro hnosession hcount
    rw [hsocket] at hnosession
    rw [hsessions] at hcount
    exact hcleared hnosession (hi.cleared hnosession hcount)

theorem handlerStep_of {now : Int} {t' : DeviceThreads} {more : List HandlerStep}
    (h : t.handler = a :: rest) (hrun : a.run options now t = (t', more)) :
    t.handlerStep options now = { t' with handler := more ++ rest } := by
  unfold handlerStep
  rw [h]
  show { (a.run options now t).1 with handler := (a.run options now t).2 ++ rest } = _
  rw [hrun]

theorem handleAccepted_inv (now : Int) (hi : t.Inv) (h : t.handler = .handleAccepted :: rest) :
    (t.handlerStep options now).Inv := by
  have hrest := tick_not_mem_rest h hi
  by_cases hopen : t.sessionSocket = some true
  · have hrun : HandlerStep.run options now t .handleAccepted = (t, []) := if_pos hopen
    rw [handlerStep_of h hrun]
    refine hi.of_handler_aside h rfl rfl rfl hrest ?_ rfl rfl (fun hnone hs => hs.idle hnone) fun _ hr => hr
    exact (strands_aside h rfl).symm
  · have hrun : HandlerStep.run options now t .handleAccepted = ({ t with
        sessionSocket := some true
        state := EtherDream.resetState options t.state
        sessions := t.sessions + 1 }, [.sendResponse .query .ack]) := if_neg hopen
    rw [handlerStep_of h hrun]
    refine hi.of_handler h rfl rfl rfl ?_ ?_ ?_ ?_
    · show _ ∉ HandlerStep.sendResponse .query .ack :: rest
      simp [hrest]
    · intro hrun hs
      -- a running device has no closed socket, so there was no session and no strand
      have hnone : t.sessionSocket = none := by
        cases hsocket : t.sessionSocket with
        | none => rfl
        | some isOpen =>
          cases isOpen with
          | true => exact absurd hsocket hopen
          | false =>
            rw [hi.closed hsocket] at hrun
            cases hrun
      have hzero : t.strands = 0 := by
        by_contra hpos
        have := hs.serving (by omega)
        rw [hnone] at this
        cases this
      rw [strands_aside h rfl] at hzero
      refine ⟨?_, fun _ => rfl, ?_⟩
      · rw [strands_serves rfl rfl]
        exact Nat.succ_le_succ (Nat.le_of_eq hzero)
      · intro hsome
        cases hsome
    · intro hsome
      cases hsome
    · intro hsome
      cases hsome

theorem startAccept_inv (now : Int) (hi : t.Inv) (h : t.handler = .startAccept :: rest) :
    (t.handlerStep options now).Inv := by
  unfold handlerStep
  rw [h]
  refine hi.of_handler_aside h rfl rfl rfl (tick_not_mem_rest h hi) ?_ rfl rfl
    (fun hnone hs => hs.idle hnone) fun _ hr => hr
  exact (strands_aside h rfl).symm

theorem startPlaybackTimer_inv (now : Int) (hi : t.Inv) (h : t.handler = .startPlaybackTimer :: rest) :
    (t.handlerStep options now).Inv := by
  unfold handlerStep
  rw [h]
  refine hi.of_handler_aside h rfl rfl rfl (tick_not_mem_rest h hi) ?_ rfl rfl
    (fun hnone hs => hs.idle hnone) fun _ hr => hr
  exact (strands_aside h rfl).symm

theorem handleCommand_inv (now : Int) (hi : t.Inv) {command : Command}
    (h : t.handler = .handleCommand command :: rest) : (t.handlerStep options now).Inv := by
  unfold handlerStep
  rw [h]
  refine hi.of_handler_aside h rfl rfl rfl ?_ ?_ rfl rfl ?_ ?_
  · show _ ∉ HandlerStep.sendResponse command _ :: rest
    simp [tick_not_mem_rest h hi]
  · exact (strands_serves rfl rfl).trans (strands_serves h rfl).symm
  · intro hnone hs
    have hserved := (serving_cons h hs rfl).1
    rw [hnone] at hserved
    cases hserved
  · intro _ hr
    show TargetReset (t.log ++ if (command.run options t.state).resets then [.call .reset] else [])
    split
    · exact targetReset_reset t.log
    · exact hr.append_silent rfl

theorem sendResponse_inv (now : Int) (hi : t.Inv) {command : Command} {response : Response}
    (h : t.handler = .sendResponse command response :: rest) : (t.handlerStep options now).Inv := by
  have hrest := tick_not_mem_rest h hi
  by_cases hopen : t.sessionSocket = some true
  · have hrun : HandlerStep.run options now t (.sendResponse command response) =
        ({ t with log := t.log ++ [command.answer response t.state] }, [.startReadCommand]) :=
      congrArg (·, _) (if_pos hopen)
    rw [handlerStep_of h hrun]
    refine hi.of_handler_aside h rfl rfl rfl ?_ ?_ rfl rfl (fun hnone hs => hs.idle hnone) ?_
    · simp [hrest]
    · exact (strands_serves rfl rfl).trans (strands_serves h rfl).symm
    · exact fun _ hr => hr.append_silent (sinkCalls_answer _ _ _)
  · have hrun : HandlerStep.run options now t (.sendResponse command response) =
        (t, [.startReadCommand]) := congrArg (·, _) (if_neg hopen)
    rw [handlerStep_of h hrun]
    refine hi.of_handler_aside h rfl rfl rfl ?_ ?_ rfl rfl (fun hnone hs => hs.idle hnone) fun _ hr => hr
    · simp [hrest]
    · exact (strands_serves rfl rfl).trans (strands_serves h rfl).symm

theorem startReadCommand_inv (now : Int) (hi : t.Inv) (h : t.handler = .startReadCommand :: rest) :
    (t.handlerStep options now).Inv := by
  have hrest := tick_not_mem_rest h hi
  by_cases hopen : t.sessionSocket = some true
  · have hrun : HandlerStep.run options now t .startReadCommand =
        ({ t with reads := t.reads ++ [.pending] }, []) := if_pos hopen
    rw [handlerStep_of h hrun]
    refine hi.of_handler_aside h rfl rfl rfl hrest ?_ rfl rfl (fun hnone hs => hs.idle hnone) fun _ hr => hr
    show (t.reads ++ [Operation.pending]).length + rest.countP HandlerStep.Serves = _
    rw [strands_serves h rfl, List.length_append, List.length_singleton]
    omega
  · have hrun : HandlerStep.run options now t .startReadCommand = (t, [.clearSession]) := if_neg hopen
    rw [handlerStep_of h hrun]
    refine hi.of_handler_aside h rfl rfl rfl ?_ ?_ rfl rfl (fun hnone hs => hs.idle hnone) fun _ hr => hr
    · show _ ∉ HandlerStep.clearSession :: rest
      simp [hrest]
    · exact (strands_serves rfl rfl).trans (strands_serves h rfl).symm

theorem clearSession_inv (now : Int) (hi : t.Inv) (h : t.handler = .clearSession :: rest) :
    (t.handlerStep options now).Inv := by
  unfold handlerStep
  rw [h]
  refine hi.of_handler h rfl rfl rfl (tick_not_mem_rest h hi) ?_ ?_ fun _ _ => targetReset_reset t.log
  · intro _ hs
    obtain ⟨hsome, hzero⟩ := serving_cons h hs rfl
    have hstrands :
        strands { (HandlerStep.run options now t .clearSession).1 with handler := rest } = 0 := by
      show (if t.sessionSocket.isSome then t.reads.map (Operation.complete none) else t.reads).length +
        rest.countP HandlerStep.Serves = 0
      rw [if_pos hsome, List.length_map, hzero]
    refine ⟨?_, ?_, fun _ => (by decide : PlaybackState.idle ≠ .playing)⟩
    · exact hstrands.trans_le (Nat.zero_le 1)
    · intro hpos
      exact absurd hstrands (Nat.ne_of_gt hpos)
  · intro hsome
    cases hsome

/-- there is nothing to play when no session is left -/
theorem playbackSection_idle {s : DeviceState} (h : s.playbackState ≠ .playing) (now : Int) :
    playbackSection s now = (s, []) := by
  unfold playbackSection
  rw [if_pos (.inl h)]

theorem playbackTick_inv (now : Int) (hi : t.Inv) (h : t.handler = .playbackTick :: rest) :
    (t.handlerStep options now).Inv := by
  have hmay : t.Strand := hi.strand (.inr (by rw [h]; exact List.mem_cons_self))
  unfold handlerStep
  rw [h]
  refine hi.of_handler_aside h rfl rfl rfl (tick_not_mem_rest h hi) ?_ rfl rfl ?_ ?_
  · exact (strands_aside h rfl).symm
  · intro hnone hs
    show (playbackSection t.state now).1.playbackState ≠ .playing
    rw [playbackSection_idle (hs.idle hnone)]
    exact hs.idle hnone
  · intro hnone hr
    show TargetReset (t.log ++ ((playbackSubmission options (playbackSection t.state now).1.pointRate
      (playbackSection t.state now).2).map Output.call).toList)
    rw [playbackSection_idle (hmay.idle hnone)]
    exact hr.append_silent rfl

theorem handlerStep_inv (now : Int) (hi : t.Inv) : (t.handlerStep options now).Inv := by
  cases h : t.handler with
  | nil =>
    unfold handlerStep
    rw [h]
    exact hi
  | cons a rest =>
    cases a with
    | handleAccepted => exact handleAccepted_inv now hi h
    | startAccept => exact startAccept_inv now hi h
    | handleCommand command => exact handleCommand_inv now hi h
    | sendResponse command response => exact sendResponse_inv now hi h
    | startReadCommand => exact startReadCommand_inv now hi h
    | clearSession => exact clearSession_inv now hi h
    | playbackTick => exact playbackTick_inv now hi h
    | startPlaybackTimer => exact startPlaybackTimer_inv now hi h

/-! ## the client, the clock and the other thread -/

/-- What happens outside the handlers: it completes reads, closes the session and changes the rest. -/
theorem Inv.of_outside {t' : DeviceThreads} (hi : t.Inv) (hhandler : t'.handler = t.handler)
    (hreads : t'.reads.length = t.reads.length) (hlog : t'.log = t.log)
    (hsessions : t'.sessions = t.sessions)
    (hleft : t'.left = t.left) (hrunning : t'.running = true → t.running = true)
    (hsocket : t'.sessionSocket.isSome = t.sessionSocket.isSome)
    (hclosed : t'.sessionSocket = some false → t'.running = false)
    (hidle : t.state.playbackState ≠ .playing → t'.state.playbackState ≠ .playing)
    (hcalled : t'.stopping ≠ [] → t'.running = false)
    (hstops : t'.running = false → .join ∈ t'.stopping ∨ t.left = true) : t'.Inv := by
  have hnone : t'.sessionSocket = none → t.sessionSocket = none := by
    intro h
    rw [h] at hsocket
    exact Option.isSome_eq_false_iff.mp hsocket.symm |> Option.isNone_iff_eq_none.mp
  have hstrands : t'.strands = t.strands := by
    unfold strands
    rw [hreads, hhandler]
  refine ⟨?_, ?_, hclosed, ?_, hcalled, ?_, ?_⟩
  · intro htick
    have hs : t.Strand := by
      refine hi.strand ?_
      rcases htick with hrun | hmem
      · exact .inl (hrunning hrun)
      · exact .inr (by rwa [hhandler] at hmem)
    refine ⟨hstrands.trans_le hs.one, ?_, fun h => hidle (hs.idle (hnone h))⟩
    intro hpos
    rw [hsocket]
    exact hs.serving (by omega)
  · rw [hhandler]
    exact hi.ticking
  · intro h hcount
    rw [hlog]
    exact hi.cleared (hnone h) (by omega)
  · rw [hleft]
    exact hstops
  · intro h
    rw [hleft] at h
    refine ⟨hhandler.trans (hi.leaves h).1, ?_⟩
    have hgone := (hi.leaves h).2
    rw [hgone] at hsocket
    exact Option.isNone_iff_eq_none.mp (Option.isSome_eq_false_iff.mp hsocket)

theorem handler_of_mayCall (hmay : t.mayCall = true) : t.handler = [] := by
  unfold mayCall at hmay
  simp only [Bool.and_eq_true] at hmay
  exact List.isEmpty_iff.mp hmay.1.1

/-- a handler that is called, by what it has taken of the reads -/
theorem Inv.of_call {t' : DeviceThreads} (hi : t.Inv) (hmay : t.mayCall = true)
    (hreads : t'.strands ≤ t.reads.length) (hstate : t'.state = t.state) (hlog : t'.log = t.log)
    (hsessions : t'.sessions = t.sessions) (hleft : t'.left = t.left) (hrunning : t'.running = t.running)
    (hsocket : t'.sessionSocket = t.sessionSocket) (hstopping : t'.stopping = t.stopping)
    (hticks : .playbackTick ∈ t'.handler →
      t.running = true ∧ t'.handler = [.playbackTick, .startPlaybackTimer]) : t'.Inv := by
  have hnotleft : t.left = false := by
    unfold mayCall at hmay
    simp only [Bool.and_eq_true, Bool.not_eq_true'] at hmay
    exact hmay.2
  have hmine : t.reads.length ≤ t.strands := Nat.le_add_right _ _
  refine ⟨?_, fun hmem => (hticks hmem).2, ?_, ?_, ?_, ?_, ?_⟩
  · intro htick
    have hs : t.Strand := by
      refine hi.strand (.inl ?_)
      rcases htick with hrun | hmem
      · rw [← hrunning, hrun]
      · exact (hticks hmem).1
    have hone := hs.one
    refine ⟨by omega, ?_, ?_⟩
    · intro hpos
      rw [hsocket]
      exact hs.serving (by omega)
    · rw [hsocket, hstate]
      exact hs.idle
  · rw [hsocket, hrunning]
    exact hi.closed
  · rw [hsocket, hsessions, hlog]
    exact hi.cleared
  · rw [hstopping, hrunning]
    exact hi.called
  · rw [hrunning, hstopping, hleft]
    exact hi.stops
  · intro h
    rw [hleft, hnotleft] at h
    cases h

theorem callAccept_inv (hi : t.Inv) (hmay : t.mayCall = true) : t.callAccept.Inv := by
  unfold callAccept
  split
  · rename_i ok _
    have hserves : (if t.running then (if ok then [HandlerStep.handleAccepted] else []) ++ [.startAccept]
        else []).countP HandlerStep.Serves = 0 := by
      cases t.running <;> cases ok <;> rfl
    refine hi.of_call hmay ?_ rfl rfl rfl rfl rfl rfl rfl ?_
    · show t.reads.length + _ ≤ _
      rw [hserves]
      exact Nat.le_refl _
    · intro hmem
      change HandlerStep.playbackTick ∈ (if t.running then
        (if ok then [HandlerStep.handleAccepted] else []) ++ [.startAccept] else []) at hmem
      cases t.running <;> cases ok <;> simp at hmem
  · exact hi

theorem callRead_inv (hi : t.Inv) (hmay : t.mayCall = true) (read : Nat) : (t.callRead read).Inv := by
  unfold callRead
  split
  · rename_i command hready
    have hlt : read < t.reads.length := (List.getElem?_eq_some_iff.mp hready).1
    refine hi.of_call hmay ?_ rfl rfl rfl rfl rfl rfl rfl ?_
    · -- the handler takes the place of the read
      show (t.reads.eraseIdx read).length + List.countP _ _ ≤ t.reads.length
      rw [List.length_eraseIdx_of_lt hlt]
      cases command with
      | some command =>
        show t.reads.length - 1 + 1 ≤ t.reads.length
        omega
      | none =>
        show t.reads.length - 1 + 1 ≤ t.reads.length
        omega
    · intro hmem
      cases command with
      | some command => simp at hmem
      | none => simp at hmem
  · exact hi

theorem callTimer_inv (hi : t.Inv) (hmay : t.mayCall = true) : t.callTimer.Inv := by
  unfold callTimer
  split
  · rename_i ok _
    have hserves : (if ok && t.running then [HandlerStep.playbackTick, .startPlaybackTimer]
        else []).countP HandlerStep.Serves = 0 := by
      cases t.running <;> cases ok <;> rfl
    refine hi.of_call hmay ?_ rfl rfl rfl rfl rfl rfl rfl ?_
    · show t.reads.length + _ ≤ _
      rw [hserves]
      exact Nat.le_refl _
    · intro hmem
      change HandlerStep.playbackTick ∈ (if ok && t.running then _ else _) at hmem
      show t.running = true ∧ (if ok && t.running then _ else _) = _
      by_cases hok : (ok && t.running) = true
      · rw [if_pos hok]
        exact ⟨(Bool.and_eq_true_iff.mp hok).2, rfl⟩
      · rw [if_neg hok] at hmem
        cases hmem
  · exact hi

/-- The I/O thread leaves its loop without a session. -/
theorem leave_inv (hi : t.Inv) (hmay : t.mayLeave = true) (hnone : t.sessionSocket = none) :
    Inv { t with left := true } := by
  have hempty : t.handler = [] := by
    unfold mayLeave at hmay
    rw [Bool.and_eq_true] at hmay
    exact List.isEmpty_iff.mp hmay.1
  exact ⟨fun htick => ⟨(hi.strand htick).one, (hi.strand htick).serving, (hi.strand htick).idle⟩,
    hi.ticking,
    hi.closed, hi.cleared, hi.called, fun _ => .inr rfl, fun _ => ⟨hempty, hnone⟩⟩

theorem stop_inv (hi : t.Inv) : Inv { t with running := false, stopping := stopSteps } :=
  hi.of_outside rfl rfl rfl rfl rfl (fun h => by cases h) rfl (fun _ => rfl) (fun h => h) (fun _ => rfl)
    fun _ => .inl (show .join ∈ stopSteps by decide)

theorem stopStep_of {a : StopStep} {rest : List StopStep} {t' : DeviceThreads}
    (h : t.stopping = a :: rest)
    (hrun : a.run options t = some t') : t.stopStep options = { t' with stopping := rest } := by
  unfold stopStep
  rw [h]
  show (match a.run options t with
    | none => t
    | some t' => { t' with stopping := rest }) = _
  rw [hrun]

theorem stopStep_waits {a : StopStep} {rest : List StopStep} (h : t.stopping = a :: rest)
    (hrun : a.run options t = none) : t.stopStep options = t := by
  unfold stopStep
  rw [h]
  show (match a.run options t with
    | none => t
    | some t' => { t' with stopping := rest }) = _
  rw [hrun]

/-- what is left of a call of `stop` has the wait for the I/O thread in it until that is over -/
theorem stopStep_inv (hi : t.Inv) : (t.stopStep options).Inv := by
  cases h : t.stopping with
  | nil =>
    unfold stopStep
    rw [h]
    exact hi
  | cons a rest =>
    have hrunning : t.running = false := hi.called (by rw [h]; exact List.cons_ne_nil _ _)
    have hstops : a ≠ .join → .join ∈ rest ∨ t.left = true := by
      intro ha
      rcases hi.stops hrunning with hmem | hleft
      · rw [h] at hmem
        rcases List.mem_cons.mp hmem with heq | hrest
        · exact absurd heq.symm ha
        · exact .inl hrest
      · exact .inr hleft
    have hclosed : ∀ u : DeviceThreads, u.running = t.running → u.sessionSocket = some false →
        u.running = false := fun u hu _ => hu.trans hrunning
    cases a with
    | closeAcceptor =>
      rw [stopStep_of h rfl]
      exact hi.of_outside rfl rfl rfl rfl rfl id rfl (hclosed _ rfl) id (fun _ => hrunning)
        fun _ => hstops StopStep.noConfusion
    | cancelPlaybackTimer =>
      rw [stopStep_of h rfl]
      exact hi.of_outside rfl rfl rfl rfl rfl id rfl (hclosed _ rfl) id (fun _ => hrunning)
        fun _ => hstops StopStep.noConfusion
    | closeSession =>
      by_cases hsome : t.sessionSocket.isSome = true
      · rw [stopStep_of h (if_pos hsome)]
        refine hi.of_outside rfl (List.length_map _) rfl rfl rfl id ?_ (hclosed _ rfl) id (fun _ => hrunning)
          fun _ => hstops StopStep.noConfusion
        exact hsome.symm
      · rw [stopStep_of h (if_neg hsome)]
        exact hi.of_outside rfl rfl rfl rfl rfl id rfl (hclosed _ rfl) id (fun _ => hrunning)
          fun _ => hstops StopStep.noConfusion
    | stopLoop =>
      rw [stopStep_of h rfl]
      exact hi.of_outside rfl rfl rfl rfl rfl id rfl (hclosed _ rfl) id (fun _ => hrunning)
        fun _ => hstops StopStep.noConfusion
    | join =>
      by_cases hleft : t.left = true
      · rw [stopStep_of h (if_pos hleft)]
        exact hi.of_outside rfl rfl rfl rfl rfl id rfl (hclosed _ rfl) id (fun _ => hrunning)
          fun _ => .inr hleft
      · rw [stopStep_waits h (if_neg hleft)]
        exact hi
    | resetState =>
      rw [stopStep_of h rfl]
      have hidle : (resetState options t.state).playbackState ≠ .playing :=
        (by decide : PlaybackState.idle ≠ .playing)
      exact hi.of_outside rfl rfl rfl rfl rfl id rfl (hclosed _ rfl) (fun _ => hidle) (fun _ => hrunning)
        fun _ => hstops StopStep.noConfusion

/-- the I/O thread leaves its loop without a session, if it does so in this step -/
def LeavesCleared (t : DeviceThreads) : ThreadStep → Prop
  | .leave => t.mayLeave = true → t.sessionSocket = none
  | _ => True

instance (t : DeviceThreads) : DecidablePred t.LeavesCleared
  | .leave => inferInstanceAs (Decidable (_ → _))
  | .accepted _ | .received _ _ | .elapsed | .callAccept | .callRead _ | .callTimer | .handler _ | .stop
  | .stopper => .isTrue trivial

/-- **One step of the threads** -/
theorem step_inv (hi : t.Inv) (i : ThreadStep) (hleaves : t.LeavesCleared i) :
    (t.step options i).Inv := by
  have hoff : t.sessionSocket = some false → t.running = false := hi.closed
  cases i with
  | accepted ok => exact hi.of_outside rfl rfl rfl rfl rfl id rfl hoff id hi.called hi.stops
  | received read command =>
    exact hi.of_outside rfl (List.length_modify _ _ _) rfl rfl rfl id rfl hoff id hi.called hi.stops
  | elapsed => exact hi.of_outside rfl rfl rfl rfl rfl id rfl hoff id hi.called hi.stops
  | callAccept =>
    show Inv (if t.mayCall then t.callAccept else t)
    split
    · exact callAccept_inv hi ‹_›
    · exact hi
  | callRead read =>
    show Inv (if t.mayCall then t.callRead read else t)
    split
    · exact callRead_inv hi ‹_› read
    · exact hi
  | callTimer =>
    show Inv (if t.mayCall then t.callTimer else t)
    split
    · exact callTimer_inv hi ‹_›
    · exact hi
  | handler now => exact handlerStep_inv now hi
  | leave =>
    show Inv (if t.mayLeave then { t with left := true } else t)
    split
    · exact leave_inv hi ‹_› (hleaves ‹_›)
    · exact hi
  | stop =>
    show Inv (if t.stopping ≠ [] ∨ !t.running ∧ !t.joinable then t
      else { t with running := false, stopping := stopSteps })
    split
    · exact hi
    · exact stop_inv hi
  | stopper => exact stopStep_inv hi

end

end DeviceThreads

end LiberaLink.EtherDream
