import LiberaLink.EtherDream.Threads

/-!
# Stopping a device

* `follows_device`         **until it is stopped, the device is the one that serves a command or a tick in one
                           step**;
* `session_end_resets`     **a session that has ended leaves its target reset**, in every run in which the I/O
                           thread leaves its loop without a session.
-/

namespace LiberaLink.EtherDream
open Stepwise

/-! ## a device that is not stopped -/

namespace DeviceThreads

/-- what the handler that is called is about to send -/
def owed (t : DeviceThreads) : List Output :=
  match t.handler with
  | .sendResponse command response :: _ => [command.answer response t.state]
  | _ => []

/-- the device as one that serves a command or a tick in one step -/
def device (t : DeviceThreads) : Device where
  state := t.state
  connected := t.sessionSocket.isSome
  log := t.log ++ t.owed

/-- what holds until a device is stopped -/
structure Unstopped (t : DeviceThreads) : Prop where
  inv : t.Inv
  running : t.running = true
  stopping : t.stopping = []
  loop : t.loopStopped = false
  accepting : t.accept.isSome ∨ .startAccept ∈ t.handler
  aside : ∀ a ∈ t.handler.tail, a.Serves = false

theorem started_unstopped : started.Unstopped := by
  refine ⟨started_inv, rfl, rfl, rfl, .inl rfl, ?_⟩
  intro a ha
  cases ha

section
variable {options : HostOptions} {t : DeviceThreads} {a : HandlerStep} {rest : List HandlerStep}

theorem owed_aside (h : ∀ a ∈ t.handler, a.Serves = false) : t.owed = [] := by
  unfold owed
  split
  · rename_i heq
    have hserves := h _ (by rw [heq]; exact List.mem_cons_self)
    cases hserves
  · rfl

theorem device_of_silent (h : t.owed = []) : t.device = ⟨t.state, t.sessionSocket.isSome, t.log⟩ := by
  unfold device
  rw [h, List.append_nil]

/-- the handler that is called serves the session only in its first step -/
theorem Unstopped.rest_aside (hu : t.Unstopped) (h : t.handler = a :: rest) :
    ∀ b ∈ rest, b.Serves = false := by
  have haside := hu.aside
  rwa [h] at haside

theorem Unstopped.served (hu : t.Unstopped) (h : t.handler = a :: rest) (ha : a.Serves = true) :
    t.sessionSocket = some true := by
  have hsome := (serving_cons h (hu.inv.strand (.inl hu.running)) ha).1
  cases hsocket : t.sessionSocket with
  | none =>
    rw [hsocket] at hsome
    cases hsome
  | some isOpen =>
    cases isOpen with
    | true => rfl
    | false =>
      have hrunning := hu.inv.closed hsocket
      rw [hu.running] at hrunning
      cases hrunning

theorem Unstopped.of_handler {now : Int} {t' : DeviceThreads} {more : List HandlerStep} (hu : t.Unstopped)
    (h : t.handler = a :: rest) (hrun : a.run options now t = (t', more))
    (hrunning : t'.running = t.running)
    (hstopping : t'.stopping = t.stopping) (hloop : t'.loopStopped = t.loopStopped)
    (haccept : a = .startAccept ∧ t'.accept.isSome ∨ a ≠ .startAccept ∧ t'.accept = t.accept)
    (hmore : more.length ≤ 1) : (t.handlerStep options now).Unstopped := by
  have hinv : (t.handlerStep options now).Inv := handlerStep_inv now hu.inv
  rw [handlerStep_of h hrun] at hinv ⊢
  refine ⟨hinv, hrunning.trans hu.running, hstopping.trans hu.stopping, hloop.trans hu.loop, ?_, ?_⟩
  · rcases haccept with ⟨_, hsome⟩ | ⟨hne, hsame⟩
    · exact .inl hsome
    · rcases hu.accepting with hsome | hmem
      · exact .inl (by rw [hsame]; exact hsome)
      · rw [h] at hmem
        rcases List.mem_cons.mp hmem with heq | hrest
        · exact absurd heq.symm hne
        · exact .inr (List.mem_append_right _ hrest)
  · intro b hb
    refine hu.rest_aside h b ?_
    match more, hmore, hb with
    | [], _, hb => exact List.mem_of_mem_tail hb
    | [_], _, hb => exact hb

/-- A step that is none of the device, or serves a whole command or tick. -/
def Follows (options : HostOptions) (t t' : DeviceThreads) : Prop :=
  t'.Unstopped ∧ (t'.device = t.device ∨ ∃ e, t'.device = t.device.step options e)

/-- behind the handler that is called, nothing is about to be sent -/
theorem Unstopped.rest_owed (hu : t.Unstopped) (h : t.handler = a :: rest) {t' : DeviceThreads}
    (h' : t'.handler = rest) : t'.owed = [] :=
  owed_aside (by rw [h']; exact hu.rest_aside h)

/-- nor by a handler that does not serve the session -/
theorem Unstopped.aside_owed (hu : t.Unstopped) (h : t.handler = a :: rest) (ha : a.Serves = false) :
    t.owed = [] :=
  owed_aside (by rw [h]; exact List.forall_mem_cons.mpr ⟨ha, hu.rest_aside h⟩)

theorem Unstopped.connected (hu : t.Unstopped) (h : t.handler = a :: rest) (ha : a.Serves = true) :
    t.device.connected = true := by
  show t.sessionSocket.isSome = true
  rw [hu.served h ha]
  rfl

theorem handleAccepted_follows (now : Int) (hu : t.Unstopped) (h : t.handler = .handleAccepted :: rest) :
    Follows options t (t.handlerStep options now) := by
  have hzero : t.owed = [] := hu.aside_owed h rfl
  by_cases hopen : t.sessionSocket = some true
  · have hrun : HandlerStep.run options now t .handleAccepted = (t, []) := if_pos hopen
    refine ⟨hu.of_handler h hrun rfl rfl rfl (.inr ⟨HandlerStep.noConfusion, rfl⟩) (Nat.zero_le 1),
      .inl ?_⟩
    rw [handlerStep_of h hrun, device_of_silent (hu.rest_owed h rfl), device_of_silent hzero]
  · have hnone : t.sessionSocket = none := by
      cases hsocket : t.sessionSocket with
      | none => rfl
      | some isOpen =>
        cases isOpen with
        | true => exact absurd hsocket hopen
        | false =>
          have hrunning := hu.inv.closed hsocket
          rw [hu.running] at hrunning
          cases hrunning
    have hrun : HandlerStep.run options now t .handleAccepted = _ := if_neg hopen
    refine ⟨hu.of_handler h hrun rfl rfl rfl (.inr ⟨HandlerStep.noConfusion, rfl⟩) (Nat.le_refl 1),
      .inr ⟨.connect, ?_⟩⟩
    have haway : t.device.connected = false := by
      show t.sessionSocket.isSome = false
      rw [hnone]
      rfl
    rw [handlerStep_of h hrun, step_connect haway, device_of_silent hzero]
    rfl

theorem handleCommand_follows (now : Int) (hu : t.Unstopped) {command : Command}
    (h : t.handler = .handleCommand command :: rest) : Follows options t (t.handlerStep options now) := by
  refine ⟨hu.of_handler h rfl rfl rfl rfl (.inr ⟨HandlerStep.noConfusion, rfl⟩) (Nat.le_refl 1),
    .inr ⟨.command command, ?_⟩⟩
  have hzero : t.owed = [] := by
    unfold owed
    rw [h]
  rw [handlerStep_of h rfl, step_command (hu.connected h rfl), device_of_silent hzero]
  show Device.mk _ _ ((t.log ++ _) ++ [_]) = Device.mk _ _ (t.log ++ (_ ++ [_]))
  rw [List.append_assoc]

theorem sendResponse_follows (now : Int) (hu : t.Unstopped) {command : Command} {response : Response}
    (h : t.handler = .sendResponse command response :: rest) :
    Follows options t (t.handlerStep options now) := by
  have hrun : HandlerStep.run options now t (.sendResponse command response) =
      ({ t with log := t.log ++ [command.answer response t.state] }, [.startReadCommand]) :=
    congrArg (·, _) (if_pos (hu.served h rfl))
  refine ⟨hu.of_handler h hrun rfl rfl rfl (.inr ⟨HandlerStep.noConfusion, rfl⟩) (Nat.le_refl 1),
    .inl ?_⟩
  have howes : t.owed = [command.answer response t.state] := by
    unfold owed
    rw [h]
  rw [handlerStep_of h hrun, device_of_silent rfl, device, howes]

theorem startReadCommand_follows (now : Int) (hu : t.Unstopped)
    (h : t.handler = .startReadCommand :: rest) : Follows options t (t.handlerStep options now) := by
  have hrun : HandlerStep.run options now t .startReadCommand =
      ({ t with reads := t.reads ++ [.pending] }, []) := if_pos (hu.served h rfl)
  refine ⟨hu.of_handler h hrun rfl rfl rfl (.inr ⟨HandlerStep.noConfusion, rfl⟩) (Nat.zero_le 1),
    .inl ?_⟩
  have hzero : t.owed = [] := by
    unfold owed
    rw [h]
  rw [handlerStep_of h hrun, device_of_silent (hu.rest_owed h rfl), device_of_silent hzero]

theorem clearSession_follows (now : Int) (hu : t.Unstopped) (h : t.handler = .clearSession :: rest) :
    Follows options t (t.handlerStep options now) := by
  refine ⟨hu.of_handler h rfl rfl rfl rfl (.inr ⟨HandlerStep.noConfusion, rfl⟩) (Nat.zero_le 1),
    .inr ⟨.disconnect, ?_⟩⟩
  have hzero : t.owed = [] := by
    unfold owed
    rw [h]
  rw [handlerStep_of h rfl, step_disconnect (hu.connected h rfl), device_of_silent (hu.rest_owed h rfl),
    device_of_silent hzero]
  rfl

/-- the steps of the handlers -/
theorem handlerStep_follows (now : Int) (hu : t.Unstopped) (h : t.handler = a :: rest) :
    Follows options t (t.handlerStep options now) := by
  cases a with
  | handleAccepted => exact handleAccepted_follows now hu h
  | startAccept =>
    refine ⟨hu.of_handler h rfl rfl rfl rfl (.inl ⟨rfl, rfl⟩) (Nat.zero_le 1), .inl ?_⟩
    rw [handlerStep_of h rfl, device_of_silent (hu.rest_owed h rfl), device_of_silent (hu.aside_owed h rfl)]
  | handleCommand command => exact handleCommand_follows now hu h
  | sendResponse command response => exact sendResponse_follows now hu h
  | startReadCommand => exact startReadCommand_follows now hu h
  | clearSession => exact clearSession_follows now hu h
  | playbackTick =>
    refine ⟨hu.of_handler h rfl rfl rfl rfl (.inr ⟨HandlerStep.noConfusion, rfl⟩) (Nat.zero_le 1),
      .inr ⟨.tick now, ?_⟩⟩
    rw [handlerStep_of h rfl, device_of_silent (hu.rest_owed h rfl),
      device_of_silent (hu.aside_owed h rfl)]
    rfl
  | startPlaybackTimer =>
    refine ⟨hu.of_handler h rfl rfl rfl rfl (.inr ⟨HandlerStep.noConfusion, rfl⟩) (Nat.zero_le 1),
      .inl ?_⟩
    rw [handlerStep_of h rfl, device_of_silent (hu.rest_owed h rfl), device_of_silent (hu.aside_owed h rfl)]

/-- a step outside the handlers -/
theorem Unstopped.of_outside {t' : DeviceThreads} (hu : t.Unstopped) (hinv : t'.Inv)
    (hrunning : t'.running = t.running) (hstopping : t'.stopping = t.stopping)
    (hloop : t'.loopStopped = t.loopStopped) (haccept : t'.accept.isSome = t.accept.isSome)
    (hhandler : t'.handler = t.handler) : t'.Unstopped := by
  refine ⟨hinv, hrunning.trans hu.running, hstopping.trans hu.stopping, hloop.trans hu.loop, ?_, ?_⟩
  · rw [haccept, hhandler]
    exact hu.accepting
  · rw [hhandler]
    exact hu.aside

/-- a handler that is called -/
theorem Unstopped.of_call {t' : DeviceThreads} (hu : t.Unstopped) (hmay : t.mayCall = true)
    (hinv : t'.Inv)
    (hrunning : t'.running = t.running) (hstopping : t'.stopping = t.stopping)
    (hloop : t'.loopStopped = t.loopStopped) (haccept : t'.accept = t.accept ∨ .startAccept ∈ t'.handler)
    (haside : ∀ b ∈ t'.handler.tail, b.Serves = false) : t'.Unstopped := by
  refine ⟨hinv, hrunning.trans hu.running, hstopping.trans hu.stopping, hloop.trans hu.loop, ?_, haside⟩
  rcases haccept with hsame | hmem
  · rcases hu.accepting with hsome | hmem
    · exact .inl (by rw [hsame]; exact hsome)
    · rw [handler_of_mayCall hmay] at hmem
      cases hmem
  · exact .inr hmem

theorem device_of_call {t' : DeviceThreads} (hmay : t.mayCall = true) (hstate : t'.state = t.state)
    (hsocket : t'.sessionSocket = t.sessionSocket) (hlog : t'.log = t.log) (howed : t'.owed = []) :
    t'.device = t.device := by
  have hzero : t.owed = [] := owed_aside (by rw [handler_of_mayCall hmay]; exact List.forall_mem_nil _)
  rw [device_of_silent howed, device_of_silent hzero, hstate, hsocket, hlog]

theorem callAccept_follows (hu : t.Unstopped) (hmay : t.mayCall = true) :
    t.callAccept.Unstopped ∧ t.callAccept.device = t.device := by
  have hinv := callAccept_inv hu.inv hmay
  unfold callAccept at hinv ⊢
  cases haccept : t.accept with
  | none => exact ⟨hu, rfl⟩
  | some op =>
    rw [haccept] at hinv
    cases op with
    | pending => exact ⟨hu, rfl⟩
    | ready ok =>
      have hhandler : (if t.running then (if ok then [HandlerStep.handleAccepted] else []) ++ [.startAccept]
          else []) = (if ok then [.handleAccepted] else []) ++ [.startAccept] := if_pos hu.running
      have haside : ∀ b ∈ (if ok then [HandlerStep.handleAccepted] else []) ++ [.startAccept],
          b.Serves = false := by
        cases ok <;> decide
      refine ⟨hu.of_call hmay hinv rfl rfl rfl (.inr ?_) ?_,
        device_of_call hmay rfl rfl rfl (owed_aside ?_)⟩
      · show _ ∈ (if t.running then _ else _)
        rw [hhandler]
        exact List.mem_append_right _ List.mem_cons_self
      · show ∀ b ∈ (if t.running then _ else _ : List HandlerStep).tail, _
        rw [hhandler]
        exact fun b hb => haside b (List.mem_of_mem_tail hb)
      · show ∀ b ∈ (if t.running then _ else _), _
        rw [hhandler]
        exact haside

theorem callRead_follows (hu : t.Unstopped) (hmay : t.mayCall = true) (read : Nat) :
    (t.callRead read).Unstopped ∧ (t.callRead read).device = t.device := by
  have hinv := callRead_inv hu.inv hmay read
  unfold callRead at hinv ⊢
  cases hread : t.reads[read]? with
  | none => exact ⟨hu, rfl⟩
  | some op =>
    rw [hread] at hinv
    cases op with
    | pending => exact ⟨hu, rfl⟩
    | ready command =>
      cases command with
      | some command =>
        exact ⟨hu.of_call hmay hinv rfl rfl rfl (.inl rfl) (List.forall_mem_nil _),
          device_of_call hmay rfl rfl rfl rfl⟩
      | none =>
        exact ⟨hu.of_call hmay hinv rfl rfl rfl (.inl rfl) (List.forall_mem_nil _),
          device_of_call hmay rfl rfl rfl rfl⟩

theorem callTimer_follows (hu : t.Unstopped) (hmay : t.mayCall = true) :
    t.callTimer.Unstopped ∧ t.callTimer.device = t.device := by
  have hinv := callTimer_inv hu.inv hmay
  unfold callTimer at hinv ⊢
  cases htimer : t.playbackTimer with
  | none => exact ⟨hu, rfl⟩
  | some op =>
    rw [htimer] at hinv
    cases op with
    | pending => exact ⟨hu, rfl⟩
    | ready ok =>
      have haside : ∀ b ∈
          (if ok && t.running then [HandlerStep.playbackTick, .startPlaybackTimer] else []),
          b.Serves = false := by
        cases ok <;> cases t.running <;> decide
      exact ⟨hu.of_call hmay hinv rfl rfl rfl (.inl rfl) fun b hb => haside b (List.mem_of_mem_tail hb),
        device_of_call hmay rfl rfl rfl (owed_aside haside)⟩

theorem step_follows (hu : t.Unstopped) (i : ThreadStep) (hi : i ≠ .stop) :
    Follows options t (t.step options i) := by
  -- the loop always waits for the next client, so that the I/O thread does not leave it
  have hstay : t.mayLeave = false := by
    by_contra hmay
    rw [Bool.not_eq_false] at hmay
    unfold mayLeave at hmay
    rw [Bool.and_eq_true, hu.loop, Bool.false_or, Bool.and_eq_true, Bool.and_eq_true] at hmay
    rcases hu.accepting with hsome | hmem
    · rw [Option.isNone_iff_eq_none.mp hmay.2.1.1] at hsome
      cases hsome
    · rw [List.isEmpty_iff.mp hmay.1] at hmem
      cases hmem
  have hinv : (t.step options i).Inv := by
    refine step_inv hu.inv i ?_
    cases i with
    | leave =>
      intro hmay
      rw [hstay] at hmay
      cases hmay
    | _ => exact trivial
  cases i with
  | accepted ok => exact ⟨hu.of_outside hinv rfl rfl rfl Option.isSome_map rfl, .inl rfl⟩
  | received read command => exact ⟨hu.of_outside hinv rfl rfl rfl rfl rfl, .inl rfl⟩
  | elapsed => exact ⟨hu.of_outside hinv rfl rfl rfl rfl rfl, .inl rfl⟩
  | callAccept =>
    by_cases hmay : t.mayCall = true
    · rw [show t.step options .callAccept = _ from if_pos hmay]
      exact ⟨(callAccept_follows hu hmay).1, .inl (callAccept_follows hu hmay).2⟩
    · rw [show t.step options .callAccept = t from if_neg hmay]
      exact ⟨hu, .inl rfl⟩
  | callRead read =>
    by_cases hmay : t.mayCall = true
    · rw [show t.step options (.callRead read) = _ from if_pos hmay]
      exact ⟨(callRead_follows hu hmay read).1, .inl (callRead_follows hu hmay read).2⟩
    · rw [show t.step options (.callRead read) = t from if_neg hmay]
      exact ⟨hu, .inl rfl⟩
  | callTimer =>
    by_cases hmay : t.mayCall = true
    · rw [show t.step options .callTimer = _ from if_pos hmay]
      exact ⟨(callTimer_follows hu hmay).1, .inl (callTimer_follows hu hmay).2⟩
    · rw [show t.step options .callTimer = t from if_neg hmay]
      exact ⟨hu, .inl rfl⟩
  | handler now =>
    cases h : t.handler with
    | nil =>
      have hsame : t.step options (.handler now) = t := by
        show t.handlerStep options now = t
        unfold handlerStep
        rw [h]
      rw [hsame]
      exact ⟨hu, .inl rfl⟩
    | cons a rest => exact handlerStep_follows now hu h
  | leave =>
    have hsame : t.step options .leave = t := if_neg (by rw [hstay]; exact Bool.false_ne_true)
    rw [hsame]
    exact ⟨hu, .inl rfl⟩
  | stop => exact absurd rfl hi
  | stopper =>
    have hsame : t.step options .stopper = t := by
      show t.stopStep options = t
      unfold stopStep
      rw [hu.stopping]
    rw [hsame]
    exact ⟨hu, .inl rfl⟩

end

end DeviceThreads

open DeviceThreads in
/-- **Until it is stopped, the device serves a command or a tick in one step**: whenever no handler is
called, the two threads have brought about what some events bring about one by one. -/
theorem follows_device (options : HostOptions) (steps : List ThreadStep) (hsteps : .stop ∉ steps) :
    let t := steps.foldl (DeviceThreads.step options) started
    t.handler = [] → ∃ events : List Event, events.foldl (Device.step options) {} =
      ⟨t.state, t.sessionSocket.isSome, t.log⟩ := by
  intro t hquiet
  have hrun : t.Unstopped ∧ ∃ events : List Event, events.foldl (Device.step options) {} = t.device := by
    have hreach : Reach (DeviceThreads.step options) (fun _ i => i ≠ .stop) started t := by
      refine Reach.of_forall steps fun _ i hi => ?_
      rintro rfl
      exact hsteps hi
    refine hreach.invariant (P := fun t => t.Unstopped ∧
      ∃ events : List Event, events.foldl (Device.step options) {} = t.device)
      ⟨started_unstopped, [], rfl⟩ ?_
    rintro mid i ⟨hu, events, hevents⟩ hi
    obtain ⟨hu', hsame | ⟨e, he⟩⟩ := step_follows hu i hi
    · exact ⟨hu', events, hevents.trans hsame.symm⟩
    · refine ⟨hu', events ++ [e], ?_⟩
      rw [List.foldl_append, hevents, List.foldl_cons, List.foldl_nil, he]
  obtain ⟨_, events, hevents⟩ := hrun
  refine ⟨events, ?_⟩
  rw [hevents, device_of_silent (owed_aside (by rw [hquiet]; exact List.forall_mem_nil _))]

/-! ## sessions that end -/

open DeviceThreads

/-- **A session that has ended leaves its target reset**, after each step of each run of a device that
is started, serves its clients and may be stopped at any time, if whenever the I/O thread leaves its
loop, the handler of the read that the stop has aborted has been called. -/
theorem session_end_resets (options : HostOptions) (steps : List ThreadStep)
    (hleaves : Allowed (DeviceThreads.step options) LeavesCleared started steps) :
    SessionEndResets (steps.foldl (DeviceThreads.step options) started) := by
  have hinv : (steps.foldl (DeviceThreads.step options) started).Inv :=
    hleaves.history (P := fun _ t => t.Inv) started_inv fun _ _ i hi hi' => step_inv hi i hi'
  exact hinv.ends

/-- a handler is called and takes its steps -/
def called (call : ThreadStep) (now : Int) (count : Nat) : List ThreadStep :=
  call :: List.replicate count (.handler now)

/-- A client comes, prepares the device, sends two points and begins playback; the timer plays the first
of them. -/
def playing : List ThreadStep :=
  .accepted true :: called .callAccept 0 4 ++
    [.received 0 (some .prepare)] ++ called (.callRead 0) 0 3 ++
    [.received 0 (some (.data [⟨⟨0, 0, 0, 0, 0, 0, 0, 0⟩, 0⟩, ⟨⟨1, 0, 0, 0, 0, 0, 0, 0⟩, 0⟩]))] ++
      called (.callRead 0) 0 3 ++
    [.received 0 (some (.begin false 1000))] ++ called (.callRead 0) 0 3 ++
    .elapsed :: called .callTimer 0 2 ++ .elapsed :: called .callTimer 1000000 2

/-- the device is stopped, and the loop as well, before the handler of the aborted read is called -/
def stoppedAtOnce : List ThreadStep :=
  playing ++ .stop :: List.replicate 4 .stopper ++ [.leave, .stopper, .stopper]

/-- the same with the handler of the aborted read called in time -/
def stoppedInTime : List ThreadStep :=
  playing ++ .stop :: List.replicate 3 .stopper ++ called (.callRead 0) 1000000 1 ++
    [.stopper, .leave, .stopper, .stopper]

theorem session_end_resets_in_time :
    SessionEndResets (stoppedInTime.foldl (DeviceThreads.step defaultOptions) started) ∧
      (stoppedInTime.foldl (DeviceThreads.step defaultOptions) started).Stopped :=
  ⟨session_end_resets defaultOptions stoppedInTime (by decide +kernel), by decide +kernel⟩

/-- The loop is stopped before the handler of the aborted read is called, and the point that was played
last stays at the target. -/
theorem stop_leaves_points : ¬ ∀ (options : HostOptions) (steps : List ThreadStep),
    SessionEndResets (steps.foldl (DeviceThreads.step options) started) := by
  intro h
  exact absurd (h defaultOptions stoppedAtOnce) (by decide +kernel)

end LiberaLink.EtherDream
