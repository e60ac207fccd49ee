import LiberaLink.Idn.Driver

/-!
# The IDN host

The host starts a session for each of its targets, with a driver thread and a service of the server, and then
the server.  Each way in which that can fail has a cleanup of its own.

* `IdnHost.start`, `IdnHost.stop`   the calls of the host;
* `startSessions_eq`                what the loop over the targets has made when it ends;
* `IdnHost.Inv`, `inv_of_calls`     the driver threads are those of the sessions;
* `start_reports_iff`               **what a start reports is what it leaves**, unless there are more targets
                                    than service ids.
-/

namespace LiberaLink.Idn

def makeVirtualControllerId (info : TargetInfo) : String :=
  "LL " ++ (if info.label ≠ "" then info.label else info.id)

structure IDNLaproService where
  serviceId : Nat
  serviceName : String
  isDefault : Bool
  deriving DecidableEq

structure IdnTargetSession where
  sink : TargetInfo
  serviceId : Nat
  virtualControllerId : String
  sliceDurationUs : Nat
  running : Bool := false
  deriving DecidableEq

namespace IdnTargetSession

def service (session : IdnTargetSession) : IDNLaproService :=
  ⟨session.serviceId, session.virtualControllerId, session.serviceId = 1⟩

/-- the session, and the driver threads when it has started its own -/
def start (session : IdnTargetSession) (drivers : List Nat) : IdnTargetSession × List Nat :=
  if session.running then (session, drivers)
  else ({ session with running := true }, drivers ++ [session.serviceId])

/-- the driver threads when the session has joined its own -/
def stop (session : IdnTargetSession) (drivers : List Nat) : List Nat :=
  if session.running then drivers.erase session.serviceId else drivers

end IdnTargetSession

def stopSessions (sessions : List IdnTargetSession) (drivers : List Nat) : List Nat :=
  sessions.foldl (fun drivers session => session.stop drivers) drivers

structure IdnHost where
  sliceDurationUs : Nat
  /-- the services of the server that runs -/
  server : Option (List IDNLaproService) := none
  sessions : List IdnTargetSession := []
  endpoints : List VirtualControllerEndpoint := []
  active : Bool := false
  /-- the driver threads that run, each by the service id of its session -/
  drivers : List Nat := []

def idnEndpoint (info : TargetInfo) (serviceIdRaw : Nat) : VirtualControllerEndpoint :=
  let virtualControllerId := makeVirtualControllerId info
  { targetId := info.id
    label := virtualControllerId
    value := virtualControllerId
    kind := "service"
    protocol := "IDN"
    transport := "udp"
    address := "0.0.0.0"
    port := 7255
    attributes := (Finmap.singleton "virtual_controller_id" virtualControllerId).insert
      "service_id" (toString serviceIdRaw) }

namespace IdnHost

/-- the host, its new sessions and their services when the loop over the targets ends, and if it ends
without an error -/
abbrev Loop := IdnHost × List IdnTargetSession × List IDNLaproService × Bool

/-- the loop of `start` over its targets, each given by the info of its sink, if it has one -/
def startSessions (h : IdnHost) (sessions : List IdnTargetSession) (firstService : List IDNLaproService)
    (startedTargets : Nat) : List (Option TargetInfo) → Loop
  | [] => (h, sessions, firstService, true)
  | none :: targets => startSessions h sessions firstService startedTargets targets
  | some info :: targets =>
    let serviceIdRaw := startedTargets + 1
    if 255 < serviceIdRaw then (h, sessions, firstService, false)
    else
      let session : IdnTargetSession :=
        ⟨info, serviceIdRaw % 256, makeVirtualControllerId info, h.sliceDurationUs, false⟩
      let started := session.start h.drivers
      startSessions
        { h with
          endpoints := h.endpoints ++ [idnEndpoint info serviceIdRaw]
          drivers := started.2 }
        (sessions ++ [started.1]) (firstService ++ [session.service]) (startedTargets + 1) targets

/-- `startup` is what the server says when it is waited for. -/
def start (h : IdnHost) (targets : List (Option TargetInfo)) (startup : Except String Unit) :
    IdnHost × Except String Unit :=
  if h.active then (h, .error "IDN virtual controller host is already running.")
  else
    match startSessions { h with endpoints := [] } [] [] 0 targets with
    | (h, sessions, _, false) =>
      ({ h with drivers := stopSessions sessions h.drivers }, .error "IDN service ID range exceeded.")
    | (h, sessions, firstService, true) =>
      if sessions = [] then (h, .error "No IDN targets were created.")
      else match startup with
        | .error startupError =>
          ({ h with drivers := stopSessions sessions h.drivers, endpoints := [] },
            .error (if startupError = "" then "IDN server failed to start." else startupError))
        | .ok _ => ({ h with server := some firstService, sessions := sessions, active := true }, .ok ())

def stop (h : IdnHost) : IdnHost :=
  { h with
    server := none
    sessions := []
    active := false
    drivers := stopSessions h.sessions h.drivers
    endpoints := [] }

end IdnHost

inductive HostCall where
  | start (targets : List (Option TargetInfo)) (startup : Except String Unit)
  | stop

def HostCall.run (h : IdnHost) : HostCall → IdnHost
  | .start targets startup => (h.start targets startup).1
  | .stop => h.stop

/-! ## what the loop makes -/

/-- the session of a target that was started with this service id -/
def madeSession (sliceDurationUs : Nat) (info : TargetInfo) (serviceId : Nat) : IdnTargetSession :=
  ⟨info, serviceId, makeVirtualControllerId info, sliceDurationUs, true⟩

/-- the sessions of these sinks, with service ids from `first` on -/
def sessionsFrom (sliceDurationUs first : Nat) : List TargetInfo → List IdnTargetSession
  | [] => []
  | info :: infos => madeSession sliceDurationUs info first :: sessionsFrom sliceDurationUs (first + 1) infos

def endpointsFrom (first : Nat) : List TargetInfo → List VirtualControllerEndpoint
  | [] => []
  | info :: infos => idnEndpoint info first :: endpointsFrom (first + 1) infos

/-- the sinks of the targets that have one -/
def sinksOf (targets : List (Option TargetInfo)) : List TargetInfo := targets.filterMap id

theorem sessionsFrom_ids (sliceDurationUs first : Nat) (infos : List TargetInfo) :
    (sessionsFrom sliceDurationUs first infos).map IdnTargetSession.serviceId =
      List.range' first infos.length := by
  induction infos generalizing first with
  | nil => rfl
  | cons info infos ih =>
    rw [sessionsFrom, List.map_cons, ih, List.length_cons, List.range'_succ]
    rfl

theorem sessionsFrom_running {sliceDurationUs first : Nat} {infos : List TargetInfo}
    {session : IdnTargetSession} (h : session ∈ sessionsFrom sliceDurationUs first infos) :
    session.running = true := by
  induction infos generalizing first with
  | nil => cases h
  | cons info infos ih =>
    rcases List.mem_cons.mp h with rfl | hrest
    · rfl
    · exact ih hrest

/-- **What the loop has made when it ends**: the sessions and endpoints of the first sinks, as many as
there are service ids left; it fails if a sink remains. -/
theorem startSessions_eq (h : IdnHost) (sessions : List IdnTargetSession)
    (firstService : List IDNLaproService) {startedTargets : Nat} (hcount : startedTargets ≤ 255)
    (targets : List (Option TargetInfo)) :
    ∃ services,
      h.startSessions sessions firstService startedTargets targets =
        ({ h with
            endpoints := h.endpoints ++
              endpointsFrom (startedTargets + 1) ((sinksOf targets).take (255 - startedTargets))
            drivers := h.drivers ++
              (sessionsFrom h.sliceDurationUs (startedTargets + 1)
                ((sinksOf targets).take (255 - startedTargets))).map IdnTargetSession.serviceId },
          sessions ++ sessionsFrom h.sliceDurationUs (startedTargets + 1)
            ((sinksOf targets).take (255 - startedTargets)),
          services, decide (startedTargets + (sinksOf targets).length ≤ 255)) := by
  induction targets generalizing h sessions firstService startedTargets with
  | nil =>
    refine ⟨firstService, ?_⟩
    simp [IdnHost.startSessions, sinksOf, sessionsFrom, endpointsFrom, hcount]
  | cons target targets ih =>
    cases target with
    | none => exact ih h sessions firstService hcount
    | some info =>
      have hsinks : sinksOf (some info :: targets) = info :: sinksOf targets := rfl
      rw [hsinks]
      unfold IdnHost.startSessions
      simp only
      split
      · rename_i hfull
        obtain rfl : startedTargets = 255 := by omega
        refine ⟨firstService, ?_⟩
        simp [sessionsFrom, endpointsFrom]
      · rename_i hfree
        have hmod : (startedTargets + 1) % 256 = startedTargets + 1 := Nat.mod_eq_of_lt (by omega)
        have htake : (info :: sinksOf targets).take (255 - startedTargets) =
            info :: (sinksOf targets).take (255 - (startedTargets + 1)) := by
          rw [show 255 - startedTargets = 255 - (startedTargets + 1) + 1 by omega, List.take_succ_cons]
        rw [hmod, htake]
        obtain ⟨services, hrest⟩ := ih _ _ _ (show startedTargets + 1 ≤ 255 by omega)
        refine ⟨services, hrest.trans ?_⟩
        simp only [sessionsFrom, endpointsFrom, madeSession, IdnTargetSession.start, List.map_cons,
          List.append_assoc, List.singleton_append, List.length_cons, if_neg Bool.false_ne_true]
        congr 3
        rw [Nat.add_assoc, Nat.add_comm 1]

/-- stopping the sessions whose driver threads run joins all of them -/
theorem stopSessions_all {sessions : List IdnTargetSession} (h : ∀ s ∈ sessions, s.running = true) :
    stopSessions sessions (sessions.map IdnTargetSession.serviceId) = [] := by
  induction sessions with
  | nil => rfl
  | cons session sessions ih =>
    have hfirst : session.stop ((session :: sessions).map IdnTargetSession.serviceId) =
        sessions.map IdnTargetSession.serviceId := by
      rw [IdnTargetSession.stop, if_pos (h session List.mem_cons_self), List.map_cons,
        List.erase_cons_head]
    have hrest := ih fun s hs => h s (List.mem_cons_of_mem _ hs)
    rw [stopSessions, List.foldl_cons, hfirst]
    exact hrest

/-! ## the host between its calls -/

/-- The driver threads are those of the sessions, and a host that is not active has none. -/
structure IdnHost.Inv (h : IdnHost) : Prop where
  drivers : h.drivers = h.sessions.map IdnTargetSession.serviceId
  running : ∀ s ∈ h.sessions, s.running = true
  idle : h.active = false → h.sessions = []

theorem IdnHost.Inv.no_drivers {h : IdnHost} (hinv : h.Inv) (hidle : h.active = false) :
    h.drivers = [] := by
  rw [hinv.drivers, hinv.idle hidle]
  rfl

section
variable {h : IdnHost} (hinv : h.Inv) (hidle : h.active = false) (targets : List (Option TargetInfo))
  (startup : Except String Unit)
include hinv hidle

/-- what the loop has made of an idle host -/
theorem startSessions_idle :
    ∃ services,
      IdnHost.startSessions { h with endpoints := [] } [] [] 0 targets =
        ({ h with
            endpoints := endpointsFrom 1 ((sinksOf targets).take 255)
            drivers := (sessionsFrom h.sliceDurationUs 1
              ((sinksOf targets).take 255)).map IdnTargetSession.serviceId },
          sessionsFrom h.sliceDurationUs 1 ((sinksOf targets).take 255), services,
          decide ((sinksOf targets).length ≤ 255)) := by
  obtain ⟨services, hloop⟩ :=
    startSessions_eq { h with endpoints := [] } [] [] (show 0 ≤ 255 by omega) targets
  refine ⟨services, hloop.trans ?_⟩
  rw [Nat.zero_add, Nat.zero_add, Nat.sub_zero, List.nil_append, List.nil_append, hinv.no_drivers hidle,
    List.nil_append]

/-- a start with more targets than service ids -/
theorem start_exceeded (hmany : 255 < (sinksOf targets).length) :
    h.start targets startup =
      ({ h with endpoints := endpointsFrom 1 ((sinksOf targets).take 255), drivers := [] },
        .error "IDN service ID range exceeded.") := by
  obtain ⟨services, hloop⟩ := startSessions_idle hinv hidle targets
  rw [decide_eq_false (by omega)] at hloop
  unfold IdnHost.start
  rw [if_neg (Bool.not_eq_true _ ▸ hidle), hloop]
  simp only
  rw [stopSessions_all fun _ => sessionsFrom_running]

/-- a start without a target -/
theorem start_none (hnone : sinksOf targets = []) :
    h.start targets startup =
      ({ h with endpoints := [], drivers := [] }, .error "No IDN targets were created.") := by
  obtain ⟨services, hloop⟩ := startSessions_idle hinv hidle targets
  rw [hnone] at hloop
  unfold IdnHost.start
  rw [if_neg (Bool.not_eq_true _ ▸ hidle), hloop]
  rfl

section
variable {targets} (hsome : sinksOf targets ≠ []) (hfew : (sinksOf targets).length ≤ 255)
include hsome hfew

/-- a start that reaches the server -/
theorem start_reaches :
    ∃ services,
      h.start targets startup =
        match startup with
        | .error startupError =>
          ({ h with endpoints := [], drivers := [] },
            .error (if startupError = "" then "IDN server failed to start." else startupError))
        | .ok _ =>
          ({ h with
              server := some services
              sessions := sessionsFrom h.sliceDurationUs 1 (sinksOf targets)
              endpoints := endpointsFrom 1 (sinksOf targets)
              active := true
              drivers := List.range' 1 (sinksOf targets).length }, .ok ()) := by
  obtain ⟨services, hloop⟩ := startSessions_idle hinv hidle targets
  rw [decide_eq_true hfew, List.take_of_length_le hfew] at hloop
  refine ⟨services, ?_⟩
  have hne : sessionsFrom h.sliceDurationUs 1 (sinksOf targets) ≠ [] := by
    cases hsinks : sinksOf targets with
    | nil => exact absurd hsinks hsome
    | cons info infos => exact List.cons_ne_nil _ _
  unfold IdnHost.start
  rw [if_neg (Bool.not_eq_true _ ▸ hidle), hloop]
  simp only
  rw [if_neg hne]
  cases startup with
  | error startupError =>
    simp only
    rw [stopSessions_all fun _ => sessionsFrom_running]
  | ok _ =>
    simp only
    rw [sessionsFrom_ids]

end
end

theorem IdnHost.Inv.stop {h : IdnHost} (hinv : h.Inv) : h.stop.Inv := by
  refine ⟨?_, fun _ hs => absurd hs List.not_mem_nil, fun _ => rfl⟩
  unfold IdnHost.stop
  simp only
  rw [hinv.drivers, stopSessions_all hinv.running]
  rfl

theorem IdnHost.Inv.start {h : IdnHost} (hinv : h.Inv) (targets : List (Option TargetInfo))
    (startup : Except String Unit) : (h.start targets startup).1.Inv := by
  cases hidle : h.active with
  | true =>
    unfold IdnHost.start
    rw [hidle, if_pos rfl]
    exact hinv
  | false =>
    have hsessions := hinv.idle hidle
    -- without sessions there are no driver threads
    have hstopped : ∀ endpoints, IdnHost.Inv { h with endpoints := endpoints, drivers := [] } := by
      intro endpoints
      refine ⟨?_, hinv.running, hinv.idle⟩
      simp only
      rw [hsessions]
      rfl
    by_cases hmany : 255 < (sinksOf targets).length
    · rw [start_exceeded hinv hidle targets startup hmany]
      exact hstopped _
    · by_cases hnone : sinksOf targets = []
      · rw [start_none hinv hidle targets startup hnone]
        exact hstopped _
      · obtain ⟨services, hstart⟩ := start_reaches hinv hidle startup hnone (not_lt.mp hmany)
        rw [hstart]
        cases startup with
        | error startupError => exact hstopped _
        | ok _ =>
          refine ⟨(sessionsFrom_ids _ _ _).symm, fun _ => sessionsFrom_running, fun hactive => ?_⟩
          cases hactive

theorem IdnHost.Inv.run {h : IdnHost} (hinv : h.Inv) (call : HostCall) : (call.run h).Inv := by
  cases call with
  | start targets startup => exact hinv.start targets startup
  | stop => exact hinv.stop

/-- a host after any calls -/
theorem inv_of_calls (sliceDurationUs : Nat) (calls : List HostCall) :
    (calls.foldl HostCall.run ⟨sliceDurationUs, none, [], [], false, []⟩).Inv := by
  have hnew : IdnHost.Inv ⟨sliceDurationUs, none, [], [], false, []⟩ :=
    ⟨rfl, fun _ hs => absurd hs List.not_mem_nil, fun _ => rfl⟩
  exact (Stepwise.Reach.of_list calls).invariant hnew fun h call hinv _ => hinv.run call

/-! ## what a start reports -/

/-- What a start is to report: it succeeds and serves each target that has a sink, with the service ids in
order, or it fails and leaves nothing. -/
def Reports (targets : List (Option TargetInfo)) (r : IdnHost × Except String Unit) : Prop :=
  (r.2 = .ok () ∧ r.1.active = true ∧ (sinksOf targets).length ≤ 255 ∧
      r.1.endpoints = endpointsFrom 1 (sinksOf targets) ∧
      r.1.sessions = sessionsFrom r.1.sliceDurationUs 1 (sinksOf targets) ∧
      r.1.drivers = List.range' 1 (sinksOf targets).length) ∨
    ((∃ error, r.2 = .error error) ∧ r.1.active = false ∧ r.1.sessions = [] ∧ r.1.drivers = [] ∧
      r.1.endpoints = [])

/-- **What a start reports is what it leaves**, of an idle host with any history, exactly if there are no
more targets with a sink than service ids. -/
theorem start_reports_iff (sliceDurationUs : Nat) (calls : List HostCall)
    (targets : List (Option TargetInfo)) (startup : Except String Unit)
    (hidle : (calls.foldl HostCall.run ⟨sliceDurationUs, none, [], [], false, []⟩).active = false) :
    Reports targets
        ((calls.foldl HostCall.run ⟨sliceDurationUs, none, [], [], false, []⟩).start targets startup) ↔
      (sinksOf targets).length ≤ 255 := by
  have hinv := inv_of_calls sliceDurationUs calls
  generalize calls.foldl HostCall.run ⟨sliceDurationUs, none, [], [], false, []⟩ = h at hinv hidle ⊢
  constructor
  · intro hreports
    by_contra hmany
    rw [start_exceeded hinv hidle targets startup (not_le.mp hmany)] at hreports
    rcases hreports with ⟨hok, -⟩ | ⟨-, -, -, -, hendpoints⟩
    · cases hok
    · -- the endpoints of the first 255 targets are still there
      cases hsinks : sinksOf targets with
      | nil =>
        rw [hsinks] at hmany
        exact hmany (Nat.zero_le _)
      | cons info infos =>
        rw [hsinks] at hendpoints
        cases hendpoints
  · intro hfew
    by_cases hnone : sinksOf targets = []
    · rw [start_none hinv hidle targets startup hnone]
      exact .inr ⟨⟨_, rfl⟩, hidle, hinv.idle hidle, rfl, rfl⟩
    · obtain ⟨services, hstart⟩ := start_reaches hinv hidle startup hnone hfew
      rw [hstart]
      cases startup with
      | error startupError => exact .inr ⟨⟨_, rfl⟩, hidle, hinv.idle hidle, rfl, rfl⟩
      | ok _ => exact .inl ⟨rfl, rfl, hfew, rfl, rfl, rfl⟩

/-- two targets with a sink, on a host that was stopped -/
theorem start_reports_two :
    Reports [some ⟨"a", "A", "Helios", 40000⟩, none, some ⟨"b", "", "Helios", 40000⟩]
      (([.start [some ⟨"a", "A", "Helios", 40000⟩] (.ok ()), .stop].foldl HostCall.run
        ⟨10000, none, [], [], false, []⟩).start
          [some ⟨"a", "A", "Helios", 40000⟩, none, some ⟨"b", "", "Helios", 40000⟩] (.ok ())) :=
  (start_reports_iff 10000 [.start [some ⟨"a", "A", "Helios", 40000⟩] (.ok ()), .stop]
    [some ⟨"a", "A", "Helios", 40000⟩, none, some ⟨"b", "", "Helios", 40000⟩] (.ok ()) rfl).mpr
    (by decide)

/-- With one target more than there are service ids the start fails and its endpoints stay. -/
theorem start_leaves_endpoints :
    let r := IdnHost.start ⟨10000, none, [], [], false, []⟩
      (List.replicate 256 (some ⟨"a", "A", "Helios", 40000⟩)) (.ok ())
    r.2 = .error "IDN service ID range exceeded." ∧ r.1.active = false ∧ r.1.endpoints.length = 255 := by
  decide +kernel

end LiberaLink.Idn
