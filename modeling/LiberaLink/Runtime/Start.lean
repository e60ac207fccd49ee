import LiberaLink.Runtime.Impl

/-!
# Starting and updating a link

`start` first checks the state.  On a running link it edits the hosts in place (`updateRunningLink`),
unless an option changed that the targets were made with: then it stops the link and calls itself
again.  On a stopped link it discovers and connects the controllers and starts a host for each group
(`startLink`).

* `targetRuntimeOptionsChanged`   when an update becomes a restart;
* `connectMissing`                the controllers an update has to connect;
* `updateSection`                 the section of the update that edits the hosts;
* `startFuel`                     `start` with a bound on the calls of itself; two are enough.
-/

namespace LiberaLink
open Stepwise Impl

/-- `targetById` -/
abbrev TargetMap := Finmap fun _ : String => LinkedTarget

inductive Gate where
  | refused | update | fresh
  deriving DecidableEq

namespace LinkRuntime

/-- the section of `start` that checks the state -/
def gateOf (s : Impl) : Gate :=
  if s.state = .running then .update
  else if s.state = .scanning ∨ s.state = .starting ∨ s.state = .stopRequested then .refused
  else .fresh

def gateState (s : Impl) : Impl :=
  match gateOf s with
  | .update => s.withStatus "Updating link..."
  | .refused => s
  | .fresh => { s with
      state := .starting
      statusMessage := "Starting controllers..."
      activeVirtualControllerHostId := ""
      activeVirtualControllerHostDisplayName := "" }

def gate : LinkM Gate := Prog.exchange .gate gateOf gateState

/-- an exit that sets `Failed` and logs the error -/
def failWith (error : String) : LinkM Bool := do
  setState .failed error
  logError error
  pure false

/-! ## updating a running link -/

def targetRuntimeOptionsChanged (active options : LinkOptions) : Bool :=
  decide (active.disabledControllerTypes ≠ options.disabledControllerTypes) ||
  decide (active.selectedControllerDrivers ≠ options.selectedControllerDrivers) ||
  decide (active.maxQueuedPoints ≠ options.maxQueuedPoints) ||
  decide (active.latencyMs ≠ options.latencyMs) ||
  decide (active.maxLatencyMs ≠ options.maxLatencyMs) ||
  decide (active.autoLatency ≠ options.autoLatency) ||
  decide (active.maxDacs ≠ options.maxDacs) ||
  decide (0 < options.maxDacs)

/-- the targets of the running link by id; the first one of an id stays -/
def targetMap (targets : List LinkedTarget) : TargetMap :=
  targets.foldl (fun m t => if t.info.id ∈ m then m else m.insert t.info.id t) ∅

def connectController (env : Env) (info : ControllerInfo) : LinkM Bool :=
  Prog.exchange .work (fun s => env.connect s.io.ticks info) fun s => s.withIo s.io.tick

/-- The loop over the discovered controllers that connects the missing ones. -/
def connectMissing (env : Env) (options : LinkOptions) :
    List ControllerInfo → List String → TargetMap → LinkM (List String × TargetMap)
  | [], missing, m => pure (missing, m)
  | info :: rest, missing, m =>
    if info.id ∉ missing then connectMissing env options rest missing m
    else if !info.linkable then connectMissing env options rest (missing.erase info.id) m
    else do
      setStatus ("Connecting " ++ info.label ++ "...")
      if ← connectController env info then
        connectMissing env options rest (missing.erase info.id)
          (m.insert info.id (makeLiberaTarget info options))
      else do
        logError ("Skipping " ++ info.label ++ " (connect failed)")
        connectMissing env options rest (missing.erase info.id) m

/-- The targets an update can use: those of the link, and the missing ones it connects. -/
def targetsForUpdate (env : Env) (options : LinkOptions) (selectedControllerIds : IdSet)
    (m : TargetMap) : LinkM TargetMap := do
  let missing := selectedControllerIds.ids.filter fun id => decide (id ∉ m)
  if missing.isEmpty then pure m
  else do
    Prog.modify .work (configureLiberaSystem options)
    let infos ← Prog.read .work fun s => s.discoveredControllerInfos
    let (gone, m) ← connectMissing env options infos missing m
    logErrors (gone.map fun id => "Selected controller is no longer discoverable: " ++ id)
    pure m

/-- the targets that the update of the running link `s` can use -/
def targetsFound (env : Env) (options : LinkOptions) (selectedControllerIds : IdSet) (s : Impl) :
    TargetMap :=
  ((targetsForUpdate env options selectedControllerIds (targetMap s.targets)).run s).1

/-- the selected controllers that have a target, in the order of the selection -/
def desiredTargets (selectedControllerIds : IdSet) (m : TargetMap) : List (String × LinkedTarget) :=
  selectedControllerIds.ids.filterMap fun id => (m.lookup id).map fun t => (id, t)

/-- The groups that an update of the running link `s` wants, or the text of its failure. -/
def desiredGroups (env : Env) (reg : Registry) (options : LinkOptions)
    (selectedControllerIds : IdSet) (s : Impl) :
    Except String (List PendingVirtualControllerHostGroup) :=
  if fallbackUnknown reg options then .error (unknownHostError options.virtualControllerHostId)
  else groupTargets reg options
    (desiredTargets selectedControllerIds (targetsFound env options selectedControllerIds s)) []

/-- The section of an update that edits the hosts: the error, if any, and the state after it. -/
def updateSection (env : Env) (reg : Registry) (options : LinkOptions)
    (desired : List LinkedTarget) (groups : List PendingVirtualControllerHostGroup) (s : Impl) :
    Option String × Impl :=
  match updateActiveHosts env reg options.sliceDurationUs s.virtualControllerHosts groups s.io with
  | .error (error, io) => (some error, { s with
      io := io
      virtualControllerHosts := []
      targets := []
      activeVirtualControllerHostId := ""
      activeVirtualControllerHostDisplayName := ""
      state := .failed
      statusMessage := error })
  | .ok st => (none, { s with
      io := st.io
      virtualControllerHosts := st.next
      targets := desired
      activeVirtualControllerHostId := (activeVirtualControllerSummary st.next).1
      activeVirtualControllerHostDisplayName := (activeVirtualControllerSummary st.next).2
      activeOptions := options
      state := .running
      statusMessage := "Running" })

/-- The part of an update that groups the targets and edits the hosts. -/
def regroup (env : Env) (reg : Registry) (options : LinkOptions) (selectedControllerIds : IdSet)
    (m : TargetMap) : LinkM Bool :=
  if fallbackUnknown reg options then failWith (unknownHostError options.virtualControllerHostId)
  else
    let desired := desiredTargets selectedControllerIds m
    match groupTargets reg options desired [] with
    | .error error => failWith error
    | .ok groups =>
      if desired.isEmpty then do
        stop
        pure true
      else do
        let error ← Prog.exchange .publish
          (fun s => (updateSection env reg options (desired.map Prod.snd) groups s).1)
          fun s => (updateSection env reg options (desired.map Prod.snd) groups s).2
        match error with
        | some error => do
          logError error
          pure false
        | none => pure true

/-- The update of a running link; `none`: the link was stopped and `start` is to be called again. -/
def updateRunningLink (env : Env) (reg : Registry) (options : LinkOptions)
    (selectedControllerIds : IdSet) : LinkM (Option Bool) := do
  if selectedControllerIds.ids.isEmpty then do
    stop
    pure (some true)
  else do
    let (active, targets) ← Prog.read .section fun s => (s.activeOptions, s.targets)
    if targetRuntimeOptionsChanged active options then do
      stop
      pure none
    else do
      let m ← targetsForUpdate env options selectedControllerIds (targetMap targets)
      let r ← regroup env reg options selectedControllerIds m
      pure (some r)

/-! ## starting a link -/

/-- the exit of a cancelled start -/
def cancelled : LinkM Bool := do
  setState .stopped "Stopped"
  pure false

/-- The discovery of a start without cached controllers; `false`: the start ends here. -/
def discoverForStart (env : Env) (options : LinkOptions) : LinkM Bool := do
  setState .starting "Discovering controllers..."
  let found ← discoverControllers env options.discoveryTimeoutMs
  let errorSet ← lastErrorSet
  let discoveryFailed := found.isEmpty && errorSet
  if ← pollStop then cancelled
  else if found.isEmpty then do
    Prog.modify .section fun s =>
      { s with hasDiscoveryResults := true, discoveredControllers := 0, discovered := [] }
    let error := if discoveryFailed then "Controller discovery failed."
      else "No controllers discovered via Libera."
    setState .failed error
    if discoveryFailed then pure false
    else do
      logError error
      pure false
  else do
    Prog.modify .section fun s =>
      (storeDiscovery found s).withStatus "Connecting controllers..."
    pure true

/-- The loop over the discovered controllers that connects the selected ones. -/
def connectControllers (env : Env) (options : LinkOptions) (selectedControllerIds : IdSet) :
    List ControllerInfo → List LinkedTarget → LinkM (List LinkedTarget)
  | [], targets => pure targets
  | info :: rest, targets => do
    if ← pollStop then pure targets
    else do
      setStatus ("Connecting " ++ info.label ++ "...")
      if !info.linkable then connectControllers env options selectedControllerIds rest targets
      else if !isControllerSelected selectedControllerIds info then
        connectControllers env options selectedControllerIds rest targets
      else if 0 < options.maxDacs ∧ options.maxDacs ≤ targets.length then pure targets
      else if ← connectController env info then
        connectControllers env options selectedControllerIds rest
          (targets ++ [makeLiberaTarget info options])
      else do
        logError ("Skipping " ++ info.label ++ " (connect failed)")
        connectControllers env options selectedControllerIds rest targets

/-- `failStart` -/
def failStart (hosts : List ActiveVirtualControllerHost) (error : String) :
    LinkM (Option (List ActiveVirtualControllerHost)) := do
  Prog.modify .work fun s => s.withIo (stopHosts hosts s.io)
  setState .failed error
  logError error
  pure none

/-- The loop of a start that starts a host for each group; `none`: the start ends here. -/
def startHostGroups (env : Env) (reg : Registry) (options : LinkOptions) :
    List PendingVirtualControllerHostGroup → List ActiveVirtualControllerHost →
    LinkM (Option (List ActiveVirtualControllerHost))
  | [], hosts => pure (some hosts)
  | group :: rest, hosts => do
    setStatus ("Starting " ++ group.info.displayName ++ "...")
    let r ← Prog.exchange .work
      (fun s => (startActiveHostGroup env reg group options.sliceDurationUs s.io).1)
      fun s => s.withIo (startActiveHostGroup env reg group options.sliceDurationUs s.io).2
    match r with
    | .error error => failStart hosts error
    | .ok activeHost => do
      if ← pollStop then do
        Prog.modify .work fun s => s.withIo (stopHosts (activeHost :: hosts) s.io)
        setState .stopped "Stopped"
        pure none
      else startHostGroups env reg options rest (hosts ++ [activeHost])

/-- the section of a start that writes `Running` -/
def publishStart (options : LinkOptions) (hosts : List ActiveVirtualControllerHost)
    (targets : List LinkedTarget) (s : Impl) : Impl :=
  { s with
    virtualControllerHosts := hosts
    targets := targets
    activeVirtualControllerHostId := (activeVirtualControllerSummary hosts).1
    activeVirtualControllerHostDisplayName := (activeVirtualControllerSummary hosts).2
    activeOptions := options
    state := .running
    statusMessage := "Running" }

/-- The assignment that creates the monitor thread. -/
def spawnMonitor (s : Impl) : Impl :=
  if s.monitorThread then { s with terminated := true } else { s with monitorThread := true }

/-- The part of a start that groups the targets and starts the hosts. -/
def startHosts (env : Env) (reg : Registry) (options : LinkOptions) (targets : List LinkedTarget) :
    LinkM Bool :=
  match groupTargets reg options (targets.map fun t => (t.info.id, t)) [] with
  | .error error => failWith error
  | .ok groups => do
    match ← startHostGroups env reg options groups [] with
    | none => pure false
    | some hosts => do
      Prog.modify .publish (publishStart options hosts targets)
      Prog.modify .spawn spawnMonitor
      pure true

/-- The part of a start that connects the controllers. -/
def connectAndStart (env : Env) (reg : Registry) (options : LinkOptions)
    (selectedControllerIds : IdSet) : LinkM Bool := do
  let infos ← Prog.read .work fun s => s.discoveredControllerInfos
  let targets ← connectControllers env options selectedControllerIds infos []
  if ← pollStop then cancelled
  else if targets.isEmpty then
    failWith (if selectedControllerIds.ids.isEmpty then "No link endpoints started."
      else "No selected controllers were started.")
  else startHosts env reg options targets

/-- The start of a link that does not run. -/
def startLink (env : Env) (reg : Registry) (options : LinkOptions) (selectedControllerIds : IdSet) :
    LinkM Bool := do
  Prog.modify .work fun s => s.withError ""
  clearStop
  if fallbackUnknown reg options then failWith (unknownHostError options.virtualControllerHostId)
  else do
    Prog.modify .work (configureLiberaSystem options)
    let cached ← Prog.read .work fun s => s.discoveredControllerInfos
    if cached.isEmpty then do
      if ← discoverForStart env options then connectAndStart env reg options selectedControllerIds
      else pure false
    else do
      setState .starting "Connecting controllers..."
      connectAndStart env reg options selectedControllerIds

/-- `start(options, selectedControllerIds)`, with a bound on the calls it makes of itself. -/
def startFuel (env : Env) (reg : Registry) (options : LinkOptions) (selectedControllerIds : IdSet) :
    Nat → LinkM Bool
  | 0 => pure false
  | n + 1 => do
    match ← gate with
    | .refused => pure false
    | .fresh => startLink env reg options selectedControllerIds
    | .update => do
      match ← updateRunningLink env reg options selectedControllerIds with
      | some r => pure r
      | none => startFuel env reg options selectedControllerIds n

/-- A start calls itself at most once, after a stop. -/
def start (env : Env) (reg : Registry) (options : LinkOptions) (selectedControllerIds : IdSet) :
    LinkM Bool := startFuel env reg options selectedControllerIds 2

/-- `start(options)`: the empty selection stands for all controllers. -/
def startAll (env : Env) (reg : Registry) (options : LinkOptions) : LinkM Bool :=
  start env reg options .empty

def invalidateDiscoveryCache : LinkM Unit :=
  Prog.modify .work fun s => { s with discoveredControllerInfos := [] }

end LinkRuntime
end LiberaLink
