import LiberaLink.Lib.Rely
import LiberaLink.Runtime.Runs

/-!
# The frame loop of the GUI

`runGuiApplication` lets background tasks work on one `LinkRuntime`: a scan, a start or a stop, each of
them a `std::async`.  In every frame the loop collects the tasks that have finished, takes a snapshot
of the runtime, reacts to the widgets and may launch a task.

* `World`     the runtime, the futures, and the variables of the loop;
* `frame`     one frame, as a program of the GUI's thread, `FrameInput` what its widgets return;
* `System`    the GUI's thread and the tasks beside it, `System.step` one action of one of them.

The files that keep the settings, the drawing, and which windows are open are left out: a window that
is closed returns nothing.
-/

namespace LiberaLink.Gui
open Stepwise

inductive Task where
  | scan | start | stop
  deriving DecidableEq

/-- `RuntimeSnapshot`; of an endpoint, what it says of its target -/
structure RuntimeSnapshot where
  state : RuntimeState
  hasDiscoveryResults : Bool
  discovered : List DiscoveredControllerSnapshot
  endpoints : List TargetInfo

/-- the section of `LinkRuntime::snapshot` -/
def takeSnapshot (s : Impl) : RuntimeSnapshot where
  state := s.state
  hasDiscoveryResults := s.hasDiscoveryResults
  discovered := s.discovered
  endpoints := s.targets.map fun t => t.info

namespace RuntimeSnapshot

def linkRunning (snapshot : RuntimeSnapshot) : Bool :=
  snapshot.state = .running || snapshot.state = .stopRequested

def linkableIds (snapshot : RuntimeSnapshot) : List String :=
  (snapshot.discovered.filter fun c => c.linkable).map fun c => c.id

def allControllersRunning (snapshot : RuntimeSnapshot) : Bool :=
  decide (0 < snapshot.linkableIds.length) && decide (snapshot.state = .running) &&
    snapshot.linkableIds.all fun id => snapshot.endpoints.any fun e => e.id = id

end RuntimeSnapshot

/-- The variables of the loop.  `inFlight` holds `scanInFlight`, `startInFlight` and `stopInFlight`;
of the map `controllerHostRoutes` only lookups are needed. -/
structure Locals where
  inFlight : Task → Bool := fun _ => false
  rescanInFlight : Bool := false
  linkSyncPending : Bool := false
  linkOptions : LinkOptions
  disabledControllerTypes : Finset String
  enabledControllers : Finset String
  controllerHostRoutes : String → Option String

namespace Locals

def scanInFlight (g : Locals) : Bool := g.inFlight .scan
def startInFlight (g : Locals) : Bool := g.inFlight .start
def stopInFlight (g : Locals) : Bool := g.inFlight .stop

/-- a task is in flight -/
def busy (g : Locals) : Bool := g.scanInFlight || g.startInFlight || g.stopInFlight

def configuredHostId (g : Locals) (controllerId : String) : String :=
  match g.controllerHostRoutes controllerId with
  | some hostId => if hostId = "" then g.linkOptions.virtualControllerHostId else hostId
  | none => g.linkOptions.virtualControllerHostId

def selectedLinkableIds (g : Locals) (snapshot : RuntimeSnapshot) : IdSet :=
  .ofList (snapshot.linkableIds.filter fun id => decide (id ∈ g.enabledControllers))

/-- the options that `launchSelectedStart` makes -/
def startOptions (g : Locals) (selectedIds : IdSet) : LinkOptions :=
  { g.linkOptions with
    virtualControllerRoutes := selectedIds.ids.filterMap fun controllerId =>
      let hostId := g.configuredHostId controllerId
      if hostId = "" then none
      else some {
        controllerId := controllerId
        hostId := hostId
        options := g.linkOptions.virtualControllerHostOptions } }

/-- the checks of the settings at the begin of a frame -/
def checkSettings (reg : Registry) (snapshot : RuntimeSnapshot) (g : Locals) : Locals :=
  { g with
    linkOptions := { g.linkOptions with
      virtualControllerHostId :=
        if g.linkOptions.virtualControllerHostId = "" ∨
            (findVirtualControllerHost reg g.linkOptions.virtualControllerHostId).isNone then
          match defaultVirtualControllerHost reg with
          | some host => host.id
          | none => ""
        else g.linkOptions.virtualControllerHostId }
    controllerHostRoutes := fun id =>
      (g.controllerHostRoutes id).filter fun hostId => (findVirtualControllerHost reg hostId).isSome
    enabledControllers :=
      if snapshot.hasDiscoveryResults then
        g.enabledControllers.filter fun id => id ∈ snapshot.linkableIds
      else g.enabledControllers }

end Locals

/-- A future holds what its task has yet to do; `none`: it is not valid. -/
structure World where
  runtime : Impl := {}
  future : Task → Option (LinkM Bool) := fun _ => none
  gui : Locals

namespace World

/-- the task has finished -/
def ready (w : World) (t : Task) : Bool :=
  match w.future t with
  | some (.ret _) => true
  | _ => false

def setFuture (w : World) (t : Task) (p : Option (LinkM Bool)) : World :=
  { w with future := Function.update w.future t p }

end World

/-- What an action of the GUI's thread is: an access to its own variables, a poll of a future, taking
its result, a wait for it, a launch, or a part of a call of the runtime. -/
inductive GuiAct where
  | own | poll (t : Task) | collect (t : Task) | wait (t : Task) | launch (t : Task)
  | snapshot | invalidate | requestStop | stop
  deriving DecidableEq

abbrev GuiM := Prog GuiAct World

def locals : GuiM Locals := Prog.read .own World.gui

def assign (f : Locals → Locals) : GuiM Unit := Prog.modify .own fun w => { w with gui := f w.gui }

/-- a call of the runtime on the GUI's thread -/
def onRuntime {α : Type} (l : GuiAct) (p : LinkM α) : GuiM α :=
  p.lift World.runtime (fun s w => { w with runtime := s }) fun _ => l

/-! ## the tasks -/

def launch (t : Task) (p : LinkM Bool) : GuiM Unit := do
  Prog.modify (.launch t) fun w => w.setFuture t (some p)
  assign fun g => { g with inFlight := Function.update g.inFlight t true }

def afterCollect : Task → Locals → Locals
  | .scan, g => { g with inFlight := Function.update g.inFlight .scan false, linkSyncPending := true }
  | .start, g => { g with
      inFlight := Function.update g.inFlight .start false, rescanInFlight := false }
  | .stop, g => { g with inFlight := Function.update g.inFlight .stop false }

/-- what a frame does first with each of the futures -/
def collect (t : Task) : GuiM Unit := do
  let ready ← Prog.read (.poll t) fun w => w.ready t
  Prog.when ready do
    Prog.modify (.collect t) fun w => w.setFuture t none
    assign (afterCollect t)

section
variable (env : Env) (reg : Registry)

def launchScan : GuiM Unit := do
  let g ← locals
  launch .scan (Call.prog env reg (.scan g.linkOptions))

def launchStop : GuiM Unit := launch .stop (Call.prog env reg .stop)

def launchSelectedStart (selectedIds : IdSet) : GuiM Unit :=
  Prog.when (!selectedIds.ids.isEmpty) do
    let g ← locals
    launch .start (Call.prog env reg (.start (g.startOptions selectedIds) selectedIds))

def requestDiscoverySettingsSync (snapshot : RuntimeSnapshot) : GuiM Unit := do
  assign fun g => { g with
    linkOptions := { g.linkOptions with disabledControllerTypes := g.disabledControllerTypes } }
  let g ← locals
  if !g.busy && !g.rescanInFlight then
    if snapshot.linkRunning then
      assign fun g => { g with rescanInFlight := true, linkSyncPending := false }
    else do
      assign fun g => { g with linkSyncPending := false }
      launchScan env reg
  else do
    assign fun g => { g with linkSyncPending := true }
    Prog.when g.startInFlight (onRuntime .requestStop LinkRuntime.requestStop)

/-! ## the widgets -/

def rescanButton (snapshot : RuntimeSnapshot) (clicked : Bool) : GuiM Unit := do
  let g ← locals
  if g.scanInFlight then pure ()
  else if g.rescanInFlight then pure ()
  else Prog.when (clicked && !(g.startInFlight || g.stopInFlight)) <|
    if snapshot.linkRunning then do
      onRuntime .invalidate LinkRuntime.invalidateDiscoveryCache
      assign fun g => { g with rescanInFlight := true, linkSyncPending := false }
    else launchScan env reg

/-- START ALL and STOP ALL -/
def bulkButton (snapshot : RuntimeSnapshot) (clicked : Bool) : GuiM Unit := do
  let g ← locals
  Prog.when (clicked && !(g.busy || g.rescanInFlight || snapshot.linkableIds.isEmpty)) <|
    assign fun g => { g with
      enabledControllers :=
        if snapshot.allControllersRunning then ∅ else snapshot.linkableIds.toFinset
      linkSyncPending := true }

/-- what follows a changed selection or route -/
def linkChanged : GuiM Unit := do
  assign fun g => { g with linkSyncPending := true }
  let g ← locals
  Prog.when g.startInFlight (onRuntime .requestStop LinkRuntime.requestStop)

structure RowInput where
  power : Bool := false
  defaultRoute : Bool := false
  /-- the entries of the popup that are selected, by host -/
  hostRoute : String → Bool := fun _ => false

def controllerRow (controller : DiscoveredControllerSnapshot) (input : RowInput) : GuiM Unit := do
  Prog.when (input.power && controller.linkable) do
    assign fun g => { g with
      enabledControllers :=
        if controller.id ∈ g.enabledControllers then g.enabledControllers.erase controller.id
        else insert controller.id g.enabledControllers }
    linkChanged
  Prog.when input.defaultRoute do
    assign fun g => { g with
      controllerHostRoutes := Function.update g.controllerHostRoutes controller.id none }
    linkChanged
  Prog.each (fun host : VirtualControllerHostRegistration => Prog.when (input.hostRoute host.info.id) do
    assign fun g => { g with
      controllerHostRoutes := Function.update g.controllerHostRoutes controller.id
        (if host.info.id = g.linkOptions.virtualControllerHostId then none else some host.info.id) }
    linkChanged) reg.registrations

structure SettingsInput where
  defaultHost : String → Bool := fun _ => false
  enableAll : Bool := false
  managerTypes : List String := []
  /-- the types whose checkbox is clicked -/
  toggled : String → Bool := fun _ => false
  /-- the drivers that are selected for a type and that the plugins accept -/
  drivers : String → List String := fun _ => []

def managerRow (snapshot : RuntimeSnapshot) (input : SettingsInput) (driverSelectionLocked : Bool)
    (type : String) : GuiM Unit := do
  Prog.when (input.toggled type) do
    assign fun g => { g with
      disabledControllerTypes :=
        if type ∈ g.disabledControllerTypes then g.disabledControllerTypes.erase type
        else insert type g.disabledControllerTypes }
    requestDiscoverySettingsSync env reg snapshot
  Prog.when (!driverSelectionLocked) <| Prog.each (fun driverId => do
    assign fun g => { g with
      linkOptions := { g.linkOptions with
        selectedControllerDrivers := g.linkOptions.selectedControllerDrivers.insert type driverId } }
    requestDiscoverySettingsSync env reg snapshot) (input.drivers type)

def settingsWindow (snapshot : RuntimeSnapshot) (input : SettingsInput) : GuiM Unit := do
  let g ← locals
  Prog.when (!(g.busy || g.rescanInFlight)) <|
    Prog.each (fun host : VirtualControllerHostRegistration =>
      Prog.when (input.defaultHost host.info.id) <| assign fun g => { g with
        linkOptions := { g.linkOptions with virtualControllerHostId := host.info.id }
        linkSyncPending := true }) reg.registrations
  let g ← locals
  Prog.when (input.enableAll && decide (g.disabledControllerTypes ≠ ∅)) do
    assign fun g => { g with disabledControllerTypes := ∅ }
    requestDiscoverySettingsSync env reg snapshot
  Prog.each (managerRow env reg snapshot input (g.busy || g.rescanInFlight)) input.managerTypes

/-- `DrawAvbWindow` is disabled while its settings are locked. -/
def avbWindow (snapshot : RuntimeSnapshot) (changed : Bool) : GuiM Unit := do
  let g ← locals
  let avbSettingsLocked := g.busy || g.rescanInFlight ||
    snapshot.endpoints.any fun e => e.type = "AVB"
  Prog.when (changed && !avbSettingsLocked) (requestDiscoverySettingsSync env reg snapshot)

/-- the end of a frame, which launches what is pending -/
def dispatch (snapshot : RuntimeSnapshot) : GuiM Unit := do
  let g ← locals
  let targetControllerIds := g.selectedLinkableIds snapshot
  if g.busy then pure ()
  else if g.rescanInFlight then
    if snapshot.linkRunning then launchStop env reg
    else if !targetControllerIds.ids.isEmpty then do
      assign fun g => { g with linkSyncPending := false }
      launchSelectedStart env reg targetControllerIds
    else assign fun g => { g with rescanInFlight := false }
  else Prog.when g.linkSyncPending do
    assign fun g => { g with linkSyncPending := false }
    if !targetControllerIds.ids.isEmpty then launchSelectedStart env reg targetControllerIds
    else Prog.when snapshot.linkRunning (launchStop env reg)

/-- What the widgets of a frame return; the rows are counted from 0. -/
structure FrameInput where
  rescan : Bool := false
  bulk : Bool := false
  row : Nat → RowInput := fun _ => {}
  settings : SettingsInput := {}
  avb : Bool := false

def frame (input : FrameInput) : GuiM Unit := do
  collect .scan
  collect .start
  collect .stop
  let snapshot ← Prog.read .snapshot fun w => takeSnapshot w.runtime
  assign (Locals.checkSettings reg snapshot)
  rescanButton env reg snapshot input.rescan
  bulkButton snapshot input.bulk
  Prog.each (fun c : DiscoveredControllerSnapshot × Nat => controllerRow reg c.1 (input.row c.2))
    snapshot.discovered.zipIdx
  settingsWindow env reg snapshot input.settings
  avbWindow env reg snapshot input.avb
  dispatch env reg snapshot

/-- what follows the last frame -/
def shutdown : GuiM Unit := do
  onRuntime .requestStop LinkRuntime.requestStop
  Prog.each (fun t => Prog.read (.wait t) fun _ => ()) [.scan, .start, .stop]
  onRuntime .stop LinkRuntime.stop

/-! ## the threads -/

/-- `gui` is what the GUI's thread has yet to do in this frame. -/
structure System where
  world : World
  gui : GuiM Unit
  closing : Bool := false

/-- the settings that were saved -/
structure Settings where
  linkOptions : LinkOptions := {}
  enabledControllers : Finset String := ∅
  controllerHostRoutes : String → Option String := fun _ => none

def System.init (settings : Settings) : System where
  world := { gui := {
    linkOptions := settings.linkOptions
    disabledControllerTypes := settings.linkOptions.disabledControllerTypes
    enabledControllers := settings.enabledControllers
    controllerHostRoutes := settings.controllerHostRoutes } }
  gui := launchScan env reg

/-- An action of the GUI's thread, the next frame, the end of the loop, or an action of a task. -/
inductive Move where
  | gui | frame (input : FrameInput) | close | task (t : Task)

/-- the GUI's thread waits for a task -/
def blocked (w : World) : GuiAct → Bool
  | .wait t => (w.future t).isSome && !w.ready t
  | _ => false

/-- One move; one that cannot be made changes nothing. -/
def System.step (s : System) (m : Move) : System :=
  if s.world.runtime.terminated then s
  else match m with
    | .gui => match s.gui with
      | .ret _ => s
      | .act l u k => if blocked s.world l then s else { s with world := u s.world, gui := k s.world }
    | .frame input => match s.gui with
      | .ret _ => if s.closing then s else { s with gui := frame env reg input }
      | .act _ _ _ => s
    | .close => match s.gui with
      | .ret _ => if s.closing then s else { s with gui := shutdown, closing := true }
      | .act _ _ _ => s
    | .task t => match s.world.future t with
      | some (.act _ u k) => { s with world :=
          { s.world.setFuture t (some (k s.world.runtime)) with runtime := u s.world.runtime } }
      | _ => s

/-- the states of the GUI's runs -/
abbrev Reachable (settings : Settings) (s : System) : Prop :=
  Reach (System.step env reg) (fun _ _ => True) (System.init env reg settings) s

end
end LiberaLink.Gui
