import LiberaLink.Lib.Prog
import LiberaLink.Runtime.Update

/-!
# The link runtime

`Impl` is the state of a `LinkRuntime`; its calls are programs over that state, `scan`, `stop` and
`requestStop` here and `start` in a module of its own.  An action is one section under the runtime's
mutex, one access to the atomic `stopRequested`, or one piece of work between them; its label says
which.

* `requestStop`, `stop`        stopping;
* `discoverControllers`        the loop that looks for controllers;
* `scan`                       the call that keeps what it found.
-/

namespace LiberaLink
open Stepwise

structure Impl where
  state : RuntimeState := .stopped
  statusMessage : String := "Stopped"
  hasDiscoveryResults : Bool := false
  discoveredControllers : Nat := 0
  discovered : List DiscoveredControllerSnapshot := []
  discoveredControllerInfos : List ControllerInfo := []
  liberaSystem : Bool := false
  virtualControllerHosts : List ActiveVirtualControllerHost := []
  /-- whether the monitor thread is joinable -/
  monitorThread : Bool := false
  targets : List LinkedTarget := []
  activeVirtualControllerHostId : String := ""
  activeVirtualControllerHostDisplayName : String := ""
  activeDisabledControllerTypes : Finset String := ∅
  activeSelectedControllerDrivers : OptionMap := ∅
  activeOptions : LinkOptions := {}
  stopRequested : Bool := false
  lastError : String := ""
  /-- the process was ended by assigning over a joinable thread -/
  terminated : Bool := false
  io : HostLog := {}

/-- What an action is: the state check of `start`, a section under the mutex, the section that
writes `Running`, an access to `stopRequested`, the creation of the monitor thread, or work. -/
inductive Act where
  | gate | section | publish | clear | raise | poll | spawn | work
  deriving DecidableEq

abbrev LinkM := Prog Act Impl

namespace Impl

def withState (s : Impl) (nextState : RuntimeState) (message : String) : Impl :=
  { s with state := nextState, statusMessage := message }

def withStatus (s : Impl) (message : String) : Impl := { s with statusMessage := message }

def withError (s : Impl) (line : String) : Impl := { s with lastError := line }

def withIo (s : Impl) (io : HostLog) : Impl := { s with io := io }

def withStop (s : Impl) (flag : Bool) : Impl := { s with stopRequested := flag }

def configureLiberaSystem (options : LinkOptions) (s : Impl) : Impl :=
  if s.liberaSystem ∧ s.activeDisabledControllerTypes = options.disabledControllerTypes ∧
      s.activeSelectedControllerDrivers = options.selectedControllerDrivers then s
  else { s with
    discoveredControllerInfos := []
    liberaSystem := true
    activeDisabledControllerTypes := options.disabledControllerTypes
    activeSelectedControllerDrivers := options.selectedControllerDrivers }

end Impl

open Impl

namespace LinkRuntime

def setState (nextState : RuntimeState) (message : String) : LinkM Unit :=
  Prog.modify .section fun s => s.withState nextState message

def setStatus (message : String) : LinkM Unit := Prog.modify .section fun s => s.withStatus message

def logError (line : String) : LinkM Unit := Prog.modify .work fun s => s.withError line

def pollStop : LinkM Bool := Prog.read .poll fun s => s.stopRequested

def clearStop : LinkM Unit := Prog.modify .clear fun s => s.withStop false

/-! ## stopping -/

/-- the section of `requestStop` -/
def markStop (s : Impl) : Impl :=
  if s.state = .starting ∨ s.state = .running then s.withState .stopRequested "Stopping..." else s

def requestStop : LinkM Unit := do
  Prog.modify .raise fun s => s.withStop true
  Prog.modify .section markStop

/-- the section of `stop` that takes the hosts and the targets -/
def releaseAll (s : Impl) : Impl :=
  { s with
    virtualControllerHosts := []
    targets := []
    activeVirtualControllerHostId := ""
    activeVirtualControllerHostDisplayName := ""
    state := .stopped
    statusMessage := "Stopped" }

def stop : LinkM Unit := do
  requestStop
  Prog.modify .section fun s => { s with monitorThread := false }
  let hosts ← Prog.exchange .section (fun s => s.virtualControllerHosts) releaseAll
  Prog.modify .work fun s => s.withIo (stopHosts hosts s.io)
  clearStop

/-! ## discovery -/

/-- The local variables of `discoverControllers`.  `discoveredKeys` is sorted in the source and
only compared. -/
structure Discovery where
  started : Nat
  discovered : List ControllerInfo := []
  discoveredKeys : Multiset String := 0
  lastDiscoveryChangeAt : Option Nat := none

namespace Discovery

/-- the controllers of one turn -/
def see (d : Discovery) (round : DiscoveryRound) : Discovery :=
  let currentKeys : Multiset String := round.found.map fun info => info.type ++ "\n" ++ info.id
  if round.found = [] then d
  else if currentKeys = d.discoveredKeys then { d with discovered := round.found }
  else { d with
    discovered := round.found
    discoveredKeys := currentKeys
    lastDiscoveryChangeAt := some round.changedAt }

/-- the list was stable for the settle window -/
def settled (d : Discovery) (now : Nat) : Bool :=
  !d.discovered.isEmpty &&
    d.lastDiscoveryChangeAt.any fun at' => decide (1500000000 ≤ now - at')

def timedOut (d : Discovery) (timeoutMs now : Nat) : Bool :=
  decide (0 < timeoutMs) && decide (timeoutMs ≤ (now - d.started) / 1000000)

end Discovery

def logErrors : List String → LinkM Unit
  | [] => pure ()
  | line :: lines => do
    logError line
    logErrors lines

/-- The loop of `discoverControllers`. -/
def discoverLoop (timeoutMs : Nat) : List DiscoveryRound → Discovery → LinkM (List ControllerInfo)
  | [], d => do
    let _ ← pollStop
    pure d.discovered
  | round :: rounds, d => do
    if ← pollStop then pure d.discovered
    else do
      logErrors round.errors
      let d := d.see round
      if d.settled round.settledAt then pure d.discovered
      else if d.timedOut timeoutMs round.elapsedAt then pure d.discovered
      else discoverLoop timeoutMs rounds d

def discoverControllers (env : Env) (timeoutMs : Nat) : LinkM (List ControllerInfo) := do
  let run ← Prog.exchange .work (fun s => env.discover s.io.ticks) fun s => s.withIo s.io.tick
  discoverLoop timeoutMs run.rounds { started := run.started }

def lastErrorSet : LinkM Bool := Prog.read .work fun s => decide (s.lastError ≠ "")

/-- the section that stores what a discovery found -/
def storeDiscovery (found : List ControllerInfo) (s : Impl) : Impl :=
  { s with
    hasDiscoveryResults := true
    discoveredControllers := found.length
    discovered := found.map makeDiscoveredControllerSnapshot
    discoveredControllerInfos := found }

/-! ## scanning -/

/-- the section of `scan` that checks the state -/
def scanGate : LinkM Bool :=
  Prog.exchange .gate
    (fun s => s.state = .scanning ∨ s.state = .starting ∨ s.state = .running ∨
      s.state = .stopRequested)
    fun s =>
      if s.state = .scanning ∨ s.state = .starting ∨ s.state = .running ∨
        s.state = .stopRequested then s
      else { s with
        state := .scanning
        statusMessage := "Scanning for controllers..."
        hasDiscoveryResults := false
        discoveredControllers := 0
        discovered := [] }

/-- the section of `scan` that stores the result -/
def storeScan (found : List ControllerInfo) (discoveryFailed : Bool) (s : Impl) : Impl :=
  (storeDiscovery found s).withState (if discoveryFailed then .failed else .stopped)
    (if found = [] then
      (if discoveryFailed then "Controller discovery failed" else "No controllers found")
    else "Scan complete")

def scan (env : Env) (options : LinkOptions) : LinkM Bool := do
  if ← scanGate then pure false
  else do
    Prog.modify .work fun s => s.withError ""
    clearStop
    Prog.modify .work fun s => { configureLiberaSystem options s with discoveredControllerInfos := [] }
    let found ← discoverControllers env options.discoveryTimeoutMs
    let errorSet ← lastErrorSet
    let discoveryFailed := found.isEmpty && errorSet
    if ← pollStop then do
      setState .stopped "Stopped"
      pure false
    else do
      Prog.modify .section (storeScan found discoveryFailed)
      pure (!found.isEmpty)

end LinkRuntime
end LiberaLink
