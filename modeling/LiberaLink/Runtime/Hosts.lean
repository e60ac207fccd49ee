import LiberaLink.Runtime.Types

/-!
# Virtual controller hosts as the runtime drives them

The runtime makes hosts, starts them on targets, stops them, and adds and removes targets of the
ones that support it.  `HostLog` holds what this leaves behind: every host call in order, and the
counters that name hosts and outcomes.  `Env` gives the outcome of every call, so that a statement
about all `Env` is a statement about every way the calls can go.

* `HostWorld`, `HostCall.apply`     which host serves which targets, read off the calls;
* `startActiveHostGroup`            make a host and start it on a group;
* `Tracks io hosts`                 the list `hosts` is exactly the running hosts of `io`, each
                                    with the targets it serves.
-/

namespace LiberaLink

structure VirtualControllerHostConfig where
  sliceDurationUs : Nat
  options : OptionMap

/-- A host object; `serial` is its identity. -/
structure VirtualControllerHost where
  serial : Nat
  hostId : String
  displayName : String
  supportsDynamicTargets : Bool
  config : VirtualControllerHostConfig

/-- A host call and, where it can fail, whether it returned true. -/
inductive HostCall where
  | start (host : Nat) (targets : List String) (ok : Bool)
  | stop (host : Nat)
  | addTarget (host : Nat) (target : String) (ok : Bool)
  | removeTarget (host : Nat) (target : String) (ok : Bool)
  deriving DecidableEq

/-- the host a call is made on -/
def HostCall.host : HostCall → Nat
  | .start h _ _ => h
  | .stop h => h
  | .addTarget h _ _ => h
  | .removeTarget h _ _ => h

/-- the call did not return false -/
def HostCall.ok : HostCall → Bool
  | .start _ _ ok => ok
  | .stop _ => true
  | .addTarget _ _ ok => ok
  | .removeTarget _ _ ok => ok

/-- `w h = some ts`: the host `h` runs and serves the targets `ts`. -/
abbrev HostWorld := Nat → Option (Finset String)

def HostCall.apply (w : HostWorld) : HostCall → HostWorld
  | .start h ts true => Function.update w h (some ts.toFinset)
  | .stop h => Function.update w h none
  | .addTarget h t true => Function.update w h ((w h).map fun S => insert t S)
  | .removeTarget h t true => Function.update w h ((w h).map fun S => S.erase t)
  | _ => w

def worldAfter (w : HostWorld) (calls : List HostCall) : HostWorld := calls.foldl HostCall.apply w

theorem worldAfter_append (w : HostWorld) (a b : List HostCall) :
    worldAfter w (a ++ b) = worldAfter (worldAfter w a) b := List.foldl_append

/-- calls on other hosts change nothing -/
theorem HostCall.apply_of_ne (w : HostWorld) (c : HostCall) {n : Nat} (h : c.host ≠ n) :
    c.apply w n = w n := by
  have h' : n ≠ c.host := fun e => h e.symm
  cases c with
  | start m ts ok => cases ok <;> simp [apply, host] at h' ⊢; simp [h']
  | stop m => simp [apply, host] at h' ⊢; simp [h']
  | addTarget m t ok => cases ok <;> simp [apply, host] at h' ⊢; simp [h']
  | removeTarget m t ok => cases ok <;> simp [apply, host] at h' ⊢; simp [h']

theorem worldAfter_of_ne (w : HostWorld) (calls : List HostCall) {n : Nat}
    (h : ∀ c ∈ calls, c.host ≠ n) : worldAfter w calls n = w n := by
  induction calls generalizing w with
  | nil => rfl
  | cons c calls ih =>
    show worldAfter (c.apply w) calls n = w n
    rw [ih _ fun c' hc' => h c' (List.mem_cons_of_mem _ hc'),
      c.apply_of_ne w (h c List.mem_cons_self)]

/-- a host that does not run any more has been stopped after every successful start -/
theorem stopped_of_world_none {w : HostWorld} {pre post : List HostCall} {n : Nat}
    {ts : List String} (h : worldAfter w (pre ++ .start n ts true :: post) n = none) :
    .stop n ∈ post := by
  have keep : ∀ (post : List HostCall) (w : HostWorld), (w n).isSome → .stop n ∉ post →
      (worldAfter w post n).isSome := by
    intro post
    induction post with
    | nil => exact fun w hw _ => hw
    | cons c post ih =>
      intro w hw hns
      rw [List.mem_cons, not_or] at hns
      refine ih _ ?_ hns.2
      by_cases hc : c.host = n
      · cases c with
        | start m ts ok => cases ok <;> simp_all [HostCall.apply, HostCall.host]
        | stop m => exact absurd (congrArg HostCall.stop hc.symm) hns.1
        | addTarget m t ok => cases ok <;> simp_all [HostCall.apply, HostCall.host]
        | removeTarget m t ok => cases ok <;> simp_all [HostCall.apply, HostCall.host]
      · rwa [c.apply_of_ne w hc]
  by_contra hns
  rw [worldAfter_append] at h
  have hs := keep post (HostCall.apply (worldAfter w pre) (.start n ts true))
    (by simp [HostCall.apply]) hns
  exact absurd h (Option.isSome_iff_ne_none.mp hs)

/-! ## outcomes and calls -/

/-- One turn of the loop of `discoverControllers`: what the system returns, the error lines it logs,
and the readings of the steady clock, in nanoseconds, in the order they are taken. -/
structure DiscoveryRound where
  found : List ControllerInfo
  errors : List String := []
  changedAt : Nat := 0
  settledAt : Nat := 0
  elapsedAt : Nat := 0

/-- The turns of one discovery; the last one is the last before the loop is left. -/
structure DiscoveryRun where
  started : Nat := 0
  rounds : List DiscoveryRound

/-- The outcome of everything the runtime asks of the system and of its hosts.  The first argument
is the number of the request; a host call that returns `none` succeeded. -/
structure Env where
  discover : Nat → DiscoveryRun
  connect : Nat → ControllerInfo → Bool
  makeHost : Nat → String → VirtualControllerHostConfig → Bool
  startHost : Nat → VirtualControllerHost → List String → Option String
  addTarget : Nat → VirtualControllerHost → String → Option String
  removeTarget : Nat → VirtualControllerHost → String → Option String

structure HostLog where
  calls : List HostCall := []
  nextHost : Nat := 0
  ticks : Nat := 0

namespace HostLog

def world (io : HostLog) : HostWorld := worldAfter (fun _ => none) io.calls

/-- record a call -/
def push (io : HostLog) (c : HostCall) : HostLog := { io with calls := io.calls ++ [c] }

/-- one more outcome is used up -/
def tick (io : HostLog) : HostLog := { io with ticks := io.ticks + 1 }

@[simp] theorem push_calls (io : HostLog) (c : HostCall) : (io.push c).calls = io.calls ++ [c] := rfl
@[simp] theorem push_nextHost (io : HostLog) (c : HostCall) :
    (io.push c).nextHost = io.nextHost := rfl
@[simp] theorem tick_calls (io : HostLog) : io.tick.calls = io.calls := rfl
@[simp] theorem tick_nextHost (io : HostLog) : io.tick.nextHost = io.nextHost := rfl
@[simp] theorem tick_world (io : HostLog) : io.tick.world = io.world := rfl

@[simp] theorem push_world (io : HostLog) (c : HostCall) : (io.push c).world = c.apply io.world := by
  show worldAfter _ (io.calls ++ [c]) = _
  rw [worldAfter_append]
  rfl

end HostLog

def unknownHostError (id : String) : String := "Unknown virtual controller host \"" ++ id ++ "\"."

def createVirtualControllerHost (env : Env) (reg : Registry) (id : String)
    (config : VirtualControllerHostConfig) (io : HostLog) :
    Except String VirtualControllerHost × HostLog :=
  match reg.registration id with
  | none => (.error (unknownHostError id), io)
  | some r =>
    if env.makeHost io.ticks id config then
      (.ok ⟨io.nextHost, id, r.hostDisplayName, r.supportsDynamicTargets, config⟩,
        { io.tick with nextHost := io.nextHost + 1 })
    else
      (.error ("Virtual controller host factory for \"" ++ id ++ "\" returned null."), io.tick)

namespace VirtualControllerHost

def start (env : Env) (host : VirtualControllerHost) (targets : List LinkedTarget) (io : HostLog) :
    Option String × HostLog :=
  let ids := targets.map fun t => t.info.id
  let r := env.startHost io.ticks host ids
  (r, io.tick.push (.start host.serial ids r.isNone))

def stop (host : VirtualControllerHost) (io : HostLog) : HostLog := io.push (.stop host.serial)

def addTarget (env : Env) (host : VirtualControllerHost) (target : LinkedTarget) (io : HostLog) :
    Option String × HostLog :=
  let r := if host.supportsDynamicTargets then env.addTarget io.ticks host target.info.id
    else some "Virtual controller host does not support adding targets while running."
  (r, io.tick.push (.addTarget host.serial target.info.id r.isNone))

/-- The host that supports removal refuses to remove a target it does not serve. -/
def removeTarget (env : Env) (host : VirtualControllerHost) (targetId : String) (io : HostLog) :
    Option String × HostLog :=
  let r := if host.supportsDynamicTargets then
      if ((io.world host.serial).any fun S => decide (targetId ∈ S)) then
        env.removeTarget io.ticks host targetId
      else some "Libera protocol target is not active."
    else some "Virtual controller host does not support removing targets while running."
  (r, io.tick.push (.removeTarget host.serial targetId r.isNone))

end VirtualControllerHost

/-! ## active hosts -/

/-- An entry of the runtime's host list; `host` is `none` once it was moved out of the entry. -/
structure ActiveVirtualControllerHost where
  id : String
  displayName : String
  instanceKey : String
  info : VirtualControllerHostInfo
  options : OptionMap
  host : Option VirtualControllerHost
  targets : List LinkedTarget

structure PendingVirtualControllerHostGroup where
  info : VirtualControllerHostInfo
  instanceKey : String
  options : OptionMap
  targets : List LinkedTarget

/-- what tells two host instances apart -/
abbrev HostKey := String × String × OptionMap

def ActiveVirtualControllerHost.key (h : ActiveVirtualControllerHost) : HostKey :=
  (h.id, h.instanceKey, h.options)

def PendingVirtualControllerHostGroup.key (g : PendingVirtualControllerHostGroup) : HostKey :=
  (g.info.id, g.instanceKey, g.options)

def activeHostMatchesGroup (h : ActiveVirtualControllerHost)
    (g : PendingVirtualControllerHostGroup) : Bool :=
  h.id == g.info.id && h.instanceKey == g.instanceKey && decide (h.options = g.options)

theorem activeHostMatchesGroup_iff (h : ActiveVirtualControllerHost)
    (g : PendingVirtualControllerHostGroup) : activeHostMatchesGroup h g = true ↔ h.key = g.key := by
  simp [activeHostMatchesGroup, ActiveVirtualControllerHost.key,
    PendingVirtualControllerHostGroup.key, and_assoc]

/-- the entry of a host that was started on a group -/
def activeEntry (group : PendingVirtualControllerHostGroup) (host : VirtualControllerHost) :
    ActiveVirtualControllerHost :=
  ⟨group.info.id, host.displayName, group.instanceKey, group.info, group.options, some host,
    group.targets⟩

/-- the text shown when a host's `start` returned false without saying why -/
def startFailure (group : PendingVirtualControllerHostGroup) (err : String) : String :=
  if err = "" then group.info.displayName ++ " virtual controller host failed to start." else err

def startActiveHostGroup (env : Env) (reg : Registry) (group : PendingVirtualControllerHostGroup)
    (sliceDurationUs : Nat) (io : HostLog) : Except String ActiveVirtualControllerHost × HostLog :=
  match createVirtualControllerHost env reg group.info.id ⟨sliceDurationUs, group.options⟩ io with
  | (.error e, io) => (.error e, io)
  | (.ok host, io) =>
    match host.start env group.targets io with
    | (some e, io) => (.error (startFailure group e), io)
    | (none, io) => (.ok (activeEntry group host), io)

def stopHost (h : ActiveVirtualControllerHost) (io : HostLog) : HostLog :=
  match h.host with
  | some host => host.stop io
  | none => io

def stopHosts (hosts : List ActiveVirtualControllerHost) (io : HostLog) : HostLog :=
  hosts.foldl (fun io h => stopHost h io) io

def activeVirtualControllerSummary : List ActiveVirtualControllerHost → String × String
  | [] => ("", "")
  | [h] => (h.id, h.displayName)
  | h :: hs =>
    if hs.all fun h' => h'.id == h.id then
      (h.id, h.displayName ++ " (" ++ toString (hs.length + 1) ++ " instances)")
    else ("mixed", "Multiple virtual controllers")

end LiberaLink
