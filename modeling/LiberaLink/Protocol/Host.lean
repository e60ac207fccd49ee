import LiberaLink.Lib.Reach
import LiberaLink.Protocol.Options

/-!
# The servers of the Libera protocol host

The host runs one server for each of its targets, each on a TCP port of its own, counted from the
configured base port.  Targets come and go while it runs, and a socket can fail to start at any time.

* `Impl.addServer`, `Impl.removeServer`, `Impl.stop`   the parts of the host;
* `HostCall.run`                                       its calls;
* `Impl.Inv`, `Impl.Inv.run`                           ids and ports are distinct and in range;
* `servers_own_their_ports`                            **what holds in any history of the host**.
-/

namespace LiberaLink.Protocol
open Stepwise

/-! ## the parts of the host -/

/-- a `TargetServer` that has been started -/
structure ActiveServer where
  targetId : String
  tcpPort : Nat
  index : Nat
  deriving DecidableEq

structure Impl where
  options : HostOptions
  servers : List ActiveServer := []
  active : Bool := false

inductive HostError where
  | missingSink
  | noPorts
  /-- the sockets of the server cannot be set up -/
  | startFailed (message : String)
  | targetNotActive
  | noTargets
  | tcpPort
  | discoveryPort
  | notRunning
  deriving DecidableEq

def HostError.text : HostError → String
  | .missingSink => "Libera protocol target is missing a sink."
  | .noPorts => "No Libera protocol TCP ports remain at or above the configured base port."
  | .startFailed message => message
  | .targetNotActive => "Libera protocol target is not active."
  | .noTargets => "Libera protocol host requires at least one target."
  | .tcpPort => "Libera protocol TCP base port must be between 1 and 65535."
  | .discoveryPort => "Libera protocol discovery port must be between 1 and 65535."
  | .notRunning => "Libera protocol host is not running."

/-- A target that is to be added: the info of its sink, if it has one, and the failure of the sockets
of its server, if they fail. -/
structure Candidate where
  sink : Option TargetInfo
  startError : Option String := none

namespace Impl

def ids (h : Impl) : List String := h.servers.map fun server => server.targetId

def ports (h : Impl) : List Nat := h.servers.map fun server => server.tcpPort

def nextServerIndex (h : Impl) : Option Nat :=
  (List.range (65535 + 1 - h.options.tcpPort)).find? fun index =>
    !h.servers.any fun server => server.tcpPort = h.options.tcpPort + index

def addServer (h : Impl) (target : Candidate) : Impl × Except HostError Unit :=
  match target.sink with
  | none => (h, .error .missingSink)
  | some info =>
    if h.servers.any fun server => server.targetId = info.id then (h, .ok ())
    else match h.nextServerIndex with
      | none => (h, .error .noPorts)
      | some index => match target.startError with
        | some message => (h, .error (.startFailed message))
        | none => ({
            h with
            servers := h.servers ++ [⟨info.id, h.options.tcpPort + index, index⟩] }, .ok ())

def removeServer (h : Impl) (targetId : String) : Impl × Except HostError Unit :=
  if h.servers.any fun server => server.targetId = targetId then
    ({ h with servers := h.servers.eraseP fun server => server.targetId = targetId }, .ok ())
  else (h, .error .targetNotActive)

def stop (h : Impl) : Impl :=
  if h.active then { h with servers := [], active := false } else h

/-- the loop of `start` over its targets -/
def addServers (h : Impl) : List Candidate → Impl × Except HostError Unit
  | [] => (h, .ok ())
  | target :: targets =>
    match h.addServer target with
    | (h, .ok _) => h.addServers targets
    | (h, .error error) => (h.stop, .error error)

end Impl

/-! ## the host -/

/-- what a host is made with -/
structure HostSetup where
  ports : DefaultPorts
  config : VirtualControllerHostConfig

def Impl.new (setup : HostSetup) : Impl where
  options := {
    tcpPort := setup.ports.session.toNat
    discoveryPort := setup.ports.discovery.toNat }

/-- the host when `start` has read its options -/
def Impl.opened (setup : HostSetup) (h : Impl) : Impl :=
  { h with options := makeHostOptions setup.ports setup.config, active := true }

def start (setup : HostSetup) (h : Impl) (targets : List Candidate) : Impl × Except HostError Unit :=
  if h.active then (h, .ok ())
  else if targets = [] then (h, .error .noTargets)
  else
    let options := makeHostOptions setup.ports setup.config
    if options.tcpPort = 0 then ({ h with options := options }, .error .tcpPort)
    else if options.discoveryEnabled ∧ options.discoveryPort = 0 then
      ({ h with options := options }, .error .discoveryPort)
    else (h.opened setup).addServers targets

def addTarget (h : Impl) (target : Candidate) : Impl × Except HostError Unit :=
  if h.active then h.addServer target else (h, .error .notRunning)

def removeTarget (h : Impl) (targetId : String) : Impl × Except HostError Unit :=
  if h.active then h.removeServer targetId else (h, .error .notRunning)

inductive HostCall where
  | start (targets : List Candidate)
  | addTarget (target : Candidate)
  | removeTarget (targetId : String)
  | stop

def HostCall.run (setup : HostSetup) (h : Impl) : HostCall → Impl
  | .start targets => (Protocol.start setup h targets).1
  | .addTarget target => (Protocol.addTarget h target).1
  | .removeTarget targetId => (Protocol.removeTarget h targetId).1
  | .stop => h.stop

/-! ## one server more or less -/

/-- a port of the range that a host takes its ports from -/
def Impl.InRange (h : Impl) (port : Nat) : Prop := h.options.tcpPort ≤ port ∧ port ≤ 65535

/-- the smallest port of the range that no server uses -/
def Impl.NextPort (h : Impl) (port : Nat) : Prop :=
  h.InRange port ∧ port ∉ h.ports ∧ ∀ q, h.InRange q → q < port → q ∈ h.ports

section
variable {h : Impl}

theorem mem_ids {id : String} :
    id ∈ h.ids ↔ (h.servers.any fun server => server.targetId = id) = true := by
  unfold Impl.ids
  rw [List.mem_map, List.any_eq_true]
  simp

theorem mem_ports {port : Nat} :
    port ∈ h.ports ↔ (h.servers.any fun server => server.tcpPort = port) = true := by
  unfold Impl.ports
  rw [List.mem_map, List.any_eq_true]
  simp

theorem nextServerIndex_some {index : Nat} (hindex : h.nextServerIndex = some index) :
    h.NextPort (h.options.tcpPort + index) := by
  obtain ⟨hfree, hmem, hbefore⟩ := List.find?_range_eq_some.mp hindex
  have hlt := List.mem_range.mp hmem
  refine ⟨⟨by omega, by omega⟩, ?_, ?_⟩
  · intro hused
    rw [mem_ports.mp hused] at hfree
    cases hfree
  · intro q hq hlt
    have hused := hbefore (q - h.options.tcpPort) (by have := hq.1; omega)
    rw [Bool.not_not, Nat.add_sub_cancel' hq.1] at hused
    exact mem_ports.mpr hused

theorem nextServerIndex_none (hnone : h.nextServerIndex = none) {port : Nat} (hport : h.InRange port) :
    port ∈ h.ports := by
  obtain ⟨hlo, hhi⟩ := hport
  have hused := List.find?_range_eq_none.mp hnone (port - h.options.tcpPort) (by omega)
  rw [Bool.not_not, Nat.add_sub_cancel' hlo] at hused
  exact mem_ports.mpr hused

/-- What `addServer` can do: it fails and changes nothing, finds the target active, or starts a server
on the next port. -/
inductive Impl.Added (h : Impl) (target : Candidate) : Impl × Except HostError Unit → Prop where
  | missingSink (hsink : target.sink = none) : Added h target (h, .error .missingSink)
  | again (info : TargetInfo) (hsink : target.sink = some info) (hid : info.id ∈ h.ids) :
      Added h target (h, .ok ())
  | noPorts (info : TargetInfo) (hsink : target.sink = some info) (hid : info.id ∉ h.ids)
      (hports : ∀ port, h.InRange port → port ∈ h.ports) : Added h target (h, .error .noPorts)
  | startFailed (info : TargetInfo) (hsink : target.sink = some info) (hid : info.id ∉ h.ids)
      (message : String) : Added h target (h, .error (.startFailed message))
  | fresh (info : TargetInfo) (hsink : target.sink = some info) (hid : info.id ∉ h.ids) (index : Nat)
      (hport : h.NextPort (h.options.tcpPort + index)) : Added h target ({
        h with
        servers := h.servers ++ [⟨info.id, h.options.tcpPort + index, index⟩] }, .ok ())

theorem added (h : Impl) (target : Candidate) : h.Added target (h.addServer target) := by
  unfold Impl.addServer
  split
  · rename_i hsink
    exact .missingSink hsink
  · rename_i info hsink
    split
    · rename_i hid
      exact .again info hsink (mem_ids.mpr hid)
    · rename_i hid
      have hid : info.id ∉ h.ids := fun hmem => hid (mem_ids.mp hmem)
      split
      · rename_i hnone
        exact .noPorts info hsink hid fun port hport => nextServerIndex_none hnone hport
      · rename_i index hindex
        split
        · rename_i message _
          exact .startFailed info hsink hid message
        · exact .fresh info hsink hid index (nextServerIndex_some hindex)

/-- What an add is to do: an active target stays as it is, a failure changes nothing, a new server gets
the next port, and ports run out only when all are in use. -/
structure Impl.AddSpec (h : Impl) (target : Candidate) (r : Impl × Except HostError Unit) : Prop where
  again : ∀ info, target.sink = some info → info.id ∈ h.ids → r = (h, .ok ())
  failed : ∀ error, r.2 = .error error → r.1 = h
  fresh : ∀ info, target.sink = some info → info.id ∉ h.ids → r.2 = .ok () →
    ∃ port, h.NextPort port ∧
      r.1 = { h with servers := h.servers ++ [⟨info.id, port, port - h.options.tcpPort⟩] }
  noPorts : r.2 = .error .noPorts → ∀ port, h.InRange port → port ∈ h.ports

theorem Impl.Added.spec {target : Candidate} {r : Impl × Except HostError Unit}
    (hr : h.Added target r) : h.AddSpec target r := by
  cases hr with
  | missingSink hsink =>
    refine ⟨?_, fun _ _ => rfl, ?_, ?_⟩
    · intro info hinfo
      rw [hsink] at hinfo
      cases hinfo
    · intro info hinfo
      rw [hsink] at hinfo
      cases hinfo
    · intro herror
      cases herror
  | again info hsink hid =>
    refine ⟨fun _ _ _ => rfl, fun _ _ => rfl, ?_, ?_⟩
    · intro info' hinfo hid'
      rw [hsink] at hinfo
      cases hinfo
      exact absurd hid hid'
    · intro herror
      cases herror
  | noPorts info hsink hid hports =>
    refine ⟨?_, fun _ _ => rfl, ?_, fun _ => hports⟩
    · intro info' hinfo hid'
      rw [hsink] at hinfo
      cases hinfo
      exact absurd hid' hid
    · intro _ _ _ herror
      cases herror
  | startFailed info hsink hid message =>
    refine ⟨?_, fun _ _ => rfl, ?_, ?_⟩
    · intro info' hinfo hid'
      rw [hsink] at hinfo
      cases hinfo
      exact absurd hid' hid
    · intro _ _ _ herror
      cases herror
    · intro herror
      cases herror
  | fresh info hsink hid index hport =>
    refine ⟨?_, ?_, ?_, ?_⟩
    · intro info' hinfo hid'
      rw [hsink] at hinfo
      cases hinfo
      exact absurd hid' hid
    · intro _ herror
      cases herror
    · intro info' hinfo _ _
      rw [hsink] at hinfo
      cases hinfo
      exact ⟨_, hport, by rw [Nat.add_sub_cancel_left]⟩
    · intro herror
      cases herror

end

/-! ## invariants -/

/-- Ids and ports are distinct, ports are in range, and a host that is not active has no servers. -/
structure Impl.Inv (h : Impl) : Prop where
  ids : h.ids.Nodup
  ports : h.ports.Nodup
  range : ∀ port ∈ h.ports, h.InRange port
  idle : h.active = false → h.servers = []

/-- the servers that stay are the same servers, on the same ports -/
def Impl.Kept (h h' : Impl) : Prop :=
  ∀ server ∈ h.servers, ∀ server' ∈ h'.servers, server'.targetId = server.targetId → server' = server

section
variable {h : Impl}

theorem Impl.inv_empty (hservers : h.servers = []) : h.Inv := by
  refine ⟨?_, ?_, ?_, fun _ => hservers⟩
  · rw [Impl.ids, hservers]
    exact List.nodup_nil
  · rw [Impl.ports, hservers]
    exact List.nodup_nil
  · rw [Impl.ports, hservers]
    intro port hport
    cases hport

theorem Impl.Inv.kept_of_subset (hinv : h.Inv) {h' : Impl} (hsub : h'.servers ⊆ h.servers) :
    h.Kept h' := by
  intro server hserver server' hserver' hid
  exact List.inj_on_of_nodup_map hinv.ids (hsub hserver') hserver hid

theorem Impl.Added.inv {target : Candidate} {r : Impl × Except HostError Unit}
    (hr : h.Added target r) (hinv : h.Inv) (hactive : h.active = true) :
    r.1.Inv ∧ r.1.active = true ∧ h.Kept r.1 := by
  have hsame : h.Inv ∧ h.active = true ∧ h.Kept h :=
    ⟨hinv, hactive, hinv.kept_of_subset (List.Subset.refl _)⟩
  cases hr with
  | missingSink hsink => exact hsame
  | again info hsink hid => exact hsame
  | noPorts info hsink hid hports => exact hsame
  | startFailed info hsink hid message => exact hsame
  | fresh info hsink hid index hport =>
    refine ⟨⟨?_, ?_, ?_, ?_⟩, hactive, ?_⟩
    · show (List.map _ (h.servers ++ [_])).Nodup
      rw [List.map_append, List.nodup_append]
      refine ⟨hinv.ids, List.nodup_singleton _, ?_⟩
      intro id hmem id' hmem' heq
      rw [List.mem_singleton.mp hmem'] at heq
      obtain rfl : id = info.id := heq
      exact hid hmem
    · show (List.map _ (h.servers ++ [_])).Nodup
      rw [List.map_append, List.nodup_append]
      refine ⟨hinv.ports, List.nodup_singleton _, ?_⟩
      intro port hmem port' hmem' heq
      rw [List.mem_singleton.mp hmem'] at heq
      obtain rfl : port = h.options.tcpPort + index := heq
      exact hport.2.1 hmem
    · intro port hmem
      change port ∈ List.map _ (h.servers ++ [_]) at hmem
      rw [List.map_append, List.mem_append] at hmem
      rcases hmem with hmem | hmem
      · exact hinv.range port hmem
      · rw [List.mem_singleton.mp hmem]
        exact hport.1
    · intro hidle
      change h.active = false at hidle
      rw [hactive] at hidle
      cases hidle
    · intro server hserver server' hserver' hsameId
      rcases List.mem_append.mp hserver' with hold | hnew
      · exact List.inj_on_of_nodup_map hinv.ids hold hserver hsameId
      · rw [List.mem_singleton.mp hnew] at hsameId
        refine absurd (List.mem_map.mpr ⟨server, hserver, ?_⟩) hid
        exact hsameId.symm

theorem removeServer_inv (hinv : h.Inv) (targetId : String) :
    (h.removeServer targetId).1.Inv ∧ h.Kept (h.removeServer targetId).1 := by
  unfold Impl.removeServer
  split
  · have hsub : (h.servers.eraseP fun server => server.targetId = targetId).Sublist h.servers :=
      List.eraseP_sublist
    refine ⟨⟨hinv.ids.sublist (hsub.map _), hinv.ports.sublist (hsub.map _), ?_, ?_⟩, ?_⟩
    · intro port hport
      exact hinv.range port ((hsub.map _).subset hport)
    · intro hidle
      show List.eraseP _ h.servers = []
      rw [hinv.idle hidle]
      rfl
    · exact hinv.kept_of_subset hsub.subset
  · exact ⟨hinv, hinv.kept_of_subset (List.Subset.refl _)⟩

theorem stop_inv (hinv : h.Inv) : h.stop.Inv ∧ h.Kept h.stop := by
  unfold Impl.stop
  split
  · refine ⟨Impl.inv_empty rfl, ?_⟩
    intro server _ server' hserver'
    cases hserver'
  · exact ⟨hinv, hinv.kept_of_subset (List.Subset.refl _)⟩

/-- what `start` is to leave: all of its targets, or nothing -/
structure Impl.Started (targets : List Candidate) (r : Impl × Except HostError Unit) : Prop where
  all : r.2 = .ok () → r.1.active = true ∧
    ∀ id, id ∈ r.1.ids ↔ ∃ target ∈ targets, ∃ info, target.sink = some info ∧ info.id = id
  nothing : ∀ error, r.2 = .error error → r.1.servers = [] ∧ r.1.active = false

theorem Impl.Added.ids_of_ok {target : Candidate} {r : Impl × Except HostError Unit}
    (hr : h.Added target r) (hok : r.2 = .ok ()) (id : String) :
    id ∈ r.1.ids ↔ id ∈ h.ids ∨ ∃ info, target.sink = some info ∧ info.id = id := by
  cases hr with
  | missingSink hsink => cases hok
  | noPorts info hsink hid hports => cases hok
  | startFailed info hsink hid message => cases hok
  | again info hsink hid =>
    constructor
    · exact Or.inl
    · rintro (hmem | ⟨info', hinfo, rfl⟩)
      · exact hmem
      · rw [hsink] at hinfo
        cases hinfo
        exact hid
  | fresh info hsink hid index hport =>
    show id ∈ List.map _ (h.servers ++ [_]) ↔ _
    rw [List.map_append, List.mem_append, hsink]
    simp [Impl.ids, eq_comm]

theorem addServers_inv (hinv : h.Inv) (hactive : h.active = true) (targets : List Candidate) :
    (h.addServers targets).1.Inv := by
  induction targets generalizing h with
  | nil => exact hinv
  | cons target targets ih =>
    have hr := added h target
    unfold Impl.addServers
    generalize h.addServer target = r at hr
    obtain ⟨hinv', hactive', _⟩ := hr.inv hinv hactive
    obtain ⟨h', result⟩ := r
    cases result with
    | error error => exact (stop_inv hinv').1
    | ok _ => exact ih hinv' hactive'

/-- the loop of `start`, from a host that already serves some targets -/
theorem addServers_started (hinv : h.Inv) (hactive : h.active = true) (targets : List Candidate) :
    let r := h.addServers targets
    (r.2 = .ok () → r.1.active = true ∧ ∀ id, id ∈ r.1.ids ↔
      id ∈ h.ids ∨ ∃ target ∈ targets, ∃ info, target.sink = some info ∧ info.id = id) ∧
    ∀ error, r.2 = .error error → r.1.servers = [] ∧ r.1.active = false := by
  induction targets generalizing h with
  | nil =>
    refine ⟨fun _ => ⟨hactive, ?_⟩, ?_⟩
    · intro id
      simp [Impl.addServers]
    · intro error herror
      cases herror
  | cons target targets ih =>
    have hr := added h target
    unfold Impl.addServers
    generalize h.addServer target = r at hr
    obtain ⟨hinv', hactive', _⟩ := hr.inv hinv hactive
    have hids := hr.ids_of_ok
    obtain ⟨h', result⟩ := r
    cases result with
    | error error =>
      refine ⟨?_, ?_⟩
      · intro hok
        cases hok
      · intro _ _
        show h'.stop.servers = [] ∧ h'.stop.active = false
        unfold Impl.stop
        rw [if_pos hactive']
        exact ⟨rfl, rfl⟩
    | ok _ =>
      obtain ⟨hall, hnothing⟩ := ih hinv' hactive'
      refine ⟨?_, hnothing⟩
      intro hok
      refine ⟨(hall hok).1, ?_⟩
      intro id
      rw [(hall hok).2 id, hids rfl id]
      simp [or_assoc]

theorem start_inv (setup : HostSetup) (hinv : h.Inv) (targets : List Candidate) :
    (start setup h targets).1.Inv ∧ h.Kept (start setup h targets).1 := by
  unfold start
  split
  · exact ⟨hinv, hinv.kept_of_subset (List.Subset.refl _)⟩
  · rename_i hidle
    have hservers : h.servers = [] := hinv.idle (by simpa using hidle)
    have hkept : ∀ h' : Impl, h.Kept h' := by
      intro h' server hserver
      rw [hservers] at hserver
      cases hserver
    refine ⟨?_, hkept _⟩
    split
    · exact hinv
    · simp only
      split
      · exact Impl.inv_empty hservers
      · split
        · exact Impl.inv_empty hservers
        · exact addServers_inv (h := h.opened setup) (Impl.inv_empty hservers) rfl targets

theorem start_started (setup : HostSetup) (hinv : h.Inv) (hidle : h.active = false)
    (targets : List Candidate) : Impl.Started targets (start setup h targets) := by
  have hservers := hinv.idle hidle
  -- the guards of `start` return before the host is active
  have hrefused : ∀ (h' : Impl) (error : HostError), h'.servers = [] → h'.active = false →
      Impl.Started targets (h', .error error) := by
    intro h' error hnone hoff
    refine ⟨?_, fun _ _ => ⟨hnone, hoff⟩⟩
    intro hok
    cases hok
  unfold start
  rw [if_neg (by simp [hidle])]
  split
  · exact hrefused _ _ hservers hidle
  · simp only
    split
    · exact hrefused _ _ hservers hidle
    · split
      · exact hrefused _ _ hservers hidle
      · obtain ⟨hall, hnothing⟩ :=
          addServers_started (h := h.opened setup) (Impl.inv_empty hservers) rfl targets
        refine ⟨?_, hnothing⟩
        intro hok
        refine ⟨(hall hok).1, ?_⟩
        intro id
        rw [(hall hok).2 id]
        show id ∈ List.map _ h.servers ∨ _ ↔ _
        rw [hservers]
        simp

theorem Impl.Inv.run (setup : HostSetup) (hinv : h.Inv) (call : HostCall) :
    (call.run setup h).Inv ∧ h.Kept (call.run setup h) := by
  cases call with
  | start targets => exact start_inv setup hinv targets
  | stop => exact stop_inv hinv
  | addTarget target =>
    show (addTarget h target).1.Inv ∧ h.Kept (addTarget h target).1
    unfold addTarget
    split
    · rename_i hactive
      obtain ⟨hinv', _, hkept⟩ := (added h target).inv hinv hactive
      exact ⟨hinv', hkept⟩
    · exact ⟨hinv, hinv.kept_of_subset (List.Subset.refl _)⟩
  | removeTarget targetId =>
    show (removeTarget h targetId).1.Inv ∧ h.Kept (removeTarget h targetId).1
    unfold removeTarget
    split
    · exact removeServer_inv hinv targetId
    · exact ⟨hinv, hinv.kept_of_subset (List.Subset.refl _)⟩

end

theorem removeTarget_failed (h : Impl) (targetId : String) {error : HostError}
    (herror : (removeTarget h targetId).2 = .error error) : (removeTarget h targetId).1 = h := by
  unfold removeTarget Impl.removeServer at herror ⊢
  split
  · rename_i hactive
    rw [if_pos hactive] at herror
    split
    · rename_i hany
      rw [if_pos hany] at herror
      cases herror
    · rfl
  · rfl

theorem addTarget_failed (h : Impl) (target : Candidate) {error : HostError}
    (herror : (addTarget h target).2 = .error error) : (addTarget h target).1 = h := by
  unfold addTarget at herror ⊢
  split
  · rename_i hactive
    rw [if_pos hactive] at herror
    exact (added h target).spec.failed error herror
  · rfl

/-- **What holds in any history of the host.**  After every sequence of calls, with any targets and any
failures of sockets: ids and ports are distinct and ports are in range; whatever is called next, a
target that stays keeps its server and its port; every add, also in the middle of a `start`, does what
`AddSpec` says; a failed call changes nothing; and a `start` that finds the host inactive leaves one
server for each target, or an inactive host without servers. -/
theorem servers_own_their_ports (setup : HostSetup) (calls : List HostCall) :
    let h := calls.foldl (HostCall.run setup) (.new setup)
    h.ids.Nodup ∧ h.ports.Nodup ∧ (∀ port ∈ h.ports, h.InRange port) ∧
      (∀ call, h.Kept (HostCall.run setup h call)) ∧
      (∀ mid : Impl, ∀ target, mid.AddSpec target (mid.addServer target)) ∧
      (∀ target, h.active = true → h.AddSpec target (addTarget h target)) ∧
      (∀ target error, (addTarget h target).2 = .error error → (addTarget h target).1 = h) ∧
      (∀ id error, (removeTarget h id).2 = .error error → (removeTarget h id).1 = h) ∧
      (h.active = false → ∀ targets, Impl.Started targets (start setup h targets) ∧
        (start setup h targets).1.ids.Nodup) := by
  intro h
  have hinv : h.Inv := (Reach.of_list calls).invariant (Impl.inv_empty rfl)
    fun h call hinv _ => (hinv.run setup call).1
  refine ⟨hinv.ids, hinv.ports, hinv.range, fun call => (hinv.run setup call).2,
    fun mid target => (added mid target).spec, ?_, fun target error => addTarget_failed h target,
    fun id error => removeTarget_failed h id, ?_⟩
  · intro target hactive
    unfold addTarget
    rw [if_pos hactive]
    exact (added h target).spec
  · intro hidle targets
    exact ⟨start_started setup hinv hidle targets, (start_inv setup hinv targets).1.ids⟩

end LiberaLink.Protocol
