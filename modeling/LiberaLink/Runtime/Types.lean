import Mathlib.Data.Finmap
import Mathlib.Data.Finset.Image
import Mathlib.Data.String.Basic

/-!
# The data of the link runtime

* `LinkOptions`, `VirtualControllerRoute`             what a caller of the runtime hands over;
* `ControllerInfo`, `shouldLinkController`, `makeLiberaTarget`  discovered controllers and targets;
* `Registry`, `findVirtualControllerHost`, `defaultVirtualControllerHost`
                                                      the registered virtual controller hosts;
* `IdSet`                                             the sets of controller ids that are iterated.

`std::unordered_map` with string keys is `Finmap`: its order is never used, its `==` is
extensional.  A `std::set` that is only compared is a `Finset`; one that is iterated is an `IdSet`,
which is in the order the iteration follows.
-/

namespace LiberaLink

abbrev OptionMap := Finmap fun _ : String => String

/-- A `std::set<std::string>`: its elements in increasing order. -/
structure IdSet where
  ids : List String
  sorted : ids.Pairwise (· < ·)

namespace IdSet

theorem nodup (s : IdSet) : s.ids.Nodup := s.sorted.imp fun h => ne_of_lt h

/-- the empty set, the encoding of "all controllers" -/
def empty : IdSet := ⟨[], .nil⟩

/-- a set of one id -/
def single (id : String) : IdSet := ⟨[id], List.pairwise_singleton _ _⟩

/-- a set of two ids -/
def pair (a b : String) (h : a < b) : IdSet := ⟨[a, b], by simpa using h⟩

def insertSorted (id : String) : List String → List String
  | [] => [id]
  | x :: xs => if id < x then id :: x :: xs else if id = x then x :: xs else x :: insertSorted id xs

theorem mem_insertSorted {id y : String} {xs : List String} :
    y ∈ insertSorted id xs ↔ y = id ∨ y ∈ xs := by
  induction xs with
  | nil => simp [insertSorted]
  | cons x xs ih =>
    unfold insertSorted
    split
    · simp
    · split
      · rename_i h
        simp [h]
      · rw [List.mem_cons, ih, List.mem_cons]
        tauto

theorem pairwise_insertSorted {id : String} {xs : List String} (h : xs.Pairwise (· < ·)) :
    (insertSorted id xs).Pairwise (· < ·) := by
  induction xs with
  | nil => exact List.pairwise_singleton _ _
  | cons x xs ih =>
    obtain ⟨hx, hxs⟩ := List.pairwise_cons.mp h
    unfold insertSorted
    split
    · rename_i hlt
      refine List.pairwise_cons.mpr ⟨fun y hy => ?_, h⟩
      rcases List.mem_cons.mp hy with rfl | hy
      · exact hlt
      · exact hlt.trans (hx y hy)
    · split
      · exact h
      · rename_i hle hne
        refine List.pairwise_cons.mpr ⟨fun y hy => ?_, ih hxs⟩
        rcases mem_insertSorted.mp hy with rfl | hy
        · exact lt_of_le_of_ne (not_lt.mp hle) (Ne.symm hne)
        · exact hx y hy

/-- `insert` of a `std::set` -/
def insert (id : String) (s : IdSet) : IdSet := ⟨insertSorted id s.ids, pairwise_insertSorted s.sorted⟩

/-- the set of the ids of a list -/
def ofList (ids : List String) : IdSet := ids.foldr insert empty

end IdSet

structure VirtualControllerRoute where
  controllerId : String
  hostId : String := ""
  hostInstanceKey : String := ""
  options : OptionMap := ∅

structure LinkOptions where
  discoveryTimeoutMs : Nat := 5000
  maxDacs : Nat := 0
  sliceDurationUs : Nat := 15000
  maxQueuedPoints : Nat := 300000
  latencyMs : Nat := 50
  maxLatencyMs : Nat := 1500
  autoLatency : Bool := true
  virtualControllerHostId : String := ""
  virtualControllerHostOptions : OptionMap := ∅
  virtualControllerRoutes : List VirtualControllerRoute := []
  disabledControllerTypes : Finset String := {"IDN"}
  selectedControllerDrivers : OptionMap := ∅

inductive RuntimeState where
  | stopped | scanning | starting | running | stopRequested | failed
  deriving DecidableEq

/-! ## discovered controllers -/

inductive ControllerUsageState where
  | unknown | idle | active | busyExclusive
  deriving DecidableEq

def usageStateLabel : ControllerUsageState → String
  | .idle => "Idle"
  | .active => "Active"
  | .busyExclusive => "Busy"
  | .unknown => "Unknown"

/-- A discovered controller.  `heliosUsb` and `etherDreamHardwareVersion` hold what the two
`dynamic_cast`s of `shouldLinkController` find, if they succeed. -/
structure ControllerInfo where
  id : String
  label : String := ""
  type : String := ""
  driverId : String := ""
  maxPointRate : Nat := 0
  usageState : ControllerUsageState := .unknown
  heliosUsb : Option Bool := none
  etherDreamHardwareVersion : Option String := none
  deriving DecidableEq

/-- `none`: the controller may be linked; `some reason`: it is skipped. -/
def shouldLinkController (info : ControllerInfo) : Option String :=
  if info.type = "Helios" ∧ info.heliosUsb = some false then
    some "already an IDN network Helios controller"
  else if info.type = "EtherDream" ∧
      info.etherDreamHardwareVersion.any (fun v => "hw0-".toList.isPrefixOf v.toList) then
    some "virtual Ether Dream endpoint"
  else none

/-- the controller is not filtered out -/
def ControllerInfo.linkable (info : ControllerInfo) : Bool := (shouldLinkController info).isNone

def isControllerSelected (selectedControllerIds : IdSet) (info : ControllerInfo) : Bool :=
  selectedControllerIds.ids.isEmpty || decide (info.id ∈ selectedControllerIds.ids)

structure DiscoveredControllerSnapshot where
  label : String
  id : String
  type : String
  driverId : String
  maxPointRate : Nat
  usage : String
  linkable : Bool
  note : String

def makeDiscoveredControllerSnapshot (info : ControllerInfo) : DiscoveredControllerSnapshot where
  label := info.label
  id := info.id
  type := info.type
  driverId := info.driverId
  maxPointRate := info.maxPointRate
  usage := usageStateLabel info.usageState
  linkable := info.linkable
  note := (shouldLinkController info).getD ""

/-! ## targets -/

structure TargetInfo where
  id : String
  label : String
  type : String
  maxPointRate : Nat
  deriving DecidableEq

/-- What the runtime hands to the constructor of a `LiberaTarget`. -/
structure LinkedTarget where
  info : TargetInfo
  maxQueuedPoints : Nat
  latencyMs : Nat
  maxLatencyMs : Nat
  autoLatency : Bool
  deriving DecidableEq

def makeLiberaTarget (info : ControllerInfo) (options : LinkOptions) : LinkedTarget where
  info := ⟨info.id, info.label, info.type, info.maxPointRate⟩
  maxQueuedPoints := options.maxQueuedPoints
  latencyMs := options.latencyMs
  maxLatencyMs := options.maxLatencyMs
  autoLatency := options.autoLatency

@[simp] theorem makeLiberaTarget_id (info : ControllerInfo) (options : LinkOptions) :
    (makeLiberaTarget info options).info.id = info.id := rfl

def targetIdSet (targets : List LinkedTarget) : Finset String :=
  (targets.map fun t => t.info.id).toFinset

@[simp] theorem mem_targetIdSet {targets : List LinkedTarget} {id : String} :
    id ∈ targetIdSet targets ↔ ∃ t ∈ targets, t.info.id = id := by
  simp [targetIdSet]

/-! ## registered hosts -/

structure VirtualControllerHostInfo where
  id : String
  displayName : String
  defaultSelection : Bool := false
  separateInstancePerTarget : Bool := false
  deriving DecidableEq

/-- A registration: the info, and what the runtime asks of the hosts its factory makes. -/
structure VirtualControllerHostRegistration where
  info : VirtualControllerHostInfo
  hostDisplayName : String
  supportsDynamicTargets : Bool := false

/-- The registered hosts in order; `registerVirtualControllerHost` keeps ids apart. -/
structure Registry where
  registrations : List VirtualControllerHostRegistration
  distinct : (registrations.map fun r => r.info.id).Nodup

namespace Registry

def empty : Registry := ⟨[], .nil⟩

def registration (reg : Registry) (id : String) : Option VirtualControllerHostRegistration :=
  reg.registrations.find? fun r => r.info.id == id

/-- `registerVirtualControllerHost`; the missing factory is not representable. -/
def register (reg : Registry) (r : VirtualControllerHostRegistration) : Except String Registry :=
  if r.info.id = "" then
    .error "Virtual controller host registration requires a non-empty id."
  else
    let r' := if r.info.displayName = "" then
      { r with info := { r.info with displayName := r.info.id } } else r
    if h : r'.info.id ∈ reg.registrations.map fun r => r.info.id then
      .error ("Virtual controller host \"" ++ r.info.id ++ "\" is already registered.")
    else
      .ok ⟨reg.registrations ++ [r'], by
        rw [List.map_append, List.nodup_append]
        exact ⟨reg.distinct, List.nodup_singleton _, fun a ha b hb hab =>
          h (by rw [List.map_singleton, List.mem_singleton] at hb; exact hb ▸ hab ▸ ha)⟩⟩

end Registry

def findVirtualControllerHost (reg : Registry) (id : String) : Option VirtualControllerHostInfo :=
  (reg.registration id).map fun r => r.info

def defaultVirtualControllerHost (reg : Registry) : Option VirtualControllerHostInfo :=
  let infos := reg.registrations.map fun r => r.info
  (infos.find? fun i => i.defaultSelection) <|> infos.head?

theorem findVirtualControllerHost_id {reg : Registry} {id : String} {i : VirtualControllerHostInfo}
    (h : findVirtualControllerHost reg id = some i) : i.id = id := by
  obtain ⟨r, hr, rfl⟩ := Option.map_eq_some_iff.mp h
  simpa using List.find?_some hr

/-- the info the registry keeps for an id is the only one with that id -/
theorem findVirtualControllerHost_mem {reg : Registry} {r : VirtualControllerHostRegistration}
    (h : r ∈ reg.registrations) : findVirtualControllerHost reg r.info.id = some r.info := by
  have hinj : ∀ l : List VirtualControllerHostRegistration,
      (l.map fun r => r.info.id).Nodup → r ∈ l →
      l.find? (fun q => q.info.id == r.info.id) = some r := by
    intro l
    induction l with
    | nil => intro _ hr; cases hr
    | cons q l ih =>
      intro hnd hr
      rw [List.map_cons, List.nodup_cons] at hnd
      rcases List.mem_cons.mp hr with rfl | hr'
      · simp
      · have hne : q.info.id ≠ r.info.id := fun e => hnd.1 (e ▸ List.mem_map_of_mem hr')
        rw [List.find?_cons_of_neg (by simpa using hne)]
        exact ih hnd.2 hr'
  show (reg.registrations.find? _).map _ = _
  rw [hinj _ reg.distinct h]
  rfl

theorem defaultVirtualControllerHost_find {reg : Registry} {i : VirtualControllerHostInfo}
    (h : defaultVirtualControllerHost reg = some i) :
    findVirtualControllerHost reg i.id = some i := by
  have hmem : i ∈ reg.registrations.map fun r => r.info := by
    unfold defaultVirtualControllerHost at h
    cases hd : (reg.registrations.map fun r => r.info).find? fun i => i.defaultSelection with
    | none =>
      simp only [hd] at h
      exact List.mem_of_mem_head? h
    | some j =>
      simp only [hd] at h
      exact Option.some.inj h ▸ List.mem_of_find?_eq_some hd
  obtain ⟨r, hr, rfl⟩ := List.mem_map.mp hmem
  exact findVirtualControllerHost_mem hr

end LiberaLink
