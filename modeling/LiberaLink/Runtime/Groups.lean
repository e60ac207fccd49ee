import LiberaLink.Lib.Buckets
import LiberaLink.Runtime.Tracks

/-!
# Routes and host groups

Each target is assigned a host, an instance key and host options by its route, or by the defaults;
targets with the same three form one group.  `start` holds this code twice, once for a fresh start
and once for a running update; the two copies differ in the list of targets they go through.

* `resolveRoute`          host, instance key and options of one target;
* `hostKey`               the same as a key, `none` for an unknown host;
* `groupTargets`          the groups of a list of targets, or the text of the error;
* `groupTargets_buckets`  the groups are the partition of the targets by their keys;
* `groupTargets_ok_iff`   grouping succeeds exactly if every target has a registered host.
-/

namespace LiberaLink
open Sorting

abbrev RouteMap := Finmap fun _ : String => VirtualControllerRoute

/-- later routes of the same controller overwrite earlier ones -/
def routesByControllerId (options : LinkOptions) : RouteMap :=
  options.virtualControllerRoutes.foldl
    (fun m route => if route.controllerId = "" then m else m.insert route.controllerId route) ∅

def fallbackVirtualControllerHostInfo (reg : Registry) (options : LinkOptions) :
    Option VirtualControllerHostInfo :=
  if options.virtualControllerHostId ≠ "" then
    findVirtualControllerHost reg options.virtualControllerHostId
  else defaultVirtualControllerHost reg

/-- the default host is named and not registered -/
def fallbackUnknown (reg : Registry) (options : LinkOptions) : Bool :=
  decide (options.virtualControllerHostId ≠ "") &&
    (fallbackVirtualControllerHostInfo reg options).isNone

/-- Host, instance key and options of the controller `controllerId` with target id `targetId`. -/
def resolveRoute (reg : Registry) (options : LinkOptions) (controllerId targetId : String) :
    Except String (VirtualControllerHostInfo × String × OptionMap) :=
  let route := (routesByControllerId options).lookup controllerId
  let routedHostId := (route.map fun r => r.hostId).getD ""
  let hostInfo := if routedHostId ≠ "" then findVirtualControllerHost reg routedHostId
    else fallbackVirtualControllerHostInfo reg options
  match hostInfo with
  | none =>
    let hostId := if routedHostId ≠ "" then routedHostId else options.virtualControllerHostId
    .error (if hostId = "" then "No virtual controller hosts are registered."
      else unknownHostError hostId)
  | some info =>
    let routedKey := (route.map fun r => r.hostInstanceKey).getD ""
    let instanceKey := if routedKey ≠ "" then routedKey
      else if info.separateInstancePerTarget then targetId else info.id
    let hostOptions := (route.map fun r => r.options).getD options.virtualControllerHostOptions
    .ok (info, instanceKey, hostOptions)

/-- the key of the host instance that serves the target `id` -/
def hostKey (reg : Registry) (options : LinkOptions) (id : String) : Option HostKey :=
  match resolveRoute reg options id id with
  | .error _ => none
  | .ok (info, instanceKey, hostOptions) => some (info.id, instanceKey, hostOptions)

def newGroup (info : VirtualControllerHostInfo) (instanceKey : String) (options : OptionMap)
    (target : LinkedTarget) : PendingVirtualControllerHostGroup :=
  ⟨info, instanceKey, options, [target]⟩

def PendingVirtualControllerHostGroup.push (target : LinkedTarget)
    (g : PendingVirtualControllerHostGroup) : PendingVirtualControllerHostGroup :=
  { g with targets := g.targets ++ [target] }

/-- One turn of the grouping loop. -/
def placeTarget (info : VirtualControllerHostInfo) (instanceKey : String) (options : OptionMap)
    (target : LinkedTarget) (groups : List PendingVirtualControllerHostGroup) :
    List PendingVirtualControllerHostGroup :=
  place (fun g => g.info.id == info.id && g.instanceKey == instanceKey && decide (g.options = options))
    (fun g => g.push target) (newGroup info instanceKey options target) groups

/-- The grouping loop, over controller ids and their targets. -/
def groupTargets (reg : Registry) (options : LinkOptions) :
    List (String × LinkedTarget) → List PendingVirtualControllerHostGroup →
    Except String (List PendingVirtualControllerHostGroup)
  | [], groups => .ok groups
  | (controllerId, target) :: rest, groups =>
    match resolveRoute reg options controllerId target.info.id with
    | .error e => .error e
    | .ok (info, instanceKey, hostOptions) =>
      groupTargets reg options rest (placeTarget info instanceKey hostOptions target groups)

/-- the groups `gs` are the partition of `ts` by host key -/
abbrev GroupsOf (reg : Registry) (options : LinkOptions) (ts : List LinkedTarget)
    (gs : List PendingVirtualControllerHostGroup) : Prop :=
  Buckets (fun g => some g.key) (fun g => g.targets) (fun t => hostKey reg options t.info.id) ts gs

section
variable {reg : Registry} {options : LinkOptions}

theorem hostKey_of_ok {id : String} {info : VirtualControllerHostInfo} {k : String} {o : OptionMap}
    (h : resolveRoute reg options id id = .ok (info, k, o)) :
    hostKey reg options id = some (info.id, k, o) := by
  rw [hostKey, h]

theorem hostKey_of_error {id e : String} (h : resolveRoute reg options id id = .error e) :
    hostKey reg options id = none := by
  rw [hostKey, h]

/-- the host a key names is registered -/
theorem hostKey_registered {id : String} {k : HostKey} (h : hostKey reg options id = some k) :
    ∃ info, findVirtualControllerHost reg k.1 = some info ∧ info.id = k.1 := by
  have found : ∀ {i : VirtualControllerHostInfo},
      (if ((((routesByControllerId options).lookup id).map fun r => r.hostId).getD "") ≠ "" then
        findVirtualControllerHost reg ((((routesByControllerId options).lookup id).map
          fun r => r.hostId).getD "")
        else fallbackVirtualControllerHostInfo reg options) = some i →
      findVirtualControllerHost reg i.id = some i := by
    intro i hi
    split at hi
    · rw [findVirtualControllerHost_id hi]; exact hi
    · unfold fallbackVirtualControllerHostInfo at hi
      split at hi
      · rw [findVirtualControllerHost_id hi]; exact hi
      · exact defaultVirtualControllerHost_find hi
  unfold hostKey at h
  cases hr : resolveRoute reg options id id with
  | error e => rw [hr] at h; cases h
  | ok p =>
    obtain ⟨info, key, o⟩ := p
    rw [hr] at h
    obtain rfl := Option.some.inj h
    unfold resolveRoute at hr
    simp only at hr
    split at hr
    · cases hr
    · rename_i info' hi
      simp only [Except.ok.injEq, Prod.mk.injEq] at hr
      obtain ⟨rfl, -, -⟩ := hr
      exact ⟨info', found hi, rfl⟩

theorem GroupsOf.place {ts : List LinkedTarget} {gs : List PendingVirtualControllerHostGroup}
    {t : LinkedTarget} {info : VirtualControllerHostInfo} {k : String} {o : OptionMap}
    (h : GroupsOf reg options ts gs)
    (hr : resolveRoute reg options t.info.id t.info.id = .ok (info, k, o)) :
    GroupsOf reg options (ts ++ [t]) (placeTarget info k o t gs) := by
  have hk := hostKey_of_ok hr
  refine Buckets.place (fun g => ?_) (fun _ => rfl) (fun _ => rfl) ?_ rfl h
  · rw [hk]
    simp [PendingVirtualControllerHostGroup.key, and_assoc]
  · rw [hk]
    rfl

/-- **The groups are the partition of the targets by host key.** -/
theorem groupTargets_buckets {ps : List (String × LinkedTarget)} {ts : List LinkedTarget}
    {gs gs' : List PendingVirtualControllerHostGroup} (hid : ∀ p ∈ ps, p.1 = p.2.info.id)
    (h : GroupsOf reg options ts gs) (hg : groupTargets reg options ps gs = .ok gs') :
    GroupsOf reg options (ts ++ ps.map Prod.snd) gs' := by
  induction ps generalizing ts gs with
  | nil =>
    obtain rfl : gs = gs' := by simpa [groupTargets] using hg
    simpa using h
  | cons p ps ih =>
    obtain ⟨cid, t⟩ := p
    obtain rfl : cid = t.info.id := hid _ List.mem_cons_self
    unfold groupTargets at hg
    cases hr : resolveRoute reg options t.info.id t.info.id with
    | error e => rw [hr] at hg; cases hg
    | ok q =>
      obtain ⟨info, k, o⟩ := q
      rw [hr] at hg
      have := ih (fun p hp => hid p (List.mem_cons_of_mem _ hp)) (h.place hr) hg
      simpa using this

/-- the groups of a list that is grouped from the start -/
theorem groupsOf_of_ok {ps : List (String × LinkedTarget)}
    {gs : List PendingVirtualControllerHostGroup} (hid : ∀ p ∈ ps, p.1 = p.2.info.id)
    (hg : groupTargets reg options ps [] = .ok gs) : GroupsOf reg options (ps.map Prod.snd) gs := by
  have h0 : GroupsOf reg options [] [] := Buckets.nil
  have h := groupTargets_buckets hid h0 hg
  rwa [List.nil_append] at h

/-- **Grouping succeeds exactly if every target has a registered host.** -/
theorem groupTargets_ok_iff {ps : List (String × LinkedTarget)}
    {gs : List PendingVirtualControllerHostGroup} (hid : ∀ p ∈ ps, p.1 = p.2.info.id) :
    (∃ gs', groupTargets reg options ps gs = .ok gs') ↔
      ∀ p ∈ ps, (hostKey reg options p.1).isSome := by
  induction ps generalizing gs with
  | nil => simp [groupTargets]
  | cons p ps ih =>
    obtain ⟨cid, t⟩ := p
    obtain rfl : cid = t.info.id := hid _ List.mem_cons_self
    unfold groupTargets
    cases hr : resolveRoute reg options t.info.id t.info.id with
    | error e =>
      have hk := hostKey_of_error hr
      simp [hk]
    | ok q =>
      obtain ⟨info, k, o⟩ := q
      have hk := hostKey_of_ok hr
      simp only [List.forall_mem_cons, hk, Option.isSome_some, true_and]
      exact ih fun p hp => hid p (List.mem_cons_of_mem _ hp)

end

section
variable {reg : Registry} {options : LinkOptions} {ts : List LinkedTarget}
  {gs : List PendingVirtualControllerHostGroup}

theorem GroupsOf.nodup_keys (h : GroupsOf reg options ts gs) : (gs.map fun g => g.key).Nodup := by
  refine List.Nodup.of_map some ?_
  rw [List.map_map]
  exact h.keys

theorem GroupsOf.mem_targetIdSet (h : GroupsOf reg options ts gs)
    {g : PendingVirtualControllerHostGroup} (hg : g ∈ gs) {id : String} :
    id ∈ targetIdSet g.targets ↔ id ∈ targetIdSet ts ∧ hostKey reg options id = some g.key := by
  simp only [LiberaLink.mem_targetIdSet]
  constructor
  · rintro ⟨t, ht, rfl⟩
    obtain ⟨h1, h2⟩ := h.sound g hg t ht
    exact ⟨⟨t, h1, rfl⟩, h2⟩
  · rintro ⟨⟨t, ht, rfl⟩, hk⟩
    exact ⟨t, (h.mem_items hg).mpr ⟨ht, hk⟩, rfl⟩

/-- groups with different keys share no target id -/
theorem GroupsOf.disjoint (h : GroupsOf reg options ts gs) {g g' : PendingVirtualControllerHostGroup}
    (hg : g ∈ gs) (hg' : g' ∈ gs) (hne : g.key ≠ g'.key) :
    Disjoint (targetIdSet g.targets) (targetIdSet g'.targets) := by
  rw [Finset.disjoint_left]
  intro id h1 h2
  have e1 := ((h.mem_targetIdSet hg).mp h1).2
  have e2 := ((h.mem_targetIdSet hg').mp h2).2
  exact hne (Option.some.inj (e1.symm.trans e2))

/-- the host of a group is registered -/
theorem GroupsOf.registered (h : GroupsOf reg options ts gs) {g : PendingVirtualControllerHostGroup}
    (hg : g ∈ gs) : reg.registration g.info.id ≠ none := by
  obtain ⟨t, ht⟩ := List.exists_mem_of_ne_nil _ (h.nonempty g hg)
  obtain ⟨info, hf, _⟩ := hostKey_registered (h.sound g hg t ht).2
  intro e
  have hf' : (reg.registration g.info.id).map (fun r => r.info) = some info := hf
  rw [e] at hf'
  cases hf'

end
end LiberaLink
