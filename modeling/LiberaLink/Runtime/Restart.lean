import LiberaLink.Runtime.UpdateFrame

/-!
# An update against a stop and a start

The update of a running link and a stop followed by a start group the same targets.  The update keeps
or edits the hosts whose group still exists, and these keep the slice duration they were made with,
while `targetRuntimeOptionsChanged` does not compare it.

* `describe`, `hostSet`        a host as its key, its slice duration and its targets;
* `SliceInv`                   which host goes on and which one is new, over both loops;
* `start_restartable`          when the start after a stop ends running, and with which hosts;
* `update_restartable`         the update likewise;
* `update_matches_restart_iff` **when both end in the same configuration**.
-/

namespace LiberaLink
open Stepwise Sorting Impl LinkRuntime

/-- what a host is described by: host id, instance key and options, slice duration, target ids -/
def describe (h : ActiveVirtualControllerHost) : HostKey × Option Nat × Finset String :=
  (h.key, h.host.map fun host => host.config.sliceDurationUs, targetIdSet h.targets)

def hostSet (hosts : List ActiveVirtualControllerHost) :
    Finset (HostKey × Option Nat × Finset String) := (hosts.map describe).toFinset

/-- the entry holds a host with this slice duration -/
def MadeWith (slice : Nat) (h : ActiveVirtualControllerHost) : Prop :=
  h.host.map (fun host => host.config.sliceDurationUs) = some slice

theorem Started.madeWith {slice : Nat} {g : PendingVirtualControllerHostGroup}
    {h : ActiveVirtualControllerHost} (hs : Started slice g h) : MadeWith slice h := by
  obtain ⟨host, rfl, hc⟩ := hs
  show some host.config.sliceDurationUs = some slice
  rw [hc]

/-- The host of the entry goes on with a group: its targets stay, or it takes targets while running. -/
def GoesOn (groups : List PendingVirtualControllerHostGroup) (h : ActiveVirtualControllerHost) : Prop :=
  ∃ host, h.host = some host ∧ ∃ g ∈ groups, h.key = g.key ∧
    (targetIdSet h.targets = targetIdSet g.targets ∨ host.supportsDynamicTargets = true)

/-- **Which hosts go on**: every host of the new list is new or went on, and every host that may go on
did, unless a call failed. -/
structure SliceInv (slice : Nat) (groups : List PendingVirtualControllerHostGroup) (io0 : HostLog)
    (hosts ahead : List ActiveVirtualControllerHost) (st : UpdateLoop) : Prop where
  calls : ∃ cs, st.io.calls = io0.calls ++ cs
  suffix : ahead <:+ hosts
  made : ∀ h' ∈ st.next, MadeWith slice h' ∨
    ∃ h ∈ hosts, GoesOn groups h ∧ h'.key = h.key ∧ h'.host = h.host
  kept : (∃ cs, st.io.calls = io0.calls ++ cs ∧ ∃ c ∈ cs, c.ok = false) ∨
    ∀ h ∈ hosts, h ∉ ahead → GoesOn groups h → ∃ h' ∈ st.next, h'.key = h.key ∧ h'.host = h.host

section
variable {env : Env} {reg : Registry} {slice : Nat} {groups : List PendingVirtualControllerHostGroup}
  {io0 : HostLog} {hosts ahead : List ActiveVirtualControllerHost} {st : UpdateLoop}

/-- one more entry, and nothing else in the new list changes -/
theorem SliceInv.add {h' : ActiveVirtualControllerHost} (hinv : SliceInv slice groups io0 hosts ahead st)
    {st' : UpdateLoop} {cs : List HostCall} (hc : st'.io.calls = st.io.calls ++ cs)
    (hnext : st'.next = st.next ++ [h']) {ahead' : List ActiveVirtualControllerHost}
    (hsuf : ahead' <:+ ahead) (hmade : MadeWith slice h' ∨
      ∃ h ∈ hosts, GoesOn groups h ∧ h'.key = h.key ∧ h'.host = h.host)
    (hgone : (∃ c ∈ cs, c.ok = false) ∨ ∀ h ∈ hosts, h ∈ ahead → h ∉ ahead' → GoesOn groups h →
      h'.key = h.key ∧ h'.host = h.host) : SliceInv slice groups io0 hosts ahead' st' where
  calls := by
    obtain ⟨cs0, hc0⟩ := hinv.calls
    exact ⟨cs0 ++ cs, by rw [hc, hc0, List.append_assoc]⟩
  suffix := hsuf.trans hinv.suffix
  made k hk := by
    rw [hnext] at hk
    rcases List.mem_append.mp hk with hk | hk
    · exact hinv.made k hk
    · exact (List.mem_singleton.mp hk) ▸ hmade
  kept := by
    rcases hinv.kept with ⟨cs0, hc0, c, hcm, hcf⟩ | hkept
    · exact .inl ⟨cs0 ++ cs, by rw [hc, hc0, List.append_assoc], c, List.mem_append_left _ hcm, hcf⟩
    · rcases hgone with ⟨c, hcm, hcf⟩ | hgone
      · obtain ⟨cs0, hc0⟩ := hinv.calls
        exact .inl ⟨cs0 ++ cs, by rw [hc, hc0, List.append_assoc], c, List.mem_append_right _ hcm, hcf⟩
      · refine .inr fun h hh hout hgo => ?_
        rw [hnext]
        by_cases hin : h ∈ ahead
        · exact ⟨h', by simp, hgone h hh hin hout hgo⟩
        · obtain ⟨k, hk, e⟩ := hkept h hh hin hgo
          exact ⟨k, List.mem_append_left _ hk, e⟩

/-- the host at hand is the only one that leaves the list -/
theorem eq_of_leaves {h k : ActiveVirtualControllerHost} (hin : k ∈ h :: ahead) (hout : k ∉ ahead) :
    k = h := (List.mem_cons.mp hin).resolve_right hout

theorem SliceInv.turn (hgk : (groups.map fun g => g.key).Nodup) (ht : Tracks io0 hosts)
    {h : ActiveVirtualControllerHost} {st' : UpdateLoop}
    (hinv : SliceInv slice groups io0 hosts (h :: ahead) st)
    (hturn : HostTurn env reg slice groups h ahead st (.ok st')) :
    SliceInv slice groups io0 hosts ahead st' := by
  have hmem : h ∈ hosts := hinv.suffix.subset List.mem_cons_self
  obtain ⟨host, hh, _⟩ := ht.serves h hmem
  obtain ⟨cs, hc, _⟩ := hturn.calls hgk hh
  have hsuf : ahead <:+ h :: ahead := List.suffix_cons _ _
  have only : ∀ {h' : ActiveVirtualControllerHost}, h'.key = h.key → h'.host = h.host →
      ∀ k ∈ hosts, k ∈ h :: ahead → k ∉ ahead → GoesOn groups k → h'.key = k.key ∧ h'.host = k.host :=
    fun e1 e2 k _ hin hout _ => by rw [eq_of_leaves hin hout]; exact ⟨e1, e2⟩
  cases hturn with
  | stopped hno =>
    -- a host without a group cannot go on
    have hnot : ¬ GoesOn groups h := fun ⟨_, _, g, hg, hk, _⟩ => hno g hg hk
    obtain ⟨cs0, hc0⟩ := hinv.calls
    refine ⟨⟨cs0 ++ cs, by rw [hc, hc0, List.append_assoc]⟩, hsuf.trans hinv.suffix, hinv.made, ?_⟩
    rcases hinv.kept with ⟨cs1, hc1, c, hcm, hcf⟩ | hkept
    · exact .inl ⟨cs1 ++ cs, by rw [hc, hc1, List.append_assoc], c, List.mem_append_left _ hcm, hcf⟩
    · refine .inr fun k hk hout hgo => ?_
      by_cases hin : k ∈ h :: ahead
      · exact absurd (eq_of_leaves hin hout ▸ hgo) hnot
      · exact hkept k hk hin hgo
  | @kept g i hg hk he =>
    have hgo : GoesOn groups h := ⟨host, hh, g, List.fst_mem_of_mem_zipIdx hg, hk, .inl he⟩
    exact hinv.add hc rfl hsuf (.inr ⟨h, hmem, hgo, rfl, rfl⟩) (.inr (only rfl rfl))
  | @edited g i io hg hk hne he =>
    obtain ⟨host', hh', hd, _⟩ := editTargets_true he
    have hgo : GoesOn groups h := ⟨host', hh', g, List.fst_mem_of_mem_zipIdx hg, hk, .inr hd⟩
    exact hinv.add hc rfl hsuf (.inr ⟨h, hmem, hgo, rfl, rfl⟩) (.inr (only rfl rfl))
  | @restarted g i io io' h' hg hk hne he hs =>
    refine hinv.add hc rfl hsuf (.inl (startActiveHostGroup_started hs).madeWith) ?_
    have hgm := List.fst_mem_of_mem_zipIdx hg
    rcases editTargets_spec env h g st.io with ⟨_, _, h1, _⟩ | ⟨host', io1, es, id, h1, _, _, h4, _, h6⟩ |
      ⟨_, h3⟩
    · rw [he] at h1; cases h1
    · -- the call that was refused is among the calls of the turn
      left
      obtain rfl : io = io1 := by rw [he] at h1; exact (Prod.mk.inj h1).2
      obtain ⟨hc1, _⟩ := stopHost_calls hh io
      rcases startActiveHostGroup_spec env reg g slice (stopHost h io) with
        ⟨e, io'', h7, _⟩ | ⟨new, io'', h7, _, _, hc2, _⟩
      · rw [h7] at hs; cases hs
      · rw [h7] at hs
        obtain rfl : io'' = io' := (Prod.mk.inj hs).2
        have hcs : cs = es ++ ([.stop host.serial] ++ [.start new.serial
            (g.targets.map fun t => t.info.id) true]) := by
          refine List.append_cancel_left (hc.symm.trans ?_)
          show io''.calls = _
          rw [hc2, hc1, h4]
          simp only [List.append_assoc]
        rcases h6 with h6 | h6
        · exact ⟨_, hcs ▸ List.mem_append_left _ h6, rfl⟩
        · exact ⟨_, hcs ▸ List.mem_append_left _ h6, rfl⟩
    · -- the host does not take targets while running
      right
      intro k _ hin hout ⟨khost, hkh, g', hg', hk', hor⟩
      exfalso
      obtain rfl := eq_of_leaves hin hout
      obtain rfl : g' = g := List.inj_on_of_nodup_map hgk hg' hgm (hk'.symm.trans hk)
      rcases hor with hor | hor
      · exact hne hor
      · rw [h3 khost hkh] at hor; cases hor

/-- **The hosts after an update.** -/
theorem updateActiveHosts_slices (hgk : (groups.map fun g => g.key).Nodup) (ht : Tracks io0 hosts) :
    Ends (fun _ => True) (SliceInv slice groups io0 hosts [])
      (updateActiveHosts env reg slice hosts groups io0) := by
  refine updateActiveHosts_rule (P := fun ahead st => SliceInv slice groups io0 hosts ahead st)
    (Q := fun _ st => SliceInv slice groups io0 hosts [] st) (fun h ahead st r hinv hturn => ?_)
    (fun _ hinv => hinv) (fun _ _ _ _ hinv _ => hinv) (fun g i rest st h' io' hinv _ hs => ?_)
    (fun _ _ _ _ _ _ _ _ _ => trivial) ?_
  · cases r with
    | error e => trivial
    | ok st' => exact hinv.turn hgk ht hturn
  · rcases startActiveHostGroup_spec env reg g slice st.io with
      ⟨e, io'', h1, _⟩ | ⟨new, io'', h1, _, _, hc, _⟩
    · rw [h1] at hs; cases hs
    · have hmade := (startActiveHostGroup_started hs).madeWith
      rw [h1] at hs
      obtain rfl : io'' = io' := (Prod.mk.inj hs).2
      exact hinv.add hc rfl (List.suffix_refl _) (.inl hmade) (.inr fun k _ hin => (nomatch hin))
  · exact ⟨⟨[], by simp⟩, List.suffix_refl _, by simp, .inr fun k hk hout => absurd hk hout⟩

end

/-! ## the groups of the same targets -/

/-- the ids of those that the host with this key is to serve -/
def idsFor (reg : Registry) (options : LinkOptions) (ids : List String) (key : HostKey) :
    Finset String := (ids.filter fun id => decide (hostKey reg options id = some key)).toFinset

section
variable {reg : Registry} {options : LinkOptions} {ids : List String} {ts : List LinkedTarget}
  {groups : List PendingVirtualControllerHostGroup}

/-- the targets of a group, by their ids -/
theorem GroupsOf.targets_eq (hg : GroupsOf reg options ts groups)
    (hids : ∀ id, id ∈ targetIdSet ts ↔ id ∈ ids) {g : PendingVirtualControllerHostGroup}
    (hgm : g ∈ groups) : targetIdSet g.targets = idsFor reg options ids g.key := by
  ext id
  rw [hg.mem_targetIdSet hgm, hids]
  simp [idsFor]

/-- there is a group for each key that occurs -/
theorem GroupsOf.exists_iff (hg : GroupsOf reg options ts groups)
    (hids : ∀ id, id ∈ targetIdSet ts ↔ id ∈ ids) (key : HostKey) :
    (∃ g ∈ groups, g.key = key) ↔ ∃ id ∈ ids, hostKey reg options id = some key := by
  have hkeys := Buckets.exists_key_iff hg (some key)
  simp only [Option.some.injEq] at hkeys
  rw [hkeys]
  constructor
  · rintro ⟨t, ht, hk⟩
    exact ⟨t.info.id, (hids _).mp (LiberaLink.mem_targetIdSet.mpr ⟨t, ht, rfl⟩), hk⟩
  · rintro ⟨id, hid, hk⟩
    obtain ⟨t, ht, rfl⟩ := LiberaLink.mem_targetIdSet.mp ((hids id).mpr hid)
    exact ⟨t, ht, hk⟩

/-- The hosts `hosts` serve exactly the targets `ids`, each host those with its key. -/
structure Serves (reg : Registry) (options : LinkOptions) (ids : List String)
    (hosts : List ActiveVirtualControllerHost) : Prop where
  keys : (hosts.map fun h => h.key).Nodup
  sound : ∀ h ∈ hosts, (∃ id ∈ ids, hostKey reg options id = some h.key) ∧
    targetIdSet h.targets = idsFor reg options ids h.key
  complete : ∀ id ∈ ids, ∃ h ∈ hosts, hostKey reg options id = some h.key

theorem Realises.serves {hosts : List ActiveVirtualControllerHost} (hr : Realises hosts groups)
    (hg : GroupsOf reg options ts groups) (hids : ∀ id, id ∈ targetIdSet ts ↔ id ∈ ids) :
    Serves reg options ids hosts where
  keys := hr.keys
  sound h hh := by
    obtain ⟨g, hgm, hk, hi⟩ := hr.sound h hh
    exact ⟨(hg.exists_iff hids h.key).mp ⟨g, hgm, hk.symm⟩, by rw [hi, hk, hg.targets_eq hids hgm]⟩
  complete id hid := by
    obtain ⟨t, ht, rfl⟩ := LiberaLink.mem_targetIdSet.mp ((hids id).mpr hid)
    obtain ⟨g, hgm, htg⟩ := hg.complete t ht
    obtain ⟨h, hh, hk, _⟩ := hr.complete g hgm
    have hs : hostKey reg options t.info.id = some g.key := (hg.sound g hgm t htg).2
    exact ⟨h, hh, hs.trans (congrArg some hk.symm)⟩

namespace Serves
variable {hosts hosts' : List ActiveVirtualControllerHost}

/-- **each target is served by exactly one host** -/
theorem existsUnique (hs : Serves reg options ids hosts) {id : String} (hid : id ∈ ids) :
    ∃! h, h ∈ hosts ∧ id ∈ targetIdSet h.targets := by
  obtain ⟨h, hh, hk⟩ := hs.complete id hid
  refine ⟨h, ⟨hh, ?_⟩, ?_⟩
  · show id ∈ targetIdSet h.targets
    rw [(hs.sound h hh).2]
    simp [idsFor, hid, hk]
  · rintro h' ⟨hh', hid'⟩
    rw [(hs.sound h' hh').2] at hid'
    have hk' : hostKey reg options id = some h'.key := by
      simp only [idsFor, List.mem_toFinset, List.mem_filter, decide_eq_true_eq] at hid'
      exact hid'.2
    exact List.inj_on_of_nodup_map hs.keys hh' hh (Option.some.inj (hk'.symm.trans hk))

/-- the two lists have the same keys -/
theorem exists_key (hs : Serves reg options ids hosts) (hs' : Serves reg options ids hosts')
    {h : ActiveVirtualControllerHost} (hh : h ∈ hosts) : ∃ h' ∈ hosts', h'.key = h.key := by
  obtain ⟨⟨id, hid, hk⟩, _⟩ := hs.sound h hh
  obtain ⟨h', hh', hk'⟩ := hs'.complete id hid
  exact ⟨h', hh', Option.some.inj (hk'.symm.trans hk)⟩

/-- hosts with one slice duration that serve the same targets are the same hosts -/
theorem hostSet_subset (hs : Serves reg options ids hosts) (hs' : Serves reg options ids hosts')
    {slice : Nat} (hm : ∀ h ∈ hosts, MadeWith slice h) (hm' : ∀ h ∈ hosts', MadeWith slice h) :
    hostSet hosts ⊆ hostSet hosts' := by
  intro d hd
  obtain ⟨h, hh, rfl⟩ := List.mem_map.mp (List.mem_toFinset.mp hd)
  obtain ⟨h', hh', hk⟩ := hs.exists_key hs' hh
  refine List.mem_toFinset.mpr (List.mem_map.mpr ⟨h', hh', ?_⟩)
  have e1 : targetIdSet h'.targets = targetIdSet h.targets := by
    rw [(hs'.sound h' hh').2, (hs.sound h hh).2, hk]
  unfold describe
  rw [hk, e1, hm' h' hh', hm h hh]

theorem hostSet_eq (hs : Serves reg options ids hosts) (hs' : Serves reg options ids hosts')
    {slice : Nat} (hm : ∀ h ∈ hosts, MadeWith slice h) (hm' : ∀ h ∈ hosts', MadeWith slice h) :
    hostSet hosts = hostSet hosts' :=
  Finset.Subset.antisymm (hs.hostSet_subset hs' hm hm') (hs'.hostSet_subset hs hm' hm)

end Serves
end

/-- the same hosts have the same slice durations -/
theorem madeWith_of_hostSet {hosts hosts' : List ActiveVirtualControllerHost} {slice : Nat}
    (hm : ∀ h ∈ hosts', MadeWith slice h) (e : hostSet hosts = hostSet hosts')
    {h : ActiveVirtualControllerHost} (hh : h ∈ hosts) : MadeWith slice h := by
  have hd : describe h ∈ hostSet hosts' := e ▸ List.mem_toFinset.mpr (List.mem_map_of_mem hh)
  obtain ⟨h', hh', hde⟩ := List.mem_map.mp (List.mem_toFinset.mp hd)
  have e1 : (describe h').2.1 = (describe h).2.1 := by rw [hde]
  exact e1.symm.trans (hm h' hh')

/-! ## the start after the stop -/

/-- The controllers of a start, by their ids. -/
def linkedIds (env : Env) (options : LinkOptions) (sel : IdSet) (s : Impl) : List String :=
  (linkedControllers options sel (startControllers env options s)).map fun i => i.id

/-- A start has controllers, and their hosts and the default host are registered. -/
structure Restartable (env : Env) (reg : Registry) (options : LinkOptions) (sel : IdSet) (s : Impl) :
    Prop where
  fallback : fallbackUnknown reg options = false
  nonempty : linkedIds env options sel s ≠ []
  known : ∀ id ∈ linkedIds env options sel s, (hostKey reg options id).isSome

/-- The link runs and serves each of the targets on exactly one host. -/
structure Configured (ids : List String) (s : Impl) : Prop where
  state : s.state = .running
  served : ∀ id ∈ ids, ∃! h, h ∈ s.virtualControllerHosts ∧ id ∈ targetIdSet h.targets

/-- Both links run with the same hosts, and each of the targets is served by exactly one of them. -/
structure SameConfiguration (ids : List String) (s s' : Impl) : Prop where
  left : Configured ids s
  right : Configured ids s'
  hosts : hostSet s.virtualControllerHosts = hostSet s'.virtualControllerHosts

section
variable {env : Env} {reg : Registry} {options : LinkOptions} {sel : IdSet} {s s' : Impl}

theorem connected_ids {targets : List LinkedTarget} (hconnect : ∀ n i, env.connect n i = true)
    {infos : List ControllerInfo} (hinf : infos = startControllers env options s)
    (hc : Connected env options sel infos targets) :
    targets.map (fun t => t.info.id) = linkedIds env options sel s := by
  rw [hc.exact hconnect, List.map_map, hinf]
  rfl

theorem groupTargets_ok_of_ids {targets : List LinkedTarget} :
    (∃ gs, groupTargets reg options (targets.map fun t => (t.info.id, t)) [] = .ok gs) ↔
      ∀ id ∈ targets.map (fun t => t.info.id), (hostKey reg options id).isSome := by
  rw [groupTargets_ok_iff (fun p hp => by obtain ⟨t, _, rfl⟩ := List.mem_map.mp hp; rfl)]
  simp

/-- **A start from the ground up** with everything succeeding: whether it ends running, and with which
hosts. -/
theorem LinkOutcome.restartable {r : Bool} (hconnect : ∀ n i, env.connect n i = true)
    (hw : env.Willing) (h : LinkOutcome env reg options sel s r s') :
    (s'.state = .running → Restartable env reg options sel s) ∧
    (Restartable env reg options sel s → s'.state = .running ∧
      Serves reg options (linkedIds env options sel s) s'.virtualControllerHosts ∧
      ∀ h ∈ s'.virtualControllerHosts, MadeWith options.sliceDurationUs h) := by
  cases h with
  | failed why held state =>
    refine ⟨fun h => (nomatch state.symm.trans h), fun hr => ?_⟩
    exfalso
    rcases why with why | why | ⟨targets, hc, why⟩
    · rw [hr.fallback] at why; cases why
    · refine hr.nonempty ?_
      rw [linkedIds, why]
      simp [linkedControllers]
    · have hids := connected_ids hconnect rfl hc
      rcases why with rfl | ⟨e, why⟩
      · exact hr.nonempty hids.symm
      · obtain ⟨gs, hgs⟩ := groupTargets_ok_of_ids.mpr fun id hid => hr.known id (hids ▸ hid)
        rw [why] at hgs
        cases hgs
  | refused ready connected grouped quiet tracks why =>
    exfalso
    rcases why with why | ⟨g, hg, why⟩
    · exact why hw
    · exact (groupsOf_start grouped).registered hg why
  | @started s1 s2 targets groups hosts fallback ready infos connected nonempty grouped quiet tracks
      started =>
    have hids := connected_ids hconnect infos connected
    have hgroups := groupsOf_start grouped
    rw [spawnMonitor_state, spawnMonitor_hosts]
    refine ⟨fun _ => ⟨fallback, fun e => nonempty ?_, fun id hid => ?_⟩, fun _ => ⟨rfl, ?_, ?_⟩⟩
    · rw [e] at hids
      exact List.map_eq_nil_iff.mp hids
    · exact groupTargets_ok_of_ids.mp ⟨groups, grouped⟩ id (hids ▸ hid)
    · refine (realises_of_started started hgroups.nodup_keys).serves hgroups fun id => ?_
      rw [← hids, targetIdSet, List.mem_toFinset]
    · intro h hh
      obtain ⟨g, _, hs⟩ := started_sound started hh
      exact hs.madeWith

theorem stopHosts_ticks (hosts : List ActiveVirtualControllerHost) (io : HostLog) :
    (stopHosts hosts io).ticks = io.ticks := by
  induction hosts generalizing io with
  | nil => rfl
  | cons h hosts ih =>
    refine (ih (stopHost h io)).trans ?_
    unfold stopHost
    cases h.host <;> rfl

/-- a stop keeps the controllers -/
theorem startControllers_afterStop (s : Impl) :
    startControllers env options (gateState (afterStop s)) = startControllers env options s := by
  have hinf : (configureLiberaSystem options (gateState (afterStop s))).discoveredControllerInfos =
      (configureLiberaSystem options s).discoveredControllerInfos :=
    configureLiberaSystem_cache rfl rfl rfl rfl
  have hticks : (gateState (afterStop s)).io.ticks = s.io.ticks :=
    stopHosts_ticks s.virtualControllerHosts s.io
  unfold startControllers
  rw [hinf, hticks]

/-- the state after a stop and a start -/
def restart (env : Env) (reg : Registry) (options : LinkOptions) (sel : IdSet) (s : Impl) : Impl :=
  ((do stop; start env reg options sel : LinkM Bool).run s).2

theorem restart_eq (s : Impl) : restart env reg options sel s =
    ((startLink env reg options sel).run (gateState (afterStop s))).2 := by
  have h : (do stop; start env reg options sel : LinkM Bool).run s =
      (startFuel env reg options sel 2).run (afterStop s) := by
    rw [Prog.bind_eq, Prog.run_bind, stop_run]
    rfl
  rw [restart, h, startFuel_run (gateOf_afterStop s)]

theorem start_restartable (hinv : LinkInv s) (hconnect : ∀ n i, env.connect n i = true)
    (hw : env.Willing) :
    ((restart env reg options sel s).state = .running → Restartable env reg options sel s) ∧
    (Restartable env reg options sel s → (restart env reg options sel s).state = .running ∧
      Serves reg options (linkedIds env options sel s)
        (restart env reg options sel s).virtualControllerHosts ∧
      ∀ h ∈ (restart env reg options sel s).virtualControllerHosts,
        MadeWith options.sliceDurationUs h) := by
  rw [restart_eq]
  have ht : Tracks (gateState (afterStop s)).io (gateState (afterStop s)).virtualControllerHosts :=
    hinv.afterStop.tracks
  have h : LinkOutcome env reg options sel (gateState (afterStop s)) _ _ :=
    Prog.wp_run (startLink_outcome (rfl : (gateState (afterStop s)).state = .starting) ht)
  have e : linkedIds env options sel (gateState (afterStop s)) = linkedIds env options sel s := by
    rw [linkedIds, startControllers_afterStop]
    rfl
  obtain ⟨h1, h2⟩ := h.restartable hconnect hw
  rw [e] at h2
  exact ⟨fun hr => ⟨(h1 hr).fallback, e ▸ (h1 hr).nonempty, e ▸ (h1 hr).known⟩,
    fun hr => h2 ⟨hr.fallback, e.symm ▸ hr.nonempty, e.symm ▸ hr.known⟩⟩

end

/-! ## the update -/

/-- The host goes on in an update for the targets `ids`. -/
def Continues (reg : Registry) (options : LinkOptions) (ids : List String)
    (h : ActiveVirtualControllerHost) : Prop :=
  ∃ host, h.host = some host ∧ (∃ id ∈ ids, hostKey reg options id = some h.key) ∧
    (targetIdSet h.targets = idsFor reg options ids h.key ∨ host.supportsDynamicTargets = true)

theorem goesOn_iff {reg : Registry} {options : LinkOptions} {ids : List String}
    {ts : List LinkedTarget} {groups : List PendingVirtualControllerHostGroup}
    (hg : GroupsOf reg options ts groups) (hids : ∀ id, id ∈ targetIdSet ts ↔ id ∈ ids)
    (h : ActiveVirtualControllerHost) : GoesOn groups h ↔ Continues reg options ids h := by
  constructor
  · rintro ⟨host, hh, g, hgm, hk, hor⟩
    refine ⟨host, hh, (hg.exists_iff hids h.key).mp ⟨g, hgm, hk.symm⟩, ?_⟩
    rwa [hk, ← hg.targets_eq hids hgm]
  · rintro ⟨host, hh, hex, hor⟩
    obtain ⟨g, hgm, hk⟩ := (hg.exists_iff hids h.key).mpr hex
    refine ⟨host, hh, g, hgm, hk.symm, ?_⟩
    rwa [hg.targets_eq hids hgm, hk]

section
variable {env : Env} {reg : Registry} {options : LinkOptions} {sel : IdSet} {s s' : Impl}

/-- the controllers of an update in place are the cached ones -/
theorem startControllers_inPlace (hsys : SystemOf s)
    (hch : targetRuntimeOptionsChanged s.activeOptions options = false)
    (hcache : s.discoveredControllerInfos ≠ []) :
    startControllers env options s = s.discoveredControllerInfos := by
  obtain ⟨h1, h2, _⟩ := targetRuntimeOptionsChanged_false hch
  have e : configureLiberaSystem options s = s := configureLiberaSystem_same hsys.liberaSystem
    (hsys.disabledTypes.trans h1) (hsys.drivers.trans h2)
  unfold startControllers
  rw [e, if_neg hcache]

theorem mem_linkedIds_inPlace (hsys : SystemOf s) (hp : InPlace s options sel)
    (hcache : s.discoveredControllerInfos ≠ []) (id : String) : id ∈ linkedIds env options sel s ↔
      id ∈ sel.ids ∧ ∃ info ∈ s.discoveredControllerInfos, info.linkable = true ∧ info.id = id := by
  obtain ⟨_, _, hmax⟩ := targetRuntimeOptionsChanged_false hp.2.2
  have hsel : ∀ info, isControllerSelected sel info = true ↔ info.id ∈ sel.ids := by
    intro info
    unfold isControllerSelected
    rw [Bool.or_eq_true, decide_eq_true_eq, or_iff_right]
    exact fun h => hp.2.1 (List.isEmpty_iff.mp h)
  rw [linkedIds, startControllers_inPlace hsys hp.2.2 hcache, linkedControllers, if_neg (by omega)]
  simp only [List.mem_map, List.mem_filter, Bool.and_eq_true, hsel]
  constructor
  · rintro ⟨info, ⟨hi, hl, hs⟩, rfl⟩
    exact ⟨hs, info, hi, hl, rfl⟩
  · rintro ⟨hs, info, hi, hl, rfl⟩
    exact ⟨info, ⟨hi, hl, hs⟩, rfl⟩

/-- the targets of an update in place are those of the start after a stop -/
theorem desired_ids (hinv : RunningInv s) (hp : InPlace s options sel)
    (hcache : s.discoveredControllerInfos ≠ [])
    (hdistinct : (s.discoveredControllerInfos.map fun i => i.id).Nodup)
    (hconnect : ∀ n i, env.connect n i = true) {m : TargetMap}
    (hm : MapFor env sel s.discoveredControllerInfos s.targets m) (id : String) :
    id ∈ targetIdSet ((desiredTargets sel m).map Prod.snd) ↔ id ∈ linkedIds env options sel s := by
  rw [mem_desiredTargets hm.ids, mem_linkedIds_inPlace hinv.system hp hcache]
  refine and_congr_right fun hsel => ⟨fun hid => ?_, ?_⟩
  · rcases hm.sound id hid with h | ⟨_, info, hi, e, hl, _⟩
    · obtain ⟨info, hi, e, hl⟩ := hinv.cached hcache id h
      exact ⟨info, hi, hl, e⟩
    · exact ⟨info, hi, hl, e⟩
  · rintro ⟨info, hi, hl, rfl⟩
    exact hm.all hconnect hdistinct info hi hl hsel

/-- an update in place of a link that could be restarted has groups -/
theorem restartable_groups (hinv : LinkInv s) (hp : InPlace s options sel)
    (hids : ∀ {m : TargetMap}, MapFor env sel s.discoveredControllerInfos s.targets m → ∀ id,
      id ∈ targetIdSet ((desiredTargets sel m).map Prod.snd) ↔ id ∈ linkedIds env options sel s)
    (hr : Restartable env reg options sel s) :
    ∃ groups, desiredGroups env reg options sel (gateState s) = .ok groups ∧ groups ≠ [] := by
  have hq := gateState_update (gateOf_running.mpr hp.1)
  have hsys := ((gateState_linkInv hinv).running (hq.state.trans hp.1)).system
  obtain ⟨h1, h2, _⟩ := targetRuntimeOptionsChanged_false hp.2.2
  have hm : MapFor env sel s.discoveredControllerInfos s.targets
      (targetsFound env options sel (gateState s)) := by
    have h : MapFor env sel (gateState s).discoveredControllerInfos (gateState s).targets
        (targetsFound env options sel (gateState s)) :=
      (Prog.wp_run (targetsForUpdate_wp (I := fun _ => True) (fun _ _ => trivial) hsys.liberaSystem
        (hsys.disabledTypes.trans (hq.activeOptions ▸ h1))
        (hsys.drivers.trans (hq.activeOptions ▸ h2)) (gateState s).targets)).2
    rwa [hq.infos, hq.targets] at h
  obtain ⟨groups, hg⟩ : ∃ groups, groupTargets reg options
      (desiredTargets sel (targetsFound env options sel (gateState s))) [] = .ok groups := by
    refine groupTargets_desired hm.ids fun id hsel hin => hr.known id ((hids hm id).mp ?_)
    exact (mem_desiredTargets hm.ids id).mpr ⟨hsel, hin⟩
  refine ⟨groups, ?_, ?_⟩
  · rw [desiredGroups, hr.fallback]
    exact hg
  · rintro rfl
    obtain ⟨id, hid⟩ := List.exists_mem_of_ne_nil _ hr.nonempty
    obtain ⟨t, ht, _⟩ := LiberaLink.mem_targetIdSet.mp ((hids hm id).mpr hid)
    obtain ⟨g, hgm, _⟩ := (groupsOf_update hm hg).complete t ht
    cases hgm

/-- **An update in place** in which no host call fails: it ends running, and every host is new or went
on. -/
theorem update_restartable (hinv : LinkInv s) (hp : InPlace s options sel)
    (hcache : s.discoveredControllerInfos ≠ [])
    (hdistinct : (s.discoveredControllerInfos.map fun i => i.id).Nodup)
    (hconnect : ∀ n i, env.connect n i = true) (hw : env.Willing)
    (hr : Restartable env reg options sel s) {new : List HostCall} {r : Bool}
    (hnew : s'.io.calls = s.io.calls ++ new) (hok : ∀ c ∈ new, c.ok = true)
    (h : StartOutcome env reg options sel s r s') :
    s'.state = .running ∧
    Serves reg options (linkedIds env options sel s) s'.virtualControllerHosts ∧
    (∀ h' ∈ s'.virtualControllerHosts, MadeWith options.sliceDurationUs h' ∨
      ∃ h ∈ s.virtualControllerHosts, Continues reg options (linkedIds env options sel s) h ∧
        h'.key = h.key ∧ h'.host = h.host) ∧
    ∀ h ∈ s.virtualControllerHosts, Continues reg options (linkedIds env options sel s) h →
      ∃ h' ∈ s'.virtualControllerHosts, h'.key = h.key ∧ h'.host = h.host := by
  have hids := @desired_ids env options sel s (hinv.running hp.1) hp hcache hdistinct hconnect
  obtain ⟨groups, hg, hne⟩ := restartable_groups hinv hp hids hr
  rcases update_of_groups hp hg h with hnil | ⟨s1, m, hq, hm, hgr, hed⟩
  · exact absurd hnil hne
  · have hgroups := groupsOf_update hm hgr
    have hinv1 := hinv.quiet hq
    have hframe := updateActiveHosts_frame options.sliceDurationUs hgroups.nodup_keys hinv1.tracks hw.1
      fun g hg => hgroups.registered hg
    have hspec := updateActiveHosts_spec env reg options.sliceDurationUs hgroups.nodup_keys
      hinv1.tracks hinv1.keys
    have hslice : Ends (fun _ => True)
        (SliceInv options.sliceDurationUs groups s1.io s1.virtualControllerHosts [])
        (updateActiveHosts env reg options.sliceDurationUs s1.virtualControllerHosts groups s1.io) :=
      updateActiveHosts_slices hgroups.nodup_keys hinv1.tracks
    rcases hed with ⟨e, io, hed, hio⟩ | ⟨st, hed, hstate, hio, hhosts⟩
    · -- an update fails with a call that failed
      rw [hed] at hframe
      rw [hio, ← hq.calls] at hnew
      exact absurd hframe (not_failed_of_ok hnew hok)
    · rw [hed] at hspec hslice
      rw [hio, ← hq.calls] at hnew
      rw [hhosts]
      refine ⟨hstate, hspec.2.serves hgroups (hids hm), fun h' hh' => ?_, fun h hh hcont => ?_⟩
      · rcases hslice.made h' hh' with hmade | ⟨h, hh, hgo, e⟩
        · exact .inl hmade
        · exact .inr ⟨h, hq.hosts ▸ hh, (goesOn_iff hgroups (hids hm) h).mp hgo, e⟩
      · rcases hslice.kept with hfailed | hkept
        · exact absurd hfailed (not_failed_of_ok hnew hok)
        · exact hkept h (hq.hosts.symm ▸ hh) (by simp) ((goesOn_iff hgroups (hids hm) h).mpr hcont)

/-- An update that restarts the link is a stop and a start. -/
theorem start_eq_restart (hrun : s.state = .running) (hne : sel.ids ≠ [])
    (hch : targetRuntimeOptionsChanged s.activeOptions options = true) :
    ((start env reg options sel).run s).2 = restart env reg options sel s := by
  have hupd := gateOf_running.mpr hrun
  have hstate : gateState s = s.withStatus "Updating link..." := by unfold gateState; rw [hupd]
  have hupdate : (updateRunningLink env reg options sel).run (gateState s) =
      (none, afterStop (gateState s)) := by
    unfold updateRunningLink
    rw [if_neg fun e => hne (List.isEmpty_iff.mp e)]
    show Prog.run ((if targetRuntimeOptionsChanged (gateState s).activeOptions options then _ else _ :
      LinkM (Option Bool))) (gateState s) = _
    rw [if_pos (by rw [hstate]; exact hch), Prog.bind_eq, Prog.run_bind, stop_run]
    rfl
  have hstart : (start env reg options sel).run s =
      (startFuel env reg options sel 1).run (afterStop (gateState s)) := by
    show (startFuel env reg options sel (1 + 1)).run s = _
    rw [startFuel_succ, hupd]
    simp only [Prog.bind_eq, Prog.run_bind, hupdate]
  rw [hstart, startFuel_run (gateOf_afterStop _), restart_eq, hstate]
  rfl

end

/-- The hosts that go on in an update in place have the slice duration of the new options. -/
def SlicesAgree (env : Env) (reg : Registry) (options : LinkOptions) (sel : IdSet) (s : Impl) : Prop :=
  targetRuntimeOptionsChanged s.activeOptions options = false →
    ∀ h ∈ s.virtualControllerHosts, Continues reg options (linkedIds env options sel s) h →
      MadeWith options.sliceDurationUs h

/-- **An update and a restart.**  With every connection and every host call succeeding, a start of a
running link and a stop followed by the same start end in the same configuration exactly if the start
has controllers with registered hosts, and either restarts the link or finds the slice duration of the
new options on every host that goes on. -/
theorem update_matches_restart_iff {env : Env} {reg : Registry} {options : LinkOptions} {sel : IdSet}
    {s : Impl} {new : List HostCall} (hr : Reachable reg s) (hend : s.terminated = false)
    (hrun : s.state = .running)
    (hdistinct : (s.discoveredControllerInfos.map fun i => i.id).Nodup)
    (hsel : ∃ info ∈ s.discoveredControllerInfos, info.linkable = true ∧ info.id ∈ sel.ids)
    (hconnect : ∀ n i, env.connect n i = true) (hw : env.Willing)
    (hnew : ((start env reg options sel).run s).2.io.calls = s.io.calls ++ new)
    (hok : ∀ c ∈ new, c.ok = true) :
    SameConfiguration (linkedIds env options sel s) ((start env reg options sel).run s).2
        (restart env reg options sel s) ↔
      Restartable env reg options sel s ∧ SlicesAgree env reg options sel s := by
  have hinv := LinkInv.of_reach hr hend
  obtain ⟨hstart1, hstart2⟩ := @start_restartable env reg options sel s hinv hconnect hw
  obtain ⟨info, hinfo, _, hid⟩ := hsel
  have hcache := List.ne_nil_of_mem hinfo
  have hne := List.ne_nil_of_mem hid
  by_cases hch : targetRuntimeOptionsChanged s.activeOptions options = true
  · -- the link is restarted
    rw [start_eq_restart hrun hne hch]
    constructor
    · exact fun h => ⟨hstart1 h.left.state, fun h => by rw [hch] at h; cases h⟩
    · rintro ⟨hres, _⟩
      obtain ⟨h1, h2, _⟩ := hstart2 hres
      have hconf : Configured (linkedIds env options sel s) (restart env reg options sel s) :=
        ⟨h1, fun id hid => h2.existsUnique hid⟩
      exact ⟨hconf, hconf, rfl⟩
  · -- the hosts are edited in place
    have hch' : targetRuntimeOptionsChanged s.activeOptions options = false := by simpa using hch
    have hout : StartOutcome env reg options sel s _ _ :=
      Prog.wp_run (start_outcome (fun h => (hinv.running h).system) hinv.tracks)
    have hupd := fun hres => update_restartable hinv ⟨hrun, hne, hch'⟩ hcache hdistinct hconnect hw
      hres hnew hok hout
    constructor
    · intro h
      have hres := hstart1 h.right.state
      obtain ⟨_, _, hmade⟩ := hstart2 hres
      refine ⟨hres, fun _ k hk hcont => ?_⟩
      obtain ⟨k', hk', _, e⟩ := (hupd hres).2.2.2 k hk hcont
      have hm := madeWith_of_hostSet hmade h.hosts hk'
      unfold MadeWith at hm ⊢
      rwa [e] at hm
    · rintro ⟨hres, hslices⟩
      obtain ⟨h1, h2, hmade⟩ := hstart2 hres
      obtain ⟨u1, u2, u3, _⟩ := hupd hres
      refine ⟨⟨u1, fun id hid => u2.existsUnique hid⟩, ⟨h1, fun id hid => h2.existsUnique hid⟩, ?_⟩
      refine u2.hostSet_eq h2 (fun k' hk' => ?_) hmade
      rcases u3 k' hk' with hm | ⟨k, hk, hcont, _, e⟩
      · exact hm
      · have hm := hslices hch' k hk hcont
        unfold MadeWith at hm ⊢
        rwa [e]

/-- a second target on a host that takes targets while running -/
theorem update_matches_restart_iff_libera :
    let env := succeeding [controller "a", controller "b"]
    let options : LinkOptions := { virtualControllerHostId := "libera" }
    let s := runCall registry {} (env, .start options (.single "a"))
    SameConfiguration (linkedIds env options (.pair "a" "b" (by decide)) s)
      ((start env registry options (.pair "a" "b" (by decide))).run s).2
      (restart env registry options (.pair "a" "b" (by decide)) s) := by
  intro env options s
  have hslice : ∀ h ∈ s.virtualControllerHosts,
      h.host.map (fun host => host.config.sliceDurationUs) = some 15000 := by decide +kernel
  refine (@update_matches_restart_iff env registry options (.pair "a" "b" (by decide)) s
    [.addTarget 0 "b" true] ((Reach.start).next _ trivial) (by decide +kernel) (by decide +kernel)
    (by decide +kernel) (by decide +kernel) (fun _ _ => rfl) (succeeding_willing _)
    (by decide +kernel) (by decide)).mpr ⟨⟨by decide +kernel, by decide +kernel, by decide +kernel⟩, ?_⟩
  exact fun _ h hh _ => hslice h hh

/-- A changed slice duration does not reach the host that goes on. -/
theorem slice_duration_kept :
    let env := succeeding [controller "a"]
    let options : LinkOptions := { sliceDurationUs := 20000 }
    let s := runCall registry {} (env, .start {} (.single "a"))
    Reachable registry s ∧ s.terminated = false ∧ s.state = .running ∧
      (s.discoveredControllerInfos.map fun i => i.id) = ["a"] ∧
      (∀ info ∈ s.discoveredControllerInfos, info.linkable = true) ∧ env.Willing ∧
      (∀ n i, env.connect n i = true) ∧
      ((start env registry options (.single "a")).run s).2.io.calls = s.io.calls ∧
      ¬ SameConfiguration (linkedIds env options (.single "a") s)
        ((start env registry options (.single "a")).run s).2
        (restart env registry options (.single "a") s) := by
  refine ⟨(Reach.start).next _ trivial, by decide +kernel, by decide +kernel, by decide +kernel,
    by decide +kernel, succeeding_willing _, fun _ _ => rfl, by decide +kernel, fun h => ?_⟩
  have h1 := h.hosts
  revert h1
  decide +kernel

end LiberaLink
