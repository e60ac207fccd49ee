import LiberaLink.Runtime.Update

/-!
# What a running update leaves behind

`UpdateInv` is the invariant of the two loops of `updateActiveHosts`: the hosts already passed and
the hosts still ahead are exactly the hosts that run, no key occurs twice, and the handled groups
are the ones realised so far.

* `UpdateInv.turn`           one turn keeps the invariant;
* `Realises`                 the new list has one host for each group;
* `updateActiveHosts_spec`   **after a success it realises the groups, after a failure no host runs**.
-/

namespace LiberaLink

theorem HostLog.world_append {io io' : HostLog} {cs : List HostCall}
    (h : io'.calls = io.calls ++ cs) : io'.world = worldAfter io.world cs := by
  show worldAfter _ io'.calls = _
  rw [h, worldAfter_append]
  rfl

/-- an edit that does not succeed has touched no other host -/
theorem editTargets_false {env : Env} {h : ActiveVirtualControllerHost}
    {g : PendingVirtualControllerHostGroup} {io io' : HostLog} {host : VirtualControllerHost}
    (he : editTargets env h g io = (false, io')) (hh : h.host = some host) :
    io'.nextHost = io.nextHost ∧ ∃ cs, io'.calls = io.calls ++ cs ∧
      ∀ c ∈ cs, EditCall host.serial h.targets g.targets c := by
  rcases editTargets_spec env h g io with ⟨_, _, h1, _⟩ | ⟨host', io1, cs, id, h1, h2, h3, h4, h5, _⟩ |
    ⟨h1, _⟩
  · rw [he] at h1; cases h1
  · obtain rfl : host' = host := Option.some.inj (h2.symm.trans hh)
    obtain rfl : io' = io1 := by rw [he] at h1; exact (Prod.mk.inj h1).2
    exact ⟨h3, cs, h4, h5⟩
  · obtain rfl : io' = io := by rw [he] at h1; exact (Prod.mk.inj h1).2
    exact ⟨rfl, [], by simp, by simp⟩

/-- an edit that succeeds has made exactly the calls of the edit -/
theorem editTargets_true {env : Env} {h : ActiveVirtualControllerHost}
    {g : PendingVirtualControllerHostGroup} {io io' : HostLog}
    (he : editTargets env h g io = (true, io')) : ∃ host, h.host = some host ∧
      host.supportsDynamicTargets = true ∧ io'.nextHost = io.nextHost ∧
      io'.calls = io.calls ++ editCalls host.serial h.targets g.targets := by
  rcases editTargets_spec env h g io with ⟨host, io1, h1, h2, h3, h4, h5⟩ | ⟨_, _, _, _, h1, _⟩ |
    ⟨h1, _⟩
  · obtain rfl : io' = io1 := by rw [he] at h1; exact (Prod.mk.inj h1).2
    exact ⟨host, h2, h3, h4, h5⟩
  · rw [he] at h1; cases h1
  · rw [he] at h1; cases h1

section
variable {env : Env} {g : PendingVirtualControllerHostGroup} {h : ActiveVirtualControllerHost}
  {io io' : HostLog} {a b : List ActiveVirtualControllerHost}

theorem Tracks.editTargets (ht : Tracks io (a ++ h :: b))
    (he : LiberaLink.editTargets env h g io = (true, io')) :
    Tracks io' (a ++ { h with targets := g.targets } :: b) := by
  obtain ⟨host, hh, _, hn, hc⟩ := editTargets_true he
  obtain ⟨host', hh', hw⟩ := ht.serves h (by simp)
  obtain rfl : host' = host := Option.some.inj (hh'.symm.trans hh)
  have hworld := HostLog.world_append hc
  have hnew : ({ h with targets := g.targets } : ActiveVirtualControllerHost).host = some host' := hh
  refine ht.replace hh hnew rfl hn.ge (fun n hne => ?_) ?_
  · rw [hworld]
    exact worldAfter_of_ne _ _ fun c hc => by rw [editCalls_host hc]; exact hne.symm
  · rw [hworld]
    exact worldAfter_editCalls hw

/-- a host whose edit failed is stopped -/
theorem Tracks.stopHost_of_edit (ht : Tracks io (a ++ h :: b))
    (he : LiberaLink.editTargets env h g io = (false, io')) :
    Tracks (LiberaLink.stopHost h io') (a ++ b) := by
  obtain ⟨host, hh, _⟩ := ht.serves h (by simp)
  obtain ⟨hn, cs, hc, hcs⟩ := editTargets_false he hh
  have e : LiberaLink.stopHost h io' = host.stop io' := by simp [LiberaLink.stopHost, hh]
  rw [e]
  refine ht.remove hh (hn.ge.trans (le_refl _)) (fun n hne => ?_) ?_
  · rw [← worldAfter_of_ne io.world cs fun c hc => by rw [(hcs c hc).host]; exact hne.symm,
      ← HostLog.world_append hc]
    simp [VirtualControllerHost.stop, HostCall.apply, hne]
  · simp [VirtualControllerHost.stop, HostCall.apply]

end

/-- stopping a list of hosts leaves the others as they are -/
theorem world_stopHosts (hosts : List ActiveVirtualControllerHost) (io : HostLog) (n : Nat) :
    (stopHosts hosts io).world n =
      if n ∈ hosts.filterMap (fun h => h.serial?) then none else io.world n := by
  induction hosts generalizing io with
  | nil => rfl
  | cons h hosts ih =>
    show (stopHosts hosts (stopHost h io)).world n = _
    rw [ih]
    unfold stopHost
    cases hh : h.host with
    | none =>
      have e : h.serial? = none := by rw [ActiveVirtualControllerHost.serial?, hh]; rfl
      rw [List.filterMap_cons_none e]
    | some host =>
      rw [List.filterMap_cons_some (Tracks.serial?_eq hh)]
      by_cases hm : n ∈ hosts.filterMap fun h => h.serial?
      · rw [if_pos hm, if_pos (List.mem_cons_of_mem _ hm)]
      · rw [if_neg hm]
        by_cases hn : n = host.serial
        · rw [if_pos (List.mem_cons.mpr (.inl hn)), hn]
          simp [VirtualControllerHost.stop, HostCall.apply]
        · rw [if_neg (by rw [List.mem_cons, not_or]; exact ⟨hn, hm⟩)]
          simp [VirtualControllerHost.stop, HostCall.apply, hn]

/-- `failUpdate` leaves no running host -/
theorem world_failUpdate {st : UpdateLoop} {ahead ahead' : List ActiveVirtualControllerHost}
    (ht : Tracks st.io (st.next ++ ahead)) (hsub : ∀ h ∈ ahead, h ∈ ahead') (n : Nat) :
    (failUpdate st ahead').world n = none := by
  unfold failUpdate
  rw [world_stopHosts]
  by_cases hm : n ∈ (st.past ++ ahead').filterMap fun h => h.serial?
  · exact if_pos hm
  · rw [if_neg hm]
    cases hw : (stopHosts st.next st.io).world n with
    | none => rfl
    | some S =>
      obtain ⟨h, hh, hs⟩ := List.mem_filterMap.mp (ht.stopHosts.complete n S hw)
      exact absurd (List.mem_filterMap.mpr ⟨h, List.mem_append_right _ (hsub h hh), hs⟩) hm

/-- **The invariant of both loops.**  `ahead` are the active hosts not yet passed. -/
structure UpdateInv (groups : List PendingVirtualControllerHostGroup)
    (ahead : List ActiveVirtualControllerHost) (st : UpdateLoop) : Prop where
  tracks : Tracks st.io (st.next ++ ahead)
  keys : ((st.next ++ ahead).map fun h => h.key).Nodup
  realise : ∀ h ∈ st.next, ∃ g ∈ groups, h.key = g.key ∧
    targetIdSet h.targets = targetIdSet g.targets
  handled : ∀ g i, (g, i) ∈ groups.zipIdx → (i ∈ st.handled ↔ ∃ h ∈ st.next, h.key = g.key)

/-- a group's key names its place -/
theorem zipIdx_key_iff {groups : List PendingVirtualControllerHostGroup}
    (hk : (groups.map fun g => g.key).Nodup) {g g' : PendingVirtualControllerHostGroup} {i i' : Nat}
    (hg : (g, i) ∈ groups.zipIdx) (hg' : (g', i') ∈ groups.zipIdx) : g.key = g'.key ↔ i' = i := by
  rw [List.mk_mem_zipIdx_iff_getElem?] at hg hg'
  have hi := (List.getElem?_eq_some_iff.mp hg).1
  constructor
  · intro e
    have hi' := (List.getElem?_eq_some_iff.mp hg').1
    refine (List.getElem?_inj (by rw [List.length_map]; exact hi') hk).mp ?_
    rw [List.getElem?_map, List.getElem?_map, hg, hg', Option.map_some, Option.map_some, e]
  · rintro rfl
    rw [hg] at hg'
    rw [Option.some.inj hg']

namespace UpdateInv
variable {groups : List PendingVirtualControllerHostGroup} {st : UpdateLoop}
  {ahead : List ActiveVirtualControllerHost} {h h' : ActiveVirtualControllerHost}
  {g : PendingVirtualControllerHostGroup} {i : Nat}

/-- before the loops -/
theorem init {io : HostLog} {hosts : List ActiveVirtualControllerHost} (ht : Tracks io hosts)
    (hk : (hosts.map fun h => h.key).Nodup) : UpdateInv groups hosts { io := io } where
  tracks := ht
  keys := hk
  realise := by simp
  handled := by simp

/-- the host at hand now realises its group, whatever was done for it -/
theorem matched (hinv : UpdateInv groups (h :: ahead) st) (hgk : (groups.map fun g => g.key).Nodup)
    (hg : (g, i) ∈ groups.zipIdx) (hk : h.key = g.key) (hk' : h'.key = g.key)
    (hids : targetIdSet h'.targets = targetIdSet g.targets) {io : HostLog}
    {past : List ActiveVirtualControllerHost} (ht : Tracks io (st.next ++ h' :: ahead)) :
    UpdateInv groups ahead ⟨io, st.next ++ [h'], past, i :: st.handled⟩ where
  tracks := by rw [List.append_assoc]; exact ht
  keys := by
    have e : ((st.next ++ [h']) ++ ahead).map (fun h => h.key)
        = (st.next ++ h :: ahead).map fun h => h.key := by
      simp [hk, hk']
    rw [e]
    exact hinv.keys
  realise k hk1 := by
    rcases List.mem_append.mp hk1 with hk1 | hk1
    · exact hinv.realise k hk1
    · rw [List.mem_singleton] at hk1
      exact ⟨g, List.fst_mem_of_mem_zipIdx hg, hk1 ▸ hk', hk1 ▸ hids⟩
  handled g' i' hg' := by
    rw [List.mem_cons, hinv.handled g' i' hg', ← zipIdx_key_iff hgk hg hg']
    constructor
    · rintro (e | ⟨k, hk1, hk2⟩)
      · exact ⟨h', by simp, hk'.trans e⟩
      · exact ⟨k, List.mem_append_left _ hk1, hk2⟩
    · rintro ⟨k, hk1, hk2⟩
      rcases List.mem_append.mp hk1 with hk1 | hk1
      · exact .inr ⟨k, hk1, hk2⟩
      · rw [List.mem_singleton] at hk1
        exact .inl (hk'.symm.trans (hk1 ▸ hk2))

/-- **One turn.** -/
theorem turn {env : Env} {reg : Registry} {slice : Nat} {r : Except (String × HostLog) UpdateLoop}
    (hgk : (groups.map fun g => g.key).Nodup) (hinv : UpdateInv groups (h :: ahead) st)
    (ht : HostTurn env reg slice groups h ahead st r) :
    Ends (fun e => e.1 ≠ "" ∧ ∀ n, e.2.world n = none) (UpdateInv groups ahead) r := by
  cases ht with
  | stopped hno =>
    exact {
      tracks := hinv.tracks.stopHost
      keys := hinv.keys.sublist (by simp)
      realise := hinv.realise
      handled := hinv.handled }
  | kept hg hk he => exact hinv.matched hgk hg hk hk he hinv.tracks
  | @edited g i io hg hk hne he =>
    have hk' : ({ h with targets := g.targets } : ActiveVirtualControllerHost).key = g.key := hk
    exact hinv.matched hgk hg hk hk' rfl (hinv.tracks.editTargets he)
  | restarted hg hk hne he hs =>
    have h2 := (hinv.tracks.stopHost_of_edit he).startActiveHostGroup hs
    obtain ⟨host, rfl, _⟩ := startActiveHostGroup_started hs
    exact hinv.matched hgk hg hk rfl rfl h2
  | failed hg hk hne he hs =>
    rcases startActiveHostGroup_spec env reg _ slice (LiberaLink.stopHost h _) with
      ⟨e, io'', h1, he', hw, hn⟩ | ⟨host, io'', h1, _⟩
    · rw [h1] at hs
      obtain ⟨rfl, rfl⟩ : e = _ ∧ io'' = _ := by simpa using hs
      have ht2 : Tracks io'' (st.next ++ ahead) := (hinv.tracks.stopHost_of_edit he).congr hw hn
      exact ⟨he', world_failUpdate ht2 fun k hk => List.mem_cons_of_mem _ hk⟩
    · rw [h1] at hs; cases hs

end UpdateInv

/-- The hosts `hosts` realise the groups: one host for each group, with the group's key and target
ids. -/
structure Realises (hosts : List ActiveVirtualControllerHost)
    (groups : List PendingVirtualControllerHostGroup) : Prop where
  keys : (hosts.map fun h => h.key).Nodup
  sound : ∀ h ∈ hosts, ∃ g ∈ groups, h.key = g.key ∧ targetIdSet h.targets = targetIdSet g.targets
  complete : ∀ g ∈ groups, ∃ h ∈ hosts, h.key = g.key ∧
    targetIdSet h.targets = targetIdSet g.targets

namespace Realises
variable {hosts : List ActiveVirtualControllerHost}
  {groups : List PendingVirtualControllerHostGroup}

theorem eq_of_key (hr : Realises hosts groups) {h h' : ActiveVirtualControllerHost}
    (hh : h ∈ hosts) (hh' : h' ∈ hosts) (e : h.key = h'.key) : h = h' :=
  List.inj_on_of_nodup_map hr.keys hh hh' e

/-- **exactly one host realises a group** -/
theorem existsUnique (hr : Realises hosts groups) {g : PendingVirtualControllerHostGroup}
    (hg : g ∈ groups) : ∃ h ∈ hosts, (h.key = g.key ∧ targetIdSet h.targets = targetIdSet g.targets) ∧
      ∀ h' ∈ hosts, h'.key = g.key → h' = h := by
  obtain ⟨h, hh, hk, hi⟩ := hr.complete g hg
  exact ⟨h, hh, ⟨hk, hi⟩, fun h' hh' hk' => hr.eq_of_key hh' hh (hk'.trans hk.symm)⟩

/-- what realises groups without a common target has no common target -/
theorem disjoint (hr : Realises hosts groups)
    (hd : ∀ g ∈ groups, ∀ g' ∈ groups, g.key ≠ g'.key →
      Disjoint (targetIdSet g.targets) (targetIdSet g'.targets))
    {h h' : ActiveVirtualControllerHost} (hh : h ∈ hosts) (hh' : h' ∈ hosts) (hne : h.key ≠ h'.key) :
    Disjoint (targetIdSet h.targets) (targetIdSet h'.targets) := by
  obtain ⟨g, hg, hk, hi⟩ := hr.sound h hh
  obtain ⟨g', hg', hk', hi'⟩ := hr.sound h' hh'
  rw [hi, hi']
  exact hd g hg g' hg' fun e => hne (hk.trans (e.trans hk'.symm))

theorem ne_nil (hr : Realises hosts groups) (hg : groups ≠ []) : hosts ≠ [] := by
  obtain ⟨g, hg⟩ := List.exists_mem_of_ne_nil _ hg
  obtain ⟨h, hh, _⟩ := hr.complete g hg
  exact List.ne_nil_of_mem hh

end Realises

/-- The invariant of the loop over the groups that were not handled; `rest` is what is left. -/
structure NewGroupsInv (groups : List PendingVirtualControllerHostGroup)
    (rest : List (PendingVirtualControllerHostGroup × Nat)) (st : UpdateLoop) : Prop where
  tracks : Tracks st.io st.next
  keys : (st.next.map fun h => h.key).Nodup
  realise : ∀ h ∈ st.next, ∃ g ∈ groups, h.key = g.key ∧
    targetIdSet h.targets = targetIdSet g.targets
  suffix : rest <:+ groups.zipIdx
  handled : ∀ p ∈ rest, (p.2 ∈ st.handled ↔ ∃ h ∈ st.next, h.key = p.1.key)
  done : ∀ p ∈ groups.zipIdx, p ∈ rest ∨ ∃ h ∈ st.next, h.key = p.1.key

/-- between the loops -/
theorem UpdateInv.newGroups {groups : List PendingVirtualControllerHostGroup} {st : UpdateLoop}
    (h : UpdateInv groups [] st) : NewGroupsInv groups groups.zipIdx st where
  tracks := by simpa using h.tracks
  keys := by simpa using h.keys
  realise := h.realise
  suffix := List.suffix_refl _
  handled p hp := h.handled p.1 p.2 hp
  done _ hp := .inl hp

namespace NewGroupsInv
variable {env : Env} {reg : Registry} {slice : Nat} {st : UpdateLoop}
  {groups : List PendingVirtualControllerHostGroup} {g : PendingVirtualControllerHostGroup} {i : Nat}
  {rest : List (PendingVirtualControllerHostGroup × Nat)}

theorem skip (hinv : NewGroupsInv groups ((g, i) :: rest) st) (hi : i ∈ st.handled) :
    NewGroupsInv groups rest st where
  tracks := hinv.tracks
  keys := hinv.keys
  realise := hinv.realise
  suffix := (List.suffix_cons _ _).trans hinv.suffix
  handled p hp := hinv.handled p (List.mem_cons_of_mem _ hp)
  done p hp := by
    rcases hinv.done p hp with hm | hm
    · rcases List.mem_cons.mp hm with rfl | hm
      · exact .inr ((hinv.handled _ List.mem_cons_self).mp hi)
      · exact .inl hm
    · exact .inr hm

theorem started (hgk : (groups.map fun g => g.key).Nodup)
    (hinv : NewGroupsInv groups ((g, i) :: rest) st) (hi : i ∉ st.handled)
    {h : ActiveVirtualControllerHost} {io : HostLog}
    (hs : startActiveHostGroup env reg g slice st.io = (.ok h, io)) :
    NewGroupsInv groups rest { st with io := io, next := st.next ++ [h] } := by
  have hg : (g, i) ∈ groups.zipIdx := hinv.suffix.subset List.mem_cons_self
  have hno := (not_congr (hinv.handled _ List.mem_cons_self)).mp hi
  have ht := Tracks.startActiveHostGroup (a := st.next) (b := []) (by simpa using hinv.tracks) hs
  have hkey : h.key = g.key ∧ targetIdSet h.targets = targetIdSet g.targets := by
    obtain ⟨host, rfl, _⟩ := startActiveHostGroup_started hs
    exact ⟨rfl, rfl⟩
  have hnodup : (((g, i) :: rest).map Prod.snd).Nodup :=
    (hinv.suffix.map Prod.snd).sublist.nodup (by
      rw [List.zipIdx_map_snd]; exact List.nodup_range')
  constructor
  · exact ht
  · rw [List.map_append, List.nodup_append]
    refine ⟨hinv.keys, List.nodup_singleton _, fun a ha b hb hab => hno ?_⟩
    obtain ⟨k, hk, rfl⟩ := List.mem_map.mp ha
    rw [List.map_singleton, List.mem_singleton] at hb
    exact ⟨k, hk, hab.trans (hb.trans hkey.1)⟩
  · intro k hk
    rcases List.mem_append.mp hk with hk | hk
    · exact hinv.realise k hk
    · rw [List.mem_singleton] at hk
      exact ⟨g, List.fst_mem_of_mem_zipIdx hg, hk ▸ hkey.1, hk ▸ hkey.2⟩
  · exact (List.suffix_cons _ _).trans hinv.suffix
  · intro p hp
    rw [hinv.handled p (List.mem_cons_of_mem _ hp)]
    constructor
    · rintro ⟨k, hk, e⟩
      exact ⟨k, List.mem_append_left _ hk, e⟩
    · rintro ⟨k, hk, e⟩
      rcases List.mem_append.mp hk with hk | hk
      · exact ⟨k, hk, e⟩
      · rw [List.mem_singleton] at hk
        have e' : p.2 = i := (zipIdx_key_iff hgk hg (hinv.suffix.subset
          (List.mem_cons_of_mem _ hp))).mp (hkey.1.symm.trans (hk ▸ e))
        rw [List.map_cons, List.nodup_cons] at hnodup
        exact absurd (List.mem_map.mpr ⟨p, hp, e'⟩) hnodup.1
  · intro p hp
    rcases hinv.done p hp with hm | ⟨k, hk, e⟩
    · rcases List.mem_cons.mp hm with rfl | hm
      · exact .inr ⟨h, by simp, hkey.1⟩
      · exact .inl hm
    · exact .inr ⟨k, List.mem_append_left _ hk, e⟩

end NewGroupsInv

section
variable {env : Env} {reg : Registry} {slice : Nat} {io : HostLog}
  {hosts : List ActiveVirtualControllerHost} {groups : List PendingVirtualControllerHostGroup}

/-- what the loops keep for every step they take, from the active hosts to the new groups -/
theorem updateActiveHosts_rule {E : String × HostLog → Prop}
    {P : List ActiveVirtualControllerHost → UpdateLoop → Prop}
    {Q : List (PendingVirtualControllerHostGroup × Nat) → UpdateLoop → Prop}
    (turn : ∀ h ahead st r, P (h :: ahead) st → HostTurn env reg slice groups h ahead st r →
      Ends E (P ahead) r)
    (mid : ∀ st, P [] st → Q groups.zipIdx st)
    (skip : ∀ g i rest st, Q ((g, i) :: rest) st → i ∈ st.handled → Q rest st)
    (started : ∀ g i rest st h io, Q ((g, i) :: rest) st → i ∉ st.handled →
      startActiveHostGroup env reg g slice st.io = (.ok h, io) →
      Q rest { st with io := io, next := st.next ++ [h] })
    (failed : ∀ g i rest st e io, Q ((g, i) :: rest) st → i ∉ st.handled →
      startActiveHostGroup env reg g slice st.io = (.error e, io) →
      E (e, failUpdate { st with io := io } []))
    (h0 : P hosts { io := io }) :
    Ends E (Q []) (updateActiveHosts env reg slice hosts groups io) := by
  unfold updateActiveHosts
  have h1 := updateHosts_rule turn hosts _ h0
  cases hr : updateHosts env reg slice groups hosts { io := io } with
  | error e => rw [hr] at h1; exact h1
  | ok st =>
    rw [hr] at h1
    exact startNewGroups_rule skip started failed _ st (mid st h1)

/-- **The update.**  It ends with hosts that realise the groups and no other running host, or in an
error with no running host at all. -/
theorem updateActiveHosts_spec (env : Env) (reg : Registry) (slice : Nat)
    (hgk : (groups.map fun g => g.key).Nodup) (ht : Tracks io hosts)
    (hk : (hosts.map fun h => h.key).Nodup) :
    Ends (fun e => e.1 ≠ "" ∧ ∀ n, e.2.world n = none)
      (fun st => Tracks st.io st.next ∧ Realises st.next groups)
      (updateActiveHosts env reg slice hosts groups io) := by
  have h : Ends (fun e => e.1 ≠ "" ∧ ∀ n, e.2.world n = none) (NewGroupsInv groups [])
      (updateActiveHosts env reg slice hosts groups io) := updateActiveHosts_rule
    (P := UpdateInv groups)
    (fun h ahead st r hp hr => hp.turn hgk hr)
    (fun st hp => hp.newGroups)
    (fun g i rest st hq hi => hq.skip hi)
    (fun g i rest st h io hq hi hs => hq.started hgk hi hs)
    (fun g i rest st e io' hq hi hs => ?_)
    (UpdateInv.init ht hk)
  · cases hr : updateActiveHosts env reg slice hosts groups io with
    | error e => rw [hr] at h; exact h
    | ok st =>
      rw [hr] at h
      refine ⟨h.tracks, h.keys, h.realise, fun g hg => ?_⟩
      obtain ⟨i, hi⟩ := List.getElem?_of_mem hg
      rcases h.done (g, i) (List.mk_mem_zipIdx_iff_getElem?.mpr hi) with hm | ⟨k, hk1, hk2⟩
      · cases hm
      · obtain ⟨g', hg', e, hids⟩ := h.realise k hk1
        obtain rfl : g' = g := List.inj_on_of_nodup_map hgk hg' hg (e.symm.trans hk2)
        exact ⟨k, hk1, hk2, hids⟩
  · rcases startActiveHostGroup_spec env reg g slice st.io with
      ⟨e', io'', h1, he', hw, hn⟩ | ⟨host, io'', h1, _⟩
    · rw [h1] at hs
      obtain ⟨rfl, rfl⟩ : e' = e ∧ io'' = io' := by simpa using hs
      have ht2 : Tracks io'' (st.next ++ []) := by simpa using hq.tracks.congr hw hn
      exact ⟨he', world_failUpdate ht2 (by simp)⟩
    · rw [h1] at hs; cases hs

/-- with hosts that start when asked to, an update does not fail -/
theorem updateActiveHosts_willing (hw : env.Willing)
    (hreg : ∀ g ∈ groups, reg.registration g.info.id ≠ none) (slice : Nat)
    (hosts : List ActiveVirtualControllerHost) (io : HostLog) :
    ∃ st, updateActiveHosts env reg slice hosts groups io = .ok st := by
  have never : ∀ {g e io io'}, g ∈ groups →
      startActiveHostGroup env reg g slice io ≠ (.error e, io') := by
    intro g e io io' hg h
    obtain ⟨k, io'', h'⟩ := startActiveHostGroup_willing hw (hreg g hg) slice io
    rw [h'] at h
    cases h
  have h : Ends (fun _ => False) (fun _ => [] <:+ groups.zipIdx)
      (updateActiveHosts env reg slice hosts groups io) := updateActiveHosts_rule
    (E := fun _ => False) (P := fun _ _ => True) (Q := fun rest _ => rest <:+ groups.zipIdx)
    (fun h ahead st r _ ht => by
      cases ht with
      | failed hg hk hne he hs => exact never (List.fst_mem_of_mem_zipIdx hg) hs
      | _ => trivial)
    (fun _ _ => List.suffix_refl _)
    (fun g i rest st h _ => (List.suffix_cons _ _).trans h)
    (fun g i rest st h io hs _ _ => (List.suffix_cons _ _).trans hs)
    (fun g i rest st e io hs _ h => never
      (List.fst_mem_of_mem_zipIdx (hs.subset List.mem_cons_self)) h)
    trivial
  cases hr : updateActiveHosts env reg slice hosts groups io with
  | error e => rw [hr] at h; exact False.elim h
  | ok st => exact ⟨st, rfl⟩

end
end LiberaLink
