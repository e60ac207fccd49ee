import LiberaLink.Runtime.Quiet
import LiberaLink.Runtime.UpdateInv

/-!
# Rules for `start`

One rule for each part of `start`: what has to be shown for a postcondition, with everything before
the hosts discharged by `Quiet`.

* `Held`                       the link itself, without system, messages and flag;
* `startLink_rule`             a start from the ground up;
* `startHostGroups_wp`         the loop that starts the hosts;
* `updateRunningLink_rule`, `regroup_rule`   an update;
* `start_rule`                 the call, `start_fuel` that two calls of itself are enough.
-/

namespace LiberaLink
open Stepwise Impl

namespace Impl

/-- the state reduced to the hosts, the targets and the thread -/
def link (s : Impl) : Impl :=
  { s.core with
    state := .stopped
    stopRequested := false
    liberaSystem := false
    discoveredControllerInfos := []
    activeDisabledControllerTypes := ∅
    activeSelectedControllerDrivers := ∅ }

end Impl

/-- `s'` holds the same link as `s`: the same hosts, targets, thread and host calls. -/
def Held (s s' : Impl) : Prop := s'.link = s.link

namespace Held
variable {s s' s'' : Impl}

theorem refl (s : Impl) : Held s s := rfl
theorem trans (h : Held s s') (h' : Held s' s'') : Held s s'' := Eq.trans h' h
theorem of_quiet (h : Quiet s s') : Held s s' := Quiet.field Impl.link (fun _ => rfl) h

theorem field {α : Type} (f : Impl → α) (hf : ∀ s, f s.link = f s) (h : Held s s') : f s' = f s := by
  rw [← hf s', ← hf s]
  exact congrArg f h

section
variable (h : Held s s')
include h

theorem hosts : s'.virtualControllerHosts = s.virtualControllerHosts :=
  field Impl.virtualControllerHosts (fun _ => rfl) h
theorem thread : s'.monitorThread = s.monitorThread := field Impl.monitorThread (fun _ => rfl) h
theorem targets : s'.targets = s.targets := field Impl.targets (fun _ => rfl) h
theorem activeOptions : s'.activeOptions = s.activeOptions :=
  field Impl.activeOptions (fun _ => rfl) h
theorem terminated : s'.terminated = s.terminated := field Impl.terminated (fun _ => rfl) h
theorem calls : s'.io.calls = s.io.calls := field (fun s => s.io.calls) (fun _ => rfl) h
theorem nextHost : s'.io.nextHost = s.io.nextHost := field (fun s => s.io.nextHost) (fun _ => rfl) h

theorem world : s'.io.world = s.io.world := by
  show worldAfter _ s'.io.calls = _
  rw [h.calls]; rfl

theorem tracks {hosts : List ActiveVirtualControllerHost} (ht : Tracks s.io hosts) :
    Tracks s'.io hosts := ht.congr h.world h.nextHost.ge

end

theorem withState (s : Impl) (st : RuntimeState) (m : String) : Held s (s.withState st m) := rfl
theorem withStop (s : Impl) (b : Bool) : Held s (s.withStop b) := rfl

theorem configure (options : LinkOptions) (s : Impl) : Held s (configureLiberaSystem options s) := by
  unfold configureLiberaSystem; split <;> rfl

end Held

/-- The state of a start before its hosts: the link is still the one of `s`, and the system is
configured. -/
structure Ready (s : Impl) (options : LinkOptions) (s1 : Impl) : Prop where
  held : Held s s1
  state : s1.state = .starting
  stopRequested : s1.stopRequested = false
  liberaSystem : s1.liberaSystem = true
  disabledTypes : s1.activeDisabledControllerTypes = options.disabledControllerTypes
  drivers : s1.activeSelectedControllerDrivers = options.selectedControllerDrivers

theorem Ready.quiet {s s1 s2 : Impl} {options : LinkOptions} (h : Ready s options s1)
    (hq : Quiet s1 s2) : Ready s options s2 where
  held := h.held.trans (.of_quiet hq)
  state := hq.state.trans h.state
  stopRequested := hq.stopRequested.trans h.stopRequested
  liberaSystem := hq.liberaSystem.trans h.liberaSystem
  disabledTypes := hq.disabledTypes.trans h.disabledTypes
  drivers := hq.drivers.trans h.drivers

namespace LinkRuntime
variable {I : Impl → Prop} {s : Impl} {env : Env} {reg : Registry} {options : LinkOptions}
  {sel : IdSet}

theorem configureLiberaSystem_spec (options : LinkOptions) (s : Impl) :
    (configureLiberaSystem options s).liberaSystem = true ∧
    (configureLiberaSystem options s).activeDisabledControllerTypes =
      options.disabledControllerTypes ∧
    (configureLiberaSystem options s).activeSelectedControllerDrivers =
      options.selectedControllerDrivers ∧
    (configureLiberaSystem options s).state = s.state ∧
    (configureLiberaSystem options s).stopRequested = s.stopRequested := by
  unfold configureLiberaSystem
  split
  · rename_i h
    exact ⟨h.1, h.2.1, h.2.2, rfl, rfl⟩
  · exact ⟨rfl, rfl, rfl, rfl, rfl⟩

/-- the cache that a configured system keeps depends on the system and on the cache before -/
theorem configureLiberaSystem_cache {s' : Impl} (hsys : s'.liberaSystem = s.liberaSystem)
    (hd : s'.activeDisabledControllerTypes = s.activeDisabledControllerTypes)
    (hs : s'.activeSelectedControllerDrivers = s.activeSelectedControllerDrivers)
    (hinfos : s'.discoveredControllerInfos = s.discoveredControllerInfos) :
    (configureLiberaSystem options s').discoveredControllerInfos =
      (configureLiberaSystem options s).discoveredControllerInfos := by
  unfold configureLiberaSystem
  rw [hsys, hd, hs]
  split
  · exact hinfos
  · rfl

/-! ## a start from the ground up -/

/-- The controllers that a start from `s` has: the cached ones that its system keeps, or those of a
new discovery. -/
def startControllers (env : Env) (options : LinkOptions) (s : Impl) : List ControllerInfo :=
  if (configureLiberaSystem options s).discoveredControllerInfos = [] then
    controllersFound env options.discoveryTimeoutMs s.io.ticks
  else (configureLiberaSystem options s).discoveredControllerInfos

/-- Why a start can fail before its hosts. -/
def StartFails (env : Env) (reg : Registry) (options : LinkOptions) (sel : IdSet) (s : Impl) : Prop :=
  fallbackUnknown reg options = true ∨ startControllers env options s = [] ∨
  ∃ targets, Connected env options sel (startControllers env options s) targets ∧
    (targets = [] ∨
      ∃ e, groupTargets reg options (targets.map fun t => (t.info.id, t)) [] = .error e)

section
variable {Q : Bool → Impl → Prop}
  (hI : ∀ s', s'.monitorThread = s.monitorThread → s'.terminated = s.terminated → I s')
include hI

theorem failWith_wp {s1 : Impl} (hh : Held s s1) (e : String)
    (hQ : ∀ s2, Held s s2 → s2.state = .failed → Q false s2) :
    Prog.wp I (failWith e) Q s1 := by
  simp only [failWith, setState, logError, Prog.wp_bind', Prog.wp_modify, Prog.wp_pure]
  have h1 : Held s ((s1.withState .failed e).withError e) := hh
  exact ⟨hI _ h1.thread h1.terminated, hI _ h1.thread h1.terminated, hQ _ h1 rfl⟩

theorem connectAndStart_rule {s0 : Impl} (hr : Ready s options s0)
    (hinfos : s0.discoveredControllerInfos = startControllers env options s)
    (hfail : StartFails env reg options sel s → ∀ s2, Held s s2 → s2.state = .failed → Q false s2)
    (hhosts : ∀ s1 targets groups, Ready s options s1 →
      s1.discoveredControllerInfos = startControllers env options s →
      Connected env options sel s1.discoveredControllerInfos targets → targets ≠ [] →
      groupTargets reg options (targets.map fun t => (t.info.id, t)) [] = .ok groups →
      Prog.wp I (startHostGroups env reg options groups []) (fun r s2 => match r with
        | none => Q false s2
        | some hosts => I (publishStart options hosts targets s2) ∧
          I (spawnMonitor (publishStart options hosts targets s2)) ∧
          Q true (spawnMonitor (publishStart options hosts targets s2))) s1) :
    Prog.wp I (connectAndStart env reg options sel) Q s0 := by
  have hq0 : ∀ s', Quiet s0 s' → I s' := fun s' h =>
    hI s' (hr.held.trans (.of_quiet h)).thread (hr.held.trans (.of_quiet h)).terminated
  simp only [connectAndStart, Prog.wp_bind', Prog.wp_read]
  refine ⟨hq0 s0 (.refl s0), ?_⟩
  refine Prog.wp_mono (connectControllers_wp hq0 hr.stopRequested _) ?_
  rintro targets s1 ⟨hq, hc⟩
  have hr1 := hr.quiet hq
  simp only [pollStop, Prog.wp_read, hr1.stopRequested, Bool.false_eq_true, if_false]
  refine ⟨hq0 s1 hq, ?_⟩
  have why : (targets = [] ∨ ∃ e, groupTargets reg options (targets.map fun t => (t.info.id, t)) [] =
      .error e) → StartFails env reg options sel s := fun h =>
    .inr (.inr ⟨targets, hinfos ▸ hc, h⟩)
  split
  · rename_i hnil
    exact failWith_wp hI hr1.held _ (hfail (why (.inl (List.isEmpty_iff.mp hnil))))
  · rename_i hne
    unfold startHosts
    cases hg : groupTargets reg options (targets.map fun t => (t.info.id, t)) [] with
    | error e => exact failWith_wp hI hr1.held _ (hfail (why (.inr ⟨e, hg⟩)))
    | ok groups =>
      simp only [Prog.wp_bind']
      refine Prog.wp_mono (hhosts s1 targets groups hr1 (hq.infos.trans hinfos) (hq.infos ▸ hc)
        (fun e => hne (List.isEmpty_iff.mpr e)) hg) fun r s2 h => ?_
      cases r with
      | none => exact h
      | some hosts =>
        simp only [Prog.wp_bind', Prog.wp_modify]
        exact h

/-- the discovery of a start leaves a filled cache, or the start has failed -/
theorem discoverForStart_wp {s1 : Impl} (hr : Ready s options s1) (hticks : s1.io.ticks = s.io.ticks)
    (hempty : (configureLiberaSystem options s).discoveredControllerInfos = []) :
    Prog.wp I (discoverForStart env options) (fun ok s2 =>
      if ok then Ready s options s2 ∧ s2.discoveredControllerInfos = startControllers env options s
      else Held s s2 ∧ s2.state = .failed ∧ startControllers env options s = []) s1 := by
  have hstart : startControllers env options s =
      controllersFound env options.discoveryTimeoutMs s.io.ticks := if_pos hempty
  have hI1 : ∀ s', Held s1 s' → I s' := fun s' h =>
    hI s' (hr.held.trans h).thread (hr.held.trans h).terminated
  simp only [discoverForStart, setState, Prog.wp_bind', Prog.wp_modify]
  have q2 : Quiet s1 (s1.withState .starting "Discovering controllers...") := by
    show _ = _
    simp only [Impl.core, Impl.withState, hr.state]
  refine ⟨hI1 _ (.of_quiet q2), Prog.wp_mono
    (discoverControllers_wp (fun s' h => hI1 s' (.of_quiet (q2.trans h))) _) ?_⟩
  rintro found s3 ⟨q3, hfound⟩
  have q13 := q2.trans q3
  have hf : found = startControllers env options s := by
    rw [hstart, ← hticks]
    exact hfound hr.stopRequested
  have hr3 := hr.quiet q13
  have h3 : I s3 := hI1 _ (.of_quiet q13)
  simp only [lastErrorSet, pollStop, Prog.wp_read, hr3.stopRequested, Bool.false_eq_true, if_false]
  refine ⟨h3, h3, ?_⟩
  by_cases hnil : found = []
  · subst hnil
    simp only [List.isEmpty_nil, if_true, Bool.true_and, Prog.wp_bind', Prog.wp_modify]
    have hI3 : ∀ s', Held s3 s' → I s' := fun s' h => hI1 s' (Held.trans (.of_quiet q13) h)
    refine ⟨hI3 _ rfl, hI3 _ rfl, ?_⟩
    split
    · exact ⟨hr3.held, rfl, hf.symm⟩
    · simp only [logError, Prog.wp_bind', Prog.wp_modify]
      exact ⟨hI3 _ rfl, hr3.held, rfl, hf.symm⟩
  · have he : found.isEmpty = false := by
      rw [Bool.eq_false_iff]
      exact fun h => hnil (List.isEmpty_iff.mp h)
    simp only [he, Bool.false_eq_true, if_false, Prog.wp_bind', Prog.wp_modify]
    refine ⟨hI1 _ ((Held.of_quiet q13).trans rfl), ?_⟩
    rw [Prog.wp_pure, if_pos rfl]
    exact ⟨{
      held := hr3.held
      state := hr3.state
      stopRequested := hr3.stopRequested
      liberaSystem := hr3.liberaSystem
      disabledTypes := hr3.disabledTypes
      drivers := hr3.drivers }, hf⟩

/-- **A start from the ground up**: nothing happens to the link before its hosts are started, and
then everything is up to the loop that starts them. -/
theorem startLink_rule (hstate : s.state = .starting)
    (hfail : StartFails env reg options sel s → ∀ s2, Held s s2 → s2.state = .failed → Q false s2)
    (hhosts : ∀ s1 targets groups, fallbackUnknown reg options = false → Ready s options s1 →
      s1.discoveredControllerInfos = startControllers env options s →
      Connected env options sel s1.discoveredControllerInfos targets → targets ≠ [] →
      groupTargets reg options (targets.map fun t => (t.info.id, t)) [] = .ok groups →
      Prog.wp I (startHostGroups env reg options groups []) (fun r s2 => match r with
        | none => Q false s2
        | some hosts => I (publishStart options hosts targets s2) ∧
          I (spawnMonitor (publishStart options hosts targets s2)) ∧
          Q true (spawnMonitor (publishStart options hosts targets s2))) s1) :
    Prog.wp I (startLink env reg options sel) Q s := by
  simp only [startLink, clearStop, Prog.wp_bind', Prog.wp_modify]
  refine ⟨hI _ rfl rfl, hI _ rfl rfl, ?_⟩
  have hh0 : Held s ((s.withError "").withStop false) := rfl
  split
  · rename_i hf
    exact failWith_wp hI hh0 _ (hfail (.inl hf))
  · rename_i hf
    replace hhosts := fun s1 targets groups => hhosts s1 targets groups (by simpa using hf)
    simp only [Prog.wp_bind', Prog.wp_modify, Prog.wp_read]
    have hh1 := hh0.trans (Held.configure options _)
    obtain ⟨c1, c2, c3, c4, c5⟩ := configureLiberaSystem_spec options ((s.withError "").withStop false)
    have hinf := @configureLiberaSystem_cache s options ((s.withError "").withStop false) rfl rfl rfl rfl
    have hticks : (configureLiberaSystem options ((s.withError "").withStop false)).io.ticks =
        s.io.ticks := by unfold configureLiberaSystem; split <;> rfl
    generalize configureLiberaSystem options ((s.withError "").withStop false) = s1 at *
    have hr : Ready s options s1 := ⟨hh1, c4.trans hstate, c5, c1, c2, c3⟩
    have hI1 : I s1 := hI s1 hh1.thread hh1.terminated
    refine ⟨hI1, hI1, ?_⟩
    split
    · rename_i hnone
      have hempty : (configureLiberaSystem options s).discoveredControllerInfos = [] :=
        hinf ▸ List.isEmpty_iff.mp hnone
      rw [Prog.wp_bind']
      refine Prog.wp_mono (discoverForStart_wp hI hr hticks hempty) fun ok s2 h => ?_
      split
      · rename_i hok
        rw [if_pos hok] at h
        exact connectAndStart_rule hI h.1 h.2 hfail hhosts
      · rename_i hno
        rw [if_neg hno] at h
        exact hfail (.inr (.inl h.2.2)) s2 h.1 h.2.1
    · rename_i hsome
      simp only [setState, Prog.wp_bind', Prog.wp_modify]
      have q2 : Quiet s1 (s1.withState .starting "Connecting controllers...") := by
        show _ = _
        simp only [Impl.core, Impl.withState, hr.state]
      have hcached : (configureLiberaSystem options s).discoveredControllerInfos =
          startControllers env options s :=
        (if_neg fun e => hsome (List.isEmpty_iff.mpr (hinf.trans e))).symm
      exact ⟨hI _ (hh1.trans (.of_quiet q2)).thread (hh1.trans (.of_quiet q2)).terminated,
        connectAndStart_rule hI (hr.quiet q2) (hinf.trans hcached) hfail hhosts⟩

end

/-! ## the hosts of a start -/

/-- one turn of the loop that makes the hosts, while the flag is down -/
theorem startHostGroups_rule {Q : Option (List ActiveVirtualControllerHost) → Impl → Prop}
    {g : PendingVirtualControllerHostGroup} {rest : List PendingVirtualControllerHostGroup}
    {acc : List ActiveVirtualControllerHost}
    (hI : ∀ s', s'.monitorThread = s.monitorThread → s'.terminated = s.terminated → I s')
    (hflag : s.stopRequested = false)
    (hfailed : ∀ e io m, startActiveHostGroup env reg g options.sliceDurationUs s.io = (.error e, io) →
      Prog.wp I (failStart acc e) Q ((s.withStatus m).withIo io))
    (hstarted : ∀ h io m, startActiveHostGroup env reg g options.sliceDurationUs s.io = (.ok h, io) →
      Prog.wp I (startHostGroups env reg options rest (acc ++ [h])) Q
        ((s.withStatus m).withIo io)) :
    Prog.wp I (startHostGroups env reg options (g :: rest) acc) Q s := by
  simp only [startHostGroups, setStatus, Prog.wp_bind', Prog.wp_modify, Prog.wp_exchange]
  refine ⟨hI _ rfl rfl, hI _ rfl rfl, ?_⟩
  generalize "Starting " ++ g.info.displayName ++ "..." = m
  split
  · rename_i e hr
    exact hfailed e _ m (Prod.ext hr rfl)
  · rename_i h hr
    simp only [pollStop, Prog.wp_bind', Prog.wp_read]
    refine ⟨hI _ rfl rfl, ?_⟩
    rw [if_neg (by
      show ¬ s.stopRequested = true
      rw [hflag]
      exact Bool.false_ne_true)]
    exact hstarted h _ m (Prod.ext hr rfl)


/-- **The loop that starts the hosts**: either every group got its host, or none of them runs. -/
theorem startHostGroups_wp {s1 : Impl}
    (hI : ∀ s', s'.monitorThread = s1.monitorThread → s'.terminated = s1.terminated → I s')
    (hflag : s1.stopRequested = false) (groups : List PendingVirtualControllerHostGroup)
    (old acc : List ActiveVirtualControllerHost) (ht : Tracks s1.io (old ++ acc)) :
    Prog.wp I (startHostGroups env reg options groups acc) (fun r s2 => match r with
      | none => Quiet (s1.withState .failed "") (s2.withIo s1.io) ∧ Tracks s2.io old ∧
        (¬ env.Willing ∨ ∃ g ∈ groups, reg.registration g.info.id = none)
      | some hosts => Quiet s1 (s2.withIo s1.io) ∧ Tracks s2.io (old ++ hosts) ∧ ∃ new,
        hosts = acc ++ new ∧ List.Forall₂ (Started options.sliceDurationUs) groups new) s1 := by
  induction groups generalizing s1 acc with
  | nil => exact ⟨rfl, ht, [], by simp, .nil⟩
  | cons g rest ih =>
    refine startHostGroups_rule hI hflag (fun e io m hs => ?_) fun h io m hs => ?_
    · simp only [failStart, setState, logError, Prog.wp_bind', Prog.wp_modify, Prog.wp_pure]
      refine ⟨hI _ rfl rfl, hI _ rfl rfl, hI _ rfl rfl, rfl, ?_, ?_⟩
      · have h1 : Tracks io (old ++ (acc ++ [])) := by
          rcases startActiveHostGroup_spec env reg g options.sliceDurationUs s1.io with
            ⟨e', io', h1, _, hw, hn⟩ | ⟨host, io', h1, _⟩
          · rw [h1] at hs
            obtain rfl : io' = io := (Prod.mk.inj hs).2
            simpa using ht.congr hw hn
          · rw [h1] at hs; cases hs
        have h2 := h1.stopHosts_mid
        rw [List.append_nil] at h2
        exact h2
      · by_cases hreg : reg.registration g.info.id = none
        · exact .inr ⟨g, List.mem_cons_self, hreg⟩
        · refine .inl fun hw => ?_
          obtain ⟨h, io', h1⟩ := startActiveHostGroup_willing hw hreg options.sliceDurationUs s1.io
          rw [h1] at hs
          cases hs
    · have h1 : Tracks io (old ++ (acc ++ [h])) := by
        have := Tracks.startActiveHostGroup (a := old ++ acc) (b := []) (by simpa using ht) hs
        simpa using this
      refine Prog.wp_mono (@ih ((s1.withStatus m).withIo io) hI hflag (acc ++ [h]) h1)
        fun r s2 h2 => ?_
      cases r with
      | none =>
        obtain ⟨hq, h3, h4⟩ := h2
        refine ⟨hq.withIo s1.io, h3, h4.imp_right fun h5 => ?_⟩
        obtain ⟨g', hg', e⟩ := h5
        exact ⟨g', List.mem_cons_of_mem _ hg', e⟩
      | some hosts =>
        obtain ⟨hq, h3, new, rfl, h4⟩ := h2
        exact ⟨hq.withIo s1.io, h3, h :: new, by simp,
          .cons (startActiveHostGroup_started hs) h4⟩

/-! ## an update -/

/-- what an update that is no restart leaves unchanged -/
theorem targetRuntimeOptionsChanged_false {active : LinkOptions}
    (h : targetRuntimeOptionsChanged active options = false) :
    active.disabledControllerTypes = options.disabledControllerTypes ∧
    active.selectedControllerDrivers = options.selectedControllerDrivers ∧ options.maxDacs = 0 := by
  simp only [targetRuntimeOptionsChanged, Bool.or_eq_false_iff, decide_eq_false_iff_not,
    not_not] at h
  obtain ⟨⟨⟨⟨⟨⟨⟨h1, h2⟩, -⟩, -⟩, -⟩, -⟩, -⟩, h3⟩ := h
  exact ⟨h1, h2, by omega⟩

/-- The system of a running link is the one its options asked for. -/
structure SystemOf (s : Impl) : Prop where
  liberaSystem : s.liberaSystem = true
  disabledTypes : s.activeDisabledControllerTypes = s.activeOptions.disabledControllerTypes
  drivers : s.activeSelectedControllerDrivers = s.activeOptions.selectedControllerDrivers

/-- **The update of a running link**: it stops, or everything is up to the regrouping. -/
theorem updateRunningLink_rule {Q : Option Bool → Impl → Prop} (hI : ∀ s', Quiet s s' → I s')
    (hsys : SystemOf s)
    (hempty : sel.ids = [] → Prog.wp I stop (fun _ => Q (some true)) s)
    (hrestart : sel.ids ≠ [] → targetRuntimeOptionsChanged s.activeOptions options = true →
      Prog.wp I stop (fun _ => Q none) s)
    (hedit : sel.ids ≠ [] → targetRuntimeOptionsChanged s.activeOptions options = false →
      ∀ s1 m, Quiet s s1 → m = targetsFound env options sel s →
        MapFor env sel s.discoveredControllerInfos s.targets m →
        Prog.wp I (regroup env reg options sel m) (fun r => Q (some r)) s1) :
    Prog.wp I (updateRunningLink env reg options sel) Q s := by
  unfold updateRunningLink
  split
  · rename_i hnil
    rw [Prog.wp_bind']
    exact hempty (List.isEmpty_iff.mp hnil)
  · rename_i hne
    have hne' : sel.ids ≠ [] := fun e => hne (List.isEmpty_iff.mpr e)
    rw [Prog.wp_bind', Prog.wp_read]
    refine ⟨hI s (.refl s), ?_⟩
    simp only
    split
    · rename_i hc
      rw [Prog.wp_bind']
      exact hrestart hne' hc
    · rename_i hc
      have hc' : targetRuntimeOptionsChanged s.activeOptions options = false := by simpa using hc
      obtain ⟨h1, h2, _⟩ := targetRuntimeOptionsChanged_false hc'
      rw [Prog.wp_bind']
      refine Prog.wp_mono (Prog.wp_self (targetsForUpdate_wp hI hsys.liberaSystem
        (hsys.disabledTypes.trans h1) (hsys.drivers.trans h2) s.targets)) ?_
      rintro m s1 ⟨⟨hq, hm⟩, hrun⟩
      rw [Prog.wp_bind']
      exact hedit hne' hc' s1 m hq (by rw [targetsFound, hrun]) hm

/-- Why an update can fail before its hosts. -/
def UpdateFails (reg : Registry) (options : LinkOptions) (sel : IdSet) (m : TargetMap) : Prop :=
  fallbackUnknown reg options = true ∨
    ∃ e, groupTargets reg options (desiredTargets sel m) [] = .error e

theorem groupTargets_desired {m : TargetMap} (hids : ∀ id t, m.lookup id = some t → t.info.id = id)
    (hknown : ∀ id ∈ sel.ids, id ∈ m → (hostKey reg options id).isSome) :
    ∃ groups, groupTargets reg options (desiredTargets sel m) [] = .ok groups := by
  refine (groupTargets_ok_iff (desiredTargets_id hids)).mpr fun p hp => ?_
  have hid := desiredTargets_id hids p hp
  have hmem : p.1 ∈ targetIdSet ((desiredTargets sel m).map Prod.snd) :=
    mem_targetIdSet.mpr ⟨p.2, List.mem_map_of_mem hp, hid.symm⟩
  obtain ⟨hsel, hin⟩ := (mem_desiredTargets hids p.1).mp hmem
  exact hknown p.1 hsel hin

/-- an update whose hosts are known does not fail before its hosts -/
theorem not_updateFails_of_known {m : TargetMap} (hids : ∀ id t, m.lookup id = some t → t.info.id = id)
    (hf : fallbackUnknown reg options = false)
    (hknown : ∀ id ∈ sel.ids, id ∈ m → (hostKey reg options id).isSome) :
    ¬ UpdateFails reg options sel m := by
  rintro (why | ⟨e, why⟩)
  · rw [hf] at why
    cases why
  · obtain ⟨groups, hg⟩ := groupTargets_desired hids hknown
    rw [why] at hg
    cases hg

theorem regroup_rule {Q : Bool → Impl → Prop} {m : TargetMap}
    (hfail : UpdateFails reg options sel m → ∀ e, I (s.withState .failed e) ∧
      I ((s.withState .failed e).withError e) ∧ Q false ((s.withState .failed e).withError e))
    (hnone : desiredTargets sel m = [] → Prog.wp I stop (fun _ => Q true) s)
    (hedit : ∀ groups, groupTargets reg options (desiredTargets sel m) [] = .ok groups →
      fallbackUnknown reg options = false → desiredTargets sel m ≠ [] →
      let r := updateSection env reg options ((desiredTargets sel m).map Prod.snd) groups s
      I r.2 ∧ match r.1 with
        | some e => I (r.2.withError e) ∧ Q false (r.2.withError e)
        | none => Q true r.2) :
    Prog.wp I (regroup env reg options sel m) Q s := by
  unfold regroup
  split
  · rename_i hf
    simp only [failWith, setState, logError, Prog.wp_bind', Prog.wp_modify, Prog.wp_pure]
    exact hfail (.inl hf) _
  · rename_i hf
    simp only
    cases hg : groupTargets reg options (desiredTargets sel m) [] with
    | error e =>
      simp only [failWith, setState, logError, Prog.wp_bind', Prog.wp_modify, Prog.wp_pure]
      exact hfail (.inr ⟨e, hg⟩) e
    | ok groups =>
      simp only
      split
      · rename_i hnil
        rw [Prog.wp_bind']
        exact hnone (List.isEmpty_iff.mp hnil)
      · rename_i hne
        rw [Prog.wp_bind', Prog.wp_exchange]
        obtain ⟨h1, h2⟩ := hedit groups hg (by simpa using hf) fun e => hne (List.isEmpty_iff.mpr e)
        refine ⟨h1, ?_⟩
        cases hr : (updateSection env reg options ((desiredTargets sel m).map Prod.snd) groups s).1 with
        | none => rw [hr] at h2; exact h2
        | some e =>
          rw [hr] at h2
          simp only [logError, Prog.wp_bind', Prog.wp_modify, Prog.wp_pure]
          exact h2

/-! ## the call -/

theorem start_rule {Q : Bool → Impl → Prop} (hgate : I (gateState s))
    (hrefused : gateOf s = .refused → Q false s)
    (hfresh : gateOf s = .fresh → Prog.wp I (startLink env reg options sel) Q (gateState s))
    (hupdate : gateOf s = .update → Prog.wp I (updateRunningLink env reg options sel)
      (fun r s1 => match r with
        | some r => Q r s1
        | none => Prog.wp I (startFuel env reg options sel 1) Q s1) (gateState s)) :
    Prog.wp I (start env reg options sel) Q s := by
  unfold start startFuel
  rw [Prog.wp_bind', gate, Prog.wp_exchange]
  refine ⟨hgate, ?_⟩
  cases hg : gateOf s with
  | refused =>
    have e : gateState s = s := by unfold gateState; rw [hg]
    simp only [Prog.wp_pure]
    rw [e]
    exact hrefused hg
  | fresh => exact hfresh hg
  | update =>
    simp only [Prog.wp_bind']
    refine Prog.wp_mono (hupdate hg) fun r s1 h => ?_
    cases r with
    | none => exact h
    | some r => exact h

/-- the second call of a restart finds a stopped link -/
theorem startFuel_rule {Q : Bool → Impl → Prop} {n : Nat} (hg : gateOf s = .fresh)
    (hgate : I (gateState s)) (hfresh : Prog.wp I (startLink env reg options sel) Q (gateState s)) :
    Prog.wp I (startFuel env reg options sel (n + 1)) Q s := by
  unfold startFuel
  rw [Prog.wp_bind', gate, Prog.wp_exchange]
  refine ⟨hgate, ?_⟩
  rw [hg]
  exact hfresh

/-- a start from the ground up is one from `Stopped` or `Failed` -/
theorem gateOf_fresh : gateOf s = .fresh ↔ s.state = .stopped ∨ s.state = .failed := by
  unfold gateOf
  cases s.state <;> simp

theorem gateOf_afterStop (s : Impl) : gateOf (afterStop s) = .fresh := rfl

/-- one call, by what the state check says -/
theorem startFuel_succ (n : Nat) (s : Impl) :
    (startFuel env reg options sel (n + 1)).run s = ((match gateOf s with
      | .refused => pure false
      | .fresh => startLink env reg options sel
      | .update => do
        match ← updateRunningLink env reg options sel with
        | some r => pure r
        | none => startFuel env reg options sel n) : LinkM Bool).run (gateState s) := rfl

theorem startFuel_run {n : Nat} (hg : gateOf s = .fresh) :
    (startFuel env reg options sel (n + 1)).run s =
      (startLink env reg options sel).run (gateState s) := by
  rw [startFuel_succ, hg]

/-- only a stop makes `start` call itself -/
theorem updateRunningLink_stopped (s : Impl) :
    Prog.wp (fun _ => True) (updateRunningLink env reg options sel)
      (fun r s' => r = none → s'.state = .stopped) s := by
  unfold updateRunningLink
  split
  · rw [Prog.wp_bind']
    exact Prog.wp_trivial (fun _ => trivial) fun _ _ e => nomatch e
  · rw [Prog.wp_bind', Prog.wp_read]
    refine ⟨trivial, ?_⟩
    simp only
    split
    · rw [Prog.wp_bind']
      exact stop_wp trivial trivial (fun _ _ _ => trivial) fun _ => rfl
    · rw [Prog.wp_bind']
      refine Prog.wp_trivial (fun _ => trivial) fun m s1 => ?_
      rw [Prog.wp_bind']
      exact Prog.wp_trivial (fun _ => trivial) fun _ _ e => nomatch e

/-- **Two calls are enough**: with a larger bound `start` does the same, since the call it makes of
itself finds a stopped link. -/
theorem start_fuel (n : Nat) (s : Impl) :
    (startFuel env reg options sel (n + 2)).run s = (start env reg options sel).run s := by
  show _ = (startFuel env reg options sel (0 + 2)).run s
  rw [startFuel_succ, startFuel_succ]
  cases gateOf s with
  | refused => rfl
  | fresh => rfl
  | update =>
    simp only [Prog.bind_eq, Prog.run_bind]
    cases hr : ((updateRunningLink env reg options sel).run (gateState s)).1 with
    | some r => rfl
    | none =>
      have hf := gateOf_fresh.mpr (.inl (Prog.wp_run (updateRunningLink_stopped (gateState s)) hr))
      show (startFuel env reg options sel (n + 1)).run _ = (startFuel env reg options sel (0 + 1)).run _
      rw [startFuel_run hf, startFuel_run hf]

end LinkRuntime
end LiberaLink
