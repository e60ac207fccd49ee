import LiberaLink.Runtime.Outcome

/-!
# Runs of the runtime

A run is a sequence of calls made one after another, each with its own outcomes of discovery, of
connections and of host calls.  `LinkInv` holds between the calls of every run, as long as the
process was not ended.

* `Call`, `runCall`     the calls, and one call from a state;
* `LinkInv`             the invariant, `LinkInv.of_reach` that it holds;
* `RunningInv`          its part about a running link.
-/

namespace LiberaLink
open Stepwise Impl LinkRuntime

inductive Call where
  | scan (options : LinkOptions)
  | start (options : LinkOptions) (selectedControllerIds : IdSet)
  | startAll (options : LinkOptions)
  | stop
  | requestStop
  | invalidateDiscoveryCache

/-- a call with the outcomes it meets -/
abbrev Request := Env × Call

def Call.prog (env : Env) (reg : Registry) : Call → LinkM Bool
  | .scan options => LinkRuntime.scan env options
  | .start options sel => LinkRuntime.start env reg options sel
  | .startAll options => LinkRuntime.startAll env reg options
  | .stop => do
    LinkRuntime.stop
    pure true
  | .requestStop => do
    LinkRuntime.requestStop
    pure true
  | .invalidateDiscoveryCache => do
    LinkRuntime.invalidateDiscoveryCache
    pure true

/-- One call, made by one thread; after the end of the process nothing happens. -/
def runCall (reg : Registry) (s : Impl) (c : Request) : Impl :=
  if s.terminated then s else ((c.2.prog c.1 reg).run s).2

/-- the states after the calls of some run -/
abbrev Reachable (reg : Registry) (s : Impl) : Prop := Reach (runCall reg) (fun _ _ => True) {} s

/-- the start is carried out as an update of the hosts in place -/
def InPlace (s : Impl) (options : LinkOptions) (sel : IdSet) : Prop :=
  s.state = .running ∧ sel.ids ≠ [] ∧ targetRuntimeOptionsChanged s.activeOptions options = false

/-! ## the invariant -/

/-- What holds of a running link between calls. -/
structure RunningInv (s : Impl) : Prop where
  thread : s.monitorThread = true
  hosts : s.virtualControllerHosts ≠ []
  system : SystemOf s
  cached : s.discoveredControllerInfos ≠ [] → ∀ id ∈ targetIdSet s.targets,
    ∃ info ∈ s.discoveredControllerInfos, info.id = id ∧ info.linkable = true

/-- **What holds between calls.** -/
structure LinkInv (s : Impl) : Prop where
  tracks : Tracks s.io s.virtualControllerHosts
  keys : (s.virtualControllerHosts.map fun h => h.key).Nodup
  disjoint : ∀ h ∈ s.virtualControllerHosts, ∀ h' ∈ s.virtualControllerHosts, h.key ≠ h'.key →
    Disjoint (targetIdSet h.targets) (targetIdSet h'.targets)
  targets : ∀ id, id ∈ targetIdSet s.targets ↔
    ∃ h ∈ s.virtualControllerHosts, id ∈ targetIdSet h.targets
  thread : s.virtualControllerHosts ≠ [] → s.monitorThread = true
  running : s.state = .running → RunningInv s

namespace LinkInv

theorem init : LinkInv {} where
  tracks := Tracks.init
  keys := .nil
  disjoint := by simp
  targets := by simp [targetIdSet]
  thread h := absurd rfl h
  running h := nomatch h

/-- a call that holds the link and does not end up running -/
theorem of_held {s s' : Impl} (h : LinkInv s) (hh : Held s s') (hs : s'.state ≠ .running) :
    LinkInv s' where
  tracks := hh.hosts ▸ hh.tracks h.tracks
  keys := hh.hosts ▸ h.keys
  disjoint := hh.hosts ▸ h.disjoint
  targets := by rw [hh.targets, hh.hosts]; exact h.targets
  thread := by rw [hh.hosts, hh.thread]; exact h.thread
  running e := absurd e hs

/-- a state without hosts and targets that does not run -/
theorem of_nil {s : Impl} (ht : Tracks s.io []) (hh : s.virtualControllerHosts = [])
    (hts : s.targets = []) (hs : s.state ≠ .running) : LinkInv s where
  tracks := hh ▸ ht
  keys := by rw [hh]; exact .nil
  disjoint := by rw [hh]; simp
  targets id := by rw [hh, hts]; simp [targetIdSet]
  thread hne := absurd hh hne
  running e := absurd e hs

theorem afterStop {s : Impl} (h : LinkInv s) : LinkInv (LinkRuntime.afterStop s) := by
  refine of_nil ?_ rfl rfl fun e => nomatch e
  refine Tracks.stopHosts (b := []) ?_
  rw [List.append_nil]
  exact h.tracks

theorem quiet {s s' : Impl} (h : LinkInv s) (hq : Quiet s s') : LinkInv s' where
  tracks := hq.hosts ▸ hq.tracks h.tracks
  keys := hq.hosts ▸ h.keys
  disjoint := hq.hosts ▸ h.disjoint
  targets := by rw [hq.targets, hq.hosts]; exact h.targets
  thread := by rw [hq.hosts, hq.thread]; exact h.thread
  running e := by
    have hr := h.running (hq.state.symm.trans e)
    exact {
      thread := hq.thread.trans hr.thread
      hosts := hq.hosts ▸ hr.hosts
      system := {
        liberaSystem := hq.liberaSystem.trans hr.system.liberaSystem
        disabledTypes := by rw [hq.disabledTypes, hq.activeOptions]; exact hr.system.disabledTypes
        drivers := by rw [hq.drivers, hq.activeOptions]; exact hr.system.drivers }
      cached := by rw [hq.infos, hq.targets]; exact hr.cached }

end LinkInv

/-! ## hosts started on groups -/

section
variable {slice : Nat} {groups : List PendingVirtualControllerHostGroup}
  {hosts : List ActiveVirtualControllerHost}

theorem started_keys (h : List.Forall₂ (Started slice) groups hosts) :
    hosts.map (fun h => h.key) = groups.map fun g => g.key := by
  induction h with
  | nil => rfl
  | cons h _ ih =>
    obtain ⟨host, rfl, _⟩ := h
    rw [List.map_cons, List.map_cons, ih]
    rfl

theorem started_sound (h : List.Forall₂ (Started slice) groups hosts)
    {k : ActiveVirtualControllerHost} (hk : k ∈ hosts) : ∃ g ∈ groups, Started slice g k := by
  induction h with
  | nil => cases hk
  | cons h _ ih =>
    rcases List.mem_cons.mp hk with rfl | hk
    · exact ⟨_, List.mem_cons_self, h⟩
    · obtain ⟨g, hg, hs⟩ := ih hk
      exact ⟨g, List.mem_cons_of_mem _ hg, hs⟩

theorem started_complete (h : List.Forall₂ (Started slice) groups hosts)
    {g : PendingVirtualControllerHostGroup} (hg : g ∈ groups) : ∃ k ∈ hosts, Started slice g k := by
  induction h with
  | nil => cases hg
  | cons h _ ih =>
    rcases List.mem_cons.mp hg with rfl | hg
    · exact ⟨_, List.mem_cons_self, h⟩
    · obtain ⟨k, hk, hs⟩ := ih hg
      exact ⟨k, List.mem_cons_of_mem _ hk, hs⟩

/-- hosts started on the groups realise them -/
theorem realises_of_started (h : List.Forall₂ (Started slice) groups hosts)
    (hgk : (groups.map fun g => g.key).Nodup) : Realises hosts groups where
  keys := started_keys h ▸ hgk
  sound k hk := by
    obtain ⟨g, hg, host, rfl, _⟩ := started_sound h hk
    exact ⟨g, hg, rfl, rfl⟩
  complete g hg := by
    obtain ⟨k, hk, host, rfl, _⟩ := started_complete h hg
    exact ⟨_, hk, rfl, rfl⟩

end

/-- **Hosts that realise the groups of the targets keep the invariant.** -/
theorem LinkInv.of_realises {reg : Registry} {options : LinkOptions} {s : Impl}
    {targets : List LinkedTarget} {groups : List PendingVirtualControllerHostGroup}
    (hg : GroupsOf reg options targets groups) (hr : Realises s.virtualControllerHosts groups)
    (ht : Tracks s.io s.virtualControllerHosts)
    (hts : targetIdSet s.targets = targetIdSet targets) (hth : s.monitorThread = true)
    (hrun : RunningInv s) : LinkInv s where
  tracks := ht
  keys := hr.keys
  disjoint _ hh _ hh' := hr.disjoint (fun _ h1 _ h2 => hg.disjoint h1 h2) hh hh'
  targets id := by
    rw [hts]
    constructor
    · intro hid
      obtain ⟨t, ht, rfl⟩ := LiberaLink.mem_targetIdSet.mp hid
      obtain ⟨g, hg1, htg⟩ := hg.complete t ht
      obtain ⟨h, hh, _, e⟩ := hr.complete g hg1
      exact ⟨h, hh, e ▸ LiberaLink.mem_targetIdSet.mpr ⟨t, htg, rfl⟩⟩
    · rintro ⟨h, hh, hid⟩
      obtain ⟨g, hg1, _, e⟩ := hr.sound h hh
      exact ((hg.mem_targetIdSet hg1).mp (e ▸ hid)).1
  thread _ := hth
  running _ := hrun

/-! ## every call keeps the invariant -/

section
variable {env : Env} {reg : Registry} {options : LinkOptions} {sel : IdSet} {s s' : Impl}

/-- the groups of a start partition its targets -/
theorem groupsOf_start {targets : List LinkedTarget} {groups : List PendingVirtualControllerHostGroup}
    (hg : groupTargets reg options (targets.map fun t => (t.info.id, t)) [] = .ok groups) :
    GroupsOf reg options targets groups := by
  have h := groupsOf_of_ok (fun p hp => by obtain ⟨t, _, rfl⟩ := List.mem_map.mp hp; rfl) hg
  rwa [List.map_map, show (Prod.snd ∘ fun t : LinkedTarget => (t.info.id, t)) = id from rfl,
    List.map_id] at h

@[simp] theorem spawnMonitor_state (s : Impl) : (spawnMonitor s).state = s.state := by
  unfold spawnMonitor; split <;> rfl

@[simp] theorem spawnMonitor_hosts (s : Impl) :
    (spawnMonitor s).virtualControllerHosts = s.virtualControllerHosts := by
  unfold spawnMonitor; split <;> rfl

@[simp] theorem spawnMonitor_targets (s : Impl) : (spawnMonitor s).targets = s.targets := by
  unfold spawnMonitor; split <;> rfl

@[simp] theorem spawnMonitor_io (s : Impl) : (spawnMonitor s).io = s.io := by
  unfold spawnMonitor; split <;> rfl

theorem spawnMonitor_false (h : s.monitorThread = false) :
    spawnMonitor s = { s with monitorThread := true } := by
  unfold spawnMonitor; rw [h]; rfl

theorem spawnMonitor_true (h : s.monitorThread = true) :
    spawnMonitor s = { s with terminated := true } := by
  unfold spawnMonitor; rw [h]; rfl

theorem LinkInv.link {r : Bool} (hinv : LinkInv s) (h : LinkOutcome env reg options sel s r s')
    (hend : s'.terminated = false) : LinkInv s' := by
  cases h with
  | failed why held hs => exact hinv.of_held held (by rw [hs]; exact fun e => nomatch e)
  | @refused s1 s' targets groups ready connected grouped quiet tracks why =>
    have hs : s'.state = .failed := quiet.state
    exact {
      tracks := by
        rw [show s'.virtualControllerHosts = _ from quiet.hosts]
        exact ready.held.hosts ▸ tracks
      keys := by
        rw [show s'.virtualControllerHosts = _ from quiet.hosts]
        exact ready.held.hosts ▸ hinv.keys
      disjoint := by
        rw [show s'.virtualControllerHosts = _ from quiet.hosts]
        exact ready.held.hosts ▸ hinv.disjoint
      targets := by
        rw [show s'.virtualControllerHosts = _ from quiet.hosts,
          show s'.targets = _ from quiet.targets]
        show ∀ id, id ∈ targetIdSet s1.targets ↔ ∃ h ∈ s1.virtualControllerHosts, _
        rw [ready.held.hosts, ready.held.targets]
        exact hinv.targets
      thread := by
        rw [show s'.virtualControllerHosts = _ from quiet.hosts,
          show s'.monitorThread = _ from quiet.thread]
        show s1.virtualControllerHosts ≠ [] → s1.monitorThread = true
        rw [ready.held.hosts, ready.held.thread]
        exact hinv.thread
      running := by rw [hs]; exact fun e => nomatch e }
  | @started s1 s2 targets groups hosts fallback ready infos connected nonempty grouped quiet tracks
      started =>
    have hth2 : s2.monitorThread = s.monitorThread := Eq.trans quiet.thread ready.held.thread
    have hth : s.monitorThread = false := by
      by_contra hne
      have hth : (publishStart options hosts targets s2).monitorThread = true := by
        show s2.monitorThread = true
        rw [hth2]
        simpa using hne
      rw [spawnMonitor_true hth] at hend
      cases hend
    have hnil : s.virtualControllerHosts = [] := by
      by_contra hne
      have := hinv.thread hne
      rw [hth] at this
      cases this
    rw [hnil, List.nil_append] at tracks
    rw [spawnMonitor_false (show (publishStart options hosts targets s2).monitorThread = false from
      hth2.trans hth)]
    have hgroups := groupsOf_start grouped
    have hreal := realises_of_started started hgroups.nodup_keys
    have hgne : groups ≠ [] := by
      obtain ⟨t, ht⟩ := List.exists_mem_of_ne_nil _ nonempty
      obtain ⟨g, hg, _⟩ := hgroups.complete t ht
      exact List.ne_nil_of_mem hg
    refine LinkInv.of_realises hgroups hreal tracks rfl rfl {
      thread := rfl
      hosts := hreal.ne_nil hgne
      system := {
        liberaSystem := Eq.trans quiet.liberaSystem ready.liberaSystem
        disabledTypes := Eq.trans quiet.disabledTypes ready.disabledTypes
        drivers := Eq.trans quiet.drivers ready.drivers }
      cached := fun _ id hid => ?_ }
    obtain ⟨t, ht, rfl⟩ := LiberaLink.mem_targetIdSet.mp hid
    obtain ⟨info, hi, hl, _, rfl⟩ := connected.sound t ht
    refine ⟨info, ?_, rfl, hl⟩
    show info ∈ s2.discoveredControllerInfos
    rw [show s2.discoveredControllerInfos = _ from quiet.infos]
    exact hi

/-- the groups of an update partition the targets it wants -/
theorem groupsOf_update {infos : List ControllerInfo} {targets : List LinkedTarget} {m : TargetMap}
    {groups : List PendingVirtualControllerHostGroup} (hm : MapFor env sel infos targets m)
    (hg : groupTargets reg options (desiredTargets sel m) [] = .ok groups) :
    GroupsOf reg options ((desiredTargets sel m).map Prod.snd) groups :=
  groupsOf_of_ok (desiredTargets_id hm.ids) hg

theorem LinkInv.update {r : Option Bool} (hinv : LinkInv s) (hrun : s.state = .running)
    (h : UpdateOutcome env reg options sel s r s') : LinkInv s' := by
  cases h with
  | stopped quiet why => exact (hinv.quiet quiet).afterStop
  | restart changed nonempty => exact hinv.afterStop
  | unknown nonempty unchanged quiet found map why =>
    exact (hinv.quiet quiet).of_held rfl fun e => by cases e
  | @failed s1 m groups e io nonempty unchanged quiet found map grouped fallback desired edited =>
    have hi1 := hinv.quiet quiet
    have hspec := updateActiveHosts_spec env reg options.sliceDurationUs
      (groupsOf_update map grouped).nodup_keys hi1.tracks hi1.keys
    rw [edited] at hspec
    rw [updateSection, edited]
    exact LinkInv.of_nil (Tracks.of_none_running hspec.2) rfl rfl fun e => by cases e
  | @updated s1 m groups st nonempty unchanged quiet found map grouped fallback desired edited =>
    have hi1 := hinv.quiet quiet
    have hr1 := hi1.running (quiet.state.trans hrun)
    have hgroups := groupsOf_update map grouped
    have hspec := updateActiveHosts_spec env reg options.sliceDurationUs
      hgroups.nodup_keys hi1.tracks hi1.keys
    rw [edited] at hspec
    obtain ⟨ht, hreal⟩ := hspec
    obtain ⟨hd, hs, _⟩ := targetRuntimeOptionsChanged_false unchanged
    have hgne : groups ≠ [] := by
      obtain ⟨p, hp⟩ := List.exists_mem_of_ne_nil _ desired
      obtain ⟨g, hg, _⟩ := hgroups.complete p.2 (List.mem_map_of_mem hp)
      exact List.ne_nil_of_mem hg
    rw [updateSection, edited]
    refine LinkInv.of_realises hgroups hreal ht rfl hr1.thread {
      thread := hr1.thread
      hosts := hreal.ne_nil hgne
      system := {
        liberaSystem := hr1.system.liberaSystem
        disabledTypes := by
          show s1.activeDisabledControllerTypes = _
          rw [hr1.system.disabledTypes, quiet.activeOptions]
          exact hd
        drivers := by
          show s1.activeSelectedControllerDrivers = _
          rw [hr1.system.drivers, quiet.activeOptions]
          exact hs }
      cached := fun hne id hid => ?_ }
    obtain ⟨_, hid⟩ := (mem_desiredTargets map.ids id).mp hid
    rcases map.sound id hid with hold | ⟨_, info, hi, rfl, hl, _⟩
    · exact hr1.cached hne id (quiet.targets ▸ hold)
    · exact ⟨info, quiet.infos ▸ hi, rfl, hl⟩

theorem gateState_linkInv (hinv : LinkInv s) : LinkInv (gateState s) := by
  cases hg : gateOf s with
  | refused =>
    have e : gateState s = s := by unfold gateState; rw [hg]
    rw [e]
    exact hinv
  | update => exact hinv.quiet (gateState_update hg)
  | fresh =>
    obtain ⟨h1, h2⟩ := gateState_fresh hg
    exact hinv.of_held h2 (by rw [h1]; exact fun e => nomatch e)

theorem LinkInv.start {r : Bool} (hinv : LinkInv s) (h : StartOutcome env reg options sel s r s')
    (hend : s'.terminated = false) : LinkInv s' := by
  have hg := gateState_linkInv hinv
  cases h with
  | refused => exact hinv
  | fresh _ h => exact hg.link h hend
  | update h1 h =>
    have hq := gateState_update h1
    exact hg.update (hq.state.trans (gateOf_running.mp h1)) h
  | restarted h1 h2 h3 =>
    have hq := gateState_update h1
    have := hg.update (hq.state.trans (gateOf_running.mp h1)) h2
    exact (gateState_linkInv this).link h3 hend

end

/-- **Everything a scan can do**: nothing, or a new discovery on a link that does not run. -/
theorem scan_wp {I : Impl → Prop} {s : Impl} (env : Env) (options : LinkOptions) (h0 : I s)
    (hI : s.state = .stopped ∨ s.state = .failed → ∀ s', s'.monitorThread = s.monitorThread →
      s'.terminated = s.terminated → I s') :
    Prog.wp I (scan env options) (fun _ s' => s' = s ∨
      (s.state = .stopped ∨ s.state = .failed) ∧ Held s s' ∧
        (s'.state = .stopped ∨ s'.state = .failed)) s := by
  simp only [scan, scanGate, Prog.wp_bind', Prog.wp_exchange]
  by_cases hb : s.state = .scanning ∨ s.state = .starting ∨ s.state = .running ∨
      s.state = .stopRequested
  · simp only [hb, decide_true, if_true]
    exact ⟨h0, .inl rfl⟩
  · have hs : s.state = .stopped ∨ s.state = .failed := by
      cases hst : s.state <;> simp_all
    have hI' : ∀ s', Held s s' → I s' := fun s' h => hI hs s' h.thread h.terminated
    simp only [hb, decide_false, Bool.false_eq_true, if_false, clearStop, Prog.wp_bind',
      Prog.wp_modify]
    refine ⟨hI' _ rfl, hI' _ rfl, hI' _ rfl, ?_⟩
    generalize hs1 : Impl.withStop _ false = s1
    have h1 : Held s s1 := hs1 ▸ rfl
    have hf1 : s1.stopRequested = false := hs1 ▸ rfl
    obtain ⟨_, _, _, _, c5⟩ := configureLiberaSystem_spec options s1
    have h2 : Held s { configureLiberaSystem options s1 with discoveredControllerInfos := [] } :=
      (h1.trans (Held.configure options s1)).trans rfl
    have hf2 : (configureLiberaSystem options s1).stopRequested = false := c5.trans hf1
    generalize configureLiberaSystem options s1 = s2 at h2 hf2
    refine ⟨hI' _ h2, Prog.wp_mono (discoverControllers_wp
      (fun s' hq => hI' s' (h2.trans (.of_quiet hq))) _) fun found s3 hfound => ?_⟩
    have q3 := hfound.1
    have h3 : Held s s3 := h2.trans (.of_quiet q3)
    have hf3 : s3.stopRequested = false := Eq.trans q3.stopRequested hf2
    simp only [lastErrorSet, pollStop, Prog.wp_read, hf3, Bool.false_eq_true, if_false,
      Prog.wp_bind', Prog.wp_modify, Prog.wp_pure]
    have h4 : ∀ b, Held s (storeScan found b s3) := fun b => h3.trans rfl
    refine ⟨hI' _ h3, hI' _ h3, hI' _ (h4 _), .inr ⟨hs, h4 _, ?_⟩⟩
    show (if _ then RuntimeState.failed else RuntimeState.stopped) = _ ∨
      (if _ then RuntimeState.failed else RuntimeState.stopped) = _
    split
    · exact .inr rfl
    · exact .inl rfl

/-! ## the calls -/

theorem LinkInv.requestStop {s : Impl} (hinv : LinkInv s) : LinkInv (markStop (s.withStop true)) := by
  by_cases h : s.state = .starting ∨ s.state = .running
  · have e : markStop (s.withStop true) = (s.withStop true).withState .stopRequested "Stopping..." :=
      if_pos h
    rw [e]
    exact hinv.of_held rfl fun e => nomatch e
  · have e : markStop (s.withStop true) = s.withStop true := if_neg h
    rw [e]
    exact hinv.of_held rfl fun e => h (.inr e)

/-- the controllers of an invalidated cache are not needed any more -/
theorem LinkInv.invalidate {s : Impl} (hinv : LinkInv s) :
    LinkInv { s with discoveredControllerInfos := [] } where
  tracks := hinv.tracks
  keys := hinv.keys
  disjoint := hinv.disjoint
  targets := hinv.targets
  thread := hinv.thread
  running h := {
    thread := (hinv.running h).thread
    hosts := (hinv.running h).hosts
    system := ⟨(hinv.running h).system.1, (hinv.running h).system.2, (hinv.running h).system.3⟩
    cached := fun hne => absurd rfl hne }

/-- **Every call keeps the invariant.** -/
theorem LinkInv.call {reg : Registry} {s : Impl} (hinv : LinkInv s) (c : Request)
    (hend : ((c.2.prog c.1 reg).run s).2.terminated = false) :
    LinkInv ((c.2.prog c.1 reg).run s).2 := by
  obtain ⟨env, call⟩ := c
  have hstart : ∀ options sel, ((LinkRuntime.start env reg options sel).run s).2.terminated = false →
      LinkInv ((LinkRuntime.start env reg options sel).run s).2 := fun options sel h =>
    hinv.start (Prog.wp_run (start_outcome (fun h => (hinv.running h).system) hinv.tracks)) h
  cases call with
  | scan options =>
    rcases Prog.wp_run (scan_wp (I := fun _ => True) env options trivial fun _ _ _ _ => trivial)
      with h | ⟨_, hh, hs⟩
    · exact h.symm ▸ hinv
    · refine hinv.of_held hh fun e => ?_
      rcases hs with hs | hs <;> exact nomatch hs.symm.trans e
  | start options sel => exact hstart options sel hend
  | startAll options => exact hstart options .empty hend
  | stop =>
    have e : ((Call.stop.prog env reg).run s).2 = LinkRuntime.afterStop s := by
      simp only [Call.prog, Prog.bind_eq, Prog.run_bind, stop_run]
      rfl
    rw [e]
    exact hinv.afterStop
  | requestStop => exact hinv.requestStop
  | invalidateDiscoveryCache => exact hinv.invalidate

/-- **The invariant holds between the calls of every run.** -/
theorem LinkInv.of_reach {reg : Registry} {ok : Impl → Request → Prop} {s : Impl}
    (h : Reach (runCall reg) ok {} s) (hend : s.terminated = false) : LinkInv s := by
  refine h.invariant (P := fun s => s.terminated = false → LinkInv s) (fun _ => .init) ?_ hend
  intro s c hinv _ hend
  unfold runCall at hend ⊢
  by_cases ht : s.terminated = true
  · rw [if_pos ht] at hend
    rw [ht] at hend
    cases hend
  · rw [if_neg ht] at hend ⊢
    exact (hinv (by simpa using ht)).call c hend

/-- what every call keeps, given the invariant, holds between the calls of a run -/
theorem run_invariant {reg : Registry} {ok : Impl → Request → Prop} {P : Impl → Prop} {s : Impl}
    (h : Reach (runCall reg) ok {} s) (hend : s.terminated = false) (h0 : P {})
    (hstep : ∀ s c, LinkInv s → P s → ok s c → P ((c.2.prog c.1 reg).run s).2) : P s := by
  induction h with
  | start => exact h0
  | @next s hr c hc ih =>
    unfold runCall at hend ⊢
    by_cases ht : s.terminated = true
    · rw [if_pos ht] at hend
      rw [ht] at hend
      cases hend
    · rw [if_neg ht]
      have ht' : s.terminated = false := by simpa using ht
      exact hstep s c (LinkInv.of_reach hr ht') (ih ht') hc

/-! ## concrete runs -/

/-- everything succeeds, and a discovery finds `infos` -/
def succeeding (infos : List ControllerInfo) : Env where
  discover _ := { rounds := [{ found := infos }] }
  connect _ _ := true
  makeHost _ _ _ := true
  startHost _ _ _ := none
  addTarget _ _ _ := none
  removeTarget _ _ _ := none

theorem succeeding_willing (infos : List ControllerInfo) : (succeeding infos).Willing :=
  ⟨fun _ _ _ => rfl, fun _ _ _ => rfl⟩

/-- a controller that can be linked -/
def controller (id : String) : ControllerInfo := { id := id, label := id, type := "LaserCube" }

/-- the two kinds of hosts: `idn` restarts for new targets, `libera` takes them while running -/
def registry : Registry where
  registrations := [⟨⟨"idn", "IDN", true, false⟩, "IDN", false⟩,
    ⟨⟨"libera", "Libera", false, false⟩, "Libera", true⟩]
  distinct := by decide

end LiberaLink
