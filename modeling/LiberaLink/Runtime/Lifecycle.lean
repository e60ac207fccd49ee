import LiberaLink.Runtime.Runs

/-!
# Thread, hosts and state over whole runs

The monitor thread is created at the end of a start and joined in `stop` alone; the state `Failed`
is set on many exits.  Two properties of whole runs hang on the exits of an update of a running
link: an update that ends in `Failed` leaves the thread joinable, and one that ends there because a
host is unknown leaves the hosts running.

* `ThreadOk`, `thread_only_while_running`          the thread, in every state a run passes;
* `AtRest`, `nothing_runs_when_stopped_or_failed`  the hosts, between the calls of a run;
* `failed_update_keeps_thread`, `unknown_host_keeps_hosts`  runs with such an update.
-/

namespace LiberaLink
open Stepwise Impl LinkRuntime

/-! ## updates that do not fail -/

/-- an update from `s` may have a target for the controller `id` -/
def Usable (env : Env) (s : Impl) (id : String) : Prop :=
  id ∈ targetIdSet s.targets ∨ ∃ info ∈ s.discoveredControllerInfos, info.id = id ∧
    info.linkable = true ∧ ∃ n, env.connect n info = true

/-- the default host and the hosts of all selected controllers are registered -/
def HostsKnown (reg : Registry) (env : Env) (s : Impl) (options : LinkOptions) (sel : IdSet) : Prop :=
  fallbackUnknown reg options = false ∧
    ∀ id ∈ sel.ids, Usable env s id → (hostKey reg options id).isSome

/-- an update in place that the request asks for names registered hosts only -/
def UpdateKnown (reg : Registry) (s : Impl) : Request → Prop
  | (env, .start options sel) => InPlace s options sel → HostsKnown reg env s options sel
  | _ => True

/-- ... and every host that it makes and starts is made and starts -/
def UpdateSucceeds (reg : Registry) (s : Impl) : Request → Prop
  | (env, .start options sel) =>
    InPlace s options sel → HostsKnown reg env s options sel ∧ env.Willing
  | _ => True

theorem UpdateSucceeds.known {reg : Registry} {s : Impl} {c : Request}
    (h : UpdateSucceeds reg s c) : UpdateKnown reg s c := by
  obtain ⟨env, call⟩ := c
  cases call with
  | start options sel => exact fun hp => (h hp).1
  | _ => trivial

section
variable {env : Env} {reg : Registry} {options : LinkOptions} {sel : IdSet} {s : Impl}

/-- an update whose hosts are known does not fail before its hosts -/
theorem not_updateFails (hk : HostsKnown reg env s options sel) {m : TargetMap}
    (hm : MapFor env sel s.discoveredControllerInfos s.targets m) : ¬ UpdateFails reg options sel m :=
  not_updateFails_of_known hm.ids hk.1 fun id hs hin =>
    hk.2 id hs ((hm.sound id hin).imp_right fun h => h.2)

/-! ## the monitor thread -/

/-- A joinable thread is one of a link that runs or is asked to stop; no other was assigned over. -/
def ThreadOk (s : Impl) : Prop :=
  (s.monitorThread = true → s.state = .running ∨ s.state = .stopRequested) ∧ s.terminated = false

theorem ThreadOk.of_none {s s' : Impl} (h : ThreadOk s) (hn : s.monitorThread = false)
    (hth : s'.monitorThread = s.monitorThread) (hte : s'.terminated = s.terminated) : ThreadOk s' :=
  ⟨fun e => (by rw [hth, hn] at e; cases e), hte.trans h.2⟩

theorem ThreadOk.quiet {s s' : Impl} (h : ThreadOk s) (hq : Quiet s s') : ThreadOk s' :=
  ⟨by rw [hq.thread, hq.state]; exact h.1, hq.terminated.trans h.2⟩

theorem startLink_threadOk (h : ThreadOk s) (hn : s.monitorThread = false)
    (hstate : s.state = .starting) (ht : Tracks s.io s.virtualControllerHosts) :
    Prog.wp ThreadOk (startLink env reg options sel) (fun _ s' => ThreadOk s') s := by
  refine startLink_rule (fun s' => h.of_none hn) hstate
    (fun _ s2 hh _ => h.of_none hn hh.thread hh.terminated) fun s1 targets groups _ hr _ hc _ hg => ?_
  have h1 : ThreadOk s1 := h.of_none hn hr.held.thread hr.held.terminated
  have hn1 : s1.monitorThread = false := hr.held.thread.trans hn
  have ht1 : Tracks s1.io (s.virtualControllerHosts ++ []) := by simpa using hr.held.tracks ht
  refine Prog.wp_mono (startHostGroups_wp (fun s' => h1.of_none hn1) hr.stopRequested groups _ []
    ht1) fun r s2 h2 => ?_
  cases r with
  | none =>
    have hq : Quiet (s1.withState .failed "") (s2.withIo s1.io) := h2.1
    exact h1.of_none hn1 hq.thread hq.terminated
  | some hosts =>
    have hq : Quiet s1 (s2.withIo s1.io) := h2.1
    have hp : ThreadOk (publishStart options hosts targets s2) :=
      h1.of_none hn1 hq.thread hq.terminated
    have hnp : (publishStart options hosts targets s2).monitorThread = false :=
      Eq.trans hq.thread hn1
    show ThreadOk (publishStart options hosts targets s2) ∧ ThreadOk (spawnMonitor _) ∧
      ThreadOk (spawnMonitor _)
    rw [spawnMonitor_false hnp]
    exact ⟨hp, ⟨fun _ => .inl rfl, hp.2⟩, ⟨fun _ => .inl rfl, hp.2⟩⟩

/-- stopping joins the thread -/
theorem stop_threadOk {Q : Unit → Impl → Prop} (h : ThreadOk s) (hQ : Q () (afterStop s)) :
    Prog.wp ThreadOk stop Q s := by
  refine stop_wp h ?_ (fun s' hth hte => ⟨fun e => ?_, hte.trans h.2⟩) hQ
  · by_cases hs : s.state = .starting ∨ s.state = .running
    · have e : markStop (s.withStop true) = (s.withStop true).withState .stopRequested "Stopping..." :=
        if_pos hs
      rw [e]
      exact ⟨fun _ => .inr rfl, h.2⟩
    · have e : markStop (s.withStop true) = s.withStop true := if_neg hs
      rw [e]
      exact h
  · rw [hth] at e; cases e

theorem afterStop_threadOk (h : ThreadOk s) : ThreadOk (afterStop s) :=
  ⟨(nomatch ·), h.2⟩

theorem gateState_threadOk (h : ThreadOk s) : ThreadOk (gateState s) ∧
    (gateOf s = .fresh → (gateState s).monitorThread = false) := by
  cases hg : gateOf s with
  | refused =>
    have e : gateState s = s := by unfold gateState; rw [hg]
    exact ⟨e.symm ▸ h, fun e => nomatch e⟩
  | update => exact ⟨h.quiet (gateState_update hg), fun e => nomatch e⟩
  | fresh =>
    obtain ⟨_, h2⟩ := gateState_fresh hg
    have hn : s.monitorThread = false := by
      by_contra hne
      rcases h.1 (by simpa using hne) with hs | hs <;> simp [gateOf, hs] at hg
    exact ⟨h.of_none hn h2.thread h2.terminated, fun _ => h2.thread.trans hn⟩

theorem regroup_threadOk {m : TargetMap} (h : ThreadOk s)
    (hm : MapFor env sel s.discoveredControllerInfos s.targets m)
    (hk : HostsKnown reg env s options sel) (hw : env.Willing) :
    Prog.wp ThreadOk (regroup env reg options sel m) (fun _ s' => ThreadOk s') s := by
  refine regroup_rule (fun why => absurd why (not_updateFails hk hm))
    (fun _ => stop_threadOk h (afterStop_threadOk h)) fun groups hg _ _ => ?_
  obtain ⟨st, hst⟩ := updateActiveHosts_willing hw
    (fun g hgm => (groupsOf_update hm hg).registered hgm) options.sliceDurationUs
    s.virtualControllerHosts s.io
  simp only [updateSection, hst]
  exact ⟨⟨fun _ => .inl rfl, h.2⟩, fun _ => .inl rfl, h.2⟩

theorem start_threadOk (h : ThreadOk s) (hinv : LinkInv s)
    (hok : InPlace s options sel → HostsKnown reg env s options sel ∧ env.Willing) :
    Prog.wp ThreadOk (start env reg options sel) (fun _ s' => ThreadOk s') s := by
  obtain ⟨hg1, hg2⟩ := gateState_threadOk h
  refine start_rule hg1 (fun _ => h) (fun hg => ?_) fun hg => ?_
  · obtain ⟨h1, h2⟩ := gateState_fresh hg
    exact startLink_threadOk hg1 (hg2 hg) h1 (gateState_linkInv hinv).tracks
  · have hq := gateState_update hg
    have hrun := gateOf_running.mp hg
    have hinv' := gateState_linkInv hinv
    have hrun' : (gateState s).state = .running := hq.state.trans hrun
    refine updateRunningLink_rule (fun s' hq' => hg1.quiet hq') (hinv'.running hrun').system
      (fun _ => stop_threadOk hg1 (afterStop_threadOk hg1)) (fun _ _ => ?_) ?_
    · have hs := afterStop_threadOk hg1
      obtain ⟨hs1, hs2⟩ := gateState_threadOk hs
      refine stop_threadOk hg1 (startFuel_rule rfl hs1 ?_)
      exact startLink_threadOk hs1 (hs2 rfl) rfl (gateState_linkInv hinv'.afterStop).tracks
    · intro hne hc s1 m hq1 _ hm
      have hq01 := hq.trans hq1
      rw [hq.activeOptions] at hc
      obtain ⟨hk, hw⟩ := hok ⟨hrun, hne, hc⟩
      refine regroup_threadOk (hg1.quiet hq1) ?_ ?_ hw
      · rw [hq1.infos, hq1.targets]
        exact hm
      · refine ⟨hk.1, fun id hid hu => hk.2 id hid ?_⟩
        unfold Usable at hu ⊢
        rwa [hq01.targets, hq01.infos] at hu

end

theorem call_threadOk {reg : Registry} {s : Impl} (h : ThreadOk s) (hinv : LinkInv s) (c : Request)
    (hok : UpdateSucceeds reg s c) :
    Prog.wp ThreadOk (c.2.prog c.1 reg) (fun _ s' => ThreadOk s') s := by
  obtain ⟨env, call⟩ := c
  cases call with
  | scan options =>
    have hn : s.state = .stopped ∨ s.state = .failed → s.monitorThread = false := by
      intro hs
      by_contra hne
      rcases h.1 (by simpa using hne) with e | e <;> rw [e] at hs <;> simp at hs
    refine Prog.wp_mono (scan_wp env options h fun hs s' => h.of_none (hn hs)) fun _ s' h' => ?_
    rcases h' with rfl | ⟨hs, hh, _⟩
    · exact h
    · exact h.of_none (hn hs) hh.thread hh.terminated
  | start options sel => exact start_threadOk h hinv hok
  | startAll options => exact start_threadOk h hinv fun hp => absurd rfl hp.2.1
  | stop =>
    refine (Prog.wp_bind' _ _ _ _ _).mpr (stop_threadOk h (afterStop_threadOk h))
  | requestStop =>
    have hm : ThreadOk (markStop (s.withStop true)) := by
      by_cases hs : s.state = .starting ∨ s.state = .running
      · rw [show markStop (s.withStop true) = _ from if_pos hs]
        exact ⟨fun _ => .inr rfl, h.2⟩
      · rw [show markStop (s.withStop true) = _ from if_neg hs]
        exact h
    exact ⟨h, hm, hm⟩
  | invalidateDiscoveryCache => exact ⟨h, h⟩

/-- **The monitor thread.**  In every run whose updates in place succeed, every state passed has a
joinable thread only while the link runs or is asked to stop, and no joinable thread is ever
assigned over. -/
theorem thread_only_while_running {reg : Registry} {s : Impl}
    (h : Reach (runCall reg) (UpdateSucceeds reg) {} s) : ThreadOk s ∧
      ∀ c, UpdateSucceeds reg s c → ∀ s' ∈ (c.2.prog c.1 reg).visited s, ThreadOk s' := by
  have hall : ThreadOk s := by
    induction h with
    | start => exact ⟨(nomatch ·), rfl⟩
    | @next s hr c hc ih =>
      have hinv := LinkInv.of_reach hr ih.2
      rw [runCall, if_neg (by rw [ih.2]; exact Bool.false_ne_true)]
      exact Prog.wp_run (call_threadOk ih hinv c hc)
  refine ⟨hall, fun c hc => Prog.wp_visited (call_threadOk hall ?_ c hc)⟩
  exact LinkInv.of_reach h hall.2

/-- a run with an update in place that succeeds -/
theorem thread_only_while_running_update :
    ThreadOk (runCall registry (runCall registry {} (succeeding [controller "a"],
      .start {} (.single "a"))) (succeeding [controller "a"],
        .start { virtualControllerHostId := "libera" } (.single "a"))) :=
  (@thread_only_while_running registry _ (((Reach.start).next _ (by
    intro h; exact absurd h.1 (by decide))).next _ (by
    intro _
    refine ⟨⟨by decide, fun id hid _ => ?_⟩, succeeding_willing _⟩
    obtain rfl : id = "a" := by simpa [IdSet.single] using hid
    decide))).1

/-- An update that names an unknown host leaves the thread behind, and the next start ends the
process. -/
theorem failed_update_keeps_thread :
    let env := succeeding [controller "a"]
    let s := runCall registry (runCall registry {} (env, .start {} (.single "a")))
      (env, .start { virtualControllerHostId := "none" } (.single "a"))
    Reachable registry s ∧ s.state = .failed ∧ s.monitorThread = true ∧
      (runCall registry s (env, .start {} (.single "a"))).terminated = true := by
  refine ⟨((Reach.start).next _ trivial).next _ trivial, ?_⟩
  decide +kernel

/-! ## the hosts -/

/-- A stopped or failed link has no hosts and no targets, and every host whose start returned true
was stopped afterwards. -/
def AtRest (s : Impl) : Prop :=
  s.state = .stopped ∨ s.state = .failed →
    s.virtualControllerHosts = [] ∧ s.targets = [] ∧
      ∀ pre n ids post, s.io.calls = pre ++ .start n ids true :: post → .stop n ∈ post

/-- what the list of hosts says about the calls -/
theorem atRest_of_nil {s : Impl} (hinv : LinkInv s)
    (h : s.state = .stopped ∨ s.state = .failed → s.virtualControllerHosts = [] ∧ s.targets = []) :
    AtRest s := by
  intro hs
  obtain ⟨hh, ht⟩ := h hs
  refine ⟨hh, ht, fun pre n ids post e => ?_⟩
  have hw := Tracks.none_running (hh ▸ hinv.tracks) n
  rw [HostLog.world, e] at hw
  exact stopped_of_world_none hw

section
variable {env : Env} {reg : Registry} {options : LinkOptions} {sel : IdSet} {s s' : Impl}

theorem LinkOutcome.rest {r : Bool} (hh : s.virtualControllerHosts = []) (ht : s.targets = [])
    (h : LinkOutcome env reg options sel s r s') :
    s'.state = .stopped ∨ s'.state = .failed →
      s'.virtualControllerHosts = [] ∧ s'.targets = [] := by
  intro hs
  cases h with
  | failed why held state => exact ⟨held.hosts.trans hh, held.targets.trans ht⟩
  | refused ready connected grouped quiet tracks why =>
    exact ⟨Eq.trans quiet.hosts (ready.held.hosts.trans hh),
      Eq.trans quiet.targets (ready.held.targets.trans ht)⟩
  | @started s1 s2 targets groups hosts fallback ready infos connected nonempty grouped quiet tracks
      started =>
    exfalso
    rw [spawnMonitor_state] at hs
    rcases hs with hs | hs <;> cases hs

theorem UpdateOutcome.rest {r : Option Bool} (hk : InPlace s options sel → HostsKnown reg env s options sel)
    (hrun : s.state = .running) (h : UpdateOutcome env reg options sel s r s') :
    s'.state = .stopped ∨ s'.state = .failed →
      s'.virtualControllerHosts = [] ∧ s'.targets = [] := by
  intro hs
  cases h with
  | stopped => exact ⟨rfl, rfl⟩
  | restart => exact ⟨rfl, rfl⟩
  | unknown nonempty unchanged quiet found map why =>
    exact absurd why (not_updateFails (hk ⟨hrun, nonempty, unchanged⟩) map)
  | failed nonempty unchanged quiet found map grouped fallback desired edited =>
    rw [updateSection, edited]
    exact ⟨rfl, rfl⟩
  | updated nonempty unchanged quiet found map grouped fallback desired edited =>
    rw [updateSection, edited] at hs
    simp at hs

theorem StartOutcome.rest {r : Bool} (hrest : s.state = .stopped ∨ s.state = .failed →
      s.virtualControllerHosts = [] ∧ s.targets = [])
    (hk : InPlace s options sel → HostsKnown reg env s options sel)
    (h : StartOutcome env reg options sel s r s') :
    s'.state = .stopped ∨ s'.state = .failed →
      s'.virtualControllerHosts = [] ∧ s'.targets = [] := by
  -- the state check of an update changes a message only
  have known : gateOf s = .update → (gateState s).state = .running ∧
      (InPlace (gateState s) options sel → HostsKnown reg env (gateState s) options sel) := by
    intro hg
    have hq := gateState_update hg
    have hrun := gateOf_running.mp hg
    refine ⟨hq.state.trans hrun, fun ⟨_, h2, h3⟩ => ?_⟩
    rw [hq.activeOptions] at h3
    obtain ⟨k1, k2⟩ := hk ⟨hrun, h2, h3⟩
    refine ⟨k1, fun id hid hu => k2 id hid ?_⟩
    unfold Usable at hu ⊢
    rwa [hq.targets, hq.infos] at hu
  cases h with
  | refused => exact hrest
  | fresh hg h =>
    obtain ⟨_, hh⟩ := gateState_fresh hg
    have hs := gateOf_fresh.mp hg
    exact h.rest (hh.hosts.trans (hrest hs).1) (hh.targets.trans (hrest hs).2)
  | update hg h => exact h.rest (known hg).2 (known hg).1
  | restarted hg h1 h2 =>
    cases h1 with
    | restart => exact h2.rest rfl rfl

end

theorem call_rest {reg : Registry} {s : Impl} (hinv : LinkInv s)
    (hrest : s.state = .stopped ∨ s.state = .failed →
      s.virtualControllerHosts = [] ∧ s.targets = []) (c : Request) (hok : UpdateKnown reg s c) :
    ((c.2.prog c.1 reg).run s).2.state = .stopped ∨ ((c.2.prog c.1 reg).run s).2.state = .failed →
      ((c.2.prog c.1 reg).run s).2.virtualControllerHosts = [] ∧
      ((c.2.prog c.1 reg).run s).2.targets = [] := by
  obtain ⟨env, call⟩ := c
  have hstart : ∀ options sel, Prog.wp (fun _ => True) (LinkRuntime.start env reg options sel)
      (StartOutcome env reg options sel s) s := fun options sel =>
    start_outcome (fun h => (hinv.running h).system) hinv.tracks
  cases call with
  | scan options =>
    rcases Prog.wp_run (scan_wp (I := fun _ => True) env options trivial fun _ _ _ _ => trivial)
      with h | ⟨hs, hh, _⟩
    · exact h.symm ▸ hrest
    · exact fun _ => ⟨hh.hosts.trans (hrest hs).1, hh.targets.trans (hrest hs).2⟩
  | start options sel => exact (Prog.wp_run (hstart options sel)).rest hrest hok
  | startAll options =>
    exact (Prog.wp_run (hstart options .empty)).rest hrest fun hp => absurd rfl hp.2.1
  | stop =>
    have e : ((Call.stop.prog env reg).run s).2 = LinkRuntime.afterStop s := by
      simp only [Call.prog, Prog.bind_eq, Prog.run_bind, stop_run]
      rfl
    rw [e]
    exact fun _ => ⟨rfl, rfl⟩
  | requestStop =>
    show (markStop (s.withStop true)).state = _ ∨ (markStop (s.withStop true)).state = _ → _
    by_cases hs : s.state = .starting ∨ s.state = .running
    · rw [show markStop (s.withStop true) = _ from if_pos hs]
      exact fun h => by simp [Impl.withState] at h
    · show _ → (markStop (s.withStop true)).virtualControllerHosts = [] ∧
        (markStop (s.withStop true)).targets = []
      rw [show markStop (s.withStop true) = _ from if_neg hs]
      exact hrest
  | invalidateDiscoveryCache => exact hrest

/-- **The hosts.**  In every run whose updates in place name registered hosts only, a link that is
stopped or failed between calls has nothing running. -/
theorem nothing_runs_when_stopped_or_failed {reg : Registry} {s : Impl}
    (h : Reach (runCall reg) (UpdateKnown reg) {} s) (hend : s.terminated = false) : AtRest s := by
  refine atRest_of_nil (LinkInv.of_reach h hend) ?_
  exact run_invariant h hend (fun _ => ⟨rfl, rfl⟩) fun s c hinv hrest hc => call_rest hinv hrest c hc

/-- a run that fails in an update of known hosts -/
theorem nothing_runs_when_stopped_or_failed_update :
    let env := succeeding [controller "a"]
    AtRest (runCall registry (runCall registry {} (env, .start {} (.single "a")))
      ({ env with startHost := fun _ _ _ => some "no" },
        .start { virtualControllerHostId := "libera" } (.single "a"))) := by
  refine @nothing_runs_when_stopped_or_failed registry _
    (((Reach.start).next _ fun h => absurd h.1 (by decide)).next _ fun _ => ⟨by decide, ?_⟩)
    (by decide +kernel)
  intro id hid _
  obtain rfl : id = "a" := by simpa [IdSet.single] using hid
  decide

/-- An update that names an unknown host ends in `Failed` with its host running. -/
theorem unknown_host_keeps_hosts :
    let env := succeeding [controller "a"]
    let s := runCall registry (runCall registry {} (env, .start {} (.single "a")))
      (env, .start { virtualControllerHostId := "none" } (.single "a"))
    Reachable registry s ∧ s.terminated = false ∧ s.state = .failed ∧
      s.virtualControllerHosts.length = 1 ∧ s.targets.length = 1 ∧
      s.io.calls = [.start 0 ["a"] true] := by
  refine ⟨((Reach.start).next _ trivial).next _ trivial, ?_⟩
  decide +kernel

end LiberaLink
