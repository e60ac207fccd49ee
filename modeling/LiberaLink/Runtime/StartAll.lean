import LiberaLink.Runtime.Restart

/-!
# The start of all controllers

`start(options)` hands the empty selection to `start(options, selectedControllerIds)`.  On a link
that does not run it stands for all controllers: `isControllerSelected` passes every one of them.  The
update of a running link reads the empty selection as it stands, and stops the link.

* `connectableFrom`, `upTo`     the controllers that connect, and the bound `maxDacs`;
* `startLink_targets`           the targets of a start from the ground up;
* `start_all_links_iff`         **when `start(options)` links every controller**.
-/

namespace LiberaLink
open Stepwise Impl LinkRuntime

/-- The linkable controllers of a list that connect, if they are tried in order from the outcome `n`
on. -/
def connectableFrom (env : Env) : Nat → List ControllerInfo → List ControllerInfo
  | _, [] => []
  | n, info :: rest =>
    if info.linkable then
      if env.connect n info then info :: connectableFrom env (n + 1) rest
      else connectableFrom env (n + 1) rest
    else connectableFrom env n rest

/-- the bound `maxDacs` on what is linked; 0 is no bound -/
def upTo (maxDacs : Nat) (infos : List ControllerInfo) : List ControllerInfo :=
  if 0 < maxDacs then infos.take maxDacs else infos

/-- The outcome at which a start from `s` begins to connect: a discovery takes one outcome. -/
def connectTicks (options : LinkOptions) (s : Impl) : Nat :=
  if (configureLiberaSystem options s).discoveredControllerInfos = [] then s.io.ticks + 1
  else s.io.ticks

/-- The linkable controllers that a start from `s` discovers and that connect. -/
def connectableControllers (env : Env) (options : LinkOptions) (s : Impl) : List ControllerInfo :=
  connectableFrom env (connectTicks options s) (startControllers env options s)

/-- if a controller connects at any time or never, they are found by a filter -/
theorem connectableFrom_const {env : Env} {ok : ControllerInfo → Bool}
    (h : ∀ n info, env.connect n info = ok info) (n : Nat) (infos : List ControllerInfo) :
    connectableFrom env n infos = infos.filter fun info => info.linkable && ok info := by
  induction infos generalizing n with
  | nil => rfl
  | cons info rest ih =>
    rw [connectableFrom, h, ih, ih]
    cases hl : info.linkable <;> cases ho : ok info <;> simp [hl, ho]

namespace LinkRuntime
variable {env : Env} {reg : Registry} {options : LinkOptions} {sel : IdSet} {s : Impl}

/-- the controllers that a loop with `n` targets can add -/
def addable (maxDacs n : Nat) (infos : List ControllerInfo) : List ControllerInfo :=
  if 0 < maxDacs then infos.take (maxDacs - n) else infos

theorem addable_cons {maxDacs n : Nat} (h : ¬ (0 < maxDacs ∧ maxDacs ≤ n)) (info : ControllerInfo)
    (infos : List ControllerInfo) :
    addable maxDacs n (info :: infos) = info :: addable maxDacs (n + 1) infos := by
  unfold addable
  by_cases hpos : 0 < maxDacs
  · rw [if_pos hpos, if_pos hpos, show maxDacs - n = (maxDacs - (n + 1)) + 1 by omega]
    rfl
  · rw [if_neg hpos, if_neg hpos]

/-- **The loop that connects the controllers**: it adds those that connect, up to the bound. -/
theorem connectControllers_targets (hflag : s.stopRequested = false) (infos : List ControllerInfo)
    (acc : List LinkedTarget) :
    Prog.wp (fun _ => True) (connectControllers env options sel infos acc) (fun ts _ =>
      ts = acc ++ (addable options.maxDacs acc.length (connectableFrom env s.io.ticks
        (infos.filter (isControllerSelected sel)))).map fun i => makeLiberaTarget i options) s := by
  induction infos generalizing s acc with
  | nil =>
    show acc = _
    simp [connectableFrom, addable]
  | cons info rest ih =>
    simp only [connectControllers, pollStop, setStatus, Prog.wp_bind', Prog.wp_read,
      Prog.wp_modify, hflag, Bool.false_eq_true, if_false]
    refine ⟨trivial, trivial, ?_⟩
    generalize "Connecting " ++ info.label ++ "..." = m
    split
    · rename_i hl
      have hl' : info.linkable = false := by simpa using hl
      have e : ∀ n, connectableFrom env n ((info :: rest).filter (isControllerSelected sel)) =
          connectableFrom env n (rest.filter (isControllerSelected sel)) := by
        intro n
        rw [List.filter_cons]
        split
        · rw [connectableFrom, hl', if_neg Bool.false_ne_true]
        · rfl
      rw [e]
      exact @ih (s.withStatus m) hflag acc
    · split
      · rename_i hs
        rw [List.filter_cons_of_neg (by simpa using hs)]
        exact @ih (s.withStatus m) hflag acc
      · rename_i hl hs
        have hl' : info.linkable = true := by simpa using hl
        rw [List.filter_cons_of_pos (by simpa using hs), connectableFrom, if_pos hl']
        split
        · rename_i hmax
          rw [addable, if_pos hmax.1, Nat.sub_eq_zero_of_le hmax.2]
          simp
        · rename_i hmax
          simp only [connectController, Prog.wp_bind', Prog.wp_exchange]
          refine ⟨trivial, ?_⟩
          split
          · rename_i hc
            rw [if_pos (by exact hc), addable_cons hmax]
            refine Prog.wp_mono (@ih ((s.withStatus m).withIo s.io.tick) hflag _) fun ts _ h => ?_
            rw [h, List.length_append, List.map_cons, List.append_assoc]
            rfl
          · rename_i hc
            rw [if_neg (by exact hc)]
            simp only [logError, Prog.wp_bind', Prog.wp_modify]
            exact ⟨trivial, @ih (((s.withStatus m).withIo s.io.tick).withError _) hflag acc⟩

/-! ## the outcomes a discovery takes -/

theorem logErrors_io (lines : List String) :
    Prog.wp (fun _ => True) (logErrors lines) (fun _ s' => s'.io = s.io) s := by
  induction lines generalizing s with
  | nil => rfl
  | cons line lines ih =>
    simp only [logErrors, logError, Prog.wp_bind', Prog.wp_modify]
    exact ⟨trivial, @ih (s.withError line)⟩

theorem discoverLoop_io (timeoutMs : Nat) (rounds : List DiscoveryRound) (d : Discovery) :
    Prog.wp (fun _ => True) (discoverLoop timeoutMs rounds d) (fun _ s' => s'.io = s.io) s := by
  induction rounds generalizing s d with
  | nil => exact ⟨trivial, rfl⟩
  | cons round rounds ih =>
    simp only [discoverLoop, pollStop, Prog.wp_bind', Prog.wp_read]
    refine ⟨trivial, ?_⟩
    split
    · rfl
    · rw [Prog.wp_bind']
      refine Prog.wp_mono (logErrors_io round.errors) fun _ s1 h => ?_
      split
      · exact h
      · split
        · exact h
        · exact Prog.wp_mono (ih _) fun _ s2 h' => Eq.trans h' h

/-- the discovery of a start takes one outcome -/
theorem discoverForStart_ticks : Prog.wp (fun _ => True) (discoverForStart env options)
    (fun _ s' => s'.io.ticks = s.io.ticks + 1) s := by
  simp only [discoverForStart, discoverControllers, setState, lastErrorSet, pollStop, cancelled,
    logError, Prog.wp_bind', Prog.wp_modify, Prog.wp_exchange, Prog.wp_read]
  refine ⟨trivial, trivial, Prog.wp_mono (discoverLoop_io _ _ _) fun found s1 h => ?_⟩
  have ht : s1.io.ticks = s.io.ticks + 1 := congrArg HostLog.ticks h
  refine ⟨trivial, trivial, ?_⟩
  split
  · exact ⟨trivial, ht⟩
  · split
    · rw [Prog.wp_bind', Prog.wp_modify, Prog.wp_bind', Prog.wp_modify]
      refine ⟨trivial, trivial, ?_⟩
      split
      · exact ht
      · exact ⟨trivial, ht⟩
    · exact ⟨trivial, ht⟩

/-! ## the targets of a start -/

/-- The targets that a start from `s` links: the selected controllers that connect, up to the bound. -/
def startTargets (env : Env) (options : LinkOptions) (sel : IdSet) (s : Impl) : List LinkedTarget :=
  (upTo options.maxDacs (connectableFrom env (connectTicks options s)
    ((startControllers env options s).filter (isControllerSelected sel)))).map
      fun info => makeLiberaTarget info options

/-- a start that succeeds runs with the targets `ts` -/
def RunsWith (ts : List LinkedTarget) (r : Bool) (s' : Impl) : Prop :=
  r = true → s'.state = .running ∧ s'.targets = ts

theorem runsWith_false (ts : List LinkedTarget) (s' : Impl) : RunsWith ts false s' := by
  intro h
  cases h

theorem failWith_runsWith (ts : List LinkedTarget) (e : String) :
    Prog.wp (fun _ => True) (failWith e) (RunsWith ts) s :=
  ⟨trivial, trivial, runsWith_false ts _⟩

theorem startHosts_runsWith (ts : List LinkedTarget) :
    Prog.wp (fun _ => True) (startHosts env reg options ts) (RunsWith ts) s := by
  unfold startHosts
  split
  · exact failWith_runsWith ts _
  · rw [Prog.wp_bind']
    refine Prog.wp_trivial (fun _ => trivial) fun r s1 => ?_
    cases r with
    | none => exact runsWith_false ts _
    | some hosts =>
      simp only [Prog.wp_bind', Prog.wp_modify]
      exact ⟨trivial, trivial, fun _ => ⟨spawnMonitor_state _, spawnMonitor_targets _⟩⟩

/-- the part of a start that follows the discovery -/
theorem connectAndStart_runsWith (hflag : s.stopRequested = false) :
    Prog.wp (fun _ => True) (connectAndStart env reg options sel)
      (RunsWith ((upTo options.maxDacs (connectableFrom env s.io.ticks
        (s.discoveredControllerInfos.filter (isControllerSelected sel)))).map
          fun info => makeLiberaTarget info options)) s := by
  simp only [connectAndStart, cancelled, setState, pollStop, Prog.wp_bind', Prog.wp_read]
  refine ⟨trivial, Prog.wp_mono (connectControllers_targets hflag _ []) fun ts s1 h => ?_⟩
  obtain rfl := h
  refine ⟨trivial, ?_⟩
  split
  · exact ⟨trivial, runsWith_false _ _⟩
  · split
    · exact failWith_runsWith _ _
    · exact startHosts_runsWith _

/-- **The targets of a start from the ground up.** -/
theorem startLink_targets (hstate : s.state = .starting) :
    Prog.wp (fun _ => True) (startLink env reg options sel)
      (RunsWith (startTargets env options sel s)) s := by
  simp only [startLink, clearStop, Prog.wp_bind', Prog.wp_modify]
  refine ⟨trivial, trivial, ?_⟩
  split
  · exact failWith_runsWith _ _
  · simp only [Prog.wp_bind', Prog.wp_modify, Prog.wp_read]
    have hh1 : Held s (configureLiberaSystem options ((s.withError "").withStop false)) :=
      Held.configure options _
    obtain ⟨c1, c2, c3, c4, c5⟩ := configureLiberaSystem_spec options ((s.withError "").withStop false)
    have hinf := @configureLiberaSystem_cache s options ((s.withError "").withStop false) rfl rfl rfl rfl
    have hticks : (configureLiberaSystem options ((s.withError "").withStop false)).io.ticks =
        s.io.ticks := by unfold configureLiberaSystem; split <;> rfl
    generalize configureLiberaSystem options ((s.withError "").withStop false) = s1 at *
    have hr : Ready s options s1 := ⟨hh1, c4.trans hstate, c5, c1, c2, c3⟩
    refine ⟨trivial, trivial, ?_⟩
    split
    · rename_i hnone
      have hempty : (configureLiberaSystem options s).discoveredControllerInfos = [] :=
        hinf ▸ List.isEmpty_iff.mp hnone
      rw [Prog.wp_bind']
      refine Prog.wp_mono (Prog.wp_and (discoverForStart_wp (fun _ _ _ => trivial) hr hticks hempty)
        discoverForStart_ticks) fun ok s2 h => ?_
      obtain ⟨h, ht⟩ := h
      split
      · rename_i hok
        rw [if_pos hok] at h
        rw [startTargets, connectTicks, if_pos hempty, ← hticks, ← ht, ← h.2]
        exact connectAndStart_runsWith h.1.stopRequested
      · exact runsWith_false _ _
    · rename_i hsome
      have hfull : (configureLiberaSystem options s).discoveredControllerInfos ≠ [] :=
        fun e => hsome (List.isEmpty_iff.mpr (hinf.trans e))
      simp only [setState, Prog.wp_bind', Prog.wp_modify]
      rw [startTargets, connectTicks, startControllers, if_neg hfull, if_neg hfull, ← hinf, ← hticks]
      exact ⟨trivial, @connectAndStart_runsWith _ _ _ _ (s1.withState .starting _) c5⟩

/-- the state check changes nothing that a start reads before it connects -/
theorem startTargets_gateState (hg : gateOf s = .fresh) :
    startTargets env options sel (gateState s) = startTargets env options sel s := by
  have hfields : (gateState s).io = s.io ∧ (configureLiberaSystem options
      (gateState s)).discoveredControllerInfos =
        (configureLiberaSystem options s).discoveredControllerInfos := by
    unfold gateState
    rw [hg]
    exact ⟨rfl, configureLiberaSystem_cache rfl rfl rfl rfl⟩
  unfold startTargets connectTicks startControllers
  rw [hfields.1, hfields.2]

/-- the empty selection stands for all controllers here -/
theorem startTargets_empty : startTargets env options .empty s =
    (upTo options.maxDacs (connectableControllers env options s)).map
      fun info => makeLiberaTarget info options := by
  have h : ∀ infos : List ControllerInfo, infos.filter (isControllerSelected .empty) = infos := by
    intro infos
    apply List.filter_eq_self.mpr
    intro info _
    rfl
  rw [startTargets, h]
  rfl

/-- here it does not -/
theorem startAll_running (hrun : s.state = .running) :
    (startAll env reg options).run s = (true, afterStop (gateState s)) := by
  show (startFuel env reg options .empty (1 + 1)).run s = _
  rw [startFuel_succ, gateOf_running.mpr hrun]
  have hupdate : (updateRunningLink env reg options .empty).run (gateState s) =
      (some true, afterStop (gateState s)) := by
    unfold updateRunningLink
    rw [if_pos (by rfl), Prog.bind_eq, Prog.run_bind, stop_run]
    rfl
  simp only [Prog.bind_eq, Prog.run_bind, hupdate]
  rfl

end LinkRuntime

/-- The link of `s'` runs with every controller that a start from `s` discovers and that can be linked
and connected, up to the bound, and each of them is served by exactly one host. -/
structure LinksAll (env : Env) (options : LinkOptions) (s s' : Impl) : Prop where
  state : s'.state = .running
  targets : s'.targets = (upTo options.maxDacs (connectableControllers env options s)).map
    fun info => makeLiberaTarget info options
  served : ∀ t ∈ s'.targets, ∃! h, h ∈ s'.virtualControllerHosts ∧ t.info.id ∈ targetIdSet h.targets

/-- the hosts of a start serve its targets -/
theorem LinkOutcome.served {env : Env} {reg : Registry} {options : LinkOptions} {sel : IdSet}
    {s s' : Impl} (h : LinkOutcome env reg options sel s true s') :
    ∀ t ∈ s'.targets, ∃! k, k ∈ s'.virtualControllerHosts ∧ t.info.id ∈ targetIdSet k.targets := by
  cases h with
  | @started s1 s2 targets groups hosts fallback ready infos connected nonempty grouped quiet tracks
      started =>
    have hgroups := groupsOf_start grouped
    have hserves : Serves reg options (targets.map fun t => t.info.id) hosts :=
      (realises_of_started started hgroups.nodup_keys).serves hgroups fun id => by
        rw [targetIdSet, List.mem_toFinset]
    rw [spawnMonitor_targets, spawnMonitor_hosts]
    intro t ht
    exact hserves.existsUnique (List.mem_map_of_mem ht)

/-- **The start of all controllers.**  On a link that is stopped, failed or running, `start(options)`
that returns true has linked every controller exactly if the link was not running. -/
theorem start_all_links_iff {env : Env} {reg : Registry} {options : LinkOptions} {s : Impl}
    (hr : Reachable reg s) (hend : s.terminated = false)
    (hs : s.state = .stopped ∨ s.state = .failed ∨ s.state = .running) :
    (((startAll env reg options).run s).1 = true →
      LinksAll env options s ((startAll env reg options).run s).2) ↔ s.state ≠ .running := by
  constructor
  · intro h hrun
    rw [startAll_running hrun] at h
    cases (h rfl).state
  · intro hrun htrue
    have hinv := LinkInv.of_reach hr hend
    have hg : gateOf s = .fresh := by
      rcases hs with hs | hs | hs
      · exact gateOf_fresh.mpr (.inl hs)
      · exact gateOf_fresh.mpr (.inr hs)
      · exact absurd hs hrun
    have e : (startAll env reg options).run s =
        (startLink env reg options .empty).run (gateState s) := startFuel_run hg
    rw [e] at htrue ⊢
    obtain ⟨h1, h2⟩ := gateState_fresh hg
    have hlink := Prog.wp_run (@startLink_targets env reg options .empty _ h1) htrue
    have hout : LinkOutcome env reg options .empty (gateState s) _ _ :=
      Prog.wp_run (startLink_outcome h1 (h2.hosts ▸ h2.tracks hinv.tracks))
    rw [htrue] at hout
    refine ⟨hlink.1, ?_, hout.served⟩
    rw [hlink.2, startTargets_gateState hg, startTargets_empty]

/-- the first start links both controllers -/
theorem start_all_links_first :
    let env := succeeding [controller "a", controller "b"]
    LinksAll env {} {} ((startAll env registry {}).run {}).2 := by
  intro env
  exact (@start_all_links_iff env registry {} {} Reach.start rfl (.inl rfl)).mpr (by decide)
    (by decide +kernel)

/-- A second `start(options)` returns true and has stopped the link. -/
theorem start_all_stops_running :
    let env := succeeding [controller "a"]
    let s := runCall registry {} (env, .startAll {})
    Reachable registry s ∧ s.terminated = false ∧ s.state = .running ∧
      connectableControllers env {} s = [controller "a"] ∧ env.Willing ∧
      ((startAll env registry {}).run s).1 = true ∧
      ((startAll env registry {}).run s).2.state = .stopped ∧
      ((startAll env registry {}).run s).2.targets = [] ∧
      ¬ LinksAll env {} s ((startAll env registry {}).run s).2 := by
  refine ⟨(Reach.start).next _ trivial, by decide +kernel, by decide +kernel, by decide +kernel,
    succeeding_willing _, by decide +kernel, by decide +kernel, by decide +kernel, fun h => ?_⟩
  have hstate := h.state
  revert hstate
  decide +kernel

end LiberaLink
