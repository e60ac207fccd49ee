import LiberaLink.Runtime.Start

/-!
# The steps of the runtime that touch no host

Most of `scan` and `start` only looks for controllers and connects them: it changes messages, the
snapshots and the count of outcomes used, and nothing that the link consists of.  `Quiet s s'` says
so, and the loops before the hosts are shown quiet once and for all.

* `discoverControllers_wp`, `connectControllers_wp`, `connectMissing_wp`   the loops;
* `Connected`, `MapFor`        what the two connecting loops come back with;
* `stop_wp`                    the whole of `stop`.
-/

namespace LiberaLink
open Stepwise Impl

namespace Impl

/-- the state without messages, snapshots and the count of outcomes -/
def core (s : Impl) : Impl :=
  { s with
    statusMessage := ""
    hasDiscoveryResults := false
    discoveredControllers := 0
    discovered := []
    activeVirtualControllerHostId := ""
    activeVirtualControllerHostDisplayName := ""
    lastError := ""
    io := { s.io with ticks := 0 } }

end Impl

/-- `s'` differs from `s` in messages, snapshots and the count of outcomes at most. -/
def Quiet (s s' : Impl) : Prop := s'.core = s.core

namespace Quiet
variable {s s' s'' : Impl}

theorem refl (s : Impl) : Quiet s s := rfl
theorem trans (h : Quiet s s') (h' : Quiet s' s'') : Quiet s s'' := Eq.trans h' h

/-- what the core determines is unchanged -/
theorem field {α : Type} (f : Impl → α) (hf : ∀ s, f s.core = f s) (h : Quiet s s') : f s' = f s := by
  rw [← hf s', ← hf s]
  exact congrArg f h

section
variable (h : Quiet s s')
include h

theorem state : s'.state = s.state := field Impl.state (fun _ => rfl) h
theorem hosts : s'.virtualControllerHosts = s.virtualControllerHosts :=
  field Impl.virtualControllerHosts (fun _ => rfl) h
theorem thread : s'.monitorThread = s.monitorThread := field Impl.monitorThread (fun _ => rfl) h
theorem targets : s'.targets = s.targets := field Impl.targets (fun _ => rfl) h
theorem activeOptions : s'.activeOptions = s.activeOptions := field Impl.activeOptions (fun _ => rfl) h
theorem stopRequested : s'.stopRequested = s.stopRequested := field Impl.stopRequested (fun _ => rfl) h
theorem terminated : s'.terminated = s.terminated := field Impl.terminated (fun _ => rfl) h
theorem calls : s'.io.calls = s.io.calls := field (fun s => s.io.calls) (fun _ => rfl) h
theorem nextHost : s'.io.nextHost = s.io.nextHost := field (fun s => s.io.nextHost) (fun _ => rfl) h
theorem liberaSystem : s'.liberaSystem = s.liberaSystem := field Impl.liberaSystem (fun _ => rfl) h
theorem disabledTypes : s'.activeDisabledControllerTypes = s.activeDisabledControllerTypes :=
  field Impl.activeDisabledControllerTypes (fun _ => rfl) h
theorem drivers : s'.activeSelectedControllerDrivers = s.activeSelectedControllerDrivers :=
  field Impl.activeSelectedControllerDrivers (fun _ => rfl) h
theorem infos : s'.discoveredControllerInfos = s.discoveredControllerInfos :=
  field Impl.discoveredControllerInfos (fun _ => rfl) h

theorem world : s'.io.world = s.io.world := by
  show worldAfter _ s'.io.calls = _
  rw [h.calls]; rfl

theorem tracks {hosts : List ActiveVirtualControllerHost} (ht : Tracks s.io hosts) :
    Tracks s'.io hosts := ht.congr h.world h.nextHost.ge

end

theorem withStatus (s : Impl) (m : String) : Quiet s (s.withStatus m) := rfl
theorem withError (s : Impl) (m : String) : Quiet s (s.withError m) := rfl
theorem tick (s : Impl) : Quiet s (s.withIo s.io.tick) := rfl

/-- the host calls aside -/
theorem withIo (h : Quiet s s') (io : HostLog) : Quiet (s.withIo io) (s'.withIo io) :=
  field (fun s => (s.withIo io).core) (fun _ => rfl) h

end Quiet

namespace LinkRuntime
variable {I : Impl → Prop} {s : Impl} {env : Env} {reg : Registry} {options : LinkOptions}
  {sel : IdSet}

/-! ## the loops before the hosts -/

section
variable (hI : ∀ s', Quiet s s' → I s')
include hI

theorem logErrors_wp (lines : List String) : Prog.wp I (logErrors lines) (fun _ s' => Quiet s s') s := by
  induction lines generalizing s with
  | nil => exact .refl s
  | cons line lines ih =>
    simp only [logErrors, logError, Prog.wp_bind', Prog.wp_modify]
    have hq := Quiet.withError s line
    exact ⟨hI _ hq, Prog.wp_mono (ih fun s' h => hI s' (hq.trans h)) fun _ s' h => hq.trans h⟩

/-- what the loop of a discovery that nobody stops finds -/
def settledControllers (timeoutMs : Nat) : List DiscoveryRound → Discovery → List ControllerInfo
  | [], d => d.discovered
  | round :: rounds, d =>
    if (d.see round).settled round.settledAt then (d.see round).discovered
    else if (d.see round).timedOut timeoutMs round.elapsedAt then (d.see round).discovered
    else settledControllers timeoutMs rounds (d.see round)

theorem discoverLoop_wp (timeoutMs : Nat) (rounds : List DiscoveryRound) (d : Discovery) :
    Prog.wp I (discoverLoop timeoutMs rounds d) (fun found s' => Quiet s s' ∧
      (s.stopRequested = false → found = settledControllers timeoutMs rounds d)) s := by
  induction rounds generalizing s d with
  | nil =>
    simp only [discoverLoop, pollStop, Prog.wp_bind', Prog.wp_read, Prog.wp_pure]
    exact ⟨hI s (.refl s), .refl s, fun _ => rfl⟩
  | cons round rounds ih =>
    simp only [discoverLoop, pollStop, Prog.wp_bind', Prog.wp_read]
    refine ⟨hI s (.refl s), ?_⟩
    split
    · rename_i hflag
      exact ⟨.refl s, fun h => by rw [h] at hflag; cases hflag⟩
    · rw [Prog.wp_bind']
      refine Prog.wp_mono (logErrors_wp hI round.errors) fun _ s1 hq => ?_
      unfold settledControllers
      split
      · exact ⟨hq, fun _ => rfl⟩
      · split
        · exact ⟨hq, fun _ => rfl⟩
        · refine Prog.wp_mono (ih (fun s' h => hI s' (hq.trans h)) _) fun _ s' h => ?_
          exact ⟨hq.trans h.1, fun hf => h.2 (hq.stopRequested.trans hf)⟩

/-- what the discovery finds that is asked for after `ticks` outcomes -/
def controllersFound (env : Env) (timeoutMs ticks : Nat) : List ControllerInfo :=
  settledControllers timeoutMs (env.discover ticks).rounds { started := (env.discover ticks).started }

theorem discoverControllers_wp (timeoutMs : Nat) :
    Prog.wp I (discoverControllers env timeoutMs) (fun found s' => Quiet s s' ∧
      (s.stopRequested = false → found = controllersFound env timeoutMs s.io.ticks)) s := by
  simp only [discoverControllers, Prog.wp_bind', Prog.wp_exchange]
  have hq := Quiet.tick s
  exact ⟨hI _ hq, Prog.wp_mono (discoverLoop_wp (fun s' h => hI s' (hq.trans h)) _ _ _)
    fun _ s' h => ⟨hq.trans h.1, h.2⟩⟩

end

/-- The controllers that a start connects if all of them can be connected. -/
def linkedControllers (options : LinkOptions) (sel : IdSet) (infos : List ControllerInfo) :
    List ControllerInfo :=
  let selected := infos.filter fun i => i.linkable && isControllerSelected sel i
  if 0 < options.maxDacs then selected.take options.maxDacs else selected

/-- What the connecting loop of a start can come back with. -/
structure Connected (env : Env) (options : LinkOptions) (sel : IdSet) (infos : List ControllerInfo)
    (targets : List LinkedTarget) : Prop where
  sound : ∀ t ∈ targets, ∃ info ∈ infos, info.linkable = true ∧
    isControllerSelected sel info = true ∧ t = makeLiberaTarget info options
  exact : (∀ n i, env.connect n i = true) →
    targets = (linkedControllers options sel infos).map fun i => makeLiberaTarget i options

theorem connectControllers_sound (hI : ∀ s', Quiet s s' → I s') (hflag : s.stopRequested = false)
    (infos : List ControllerInfo) (acc : List LinkedTarget) :
    Prog.wp I (connectControllers env options sel infos acc)
      (fun ts s' => Quiet s s' ∧ ∃ new, ts = acc ++ new ∧ ∀ t ∈ new, ∃ info ∈ infos,
        info.linkable = true ∧ isControllerSelected sel info = true ∧
          t = makeLiberaTarget info options) s := by
  induction infos generalizing s acc with
  | nil => exact ⟨.refl s, [], by simp, by simp⟩
  | cons info rest ih =>
    simp only [connectControllers, pollStop, setStatus, Prog.wp_bind', Prog.wp_read,
      Prog.wp_modify, hflag, Bool.false_eq_true, if_false]
    have hq := Quiet.withStatus s ("Connecting " ++ info.label ++ "...")
    refine ⟨hI s (.refl s), hI _ hq, ?_⟩
    -- a controller that is passed over
    have pass : ∀ s1, Quiet s s1 → Prog.wp I (connectControllers env options sel rest acc)
        (fun ts s' => Quiet s s' ∧ ∃ new, ts = acc ++ new ∧ ∀ t ∈ new, ∃ i ∈ info :: rest,
          i.linkable = true ∧ isControllerSelected sel i = true ∧ t = makeLiberaTarget i options) s1 := by
      intro s1 h1
      refine Prog.wp_mono (ih (fun s' h => hI s' (h1.trans h)) (h1.stopRequested.trans hflag) acc) ?_
      rintro ts s' ⟨h2, new, rfl, hc⟩
      refine ⟨h1.trans h2, new, rfl, fun t ht => ?_⟩
      obtain ⟨i, hi, h⟩ := hc t ht
      exact ⟨i, List.mem_cons_of_mem _ hi, h⟩
    split
    · exact pass _ hq
    · split
      · exact pass _ hq
      · rename_i hl hs
        split
        · exact ⟨hq, [], by simp, by simp⟩
        · simp only [connectController, Prog.wp_bind', Prog.wp_exchange]
          have hq2 : Quiet s (_) := hq.trans (Quiet.tick _)
          refine ⟨hI _ hq2, ?_⟩
          split
          · refine Prog.wp_mono (ih (fun s' h => hI s' (hq2.trans h)) hflag _) ?_
            rintro ts s' ⟨h2, new, rfl, hc⟩
            refine ⟨hq2.trans h2, makeLiberaTarget info options :: new, by simp, fun t ht => ?_⟩
            rcases List.mem_cons.mp ht with rfl | ht
            · exact ⟨info, List.mem_cons_self, by simpa using hl, by simpa using hs, rfl⟩
            · obtain ⟨i, hi, h⟩ := hc t ht
              exact ⟨i, List.mem_cons_of_mem _ hi, h⟩
          · simp only [logError, Prog.wp_bind', Prog.wp_modify]
            have hq3 : Quiet s (_) := hq2.trans
              (Quiet.withError _ ("Skipping " ++ info.label ++ " (connect failed)"))
            exact ⟨hI _ hq3, pass _ hq3⟩

/-- with controllers that all connect, the loop connects those it can use up to the bound -/
theorem connectControllers_exact (hconnect : ∀ n i, env.connect n i = true)
    (hflag : s.stopRequested = false) (infos : List ControllerInfo) (acc : List LinkedTarget) :
    Prog.wp (fun _ => True) (connectControllers env options sel infos acc) (fun ts _ =>
      ts = acc ++ (if 0 < options.maxDacs
        then (infos.filter fun i => i.linkable && isControllerSelected sel i).take
          (options.maxDacs - acc.length)
        else infos.filter fun i => i.linkable && isControllerSelected sel i).map
          fun i => makeLiberaTarget i options) s := by
  induction infos generalizing s acc with
  | nil =>
    show acc = _
    simp
  | cons info rest ih =>
    simp only [connectControllers, pollStop, setStatus, Prog.wp_bind', Prog.wp_read,
      Prog.wp_modify, hflag, Bool.false_eq_true, if_false]
    refine ⟨trivial, trivial, ?_⟩
    split
    · rename_i hl
      rw [List.filter_cons_of_neg (by simpa using fun h => absurd h (by simpa using hl))]
      exact ih (by exact hflag) acc
    · split
      · rename_i hs
        rw [List.filter_cons_of_neg (by simpa using fun _ => by simpa using hs)]
        exact ih (by exact hflag) acc
      · rename_i hl hs
        rw [List.filter_cons_of_pos (by simp_all)]
        split
        · rename_i hmax
          rw [if_pos hmax.1, Nat.sub_eq_zero_of_le hmax.2]
          simp
        · rename_i hmax
          simp only [connectController, Prog.wp_bind', Prog.wp_exchange, hconnect, if_true]
          refine ⟨trivial, Prog.wp_mono (ih (by exact hflag) _) ?_⟩
          rintro ts s' rfl
          by_cases hpos : 0 < options.maxDacs
          · rw [if_pos hpos, if_pos hpos, List.length_append, List.length_singleton,
              show options.maxDacs - acc.length = (options.maxDacs - (acc.length + 1)) + 1 by omega]
            simp
          · rw [if_neg hpos, if_neg hpos]
            simp

theorem connectControllers_wp (hI : ∀ s', Quiet s s' → I s') (hflag : s.stopRequested = false)
    (infos : List ControllerInfo) : Prog.wp I (connectControllers env options sel infos [])
      (fun ts s' => Quiet s s' ∧ Connected env options sel infos ts) s := by
  refine Prog.wp_mono (Prog.wp_self (connectControllers_sound hI hflag infos [])) ?_
  rintro ts s' ⟨⟨hq, new, e, hsound⟩, hrun⟩
  obtain rfl : ts = new := e
  refine ⟨hq, hsound, fun hconnect => ?_⟩
  have h : Prog.wp (fun _ => True) (connectControllers env options sel infos []) _ s :=
    connectControllers_exact hconnect hflag infos []
  have h1 := Prog.wp_run h
  rw [hrun] at h1
  exact h1

/-! ## the targets of an update -/

/-- What the connecting loop of an update does to the targets it has. -/
structure Grown (env : Env) (infos : List ControllerInfo) (missing : List String)
    (m m' : TargetMap) : Prop where
  ids : (∀ id t, m.lookup id = some t → t.info.id = id) →
    ∀ id t, m'.lookup id = some t → t.info.id = id
  mono : ∀ id ∈ m, id ∈ m'
  sound : ∀ id ∈ m', id ∈ m ∨ id ∈ missing ∧ ∃ info ∈ infos, info.id = id ∧
    info.linkable = true ∧ ∃ n, env.connect n info = true
  all : (∀ n i, env.connect n i = true) → (infos.map fun i => i.id).Nodup →
    ∀ info ∈ infos, info.linkable = true → info.id ∈ missing → info.id ∈ m'

theorem Grown.skip {info : ControllerInfo} {rest : List ControllerInfo} {missing missing' : List String}
    {m m' : TargetMap} (h : Grown env rest missing' m m')
    (hsub : ∀ id, id ∈ missing' → id ∈ missing)
    (hkeep : ∀ id, id ≠ info.id → id ∈ missing → id ∈ missing')
    (hskip : info.linkable = true → info.id ∈ missing → ¬ ∀ n i, env.connect n i = true) :
    Grown env (info :: rest) missing m m' where
  ids := h.ids
  mono := h.mono
  sound id hid := (h.sound id hid).imp_right fun ⟨h1, i, hi, h2⟩ =>
    ⟨hsub id h1, i, List.mem_cons_of_mem _ hi, h2⟩
  all hc hnd i hi hl hm := by
    rw [List.map_cons, List.nodup_cons] at hnd
    rcases List.mem_cons.mp hi with rfl | hi
    · exact absurd hc (hskip hl hm)
    · refine h.all hc hnd.2 i hi hl (hkeep _ (fun e => hnd.1 ?_) hm)
      exact e ▸ List.mem_map_of_mem hi

theorem connectMissing_wp (hI : ∀ s', Quiet s s' → I s') (infos : List ControllerInfo)
    (missing : List String) (m : TargetMap) : Prog.wp I (connectMissing env options infos missing m)
      (fun r s' => Quiet s s' ∧ Grown env infos missing m r.2) s := by
  induction infos generalizing s missing m with
  | nil => exact ⟨.refl s, fun h => h, fun _ h => h, fun _ h => .inl h, by simp⟩
  | cons info rest ih =>
    have herase : ∀ id, id ≠ info.id → id ∈ missing → id ∈ missing.erase info.id :=
      fun id hne hm => (List.mem_erase_of_ne hne).mpr hm
    unfold connectMissing
    split
    · rename_i hno
      refine Prog.wp_mono (ih hI missing m) fun r s' h => ⟨h.1, ?_⟩
      exact h.2.skip (fun _ h => h) (fun _ _ h => h) fun _ hm => absurd hm hno
    · split
      · rename_i hl
        refine Prog.wp_mono (ih hI (missing.erase info.id) m) fun r s' h => ⟨h.1, ?_⟩
        exact h.2.skip (fun _ h => List.mem_of_mem_erase h) herase fun hl' => by simp [hl'] at hl
      · rename_i hmem hl
        simp only [setStatus, connectController, Prog.wp_bind', Prog.wp_modify, Prog.wp_exchange]
        have hq := Quiet.withStatus s ("Connecting " ++ info.label ++ "...")
        have hq2 : Quiet s (_) := hq.trans (Quiet.tick _)
        refine ⟨hI _ hq, hI _ hq2, ?_⟩
        split
        · rename_i hc
          refine Prog.wp_mono (ih (fun s' h => hI s' (hq2.trans h)) _ _) ?_
          intro r s' h
          obtain ⟨h2, hg⟩ := h
          refine ⟨hq2.trans h2, ?_⟩
          have hl' : info.linkable = true := by simpa using hl
          constructor
          · refine fun hids => hg.ids fun id t ht => ?_
            by_cases e : id = info.id
            · subst e
              rw [Finmap.lookup_insert] at ht
              exact Option.some.inj ht ▸ rfl
            · rw [Finmap.lookup_insert_of_ne _ e] at ht
              exact hids id t ht
          · exact fun id hid => hg.mono id (Finmap.mem_insert.mpr (.inr hid))
          · intro id hid
            rcases hg.sound id hid with h1 | ⟨h1, i, hi, h2⟩
            · rcases Finmap.mem_insert.mp h1 with rfl | h1
              · exact .inr ⟨by simpa using hmem, info, List.mem_cons_self, rfl, hl', _, hc⟩
              · exact .inl h1
            · exact .inr ⟨List.mem_of_mem_erase h1, i, List.mem_cons_of_mem _ hi, h2⟩
          · intro hca hnd i hi hl hm
            rw [List.map_cons, List.nodup_cons] at hnd
            rcases List.mem_cons.mp hi with rfl | hi
            · exact hg.mono _ (Finmap.mem_insert.mpr (.inl rfl))
            · refine hg.all hca hnd.2 i hi hl (herase _ (fun e => hnd.1 ?_) hm)
              exact e ▸ List.mem_map_of_mem hi
        · rename_i hno
          simp only [logError, Prog.wp_bind', Prog.wp_modify]
          have hq3 : Quiet s (_) := hq2.trans
            (Quiet.withError _ ("Skipping " ++ info.label ++ " (connect failed)"))
          refine ⟨hI _ hq3, Prog.wp_mono (ih (fun s' h => hI s' (hq3.trans h)) _ m) ?_⟩
          intro r s' h
          refine ⟨hq3.trans h.1, ?_⟩
          exact h.2.skip (fun _ h => List.mem_of_mem_erase h) herase fun _ _ ha => hno (ha _ _)

/-- the targets of the running link are found by their ids -/
theorem targetMap_spec (targets : List LinkedTarget) :
    (∀ id t, (targetMap targets).lookup id = some t → t.info.id = id) ∧
    ∀ id, id ∈ targetMap targets ↔ id ∈ targetIdSet targets := by
  have loop : ∀ (targets : List LinkedTarget) (m : TargetMap),
      (∀ id t, m.lookup id = some t → t.info.id = id) →
      (∀ id t, (targets.foldl (fun m t => if t.info.id ∈ m then m else m.insert t.info.id t)
        m).lookup id = some t → t.info.id = id) ∧
      ∀ id, id ∈ targets.foldl (fun m t => if t.info.id ∈ m then m else m.insert t.info.id t) m ↔
        id ∈ m ∨ id ∈ targetIdSet targets := by
    intro targets
    induction targets with
    | nil => exact fun m hm => ⟨hm, fun id => by simp [targetIdSet]⟩
    | cons t ts ih =>
      intro m hm
      rw [List.foldl_cons]
      by_cases ht : t.info.id ∈ m
      · rw [if_pos ht]
        refine ⟨(ih m hm).1, fun id => ?_⟩
        rw [(ih m hm).2 id]
        simp only [mem_targetIdSet, List.mem_cons, exists_eq_or_imp]
        constructor
        · tauto
        · rintro (h | rfl | h)
          · exact .inl h
          · exact .inl ht
          · exact .inr h
      · rw [if_neg ht]
        have hm' : ∀ id t', (m.insert t.info.id t).lookup id = some t' → t'.info.id = id := by
          intro id t' h
          by_cases e : id = t.info.id
          · subst e
            rw [Finmap.lookup_insert] at h
            exact Option.some.inj h ▸ rfl
          · rw [Finmap.lookup_insert_of_ne _ e] at h
            exact hm id t' h
        refine ⟨(ih _ hm').1, fun id => ?_⟩
        rw [(ih _ hm').2 id, Finmap.mem_insert]
        simp only [mem_targetIdSet, List.mem_cons, exists_eq_or_imp]
        constructor
        · rintro ((h | h) | h)
          · exact .inr (.inl h.symm)
          · exact .inl h
          · exact .inr (.inr h)
        · rintro (h | h | h)
          · exact .inl (.inr h)
          · exact .inl (.inl h.symm)
          · exact .inr h
  obtain ⟨h1, h2⟩ := loop targets ∅ (by simp)
  exact ⟨h1, fun id => (h2 id).trans (or_iff_right Finmap.notMem_empty)⟩

/-- What an update has targets for. -/
structure MapFor (env : Env) (sel : IdSet) (infos : List ControllerInfo)
    (targets : List LinkedTarget) (m : TargetMap) : Prop where
  ids : ∀ id t, m.lookup id = some t → t.info.id = id
  old : ∀ id ∈ targetIdSet targets, id ∈ m
  sound : ∀ id ∈ m, id ∈ targetIdSet targets ∨ id ∈ sel.ids ∧ ∃ info ∈ infos, info.id = id ∧
    info.linkable = true ∧ ∃ n, env.connect n info = true
  all : (∀ n i, env.connect n i = true) → (infos.map fun i => i.id).Nodup →
    ∀ info ∈ infos, info.linkable = true → info.id ∈ sel.ids → info.id ∈ m

/-- `configureLiberaSystem` changes nothing when the system has these options already -/
theorem configureLiberaSystem_same (hsys : s.liberaSystem = true)
    (hd : s.activeDisabledControllerTypes = options.disabledControllerTypes)
    (hs : s.activeSelectedControllerDrivers = options.selectedControllerDrivers) :
    configureLiberaSystem options s = s := if_pos ⟨hsys, hd, hs⟩

theorem targetsForUpdate_wp (hI : ∀ s', Quiet s s' → I s') (hsys : s.liberaSystem = true)
    (hd : s.activeDisabledControllerTypes = options.disabledControllerTypes)
    (hs : s.activeSelectedControllerDrivers = options.selectedControllerDrivers)
    (targets : List LinkedTarget) :
    Prog.wp I (targetsForUpdate env options sel (targetMap targets))
      (fun m s' => Quiet s s' ∧ MapFor env sel s.discoveredControllerInfos targets m) s := by
  obtain ⟨hids, hmem⟩ := targetMap_spec targets
  unfold targetsForUpdate
  simp only
  split
  · rename_i hno
    have hnone : ∀ id ∈ sel.ids, id ∈ targetMap targets := by
      intro id hid
      by_contra hn
      have : id ∈ sel.ids.filter fun id => decide (id ∉ targetMap targets) := by simp [hid, hn]
      rw [List.isEmpty_iff] at hno
      rw [hno] at this
      cases this
    exact ⟨.refl s, hids, fun id h => (hmem id).mpr h, fun id h => .inl ((hmem id).mp h),
      fun _ _ i _ _ h => hnone _ h⟩
  · simp only [Prog.wp_bind', Prog.wp_modify, Prog.wp_read,
      configureLiberaSystem_same hsys hd hs]
    refine ⟨hI s (.refl s), hI s (.refl s), ?_⟩
    refine Prog.wp_mono (connectMissing_wp hI _ _ _) fun r s1 h => ?_
    obtain ⟨hq, hg⟩ := h
    refine Prog.wp_mono (logErrors_wp (fun s' h => hI s' (hq.trans h)) _) fun _ s2 hq2 => ?_
    refine ⟨hq.trans hq2, hg.ids hids, fun id h => hg.mono id ((hmem id).mpr h), ?_, ?_⟩
    · intro id hid
      rcases hg.sound id hid with h | ⟨h1, h2⟩
      · exact .inl ((hmem id).mp h)
      · exact .inr ⟨(List.mem_filter.mp h1).1, h2⟩
    · intro hc hnd info hi hl hm
      by_cases hin : info.id ∈ targetMap targets
      · exact hg.mono _ hin
      · exact hg.all hc hnd info hi hl (by simp [hm, hin])

/-- the ids of the desired targets are the selected ids that have a target -/
theorem mem_desiredTargets {m : TargetMap} (hids : ∀ id t, m.lookup id = some t → t.info.id = id)
    (id : String) :
    id ∈ targetIdSet ((desiredTargets sel m).map Prod.snd) ↔ id ∈ sel.ids ∧ id ∈ m := by
  simp only [mem_targetIdSet, desiredTargets, List.mem_map, List.mem_filterMap,
    Option.map_eq_some_iff, Finmap.mem_iff]
  constructor
  · rintro ⟨t, ⟨p, ⟨id', hid', t', ht', rfl⟩, rfl⟩, rfl⟩
    have e := hids id' t' ht'
    exact ⟨e ▸ hid', t', e ▸ ht'⟩
  · rintro ⟨hid, t, ht⟩
    exact ⟨t, ⟨(id, t), ⟨id, hid, t, ht, rfl⟩, rfl⟩, hids id t ht⟩

theorem desiredTargets_id {m : TargetMap} (hids : ∀ id t, m.lookup id = some t → t.info.id = id) :
    ∀ p ∈ desiredTargets sel m, p.1 = p.2.info.id := by
  intro p hp
  simp only [desiredTargets, List.mem_filterMap, Option.map_eq_some_iff] at hp
  obtain ⟨id, _, t, ht, rfl⟩ := hp
  exact (hids id t ht).symm

/-! ## stopping -/

/-- the state a stop leaves -/
def afterStop (s : Impl) : Impl :=
  { releaseAll s with
    monitorThread := false
    stopRequested := false
    io := stopHosts s.virtualControllerHosts s.io }

theorem stop_run (s : Impl) : Prog.run stop s = ((), afterStop s) := by
  show ((), _) = _
  unfold afterStop markStop
  by_cases h : s.state = .starting ∨ s.state = .running <;>
    simp [Impl.withStop, Impl.withIo, Impl.withState, releaseAll, h]

/-- the rule for `stop`: `I` while the flag is raised, and of every state without the thread -/
theorem stop_wp {Q : Unit → Impl → Prop} (hraise : I (s.withStop true))
    (hmark : I (markStop (s.withStop true)))
    (htail : ∀ s', s'.monitorThread = false → s'.terminated = s.terminated → I s')
    (hQ : Q () (afterStop s)) : Prog.wp I stop Q s := by
  rw [Prog.wp_iff, stop_run]
  refine ⟨?_, hQ⟩
  have hm : (markStop (s.withStop true)).terminated = s.terminated := by
    unfold markStop; split <;> rfl
  simp only [stop, requestStop, Prog.modify, Prog.exchange, clearStop, Prog.bind_eq, Prog.act_bind,
    Prog.ret_bind, Prog.visited, List.forall_mem_cons]
  exact ⟨hraise, hmark, htail _ rfl hm, htail _ rfl hm, htail _ rfl hm, htail _ rfl hm, by simp⟩

end LinkRuntime
end LiberaLink
