import LiberaLink.Lib.Reach
import LiberaLink.Runtime.Rules

/-!
# What a start can do

The rules for the parts of `start`, read once for all its ends: each end is a case of an inductive
predicate, with what is known of the state there.

* `LinkOutcome`, `UpdateOutcome`   a start from the ground up, the update of a running link;
* `StartOutcome`                   a start, which is one of these or a restart;
* `start_outcome`                  **everything a start can do**.
-/

namespace LiberaLink
open Stepwise Impl LinkRuntime

/-! ## what a start can do -/

section
variable (env : Env) (reg : Registry) (options : LinkOptions) (sel : IdSet)

/-- How a start from the ground up ends, from the state after its state check. -/
inductive LinkOutcome (s : Impl) : Bool → Impl → Prop where
  | failed {s' : Impl} (why : StartFails env reg options sel s) (held : Held s s')
      (state : s'.state = .failed) : LinkOutcome s false s'
  | refused {s1 s' : Impl} {targets : List LinkedTarget}
      {groups : List PendingVirtualControllerHostGroup} (ready : Ready s options s1)
      (connected : Connected env options sel s1.discoveredControllerInfos targets)
      (grouped : groupTargets reg options (targets.map fun t => (t.info.id, t)) [] = .ok groups)
      (quiet : Quiet (s1.withState .failed "") (s'.withIo s1.io))
      (tracks : Tracks s'.io s.virtualControllerHosts)
      (why : ¬ env.Willing ∨ ∃ g ∈ groups, reg.registration g.info.id = none) :
      LinkOutcome s false s'
  | started {s1 s2 : Impl} {targets : List LinkedTarget}
      {groups : List PendingVirtualControllerHostGroup} {hosts : List ActiveVirtualControllerHost}
      (fallback : fallbackUnknown reg options = false) (ready : Ready s options s1)
      (infos : s1.discoveredControllerInfos = startControllers env options s)
      (connected : Connected env options sel s1.discoveredControllerInfos targets)
      (nonempty : targets ≠ [])
      (grouped : groupTargets reg options (targets.map fun t => (t.info.id, t)) [] = .ok groups)
      (quiet : Quiet s1 (s2.withIo s1.io))
      (tracks : Tracks s2.io (s.virtualControllerHosts ++ hosts))
      (started : List.Forall₂ (Started options.sliceDurationUs) groups hosts) :
      LinkOutcome s true (spawnMonitor (publishStart options hosts targets s2))

/-- How the update of a running link ends, from the state after the state check of `start`. -/
inductive UpdateOutcome (s : Impl) : Option Bool → Impl → Prop where
  | stopped {s1 : Impl} (quiet : Quiet s s1) (why : sel.ids = [] ∨
      targetRuntimeOptionsChanged s.activeOptions options = false ∧
        desiredTargets sel (targetsFound env options sel s) = []) :
      UpdateOutcome s (some true) (afterStop s1)
  | restart (changed : targetRuntimeOptionsChanged s.activeOptions options = true)
      (nonempty : sel.ids ≠ []) : UpdateOutcome s none (afterStop s)
  | unknown {s1 : Impl} {m : TargetMap} {e : String} (nonempty : sel.ids ≠ [])
      (unchanged : targetRuntimeOptionsChanged s.activeOptions options = false) (quiet : Quiet s s1)
      (found : m = targetsFound env options sel s)
      (map : MapFor env sel s.discoveredControllerInfos s.targets m)
      (why : UpdateFails reg options sel m) :
      UpdateOutcome s (some false) ((s1.withState .failed e).withError e)
  | failed {s1 : Impl} {m : TargetMap} {groups : List PendingVirtualControllerHostGroup} {e : String}
      {io : HostLog} (nonempty : sel.ids ≠ [])
      (unchanged : targetRuntimeOptionsChanged s.activeOptions options = false) (quiet : Quiet s s1)
      (found : m = targetsFound env options sel s)
      (map : MapFor env sel s.discoveredControllerInfos s.targets m)
      (grouped : groupTargets reg options (desiredTargets sel m) [] = .ok groups)
      (fallback : fallbackUnknown reg options = false) (desired : desiredTargets sel m ≠ [])
      (edited : updateActiveHosts env reg options.sliceDurationUs s1.virtualControllerHosts groups
        s1.io = .error (e, io)) :
      UpdateOutcome s (some false)
        ((updateSection env reg options ((desiredTargets sel m).map Prod.snd) groups s1).2.withError e)
  | updated {s1 : Impl} {m : TargetMap} {groups : List PendingVirtualControllerHostGroup}
      {st : UpdateLoop} (nonempty : sel.ids ≠ [])
      (unchanged : targetRuntimeOptionsChanged s.activeOptions options = false) (quiet : Quiet s s1)
      (found : m = targetsFound env options sel s)
      (map : MapFor env sel s.discoveredControllerInfos s.targets m)
      (grouped : groupTargets reg options (desiredTargets sel m) [] = .ok groups)
      (fallback : fallbackUnknown reg options = false) (desired : desiredTargets sel m ≠ [])
      (edited : updateActiveHosts env reg options.sliceDurationUs s1.virtualControllerHosts groups
        s1.io = .ok st) :
      UpdateOutcome s (some true)
        (updateSection env reg options ((desiredTargets sel m).map Prod.snd) groups s1).2

/-- How a start ends. -/
inductive StartOutcome (s : Impl) : Bool → Impl → Prop where
  | refused (hg : gateOf s = .refused) : StartOutcome s false s
  | fresh {r : Bool} {s' : Impl} (hg : gateOf s = .fresh)
      (h : LinkOutcome env reg options sel (gateState s) r s') : StartOutcome s r s'
  | update {r : Bool} {s' : Impl} (hg : gateOf s = .update)
      (h : UpdateOutcome env reg options sel (gateState s) (some r) s') : StartOutcome s r s'
  | restarted {r : Bool} {s1 s' : Impl} (hg : gateOf s = .update)
      (h1 : UpdateOutcome env reg options sel (gateState s) none s1)
      (h2 : LinkOutcome env reg options sel (gateState s1) r s') : StartOutcome s r s'

end

section
variable {env : Env} {reg : Registry} {options : LinkOptions} {sel : IdSet} {s : Impl}

theorem startLink_outcome (hstate : s.state = .starting) (ht : Tracks s.io s.virtualControllerHosts) :
    Prog.wp (fun _ => True) (startLink env reg options sel) (LinkOutcome env reg options sel s) s := by
  refine startLink_rule (fun _ _ _ => trivial) hstate (fun why s2 held h => .failed why held h) ?_
  intro s1 targets groups hf hr hinf hc hne hg
  have ht1 : Tracks s1.io (s.virtualControllerHosts ++ []) := by
    simpa using hr.held.tracks ht
  refine Prog.wp_mono (startHostGroups_wp (fun _ _ _ => trivial) hr.stopRequested groups _ [] ht1) ?_
  intro r s2 h
  cases r with
  | none => exact .refused hr hc hg h.1 h.2.1 h.2.2
  | some hosts =>
    obtain ⟨hq, ht2, new, e, hs⟩ := h
    obtain rfl : hosts = new := e
    exact ⟨trivial, trivial, .started hf hr hinf hc hne hg hq ht2 hs⟩

theorem updateRunningLink_outcome (hsys : SystemOf s) :
    Prog.wp (fun _ => True) (updateRunningLink env reg options sel)
      (UpdateOutcome env reg options sel s) s := by
  refine updateRunningLink_rule (fun _ _ => trivial) hsys (fun hnil => ?_) (fun hne hc => ?_) ?_
  · exact stop_wp trivial trivial (fun _ _ _ => trivial) (.stopped (.refl s) (.inl hnil))
  · exact stop_wp trivial trivial (fun _ _ _ => trivial) (.restart hc hne)
  · intro hne hc s1 m hq hfound hm
    refine regroup_rule (fun why e => ⟨trivial, trivial, .unknown hne hc hq hfound hm why⟩)
      (fun hnil => ?_) ?_
    · exact stop_wp trivial trivial (fun _ _ _ => trivial) (.stopped hq (.inr ⟨hc, hfound ▸ hnil⟩))
    · intro groups hg hf hd
      refine ⟨trivial, ?_⟩
      cases hu : updateActiveHosts env reg options.sliceDurationUs s1.virtualControllerHosts groups
          s1.io with
      | error p =>
        obtain ⟨e, io⟩ := p
        have hr : (updateSection env reg options ((desiredTargets sel m).map Prod.snd) groups s1).1 =
            some e := by rw [updateSection, hu]
        rw [hr]
        exact ⟨trivial, .failed hne hc hq hfound hm hg hf hd hu⟩
      | ok st =>
        have hr : (updateSection env reg options ((desiredTargets sel m).map Prod.snd) groups s1).1 =
            none := by rw [updateSection, hu]
        rw [hr]
        exact .updated hne hc hq hfound hm hg hf hd hu

theorem gateState_update (hg : gateOf s = .update) : Quiet s (gateState s) := by
  unfold gateState; rw [hg]; rfl

theorem gateState_fresh (hg : gateOf s = .fresh) :
    (gateState s).state = .starting ∧ Held s (gateState s) := by
  unfold gateState; rw [hg]; exact ⟨rfl, rfl⟩

theorem gateOf_running : gateOf s = .update ↔ s.state = .running := by
  unfold gateOf
  by_cases h : s.state = .running
  · simp [h]
  · rw [if_neg h]
    split <;> simp [h]

/-- **Everything a start can do.** -/
theorem start_outcome (hsys : s.state = .running → SystemOf s)
    (ht : Tracks s.io s.virtualControllerHosts) :
    Prog.wp (fun _ => True) (start env reg options sel) (StartOutcome env reg options sel s) s := by
  refine start_rule trivial (fun hg => .refused hg) (fun hg => ?_) fun hg => ?_
  · obtain ⟨h1, h2⟩ := gateState_fresh hg
    exact Prog.wp_mono (startLink_outcome h1 (h2.hosts ▸ h2.tracks ht)) fun r s' h => .fresh hg h
  · have hq := gateState_update hg
    have hsys' := hsys (gateOf_running.mp hg)
    have hsys1 : SystemOf (gateState s) := {
      liberaSystem := hq.liberaSystem.trans hsys'.liberaSystem
      disabledTypes := by rw [hq.disabledTypes, hq.activeOptions]; exact hsys'.disabledTypes
      drivers := by rw [hq.drivers, hq.activeOptions]; exact hsys'.drivers }
    refine Prog.wp_mono (updateRunningLink_outcome hsys1) fun r s1 h => ?_
    cases r with
    | some r => exact .update hg h
    | none =>
      have hs1 : s1 = afterStop (gateState s) := by cases h; rfl
      have hf : gateOf s1 = .fresh := hs1 ▸ gateOf_afterStop _
      obtain ⟨h1, h2⟩ := gateState_fresh hf
      have ht1 : Tracks s1.io s1.virtualControllerHosts := by
        rw [hs1]
        refine Tracks.stopHosts (b := []) ?_
        rw [List.append_nil]
        exact hq.hosts ▸ hq.tracks ht
      exact startFuel_rule hf trivial (Prog.wp_mono
        (startLink_outcome h1 (h2.hosts ▸ h2.tracks ht1)) fun r s' h' => .restarted hg h h')

end
end LiberaLink
