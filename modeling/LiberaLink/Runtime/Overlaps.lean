import LiberaLink.Runtime.Exclusive

/-!
# Targets on two hosts

An update takes up a target that moves up the list of hosts before the host below gives it back.  So
`NoMoveUp` is not only enough for an update that keeps each target on one host: with every host call
succeeding it is needed too.

* `HostTurn.overlaps`, `updateActiveHosts_overlaps`   the turn that takes up the target, the loops;
* `update_exclusive_iff`       **when every target stays on one host**;
* `moved_target_on_two_hosts`  an update that feeds one target from two hosts.
-/

namespace LiberaLink
open Stepwise Impl LinkRuntime

/-! ## a target that moves up the list -/

/-- a list with a relation that fails for two of its places -/
theorem exists_of_not_pairwise {α : Type} {R : α → α → Prop} {l : List α} (h : ¬ l.Pairwise R) :
    ∃ x b, x :: b <:+ l ∧ ∃ y ∈ b, ¬ R x y := by
  induction l with
  | nil => exact absurd .nil h
  | cons x b ih =>
    by_cases hx : ∀ y ∈ b, R x y
    · obtain ⟨z, c, hs, hz⟩ := ih fun hb => h (List.pairwise_cons.mpr ⟨hx, hb⟩)
      exact ⟨z, c, hs.trans (List.suffix_cons _ _), hz⟩
    · push Not at hx
      exact ⟨x, b, List.suffix_refl _, hx⟩

/-- The calls from `io0` to `io` are not exclusive throughout. -/
def Overlaps (io0 io : HostLog) : Prop :=
  ∃ cs, io.calls = io0.calls ++ cs ∧ ¬ Throughout io0.world cs

theorem Overlaps.append {io0 io io' : HostLog} (h : Overlaps io0 io) {cs : List HostCall}
    (hc : io'.calls = io.calls ++ cs) : Overlaps io0 io' := by
  obtain ⟨cs0, hc0, hn⟩ := h
  exact ⟨cs0 ++ cs, by rw [hc, hc0, List.append_assoc], fun ht => hn (along_append.mp ht).1⟩

section
variable {env : Env} {reg : Registry} {slice : Nat} {groups : List PendingVirtualControllerHostGroup}
  {h k : ActiveVirtualControllerHost} {ahead : List ActiveVirtualControllerHost} {st : UpdateLoop}
  {g : PendingVirtualControllerHostGroup} {id : String}

/-- **The turn of a host** that takes up a target before the host ahead gives it back. -/
theorem HostTurn.overlaps (hinv : UpdateInv groups (h :: ahead) st)
    (hgk : (groups.map fun g => g.key).Nodup) (hg : g ∈ groups) (hk : h.key = g.key)
    (hid : id ∈ targetIdSet g.targets) (hka : k ∈ ahead) (hidk : id ∈ targetIdSet k.targets)
    {st' : UpdateLoop} (hturn : HostTurn env reg slice groups h ahead st (.ok st')) :
    Overlaps st.io st'.io := by
  obtain ⟨host, hh, _⟩ := hinv.tracks.serves h (by simp)
  obtain ⟨cs, hc, -⟩ := hturn.calls hgk hh
  refine ⟨cs, hc, fun hx => ?_⟩
  have hinv' : UpdateInv groups ahead st' := hinv.turn hgk hturn
  -- the group has its host now, and the host ahead is untouched
  obtain ⟨i, hi⟩ := List.getElem?_of_mem hg
  have hgi : (g, i) ∈ groups.zipIdx := List.mk_mem_zipIdx_iff_getElem?.mpr hi
  have same : ∀ {g' i'}, (g', i') ∈ groups.zipIdx → h.key = g'.key → i = i' := fun hg' hk' =>
    (zipIdx_key_iff hgk hg' hgi).mp (hk'.symm.trans hk)
  have hhandled : i ∈ st'.handled := by
    cases hturn with
    | stopped hno => exact absurd hk (hno g hg)
    | kept hg' hk' => exact List.mem_cons.mpr (.inl (same hg' hk'))
    | edited hg' hk' => exact List.mem_cons.mpr (.inl (same hg' hk'))
    | restarted hg' hk' => exact List.mem_cons.mpr (.inl (same hg' hk'))
  obtain ⟨h', hh', hk'⟩ := (hinv'.handled g i hgi).mp hhandled
  obtain ⟨g', hg', e, hids⟩ := hinv'.realise h' hh'
  obtain rfl : g' = g := List.inj_on_of_nodup_map hgk hg' hg (e.symm.trans hk')
  obtain ⟨host1, hhost1, hw1⟩ := hinv'.tracks.serves h' (List.mem_append_left _ hh')
  obtain ⟨host2, hhost2, hw2⟩ := hinv'.tracks.serves k (List.mem_append_right _ hka)
  have hex : Exclusive st'.io.world := by
    rw [HostLog.world_append hc]
    exact hx.last
  have hser := hex _ _ _ _ hw1 hw2 id (hids ▸ hid) hidk
  have hap := (List.pairwise_append.mp hinv'.tracks.apart).2.2 h' hh' k hka
  exact hap host1 hhost1 host2 hhost2 hser

/-- **An update in which a target moves up the list** is not exclusive throughout. -/
theorem updateActiveHosts_overlaps (hw : env.Willing)
    (hreg : ∀ g ∈ groups, reg.registration g.info.id ≠ none)
    (hgk : (groups.map fun g => g.key).Nodup) {io : HostLog} {hosts b : List ActiveVirtualControllerHost}
    (ht : Tracks io hosts) (hkeys : (hosts.map fun h => h.key).Nodup) (hb : h :: b <:+ hosts)
    (hg : g ∈ groups) (hk : h.key = g.key) (hid : id ∈ targetIdSet g.targets) (hkb : k ∈ b)
    (hidk : id ∈ targetIdSet k.targets) :
    ∃ st, updateActiveHosts env reg slice hosts groups io = .ok st ∧ Overlaps io st.io := by
  obtain ⟨st, hst⟩ := updateActiveHosts_willing hw hreg slice hosts io
  refine ⟨st, hst, ?_⟩
  have hrule : Ends (fun _ => True) (fun st => Overlaps io st.io)
      (updateActiveHosts env reg slice hosts groups io) := by
    refine updateActiveHosts_rule
      (P := fun ahead st => UpdateInv groups ahead st ∧ (∃ cs, st.io.calls = io.calls ++ cs) ∧
        (Overlaps io st.io ∨ h :: b <:+ ahead))
      (Q := fun _ st => Overlaps io st.io) ?_ ?_ (fun _ _ _ _ ho _ => ho) ?_
      (fun _ _ _ _ _ _ _ _ _ => trivial)
      ⟨UpdateInv.init ht hkeys, ⟨[], by simp⟩, .inr hb⟩
    · rintro h1 ahead st r ⟨hinv, ⟨cs0, hc0⟩, ho⟩ hturn
      cases r with
      | error e => trivial
      | ok st' =>
        obtain ⟨host, hh, _⟩ := hinv.tracks.serves h1 (by simp)
        obtain ⟨cs, hc, -⟩ := hturn.calls hgk hh
        refine ⟨hinv.turn hgk hturn, ⟨cs0 ++ cs, by rw [hc, hc0, List.append_assoc]⟩, ?_⟩
        rcases ho with ho | ho
        · exact .inl (ho.append hc)
        · rcases List.suffix_cons_iff.mp ho with e | ho
          · obtain ⟨rfl, rfl⟩ := List.cons.inj e
            obtain ⟨cs', hc', hn⟩ := hturn.overlaps hinv hgk hg hk hid hkb hidk
            refine .inl ⟨cs0 ++ cs', by rw [hc', hc0, List.append_assoc], fun hx => hn ?_⟩
            have := (along_append.mp hx).2
            rwa [show (cs0.foldl HostCall.apply io.world) = st.io.world from
              (HostLog.world_append hc0).symm] at this
          · exact .inr ho
    · rintro st ⟨_, _, ho⟩
      exact ho.resolve_right fun hs => by simpa using hs.length_le
    · intro g' i rest st h' io' ho _ hs
      rcases startActiveHostGroup_spec env reg g' slice st.io with
        ⟨e, io'', h1, _⟩ | ⟨new, io'', h1, _, _, hc, _⟩
      · rw [h1] at hs; cases hs
      · rw [h1] at hs
        obtain rfl : io'' = io' := (Prod.mk.inj hs).2
        exact ho.append hc
  rw [hst] at hrule
  exact hrule

end

/-- no controller connects any more, everything else succeeds -/
def unreachable : Env := { succeeding [] with connect := fun _ _ => false }

theorem unreachable_willing : unreachable.Willing := ⟨fun _ _ _ => rfl, fun _ _ _ => rfl⟩

section
variable {reg : Registry} {options : LinkOptions} {sel : IdSet} {s : Impl}

/-- with no controller to connect an update has the targets of the link only -/
theorem mem_of_unreachable {infos : List ControllerInfo} {targets : List LinkedTarget} {m : TargetMap}
    (hm : MapFor unreachable sel infos targets m) (id : String) : id ∈ m ↔ id ∈ targetIdSet targets := by
  refine ⟨fun h => ?_, hm.old id⟩
  rcases hm.sound id h with h | ⟨_, info, _, _, _, n, hc⟩
  · exact h
  · cases hc

/-- **An update in place in which a target moves up the list** makes overlapping calls. -/
theorem start_overlaps (hinv : LinkInv s) (hin : EditsInPlace reg options sel s)
    (hno : ¬ NoMoveUp reg options sel s.virtualControllerHosts) :
    Overlaps s.io ((start unreachable reg options sel).run s).2.io := by
  obtain ⟨⟨hrun, hne, hch⟩, hf, hall⟩ := hin
  obtain ⟨h, b, hb, k, hkb, hmove⟩ := exists_of_not_pairwise hno
  push Not at hmove
  obtain ⟨id, hsel, hidk, hkey⟩ := hmove
  have hidt : id ∈ targetIdSet s.targets :=
    (hinv.targets id).mpr ⟨k, hb.subset (List.mem_cons_of_mem _ hkb), hidk⟩
  have hupd := gateOf_running.mpr hrun
  have hq := gateState_update hupd
  have hinv0 := gateState_linkInv hinv
  have hrun0 : (gateState s).state = .running := hq.state.trans hrun
  refine Prog.wp_run (I := fun _ => True) (Q := fun _ s' => Overlaps s.io s'.io)
    (start_rule trivial (fun hg => ?_) (fun hg => ?_) fun _ => ?_)
  · rw [hupd] at hg; cases hg
  · rw [hupd] at hg; cases hg
  · refine updateRunningLink_rule (fun _ _ => trivial) (hinv0.running hrun0).system
      (fun hnil => absurd hnil hne) (fun _ hc => ?_) ?_
    · rw [hq.activeOptions, hch] at hc; cases hc
    · intro _ _ s1 m hq1 _ hm
      have hq01 := hq.trans hq1
      have hinv1 := hinv.quiet hq01
      have hmem := fun id => (mem_of_unreachable hm id).trans (by rw [hq.targets])
      have hdes : id ∈ targetIdSet ((desiredTargets sel m).map Prod.snd) :=
        (mem_desiredTargets hm.ids id).mpr ⟨hsel, (hmem id).mpr hidt⟩
      have hknown : ∀ id ∈ sel.ids, id ∈ m → (hostKey reg options id).isSome :=
        fun id hs hin => hall id hs ((hmem id).mp hin)
      refine regroup_rule (fun why => absurd why (not_updateFails_of_known hm.ids hf hknown))
        (fun hnil => ?_) ?_
      · rw [hnil] at hdes
        simp [targetIdSet] at hdes
      · intro groups hg _ _
        have hgroups := groupsOf_update hm hg
        obtain ⟨t, ht, rfl⟩ := LiberaLink.mem_targetIdSet.mp hdes
        obtain ⟨g, hgm, htg⟩ := hgroups.complete t ht
        have hgkey : h.key = g.key := Option.some.inj (hkey.symm.trans (hgroups.sound g hgm t htg).2)
        obtain ⟨st, hst, ho⟩ : ∃ st, updateActiveHosts unreachable reg options.sliceDurationUs
            s1.virtualControllerHosts groups s1.io = .ok st ∧ Overlaps s1.io st.io :=
          updateActiveHosts_overlaps unreachable_willing (fun g hg => hgroups.registered hg)
            hgroups.nodup_keys hinv1.tracks hinv1.keys (hq01.hosts.symm ▸ hb) hgm hgkey
            (LiberaLink.mem_targetIdSet.mpr ⟨t, htg, rfl⟩) hkb hidk
        simp only [updateSection, hst]
        obtain ⟨cs, hc, hn⟩ := ho
        exact ⟨trivial, cs, by rw [hc, hq01.calls], by rwa [hq01.world] at hn⟩

end

/-- **When every target stays on one host.**  All host calls that a start of a running link makes,
whatever their outcomes, leave each target on one host at most, exactly if the start does not edit
the hosts in place or no selected target is on a host below the one that is to serve it. -/
theorem update_exclusive_iff {reg : Registry} {options : LinkOptions} {sel : IdSet} {s : Impl}
    (hr : Reachable reg s) (hend : s.terminated = false) (hrun : s.state = .running) :
    (∀ env new, ((start env reg options sel).run s).2.io.calls = s.io.calls ++ new →
      Throughout s.io.world new) ↔
    (EditsInPlace reg options sel s → NoMoveUp reg options sel s.virtualControllerHosts) := by
  have hinv := LinkInv.of_reach hr hend
  constructor
  · intro hall hin
    by_contra hno
    obtain ⟨cs, hc, hn⟩ := start_overlaps hinv hin hno
    exact hn (hall _ cs hc)
  · intro hno env new hnew
    have hx : Extends s.io ((start env reg options sel).run s).2.io :=
      Prog.wp_run (start_exclusive hinv hrun hno)
    obtain ⟨cs, hc, ht⟩ := hx
    rw [hc] at hnew
    exact List.append_cancel_left hnew ▸ ht

/-! ## two hosts for two targets -/

/-- `a` on one `libera` host, `b` on the host with this key -/
def routed (key : String) : LinkOptions where
  virtualControllerRoutes := [⟨"a", "libera", "one", ∅⟩, ⟨"b", "libera", key, ∅⟩]

/-- `a` and `b` on two hosts -/
def twoHosts : Impl :=
  runCall registry {} (succeeding [controller "a", controller "b"],
    .start (routed "two") (.pair "a" "b" (by decide)))

theorem twoHosts_reachable : Reachable registry twoHosts := (Reach.start).next _ trivial

/-- a new host for `b` -/
theorem update_exclusive_iff_three : Throughout twoHosts.io.world [.stop 1, .start 2 ["b"] true] :=
  (@update_exclusive_iff registry (routed "three") (.pair "a" "b" (by decide)) twoHosts
    twoHosts_reachable (by decide +kernel) (by decide +kernel)).mpr
    (fun _ => by unfold NoMoveUp; decide +kernel) (succeeding []) _ (by decide +kernel)

/-- `b` moves to the host of `a`, which takes it up before the host of `b` is stopped. -/
theorem moved_target_on_two_hosts :
    let sel : IdSet := .pair "a" "b" (by decide)
    let calls : List HostCall := [.addTarget 0 "b" true, .stop 1]
    Reachable registry twoHosts ∧ twoHosts.terminated = false ∧ twoHosts.state = .running ∧
      ((start (succeeding []) registry (routed "one") sel).run twoHosts).2.io.calls =
        twoHosts.io.calls ++ calls ∧
      ¬ Throughout twoHosts.io.world calls := by
  refine ⟨twoHosts_reachable, by decide +kernel, by decide +kernel, by decide +kernel, fun h => ?_⟩
  have h1 : Exclusive (HostCall.apply twoHosts.io.world (.addTarget 0 "b" true)) := h.2.1
  have h2 := h1 0 1 {"a", "b"} {"b"} (by decide +kernel) (by decide +kernel) "b" (by decide) (by decide)
  cases h2

end LiberaLink
