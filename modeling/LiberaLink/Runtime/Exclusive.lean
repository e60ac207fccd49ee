import LiberaLink.Runtime.UpdateFrame

/-!
# Each target on one host

`Exclusive w`: no target is served by two running hosts.  An update goes through the hosts in list
order, so a target that moves from a host further down the list onto a host above it is taken up
before it is given back; every other way to regroup the targets keeps the hosts exclusive after each
single host call.

* `Below`, `Shrinks`            worlds with less, calls that add nothing;
* `throughout_edit`             the edit of one host;
* `HostTurn.exclusive`, `updateActiveHosts_exclusive`  the loops, if no target moves up the list;
* `NoMoveUp`, `start_exclusive` the start of a running link, likewise.
-/

namespace LiberaLink
open Stepwise Impl LinkRuntime

/-- no target is served by two hosts -/
def Exclusive (w : HostWorld) : Prop :=
  ∀ n m S T, w n = some S → w m = some T → ∀ id, id ∈ S → id ∈ T → n = m

/-- `Exclusive` before, between and after the calls -/
abbrev Throughout (w : HostWorld) (cs : List HostCall) : Prop := Along HostCall.apply Exclusive w cs

def DisjointIds (h h' : ActiveVirtualControllerHost) : Prop :=
  Disjoint (targetIdSet h.targets) (targetIdSet h'.targets)

instance : Std.Symm DisjointIds where
  symm _ _ h := Disjoint.symm h

/-- running hosts with disjoint targets are exclusive -/
theorem exclusive_of_tracks {io : HostLog} {hosts : List ActiveVirtualControllerHost}
    (ht : Tracks io hosts) (hd : hosts.Pairwise DisjointIds) : Exclusive io.world := by
  intro n m S T hn hm id hS hT
  obtain ⟨h, hh, hs⟩ := List.mem_filterMap.mp (ht.complete n S hn)
  obtain ⟨h', hh', hs'⟩ := List.mem_filterMap.mp (ht.complete m T hm)
  obtain ⟨host, hhost, hw⟩ := ht.serves h hh
  obtain ⟨host', hhost', hw'⟩ := ht.serves h' hh'
  obtain rfl : host.serial = n := Option.some.inj ((Tracks.serial?_eq hhost).symm.trans hs)
  obtain rfl : host'.serial = m := Option.some.inj ((Tracks.serial?_eq hhost').symm.trans hs')
  by_cases he : h = h'
  · subst he
    rw [Option.some.inj (hhost.symm.trans hhost')]
  · rw [hw] at hn
    rw [hw'] at hm
    rw [← Option.some.inj hn] at hS
    rw [← Option.some.inj hm] at hT
    exact absurd hT (Finset.disjoint_left.mp (hd.forall hh hh' he) hS)

/-! ## less is exclusive too -/

/-- every host of `w'` runs in `w` too and serves no more -/
def Below (w' w : HostWorld) : Prop := ∀ n S, w' n = some S → ∃ T, w n = some T ∧ S ⊆ T

theorem Below.refl (w : HostWorld) : Below w w := fun _ S h => ⟨S, h, fun _ h => h⟩

theorem Below.trans {w w' w'' : HostWorld} (h : Below w w') (h' : Below w' w'') : Below w w'' := by
  intro n S hS
  obtain ⟨T, hT, hST⟩ := h n S hS
  obtain ⟨U, hU, hTU⟩ := h' n T hT
  exact ⟨U, hU, hST.trans hTU⟩

theorem Exclusive.below {w w' : HostWorld} (h : Exclusive w) (hb : Below w' w) : Exclusive w' := by
  intro n m S T hn hm id hS hT
  obtain ⟨S', hS', hs⟩ := hb n S hn
  obtain ⟨T', hT', ht⟩ := hb m T hm
  exact h n m S' T' hS' hT' id (hs hS) (ht hT)

/-- the call lets no host serve more -/
def Shrinks (c : HostCall) : Prop := ∀ w, Below (c.apply w) w

theorem shrinks_stop (n : Nat) : Shrinks (.stop n) := by
  intro w m S h
  by_cases e : m = n
  · subst e
    simp [HostCall.apply] at h
  · exact ⟨S, by simpa [HostCall.apply, e] using h, fun _ h => h⟩

theorem shrinks_failed {c : HostCall} (h : c.ok = false) : Shrinks c := by
  intro w
  have e : c.apply w = w := by
    cases c with
    | start m ts ok => cases ok <;> first | rfl | cases h
    | stop m => cases h
    | addTarget m t ok => cases ok <;> first | rfl | cases h
    | removeTarget m t ok => cases ok <;> first | rfl | cases h
  rw [e]
  exact Below.refl w

theorem shrinks_remove (n : Nat) (id : String) : Shrinks (.removeTarget n id true) := by
  intro w m S h
  by_cases e : m = n
  · subst e
    simp only [HostCall.apply, Function.update_self, Option.map_eq_some_iff] at h
    obtain ⟨T, hT, rfl⟩ := h
    exact ⟨T, hT, Finset.erase_subset _ _⟩
  · exact ⟨S, by simpa [HostCall.apply, e] using h, fun _ h => h⟩

/-- calls that add nothing stay below what is exclusive -/
theorem throughout_of_shrinks {w w' : HostWorld} {cs : List HostCall} (hw : Exclusive w)
    (hb : Below w' w) (hcs : ∀ c ∈ cs, Shrinks c) : Throughout w' cs := by
  have h : Along HostCall.apply (fun w' => Below w' w) w' cs :=
    Along.of_step hb fun w1 c hc h1 => (hcs c hc w1).trans h1
  exact h.mono fun w1 h1 => hw.below h1

/-- the calls of an edit stay below the host serving old and new targets together -/
theorem editCall_below {n : Nat} {current desired : List LinkedTarget} {w w' : HostWorld}
    {U : Finset String} (hw : w n = some U) (hU : targetIdSet desired ⊆ U) {c : HostCall}
    (hc : EditCall n current desired c) (hb : Below w' w) : Below (c.apply w') w := by
  cases c with
  | start m ts ok => exact False.elim hc
  | stop m => exact False.elim hc
  | removeTarget m t ok =>
    cases ok with
    | false => exact (shrinks_failed rfl w').trans hb
    | true => exact (shrinks_remove m t w').trans hb
  | addTarget m t ok =>
    cases ok with
    | false => exact (shrinks_failed rfl w').trans hb
    | true =>
      obtain ⟨rfl, hadd⟩ := hc
      intro k S h
      by_cases e : k = m
      · subst e
        simp only [HostCall.apply, Function.update_self, Option.map_eq_some_iff] at h
        obtain ⟨T, hT, rfl⟩ := h
        obtain ⟨V, hV, hTV⟩ := hb k T hT
        obtain rfl : U = V := Option.some.inj (hw.symm.trans hV)
        exact ⟨U, hw, Finset.insert_subset (hU (mem_leftOut.mp (hadd rfl)).1) hTV⟩
      · exact hb k S (by simpa [HostCall.apply, e] using h)

theorem editCalls_edit {n : Nat} {current desired : List LinkedTarget} {c : HostCall}
    (hc : c ∈ editCalls n current desired) : EditCall n current desired c := by
  rcases List.mem_append.mp hc with hc | hc <;> obtain ⟨id, hid, rfl⟩ := List.mem_map.mp hc
  · rfl
  · exact ⟨rfl, fun _ => hid⟩

/-- **An edit is exclusive throughout**, and so are calls after it that add nothing, if no other host
serves the old or the new targets. -/
theorem throughout_edit {io : HostLog} {a b : List ActiveVirtualControllerHost}
    {h : ActiveVirtualControllerHost} {host : VirtualControllerHost} {desired : List LinkedTarget}
    (ht : Tracks io (a ++ h :: b)) (hh : h.host = some host)
    (hd : (a ++ h :: b).Pairwise DisjointIds)
    (hnew : (a ++ { h with targets := desired } :: b).Pairwise DisjointIds) {es cs : List HostCall}
    (hes : ∀ c ∈ es, EditCall host.serial h.targets desired c) (hcs : ∀ c ∈ cs, Shrinks c) :
    Throughout io.world (es ++ cs) := by
  -- the host with old and new targets together
  have hU : Exclusive (Function.update io.world host.serial
      (some (targetIdSet h.targets ∪ targetIdSet desired))) := by
    have other : ∀ n S, n ≠ host.serial → io.world n = some S →
        Disjoint S (targetIdSet h.targets ∪ targetIdSet desired) := by
      intro n S hne hn
      obtain ⟨k, hk, hks⟩ := List.mem_filterMap.mp (ht.complete n S hn)
      obtain ⟨khost, hkh, hw⟩ := ht.serves k hk
      obtain rfl : khost.serial = n := Option.some.inj ((Tracks.serial?_eq hkh).symm.trans hks)
      obtain rfl : targetIdSet k.targets = S := Option.some.inj (hw.symm.trans hn)
      have hkab : k ∈ a ++ b := by
        rcases List.mem_append.mp hk with hk | hk
        · exact List.mem_append_left _ hk
        · rcases List.mem_cons.mp hk with rfl | hk
          · exact absurd (congrArg VirtualControllerHost.serial (Option.some.inj (hkh.symm.trans hh))) hne
          · exact List.mem_append_right _ hk
      have mid : ∀ {h' : ActiveVirtualControllerHost}, (a ++ h' :: b).Pairwise DisjointIds →
          DisjointIds k h' := by
        intro h' hp
        rw [List.pairwise_append, List.pairwise_cons] at hp
        rcases List.mem_append.mp hkab with hka | hkb
        · exact hp.2.2 k hka h' List.mem_cons_self
        · exact symm (hp.2.1.1 k hkb)
      exact Finset.disjoint_union_right.mpr ⟨mid hd, mid hnew⟩
    intro n m S T hn hm id hS hT
    by_cases en : n = host.serial <;> by_cases em : m = host.serial
    · rw [en, em]
    · subst en
      rw [Function.update_self] at hn
      rw [Function.update_of_ne em] at hm
      exact absurd (Option.some.inj hn ▸ hS) (Finset.disjoint_left.mp (other m T em hm) hT)
    · subst em
      rw [Function.update_self] at hm
      rw [Function.update_of_ne en] at hn
      exact absurd (Option.some.inj hm ▸ hT) (Finset.disjoint_left.mp (other n S en hn) hS)
    · rw [Function.update_of_ne en] at hn
      rw [Function.update_of_ne em] at hm
      exact exclusive_of_tracks ht hd n m S T hn hm id hS hT
  have hb : Below io.world (Function.update io.world host.serial
      (some (targetIdSet h.targets ∪ targetIdSet desired))) := by
    intro n S hn
    by_cases e : n = host.serial
    · subst e
      obtain ⟨host', hh', hw⟩ := ht.serves h (by simp)
      obtain rfl : host' = host := Option.some.inj (hh'.symm.trans hh)
      rw [hw] at hn
      exact ⟨_, Function.update_self .., Option.some.inj hn ▸ Finset.subset_union_left⟩
    · exact ⟨S, by rw [Function.update_of_ne e]; exact hn, fun _ h => h⟩
  have hall : Along HostCall.apply (fun w => Below w (Function.update io.world host.serial
      (some (targetIdSet h.targets ∪ targetIdSet desired)))) io.world (es ++ cs) := by
    refine Along.of_step hb fun w c hc hbw => ?_
    rcases List.mem_append.mp hc with hc | hc
    · exact editCall_below (Function.update_self ..) Finset.subset_union_right (hes c hc) hbw
    · exact (hcs c hc w).trans hbw
  exact hall.mono fun w hw => hU.below hw

/-! ## the calls of an update -/

/-- The calls from `io0` to `io` are exclusive throughout. -/
def Extends (io0 io : HostLog) : Prop :=
  ∃ cs, io.calls = io0.calls ++ cs ∧ Throughout io0.world cs

namespace Extends
variable {io0 io io' : HostLog}

theorem refl (h : Exclusive io0.world) : Extends io0 io0 := ⟨[], by simp, h⟩

theorem trans (h : Extends io0 io) (h' : Extends io io') : Extends io0 io' := by
  obtain ⟨cs, hc, ht⟩ := h
  obtain ⟨cs', hc', ht'⟩ := h'
  rw [HostLog.world_append hc] at ht'
  exact ⟨cs ++ cs', by rw [hc', hc, List.append_assoc], along_append.mpr ⟨ht, ht'⟩⟩

theorem exclusive (h : Extends io0 io) : Exclusive io.world := by
  obtain ⟨cs, hc, ht⟩ := h
  rw [HostLog.world_append hc]
  exact ht.last

theorem shrink (h : Extends io0 io) {cs : List HostCall} (hc : io'.calls = io.calls ++ cs)
    (hcs : ∀ c ∈ cs, Shrinks c) : Extends io0 io' :=
  h.trans ⟨cs, hc, throughout_of_shrinks h.exclusive (Below.refl _) hcs⟩

theorem stopHosts (h : Extends io0 io) (hosts : List ActiveVirtualControllerHost) :
    Extends io0 (LiberaLink.stopHosts hosts io) := by
  obtain ⟨cs, hc, hst⟩ := stopHosts_calls hosts io
  exact h.shrink hc fun c hm => by
    obtain ⟨n, rfl⟩ := hst c hm
    exact shrinks_stop n

theorem failUpdate {st : UpdateLoop} (h : Extends io0 st.io)
    (ahead : List ActiveVirtualControllerHost) : Extends io0 (LiberaLink.failUpdate st ahead) :=
  (h.stopHosts st.next).stopHosts (st.past ++ ahead)

section
variable {env : Env} {reg : Registry} {g : PendingVirtualControllerHostGroup} {slice : Nat}

theorem start_error {e : String} (h : Extends io0 io)
    (hs : startActiveHostGroup env reg g slice io = (.error e, io')) : Extends io0 io' := by
  obtain ⟨cs, hc, hf⟩ := startActiveHostGroup_error_calls hs
  exact h.shrink hc fun c hm => shrinks_failed (hf c hm)

/-- a host that starts has to leave the hosts exclusive -/
theorem start_ok {k : ActiveVirtualControllerHost} (h : Extends io0 io)
    (hs : startActiveHostGroup env reg g slice io = (.ok k, io')) (hx : Exclusive io'.world) :
    Extends io0 io' := by
  rcases startActiveHostGroup_spec env reg g slice io with
    ⟨e, io'', h1, _⟩ | ⟨host, io'', h1, _, _, hc, _⟩
  · rw [h1] at hs; cases hs
  · rw [h1] at hs
    obtain rfl : io'' = io' := (Prod.mk.inj hs).2
    have hw := HostLog.world_append hc
    rw [hw] at hx
    exact h.trans ⟨_, hc, h.exclusive, hx⟩

end
end Extends

/-- No target of the groups is on a host below the one that is to serve it. -/
def NoEarlierMove (groups : List PendingVirtualControllerHostGroup)
    (hosts : List ActiveVirtualControllerHost) : Prop :=
  hosts.Pairwise fun h h' => ∀ g ∈ groups, h.key = g.key →
    Disjoint (targetIdSet g.targets) (targetIdSet h'.targets)

def DisjointGroups (groups : List PendingVirtualControllerHostGroup) : Prop :=
  ∀ g ∈ groups, ∀ g' ∈ groups, g.key ≠ g'.key →
    Disjoint (targetIdSet g.targets) (targetIdSet g'.targets)

section
variable {env : Env} {reg : Registry} {slice : Nat} {groups : List PendingVirtualControllerHostGroup}
  {h : ActiveVirtualControllerHost} {ahead : List ActiveVirtualControllerHost} {st : UpdateLoop}

/-- the targets of the host at hand may be exchanged for those of its group -/
theorem UpdateInv.exchange (hinv : UpdateInv groups (h :: ahead) st) (hgd : DisjointGroups groups)
    (hd : (st.next ++ h :: ahead).Pairwise DisjointIds) {g : PendingVirtualControllerHostGroup}
    (hg : g ∈ groups) (hk : h.key = g.key) {h' : ActiveVirtualControllerHost}
    (hids : targetIdSet h'.targets = targetIdSet g.targets)
    (hno : ∀ k ∈ ahead, Disjoint (targetIdSet g.targets) (targetIdSet k.targets)) :
    (st.next ++ h' :: ahead).Pairwise DisjointIds := by
  rw [List.pairwise_append, List.pairwise_cons] at hd ⊢
  obtain ⟨h1, ⟨h2, h3⟩, h4⟩ := hd
  refine ⟨h1, ⟨fun k hk' => ?_, h3⟩, fun k hk1 k' hk' => ?_⟩
  · show Disjoint _ _
    rw [hids]
    exact hno k hk'
  · rcases List.mem_cons.mp hk' with rfl | hk'
    · obtain ⟨g', hg', e, hi⟩ := hinv.realise k hk1
      show Disjoint _ _
      rw [hi, hids]
      refine hgd g' hg' g hg fun e' => ?_
      have hnd := hinv.keys
      rw [List.map_append, List.map_cons, List.nodup_middle, List.nodup_cons] at hnd
      refine hnd.1 (List.mem_append_left _ ?_)
      rw [hk, ← e', ← e]
      exact List.mem_map_of_mem hk1
    · exact h4 k hk1 k' (List.mem_cons_of_mem _ hk')

/-- **One turn is exclusive throughout** if no target of the host's group is on a host ahead. -/
theorem HostTurn.exclusive (hinv : UpdateInv groups (h :: ahead) st) (hgd : DisjointGroups groups)
    (hgk : (groups.map fun g => g.key).Nodup) (hd : (st.next ++ h :: ahead).Pairwise DisjointIds)
    (hno : ∀ k ∈ ahead, ∀ g ∈ groups, h.key = g.key →
      Disjoint (targetIdSet g.targets) (targetIdSet k.targets))
    {r : Except (String × HostLog) UpdateLoop} (hturn : HostTurn env reg slice groups h ahead st r) :
    Ends (fun e => Extends st.io e.2)
      (fun st' => Extends st.io st'.io ∧ (st'.next ++ ahead).Pairwise DisjointIds) r := by
  have hx := exclusive_of_tracks hinv.tracks hd
  obtain ⟨host, hh, _⟩ := hinv.tracks.serves h (by simp)
  have hinv' := hinv.turn hgk hturn
  have stopped : ∀ {g i io}, (g, i) ∈ groups.zipIdx → h.key = g.key →
      editTargets env h g st.io = (false, io) → Extends st.io (stopHost h io) := by
    intro g i io hg hk he
    have hgm := List.fst_mem_of_mem_zipIdx hg
    obtain ⟨_, es, hc, hes⟩ := editTargets_false he hh
    obtain ⟨hc', _⟩ := stopHost_calls hh io
    refine ⟨es ++ [.stop host.serial], by rw [hc', hc, List.append_assoc], ?_⟩
    exact throughout_edit hinv.tracks hh hd
      (hinv.exchange hgd hd hgm hk rfl fun k hk' => hno k hk' g hgm hk) hes
      fun c hm => by rw [List.mem_singleton.mp hm]; exact shrinks_stop _
  cases hturn with
  | stopped hno' =>
    refine ⟨(Extends.refl hx).shrink (stopHost_calls hh st.io).1 fun c hm => ?_, ?_⟩
    · rw [List.mem_singleton.mp hm]
      exact shrinks_stop _
    · exact hd.sublist (by simp)
  | kept hg hk he => exact ⟨Extends.refl hx, by simpa using hd⟩
  | @edited g i io hg hk hne he =>
    have hgm := List.fst_mem_of_mem_zipIdx hg
    obtain ⟨host', hh', _, _, hc⟩ := editTargets_true he
    obtain rfl : host' = host := Option.some.inj (hh'.symm.trans hh)
    have hnew : (st.next ++ { h with targets := g.targets } :: ahead).Pairwise DisjointIds :=
      hinv.exchange hgd hd hgm hk rfl fun k hk' => hno k hk' g hgm hk
    refine ⟨⟨_, hc, ?_⟩, by simpa using hnew⟩
    have hx : Throughout st.io.world (editCalls host'.serial h.targets g.targets ++ []) :=
      throughout_edit hinv.tracks hh hd hnew (fun c hm => editCalls_edit hm) (by simp)
    rwa [List.append_nil] at hx
  | @restarted g i io io' h' hg hk hne he hs =>
    have hgm := List.fst_mem_of_mem_zipIdx hg
    have hids : targetIdSet h'.targets = targetIdSet g.targets := by
      obtain ⟨_, rfl, _⟩ := startActiveHostGroup_started hs
      rfl
    have hnew : (st.next ++ h' :: ahead).Pairwise DisjointIds :=
      hinv.exchange hgd hd hgm hk hids fun k hk' => hno k hk' g hgm hk
    have hnew' : (st.next ++ [h'] ++ ahead).Pairwise DisjointIds := by simpa using hnew
    exact ⟨(stopped hg hk he).start_ok hs (exclusive_of_tracks hinv'.tracks hnew'), hnew'⟩
  | @failed g i io io' e hg hk hne he hs =>
    have h1 := (stopped hg hk he).start_error hs
    show Extends st.io (LiberaLink.failUpdate { st with handled := i :: st.handled, io := io' }
      (h :: ahead))
    exact Extends.failUpdate h1 (h :: ahead)

/-- hosts that realise different groups have disjoint targets -/
theorem pairwise_of_realise (hgd : DisjointGroups groups) {hosts : List ActiveVirtualControllerHost}
    (hk : (hosts.map fun h => h.key).Nodup) (hr : ∀ h ∈ hosts, ∃ g ∈ groups, h.key = g.key ∧
      targetIdSet h.targets = targetIdSet g.targets) : hosts.Pairwise DisjointIds := by
  refine (List.pairwise_map.mp hk).imp_of_mem fun {a b} ha hb hne => ?_
  obtain ⟨g, hg, e, hi⟩ := hr a ha
  obtain ⟨g', hg', e', hi'⟩ := hr b hb
  show Disjoint _ _
  rw [hi, hi']
  exact hgd g hg g' hg' fun e'' => hne (e.trans (e''.trans e'.symm))

/-- **The host section of an update** is exclusive throughout if no target moves up the list. -/
theorem updateActiveHosts_exclusive (hgk : (groups.map fun g => g.key).Nodup)
    (hgd : DisjointGroups groups) {io : HostLog} {hosts : List ActiveVirtualControllerHost}
    (ht : Tracks io hosts) (hk : (hosts.map fun h => h.key).Nodup) (hd : hosts.Pairwise DisjointIds)
    (hno : NoEarlierMove groups hosts) :
    Ends (fun e => Extends io e.2) (fun st => NewGroupsInv groups [] st ∧ Extends io st.io)
      (updateActiveHosts env reg slice hosts groups io) := by
  refine updateActiveHosts_rule
    (P := fun ahead st => UpdateInv groups ahead st ∧ ahead <:+ hosts ∧
      (st.next ++ ahead).Pairwise DisjointIds ∧ Extends io st.io)
    (Q := fun rest st => NewGroupsInv groups rest st ∧ Extends io st.io) ?_
    (fun st hp => ⟨hp.1.newGroups, hp.2.2.2⟩)
    (fun g i rest st hq hi => ⟨hq.1.skip hi, hq.2⟩)
    (fun g i rest st h io' hq hi hs => ?_)
    (fun g i rest st e io' hq hi hs => ?_)
    ⟨UpdateInv.init ht hk, List.suffix_refl _, hd, Extends.refl (exclusive_of_tracks ht hd)⟩
  · rintro h ahead st r ⟨hinv, hsuf, hdis, hext⟩ hturn
    have hup := List.pairwise_cons.mp (List.Pairwise.sublist hsuf.sublist hno)
    have hx := hturn.exclusive hinv hgd hgk hdis hup.1
    have hinv' := hinv.turn hgk hturn
    cases r with
    | error e => exact hext.trans hx
    | ok st' => exact ⟨hinv', (List.suffix_cons _ _).trans hsuf, hx.2, hext.trans hx.1⟩
  · have hinv := hq.1.started hgk hi hs
    exact ⟨hinv, hq.2.start_ok hs (exclusive_of_tracks hinv.tracks
      (pairwise_of_realise hgd hinv.keys hinv.realise))⟩
  · show Extends io (LiberaLink.failUpdate { st with io := io' } [])
    exact Extends.failUpdate (hq.2.start_error hs) []

end

/-! ## the calls of a start -/

section
variable {env : Env} {reg : Registry} {options : LinkOptions} {sel : IdSet} {s : Impl}

/-- starting hosts one after the other for disjoint groups is exclusive throughout -/
theorem startHostGroups_exclusive {groups : List PendingVirtualControllerHostGroup}
    (hgd : DisjointGroups groups) {s1 : Impl} (hflag : s1.stopRequested = false)
    (rest : List PendingVirtualControllerHostGroup) (acc : List ActiveVirtualControllerHost)
    (hsub : ∀ g ∈ rest, g ∈ groups)
    (hk : (acc.map (fun h => h.key) ++ rest.map fun g => g.key).Nodup)
    (hreal : ∀ h ∈ acc, ∃ g ∈ groups, h.key = g.key ∧
      targetIdSet h.targets = targetIdSet g.targets) (ht : Tracks s1.io acc) :
    Prog.wp (fun _ => True) (startHostGroups env reg options rest acc)
      (fun _ s2 => Extends s1.io s2.io) s1 := by
  induction rest generalizing s1 acc with
  | nil =>
    have hk' : (acc.map fun h => h.key).Nodup := by simpa using hk
    exact Extends.refl (exclusive_of_tracks ht (pairwise_of_realise hgd hk' hreal))
  | cons g rest ih =>
    have hx : Exclusive s1.io.world := exclusive_of_tracks ht
      (pairwise_of_realise hgd (List.nodup_append.mp hk).1 hreal)
    refine startHostGroups_rule (fun _ _ _ => trivial) hflag (fun e io m hs => ?_)
      fun h io m hs => ?_
    · simp only [failStart, setState, logError, Prog.wp_bind', Prog.wp_modify, Prog.wp_pure]
      exact ⟨trivial, trivial, trivial, ((Extends.refl hx).start_error hs).stopHosts acc⟩
    · have hkey : h.key = g.key ∧ targetIdSet h.targets = targetIdSet g.targets := by
        obtain ⟨_, rfl, _⟩ := startActiveHostGroup_started hs
        exact ⟨rfl, rfl⟩
      have hk' : ((acc ++ [h]).map (fun h => h.key) ++ rest.map fun g => g.key).Nodup := by
        simpa [hkey.1] using hk
      have hreal' : ∀ k ∈ acc ++ [h], ∃ g ∈ groups, k.key = g.key ∧
          targetIdSet k.targets = targetIdSet g.targets := by
        intro k hkm
        rcases List.mem_append.mp hkm with hkm | hkm
        · exact hreal k hkm
        · rw [List.mem_singleton] at hkm
          exact ⟨g, hsub g List.mem_cons_self, hkm ▸ hkey⟩
      have ht' : Tracks io (acc ++ [h]) := by
        have := Tracks.startActiveHostGroup (a := acc) (b := []) (by simpa using ht) hs
        simpa using this
      have hext : Extends s1.io io := (Extends.refl hx).start_ok hs (exclusive_of_tracks ht'
        (pairwise_of_realise hgd (List.nodup_append.mp hk').1 hreal'))
      refine Prog.wp_mono (@ih ((s1.withStatus m).withIo io) hflag (acc ++ [h])
        (fun g hg => hsub g (List.mem_cons_of_mem _ hg)) hk' hreal' ht') fun r s2 h2 => ?_
      exact hext.trans h2

/-- a start from the ground up with no host running is exclusive throughout -/
theorem startLink_exclusive (hstate : s.state = .starting) (ht : Tracks s.io []) :
    Prog.wp (fun _ => True) (startLink env reg options sel) (fun _ s' => Extends s.io s'.io) s := by
  have hx : Exclusive s.io.world := exclusive_of_tracks ht .nil
  refine startLink_rule (fun _ _ _ => trivial) hstate
    (fun _ s2 hh _ => ⟨[], by rw [hh.calls, List.append_nil], hx⟩)
    fun s1 targets groups _ hr _ hc _ hg => ?_
  have hgroups := groupsOf_start hg
  have ht1 : Tracks s1.io [] := hr.held.tracks ht
  have h1 : Extends s.io s1.io := ⟨[], by rw [hr.held.calls, List.append_nil], hx⟩
  refine Prog.wp_mono (startHostGroups_exclusive
    (show DisjointGroups groups from fun g hg g' hg' => hgroups.disjoint hg hg') hr.stopRequested
    groups [] (fun _ h => h)
    (by simpa using hgroups.nodup_keys) (by simp) ht1) fun r s2 h2 => ?_
  have h3 := h1.trans h2
  cases r with
  | none => exact h3
  | some hosts =>
    refine ⟨trivial, trivial, ?_⟩
    rw [spawnMonitor_io]
    exact h3

/-- a link that stops is exclusive throughout -/
theorem afterStop_exclusive (hinv : LinkInv s) (hd : s.virtualControllerHosts.Pairwise DisjointIds) :
    Extends s.io (afterStop s).io :=
  (Extends.refl (exclusive_of_tracks hinv.tracks hd)).stopHosts s.virtualControllerHosts

theorem LinkInv.pairwise (hinv : LinkInv s) : s.virtualControllerHosts.Pairwise DisjointIds :=
  (List.pairwise_map.mp hinv.keys).imp_of_mem fun {a b} ha hb hne => hinv.disjoint a ha b hb hne

end

/-! ## when an update is exclusive -/

/-- No selected target is on a host below the one that is to serve it. -/
def NoMoveUp (reg : Registry) (options : LinkOptions) (sel : IdSet)
    (hosts : List ActiveVirtualControllerHost) : Prop :=
  hosts.Pairwise fun h h' => ∀ id ∈ sel.ids, id ∈ targetIdSet h'.targets →
    hostKey reg options id ≠ some h.key

/-- the start edits hosts in place: the hosts of all selected targets of the link are registered -/
def EditsInPlace (reg : Registry) (options : LinkOptions) (sel : IdSet) (s : Impl) : Prop :=
  InPlace s options sel ∧ fallbackUnknown reg options = false ∧
    ∀ id ∈ sel.ids, id ∈ targetIdSet s.targets → (hostKey reg options id).isSome

section
variable {env : Env} {reg : Registry} {options : LinkOptions} {sel : IdSet} {s : Impl}

/-- every desired target of an update that gets to its groups has a registered host -/
theorem hostKey_of_grouped {infos : List ControllerInfo} {targets : List LinkedTarget} {m : TargetMap}
    {groups : List PendingVirtualControllerHostGroup} (hm : MapFor env sel infos targets m)
    (hg : groupTargets reg options (desiredTargets sel m) [] = .ok groups) {id : String}
    (hsel : id ∈ sel.ids) (hid : id ∈ m) : (hostKey reg options id).isSome := by
  have hgroups := groupsOf_update hm hg
  obtain ⟨t, ht, rfl⟩ := LiberaLink.mem_targetIdSet.mp ((mem_desiredTargets hm.ids id).mpr ⟨hsel, hid⟩)
  obtain ⟨g, hgm, htg⟩ := hgroups.complete t ht
  have hk : hostKey reg options t.info.id = some g.key := (hgroups.sound g hgm t htg).2
  rw [hk]
  rfl

theorem noEarlierMove_of_noMoveUp {infos : List ControllerInfo} {targets : List LinkedTarget}
    {m : TargetMap} {groups : List PendingVirtualControllerHostGroup}
    (hm : MapFor env sel infos targets m)
    (hg : groupTargets reg options (desiredTargets sel m) [] = .ok groups)
    {hosts : List ActiveVirtualControllerHost} (hno : NoMoveUp reg options sel hosts) :
    NoEarlierMove groups hosts := by
  refine hno.imp fun {h h'} hno g hgm hk => Finset.disjoint_left.mpr fun id h1 h2 => ?_
  obtain ⟨hid, hkey⟩ := ((groupsOf_update hm hg).mem_targetIdSet hgm).mp h1
  exact hno id ((mem_desiredTargets hm.ids id).mp hid).1 h2 (hk ▸ hkey)

/-- **A start of a running link** is exclusive throughout if no target moves up the list. -/
theorem start_exclusive (hinv : LinkInv s) (hrun : s.state = .running)
    (hno : EditsInPlace reg options sel s → NoMoveUp reg options sel s.virtualControllerHosts) :
    Prog.wp (fun _ => True) (start env reg options sel) (fun _ s' => Extends s.io s'.io) s := by
  have hupd := gateOf_running.mpr hrun
  have hq := gateState_update hupd
  have hinv0 := gateState_linkInv hinv
  have hrun0 : (gateState s).state = .running := hq.state.trans hrun
  -- messages aside, the state check changes nothing
  have quiet : ∀ {s1}, Quiet s s1 → Extends s.io s1.io := fun {s1} h =>
    ⟨[], by rw [h.calls, List.append_nil], exclusive_of_tracks hinv.tracks hinv.pairwise⟩
  have stopped : ∀ {s1}, Quiet s s1 → Extends s.io (afterStop s1).io := fun {s1} h =>
    (quiet h).trans (afterStop_exclusive (hinv.quiet h) (hinv.quiet h).pairwise)
  refine start_rule trivial (fun hg => ?_) (fun hg => ?_) fun _ => ?_
  · rw [hupd] at hg; cases hg
  · rw [hupd] at hg; cases hg
  · refine updateRunningLink_rule (fun _ _ => trivial) (hinv0.running hrun0).system
      (fun _ => stop_wp trivial trivial (fun _ _ _ => trivial) (stopped hq)) (fun _ _ => ?_) ?_
    · refine stop_wp trivial trivial (fun _ _ _ => trivial) (startFuel_rule rfl trivial ?_)
      have ht : Tracks (gateState (afterStop (gateState s))).io [] := hinv0.afterStop.tracks
      exact Prog.wp_mono (startLink_exclusive rfl ht) fun _ _ h => (stopped hq).trans h
    · intro hne hc s1 m hq1 _ hm
      have hq01 := hq.trans hq1
      have hinv1 := hinv.quiet hq01
      refine regroup_rule (fun _ _ => ⟨trivial, trivial, show Extends s.io s1.io from quiet hq01⟩)
        (fun _ => stop_wp trivial trivial (fun _ _ _ => trivial) (stopped hq01)) ?_
      intro groups hg hf _
      have hin : EditsInPlace reg options sel s :=
        ⟨⟨hrun, hne, hq.activeOptions ▸ hc⟩, hf, fun id hsel hid =>
          hostKey_of_grouped hm hg hsel (hm.old id (hq.targets.symm ▸ hid))⟩
      have hgroups := groupsOf_update hm hg
      have hx : Ends (fun e => Extends s1.io e.2) (fun st => NewGroupsInv groups [] st ∧
          Extends s1.io st.io) (updateActiveHosts env reg options.sliceDurationUs
          s1.virtualControllerHosts groups s1.io) :=
        updateActiveHosts_exclusive hgroups.nodup_keys (fun g h g' h' => hgroups.disjoint h h')
          hinv1.tracks hinv1.keys hinv1.pairwise
          (noEarlierMove_of_noMoveUp hm hg (hq01.hosts ▸ hno hin))
      cases hu : updateActiveHosts env reg options.sliceDurationUs s1.virtualControllerHosts groups
          s1.io with
      | error e =>
        rw [hu] at hx
        simp only [updateSection, hu]
        exact ⟨trivial, trivial, (quiet hq01).trans hx⟩
      | ok st =>
        rw [hu] at hx
        simp only [updateSection, hu]
        exact ⟨trivial, (quiet hq01).trans hx.2⟩

end

end LiberaLink
