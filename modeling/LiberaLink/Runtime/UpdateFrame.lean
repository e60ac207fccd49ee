import LiberaLink.Runtime.Runs

/-!
# Which hosts an update calls, and how often

An update of a running link in which every host call succeeds leaves the hosts alone whose targets
do not change: the calls on one host are exactly those of its own turn of the loop.

* `HostTurn.calls`     the calls of one turn, by what the turn did to the host;
* `FrameInv`           the calls on each host so far, over both loops;
* `update_frame`       **the calls and the resulting hosts of an update without failures**.
-/

namespace LiberaLink
open Stepwise Impl LinkRuntime

/-- the calls made on the host `n` -/
def onHost (n : Nat) (cs : List HostCall) : List HostCall := cs.filter fun c => c.host == n

theorem onHost_append (n : Nat) (a b : List HostCall) : onHost n (a ++ b) = onHost n a ++ onHost n b :=
  List.filter_append ..

theorem onHost_eq_nil {n : Nat} {cs : List HostCall} (h : ∀ c ∈ cs, c.host ≠ n) : onHost n cs = [] :=
  List.filter_eq_nil_iff.mpr fun c hc => by simpa using h c hc

theorem onHost_eq_self {n : Nat} {cs : List HostCall} (h : ∀ c ∈ cs, c.host = n) : onHost n cs = cs :=
  List.filter_eq_self.mpr fun c hc => by simpa using h c hc

/-! ## each target is removed once -/

/-- a removal that succeeds is of a target the host serves -/
theorem removeTarget_served {env : Env} {host : VirtualControllerHost} {id : String}
    {io io' : HostLog} (h : host.removeTarget env id io = (none, io')) :
    ∃ S, io.world host.serial = some S ∧ id ∈ S ∧ io'.world host.serial = some (S.erase id) := by
  unfold VirtualControllerHost.removeTarget at h
  simp only [Prod.mk.injEq] at h
  obtain ⟨h1, rfl⟩ := h
  rw [h1]
  by_cases hd : host.supportsDynamicTargets = true
  · rw [if_pos hd] at h1
    cases hw : io.world host.serial with
    | none => simp [hw] at h1
    | some S =>
      by_cases hid : id ∈ S
      · refine ⟨S, rfl, hid, ?_⟩
        simp [HostCall.apply, hw]
      · simp [hw, hid] at h1
  · simp [hd] at h1

/-- removals that all succeed are of different targets -/
theorem removeTargets_nodup {env : Env} {host : VirtualControllerHost} {ids : Finset String}
    {ts : List LinkedTarget} {io io' : HostLog} (h : removeTargets env host ids ts io = (true, io')) :
    (leftOut ids ts).Nodup ∧
      ∀ id ∈ leftOut ids ts, ∃ S, io.world host.serial = some S ∧ id ∈ S := by
  induction ts generalizing io with
  | nil => exact ⟨.nil, by simp [leftOut]⟩
  | cons t ts ih =>
    unfold removeTargets at h
    rw [leftOut_cons]
    by_cases ht : t.info.id ∈ ids
    · rw [if_pos ht] at h ⊢
      exact ih h
    · rw [if_neg ht] at h ⊢
      cases hr : host.removeTarget env t.info.id io with
      | mk r io1 =>
        rw [hr] at h
        cases r with
        | some e => cases h
        | none =>
          obtain ⟨S, hw, hid, hw1⟩ := removeTarget_served hr
          obtain ⟨hnd, hall⟩ := ih h
          have served : ∀ id ∈ leftOut ids ts, id ∈ S.erase t.info.id := by
            intro id hid'
            obtain ⟨S', hw', hid''⟩ := hall id hid'
            rw [hw1] at hw'
            exact Option.some.inj hw' ▸ hid''
          refine ⟨List.nodup_cons.mpr ⟨fun hm => ?_, hnd⟩, fun id hid' => ⟨S, hw, ?_⟩⟩
          · exact (Finset.mem_erase.mp (served _ hm)).1 rfl
          · rcases List.mem_cons.mp hid' with rfl | hid'
            · exact hid
            · exact Finset.mem_of_mem_erase (served _ hid')

theorem editTargets_nodup {env : Env} {h : ActiveVirtualControllerHost}
    {g : PendingVirtualControllerHostGroup} {io io' : HostLog}
    (he : editTargets env h g io = (true, io')) :
    (leftOut (targetIdSet g.targets) h.targets).Nodup := by
  unfold editTargets at he
  cases hh : h.host with
  | none => rw [hh] at he; cases he
  | some host =>
    simp only [hh] at he
    by_cases hd : host.supportsDynamicTargets = true
    · rw [if_pos hd] at he
      cases hr : removeTargets env host (targetIdSet g.targets) h.targets io with
      | mk ok io1 =>
        cases ok with
        | true => exact (removeTargets_nodup hr).1
        | false => rw [hr] at he; cases he
    · rw [if_neg hd] at he; cases he

/-! ## one turn -/

/-- What the calls on a matched host have to be, unless one of them failed. -/
def Treated (groups : List PendingVirtualControllerHostGroup) (h : ActiveVirtualControllerHost)
    (host : VirtualControllerHost) (cs : List HostCall) : Prop :=
  ∀ g ∈ groups, h.key = g.key →
    (targetIdSet h.targets = targetIdSet g.targets → cs = []) ∧
    (targetIdSet h.targets ≠ targetIdSet g.targets → host.supportsDynamicTargets = true →
      (∀ c ∈ cs, c.ok = true) → cs = editCalls host.serial h.targets g.targets ∧
        (leftOut (targetIdSet g.targets) h.targets).Nodup)

theorem stopHost_calls {h : ActiveVirtualControllerHost} {host : VirtualControllerHost}
    (hh : h.host = some host) (io : HostLog) :
    (stopHost h io).calls = io.calls ++ [.stop host.serial] ∧
      (stopHost h io).nextHost = io.nextHost := by
  unfold stopHost
  rw [hh]
  exact ⟨rfl, rfl⟩

section
variable {env : Env} {reg : Registry} {slice : Nat} {groups : List PendingVirtualControllerHostGroup}
  {h : ActiveVirtualControllerHost} {host : VirtualControllerHost}
  {ahead : List ActiveVirtualControllerHost} {st st' : UpdateLoop}

/-- **The calls of one turn**: on the host at hand as its group demands, and on no other host but
one that is new. -/
theorem HostTurn.calls (hgk : (groups.map fun g => g.key).Nodup) (hh : h.host = some host)
    (ht : HostTurn env reg slice groups h ahead st (.ok st')) :
    ∃ cs, st'.io.calls = st.io.calls ++ cs ∧ st.io.nextHost ≤ st'.io.nextHost ∧
      (∀ c ∈ cs, c.host = host.serial ∨ st.io.nextHost ≤ c.host) ∧
      (host.serial < st.io.nextHost → Treated groups h host (onHost host.serial cs)) := by
  have unique : ∀ {g g'}, g ∈ groups → g' ∈ groups → h.key = g.key → h.key = g'.key → g = g' :=
    fun hg hg' e e' => List.inj_on_of_nodup_map hgk hg hg' (e.symm.trans e')
  cases ht with
  | stopped hno =>
    obtain ⟨hc, hn⟩ := stopHost_calls hh st.io
    exact ⟨_, hc, hn.ge, by simp [HostCall.host], fun _ g hg hk => absurd hk (hno g hg)⟩
  | @kept g i hg hk he =>
    refine ⟨[], by simp, le_refl _, by simp, fun _ g' hg' hk' => ⟨fun _ => rfl, fun hne => ?_⟩⟩
    obtain rfl := unique (List.fst_mem_of_mem_zipIdx hg) hg' hk hk'
    exact absurd he hne
  | @edited g i io hg hk hne he =>
    obtain ⟨host', hh', _, hn, hc⟩ := editTargets_true he
    obtain rfl : host' = host := Option.some.inj (hh'.symm.trans hh)
    refine ⟨_, hc, hn.ge, fun c hc => .inl (editCalls_host hc), fun _ g' hg' hk' => ?_⟩
    obtain rfl := unique (List.fst_mem_of_mem_zipIdx hg) hg' hk hk'
    rw [onHost_eq_self fun c hc => editCalls_host hc]
    exact ⟨fun e => absurd e hne, fun _ _ _ => ⟨rfl, editTargets_nodup he⟩⟩
  | @restarted g i io io' h' hg hk hne he hs =>
    obtain ⟨hn0, es, hc0, hes⟩ := editTargets_false he hh
    obtain ⟨hc1, hn1⟩ := stopHost_calls hh io
    rcases startActiveHostGroup_spec env reg g slice (stopHost h io) with
      ⟨e, io'', h1, _⟩ | ⟨new, io'', h1, hser, _, hc2, hn2⟩
    · rw [h1] at hs; cases hs
    · rw [h1] at hs
      obtain ⟨rfl, rfl⟩ : activeEntry g new = h' ∧ io'' = io' := by simpa using hs
      refine ⟨es ++ ([.stop host.serial] ++ [.start new.serial (g.targets.map fun t => t.info.id)
        true]), ?_, ?_, ?_, fun hlt g' hg' hk' => ?_⟩
      · show io''.calls = _
        rw [hc2, hc1, hc0]
        simp only [List.append_assoc]
      · show _ ≤ io''.nextHost
        omega
      · intro c hc
        rcases List.mem_append.mp hc with hc | hc
        · exact .inl (hes c hc).host
        · rcases List.mem_append.mp hc with hc | hc <;> rw [List.mem_singleton] at hc <;> rw [hc]
          · exact .inl rfl
          · refine .inr ?_
            show _ ≤ new.serial
            omega
      · obtain rfl := unique (List.fst_mem_of_mem_zipIdx hg) hg' hk hk'
        refine ⟨fun e => absurd e hne, fun _ hd hok => ?_⟩
        -- the edit of a host that supports edits fails with a call that failed
        exfalso
        rcases editTargets_spec env h g st.io with ⟨_, _, h2, _⟩ | ⟨host', io1, cs, id, h2, h3, _, h4, h5,
          h6⟩ | ⟨_, h3⟩
        · rw [he] at h2; cases h2
        · obtain rfl : host' = host := Option.some.inj (h3.symm.trans hh)
          obtain rfl : io = io1 := by rw [he] at h2; exact (Prod.mk.inj h2).2
          obtain rfl : es = cs := List.append_cancel_left (hc0.symm.trans h4)
          rw [onHost_append, onHost_eq_self fun c hc => (h5 c hc).host] at hok
          rcases h6 with h6 | h6
          · exact Bool.false_ne_true (hok _ (List.mem_append_left _ h6))
          · exact Bool.false_ne_true (hok _ (List.mem_append_left _ h6))
        · rw [h3 host hh] at hd; cases hd

end

/-! ## both loops -/

/-- **The calls so far**: none on a host that is still ahead, and on every other host what its group
demands. -/
structure FrameInv (groups : List PendingVirtualControllerHostGroup) (io0 : HostLog)
    (hosts ahead : List ActiveVirtualControllerHost) (st : UpdateLoop) : Prop where
  suffix : ahead <:+ hosts
  fresh : io0.nextHost ≤ st.io.nextHost
  calls : ∃ cs, st.io.calls = io0.calls ++ cs ∧ ∀ h ∈ hosts, ∀ host, h.host = some host →
    (h ∈ ahead → onHost host.serial cs = []) ∧
    (h ∉ ahead → Treated groups h host (onHost host.serial cs))

section
variable {env : Env} {reg : Registry} {slice : Nat} {groups : List PendingVirtualControllerHostGroup}
  {io0 : HostLog} {hosts : List ActiveVirtualControllerHost} (ht : Tracks io0 hosts)
include ht

/-- an old host is older than every new one -/
theorem serial_lt {h : ActiveVirtualControllerHost} {host : VirtualControllerHost} (hm : h ∈ hosts)
    (hh : h.host = some host) : host.serial < io0.nextHost := by
  obtain ⟨host', hh', hw⟩ := ht.serves h hm
  obtain rfl : host' = host := Option.some.inj (hh'.symm.trans hh)
  exact ht.fresh _ _ hw

theorem FrameInv.turn (hgk : (groups.map fun g => g.key).Nodup) {h : ActiveVirtualControllerHost}
    {ahead : List ActiveVirtualControllerHost} {st st' : UpdateLoop}
    (hinv : FrameInv groups io0 hosts (h :: ahead) st)
    (hturn : HostTurn env reg slice groups h ahead st (.ok st')) :
    FrameInv groups io0 hosts ahead st' := by
  have hmem : h ∈ hosts := hinv.suffix.subset List.mem_cons_self
  obtain ⟨host, hh, _⟩ := ht.serves h hmem
  have hlt := serial_lt ht hmem hh
  obtain ⟨cs', hc', hn', hon, htreat⟩ := hturn.calls hgk hh
  obtain ⟨cs, hc, hall⟩ := hinv.calls
  have hapart := List.pairwise_cons.mp (ht.apart.sublist hinv.suffix.sublist)
  refine ⟨(List.suffix_cons _ _).trans hinv.suffix, hinv.fresh.trans hn', cs ++ cs', ?_, ?_⟩
  · rw [hc', hc, List.append_assoc]
  · intro k hk khost hkh
    rw [onHost_append]
    by_cases hser : khost.serial = host.serial
    · -- the host at hand
      have hkeq : k = h := by
        by_contra hne
        exact ht.apart.forall hk hmem hne _ hkh _ hh hser
      subst hkeq
      obtain rfl : khost = host := Option.some.inj (hkh.symm.trans hh)
      rw [(hall k hk khost hkh).1 List.mem_cons_self, List.nil_append]
      exact ⟨fun hin => absurd rfl (hapart.1 k hin _ hkh _ hkh), fun _ => htreat (by
        exact lt_of_lt_of_le hlt hinv.fresh)⟩
    · have hnone : onHost khost.serial cs' = [] := by
        refine onHost_eq_nil fun c hcm e => ?_
        have hklt := serial_lt ht hk hkh
        rcases hon c hcm with h1 | h1
        · exact hser (e.symm.trans h1)
        · have := hinv.fresh
          omega
      rw [hnone, List.append_nil]
      obtain ⟨h1, h2⟩ := hall k hk khost hkh
      refine ⟨fun hin => h1 (List.mem_cons_of_mem _ hin), fun hout => h2 fun hin => ?_⟩
      rcases List.mem_cons.mp hin with rfl | hin
      · exact hser (by rw [Option.some.inj (hkh.symm.trans hh)])
      · exact hout hin

theorem FrameInv.started {g : PendingVirtualControllerHostGroup} {st : UpdateLoop}
    (hinv : FrameInv groups io0 hosts [] st) {h : ActiveVirtualControllerHost} {io : HostLog}
    (hs : startActiveHostGroup env reg g slice st.io = (.ok h, io)) :
    FrameInv groups io0 hosts [] { st with io := io, next := st.next ++ [h] } := by
  rcases startActiveHostGroup_spec env reg g slice st.io with
    ⟨e, io', h1, _⟩ | ⟨new, io', h1, hser, _, hc', hn'⟩
  · rw [h1] at hs; cases hs
  · rw [h1] at hs
    obtain rfl : io' = io := (Prod.mk.inj hs).2
    obtain ⟨cs, hc, hall⟩ := hinv.calls
    have hfresh : io0.nextHost ≤ io'.nextHost := by
      have := hinv.fresh
      omega
    refine ⟨hinv.suffix, hfresh,
      cs ++ [.start new.serial (g.targets.map fun t => t.info.id) true], ?_, fun k hk khost hkh => ?_⟩
    · show io'.calls = _
      rw [hc', hc, List.append_assoc]
    · have hklt := serial_lt ht hk hkh
      have hnew : onHost khost.serial [.start new.serial (g.targets.map fun t => t.info.id) true] = [] := by
        refine onHost_eq_nil fun c hc => ?_
        rw [List.mem_singleton.mp hc]
        show new.serial ≠ khost.serial
        have := hinv.fresh
        omega
      rw [onHost_append, hnew, List.append_nil]
      exact hall k hk khost hkh

end

/-- an update fails with a call that failed -/
theorem HostTurn.failed_call {env : Env} {reg : Registry} {slice : Nat}
    {groups : List PendingVirtualControllerHostGroup} {h : ActiveVirtualControllerHost}
    {host : VirtualControllerHost} {ahead : List ActiveVirtualControllerHost} {st : UpdateLoop}
    {e : String × HostLog} (hmake : ∀ n id config, env.makeHost n id config = true)
    (hreg : ∀ g ∈ groups, reg.registration g.info.id ≠ none) (hh : h.host = some host)
    (ht : HostTurn env reg slice groups h ahead st (.error e)) :
    ∃ cs, e.2.calls = st.io.calls ++ cs ∧ ∃ c ∈ cs, c.ok = false := by
  cases ht with
  | @failed g i io io' e hg hk hne he hs =>
    obtain ⟨_, es, hc0, _⟩ := editTargets_false he hh
    obtain ⟨hc1, _⟩ := stopHost_calls hh io
    obtain ⟨n, ids, hc2⟩ := startActiveHostGroup_failed hmake
      (hreg g (List.fst_mem_of_mem_zipIdx hg)) hs
    obtain ⟨cs1, hc3, _⟩ := stopHosts_calls st.next io'
    obtain ⟨cs2, hc4, _⟩ := stopHosts_calls (st.past ++ h :: ahead) (stopHosts st.next io')
    refine ⟨es ++ [.stop host.serial] ++ [.start n ids false] ++ cs1 ++ cs2, ?_,
      .start n ids false, by simp, rfl⟩
    show (stopHosts (st.past ++ h :: ahead) (stopHosts st.next io')).calls = _
    rw [hc4, hc3, hc2, hc1, hc0]
    simp only [List.append_assoc]

/-- **The calls of an update**, if every host that is asked for is made. -/
theorem updateActiveHosts_frame {env : Env} {reg : Registry}
    {groups : List PendingVirtualControllerHostGroup} {io0 : HostLog}
    {hosts : List ActiveVirtualControllerHost} (slice : Nat)
    (hgk : (groups.map fun g => g.key).Nodup) (ht : Tracks io0 hosts)
    (hmake : ∀ n id config, env.makeHost n id config = true)
    (hreg : ∀ g ∈ groups, reg.registration g.info.id ≠ none) :
    Ends (fun e => ∃ cs, e.2.calls = io0.calls ++ cs ∧ ∃ c ∈ cs, c.ok = false)
      (fun st => FrameInv groups io0 hosts [] st ∧ [] <:+ groups.zipIdx)
      (updateActiveHosts env reg slice hosts groups io0) := by
  -- a failing call made after the calls so far
  have later : ∀ {ahead st} {io : HostLog}, FrameInv groups io0 hosts ahead st →
      (∃ cs, io.calls = st.io.calls ++ cs ∧ ∃ c ∈ cs, c.ok = false) →
      ∃ cs, io.calls = io0.calls ++ cs ∧ ∃ c ∈ cs, c.ok = false := by
    intro ahead st io hinv ⟨cs, hc, c, hm, hf⟩
    obtain ⟨cs0, hc0, _⟩ := hinv.calls
    exact ⟨cs0 ++ cs, by rw [hc, hc0, List.append_assoc], c, List.mem_append_right _ hm, hf⟩
  refine updateActiveHosts_rule (P := FrameInv groups io0 hosts)
    (Q := fun rest st => FrameInv groups io0 hosts [] st ∧ rest <:+ groups.zipIdx) ?_
    (fun st hinv => ⟨hinv, List.suffix_refl _⟩)
    (fun g i rest st hq _ => ⟨hq.1, (List.suffix_cons _ _).trans hq.2⟩)
    (fun g i rest st h io hq _ hs => ⟨hq.1.started ht hs, (List.suffix_cons _ _).trans hq.2⟩)
    (fun g i rest st e io hq _ hs => ?_) ?_
  · intro h ahead st r hinv hturn
    cases r with
    | ok st' => exact hinv.turn ht hgk hturn
    | error e =>
      obtain ⟨host, hh, _⟩ := ht.serves h (hinv.suffix.subset List.mem_cons_self)
      exact later hinv (hturn.failed_call hmake hreg hh)
  · obtain ⟨n, ids, hc⟩ := startActiveHostGroup_failed hmake
      (hreg g (List.fst_mem_of_mem_zipIdx (hq.2.subset List.mem_cons_self))) hs
    obtain ⟨cs1, hc1, _⟩ := stopHosts_calls st.next io
    obtain ⟨cs2, hc2, _⟩ := stopHosts_calls (st.past ++ []) (stopHosts st.next io)
    refine later hq.1 ⟨[.start n ids false] ++ cs1 ++ cs2, ?_, .start n ids false, by simp, rfl⟩
    show (stopHosts (st.past ++ []) (stopHosts st.next io)).calls = _
    rw [hc2, hc1, hc]
    simp only [List.append_assoc]
  · exact ⟨List.suffix_refl _, le_refl _, [], by simp, fun h hm host hh =>
      ⟨fun _ => rfl, fun hno => absurd hm hno⟩⟩

/-! ## counting -/

theorem count_removals {n : Nat} {current desired : List LinkedTarget}
    (hnd : (leftOut (targetIdSet desired) current).Nodup) (id : String) :
    (editCalls n current desired).count (.removeTarget n id true) =
      if id ∈ targetIdSet current \ targetIdSet desired then 1 else 0 := by
  have hzero : ((leftOut (targetIdSet current) desired).map fun id => HostCall.addTarget n id true
      ).count (.removeTarget n id true) = 0 := by
    rw [List.count_eq_zero]
    simp
  have hinj : Function.Injective fun id => HostCall.removeTarget n id true :=
    fun a b e => (HostCall.removeTarget.inj e).2.1
  rw [editCalls, List.count_append, hzero, Nat.add_zero,
    List.count_map_of_injective _ _ hinj, hnd.count]
  simp only [mem_leftOut, Finset.mem_sdiff]

theorem count_additions {n : Nat} {current desired : List LinkedTarget}
    (hnd : (leftOut (targetIdSet current) desired).Nodup) (id : String) :
    (editCalls n current desired).count (.addTarget n id true) =
      if id ∈ targetIdSet desired \ targetIdSet current then 1 else 0 := by
  have hzero : ((leftOut (targetIdSet desired) current).map fun id => HostCall.removeTarget n id true
      ).count (.addTarget n id true) = 0 := by
    rw [List.count_eq_zero]
    simp
  have hinj : Function.Injective fun id => HostCall.addTarget n id true :=
    fun a b e => (HostCall.addTarget.inj e).2.1
  rw [editCalls, List.count_append, hzero, Nat.zero_add,
    List.count_map_of_injective _ _ hinj, hnd.count]
  simp only [mem_leftOut, Finset.mem_sdiff]

/-- the targets of a group have different ids -/
theorem group_ids_nodup {reg : Registry} {options : LinkOptions} {sel : IdSet} {m : TargetMap}
    {groups : List PendingVirtualControllerHostGroup}
    (hids : ∀ id t, m.lookup id = some t → t.info.id = id)
    (hg : GroupsOf reg options ((desiredTargets sel m).map Prod.snd) groups)
    {g : PendingVirtualControllerHostGroup} (hgm : g ∈ groups) :
    (g.targets.map fun t => t.info.id).Nodup := by
  have hsub := (hg.sublist g hgm).map fun t => t.info.id
  refine List.Sublist.nodup ?_ sel.nodup
  refine hsub.trans ?_
  have e : ((desiredTargets sel m).map Prod.snd).map (fun t => t.info.id) =
      (desiredTargets sel m).map Prod.fst := by
    rw [List.map_map]
    exact List.map_congr_left fun p hp => (desiredTargets_id hids p hp).symm
  rw [e, desiredTargets, List.map_filterMap]
  have h : ∀ ids : List String, (ids.filterMap fun id =>
      ((m.lookup id).map fun t => (id, t)).map Prod.fst).Sublist ids := by
    intro ids
    induction ids with
    | nil => exact .slnil
    | cons id ids ih =>
      cases hl : m.lookup id with
      | none => rw [List.filterMap_cons_none (by rw [hl]; rfl)]; exact ih.cons _
      | some t => rw [List.filterMap_cons_some (by rw [hl]; rfl)]; exact ih.cons_cons _
  exact h sel.ids

/-! ## the update of a running link -/

theorem ok_of_length {ε α : Type} {r : Except ε (List α)} {n : Nat}
    (h : r.toOption.map List.length = some n) : ∃ l, r = .ok l ∧ l.length = n := by
  cases r with
  | error e => cases h
  | ok l => exact ⟨l, rfl, Option.some.inj h⟩

section
variable {env : Env} {reg : Registry} {options : LinkOptions} {sel : IdSet} {s s' : Impl}
  {groups : List PendingVirtualControllerHostGroup}

theorem desiredGroups_ok (h : desiredGroups env reg options sel s = .ok groups) :
    fallbackUnknown reg options = false ∧
      groupTargets reg options (desiredTargets sel (targetsFound env options sel s)) [] = .ok groups := by
  unfold desiredGroups at h
  split at h
  · cases h
  · rename_i hf
    exact ⟨by simpa using hf, h⟩

/-- What an update in place does, once its groups are known: it stops the link because no target is
left, or it edits the hosts. -/
theorem update_of_groups {r : Bool} (hp : InPlace s options sel)
    (hg : desiredGroups env reg options sel (gateState s) = .ok groups)
    (h : StartOutcome env reg options sel s r s') :
    groups = [] ∨
    ∃ s1 m, Quiet s s1 ∧ MapFor env sel s.discoveredControllerInfos s.targets m ∧
      groupTargets reg options (desiredTargets sel m) [] = .ok groups ∧
      ((∃ e io, updateActiveHosts env reg options.sliceDurationUs s1.virtualControllerHosts groups
          s1.io = .error (e, io) ∧ s'.io = io) ∨
        ∃ st, updateActiveHosts env reg options.sliceDurationUs s1.virtualControllerHosts groups
          s1.io = .ok st ∧ s'.state = .running ∧ s'.io = st.io ∧
            s'.virtualControllerHosts = st.next) := by
  obtain ⟨hrun, hne, hch⟩ := hp
  obtain ⟨hf, hgr⟩ := desiredGroups_ok hg
  have hupd := gateOf_running.mpr hrun
  have hq := gateState_update hupd
  have hch' : targetRuntimeOptionsChanged (gateState s).activeOptions options = false :=
    hq.activeOptions ▸ hch
  cases h with
  | refused h => rw [hupd] at h; cases h
  | fresh h => rw [hupd] at h; cases h
  | restarted _ h1 =>
    cases h1 with
    | restart changed => rw [hch'] at changed; cases changed
  | update _ h1 =>
    cases h1 with
    | stopped quiet why =>
      rcases why with why | ⟨_, why⟩
      · exact absurd why hne
      · rw [why] at hgr
        exact .inl (Except.ok.inj hgr).symm
    | unknown nonempty unchanged quiet found map why =>
      subst found
      rcases why with why | ⟨e, why⟩
      · rw [hf] at why; cases why
      · rw [hgr] at why; cases why
    | @failed s1 m groups' e io nonempty unchanged quiet found map grouped fallback desired edited =>
      subst found
      obtain rfl : groups = groups' := Except.ok.inj (hgr.symm.trans grouped)
      refine .inr ⟨s1, _, hq.trans quiet, hq.infos ▸ hq.targets ▸ map, grouped, .inl ⟨e, io, edited, ?_⟩⟩
      rw [updateSection, edited]
      rfl
    | @updated s1 m groups' st nonempty unchanged quiet found map grouped fallback desired edited =>
      subst found
      obtain rfl : groups = groups' := Except.ok.inj (hgr.symm.trans grouped)
      refine .inr ⟨s1, _, hq.trans quiet, hq.infos ▸ hq.targets ▸ map, grouped, .inr ⟨st, edited, ?_⟩⟩
      rw [updateSection, edited]
      exact ⟨rfl, rfl, rfl⟩

/-- calls that have all succeeded do not end with some of which one has failed -/
theorem not_failed_of_ok {io : HostLog} {before new : List HostCall} (hnew : io.calls = before ++ new)
    (hok : ∀ c ∈ new, c.ok = true) :
    ¬ ∃ cs, io.calls = before ++ cs ∧ ∃ c ∈ cs, c.ok = false := by
  rintro ⟨cs, hc, c, hcm, hcf⟩
  rw [hnew] at hc
  obtain rfl := List.append_cancel_left hc
  rw [hok c hcm] at hcf
  cases hcf

end

/-- **The calls of an update.**  An update of a running link in which every host is made and no host
call fails: a host whose group still has the same targets is not called; a matched host that takes
targets while running gets one `removeTarget` for each target that left and one `addTarget` for each
that joined, and no other; and each group is realised by exactly one host. -/
theorem update_frame {env : Env} {reg : Registry} {options : LinkOptions} {sel : IdSet} {s : Impl}
    {groups : List PendingVirtualControllerHostGroup} {new : List HostCall}
    (hr : Reachable reg s) (hend : s.terminated = false) (hp : InPlace s options sel)
    (hg : desiredGroups env reg options sel (gateState s) = .ok groups)
    (hmake : ∀ n id config, env.makeHost n id config = true)
    (hnew : ((start env reg options sel).run s).2.io.calls = s.io.calls ++ new)
    (hok : ∀ c ∈ new, c.ok = true) :
    (∀ h ∈ s.virtualControllerHosts, ∀ host, h.host = some host → ∀ g ∈ groups, h.key = g.key →
      (targetIdSet h.targets = targetIdSet g.targets → ∀ c ∈ new, c.host ≠ host.serial) ∧
      (host.supportsDynamicTargets = true → ∀ id,
        new.count (.removeTarget host.serial id true) =
          (if id ∈ targetIdSet h.targets \ targetIdSet g.targets then 1 else 0) ∧
        new.count (.addTarget host.serial id true) =
          (if id ∈ targetIdSet g.targets \ targetIdSet h.targets then 1 else 0))) ∧
    ∀ g ∈ groups, ∃ h ∈ ((start env reg options sel).run s).2.virtualControllerHosts,
      (h.key = g.key ∧ targetIdSet h.targets = targetIdSet g.targets) ∧
        ∀ h' ∈ ((start env reg options sel).run s).2.virtualControllerHosts, h'.key = g.key → h' = h := by
  have hinv := LinkInv.of_reach hr hend
  have hout : StartOutcome env reg options sel s _ _ :=
    Prog.wp_run (start_outcome (fun h => (hinv.running h).system) hinv.tracks)
  generalize ((start env reg options sel).run s).2 = s' at hnew hout ⊢
  rcases update_of_groups hp hg hout with rfl | ⟨s1, m, hq, hm, hgr, hed⟩
  · exact ⟨fun _ _ _ _ g hg => (nomatch hg), fun g hg => (nomatch hg)⟩
  · have hgroups := groupsOf_update hm hgr
    have hinv1 := hinv.quiet hq
    have hframe := updateActiveHosts_frame options.sliceDurationUs hgroups.nodup_keys hinv1.tracks hmake
      (fun g hg => hgroups.registered hg)
    have hspec := updateActiveHosts_spec env reg options.sliceDurationUs hgroups.nodup_keys
      hinv1.tracks hinv1.keys
    rcases hed with ⟨e, io, hed, hio⟩ | ⟨st, hed, _, hio, hhosts⟩
    · -- an update fails with a call that failed
      rw [hed] at hframe
      rw [hio, ← hq.calls] at hnew
      exact absurd hframe (not_failed_of_ok hnew hok)
    · rw [hed] at hframe hspec
      obtain ⟨⟨-, -, cs, hc, hall⟩, -⟩ := hframe
      rw [hio, hc, hq.calls] at hnew
      obtain rfl := List.append_cancel_left hnew
      rw [hhosts]
      refine ⟨fun h hh host hhost g hgm hk => ?_, fun g hgm => hspec.2.existsUnique hgm⟩
      obtain ⟨hsame, hdyn⟩ := (hall h (hq.hosts ▸ hh) host hhost).2 (by simp) g hgm hk
      have hcount : ∀ c : HostCall, c.host = host.serial →
          cs.count c = (onHost host.serial cs).count c := fun c hc =>
        (List.count_filter (by simpa using hc)).symm
      refine ⟨fun he c hcm e => ?_, fun hd id => ?_⟩
      · have hmem : c ∈ onHost host.serial cs := List.mem_filter.mpr ⟨hcm, by simpa using e⟩
        rw [hsame he] at hmem
        cases hmem
      · rw [hcount _ rfl, hcount _ rfl]
        by_cases he : targetIdSet h.targets = targetIdSet g.targets
        · rw [hsame he, he]
          simp
        · obtain ⟨hcalls, hnd⟩ := hdyn he hd fun c hc => hok c (List.mem_filter.mp hc).1
          rw [hcalls]
          refine ⟨count_removals hnd id, count_additions ?_ id⟩
          exact (group_ids_nodup hm.ids hgroups hgm).filter _

/-- from the targets `a`, `b` to `b`, `c` on one host that takes targets while running -/
theorem update_frame_libera :
    let env := succeeding [controller "a", controller "b", controller "c"]
    let options : LinkOptions := { virtualControllerHostId := "libera" }
    let s := runCall registry {} (env, .start options (.pair "a" "b" (by decide)))
    ∃ groups, desiredGroups env registry options (.pair "b" "c" (by decide)) (gateState s) = .ok groups ∧
      groups.length = 1 ∧ ∀ g ∈ groups, ∃ h ∈ ((start env registry options
        (.pair "b" "c" (by decide))).run s).2.virtualControllerHosts,
        (h.key = g.key ∧ targetIdSet h.targets = targetIdSet g.targets) ∧ ∀ h' ∈ ((start env registry
          options (.pair "b" "c" (by decide))).run s).2.virtualControllerHosts, h'.key = g.key → h' = h := by
  intro env options s
  obtain ⟨groups, hg, hl⟩ := ok_of_length (show (desiredGroups env registry options
    (.pair "b" "c" (by decide)) (gateState s)).toOption.map List.length = some 1 by decide +kernel)
  exact ⟨groups, hg, hl, (@update_frame env registry options _ s groups
    [.removeTarget 0 "a" true, .addTarget 0 "c" true] ((Reach.start).next _ trivial)
    (by decide +kernel) (by unfold InPlace; decide +kernel) hg (fun _ _ _ => rfl)
    (by decide +kernel) (by decide)).2⟩

end LiberaLink
