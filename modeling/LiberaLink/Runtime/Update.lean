import LiberaLink.Runtime.Groups

/-!
# The host section of a running update

`start` on a running link goes through the active hosts in list order: a host without a group is
stopped; a host whose group has the same target ids is kept; a host that supports it gets its
targets removed and added one by one; every other host is stopped and its group started anew.  Then
the groups that no host was matched with are started.

* `updateHost`            one turn of the loop over the active hosts;
* `updateActiveHosts`     both loops, and `failUpdate` where a host does not start;
* `editTargets_spec`      what the removals and additions on one host call;
* `HostTurn`              **what one turn can do**, `updateHost_turn` that it does one of these;
* `updateHosts_rule`, `startNewGroups_rule`   the loops, by their invariants.
-/

namespace LiberaLink

/-- `removeTarget` for the targets that left, up to the first refusal. -/
def removeTargets (env : Env) (host : VirtualControllerHost) (desiredTargetIds : Finset String) :
    List LinkedTarget → HostLog → Bool × HostLog
  | [], io => (true, io)
  | t :: ts, io =>
    if t.info.id ∈ desiredTargetIds then removeTargets env host desiredTargetIds ts io
    else match host.removeTarget env t.info.id io with
      | (none, io) => removeTargets env host desiredTargetIds ts io
      | (some _, io) => (false, io)

/-- `addTarget` for the targets that joined, up to the first refusal. -/
def addTargets (env : Env) (host : VirtualControllerHost) (currentTargetIds : Finset String) :
    List LinkedTarget → HostLog → Bool × HostLog
  | [], io => (true, io)
  | t :: ts, io =>
    if t.info.id ∈ currentTargetIds then addTargets env host currentTargetIds ts io
    else match host.addTarget env t io with
      | (none, io) => addTargets env host currentTargetIds ts io
      | (some _, io) => (false, io)

/-- The dynamic edit of a matched host: removals first, then additions. -/
def editTargets (env : Env) (h : ActiveVirtualControllerHost)
    (g : PendingVirtualControllerHostGroup) (io : HostLog) : Bool × HostLog :=
  match h.host with
  | none => (false, io)
  | some host =>
    if host.supportsDynamicTargets then
      match removeTargets env host (targetIdSet g.targets) h.targets io with
      | (true, io) => addTargets env host (targetIdSet h.targets) g.targets io
      | (false, io) => (false, io)
    else (false, io)

/-- The local variables of the update loops: `next` is `nextActiveHosts`, `past` are the entries of
`virtualControllerHosts` already passed, `handled` is `handledDesiredGroups`. -/
structure UpdateLoop where
  io : HostLog
  next : List ActiveVirtualControllerHost := []
  past : List ActiveVirtualControllerHost := []
  handled : List Nat := []

/-- the entry after its host was moved into `nextActiveHosts` -/
def ActiveVirtualControllerHost.movedFrom (h : ActiveVirtualControllerHost) :
    ActiveVirtualControllerHost := { h with host := none }

/-- The host calls of `failUpdate`; `ahead` are the entries of `virtualControllerHosts` from the
current one on. -/
def failUpdate (st : UpdateLoop) (ahead : List ActiveVirtualControllerHost) : HostLog :=
  stopHosts (st.past ++ ahead) (stopHosts st.next st.io)

/-- One turn of the loop over the active hosts. -/
def updateHost (env : Env) (reg : Registry) (sliceDurationUs : Nat)
    (desiredGroups : List PendingVirtualControllerHostGroup) (h : ActiveVirtualControllerHost)
    (ahead : List ActiveVirtualControllerHost) (st : UpdateLoop) :
    Except (String × HostLog) UpdateLoop :=
  match desiredGroups.zipIdx.find? fun p => activeHostMatchesGroup h p.1 with
  | none => .ok { st with io := stopHost h st.io, past := st.past ++ [h] }
  | some (g, i) =>
    let st := { st with handled := i :: st.handled }
    if targetIdSet h.targets = targetIdSet g.targets then
      .ok { st with next := st.next ++ [h], past := st.past ++ [h.movedFrom] }
    else
      match editTargets env h g st.io with
      | (true, io) =>
        .ok { st with
          io := io
          next := st.next ++ [{ h with targets := g.targets }]
          past := st.past ++ [h.movedFrom] }
      | (false, io) =>
        match startActiveHostGroup env reg g sliceDurationUs (stopHost h io) with
        | (.error e, io) => .error (e, failUpdate { st with io := io } (h :: ahead))
        | (.ok h', io) => .ok { st with io := io, next := st.next ++ [h'], past := st.past ++ [h] }

/-- The loop over the active hosts. -/
def updateHosts (env : Env) (reg : Registry) (sliceDurationUs : Nat)
    (desiredGroups : List PendingVirtualControllerHostGroup) :
    List ActiveVirtualControllerHost → UpdateLoop → Except (String × HostLog) UpdateLoop
  | [], st => .ok st
  | h :: ahead, st =>
    match updateHost env reg sliceDurationUs desiredGroups h ahead st with
    | .error e => .error e
    | .ok st => updateHosts env reg sliceDurationUs desiredGroups ahead st

/-- The loop over the groups that were not handled. -/
def startNewGroups (env : Env) (reg : Registry) (sliceDurationUs : Nat) :
    List (PendingVirtualControllerHostGroup × Nat) → UpdateLoop →
    Except (String × HostLog) UpdateLoop
  | [], st => .ok st
  | (g, i) :: rest, st =>
    if i ∈ st.handled then startNewGroups env reg sliceDurationUs rest st
    else
      match startActiveHostGroup env reg g sliceDurationUs st.io with
      | (.error e, io) => .error (e, failUpdate { st with io := io } [])
      | (.ok h, io) =>
        startNewGroups env reg sliceDurationUs rest { st with io := io, next := st.next ++ [h] }

def updateActiveHosts (env : Env) (reg : Registry) (sliceDurationUs : Nat)
    (hosts : List ActiveVirtualControllerHost)
    (desiredGroups : List PendingVirtualControllerHostGroup) (io : HostLog) :
    Except (String × HostLog) UpdateLoop :=
  match updateHosts env reg sliceDurationUs desiredGroups hosts { io := io } with
  | .error e => .error e
  | .ok st => startNewGroups env reg sliceDurationUs desiredGroups.zipIdx st

/-! ## removals and additions -/

/-- the targets of `ts` whose id is not in `ids` -/
def leftOut (ids : Finset String) (ts : List LinkedTarget) : List String :=
  (ts.map fun t => t.info.id).filter fun id => decide (id ∉ ids)

theorem mem_leftOut {ids : Finset String} {ts : List LinkedTarget} {id : String} :
    id ∈ leftOut ids ts ↔ id ∈ targetIdSet ts ∧ id ∉ ids := by
  simp [leftOut, targetIdSet]

theorem leftOut_toFinset (ids : Finset String) (ts : List LinkedTarget) :
    (leftOut ids ts).toFinset = targetIdSet ts \ ids := by
  ext id
  rw [List.mem_toFinset, mem_leftOut, Finset.mem_sdiff]

theorem leftOut_cons (ids : Finset String) (t : LinkedTarget) (ts : List LinkedTarget) :
    leftOut ids (t :: ts) =
      if t.info.id ∈ ids then leftOut ids ts else t.info.id :: leftOut ids ts := by
  by_cases h : t.info.id ∈ ids <;> simp [leftOut, h]

/-- The calls of the removals: one for each target that left if all succeed; else they end with the
one that was refused. -/
theorem removeTargets_calls (env : Env) (host : VirtualControllerHost) (ids : Finset String)
    (ts : List LinkedTarget) (io : HostLog) :
    (removeTargets env host ids ts io).2.nextHost = io.nextHost ∧
    ((removeTargets env host ids ts io).1 = true → (removeTargets env host ids ts io).2.calls =
      io.calls ++ (leftOut ids ts).map fun id => .removeTarget host.serial id true) ∧
    ((removeTargets env host ids ts io).1 = false → ∃ (done : List String) (id : String),
      (removeTargets env host ids ts io).2.calls = io.calls ++
        (done.map fun id => .removeTarget host.serial id true) ++
          [.removeTarget host.serial id false]) := by
  induction ts generalizing io with
  | nil => simp [removeTargets, leftOut]
  | cons t ts ih =>
    unfold removeTargets
    rw [leftOut_cons]
    by_cases ht : t.info.id ∈ ids
    · rw [if_pos ht, if_pos ht]; exact ih io
    · rw [if_neg ht, if_neg ht]
      cases hr : host.removeTarget env t.info.id io with
      | mk r io' =>
        have hio : io' = io.tick.push (.removeTarget host.serial t.info.id r.isNone) := by
          unfold VirtualControllerHost.removeTarget at hr
          simp only [Prod.mk.injEq] at hr
          rw [← hr.2, ← hr.1]
        cases r with
        | none =>
          obtain ⟨h1, h2, h3⟩ := ih io'
          rw [hio] at h1 h2 h3 ⊢
          refine ⟨h1, fun h => ?_, fun h => ?_⟩
          · rw [h2 h]; simp
          · obtain ⟨done, id, hd⟩ := h3 h
            exact ⟨t.info.id :: done, id, by rw [hd]; simp⟩
        | some e =>
          rw [hio]
          exact ⟨rfl, by simp, fun _ => ⟨[], t.info.id, by simp⟩⟩

/-- The calls of the additions, likewise. -/
theorem addTargets_calls (env : Env) (host : VirtualControllerHost) (ids : Finset String)
    (ts : List LinkedTarget) (io : HostLog) :
    (addTargets env host ids ts io).2.nextHost = io.nextHost ∧
    ((addTargets env host ids ts io).1 = true → (addTargets env host ids ts io).2.calls =
      io.calls ++ (leftOut ids ts).map fun id => .addTarget host.serial id true) ∧
    ((addTargets env host ids ts io).1 = false → ∃ (done : List String) (id : String),
      (∀ id ∈ done, id ∈ leftOut ids ts) ∧
      (addTargets env host ids ts io).2.calls = io.calls ++
        (done.map fun id => .addTarget host.serial id true) ++
          [.addTarget host.serial id false]) := by
  induction ts generalizing io with
  | nil => simp [addTargets, leftOut]
  | cons t ts ih =>
    unfold addTargets
    rw [leftOut_cons]
    by_cases ht : t.info.id ∈ ids
    · rw [if_pos ht, if_pos ht]; exact ih io
    · rw [if_neg ht, if_neg ht]
      cases hr : host.addTarget env t io with
      | mk r io' =>
        have hio : io' = io.tick.push (.addTarget host.serial t.info.id r.isNone) := by
          unfold VirtualControllerHost.addTarget at hr
          simp only [Prod.mk.injEq] at hr
          rw [← hr.2, ← hr.1]
        cases r with
        | none =>
          obtain ⟨h1, h2, h3⟩ := ih io'
          rw [hio] at h1 h2 h3 ⊢
          refine ⟨h1, fun h => ?_, fun h => ?_⟩
          · rw [h2 h]; simp
          · obtain ⟨done, id, hmem, hd⟩ := h3 h
            refine ⟨t.info.id :: done, id, ?_, by rw [hd]; simp⟩
            intro id' hid'
            rcases List.mem_cons.mp hid' with rfl | hid'
            · exact List.mem_cons_self
            · exact List.mem_cons_of_mem _ (hmem id' hid')
        | some e =>
          rw [hio]
          exact ⟨rfl, by simp, fun _ => ⟨[], t.info.id, by simp, by simp⟩⟩

theorem worldAfter_removals (w : HostWorld) (n : Nat) (l : List String) :
    worldAfter w (l.map fun id => .removeTarget n id true) n =
      (w n).map fun S => S \ l.toFinset := by
  induction l generalizing w with
  | nil => simp [worldAfter]
  | cons id l ih =>
    show worldAfter (HostCall.apply w (.removeTarget n id true)) _ n = _
    rw [ih]
    cases hw : w n with
    | none => simp [HostCall.apply, hw]
    | some S =>
      simp only [HostCall.apply, hw, Function.update_self, Option.map_some, List.toFinset_cons]
      congr 1
      ext x
      simp only [Finset.mem_sdiff, Finset.mem_erase, Finset.mem_insert]
      tauto

theorem worldAfter_additions (w : HostWorld) (n : Nat) (l : List String) :
    worldAfter w (l.map fun id => .addTarget n id true) n =
      (w n).map fun S => S ∪ l.toFinset := by
  induction l generalizing w with
  | nil => simp [worldAfter]
  | cons id l ih =>
    show worldAfter (HostCall.apply w (.addTarget n id true)) _ n = _
    rw [ih]
    cases hw : w n with
    | none => simp [HostCall.apply, hw]
    | some S =>
      simp only [HostCall.apply, hw, Function.update_self, Option.map_some, List.toFinset_cons]
      congr 1
      ext x
      simp only [Finset.mem_union, Finset.mem_insert]
      tauto

/-- the calls of an edit that succeeds -/
def editCalls (n : Nat) (current desired : List LinkedTarget) : List HostCall :=
  (leftOut (targetIdSet desired) current).map (fun id => .removeTarget n id true) ++
    (leftOut (targetIdSet current) desired).map fun id => .addTarget n id true

/-- after the edit the host serves the desired targets -/
theorem worldAfter_editCalls {w : HostWorld} {n : Nat} {current desired : List LinkedTarget}
    (hw : w n = some (targetIdSet current)) :
    worldAfter w (editCalls n current desired) n = some (targetIdSet desired) := by
  rw [editCalls, worldAfter_append, worldAfter_additions, worldAfter_removals, hw,
    leftOut_toFinset, leftOut_toFinset, Option.map_some, Option.map_some]
  congr 1
  ext x
  simp only [Finset.mem_union, Finset.mem_sdiff]
  tauto

theorem editCalls_host {n : Nat} {current desired : List LinkedTarget} {c : HostCall}
    (hc : c ∈ editCalls n current desired) : c.host = n := by
  rcases List.mem_append.mp hc with hc | hc <;> obtain ⟨id, _, rfl⟩ := List.mem_map.mp hc <;> rfl

/-- A call an edit may make, in success or not: a removal, or the addition of a target that
joins, on the host edited. -/
def EditCall (n : Nat) (current desired : List LinkedTarget) : HostCall → Prop
  | .removeTarget m _ _ => m = n
  | .addTarget m id ok => m = n ∧ (ok = true → id ∈ leftOut (targetIdSet current) desired)
  | _ => False

theorem EditCall.host {n : Nat} {current desired : List LinkedTarget} {c : HostCall}
    (hc : EditCall n current desired c) : c.host = n := by
  cases c with
  | start m ts ok => exact False.elim hc
  | stop m => exact False.elim hc
  | addTarget m t ok => exact hc.1
  | removeTarget m t ok => exact hc

/-- **What an edit can do**: all its calls succeed, or it stops at a refusal, or the host does not
support edits and nothing is called. -/
theorem editTargets_spec (env : Env) (h : ActiveVirtualControllerHost)
    (g : PendingVirtualControllerHostGroup) (io : HostLog) :
    (∃ host io', editTargets env h g io = (true, io') ∧ h.host = some host ∧
      host.supportsDynamicTargets = true ∧ io'.nextHost = io.nextHost ∧
      io'.calls = io.calls ++ editCalls host.serial h.targets g.targets) ∨
    (∃ host io' cs id, editTargets env h g io = (false, io') ∧ h.host = some host ∧
      io'.nextHost = io.nextHost ∧ io'.calls = io.calls ++ cs ∧
      (∀ c ∈ cs, EditCall host.serial h.targets g.targets c) ∧
      (.removeTarget host.serial id false ∈ cs ∨ .addTarget host.serial id false ∈ cs)) ∨
    (editTargets env h g io = (false, io) ∧
      ∀ host, h.host = some host → host.supportsDynamicTargets = false) := by
  unfold editTargets
  cases hh : h.host with
  | none => exact .inr (.inr ⟨rfl, fun host e => by cases e⟩)
  | some host =>
    by_cases hd : host.supportsDynamicTargets = true
    · simp only [hd, if_true]
      obtain ⟨r1, r2, r3⟩ := removeTargets_calls env host (targetIdSet g.targets) h.targets io
      cases hr : removeTargets env host (targetIdSet g.targets) h.targets io with
      | mk ok io1 =>
        rw [hr] at r1 r2 r3
        cases ok with
        | false =>
          obtain ⟨done, id, hc⟩ := r3 rfl
          refine .inr (.inl ⟨host, io1, _, id, rfl, rfl, r1,
            hc.trans (List.append_assoc _ _ _), ?_, .inl (by simp)⟩)
          intro c hc
          rcases List.mem_append.mp hc with hc | hc
          · obtain ⟨id', _, rfl⟩ := List.mem_map.mp hc; rfl
          · rw [List.mem_singleton] at hc; rw [hc]; rfl
        | true =>
          have hc1 := r2 rfl
          obtain ⟨a1, a2, a3⟩ := addTargets_calls env host (targetIdSet h.targets) g.targets io1
          show (∃ _, _) ∨ _
          cases ha : addTargets env host (targetIdSet h.targets) g.targets io1 with
          | mk ok io2 =>
            rw [ha] at a1 a2 a3
            cases ok with
            | true =>
              refine .inl ⟨host, io2, ha, rfl, hd, a1.trans r1, ?_⟩
              rw [a2 rfl, hc1, editCalls, List.append_assoc]
            | false =>
              obtain ⟨done, id, hmem, hc⟩ := a3 rfl
              refine .inr (.inl ⟨host, io2,
                (leftOut (targetIdSet g.targets) h.targets).map
                    (fun id => .removeTarget host.serial id true) ++
                  (done.map (fun id => .addTarget host.serial id true) ++
                    [.addTarget host.serial id false]),
                id, ha, rfl, a1.trans r1, ?_, ?_, .inr ?_⟩)
              · rw [hc, hc1]; simp only [List.append_assoc]
              · intro c hc
                rcases List.mem_append.mp hc with hc | hc
                · obtain ⟨id', _, rfl⟩ := List.mem_map.mp hc; rfl
                · rcases List.mem_append.mp hc with hc | hc
                  · obtain ⟨id', hid, rfl⟩ := List.mem_map.mp hc
                    exact ⟨rfl, fun _ => hmem id' hid⟩
                  · rw [List.mem_singleton] at hc
                    rw [hc]
                    exact ⟨rfl, fun h => by cases h⟩
              · simp
    · refine .inr (.inr ⟨if_neg hd, fun host' e => ?_⟩)
      obtain rfl := Option.some.inj e
      simpa using hd

/-! ## one turn -/

/-- What one turn of the loop over the active hosts can do. -/
inductive HostTurn (env : Env) (reg : Registry) (slice : Nat)
    (groups : List PendingVirtualControllerHostGroup) (h : ActiveVirtualControllerHost)
    (ahead : List ActiveVirtualControllerHost) (st : UpdateLoop) :
    Except (String × HostLog) UpdateLoop → Prop where
  | stopped (hno : ∀ g ∈ groups, h.key ≠ g.key) :
      HostTurn env reg slice groups h ahead st
        (.ok { st with io := stopHost h st.io, past := st.past ++ [h] })
  | kept {g : PendingVirtualControllerHostGroup} {i : Nat} (hg : (g, i) ∈ groups.zipIdx)
      (hk : h.key = g.key) (he : targetIdSet h.targets = targetIdSet g.targets) :
      HostTurn env reg slice groups h ahead st
        (.ok { st with
          handled := i :: st.handled, next := st.next ++ [h], past := st.past ++ [h.movedFrom] })
  | edited {g : PendingVirtualControllerHostGroup} {i : Nat} {io : HostLog}
      (hg : (g, i) ∈ groups.zipIdx) (hk : h.key = g.key)
      (hne : targetIdSet h.targets ≠ targetIdSet g.targets)
      (he : editTargets env h g st.io = (true, io)) :
      HostTurn env reg slice groups h ahead st
        (.ok { st with
          handled := i :: st.handled
          io := io
          next := st.next ++ [{ h with targets := g.targets }]
          past := st.past ++ [h.movedFrom] })
  | restarted {g : PendingVirtualControllerHostGroup} {i : Nat} {io io' : HostLog}
      {h' : ActiveVirtualControllerHost} (hg : (g, i) ∈ groups.zipIdx) (hk : h.key = g.key)
      (hne : targetIdSet h.targets ≠ targetIdSet g.targets)
      (he : editTargets env h g st.io = (false, io))
      (hs : startActiveHostGroup env reg g slice (stopHost h io) = (.ok h', io')) :
      HostTurn env reg slice groups h ahead st
        (.ok { st with
          handled := i :: st.handled, io := io', next := st.next ++ [h'], past := st.past ++ [h] })
  | failed {g : PendingVirtualControllerHostGroup} {i : Nat} {io io' : HostLog} {e : String}
      (hg : (g, i) ∈ groups.zipIdx) (hk : h.key = g.key)
      (hne : targetIdSet h.targets ≠ targetIdSet g.targets)
      (he : editTargets env h g st.io = (false, io))
      (hs : startActiveHostGroup env reg g slice (stopHost h io) = (.error e, io')) :
      HostTurn env reg slice groups h ahead st
        (.error (e, failUpdate { st with handled := i :: st.handled, io := io' } (h :: ahead)))

theorem updateHost_turn (env : Env) (reg : Registry) (slice : Nat)
    (groups : List PendingVirtualControllerHostGroup) (h : ActiveVirtualControllerHost)
    (ahead : List ActiveVirtualControllerHost) (st : UpdateLoop) :
    HostTurn env reg slice groups h ahead st (updateHost env reg slice groups h ahead st) := by
  unfold updateHost
  cases hf : groups.zipIdx.find? fun p => activeHostMatchesGroup h p.1 with
  | none =>
    refine .stopped fun g hg hk => ?_
    obtain ⟨i, hi⟩ := List.getElem?_of_mem hg
    have := List.find?_eq_none.mp hf (g, i) (List.mk_mem_zipIdx_iff_getElem?.mpr hi)
    exact this ((activeHostMatchesGroup_iff h g).mpr hk)
  | some p =>
    obtain ⟨g, i⟩ := p
    have hg := List.mem_of_find?_eq_some hf
    have hk : h.key = g.key := (activeHostMatchesGroup_iff h g).mp
      (List.find?_some (p := fun p : PendingVirtualControllerHostGroup × Nat =>
        activeHostMatchesGroup h p.1) hf)
    simp only
    split
    · rename_i he
      exact .kept hg hk he
    · rename_i hne
      cases he : editTargets env h g st.io with
      | mk ok io =>
        cases ok with
        | true => exact .edited hg hk hne he
        | false =>
          simp only
          cases hs : startActiveHostGroup env reg g slice (stopHost h io) with
          | mk r io' =>
            cases r with
            | error e => exact .failed hg hk hne he hs
            | ok h' => exact .restarted hg hk hne he hs

/-! ## the loops -/

/-- `E` holds of the error, or `P` of the result. -/
def Ends {ε α : Type} (E : ε → Prop) (P : α → Prop) : Except ε α → Prop
  | .error e => E e
  | .ok a => P a

section
variable {env : Env} {reg : Registry} {slice : Nat}
  {groups : List PendingVirtualControllerHostGroup} {E : String × HostLog → Prop}

/-- what every turn preserves holds after the loop over the active hosts -/
theorem updateHosts_rule {P : List ActiveVirtualControllerHost → UpdateLoop → Prop}
    (turn : ∀ h ahead st r, P (h :: ahead) st → HostTurn env reg slice groups h ahead st r →
      Ends E (P ahead) r)
    (hosts : List ActiveVirtualControllerHost) (st : UpdateLoop) (h0 : P hosts st) :
    Ends E (P []) (updateHosts env reg slice groups hosts st) := by
  induction hosts generalizing st with
  | nil => exact h0
  | cons h ahead ih =>
    unfold updateHosts
    have ht := turn h ahead st _ h0 (updateHost_turn env reg slice groups h ahead st)
    cases hr : updateHost env reg slice groups h ahead st with
    | error e => rw [hr] at ht; exact ht
    | ok st' => rw [hr] at ht; exact ih st' ht

/-- what every start preserves holds after the loop over the groups that were not handled -/
theorem startNewGroups_rule
    {P : List (PendingVirtualControllerHostGroup × Nat) → UpdateLoop → Prop}
    (skip : ∀ g i rest st, P ((g, i) :: rest) st → i ∈ st.handled → P rest st)
    (started : ∀ g i rest st h io, P ((g, i) :: rest) st → i ∉ st.handled →
      startActiveHostGroup env reg g slice st.io = (.ok h, io) →
      P rest { st with io := io, next := st.next ++ [h] })
    (failed : ∀ g i rest st e io, P ((g, i) :: rest) st → i ∉ st.handled →
      startActiveHostGroup env reg g slice st.io = (.error e, io) →
      E (e, failUpdate { st with io := io } []))
    (gs : List (PendingVirtualControllerHostGroup × Nat)) (st : UpdateLoop) (h0 : P gs st) :
    Ends E (P []) (startNewGroups env reg slice gs st) := by
  induction gs generalizing st with
  | nil => exact h0
  | cons p rest ih =>
    obtain ⟨g, i⟩ := p
    unfold startNewGroups
    by_cases hi : i ∈ st.handled
    · rw [if_pos hi]; exact ih st (skip g i rest st h0 hi)
    · rw [if_neg hi]
      cases hs : startActiveHostGroup env reg g slice st.io with
      | mk r io =>
        cases r with
        | error e => exact failed g i rest st e io h0 hi hs
        | ok h => exact ih _ (started g i rest st h io h0 hi hs)

end

end LiberaLink
