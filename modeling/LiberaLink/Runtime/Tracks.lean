import LiberaLink.Runtime.Hosts

/-!
# The host list keeps track of the running hosts

`Tracks io hosts`: every entry of `hosts` holds a host that runs and serves exactly the targets of
the entry, no other host runs, and no two entries hold the same host.  This is what ties the
bookkeeping of the runtime to the calls it made.

* `Tracks.remove`, `Tracks.replace`, `Tracks.insert`   one entry leaves, changes, or joins;
* `Tracks.stopHosts`                                   stopping every entry leaves no running host;
* `startActiveHostGroup_spec`                          what one host start can do.
-/

namespace LiberaLink

/-- the identity of the host an entry holds -/
def ActiveVirtualControllerHost.serial? (h : ActiveVirtualControllerHost) : Option Nat :=
  h.host.map fun host => host.serial

structure Tracks (io : HostLog) (hosts : List ActiveVirtualControllerHost) : Prop where
  serves : ∀ h ∈ hosts, ∃ host, h.host = some host ∧
    io.world host.serial = some (targetIdSet h.targets)
  complete : ∀ n S, io.world n = some S → n ∈ hosts.filterMap fun h => h.serial?
  distinct : (hosts.filterMap fun h => h.serial?).Nodup
  fresh : ∀ n S, io.world n = some S → n < io.nextHost

namespace Tracks
variable {io io' : HostLog} {a b hosts : List ActiveVirtualControllerHost}
  {h h' : ActiveVirtualControllerHost} {host host' : VirtualControllerHost}

theorem init : Tracks {} [] where
  serves := by simp
  complete := by simp [HostLog.world, worldAfter]
  distinct := .nil
  fresh := by simp [HostLog.world, worldAfter]

/-- only the calls and the counter of hosts matter -/
theorem congr (ht : Tracks io hosts) (hw : io'.world = io.world)
    (hn : io.nextHost ≤ io'.nextHost) : Tracks io' hosts where
  serves := by rw [hw]; exact ht.serves
  complete := by rw [hw]; exact ht.complete
  distinct := ht.distinct
  fresh n S h := by rw [hw] at h; exact lt_of_lt_of_le (ht.fresh n S h) hn

theorem none_running (ht : Tracks io []) (n : Nat) : io.world n = none := by
  cases hw : io.world n with
  | none => rfl
  | some S => exact absurd (ht.complete n S hw) (by simp)

theorem of_none_running (hw : ∀ n, io.world n = none) : Tracks io [] where
  serves := by simp
  complete n S h := by rw [hw] at h; cases h
  distinct := .nil
  fresh n S h := by rw [hw] at h; cases h

section
variable (hh : h.host = some host)
include hh

theorem serial?_eq : h.serial? = some host.serial := by
  rw [ActiveVirtualControllerHost.serial?, hh]; rfl

theorem filterMap_mid : (a ++ h :: b).filterMap (fun h => h.serial?)
    = a.filterMap (fun h => h.serial?) ++ host.serial :: b.filterMap (fun h => h.serial?) := by
  rw [List.filterMap_append, List.filterMap_cons_some (serial?_eq hh)]

theorem serial_notMem (ht : Tracks io (a ++ h :: b)) :
    host.serial ∉ (a ++ b).filterMap fun h => h.serial? := by
  have hd := ht.distinct
  rw [filterMap_mid hh, List.nodup_middle, List.nodup_cons] at hd
  rw [List.filterMap_append]
  exact hd.1

omit hh in
/-- an entry of the list holds a host that is not the given one -/
theorem ne_of_notMem {l : List ActiveVirtualControllerHost} {n : Nat}
    (hn : n ∉ l.filterMap fun h => h.serial?) {k : ActiveVirtualControllerHost} (hk : k ∈ l)
    (hkh : k.host = some host') : host'.serial ≠ n := by
  intro e
  exact hn (List.mem_filterMap.mpr ⟨k, hk, by rw [serial?_eq hkh, e]⟩)

/-- the host of one entry stops running, every other host is as before -/
theorem remove (ht : Tracks io (a ++ h :: b)) (hn : io.nextHost ≤ io'.nextHost)
    (hw : ∀ n, n ≠ host.serial → io'.world n = io.world n) (hs : io'.world host.serial = none) :
    Tracks io' (a ++ b) where
  serves k hk := by
    have hk' : k ∈ a ++ h :: b := by
      rcases List.mem_append.mp hk with hk | hk
      · exact List.mem_append_left _ hk
      · exact List.mem_append_right _ (List.mem_cons_of_mem _ hk)
    obtain ⟨host', hh', hwk⟩ := ht.serves k hk'
    exact ⟨host', hh', by rw [hw _ (ne_of_notMem (serial_notMem hh ht) hk hh')]; exact hwk⟩
  complete n S h1 := by
    have hne : n ≠ host.serial := fun e => by rw [e, hs] at h1; cases h1
    have h2 := ht.complete n S (by rwa [hw n hne] at h1)
    rw [filterMap_mid hh, List.mem_append, List.mem_cons] at h2
    rw [List.filterMap_append, List.mem_append]
    tauto
  distinct := by
    have hd := ht.distinct
    rw [filterMap_mid hh, List.nodup_middle, List.nodup_cons] at hd
    rw [List.filterMap_append]
    exact hd.2
  fresh n S h1 := by
    have hne : n ≠ host.serial := fun e => by rw [e, hs] at h1; cases h1
    exact lt_of_lt_of_le (ht.fresh n S (by rwa [hw n hne] at h1)) hn

end

/-- a host joins the list, in any place -/
theorem insert (ht : Tracks io (a ++ b)) (hh : h.host = some host)
    (hnew : io.nextHost ≤ host.serial) (hn : host.serial < io'.nextHost)
    (hw : ∀ n, n ≠ host.serial → io'.world n = io.world n)
    (hs : io'.world host.serial = some (targetIdSet h.targets)) : Tracks io' (a ++ h :: b) := by
  have hnone : ∀ k ∈ a ++ b, ∀ host', k.host = some host' → host'.serial ≠ host.serial := by
    intro k hk host' hk' e
    obtain ⟨host'', h1, h2⟩ := ht.serves k hk
    obtain rfl : host'' = host' := Option.some.inj (h1.symm.trans hk')
    have := ht.fresh _ _ h2
    omega
  have hnm : host.serial ∉ (a ++ b).filterMap fun h => h.serial? := by
    intro hm
    obtain ⟨k, hk, hks⟩ := List.mem_filterMap.mp hm
    obtain ⟨host', h1, _⟩ := ht.serves k hk
    rw [serial?_eq h1] at hks
    exact hnone k hk host' h1 (Option.some.inj hks)
  constructor
  · intro k hk
    rcases List.mem_append.mp hk with hk | hk
    · obtain ⟨host', h1, h2⟩ := ht.serves k (List.mem_append_left _ hk)
      exact ⟨host', h1, by rw [hw _ (hnone k (List.mem_append_left _ hk) host' h1)]; exact h2⟩
    · rcases List.mem_cons.mp hk with rfl | hk
      · exact ⟨host, hh, hs⟩
      · obtain ⟨host', h1, h2⟩ := ht.serves k (List.mem_append_right _ hk)
        exact ⟨host', h1, by rw [hw _ (hnone k (List.mem_append_right _ hk) host' h1)]; exact h2⟩
  · intro n S h1
    rw [filterMap_mid hh, List.mem_append, List.mem_cons]
    by_cases hne : n = host.serial
    · exact .inr (.inl hne)
    · have h2 := ht.complete n S (by rwa [hw n hne] at h1)
      rw [List.filterMap_append, List.mem_append] at h2
      tauto
  · rw [filterMap_mid hh, List.nodup_middle, List.nodup_cons, ← List.filterMap_append]
    exact ⟨hnm, ht.distinct⟩
  · intro n S h1
    by_cases hne : n = host.serial
    · omega
    · have := ht.fresh n S (by rwa [hw n hne] at h1)
      omega

/-- the host of one entry goes on with other targets, every other host is as before -/
theorem replace (ht : Tracks io (a ++ h :: b)) (hh : h.host = some host)
    (hh' : h'.host = some host') (hser : host'.serial = host.serial)
    (hn : io.nextHost ≤ io'.nextHost)
    (hw : ∀ n, n ≠ host.serial → io'.world n = io.world n)
    (hs : io'.world host.serial = some (targetIdSet h'.targets)) : Tracks io' (a ++ h' :: b) := by
  have hnm := serial_notMem hh ht
  constructor
  · intro k hk
    have other : ∀ k ∈ a ++ b, k ∈ a ++ h :: b → ∃ host, k.host = some host ∧
        io'.world host.serial = some (targetIdSet k.targets) := by
      intro k hk hk'
      obtain ⟨host'', h1, h2⟩ := ht.serves k hk'
      exact ⟨host'', h1, by rw [hw _ (ne_of_notMem hnm hk h1)]; exact h2⟩
    rcases List.mem_append.mp hk with hk | hk
    · exact other k (List.mem_append_left _ hk) (List.mem_append_left _ hk)
    · rcases List.mem_cons.mp hk with rfl | hk
      · exact ⟨host', hh', by rw [hser]; exact hs⟩
      · exact other k (List.mem_append_right _ hk)
          (List.mem_append_right _ (List.mem_cons_of_mem _ hk))
  · intro n S h1
    rw [filterMap_mid hh', hser, ← filterMap_mid hh]
    by_cases hne : n = host.serial
    · rw [filterMap_mid hh, hne]; simp
    · exact ht.complete n S (by rwa [hw n hne] at h1)
  · rw [filterMap_mid hh', hser, ← filterMap_mid hh]; exact ht.distinct
  · intro n S h1
    by_cases hne : n = host.serial
    · obtain ⟨host'', h2, h3⟩ := ht.serves h (by simp)
      obtain rfl : host'' = host := Option.some.inj (h2.symm.trans hh)
      have := ht.fresh _ _ h3
      omega
    · have := ht.fresh n S (by rwa [hw n hne] at h1)
      omega

/-! ## host operations -/

/-- the first host of a list is stopped -/
theorem stopHost (ht : Tracks io (a ++ h :: b)) : Tracks (LiberaLink.stopHost h io) (a ++ b) := by
  obtain ⟨host, hh, _⟩ := ht.serves h (by simp)
  have e : LiberaLink.stopHost h io = host.stop io := by simp [LiberaLink.stopHost, hh]
  rw [e]
  refine ht.remove hh (le_refl _) (fun n hn => ?_) ?_
  · simp [VirtualControllerHost.stop, HostCall.apply, hn]
  · simp [VirtualControllerHost.stop, HostCall.apply]

/-- every host of a part of the list is stopped -/
theorem stopHosts_mid (ht : Tracks io (a ++ (hosts ++ b))) :
    Tracks (LiberaLink.stopHosts hosts io) (a ++ b) := by
  induction hosts generalizing io with
  | nil => exact ht
  | cons h hosts ih => exact ih ht.stopHost

theorem stopHosts (ht : Tracks io (hosts ++ b)) : Tracks (LiberaLink.stopHosts hosts io) b :=
  stopHosts_mid (a := []) ht

end Tracks

@[simp] theorem stopHost_nextHost (h : ActiveVirtualControllerHost) (io : HostLog) :
    (stopHost h io).nextHost = io.nextHost := by
  unfold stopHost; cases h.host <;> rfl

@[simp] theorem stopHosts_nextHost (hosts : List ActiveVirtualControllerHost) (io : HostLog) :
    (stopHosts hosts io).nextHost = io.nextHost := by
  induction hosts generalizing io with
  | nil => rfl
  | cons h hosts ih => exact (ih (stopHost h io)).trans (stopHost_nextHost h io)

theorem unknownHostError_ne (id : String) : unknownHostError id ≠ "" := by
  unfold unknownHostError
  simp

/-- the two entries hold different hosts -/
def Apart (h h' : ActiveVirtualControllerHost) : Prop :=
  ∀ host, h.host = some host → ∀ host', h'.host = some host' → host.serial ≠ host'.serial

instance : Std.Symm Apart where
  symm _ _ hp a ha b hb e := hp b hb a ha e.symm

/-- the entries of a list that tracks the hosts hold different hosts -/
theorem Tracks.apart {io : HostLog} {hosts : List ActiveVirtualControllerHost} (ht : Tracks io hosts) :
    hosts.Pairwise Apart := by
  refine (List.pairwise_filterMap.mp ht.distinct).imp fun {h h'} hp host hh host' hh' => ?_
  exact hp _ (Tracks.serial?_eq hh) _ (Tracks.serial?_eq hh')

/-- what making a host can do -/
theorem createVirtualControllerHost_spec (env : Env) (reg : Registry) (id : String)
    (config : VirtualControllerHostConfig) (io : HostLog) :
    (∃ e io', createVirtualControllerHost env reg id config io = (.error e, io') ∧ e ≠ "" ∧
      io'.calls = io.calls ∧ io'.nextHost = io.nextHost) ∨
    (∃ host io', createVirtualControllerHost env reg id config io = (.ok host, io') ∧
      host.serial = io.nextHost ∧ host.config = config ∧ io'.calls = io.calls ∧
      io'.nextHost = io.nextHost + 1) := by
  unfold createVirtualControllerHost
  cases reg.registration id with
  | none => exact .inl ⟨unknownHostError id, io, rfl, unknownHostError_ne id, rfl, rfl⟩
  | some r =>
    by_cases h : env.makeHost io.ticks id config
    · exact .inr ⟨_, _, if_pos h, rfl, rfl, rfl, rfl⟩
    · have hne : "Virtual controller host factory for \"" ++ id ++ "\" returned null." ≠ "" := by
        simp
      exact .inl ⟨_, _, if_neg h, hne, rfl, rfl⟩

theorem startFailure_ne (g : PendingVirtualControllerHostGroup) (e : String) :
    startFailure g e ≠ "" := by
  unfold startFailure
  split
  · simp
  · assumption

/-- **What starting a group can do**: it fails and nothing new runs, or exactly one new host runs
and serves the group. -/
theorem startActiveHostGroup_spec (env : Env) (reg : Registry)
    (g : PendingVirtualControllerHostGroup) (slice : Nat) (io : HostLog) :
    (∃ e io', startActiveHostGroup env reg g slice io = (.error e, io') ∧ e ≠ "" ∧
      io'.world = io.world ∧ io.nextHost ≤ io'.nextHost) ∨
    (∃ host io', startActiveHostGroup env reg g slice io = (.ok (activeEntry g host), io') ∧
      host.serial = io.nextHost ∧ host.config = ⟨slice, g.options⟩ ∧
      io'.calls = io.calls ++ [.start host.serial (g.targets.map fun t => t.info.id) true] ∧
      io'.nextHost = io.nextHost + 1) := by
  unfold startActiveHostGroup
  rcases createVirtualControllerHost_spec env reg g.info.id ⟨slice, g.options⟩ io with
    ⟨e, io', h, he, hcalls, hn⟩ | ⟨host, io', h, hs, hc, hcalls, hn⟩
  · exact .inl ⟨e, io', by rw [h], he, by rw [HostLog.world, hcalls]; rfl, hn.ge⟩
  · rw [h]
    cases hr : env.startHost io'.ticks host (g.targets.map fun t => t.info.id) with
    | some err =>
      refine .inl ⟨startFailure g err, (host.start env g.targets io').2, ?_, startFailure_ne g err,
        ?_, ?_⟩
      · simp [VirtualControllerHost.start, hr]
      · have hw : io'.world = io.world := by rw [HostLog.world, hcalls]; rfl
        simp [VirtualControllerHost.start, hr, HostCall.apply, hw]
      · simp [VirtualControllerHost.start, hn]
    | none =>
      refine .inr ⟨host, (host.start env g.targets io').2, ?_, hs, hc, ?_, ?_⟩
      · simp [VirtualControllerHost.start, hr]
      · simp [VirtualControllerHost.start, hr, hcalls]
      · simp [VirtualControllerHost.start, hn]

/-- Every host is made and starts. -/
def Env.Willing (env : Env) : Prop :=
  (∀ n id config, env.makeHost n id config = true) ∧ ∀ n host ids, env.startHost n host ids = none

theorem startActiveHostGroup_willing {env : Env} (hw : env.Willing) {reg : Registry}
    {g : PendingVirtualControllerHostGroup} (hreg : reg.registration g.info.id ≠ none) (slice : Nat)
    (io : HostLog) : ∃ h io', startActiveHostGroup env reg g slice io = (.ok h, io') := by
  obtain ⟨r, hr⟩ := Option.ne_none_iff_exists'.mp hreg
  simp only [startActiveHostGroup, createVirtualControllerHost, hr, hw.1, if_true,
    VirtualControllerHost.start, hw.2]
  exact ⟨_, _, rfl⟩

theorem startActiveHostGroup_failed {env : Env} (hmake : ∀ n id config, env.makeHost n id config = true)
    {reg : Registry} {g : PendingVirtualControllerHostGroup}
    (hreg : reg.registration g.info.id ≠ none) {slice : Nat} {io io' : HostLog} {e : String}
    (hs : startActiveHostGroup env reg g slice io = (.error e, io')) :
    ∃ n ids, io'.calls = io.calls ++ [.start n ids false] := by
  obtain ⟨r, hr⟩ := Option.ne_none_iff_exists'.mp hreg
  simp only [startActiveHostGroup, createVirtualControllerHost, hr, hmake, if_true,
    VirtualControllerHost.start] at hs
  split at hs
  · rename_i heq
    simp only [Prod.mk.injEq] at hs heq
    rw [← hs.2, ← heq.2, heq.1]
    exact ⟨_, _, rfl⟩
  · cases hs

/-- a host that is not made or does not start is not called otherwise -/
theorem startActiveHostGroup_error_calls {env : Env} {reg : Registry}
    {g : PendingVirtualControllerHostGroup} {slice : Nat} {io io' : HostLog} {e : String}
    (hs : startActiveHostGroup env reg g slice io = (.error e, io')) :
    ∃ cs, io'.calls = io.calls ++ cs ∧ ∀ c ∈ cs, c.ok = false := by
  unfold startActiveHostGroup at hs
  rcases createVirtualControllerHost_spec env reg g.info.id ⟨slice, g.options⟩ io with
    ⟨e', io1, h, _, hc, _⟩ | ⟨host, io1, h, _, _, hc, _⟩
  · rw [h] at hs
    obtain rfl : io1 = io' := (Prod.mk.inj hs).2
    exact ⟨[], by rw [hc, List.append_nil], by simp⟩
  · simp only [h, VirtualControllerHost.start] at hs
    split at hs
    · rename_i heq
      simp only [Prod.mk.injEq] at hs heq
      refine ⟨[.start host.serial (g.targets.map fun t => t.info.id) false], ?_, by simp [HostCall.ok]⟩
      rw [← hs.2, ← heq.2, heq.1]
      simp [hc]
    · cases hs

/-- stopping hosts makes stop calls only -/
theorem stopHosts_calls (hosts : List ActiveVirtualControllerHost) (io : HostLog) :
    ∃ cs, (stopHosts hosts io).calls = io.calls ++ cs ∧ ∀ c ∈ cs, ∃ n, c = .stop n := by
  induction hosts generalizing io with
  | nil => exact ⟨[], by simp [stopHosts], by simp⟩
  | cons h hosts ih =>
    obtain ⟨cs, hcs, hst⟩ := ih (stopHost h io)
    have e : stopHosts (h :: hosts) io = stopHosts hosts (stopHost h io) := rfl
    cases hh : h.host with
    | none => exact ⟨cs, by rw [e, hcs, stopHost, hh], hst⟩
    | some host =>
      refine ⟨.stop host.serial :: cs, ?_, List.forall_mem_cons.mpr ⟨⟨_, rfl⟩, hst⟩⟩
      rw [e, hcs, stopHost, hh]
      simp [VirtualControllerHost.stop]

/-- `h` is the entry of a host started on the group `g` with this slice duration. -/
def Started (slice : Nat) (g : PendingVirtualControllerHostGroup) (h : ActiveVirtualControllerHost) :
    Prop := ∃ host, h = activeEntry g host ∧ host.config = ⟨slice, g.options⟩

theorem startActiveHostGroup_started {env : Env} {reg : Registry}
    {g : PendingVirtualControllerHostGroup} {slice : Nat} {io io' : HostLog}
    {h : ActiveVirtualControllerHost}
    (hs : startActiveHostGroup env reg g slice io = (.ok h, io')) : Started slice g h := by
  rcases startActiveHostGroup_spec env reg g slice io with
    ⟨e, io'', h1, _⟩ | ⟨host, io'', h1, _, hc, _⟩
  · rw [h1] at hs; cases hs
  · rw [h1] at hs
    obtain ⟨rfl, -⟩ : activeEntry g host = h ∧ io'' = io' := by simpa using hs
    exact ⟨host, rfl, hc⟩

theorem Tracks.startActiveHostGroup {env : Env} {reg : Registry}
    {g : PendingVirtualControllerHostGroup} {slice : Nat} {io io' : HostLog}
    {a b : List ActiveVirtualControllerHost} {h : ActiveVirtualControllerHost}
    (ht : Tracks io (a ++ b))
    (hs : LiberaLink.startActiveHostGroup env reg g slice io = (.ok h, io')) :
    Tracks io' (a ++ h :: b) := by
  rcases startActiveHostGroup_spec env reg g slice io with
    ⟨e, io'', h1, _⟩ | ⟨host, io'', h1, hser, _, hcalls, hn⟩
  · rw [h1] at hs; cases hs
  · rw [h1] at hs
    obtain ⟨rfl, rfl⟩ : activeEntry g host = h ∧ io'' = io' := by simpa using hs
    have hworld : io''.world = HostCall.apply io.world
        (.start host.serial (g.targets.map fun t => t.info.id) true) := by
      show worldAfter _ io''.calls = _
      rw [hcalls, worldAfter_append]; rfl
    refine ht.insert rfl (by omega) (by omega) (fun n hne => ?_) ?_
    · rw [hworld]; simp [HostCall.apply, hne]
    · rw [hworld]; simp [HostCall.apply, targetIdSet, activeEntry]

end LiberaLink
