import LiberaLink.Idn.Leases

/-!
# The sessions beside each other

What a message, the end of a connection and the housekeeping do to all the sessions of the server and
to its services, whatever state they are in.

* `Floor.Ok`, `Floor.Step`   what holds after any messages, and what an operation keeps of it;
* `step_message`, `step_cleanup`, `step_acknowledge`, `step_dropConnections`   the operations;
* `checkSessions_spec`, `cancelSessions_spec`, `serviceHousekeeping_spec`   the housekeeping.
-/

namespace LiberaLink.Idn
open Stepwise ODFSession

/-! ## the sessions of the server -/

/-- how often the sessions hold an inlet -/
def sessionsHold (sessions : List (Nat × ODFSession)) (i : Nat) (kind : InletKind) : Nat :=
  (sessions.map fun p => p.2.holds i kind).sum

/-- the sessions that belong to a connection -/
def attachedOf (sessions : List (Nat × ODFSession)) : List (Option Nat) :=
  (sessions.filter fun p => p.2.sessionState = .attached).map fun p => some p.1

/-- A session belongs to a connection, or was abandoned and has no open channel; and it has none before
its first message. -/
structure Settled (s : ODFSession) : Prop where
  state : s.sessionState = .attached ∨ s.sessionState = .abandoned ∧ s.openChannelCount = 0
  silent : s.inputTimeValid = false → s.openChannelCount = 0

/-- what holds of the sessions and services -/
structure Floor.Ok (f : Floor) : Prop where
  sessions : ∀ p ∈ f.sessions, p.2.Ok ∧ Settled p.2
  leases : ∀ i kind, sessionsHold f.sessions i kind = lent f.services i kind
  services : ServicesOk f.services
  numbers : (f.sessions.map Prod.fst).Nodup

/-- what an operation keeps that was handed the blocks `given` -/
structure Floor.Step (f : Floor) (given : List Nat) (f' : Floor) (freed : List Nat) : Prop where
  ok : f'.Ok
  blocks : (freed ++ heldBy f'.services).Perm (heldBy f.services ++ given)
  numbers : f'.sessions.map Prod.fst = f.sessions.map Prod.fst

section floor
variable {f f' : Floor} {i : Nat} {p : Nat × ODFSession} {s : ODFSession} {r : Served}
  {given given' freed freed' : List Nat}

theorem Floor.Step.refl (hf : f.Ok) : Floor.Step f given f given :=
  ⟨hf, List.perm_append_comm, rfl⟩

theorem Floor.Step.trans {f'' : Floor} (hs : Floor.Step f given f' freed)
    (hs' : Floor.Step f' given' f'' freed') :
    Floor.Step f (given ++ given') f'' (freed ++ freed') where
  ok := hs'.ok
  blocks := by
    refine List.perm_iff_count.mpr fun k => ?_
    have hcount := List.perm_iff_count.mp hs.blocks k
    have hcount' := List.perm_iff_count.mp hs'.blocks k
    simp only [List.count_append] at hcount hcount' ⊢
    omega
  numbers := hs'.numbers.trans hs.numbers

/-- what the other sessions hold -/
theorem sessionsHold_set (hp : f.sessions[i]? = some p) (s : ODFSession) (j : Nat) (kind : InletKind) :
    sessionsHold (f.sessions.set i (p.1, s)) j kind + p.2.holds j kind =
      sessionsHold f.sessions j kind + s.holds j kind := by
  obtain ⟨rest, hbefore, hafter⟩ := Typestate.sum_set (fun p => p.2.holds j kind) hp
  rw [sessionsHold, sessionsHold, hbefore, hafter]
  exact Nat.add_right_comm _ _ _

/-- a session beside the others -/
theorem Floor.Ok.good (hf : f.Ok) (hp : f.sessions[i]? = some p) :
    Good (fun j kind => sessionsHold f.sessions j kind - p.2.holds j kind) p.2 f.services where
  ok := (hf.sessions p (List.mem_of_getElem? hp)).1
  leases j kind := by
    have hset := sessionsHold_set hp .start j kind
    have hstart := holds_start j kind
    rw [← hf.leases j kind]
    omega
  services := hf.services

/-- an operation on one session, when it leaves it attached or without channels -/
theorem Floor.Ok.step (hf : f.Ok) (hp : f.sessions[i]? = some p)
    (hm : Moves (fun j kind => sessionsHold f.sessions j kind - p.2.holds j kind) f.services given s r)
    (hsettled : Settled s) :
    Floor.Step f given ⟨f.sessions.set i (p.1, s), r.services⟩ r.freed := by
  have hnumbers : (f.sessions.set i (p.1, s)).map Prod.fst = f.sessions.map Prod.fst := by
    obtain ⟨hlt, rfl⟩ := List.getElem?_eq_some_iff.mp hp
    rw [List.map_set]
    apply List.ext_getElem
    · simp
    · intro j hj _
      rw [List.getElem_set]
      split
      · next hij => subst hij; simp
      · rfl
  refine ⟨?_, hm.blocks, hnumbers⟩
  obtain ⟨hok, hleases, hservices⟩ := hm.good
  exact {
    sessions := fun q hq => by
      rcases List.mem_or_eq_of_mem_set hq with hold | rfl
      · exact hf.sessions q hold
      · exact ⟨hok, hsettled⟩
    leases := fun j kind => by
      have hset := sessionsHold_set hp s j kind
      have hbefore := (hf.good hp).leases j kind
      have hafter := hleases j kind
      have hlease := hf.leases j kind
      dsimp only at hbefore hafter ⊢
      omega
    services := hservices
    numbers := by
      show ((f.sessions.set i (p.1, s)).map Prod.fst).Nodup
      rw [hnumbers]
      exact hf.numbers }

/-- the session with a number -/
theorem findSession (hf : f.Ok) {number : Nat} (hp : (number, s) ∈ f.sessions) :
    ∃ i, (f.sessions.findIdx? fun p => p.1 = number) = some i ∧ f.sessions[i]? = some (number, s) := by
  obtain ⟨j, hj, hget⟩ := List.getElem_of_mem hp
  obtain ⟨i, hi⟩ : ∃ i, (f.sessions.findIdx? fun p => p.1 = number) = some i := by
    refine Option.isSome_iff_exists.mp ?_
    rw [List.findIdx?_isSome, List.any_eq_true]
    exact ⟨_, hp, by simp⟩
  obtain ⟨hlt, hfound, -⟩ := List.findIdx?_eq_some_iff_getElem.mp hi
  have hfound' : f.sessions[i].1 = number := by simpa using hfound
  -- the numbers differ
  obtain rfl : i = j := by
    have hinj := List.nodup_iff_injective_get.mp hf.numbers
    have hlt' : i < (f.sessions.map Prod.fst).length := by simpa using hlt
    have hj' : j < (f.sessions.map Prod.fst).length := by simpa using hj
    have heq : (⟨i, hlt'⟩ : Fin (f.sessions.map Prod.fst).length) = ⟨j, hj'⟩ := hinj (by simp [hfound', hget])
    exact congrArg Fin.val heq
  exact ⟨i, hi, List.getElem?_eq_some_iff.mpr ⟨hj, hget⟩⟩

end floor

/-! ### the state of a session -/

namespace ODFSession

/-- the state and the time of the session are what they were -/
structure Steady (s s' : ODFSession) : Prop where
  state : s'.sessionState = s.sessionState
  valid : s'.inputTimeValid = s.inputTimeValid
  time : s'.inputTimeUS = s.inputTimeUS

theorem Steady.refl (s : ODFSession) : Steady s s := ⟨rfl, rfl, rfl⟩

theorem connect_steady (s : ODFSession) (services : List IDNService) (id : Fin 64) (serviceID serviceMode : UInt8) :
    Steady s (s.connect services id serviceID serviceMode).1 := by
  rw [connect]
  dsimp only
  split
  · exact ⟨rfl, rfl, rfl⟩
  · split
    · exact ⟨rfl, rfl, rfl⟩
    · split <;> exact ⟨rfl, rfl, rfl⟩

theorem route_steady (s : ODFSession) (services : List IDNService) (id : Fin 64) (serviceID serviceMode : UInt8) :
    Steady s (s.route services id serviceID serviceMode).1 := by
  rw [route]
  dsimp only
  split
  · exact .refl s
  · obtain ⟨hstate, hvalid, htime⟩ := connect_steady (s.setChannel id
      { (if (s.channel id).connState = .connected then (s.channel id).releaseHandles services
        else (s.channel id, ⟨services, []⟩)).1 with connState := .unconnected })
      (if (s.channel id).connState = .connected then (s.channel id).releaseHandles services
        else (s.channel id, ⟨services, []⟩)).2.services id serviceID serviceMode
    exact ⟨hstate, hvalid, htime⟩

theorem processOpen_steady {s : ODFSession} {services : List IDNService} {t : TaxiBuffer}
    {p : ODFSession × Served} (hrun : s.processOpen services t = .ok p) : Steady s p.1 := by
  rw [processOpen] at hrun
  dsimp only at hrun
  have hroute : ∀ q : ODFSession × Served,
      q = (if t.sentFlags &&& 0x01 ≠ 0 then s.route services t.channel t.configServiceID t.configServiceMode
        else (s, ⟨services, []⟩)) → Steady s q.1 := by
    intro q hq
    split at hq
    · rw [hq]
      exact route_steady _ _ _ _ _
    · rw [hq]
      exact .refl s
  have hsteady := hroute _ rfl
  generalize (if t.sentFlags &&& 0x01 ≠ 0 then s.route services t.channel t.configServiceID t.configServiceMode
    else (s, ⟨services, []⟩)) = q at *
  split at hrun
  · cases hrun
  · split at hrun
    · cases hrun; exact ⟨hsteady.state, hsteady.valid, hsteady.time⟩
    · cases hrun; exact hsteady

/-- A message gives the session its time. -/
theorem processChannelMessage_input {s : ODFSession} {services : List IDNService} {t : TaxiBuffer}
    {p : ODFSession × Served} (hrun : s.processChannelMessage services t = .ok p) :
    p.1.sessionState = s.sessionState ∧ p.1.inputTimeValid = true ∧
      p.1.inputTimeUS = t.head.sourceRefTime := by
  rw [processChannelMessage] at hrun
  split at hrun
  · cases hrun; exact ⟨rfl, rfl, rfl⟩
  · split at hrun
    · obtain ⟨hstate, hvalid, htime⟩ := processOpen_steady hrun
      exact ⟨hstate, hvalid, htime⟩
    · split at hrun
      · cases hrun; exact ⟨rfl, rfl, rfl⟩
      · obtain ⟨hstate, hvalid, htime⟩ := processOpen_steady hrun
        exact ⟨hstate, hvalid, htime⟩

theorem clearPipelineEvents_session (s : ODFSession) (services : List IDNService) (id : Fin 64) :
    (s.clearPipelineEvents services id).2.1 = s.setEvents id (s.events id &&& channelClosed) := by
  rw [clearPipelineEvents]
  cases (s.channel id).serviceHnd with
  | none => rfl
  | some i =>
    cases (s.channel id).conduitHnd with
    | none => rfl
    | some kind => rfl

theorem cancelAll_state (s : ODFSession) (services : List IDNService) (ids : List (Fin 64)) :
    (s.cancelAll services ids).1.sessionState = s.sessionState := by
  induction ids generalizing s services with
  | nil => rfl
  | cons id ids ih =>
    refine (ih _ _).trans ?_
    rw [cancel]
    split <;> rfl

theorem reset_state (s : ODFSession) (services : List IDNService) :
    (s.reset services).1.sessionState = s.sessionState := by
  rw [reset]
  generalize List.finRange 64 = ids
  exact cancelAll_state s services ids

theorem cancelSession_state (s : ODFSession) (services : List IDNService) :
    (s.cancelSession services).1.sessionState = .abandoned := by
  rw [cancelSession]

end ODFSession

/-! ### the sessions that belong to a connection -/

section attached
variable {sessions : List (Nat × ODFSession)} {p : Nat × ODFSession} {i : Nat} {s : ODFSession}

theorem attachedOf_split (hp : sessions[i]? = some p) (s : ODFSession) :
    attachedOf (sessions.set i (p.1, s)) =
      attachedOf (sessions.take i) ++ attachedOf [(p.1, s)] ++ attachedOf (sessions.drop (i + 1)) := by
  have hlt := (List.getElem?_eq_some_iff.mp hp).1
  rw [List.set_eq_take_append_cons_drop, if_pos hlt]
  simp [attachedOf, List.filter_cons]
  split <;> simp

/-- a session that keeps its state -/
theorem attachedOf_keep (hp : sessions[i]? = some p) (hstate : s.sessionState = p.2.sessionState) :
    attachedOf (sessions.set i (p.1, s)) = attachedOf sessions := by
  have hlt := (List.getElem?_eq_some_iff.mp hp).1
  have hself : sessions.set i (p.1, p.2) = sessions := by
    obtain ⟨-, rfl⟩ := List.getElem?_eq_some_iff.mp hp
    exact List.set_getElem_self hlt
  have hone : attachedOf [(p.1, s)] = attachedOf [(p.1, p.2)] := by
    simp only [attachedOf, List.filter_cons, List.filter_nil, hstate]
    split <;> rfl
  rw [attachedOf_split hp, hone, ← attachedOf_split hp, hself]

/-- a session that is abandoned -/
theorem attachedOf_abandon (hp : sessions[i]? = some p) (hattached : p.2.sessionState = .attached)
    (hstate : s.sessionState = .abandoned) :
    (some p.1 :: attachedOf (sessions.set i (p.1, s))).Perm (attachedOf sessions) := by
  have hlt := (List.getElem?_eq_some_iff.mp hp).1
  have hself : sessions.set i (p.1, p.2) = sessions := by
    obtain ⟨-, rfl⟩ := List.getElem?_eq_some_iff.mp hp
    exact List.set_getElem_self hlt
  have hnone : attachedOf [(p.1, s)] = [] := by simp [attachedOf, hstate]
  have hone : attachedOf [(p.1, p.2)] = [some p.1] := by simp [attachedOf, hattached]
  conv_rhs => rw [← hself]
  rw [attachedOf_split hp, attachedOf_split hp, hnone, hone, List.append_nil]
  simp only [List.append_assoc, List.singleton_append]
  exact (List.perm_middle).symm

theorem mem_attachedOf {number : Nat} (h : some number ∈ attachedOf sessions) :
    ∃ s, (number, s) ∈ sessions ∧ s.sessionState = .attached := by
  obtain ⟨⟨k, s⟩, hmem, hk⟩ := List.mem_map.mp h
  obtain ⟨hin, hstate⟩ := List.mem_filter.mp hmem
  obtain rfl : k = number := Option.some.inj hk
  exact ⟨s, hin, by simpa using hstate⟩

end attached

/-! ## one event -/

section floor
variable {f : Floor} {number : Nat} {t : TaxiBuffer}

/-- a message for a session that belongs to a connection -/
theorem step_message (hf : f.Ok) (hnumber : some number ∈ attachedOf f.sessions)
    {r : Floor × List Nat} (hrun : f.message number t = .ok r) :
    Floor.Step f t.ids r.1 r.2 ∧ attachedOf r.1.sessions = attachedOf f.sessions := by
  obtain ⟨s, hs, hattached⟩ := mem_attachedOf hnumber
  obtain ⟨i, hfind, hp⟩ := findSession hf hs
  rw [Floor.message, hfind] at hrun
  dsimp only at hrun
  rw [List.getD_eq_getElem?_getD, hp, Option.getD_some] at hrun
  split at hrun
  · cases hrun
  · next q hq =>
    cases hrun
    obtain ⟨hstate, hvalid, -⟩ := processChannelMessage_input hq
    have hmoves := moves_processChannelMessage (hf.good hp) hq
    have hsettled : Settled q.1 :=
      ⟨.inl (hstate.trans hattached), fun hnone => by rw [hvalid] at hnone; cases hnone⟩
    exact ⟨hf.step hp hmoves hsettled, attachedOf_keep hp hstate⟩

/-- The session of a connection that ends is abandoned. -/
theorem step_cleanup (hf : f.Ok) (hnumber : some number ∈ attachedOf f.sessions) :
    Floor.Step f [] (f.cleanup (some number) cancelSession).1 (f.cleanup (some number) cancelSession).2 ∧
      (some number :: attachedOf (f.cleanup (some number) cancelSession).1.sessions).Perm
        (attachedOf f.sessions) := by
  obtain ⟨s, hs, hattached⟩ := mem_attachedOf hnumber
  obtain ⟨i, hfind, hp⟩ := findSession hf hs
  obtain ⟨hmoves, hcount, -⟩ := moves_cancelSession (hf.good hp)
  have hrun : f.cleanup (some number) cancelSession =
      (⟨f.sessions.set i (number, (s.cancelSession f.services).1), (s.cancelSession f.services).2.services⟩,
        (s.cancelSession f.services).2.freed) := by
    rw [Floor.cleanup, Floor.onSession, hfind]
    dsimp only
    rw [List.getD_eq_getElem?_getD, hp, Option.getD_some]
  rw [hrun]
  have hstate := cancelSession_state s f.services
  generalize s.cancelSession f.services = q at *
  exact ⟨hf.step hp hmoves ⟨.inr ⟨hstate, hcount⟩, fun _ => hcount⟩, attachedOf_abandon hp hattached hstate⟩

/-- an acknowledgement changes nothing but the events -/
theorem step_acknowledge (hf : f.Ok) (c : IDNHelloConnection) (status : Nat → RealtimeStatus)
    (id : Option (Fin 64)) (resultCode : UInt8) :
    Floor.Step f [] (acknowledge f c status id resultCode).2.2 [] ∧
      attachedOf (acknowledge f c status id resultCode).2.2.sessions = attachedOf f.sessions := by
  rw [acknowledge]
  dsimp only
  split
  · exact ⟨.refl hf, rfl⟩
  · next i hi =>
    obtain ⟨number, -, hfind⟩ := Option.bind_eq_some_iff.mp hi
    obtain ⟨hlt, -, -⟩ := List.findIdx?_eq_some_iff_getElem.mp hfind
    have hp : f.sessions[i]? = some f.sessions[i] := List.getElem?_eq_getElem hlt
    rw [List.getD_eq_getElem?_getD, hp, Option.getD_some]
    have hgood := hf.good hp
    have hsettled := (hf.sessions _ (List.mem_of_getElem? hp)).2
    cases id with
    | none => exact ⟨hf.step (r := ⟨f.services, []⟩) hp (.refl _ hgood) hsettled, attachedOf_keep hp rfl⟩
    | some id =>
      obtain ⟨hgood', hheld⟩ := moves_clearPipelineEvents hgood id
      have hsession := clearPipelineEvents_session f.sessions[i].2 f.services id
      refine ⟨hf.step (r := ⟨(f.sessions[i].2.clearPipelineEvents f.services id).2.2, []⟩) hp
        ⟨hgood', by rw [List.append_nil]; exact hheld⟩ ?_, attachedOf_keep hp ?_⟩
      · rw [hsession]
        exact ⟨hsettled.state, hsettled.silent⟩
      · rw [hsession]
        rfl

/-- Connections end, each with its session.  `others` belong to connections that are not in the list. -/
theorem step_dropConnections (hf : f.Ok) (drop : IDNHelloConnection → Bool) (others : List (Option Nat))
    (connections : List IDNHelloConnection)
    (hsome : ∀ c ∈ connections, c.session ≠ none)
    (hlinks : (others ++ connections.map IDNHelloConnection.session).Perm (attachedOf f.sessions)) :
    let d := IDNServer.dropConnections f drop connections
    Floor.Step f [] d.2.1 d.2.2 ∧ d.1 = connections.filter (fun c => !drop c) ∧
      (others ++ d.1.map IDNHelloConnection.session).Perm (attachedOf d.2.1.sessions) := by
  induction connections generalizing f others with
  | nil => exact ⟨.refl hf, rfl, hlinks⟩
  | cons c cs ih =>
    intro d
    have hsome' : ∀ c ∈ cs, c.session ≠ none := fun c' hc' => hsome c' (List.mem_cons_of_mem _ hc')
    cases hdrop : drop c with
    | true =>
      obtain ⟨number, hnumber⟩ := Option.ne_none_iff_exists'.mp (hsome c List.mem_cons_self)
      have hmem : some number ∈ attachedOf f.sessions := hlinks.subset (by simp [hnumber])
      obtain ⟨hstep, hperm⟩ := step_cleanup hf hmem
      have hlinks' : (others ++ cs.map IDNHelloConnection.session).Perm
          (attachedOf (f.cleanup (some number) cancelSession).1.sessions) := by
        refine (List.perm_cons (some number)).mp ?_
        refine List.Perm.trans ?_ hperm.symm
        refine List.Perm.trans ?_ hlinks
        rw [List.map_cons, hnumber]
        exact List.perm_middle.symm
      obtain ⟨hstep', hkept, hlinked⟩ := ih hstep.ok others hsome' hlinks'
      have hd : d = ((IDNServer.dropConnections (f.cleanup (some number) cancelSession).1 drop cs).1,
          (IDNServer.dropConnections (f.cleanup (some number) cancelSession).1 drop cs).2.1,
          (f.cleanup (some number) cancelSession).2 ++
            (IDNServer.dropConnections (f.cleanup (some number) cancelSession).1 drop cs).2.2) := by
        show IDNServer.dropConnections f drop (c :: cs) = _
        rw [IDNServer.dropConnections, if_pos hdrop, hnumber]
        rfl
      rw [hd]
      refine ⟨hstep.trans hstep', ?_, hlinked⟩
      rw [List.filter_cons, hdrop]
      exact hkept
    | false =>
      have hlinks' : ((others ++ [c.session]) ++ cs.map IDNHelloConnection.session).Perm
          (attachedOf f.sessions) := by simpa using hlinks
      obtain ⟨hstep, hkept, hlinked⟩ := ih hf (others ++ [c.session]) hsome' hlinks'
      have hd : d = (c :: (IDNServer.dropConnections f drop cs).1,
          (IDNServer.dropConnections f drop cs).2.1, (IDNServer.dropConnections f drop cs).2.2) := by
        show IDNServer.dropConnections f drop (c :: cs) = _
        rw [IDNServer.dropConnections, if_neg (by rw [hdrop]; exact Bool.false_ne_true)]
      rw [hd]
      refine ⟨hstep, ?_, by simpa using hlinked⟩
      rw [List.filter_cons, hdrop]
      exact congrArg (c :: ·) hkept

end floor

theorem closed_of_noChannels {s : ODFSession} (hok : s.Ok) (hcount : s.openChannelCount = 0) (id : Fin 64) :
    s.channel id = .closed := by
  have htotal : (s.channels.toList.map IdnChannel.opened).sum = 0 := hok.count.symm.trans hcount
  have hzero := List.sum_eq_zero_iff.mp htotal (s.channel id).opened
    (List.mem_map_of_mem (mem_channels s id))
  refine (hok.channels id).closed (Bool.eq_false_iff.mpr fun hopen => ?_)
  rw [IdnChannel.opened, if_pos hopen] at hzero
  cases hzero

/-- a session without an open channel holds nothing -/
theorem holds_of_noChannels {s : ODFSession} (hok : s.Ok) (hcount : s.openChannelCount = 0) (i : Nat)
    (kind : InletKind) : s.holds i kind = 0 :=
  (hok.holds_nothing fun id => by rw [closed_of_noChannels hok hcount id]; rfl).2 i kind

/-- What a list of sessions keeps, when other sessions hold `rest`. -/
structure SessionsOk (rest : Nat → InletKind → Nat) (ps : List (Nat × ODFSession))
    (services : List IDNService) : Prop where
  sessions : ∀ p ∈ ps, p.2.Ok ∧ Settled p.2
  leases : ∀ i kind, sessionsHold ps i kind + rest i kind = lent services i kind
  services : ServicesOk services

section sessions
variable {ps : List (Nat × ODFSession)} {services : List IDNService}
  {rest : Nat → InletKind → Nat} {p : Nat × ODFSession} {s : ODFSession}

theorem sessionsHold_cons (p : Nat × ODFSession) (ps : List (Nat × ODFSession)) (i : Nat) (kind : InletKind) :
    sessionsHold (p :: ps) i kind = p.2.holds i kind + sessionsHold ps i kind := rfl

theorem Floor.Ok.sessionsOk {f : Floor} (hf : f.Ok) :
    SessionsOk (fun _ _ => 0) f.sessions f.services := ⟨hf.sessions, hf.leases, hf.services⟩

/-- the first of the sessions -/
theorem SessionsOk.good (hs : SessionsOk rest (p :: ps) services) :
    Good (fun i kind => sessionsHold ps i kind + rest i kind) p.2 services where
  ok := (hs.sessions p List.mem_cons_self).1
  leases i kind := by rw [← hs.leases i kind, sessionsHold_cons, Nat.add_assoc]
  services := hs.services

/-- the others, after the first one -/
theorem SessionsOk.tail {services' : List IDNService} (hs : SessionsOk rest (p :: ps) services)
    (hg : Good (fun i kind => sessionsHold ps i kind + rest i kind) s services') :
    SessionsOk (fun i kind => s.holds i kind + rest i kind) ps services' where
  sessions q hq := hs.sessions q (List.mem_cons_of_mem _ hq)
  leases i kind := by
    have hleases := hg.leases i kind
    omega
  services := hg.services

/-- nothing was heard of the session for more than a second, or ever -/
def Recent (envTimeUS : UInt32) (s : ODFSession) : Prop :=
  s.inputTimeValid = true ∧ timedOut envTimeUS s.inputTimeUS = false ∨ s.openChannelCount = 0

/-- An abandoned session is deleted, and holds nothing; another one goes on. -/
theorem checkTeardown_cases (hok : s.Ok) (hs : Settled s) (hg : Good rest s services) (envTimeUS : UInt32) :
    (s.checkTeardown services envTimeUS).1 = true ∧ s.sessionState = .abandoned ∧
        (∀ i kind, (s.checkTeardown services envTimeUS).2.1.holds i kind = 0) ∨
      (s.checkTeardown services envTimeUS).1 = false ∧ s.sessionState = .attached ∧
        (s.checkTeardown services envTimeUS).2.1.sessionState = .attached ∧
        Settled (s.checkTeardown services envTimeUS).2.1 ∧
        Recent envTimeUS (s.checkTeardown services envTimeUS).2.1 := by
  rw [checkTeardown]
  rcases hs.state with hattached | ⟨habandoned, hcount⟩
  · right
    rw [if_neg (by rw [hattached]; decide)]
    dsimp only
    split
    · have hstate := (reset_state s services).trans hattached
      obtain ⟨-, hcount, -⟩ := moves_reset hg
      generalize s.reset services = r at *
      exact ⟨by simp [hstate], hattached, hstate, ⟨.inl hstate, fun _ => hcount⟩, .inr hcount⟩
    · next hrecent =>
      refine ⟨by simp [hattached], hattached, hattached, hs, ?_⟩
      cases hvalid : s.inputTimeValid with
      | true => exact .inl ⟨hvalid, Bool.eq_false_iff.mpr fun h => hrecent ⟨hvalid, h⟩⟩
      | false => exact .inr (hs.silent hvalid)
  · left
    rw [if_pos habandoned]
    exact ⟨rfl, habandoned, holds_of_noChannels hok hcount⟩

/-- The sessions that are left belong to connections, and hold what they held or, when they were silent,
nothing. -/
theorem checkSessions_spec (envTimeUS : UInt32) (hs : SessionsOk rest ps services) :
    let c := IDNServer.checkSessions services envTimeUS ps
    SessionsOk rest c.1 c.2.services ∧ (c.2.freed ++ heldBy c.2.services).Perm (heldBy services) ∧
      (c.1.map Prod.fst).Sublist (ps.map Prod.fst) ∧ attachedOf c.1 = attachedOf ps ∧
      ∀ q ∈ c.1, q.2.sessionState = .attached ∧ Recent envTimeUS q.2 := by
  induction ps generalizing services rest with
  | nil => exact ⟨hs, List.Perm.refl _, List.Sublist.refl _, rfl, fun q hq => by cases hq⟩
  | cons p ps ih =>
    intro c
    obtain ⟨hok, hsettled⟩ := hs.sessions p List.mem_cons_self
    obtain ⟨hgood, hblocks⟩ := moves_checkTeardown hs.good envTimeUS
    have hcases := checkTeardown_cases hok hsettled hs.good envTimeUS
    have hc : c = (if (p.2.checkTeardown services envTimeUS).1 then
        (IDNServer.checkSessions (p.2.checkTeardown services envTimeUS).2.2.services envTimeUS ps).1
        else (p.1, (p.2.checkTeardown services envTimeUS).2.1) ::
          (IDNServer.checkSessions (p.2.checkTeardown services envTimeUS).2.2.services envTimeUS ps).1,
        ⟨(IDNServer.checkSessions (p.2.checkTeardown services envTimeUS).2.2.services envTimeUS ps).2.services,
          (p.2.checkTeardown services envTimeUS).2.2.freed ++
            (IDNServer.checkSessions (p.2.checkTeardown services envTimeUS).2.2.services envTimeUS ps).2.freed⟩) := rfl
    rw [hc]
    generalize p.2.checkTeardown services envTimeUS = r at *
    obtain ⟨hleft, hheld, hsub, hattached, hall⟩ := ih (hs.tail hgood)
    generalize IDNServer.checkSessions r.2.2.services envTimeUS ps = c' at *
    have hperm : ((r.2.2.freed ++ c'.2.freed) ++ heldBy c'.2.services).Perm (heldBy services) := by
      rw [List.append_assoc]
      rw [List.append_nil] at hblocks
      exact (hheld.append_left _).trans hblocks
    rcases hcases with ⟨hdelete, habandoned, hnothing⟩ | ⟨hkeep, hwas, hstate, hsettled', hrecent⟩
    · rw [if_pos hdelete]
      refine ⟨⟨hleft.sessions, fun i kind => ?_, hleft.services⟩, hperm, hsub.cons _, ?_, hall⟩
      · have hleases := hleft.leases i kind
        rw [hnothing] at hleases
        show sessionsHold c'.1 i kind + rest i kind = lent c'.2.services i kind
        omega
      · rw [hattached]
        simp [attachedOf, habandoned]
    · rw [if_neg (by rw [hkeep]; exact Bool.false_ne_true)]
      refine ⟨⟨fun q hq => ?_, fun i kind => ?_, hleft.services⟩, hperm, hsub.cons_cons _, ?_, fun q hq => ?_⟩
      · rcases List.mem_cons.mp hq with rfl | hq
        · exact ⟨hgood.ok, hsettled'⟩
        · exact hleft.sessions q hq
      · have hleases := hleft.leases i kind
        rw [sessionsHold_cons]
        dsimp only
        omega
      · rw [attachedOf, attachedOf] at hattached ⊢
        simp only [List.filter_cons, hstate, hwas, decide_true, if_true, List.map_cons]
        exact congrArg (some p.1 :: ·) hattached
      · rcases List.mem_cons.mp hq with rfl | hq
        · exact ⟨hstate, hrecent⟩
        · exact hall q hq

/-- Sessions that are all cancelled hold nothing. -/
theorem cancelSessions_spec (hs : SessionsOk rest ps services) :
    let c := IDNServer.cancelSessions services ps
    (∀ i kind, rest i kind = lent c.services i kind) ∧ ServicesOk c.services ∧
      (c.freed ++ heldBy c.services).Perm (heldBy services) := by
  induction ps generalizing services with
  | nil =>
    refine ⟨fun i kind => ?_, hs.services, List.Perm.refl _⟩
    have hleases := hs.leases i kind
    rwa [show sessionsHold [] i kind = 0 from rfl, Nat.zero_add] at hleases
  | cons p ps ih =>
    intro c
    obtain ⟨⟨hgood, hblocks⟩, -, hnothing⟩ := moves_cancelSession hs.good
    have hc : c = ⟨(IDNServer.cancelSessions (p.2.cancelSession services).2.services ps).services,
        (p.2.cancelSession services).2.freed ++
          (IDNServer.cancelSessions (p.2.cancelSession services).2.services ps).freed⟩ := rfl
    rw [hc]
    generalize p.2.cancelSession services = r at *
    have htail : SessionsOk rest ps r.2.services := by
      obtain ⟨hsessions, hleases, hservices⟩ := hs.tail hgood
      refine ⟨hsessions, fun i kind => ?_, hservices⟩
      have hl := hleases i kind
      rw [hnothing] at hl
      omega
    obtain ⟨hleases, hservices, hheld⟩ := ih htail
    refine ⟨hleases, hservices, ?_⟩
    dsimp only
    rw [List.append_assoc]
    rw [List.append_nil] at hblocks
    exact (hheld.append_left _).trans hblocks

end sessions

/-- The housekeeping of the services lends nothing and takes nothing back. -/
theorem serviceHousekeeping_spec (shutdownFlag : Bool) (services : List IDNService)
    (hok : ServicesOk services)
    (hpolling : shutdownFlag = true → ∀ s ∈ services, s.lapro.output.polling = false) (chained : List Bool) :
    let k := IDNServer.serviceHousekeeping shutdownFlag services chained
    ServicesOk k.services ∧ (∀ i kind, lent k.services i kind = lent services i kind) ∧
      (k.freed ++ heldBy k.services).Perm (heldBy services) := by
  induction services generalizing chained with
  | nil => exact ⟨hok, fun _ _ => rfl, List.Perm.refl _⟩
  | cons x xs ih =>
    intro k
    obtain ⟨hi, hquiet⟩ := hok x List.mem_cons_self
    obtain ⟨hservices, hlent, hheld⟩ := ih (fun y hy => hok y (List.mem_cons_of_mem _ hy))
      (fun h y hy => hpolling h y (List.mem_cons_of_mem _ hy)) chained.tail
    obtain ⟨hi', hblocks, -⟩ := LaproService.stepOk_housekeeping hi (chained.headD false)
      fun h => hpolling h x List.mem_cons_self
    have hk : k = ⟨{ x with lapro := (x.lapro.housekeeping shutdownFlag (chained.headD false)).1 } ::
          (IDNServer.serviceHousekeeping shutdownFlag xs chained.tail).services,
        (x.lapro.housekeeping shutdownFlag (chained.headD false)).2 ++
          (IDNServer.serviceHousekeeping shutdownFlag xs chained.tail).freed⟩ := rfl
    have hsame : (x.lapro.housekeeping shutdownFlag (chained.headD false)).1.currentInlet =
        x.lapro.currentInlet := rfl
    rw [hk]
    refine ⟨fun y hy => ?_, fun i kind => ?_, List.perm_iff_count.mpr fun b => ?_⟩
    · rcases List.mem_cons.mp hy with rfl | hy
      · exact ⟨hi', hquiet⟩
      · exact hservices y hy
    · cases i with
      | zero => rfl
      | succ i => exact hlent i kind
    · have hcount := List.perm_iff_count.mp hblocks b
      have hcount' := List.perm_iff_count.mp hheld b
      simp only [heldBy, List.flatMap_cons, List.count_append, List.count_nil] at hcount hcount' ⊢
      omega

end LiberaLink.Idn
