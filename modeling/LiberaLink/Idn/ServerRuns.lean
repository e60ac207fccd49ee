import LiberaLink.Idn.Floor

/-!
# Runs of the IDN server

Whatever datagrams come, from whatever clients, and whenever the housekeeping runs beside the adapters:

* `server_leases`     **an inlet is lent if and only if one channel holds it**, and no other does;
* `server_links`      **each connection has a session of its own**, and each client one connection;
* `server_custody`    **every datagram is freed once**, or is in a queue or a frame;
* `server_teardown`   **what is left after the housekeeping**;
* `server_shutdown`   **what is left at the end**.

`IDNServer.Ok` is what holds after any events, with the lemma that every event keeps it.
-/

namespace LiberaLink.Idn
open Numeric ODFSession

/-! ## the server -/

/-- What holds of the server after any events. -/
structure IDNServer.Ok (srv : IDNServer) : Prop where
  floor : srv.toFloor.Ok
  links : (srv.connections.map IDNHelloConnection.session).Perm (attachedOf srv.sessions)
  clients : (srv.connections.map fun c => (c.clientAddr, c.clientGroup)).Nodup
  fresh : ∀ p ∈ srv.sessions, p.1 < srv.sessionCount

/-- what an event keeps that was handed the blocks `given` -/
structure IDNServer.Step (srv : IDNServer) (given : List Nat) (srv' : IDNServer)
    (freed : List Nat) : Prop where
  ok : srv'.Ok
  blocks : (freed ++ heldBy srv'.services).Perm (heldBy srv.services ++ given)

/-- the connection is that of the same client, with the same session -/
structure IDNHelloConnection.Same (c c' : IDNHelloConnection) : Prop where
  clientAddr : c'.clientAddr = c.clientAddr
  clientGroup : c'.clientGroup = c.clientGroup
  session : c'.session = c.session

section packet
variable {f : Floor} {number : Nat} {c : IDNHelloConnection} {t : TaxiBuffer}
  {r : IDNHelloConnection × Floor × List Nat}

theorem step_processStreamMessage (hf : f.Ok) (hc : c.session = some number)
    (hnumber : some number ∈ attachedOf f.sessions) (hrun : processStreamMessage f c t = .ok r) :
    Floor.Step f t.ids r.2.1 r.2.2 ∧ attachedOf r.2.1.sessions = attachedOf f.sessions ∧ c.Same r.1 := by
  have hdropped : Floor.Step f t.ids f t.ids :=
    ⟨hf, List.perm_append_comm, rfl⟩
  rw [processStreamMessage] at hrun
  split at hrun
  · cases hrun; exact ⟨hdropped, rfl, ⟨rfl, rfl, rfl⟩⟩
  · rw [hc] at hrun
    dsimp only at hrun
    split at hrun
    · cases hrun
    · next q hq =>
      cases hrun
      obtain ⟨hstep, hattached⟩ := step_message hf hnumber hq
      exact ⟨hstep, hattached, ⟨rfl, rfl, rfl⟩⟩

theorem same_checkSequence (c : IDNHelloConnection) (recvSequence : UInt16) :
    c.Same (c.checkSequence recvSequence) := by
  rw [IDNHelloConnection.checkSequence]
  dsimp only
  split <;> exact ⟨rfl, rfl, rfl⟩

theorem IDNHelloConnection.Same.trans {c' c'' : IDNHelloConnection} (hs : c.Same c') (hs' : c'.Same c'') :
    c.Same c'' :=
  ⟨hs'.clientAddr.trans hs.clientAddr, hs'.clientGroup.trans hs.clientGroup, hs'.session.trans hs.session⟩

theorem step_processRtPacket (hf : f.Ok) (hc : c.session = some number)
    (hnumber : some number ∈ attachedOf f.sessions) (hrun : processRtPacket f c t = .ok r) :
    Floor.Step f t.ids r.2.1 r.2.2 ∧ attachedOf r.2.1.sessions = attachedOf f.sessions ∧ c.Same r.1 := by
  have hsequence := same_checkSequence c t.packetSequence
  rw [processRtPacket] at hrun
  split at hrun
  · cases hrun
    exact ⟨⟨hf, List.perm_append_comm, rfl⟩, rfl, hsequence⟩
  · obtain ⟨hstep, hattached, hsame⟩ :=
      step_processStreamMessage hf (hsequence.session.trans hc) hnumber hrun
    exact ⟨hstep, hattached, hsequence.trans hsame⟩

theorem same_acknowledge (f : Floor) (c : IDNHelloConnection) (status : Nat → RealtimeStatus)
    (id : Option (Fin 64)) (resultCode : UInt8) : c.Same (acknowledge f c status id resultCode).2.1 := by
  rw [acknowledge]
  dsimp only
  split <;> exact ⟨rfl, rfl, rfl⟩

end packet

namespace IDNServer

variable {srv : IDNServer} {i : Nat} {c c' : IDNHelloConnection} {t : TaxiBuffer} {f : Floor}
  {given freed : List Nat}

/-- what is kept of an event that only frees its datagram -/
theorem Step.drop (hs : srv.Ok) (given : List Nat) : Step srv given srv given :=
  ⟨hs, List.perm_append_comm⟩

/-- the session of a connection -/
theorem Ok.session (hs : srv.Ok) (hc : c ∈ srv.connections) :
    ∃ number, c.session = some number ∧ some number ∈ attachedOf srv.sessions := by
  have hmem := hs.links.subset (List.mem_map_of_mem hc)
  obtain ⟨p, -, hp⟩ := List.mem_map.mp hmem
  exact ⟨p.1, hp.symm, hp.symm ▸ hmem⟩

theorem Ok.freshOf (hs : srv.Ok) (hnumbers : f.sessions.map Prod.fst = srv.sessions.map Prod.fst) :
    ∀ p ∈ f.sessions, p.1 < srv.sessionCount := by
  intro p hp
  have hmem : p.1 ∈ srv.sessions.map Prod.fst := hnumbers ▸ List.mem_map_of_mem hp
  obtain ⟨q, hq, hqp⟩ := List.mem_map.mp hmem
  exact hqp ▸ hs.fresh q hq

/-- a connection that goes on -/
theorem Step.set (hs : srv.Ok) (hc : srv.connections[i]? = some c) (hsame : c.Same c')
    (hstep : Floor.Step srv.toFloor given f freed) (hattached : attachedOf f.sessions = attachedOf srv.sessions) :
    Step srv given { srv with toFloor := f, connections := srv.connections.set i c' } freed := by
  obtain ⟨hlt, rfl⟩ := List.getElem?_eq_some_iff.mp hc
  have hmap : ∀ {β : Type} (g : IDNHelloConnection → β), g c' = g srv.connections[i] →
      (srv.connections.set i c').map g = srv.connections.map g := by
    intro β g hg
    rw [List.map_set, hg, ← List.getElem_map (f := g) (h := by simpa using hlt), List.set_getElem_self]
  refine ⟨⟨hstep.ok, ?_, ?_, hs.freshOf hstep.numbers⟩, hstep.blocks⟩
  · show ((srv.connections.set i c').map _).Perm (attachedOf f.sessions)
    rw [hmap _ hsame.session, hattached]
    exact hs.links
  · show ((srv.connections.set i c').map _).Nodup
    rw [hmap _ (by rw [hsame.clientAddr, hsame.clientGroup])]
    exact hs.clients

/-- a connection that ends -/
theorem Step.erase (hs : srv.Ok) (hc : srv.connections[i]? = some c) (hsame : c.Same c')
    (hstep : Floor.Step srv.toFloor given f freed) (hattached : attachedOf f.sessions = attachedOf srv.sessions) :
    Step srv given
      { srv with
        toFloor := (f.cleanup c'.session cancelSession).1
        connections := srv.connections.eraseIdx i }
      (freed ++ (f.cleanup c'.session cancelSession).2) := by
  obtain ⟨number, hnumber, hmem⟩ := hs.session (List.mem_of_getElem? hc)
  obtain ⟨hcleanup, hperm⟩ := step_cleanup hstep.ok (hattached ▸ hmem)
  have hboth := hstep.trans hcleanup
  rw [List.append_nil] at hboth
  rw [hsame.session, hnumber]
  obtain ⟨hlt, rfl⟩ := List.getElem?_eq_some_iff.mp hc
  refine ⟨⟨hboth.ok, ?_, ?_, hs.freshOf hboth.numbers⟩, hboth.blocks⟩
  · have herase := (List.getElem_cons_eraseIdx_perm hlt).map IDNHelloConnection.session
    rw [List.map_cons, hnumber] at herase
    have hlinks : (some number :: (srv.connections.eraseIdx i).map IDNHelloConnection.session).Perm
        (some number :: attachedOf (f.cleanup (some number) cancelSession).1.sessions) := by
      refine herase.trans (hs.links.trans ?_)
      rw [← hattached]
      exact hperm.symm
    exact (List.perm_cons (some number)).mp hlinks
  · exact hs.clients.sublist ((List.eraseIdx_sublist srv.connections i).map _)

/-- a new client -/
theorem ok_openConnection (hs : srv.Ok) {addr : SockAddr} {group : UInt8}
    (hnone : srv.findConnection addr group = none) : (srv.openConnection addr group).Ok where
  floor := {
    sessions := fun p hp => by
      rcases List.mem_cons.mp hp with rfl | hp
      · exact ⟨ODFSession.ok_start, ⟨.inl rfl, fun _ => rfl⟩⟩
      · exact hs.floor.sessions p hp
    leases := fun i kind => by
      rw [show (srv.openConnection addr group).sessions = (srv.sessionCount, .start) :: srv.sessions from rfl,
        sessionsHold_cons, holds_start, Nat.zero_add]
      exact hs.floor.leases i kind
    services := hs.floor.services
    numbers := by
      show (srv.sessionCount :: srv.sessions.map Prod.fst).Nodup
      refine List.nodup_cons.mpr ⟨fun hmem => ?_, hs.floor.numbers⟩
      obtain ⟨p, hp, heq⟩ := List.mem_map.mp hmem
      exact absurd (hs.fresh p hp) (by rw [heq]; exact Nat.lt_irrefl _) }
  links := (hs.links.cons (some srv.sessionCount))
  clients := by
    show ((addr, group) :: srv.connections.map fun c => (c.clientAddr, c.clientGroup)).Nodup
    refine List.nodup_cons.mpr ⟨fun hmem => ?_, hs.clients⟩
    obtain ⟨c, hc, heq⟩ := List.mem_map.mp hmem
    obtain ⟨rfl, rfl⟩ := Prod.mk.inj heq
    have hno := List.findIdx?_eq_none_iff.mp hnone c hc
    simp [IDNHelloConnection.clientMatch] at hno
  fresh p hp := by
    rcases List.mem_cons.mp hp with rfl | hp
    · exact Nat.lt_succ_self _
    · exact Nat.lt_succ_of_lt (hs.fresh p hp)

theorem getElem?_of_findConnection {addr : SockAddr} {group : UInt8}
    (hfound : srv.findConnection addr group = some i) (d : IDNHelloConnection) :
    srv.connections[i]? = some (srv.connections.getD i d) := by
  obtain ⟨hlt, -, -⟩ := List.findIdx?_eq_some_iff_getElem.mp hfound
  rw [List.getD_eq_getElem?_getD, List.getElem?_eq_getElem hlt, Option.getD_some]

/-- what becomes of a connection after its message -/
theorem Step.finish (hs : srv.Ok) (hc : srv.connections[i]? = some c) (hsame : c.Same c')
    (hstep : Floor.Step srv.toFloor given f freed) (hattached : attachedOf f.sessions = attachedOf srv.sessions)
    {close : Bool} {answer : Option RtAcknowledge} {r : Option RtAcknowledge × IDNServer × List Nat}
    (hrun : (if close then
        .ok (answer, { srv with
          toFloor := (f.cleanup c'.session cancelGracefully).1
          connections := srv.connections.eraseIdx i }, freed ++ (f.cleanup c'.session cancelGracefully).2)
      else .ok (answer, { srv with toFloor := f, connections := srv.connections.set i c' }, freed)) =
        (Except.ok r : Except BuildFault _)) : Step srv given r.2.1 r.2.2 := by
  cases close with
  | true => cases hrun; exact Step.erase hs hc hsame hstep hattached
  | false => cases hrun; exact Step.set hs hc hsame hstep hattached

theorem step_processConnected (hs : srv.Ok) (hc : srv.connections[i]? = some c)
    {close : Bool} {ack : Option (Nat → RealtimeStatus)} {r : Option RtAcknowledge × IDNServer × List Nat}
    (hrun : srv.processConnected i c close ack t = .ok r) : Step srv t.ids r.2.1 r.2.2 := by
  obtain ⟨number, hnumber, hmem⟩ := hs.session (List.mem_of_getElem? hc)
  rw [processConnected] at hrun
  dsimp only at hrun
  have hids : (if (payloadError t).isNone = true then t else t.cropPayload packetHeaderSize).ids = t.ids := by
    split <;> rfl
  generalize (if (payloadError t).isNone = true then t else t.cropPayload packetHeaderSize) = u at hrun hids
  split at hrun
  · cases hrun
  · next q hq =>
    obtain ⟨hstep, hattached, hsame⟩ :=
      step_processRtPacket (c := { c with inputTimeUS := u.head.sourceRefTime }) hs.floor hnumber hmem hq
    have hsame' : c.Same q.1 := ⟨hsame.clientAddr, hsame.clientGroup, hsame.session⟩
    rw [hids] at hstep
    cases ack with
    | none => exact Step.finish hs hc hsame' hstep hattached hrun
    | some status =>
      obtain ⟨hack, hkept⟩ := step_acknowledge hstep.ok q.1 status
        (if (payloadError t).isNone then some (t.adjustFront packetHeaderSize).channel else none)
        ((payloadError t).getD 0)
      have hboth := hstep.trans hack
      rw [List.append_nil, List.append_nil] at hboth
      exact Step.finish hs hc (hsame'.trans (same_acknowledge _ _ _ _ _)) hboth (hkept.trans hattached) hrun

theorem step_processRtConnection (hs : srv.Ok) {addr : SockAddr} {close : Bool}
    {ack : Option (Nat → RealtimeStatus)} {r : Option RtAcknowledge × IDNServer × List Nat}
    (hrun : srv.processRtConnection addr close ack t = .ok r) : Step srv t.ids r.2.1 r.2.2 := by
  rw [processRtConnection] at hrun
  split at hrun
  · next i hfound => exact step_processConnected hs (getElem?_of_findConnection hfound _) hrun
  · next hnone =>
    split at hrun
    · cases hrun; exact .drop hs t.ids
    · obtain ⟨hok, hblocks⟩ := step_processConnected (ok_openConnection hs hnone) rfl hrun
      exact ⟨hok, hblocks⟩

/-- what becomes of the server when a client aborts -/
theorem step_abort (hs : srv.Ok) (addr : SockAddr) (group : UInt8) :
    Step srv [] (srv.abort addr group).1 (srv.abort addr group).2 := by
  rw [abort]
  split
  · exact ⟨hs, List.perm_append_comm⟩
  · next i hfound =>
    exact Step.erase hs (getElem?_of_findConnection hfound _) ⟨rfl, rfl, rfl⟩ (.refl hs.floor) rfl

theorem step_processCommand (hs : srv.Ok) {addr : SockAddr}
    {status : Nat → RealtimeStatus} {r : Option RtAcknowledge × IDNServer × List Nat}
    (hrun : srv.processCommand addr status t = .ok r) : Step srv t.ids r.2.1 r.2.2 := by
  have hmessage : ∀ (close : Bool) (ack : Option (Nat → RealtimeStatus)),
      (if srv.checkExcluded t.packetGroup then .ok (ack.map fun _ => .refuse ackExcluded, srv, t.ids)
        else srv.processRtConnection addr close ack t) = Except.ok r → Step srv t.ids r.2.1 r.2.2 := by
    intro close ack hrun
    split at hrun
    · cases hrun; exact .drop hs t.ids
    · exact step_processRtConnection hs hrun
  rw [processCommand] at hrun
  dsimp only at hrun
  split at hrun
  · cases hrun; exact .drop hs t.ids
  · split at hrun
    · exact hmessage _ _ hrun
    · split at hrun
      · exact hmessage _ _ hrun
      · split at hrun
        · exact hmessage _ _ hrun
        · split at hrun
          · exact hmessage _ _ hrun
          · split at hrun
            · cases hrun
              obtain ⟨hok, hblocks⟩ := step_abort hs addr t.packetGroup
              refine ⟨hok, List.perm_iff_count.mpr fun k => ?_⟩
              have hcount := List.perm_iff_count.mp hblocks k
              simp only [List.count_append, List.count_nil] at hcount ⊢
              omega
            · cases hrun; exact .drop hs t.ids

/-- what is left of the connections, when some of them end with their sessions -/
theorem step_drop (hs : srv.Ok) (drop : IDNHelloConnection → Bool) :
    let d := dropConnections srv.toFloor drop srv.connections
    Floor.Step srv.toFloor [] d.2.1 d.2.2 ∧ d.1 = srv.connections.filter (fun c => !drop c) ∧
      (d.1.map IDNHelloConnection.session).Perm (attachedOf d.2.1.sessions) := by
  refine step_dropConnections hs.floor drop [] srv.connections (fun c hc hnone => ?_) hs.links
  obtain ⟨number, hnumber, -⟩ := hs.session hc
  rw [hnumber] at hnone
  cases hnone

theorem step_housekeeping (hs : srv.Ok) (envTimeUS : UInt32) :
    Step srv [] (srv.housekeeping envTimeUS).1 (srv.housekeeping envTimeUS).2 ∧
      (srv.housekeeping envTimeUS).1.connections =
        srv.connections.filter (fun c => !timedOut envTimeUS c.inputTimeUS) ∧
      ∀ p ∈ (srv.housekeeping envTimeUS).1.sessions, p.2.sessionState = .attached ∧ Recent envTimeUS p.2 := by
  obtain ⟨hdrop, hkept, hlinks⟩ := step_drop hs fun c => timedOut envTimeUS c.inputTimeUS
  rw [housekeeping]
  dsimp only
  generalize dropConnections srv.toFloor (fun c => timedOut envTimeUS c.inputTimeUS) srv.connections = d at *
  obtain ⟨hleft, hblocks, hsub, hattached, hall⟩ := checkSessions_spec envTimeUS hdrop.ok.sessionsOk
  generalize checkSessions d.2.1.services envTimeUS d.2.1.sessions = c at *
  obtain ⟨hservices, hlent, hblocks'⟩ := serviceHousekeeping_spec false c.2.services
    hleft.services (fun h => by cases h) []
  generalize serviceHousekeeping false c.2.services [] = k at *
  have hnumbers : (c.1.map Prod.fst).Sublist (srv.sessions.map Prod.fst) := hdrop.numbers ▸ hsub
  refine ⟨⟨⟨⟨hleft.sessions, fun i kind => ?_, hservices, ?_⟩, ?_, ?_, fun p hp => ?_⟩, ?_⟩, hkept, hall⟩
  · show sessionsHold c.1 i kind = lent k.services i kind
    rw [hlent i kind]
    exact hleft.leases i kind
  · exact hs.floor.numbers.sublist hnumbers
  · show (d.1.map _).Perm (attachedOf c.1)
    rw [hattached]
    exact hlinks
  · show (d.1.map _).Nodup
    rw [hkept]
    exact hs.clients.sublist (List.filter_sublist.map _)
  · obtain ⟨q, hq, hqp⟩ := List.mem_map.mp (hnumbers.subset (List.mem_map_of_mem hp))
    exact hqp ▸ hs.fresh q hq
  · refine List.perm_iff_count.mpr fun b => ?_
    have hcount := List.perm_iff_count.mp hdrop.blocks b
    have hcount' := List.perm_iff_count.mp hblocks b
    have hcount'' := List.perm_iff_count.mp hblocks' b
    simp only [List.count_append] at hcount hcount' hcount'' ⊢
    omega

/-- a forced stop leaves nothing in a queue that it can empty -/
theorem forcedStop_empties {o : Output} (hrests : o.Rests) (h : Decoders) (chained : Bool)
    (hfree : (o.housekeeping h true chained).1.stuck = false) : (o.housekeeping h true chained).1.queue = [] := by
  rw [Output.housekeeping] at hfree ⊢
  by_cases hidle : o.opMode = .idle
  · rw [if_pos hidle] at hfree ⊢
    exact (hrests hidle).2 hfree
  rw [if_neg hidle, if_pos rfl, Output.forcedStop] at hfree ⊢
  by_cases hchained : (chained && !o.stuck && o.seen < o.queue.length) = true
  · rw [if_pos hchained] at hfree
    cases hfree
  rw [if_neg hchained] at hfree ⊢
  -- the queue is skipped, and freed when the caret is in the ring of the tail
  let skipped : Output := { o with enabledFlag := false, seen := o.queue.length }
  change (skipped.recycle h).1.stuck = false at hfree
  change (skipped.recycle h).1.queue = []
  rcases Bool.eq_false_or_eq_true skipped.stuck with hstuck | hstuck
  · rw [recycle_stuck hstuck, hstuck] at hfree
    cases hfree
  · rw [recycle_free hstuck]
    exact List.drop_length

theorem mem_serviceHousekeeping {shutdownFlag : Bool} {services : List IDNService} {chained : List Bool}
    {x : IDNService} (hx : x ∈ (serviceHousekeeping shutdownFlag services chained).services) :
    ∃ s ∈ services, ∃ b, x.lapro = (s.lapro.housekeeping shutdownFlag b).1 := by
  induction services generalizing chained with
  | nil => cases hx
  | cons s ss ih =>
    rcases List.mem_cons.mp hx with rfl | hx
    · exact ⟨s, List.mem_cons_self, _, rfl⟩
    · obtain ⟨y, hy, b, heq⟩ := ih hx
      exact ⟨y, List.mem_cons_of_mem _ hy, b, heq⟩

/-- The end of the server, between two polls of every adapter. -/
theorem step_shutdown (hs : srv.Ok) {chained : List Bool} {r : IDNServer × List Nat}
    (hrun : srv.shutdown chained = .ok r) :
    Step srv [] r.1 r.2 ∧ r.1.connections = [] ∧ r.1.sessions = [] ∧
      ∀ s ∈ r.1.services, s.lapro.output.stuck = false → s.lapro.output.queue = [] := by
  obtain ⟨hdrop, hkept, hlinks⟩ := step_drop hs fun _ => true
  rw [shutdown] at hrun
  dsimp only at hrun
  generalize dropConnections srv.toFloor (fun _ => true) srv.connections = d at *
  obtain ⟨hleases, hservices, hblocks⟩ := cancelSessions_spec hdrop.ok.sessionsOk
  generalize cancelSessions d.2.1.services d.2.1.sessions = c at *
  split at hrun
  · cases hrun
  next hpolling =>
  have hbetween : ∀ s ∈ c.services, s.lapro.output.polling = false := by
    simpa [polling] using hpolling
  obtain ⟨hservices', hlent, hblocks'⟩ := serviceHousekeeping_spec true c.services hservices
    (fun _ => hbetween) chained
  have hempty : ∀ s ∈ (serviceHousekeeping true c.services chained).services,
      s.lapro.output.stuck = false → s.lapro.output.queue = [] := by
    intro s hs hfree
    obtain ⟨x, hx, b, heq⟩ := mem_serviceHousekeeping hs
    rw [heq] at hfree ⊢
    exact forcedStop_empties (hservices x hx).1.rests x.lapro.decoders b hfree
  cases hrun
  generalize serviceHousekeeping true c.services chained = k at *
  have hnone : d.1 = [] := by rw [hkept]; simp
  refine ⟨⟨⟨⟨fun p hp => (by cases hp), fun i kind => ?_, hservices', List.nodup_nil⟩, ?_, ?_,
    fun p hp => (by cases hp)⟩, ?_⟩, hnone, rfl, hempty⟩
  · show 0 = lent k.services i kind
    rw [hlent i kind, ← hleases i kind]
  · show (d.1.map _).Perm []
    rw [hnone]
    exact List.Perm.refl _
  · show (d.1.map _).Nodup
    rw [hnone]
    exact List.nodup_nil
  · refine List.perm_iff_count.mpr fun b => ?_
    have hcount := List.perm_iff_count.mp hdrop.blocks b
    have hcount' := List.perm_iff_count.mp hblocks b
    have hcount'' := List.perm_iff_count.mp hblocks' b
    simp only [List.count_append] at hcount hcount' hcount'' ⊢
    omega

/-- A step of an adapter, which touches no inlet. -/
theorem step_adapter (hs : srv.Ok) (i : Nat) {f : LaproService → LaproService}
    (hf : ∀ s : LaproService, s.Inv → LaproService.StepOk s [] (f s, []))
    (hsame : ∀ s, (f s).currentInlet = s.currentInlet ∧ (f s).dis = s.dis) :
    Step srv [] { srv with services := (IDNService.onService srv.services i (fun s => (f s, ())) ()).1 } [] := by
  rw [IDNService.onService]
  cases hx : srv.services[i]? with
  | none => exact ⟨hs, List.perm_append_comm⟩
  | some x =>
    obtain ⟨hi, hquiet⟩ := hs.floor.services x (List.mem_of_getElem? hx)
    obtain ⟨hi', hblocks, -⟩ := hf x.lapro hi
    obtain ⟨hcurrent, hdis⟩ := hsame x.lapro
    have hquiet' : (f x.lapro).Quiet := by
      rw [LaproService.Quiet, hcurrent, hdis]
      exact hquiet
    refine ⟨⟨⟨hs.floor.sessions, fun j kind => ?_, hs.floor.services.set hi' hquiet',
      hs.floor.numbers⟩, hs.links, hs.clients, hs.fresh⟩, heldBy_set _ hx hblocks⟩
    rw [hs.floor.leases j kind]
    dsimp only
    rw [lent_set hx, hcurrent]
    split
    · next hij => rw [← hij, lent_self hx]
    · rfl

/-- what one event keeps -/
theorem step_step (hs : srv.Ok) {event : ServerEvent} {r : IDNServer × List Nat}
    (hrun : srv.step event = .ok r) : Step srv event.given r.1 r.2 := by
  cases event with
  | datagram addr status t =>
    rw [step] at hrun
    split at hrun
    · cases hrun
    · next q hq => cases hrun; exact step_processCommand hs hq
  | housekeeping envTimeUS => cases hrun; exact (step_housekeeping hs envTimeUS).1
  | shutdown chained => exact (step_shutdown hs hrun).1
  | adapterPeek i =>
    cases hrun
    exact step_adapter hs i (fun _ hi => LaproService.stepOk_adapterPeek hi) fun _ => ⟨rfl, rfl⟩
  | adapterRead i =>
    cases hrun
    exact step_adapter hs i (fun _ hi => LaproService.stepOk_adapterRead hi) fun _ => ⟨rfl, rfl⟩

theorem ok_start {services : List IDNService} (hok : ServicesOk services)
    (hidle : ∀ s ∈ services, s.lapro.currentInlet = none) : (start services).Ok where
  floor := {
    sessions := fun p hp => by cases hp
    leases := fun i kind => by
      show 0 = lent services i kind
      rw [lent, if_neg]
      intro hlent
      obtain ⟨s, hs, hcurrent⟩ := Option.bind_eq_some_iff.mp hlent
      rw [hidle s (List.mem_of_getElem? hs)] at hcurrent
      cases hcurrent
    services := hok
    numbers := List.nodup_nil }
  links := List.Perm.refl _
  clients := List.nodup_nil
  fresh p hp := by cases hp

/-- a run keeps what one event keeps -/
theorem run_ok (events : List ServerEvent) {r r' : IDNServer × List Nat} (hs : r.1.Ok)
    (hrun : run r events = .ok r') :
    r'.1.Ok ∧
      (r'.2 ++ heldBy r'.1.services).Perm (r.2 ++ heldBy r.1.services ++ events.flatMap ServerEvent.given) := by
  induction events generalizing r with
  | nil => cases hrun; exact ⟨hs, by simp⟩
  | cons event events ih =>
    rw [run] at hrun
    split at hrun
    · cases hrun
    · next q hstep =>
      obtain ⟨hok, hblocks⟩ := step_step hs hstep
      obtain ⟨hlast, hrest⟩ := ih (r := (q.1, r.2 ++ q.2)) hok hrun
      refine ⟨hlast, List.perm_iff_count.mpr fun k => ?_⟩
      have hcount := List.perm_iff_count.mp hblocks k
      have hcount' := List.perm_iff_count.mp hrest k
      simp only [List.flatMap_cons, List.count_append] at hcount hcount' ⊢
      omega

/-! ## what the sessions have of the services -/

theorem lent_le_one (services : List IDNService) (i : Nat) (kind : InletKind) : lent services i kind ≤ 1 := by
  rw [lent]
  split
  · exact Nat.le_refl 1
  · exact Nat.zero_le 1

/-- a channel of a session, among all the channels -/
theorem holds_le_lent (hs : srv.Ok) {p : Nat × ODFSession} (hp : p ∈ srv.sessions) (id : Fin 64) (kind : InletKind) :
    (p.2.channel id).holds i kind ≤ p.2.holds i kind ∧ p.2.holds i kind ≤ lent srv.services i kind := by
  refine ⟨?_, ?_⟩
  · rw [holds_eq p.2 id i kind]
    exact Nat.le_add_right _ _
  · rw [← hs.floor.leases i kind]
    exact List.le_sum_of_mem (List.mem_map_of_mem hp)

/-- what a channel holds was lent to it -/
theorem Ok.lease (hs : srv.Ok) {p : Nat × ODFSession} (hp : p ∈ srv.sessions) {id : Fin 64}
    (hhnd : (p.2.channel id).serviceHnd = some i) :
    ∃ s kind, srv.services[i]? = some s ∧ (p.2.channel id).conduitHnd = some kind ∧
      s.lapro.currentInlet = some kind := by
  have hok := (hs.floor.sessions p hp).1.channels id
  obtain ⟨kind, hkind⟩ : ∃ kind, (p.2.channel id).conduitHnd = some kind := by
    have hhandles := hok.handles
    rw [hhnd] at hhandles
    exact Option.isSome_iff_exists.mp hhandles.symm
  obtain ⟨hchannel, hsession⟩ := holds_le_lent hs hp id kind (i := i)
  rw [IdnChannel.holds, if_pos ⟨hhnd, hkind⟩] at hchannel
  have hlent := hchannel.trans hsession
  rw [lent] at hlent
  split at hlent
  · next hbind =>
    obtain ⟨s, hs', hcurrent⟩ := Option.bind_eq_some_iff.mp hbind
    exact ⟨s, kind, hs', hkind, hcurrent⟩
  · exact absurd hlent (by decide)

/-- no other channel holds it -/
theorem Ok.lease_unique (hs : srv.Ok) {p q : Nat × ODFSession} (hp : p ∈ srv.sessions) (hq : q ∈ srv.sessions)
    {id id' : Fin 64} (hhnd : (p.2.channel id).serviceHnd = some i)
    (hhnd' : (q.2.channel id').serviceHnd = some i) : p = q ∧ id = id' := by
  obtain ⟨s, kind, hs₁, hkind, hcurrent⟩ := hs.lease hp hhnd
  obtain ⟨s', kind', hs₂, hkind', hcurrent'⟩ := hs.lease hq hhnd'
  obtain rfl : s = s' := Option.some.inj (hs₁.symm.trans hs₂)
  obtain rfl : kind = kind' := Option.some.inj (hcurrent.symm.trans hcurrent')
  have hone := lent_le_one srv.services i kind
  obtain ⟨hchannel, hsession⟩ := holds_le_lent hs hp id kind (i := i)
  obtain ⟨hchannel', -⟩ := holds_le_lent hs hq id' kind (i := i)
  rw [IdnChannel.holds, if_pos ⟨hhnd, hkind⟩] at hchannel
  rw [IdnChannel.holds, if_pos ⟨hhnd', hkind'⟩] at hchannel'
  have hpq : p = q := by
    obtain ⟨j, hj⟩ := List.mem_iff_getElem?.mp hp
    obtain ⟨j', hj'⟩ := List.mem_iff_getElem?.mp hq
    by_contra hne
    have hpair := pair_le_sum (fun p => p.2.holds i kind) hj hj' (fun h => hne (by
      rw [h, hj'] at hj
      exact (Option.some.inj hj).symm))
    have hleases := hs.floor.leases i kind
    rw [sessionsHold] at hleases
    omega
  subst hpq
  refine ⟨rfl, ?_⟩
  by_contra hne
  have hpair := pair_le_sum (fun c => c.holds i kind) (toList_channel p.2 id) (toList_channel p.2 id')
    fun h => hne (Fin.ext h)
  have htotal : p.2.holds i kind = (p.2.channels.toList.map fun c => c.holds i kind).sum := rfl
  rw [IdnChannel.holds, if_pos ⟨hhnd, hkind⟩, IdnChannel.holds, if_pos ⟨hhnd', hkind'⟩] at hpair
  omega

/-- an inlet that is lent is held by a channel -/
theorem Ok.leased (hs : srv.Ok) {s : IDNService} {kind : InletKind} (hs' : srv.services[i]? = some s)
    (hcurrent : s.lapro.currentInlet = some kind) :
    ∃ p ∈ srv.sessions, ∃ id : Fin 64, (p.2.channel id).serviceHnd = some i ∧
      (p.2.channel id).conduitHnd = some kind := by
  have hlent : lent srv.services i kind = 1 := by
    rw [lent_self hs', if_pos hcurrent]
  have hleases := hs.floor.leases i kind
  by_contra hnone
  have hzero : sessionsHold srv.sessions i kind = 0 := by
    refine List.sum_eq_zero_iff.mpr fun k hk => ?_
    obtain ⟨p, hp, rfl⟩ := List.mem_map.mp hk
    refine List.sum_eq_zero_iff.mpr fun k hk => ?_
    obtain ⟨c, hc, rfl⟩ := List.mem_map.mp hk
    obtain ⟨id, rfl⟩ := exists_channel hc
    rw [IdnChannel.holds, if_neg]
    exact fun hheld => hnone ⟨p, hp, id, hheld⟩
  omega

theorem total_opened (s : ODFSession) :
    s.total IdnChannel.opened = s.channels.toList.countP IdnChannel.isOpen := by
  rw [total]
  induction s.channels.toList with
  | nil => rfl
  | cons c cs ih =>
    rw [List.map_cons, List.sum_cons, List.countP_cons, ih, Nat.add_comm]
    rfl

/-- what the services are before the server starts -/
def Fresh (services : List IDNService) : Prop :=
  ∀ s ∈ services, ∃ valid time errCnt, s.lapro = .start valid time errCnt

theorem Fresh.ok {services : List IDNService} (hfresh : Fresh services) : (start services).Ok := by
  refine ok_start (fun s hs => ?_) fun s hs => ?_
  · obtain ⟨valid, time, errCnt, heq⟩ := hfresh s hs
    rw [heq]
    exact ⟨LaproService.inv_start valid time errCnt, fun _ => rfl⟩
  · obtain ⟨valid, time, errCnt, heq⟩ := hfresh s hs
    rw [heq]
    rfl

theorem heldBy_fresh {services : List IDNService} (hfresh : Fresh services) : heldBy services = [] := by
  refine List.flatMap_eq_nil_iff.mpr fun s hs => ?_
  obtain ⟨valid, time, errCnt, heq⟩ := hfresh s hs
  rw [heq]
  rfl

/-! ## the results -/

variable {services : List IDNService} {events : List ServerEvent}

theorem ok_of_run (hfresh : Fresh services) (hrun : run (start services, []) events = .ok (srv, freed)) : srv.Ok :=
  (run_ok events hfresh.ok hrun).1

/-- a wave of two samples for the channel 0 and the default service, which opens and routes it -/
def xDatagram (id : Nat) (command : UInt8) (sourceRefTime : UInt32) : TaxiBuffer :=
  .received id (fun i => [command, 0, 0, 1,  0, 22, 0xC0, 0x01, 0, 0, 0, 0,  1, 1, 0, 1,
    0x42, 0x00, 0x40, 0x10,  0, 0, 1, 0,  5, 6].getD i 0) 26 sourceRefTime

def oneService : List IDNService := [⟨1, true, .start false 0 0⟩]

theorem fresh_oneService : Fresh oneService := by
  intro s hs
  obtain rfl := List.mem_singleton.mp hs
  exact ⟨false, 0, 0, rfl⟩

/-- Two clients want the service.  The second one finds it busy, and is silent after that. -/
def xDatagrams : List ServerEvent :=
  let status : Nat → RealtimeStatus := fun _ => ⟨false, false, false, 0⟩
  [.datagram (.inet 7255 1) status (xDatagram 7 0x40 0), .datagram (.inet 7255 2) status (xDatagram 8 0x41 0),
    .adapterPeek 0, .adapterRead 0, .datagram (.inet 7255 1) status (xDatagram 9 0x40 900000)]

theorem xDatagrams_run : (run (start oneService, []) xDatagrams).isOk = true := by decide +kernel

/-- **An inlet is lent if and only if a channel holds it, and one channel holds it.**  The count of the
open channels of a session is right, and a closed channel has nothing. -/
theorem server_leases (hfresh : Fresh services)
    (hrun : run (start services, []) events = .ok (srv, freed)) :
    (∀ i s kind, srv.services[i]? = some s → s.lapro.currentInlet = some kind →
      ∃ p ∈ srv.sessions, ∃ id : Fin 64, (p.2.channel id).serviceHnd = some i ∧
        (p.2.channel id).conduitHnd = some kind) ∧
      (∀ p ∈ srv.sessions, ∀ (id : Fin 64) (i : Nat), (p.2.channel id).serviceHnd = some i →
        ∃ s kind, srv.services[i]? = some s ∧ (p.2.channel id).conduitHnd = some kind ∧
          s.lapro.currentInlet = some kind) ∧
      (∀ p ∈ srv.sessions, ∀ q ∈ srv.sessions, ∀ (id id' : Fin 64) (i : Nat),
        (p.2.channel id).serviceHnd = some i → (q.2.channel id').serviceHnd = some i → p = q ∧ id = id') ∧
      ∀ p ∈ srv.sessions, p.2.openChannelCount = p.2.channels.toList.countP IdnChannel.isOpen ∧
        ∀ id : Fin 64, (p.2.channel id).isOpen = false → p.2.channel id = .closed := by
  have hs := ok_of_run hfresh hrun
  refine ⟨fun i s kind hs' hcurrent => hs.leased hs' hcurrent, fun p hp id i hhnd => hs.lease hp hhnd,
    fun p hp q hq id id' i hhnd hhnd' => hs.lease_unique hp hq hhnd hhnd', fun p hp => ?_⟩
  obtain ⟨hchannels, hcount⟩ := (hs.floor.sessions p hp).1
  exact ⟨hcount.trans (total_opened p.2), fun id => (hchannels id).closed⟩

theorem server_leases_x : ∃ srv freed, run (start oneService, []) xDatagrams = .ok (srv, freed) ∧
    ∀ p ∈ srv.sessions, ∀ q ∈ srv.sessions, ∀ (id id' : Fin 64) (i : Nat),
      (p.2.channel id).serviceHnd = some i → (q.2.channel id').serviceHnd = some i → p = q ∧ id = id' := by
  have hok := xDatagrams_run
  match hrun : run (start oneService, []) xDatagrams with
  | .ok (srv, freed) => exact ⟨srv, freed, rfl, (server_leases fresh_oneService hrun).2.2.1⟩
  | .error fault => rw [hrun] at hok; cases hok

/-- **Each connection has a session of its own, and each client has one connection.**  A session that
belongs to no connection was abandoned, and has no open channel. -/
theorem server_links (hfresh : Fresh services)
    (hrun : run (start services, []) events = .ok (srv, freed)) :
    (∀ c ∈ srv.connections, ∃ p ∈ srv.sessions, c.session = some p.1 ∧ p.2.sessionState = .attached) ∧
      (∀ p ∈ srv.sessions, (∃ c ∈ srv.connections, c.session = some p.1) ∨
        p.2.sessionState = .abandoned ∧ ∀ id : Fin 64, p.2.channel id = .closed) ∧
      (srv.connections.map IDNHelloConnection.session).Nodup ∧
      (srv.connections.map fun c => (c.clientAddr, c.clientGroup)).Nodup ∧
      (srv.sessions.map Prod.fst).Nodup := by
  have hs := ok_of_run hfresh hrun
  refine ⟨fun c hc => ?_, fun p hp => ?_, hs.links.nodup_iff.mpr ?_, hs.clients, hs.floor.numbers⟩
  · obtain ⟨number, hnumber, hmem⟩ := hs.session hc
    obtain ⟨s, hs', hstate⟩ := mem_attachedOf hmem
    exact ⟨_, hs', hnumber, hstate⟩
  · obtain ⟨hok, hsettled⟩ := hs.floor.sessions p hp
    rcases hsettled.state with hattached | ⟨habandoned, hcount⟩
    · have hmem : some p.1 ∈ attachedOf srv.sessions :=
        List.mem_map.mpr ⟨p, List.mem_filter.mpr ⟨hp, by simpa using hattached⟩, rfl⟩
      exact .inl (List.mem_map.mp (hs.links.symm.subset hmem))
    · exact .inr ⟨habandoned, closed_of_noChannels hok hcount⟩
  · have hsub : ((srv.sessions.filter fun p => p.2.sessionState = .attached).map Prod.fst).Nodup :=
      hs.floor.numbers.sublist (List.filter_sublist.map _)
    have hsome := hsub.map (Option.some_injective Nat)
    rwa [List.map_map] at hsome

theorem server_links_x : ∃ srv freed, run (start oneService, []) xDatagrams = .ok (srv, freed) ∧
    (srv.connections.map IDNHelloConnection.session).Nodup := by
  have hok := xDatagrams_run
  match hrun : run (start oneService, []) xDatagrams with
  | .ok (srv, freed) => exact ⟨srv, freed, rfl, (server_links fresh_oneService hrun).2.2.1⟩
  | .error fault => rw [hrun] at hok; cases hok

theorem run_append {r r' : IDNServer × List Nat} {event : ServerEvent} (hrun : run r (events ++ [event]) = .ok r') :
    ∃ q q', run r events = .ok q ∧ q.1.step event = .ok q' ∧ r' = (q'.1, q.2 ++ q'.2) := by
  induction events generalizing r with
  | nil =>
    rw [List.nil_append, run] at hrun
    split at hrun
    · cases hrun
    · next q' hq' => cases hrun; exact ⟨r, q', rfl, hq', rfl⟩
  | cons e events ih =>
    rw [List.cons_append, run] at hrun
    split at hrun
    · cases hrun
    · next q' hq' =>
      obtain ⟨p, p', hp, hp', hr'⟩ := ih hrun
      refine ⟨p, p', ?_, hp', hr'⟩
      rw [run, hq']
      exact hp

/-- **A client that is silent loses its connection, and what it held.**  After the housekeeping the last
datagram of every connection is at most a second old, every session belongs to a connection, and a
session whose last message is older has no open channel. -/
theorem server_teardown (hfresh : Fresh services) {envTimeUS : UInt32}
    (hrun : run (start services, []) (events ++ [.housekeeping envTimeUS]) = .ok (srv, freed)) :
    (∀ c ∈ srv.connections, timedOut envTimeUS c.inputTimeUS = false) ∧
      (∀ p ∈ srv.sessions, ∃ c ∈ srv.connections, c.session = some p.1) ∧
      (∀ p ∈ srv.sessions, p.2.inputTimeValid = true ∧ timedOut envTimeUS p.2.inputTimeUS = false ∨
        ∀ id : Fin 64, p.2.channel id = .closed) ∧
      ∀ i s kind, srv.services[i]? = some s → s.lapro.currentInlet = some kind →
        ∃ p ∈ srv.sessions, p.2.inputTimeValid = true ∧ timedOut envTimeUS p.2.inputTimeUS = false ∧
          ∃ id : Fin 64, (p.2.channel id).serviceHnd = some i ∧ (p.2.channel id).conduitHnd = some kind := by
  obtain ⟨q, q', hq, hq', heq⟩ := run_append hrun
  obtain ⟨rfl, -⟩ := Prod.mk.inj heq
  obtain ⟨⟨hs, -⟩, hkept, hall⟩ := step_housekeeping (ok_of_run hfresh hq) envTimeUS
  cases hq'
  generalize (q.1.housekeeping envTimeUS).1 = srv at *
  have hrecent : ∀ p ∈ srv.sessions, p.2.inputTimeValid = true ∧ timedOut envTimeUS p.2.inputTimeUS = false ∨
      ∀ id : Fin 64, p.2.channel id = .closed := fun p hp =>
    (hall p hp).2.imp_right (closed_of_noChannels (hs.floor.sessions p hp).1)
  refine ⟨fun c hc => ?_, fun p hp => ?_, hrecent, fun i s kind hs' hcurrent => ?_⟩
  · rw [hkept] at hc
    simpa using (List.mem_filter.mp hc).2
  · have hmem : some p.1 ∈ attachedOf srv.sessions :=
      List.mem_map.mpr ⟨p, List.mem_filter.mpr ⟨hp, by simpa using (hall p hp).1⟩, rfl⟩
    exact List.mem_map.mp (hs.links.symm.subset hmem)
  · obtain ⟨p, hp, id, hhnd, hkind⟩ := hs.leased hs' hcurrent
    rcases hrecent p hp with ⟨hvalid, hnot⟩ | hclosed
    · exact ⟨p, hp, hvalid, hnot, id, hhnd, hkind⟩
    · rw [hclosed id] at hhnd
      cases hhnd

theorem xDatagrams_housekeeping :
    (run (start oneService, []) (xDatagrams ++ [.housekeeping 1000001])).isOk = true := by decide +kernel

theorem server_teardown_x : ∃ srv freed,
    run (start oneService, []) (xDatagrams ++ [.housekeeping 1000001]) = .ok (srv, freed) ∧
      ∀ c ∈ srv.connections, timedOut 1000001 c.inputTimeUS = false := by
  have hok := xDatagrams_housekeeping
  match hrun : run (start oneService, []) (xDatagrams ++ [.housekeeping 1000001]) with
  | .ok (srv, freed) => exact ⟨srv, freed, hrun, (server_teardown fresh_oneService hrun).1⟩
  | .error fault => rw [hrun] at hok; cases hok

/-- the blocks of a queue -/
theorem held_eq_nil {o : Output} : o.held = [] ↔ o.queue = [] := by
  rw [Output.held, List.flatMap_eq_nil_iff]
  refine ⟨fun hnone => List.eq_nil_iff_forall_not_mem.mpr fun c hc => ?_, fun hnil c hc => ?_⟩
  · exact absurd (hnone c hc) (List.cons_ne_nil _ _)
  · rw [hnil] at hc
    cases hc

/-- **At the end nothing is left**: no connection, no session and no inlet that is lent; and a service
holds no block, unless its output was stopped while chunks that were not read went on in another ring.
Where none was, every datagram has been freed once, and only there. -/
theorem server_shutdown (hfresh : Fresh services) {chained : List Bool}
    (hrun : run (start services, []) (events ++ [.shutdown chained]) = .ok (srv, freed)) :
    srv.connections = [] ∧ srv.sessions = [] ∧
      (∀ s ∈ srv.services, s.lapro.currentInlet = none ∧
        (s.lapro.held = [] ↔ s.lapro.output.stuck = false)) ∧
      (freed.Perm (events.flatMap ServerEvent.given) ↔ ∀ s ∈ srv.services, s.lapro.output.stuck = false) := by
  obtain ⟨hafter, hblocks⟩ := run_ok (events ++ [.shutdown chained]) hfresh.ok hrun
  obtain ⟨q, q', hq, hq', heq⟩ := run_append hrun
  obtain ⟨rfl, -⟩ := Prod.mk.inj heq
  obtain ⟨-, hnone, hno, hempty⟩ := step_shutdown (ok_of_run hfresh hq) hq'
  have hall : ∀ s ∈ q'.1.services, s.lapro.currentInlet = none ∧
      (s.lapro.held = [] ↔ s.lapro.output.stuck = false) := by
    intro s hs
    have hidle : s.lapro.currentInlet = none := by
      obtain ⟨i, hi⟩ := List.mem_iff_getElem?.mp hs
      cases hcurrent : s.lapro.currentInlet with
      | none => rfl
      | some kind =>
        obtain ⟨p, hp, -⟩ := hafter.leased hi hcurrent
        rw [hno] at hp
        cases hp
    obtain ⟨hinv, hquiet⟩ := hafter.floor.services s hs
    have hhead := hquiet (by rw [hidle]; exact fun h => by cases h)
    have hheld : s.lapro.held = s.lapro.output.held := by
      rw [LaproService.held, DisInlet.held, hhead]
      rfl
    rw [hheld, held_eq_nil]
    exact ⟨hidle, fun hqueue => Bool.eq_false_iff.mpr fun hstuck => hinv.placed.stuck hstuck hqueue,
      hempty s hs⟩
  have hstart : heldBy (start services).services = [] := heldBy_fresh hfresh
  dsimp only at hblocks
  rw [hstart, List.append_nil, List.nil_append, List.flatMap_append,
    show [ServerEvent.shutdown chained].flatMap ServerEvent.given = [] from rfl, List.append_nil] at hblocks
  refine ⟨hnone, hno, hall, fun hfreed s hs => ?_, fun hfree => ?_⟩
  · -- what was not freed is held
    have hlength := hblocks.length_eq
    rw [List.length_append, hfreed.length_eq] at hlength
    have hheld : heldBy q'.1.services = [] := List.eq_nil_of_length_eq_zero (by omega)
    exact (hall s hs).2.mp (List.flatMap_eq_nil_iff.mp hheld s hs)
  · have hheld : heldBy q'.1.services = [] :=
      List.flatMap_eq_nil_iff.mpr fun s hs => (hall s hs).2.mpr (hfree s hs)
    rwa [hheld, List.append_nil] at hblocks

/-- what the end of the server leaves in the outputs -/
theorem xDatagrams_shutdown :
    ((run (start oneService, []) (xDatagrams ++ [.shutdown []])).toOption.map fun r =>
      r.1.services.all fun s => !s.lapro.output.stuck) = some true := by decide +kernel

theorem server_shutdown_x : ∃ srv freed,
    run (start oneService, []) (xDatagrams ++ [.shutdown []]) = .ok (srv, freed) ∧
      srv.connections = [] ∧ srv.sessions = [] ∧ freed.Perm [7, 8, 9] := by
  have hfree := xDatagrams_shutdown
  match hrun : run (start oneService, []) (xDatagrams ++ [.shutdown []]) with
  | .ok (srv, freed) =>
    rw [hrun] at hfree
    have hnot : ∀ s ∈ srv.services, s.lapro.output.stuck = false := by
      simpa [Except.toOption] using hfree
    obtain ⟨hconnections, hsessions, -, hfreed⟩ := server_shutdown fresh_oneService hrun
    exact ⟨srv, freed, hrun, hconnections, hsessions, hfreed.mpr hnot⟩
  | .error fault => rw [hrun] at hfree; cases hfree

end IDNServer

end LiberaLink.Idn
