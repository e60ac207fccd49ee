import LiberaLink.Idn.Custody
import LiberaLink.Idn.Server
import LiberaLink.Lib.Typestate

/-!
# What the sessions hold of the services

A channel that is connected to a service holds the inlet that the service has lent, and no other
channel holds it.  Whatever a session does to its channels, the two sides agree.

* `ODFSession.Ok`            the channels of a session, and how many of them are open;
* `ODFSession.holds`, `lent` how often a session holds an inlet, and whether it is lent;
* `Good`, `Moves`            what an operation of a session keeps, whatever the other sessions hold;
* `moves_processChannelMessage`, `moves_reset`, `moves_clearPipelineEvents`   the operations.
-/

namespace LiberaLink.Idn
open Stepwise

/-! ## a service -/

namespace LaproService

/-- only the inlet that is lent puts a frame together -/
def Quiet (s : LaproService) : Prop := s.currentInlet ≠ some .dis → s.dis.reassemblyHead = none

variable {s : LaproService}

/-- An inlet is lent if none is, and the service knows what to do with the mode. -/
theorem requestInlet_lends (hi : s.Inv) (serviceMode : UInt8) :
    (∀ kind, (s.requestInlet serviceMode).2 = some kind →
        s.currentInlet = none ∧ (s.requestInlet serviceMode).1.currentInlet = some kind) ∧
      ((s.requestInlet serviceMode).2 = none →
        (s.requestInlet serviceMode).1.currentInlet = s.currentInlet) ∧
      (s.requestInlet serviceMode).1.dis = s.dis := by
  cases hcurrent : s.currentInlet with
  | some kind =>
    have hsame : s.requestInlet serviceMode = (s, none) := by
      rw [requestInlet, if_pos (by rw [hcurrent]; rfl)]
    rw [hsame]
    exact ⟨fun kind h => (by cases h), fun _ => hcurrent, rfl⟩
  | none =>
    have hinactive : s.output.opMode.active = false := by
      have hlent := hi.lent
      rwa [hcurrent] at hlent
    rw [requestInlet, if_neg (by rw [hcurrent]; exact Bool.false_ne_true)]
    dsimp only
    split
    · rw [open'_eq hinactive rfl, if_pos rfl]
      exact ⟨fun kind h => ⟨rfl, h⟩, fun h => (by cases h), rfl⟩
    · split
      · rw [open'_eq hinactive rfl, if_pos rfl]
        exact ⟨fun kind h => ⟨rfl, h⟩, fun h => (by cases h), rfl⟩
      · exact ⟨fun kind h => (by cases h), fun _ => hcurrent, rfl⟩

theorem releaseInlet_frees (s : LaproService) {kind : InletKind} (hcurrent : s.currentInlet = some kind) :
    (s.releaseInlet kind).1.currentInlet = none ∧
      (s.Quiet → (s.releaseInlet kind).1.dis.reassemblyHead = none) := by
  unfold releaseInlet
  rw [if_pos hcurrent]
  cases kind with
  | con => exact ⟨rfl, fun hquiet => hquiet (by rw [hcurrent]; decide)⟩
  | dis => exact ⟨rfl, fun _ => rfl⟩

theorem pass_keeps (s : LaproService) (t : TaxiBuffer) (chunk : Option ChunkData) :
    (s.pass t chunk).1.currentInlet = s.currentInlet ∧ (s.pass t chunk).1.con = s.con ∧
      (s.pass t chunk).1.dis = s.dis := by
  cases chunk with
  | none => exact ⟨rfl, rfl, rfl⟩
  | some chunk => exact ⟨rfl, rfl, rfl⟩

/-- A message does not change what is lent. -/
theorem process_keeps {kind : InletKind} {t : TaxiBuffer} {r : LaproService × List Nat}
    (hrun : s.process kind t = .ok r) : r.1.currentInlet = s.currentInlet ∧
      (kind = .con → r.1.dis = s.dis) := by
  cases kind with
  | con =>
    have hrun' : s.processCon t = .ok r := hrun
    rw [processCon] at hrun'
    split at hrun'
    · cases hrun'
    · next config h hread =>
      cases hrun'
      let opened := ConInlet.dispatch { s.con with toConfigInlet := config } h t
      have hkeep := pass_keeps { s with con := opened.1, decoders := h } t opened.2
      exact ⟨hkeep.1, fun _ => hkeep.2.2⟩
  | dis =>
    have hrun' : s.processDis t = .ok r := hrun
    refine ⟨?_, fun h => by cases h⟩
    rw [processDis] at hrun'
    split at hrun'
    · cases hrun'; rfl
    · next dis u freed hre =>
      split at hrun'
      · cases hrun'
      · next config h hread =>
        cases hrun'
        let opened := DisInlet.dispatch { dis with toConfigInlet := config } h u
        exact (pass_keeps { s with dis := opened.1, decoders := h } u opened.2).1

end LaproService

/-! ## the services -/

/-- whether a service has lent an inlet -/
def lent (services : List IDNService) (i : Nat) (kind : InletKind) : Nat :=
  if (services[i]?.bind fun s => s.lapro.currentInlet) = some kind then 1 else 0

/-- the blocks that the services hold -/
def heldBy (services : List IDNService) : List Nat := services.flatMap fun s => s.lapro.held

/-- what holds of each service -/
def ServicesOk (services : List IDNService) : Prop :=
  ∀ s ∈ services, s.lapro.Inv ∧ s.lapro.Quiet

section services
variable {services : List IDNService} {i : Nat} {s : IDNService} {lapro : LaproService}

theorem lent_set (hs : services[i]? = some s) (lapro : LaproService) (j : Nat) (kind : InletKind) :
    lent (services.set i { s with lapro := lapro }) j kind =
      if i = j then (if lapro.currentInlet = some kind then 1 else 0) else lent services j kind := by
  have hlt := (List.getElem?_eq_some_iff.mp hs).1
  rw [lent, List.getElem?_set]
  by_cases hij : i = j
  · subst hij
    simp [hlt]
  · simp only [hij, if_false]
    rfl

theorem lent_self (hs : services[i]? = some s) (kind : InletKind) :
    lent services i kind = if s.lapro.currentInlet = some kind then 1 else 0 := by
  rw [lent, hs]
  rfl

theorem heldBy_set (lapro : LaproService) (hs : services[i]? = some s) {freed given : List Nat}
    (hblocks : (freed ++ lapro.held).Perm (s.lapro.held ++ given)) :
    (freed ++ heldBy (services.set i { s with lapro := lapro })).Perm (heldBy services ++ given) := by
  obtain ⟨hlt, rfl⟩ := List.getElem?_eq_some_iff.mp hs
  have hsplit : services = services.take i ++ services[i] :: services.drop (i + 1) := by simp
  rw [List.set_eq_take_append_cons_drop, if_pos hlt]
  conv_rhs => rw [hsplit]
  refine List.perm_iff_count.mpr fun k => ?_
  have hcount := List.perm_iff_count.mp hblocks k
  simp only [heldBy, List.flatMap_append, List.flatMap_cons, List.count_append] at hcount ⊢
  omega

theorem ServicesOk.set (hok : ServicesOk services) (hi : lapro.Inv) (hquiet : lapro.Quiet) :
    ServicesOk (services.set i { s with lapro := lapro }) := by
  intro x hx
  rcases List.mem_or_eq_of_mem_set hx with hold | rfl
  · exact hok x hold
  · exact ⟨hi, hquiet⟩

end services

/-! ## a channel -/

namespace IdnChannel

/-- how often the channel holds an inlet -/
def holds (c : IdnChannel) (i : Nat) (kind : InletKind) : Nat :=
  if c.serviceHnd = some i ∧ c.conduitHnd = some kind then 1 else 0

def opened (c : IdnChannel) : Nat := if c.isOpen then 1 else 0

/-- A closed channel has nothing, and one that holds an inlet is connected. -/
structure Ok (c : IdnChannel) : Prop where
  closed : c.isOpen = false → c = .closed
  handles : c.serviceHnd.isSome = c.conduitHnd.isSome
  connected : c.serviceHnd.isSome → c.connState = .connected

/-- a channel that holds nothing -/
structure Free (c : IdnChannel) : Prop where
  service : c.serviceHnd = none
  conduit : c.conduitHnd = none

variable {c : IdnChannel} {i : Nat} {kind : InletKind}

theorem ok_closed : closed.Ok := ⟨fun _ => rfl, rfl, fun h => by cases h⟩

theorem free_closed : closed.Free := ⟨rfl, rfl⟩

theorem Free.holds (hf : c.Free) (i : Nat) (kind : InletKind) : c.holds i kind = 0 := by
  rw [IdnChannel.holds, hf.service, if_neg (fun h => by cases h.1)]

/-- an open channel that holds nothing may be in any state -/
theorem Free.ok (hf : c.Free) (hopen : c.isOpen = true) : c.Ok where
  closed h := by
    rw [hopen] at h
    cases h
  handles := by
    rw [hf.service, hf.conduit]
    rfl
  connected h := by
    rw [hf.service] at h
    cases h

theorem Ok.free_of_service (hok : c.Ok) (hnone : c.serviceHnd = none) : c.Free := by
  refine ⟨hnone, ?_⟩
  have hh := hok.handles
  rw [hnone] at hh
  exact Option.isNone_iff_eq_none.mp (by cases hc : c.conduitHnd <;> simp_all)

/-- What a channel holds is lent back, and nothing else changes. -/
theorem releaseHandles_spec {services : List IDNService} {rest : Nat → InletKind → Nat}
    (hok : c.Ok) (hleases : ∀ i kind, c.holds i kind + rest i kind = lent services i kind)
    (hservices : ServicesOk services) :
    (c.releaseHandles services).1 = { c with serviceHnd := none, conduitHnd := none } ∧
      (∀ i kind, rest i kind = lent (c.releaseHandles services).2.services i kind) ∧
      ServicesOk (c.releaseHandles services).2.services ∧
      ((c.releaseHandles services).2.freed ++ heldBy (c.releaseHandles services).2.services).Perm
        (heldBy services) := by
  cases hs : c.serviceHnd with
  | none =>
    have hfree := hok.free_of_service hs
    have hsame : c.releaseHandles services =
        ({ c with serviceHnd := none, conduitHnd := none }, ⟨services, []⟩) := by
      rw [releaseHandles, hs]
    rw [hsame]
    refine ⟨rfl, fun i kind => ?_, hservices, List.Perm.refl _⟩
    rw [← hleases i kind, hfree.holds, Nat.zero_add]
  | some i =>
    obtain ⟨kind, hk⟩ : ∃ kind, c.conduitHnd = some kind := by
      have hh := hok.handles
      rw [hs] at hh
      exact Option.isSome_iff_exists.mp hh.symm
    have hone : c.holds i kind = 1 := if_pos ⟨hs, hk⟩
    have hlent := hleases i kind
    -- the service is there, and has lent this inlet
    obtain ⟨x, hx, hcurrent⟩ : ∃ x, services[i]? = some x ∧ x.lapro.currentInlet = some kind := by
      rw [lent] at hlent
      split at hlent
      · next hbind => exact Option.bind_eq_some_iff.mp hbind
      · omega
    have hrun : c.releaseHandles services =
        ({ c with serviceHnd := none, conduitHnd := none },
          ⟨services.set i { x with lapro := (x.lapro.releaseInlet kind).1 }, (x.lapro.releaseInlet kind).2⟩) := by
      rw [releaseHandles, hs, hk]
      dsimp only
      rw [IDNService.releaseConduit, IDNService.onService, hx]
    obtain ⟨hi, hquiet⟩ := hservices x (List.mem_of_getElem? hx)
    obtain ⟨hi', hblocks, -⟩ := LaproService.stepOk_release hi kind
    obtain ⟨hnone, hempty⟩ := LaproService.releaseInlet_frees x.lapro hcurrent
    rw [hrun]
    refine ⟨rfl, fun j kind' => ?_, hservices.set hi' fun _ => hempty hquiet, ?_⟩
    · rw [lent_set hx, hnone]
      have hj := hleases j kind'
      by_cases hij : i = j
      · subst hij
        rw [if_pos rfl, if_neg (by simp)]
        rw [lent_self hx, hcurrent] at hj
        by_cases hkind : kind' = kind
        · subst hkind
          rw [hone, if_pos rfl] at hj
          omega
        · rw [if_neg (by simpa using Ne.symm hkind)] at hj
          omega
      · rw [if_neg hij, ← hj, IdnChannel.holds, if_neg (by rw [hs]; simp [hij]), Nat.zero_add]
    · have hset := heldBy_set (x.lapro.releaseInlet kind).1 hx hblocks
      rwa [List.append_nil] at hset

end IdnChannel

/-! ## a session -/

namespace ODFSession

/-- a sum over the channels -/
def total (s : ODFSession) (f : IdnChannel → Nat) : Nat := (s.channels.toList.map f).sum

/-- how often the session holds an inlet -/
def holds (s : ODFSession) (i : Nat) (kind : InletKind) : Nat := s.total fun c => c.holds i kind

/-- The channels are as they should be, and the open ones are counted. -/
structure Ok (s : ODFSession) : Prop where
  channels : ∀ id : Fin 64, (s.channel id).Ok
  count : s.openChannelCount = s.total IdnChannel.opened

theorem toList_channel (s : ODFSession) (id : Fin 64) : s.channels.toList[id.1]? = some (s.channel id) := by
  simp [channel]

theorem mem_channels (s : ODFSession) (id : Fin 64) : s.channel id ∈ s.channels.toList :=
  List.mem_of_getElem? (s.toList_channel id)

theorem exists_channel {s : ODFSession} {c : IdnChannel} (hc : c ∈ s.channels.toList) :
    ∃ id, s.channel id = c := by
  obtain ⟨j, hj, rfl⟩ := List.getElem_of_mem hc
  exact ⟨⟨j, by simpa using hj⟩, by simp [channel]⟩

theorem total_setChannel (s : ODFSession) (id : Fin 64) (c : IdnChannel) (f : IdnChannel → Nat) :
    (s.setChannel id c).total f + f (s.channel id) = s.total f + f c := by
  obtain ⟨rest, hbefore, hafter⟩ := Typestate.sum_set f (s.toList_channel id)
  rw [total, total, setChannel, Vector.toList_set, hbefore, hafter c]
  exact Nat.add_right_comm _ _ _

/-- what the other channels hold -/
def without (s : ODFSession) (id : Fin 64) (i : Nat) (kind : InletKind) : Nat :=
  (s.setChannel id .closed).holds i kind

theorem holds_eq (s : ODFSession) (id : Fin 64) (i : Nat) (kind : InletKind) :
    s.holds i kind = (s.channel id).holds i kind + s.without id i kind := by
  have hsum := total_setChannel s id .closed fun c => c.holds i kind
  have hclosed := IdnChannel.free_closed.holds i kind
  rw [without, holds, holds]
  omega

theorem holds_setChannel (s : ODFSession) (id : Fin 64) (c : IdnChannel) (i : Nat) (kind : InletKind) :
    (s.setChannel id c).holds i kind = c.holds i kind + s.without id i kind := by
  have hsum := total_setChannel s id c fun c => c.holds i kind
  have hsplit := holds_eq s id i kind
  rw [holds] at hsplit ⊢
  omega

theorem channel_setChannel (s : ODFSession) (id j : Fin 64) (c : IdnChannel) :
    (s.setChannel id c).channel j = if id = j then c else s.channel j := by
  show (s.channels.set id c)[j.1] = _
  rw [Vector.getElem_set]
  simp [Fin.ext_iff, channel]

/-- a channel that is open changes into another that is open -/
theorem Ok.setChannel {s : ODFSession} (hok : s.Ok) {id : Fin 64} {c : IdnChannel} (hc : c.Ok)
    (hopen : c.isOpen = (s.channel id).isOpen) : (s.setChannel id c).Ok where
  channels j := by
    rw [channel_setChannel]
    split
    · exact hc
    · exact hok.channels j
  count := by
    have hsum := total_setChannel s id c IdnChannel.opened
    rw [IdnChannel.opened, IdnChannel.opened, hopen] at hsum
    have hcount := hok.count
    show s.openChannelCount = _
    omega

theorem Ok.setEvents {s : ODFSession} (hok : s.Ok) (id : Fin 64) (events : UInt32) :
    (s.setEvents id events).Ok := ⟨hok.channels, hok.count⟩

/-! ### what an operation keeps -/

/-- What holds of a session and the services, when the other sessions hold `rest`. -/
structure Good (rest : Nat → InletKind → Nat) (s : ODFSession) (services : List IDNService) :
    Prop where
  ok : s.Ok
  leases : ∀ i kind, s.holds i kind + rest i kind = lent services i kind
  services : ServicesOk services

/-- an operation of a session, which was handed the blocks `given` -/
structure Moves (rest : Nat → InletKind → Nat) (services : List IDNService) (given : List Nat)
    (s' : ODFSession) (r : Served) : Prop where
  good : Good rest s' r.services
  blocks : (r.freed ++ heldBy r.services).Perm (heldBy services ++ given)

section moves
variable {s s' : ODFSession} {services : List IDNService} {rest : Nat → InletKind → Nat}
  {given given' : List Nat} {r : Served}

theorem Moves.refl (given : List Nat) (hg : Good rest s services) :
    Moves rest services given s ⟨services, given⟩ :=
  ⟨hg, List.perm_append_comm⟩

theorem Moves.trans {s'' : ODFSession} {r' : Served} (hm : Moves rest services given s' r)
    (hm' : Moves rest r.services given' s'' r') :
    Moves rest services (given ++ given') s'' ⟨r'.services, r.freed ++ r'.freed⟩ where
  good := hm'.good
  blocks := by
    refine List.perm_iff_count.mpr fun k => ?_
    have hcount := List.perm_iff_count.mp hm.blocks k
    have hcount' := List.perm_iff_count.mp hm'.blocks k
    simp only [List.count_append] at hcount hcount' ⊢
    omega

theorem Good.raise (hg : Good rest s services) (id : Fin 64) (event : UInt32) :
    Good rest (s.raise id event) services := ⟨hg.ok.setEvents id _, hg.leases, hg.services⟩

/-- the session of a message, with the time of the message -/
theorem Good.input (hg : Good rest s services) (time : UInt32) (valid : Bool) :
    Good rest { s with inputTimeUS := time, inputTimeValid := valid } services :=
  ⟨⟨hg.ok.channels, hg.ok.count⟩, hg.leases, hg.services⟩

/-- what a channel holds besides the other channels -/
theorem Good.channel (hg : Good rest s services) (id : Fin 64) (i : Nat) (kind : InletKind) :
    (s.channel id).holds i kind + (s.without id i kind + rest i kind) = lent services i kind := by
  rw [← hg.leases i kind, holds_eq s id, Nat.add_assoc]

/-- a channel that holds something else, when the other channels hold what they held -/
theorem Good.setChannel (hok : s.Ok) {id : Fin 64} {c : IdnChannel} (hc : c.Ok)
    (hopen : c.isOpen = (s.channel id).isOpen) (hservices : ServicesOk services)
    (hleases : ∀ i kind, c.holds i kind + (s.without id i kind + rest i kind) = lent services i kind) :
    Good rest (s.setChannel id c) services where
  ok := hok.setChannel hc hopen
  leases i kind := by rw [holds_setChannel, Nat.add_assoc, hleases]
  services := hservices

theorem good_openChannel (hg : Good rest s services) {id : Fin 64}
    (hclosed : (s.channel id).isOpen = false) :
    Good rest (s.openChannel id) services ∧ ((s.openChannel id).channel id).isOpen = true := by
  have hc := (hg.ok.channels id).closed hclosed
  have hfree : ({ s.channel id with isOpen := true } : IdnChannel).Free := by
    rw [hc]
    exact ⟨rfl, rfl⟩
  refine ⟨?_, ?_⟩
  · constructor
    · constructor
      · intro j
        show ((s.setChannel id { s.channel id with isOpen := true }).channel j).Ok
        rw [channel_setChannel]
        split
        · exact hfree.ok rfl
        · exact hg.ok.channels j
      · have hsum := total_setChannel s id { s.channel id with isOpen := true } IdnChannel.opened
        have hbefore : IdnChannel.opened (s.channel id) = 0 := by rw [IdnChannel.opened, hclosed]; rfl
        rw [hbefore] at hsum
        have hcount := hg.ok.count
        show s.openChannelCount + 1 = (s.setChannel id { s.channel id with isOpen := true }).total _
        rw [Nat.add_zero] at hsum
        rw [hsum, hcount]
        rfl
    · intro i kind
      show (s.setChannel id { s.channel id with isOpen := true }).holds i kind + _ = _
      rw [holds_setChannel, hfree.holds, Nat.zero_add, ← hg.leases i kind, holds_eq s id, hc,
        IdnChannel.free_closed.holds, Nat.zero_add]
    · exact hg.services
  · show ((s.setChannel id { s.channel id with isOpen := true }).channel id).isOpen = true
    rw [channel_setChannel, if_pos rfl]

/-- A channel that is closed gives back what it holds. -/
theorem moves_closeChannel (hg : Good rest s services) {id : Fin 64}
    (hopen : (s.channel id).isOpen = true) :
    Moves rest services [] (s.closeChannel services id).1 (s.closeChannel services id).2 := by
  obtain ⟨-, hleases, hservices, hblocks⟩ := IdnChannel.releaseHandles_spec (hg.ok.channels id)
    (hg.channel id) hg.services
  refine ⟨?_, by rw [List.append_nil]; exact hblocks⟩
  constructor
  · constructor
    · intro j
      show ((s.setChannel id .closed).channel j).Ok
      rw [channel_setChannel]
      split
      · exact IdnChannel.ok_closed
      · exact hg.ok.channels j
    · have hsum := total_setChannel s id .closed IdnChannel.opened
      have hbefore : IdnChannel.opened (s.channel id) = 1 := by rw [IdnChannel.opened, hopen]; rfl
      have hafter : IdnChannel.opened .closed = 0 := rfl
      rw [hbefore, hafter] at hsum
      have hcount := hg.ok.count
      show s.openChannelCount - 1 = (s.setChannel id .closed).total _
      omega
  · exact hleases
  · exact hservices

/-- An inlet that is lent to the caller is the only thing that changes. -/
theorem requestConduit_spec (hservices : ServicesOk services) (i : Nat) (serviceMode : UInt8) :
    (∀ j kind, lent (requestConduit services i serviceMode).1 j kind = lent services j kind +
        match (requestConduit services i serviceMode).2 with
        | .error _ => 0
        | .ok kind' => if i = j ∧ kind' = kind then 1 else 0) ∧
      ServicesOk (requestConduit services i serviceMode).1 ∧
      (heldBy (requestConduit services i serviceMode).1).Perm (heldBy services) := by
  rw [requestConduit]
  split
  · rw [IDNService.onService]
    cases hx : services[i]? with
    | none => exact ⟨fun _ _ => rfl, hservices, List.Perm.refl _⟩
    | some x =>
      obtain ⟨hi, hquiet⟩ := hservices x (List.mem_of_getElem? hx)
      obtain ⟨hlends, hrefuses, hdis⟩ := LaproService.requestInlet_lends hi serviceMode
      obtain ⟨hi', hblocks, -⟩ := LaproService.stepOk_request hi serviceMode
      have hheld := heldBy_set (x.lapro.requestInlet serviceMode).1 hx hblocks
      rw [List.append_nil, List.nil_append] at hheld
      dsimp only
      cases hr : (x.lapro.requestInlet serviceMode).2 with
      | none =>
        have hsame := hrefuses hr
        refine ⟨fun j kind => ?_, hservices.set hi' fun hne => ?_, hheld⟩
        · rw [lent_set hx, hsame, Nat.add_zero]
          by_cases hij : i = j
          · subst hij
            rw [if_pos rfl, lent_self hx]
          · rw [if_neg hij]
        · rw [hdis]
          exact hquiet (hsame ▸ hne)
      | some kind' =>
        obtain ⟨hnone, hsome⟩ := hlends kind' hr
        refine ⟨fun j kind => ?_, hservices.set hi' fun _ => ?_, hheld⟩
        · rw [lent_set hx, hsome]
          by_cases hij : i = j
          · subst hij
            rw [if_pos rfl, lent_self hx, hnone]
            simp
          · rw [if_neg hij]
            simp [hij]
        · rw [hdis]
          exact hquiet (by rw [hnone]; exact fun h => by cases h)
  · exact ⟨fun _ _ => rfl, hservices, List.Perm.refl _⟩

/-- A channel that holds nothing is connected, or not. -/
theorem good_connect (hg : Good rest s services) {id : Fin 64} (hfree : (s.channel id).Free)
    (hopen : (s.channel id).isOpen = true) (serviceID serviceMode : UInt8) :
    Good rest (s.connect services id serviceID serviceMode).1
        (s.connect services id serviceID serviceMode).2 ∧
      (heldBy (s.connect services id serviceID serviceMode).2).Perm (heldBy services) := by
  have hrest : ∀ i kind, s.without id i kind + rest i kind = lent services i kind := fun i kind => by
    have hc := hg.channel id i kind
    rwa [hfree.holds, Nat.zero_add] at hc
  let asked (connState : ConnState) : IdnChannel :=
    { s.channel id with serviceID := serviceID, serviceMode := serviceMode, connState := connState }
  have hasked : ∀ connState, (asked connState).Free := fun _ => ⟨hfree.service, hfree.conduit⟩
  -- a channel that is left with nothing
  have hstill : ∀ connState, ∀ services', ServicesOk services' →
      (∀ i kind, lent services' i kind = lent services i kind) →
      Good rest (s.setChannel id (asked connState)) services' := fun connState services' hs hl =>
    .setChannel hg.ok ((hasked connState).ok hopen) rfl hs fun i kind => by
      rw [(hasked connState).holds, Nat.zero_add, hl]
      exact hrest i kind
  rw [connect]
  split
  · exact ⟨hstill .connected services hg.services fun _ _ => rfl, List.Perm.refl _⟩
  · split
    · exact ⟨(hstill .serviceError services hg.services fun _ _ => rfl).raise id _, List.Perm.refl _⟩
    · next i _ =>
      obtain ⟨hlent, hservices, hheld⟩ := requestConduit_spec hg.services i serviceMode
      dsimp only
      split
      · next event hevent =>
        rw [hevent] at hlent
        exact ⟨(hstill .conduitError _ hservices hlent).raise id _, hheld⟩
      · next kind' hkind =>
        rw [hkind] at hlent
        refine ⟨.setChannel hg.ok ⟨fun h => ?_, rfl, fun _ => rfl⟩ rfl hservices fun j kind => ?_, hheld⟩
        · rw [show (s.channel id).isOpen = false from h] at hopen
          cases hopen
        · rw [hrest, hlent, Nat.add_comm]
          simp [IdnChannel.holds]

/-- A channel is routed to the service of its message. -/
theorem moves_route (hg : Good rest s services) {id : Fin 64} (hopen : (s.channel id).isOpen = true)
    (serviceID serviceMode : UInt8) :
    Moves rest services [] (s.route services id serviceID serviceMode).1
      (s.route services id serviceID serviceMode).2 := by
  rw [route]
  dsimp only
  split
  · exact .refl _ hg
  · -- the channel holds nothing when it is connected anew
    have hrelease : ∀ r : IdnChannel × Served,
        r = (if (s.channel id).connState = .connected then (s.channel id).releaseHandles services
          else (s.channel id, ⟨services, []⟩)) →
        r.1.Free ∧ r.1.isOpen = true ∧ (∀ i kind, s.without id i kind + rest i kind = lent r.2.services i kind) ∧
          ServicesOk r.2.services ∧ (r.2.freed ++ heldBy r.2.services).Perm (heldBy services) := by
      intro r hr
      split at hr
      · obtain ⟨hc, hleases, hservices, hblocks⟩ := IdnChannel.releaseHandles_spec (hg.ok.channels id)
          (hg.channel id) hg.services
        rw [hr]
        refine ⟨?_, ?_, hleases, hservices, hblocks⟩
        · rw [hc]
          exact ⟨rfl, rfl⟩
        · rw [hc]
          exact hopen
      · next hnot =>
        have hnone : (s.channel id).serviceHnd = none := by
          by_contra hsome
          exact hnot ((hg.ok.channels id).connected (Option.isSome_iff_ne_none.mpr hsome))
        have hfree := (hg.ok.channels id).free_of_service hnone
        rw [hr]
        refine ⟨hfree, hopen, fun i kind => ?_, hg.services, List.Perm.refl _⟩
        have hc := hg.channel id i kind
        rwa [hfree.holds, Nat.zero_add] at hc
    obtain ⟨hfree, hisopen, hleases, hservices, hblocks⟩ := hrelease _ rfl
    generalize (if (s.channel id).connState = .connected then (s.channel id).releaseHandles services
      else (s.channel id, ⟨services, []⟩)) = r at *
    have hfree' : ({ r.1 with connState := .unconnected } : IdnChannel).Free := ⟨hfree.service, hfree.conduit⟩
    have hmid : Good rest (s.setChannel id { r.1 with connState := .unconnected }) r.2.services :=
      .setChannel hg.ok (hfree'.ok hisopen) (hisopen.trans hopen.symm) hservices fun i kind => by
        rw [hfree'.holds, Nat.zero_add]
        exact hleases i kind
    have hself : (s.setChannel id { r.1 with connState := .unconnected }).channel id =
        { r.1 with connState := .unconnected } := by
      rw [channel_setChannel, if_pos rfl]
    obtain ⟨hgood, hheld⟩ := good_connect hmid (by rw [hself]; exact hfree') (by rw [hself]; exact hisopen)
      serviceID serviceMode
    refine ⟨hgood, ?_⟩
    rw [List.append_nil]
    exact (hheld.append_left _).trans hblocks

/-- A message goes into the inlet that its channel holds, and into no other. -/
theorem moves_pass (hg : Good rest s services) {t : TaxiBuffer}
    (hrun : s.pass services t = .ok r) : Moves rest services t.ids s r := by
  have hfreed : Moves rest services t.ids s ⟨services, t.ids⟩ :=
    Moves.refl _ hg
  rw [pass] at hrun
  split at hrun
  · cases hrun; exact hfreed
  · next i hs =>
    split at hrun
    · cases hrun; exact hfreed
    · next kind hk =>
      have hone : (s.channel t.channel).holds i kind = 1 := if_pos ⟨hs, hk⟩
      have hlent := hg.channel t.channel i kind
      obtain ⟨x, hx, hcurrent⟩ : ∃ x, services[i]? = some x ∧ x.lapro.currentInlet = some kind := by
        rw [lent] at hlent
        split at hlent
        · next hbind => exact Option.bind_eq_some_iff.mp hbind
        · omega
      rw [IDNService.input, hx] at hrun
      dsimp only at hrun
      split at hrun
      · cases hrun
      · next r' hprocess =>
        cases hrun
        obtain ⟨hi, hquiet⟩ := hg.services x (List.mem_of_getElem? hx)
        have hs' := LaproService.stepOk_process hi hprocess
        obtain ⟨hsame, hdis⟩ := LaproService.process_keeps hprocess
        have hquiet' : r'.1.Quiet := fun hne => by
          cases kind with
          | con =>
            rw [hdis rfl]
            exact hquiet (by rw [hcurrent]; decide)
          | dis => exact absurd (hsame.trans hcurrent) hne
        refine ⟨⟨hg.ok, fun j kind' => ?_, ?_⟩, heldBy_set _ hx hs'.blocks⟩
        · rw [hg.leases, lent_set hx, hsame]
          by_cases hij : i = j
          · subst hij
            rw [if_pos rfl, lent_self hx]
          · rw [if_neg hij]
        · exact hg.services.set hs'.inv hquiet'

theorem connect_isOpen (s : ODFSession) (services : List IDNService) (id : Fin 64) (serviceID serviceMode : UInt8) :
    ((s.connect services id serviceID serviceMode).1.channel id).isOpen = (s.channel id).isOpen := by
  rw [connect]
  dsimp only
  split
  · rw [channel_setChannel, if_pos rfl]
  · split
    · show ((s.setChannel id _).channel id).isOpen = _
      rw [channel_setChannel, if_pos rfl]
    · split
      · show ((s.setChannel id _).channel id).isOpen = _
        rw [channel_setChannel, if_pos rfl]
      · rw [channel_setChannel, if_pos rfl]

theorem route_isOpen (s : ODFSession) (services : List IDNService) (id : Fin 64) (serviceID serviceMode : UInt8) :
    ((s.route services id serviceID serviceMode).1.channel id).isOpen = (s.channel id).isOpen := by
  rw [route]
  dsimp only
  split
  · rfl
  · rw [connect_isOpen, channel_setChannel, if_pos rfl]
    dsimp only
    split
    · rw [IdnChannel.releaseHandles]
      split <;> rfl
    · rfl

theorem moves_processOpen (hg : Good rest s services) {t : TaxiBuffer}
    (hopen : (s.channel t.channel).isOpen = true) {p : ODFSession × Served}
    (hrun : s.processOpen services t = .ok p) : Moves rest services t.ids p.1 p.2 := by
  rw [processOpen] at hrun
  dsimp only at hrun
  have hroute : ∀ q : ODFSession × Served,
      q = (if t.sentFlags &&& 0x01 ≠ 0 then s.route services t.channel t.configServiceID t.configServiceMode
        else (s, ⟨services, []⟩)) →
      Moves rest services [] q.1 q.2 ∧ (q.1.channel t.channel).isOpen = true := by
    intro q hq
    split at hq
    · rw [hq]
      exact ⟨moves_route hg hopen _ _, (route_isOpen _ _ _ _ _).trans hopen⟩
    · rw [hq]
      exact ⟨.refl _ hg, hopen⟩
  obtain ⟨hmoves, hisopen⟩ := hroute _ rfl
  generalize (if t.sentFlags &&& 0x01 ≠ 0 then s.route services t.channel t.configServiceID t.configServiceMode
    else (s, ⟨services, []⟩)) = q at *
  split at hrun
  · cases hrun
  · next r' hpass =>
    have hpassed := hmoves.trans (moves_pass hmoves.good hpass)
    split at hrun
    · cases hrun
      have hclosed := hpassed.trans (moves_closeChannel hpassed.good hisopen)
      rwa [List.append_nil] at hclosed
    · cases hrun
      exact hpassed

/-- **A message of a session**: it goes into the inlet of its channel or is freed, and the channel opens,
changes its service and closes as its flags say. -/
theorem moves_processChannelMessage (hg : Good rest s services) {t : TaxiBuffer}
    {p : ODFSession × Served} (hrun : s.processChannelMessage services t = .ok p) :
    Moves rest services t.ids p.1 p.2 := by
  have hg' := Good.input hg t.head.sourceRefTime true
  have hdropped := Moves.refl t.ids hg'
  rw [processChannelMessage] at hrun
  split at hrun
  · cases hrun; exact hdropped
  · split at hrun
    · next hopen => exact moves_processOpen hg' hopen hrun
    · next hclosed =>
      split at hrun
      · cases hrun; exact hdropped
      · obtain ⟨hopened, hopen⟩ := good_openChannel hg' (Bool.eq_false_iff.mpr hclosed)
        exact moves_processOpen hopened hopen hrun

/-! ### the end of a session -/

theorem moves_cancel (hg : Good rest s services) (id : Fin 64) :
    Moves rest services [] (s.cancel services id).1 (s.cancel services id).2 := by
  rw [cancel]
  split
  · next hopen => exact moves_closeChannel hg hopen
  · exact .refl _ hg

theorem moves_cancelAll (hg : Good rest s services) (ids : List (Fin 64)) :
    Moves rest services [] (s.cancelAll services ids).1 (s.cancelAll services ids).2 := by
  induction ids generalizing s services with
  | nil => exact .refl _ hg
  | cons id ids ih =>
    have hfirst := moves_cancel hg id
    exact hfirst.trans (ih hfirst.good)

/-- Channels that were closed stay closed. -/
theorem cancelAll_closed (s : ODFSession) (services : List IDNService) (ids : List (Fin 64)) (id : Fin 64)
    (hclosed : id ∈ ids ∨ (s.channel id).isOpen = false) :
    ((s.cancelAll services ids).1.channel id).isOpen = false := by
  have hcancel : ∀ (s : ODFSession) (services : List IDNService) (j : Fin 64),
      j = id ∨ (s.channel id).isOpen = false → ((s.cancel services j).1.channel id).isOpen = false := by
    intro s services j hj
    rw [cancel]
    split
    · show ((s.setChannel j .closed).channel id).isOpen = false
      rw [channel_setChannel]
      split
      · rfl
      · next hne => exact hj.resolve_left hne
    · next hnot =>
      rcases hj with rfl | hj
      · exact Bool.eq_false_iff.mpr hnot
      · exact hj
  induction ids generalizing s services with
  | nil => exact hclosed.resolve_left (by simp)
  | cons j ids ih =>
    refine ih _ _ ?_
    rcases hclosed with hmem | hshut
    · rcases List.mem_cons.mp hmem with rfl | hmem
      · exact .inr (hcancel s services _ (.inl rfl))
      · exact .inl hmem
    · exact .inr (hcancel s services j (.inr hshut))

/-- a session whose channels are all closed -/
theorem Ok.holds_nothing (hok : s.Ok) (hclosed : ∀ id : Fin 64, (s.channel id).isOpen = false) :
    s.openChannelCount = 0 ∧ ∀ i kind, s.holds i kind = 0 := by
  have hall : ∀ c ∈ s.channels.toList, c = .closed := by
    intro c hc
    obtain ⟨id, rfl⟩ := exists_channel hc
    exact (hok.channels id).closed (hclosed id)
  have htotal : ∀ f : IdnChannel → Nat, f .closed = 0 → s.total f = 0 := fun f hf =>
    List.sum_eq_zero fun x hx => by
      obtain ⟨c, hc, rfl⟩ := List.mem_map.mp hx
      rw [hall c hc, hf]
  exact ⟨hok.count.trans (htotal _ rfl), fun i kind => htotal _ (IdnChannel.free_closed.holds i kind)⟩

theorem toList_start : ODFSession.start.channels.toList = List.replicate 64 .closed := by
  simp [ODFSession.start]

theorem ok_start : ODFSession.start.Ok where
  channels id := by
    have hclosed : ODFSession.start.channel id = .closed := by simp [ODFSession.start, channel]
    exact hclosed ▸ IdnChannel.ok_closed
  count := by
    rw [total, toList_start]
    rfl

theorem holds_start (i : Nat) (kind : InletKind) : ODFSession.start.holds i kind = 0 := by
  rw [holds, total, toList_start]
  simp [IdnChannel.free_closed.holds]

/-- A session that is reset holds nothing. -/
theorem moves_reset (hg : Good rest s services) :
    Moves rest services [] (s.reset services).1 (s.reset services).2 ∧
      (s.reset services).1.openChannelCount = 0 ∧ ∀ i kind, (s.reset services).1.holds i kind = 0 := by
  have hall : ∀ id : Fin 64, id ∈ List.finRange 64 := List.mem_finRange
  rw [reset]
  generalize List.finRange 64 = ids at *
  obtain ⟨hgood, hblocks⟩ := moves_cancelAll hg ids
  have hclosed : ∀ id : Fin 64, ((s.cancelAll services ids).1.channel id).isOpen = false := fun id =>
    cancelAll_closed s services ids id (.inl (hall id))
  obtain ⟨hcount, hholds⟩ := hgood.ok.holds_nothing hclosed
  exact ⟨⟨⟨⟨hgood.ok.channels, hgood.ok.count⟩, hgood.leases, hgood.services⟩, hblocks⟩,
    hcount, hholds⟩

theorem moves_cancelSession (hg : Good rest s services) :
    Moves rest services [] (s.cancelSession services).1 (s.cancelSession services).2 ∧
      (s.cancelSession services).1.openChannelCount = 0 ∧
      ∀ i kind, (s.cancelSession services).1.holds i kind = 0 := by
  have hreset := moves_reset hg
  rw [cancelSession]
  generalize s.reset services = r at *
  obtain ⟨⟨hgood, hblocks⟩, hcount, hholds⟩ := hreset
  exact ⟨⟨⟨⟨hgood.ok.channels, hgood.ok.count⟩, hgood.leases, hgood.services⟩, hblocks⟩,
    hcount, hholds⟩

theorem moves_checkTeardown (hg : Good rest s services) (envTimeUS : UInt32) :
    Moves rest services [] (s.checkTeardown services envTimeUS).2.1
      (s.checkTeardown services envTimeUS).2.2 := by
  rw [checkTeardown]
  split
  · exact .refl _ hg
  · dsimp only
    split
    · exact (moves_reset hg).1
    · exact .refl _ hg

/-- The events of an inlet are all that changes with it. -/
theorem moves_clearPipelineEvents (hg : Good rest s services) (id : Fin 64) :
    Good rest (s.clearPipelineEvents services id).2.1 (s.clearPipelineEvents services id).2.2 ∧
      (heldBy (s.clearPipelineEvents services id).2.2).Perm (heldBy services) := by
  have hquiet : Good rest (s.setEvents id (s.events id &&& channelClosed)) services :=
    ⟨hg.ok.setEvents id _, hg.leases, hg.services⟩
  rw [clearPipelineEvents]
  dsimp only
  split
  · next i kind _ _ =>
    rw [IDNService.onService]
    split
    · exact ⟨hquiet, List.Perm.refl _⟩
    · next x hx =>
      obtain ⟨hi, hq⟩ := hg.services x (List.mem_of_getElem? hx)
      obtain ⟨hi', hblocks, -⟩ := LaproService.stepOk_clearEvents hi kind
      have hkeep : (x.lapro.clearPipelineEvents kind).2.currentInlet = x.lapro.currentInlet ∧
          (x.lapro.clearPipelineEvents kind).2.dis.reassemblyHead = x.lapro.dis.reassemblyHead := by
        cases kind <;> exact ⟨rfl, rfl⟩
      have hheld := heldBy_set (x.lapro.clearPipelineEvents kind).2 hx hblocks
      rw [List.append_nil, List.nil_append] at hheld
      refine ⟨⟨hquiet.ok, fun j kind' => ?_, hg.services.set hi' fun hne => ?_⟩, hheld⟩
      · show s.holds j kind' + _ = _
        rw [hg.leases, lent_set hx, hkeep.1]
        by_cases hij : i = j
        · subst hij
          rw [if_pos rfl, lent_self hx]
        · rw [if_neg hij]
      · rw [hkeep.2]
        exact hq (hkeep.1 ▸ hne)
  · exact ⟨hquiet, List.Perm.refl _⟩

end moves

end ODFSession

end LiberaLink.Idn
