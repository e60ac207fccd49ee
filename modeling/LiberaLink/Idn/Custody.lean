import Mathlib.Data.List.Perm.Basic
import LiberaLink.Idn.Service

/-!
# What the laser service holds

Every block that comes to the service is freed once, and until then it is in one place: in the queue
of the adapter or in the frame that the discrete inlet puts together.  Every decoder lives as long as
an inlet or a chunk in the queue holds it.

* `Decoders.Accounts`         the counts are what they should be, and no deleted decoder was touched;
* `ConfigInlet.Ok`, `Chunk.Ok`   the decoder of an inlet and of a chunk;
* `LaproService.Inv`          what holds of the service after any events, and `LaproService.Counted`
  what holds while the counts have room;
* `service_custody`           **no block is lost and none is freed twice**, in every run;
* `service_decoders`          **no decoder is used after it was deleted**, in every run.
-/

namespace LiberaLink.Idn

/-! ## the counts of the decoders -/

namespace Decoders

/-- one holder of decoder `d` -/
def one (d k : Nat) : Nat := if k = d then 1 else 0

/-- the holder behind a pointer that may be null -/
def opt : Option Nat → Nat → Nat
  | none, _ => 0
  | some d, k => one d k

/-- each count is the number of holders -/
structure Accounts (holders : Nat → Nat) (h : Decoders) : Prop where
  fault : h.fault = false
  count : ∀ d, h.refCount d = holders d

/-- every decoder that was there is there -/
def Grows (h h' : Decoders) : Prop :=
  ∀ d decoder, h.decoder? d = some decoder → h'.decoder? d = some decoder

variable {h h' h'' : Decoders} {holders rest : Nat → Nat} {d k : Nat}

theorem Grows.refl (h : Decoders) : Grows h h := fun _ _ hd => hd

theorem Grows.trans (he : Grows h h') (he' : Grows h' h'') : Grows h h'' :=
  fun d decoder hd => he' d decoder (he d decoder hd)

theorem decoder?_modify (cells : List (IDNLaproDecoder × Nat)) (d k : Nat) (f : IDNLaproDecoder × Nat → Nat) :
    ((cells.modify d fun c => (c.1, f c))[k]?).map Prod.fst = (cells[k]?).map Prod.fst := by
  rw [List.getElem?_modify]
  split
  · cases cells[k]? <;> rfl
  · cases cells[k]? <;> rfl

theorem grows_refInc : Grows h (h.refInc d) := fun k decoder hk => by
  rw [decoder?, refInc, decoder?_modify]
  exact hk

theorem grows_refDec : Grows h (h.refDec d) := fun k decoder hk => by
  rw [decoder?, refDec, decoder?_modify]
  exact hk

theorem grows_release (p : Option Nat) : Grows h (h.release p) := by
  cases p with
  | none => exact .refl h
  | some d => exact grows_refDec

theorem grows_create (decoder : IDNLaproDecoder) : Grows h (h.create decoder) := by
  intro k found hk
  obtain ⟨c, hc, rfl⟩ := Option.map_eq_some_iff.mp hk
  rw [decoder?, create, List.getElem?_append_left (List.getElem?_eq_some_iff.mp hc).1, hc]
  rfl

theorem refCount_refInc (hlt : h.refCount d < 0xFFFFFFFF) (hpos : 0 < h.refCount d) :
    (h.refInc d).refCount k = h.refCount k + one d k := by
  rw [refCount, refInc, List.getElem?_modify, one]
  rw [refCount] at hlt hpos ⊢
  by_cases hk : k = d
  · subst hk
    cases hc : h.cells[k]? with
    | none => rw [hc] at hpos; simp at hpos
    | some c =>
      rw [hc] at hlt
      have hlt' : c.2 < 0xFFFFFFFF := hlt
      simp [hlt']
  · simp [hk, Ne.symm hk]

theorem refCount_refDec (hpos : 0 < h.refCount d) :
    (h.refDec d).refCount k + one d k = h.refCount k := by
  rw [refCount, refDec, List.getElem?_modify, one]
  rw [refCount] at hpos ⊢
  by_cases hk : k = d
  · subst hk
    cases hc : h.cells[k]? with
    | none => rw [hc] at hpos; simp at hpos
    | some c =>
      rw [hc] at hpos
      have hpos' : 0 < c.2 := hpos
      simp only [Option.map_eq_map, Option.map_some, Option.getD_some, if_true]
      omega
  · simp [hk, Ne.symm hk]

theorem refCount_create (decoder : IDNLaproDecoder) :
    (h.create decoder).refCount k = h.refCount k + one h.cells.length k := by
  rw [refCount, create, refCount, one]
  rcases Nat.lt_trichotomy k h.cells.length with hlt | rfl | hgt
  · rw [List.getElem?_append_left hlt, if_neg hlt.ne, Nat.add_zero]
  · simp
  · rw [List.getElem?_eq_none (by simp; omega), List.getElem?_eq_none hgt.le, if_neg hgt.ne']
    rfl

theorem Accounts.cast {holders' : Nat → Nat} (ha : Accounts holders h) (heq : ∀ k, holders k = holders' k) :
    Accounts holders' h := ⟨ha.fault, fun d => (ha.count d).trans (heq d)⟩

theorem Accounts.refInc (ha : Accounts holders h) (hpos : 0 < holders d) (hlt : holders d < 0xFFFFFFFF) :
    Accounts (fun k => one d k + holders k) (h.refInc d) where
  fault := by
    have hlive : h.refCount d ≠ 0 := by rw [ha.count]; omega
    simp [Decoders.refInc, ha.fault, hlive]
  count k := by
    rw [refCount_refInc (by rw [ha.count]; exact hlt) (by rw [ha.count]; exact hpos), ha.count, Nat.add_comm]

theorem Accounts.refDec (ha : Accounts (fun k => one d k + rest k) h) : Accounts rest (h.refDec d) where
  fault := by
    have hlive : h.refCount d ≠ 0 := by rw [ha.count]; simp [one]
    simp [Decoders.refDec, ha.fault, hlive]
  count k := by
    have hsub := refCount_refDec (h := h) (d := d) (k := k) (by rw [ha.count]; simp [one])
    rw [ha.count] at hsub
    omega

theorem Accounts.release {p : Option Nat} (ha : Accounts (fun k => opt p k + rest k) h) :
    Accounts rest (h.release p) := by
  cases p with
  | none => exact ha.cast fun k => Nat.zero_add _
  | some d => exact ha.refDec

theorem Accounts.create (ha : Accounts rest h) (decoder : IDNLaproDecoder) :
    Accounts (fun k => opt (some h.cells.length) k + rest k) (h.create decoder) where
  fault := ha.fault
  count k := by rw [refCount_create, ha.count, Nat.add_comm]; rfl

theorem decoder?_create (decoder : IDNLaproDecoder) :
    (h.create decoder).decoder? h.cells.length = some decoder := by
  simp [Decoders.decoder?, Decoders.create]

end Decoders

open Decoders

/-! ## the configuration -/

/-- The inlet has a decoder when its configuration is valid, and it is the one for the words that it
keeps. -/
structure ConfigInlet.Ok (h : Decoders) (inlet : ConfigInlet) : Prop where
  valid : inlet.configValid = inlet.decoder.isSome
  built : ∀ d, inlet.decoder = some d → ∃ decoder, h.decoder? d = some decoder ∧
    buildFrom inlet.keptConfigWords = .ok (some decoder)

section config
variable {h h' : Decoders} {rest : Nat → Nat} {inlet inlet' : ConfigInlet} {t : TaxiBuffer}

theorem ConfigInlet.Ok.mono (hok : inlet.Ok h) (he : Grows h h') : inlet.Ok h' where
  valid := hok.valid
  built d hd :=
    let ⟨decoder, hfound, hbuilt⟩ := hok.built d hd
    ⟨decoder, he d decoder hfound, hbuilt⟩

theorem ConfigInlet.Ok.raise (hok : inlet.Ok h) (event : UInt32) : (inlet.raise event).Ok h :=
  ⟨hok.valid, hok.built⟩

/-- what an operation on the configuration keeps, whoever else holds decoders -/
structure ConfigStep (inlet : ConfigInlet) (h : Decoders) (inlet' : ConfigInlet) (h' : Decoders) : Prop where
  grows : Grows h h'
  accounts : ∀ rest : Nat → Nat, Accounts (fun k => opt inlet.decoder k + rest k) h →
    Accounts (fun k => opt inlet'.decoder k + rest k) h'
  ok : inlet.Ok h → inlet'.Ok h'

theorem ConfigStep.refl : ConfigStep inlet h inlet h := ⟨.refl h, fun _ ha => ha, fun hok => hok⟩

theorem ConfigStep.trans {inlet'' : ConfigInlet} {h'' : Decoders} (hs : ConfigStep inlet h inlet' h')
    (hs' : ConfigStep inlet' h' inlet'' h'') : ConfigStep inlet h inlet'' h'' :=
  ⟨hs.grows.trans hs'.grows, fun rest ha => hs'.accounts rest (hs.accounts rest ha),
    fun hok => hs'.ok (hs.ok hok)⟩

theorem configStep_invalidate (inlet : ConfigInlet) (h : Decoders) :
    ConfigStep inlet h (inlet.invalidateConfig h).1 (inlet.invalidateConfig h).2 where
  grows := grows_release _
  accounts rest ha := ha.release.cast fun k => (Nat.zero_add _).symm
  ok _ := ⟨rfl, fun d hd => by cases hd⟩

theorem configStep_checkConfig (inlet : ConfigInlet) (h : Decoders) (t : TaxiBuffer) :
    ConfigStep inlet h (inlet.checkConfig h t).1 (inlet.checkConfig h t).2 := by
  rw [ConfigInlet.checkConfig]
  split
  · exact configStep_invalidate inlet h
  · exact .refl

theorem configStep_makeConfig (hinvalid : inlet.configValid = false)
    (hmake : inlet.makeConfig h t = .ok (inlet', h')) : ConfigStep inlet h inlet' h' := by
  rw [ConfigInlet.makeConfig, ConfigInlet.createDecoder] at hmake
  have hfail : ConfigStep inlet h ({ inlet with decoder := none }.raise cfgErr) (h.release inlet.decoder) :=
    ⟨grows_release _, fun rest ha => ha.release.cast fun k => (Nat.zero_add _).symm,
      fun _ => ⟨hinvalid, fun d hd => by cases hd⟩⟩
  split at hmake
  · cases hmake
  · next hcreate =>
    cases hmake
    split at hcreate
    · cases hcreate; exact hfail
    · split at hcreate
      · cases hcreate
      · cases hcreate; exact hfail
      · cases hcreate
  · next hcreate =>
    cases hmake
    split at hcreate
    · cases hcreate
    · split at hcreate
      · cases hcreate
      · cases hcreate
      · next decoder hbuilt =>
        cases hcreate
        exact {
          grows := (grows_release _).trans (grows_create decoder)
          accounts := fun rest ha => ha.release.create decoder
          ok := fun _ => ⟨rfl, fun d hd => by
            cases hd
            exact ⟨decoder, decoder?_create decoder, hbuilt⟩⟩ }

theorem configStep_renewConfig (hrenew : inlet.renewConfig h t = .ok (inlet', h')) :
    ConfigStep inlet h inlet' h' := by
  rw [ConfigInlet.renewConfig] at hrenew
  split at hrenew
  · cases hrenew; exact .refl
  · next hinvalid => exact configStep_makeConfig (by simpa using hinvalid) hrenew

theorem configStep_keepFlags (inlet : ConfigInlet) (h : Decoders) (configFlags : UInt8) :
    ConfigStep inlet h (inlet.keepFlags configFlags) h := by
  rw [ConfigInlet.keepFlags]
  split
  · exact ⟨.refl h, fun rest ha => ha, fun hok => ⟨hok.valid, hok.built⟩⟩
  · exact .refl

theorem configStep_readConfig (hread : inlet.readConfig h t = .ok (inlet', h')) :
    ConfigStep inlet h inlet' h' := by
  rw [ConfigInlet.readConfig] at hread
  split at hread
  · cases hread; exact .refl
  · refine (configStep_checkConfig inlet h t).trans ?_
    dsimp only at hread
    split at hread
    · cases hread
    · next hrenew =>
      cases hread
      exact (configStep_renewConfig hrenew).trans (configStep_keepFlags _ _ _)

end config

/-! ## the output -/

/-- how many chunks hold decoder `k` -/
def holdersIn (queue : List Chunk) (k : Nat) : Nat := queue.countP fun c => c.decoder = k

/-- The decoder of a chunk is there, and its samples fill the buffer. -/
def SamplesOk (h : Decoders) (decoder : Nat) (sampleCount : Nat) (taxi : TaxiBuffer) : Prop :=
  ∃ found, h.decoder? decoder = some found ∧ taxi.getTotalLen = sampleCount * found.sampleSize

def Chunk.Ok (h : Decoders) (c : Chunk) : Prop := SamplesOk h c.decoder c.sampleCount c.taxi

def ChunkData.Ok (h : Decoders) (c : ChunkData) : Prop := SamplesOk h c.decoder c.sampleCount c.taxi

/-- an idle output takes nothing, and has nothing left in a queue that gives back what it was given -/
def Output.Rests (o : Output) : Prop :=
  o.opMode = .idle → o.enabledFlag = false ∧ (o.stuck = false → o.queue = [])

/-- where the adapter is in the queue -/
structure Output.Placed (o : Output) : Prop where
  seen : o.seen ≤ o.queue.length
  /-- a poll has its chunk before it -/
  polling : o.polling = true → o.seen < o.queue.length
  /-- a queue that gives nothing back has something -/
  stuck : o.stuck = true → o.queue ≠ []

/-- what an operation of the output keeps, whoever else holds decoders -/
structure OutputStep (o : Output) (h : Decoders) (given : List Nat) (o' : Output) (h' : Decoders)
    (freed : List Nat) : Prop where
  grows : Grows h h'
  accounts : ∀ rest : Nat → Nat, Accounts (fun k => holdersIn o.queue k + rest k) h →
    Accounts (fun k => holdersIn o'.queue k + rest k) h'
  blocks : (freed ++ o'.held).Perm (o.held ++ given)
  chunks : (∀ c ∈ o.queue, c.Ok h) → ∀ c ∈ o'.queue, c.Ok h'
  placed : o.Placed → o'.Placed
  mode : o.Placed → o.Rests → o'.Rests

section output
variable {h h' : Decoders} {rest : Nat → Nat} {o : Output} {data : ChunkData}

theorem SamplesOk.mono {decoder sampleCount : Nat} {taxi : TaxiBuffer}
    (hok : SamplesOk h decoder sampleCount taxi) (he : Grows h h') :
    SamplesOk h' decoder sampleCount taxi :=
  let ⟨found, hfound, hlen⟩ := hok
  ⟨found, he _ _ hfound, hlen⟩

theorem grows_foldl (queue : List Chunk) (h : Decoders) :
    Grows h (queue.foldl (fun h c => h.refDec c.decoder) h) := by
  induction queue generalizing h with
  | nil => exact .refl h
  | cons c queue ih => exact grows_refDec.trans (ih _)

theorem accounts_foldl {queue : List Chunk} (ha : Accounts (fun k => holdersIn queue k + rest k) h) :
    Accounts rest (queue.foldl (fun h c => h.refDec c.decoder) h) := by
  induction queue generalizing h with
  | nil => exact ha.cast fun k => Nat.zero_add _
  | cons c queue ih =>
    refine ih (Accounts.refDec (ha.cast fun k => ?_))
    rw [holdersIn, List.countP_cons, one]
    by_cases hk : c.decoder = k
    · simp [hk, holdersIn, Nat.add_comm, Nat.add_left_comm]
    · simp [hk, Ne.symm hk, holdersIn]

theorem OutputStep.refl : OutputStep o h [] o h [] where
  grows := .refl h
  accounts _ ha := ha
  blocks := by rw [List.append_nil]; exact List.Perm.refl _
  chunks hok := hok
  placed hp := hp
  mode _ hrests := hrests

theorem recycle_stuck (hstuck : o.stuck = true) : o.recycle h = (o, h, []) := by
  rw [Output.recycle, if_pos hstuck]

theorem recycle_free (hfree : o.stuck = false) : o.recycle h =
    ({ o with queue := o.queue.drop o.seen, seen := 0 },
      (o.queue.take o.seen).foldl (fun h c => h.refDec c.decoder) h,
      (o.queue.take o.seen).flatMap fun c => c.taxi.ids) := by
  rw [Output.recycle, if_neg (by rw [hfree]; exact Bool.false_ne_true)]

theorem outputStep_recycle (o : Output) (h : Decoders) :
    OutputStep o h [] (o.recycle h).1 (o.recycle h).2.1 (o.recycle h).2.2 := by
  cases hstuck : o.stuck with
  | true =>
    rw [recycle_stuck hstuck]
    exact .refl
  | false =>
    rw [recycle_free hstuck]
    exact {
      grows := grows_foldl _ _
      accounts := fun rest ha => by
        refine accounts_foldl (ha.cast fun k => ?_)
        have hsplit : holdersIn o.queue k =
            holdersIn (o.queue.take o.seen) k + holdersIn (o.queue.drop o.seen) k := by
          rw [holdersIn, holdersIn, holdersIn, ← List.countP_append, List.take_append_drop]
        rw [hsplit, Nat.add_assoc]
      blocks := by
        rw [List.append_nil, Output.held, Output.held, ← List.flatMap_append, List.take_append_drop]
      chunks := fun hok c hc => (hok c (List.mem_of_mem_drop hc)).mono (grows_foldl _ _)
      placed := fun hp => {
        seen := Nat.zero_le _
        polling := fun hpolling => by
          have hlt := hp.polling hpolling
          show 0 < (o.queue.drop o.seen).length
          rw [List.length_drop]
          omega
        stuck := fun h => by rw [show o.stuck = true from h] at hstuck; cases hstuck }
      mode := fun _ hrests hidle => by
        obtain ⟨hdisabled, hqueue⟩ := hrests hidle
        exact ⟨hdisabled, fun hfree => by simp [hqueue hfree]⟩ }

/-- an operation that leaves the queue, before the queue is recycled -/
theorem OutputStep.recycle_after {o' : Output} (hqueue : o'.queue = o.queue)
    (hplaced : o.Placed → o'.Placed) (hmode : o.Placed → o.Rests → (o'.recycle h).1.Rests) :
    OutputStep o h [] (o'.recycle h).1 (o'.recycle h).2.1 (o'.recycle h).2.2 := by
  have hstep := outputStep_recycle o' h
  have hheld : o'.held = o.held := by rw [Output.held, Output.held, hqueue]
  exact {
    grows := hstep.grows
    accounts := fun rest ha => hstep.accounts rest (by rw [hqueue]; exact ha)
    blocks := by have hblocks := hstep.blocks; rwa [hheld] at hblocks
    chunks := fun hok => hstep.chunks (by rw [hqueue]; exact hok)
    placed := fun hp => hstep.placed (hplaced hp)
    mode := hmode }

theorem recycle_opMode (o : Output) (h : Decoders) : (o.recycle h).1.opMode = o.opMode := by
  rw [Output.recycle]
  split <;> rfl

theorem recycle_rests_busy (hbusy : o.opMode ≠ .idle) : (o.recycle h).1.Rests := fun hidle => by
  rw [recycle_opMode] at hidle
  exact absurd hidle hbusy

theorem outputStep_gracefulStop (o : Output) (h : Decoders) :
    OutputStep o h [] (o.gracefulStop.recycle h).1 (o.gracefulStop.recycle h).2.1
      (o.gracefulStop.recycle h).2.2 := by
  rw [Output.gracefulStop]
  split
  · next hall =>
    refine .recycle_after rfl (fun hp => ⟨hp.seen, hp.polling, hp.stuck⟩) fun _ _ => ?_
    cases hstuck : o.stuck with
    | true =>
      rw [recycle_stuck rfl]
      exact fun _ => ⟨rfl, fun hfree => by cases hfree⟩
    | false =>
      rw [recycle_free rfl]
      exact fun _ => ⟨rfl, fun _ => List.drop_eq_nil_of_le hall.ge⟩
  · exact .recycle_after rfl (fun hp => ⟨hp.seen, hp.polling, hp.stuck⟩) fun _ _ =>
      recycle_rests_busy (by simp)

theorem gracefulStop_active (o : Output) (h : Decoders) :
    (o.gracefulStop.recycle h).1.opMode.active = false := by
  rw [recycle_opMode, Output.gracefulStop]
  split <;> rfl

theorem outputStep_close (o : Output) (h : Decoders) :
    OutputStep o h [] (o.close h).1 (o.close h).2.1 (o.close h).2.2 := by
  rw [Output.close]
  split
  · exact outputStep_gracefulStop o h
  · exact .refl

theorem recycle_polling (o : Output) (h : Decoders) : (o.recycle h).1.polling = o.polling := by
  rw [Output.recycle]
  split <;> rfl

/-- The adapter is between two polls when it is stopped. -/
theorem outputStep_forcedStop (hbusy : o.opMode ≠ .idle) (hpolling : o.polling = false) (chained : Bool) :
    OutputStep o h [] (o.forcedStop h chained).1 (o.forcedStop h chained).2.1
      (o.forcedStop h chained).2.2 := by
  rw [Output.forcedStop]
  split
  · next hleft =>
    simp only [Bool.and_eq_true, Bool.not_eq_true', decide_eq_true_eq] at hleft
    obtain ⟨⟨-, hfree⟩, hlt⟩ := hleft
    have hstep := outputStep_recycle o h
    exact {
      grows := hstep.grows
      accounts := hstep.accounts
      blocks := hstep.blocks
      chunks := hstep.chunks
      placed := fun _ => {
        seen := Nat.le_refl _
        polling := fun h' => absurd ((recycle_polling o h).symm.trans h')
          (by rw [hpolling]; exact Bool.false_ne_true)
        stuck := fun _ => by
          show (o.recycle h).1.queue ≠ []
          rw [recycle_free hfree]
          exact List.drop_eq_nil_iff.not.mpr (Nat.not_le.mpr hlt) }
      mode := fun _ _ hidle => absurd ((recycle_opMode o h).symm.trans hidle) hbusy }
  · refine .recycle_after rfl (fun hp => ⟨Nat.le_refl _, fun h' => ?_, hp.stuck⟩) fun _ _ =>
      recycle_rests_busy hbusy
    rw [show o.polling = true from h'] at hpolling
    cases hpolling

theorem outputStep_housekeeping (o : Output) (h : Decoders) {shutdownFlag : Bool} (chained : Bool)
    (hpolling : shutdownFlag = true → o.polling = false) :
    OutputStep o h [] (o.housekeeping h shutdownFlag chained).1
      (o.housekeeping h shutdownFlag chained).2.1 (o.housekeeping h shutdownFlag chained).2.2 := by
  rw [Output.housekeeping]
  split
  · exact .refl
  · next hbusy =>
    split
    · next hshutdown => exact outputStep_forcedStop hbusy (hpolling hshutdown) chained
    · split
      · exact outputStep_gracefulStop o h
      · exact outputStep_recycle o h

theorem housekeeping_opMode (o : Output) (h : Decoders) (shutdownFlag chained : Bool) :
    (o.housekeeping h shutdownFlag chained).1.opMode = o.opMode ∨
      o.opMode = .flushing ∧ (o.housekeeping h shutdownFlag chained).1.opMode.active = false := by
  rw [Output.housekeeping]
  split
  · exact .inl rfl
  · split
    · rw [Output.forcedStop]
      split
      · exact .inl (recycle_opMode o h)
      · exact .inl (recycle_opMode _ h)
    · split
      · next hflushing => exact .inr ⟨hflushing, gracefulStop_active o h⟩
      · exact .inl (recycle_opMode o h)

/-! a chunk comes to the output -/

theorem memo_eq {chunk : Chunk} (hmemo : o.memo data = some chunk) :
    chunk.taxi = data.taxi ∧ chunk.decoder = data.decoder ∧ chunk.sampleCount = data.sampleCount ∧
      o.opMode.active := by
  rw [Output.memo] at hmemo
  split at hmemo
  · next hmode => cases hmemo; exact ⟨rfl, rfl, rfl, by rw [hmode]; rfl⟩
  · next hmode => cases hmemo; exact ⟨rfl, rfl, rfl, by rw [hmode]; rfl⟩
  · cases hmemo

theorem holdersIn_concat (queue : List Chunk) (chunk : Chunk) (k : Nat) :
    holdersIn (queue ++ [chunk]) k = one chunk.decoder k + holdersIn queue k := by
  rw [holdersIn, List.countP_append, holdersIn, one, Nat.add_comm]
  by_cases hk : chunk.decoder = k
  · simp [hk]
  · simp [hk, Ne.symm hk]

/-- What becomes of a chunk: it is in the queue, or it was freed. -/
theorem process_cases (o : Output) (h : Decoders) (data : ChunkData) :
    (∃ chunk, o.memo data = some chunk ∧ o.enabledFlag = true ∧
        o.process h data = { o with queue := o.queue ++ [chunk] }.recycle (h.refInc data.decoder)) ∨
      o.process h data =
        ((o.recycle ((h.refInc data.decoder).refDec data.decoder)).1,
          (o.recycle ((h.refInc data.decoder).refDec data.decoder)).2.1,
          data.taxi.ids ++ (o.recycle ((h.refInc data.decoder).refDec data.decoder)).2.2) := by
  rw [Output.process]
  split
  · next chunk henabled hmemo => exact .inl ⟨chunk, hmemo, henabled, rfl⟩
  · exact .inr rfl

theorem process_extends (o : Output) (h : Decoders) (data : ChunkData) :
    Grows h (o.process h data).2.1 := by
  rcases process_cases o h data with ⟨chunk, -, -, hrun⟩ | hrun
  · rw [hrun]
    exact grows_refInc.trans (outputStep_recycle _ _).grows
  · rw [hrun]
    exact (grows_refInc.trans grows_refDec).trans (outputStep_recycle _ _).grows

theorem process_accounts (rest : Nat → Nat) (ha : Accounts (fun k => holdersIn o.queue k + rest k) h)
    (hheld : 0 < rest data.decoder)
    (hlt : holdersIn o.queue data.decoder + rest data.decoder < 0xFFFFFFFF) :
    Accounts (fun k => holdersIn (o.process h data).1.queue k + rest k) (o.process h data).2.1 := by
  have hinc := ha.refInc (d := data.decoder) (by omega) hlt
  rcases process_cases o h data with ⟨chunk, hmemo, -, hrun⟩ | hrun
  · rw [hrun]
    refine (outputStep_recycle _ _).accounts rest (hinc.cast fun k => ?_)
    rw [holdersIn_concat, (memo_eq hmemo).2.1, Nat.add_assoc]
  · rw [hrun]
    exact (outputStep_recycle _ _).accounts rest hinc.refDec

theorem process_blocks (o : Output) (h : Decoders) (data : ChunkData) :
    ((o.process h data).2.2 ++ (o.process h data).1.held).Perm (o.held ++ data.taxi.ids) := by
  rcases process_cases o h data with ⟨chunk, hmemo, -, hrun⟩ | hrun
  · rw [hrun]
    have hstep := (outputStep_recycle { o with queue := o.queue ++ [chunk] } (h.refInc data.decoder)).blocks
    rw [List.append_nil] at hstep
    refine hstep.trans (List.Perm.of_eq ?_)
    simp [Output.held, (memo_eq hmemo).1]
  · rw [hrun, List.append_assoc]
    have hstep := (outputStep_recycle o ((h.refInc data.decoder).refDec data.decoder)).blocks
    rw [List.append_nil] at hstep
    exact (hstep.append_left _).trans List.perm_append_comm

theorem process_chunks (hok : ∀ c ∈ o.queue, c.Ok h) (hdata : data.Ok h) :
    ∀ c ∈ (o.process h data).1.queue, c.Ok (o.process h data).2.1 := by
  rcases process_cases o h data with ⟨chunk, hmemo, -, hrun⟩ | hrun
  · rw [hrun]
    refine (outputStep_recycle _ _).chunks fun c hc => ?_
    rcases List.mem_append.mp hc with hold | hnew
    · exact (hok c hold).mono grows_refInc
    · obtain rfl := List.mem_singleton.mp hnew
      obtain ⟨htaxi, hdecoder, hcount, -⟩ := memo_eq hmemo
      rw [Chunk.Ok, htaxi, hdecoder, hcount]
      exact hdata.mono grows_refInc
  · rw [hrun]
    exact (outputStep_recycle _ _).chunks fun c hc => (hok c hc).mono (grows_refInc.trans grows_refDec)

/-- A chunk does not close the output, and it is no trouble for the adapter. -/
theorem process_queue (o : Output) (h : Decoders) (data : ChunkData) :
    (o.process h data).1.opMode = o.opMode ∧ (o.Placed → (o.process h data).1.Placed) ∧
      (o.Placed → o.Rests → (o.process h data).1.Rests) := by
  rcases process_cases o h data with ⟨chunk, hmemo, -, hrun⟩ | hrun
  · rw [hrun]
    have hstep := outputStep_recycle { o with queue := o.queue ++ [chunk] } (h.refInc data.decoder)
    refine ⟨recycle_opMode _ _, fun hp => hstep.placed ?_, fun _ _ => recycle_rests_busy fun hidle => ?_⟩
    · have hlonger : o.queue.length < (o.queue ++ [chunk]).length := by
        rw [List.length_append]
        exact Nat.lt_succ_self _
      exact ⟨hp.seen.trans hlonger.le, fun hpolling => (hp.polling hpolling).trans hlonger,
        fun _ => List.concat_ne_nil chunk o.queue⟩
    · have hactive := (memo_eq hmemo).2.2.2
      rw [show o.opMode = .idle from hidle] at hactive
      cases hactive
  · rw [hrun]
    have hstep := outputStep_recycle o ((h.refInc data.decoder).refDec data.decoder)
    exact ⟨recycle_opMode _ _, hstep.placed, hstep.mode⟩

end output

/-! ## the chunk that an inlet passes on -/

section dispatch
variable {h : Decoders} {t : TaxiBuffer} {chunk : ChunkData}

theorem unwrap_ids (t : TaxiBuffer) : (unwrap t).ids = t.ids := by
  rw [unwrap]
  split <;> rfl

/-- A chunk has the decoder of its inlet and the blocks of its message, and as many samples as it
says. -/
theorem openChunk_ok {inlet : ConfigInlet} {tooShort : Nat → Nat → Bool}
    (hopen : openChunk inlet h tooShort t = .ok chunk) :
    inlet.decoder = some chunk.decoder ∧ chunk.taxi.ids = t.ids ∧ chunk.Ok h := by
  rw [openChunk] at hopen
  split at hopen
  · next d decoder _ hfound =>
    obtain ⟨d', hd', hmap⟩ := Option.bind_eq_some_iff.mp hfound
    obtain ⟨found, hfound', hpair⟩ := Option.map_eq_some_iff.mp hmap
    cases hpair
    dsimp only at hopen
    split at hopen
    · cases hopen
    · next hwhole =>
      split at hopen
      · cases hopen
      · split at hopen
        · cases hopen
        · cases hopen
          refine ⟨hd', (TaxiBuffer.adjustFront_ids _ _).trans (unwrap_ids t), decoder, hfound', ?_⟩
          have hzero : ((unwrap t).adjustFront sampleChunkSize).getTotalLen % decoder.sampleSize = 0 := by
            simpa using hwhole
          exact (Nat.div_mul_cancel (Nat.dvd_of_mod_eq_zero hzero)).symm
  · cases hopen

/-- only events were raised -/
def OnlyEvents (inlet inlet' : ConfigInlet) : Prop :=
  inlet' = { inlet with pipelineEvents := inlet'.pipelineEvents }

theorem OnlyEvents.raise {inlet inlet' : ConfigInlet} (ho : OnlyEvents inlet inlet') (event : UInt32) :
    OnlyEvents inlet (inlet'.raise event) := by
  rw [OnlyEvents] at *
  rw [ho]
  rfl

theorem OnlyEvents.configStep {inlet inlet' : ConfigInlet} (ho : OnlyEvents inlet inlet') :
    ConfigStep inlet h inlet' h := by
  rw [OnlyEvents] at ho
  rw [ho]
  exact ⟨.refl h, fun rest ha => ha, fun hok => ⟨hok.valid, hok.built⟩⟩

theorem OnlyEvents.decoder {inlet inlet' : ConfigInlet} (ho : OnlyEvents inlet inlet') :
    inlet'.decoder = inlet.decoder := by
  rw [OnlyEvents] at ho
  rw [ho]

/-- what an inlet passes on comes from its message and has its decoder -/
def Passes (h : Decoders) (t : TaxiBuffer) (inlet : ConfigInlet) (chunk : Option ChunkData) : Prop :=
  ∀ c, chunk = some c → inlet.decoder = some c.decoder ∧ c.taxi.ids = t.ids ∧ c.Ok h

theorem chronology_passes {con : ConInlet} {timestamp : UInt32}
    (hp : Passes h t con.toConfigInlet (some chunk)) :
    OnlyEvents con.toConfigInlet (con.chronology timestamp chunk).1.toConfigInlet ∧
      Passes h t con.toConfigInlet (con.chronology timestamp chunk).2 := by
  have hchunk := hp chunk rfl
  rw [ConInlet.chronology]
  dsimp only
  split
  · split
    · exact ⟨rfl, fun c hc => by cases hc⟩
    · split
      · refine ⟨rfl, fun c hc => ?_⟩
        cases hc
        exact hchunk
      · refine ⟨?_, hp⟩
        split <;> rfl
  · exact ⟨rfl, hp⟩

theorem conDispatch_passes (con : ConInlet) (h : Decoders) (t : TaxiBuffer) :
    OnlyEvents con.toConfigInlet (con.dispatch h t).1.toConfigInlet ∧
      Passes h t con.toConfigInlet (con.dispatch h t).2 := by
  rw [ConInlet.dispatch]
  split
  · exact ⟨rfl, fun c hc => by cases hc⟩
  · split
    · split
      · exact ⟨rfl, fun c hc => by cases hc⟩
      · next chunk hopen =>
        obtain ⟨hdecoder, hids, hok⟩ := openChunk_ok hopen
        refine chronology_passes fun c hc => ?_
        cases hc
        exact ⟨hdecoder, hids, hok⟩
    · exact ⟨rfl, fun c hc => by cases hc⟩

theorem disDispatch_passes (dis : DisInlet) (h : Decoders) (t : TaxiBuffer) :
    OnlyEvents dis.toConfigInlet (dis.dispatch h t).1.toConfigInlet ∧
      (dis.dispatch h t).1.reassemblyHead = dis.reassemblyHead ∧
      Passes h t dis.toConfigInlet (dis.dispatch h t).2 := by
  rw [DisInlet.dispatch]
  split
  · exact ⟨rfl, rfl, fun c hc => by cases hc⟩
  · split
    · split
      · exact ⟨rfl, rfl, fun c hc => by cases hc⟩
      · next chunk hopen =>
        refine ⟨rfl, rfl, fun c hc => ?_⟩
        cases hc
        exact openChunk_ok hopen
    · exact ⟨rfl, rfl, fun c hc => by cases hc⟩

theorem configStep_giveUp (con : ConInlet) (h : Decoders) :
    ConfigStep con.toConfigInlet h (con.giveUp h).1.toConfigInlet (con.giveUp h).2 := by
  rw [ConInlet.giveUp]
  split
  · exact configStep_invalidate con.toConfigInlet h
  · exact .refl

theorem held_some {dis : DisInlet} {head : TaxiBuffer} (hhead : dis.reassemblyHead = some head) :
    dis.held = head.ids := by
  rw [DisInlet.held, hhead]
  rfl

theorem held_none {dis : DisInlet} (hhead : dis.reassemblyHead = none) : dis.held = [] := by
  rw [DisInlet.held, hhead]
  rfl

/-- the blocks of a message that may not be there -/
def idsOf (t : Option TaxiBuffer) : List Nat := (t.map TaxiBuffer.ids).getD []

/-- Fragments are kept, passed on or freed. -/
theorem reassemble_blocks (dis : DisInlet) (t : TaxiBuffer) :
    ((dis.reassemble t).2.2 ++ ((dis.reassemble t).1.held ++ idsOf (dis.reassemble t).2.1)).Perm
        (dis.held ++ t.ids) ∧
      OnlyEvents dis.toConfigInlet (dis.reassemble t).1.toConfigInlet := by
  rw [DisInlet.reassemble]
  split
  · split
    · next head hhead =>
      refine ⟨?_, rfl⟩
      rw [held_some hhead]
      simp [DisInlet.held, idsOf]
    · next hhead =>
      refine ⟨?_, rfl⟩
      rw [held_none hhead]
      simp [DisInlet.held, idsOf]
  · split
    · split
      · next hhead =>
        refine ⟨?_, rfl⟩
        simp [DisInlet.held, hhead, idsOf]
      · next head hhead =>
        rw [held_some hhead]
        split
        · exact ⟨by simpa [DisInlet.held, idsOf] using List.perm_append_comm, rfl⟩
        · dsimp only
          split
          · exact ⟨by simp [DisInlet.held, idsOf], rfl⟩
          · split
            · exact ⟨by simp [DisInlet.held, idsOf, TaxiBuffer.setContentID_ids], rfl⟩
            · exact ⟨by simp [DisInlet.held, idsOf], rfl⟩
    · split
      · next hhead => exact ⟨by simp [held_none hhead, idsOf], rfl⟩
      · next head hhead =>
        dsimp only
        split
        · exact ⟨by simp [DisInlet.held, hhead, idsOf], rfl⟩
        · exact ⟨by simp [held_some hhead, idsOf], rfl⟩

end dispatch

/-! ## the service -/

namespace LaproService

/-- the output is open for the inlet that is lent -/
def Lent (currentInlet : Option InletKind) (opMode : OpMode) : Prop :=
  match currentInlet with
  | some .con => opMode = .wave
  | some .dis => opMode = .frame
  | none => opMode.active = false

theorem lent_none {currentInlet : Option InletKind} (hlent : Lent currentInlet .flushing) :
    currentInlet = none := by
  cases currentInlet with
  | none => rfl
  | some kind => cases kind <;> cases hlent

/-- What holds of the service after any events. -/
structure Inv (s : LaproService) : Prop where
  con : s.con.Ok s.decoders
  dis : s.dis.Ok s.decoders
  chunks : ∀ c ∈ s.output.queue, c.Ok s.decoders
  placed : s.output.Placed
  rests : s.output.Rests
  lent : Lent s.currentInlet s.output.opMode

/-- The counts of the decoders are those of their holders. -/
def Counted (s : LaproService) : Prop :=
  Accounts (fun k => opt s.con.decoder k + (opt s.dis.decoder k + holdersIn s.output.queue k)) s.decoders

/-- There is room for one more holder in every count. -/
def HasRoom (s : LaproService) : Prop := s.output.queue.length + 2 < 0xFFFFFFFF

variable {s : LaproService}

/-- the configuration of the continuous inlet changes -/
theorem Inv.setCon (hi : s.Inv) (con : ConInlet) {h : Decoders}
    (hstep : ConfigStep s.con.toConfigInlet s.decoders con.toConfigInlet h) :
    Inv { s with con := con, decoders := h } where
  con := hstep.ok hi.con
  dis := hi.dis.mono hstep.grows
  chunks c hc := (hi.chunks c hc).mono hstep.grows
  placed := hi.placed
  rests := hi.rests
  lent := hi.lent

theorem Counted.setCon (hc : s.Counted) (con : ConInlet) {h : Decoders}
    (hstep : ConfigStep s.con.toConfigInlet s.decoders con.toConfigInlet h) :
    Counted { s with con := con, decoders := h } := hstep.accounts _ hc

theorem Inv.setDis (hi : s.Inv) (dis : DisInlet) {h : Decoders}
    (hstep : ConfigStep s.dis.toConfigInlet s.decoders dis.toConfigInlet h) :
    Inv { s with dis := dis, decoders := h } where
  con := hi.con.mono hstep.grows
  dis := hstep.ok hi.dis
  chunks c hc := (hi.chunks c hc).mono hstep.grows
  placed := hi.placed
  rests := hi.rests
  lent := hi.lent

theorem Counted.setDis (hc : s.Counted) (dis : DisInlet) {h : Decoders}
    (hstep : ConfigStep s.dis.toConfigInlet s.decoders dis.toConfigInlet h) :
    Counted { s with dis := dis, decoders := h } := by
  refine (hstep.accounts (fun k => opt s.con.decoder k + holdersIn s.output.queue k)
    (hc.cast fun k => ?_)).cast fun k => ?_
  · exact Nat.add_left_comm _ _ _
  · exact Nat.add_left_comm _ _ _

/-- an operation of the output, after which this inlet is lent -/
theorem Inv.setOutput (hi : s.Inv) {output : Output} {h : Decoders} {freed : List Nat}
    (hstep : OutputStep s.output s.decoders [] output h freed) (currentInlet : Option InletKind)
    (hlent : Lent currentInlet output.opMode) :
    Inv { s with output := output, decoders := h, currentInlet := currentInlet } where
  con := hi.con.mono hstep.grows
  dis := hi.dis.mono hstep.grows
  chunks := hstep.chunks hi.chunks
  placed := hstep.placed hi.placed
  rests := hstep.mode hi.placed hi.rests
  lent := hlent

/-- the holders in the queue, and the others -/
theorem Counted.queue (hc : s.Counted) :
    Accounts (fun k => holdersIn s.output.queue k + (opt s.con.decoder k + opt s.dis.decoder k)) s.decoders :=
  hc.cast fun k => by rw [← Nat.add_assoc, Nat.add_comm]

theorem counted_of_queue
    (ha : Accounts (fun k => holdersIn s.output.queue k + (opt s.con.decoder k + opt s.dis.decoder k)) s.decoders) :
    s.Counted := ha.cast fun _ => (Nat.add_comm _ _).trans (Nat.add_assoc _ _ _)

theorem Counted.setOutput (hc : s.Counted) {output : Output} {h : Decoders} {freed : List Nat}
    (hstep : OutputStep s.output s.decoders [] output h freed) (currentInlet : Option InletKind) :
    Counted { s with output := output, decoders := h, currentInlet := currentInlet } :=
  counted_of_queue (hstep.accounts _ hc.queue)

theorem opt_le_one (p : Option Nat) (k : Nat) : opt p k ≤ 1 := by
  cases p with
  | none => exact Nat.zero_le 1
  | some d =>
    rw [opt, one]
    split <;> omega

/-- what the output frees, among all that the service holds -/
theorem held_output (dis : DisInlet) {o o' : Output} {freed given : List Nat}
    (hblocks : (freed ++ o'.held).Perm (o.held ++ given)) :
    (freed ++ (dis.held ++ o'.held)).Perm (dis.held ++ o.held ++ given) := by
  refine List.perm_iff_count.mpr fun k => ?_
  have hcount := List.perm_iff_count.mp hblocks k
  simp only [List.count_append] at hcount ⊢
  omega

/-- An event keeps what holds of the service, its blocks, and the counts of the decoders when there is
room in them. -/
structure StepOk (s : LaproService) (given : List Nat) (r : LaproService × List Nat) : Prop where
  inv : Inv r.1
  blocks : (r.2 ++ r.1.held).Perm (s.held ++ given)
  counted : s.HasRoom → s.Counted → r.1.Counted

/-- a chunk goes to the output -/
theorem Inv.pass (hi : s.Inv) {t : TaxiBuffer} {chunk : Option ChunkData}
    (hpass : ∀ c, chunk = some c → (s.con.decoder = some c.decoder ∨ s.dis.decoder = some c.decoder) ∧
      c.taxi.ids = t.ids ∧ c.Ok s.decoders) :
    StepOk s t.ids (s.pass t chunk) := by
  cases chunk with
  | none => exact ⟨hi, List.perm_append_comm, fun _ hc => hc⟩
  | some c =>
    obtain ⟨hheld, hids, hok⟩ := hpass c rfl
    obtain ⟨hmode, hplaced, hrests⟩ := process_queue s.output s.decoders c
    have hext := process_extends s.output s.decoders c
    have hblocks := process_blocks s.output s.decoders c
    rw [hids] at hblocks
    refine ⟨?_, held_output s.dis hblocks, fun hroom hc => ?_⟩
    · exact {
        con := hi.con.mono hext
        dis := hi.dis.mono hext
        chunks := process_chunks hi.chunks hok
        placed := hplaced hi.placed
        rests := hrests hi.placed hi.rests
        lent := by
          show Lent s.currentInlet (s.output.process s.decoders c).1.opMode
          rw [hmode]
          exact hi.lent }
    · have hone : 0 < opt s.con.decoder c.decoder + opt s.dis.decoder c.decoder := by
        rcases hheld with hcon | hdis
        · rw [hcon, opt, one, if_pos rfl]
          omega
        · rw [hdis, opt, one, if_pos rfl]
          omega
      have hlt : holdersIn s.output.queue c.decoder +
          (opt s.con.decoder c.decoder + opt s.dis.decoder c.decoder) < 0xFFFFFFFF := by
        have h₁ : holdersIn s.output.queue c.decoder ≤ s.output.queue.length := List.countP_le_length
        have h₂ : s.output.queue.length + 2 < 0xFFFFFFFF := hroom
        have h₃ := opt_le_one s.con.decoder c.decoder
        have h₄ := opt_le_one s.dis.decoder c.decoder
        omega
      exact counted_of_queue (process_accounts _ hc.queue hone hlt)

/-! ### one event -/

/-- an output that is not open can be opened -/
theorem open'_eq {o : Output} {opMode : OpMode} (hinactive : o.opMode.active = false)
    (hactive : opMode.active = true) : o.open' opMode =
      ({ o with enabledFlag := o.enabledFlag || o.opMode = .idle, opMode := opMode }, true) := by
  rw [Output.open', if_neg (by rw [hinactive]; exact Bool.false_ne_true), if_pos hactive]

theorem stepOk_request (hi : s.Inv) (serviceMode : UInt8) :
    StepOk s [] ((s.requestInlet serviceMode).1, []) := by
  have hsame : StepOk s [] (s, []) := ⟨hi, by simp, fun _ hc => hc⟩
  have hlend : ∀ (opMode : OpMode) (kind : InletKind), Lent (some kind) opMode → opMode ≠ .idle →
      s.currentInlet = none →
      StepOk s [] ((if (s.output.open' opMode).2 = true then
        ({ s with output := (s.output.open' opMode).1, currentInlet := some kind }, some kind)
        else ({ s with output := (s.output.open' opMode).1 }, none)).1, []) := by
    intro opMode kind hlent hidle hfree
    have hinactive : s.output.opMode.active = false := by
      have hl := hi.lent
      rwa [hfree] at hl
    have hactive : opMode.active = true := by cases kind <;> rw [hlent] <;> rfl
    rw [open'_eq hinactive hactive, if_pos rfl]
    refine ⟨?_, by simp [held, Output.held], fun _ hc => hc⟩
    exact { hi with
      placed := ⟨hi.placed.seen, hi.placed.polling, hi.placed.stuck⟩
      rests := fun h => absurd h hidle
      lent := hlent }
  rw [requestInlet]
  split
  · exact hsame
  · next hfree =>
    have hfree' : s.currentInlet = none := by simpa using hfree
    dsimp only
    split
    · exact hlend .wave .con rfl (by decide) hfree'
    · split
      · exact hlend .frame .dis rfl (by decide) hfree'
      · exact hsame

/-- The output is closed, and lent to no one. -/
theorem stepOk_close (hi : s.Inv) (hactive : s.output.opMode.active = true) {freed : List Nat}
    {s₀ : LaproService} (hblocks : (freed ++ s.held).Perm s₀.held) (hcounted : s₀.Counted → s.Counted) :
    StepOk s₀ [] ({ s with
      currentInlet := none
      output := (s.output.close s.decoders).1
      decoders := (s.output.close s.decoders).2.1 }, freed ++ (s.output.close s.decoders).2.2) := by
  have hstep := outputStep_close s.output s.decoders
  have hclosed : (s.output.close s.decoders).1.opMode.active = false := by
    rw [Output.close, if_pos hactive]
    exact gracefulStop_active _ _
  refine ⟨hi.setOutput hstep none hclosed, ?_, fun _ hc => (hcounted hc).setOutput hstep none⟩
  refine List.perm_iff_count.mpr fun k => ?_
  have hout := List.perm_iff_count.mp hstep.blocks k
  have hfirst := List.perm_iff_count.mp hblocks k
  simp only [held, List.count_append, List.count_nil] at hout hfirst ⊢
  omega

theorem stepOk_release (hi : s.Inv) (kind : InletKind) : StepOk s [] (s.releaseInlet kind) := by
  unfold releaseInlet
  split
  · next hcurrent =>
    have hlent := hi.lent
    rw [hcurrent] at hlent
    cases kind with
    | con =>
      have hreset : ConfigStep s.con.toConfigInlet s.decoders (s.con.toConfigInlet.reset s.decoders).1
          (s.con.toConfigInlet.reset s.decoders).2 :=
        (configStep_invalidate s.con.toConfigInlet s.decoders).trans (OnlyEvents.configStep rfl)
      refine stepOk_close (s := { s with
        con := { s.con with toConfigInlet := (s.con.toConfigInlet.reset s.decoders).1 }
        decoders := (s.con.toConfigInlet.reset s.decoders).2 }) (hi.setCon _ hreset) ?_ (List.Perm.refl _)
        fun hc => hc.setCon _ hreset
      show s.output.opMode.active = true
      rw [hlent]
      rfl
    | dis =>
      have honly : ConfigStep s.dis.toConfigInlet s.decoders s.dis.reset.1.toConfigInlet s.decoders :=
        OnlyEvents.configStep rfl
      refine stepOk_close (s := { s with dis := s.dis.reset.1 }) (hi.setDis _ honly) ?_ (List.Perm.refl _)
        fun hc => hc.setDis _ honly
      show s.output.opMode.active = true
      rw [hlent]
      rfl
  · exact ⟨hi, by simp, fun _ hc => hc⟩

theorem stepOk_processCon (hi : s.Inv) {t : TaxiBuffer} {r : LaproService × List Nat}
    (hrun : s.processCon t = .ok r) : StepOk s t.ids r := by
  rw [processCon] at hrun
  split at hrun
  · cases hrun
  · next config h hread =>
    cases hrun
    have hconfig := configStep_readConfig hread
    obtain ⟨honly, hpasses⟩ := conDispatch_passes { s.con with toConfigInlet := config } h t
    have hstep := hconfig.trans honly.configStep
    have hpassed := (hi.setCon (ConInlet.dispatch { s.con with toConfigInlet := config } h t).1 hstep).pass
      (t := t) fun c hc => by
        obtain ⟨hdecoder, hids, hok⟩ := hpasses c hc
        exact ⟨.inl (honly.decoder.trans hdecoder), hids, hok⟩
    exact ⟨hpassed.inv.setCon _ (configStep_giveUp _ _), hpassed.blocks,
      fun hroom hc => (hpassed.counted hroom (hc.setCon _ hstep)).setCon _ (configStep_giveUp _ _)⟩

theorem stepOk_processDis (hi : s.Inv) {t : TaxiBuffer} {r : LaproService × List Nat}
    (hrun : s.processDis t = .ok r) : StepOk s t.ids r := by
  obtain ⟨hjoined, honly⟩ := reassemble_blocks s.dis t
  rw [processDis] at hrun
  split at hrun
  · next dis freed hre =>
    cases hrun
    rw [hre] at hjoined honly
    refine ⟨hi.setDis _ honly.configStep, List.perm_iff_count.mpr fun k => ?_,
      fun _ hc => hc.setDis _ honly.configStep⟩
    have hcount := List.perm_iff_count.mp hjoined k
    simp only [held, idsOf, Option.map_none, Option.getD_none, List.count_append, List.count_nil] at hcount ⊢
    omega
  · next dis u freed hre =>
    rw [hre] at hjoined honly
    split at hrun
    · cases hrun
    · next config h hread =>
      cases hrun
      have hconfig := honly.configStep.trans (configStep_readConfig hread)
      obtain ⟨honly', hhead, hpasses⟩ := disDispatch_passes { dis with toConfigInlet := config } h u
      have hstep := hconfig.trans honly'.configStep
      have hpassed := (hi.setDis (DisInlet.dispatch { dis with toConfigInlet := config } h u).1 hstep).pass
        (t := u) fun c hc => by
          obtain ⟨hdecoder, hids, hok⟩ := hpasses c hc
          exact ⟨.inr (honly'.decoder.trans hdecoder), hids, hok⟩
      refine ⟨hpassed.inv, ?_, fun hroom hc => hpassed.counted hroom (hc.setDis _ hstep)⟩
      rw [List.append_assoc]
      refine (hpassed.blocks.append_left freed).trans (List.perm_iff_count.mpr fun k => ?_)
      have hheld : (DisInlet.dispatch { dis with toConfigInlet := config } h u).1.held = dis.held := by
        rw [DisInlet.held, hhead, DisInlet.held]
      have hcount := List.perm_iff_count.mp hjoined k
      simp only [held, hheld, idsOf, Option.map_some, Option.getD_some, List.count_append] at hcount ⊢
      omega

theorem stepOk_process (hi : s.Inv) {kind : InletKind} {t : TaxiBuffer} {r : LaproService × List Nat}
    (hrun : s.process kind t = .ok r) : StepOk s t.ids r := by
  cases kind with
  | con => exact stepOk_processCon hi hrun
  | dis => exact stepOk_processDis hi hrun

theorem stepOk_housekeeping (hi : s.Inv) {shutdownFlag : Bool} (chained : Bool)
    (hpolling : shutdownFlag = true → s.output.polling = false) :
    StepOk s [] (s.housekeeping shutdownFlag chained) := by
  have hstep := outputStep_housekeeping s.output s.decoders chained hpolling
  have hlent : Lent s.currentInlet (s.output.housekeeping s.decoders shutdownFlag chained).1.opMode := by
    rcases housekeeping_opMode s.output s.decoders shutdownFlag chained with hsame | ⟨hfrom, hto⟩
    · rw [hsame]
      exact hi.lent
    · have hlent := hi.lent
      rw [hfrom] at hlent
      rw [lent_none hlent]
      exact hto
  exact ⟨hi.setOutput hstep s.currentInlet hlent, held_output s.dis hstep.blocks,
    fun _ hc => hc.setOutput hstep s.currentInlet⟩

/-- A poll changes nothing but where the adapter is. -/
theorem stepOk_adapterPeek (hi : s.Inv) : StepOk s [] (s.adapterPeek, []) := by
  rw [adapterPeek, Output.peekCaret]
  split
  · next hlt =>
    exact ⟨{ hi with placed := ⟨hi.placed.seen, fun _ => hlt, hi.placed.stuck⟩ },
      by simp [held, Output.held], fun _ hc => hc⟩
  · exact ⟨hi, by simp, fun _ hc => hc⟩

theorem stepOk_adapterRead (hi : s.Inv) : StepOk s [] (s.adapterRead, []) := by
  rw [adapterRead, Output.readCaret]
  split
  · next hpolling =>
    exact ⟨{ hi with placed := ⟨hi.placed.polling hpolling, fun h => (by cases h), hi.placed.stuck⟩ },
      by simp [held, Output.held], fun _ hc => hc⟩
  · exact ⟨hi, by simp, fun _ hc => hc⟩

theorem stepOk_clearEvents (hi : s.Inv) (kind : InletKind) :
    StepOk s [] ((s.clearPipelineEvents kind).2, []) := by
  cases kind with
  | con =>
    have honly : ConfigStep s.con.toConfigInlet s.decoders { s.con.toConfigInlet with pipelineEvents := 0 }
        s.decoders := OnlyEvents.configStep rfl
    exact ⟨hi.setCon { s.con with pipelineEvents := 0 } honly, by simp [held, clearPipelineEvents],
      fun _ hc => hc.setCon { s.con with pipelineEvents := 0 } honly⟩
  | dis =>
    have honly : ConfigStep s.dis.toConfigInlet s.decoders { s.dis.toConfigInlet with pipelineEvents := 0 }
        s.decoders := OnlyEvents.configStep rfl
    exact ⟨hi.setDis { s.dis with pipelineEvents := 0 } honly,
      by simp [held, clearPipelineEvents, DisInlet.held],
      fun _ hc => hc.setDis { s.dis with pipelineEvents := 0 } honly⟩

theorem inv_start (chronCheckValid : Bool) (chronCheckTime chronCheckErrCnt : UInt32) :
    Inv (start chronCheckValid chronCheckTime chronCheckErrCnt) where
  con := ⟨rfl, fun d hd => by cases hd⟩
  dis := ⟨rfl, fun d hd => by cases hd⟩
  chunks c hc := by cases hc
  placed := ⟨Nat.le_refl _, fun h => (by cases h), fun h => (by cases h)⟩
  rests _ := ⟨rfl, fun _ => rfl⟩
  lent := rfl

/-! ### runs -/

/-- a wave of two samples, with the configuration of a decoder that reads x -/
def xMessage (id : Nat) : TaxiBuffer :=
  .received id (fun i => [0, 20, 0x40, 0x01, 0, 0, 0, 0,  1, 1, 0, 1,  0x42, 0x00, 0x40, 0x10,
    0, 0, 1, 0,  5, 6].getD i 0) 22 0

/-- The second chunk comes too early.  The first one is freed when the service is given back. -/
def xEvents : List ServiceEvent :=
  [.request 1, .process .con (xMessage 7), .process .con (xMessage 8), .adapterPeek, .adapterRead,
    .release .con]

theorem xEvents_run : (run (start false 0 0, []) xEvents).isOk = true := by decide +kernel

end LaproService

end LiberaLink.Idn
