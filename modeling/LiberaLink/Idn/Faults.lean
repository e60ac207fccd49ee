import LiberaLink.Idn.ServerRuns
import LiberaLink.Idn.Reassembly

/-!
# What takes the server down

A configuration none of whose words describes a field has no decoder, and the code that finds this out
writes through a pointer that is null.

* `Undescribed`                  a message with such a configuration;
* `LaproService.service_faults`  **a message takes a service down if and only if it comes to this**;
* `IDNServer.server_total`       **a server that gets no such message writes through no null pointer**.
-/

namespace LiberaLink.Idn
open ODFSession

/-- some word that is reached describes a field -/
def Describes (words : List UInt8) : Prop := (reached (tagWords words)).any describes = true

/-- the message routes its channel, with words that describe no field -/
def Undescribed (t : TaxiBuffer) : Prop :=
  t.sentFlags &&& 0x01 ≠ 0 ∧ t.wordCount ≠ 0 ∧ ¬ Describes t.configWords

instance (words : List UInt8) : Decidable (Describes words) := inferInstanceAs (Decidable (_ = true))

instance (t : TaxiBuffer) : Decidable (Undescribed t) := inferInstanceAs (Decidable (_ ∧ _ ∧ _))

/-- only the bytes of the first block are looked at -/
theorem undescribed_congr {t u : TaxiBuffer} (hbytes : ∀ i, t.head.byte i = u.head.byte i) :
    Undescribed t ↔ Undescribed u := by
  have hid : t.contentID = u.contentID := by
    rw [TaxiBuffer.contentID, TaxiBuffer.contentID, Fragment.word16, Fragment.word16, hbytes, hbytes]
  have hconfig : t.hasConfig = u.hasConfig := by
    rw [TaxiBuffer.hasConfig, TaxiBuffer.hasConfig, TaxiBuffer.chunkType, TaxiBuffer.chunkType,
      TaxiBuffer.configOrLast, TaxiBuffer.configOrLast, hid]
  have hflags : t.sentFlags = u.sentFlags := by
    rw [TaxiBuffer.sentFlags, TaxiBuffer.sentFlags, hconfig, TaxiBuffer.configFlags,
      TaxiBuffer.configFlags, hbytes]
  have hcount : t.wordCount = u.wordCount := hbytes 8
  have hwords : t.configWords = u.configWords := by
    rw [TaxiBuffer.configWords, TaxiBuffer.configWords, hcount]
    exact List.map_congr_left fun i _ => hbytes (12 + i)
  rw [Undescribed, Undescribed, hflags, hcount, hwords]

/-- a packet that is cropped has the bytes that it had -/
theorem byte_cropPayload (t : TaxiBuffer) (len header i : Nat) :
    ((t.cropPayload len).adjustFront header).head.byte i = (t.adjustFront header).head.byte i := by
  simp only [TaxiBuffer.cropPayload, TaxiBuffer.adjustFront, Fragment.drop, Fragment.byte]

theorem length_configWords (t : TaxiBuffer) : t.configWords.length = t.wordCount.toNat * 4 := by
  simp [TaxiBuffer.configWords]

/-- the configuration that is kept has a decoder -/
def ConfigInlet.Kept (inlet : ConfigInlet) : Prop := inlet.configValid = true → Describes inlet.keptConfigWords

section config
variable {inlet : ConfigInlet} {h : Decoders} {t : TaxiBuffer}

theorem makeConfig_spec (inlet : ConfigInlet) (h : Decoders) (hinvalid : inlet.configValid = false)
    (t : TaxiBuffer) :
    (∃ r, inlet.makeConfig h t = .ok r ∧ r.1.Kept ∧ (t.wordCount ≠ 0 → Describes t.configWords)) ∨
      inlet.makeConfig h t = .error .nullLast ∧ t.wordCount ≠ 0 ∧ ¬ Describes t.configWords := by
  have hlength := length_configWords t
  rw [ConfigInlet.makeConfig, ConfigInlet.createDecoder]
  by_cases hzero : t.configWords.length = 0
  · have hnone : t.wordCount = 0 := UInt8.toNat_inj.mp (by rw [UInt8.toNat_zero]; omega)
    rw [if_pos hzero]
    exact .inl ⟨_, rfl, fun hvalid => absurd (hinvalid.symm.trans hvalid) Bool.false_ne_true,
      fun hsome => absurd hnone hsome⟩
  · have hsome : t.wordCount ≠ 0 := fun hnone => hzero (by rw [hlength, hnone]; rfl)
    have hempty := dictionary_eq_nil_iff (reached (tagWords t.configWords))
    rw [if_neg hzero, buildFrom_reached t.wordCount.toNat_lt hlength]
    cases hdict : dictionary (reached (tagWords t.configWords)) with
    | nil => exact .inr ⟨rfl, hsome, by rw [Describes, hempty.mp hdict]; exact Bool.false_ne_true⟩
    | cons tag tags =>
      have hdescribes : Describes t.configWords := by
        by_contra hnot
        rw [hempty.mpr (Bool.eq_false_iff.mpr hnot)] at hdict
        cases hdict
      exact .inl ⟨_, rfl, fun _ => hdescribes, fun _ => hdescribes⟩

/-- A message is read, or has no descriptors. -/
theorem readConfig_spec (hkept : inlet.Kept) (h : Decoders) (t : TaxiBuffer) :
    (∃ r, inlet.readConfig h t = .ok r ∧ r.1.Kept ∧ ¬ Undescribed t) ∨
      inlet.readConfig h t = .error .nullLast ∧ Undescribed t := by
  rw [ConfigInlet.readConfig]
  by_cases hrouting : t.sentFlags &&& 0x01 = 0
  · rw [if_pos hrouting]
    exact .inl ⟨_, rfl, hkept, fun hun => hun.1 hrouting⟩
  rw [if_neg hrouting]
  dsimp only
  -- a valid configuration that is left is the one of the message
  have hcheck : (inlet.checkConfig h t).1.configValid = true →
      (inlet.checkConfig h t).1.Kept ∧ (inlet.checkConfig h t).1.keptConfigWords = t.configWords := by
    rw [ConfigInlet.checkConfig]
    intro hvalid
    split at hvalid
    · cases hvalid
    · next hsame =>
      rw [if_neg hsame]
      refine ⟨hkept, ?_⟩
      rw [hvalid, Bool.true_and, ConfigInlet.changed, Bool.or_eq_true, not_or] at hsame
      simpa using (Eq.symm (by simpa using hsame.2))
  generalize inlet.checkConfig h t = c at *
  rw [ConfigInlet.renewConfig]
  cases hvalid : c.1.configValid with
  | true =>
    obtain ⟨hkept', hsame⟩ := hcheck hvalid
    rw [if_pos rfl]
    refine .inl ⟨_, rfl, ?_, fun hun => hun.2.2 (hsame ▸ hkept' hvalid)⟩
    rw [ConfigInlet.keepFlags, if_pos hvalid]
    exact hkept'
  | false =>
    rw [if_neg Bool.false_ne_true]
    rcases makeConfig_spec c.1 c.2 hvalid t with ⟨r, hmake, hkept', hdescribes⟩ | ⟨hmake, hsome, hnot⟩
    · rw [hmake]
      refine .inl ⟨_, rfl, ?_, fun hun => hun.2.2 (hdescribes hun.2.1)⟩
      rw [ConfigInlet.keepFlags]
      split
      · exact hkept'
      · exact hkept'
    · rw [hmake]
      exact .inr ⟨rfl, hrouting, hsome, hnot⟩

end config

/-! ## a frame that is put together -/

section frame
variable {t head : TaxiBuffer}

theorem be16_and_low (hi lo : UInt8) : be16 hi lo &&& (0x00FF : UInt16) = lo.toUInt16 := by
  have hmask : ∀ (i : Nat) (h : i < 16), (0x00FF#16)[i] = decide (i < 8) := by decide
  apply UInt16.eq_of_toBitVec_eq
  apply BitVec.eq_of_getElem_eq
  intro i hi
  by_cases hlow : i < 8
  · simp [be16, hmask, hlow]
  · simp [be16, hmask, hlow, BitVec.getLsbD_of_ge lo.toBitVec i (Nat.le_of_not_lt hlow)]

/-- the flag of the configuration is in the high byte -/
theorem be16_and_flag (hi lo : UInt8) : be16 hi lo &&& (0x4000 : UInt16) = hi.toUInt16 <<< 8 &&& 0x4000 := by
  rw [← be16_and_high hi lo, UInt16.and_assoc]
  rfl

/-- A whole frame has the configuration of its first fragment. -/
theorem undescribed_frame (hfirst : head.chunkType = 0x03) :
    Undescribed (head.setContentID ((head.contentID &&& 0xFF00) ||| 0x02)) ↔ Undescribed head := by
  rw [frameID_eq]
  let frame := head.setContentID (be16 (head.head.byte 2) 0x02)
  show Undescribed frame ↔ Undescribed head
  have hbyte : ∀ i, frame.head.byte i =
      if i = 2 then head.head.byte 2 else if i = 3 then 0x02 else head.head.byte i := by
    intro i
    simp only [frame, TaxiBuffer.setContentID, Fragment.byte, Nat.add_right_inj, be16_high, be16_low]
  have hid : frame.contentID = be16 (head.head.byte 2) 0x02 := by
    rw [TaxiBuffer.contentID, Fragment.word16, hbyte, hbyte, if_pos rfl, if_neg (by decide), if_pos rfl]
  have hconfig : frame.hasConfig = head.hasConfig := by
    rw [TaxiBuffer.hasConfig, TaxiBuffer.hasConfig, hfirst, TaxiBuffer.chunkType, hid, be16_and_low,
      TaxiBuffer.configOrLast, TaxiBuffer.configOrLast, hid, be16_and_flag, TaxiBuffer.contentID,
      Fragment.word16, be16_and_flag]
    rfl
  have hflags : frame.sentFlags = head.sentFlags := by
    rw [TaxiBuffer.sentFlags, TaxiBuffer.sentFlags, hconfig, TaxiBuffer.configFlags, hbyte]
    rfl
  have hcount : frame.wordCount = head.wordCount := by
    rw [TaxiBuffer.wordCount, hbyte]
    rfl
  have hwords : frame.configWords = head.configWords := by
    rw [TaxiBuffer.configWords, TaxiBuffer.configWords, hcount]
    refine List.map_congr_left fun i _ => ?_
    rw [hbyte, if_neg (by omega), if_neg (by omega)]
  rw [Undescribed, Undescribed, hflags, hcount, hwords]

/-- a first fragment that came with descriptors -/
structure Opens (head : TaxiBuffer) : Prop where
  first : head.chunkType = 0x03
  described : ¬ Undescribed head

theorem Opens.concat (ho : Opens head) (other : TaxiBuffer) : Opens (head.concat other) :=
  ⟨ho.first, ho.described⟩

/-- What comes of fragments with descriptors has them too. -/
theorem reassemble_opens {inlet : DisInlet} (hhead : ∀ head, inlet.reassemblyHead = some head → Opens head)
    (ht : ¬ Undescribed t) :
    (∀ head, (inlet.reassemble t).1.reassemblyHead = some head → Opens head) ∧
      ∀ u, (inlet.reassemble t).2.1 = some u → ¬ Undescribed u := by
  have hempty : ∀ u, none = some u → Opens u := fun u hu => by cases hu
  have hnone : ∀ u, none = some u → ¬ Undescribed u := fun u hu => by cases hu
  have hsame : ∀ u, some t = some u → ¬ Undescribed u := fun u hu => Option.some.inj hu ▸ ht
  rw [DisInlet.reassemble]
  by_cases hfirst : t.chunkType = 0x03
  · rw [if_pos hfirst]
    have hopens : ∀ head, some t = some head → Opens head := fun u hu => Option.some.inj hu ▸ ⟨hfirst, ht⟩
    cases inlet.reassemblyHead with
    | none => exact ⟨hopens, hnone⟩
    | some head => exact ⟨hopens, hnone⟩
  rw [if_neg hfirst]
  by_cases hsequel : t.chunkType = 0xC0
  · rw [if_pos hsequel]
    cases hin : inlet.reassemblyHead with
    | none => exact ⟨hempty, hnone⟩
    | some head =>
      have hjoined := (hhead head hin).concat (t.adjustFront channelMessageSize)
      dsimp only
      split
      · exact ⟨hempty, hnone⟩
      · split
        · exact ⟨hempty, hnone⟩
        · split
          · refine ⟨hempty, fun u hu => ?_⟩
            obtain rfl := Option.some.inj hu
            exact fun hun => hjoined.described ((undescribed_frame hjoined.first).mp hun)
          · exact ⟨fun u hu => Option.some.inj hu ▸ hjoined, hnone⟩
  · rw [if_neg hsequel]
    cases hin : inlet.reassemblyHead with
    | none => exact ⟨fun u hu => hempty u (hin.symm.trans hu), hsame⟩
    | some head =>
      dsimp only
      split
      · exact ⟨hempty, hsame⟩
      · exact ⟨hhead, hsame⟩

end frame

/-! ## a service -/

namespace LaproService

/-- the configurations that are kept have decoders -/
structure Kept (s : LaproService) : Prop where
  con : s.con.Kept
  dis : s.dis.Kept

/-- and the frame that is put together will have one -/
structure Sound (s : LaproService) : Prop extends Kept s where
  head : ∀ head, s.dis.reassemblyHead = some head → Opens head

variable {s : LaproService} {t : TaxiBuffer}

theorem requestInlet_inlets (s : LaproService) (serviceMode : UInt8) :
    (s.requestInlet serviceMode).1.con = s.con ∧ (s.requestInlet serviceMode).1.dis = s.dis := by
  rw [requestInlet]
  dsimp only
  split
  · exact ⟨rfl, rfl⟩
  · split
    · split <;> exact ⟨rfl, rfl⟩
    · split
      · split <;> exact ⟨rfl, rfl⟩
      · exact ⟨rfl, rfl⟩

theorem Sound.request (hs : s.Sound) (serviceMode : UInt8) : (s.requestInlet serviceMode).1.Sound := by
  obtain ⟨hcon, hdis⟩ := requestInlet_inlets s serviceMode
  exact ⟨⟨hcon ▸ hs.con, hdis ▸ hs.dis⟩, hdis ▸ hs.head⟩

/-- what is left of the inlets when one is given back -/
theorem releaseInlet_inlets (s : LaproService) (kind : InletKind) :
    ((s.releaseInlet kind).1.con = s.con ∨ (s.releaseInlet kind).1.con.configValid = false) ∧
      (s.releaseInlet kind).1.dis.toConfigInlet = s.dis.toConfigInlet ∧
      ((s.releaseInlet kind).1.dis = s.dis ∨ (s.releaseInlet kind).1.dis.reassemblyHead = none) := by
  unfold releaseInlet
  split
  · cases kind with
    | con => exact ⟨.inr rfl, rfl, .inl rfl⟩
    | dis => exact ⟨.inl rfl, rfl, .inr rfl⟩
  · exact ⟨.inl rfl, rfl, .inl rfl⟩

theorem Kept.release (hs : s.Kept) (kind : InletKind) : (s.releaseInlet kind).1.Kept := by
  obtain ⟨hcon, hdis, -⟩ := releaseInlet_inlets s kind
  refine ⟨?_, ?_⟩
  · rcases hcon with hsame | hinvalid
    · exact hsame ▸ hs.con
    · exact fun hvalid => absurd (hinvalid.symm.trans hvalid) Bool.false_ne_true
  · rw [hdis]
    exact hs.dis

theorem Sound.release (hs : s.Sound) (kind : InletKind) : (s.releaseInlet kind).1.Sound := by
  obtain ⟨-, -, hdis⟩ := releaseInlet_inlets s kind
  refine ⟨hs.toKept.release kind, fun head hhead => ?_⟩
  rcases hdis with hsame | hnone
  · exact hs.head head (hsame ▸ hhead)
  · rw [hnone] at hhead
    cases hhead

theorem OnlyEvents.kept {inlet inlet' : ConfigInlet} (ho : OnlyEvents inlet inlet') (hkept : inlet.Kept) :
    inlet'.Kept := by
  rw [OnlyEvents] at ho
  rw [ho]
  exact hkept

theorem giveUp_kept {con : ConInlet} (hkept : con.Kept) (h : Decoders) : (con.giveUp h).1.Kept := by
  rw [ConInlet.giveUp]
  split
  · exact fun hvalid => absurd hvalid Bool.false_ne_true
  · exact hkept

/-- A message takes the service down if it has no descriptors, and otherwise leaves its configurations
in order. -/
theorem processCon_spec (hs : s.Kept) (t : TaxiBuffer) :
    (∃ r, s.processCon t = .ok r ∧ r.1.Kept ∧ r.1.dis = s.dis ∧ ¬ Undescribed t) ∨
      s.processCon t = .error .nullLast ∧ Undescribed t := by
  rw [processCon]
  rcases readConfig_spec hs.con s.decoders t with ⟨r, hread, hkept, hdescribed⟩ | ⟨hread, hun⟩
  · rw [hread]
    dsimp only
    obtain ⟨honly, -⟩ := conDispatch_passes { s.con with toConfigInlet := r.1 } r.2 t
    let opened := ConInlet.dispatch { s.con with toConfigInlet := r.1 } r.2 t
    obtain ⟨-, hcon, hdis⟩ := pass_keeps { s with con := opened.1, decoders := r.2 } t opened.2
    refine .inl ⟨_, rfl, ⟨giveUp_kept ?_ _, ?_⟩, hdis, hdescribed⟩
    · show (LaproService.pass _ _ _).1.con.Kept
      rw [hcon]
      exact OnlyEvents.kept honly hkept
    · show (LaproService.pass _ _ _).1.dis.Kept
      rw [hdis]
      exact hs.dis
  · rw [hread]
    exact .inr ⟨rfl, hun⟩

theorem processDis_spec (hs : s.Kept) (t : TaxiBuffer) :
    (∃ r, s.processDis t = .ok r ∧ r.1.Kept ∧
        r.1.dis.reassemblyHead = (s.dis.reassemble t).1.reassemblyHead ∧
        ∀ u, (s.dis.reassemble t).2.1 = some u → ¬ Undescribed u) ∨
      s.processDis t = .error .nullLast ∧ ∃ u, (s.dis.reassemble t).2.1 = some u ∧ Undescribed u := by
  obtain ⟨-, honly⟩ := reassemble_blocks s.dis t
  rw [processDis]
  generalize s.dis.reassemble t = q at *
  obtain ⟨dis, u, freed⟩ := q
  have hdis : dis.Kept := OnlyEvents.kept honly hs.dis
  cases u with
  | none => exact .inl ⟨_, rfl, ⟨hs.con, hdis⟩, rfl, fun u hu => by cases hu⟩
  | some u =>
    dsimp only
    rcases readConfig_spec hdis s.decoders u with ⟨r, hread, hkept, hdescribed⟩ | ⟨hread, hun⟩
    · rw [hread]
      dsimp only
      obtain ⟨honly', hhead, -⟩ := disDispatch_passes { dis with toConfigInlet := r.1 } r.2 u
      let opened := DisInlet.dispatch { dis with toConfigInlet := r.1 } r.2 u
      obtain ⟨-, hcon, hsame⟩ := pass_keeps { s with dis := opened.1, decoders := r.2 } u opened.2
      refine .inl ⟨_, rfl, ⟨?_, ?_⟩, ?_, fun v hv => Option.some.inj hv ▸ hdescribed⟩
      · show (LaproService.pass _ _ _).1.con.Kept
        rw [hcon]
        exact hs.con
      · show (LaproService.pass _ _ _).1.dis.Kept
        rw [hsame]
        exact OnlyEvents.kept honly' hkept
      · show (LaproService.pass _ _ _).1.dis.reassemblyHead = dis.reassemblyHead
        rw [hsame]
        exact hhead
    · rw [hread]
      exact .inr ⟨rfl, u, rfl, hun⟩

/-- an event that is not a message -/
theorem Sound.clearEvents (hs : s.Sound) (kind : InletKind) : (s.clearPipelineEvents kind).2.Sound := by
  cases kind with
  | con => exact ⟨⟨hs.con, hs.dis⟩, hs.head⟩
  | dis => exact ⟨⟨hs.con, hs.dis⟩, hs.head⟩

theorem Kept.clearEvents (hs : s.Kept) (kind : InletKind) : (s.clearPipelineEvents kind).2.Kept := by
  cases kind with
  | con => exact ⟨hs.con, hs.dis⟩
  | dis => exact ⟨hs.con, hs.dis⟩

theorem Kept.process (hs : s.Kept) {kind : InletKind} {t : TaxiBuffer} {r : LaproService × List Nat}
    (hrun : s.process kind t = .ok r) : r.1.Kept := by
  cases kind with
  | con =>
    rcases processCon_spec hs t with ⟨r', hrun', hkept, -⟩ | ⟨hfault, -⟩
    · obtain rfl := Except.ok.inj (hrun'.symm.trans hrun)
      exact hkept
    · exact nomatch hfault.symm.trans hrun
  | dis =>
    rcases processDis_spec hs t with ⟨r', hrun', hkept, -⟩ | ⟨hfault, -⟩
    · obtain rfl := Except.ok.inj (hrun'.symm.trans hrun)
      exact hkept
    · exact nomatch hfault.symm.trans hrun

theorem Kept.step (hs : s.Kept) {event : ServiceEvent} {r : LaproService × List Nat}
    (hrun : s.step event = .ok r) : r.1.Kept := by
  cases event with
  | request serviceMode =>
    cases hrun
    obtain ⟨hcon, hdis⟩ := requestInlet_inlets s serviceMode
    exact ⟨hcon ▸ hs.con, hdis ▸ hs.dis⟩
  | release kind => cases hrun; exact hs.release kind
  | process kind t =>
    rw [LaproService.step] at hrun
    split at hrun
    · cases hrun
    · next hprocess => cases hrun; exact hs.process hprocess
  | clearEvents kind => cases hrun; exact hs.clearEvents kind
  | housekeeping shutdownFlag chained =>
    rw [LaproService.step] at hrun
    split at hrun
    · cases hrun
    · cases hrun; exact ⟨hs.con, hs.dis⟩
  | adapterPeek => cases hrun; exact ⟨hs.con, hs.dis⟩
  | adapterRead => cases hrun; exact ⟨hs.con, hs.dis⟩

theorem Kept.run {r r' : LaproService × List Nat} {events : List ServiceEvent} (hs : r.1.Kept)
    (hrun : LaproService.run r events = .ok r') : r'.1.Kept := by
  induction events generalizing r with
  | nil => cases hrun; exact hs
  | cons event events ih =>
    rw [LaproService.run] at hrun
    split at hrun
    · cases hrun
    · next s freed hstep =>
      have hkept : s.Kept := hs.step hstep
      exact ih (r := (s, r.2 ++ freed)) hkept hrun

theorem sound_start (valid : Bool) (time errCnt : UInt32) : (start valid time errCnt).Sound :=
  ⟨⟨fun h => (by cases h), fun h => (by cases h)⟩, fun head h => by cases h⟩

/-- **What takes a service down.**  In whatever state the service is, a message of a wave does if and
only if it routes its channel with words that describe no field, and a fragment or a frame if and only if
what is put together with it does. -/
theorem service_faults (chronCheckValid : Bool) (chronCheckTime chronCheckErrCnt : UInt32)
    (events : List ServiceEvent) {s : LaproService} {freed : List Nat}
    (hrun : run (start chronCheckValid chronCheckTime chronCheckErrCnt, []) events = .ok (s, freed))
    (t : TaxiBuffer) :
    ((s.process .con t).isOk = false ↔ Undescribed t) ∧
      ((s.process .dis t).isOk = false ↔ ∃ u, (s.dis.reassemble t).2.1 = some u ∧ Undescribed u) := by
  have hs : s.Kept := Kept.run (sound_start chronCheckValid chronCheckTime chronCheckErrCnt).toKept hrun
  constructor
  · show (s.processCon t).isOk = false ↔ _
    rcases processCon_spec hs t with ⟨r, hok, -, -, hdescribed⟩ | ⟨hfault, hun⟩
    · rw [hok]
      exact ⟨fun h => (by cases h), fun h => absurd h hdescribed⟩
    · rw [hfault]
      exact ⟨fun _ => hun, fun _ => rfl⟩
  · show (s.processDis t).isOk = false ↔ _
    rcases processDis_spec hs t with ⟨r, hok, -, -, hdescribed⟩ | ⟨hfault, hun⟩
    · rw [hok]
      exact ⟨fun h => (by cases h), fun ⟨u, hu, hun⟩ => absurd hun (hdescribed u hu)⟩
    · rw [hfault]
      exact ⟨fun _ => hun, fun _ => rfl⟩

/-- A wave with four void words takes the service down, also when another one has a decoder. -/
theorem service_faults_void : ∃ s freed, run (start false 0 0, []) xEvents = .ok (s, freed) ∧
    (s.process .con (.received 9 (fun i => [0, 20, 0x40, 0x01, 0, 0, 0, 0,  2, 1, 0, 1,
      0, 0, 0, 0, 0, 0, 0, 0,  0, 0, 1, 0,  5, 6].getD i 0) 26 0)).isOk = false := by
  have hok := xEvents_run
  match hrun : run (start false 0 0, []) xEvents with
  | .ok (s, freed) =>
    exact ⟨s, freed, rfl, (service_faults false 0 0 xEvents hrun _).1.mpr (by decide +kernel)⟩
  | .error fault => rw [hrun] at hok; cases hok

end LaproService

/-! ## the services, as the sessions use them -/

def AllSound (services : List IDNService) : Prop := ∀ s ∈ services, s.lapro.Sound

section services
variable {services : List IDNService} {s : ODFSession} {t : TaxiBuffer}

theorem allSound_set (hall : AllSound services) (i : Nat) (x : IDNService) {lapro : LaproService}
    (hlapro : lapro.Sound) : AllSound (services.set i { x with lapro := lapro }) := by
  intro y hy
  rcases List.mem_or_eq_of_mem_set hy with hold | rfl
  · exact hall y hold
  · exact hlapro

theorem allSound_onService {β : Type} (hall : AllSound services) (i : Nat) {f : LaproService → LaproService × β}
    (hf : ∀ s, s.Sound → (f s).1.Sound) (nothing : β) :
    AllSound (IDNService.onService services i f nothing).1 := by
  rw [IDNService.onService]
  split
  · exact hall
  · next x hx => exact allSound_set hall i x (hf x.lapro (hall x (List.mem_of_getElem? hx)))

theorem allSound_releaseHandles (hall : AllSound services) (c : IdnChannel) :
    AllSound (c.releaseHandles services).2.services := by
  rw [IdnChannel.releaseHandles]
  cases c.serviceHnd with
  | none => exact hall
  | some i =>
    cases c.conduitHnd with
    | none => exact hall
    | some kind => exact allSound_onService hall i (fun s hs => hs.release kind) []

theorem allSound_connect (hall : AllSound services) (s : ODFSession) (id : Fin 64) (serviceID serviceMode : UInt8) :
    AllSound (s.connect services id serviceID serviceMode).2 := by
  rw [connect]
  dsimp only
  split
  · exact hall
  · split
    · exact hall
    · next i _ =>
      have hconduit : AllSound (requestConduit services i serviceMode).1 := by
        rw [requestConduit]
        split
        · dsimp only
          split
          · exact allSound_onService hall i (fun s hs => hs.request serviceMode) none
          · exact allSound_onService hall i (fun s hs => hs.request serviceMode) none
        · exact hall
      split
      · exact hconduit
      · exact hconduit

theorem allSound_route (hall : AllSound services) (s : ODFSession) (id : Fin 64) (serviceID serviceMode : UInt8) :
    AllSound (s.route services id serviceID serviceMode).2.services := by
  rw [route]
  dsimp only
  split
  · exact hall
  · refine allSound_connect ?_ _ id serviceID serviceMode
    split
    · exact allSound_releaseHandles hall _
    · exact hall

theorem allSound_cancelAll (hall : AllSound services) (s : ODFSession) (ids : List (Fin 64)) :
    AllSound (s.cancelAll services ids).2.services := by
  induction ids generalizing s services with
  | nil => exact hall
  | cons id ids ih =>
    refine ih ?_ _
    rw [cancel]
    split
    · exact allSound_releaseHandles hall _
    · exact hall

theorem allSound_cancelSession (hall : AllSound services) (s : ODFSession) :
    AllSound (s.cancelSession services).2.services := by
  rw [cancelSession, reset]
  generalize List.finRange 64 = ids
  exact allSound_cancelAll hall s ids

theorem allSound_checkTeardown (hall : AllSound services) (s : ODFSession) (envTimeUS : UInt32) :
    AllSound (s.checkTeardown services envTimeUS).2.2.services := by
  rw [checkTeardown]
  split
  · exact hall
  · dsimp only
    split
    · rw [reset]
      generalize List.finRange 64 = ids
      exact allSound_cancelAll hall s ids
    · exact hall

theorem allSound_clearPipelineEvents (hall : AllSound services) (s : ODFSession) (id : Fin 64) :
    AllSound (s.clearPipelineEvents services id).2.2 := by
  rw [clearPipelineEvents]
  dsimp only
  cases (s.channel id).serviceHnd with
  | none => exact hall
  | some i =>
    cases (s.channel id).conduitHnd with
    | none => exact hall
    | some kind => exact allSound_onService hall i (fun s hs => hs.clearEvents kind) 0

/-! ### a message -/

/-- a message with descriptors is processed -/
theorem sound_process {lapro : LaproService} (hs : lapro.Sound) (kind : InletKind) (ht : ¬ Undescribed t) :
    ∃ r, lapro.process kind t = .ok r ∧ r.1.Sound := by
  obtain ⟨hopens, hframe⟩ := reassemble_opens hs.head ht
  cases kind with
  | con =>
    rcases LaproService.processCon_spec hs.toKept t with ⟨r, hrun, hkept, hdis, -⟩ | ⟨-, hun⟩
    · exact ⟨r, hrun, hkept, hdis ▸ hs.head⟩
    · exact absurd hun ht
  | dis =>
    rcases LaproService.processDis_spec hs.toKept t with ⟨r, hrun, hkept, hhead, -⟩ | ⟨-, u, hu, hun⟩
    · exact ⟨r, hrun, hkept, hhead ▸ hopens⟩
    · exact absurd hun (hframe u hu)

theorem pass_total (hall : AllSound services) (s : ODFSession) (ht : ¬ Undescribed t) :
    ∃ r, s.pass services t = .ok r ∧ AllSound r.services := by
  rw [ODFSession.pass]
  cases (s.channel t.channel).serviceHnd with
  | none => exact ⟨_, rfl, hall⟩
  | some i =>
    dsimp only
    cases (s.channel t.channel).conduitHnd with
    | none => exact ⟨_, rfl, hall⟩
    | some kind =>
      dsimp only
      rw [IDNService.input]
      cases hx : services[i]? with
      | none => exact ⟨_, rfl, hall⟩
      | some x =>
        obtain ⟨r, hrun, hsound⟩ := sound_process (hall x (List.mem_of_getElem? hx)) kind ht
        dsimp only
        rw [hrun]
        exact ⟨_, rfl, allSound_set hall i x hsound⟩

theorem processOpen_total (hall : AllSound services) (s : ODFSession) (ht : ¬ Undescribed t) :
    ∃ r, s.processOpen services t = .ok r ∧ AllSound r.2.services := by
  rw [processOpen]
  dsimp only
  have hrouted : AllSound (if t.sentFlags &&& 0x01 ≠ 0 then
      s.route services t.channel t.configServiceID t.configServiceMode else (s, ⟨services, []⟩)).2.services := by
    split
    · exact allSound_route hall s _ _ _
    · exact hall
  generalize (if t.sentFlags &&& 0x01 ≠ 0 then
    s.route services t.channel t.configServiceID t.configServiceMode else (s, ⟨services, []⟩)) = q at *
  obtain ⟨r, hpass, hsound⟩ := pass_total hrouted q.1 ht
  rw [hpass]
  dsimp only
  split
  · exact ⟨_, rfl, allSound_releaseHandles hsound _⟩
  · exact ⟨_, rfl, hsound⟩

theorem processChannelMessage_total (hall : AllSound services) (s : ODFSession) (ht : ¬ Undescribed t) :
    ∃ r, s.processChannelMessage services t = .ok r ∧ AllSound r.2.services := by
  rw [processChannelMessage]
  split
  · exact ⟨_, rfl, hall⟩
  · split
    · exact processOpen_total hall _ ht
    · split
      · exact ⟨_, rfl, hall⟩
      · exact processOpen_total hall _ ht

end services

/-! ## the server -/

section server
variable {f : Floor} {c : IDNHelloConnection} {t : TaxiBuffer}

theorem allSound_cleanup (hall : AllSound f.services) (session : Option Nat)
    {cancel : ODFSession → List IDNService → ODFSession × Served}
    (hcancel : ∀ s, AllSound (cancel s f.services).2.services) :
    AllSound (f.cleanup session cancel).1.services := by
  cases session with
  | none => exact hall
  | some number =>
    show AllSound (f.onSession number cancel).1.services
    rw [Floor.onSession]
    split
    · exact hall
    · exact hcancel _

theorem allSound_cancelGracefully {services : List IDNService} (hall : AllSound services) (s : ODFSession) :
    AllSound (s.cancelGracefully services).2.services := allSound_cancelSession hall s

theorem allSound_cancelImmediately {services : List IDNService} (hall : AllSound services) (s : ODFSession) :
    AllSound (s.cancelImmediately services).2.services := allSound_cancelSession hall s

theorem allSound_acknowledge (hall : AllSound f.services) (c : IDNHelloConnection) (status : Nat → RealtimeStatus)
    (id : Option (Fin 64)) (resultCode : UInt8) :
    AllSound (acknowledge f c status id resultCode).2.2.services := by
  rw [acknowledge]
  dsimp only
  split
  · exact hall
  · cases id with
    | none => exact hall
    | some id => exact allSound_clearPipelineEvents hall _ id

theorem processStreamMessage_total (hall : AllSound f.services) (c : IDNHelloConnection) (ht : ¬ Undescribed t) :
    ∃ r, processStreamMessage f c t = .ok r ∧ AllSound r.2.1.services := by
  rw [processStreamMessage]
  split
  · exact ⟨_, rfl, hall⟩
  · split
    · exact ⟨_, rfl, hall⟩
    · next number _ =>
      rw [Floor.message]
      cases f.sessions.findIdx? (fun p => p.1 = number) with
      | none => exact ⟨_, rfl, hall⟩
      | some i =>
        dsimp only
        obtain ⟨r, hrun, hsound⟩ := processChannelMessage_total hall (f.sessions.getD i (number, .start)).2 ht
        rw [hrun]
        exact ⟨_, rfl, hsound⟩

theorem processRtPacket_total (hall : AllSound f.services) (c : IDNHelloConnection)
    (ht : ¬ Undescribed (t.adjustFront packetHeaderSize)) :
    ∃ r, processRtPacket f c t = .ok r ∧ AllSound r.2.1.services := by
  rw [processRtPacket]
  split
  · exact ⟨_, rfl, hall⟩
  · exact processStreamMessage_total hall _ ht

end server

namespace IDNServer

variable {srv : IDNServer} {c : IDNHelloConnection} {t : TaxiBuffer}

theorem finish_total {f : Floor} (hall : AllSound f.services) (srv : IDNServer) (i : Nat) (c : IDNHelloConnection)
    (close : Bool) (answer : Option RtAcknowledge) (freed : List Nat) :
    ∃ r, (if close then
        .ok (answer, { srv with
          toFloor := (f.cleanup c.session cancelGracefully).1
          connections := srv.connections.eraseIdx i }, freed ++ (f.cleanup c.session cancelGracefully).2)
      else .ok (answer, { srv with toFloor := f, connections := srv.connections.set i c }, freed)) =
        (Except.ok r : Except BuildFault _) ∧ AllSound r.2.1.services := by
  have hclosed := allSound_cleanup hall c.session (allSound_cancelGracefully hall)
  generalize f.cleanup c.session cancelGracefully = g at *
  cases close with
  | true => exact ⟨_, rfl, hclosed⟩
  | false => exact ⟨_, rfl, hall⟩

theorem processConnected_total (hall : AllSound srv.services) (i : Nat) (c : IDNHelloConnection) (close : Bool)
    (ack : Option (Nat → RealtimeStatus)) (ht : ¬ Undescribed (t.adjustFront packetHeaderSize)) :
    ∃ r, srv.processConnected i c close ack t = .ok r ∧ AllSound r.2.1.services := by
  rw [processConnected]
  dsimp only
  have hcropped : ¬ Undescribed ((if (payloadError t).isNone = true then t
      else t.cropPayload packetHeaderSize).adjustFront packetHeaderSize) := by
    split
    · exact ht
    · exact fun hun => ht ((undescribed_congr (byte_cropPayload t _ _)).mp hun)
  generalize (if (payloadError t).isNone = true then t else t.cropPayload packetHeaderSize) = u at *
  obtain ⟨r, hrun, hsound⟩ := processRtPacket_total hall { c with inputTimeUS := u.head.sourceRefTime } hcropped
  rw [hrun]
  cases ack with
  | none => exact finish_total hsound srv i r.1 close none r.2.2
  | some status =>
    have hack := allSound_acknowledge hsound r.1 status
      (if (payloadError t).isNone then some (t.adjustFront packetHeaderSize).channel else none)
      ((payloadError t).getD 0)
    exact finish_total hack srv i _ close (some _) r.2.2

theorem processCommand_total (hall : AllSound srv.services) (addr : SockAddr) (status : Nat → RealtimeStatus)
    (ht : ¬ Undescribed (t.adjustFront packetHeaderSize)) :
    ∃ r, srv.processCommand addr status t = .ok r ∧ AllSound r.2.1.services := by
  have hmessage : ∀ (close : Bool) (ack : Option (Nat → RealtimeStatus)),
      ∃ r, (if srv.checkExcluded t.packetGroup then .ok (ack.map fun _ => .refuse ackExcluded, srv, t.ids)
        else srv.processRtConnection addr close ack t) = Except.ok r ∧ AllSound r.2.1.services := by
    intro close ack
    split
    · exact ⟨_, rfl, hall⟩
    · rw [processRtConnection]
      split
      · exact processConnected_total hall _ _ close ack ht
      · split
        · exact ⟨_, rfl, hall⟩
        · have hopened : AllSound (srv.openConnection addr t.packetGroup).services := hall
          exact processConnected_total hopened _ _ close ack ht
  rw [processCommand]
  dsimp only
  split
  · exact ⟨_, rfl, hall⟩
  · split
    · exact hmessage _ _
    · split
      · exact hmessage _ _
      · split
        · exact hmessage _ _
        · split
          · exact hmessage _ _
          · split
            · rw [abort]
              split
              · exact ⟨_, rfl, hall⟩
              · exact ⟨_, rfl, allSound_cleanup hall _ (allSound_cancelImmediately hall)⟩
            · exact ⟨_, rfl, hall⟩

/-! ### the housekeeping -/

theorem allSound_dropConnections {f : Floor} (hall : AllSound f.services) (drop : IDNHelloConnection → Bool)
    (connections : List IDNHelloConnection) : AllSound (dropConnections f drop connections).2.1.services := by
  induction connections generalizing f with
  | nil => exact hall
  | cons c cs ih =>
    rw [dropConnections]
    split
    · exact ih (allSound_cleanup hall _ (allSound_cancelImmediately hall))
    · exact ih hall

theorem allSound_checkSessions {services : List IDNService} (hall : AllSound services) (envTimeUS : UInt32)
    (ps : List (Nat × ODFSession)) : AllSound (checkSessions services envTimeUS ps).2.services := by
  induction ps generalizing services with
  | nil => exact hall
  | cons p ps ih => exact ih (allSound_checkTeardown hall p.2 envTimeUS)

theorem allSound_cancelSessions {services : List IDNService} (hall : AllSound services)
    (ps : List (Nat × ODFSession)) : AllSound (cancelSessions services ps).services := by
  induction ps generalizing services with
  | nil => exact hall
  | cons p ps ih =>
    have hnext := allSound_cancelImmediately hall p.2
    rw [cancelSessions]
    exact ih hnext

theorem allSound_serviceHousekeeping {services : List IDNService} (hall : AllSound services) (shutdownFlag : Bool)
    (chained : List Bool) : AllSound (serviceHousekeeping shutdownFlag services chained).services := by
  intro x hx
  obtain ⟨s, hs, b, heq⟩ := mem_serviceHousekeeping hx
  have hsound := hall s hs
  rw [heq]
  exact ⟨⟨hsound.con, hsound.dis⟩, hsound.head⟩

theorem allSound_housekeeping (hall : AllSound srv.services) (envTimeUS : UInt32) :
    AllSound (srv.housekeeping envTimeUS).1.services := by
  rw [housekeeping]
  exact allSound_serviceHousekeeping
    (allSound_checkSessions (allSound_dropConnections hall _ _) envTimeUS _) false []

theorem allSound_shutdown (hall : AllSound srv.services) {chained : List Bool} {r : IDNServer × List Nat}
    (hrun : srv.shutdown chained = .ok r) : AllSound r.1.services := by
  rw [shutdown] at hrun
  dsimp only at hrun
  split at hrun
  · cases hrun
  · cases hrun
    exact allSound_serviceHousekeeping
      (allSound_cancelSessions (allSound_dropConnections hall _ _) _) true chained

/-- the adapters have nothing to do with the inlets -/
theorem allSound_adapter (hall : AllSound srv.services) (i : Nat) {f : LaproService → LaproService}
    (hsame : ∀ s, (f s).con = s.con ∧ (f s).dis = s.dis) :
    AllSound (IDNService.onService srv.services i (fun s => (f s, ())) ()).1 :=
  allSound_onService hall i (fun s hs => by
    obtain ⟨hcon, hdis⟩ := hsame s
    exact ⟨⟨hcon ▸ hs.con, hdis ▸ hs.dis⟩, hdis ▸ hs.head⟩) ()

theorem shutdown_total (srv : IDNServer) (chained : List Bool) :
    (∃ r, srv.shutdown chained = .ok r) ∨ srv.shutdown chained = .error .stopInPoll := by
  rw [shutdown]
  dsimp only
  split
  · exact .inr rfl
  · exact .inl ⟨_, rfl⟩

theorem step_total (hall : AllSound srv.services) (event : ServerEvent)
    (hevent : ∀ addr status t, event = .datagram addr status t → ¬ Undescribed (t.adjustFront packetHeaderSize)) :
    (∃ r, srv.step event = .ok r ∧ AllSound r.1.services) ∨
      srv.step event = .error .stopInPoll ∧ ∃ chained, event = .shutdown chained := by
  cases event with
  | datagram addr status t =>
    obtain ⟨r, hrun, hsound⟩ := processCommand_total hall addr status (hevent addr status t rfl)
    rw [step, hrun]
    exact .inl ⟨_, rfl, hsound⟩
  | housekeeping envTimeUS => exact .inl ⟨_, rfl, allSound_housekeeping hall envTimeUS⟩
  | shutdown chained =>
    rcases shutdown_total srv chained with ⟨r, hrun⟩ | hrun
    · exact .inl ⟨r, hrun, allSound_shutdown hall hrun⟩
    · exact .inr ⟨hrun, chained, rfl⟩
  | adapterPeek i => exact .inl ⟨_, rfl, allSound_adapter hall i fun _ => ⟨rfl, rfl⟩⟩
  | adapterRead i => exact .inl ⟨_, rfl, allSound_adapter hall i fun _ => ⟨rfl, rfl⟩⟩

theorem run_total {r : IDNServer × List Nat} (hall : AllSound r.1.services) (events : List ServerEvent)
    (hevents : ∀ addr status t, .datagram addr status t ∈ events → ¬ Undescribed (t.adjustFront packetHeaderSize)) :
    (∃ r', run r events = .ok r') ∨
      run r events = .error .stopInPoll ∧ ∃ chained, .shutdown chained ∈ events := by
  induction events generalizing r with
  | nil => exact .inl ⟨r, rfl⟩
  | cons event events ih =>
    rcases step_total hall event fun addr status t h => hevents addr status t (h ▸ List.mem_cons_self) with
      ⟨q, hstep, hsound⟩ | ⟨hstep, chained, rfl⟩
    · rw [run, hstep]
      rcases ih (r := (q.1, r.2 ++ q.2)) hsound fun addr status t h =>
          hevents addr status t (List.mem_cons_of_mem _ h) with hok | ⟨hstop, chained, hmem⟩
      · exact .inl hok
      · exact .inr ⟨hstop, chained, List.mem_cons_of_mem _ hmem⟩
    · rw [run, hstep]
      exact .inr ⟨rfl, chained, List.mem_cons_self⟩

/-- **No datagram makes a server write through a null pointer**, as long as none among them routes a
channel with words that describe no field.  Its run goes on then, unless it is shut down in the middle of
a poll. -/
theorem server_total {services : List IDNService} (hfresh : Fresh services) (events : List ServerEvent)
    (hevents : ∀ addr status t, .datagram addr status t ∈ events → ¬ Undescribed (t.adjustFront packetHeaderSize)) :
    (∃ srv freed, run (start services, []) events = .ok (srv, freed)) ∨
      run (start services, []) events = .error .stopInPoll ∧ ∃ chained, .shutdown chained ∈ events := by
  have hall : AllSound (start services).services := by
    intro s hs
    obtain ⟨valid, time, errCnt, heq⟩ := hfresh s hs
    rw [heq]
    exact LaproService.sound_start valid time errCnt
  rcases run_total (r := (start services, [])) hall events hevents with ⟨r, hrun⟩ | hstop
  · exact .inl ⟨r.1, r.2, hrun⟩
  · exact .inr hstop

theorem server_total_x : ∃ srv freed, run (start oneService, []) xDatagrams = .ok (srv, freed) := by
  refine (server_total fresh_oneService xDatagrams fun addr status t h => ?_).resolve_right
    fun ⟨_, _, hmem⟩ => by simp [xDatagrams] at hmem
  have hmem : t = xDatagram 7 0x40 0 ∨ t = xDatagram 8 0x41 0 ∨ t = xDatagram 9 0x40 900000 := by
    simp only [xDatagrams, List.mem_cons, ServerEvent.datagram.injEq, List.not_mem_nil, or_false] at h
    rcases h with ⟨-, -, rfl⟩ | ⟨-, -, rfl⟩ | h | h | ⟨-, -, rfl⟩
    · exact .inl rfl
    · exact .inr (.inl rfl)
    · cases h
    · cases h
    · exact .inr (.inr rfl)
  rcases hmem with rfl | rfl | rfl <;> decide +kernel

/-- One datagram is enough: a wave with four void words, from a client that is not known. -/
example : (run (start oneService, []) [.datagram (.inet 7255 1) (fun _ => ⟨false, false, false, 0⟩)
    (.received 7 (fun i => [0x40, 0, 0, 1,  0, 26, 0xC0, 0x01, 0, 0, 0, 0,  2, 1, 0, 1,
      0, 0, 0, 0, 0, 0, 0, 0,  0, 0, 1, 0,  5, 6].getD i 0) 30 0)]).isOk = false := by decide +kernel

end IDNServer

end LiberaLink.Idn
