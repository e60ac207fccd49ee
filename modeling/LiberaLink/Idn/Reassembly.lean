import LiberaLink.Idn.Service

/-!
# Frames in fragments

A frame that is too long for a datagram comes as a first fragment and sequels, whose time stamps count
on from that of the first.  The discrete inlet chains them, gives up at the first message that does not
fit, and passes the chain on with the last sequel.

* `DisInlet.feed`                 the inlet after a stream of messages;
* `Sequence`, `Completes`         the messages that leave a frame open, the one that completes it;
* `reassemble_eq_some_iff`        **what each message of a stream makes the inlet pass on**;
* `reassemble_payload`            **the bytes of a frame that is passed on**.

Nothing else of a channel touches the chain (`processDis_reassembly`), so that a stream may be taken
without the configurations and chunks in it.
-/

namespace LiberaLink.Idn

/-- a fragment that is not the first of its frame -/
def TaxiBuffer.isSequel (t : TaxiBuffer) : Bool := t.chunkType = 0xC0

def TaxiBuffer.isFirst (t : TaxiBuffer) : Bool := t.chunkType = 0x03

namespace DisInlet

/-- the inlet after messages that it was given -/
def feed (inlet : DisInlet) (messages : List TaxiBuffer) : DisInlet :=
  messages.foldl (fun inlet t => (inlet.reassemble t).1) inlet

theorem feed_concat (inlet : DisInlet) (messages : List TaxiBuffer) (t : TaxiBuffer) :
    inlet.feed (messages ++ [t]) = ((inlet.feed messages).reassemble t).1 := by
  rw [feed, List.foldl_append]
  rfl

/-- what `process` does with a message leaves the chain as `reassemble` does -/
theorem processDis_reassembly {s : LaproService} {t : TaxiBuffer} {r : LaproService × List Nat}
    (hrun : s.processDis t = .ok r) :
    r.1.dis.reassemblyHead = (s.dis.reassemble t).1.reassemblyHead ∧
      r.1.dis.reassemblySeqNum = (s.dis.reassemble t).1.reassemblySeqNum := by
  rw [LaproService.processDis] at hrun
  split at hrun
  · next dis freed hre =>
    cases hrun
    rw [hre]
    exact ⟨rfl, rfl⟩
  · next dis u freed hre =>
    rw [hre]
    split at hrun
    · cases hrun
    · next config h hread =>
      cases hrun
      have hpass : ∀ (s : LaproService) (chunk : Option ChunkData), (s.pass u chunk).1.dis = s.dis :=
        fun s chunk => by cases chunk <;> rfl
      have hkeep : ∀ dis : DisInlet, (dis.dispatch h u).1.reassemblyHead = dis.reassemblyHead ∧
          (dis.dispatch h u).1.reassemblySeqNum = dis.reassemblySeqNum := by
        intro dis
        rw [dispatch]
        split
        · exact ⟨rfl, rfl⟩
        · split
          · split <;> exact ⟨rfl, rfl⟩
          · exact ⟨rfl, rfl⟩
      let opened := DisInlet.dispatch { dis with toConfigInlet := config } h u
      have hdis := hpass { s with dis := opened.1, decoders := h } opened.2
      have hchain := hkeep { dis with toConfigInlet := config }
      exact ⟨(congrArg reassemblyHead hdis).trans hchain.1, (congrArg reassemblySeqNum hdis).trans hchain.2⟩

end DisInlet

/-! ## what makes a frame -/

/-- the sequels among messages -/
def sequels (messages : List TaxiBuffer) : List TaxiBuffer := messages.filter TaxiBuffer.isSequel

/-- the first fragment with sequels behind it, which lose their message header -/
def chain (first : TaxiBuffer) (rest : List TaxiBuffer) : TaxiBuffer :=
  rest.foldl (fun head t => head.concat (t.adjustFront channelMessageSize)) first

/-- the number of the sequel that comes next, in the field of the time stamp -/
def nextNumber (first : TaxiBuffer) (later : List TaxiBuffer) : UInt32 :=
  first.timestamp + 1 + UInt32.ofNat (sequels later).length

/-- the frame that comes to the output, which says that it is in one piece -/
def frame (first : TaxiBuffer) (rest : List TaxiBuffer) : TaxiBuffer :=
  (chain first rest).setContentID ((first.contentID &&& 0xFF00) ||| 0x02)

/-- The messages after a first fragment leave its frame open: its sequels come in order and are not too
long, and what else comes is void and not younger than the next sequel. -/
structure Sequence (first : TaxiBuffer) (later : List TaxiBuffer) : Prop where
  isFirst : first.isFirst
  numbered : ∀ i t, (sequels later)[i]? = some t → t.timestamp = first.timestamp + 1 + UInt32.ofNat i
  small : sequels later ≠ [] → (chain first (sequels later)).getTotalLen ≤ 200000
  more : ∀ t ∈ sequels later, t.configOrLast = false
  void : ∀ before t after, later = before ++ t :: after → t.isSequel = false →
    t.chunkType = 0x00 ∧
      ¬ (0 < t.timestamp - nextNumber first before ∧ t.timestamp - nextNumber first before < 0x80000000)

/-- the last sequel of a frame -/
structure Completes (first : TaxiBuffer) (later : List TaxiBuffer) (t : TaxiBuffer) : Prop where
  isSequel : t.isSequel
  number : t.timestamp = nextNumber first later
  small : (chain first (sequels later ++ [t])).getTotalLen ≤ 200000
  last : t.configOrLast

section sequence
variable {first t : TaxiBuffer} {later : List TaxiBuffer}

theorem chain_concat (first : TaxiBuffer) (rest : List TaxiBuffer) (t : TaxiBuffer) :
    chain first (rest ++ [t]) = (chain first rest).concat (t.adjustFront channelMessageSize) := by
  rw [chain, List.foldl_append]
  rfl

theorem getTotalLen_concat (t other : TaxiBuffer) :
    (t.concat other).getTotalLen = t.getTotalLen + other.getTotalLen := by
  rw [← TaxiBuffer.length_payload, TaxiBuffer.concat_payload, List.length_append,
    TaxiBuffer.length_payload, TaxiBuffer.length_payload]

theorem sequels_sequel (later : List TaxiBuffer) (hsequel : t.isSequel = true) :
    sequels (later ++ [t]) = sequels later ++ [t] := by
  simp [sequels, hsequel]

theorem sequels_other (later : List TaxiBuffer) (hother : t.isSequel = false) :
    sequels (later ++ [t]) = sequels later := by
  simp [sequels, hother]

theorem Sequence.single (hfirst : first.isFirst) : Sequence first [] where
  isFirst := hfirst
  numbered i t ht := by simp [sequels] at ht
  small hne := by simp [sequels] at hne
  more t ht := by simp [sequels] at ht
  void before t after heq := by simp at heq

/-- the messages before the last one -/
theorem Sequence.init (hs : Sequence first (later ++ [t])) : Sequence first later where
  isFirst := hs.isFirst
  numbered i u hu := by
    refine hs.numbered i u ?_
    rw [sequels, List.filter_append]
    exact (List.getElem?_append_left (List.getElem?_eq_some_iff.mp hu).1).trans hu
  small hne := by
    cases hsequel : t.isSequel with
    | true =>
      have htotal := hs.small (by rw [sequels_sequel later hsequel]; simp)
      rw [sequels_sequel later hsequel, chain_concat, getTotalLen_concat] at htotal
      omega
    | false =>
      have htotal := hs.small
      rw [sequels_other later hsequel] at htotal
      exact htotal hne
  more u hu := hs.more u (by rw [sequels, List.filter_append]; exact List.mem_append_left _ hu)
  void before u after heq := hs.void before u (after ++ [t]) (by rw [heq]; simp)

/-- one more sequel -/
theorem sequence_sequel (hsequel : t.isSequel = true) :
    Sequence first (later ++ [t]) ↔ Sequence first later ∧ t.timestamp = nextNumber first later ∧
      (chain first (sequels later ++ [t])).getTotalLen ≤ 200000 ∧ t.configOrLast = false := by
  constructor
  · intro hs
    refine ⟨hs.init, ?_, ?_, ?_⟩
    · refine hs.numbered _ t ?_
      rw [sequels_sequel later hsequel]
      simp
    · have htotal := hs.small (by rw [sequels_sequel later hsequel]; simp)
      rwa [sequels_sequel later hsequel] at htotal
    · exact hs.more t (by rw [sequels_sequel later hsequel]; simp)
  · rintro ⟨hs, hnumber, htotal, hmore⟩
    exact {
      isFirst := hs.isFirst
      numbered := fun i u hu => by
        rw [sequels_sequel later hsequel] at hu
        rcases Nat.lt_trichotomy i (sequels later).length with hlt | rfl | hgt
        · rw [List.getElem?_append_left hlt] at hu
          exact hs.numbered i u hu
        · obtain rfl : t = u := by simpa using hu
          exact hnumber
        · rw [List.getElem?_eq_none (by simp; omega)] at hu
          cases hu
      small := fun _ => by rwa [sequels_sequel later hsequel]
      more := fun u hu => by
        rw [sequels_sequel later hsequel] at hu
        rcases List.mem_append.mp hu with hold | hnew
        · exact hs.more u hold
        · rwa [List.mem_singleton.mp hnew]
      void := fun before u after heq hother => by
        rcases List.eq_nil_or_concat' after with rfl | ⟨after, x, rfl⟩
        · obtain ⟨-, htu⟩ := List.append_inj' heq rfl
          obtain rfl : t = u := by simpa using htu
          rw [hsequel] at hother
          cases hother
        · have heq' : later ++ [t] = (before ++ u :: after) ++ [x] := by rw [heq]; simp
          obtain ⟨hlater, -⟩ := List.append_inj' heq' rfl
          exact hs.void before u after hlater hother }

/-- one more message that is not a sequel -/
theorem sequence_other (hother : t.isSequel = false) :
    Sequence first (later ++ [t]) ↔ Sequence first later ∧ t.chunkType = 0x00 ∧
      ¬ (0 < t.timestamp - nextNumber first later ∧ t.timestamp - nextNumber first later < 0x80000000) := by
  constructor
  · intro hs
    exact ⟨hs.init, hs.void later t [] rfl hother⟩
  · rintro ⟨hs, hvoid⟩
    exact {
      isFirst := hs.isFirst
      numbered := by rw [sequels_other later hother]; exact hs.numbered
      small := by rw [sequels_other later hother]; exact hs.small
      more := by rw [sequels_other later hother]; exact hs.more
      void := fun before u after heq hu => by
        rcases List.eq_nil_or_concat' after with rfl | ⟨after, x, rfl⟩
        · obtain ⟨rfl, htu⟩ := List.append_inj' heq rfl
          obtain rfl : t = u := by simpa using htu
          exact hvoid
        · have heq' : later ++ [t] = (before ++ u :: after) ++ [x] := by rw [heq]; simp
          obtain ⟨hlater, -⟩ := List.append_inj' heq' rfl
          exact hs.void before u after hlater hu }

end sequence

/-! ## the bytes of a frame -/

theorem be16_and_high (hi lo : UInt8) : be16 hi lo &&& (0xFF00 : UInt16) = hi.toUInt16 <<< 8 := by
  have hmask : ∀ (i : Nat) (h : i < 16), (0xFF00#16)[i] = decide (8 ≤ i) := by decide
  apply UInt16.eq_of_toBitVec_eq
  apply BitVec.eq_of_getElem_eq
  intro i hi
  by_cases hlow : i < 8
  · simp [be16, hmask, hlow]
  · simp [be16, hmask, hlow, Nat.le_of_not_lt hlow]

theorem be16_high (hi lo : UInt8) : (be16 hi lo >>> 8).toUInt8 = hi := by
  apply UInt8.toNat_inj.mp
  have hhi := hi.toNat_lt
  have hlo := lo.toNat_lt
  rw [UInt16.toNat_toUInt8, UInt16.toNat_shiftRight, be16_toNat, Nat.shiftRight_eq_div_pow]
  simp
  omega

/-- the content id of a whole frame, with the channel and the flags of its first fragment -/
theorem frameID_eq (t : TaxiBuffer) :
    (t.contentID &&& 0xFF00) ||| 0x02 = be16 (t.head.byte 2) 0x02 := by
  rw [TaxiBuffer.contentID, Fragment.word16, be16_and_high, be16]
  rfl

theorem chain_head (first : TaxiBuffer) (rest : List TaxiBuffer) : (chain first rest).head = first.head := by
  induction rest using List.reverseRecOn with
  | nil => rfl
  | append_singleton rest t ih => rw [chain_concat]; exact ih

theorem chain_ids (first : TaxiBuffer) (rest : List TaxiBuffer) :
    (chain first rest).ids = first.ids ++ rest.flatMap TaxiBuffer.ids := by
  induction rest using List.reverseRecOn with
  | nil => simp [chain]
  | append_singleton rest t ih => rw [chain_concat, TaxiBuffer.concat_ids, ih]; simp

theorem adjustFront_payload (t : TaxiBuffer) (header : Nat) (hlen : header ≤ t.head.payloadLen.toNat) :
    (t.adjustFront header).payload = t.payload.drop header := by
  rw [TaxiBuffer.payload, TaxiBuffer.payload, TaxiBuffer.fragments, TaxiBuffer.fragments]
  rw [List.flatMap_cons, List.flatMap_cons, List.drop_append_of_le_length]
  · exact congrArg (· ++ _) (t.head.payload_drop hlen)
  · rw [Fragment.length_payload]
    exact hlen

theorem chain_payload {rest : List TaxiBuffer} (first : TaxiBuffer)
    (hwhole : ∀ t ∈ rest, channelMessageSize ≤ t.head.payloadLen.toNat) :
    (chain first rest).payload = first.payload ++ rest.flatMap fun t => t.payload.drop channelMessageSize := by
  induction rest using List.reverseRecOn with
  | nil => simp [chain]
  | append_singleton rest t ih =>
    rw [chain_concat, TaxiBuffer.concat_payload, ih fun u hu => hwhole u (List.mem_append_left _ hu),
      adjustFront_payload t _ (hwhole t (by simp))]
    simp

/-- The content id is written over the bytes 2 and 3. -/
theorem setContentID_payload (t : TaxiBuffer) (hi lo : UInt8) (hlen : 4 ≤ t.head.payloadLen.toNat) :
    (t.setContentID (be16 hi lo)).payload = t.payload.take 2 ++ [hi, lo] ++ t.payload.drop 4 := by
  have hhead : (t.setContentID (be16 hi lo)).head.payload =
      t.head.payload.take 2 ++ [hi, lo] ++ t.head.payload.drop 4 := by
    apply List.ext_getElem
    · simp [Fragment.payload, TaxiBuffer.setContentID]
      omega
    · intro i hi' _
      rw [Fragment.length_payload] at hi'
      have hi'' : i < t.head.payloadLen.toNat := hi'
      have htake : (t.head.payload.take 2).length = 2 := by
        rw [List.length_take, Fragment.length_payload]
        omega
      simp only [Fragment.payload, List.getElem_map, List.getElem_range, Fragment.byte,
        TaxiBuffer.setContentID, be16_high, be16_low, Nat.add_right_inj]
      rcases Nat.lt_or_ge i 2 with h2 | h2
      · rw [List.getElem_append_left (by simp; omega), List.getElem_append_left (by simp; omega)]
        rw [if_neg (by omega), if_neg (by omega)]
        simp [Fragment.byte]
      · rcases Nat.lt_or_ge i 4 with h4 | h4
        · rw [List.getElem_append_left (by simp; omega), List.getElem_append_right (by simp; omega)]
          obtain rfl | rfl : i = 2 ∨ i = 3 := by omega
          · simp [show min 2 t.head.payloadLen.toNat = 2 by omega]
          · simp [show min 2 t.head.payloadLen.toNat = 2 by omega]
        · rw [List.getElem_append_right (by simp; omega)]
          rw [if_neg (by omega), if_neg (by omega)]
          simp [Fragment.byte, show min 2 t.head.payloadLen.toNat = 2 by omega,
            show 4 + (i - (2 + 2)) = i by omega]
  have hwhole : t.payload = t.head.payload ++ t.next.flatMap Fragment.payload := rfl
  have hlen' : 4 ≤ t.head.payload.length := by rwa [Fragment.length_payload]
  have hset : (t.setContentID (be16 hi lo)).payload =
      (t.setContentID (be16 hi lo)).head.payload ++ t.next.flatMap Fragment.payload := rfl
  rw [hset, hhead, hwhole, List.take_append_of_le_length (by omega), List.drop_append_of_le_length hlen']
  simp

/-! ## one message -/

namespace DisInlet

/-- the chain of the inlet is that of a first fragment and the messages after it -/
structure Holds (inlet : DisInlet) (first : TaxiBuffer) (later : List TaxiBuffer) : Prop where
  head : inlet.reassemblyHead = some (chain first (sequels later))
  number : inlet.reassemblySeqNum = nextNumber first later

section step
variable {inlet : DisInlet} {first t u : TaxiBuffer} {later : List TaxiBuffer}

theorem not_sequel_of_first (hfirst : t.isFirst = true) : t.isSequel = false := by
  have htype : t.chunkType = 0x03 := by simpa [TaxiBuffer.isFirst] using hfirst
  simp [TaxiBuffer.isSequel, htype]

theorem nextNumber_sequel (hsequel : t.isSequel = true) (hnumber : t.timestamp = nextNumber first later) :
    t.timestamp + 1 = nextNumber first (later ++ [t]) := by
  rw [hnumber, nextNumber, nextNumber, sequels_sequel later hsequel, List.length_append]
  rw [List.length_singleton, UInt32.ofNat_add, ← UInt32.add_assoc]
  rfl

/-- a first fragment starts over -/
theorem reassemble_first (hfirst : t.isFirst = true) :
    Holds (inlet.reassemble t).1 t [] ∧ (inlet.reassemble t).2.1 = none := by
  have htype : t.chunkType = 0x03 := by simpa [TaxiBuffer.isFirst] using hfirst
  have hnumber : t.timestamp + 1 = nextNumber t [] := by simp [nextNumber, sequels]
  rw [reassemble, if_pos htype]
  split
  · exact ⟨⟨rfl, hnumber⟩, rfl⟩
  · exact ⟨⟨rfl, hnumber⟩, rfl⟩

/-- a sequel that nothing came before -/
theorem reassemble_orphan (hnone : inlet.reassemblyHead = none) (hsequel : t.isSequel = true) :
    (inlet.reassemble t).1.reassemblyHead = none ∧ (inlet.reassemble t).2.1 = none := by
  have htype : t.chunkType = 0xC0 := by simpa [TaxiBuffer.isSequel] using hsequel
  rw [reassemble, if_neg (by rw [htype]; decide), if_pos htype, hnone]
  exact ⟨rfl, rfl⟩

/-- a sequel leaves the frame open, completes it or ends it -/
theorem reassemble_sequel (hholds : inlet.Holds first later) (hs : Sequence first later)
    (hsequel : t.isSequel = true) :
    (Sequence first (later ++ [t]) → Holds (inlet.reassemble t).1 first (later ++ [t])) ∧
      (¬ Sequence first (later ++ [t]) → (inlet.reassemble t).1.reassemblyHead = none) ∧
      ((inlet.reassemble t).2.1 = some u ↔
        Completes first later t ∧ u = frame first (sequels later ++ [t])) := by
  have htype : t.chunkType = 0xC0 := by simpa [TaxiBuffer.isSequel] using hsequel
  have hjoin : chain first (sequels later ++ [t]) =
      (chain first (sequels later)).concat (t.adjustFront channelMessageSize) := chain_concat _ _ _
  rw [sequence_sequel hsequel, reassemble, if_neg (by rw [htype]; decide), if_pos htype, hholds.head]
  dsimp only
  rw [hholds.number, ← hjoin]
  by_cases hnumber : t.timestamp = nextNumber first later
  · rw [if_neg (by rw [hnumber]; exact fun h => h rfl)]
    by_cases htotal : (chain first (sequels later ++ [t])).getTotalLen ≤ 200000
    · rw [if_neg (Nat.not_lt.mpr htotal)]
      cases hlast : t.configOrLast with
      | true =>
        rw [if_pos rfl]
        refine ⟨fun h => (by cases h.2.2.2), fun _ => rfl, ?_⟩
        have hcompletes : Completes first later t := ⟨hsequel, hnumber, htotal, hlast⟩
        have hid : (chain first (sequels later ++ [t])).contentID = first.contentID := by
          rw [TaxiBuffer.contentID, chain_head, TaxiBuffer.contentID]
        rw [hid]
        exact ⟨fun h => ⟨hcompletes, (Option.some.inj h).symm⟩, fun h => congrArg some h.2.symm⟩
      | false =>
        rw [if_neg Bool.false_ne_true]
        refine ⟨fun _ => ⟨?_, nextNumber_sequel hsequel hnumber⟩, fun h => absurd ⟨hs, hnumber, htotal, rfl⟩ h, ?_⟩
        · rw [sequels_sequel later hsequel]
        · refine ⟨fun h => (by cases h), fun h => ?_⟩
          have hlast' := h.1.last
          rw [hlast] at hlast'
          cases hlast'
    · rw [if_pos (Nat.lt_of_not_le htotal)]
      exact ⟨fun h => absurd h.2.2.1 htotal, fun _ => rfl, fun h => (by cases h), fun h => absurd h.1.small htotal⟩
  · rw [if_pos hnumber]
    exact ⟨fun h => absurd h.2.1 hnumber, fun _ => rfl, fun h => (by cases h), fun h => absurd h.1.number hnumber⟩

/-- what is not a fragment is passed on -/
theorem reassemble_other (first : TaxiBuffer) (later : List TaxiBuffer) (hfirst : t.isFirst = false)
    (hsequel : t.isSequel = false) :
    (inlet.reassemble t).2.1 = some t ∧
      (inlet.reassemblyHead = none → (inlet.reassemble t).1.reassemblyHead = none) ∧
      (inlet.Holds first later → Sequence first later →
        (Sequence first (later ++ [t]) → Holds (inlet.reassemble t).1 first (later ++ [t])) ∧
          (¬ Sequence first (later ++ [t]) → (inlet.reassemble t).1.reassemblyHead = none)) := by
  have htype : t.chunkType ≠ 0x03 := by simpa [TaxiBuffer.isFirst] using hfirst
  have htype' : t.chunkType ≠ 0xC0 := by simpa [TaxiBuffer.isSequel] using hsequel
  rw [sequence_other hsequel, reassemble, if_neg htype, if_neg htype']
  cases hhead : inlet.reassemblyHead with
  | none =>
    refine ⟨rfl, fun _ => hhead, fun hholds => ?_⟩
    have hsome := hholds.head
    rw [hhead] at hsome
    cases hsome
  | some head =>
    refine ⟨by dsimp only; split <;> rfl, fun h => (by cases h), fun hholds hs => ?_⟩
    have hnext : Holds inlet first (later ++ [t]) := by
      refine ⟨?_, ?_⟩
      · rw [sequels_other later hsequel]
        exact hholds.head
      · rw [nextNumber, sequels_other later hsequel]
        exact hholds.number
    rw [hholds.number]
    dsimp only
    split
    · next hpast =>
      refine ⟨fun h => ?_, fun _ => rfl⟩
      rcases hpast with hpast | hpast
      · exact absurd hpast h.2.2
      · exact absurd h.2.1 hpast
    · next hnot =>
      refine ⟨fun _ => hnext, fun h => ?_⟩
      rw [not_or, not_not] at hnot
      exact absurd ⟨hs, hnot.2, hnot.1⟩ h

end step

/-! ## a stream of messages -/

/-- The chain after a stream that began with a reset: there is one if and only if the stream ends with a
frame that is open. -/
theorem feed_holds (inlet : DisInlet) (messages : List TaxiBuffer) :
    (∀ early first later, messages = early ++ first :: later → Sequence first later →
        Holds (inlet.reset.1.feed messages) first later) ∧
      ((inlet.reset.1.feed messages).reassemblyHead ≠ none →
        ∃ early first later, messages = early ++ first :: later ∧ Sequence first later) := by
  induction messages using List.reverseRecOn with
  | nil => exact ⟨fun early first later heq => by simp at heq, fun hne => absurd rfl hne⟩
  | append_singleton messages t ih =>
    rw [feed_concat]
    obtain ⟨hfound, hopen⟩ := ih
    constructor
    · intro early first later heq hs
      rcases List.eq_nil_or_concat' later with rfl | ⟨later, x, rfl⟩
      · obtain ⟨-, htf⟩ := List.append_inj' heq rfl
        obtain rfl : t = first := by simpa using htf
        exact (reassemble_first hs.isFirst).1
      · have heq' : messages ++ [t] = (early ++ first :: later) ++ [x] := by rw [heq]; simp
        obtain ⟨hmessages, htx⟩ := List.append_inj' heq' rfl
        obtain rfl : t = x := by simpa using htx
        have hholds := hfound early first later hmessages hs.init
        cases hsequel : t.isSequel with
        | true => exact (reassemble_sequel (u := t) hholds hs.init hsequel).1 hs
        | false =>
          cases hfirst : t.isFirst with
          | true =>
            have hvoid := ((sequence_other hsequel).mp hs).2.1
            rw [TaxiBuffer.isFirst, hvoid] at hfirst
            cases hfirst
          | false => exact ((reassemble_other _ _ hfirst hsequel).2.2 hholds hs.init).1 hs
    · intro hne
      cases hfirst : t.isFirst with
      | true => exact ⟨messages, t, [], by simp, .single hfirst⟩
      | false =>
        by_cases hhead : (inlet.reset.1.feed messages).reassemblyHead = none
        · cases hsequel : t.isSequel with
          | true => exact absurd (reassemble_orphan hhead hsequel).1 hne
          | false =>
            exact absurd ((reassemble_other t [] hfirst hsequel).2.1 hhead) hne
        · obtain ⟨early, first, later, heq, hs⟩ := hopen hhead
          have hholds := hfound early first later heq hs
          by_cases hnext : Sequence first (later ++ [t])
          · exact ⟨early, first, later ++ [t], by rw [heq]; simp, hnext⟩
          · cases hsequel : t.isSequel with
            | true => exact absurd ((reassemble_sequel (u := t) hholds hs hsequel).2.1 hnext) hne
            | false => exact absurd (((reassemble_other _ _ hfirst hsequel).2.2 hholds hs).2 hnext) hne

/-- **What each message of a stream makes the inlet pass on**, from its start or from where it was last
given back: a message that is no fragment is passed on as it is, and a sequel makes the inlet pass on the
frame that it completes.  For that the stream must have its first fragment, all its sequels in order,
and nothing between them but void messages that are not younger. -/
theorem reassemble_eq_some_iff (inlet : DisInlet) (messages : List TaxiBuffer) (t u : TaxiBuffer) :
    ((inlet.reset.1.feed messages).reassemble t).2.1 = some u ↔
      (t.isFirst = false ∧ t.isSequel = false ∧ u = t) ∨
        ∃ early first later, messages = early ++ first :: later ∧ Sequence first later ∧
          Completes first later t ∧ u = frame first (sequels later ++ [t]) := by
  obtain ⟨hfound, hopen⟩ := feed_holds inlet messages
  cases hfirst : t.isFirst with
  | true =>
    rw [(reassemble_first hfirst).2]
    have hsequel := not_sequel_of_first hfirst
    refine ⟨fun h => (by cases h), ?_⟩
    rintro (⟨h, -⟩ | ⟨_, _, _, _, _, hc, _⟩)
    · cases h
    · have hc' := hc.isSequel
      rw [hsequel] at hc'
      cases hc'
  | false =>
    cases hsequel : t.isSequel with
    | false =>
      rw [(reassemble_other t [] hfirst hsequel).1]
      refine ⟨fun h => .inl ⟨rfl, rfl, (Option.some.inj h).symm⟩, ?_⟩
      rintro (⟨-, -, rfl⟩ | ⟨_, _, _, _, _, hc, _⟩)
      · rfl
      · have hc' := hc.isSequel
        rw [hsequel] at hc'
        cases hc'
    | true =>
      constructor
      · intro hsome
        by_cases hhead : (inlet.reset.1.feed messages).reassemblyHead = none
        · rw [(reassemble_orphan hhead hsequel).2] at hsome
          cases hsome
        · obtain ⟨early, first, later, heq, hs⟩ := hopen hhead
          have hholds := hfound early first later heq hs
          obtain ⟨hc, hu⟩ := (reassemble_sequel hholds hs hsequel).2.2.mp hsome
          exact .inr ⟨early, first, later, heq, hs, hc, hu⟩
      · rintro (⟨-, h, -⟩ | ⟨early, first, later, heq, hs, hc, hu⟩)
        · cases h
        · exact (reassemble_sequel (hfound early first later heq hs) hs hsequel).2.2.mpr ⟨hc, hu⟩

/-- **The bytes of a frame that is passed on** are those of its first fragment, with the type of a whole
frame in the place of its own, and behind them those of its sequels without their headers.  The fragments
came in this order, among other messages. -/
theorem reassemble_payload (inlet : DisInlet) (messages : List TaxiBuffer) (t u : TaxiBuffer)
    (hwhole : ∀ m ∈ messages ++ [t], channelMessageSize ≤ m.head.payloadLen.toNat)
    (hsequel : t.isSequel) (hpass : ((inlet.reset.1.feed messages).reassemble t).2.1 = some u) :
    ∃ first rest, (first :: rest).Sublist (messages ++ [t]) ∧ first.isFirst ∧
      (∀ i m, rest[i]? = some m → m.isSequel ∧ m.timestamp = first.timestamp + 1 + UInt32.ofNat i) ∧
      u.ids = (first :: rest).flatMap TaxiBuffer.ids ∧ u.payload.length ≤ 200000 ∧
      u.payload = first.payload.take 3 ++ 0x02 :: first.payload.drop 4 ++
        rest.flatMap fun m => m.payload.drop channelMessageSize := by
  obtain ⟨hfound, hopen⟩ := feed_holds inlet messages
  by_cases hhead : (inlet.reset.1.feed messages).reassemblyHead = none
  · rw [(reassemble_orphan hhead hsequel).2] at hpass
    cases hpass
  · obtain ⟨early, first, later, heq, hs⟩ := hopen hhead
    obtain ⟨hc, rfl⟩ := (reassemble_sequel (hfound early first later heq hs) hs hsequel).2.2.mp hpass
    have hsub : (first :: (sequels later ++ [t])).Sublist (messages ++ [t]) := by
      rw [heq]
      have hlater : (sequels later ++ [t]).Sublist (later ++ [t]) :=
        List.filter_sublist.append_right [t]
      simpa using (hlater.cons_cons first).trans (List.sublist_append_right early _)
    have hfirst : 4 ≤ first.head.payloadLen.toNat :=
      Nat.le_trans (by decide) (hwhole first (hsub.subset List.mem_cons_self))
    have hchain := chain_payload first fun m (hm : m ∈ sequels later ++ [t]) =>
      hwhole m (hsub.subset (List.mem_cons_of_mem _ hm))
    have hset : (frame first (sequels later ++ [t])).payload =
        (chain first (sequels later ++ [t])).payload.take 2 ++ [first.head.byte 2, 0x02] ++
          (chain first (sequels later ++ [t])).payload.drop 4 := by
      rw [frame, frameID_eq]
      exact setContentID_payload _ _ _ (by rwa [chain_head])
    have hlen : 4 ≤ first.payload.length := by
      rw [TaxiBuffer.length_payload]
      exact hfirst.trans (by simp [TaxiBuffer.getTotalLen, TaxiBuffer.fragments])
    refine ⟨first, sequels later ++ [t], hsub, hs.isFirst, fun i m hm => ?_, ?_, ?_, ?_⟩
    · have hmem := List.mem_of_getElem? hm
      rcases Nat.lt_or_ge i (sequels later).length with hlt | hge
      · rw [List.getElem?_append_left hlt] at hm
        exact ⟨(List.mem_filter.mp (List.mem_of_getElem? hm)).2, hs.numbered i m hm⟩
      · obtain rfl : i = (sequels later).length := by
          have hi := (List.getElem?_eq_some_iff.mp hm).1
          rw [List.length_append, List.length_singleton] at hi
          omega
        obtain rfl : t = m := by simpa using hm
        exact ⟨hsequel, hc.number⟩
    · rw [frame, TaxiBuffer.setContentID_ids, chain_ids]
      rfl
    · have hsmall := hc.small
      rw [← TaxiBuffer.length_payload] at hsmall
      rw [hset]
      simp only [List.length_append, List.length_take, List.length_drop, List.length_cons, List.length_nil]
      rw [hchain, List.length_append] at hsmall ⊢
      omega
    · have hbyte : first.payload.take 2 ++ [first.head.byte 2, 0x02] = first.payload.take 3 ++ [0x02] := by
        have hthree : 2 < first.payload.length := by omega
        have hget : first.payload[2] = first.head.byte 2 := by
          have hhead : first.payload = first.head.payload ++ first.next.flatMap Fragment.payload := rfl
          simp only [hhead]
          rw [List.getElem_append_left (by rw [Fragment.length_payload]; omega)]
          simp [Fragment.payload]
        have htake : first.payload.take 3 = first.payload.take 2 ++ [first.payload[2]] :=
          List.take_succ_eq_append_getElem hthree
        rw [htake, hget]
        simp
      rw [hset, hchain, List.take_append_of_le_length (by omega), List.drop_append_of_le_length hlen, hbyte]
      simp

/-- three samples of a byte each, in two fragments -/
theorem reassemble_payload_two :
    let first := TaxiBuffer.received 1 (fun i => [0, 21, 0x40, 0x03, 0, 0, 0, 6, 1, 1, 0, 2,
      0x42, 0x00, 0x40, 0x10, 0, 0, 1, 0, 5].getD i 0) 21 0
    let last := TaxiBuffer.received 2 (fun i => [0, 10, 0x40, 0xC0, 0, 0, 0, 7, 6, 7].getD i 0) 10 0
    ∃ u, ((start.reset.1.feed [first]).reassemble last).2.1 = some u ∧ u.payload.length ≤ 200000 := by
  intro first last
  have hsome : ((start.reset.1.feed [first]).reassemble last).2.1.isSome = true := by decide +kernel
  obtain ⟨u, hu⟩ := Option.isSome_iff_exists.mp hsome
  obtain ⟨-, -, -, -, -, -, hlen, -⟩ := reassemble_payload start [first] last u (by decide +kernel)
    (by decide +kernel) hu
  exact ⟨u, hu, hlen⟩

end DisInlet

end LiberaLink.Idn
