import LiberaLink.Idn.TaxiBuffer

/-!
# The samples of a chunk

A chunk of samples lies in a chain of fragments, cut at any byte.  The adapter decodes the samples of
one fragment after the other; a sample that goes on in the next fragment is copied together from the
two.  It never looks at a third one, so that a fragment in the middle of a sample is taken as the end
of the data.

* `decodeFragments`, `decodeChunk`   the loop, and the check of what it decoded;
* `decode_take`          a sample is decoded from its own bytes;
* `decodeFragments_eq`   the loop on a chain that fits and on one that does not;
* `decodeChunk_eq`       **the chain is decoded as if it were in one piece, or not at all**.
-/

namespace LiberaLink.Idn

/-- the samples of a run of bytes, each decoded into a fresh point -/
def decodeSamples (decoder : IDNLaproDecoder) : Nat → List UInt8 → List DB25Sample
  | 0, _ => []
  | count + 1, src =>
    decoder.decode .zero src :: decodeSamples decoder count (src.drop decoder.sampleSize)

/-- The loop over the fragments: `src` is what is left of the fragment in hand. -/
def decodeFragments (decoder : IDNLaproDecoder) (src : List UInt8) :
    List (List UInt8) → List DB25Sample
  | [] => decodeSamples decoder (src.length / decoder.sampleSize) src
  | fragment :: fragments =>
    let count := src.length / decoder.sampleSize
    let rest := src.drop (count * decoder.sampleSize)
    decodeSamples decoder count src ++
      if rest = [] then decodeFragments decoder fragment fragments
      else
        let leftover := decoder.sampleSize - rest.length
        if fragment.length < leftover then []
        else
          decoder.decode .zero (rest ++ fragment.take leftover) ::
            decodeFragments decoder (fragment.drop leftover) fragments

/-- What the adapter keeps of a chunk of `sampleCount` samples: nothing where the data were short. -/
def decodeChunk (decoder : IDNLaproDecoder) (sampleCount : Nat) (src : List UInt8)
    (fragments : List (List UInt8)) : List DB25Sample :=
  let samples := decodeFragments decoder src fragments
  if samples.length = sampleCount then samples else []

/-- Every fragment that begins inside a sample has the rest of that sample. -/
def Fits (size start : Nat) (fragments : List (List UInt8)) : Prop :=
  ∀ before fragment after, fragments = before ++ fragment :: after →
    (start + before.flatten.length) % size = 0 ∨
      size - (start + before.flatten.length) % size ≤ fragment.length

/-! ## one sample -/

theorem readFields_take {length : IDNDescriptorTag → Nat} {tags : List IDNDescriptorTag} {n : Nat}
    (hn : (tags.map length).sum ≤ n) (src : List UInt8) (r : Reading) :
    readFields length tags (src.take n) r = readFields length tags src r := by
  induction tags generalizing n src r with
  | nil => rfl
  | cons tag tags ih =>
    rw [List.map_cons, List.sum_cons] at hn
    rw [readFields, readFields, List.take_take, min_eq_left (by omega), List.drop_take,
      ih (by omega)]

theorem decode_take (decoder : IDNLaproDecoder) (dst : DB25Sample) (src : List UInt8) :
    decoder.decode dst (src.take decoder.sampleSize) = decoder.decode dst src := by
  rw [decode_eq, decode_eq, readFields_take (decode_fields decoder).2.1]

theorem decode_append {decoder : IDNLaproDecoder} {sample : List UInt8}
    (hsample : decoder.sampleSize ≤ sample.length) (dst : DB25Sample) (rest : List UInt8) :
    decoder.decode dst (sample ++ rest) = decoder.decode dst sample := by
  rw [← decode_take, List.take_append_of_le_length hsample, decode_take]

/-! ## runs of samples -/

variable {decoder : IDNLaproDecoder}

@[simp] theorem length_decodeSamples (count : Nat) (src : List UInt8) :
    (decodeSamples decoder count src).length = count := by
  induction count generalizing src with
  | zero => rfl
  | succ count ih => rw [decodeSamples, List.length_cons, ih]

theorem decodeSamples_add (a b : Nat) (src : List UInt8) :
    decodeSamples decoder (a + b) src =
      decodeSamples decoder a src ++ decodeSamples decoder b (src.drop (a * decoder.sampleSize)) := by
  induction a generalizing src with
  | zero => simp [decodeSamples]
  | succ a ih =>
    rw [Nat.succ_add, decodeSamples, ih, decodeSamples, List.cons_append, List.drop_drop,
      Nat.succ_mul, Nat.add_comm decoder.sampleSize]

/-- what is behind the samples does not matter -/
theorem decodeSamples_append {count : Nat} {src : List UInt8}
    (hsrc : count * decoder.sampleSize ≤ src.length) (rest : List UInt8) :
    decodeSamples decoder count (src ++ rest) = decodeSamples decoder count src := by
  induction count generalizing src with
  | zero => rfl
  | succ count ih =>
    rw [Nat.succ_mul] at hsrc
    rw [decodeSamples, decodeSamples, decode_append (by omega), List.drop_append_of_le_length (by omega),
      ih (by rw [List.length_drop]; omega)]

/-! ## the chain -/

theorem fits_cons {size start : Nat} {fragment : List UInt8} {fragments : List (List UInt8)} :
    Fits size start (fragment :: fragments) ↔
      (start % size = 0 ∨ size - start % size ≤ fragment.length) ∧
        Fits size (start + fragment.length) fragments := by
  constructor
  · intro h
    refine ⟨by simpa using h [] fragment fragments rfl, ?_⟩
    rintro before next after rfl
    have hnext := h (fragment :: before) next after rfl
    rwa [List.flatten_cons, List.length_append, ← Nat.add_assoc] at hnext
  · rintro ⟨hfirst, hrest⟩ before next after heq
    match before with
    | [] =>
      obtain ⟨rfl, rfl⟩ := List.cons_eq_cons.mp heq
      simpa using hfirst
    | _ :: before =>
      obtain ⟨rfl, rfl⟩ := List.cons_eq_cons.mp heq
      rw [List.flatten_cons, List.length_append, ← Nat.add_assoc]
      exact hrest before next after rfl

/-- only the place inside the sample counts -/
theorem fits_congr {size start start' : Nat} (h : start % size = start' % size)
    (fragments : List (List UInt8)) : Fits size start fragments ↔ Fits size start' fragments := by
  have hmod : ∀ n, (start + n) % size = (start' + n) % size := fun n => by
    rw [Nat.add_mod, h, ← Nat.add_mod]
  simp only [Fits, hmod]

theorem decodeSamples_split {a b : Nat} {src : List UInt8} (ha : a * decoder.sampleSize ≤ src.length)
    (rest : List UInt8) :
    decodeSamples decoder (a + b) (src ++ rest) =
      decodeSamples decoder a src ++
        decodeSamples decoder b (src.drop (a * decoder.sampleSize) ++ rest) := by
  rw [decodeSamples_add, decodeSamples_append ha, List.drop_append_of_le_length ha]

/-- The loop on a chain of whole samples, with `src` in hand: all of them where the fragments fit, and
fewer where they do not. -/
theorem decodeFragments_eq (fragments : List (List UInt8)) (src : List UInt8) (count : Nat)
    (hcount : src.length + fragments.flatten.length = count * decoder.sampleSize) :
    (Fits decoder.sampleSize src.length fragments →
        decodeFragments decoder src fragments =
          decodeSamples decoder count (src ++ fragments.flatten)) ∧
      (¬ Fits decoder.sampleSize src.length fragments →
        (decodeFragments decoder src fragments).length < count) := by
  have hsize := decoder.size_pos
  induction fragments generalizing src count with
  | nil =>
    rw [List.flatten_nil, List.length_nil, Nat.add_zero] at hcount
    have hfits : Fits decoder.sampleSize src.length [] := by
      intro before fragment after h
      simp at h
    refine ⟨fun _ => ?_, fun h => absurd hfits h⟩
    rw [decodeFragments, List.flatten_nil, List.append_nil, hcount, Nat.mul_div_cancel _ hsize]
  | cons fragment fragments ih =>
    rw [List.flatten_cons, List.length_append] at hcount
    set whole := src.length / decoder.sampleSize with hwhole
    have hdiv : whole * decoder.sampleSize + src.length % decoder.sampleSize = src.length :=
      Nat.div_add_mod' _ _
    have hle : whole * decoder.sampleSize ≤ src.length := by omega
    have hrest : (src.drop (whole * decoder.sampleSize)).length = src.length % decoder.sampleSize := by
      rw [List.length_drop]; omega
    have hlt : src.length % decoder.sampleSize < decoder.sampleSize := Nat.mod_lt _ hsize
    obtain ⟨more, rfl⟩ : ∃ more, count = whole + more :=
      ⟨count - whole, by
        have : whole ≤ count := Nat.le_of_mul_le_mul_right (by omega) hsize
        omega⟩
    rw [Nat.add_mul] at hcount
    simp only [decodeFragments, ← hwhole]
    by_cases haligned : src.length % decoder.sampleSize = 0
    · -- the fragment ends with a sample
      have hempty : src.drop (whole * decoder.sampleSize) = [] := by
        rw [← List.length_eq_zero_iff, hrest, haligned]
      obtain ⟨hall, hfew⟩ := ih fragment more (by omega)
      have hfits : Fits decoder.sampleSize src.length (fragment :: fragments) ↔
          Fits decoder.sampleSize fragment.length fragments := by
        rw [fits_cons, and_iff_right (.inl haligned)]
        exact fits_congr (by rw [Nat.add_mod, haligned, Nat.zero_add, Nat.mod_mod]) fragments
      rw [if_pos hempty]
      rw [hfits]
      constructor
      · intro h
        rw [hall h, decodeSamples_split hle, hempty, List.nil_append, List.flatten_cons]
      · intro h
        have := hfew h
        rw [List.length_append, length_decodeSamples]
        omega
    · -- a sample is open
      have hopen : ¬ src.drop (whole * decoder.sampleSize) = [] := by
        rw [← List.length_eq_zero_iff, hrest]
        exact haligned
      rw [if_neg hopen, hrest]
      set missing := decoder.sampleSize - src.length % decoder.sampleSize with hmissing
      have hone : 0 < more := by
        rcases Nat.eq_zero_or_pos more with rfl | h
        · omega
        · exact h
      by_cases hshort : fragment.length < missing
      · have hnot : ¬ Fits decoder.sampleSize src.length (fragment :: fragments) := by
          rw [fits_cons]
          rintro ⟨h | h, -⟩ <;> omega
        refine ⟨fun h => absurd h hnot, fun _ => ?_⟩
        rw [if_pos hshort, List.append_nil, length_decodeSamples]
        omega
      · obtain ⟨more, rfl⟩ : ∃ n, more = n + 1 := ⟨more - 1, by omega⟩
        rw [Nat.succ_mul] at hcount
        have hdrop : (fragment.drop missing).length = fragment.length - missing := List.length_drop
        obtain ⟨hall, hfew⟩ := ih (fragment.drop missing) more (by omega)
        have hfits : Fits decoder.sampleSize src.length (fragment :: fragments) ↔
            Fits decoder.sampleSize (fragment.drop missing).length fragments := by
          rw [fits_cons, and_iff_right (.inr (by omega)), hdrop]
          refine fits_congr ?_ fragments
          have hsum : src.length + fragment.length =
              (fragment.length - missing) + (whole + 1) * decoder.sampleSize := by
            rw [Nat.succ_mul]; omega
          rw [hsum, Nat.add_mul_mod_self_right]
        have hsample : (src.drop (whole * decoder.sampleSize) ++ fragment.take missing).length =
            decoder.sampleSize := by
          rw [List.length_append, List.length_take, hrest]
          omega
        rw [if_neg hshort, hfits]
        constructor
        · intro h
          have hbytes : src.drop (whole * decoder.sampleSize) ++ (fragment ++ fragments.flatten) =
              (src.drop (whole * decoder.sampleSize) ++ fragment.take missing) ++
                (fragment.drop missing ++ fragments.flatten) := by
            simp only [List.append_assoc]
            rw [← List.append_assoc (fragment.take missing), List.take_append_drop]
          rw [hall h, decodeSamples_split hle, List.flatten_cons, hbytes, decodeSamples,
            decode_append hsample.ge, List.drop_left' hsample]
        · intro h
          have := hfew h
          rw [List.length_append, List.length_cons, length_decodeSamples]
          omega

/-- The adapter decodes the chain of a chunk as if its payload lay in one piece, if every fragment that
begins inside a sample has the rest of that sample; otherwise it drops the chunk. -/
theorem decodeChunk_eq (decoder : IDNLaproDecoder) (src : List UInt8) (fragments : List (List UInt8))
    (sampleCount : Nat)
    (hwhole : src.length + fragments.flatten.length = sampleCount * decoder.sampleSize)
    (hsome : 0 < sampleCount) :
    (Fits decoder.sampleSize src.length fragments →
        decodeChunk decoder sampleCount src fragments =
          decodeSamples decoder sampleCount (src ++ fragments.flatten)) ∧
      (decodeChunk decoder sampleCount src fragments = [] ↔
        ¬ Fits decoder.sampleSize src.length fragments) := by
  obtain ⟨hall, hfew⟩ := decodeFragments_eq fragments src sampleCount hwhole
  have hfits : Fits decoder.sampleSize src.length fragments →
      decodeChunk decoder sampleCount src fragments =
        decodeSamples decoder sampleCount (src ++ fragments.flatten) := fun h => by
    rw [decodeChunk, hall h, if_pos (length_decodeSamples _ _)]
  refine ⟨hfits, fun hempty h => ?_, fun h => ?_⟩
  · have hlength := congrArg List.length (hfits h)
    rw [hempty, length_decodeSamples, List.length_nil] at hlength
    omega
  · rw [decodeChunk, if_neg (Nat.ne_of_lt (hfew h))]

/-- two samples cut inside the first one -/
theorem decodeChunk_xyrgb :
    decodeChunk xyrgb 2 [0, 1, 2] [[3, 4, 5, 6, 7, 8, 9], [10, 11, 12, 13]] =
      decodeSamples xyrgb 2 [0, 1, 2, 3, 4, 5, 6, 7, 8, 9, 10, 11, 12, 13] := by
  refine (decodeChunk_eq xyrgb [0, 1, 2] [[3, 4, 5, 6, 7, 8, 9], [10, 11, 12, 13]] 2 rfl (by decide)).1 ?_
  rw [fits_cons, fits_cons]
  refine ⟨by decide, by decide, ?_⟩
  intro before fragment after h
  simp at h

end LiberaLink.Idn
