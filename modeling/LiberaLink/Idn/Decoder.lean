import Mathlib.Algebra.Order.BigOperators.Group.List
import LiberaLink.Idn.Driver

/-!
# The sample decoder of an IDN channel

The configuration of a channel is a list of 16-bit tag words.  `buildFrom` turns them into a list of
descriptors, one for each field of a sample, and adds up how long a sample is; `decode` then reads
the samples of the channel field by field.

* `buildDictionary`, `buildFrom`   the tag words, with the words that a void tag skips;
* `IDNLaproDecoder.decode`         one sample;
* `buildFrom_eq`      **what becomes of every configuration**: the loop never reads past the words, and
                      where no word describes a field the code writes through a null pointer;
* `decode_eq`         each field is read where the field before it ends;
* `decode_fields`     **when every field is read where the sample has it**;
* `decode_encode`     **a sample that was encoded field by field is read back**.
-/

namespace LiberaLink.Idn

/-- a point as the decoder fills it, with the channel that the adapter leaves out -/
structure DB25Sample extends ISPDB25Point where
  u3 : UInt16
  deriving DecidableEq

def DB25Sample.zero : DB25Sample := ⟨⟨0, 0, 0, 0, 0, 0, 0, 0⟩, 0⟩

inductive DescriptorType where
  | nop
  | drawControl0
  | drawControl1
  | x
  | y
  | z
  | color
  | wavelength
  | intensity
  | beamBrush
  deriving DecidableEq

structure IDNDescriptorTag where
  type : DescriptorType
  precision : UInt8 := 0
  scannerId : UInt8 := 0
  wavelength : UInt16 := 0
  deriving DecidableEq

/-! ## numbers of two bytes -/

def be16 (hi lo : UInt8) : UInt16 := (hi.toUInt16 <<< 8) ||| lo.toUInt16

/-- the two bytes of a number, the high one first -/
def bytes16 (v : UInt16) : List UInt8 := [(v >>> 8).toUInt8, v.toUInt8]

theorem be16_toNat (hi lo : UInt8) : (be16 hi lo).toNat = 256 * hi.toNat + lo.toNat := by
  have hhi := hi.toNat_lt
  have hlo := lo.toNat_lt
  have hshift : hi.toNat <<< 8 < 65536 := by rw [Nat.shiftLeft_eq]; omega
  have hor : hi.toNat <<< 8 ||| lo.toNat = 256 * hi.toNat + lo.toNat := by
    rw [Nat.shiftLeft_eq, Nat.mul_comm hi.toNat, ← Nat.two_pow_add_eq_or_of_lt (i := 8) (by omega)]
  simpa [be16, Nat.mod_eq_of_lt hshift] using hor

theorem be16_bytes (v : UInt16) : be16 (v >>> 8).toUInt8 v.toUInt8 = v := by
  apply UInt16.toNat_inj.mp
  have hv := v.toNat_lt
  rw [be16_toNat]
  simp only [UInt16.toNat_toUInt8, UInt16.toNat_shiftRight, Nat.shiftRight_eq_div_pow]
  simp
  omega

theorem be16_low (hi lo : UInt8) : (be16 hi lo).toUInt8 = lo := by
  apply UInt8.toNat_inj.mp
  have hlo := lo.toNat_lt
  rw [UInt16.toNat_toUInt8, be16_toNat]
  omega

/-! ## the dictionary -/

/-- the two ways in which the building of a dictionary goes wrong -/
inductive BuildFault where
  /-- a tag word is used that was not read -/
  | uninitialisedTag
  /-- `last->next` is written, and `last` is null -/
  | nullLast
  deriving DecidableEq

def readUint16 (buf : List UInt8) (len offset : Nat) : Option (UInt16 × Nat) :=
  if offset + 2 ≤ len then some (be16 (buf.getD offset 0) (buf.getD (offset + 1) 0), offset + 2)
  else none

/-- the last descriptor gets one byte longer -/
def growLast : List IDNDescriptorTag → List IDNDescriptorTag
  | [] => []
  | [last] => [{ last with precision := last.precision + 1 }]
  | tag :: tags => tag :: growLast tags

/-- What one tag word makes of the list, and how many words behind it are skipped. -/
def tagWord (tags : List IDNDescriptorTag) (tag : UInt16) : List IDNDescriptorTag × Nat :=
  let category := (tag &&& 0xF000) >>> 12
  let sub := (tag &&& 0x0F00) >>> 8
  let id := (tag &&& 0x00F0) >>> 4
  let prm := tag &&& 0x000F
  let wl := tag &&& 0x03FF
  if category = 0 then (tags, prm.toNat)
  else if category = 4 then
    if sub = 0 then
      if id = 0 then (tags ++ [{ type := .nop }], 0)
      else if id = 1 then (growLast tags, 0)
      else (tags, 0)
    else if sub = 1 then
      (tags ++ [{ type := if prm = 0 then .drawControl0 else if prm = 1 then .drawControl1 else .nop }],
        0)
    else if sub = 2 then
      (tags ++ [{ type := if id = 0 then .x else if id = 1 then .y else if id = 2 then .z else .nop
                  scannerId := prm.toUInt8 }], 0)
    else (tags, 0)
  else if category = 5 then
    if sub ≤ 3 then (tags ++ [{ type := .color, wavelength := wl }], 0)
    else if sub = 12 then
      (tags ++ [{ type := if id = 2 then .beamBrush else if id = 1 then .intensity
                          else if id = 0 then .wavelength else .nop }], 0)
    else (tags, 0)
  else (tags, 0)

/-- the loop over the tag words, with its counter and the place it reads at -/
def buildLoop (buf : List UInt8) (len scwc i offset : Nat) (tags : List IDNDescriptorTag) :
    Except BuildFault (List IDNDescriptorTag × Nat) :=
  if i < scwc * 4 then
    match readUint16 buf len offset with
    | none => .error .uninitialisedTag
    | some (tag, offset) =>
      let r := tagWord tags tag
      buildLoop buf len scwc (i + r.2 * 2 + 2) (offset + r.2 * 2) r.1
  else .ok (tags, offset)
  termination_by scwc * 4 - i

def buildDictionary (buf : List UInt8) (len offset scwc : Nat) :
    Except BuildFault (List IDNDescriptorTag × Nat) :=
  match buildLoop buf len scwc 0 offset [] with
  | .error fault => .error fault
  | .ok ([], _) => .error .nullLast
  | .ok r => .ok r

/-- the length of a list of descriptors, as the code adds it up -/
def sampleSizeOf (tags : List IDNDescriptorTag) : Nat :=
  (tags.map fun tag => 1 + tag.precision.toNat).sum

structure IDNLaproDecoder where
  descriptors : List IDNDescriptorTag
  sampleSize : Nat
  size_eq : sampleSize = sampleSizeOf descriptors
  size_pos : 0 < sampleSize
  deriving DecidableEq

theorem sampleSizeOf_pos (tag : IDNDescriptorTag) (tags : List IDNDescriptorTag) :
    0 < sampleSizeOf (tag :: tags) := by
  rw [sampleSizeOf, List.map_cons, List.sum_cons]
  omega

/-- The decoder for a configuration; `none` is the result that is below zero. -/
def buildFrom (param : List UInt8) : Except BuildFault (Option IDNLaproDecoder) :=
  match buildDictionary param param.length 0 (param.length / 4 % 256) with
  | .error fault => .error fault
  | .ok ([], _) => .ok none
  | .ok (tag :: tags, _) =>
    .ok (some ⟨tag :: tags, sampleSizeOf (tag :: tags), rfl, sampleSizeOf_pos tag tags⟩)

/-! ## what becomes of a configuration -/

/-- the 16-bit words of a configuration -/
def tagWords : List UInt8 → List UInt16
  | hi :: lo :: rest => be16 hi lo :: tagWords rest
  | _ => []

/-- the words that a tag word skips: a void tag carries words of its own -/
def skipped (tag : UInt16) : Nat := if (tag &&& 0xF000) >>> 12 = 0 then (tag &&& 0x000F).toNat else 0

/-- the words that are read as tags -/
def reached : List UInt16 → List UInt16
  | [] => []
  | tag :: rest => tag :: reached (rest.drop (skipped tag))
  termination_by words => words.length
  decreasing_by simp only [List.length_drop, List.length_cons]; omega

/-- a tag word that makes a descriptor -/
def describes (tag : UInt16) : Bool :=
  let category := (tag &&& 0xF000) >>> 12
  let sub := (tag &&& 0x0F00) >>> 8
  (category = 4 ∧ (sub = 0 ∧ (tag &&& 0x00F0) >>> 4 = 0 ∨ sub = 1 ∨ sub = 2)) ∨
    (category = 5 ∧ (sub ≤ 3 ∨ sub = 12))

/-- the descriptors of a list of tags -/
def dictionary (tags : List UInt16) : List IDNDescriptorTag :=
  tags.foldl (fun tags tag => (tagWord tags tag).1) []

theorem tagWord_skip (tags : List IDNDescriptorTag) (tag : UInt16) :
    (tagWord tags tag).2 = skipped tag := by
  simp only [tagWord, skipped]
  by_cases hvoid : (tag &&& 0xF000) >>> 12 = 0
  · rw [if_pos hvoid, if_pos hvoid]
  · rw [if_neg hvoid, if_neg hvoid]
    split_ifs <;> rfl

theorem length_growLast (tags : List IDNDescriptorTag) : (growLast tags).length = tags.length := by
  induction tags using growLast.induct with
  | case1 => rfl
  | case2 => rfl
  | case3 tag tags _ ih => simp only [growLast, List.length_cons, ih]

/-- a tag word adds one descriptor or none -/
theorem tagWord_length (tags : List IDNDescriptorTag) (tag : UInt16) :
    (tagWord tags tag).1.length = tags.length + if describes tag then 1 else 0 := by
  simp only [tagWord, describes]
  by_cases hvoid : (tag &&& 0xF000) >>> 12 = 0
  · simp [hvoid]
  by_cases h4 : (tag &&& 0xF000) >>> 12 = 4
  · by_cases h0 : (tag &&& 0x0F00) >>> 8 = 0
    · by_cases hid : (tag &&& 0x00F0) >>> 4 = 0
      · simp [h4, h0, hid]
      · simp only [h4, h0, hid]
        split_ifs <;> simp_all [length_growLast]
    · by_cases h1 : (tag &&& 0x0F00) >>> 8 = 1
      · simp [h4, h1]
      · by_cases h2 : (tag &&& 0x0F00) >>> 8 = 2 <;> simp [h4, h0, h1, h2]
  · by_cases h5 : (tag &&& 0xF000) >>> 12 = 5
    · by_cases h3 : (tag &&& 0x0F00) >>> 8 ≤ 3
      · simp [h5, h3]
      · by_cases h12 : (tag &&& 0x0F00) >>> 8 = 12 <;> simp [h5, h3, h12]
    · simp [hvoid, h4, h5]

theorem dictionary_length (words : List UInt16) : (dictionary words).length = words.countP describes := by
  have hfold : ∀ tags, (words.foldl (fun tags tag => (tagWord tags tag).1) tags).length =
      tags.length + words.countP describes := by
    induction words with
    | nil => simp
    | cons tag words ih =>
      intro tags
      rw [List.foldl_cons, ih, tagWord_length, List.countP_cons]
      omega
  simpa [dictionary] using hfold []

theorem length_tagWords (buf : List UInt8) : (tagWords buf).length = buf.length / 2 := by
  induction buf using tagWords.induct with
  | case1 hi lo rest ih => simp only [tagWords, List.length_cons, ih]; omega
  | case2 buf hshort =>
    match buf with
    | [] => rfl
    | [_] => simp [tagWords]
    | hi :: lo :: rest => exact absurd rfl (hshort hi lo rest)

theorem drop_tagWords (buf : List UInt8) (n : Nat) (hn : 2 * n + 2 ≤ buf.length) :
    (tagWords buf).drop n =
      be16 (buf.getD (2 * n) 0) (buf.getD (2 * n + 1) 0) :: (tagWords buf).drop (n + 1) := by
  induction n generalizing buf with
  | zero =>
    match buf with
    | hi :: lo :: rest => rfl
  | succ n ih =>
    match buf with
    | hi :: lo :: rest =>
      simp only [List.length_cons] at hn
      exact ih rest (by omega)

/-- The loop and its counter keep step, so that the words never run out in the middle. -/
theorem buildLoop_eq {buf : List UInt8} {scwc : Nat} (hlen : buf.length = scwc * 4) (n : Nat)
    (tags : List IDNDescriptorTag) :
    ∃ last, buildLoop buf buf.length scwc (2 * n) (2 * n) tags =
      .ok ((reached ((tagWords buf).drop n)).foldl (fun tags tag => (tagWord tags tag).1) tags, last) := by
  induction hk : scwc * 4 - 2 * n using Nat.strong_induction_on generalizing n tags with
  | _ k ih =>
    rw [buildLoop]
    by_cases hin : 2 * n < scwc * 4
    · have hread : 2 * n + 2 ≤ buf.length := by omega
      rw [if_pos hin, readUint16, if_pos hread, drop_tagWords buf n hread, reached, List.drop_drop,
        List.foldl_cons]
      simp only [tagWord_skip]
      generalize be16 (buf.getD (2 * n) 0) (buf.getD (2 * n + 1) 0) = tag
      obtain ⟨last, hnext⟩ := ih (scwc * 4 - 2 * (n + 1 + skipped tag)) (by omega)
        (n + 1 + skipped tag) (tagWord tags tag).1 rfl
      refine ⟨last, Eq.trans ?_ hnext⟩
      congr 1 <;> ring
    · have hend : (tagWords buf).drop n = [] :=
        List.drop_eq_nil_of_le (by rw [length_tagWords]; omega)
      exact ⟨2 * n, by rw [if_neg hin, hend, reached, List.foldl_nil]⟩

theorem dictionary_eq_nil_iff (words : List UInt16) : dictionary words = [] ↔ words.any describes = false := by
  rw [← List.length_eq_zero_iff, dictionary_length, List.countP_eq_zero, List.any_eq_false]

/-- Every configuration that a channel message can carry has a whole number of words, and their number
is one byte. -/
theorem buildFrom_reached {wordCount : Nat} (hcount : wordCount < 256) {param : List UInt8}
    (hparam : param.length = wordCount * 4) :
    buildFrom param =
      match dictionary (reached (tagWords param)) with
      | [] => .error .nullLast
      | tag :: tags => .ok (some ⟨tag :: tags, sampleSizeOf (tag :: tags), rfl, sampleSizeOf_pos tag tags⟩) := by
  have hscwc : param.length / 4 % 256 = wordCount := by omega
  obtain ⟨last, hloop⟩ := buildLoop_eq hparam 0 []
  rw [Nat.mul_zero, List.drop_zero] at hloop
  change buildLoop param param.length wordCount 0 0 [] =
    .ok (dictionary (reached (tagWords param)), last) at hloop
  rw [buildFrom, hscwc, buildDictionary, hloop]
  cases dictionary (reached (tagWords param)) <;> rfl

/-- The result of `buildFrom` for every configuration that a channel message can carry.  There is a
decoder where some word that is reached describes a field, and its samples are as long as its
descriptors; where none does, the code never comes to the check of its result, which would refuse the
configuration. -/
theorem buildFrom_eq (wordCount : Nat) (hcount : wordCount < 256) (param : List UInt8)
    (hparam : param.length = wordCount * 4) :
    if (reached (tagWords param)).any describes then
      ∃ decoder, buildFrom param = .ok (some decoder) ∧
        decoder.descriptors = dictionary (reached (tagWords param)) ∧
        decoder.sampleSize = sampleSizeOf decoder.descriptors
    else buildFrom param = .error .nullLast := by
  have hempty := dictionary_eq_nil_iff (reached (tagWords param))
  rw [buildFrom_reached hcount hparam]
  by_cases hany : (reached (tagWords param)).any describes
  · rw [if_pos hany]
    cases hdict : dictionary (reached (tagWords param)) with
    | nil => exact absurd (hempty.mp hdict) (by rw [hany]; decide)
    | cons tag tags => exact ⟨_, rfl, rfl, rfl⟩
  · rw [if_neg hany, hempty.mpr (Bool.eq_false_iff.mpr hany)]

/-- a coordinate of two bytes, and a configuration of void tags -/
theorem buildFrom_coordinate :
    (∃ decoder, buildFrom [0x42, 0x00, 0x40, 0x10] = .ok (some decoder) ∧
        decoder.descriptors = [{ type := .x, precision := 1 }] ∧ decoder.sampleSize = 2) ∧
      buildFrom [0, 0, 0, 0] = .error .nullLast := by
  have hx := buildFrom_eq 1 (by decide) [0x42, 0x00, 0x40, 0x10] rfl
  have hvoid := buildFrom_eq 1 (by decide) [0, 0, 0, 0] rfl
  rw [if_pos (by decide +kernel)] at hx
  rw [if_neg (by decide +kernel)] at hvoid
  obtain ⟨decoder, hbuild, hdescriptors, hsize⟩ := hx
  have htags : dictionary (reached (tagWords [0x42, 0x00, 0x40, 0x10])) =
      [{ type := .x, precision := 1 }] := by decide +kernel
  exact ⟨⟨decoder, hbuild, hdescriptors.trans htags, by rw [hsize, hdescriptors, htags]; rfl⟩, hvoid⟩

/-! ## one sample -/

/-- the channels of a point that a field can hold -/
inductive Channel where
  | x
  | y
  | r
  | g
  | b
  | u1
  | u2
  | u3
  deriving DecidableEq

def DB25Sample.get (p : DB25Sample) : Channel → UInt16
  | .x => p.x
  | .y => p.y
  | .r => p.r
  | .g => p.g
  | .b => p.b
  | .u1 => p.u1
  | .u2 => p.u2
  | .u3 => p.u3

def DB25Sample.set (p : DB25Sample) (v : UInt16) : Channel → DB25Sample
  | .x => { p with x := v }
  | .y => { p with y := v }
  | .r => { p with r := v }
  | .g => { p with g := v }
  | .b => { p with b := v }
  | .u1 => { p with u1 := v }
  | .u2 => { p with u2 := v }
  | .u3 => { p with u3 := v }

/-- the channel of a colour, by its wavelength -/
def wavelengthChannel (wavelength : UInt16) : Option Channel :=
  if wavelength = 0x27E then some .r
  else if wavelength = 0x214 then some .g
  else if wavelength = 0x1CC then some .b
  else if wavelength = 0x1BD then some .u1
  else if wavelength = 0x241 then some .u2
  else if wavelength = 0x1E8 then some .u3
  else none

/-- where a descriptor puts its field -/
def IDNDescriptorTag.channel (tag : IDNDescriptorTag) : Option Channel :=
  match tag.type with
  | .x => if tag.scannerId ≠ 0 then none else some .x
  | .y => if tag.scannerId ≠ 0 then none else some .y
  | .color => wavelengthChannel tag.wavelength
  | _ => none

/-- the coordinates are signed, the point is not: what is added to a field of two bytes, and to one -/
def Channel.bias (wide : Bool) : Channel → UInt16
  | .x | .y => if wide then 0x8000 else 0x80
  | _ => 0

/-- what has been read of a sample: the point and the scales -/
structure Reading where
  dst : DB25Sample
  cscl : UInt8
  iscl : UInt8
  deriving DecidableEq

structure Cursor extends Reading where
  offset : Nat
  deriving DecidableEq

/-- A read of two bytes into a channel; where the sample is too short it keeps what it holds. -/
def readWord (src : List UInt8) (len : Nat) (c : Cursor) (channel : Channel) : Cursor :=
  let read := readUint16 src len c.offset
  let value := (read.map fun r => r.1).getD (c.dst.get channel)
  { c with
    offset := (read.map fun r => r.2).getD c.offset
    dst := c.dst.set (value + channel.bias true) channel }

def readUint8 (src : List UInt8) (len offset : Nat) : Option (UInt8 × Nat) :=
  if offset + 1 ≤ len then some (src.getD offset 0, offset + 1) else none

/-- A read of one byte into a channel.  The byte lands in the low half of what the channel holds, and
the low half is then copied to the high one. -/
def readByte (src : List UInt8) (len : Nat) (c : Cursor) (channel : Channel) : Cursor :=
  let read := readUint8 src len c.offset
  let old := c.dst.get channel
  let value := ((read.map fun r => be16 (old >>> 8).toUInt8 r.1).getD old) + channel.bias false
  { c with
    offset := (read.map fun r => r.2).getD c.offset
    dst := c.dst.set (be16 value.toUInt8 value.toUInt8) channel }

def colorScale (hint : UInt8) : UInt8 := (hint &&& 0xc0) >>> 6

def intensityScale (hint : UInt8) : UInt8 := (hint &&& 0x30) >>> 4

/-- the scales in a draw control byte -/
def Reading.hint (r : Reading) (hint : UInt8) : Reading :=
  { r with cscl := colorScale hint, iscl := intensityScale hint }

/-- A read of the draw control byte.  Where the sample is too short its variable has no value yet. -/
def readHint (src : List UInt8) (len : Nat) (c : Cursor) : Cursor :=
  let read := readUint8 src len c.offset
  { c.toReading.hint ((read.map fun r => r.1).getD 0) with
    offset := (read.map fun r => r.2).getD c.offset }

/-- One descriptor of the loop over them.  A wavelength takes nothing from the sample, and a field with
more than one precision tag takes nothing either. -/
def decodeTag (src : List UInt8) (len : Nat) (c : Cursor) (tag : IDNDescriptorTag) : Cursor :=
  match tag.type with
  | .nop => { c with offset := c.offset + 1 }
  | .intensity | .beamBrush =>
      { c with offset := c.offset + 1 + if tag.precision = 1 then 1 else 0 }
  | .drawControl0 | .drawControl1 => readHint src len c
  | .wavelength => c
  | .x | .y | .z | .color =>
    if tag.precision = 1 then
      match tag.channel with
      | some channel => readWord src len c channel
      | none => { c with offset := c.offset + 2 }
    else if tag.precision = 0 then
      match tag.channel with
      | some channel => readByte src len c channel
      | none => { c with offset := c.offset + 1 }
    else c

/-- the colours and the intensity are scaled down at the end -/
def Reading.scale (c : Reading) : DB25Sample :=
  let dst := if 0 < c.cscl then
      { c.dst with
        r := c.dst.r >>> (2 * c.cscl.toUInt16)
        g := c.dst.g >>> (2 * c.cscl.toUInt16)
        b := c.dst.b >>> (2 * c.cscl.toUInt16) }
    else c.dst
  if 0 < c.iscl then { dst with intensity := dst.intensity >>> (2 * c.iscl.toUInt16) } else dst

/-- what a sample is read into: the intensity is full unless the sample scales it -/
def Reading.start (dst : DB25Sample) : Reading := ⟨{ dst with intensity := 0xFFFF }, 0, 0⟩

def IDNLaproDecoder.decode (decoder : IDNLaproDecoder) (dst : DB25Sample) (src : List UInt8) :
    DB25Sample :=
  (decoder.descriptors.foldl (decodeTag src decoder.sampleSize) ⟨.start dst, 0⟩).scale

/-! ## the fields of a sample -/

namespace IDNDescriptorTag

/-- the bytes that the length of a sample counts for a descriptor -/
def span (tag : IDNDescriptorTag) : Nat := 1 + tag.precision.toNat

/-- the bytes that the decoder takes for it -/
def width (tag : IDNDescriptorTag) : Nat :=
  match tag.type with
  | .nop | .drawControl0 | .drawControl1 => 1
  | .intensity | .beamBrush => 1 + if tag.precision = 1 then 1 else 0
  | .wavelength => 0
  | .x | .y | .z | .color => if tag.precision = 1 then 2 else if tag.precision = 0 then 1 else 0

/-- a descriptor whose field the decoder takes whole -/
abbrev Plain (tag : IDNDescriptorTag) : Prop := tag.width = tag.span

/-- the value of a field, with its bias -/
def value (tag : IDNDescriptorTag) (channel : Channel) (field : List UInt8) : UInt16 :=
  if tag.precision = 1 then be16 (field.getD 0 0) (field.getD 1 0) + channel.bias true
  else
    let low := field.getD 0 0 + (channel.bias false).toUInt8
    be16 low low

/-- what a descriptor makes of the bytes of its field -/
def put (tag : IDNDescriptorTag) (field : List UInt8) (r : Reading) : Reading :=
  match tag.type with
  | .drawControl0 | .drawControl1 => r.hint (field.getD 0 0)
  | .x | .y | .z | .color =>
    if tag.precision ≤ 1 then
      match tag.channel with
      | some channel => { r with dst := r.dst.set (tag.value channel field) channel }
      | none => r
    else r
  | _ => r

end IDNDescriptorTag

/-- the fields of a sample one after the other, each as long as `length` says -/
def readFields (length : IDNDescriptorTag → Nat) :
    List IDNDescriptorTag → List UInt8 → Reading → Reading
  | [], _, r => r
  | tag :: tags, src, r =>
    readFields length tags (src.drop (length tag)) (tag.put (src.take (length tag)) r)

/-! ## where the fields are -/

theorem width_le_span (tag : IDNDescriptorTag) : tag.width ≤ tag.span := by
  have hone : tag.precision = 1 → tag.precision.toNat = 1 := fun h => by rw [h]; rfl
  simp only [IDNDescriptorTag.width, IDNDescriptorTag.span]
  cases tag.type <;> grind

theorem getD_field (src : List UInt8) (offset : Nat) {i width : Nat} (hi : i < width) :
    ((src.drop offset).take width).getD i 0 = src.getD (offset + i) 0 := by
  simp [List.getD_eq_getElem?_getD, hi]

theorem readWord_eq (src : List UInt8) {len : Nat} {c : Cursor} {tag : IDNDescriptorTag}
    (channel : Channel) (hwide : tag.precision = 1) (hin : c.offset + 2 ≤ len) :
    readWord src len c channel =
      ⟨{ c.toReading with
          dst := c.dst.set (tag.value channel ((src.drop c.offset).take 2)) channel }, c.offset + 2⟩ := by
  simp only [readWord, readUint16, if_pos hin, Option.map_some, Option.getD_some,
    IDNDescriptorTag.value, if_pos hwide, getD_field src c.offset (show 0 < 2 by omega),
    getD_field src c.offset (show 1 < 2 by omega), Nat.add_zero]

theorem toUInt8_add (a b : UInt16) : (a + b).toUInt8 = a.toUInt8 + b.toUInt8 := by
  apply UInt8.toNat_inj.mp
  simp

theorem readByte_eq (src : List UInt8) {len : Nat} {c : Cursor} {tag : IDNDescriptorTag}
    (channel : Channel) (hnarrow : tag.precision = 0) (hin : c.offset + 1 ≤ len) :
    readByte src len c channel =
      ⟨{ c.toReading with
          dst := c.dst.set (tag.value channel ((src.drop c.offset).take 1)) channel }, c.offset + 1⟩ := by
  have hwide : ¬ tag.precision = 1 := by rw [hnarrow]; decide
  simp only [readByte, readUint8, if_pos hin, Option.map_some, Option.getD_some,
    IDNDescriptorTag.value, if_neg hwide, getD_field src c.offset (show 0 < 1 by omega), Nat.add_zero,
    toUInt8_add, be16_low]

/-- One descriptor reads its own bytes, where the descriptors before it end. -/
theorem decodeTag_eq {src : List UInt8} {len : Nat} {c : Cursor} {tag : IDNDescriptorTag}
    (hin : c.offset + tag.span ≤ len) :
    decodeTag src len c tag =
      ⟨tag.put ((src.drop c.offset).take tag.width) c.toReading, c.offset + tag.width⟩ := by
  have hfirst : c.offset + 1 ≤ len := by rw [IDNDescriptorTag.span] at hin; omega
  have hhint : readHint src len c =
      ⟨c.toReading.hint (((src.drop c.offset).take 1).getD 0 0), c.offset + 1⟩ := by
    simp only [readHint, readUint8, if_pos hfirst, Option.map_some, Option.getD_some,
      getD_field src c.offset (show 0 < 1 by omega), Nat.add_zero]
  have hfield : ∀ t : DescriptorType, tag.type = t → t = .x ∨ t = .y ∨ t = .z ∨ t = .color →
      decodeTag src len c tag =
        ⟨tag.put ((src.drop c.offset).take tag.width) c.toReading, c.offset + tag.width⟩ := by
    intro t htype ht
    by_cases hwide : tag.precision = 1
    · have hsecond : c.offset + 2 ≤ len := by
        rw [IDNDescriptorTag.span, hwide] at hin; exact hin
      have hle : tag.precision ≤ 1 := by rw [hwide]; decide
      have hread := fun channel => readWord_eq src channel hwide hsecond
      rcases ht with rfl | rfl | rfl | rfl <;>
        simp only [decodeTag, IDNDescriptorTag.put, IDNDescriptorTag.width, htype, if_pos hwide,
          if_pos hle] <;>
        cases tag.channel <;> simp only [hread]
    by_cases hnarrow : tag.precision = 0
    · have hle : tag.precision ≤ 1 := by rw [hnarrow]; decide
      have hread := fun channel => readByte_eq src channel hnarrow hfirst
      rcases ht with rfl | rfl | rfl | rfl <;>
        simp only [decodeTag, IDNDescriptorTag.put, IDNDescriptorTag.width, htype, if_neg hwide,
          if_pos hnarrow, if_pos hle] <;>
        cases tag.channel <;> simp only [hread]
    · have hle : ¬ tag.precision ≤ 1 := by
        intro hle
        have hnat : tag.precision.toNat ≤ 1 := hle
        have h0 : tag.precision.toNat ≠ 0 := fun h => hnarrow (UInt8.toNat_inj.mp h)
        have h1 : tag.precision.toNat ≠ 1 := fun h => hwide (UInt8.toNat_inj.mp h)
        omega
      rcases ht with rfl | rfl | rfl | rfl <;>
        simp only [decodeTag, IDNDescriptorTag.put, IDNDescriptorTag.width, htype, if_neg hwide,
          if_neg hnarrow, if_neg hle, Nat.add_zero]
  cases htype : tag.type with
  | x => exact hfield _ htype (by simp)
  | y => exact hfield _ htype (by simp)
  | z => exact hfield _ htype (by simp)
  | color => exact hfield _ htype (by simp)
  | drawControl0 | drawControl1 =>
    simp only [decodeTag, IDNDescriptorTag.put, IDNDescriptorTag.width, htype, hhint]
  | nop | wavelength | intensity | beamBrush =>
    simp only [decodeTag, IDNDescriptorTag.put, IDNDescriptorTag.width, htype, Nat.add_zero,
      Nat.add_assoc]

theorem sampleSizeOf_cons (tag : IDNDescriptorTag) (tags : List IDNDescriptorTag) :
    sampleSizeOf (tag :: tags) = tag.span + sampleSizeOf tags := by
  simp only [sampleSizeOf, List.map_cons, List.sum_cons, IDNDescriptorTag.span]

theorem foldl_decodeTag {src : List UInt8} {len : Nat} (tags : List IDNDescriptorTag) (c : Cursor)
    (hin : c.offset + sampleSizeOf tags ≤ len) :
    tags.foldl (decodeTag src len) c =
      ⟨readFields IDNDescriptorTag.width tags (src.drop c.offset) c.toReading,
        c.offset + (tags.map IDNDescriptorTag.width).sum⟩ := by
  induction tags generalizing c with
  | nil => rfl
  | cons tag tags ih =>
    rw [sampleSizeOf_cons] at hin
    have hwidth := width_le_span tag
    rw [List.foldl_cons, decodeTag_eq (by omega), ih _ (by simp only; omega), readFields,
      List.drop_drop, List.map_cons, List.sum_cons, Nat.add_assoc]

/-- A sample is read inside its bytes: a descriptor takes no more than the length of a sample counts
for it. -/
theorem decode_eq (decoder : IDNLaproDecoder) (dst : DB25Sample) (src : List UInt8) :
    decoder.decode dst src =
      (readFields IDNDescriptorTag.width decoder.descriptors src (.start dst)).scale := by
  rw [IDNLaproDecoder.decode, foldl_decodeTag _ _ (by rw [decoder.size_eq]; simp), List.drop_zero]

theorem sum_map_le_iff {α : Type} {f g : α → Nat} (hle : ∀ a, f a ≤ g a) (as : List α) :
    (as.map f).sum = (as.map g).sum ↔ ∀ a ∈ as, f a = g a := by
  induction as with
  | nil => simp
  | cons a as ih =>
    have hhead := hle a
    have htail : (as.map f).sum ≤ (as.map g).sum := List.sum_le_sum fun a _ => hle a
    rw [List.map_cons, List.map_cons, List.sum_cons, List.sum_cons, List.forall_mem_cons, ← ih]
    omega

theorem width_sum_iff (tags : List IDNDescriptorTag) :
    (∀ before tag after, tags = before ++ tag :: after →
        (before.map IDNDescriptorTag.width).sum = (before.map IDNDescriptorTag.span).sum) ↔
      ∀ tag ∈ tags.dropLast, tag.Plain := by
  constructor
  · intro h
    rcases List.eq_nil_or_concat tags with rfl | ⟨before, last, rfl⟩
    · simp
    · have hall := h before last [] (by simp)
      rw [List.concat_eq_append, List.dropLast_concat]
      exact (sum_map_le_iff width_le_span before).mp hall
  · rintro h before tag after rfl
    refine (sum_map_le_iff width_le_span before).mpr fun t ht => h t ?_
    rw [List.dropLast_append_cons]
    exact List.mem_append_left _ ht

/-- The decoder reads the fields of a sample one after the other and never more bytes than the sample
has; and each field is read where the length of the sample has it, if and only if it takes every field
but the last one whole. -/
theorem decode_fields (decoder : IDNLaproDecoder) :
    (∀ dst src, decoder.decode dst src =
        (readFields IDNDescriptorTag.width decoder.descriptors src (.start dst)).scale) ∧
      (decoder.descriptors.map IDNDescriptorTag.width).sum ≤ decoder.sampleSize ∧
      ((∀ before tag after, decoder.descriptors = before ++ tag :: after →
          (before.map IDNDescriptorTag.width).sum = (before.map IDNDescriptorTag.span).sum) ↔
        ∀ tag ∈ decoder.descriptors.dropLast, tag.Plain) := by
  refine ⟨decode_eq decoder, ?_, width_sum_iff _⟩
  rw [decoder.size_eq]
  exact List.sum_le_sum fun tag _ => width_le_span tag

/-! ## encode and decode -/

namespace IDNDescriptorTag

/-- A field as a sender writes it: the channel of its point without the bias, the draw control byte,
or nothing that counts. -/
def encode (hint : UInt8) (p : DB25Sample) (tag : IDNDescriptorTag) : List UInt8 :=
  match tag.type with
  | .drawControl0 | .drawControl1 => [hint]
  | _ =>
    match tag.channel with
    | some channel =>
      if tag.precision = 1 then bytes16 (p.get channel - channel.bias true)
      else [(p.get channel >>> 8).toUInt8 - (channel.bias false).toUInt8]
    | none => List.replicate tag.span 0

/-- what a field keeps of the channel: all of it, or its high byte twice -/
def kept (p : DB25Sample) (tag : IDNDescriptorTag) (channel : Channel) : UInt16 :=
  if tag.precision = 1 then p.get channel
  else be16 (p.get channel >>> 8).toUInt8 (p.get channel >>> 8).toUInt8

def isHint (tag : IDNDescriptorTag) : Bool := tag.type = .drawControl0 ∨ tag.type = .drawControl1

/-- what a descriptor makes of its field when a sender wrote it -/
def restore (hint : UInt8) (p : DB25Sample) (tag : IDNDescriptorTag) (r : Reading) : Reading :=
  if tag.isHint then r.hint hint
  else
    match tag.channel with
    | some channel => { r with dst := r.dst.set (tag.kept p channel) channel }
    | none => r

end IDNDescriptorTag

def encodeSample (tags : List IDNDescriptorTag) (hint : UInt8) (p : DB25Sample) : List UInt8 :=
  tags.flatMap fun tag => tag.encode hint p

theorem channel_type {tag : IDNDescriptorTag} {channel : Channel} (h : tag.channel = some channel) :
    tag.type = .x ∨ tag.type = .y ∨ tag.type = .color := by
  cases htype : tag.type <;> simp_all [IDNDescriptorTag.channel]

/-- a descriptor of a channel that is taken whole has one byte or two -/
theorem Plain.precision {tag : IDNDescriptorTag} {channel : Channel} (hplain : tag.Plain)
    (h : tag.channel = some channel) : tag.precision = 1 ∨ tag.precision = 0 := by
  by_contra hne
  rw [not_or] at hne
  have hwidth : tag.width = 0 := by
    rcases channel_type h with htype | htype | htype <;>
      simp only [IDNDescriptorTag.width, htype, if_neg hne.1, if_neg hne.2]
  rw [IDNDescriptorTag.Plain, hwidth, IDNDescriptorTag.span] at hplain
  omega

theorem length_encode {tag : IDNDescriptorTag} (hplain : tag.Plain) (hint : UInt8) (p : DB25Sample) :
    (tag.encode hint p).length = tag.width := by
  rw [IDNDescriptorTag.encode]
  cases hchannel : tag.channel with
  | none =>
    have hspan := hplain
    rw [IDNDescriptorTag.Plain] at hspan
    cases htype : tag.type <;> simp only [List.length_replicate, hspan] <;>
      simp only [← hspan, IDNDescriptorTag.width, htype, List.length_cons, List.length_nil]
  | some channel =>
    rcases Plain.precision hplain hchannel with hp | hp <;>
      rcases channel_type hchannel with htype | htype | htype <;>
      simp [IDNDescriptorTag.width, htype, hp, bytes16]

theorem value_encode {tag : IDNDescriptorTag} {channel : Channel} (hint : UInt8) (p : DB25Sample)
    (hchannel : tag.channel = some channel) (hprecision : tag.precision = 1 ∨ tag.precision = 0) :
    tag.value channel (tag.encode hint p) = tag.kept p channel := by
  rcases hprecision with hp | hp
  · have hencode : tag.encode hint p = bytes16 (p.get channel - channel.bias true) := by
      rcases channel_type hchannel with htype | htype | htype <;>
        simp only [IDNDescriptorTag.encode, htype, hchannel, if_pos hp]
    rw [hencode, IDNDescriptorTag.value, if_pos hp, IDNDescriptorTag.kept, if_pos hp]
    simp only [bytes16, List.getD_cons_zero, List.getD_cons_succ, be16_bytes, UInt16.sub_add_cancel]
  · have hwide : ¬ tag.precision = 1 := by rw [hp]; decide
    have hencode : tag.encode hint p =
        [(p.get channel >>> 8).toUInt8 - (channel.bias false).toUInt8] := by
      rcases channel_type hchannel with htype | htype | htype <;>
        simp only [IDNDescriptorTag.encode, htype, hchannel, if_neg hwide]
    rw [hencode, IDNDescriptorTag.value, if_neg hwide, IDNDescriptorTag.kept, if_neg hwide]
    simp only [List.getD_cons_zero, UInt8.sub_add_cancel]

/-- a field that was encoded is put back -/
theorem put_encode {tag : IDNDescriptorTag} (hplain : tag.Plain) (hint : UInt8) (p : DB25Sample)
    (r : Reading) : tag.put (tag.encode hint p) r = tag.restore hint p r := by
  cases hchannel : tag.channel with
  | none =>
    cases htype : tag.type <;>
      simp [IDNDescriptorTag.put, IDNDescriptorTag.restore, IDNDescriptorTag.isHint,
        IDNDescriptorTag.encode, htype, hchannel]
  | some channel =>
    have hprecision := Plain.precision hplain hchannel
    have hle : tag.precision ≤ 1 := by rcases hprecision with hp | hp <;> rw [hp] <;> decide
    have hvalue := value_encode hint p hchannel hprecision
    rcases channel_type hchannel with htype | htype | htype <;>
      simp [IDNDescriptorTag.put, IDNDescriptorTag.restore, IDNDescriptorTag.isHint, htype, hchannel,
        hle, hvalue]

theorem readFields_encode {tags : List IDNDescriptorTag} (hplain : ∀ tag ∈ tags, tag.Plain)
    (hint : UInt8) (p : DB25Sample) (rest : List UInt8) (r : Reading) :
    readFields IDNDescriptorTag.width tags (encodeSample tags hint p ++ rest) r =
      tags.foldl (fun r tag => tag.restore hint p r) r := by
  induction tags generalizing r with
  | nil => rfl
  | cons tag tags ih =>
    rw [List.forall_mem_cons] at hplain
    have hlength := length_encode hplain.1 hint p
    rw [readFields, encodeSample, List.flatMap_cons, List.append_assoc, ← hlength, List.drop_left,
      List.take_left, put_encode hplain.1, List.foldl_cons]
    exact ih hplain.2 _

/-- the last descriptor of a channel -/
def lastField (tags : List IDNDescriptorTag) (channel : Channel) : Option IDNDescriptorTag :=
  tags.reverse.find? fun tag => tag.channel = some channel

/-- the colours are dimmed as the draw control byte says -/
def dim (hint : UInt8) (v : UInt16) : Channel → UInt16
  | .r | .g | .b => v >>> (2 * (colorScale hint).toUInt16)
  | _ => v

theorem get_set (p : DB25Sample) (v : UInt16) (set get : Channel) :
    (p.set v set).get get = if set = get then v else p.get get := by
  cases set <;> cases get <;> rfl

theorem lastField_concat (tags : List IDNDescriptorTag) (tag : IDNDescriptorTag) (channel : Channel) :
    lastField (tags ++ [tag]) channel =
      if tag.channel = some channel then some tag else lastField tags channel := by
  simp only [lastField, List.reverse_append, List.reverse_singleton, List.singleton_append,
    List.find?_cons]
  split <;> simp_all

theorem foldl_restore_dst (tags : List IDNDescriptorTag) (hint : UInt8) (p : DB25Sample) (r : Reading)
    (channel : Channel) :
    (tags.foldl (fun r tag => tag.restore hint p r) r).dst.get channel =
      ((lastField tags channel).map fun tag => tag.kept p channel).getD (r.dst.get channel) := by
  induction tags using List.reverseRecOn with
  | nil => rfl
  | append_singleton tags tag ih =>
    rw [List.foldl_append, List.foldl_cons, List.foldl_nil, lastField_concat]
    cases hchannel : tag.channel with
    | none =>
      have hkeep : (tag.restore hint p (tags.foldl (fun r tag => tag.restore hint p r) r)).dst =
          (tags.foldl (fun r tag => tag.restore hint p r) r).dst := by
        rw [IDNDescriptorTag.restore, hchannel]
        split <;> rfl
      rw [hkeep, ih]
      simp
    | some own =>
      have hhint : tag.isHint = false := by
        rcases channel_type hchannel with htype | htype | htype <;>
          simp [IDNDescriptorTag.isHint, htype]
      rw [show ∀ r, tag.restore hint p r = { r with dst := r.dst.set (tag.kept p own) own } from
        fun r => by simp only [IDNDescriptorTag.restore, hhint, hchannel, Bool.false_eq_true, if_false],
        get_set, ih]
      by_cases hown : own = channel
      · subst hown; simp
      · simp [hown]

theorem foldl_restore_scales (tags : List IDNDescriptorTag) (hint : UInt8) (p : DB25Sample)
    (r : Reading) :
    (tags.foldl (fun r tag => tag.restore hint p r) r).cscl =
      if tags.any IDNDescriptorTag.isHint then colorScale hint else r.cscl := by
  induction tags generalizing r with
  | nil => rfl
  | cons tag tags ih =>
    rw [List.foldl_cons, ih, List.any_cons]
    cases hhint : tag.isHint with
    | true => simp [IDNDescriptorTag.restore, hhint, Reading.hint]
    | false =>
      have hkeep : (tag.restore hint p r).cscl = r.cscl := by
        simp only [IDNDescriptorTag.restore, hhint, Bool.false_eq_true, if_false]
        cases tag.channel <;> rfl
      rw [hkeep, Bool.false_or]

theorem scale_get (r : Reading) (channel : Channel) :
    r.scale.get channel = match channel with
      | .r | .g | .b => r.dst.get channel >>> (2 * r.cscl.toUInt16)
      | _ => r.dst.get channel := by
  have hzero : ∀ v : UInt16, ¬ 0 < r.cscl → v >>> (2 * r.cscl.toUInt16) = v := by
    intro v h
    have hc : r.cscl = 0 := by
      apply UInt8.toNat_inj.mp
      have : ¬ (0 : UInt8).toNat < r.cscl.toNat := h
      simp at this ⊢
      omega
    rw [hc]
    simp
  rw [Reading.scale]
  by_cases hc : 0 < r.cscl <;> by_cases hi : 0 < r.iscl <;>
    cases channel <;> simp [hc, hi, DB25Sample.get, hzero]

/-- Whatever point a sender writes field by field into a sample of a plain dictionary, the decoder
gives back every channel that the sample has: the whole of it, or its high byte twice where the field
has one byte, and dimmed as the draw control byte says.  The other channels stay as they are. -/
theorem decode_encode (decoder : IDNLaproDecoder)
    (hplain : ∀ tag ∈ decoder.descriptors, tag.Plain) (hint : UInt8) (p dst : DB25Sample)
    (rest : List UInt8) (channel : Channel) :
    (decoder.decode dst (encodeSample decoder.descriptors hint p ++ rest)).get channel =
      dim (if decoder.descriptors.any IDNDescriptorTag.isHint then hint else 0)
        (((lastField decoder.descriptors channel).map fun tag => tag.kept p channel).getD
          (dst.get channel)) channel := by
  have hstart : (Reading.start dst).dst.get channel = dst.get channel := by cases channel <;> rfl
  rw [decode_eq, readFields_encode hplain, scale_get, foldl_restore_scales,
    foldl_restore_dst, hstart]
  have hscale : (if decoder.descriptors.any IDNDescriptorTag.isHint then colorScale hint
      else (Reading.start dst).cscl) =
      colorScale (if decoder.descriptors.any IDNDescriptorTag.isHint then hint else 0) := by
    split <;> rfl
  cases channel <;> simp only [dim, hscale]

/-- the samples of the usual dictionary: coordinates of two bytes, colours of one -/
def xyrgb : IDNLaproDecoder where
  descriptors := [{ type := .x, precision := 1 }, { type := .y, precision := 1 },
    { type := .color, wavelength := 0x27E }, { type := .color, wavelength := 0x214 },
    { type := .color, wavelength := 0x1CC }]
  sampleSize := 7
  size_eq := rfl
  size_pos := by decide

theorem decode_encode_x :
    (xyrgb.decode .zero (encodeSample xyrgb.descriptors 0 { DB25Sample.zero with x := 300 })).get .x =
      300 := by
  have h := decode_encode xyrgb (by decide) 0 { DB25Sample.zero with x := 300 } .zero [] .x
  rw [List.append_nil] at h
  rw [h]
  decide +kernel

end LiberaLink.Idn
