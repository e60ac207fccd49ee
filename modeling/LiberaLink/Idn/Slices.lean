import LiberaLink.Idn.Chunks
import LiberaLink.Idn.Service
import LiberaLink.Lib.Numeric

/-!
# The slices that the adapter makes

The driver polls the adapter for slices.  A poll takes the chunks that wait in the queue one after the
other, drops points where there are more than the device can show, and cuts what is left: a wave by the
time that has passed, a frame into parts of the same size.

* `Arithmetic`         the floating point numbers that the adapter computes with;
* `transform`, `getNextBuffer`   a chunk, and a poll;
* `Stream`             the points that are shown, without slices and without time;
* `stream_transform`   **the cutting of the points into slices does not matter** to which are shown;
* `Poll.Cut`           no slice is empty, or too large for a transmission;
* `taken_looks`        a poll takes what waits in the queue;
* `transform_frame`    the parts of a frame have one size.

What is said of the points holds whatever the arithmetic does.
-/

namespace LiberaLink.Idn

/-! ## the model -/

/-- what the adapter does with numbers of type `double` -/
structure Arithmetic (D : Type) where
  ofInt : Int → D
  nineTenths : D
  add : D → D → D
  sub : D → D → D
  mul : D → D → D
  div : D → D → D
  lt : D → D → Bool
  le : D → D → Bool
  /-- the part before the point -/
  whole : D → D
  toUnsigned : D → Nat

/-- a chunk of samples with its memo -/
structure InputChunk where
  samples : List ISPDB25Point
  duration : Nat
  isWave : Bool
  isDiscontinuous : Bool
  deriving DecidableEq

/-- the chunk that the adapter finds in the queue -/
def Chunk.input (c : Chunk) (decoder : IDNLaproDecoder) : InputChunk where
  samples := (decodeChunk decoder c.sampleCount c.taxi.head.payload
    (c.taxi.next.map Fragment.payload)).map DB25Sample.toISPDB25Point
  duration := c.duration
  isWave := c.type = .wave
  isDiscontinuous := c.isDiscontinuous

structure TransformEnv (D : Type) where
  usPerSlice : D
  currentSliceTime : D
  db25Accu : List ISPDB25Point
  skipCounter : D

/-- where the latest wave ended -/
structure Previous where
  previousX : UInt16
  previousY : UInt16
  deriving DecidableEq

/-- the adapter within a poll -/
structure Poll (D : Type) extends TransformEnv D, Previous where
  driverMode : DriverMode
  sliceBuf : List TimeSlice

/-- what a poll finds each time it looks for a chunk -/
structure Look where
  enabled : Bool
  chunk : Option InputChunk

/-- the looks of a poll that the server does not come in between -/
def Output.looks (o : Output) (decoder : Nat → IDNLaproDecoder) : List Look :=
  ((o.queue.drop o.seen).map fun c => ⟨o.enabledFlag, some (c.input (decoder c.decoder))⟩) ++
    [⟨o.enabledFlag, none⟩]

/-- the size of a converted point, and of a transmission -/
def bytesPerPoint : Nat := 22
def maxBytesPerTransmission : Nat := 4096 * bytesPerPoint

section model
variable {D : Type} (A : Arithmetic D)

def commitChunk (p : Poll D) : Poll D :=
  if p.db25Accu = [] then p
  else
    { p with
      sliceBuf := p.sliceBuf ++ [⟨p.db25Accu, A.toUnsigned (A.sub p.usPerSlice p.currentSliceTime)⟩]
      db25Accu := []
      currentSliceTime := p.usPerSlice }

/-- the points that are put in before a wave that does not follow the one before it -/
def repair (p : Previous) (c : InputChunk) : List ISPDB25Point :=
  let timeskip := A.toUnsigned (A.mul (A.ofInt c.duration) A.nineTenths)
  match c.samples with
  | [] => []
  | front :: _ =>
    if 1 < c.samples.length ∧ c.isWave ∧ c.isDiscontinuous ∧ 10 < timeskip ∧
        timeskip < 1000000 ∧ front.x ≠ p.previousX ∧ front.y ≠ p.previousY then
      let numInterpolatedPoints : Nat := max 1 (c.samples.length * timeskip % 2 ^ 32 / c.duration)
      let between (previous new : UInt16) (i : Nat) : UInt16 :=
        UInt16.ofNat (A.toUnsigned (A.add (A.ofInt previous.toNat) (A.mul
          (A.ofInt ((new.toNat : Int) - previous.toNat))
          (A.div (A.ofInt i) (A.ofInt numInterpolatedPoints)))))
      (List.range (numInterpolatedPoints - 1)).map fun i =>
        { x := between p.previousX front.x (i + 1)
          y := between p.previousY front.y (i + 1)
          r := 0, g := 0, b := 0, intensity := 0, u1 := 0, u2 := 0 }
    else []

/-- the size of the parts of a frame; the divisions have no remainder that gets lost -/
def equalizedSize (sampleCount : Nat) : Nat :=
  let bytes := sampleCount * bytesPerPoint
  let numChunksOfBlockSize := (bytes + maxBytesPerTransmission - 1) / maxBytesPerTransmission
  (sampleCount + numChunksOfBlockSize - 1) / numChunksOfBlockSize

/-- the counter after a point, when points are dropped -/
def advance (rateRatio skipCounter : D) : D :=
  let sum := A.add skipCounter rateRatio
  A.sub sum (A.whole sum)

/-- what a chunk is transformed with -/
structure Rates (D : Type) where
  pointDuration : D
  rateRatio : D
  isWave : Bool
  equalizedSize : Nat

/-- whether the current slice is full -/
def Rates.full (r : Rates D) (p : Poll D) : Bool :=
  if r.isWave then
    A.lt p.currentSliceTime (A.ofInt 0) ||
      maxBytesPerTransmission < bytesPerPoint * (p.db25Accu.length + 1)
  else r.equalizedSize < p.db25Accu.length + 1

def chunkPoints (r : Rates D) (p : Poll D) : Poll D := if r.full A p then commitChunk A p else p

/-- a point that is dropped takes its time all the same -/
def addSample (r : Rates D) (p : Poll D) (sample : ISPDB25Point) : Poll D :=
  let downsamples := A.lt r.rateRatio (A.ofInt 1)
  let passed := { p with
    skipCounter := if downsamples then advance A r.rateRatio p.skipCounter else p.skipCounter
    currentSliceTime := A.sub p.currentSliceTime r.pointDuration }
  if downsamples && A.le r.rateRatio p.skipCounter then passed
  else chunkPoints A r { passed with db25Accu := p.db25Accu ++ [sample] }

def rates (maxPointrate sampleCount : Nat) (c : InputChunk) : Rates D where
  pointDuration := A.div (A.ofInt c.duration) (A.ofInt sampleCount)
  rateRatio := A.div (A.ofInt maxPointrate)
    (A.div (A.mul (A.ofInt 1000000) (A.ofInt sampleCount)) (A.ofInt c.duration))
  isWave := c.isWave
  equalizedSize := equalizedSize sampleCount

/-- A frame takes the place of all that is there. -/
def receive (p : Poll D) (c : InputChunk) : Poll D :=
  if c.isWave then { p with driverMode := .wave }
  else { p with driverMode := .frame, sliceBuf := [], db25Accu := [] }

/-- the end of a wave, which the next one is compared with -/
def leave (p : Previous) (c : InputChunk) : Previous :=
  match c.samples.getLast? with
  | some back => if 1 < c.samples.length ∧ c.isWave then ⟨back.x, back.y⟩ else p
  | none => p

/-- the points of a chunk, with those that are put in -/
def combined (p : Previous) (c : InputChunk) : List ISPDB25Point := repair A p c ++ c.samples

def transform (maxPointrate : Nat) (p : Poll D) (c : InputChunk) : Poll D :=
  let samples := combined A p.toPrevious c
  let q := samples.foldl (addSample A (rates A maxPointrate samples.length c))
    { receive p c with toPrevious := leave p.toPrevious c }
  if c.isWave then q else commitChunk A q

/-- A poll ends when there is no chunk, or one whose data were short. -/
def getNextBuffer (maxPointrate : Nat) (p : Poll D) : List Look → Poll D
  | [] => p
  | look :: looks =>
    let p := if look.enabled then p else { p with db25Accu := [], driverMode := .inactive }
    match look.chunk with
    | none => p
    | some c =>
      if c.samples = [] then p
      else getNextBuffer maxPointrate (transform A maxPointrate p c) looks

/-! ## the points, without slices and without time -/

/-- the points that are not dropped, and the counter after them -/
def kept (rateRatio : D) : D → List ISPDB25Point → List ISPDB25Point × D
  | skipCounter, [] => ([], skipCounter)
  | skipCounter, sample :: samples =>
    let downsamples := A.lt rateRatio (A.ofInt 1)
    let r := kept rateRatio (if downsamples then advance A rateRatio skipCounter else skipCounter) samples
    (if downsamples && A.le rateRatio skipCounter then r.1 else sample :: r.1, r.2)

/-- the points that are to be shown, and all that says which of the next ones will be -/
structure Stream (D : Type) extends Previous where
  skipCounter : D
  points : List ISPDB25Point

def Stream.next (maxPointrate : Nat) (s : Stream D) (c : InputChunk) : Stream D :=
  let samples := combined A s.toPrevious c
  let r := kept A (rates A maxPointrate samples.length c).rateRatio s.skipCounter samples
  { toPrevious := leave s.toPrevious c
    skipCounter := r.2
    points := (if c.isWave then s.points else []) ++ r.1 }

/-- the points that a poll has, in slices and in the one that is not full -/
def Poll.held (p : Poll D) : List ISPDB25Point := p.sliceBuf.flatMap TimeSlice.dataChunk ++ p.db25Accu

/-- No slice is empty, or too large for a transmission. -/
structure Poll.Cut (p : Poll D) : Prop where
  slices : ∀ slice ∈ p.sliceBuf, 0 < slice.dataChunk.length ∧ slice.dataChunk.length ≤ 4096
  accu : p.db25Accu.length < 4096

/-- the stream that the poll is at -/
def Poll.stream (p : Poll D) : Stream D where
  toPrevious := p.toPrevious
  skipCounter := p.skipCounter
  points := p.held

/-- the chunks that a poll takes -/
def taken : List Look → List InputChunk
  | [] => []
  | look :: looks =>
    match look.chunk with
    | none => []
    | some c => if c.samples = [] then [] else c :: taken looks

variable {A} {p : Poll D} {c : InputChunk} {r : Rates D} {maxPointrate : Nat}

theorem equalizedSize_le (sampleCount : Nat) : equalizedSize sampleCount ≤ 4096 := by
  have hk : sampleCount ≤
      4096 * ((sampleCount * bytesPerPoint + maxBytesPerTransmission - 1) / maxBytesPerTransmission) := by
    rw [bytesPerPoint, maxBytesPerTransmission, bytesPerPoint]
    omega
  rw [equalizedSize]
  generalize (sampleCount * bytesPerPoint + maxBytesPerTransmission - 1) /
    maxBytesPerTransmission = k at *
  rcases Nat.eq_zero_or_pos k with rfl | hpos
  · simp
  · refine Nat.lt_succ_iff.mp (Nat.div_lt_of_lt_mul ?_)
    rw [Nat.mul_succ, Nat.mul_comm k]
    omega

theorem held_commitChunk (p : Poll D) : (commitChunk A p).held = p.held := by
  rw [commitChunk]
  split
  · rfl
  · simp [Poll.held]

theorem stream_commitChunk (p : Poll D) : (commitChunk A p).stream = p.stream := by
  have hheld := held_commitChunk (A := A) p
  rw [commitChunk] at hheld ⊢
  split
  · rfl
  · next hne =>
    rw [if_neg hne] at hheld
    rw [Poll.stream, hheld]
    rfl

theorem commitChunk_driverMode (p : Poll D) : (commitChunk A p).driverMode = p.driverMode := by
  rw [commitChunk]
  split <;> rfl

theorem commitChunk_accu (p : Poll D) : (commitChunk A p).db25Accu = [] := by
  rw [commitChunk]
  split
  · next hempty => exact hempty
  · rfl

theorem cut_commitChunk
    (hslices : ∀ slice ∈ p.sliceBuf, 0 < slice.dataChunk.length ∧ slice.dataChunk.length ≤ 4096)
    (haccu : p.db25Accu.length ≤ 4096) : (commitChunk A p).Cut := by
  rw [commitChunk]
  split
  · next hempty => exact ⟨hslices, by rw [hempty]; decide⟩
  · next hne =>
    refine ⟨fun slice hslice => ?_, by simp⟩
    rcases List.mem_append.mp hslice with hold | hnew
    · exact hslices slice hold
    · obtain rfl := List.mem_singleton.mp hnew
      exact ⟨List.length_pos_iff.mpr hne, haccu⟩

/-- a slice that is not full has room for one more point -/
theorem accu_of_not_full (hsize : r.equalizedSize ≤ 4096) (hfull : r.full A p = false) :
    p.db25Accu.length < 4096 := by
  rw [Rates.full] at hfull
  split at hfull
  · have hroom := of_decide_eq_false (Bool.or_eq_false_iff.mp hfull).2
    rw [maxBytesPerTransmission, bytesPerPoint] at hroom
    omega
  · have hroom := of_decide_eq_false hfull
    omega

theorem stream_chunkPoints (p : Poll D) : (chunkPoints A r p).stream = p.stream := by
  rw [chunkPoints]
  split
  · exact stream_commitChunk p
  · rfl

theorem cut_chunkPoints (hsize : r.equalizedSize ≤ 4096)
    (hslices : ∀ slice ∈ p.sliceBuf, 0 < slice.dataChunk.length ∧ slice.dataChunk.length ≤ 4096)
    (haccu : p.db25Accu.length ≤ 4096) : (chunkPoints A r p).Cut := by
  rw [chunkPoints]
  cases hfull : r.full A p with
  | true => exact cut_commitChunk hslices haccu
  | false => exact ⟨hslices, accu_of_not_full hsize hfull⟩

/-- a point, which is kept or dropped -/
theorem stream_addSample (sample : ISPDB25Point) :
    (addSample A r p sample).stream =
      { p.stream with
        skipCounter :=
          if A.lt r.rateRatio (A.ofInt 1) then advance A r.rateRatio p.skipCounter else p.skipCounter
        points := p.held ++
          if A.lt r.rateRatio (A.ofInt 1) && A.le r.rateRatio p.skipCounter then [] else [sample] } := by
  rw [addSample]
  dsimp only
  cases A.lt r.rateRatio (A.ofInt 1) && A.le r.rateRatio p.skipCounter with
  | true =>
    rw [if_pos rfl, if_pos rfl, List.append_nil]
    rfl
  | false =>
    rw [if_neg Bool.false_ne_true, if_neg Bool.false_ne_true]
    rw [stream_chunkPoints, Poll.stream, Poll.held, Poll.held, List.append_assoc]
    rfl

theorem cut_addSample (hsize : r.equalizedSize ≤ 4096) (hcut : p.Cut) (sample : ISPDB25Point) :
    (addSample A r p sample).Cut := by
  rw [addSample]
  dsimp only
  cases A.lt r.rateRatio (A.ofInt 1) && A.le r.rateRatio p.skipCounter with
  | true => exact ⟨hcut.slices, hcut.accu⟩
  | false =>
    refine cut_chunkPoints hsize hcut.slices ?_
    rw [List.length_append]
    exact hcut.accu

theorem stream_addSamples (samples : List ISPDB25Point) :
    (samples.foldl (addSample A r) p).stream =
      { p.stream with
        skipCounter := (kept A r.rateRatio p.skipCounter samples).2
        points := p.held ++ (kept A r.rateRatio p.skipCounter samples).1 } := by
  induction samples generalizing p with
  | nil =>
    rw [List.foldl_nil, kept, List.append_nil]
    rfl
  | cons sample samples ih =>
    have hsample := stream_addSample (A := A) (r := r) (p := p) sample
    have hskip := congrArg Stream.skipCounter hsample
    have hheld := congrArg Stream.points hsample
    have hprevious := congrArg Stream.toPrevious hsample
    change (addSample A r p sample).skipCounter = _ at hskip
    change (addSample A r p sample).held = _ at hheld
    change (addSample A r p sample).toPrevious = p.toPrevious at hprevious
    rw [List.foldl_cons, ih, hskip, hheld, Poll.stream, Poll.stream, hprevious, kept, List.append_assoc]
    cases A.lt r.rateRatio (A.ofInt 1) && A.le r.rateRatio p.skipCounter <;> rfl

theorem cut_addSamples (hsize : r.equalizedSize ≤ 4096) (hcut : p.Cut) (samples : List ISPDB25Point) :
    (samples.foldl (addSample A r) p).Cut := by
  induction samples generalizing p with
  | nil => exact hcut
  | cons sample samples ih => exact ih (cut_addSample hsize hcut sample)

theorem addSamples_driverMode (samples : List ISPDB25Point) :
    (samples.foldl (addSample A r) p).driverMode = p.driverMode := by
  induction samples generalizing p with
  | nil => rfl
  | cons sample samples ih =>
    rw [List.foldl_cons, ih, addSample]
    dsimp only
    split
    · rfl
    · rw [chunkPoints, apply_ite Poll.driverMode, commitChunk_driverMode, ite_self]

/-! ## a chunk, and a poll -/

theorem held_receive (p : Poll D) (c : InputChunk) :
    (receive p c).held = if c.isWave then p.held else [] := by
  rw [receive]
  cases c.isWave <;> rfl

theorem cut_receive (hcut : p.Cut) (c : InputChunk) : (receive p c).Cut := by
  rw [receive]
  cases c.isWave with
  | true => exact ⟨hcut.slices, hcut.accu⟩
  | false => exact ⟨fun slice hslice => absurd hslice List.not_mem_nil, Nat.zero_lt_succ _⟩

/-- **The cutting of the points into slices does not matter** to which points are shown. -/
theorem stream_transform (p : Poll D) (c : InputChunk) :
    (transform A maxPointrate p c).stream = p.stream.next A maxPointrate c := by
  have hreceive : (receive p c).skipCounter = p.skipCounter := by
    rw [receive]
    cases c.isWave <;> rfl
  rw [transform]
  dsimp only
  rw [apply_ite Poll.stream, stream_commitChunk, ite_self, stream_addSamples, Stream.next]
  have hheld : { receive p c with toPrevious := leave p.toPrevious c }.held = _ := held_receive p c
  dsimp only [Poll.stream] at hheld ⊢
  rw [hheld, hreceive]

theorem transform_driverMode (p : Poll D) (c : InputChunk) :
    (transform A maxPointrate p c).driverMode = if c.isWave then .wave else .frame := by
  rw [transform]
  dsimp only
  rw [apply_ite Poll.driverMode, commitChunk_driverMode, ite_self, addSamples_driverMode, receive]
  cases c.isWave <;> rfl

theorem cut_transform (hcut : p.Cut) (c : InputChunk) : (transform A maxPointrate p c).Cut := by
  have hpoints := cut_addSamples (A := A) (r := rates A maxPointrate (combined A p.toPrevious c).length c)
    (p := { receive p c with toPrevious := leave p.toPrevious c }) (equalizedSize_le _)
    ⟨(cut_receive hcut c).slices, (cut_receive hcut c).accu⟩ (combined A p.toPrevious c)
  rw [transform]
  dsimp only
  split
  · exact hpoints
  · exact cut_commitChunk hpoints.slices hpoints.accu.le

theorem getNextBuffer_eq (looks : List Look) (henabled : ∀ look ∈ looks, look.enabled = true)
    (p : Poll D) :
    getNextBuffer A maxPointrate p looks = (taken looks).foldl (transform A maxPointrate) p := by
  induction looks generalizing p with
  | nil => rfl
  | cons look looks ih =>
    rw [getNextBuffer, taken, if_pos (henabled look List.mem_cons_self)]
    cases look.chunk with
    | none => rfl
    | some c =>
      dsimp only
      split
      · rfl
      · exact ih (fun look' hlook' => henabled look' (List.mem_cons_of_mem _ hlook')) _

theorem stream_transforms (chunks : List InputChunk) (p : Poll D) :
    (chunks.foldl (transform A maxPointrate) p).stream =
      chunks.foldl (Stream.next A maxPointrate) p.stream := by
  induction chunks generalizing p with
  | nil => rfl
  | cons c chunks ih => rw [List.foldl_cons, ih, stream_transform, List.foldl_cons]

theorem cut_transforms (hcut : p.Cut) (chunks : List InputChunk) :
    (chunks.foldl (transform A maxPointrate) p).Cut := by
  induction chunks generalizing p with
  | nil => exact hcut
  | cons c chunks ih => exact ih (cut_transform hcut c)

/-! ## the queue -/

/-- a chunk that is taken has as many samples as were announced -/
theorem input_length {c : Chunk} {decoder : IDNLaproDecoder} (h : (c.input decoder).samples ≠ []) :
    (c.input decoder).samples.length = c.sampleCount := by
  rw [Chunk.input, decodeChunk] at h ⊢
  dsimp only at h ⊢
  rw [List.length_map]
  split at h
  · next hfits => rw [if_pos hfits, hfits]
  · exact absurd rfl h

/-- A poll takes what waits in the queue, up to a chunk whose data were short. -/
theorem taken_looks (o : Output) (decoder : Nat → IDNLaproDecoder) :
    taken (o.looks decoder) = ((o.queue.drop o.seen).map fun c => c.input (decoder c.decoder)).takeWhile
      fun c => c.samples ≠ [] := by
  rw [Output.looks]
  induction o.queue.drop o.seen with
  | nil => rfl
  | cons c chunks ih =>
    rw [List.map_cons, List.cons_append, taken, List.map_cons, List.takeWhile_cons]
    dsimp only
    by_cases hsamples : (c.input (decoder c.decoder)).samples = []
    · rw [if_pos hsamples, if_neg (by simp [hsamples])]
    · rw [if_neg hsamples, if_pos (by simp [hsamples]), ih]

/-! ## a frame -/

theorem kept_of_not_lt {rateRatio skipCounter : D} (hratio : A.lt rateRatio (A.ofInt 1) = false)
    (samples : List ISPDB25Point) : (kept A rateRatio skipCounter samples).1 = samples := by
  induction samples generalizing skipCounter with
  | nil => rfl
  | cons sample samples ih =>
    rw [kept, hratio]
    exact congrArg (sample :: ·) ih

theorem equalizedSize_pos {sampleCount : Nat} (h : 0 < sampleCount) : 0 < equalizedSize sampleCount := by
  have hk : 0 < (sampleCount * bytesPerPoint + maxBytesPerTransmission - 1) /
      maxBytesPerTransmission := by
    rw [bytesPerPoint, maxBytesPerTransmission, bytesPerPoint]
    omega
  rw [equalizedSize]
  exact Nat.div_pos (by omega) hk

/-- nothing is put in before a frame, or before a wave that follows the one before it -/
theorem combined_joined (h : c.isWave = false ∨ c.isDiscontinuous = false) (previous : Previous) :
    combined A previous c = c.samples := by
  rw [combined, repair]
  dsimp only
  split
  · next hempty => rw [hempty, List.nil_append]
  · rw [if_neg ?_, List.nil_append]
    rintro ⟨_, hwave, hdiscontinuous, _⟩
    rcases h with h | h
    · exact absurd hwave (by simp [h])
    · exact absurd hdiscontinuous (by simp [h])

/-- Every slice has the size of the parts, and the points of the next one do not fill it. -/
structure Poll.Even (size : Nat) (p : Poll D) : Prop where
  slices : ∀ slice ∈ p.sliceBuf, slice.dataChunk.length = size
  accu : p.db25Accu.length < size

theorem even_addSample (hframe : r.isWave = false) (heven : p.Even r.equalizedSize)
    (sample : ISPDB25Point) :
    (addSample A r p sample).Even r.equalizedSize := by
  have haccu := heven.accu
  rw [addSample]
  dsimp only
  cases A.lt r.rateRatio (A.ofInt 1) && A.le r.rateRatio p.skipCounter with
  | true => exact ⟨heven.slices, haccu⟩
  | false =>
    rw [if_neg Bool.false_ne_true, chunkPoints, Rates.full, hframe, if_neg Bool.false_ne_true]
    simp only [List.length_append, List.length_singleton, decide_eq_true_eq]
    split
    · next hfull =>
      rw [commitChunk, if_neg (by simp)]
      refine ⟨fun slice hslice => ?_, by rw [List.length_nil]; omega⟩
      rcases List.mem_append.mp hslice with hold | hnew
      · exact heven.slices slice hold
      · obtain rfl := List.mem_singleton.mp hnew
        rw [List.length_append, List.length_singleton]
        omega
    · exact ⟨heven.slices, by rw [List.length_append, List.length_singleton]; omega⟩

theorem even_addSamples (hframe : r.isWave = false) (heven : p.Even r.equalizedSize)
    (samples : List ISPDB25Point) : (samples.foldl (addSample A r) p).Even r.equalizedSize := by
  induction samples generalizing p with
  | nil => exact heven
  | cons sample samples ih => exact ih (even_addSample hframe heven sample)

theorem even_commitChunk {size : Nat} (hpos : 0 < size) (heven : p.Even size) :
    (∀ slice ∈ (commitChunk A p).sliceBuf.dropLast, slice.dataChunk.length = size) ∧
      ∀ slice ∈ (commitChunk A p).sliceBuf,
        0 < slice.dataChunk.length ∧ slice.dataChunk.length ≤ size := by
  have hold : ∀ slice ∈ p.sliceBuf, 0 < slice.dataChunk.length ∧ slice.dataChunk.length ≤ size := by
    intro slice hslice
    rw [heven.slices slice hslice]
    exact ⟨hpos, le_rfl⟩
  rw [commitChunk]
  split
  · exact ⟨fun slice hslice => heven.slices slice (List.dropLast_subset _ hslice), hold⟩
  · next hne =>
    refine ⟨fun slice hslice => heven.slices slice (by simpa using hslice), fun slice hslice => ?_⟩
    rcases List.mem_append.mp hslice with hslice | hnew
    · exact hold slice hslice
    · obtain rfl := List.mem_singleton.mp hnew
      exact ⟨List.length_pos_iff.mpr hne, heven.accu.le⟩

/-- A frame is cut into parts of one size, of which the last may be smaller. -/
theorem transform_frame (hframe : c.isWave = false) (hsamples : c.samples ≠ []) (p : Poll D) :
    (∀ slice ∈ (transform A maxPointrate p c).sliceBuf.dropLast,
        slice.dataChunk.length = equalizedSize c.samples.length) ∧
      (∀ slice ∈ (transform A maxPointrate p c).sliceBuf, 0 < slice.dataChunk.length ∧
        slice.dataChunk.length ≤ equalizedSize c.samples.length) ∧
      (transform A maxPointrate p c).db25Accu = [] := by
  have hpos := equalizedSize_pos (List.length_pos_iff.mpr hsamples)
  have heven := even_addSamples (A := A) (r := rates A maxPointrate c.samples.length c)
    (p := { receive p c with toPrevious := leave p.toPrevious c }) hframe
    (by
      rw [receive, hframe, if_neg Bool.false_ne_true]
      exact ⟨fun slice hslice => absurd hslice List.not_mem_nil, hpos⟩) c.samples
  obtain ⟨hparts, hsize⟩ := even_commitChunk (A := A) hpos heven
  rw [transform, combined_joined (.inl hframe)]
  dsimp only
  rw [hframe, if_neg Bool.false_ne_true]
  exact ⟨hparts, hsize, commitChunk_accu _⟩

end model

end LiberaLink.Idn
