import LiberaLink.Idn.Slices

/-!
# The driver and its adapter

The loop of the driver with the adapter that it polls: from the chunks that the polls take to the calls
of the sink.

* `Driver.turn`       one turn of the loop, with the poll;
* `Driver.polled`     where there are waves only, the polls are those that the loop counts on;
* `waves_shown`       **the points of the waves reach the sink once and in order**, in slices that fit;
* `frame_shown`       **a frame reaches the sink as it is**, in parts of one size.
-/

namespace LiberaLink.Idn

/-! ## the model -/

/-- what the loop and the poll find in one turn: the chunks, and the times of `Turn` -/
structure Round where
  looks : List Look
  freshAt : Int
  now : Int
  replayedAt : Int
  stopsAfter : Option Nat

/-- the loop, and the adapter with what it keeps from poll to poll -/
structure Driver (D : Type) where
  state : DriverState
  poll : Poll D

variable {D : Type} (A : Arithmetic D) (maxPointrate : Nat)

/-- the adapter before its first poll; where the latest wave ended is not set -/
def Driver.start (sliceDurationUs : Nat) (skipCounter : D) (previous : Previous) : Driver D where
  state := .start
  poll :=
    { usPerSlice := A.ofInt sliceDurationUs
      currentSliceTime := A.ofInt sliceDurationUs
      db25Accu := []
      skipCounter := skipCounter
      toPrevious := previous
      driverMode := .inactive
      sliceBuf := [] }

/-- the poll, with slices of its own -/
def Driver.next (d : Driver D) (looks : List Look) : Poll D :=
  getNextBuffer A maxPointrate { d.poll with driverMode := d.state.driverMode, sliceBuf := [] } looks

def Driver.turnOf (d : Driver D) (t : Round) : Turn where
  buffer := (d.next A maxPointrate t.looks).sliceBuf.map some
  mode := (d.next A maxPointrate t.looks).driverMode
  freshAt := t.freshAt
  now := t.now
  replayedAt := t.replayedAt
  stopsAfter := t.stopsAfter

def Driver.turn (d : Driver D) (t : Round) : Driver D :=
  if d.state.running then
    ⟨d.state.turn (d.turnOf A maxPointrate t), d.next A maxPointrate t.looks⟩
  else d

/-- the points of slices, in order -/
def pointsOf (slices : List TimeSlice) : List ISPDB25Point := slices.flatMap TimeSlice.dataChunk

/-- the adapter is enabled all the time -/
def Round.Enabled (t : Round) : Prop := ∀ look ∈ t.looks, look.enabled = true

/-- and there are waves only -/
structure Round.Waves (t : Round) : Prop where
  enabled : t.Enabled
  waves : ∀ look ∈ t.looks, ∀ c ∈ look.chunk, c.isWave = true

/-! ## what happens in a turn -/

section
variable {d : Driver D} {t : Round} {turns : List Turn} {chunks : List InputChunk}

theorem mem_taken (looks : List Look) :
    ∀ c ∈ taken looks, (∃ look ∈ looks, c ∈ look.chunk) ∧ c.samples ≠ [] := by
  induction looks with
  | nil => exact fun c hc => absurd hc List.not_mem_nil
  | cons look looks ih =>
    intro c hc
    rw [taken] at hc
    cases hchunk : look.chunk with
    | none =>
      rw [hchunk] at hc
      exact absurd hc List.not_mem_nil
    | some first =>
      rw [hchunk] at hc
      dsimp only at hc
      split at hc
      · exact absurd hc List.not_mem_nil
      · next hsamples =>
        rcases List.mem_cons.mp hc with rfl | hrest
        · exact ⟨⟨look, List.mem_cons_self, hchunk⟩, hsamples⟩
        · obtain ⟨⟨other, hother, hc⟩, hsamples⟩ := ih c hrest
          exact ⟨⟨other, List.mem_cons_of_mem _ hother, hc⟩, hsamples⟩

theorem Round.Waves.taken (hwaves : t.Waves) : ∀ c ∈ taken t.looks, c.isWave = true := by
  intro c hc
  obtain ⟨⟨look, hlook, hchunk⟩, _⟩ := mem_taken t.looks c hc
  exact hwaves.waves look hlook c hchunk

theorem Driver.next_eq (henabled : t.Enabled) :
    d.next A maxPointrate t.looks = (taken t.looks).foldl (transform A maxPointrate)
      { d.poll with driverMode := d.state.driverMode, sliceBuf := [] } :=
  getNextBuffer_eq t.looks henabled _

/-- the slices of a poll, and what is in the one that is not full -/
theorem Driver.stream_next (henabled : t.Enabled) :
    (d.next A maxPointrate t.looks).stream = (taken t.looks).foldl (Stream.next A maxPointrate)
      { d.poll.stream with points := d.poll.db25Accu } := by
  rw [Driver.next_eq A maxPointrate henabled, stream_transforms]
  rfl

theorem Driver.cut_next (henabled : t.Enabled) (haccu : d.poll.db25Accu.length < 4096) :
    (d.next A maxPointrate t.looks).Cut := by
  rw [Driver.next_eq A maxPointrate henabled]
  exact cut_transforms (p := { d.poll with driverMode := d.state.driverMode, sliceBuf := [] })
    ⟨fun slice hslice => absurd hslice List.not_mem_nil, haccu⟩ _

/-- waves leave the mode as it is, or make it theirs -/
theorem Driver.next_driverMode (hwaves : t.Waves) :
    (d.next A maxPointrate t.looks).driverMode = d.state.driverMode ∧
        (d.next A maxPointrate t.looks).sliceBuf = [] ∨
      (d.next A maxPointrate t.looks).driverMode = .wave := by
  rw [Driver.next_eq A maxPointrate hwaves.enabled]
  have hall := hwaves.taken
  rcases List.eq_nil_or_concat (taken t.looks) with hnone | ⟨chunks, c, hchunks⟩
  · rw [hnone]
    exact .inl ⟨rfl, rfl⟩
  · rw [List.concat_eq_append] at hchunks
    rw [hchunks] at hall ⊢
    rw [List.foldl_append, List.foldl_cons, List.foldl_nil, transform_driverMode,
      hall c List.mem_concat_self]
    exact .inr rfl

theorem Driver.polled (hwaves : t.Waves) : (d.turnOf A maxPointrate t).Polled d.state := by
  rw [Turn.Polled]
  rcases Driver.next_driverMode A maxPointrate (d := d) hwaves with ⟨hmode, hnone⟩ | hmode
  · have hempty : (d.turnOf A maxPointrate t).buffer = [] := by
      rw [turnOf, hnone]
      rfl
    rw [if_pos hempty]
    exact .inl hmode
  · split
    · exact .inr (.inr hmode)
    · exact .inl hmode

theorem reduceOption_map_some (slices : List TimeSlice) : (slices.map some).reduceOption = slices := by
  show (slices.map some).filterMap id = slices
  rw [List.filterMap_map]
  exact List.filterMap_some

/-- the slices of a turn, when there are waves only -/
theorem Driver.waveSlices_turnOf (hwaves : t.Waves) :
    (d.turnOf A maxPointrate t).waveSlices = (d.next A maxPointrate t.looks).sliceBuf := by
  rw [Turn.waveSlices]
  rcases Driver.next_driverMode A maxPointrate (d := d) hwaves with ⟨_, hnone⟩ | hmode
  · rw [turnOf, hnone]
    split <;> rfl
  · rw [if_pos (show (d.turnOf A maxPointrate t).mode = .wave from hmode)]
    exact reduceOption_map_some _

/-! ## a run of waves -/

theorem pointsOf_append (a b : List TimeSlice) : pointsOf (a ++ b) = pointsOf a ++ pointsOf b :=
  List.flatMap_append

/-- waves only add to the points -/
theorem next_points (s : Stream D) (hwaves : ∀ c ∈ chunks, c.isWave = true)
    (before : List ISPDB25Point) :
    chunks.foldl (Stream.next A maxPointrate) { s with points := before ++ s.points } =
      { chunks.foldl (Stream.next A maxPointrate) s with
        points := before ++ (chunks.foldl (Stream.next A maxPointrate) s).points } := by
  induction chunks generalizing s with
  | nil => rfl
  | cons c chunks ih =>
    have hc := hwaves c List.mem_cons_self
    have hnext : ({ s with points := before ++ s.points } : Stream D).next A maxPointrate c =
        { s.next A maxPointrate c with points := before ++ (s.next A maxPointrate c).points } := by
      rw [Stream.next, Stream.next]
      dsimp only
      rw [if_pos hc, if_pos hc, List.append_assoc]
    rw [List.foldl_cons, hnext, List.foldl_cons]
    exact ih (s.next A maxPointrate c) fun other hother => hwaves other (List.mem_cons_of_mem _ hother)

theorem points_isPrefix (s : Stream D) (hwaves : ∀ c ∈ chunks, c.isWave = true) :
    s.points <+: (chunks.foldl (Stream.next A maxPointrate) s).points := by
  have hall := next_points A maxPointrate { s with points := [] } hwaves s.points
  rw [List.append_nil] at hall
  exact ⟨_, (congrArg Stream.points hall).symm⟩

/-- What holds after the rounds: the loop has been given the points of the chunks, but for those that
wait in a slice that is not full. -/
structure Driver.Inv (s : Stream D) (turns : List Turn) (chunks : List InputChunk)
    (d : Driver D) : Prop where
  loop : d.state.Inv turns
  mode : d.state.driverMode ≠ .frame
  waves : ∀ t ∈ turns, t.mode ≠ .frame
  stream : d.state.running = true →
    { d.poll.stream with points := pointsOf (waveSlices turns) ++ d.poll.db25Accu } =
      chunks.foldl (Stream.next A maxPointrate) s
  once : pointsOf (waveSlices turns) <+: (chunks.foldl (Stream.next A maxPointrate) s).points
  sizes : ∀ slice ∈ waveSlices turns, 0 < slice.dataChunk.length ∧ slice.dataChunk.length ≤ 4096
  accu : d.poll.db25Accu.length < 4096

theorem Driver.Inv.turn {s : Stream D} (h : d.Inv A maxPointrate s turns chunks) (hwaves : t.Waves) :
    ∃ turns', (d.turn A maxPointrate t).Inv A maxPointrate s turns' (chunks ++ taken t.looks) := by
  rw [Driver.turn]
  by_cases hrun : d.state.running = true
  · rw [if_pos hrun]
    have hmode : (d.turnOf A maxPointrate t).mode ≠ .frame := by
      rcases Driver.next_driverMode A maxPointrate (d := d) hwaves with ⟨hsame, _⟩ | hwave
      · exact fun hframe => h.mode (hsame.symm.trans hframe)
      · exact fun hframe => absurd (hwave.symm.trans hframe) (by simp)
    -- the loop has emptied its buffer, since it is not in frame mode
    have hloop := h.loop.turn (Driver.polled A maxPointrate (d := d) hwaves)
      fun _ _ => h.loop.waits hrun h.mode
    have hcut := Driver.cut_next A maxPointrate (d := d) hwaves.enabled h.accu
    have hslices := Driver.waveSlices_turnOf A maxPointrate (d := d) hwaves
    have hstream : { (d.next A maxPointrate t.looks).stream with
          points := pointsOf (waveSlices (turns ++ [d.turnOf A maxPointrate t])) ++
            (d.next A maxPointrate t.looks).db25Accu } =
        (chunks ++ taken t.looks).foldl (Stream.next A maxPointrate) s := by
      have hnext := next_points A maxPointrate { d.poll.stream with points := d.poll.db25Accu }
        hwaves.taken (pointsOf (waveSlices turns))
      rw [List.foldl_append, ← h.stream hrun, hnext,
        ← Driver.stream_next A maxPointrate hwaves.enabled, waveSlices_concat, hslices,
        pointsOf_append, List.append_assoc]
      rfl
    refine ⟨turns ++ [d.turnOf A maxPointrate t], hloop, ?_, ?_, fun _ => hstream, ?_, ?_, hcut.accu⟩
    · rw [DriverState.turn, if_pos hrun, output_driverMode]
      exact hmode
    · intro turn hturn
      rcases List.mem_append.mp hturn with hold | hnew
      · exact h.waves turn hold
      · rw [List.mem_singleton.mp hnew]
        exact hmode
    · rw [← hstream]
      exact List.prefix_append _ _
    · intro slice hslice
      rw [waveSlices_concat, hslices] at hslice
      rcases List.mem_append.mp hslice with hold | hnew
      · exact h.sizes slice hold
      · exact hcut.slices slice hnew
  · rw [if_neg hrun]
    refine ⟨turns, h.loop, h.mode, h.waves, fun hgoes => absurd hgoes hrun, ?_, h.sizes, h.accu⟩
    rw [List.foldl_append]
    exact h.once.trans (points_isPrefix A maxPointrate _ hwaves.taken)

theorem Driver.inv_start (sliceDurationUs : Nat) (skipCounter : D) (previous : Previous) :
    (Driver.start A sliceDurationUs skipCounter previous).Inv A maxPointrate
      ⟨previous, skipCounter, []⟩ [] [] where
  loop := DriverState.inv_start
  mode := by simp [Driver.start, DriverState.start]
  waves := fun t ht => absurd ht List.not_mem_nil
  stream := fun _ => rfl
  once := List.prefix_refl _
  sizes := fun slice hslice => absurd hslice List.not_mem_nil
  accu := Nat.zero_lt_succ _

theorem Driver.inv_run {s : Stream D} (rounds : List Round) (hwaves : ∀ t ∈ rounds, t.Waves)
    (h : d.Inv A maxPointrate s turns chunks) :
    ∃ turns', (rounds.foldl (Driver.turn A maxPointrate) d).Inv A maxPointrate s turns'
      (chunks ++ rounds.flatMap fun t => taken t.looks) := by
  induction rounds generalizing d turns chunks with
  | nil =>
    rw [List.flatMap_nil, List.append_nil]
    exact ⟨turns, h⟩
  | cons t rounds ih =>
    obtain ⟨turns', h'⟩ := h.turn A maxPointrate (hwaves t List.mem_cons_self)
    rw [List.foldl_cons, List.flatMap_cons, ← List.append_assoc]
    exact ih (fun other hother => hwaves other (List.mem_cons_of_mem _ hother)) h'

end

/-- a wave that follows the one before it, at a rate that the device can show -/
def InputChunk.Whole (c : InputChunk) : Prop :=
  c.isDiscontinuous = false ∧
    A.lt (rates A maxPointrate c.samples.length c).rateRatio (A.ofInt 1) = false

theorem points_whole (chunks : List InputChunk) (hwaves : ∀ c ∈ chunks, c.isWave = true)
    (hwhole : ∀ c ∈ chunks, c.Whole A maxPointrate) (s : Stream D) :
    (chunks.foldl (Stream.next A maxPointrate) s).points =
      s.points ++ chunks.flatMap InputChunk.samples := by
  induction chunks generalizing s with
  | nil => exact (List.append_nil _).symm
  | cons c chunks ih =>
    obtain ⟨hjoined, hratio⟩ := hwhole c List.mem_cons_self
    have hnext : (s.next A maxPointrate c).points = s.points ++ c.samples := by
      rw [Stream.next]
      dsimp only
      rw [combined_joined (.inr hjoined), kept_of_not_lt hratio, if_pos (hwaves c List.mem_cons_self)]
    rw [List.foldl_cons, ih (fun other hother => hwaves other (List.mem_cons_of_mem _ hother))
      (fun other hother => hwhole other (List.mem_cons_of_mem _ hother)), hnext, List.flatMap_cons,
      List.append_assoc]

/-- **A run of the driver with an adapter that is enabled and is given waves.**  The points that reach
the sink are those of the chunks, each once and in order, whatever the polls find when and however long
the slices are: all but those that wait in a slice that is not full, and when the loop was stopped
possibly fewer.  No slice is empty or too large, nothing is written as a frame, and nothing is dropped
or put in where the waves follow one another at a rate that the device can show. -/
theorem waves_shown (sliceDurationUs : Nat) (skipCounter : D) (previous : Previous)
    (rounds : List Round) (hwaves : ∀ t ∈ rounds, t.Waves) :
    let d := rounds.foldl (Driver.turn A maxPointrate) (.start A sliceDurationUs skipCounter previous)
    let chunks := rounds.flatMap fun t => taken t.looks
    let shown := (chunks.foldl (Stream.next A maxPointrate) ⟨previous, skipCounter, []⟩).points
    pointsOf (written d.state.calls) <+: shown ∧
      (d.state.running = true → pointsOf (written d.state.calls) ++ d.poll.db25Accu = shown) ∧
      (∀ slice ∈ written d.state.calls,
        0 < slice.dataChunk.length ∧ slice.dataChunk.length ≤ 4096) ∧
      d.poll.db25Accu.length < 4096 ∧
      (∀ buffer clear, .replaceFrameBuffer buffer clear ∉ d.state.calls) ∧
      ((∀ c ∈ chunks, c.Whole A maxPointrate) → shown = chunks.flatMap InputChunk.samples) := by
  intro d chunks shown
  obtain ⟨turns, h⟩ := Driver.inv_run A maxPointrate rounds hwaves
    (Driver.inv_start A maxPointrate sliceDurationUs skipCounter previous)
  rw [List.nil_append] at h
  have hchunks : ∀ c ∈ chunks, c.isWave = true := by
    intro c hc
    obtain ⟨t, ht, hc⟩ := List.mem_flatMap.mp hc
    exact (hwaves t ht).taken c hc
  obtain ⟨rest, hrest⟩ := h.loop.once
  refine ⟨?_, fun hrun => ?_, fun slice hslice => ?_, h.accu, fun buffer clear hcall => ?_,
    fun hwhole => ?_⟩
  · refine List.IsPrefix.trans ?_ h.once
    rw [← hrest, pointsOf_append]
    exact List.prefix_append _ _
  · rw [h.loop.all hrun]
    exact congrArg Stream.points (h.stream hrun)
  · exact h.sizes slice (hrest ▸ List.mem_append_left _ hslice)
  · obtain ⟨t, ht, hframe, _⟩ := h.loop.frames buffer clear hcall
    exact h.waves t ht hframe
  · exact points_whole A maxPointrate chunks hchunks hwhole _

/-- the arithmetic without rounding -/
def Arithmetic.exact : Arithmetic ℚ where
  ofInt n := n
  nineTenths := 9 / 10
  add x y := x + y
  sub x y := x - y
  mul x y := x * y
  div x y := x / y
  lt x y := decide (x < y)
  le x y := decide (x ≤ y)
  whole x := if 0 ≤ x then (⌊x⌋ : ℚ) else (⌈x⌉ : ℚ)
  toUnsigned x := ⌊x⌋.toNat % 2 ^ 32

/-- two points in a millisecond -/
def twoPoints (isWave : Bool) : InputChunk :=
  ⟨[⟨0, 0, 0, 0, 0, 0, 0, 0⟩, ⟨1, 1, 0, 0, 0, 0, 0, 0⟩], 1000, isWave, false⟩

/-- a poll that finds them, and nothing else -/
def oneRound (isWave : Bool) : Round :=
  ⟨[⟨true, some (twoPoints isWave)⟩, ⟨true, none⟩], 1, 1, 2, none⟩

theorem oneRound_enabled (isWave : Bool) : (oneRound isWave).Enabled := by
  intro look hlook
  rcases List.mem_cons.mp hlook with rfl | hlook
  · rfl
  · rw [List.mem_singleton.mp hlook]

theorem waves_shown_two :
    let d := [oneRound true].foldl (Driver.turn .exact 30000) (.start .exact 10000 0 ⟨0, 0⟩)
    pointsOf (written d.state.calls) ++ d.poll.db25Accu = (twoPoints true).samples := by
  have hwaves : ∀ t ∈ [oneRound true], t.Waves := by
    intro t ht
    rw [List.mem_singleton.mp ht]
    refine ⟨oneRound_enabled true, fun look hlook c hc => ?_⟩
    rcases List.mem_cons.mp hlook with rfl | hlook
    · rw [← Option.mem_some.mp hc]
      rfl
    · rw [List.mem_singleton.mp hlook] at hc
      cases hc
  have hrun := waves_shown .exact 30000 10000 0 ⟨0, 0⟩ [oneRound true] hwaves
  refine (hrun.2.1 (by decide +kernel)).trans (hrun.2.2.2.2.2 fun c hc => ?_)
  obtain rfl : c = twoPoints true := List.mem_singleton.mp hc
  exact ⟨rfl, by decide +kernel⟩

/-- slices of a frame that have just come are handed over as they are, and kept -/
theorem output_fresh {s : DriverState} {t : Turn} (hmode : t.mode = .frame) (hne : t.buffer ≠ [])
    (hdue : t.freshAt ≤ t.now) :
    ((s.receive t).output t).currentBuffer = t.buffer ∧
      ((s.receive t).output t).calls = s.calls ++ [.replaceFrameBuffer t.buffer true] := by
  have hbuffer : (s.receive t).currentBuffer = t.buffer := if_neg hne
  have hat : (s.receive t).nextFrameReplayAt = t.freshAt := if_pos ⟨hne, hmode⟩
  have hframe : (s.receive t).driverMode = .frame := hmode
  refine ⟨(output_of_frame hframe).1.trans hbuffer, ?_⟩
  rw [DriverState.output, hbuffer, if_neg hne, if_neg fun hwait => ?_, if_pos hframe]
  · simp only [decide_eq_true hne]
    rfl
  · rw [hat] at hwait
    omega

/-- **A frame that is the last chunk of a poll.**  It takes the place of all that was there before, and
goes to the sink at once: its points, but for those that are dropped, in parts of one size, of which
the last may be smaller.  No point is dropped where the device can show them at their rate. -/
theorem frame_shown {d : Driver D} {t : Round} {chunks : List InputChunk} {c : InputChunk}
    (hrun : d.state.running = true) (henabled : t.Enabled) (htaken : taken t.looks = chunks ++ [c])
    (hframe : c.isWave = false) (hdue : t.freshAt ≤ t.now) :
    let after := d.turn A maxPointrate t
    let slices := after.poll.sliceBuf
    let r := (rates A maxPointrate c.samples.length c).rateRatio
    let s := chunks.foldl (Stream.next A maxPointrate) { d.poll.stream with points := d.poll.db25Accu }
    pointsOf slices = (kept A r s.skipCounter c.samples).1 ∧
      (slices ≠ [] → after.state.currentBuffer = slices.map some ∧
        after.state.calls = d.state.calls ++ [.replaceFrameBuffer (slices.map some) true]) ∧
      (∀ slice ∈ slices.dropLast, slice.dataChunk.length = equalizedSize c.samples.length) ∧
      (∀ slice ∈ slices, 0 < slice.dataChunk.length ∧
        slice.dataChunk.length ≤ equalizedSize c.samples.length) ∧
      equalizedSize c.samples.length ≤ 4096 ∧
      after.poll.db25Accu = [] ∧
      (A.lt r (A.ofInt 1) = false → pointsOf slices = c.samples) := by
  intro after slices r s
  have hsamples : c.samples ≠ [] := (mem_taken t.looks c (htaken ▸ List.mem_concat_self)).2
  have hafter : after = ⟨d.state.turn (d.turnOf A maxPointrate t), d.next A maxPointrate t.looks⟩ :=
    if_pos hrun
  have hnext := Driver.next_eq A maxPointrate (d := d) henabled
  rw [htaken, List.foldl_append, List.foldl_cons, List.foldl_nil] at hnext
  obtain ⟨hparts, hsizes, haccu⟩ := transform_frame (A := A) hframe hsamples _
  rw [← hnext] at hparts hsizes haccu
  have hmode : (d.next A maxPointrate t.looks).driverMode = .frame := by
    rw [hnext, transform_driverMode, hframe, if_neg Bool.false_ne_true]
  have hslices : slices = (d.next A maxPointrate t.looks).sliceBuf := by
    rw [← congrArg (fun x => x.poll.sliceBuf) hafter]
  have hpoints : pointsOf slices = (kept A r s.skipCounter c.samples).1 := by
    have hstream := congrArg Stream.points (Driver.stream_next A maxPointrate (d := d) henabled)
    rw [htaken, List.foldl_append, List.foldl_cons, List.foldl_nil, Stream.next] at hstream
    dsimp only at hstream
    rw [combined_joined (.inl hframe), hframe, if_neg Bool.false_ne_true, List.nil_append] at hstream
    rw [hslices, ← hstream]
    show _ = pointsOf _ ++ (d.next A maxPointrate t.looks).db25Accu
    rw [haccu, List.append_nil]
  refine ⟨hpoints, fun hne => ?_, ?_, ?_, equalizedSize_le _, ?_, fun hratio => ?_⟩
  · have hbuffer : (d.turnOf A maxPointrate t).buffer = slices.map some := by
      rw [hslices]
      rfl
    have hsome : (d.turnOf A maxPointrate t).buffer ≠ [] := by
      rw [hbuffer]
      simpa using hne
    have hfresh := output_fresh (s := d.state) hmode hsome hdue
    rw [hbuffer] at hfresh
    rw [hafter]
    dsimp only
    rw [DriverState.turn, if_pos hrun]
    exact hfresh
  · rw [hslices]
    exact hparts
  · rw [hslices]
    exact hsizes
  · rw [hafter]
    exact haccu
  · rw [hpoints]
    exact kept_of_not_lt hratio _

theorem frame_shown_two :
    pointsOf ((Driver.start .exact 10000 0 ⟨0, 0⟩).turn .exact 30000 (oneRound false)).poll.sliceBuf =
      (twoPoints false).samples :=
  (frame_shown .exact 30000 rfl (oneRound_enabled false)
    (show taken (oneRound false).looks = [] ++ [twoPoints false] from rfl) rfl
    (by decide)).2.2.2.2.2.2 (by decide +kernel)

end LiberaLink.Idn
