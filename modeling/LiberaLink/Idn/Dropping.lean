import LiberaLink.Idn.Waves

/-!
# How many points are dropped

Where a wave has more points than the device can show, a counter decides which of them are dropped.  The
counter is carried from point to point, and from chunk to chunk.

* `kept_length`     how many points are kept, to the point;
* `skip_next`       the counter stays below one, whatever the chunks are;
* `shown_rate`      **what is shown does not drift** from what the device can show.

The arithmetic is the one without rounding.
-/

namespace LiberaLink.Idn

/-! ## one run of points -/

theorem advance_exact {r s : ℚ} (h : 0 ≤ s + r) : advance .exact r s = Int.fract (s + r) := by
  show s + r - (if 0 ≤ s + r then (⌊s + r⌋ : ℚ) else (⌈s + r⌉ : ℚ)) = _
  rw [if_pos h]
  exact Int.self_sub_floor _

/-- a point is kept when the counter is below the ratio -/
theorem kept_one {r s : ℚ} (hr : 0 ≤ r ∧ r < 1) (hs : 0 ≤ s ∧ s < 1) :
    (if r ≤ s then 0 else 1) = r + Int.fract (s - r) - Int.fract (Int.fract (s + r) - r) := by
  have hback : Int.fract (Int.fract (s + r) - r) = s := by
    have h : Int.fract (s + r) - r = s - (⌊s + r⌋ : ℤ) := by
      rw [← Int.self_sub_floor]
      ring
    rw [h, Int.fract_sub_intCast, Int.fract_eq_self.mpr hs]
  rw [hback]
  split
  · next hle =>
    rw [Int.fract_eq_self.mpr ⟨by linarith, by linarith⟩]
    ring
  · next hlt =>
    have hup : Int.fract (s - r) = s - r + 1 := by
      rw [← Int.fract_add_one, Int.fract_eq_self.mpr ⟨by linarith, by linarith [not_le.mp hlt]⟩]
    rw [hup]
    ring

theorem kept_length {r s : ℚ} (hr : 0 ≤ r ∧ r < 1) (hs : 0 ≤ s ∧ s < 1) (samples : List ISPDB25Point) :
    ((kept .exact r s samples).1.length : ℚ) = samples.length * r + Int.fract (s - r) -
        Int.fract ((kept .exact r s samples).2 - r) ∧
      0 ≤ (kept .exact r s samples).2 ∧ (kept .exact r s samples).2 < 1 := by
  induction samples generalizing s with
  | nil =>
    refine ⟨?_, hs⟩
    show ((0 : Nat) : ℚ) = ((0 : Nat) : ℚ) * r + Int.fract (s - r) - Int.fract (s - r)
    push_cast
    ring
  | cons sample samples ih =>
    have hlt : Arithmetic.exact.lt r (Arithmetic.exact.ofInt 1) = true := decide_eq_true (by
      show r < ((1 : ℤ) : ℚ)
      exact_mod_cast hr.2)
    have hadvance := advance_exact (s := s) (r := r) (by linarith [hr.1, hs.1])
    obtain ⟨hlength, hcounter⟩ := ih ⟨Int.fract_nonneg (s + r), Int.fract_lt_one (s + r)⟩
    have hone := kept_one hr hs
    rw [kept, hlt, if_pos rfl, hadvance]
    dsimp only
    refine ⟨?_, hcounter⟩
    rw [List.length_cons, Bool.true_and]
    show ((if decide (r ≤ s) = true then _ else _ : List ISPDB25Point).length : ℚ) = _
    by_cases hle : r ≤ s
    · rw [if_pos hle] at hone
      rw [if_pos (decide_eq_true hle), hlength]
      push_cast
      linarith
    · rw [if_neg hle] at hone
      rw [if_neg (by simpa using hle), List.length_cons]
      push_cast
      rw [hlength]
      linarith

theorem counter_of_not_lt {D : Type} {A : Arithmetic D} {rateRatio skipCounter : D}
    (hratio : A.lt rateRatio (A.ofInt 1) = false) (samples : List ISPDB25Point) :
    (kept A rateRatio skipCounter samples).2 = skipCounter := by
  induction samples generalizing skipCounter with
  | nil => rfl
  | cons sample samples ih =>
    rw [kept, hratio]
    exact ih

/-! ## one chunk after the other -/

variable (maxPointrate : Nat)

theorem rateRatio_exact (n : Nat) (c : InputChunk) :
    (rates .exact maxPointrate n c).rateRatio = (maxPointrate : ℚ) / (1000000 * n / c.duration) := by
  show ((maxPointrate : ℤ) : ℚ) / (((1000000 : ℤ) : ℚ) * ((n : ℤ) : ℚ) / ((c.duration : ℤ) : ℚ)) = _
  push_cast
  rfl

theorem rateRatio_nonneg (n : Nat) (c : InputChunk) : 0 ≤ (rates .exact maxPointrate n c).rateRatio := by
  rw [rateRatio_exact]
  positivity

/-- the ratio, as what the device can show while the chunk lasts -/
theorem mul_rateRatio {n : Nat} (hn : n ≠ 0) (c : InputChunk) :
    (n : ℚ) * (rates .exact maxPointrate n c).rateRatio = maxPointrate * c.duration / 1000000 := by
  have hn' : (n : ℚ) ≠ 0 := Nat.cast_ne_zero.mpr hn
  rw [rateRatio_exact]
  rcases Nat.eq_zero_or_pos c.duration with hzero | hpos
  · rw [hzero]
    simp
  · have hd : (c.duration : ℚ) ≠ 0 := Nat.cast_ne_zero.mpr hpos.ne'
    field_simp

theorem skip_next {s : Stream ℚ} (hs : 0 ≤ s.skipCounter ∧ s.skipCounter < 1) (c : InputChunk) :
    0 ≤ (s.next .exact maxPointrate c).skipCounter ∧ (s.next .exact maxPointrate c).skipCounter < 1 := by
  have hnonneg := rateRatio_nonneg maxPointrate (combined .exact s.toPrevious c).length c
  rw [Stream.next]
  dsimp only
  by_cases hlt : (rates .exact maxPointrate (combined .exact s.toPrevious c).length c).rateRatio < 1
  · exact (kept_length ⟨hnonneg, hlt⟩ hs _).2
  · rw [counter_of_not_lt]
    · exact hs
    · refine decide_eq_false fun h => hlt ?_
      exact_mod_cast h

theorem skip_run {s : Stream ℚ} (hs : 0 ≤ s.skipCounter ∧ s.skipCounter < 1) (chunks : List InputChunk) :
    0 ≤ (chunks.foldl (Stream.next .exact maxPointrate) s).skipCounter ∧
      (chunks.foldl (Stream.next .exact maxPointrate) s).skipCounter < 1 := by
  induction chunks generalizing s with
  | nil => exact hs
  | cons c chunks ih => exact ih (skip_next maxPointrate hs c)

/-- each chunk comes at the same ratio -/
def Stream.AtRatio (r : ℚ) : Stream ℚ → List InputChunk → Prop
  | _, [] => True
  | s, c :: chunks =>
    (rates .exact maxPointrate (combined .exact s.toPrevious c).length c).rateRatio = r ∧
      Stream.AtRatio r (s.next .exact maxPointrate c) chunks

theorem run_length {r : ℚ} (hr : 0 ≤ r ∧ r < 1) {s : Stream ℚ}
    (hs : 0 ≤ s.skipCounter ∧ s.skipCounter < 1) (chunks : List InputChunk)
    (hwaves : ∀ c ∈ chunks, c.isWave = true) (hsamples : ∀ c ∈ chunks, c.samples ≠ [])
    (hratio : s.AtRatio maxPointrate r chunks) :
    ((chunks.foldl (Stream.next .exact maxPointrate) s).points.length : ℚ) = s.points.length +
      maxPointrate * (chunks.map InputChunk.duration).sum / 1000000 + Int.fract (s.skipCounter - r) -
        Int.fract ((chunks.foldl (Stream.next .exact maxPointrate) s).skipCounter - r) := by
  induction chunks generalizing s with
  | nil => simp
  | cons c chunks ih =>
    obtain ⟨hc, hrest⟩ := hratio
    have hne : (combined .exact s.toPrevious c).length ≠ 0 := by
      have hpos := List.length_pos_iff.mpr (hsamples c List.mem_cons_self)
      rw [combined, List.length_append]
      omega
    have hmul := mul_rateRatio maxPointrate hne c
    rw [hc] at hmul
    have hkept := (kept_length hr hs (combined .exact s.toPrevious c)).1
    have hpoints : ((s.next .exact maxPointrate c).points.length : ℚ) = s.points.length +
        maxPointrate * c.duration / 1000000 + Int.fract (s.skipCounter - r) -
          Int.fract ((s.next .exact maxPointrate c).skipCounter - r) := by
      rw [Stream.next]
      dsimp only
      rw [hc, if_pos (hwaves c List.mem_cons_self), List.length_append]
      push_cast
      rw [hkept, hmul]
      ring
    rw [List.foldl_cons, ih (skip_next maxPointrate hs c)
      (fun other hother => hwaves other (List.mem_cons_of_mem _ hother))
      (fun other hother => hsamples other (List.mem_cons_of_mem _ hother)) hrest, hpoints,
      List.map_cons, List.sum_cons]
    push_cast
    ring

/-- **At any place of any run of chunks**, waves that are too fast for the device, each at the same ratio:
the points that are shown are as many as the device can show while they last, give or take less than one,
however many waves there are. -/
theorem shown_rate (previous : Previous) (before chunks : List InputChunk) {r : ℚ} (hr : r < 1)
    (hwaves : ∀ c ∈ chunks, c.isWave = true) (hsamples : ∀ c ∈ chunks, c.samples ≠ [])
    (hratio : (before.foldl (Stream.next .exact maxPointrate) ⟨previous, 0, []⟩).AtRatio maxPointrate r
      chunks) :
    let s := before.foldl (Stream.next .exact maxPointrate) ⟨previous, 0, []⟩
    |((chunks.foldl (Stream.next .exact maxPointrate) s).points.length : ℚ) - s.points.length -
      maxPointrate * (chunks.map InputChunk.duration).sum / 1000000| < 1 := by
  intro s
  have hs := skip_run maxPointrate (s := ⟨previous, 0, []⟩) ⟨le_rfl, zero_lt_one⟩ before
  cases chunks with
  | nil => simp
  | cons c chunks =>
    have hnonneg : 0 ≤ r := hratio.1 ▸ rateRatio_nonneg maxPointrate _ c
    rw [run_length maxPointrate ⟨hnonneg, hr⟩ hs (c :: chunks) hwaves hsamples hratio, abs_lt]
    have hlow := Int.fract_nonneg (s.skipCounter - r)
    have hhigh := Int.fract_lt_one (s.skipCounter - r)
    have hlow' := Int.fract_nonneg
      (((c :: chunks).foldl (Stream.next .exact maxPointrate) s).skipCounter - r)
    have hhigh' := Int.fract_lt_one
      (((c :: chunks).foldl (Stream.next .exact maxPointrate) s).skipCounter - r)
    constructor <;> linarith

theorem shown_rate_two :
    let s := [twoPoints true, twoPoints true].foldl (Stream.next .exact 1000) ⟨⟨0, 0⟩, 0, []⟩
    |(s.points.length : ℚ) - 0 - 1000 * 2000 / 1000000| < 1 := by
  have hall : ∀ c ∈ [twoPoints true, twoPoints true], c = twoPoints true := by simp
  have hratio : (Stream.mk ⟨0, 0⟩ 0 []).AtRatio 1000 (1 / 2) [twoPoints true, twoPoints true] :=
    ⟨by decide +kernel, by decide +kernel, trivial⟩
  have hrate := shown_rate 1000 ⟨0, 0⟩ [] [twoPoints true, twoPoints true] (by norm_num)
    (fun c hc => by rw [hall c hc]; rfl) (fun c hc => by rw [hall c hc]; simp [twoPoints]) hratio
  have hsum : ([twoPoints true, twoPoints true].map InputChunk.duration).sum = 2000 := rfl
  dsimp only [List.foldl_nil] at hrate
  rw [hsum] at hrate
  exact_mod_cast hrate

end LiberaLink.Idn
