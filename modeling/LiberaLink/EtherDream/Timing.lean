import Mathlib.Algebra.Order.BigOperators.Group.List
import Mathlib.Tactic.Linarith
import LiberaLink.EtherDream.Invariants
import LiberaLink.EtherDream.Stream

/-!
# A tick against a player of single points

A player of single points plays each point at the rate that is in force when it leaves the buffer: a
point with the rate change bit brings the next rate of the queue into force.  A tick takes all points
that are due at the old rate, and submits them as one slice.

* `ratesInForce`            the rates that the player of single points plays at;
* `drain_rates`             the loop of a tick brings the same rates into force;
* `slice_rates_iff`         **when the rate of the slice is right for each of its points**;
* `removed`, `credited`     the points that a tick takes away, and the time it has for them;
* `RatesFit`                the rates that come into force are not too slow;
* `Timely`, `timely_iff`    **when a tick is neither early nor out of points too soon**.
-/

namespace LiberaLink.EtherDream

/-! ## rates in force -/

/-- the rate for a point, and the rates that are left in the queue -/
def nextRate (rate : Nat) (queue : List Nat) (point : BufferedPoint) : Nat × List Nat :=
  if point.control &&& rateChangeBit ≠ 0 then
    match queue with
    | [] => (rate, [])
    | next :: queue => (next, queue)
  else (rate, queue)

/-- the rates that the points are played at, one after the other -/
def ratesInForce (rate : Nat) (queue : List Nat) : List BufferedPoint → List Nat
  | [] => []
  | point :: rest =>
    (nextRate rate queue point).1 ::
      ratesInForce (nextRate rate queue point).1 (nextRate rate queue point).2 rest

section
variable (rate : Nat) (queue : List Nat)

theorem ratesInForce_length (points : List BufferedPoint) :
    (ratesInForce rate queue points).length = points.length := by
  induction points generalizing rate queue with
  | nil => rfl
  | cons point rest ih => rw [ratesInForce, List.length_cons, ih, List.length_cons]

theorem ratesInForce_take (points : List BufferedPoint) (n : Nat) :
    ratesInForce rate queue (points.take n) = (ratesInForce rate queue points).take n := by
  induction points generalizing rate queue n with
  | nil => rw [List.take_nil, ratesInForce, List.take_nil]
  | cons point rest ih =>
    cases n with
    | zero => rfl
    | succ n => rw [List.take_succ_cons, ratesInForce, ratesInForce, ih, List.take_succ_cons]

/-- the rates in force are the first one and those of the queue -/
theorem ratesInForce_mem {points : List BufferedPoint} {r : Nat}
    (hr : r ∈ ratesInForce rate queue points) : r = rate ∨ r ∈ queue := by
  induction points generalizing rate queue with
  | nil => exact absurd hr List.not_mem_nil
  | cons point rest ih =>
    have hnext : (nextRate rate queue point).1 = rate ∧ (nextRate rate queue point).2 = queue ∨
        queue = (nextRate rate queue point).1 :: (nextRate rate queue point).2 := by
      unfold nextRate
      split
      · cases queue with
        | nil => exact .inl ⟨rfl, rfl⟩
        | cons next queue => exact .inr rfl
      · exact .inl ⟨rfl, rfl⟩
    rw [ratesInForce] at hr
    rcases hnext with ⟨hsame, hqueue⟩ | hqueue
    · rw [hsame, hqueue] at hr
      rcases List.mem_cons.mp hr with rfl | hrest
      · exact .inl rfl
      · exact ih rate queue hrest
    · rw [hqueue]
      rcases List.mem_cons.mp hr with rfl | hrest
      · exact .inr List.mem_cons_self
      · rcases ih _ _ hrest with rfl | hmem
        · exact .inr List.mem_cons_self
        · exact .inr (List.mem_cons_of_mem _ hmem)

end

theorem takePoint_nextRate (point : BufferedPoint) (rest : List BufferedPoint) (s : DeviceState) :
    (takePoint point rest s).pointBuffer = rest ∧
      (takePoint point rest s).pointRate = (nextRate s.pointRate s.pointRateQueue point).1 ∧
      (takePoint point rest s).pointRateQueue = (nextRate s.pointRate s.pointRateQueue point).2 := by
  unfold takePoint nextRate
  simp only
  split
  · cases hqueue : s.pointRateQueue with
    | nil => exact ⟨rfl, rfl, rfl⟩
    | cons next queue => exact ⟨rfl, rfl, rfl⟩
  · exact ⟨rfl, rfl, rfl⟩

/-- **The loop of a tick** ends at the rate of its last point. -/
theorem drain_rates (n : Nat) (s : DeviceState) : (drain n s).1.pointRate =
    ((ratesInForce s.pointRate s.pointRateQueue (s.pointBuffer.take n)).getLast?).getD s.pointRate := by
  induction n generalizing s with
  | zero => rfl
  | succ n ih =>
    unfold drain
    cases hbuffer : s.pointBuffer with
    | nil => rfl
    | cons point rest =>
      obtain ⟨hrest, hrate, hqueue⟩ := takePoint_nextRate point rest s
      show (drain n (takePoint point rest s)).1.pointRate = _
      rw [ih, hrest, hrate, hqueue, List.take_succ_cons, ratesInForce,
        List.getLast?_cons, Option.getD_some]

/-! ## what a tick takes -/

section
variable (s : DeviceState) (now : Int)

/-- how many points a playing device has accumulated at `now`, if its clock runs -/
def due : ℚ := if s.pointRate = 0 ∨ s.playbackClockValid = false then 0 else accumulated s now

/-- the points that a tick takes -/
def taken : List BufferedPoint := s.pointBuffer.take ⌊due s now⌋.toNat

/-- the rates that the points of a tick are to be played at -/
def takenRates : List Nat := ratesInForce s.pointRate s.pointRateQueue (taken s now)

variable {s now}

/-- a tick before a point is due -/
theorem playbackSection_wait (h : ⌊due s now⌋.toNat = 0) : ∃ t, playbackSection s now = (t, []) ∧
    t.pointRate = s.pointRate ∧ t.playbackState = s.playbackState ∧
      t.pointBuffer = s.pointBuffer := by
  unfold playbackSection
  split
  · exact ⟨_, rfl, rfl, rfl, rfl⟩
  · rename_i hplays
    split
    · exact ⟨_, rfl, rfl, rfl, rfl⟩
    · rename_i hclock
      have hdue : due s now = accumulated s now := by
        unfold due
        rw [if_neg]
        rintro (hrate | hinvalid)
        · exact hplays (.inr hrate)
        · rw [hinvalid] at hclock
          exact hclock rfl
      rw [hdue] at h
      simp only
      rw [if_pos h]
      exact ⟨_, rfl, rfl, rfl, rfl⟩

/-- a tick when points are due -/
theorem playbackSection_due (hplaying : s.playbackState = .playing) (h : ⌊due s now⌋.toNat ≠ 0) :
    playbackSection s now =
      let toDrain := min ⌊due s now⌋.toNat s.pointBuffer.length
      let drained := drain toDrain {
        s with
        lastPlaybackAt := now
        playbackAccumulator := due s now - (⌊due s now⌋.toNat : ℚ) }
      (if toDrain < ⌊due s now⌋.toNat then underflow drained.1 else drained.1, drained.2) := by
  have hruns : ¬ (s.pointRate = 0 ∨ s.playbackClockValid = false) := by
    intro hstill
    apply h
    rw [due, if_pos hstill]
    rfl
  obtain ⟨hrate, hclock⟩ := not_or.mp hruns
  have hdue : due s now = accumulated s now := if_neg hruns
  unfold playbackSection
  rw [if_neg (by simp [hplaying, hrate]), if_neg (by simp [hclock])]
  simp only
  rw [← hdue, if_neg h]

/-- **A tick** takes the points that are due, ends at the rate of the last of them, and stops when the
buffer holds fewer. -/
theorem playbackSection_taken (hplaying : s.playbackState = .playing) :
    let played := playbackSection s now
    played.2 = (taken s now).map (fun p => p.point) ∧
      played.1.pointRate = ((takenRates s now).getLast?).getD s.pointRate ∧
      played.1.pointBuffer = s.pointBuffer.drop ⌊due s now⌋.toNat ∧
      (played.1.playbackState = .idle ↔ s.pointBuffer.length < ⌊due s now⌋.toNat) := by
  have hidle : s.playbackState ≠ .idle := by
    rw [hplaying]
    decide
  intro played
  by_cases hzero : ⌊due s now⌋.toNat = 0
  · obtain ⟨t, hplayed, hrate, hstate, hbuffer⟩ := playbackSection_wait hzero
    have htaken : taken s now = [] := by
      rw [taken, hzero, List.take_zero]
    have hrates : takenRates s now = [] := by
      rw [takenRates, htaken]
      rfl
    rw [show played = (t, []) from hplayed, htaken, hrates, hzero, hrate, hstate]
    exact ⟨rfl, rfl, hbuffer, fun h => absurd h hidle, fun h => absurd h (Nat.not_lt_zero _)⟩
  · have hplayed : played = _ := playbackSection_due hplaying hzero
    have htaken : s.pointBuffer.take (min ⌊due s now⌋.toNat s.pointBuffer.length) = taken s now := by
      rw [taken, List.take_eq_take_iff]
      omega
    have hleft : s.pointBuffer.drop (min ⌊due s now⌋.toNat s.pointBuffer.length) =
        s.pointBuffer.drop ⌊due s now⌋.toNat := by
      rw [List.drop_eq_drop_iff]
      omega
    rw [hplayed]
    generalize hcount : min ⌊due s now⌋.toNat s.pointBuffer.length = n at htaken hleft
    have hdrained := drained n { s with
      lastPlaybackAt := now, playbackAccumulator := due s now - (⌊due s now⌋.toNat : ℚ) }
    have hlast := drain_rates n { s with
      lastPlaybackAt := now, playbackAccumulator := due s now - (⌊due s now⌋.toNat : ℚ) }
    simp only
    generalize drain n _ = r at hdrained hlast
    have hpoints := hdrained.points_eq
    simp only at hpoints hlast
    rw [htaken] at hpoints hlast
    refine ⟨hpoints, ?_, ?_, ?_⟩
    · split
      · exact hlast
      · exact hlast
    · rw [← hleft]
      split
      · exact hdrained.pointBuffer
      · exact hdrained.pointBuffer
    · split
      · exact ⟨fun _ => by omega, fun _ => rfl⟩
      · rw [hdrained.playbackState]
        exact ⟨fun h => absurd h hidle, fun h => by omega⟩

theorem takenRates_length : (takenRates s now).length = (taken s now).length :=
  ratesInForce_length _ _ _

/-- points are taken at a rate only -/
theorem pointRate_pos_of_taken (h : taken s now ≠ []) : 0 < s.pointRate := by
  by_contra hzero
  refine h ?_
  have hdue : due s now = 0 := if_pos (.inl (by omega))
  rw [taken, hdue]
  rfl

end

/-- **The rate of a slice** is the rate in force for each of its points exactly if the tick crosses no
rate change: all the points it takes are played at the rate of the first.  The rates in the queue are
those that the rate command has put there, which are not zero. -/
theorem slice_rates_iff (options : HostOptions) {s : DeviceState} (hplaying : s.playbackState = .playing)
    (hqueue : ∀ rate ∈ s.pointRateQueue, 0 < rate) (now : Int) :
    let played := playbackSection s now
    (∀ slice, playbackSubmission options played.1.pointRate played.2 = some (.submitContinuous slice) →
      slice.points = (taken s now).map (fun p => p.point) ∧
        ∀ rate ∈ takenRates s now, slice.effectivePointRate = some rate) ↔
      ∀ rate ∈ takenRates s now, (takenRates s now).head? = some rate := by
  intro played
  obtain ⟨hpoints, hrate, _, _⟩ := @playbackSection_taken s now hplaying
  replace hpoints : played.2 = _ := hpoints
  replace hrate : played.1.pointRate = _ := hrate
  have hlength : (takenRates s now).length = (taken s now).length := takenRates_length
  by_cases hnil : taken s now = []
  · have hrates : takenRates s now = [] := List.length_eq_zero_iff.mp (by rw [hlength, hnil]; rfl)
    rw [hpoints, hnil, hrates]
    refine ⟨fun _ rate h => absurd h List.not_mem_nil, fun _ slice hslice => ?_⟩
    cases hslice
  · have hpos : ∀ rate ∈ takenRates s now, 0 < rate := by
      intro rate hmem
      rcases ratesInForce_mem _ _ hmem with rfl | hmem
      · exact pointRate_pos_of_taken hnil
      · exact hqueue rate hmem
    have hsome : takenRates s now ≠ [] := by
      intro h
      rw [h] at hlength
      exact hnil (List.length_eq_zero_iff.mp hlength.symm)
    rw [List.getLast?_eq_some_getLast hsome, Option.getD_some] at hrate
    have hlast : (takenRates s now).getLast hsome ∈ takenRates s now := List.getLast_mem hsome
    have hhead : (takenRates s now).head hsome ∈ takenRates s now := List.head_mem hsome
    obtain ⟨slice₀, hslice₀, hpoints₀, hrate₀⟩ : ∃ slice : SliceSubmission,
        playbackSubmission options played.1.pointRate played.2 = some (.submitContinuous slice) ∧
        slice.points = (taken s now).map (fun p => p.point) ∧
        slice.effectivePointRate = some ((takenRates s now).getLast hsome) := by
      rw [hpoints, playbackSubmission, if_neg (by simpa using hnil), hrate, if_pos (hpos _ hlast)]
      exact ⟨_, rfl, rfl, rfl⟩
    rw [List.head?_eq_some_head hsome]
    constructor
    · intro h rate hmem
      have hall := (h slice₀ hslice₀).2
      exact (hall _ hhead).symm.trans (hall rate hmem)
    · intro h slice hslice
      rw [hslice₀] at hslice
      obtain rfl := SinkCall.submitContinuous.inj (Option.some.inj hslice)
      refine ⟨hpoints₀, fun rate hmem => ?_⟩
      rw [hrate₀, ← h _ hlast]
      exact h rate hmem

/-! ## playing time -/

/-- how many seconds points last that are played at these rates -/
def playingTime (rates : List Nat) : ℚ := (rates.map fun rate : Nat => 1 / (rate : ℚ)).sum

/-- how many more points of `rate` could be played while these rates last -/
def slowdown (rate : Nat) (rates : List Nat) : ℚ :=
  (rates.map fun r : Nat => (rate : ℚ) / (r : ℚ) - 1).sum

/-- The seconds that a tick is credited: the time since the last one, and the fraction of a point that
was carried over.  Without a clock it is credited nothing. -/
def credited (s : DeviceState) (now : Int) : ℚ :=
  if s.playbackClockValid then
    (((now - s.lastPlaybackAt).tdiv 1000 : Int) : ℚ) / 1000000 +
      s.playbackAccumulator / (s.pointRate : ℚ)
  else 0

/-- the points that are gone from the front of the buffer -/
def removed (s s' : DeviceState) : List BufferedPoint :=
  s.pointBuffer.take (s.pointBuffer.length - s'.pointBuffer.length)

/-- the rates that the points of the buffer are to be played at -/
def bufferedRates (s : DeviceState) : List Nat := ratesInForce s.pointRate s.pointRateQueue s.pointBuffer

theorem slowdown_eq (rate : Nat) (rates : List Nat) :
    slowdown rate rates = (rate : ℚ) * playingTime rates - (rates.length : ℚ) := by
  unfold slowdown playingTime
  induction rates with
  | nil => simp
  | cons r rates ih =>
    simp only [List.map_cons, List.sum_cons, List.length_cons] at ih ⊢
    rw [ih]
    push_cast
    ring

section
variable {rate : Nat} (hrate : 0 < rate)
include hrate

/-- rates that are not below `rate` slow nothing down -/
theorem slowdown_nonpos {rates : List Nat} (h : ∀ r ∈ rates, rate ≤ r) : slowdown rate rates ≤ 0 := by
  have hterms : ∀ x ∈ rates.map (fun r : Nat => (rate : ℚ) / (r : ℚ) - 1), x ≤ 0 := by
    intro x hx
    obtain ⟨r, hr, rfl⟩ := List.mem_map.mp hx
    have hle : (rate : ℚ) ≤ (r : ℚ) := Nat.cast_le.mpr (h r hr)
    have hpos : (0 : ℚ) < (r : ℚ) := lt_of_lt_of_le (Nat.cast_pos.mpr hrate) hle
    rw [sub_nonpos, div_le_one hpos]
    exact hle
  exact (List.sum_le_card_nsmul _ 0 hterms).trans (nsmul_zero _).le

theorem playingTime_le_iff (rates : List Nat) (a : ℚ) :
    playingTime rates ≤ a / (rate : ℚ) ↔ slowdown rate rates ≤ a - (rates.length : ℚ) := by
  have hpos : (0 : ℚ) < (rate : ℚ) := Nat.cast_pos.mpr hrate
  rw [slowdown_eq, le_div_iff₀' hpos, sub_le_sub_iff_right]

theorem playingTime_lt_iff (rates : List Nat) (a : ℚ) :
    playingTime rates < a / (rate : ℚ) ↔ slowdown rate rates < a - (rates.length : ℚ) := by
  have hpos : (0 : ℚ) < (rate : ℚ) := Nat.cast_pos.mpr hrate
  rw [slowdown_eq, lt_div_iff₀' hpos, sub_lt_sub_iff_right]

end

/-- **A tick is timely**: it takes points from the front of the buffer, all but the last of them are over
by then, and it runs out of points only if all the points in the buffer are. -/
structure Timely (s : DeviceState) (now : Int) : Prop where
  from_front : removed s (playbackSection s now).1 ++ (playbackSection s now).1.pointBuffer = s.pointBuffer
  not_early : removed s (playbackSection s now).1 ≠ [] →
    playingTime (ratesInForce s.pointRate s.pointRateQueue
      (removed s (playbackSection s now).1).dropLast) ≤ credited s now
  not_short : (playbackSection s now).1.playbackState = .idle →
    playingTime (bufferedRates s) < credited s now

/-- **The rates fit**: the points ahead of any point in the buffer last no more than one point of the
current rate longer than they would at that rate, and all of them together less than that. -/
def RatesFit (s : DeviceState) : Prop :=
  (∀ k < s.pointBuffer.length, slowdown s.pointRate ((bufferedRates s).take k) ≤ 1) ∧
    slowdown s.pointRate (bufferedRates s) < 1

instance (s : DeviceState) : Decidable (RatesFit s) := inferInstanceAs (Decidable (_ ∧ _))

/-- The device of `s` at any tick: the points, the rates and the state are those of `s`, and the clock of
the last tick and the fraction it has carried over are any. -/
structure TickedAt (s t : DeviceState) (now : Int) : Prop where
  playing : t.playbackState = .playing
  pointRate : t.pointRate = s.pointRate
  pointRateQueue : t.pointRateQueue = s.pointRateQueue
  pointBuffer : t.pointBuffer = s.pointBuffer
  carried : 0 ≤ t.playbackAccumulator ∧ t.playbackAccumulator < 1
  steady : t.lastPlaybackAt ≤ now

/-- The slowdown of the points that are due is made up for by what is due beyond them: for all but the
last of them, and for all in the buffer when it holds too few. -/
structure SlowdownFits (s : DeviceState) (now : Int) : Prop where
  taken_fits : ∀ n, n + 1 = min ⌊due s now⌋.toNat s.pointBuffer.length →
    slowdown s.pointRate ((bufferedRates s).take n) ≤ due s now - (n : ℚ)
  buffered_fits : s.pointBuffer.length < ⌊due s now⌋.toNat →
    slowdown s.pointRate (bufferedRates s) < due s now - (s.pointBuffer.length : ℚ)

section
variable {s : DeviceState} {now : Int}

theorem bufferedRates_length : (bufferedRates s).length = s.pointBuffer.length :=
  ratesInForce_length _ _ _

theorem credited_eq (hrate : 0 < s.pointRate) : credited s now = due s now / (s.pointRate : ℚ) := by
  have hpos : (s.pointRate : ℚ) ≠ 0 := by
    exact_mod_cast hrate.ne'
  unfold credited due accumulated
  cases s.playbackClockValid with
  | false => rw [if_neg (by decide), if_pos (.inr rfl), zero_div]
  | true =>
    rw [if_pos rfl, if_neg (by simpa using hrate.ne')]
    field_simp
    ring

theorem pointRate_pos_of_due (h : 0 < ⌊due s now⌋.toNat) : 0 < s.pointRate := by
  by_contra hzero
  have hdue : due s now = 0 := if_pos (.inl (by omega))
  rw [hdue] at h
  exact absurd h (by decide)

theorem natCast_le_due {n : Nat} (hdue : 0 < ⌊due s now⌋.toNat) (h : n ≤ ⌊due s now⌋.toNat) :
    (n : ℚ) ≤ due s now := by
  have hfloor : (n : Int) ≤ ⌊due s now⌋ := by omega
  exact_mod_cast Int.le_floor.mp hfloor

/-! ## the points that a tick takes away -/

theorem removed_eq_taken (hplaying : s.playbackState = .playing) :
    removed s (playbackSection s now).1 = taken s now := by
  obtain ⟨_, _, hbuffer, _⟩ := @playbackSection_taken s now hplaying
  rw [removed, hbuffer, List.length_drop, taken, List.take_eq_take_iff]
  omega

theorem removed_append (hplaying : s.playbackState = .playing) :
    removed s (playbackSection s now).1 ++ (playbackSection s now).1.pointBuffer = s.pointBuffer := by
  rw [removed_eq_taken hplaying, (@playbackSection_taken s now hplaying).2.2.1]
  exact List.take_append_drop _ _

/-- the rates of all but the last of the points that are taken away -/
theorem removed_dropLast_rates (hplaying : s.playbackState = .playing) {n : Nat}
    (hn : n + 1 = min ⌊due s now⌋.toNat s.pointBuffer.length) :
    ratesInForce s.pointRate s.pointRateQueue (removed s (playbackSection s now).1).dropLast =
      (bufferedRates s).take n := by
  have hlast : (taken s now).dropLast = s.pointBuffer.take n := by
    rw [taken, List.dropLast_eq_take, List.length_take, List.take_take]
    congr 1
    omega
  rw [removed_eq_taken hplaying, hlast]
  exact ratesInForce_take _ _ _ _

theorem removed_ne_nil (hplaying : s.playbackState = .playing) :
    removed s (playbackSection s now).1 ≠ [] ↔
      ∃ n, n + 1 = min ⌊due s now⌋.toNat s.pointBuffer.length := by
  rw [removed_eq_taken hplaying, ← List.length_pos_iff, taken, List.length_take]
  constructor
  · intro h
    exact ⟨min ⌊due s now⌋.toNat s.pointBuffer.length - 1, by omega⟩
  · rintro ⟨n, hn⟩
    omega

/-- **One tick** is timely exactly if the slowdown fits. -/
theorem timely_iff_slowdown (hplaying : s.playbackState = .playing) :
    Timely s now ↔ SlowdownFits s now := by
  obtain ⟨_, _, _, hidle⟩ := @playbackSection_taken s now hplaying
  constructor
  · rintro ⟨_, hearly, hshort⟩
    refine ⟨fun n hn => ?_, fun hfew => ?_⟩
    · have hdue : 0 < ⌊due s now⌋.toNat := by omega
      have hrate : 0 < s.pointRate := pointRate_pos_of_due hdue
      have htime := hearly ((removed_ne_nil hplaying).mpr ⟨n, hn⟩)
      rw [removed_dropLast_rates hplaying hn, credited_eq hrate, playingTime_le_iff hrate,
        List.length_take, bufferedRates_length, Nat.min_eq_left (by omega)] at htime
      exact htime
    · have hrate : 0 < s.pointRate := pointRate_pos_of_due (Nat.zero_lt_of_lt hfew)
      have htime := hshort (hidle.mpr hfew)
      rw [credited_eq hrate, playingTime_lt_iff hrate, bufferedRates_length] at htime
      exact htime
  · rintro ⟨htaken, hfits⟩
    refine ⟨removed_append hplaying, fun hsome => ?_, fun hstopped => ?_⟩
    · obtain ⟨n, hn⟩ := (removed_ne_nil hplaying).mp hsome
      have hdue : 0 < ⌊due s now⌋.toNat := by omega
      have hrate : 0 < s.pointRate := pointRate_pos_of_due hdue
      rw [removed_dropLast_rates hplaying hn, credited_eq hrate, playingTime_le_iff hrate,
        List.length_take, bufferedRates_length, Nat.min_eq_left (by omega)]
      exact htaken n hn
    · have hfew := hidle.mp hstopped
      have hrate : 0 < s.pointRate := pointRate_pos_of_due (Nat.zero_lt_of_lt hfew)
      rw [credited_eq hrate, playingTime_lt_iff hrate, bufferedRates_length]
      exact hfits hfew

/-! ## the rates that come into force -/

/-- a rate that is not below the current one slows nothing down -/
theorem RatesFit.of_le (hrate : 0 < s.pointRate) (h : ∀ rate ∈ bufferedRates s, s.pointRate ≤ rate) :
    RatesFit s := by
  constructor
  · intro k _
    have hslow : slowdown s.pointRate ((bufferedRates s).take k) ≤ 0 :=
      slowdown_nonpos hrate fun rate hmem => h rate (List.mem_of_mem_take hmem)
    linarith
  · have hslow := slowdown_nonpos hrate h
    linarith

theorem RatesFit.slowdownFits (h : RatesFit s) : SlowdownFits s now where
  taken_fits n hn := by
    have hdue : ((n + 1 : Nat) : ℚ) ≤ due s now := natCast_le_due (by omega) (by omega)
    have hslow := h.1 n (by omega)
    push_cast at hdue
    linarith
  buffered_fits hfew := by
    have hdue : ((s.pointBuffer.length + 1 : Nat) : ℚ) ≤ due s now :=
      natCast_le_due (by omega) hfew
    have hslow := h.2
    push_cast at hdue
    linarith

theorem TickedAt.ratesFit {t : DeviceState} (ht : TickedAt s t now) : RatesFit t ↔ RatesFit s := by
  unfold RatesFit bufferedRates
  rw [ht.pointRate, ht.pointRateQueue, ht.pointBuffer]

/-- **Any number of points falls due on its own**: at a rate of at most a million points a second, some
time and some fraction that is carried over make up `n` points and nothing beyond them. -/
theorem exists_tick_due (s : DeviceState) (hrate : 0 < s.pointRate) (hslow : s.pointRate ≤ 1000000)
    (n : Nat) : ∃ t now, TickedAt s t now ∧ due t now = n := by
  have hpos : (0 : ℚ) < (s.pointRate : ℚ) := Nat.cast_pos.mpr hrate
  -- the whole microseconds that `n` points last
  obtain ⟨micros, hmicros⟩ : ∃ micros, micros = n * 1000000 / s.pointRate := ⟨_, rfl⟩
  have hle : micros * s.pointRate ≤ n * 1000000 := by
    rw [hmicros]
    exact Nat.div_mul_le_self _ _
  have hlt : n * 1000000 < micros * s.pointRate + s.pointRate := by
    rw [hmicros, ← Nat.succ_mul, Nat.mul_comm (Nat.succ _)]
    exact Nat.lt_mul_div_succ _ hrate
  have hle' : (micros : ℚ) * (s.pointRate : ℚ) ≤ (n : ℚ) * 1000000 := by exact_mod_cast hle
  have hlt' : (n : ℚ) * 1000000 < (micros : ℚ) * (s.pointRate : ℚ) + 1000000 := by
    have hslow' : (s.pointRate : ℚ) ≤ 1000000 := by exact_mod_cast hslow
    have h : (n : ℚ) * 1000000 < (micros : ℚ) * (s.pointRate : ℚ) + (s.pointRate : ℚ) := by
      exact_mod_cast hlt
    linarith
  refine ⟨{ s with
      playbackState := .playing
      playbackClockValid := true
      lastPlaybackAt := 0
      playbackAccumulator := (n : ℚ) - (micros : ℚ) * (s.pointRate : ℚ) / 1000000 },
    (micros : Int) * 1000, ⟨rfl, rfl, rfl, rfl, ⟨?_, ?_⟩, ?_⟩, ?_⟩
  · show (0 : ℚ) ≤ (n : ℚ) - (micros : ℚ) * (s.pointRate : ℚ) / 1000000
    linarith
  · show (n : ℚ) - (micros : ℚ) * (s.pointRate : ℚ) / 1000000 < 1
    linarith
  · show (0 : Int) ≤ (micros : Int) * 1000
    omega
  · have helapsed : ((micros : Int) * 1000 - 0).tdiv 1000 = micros := by
      rw [Int.sub_zero, Int.mul_tdiv_cancel _ (by decide)]
    unfold due accumulated
    rw [if_neg (by simpa using hrate.ne')]
    simp only [helapsed]
    push_cast
    ring

/-- rates that do not fit make some tick early, or short of points -/
theorem ratesFit_of_timely (hrate : 0 < s.pointRate) (hslow : s.pointRate ≤ 1000000)
    (h : ∀ t now, TickedAt s t now → Timely t now) : RatesFit s := by
  have hfits : ∀ n : Nat, ∃ t now, TickedAt s t now ∧ due t now = n ∧ SlowdownFits t now := by
    intro n
    obtain ⟨t, now, ht, hdue⟩ := exists_tick_due s hrate hslow n
    exact ⟨t, now, ht, hdue, (timely_iff_slowdown ht.playing).mp (h t now ht)⟩
  have hsame : ∀ {t now}, TickedAt s t now → bufferedRates t = bufferedRates s := by
    intro t now ht
    unfold bufferedRates
    rw [ht.pointRate, ht.pointRateQueue, ht.pointBuffer]
  constructor
  · intro k hk
    obtain ⟨t, now, ht, hdue, hfit⟩ := hfits (k + 1)
    have htaken := hfit.taken_fits k (by
      rw [hdue, Int.floor_natCast, Int.toNat_natCast, ht.pointBuffer]
      omega)
    rw [hdue, hsame ht, ht.pointRate] at htaken
    push_cast at htaken
    linarith
  · obtain ⟨t, now, ht, hdue, hfit⟩ := hfits (s.pointBuffer.length + 1)
    have hshort := hfit.buffered_fits (by
      rw [hdue, Int.floor_natCast, Int.toNat_natCast, ht.pointBuffer]
      omega)
    rw [hdue, hsame ht, ht.pointRate, ht.pointBuffer] at hshort
    push_cast at hshort
    linarith

end

/-- **When ticks are timely.**  A playing device whose rates fit has no tick that is early or runs out of
points too soon, whatever the time since the last one and the fraction it has carried over; and at up to
a million points a second, where that is so the rates fit.  They do unless a rate below the current one
comes into force.  One tick at one time is timely exactly if the slowdown fits what is due. -/
theorem timely_iff (s : DeviceState) (hplaying : s.playbackState = .playing) (hrate : 0 < s.pointRate) :
    (RatesFit s → ∀ t now, TickedAt s t now → Timely t now) ∧
      (s.pointRate ≤ 1000000 →
        ((∀ t now, TickedAt s t now → Timely t now) ↔ RatesFit s)) ∧
      ((∀ rate ∈ bufferedRates s, s.pointRate ≤ rate) → RatesFit s) ∧
      ∀ now, Timely s now ↔ SlowdownFits s now := by
  have hfits : RatesFit s → ∀ t now, TickedAt s t now → Timely t now := by
    intro h t now ht
    exact (timely_iff_slowdown ht.playing).mpr (ht.ratesFit.mpr h).slowdownFits
  refine ⟨hfits, ?_, RatesFit.of_le hrate, fun now => timely_iff_slowdown hplaying⟩
  intro hslow
  exact ⟨ratesFit_of_timely hrate hslow, hfits⟩

/-- a point that carries no rate change, and one that does -/
def plainPoint : BufferedPoint := ⟨⟨0, 0, 0, 0, 0, 0, 0, 0⟩, 0⟩
def changePoint : BufferedPoint := ⟨⟨0, 0, 0, 0, 0, 0, 0, 0⟩, rateChangeBit⟩

/-- a device that plays these points at `rate`, with the clock set at zero and one rate in its queue -/
def playingAt (rate next : Nat) (points : List BufferedPoint) : DeviceState :=
  ([.connect, .command .prepare, .command (.data points), .command (.begin false rate),
    .command (.rateChange next), .tick 0].foldl (Device.step defaultOptions) {}).state

/-- two points at 1000 and then one at 500, and a tick after two milliseconds -/
theorem slice_rates_two :
    let s := playingAt 1000 500 [plainPoint, plainPoint, changePoint]
    ∀ slice, playbackSubmission defaultOptions (playbackSection s 2000000).1.pointRate
        (playbackSection s 2000000).2 = some (.submitContinuous slice) →
      slice.effectivePointRate = some 1000 := by
  intro s slice hslice
  have h := (slice_rates_iff defaultOptions (s := s) (by decide +kernel) (by decide +kernel) 2000000).mpr
    (by decide +kernel) slice hslice
  exact h.2 1000 (by decide +kernel)

/-- A tick that crosses a rate change submits the point before it at the rate behind it. -/
theorem slice_mixes_rates :
    let s := playingAt 1000 500 [plainPoint, changePoint, plainPoint]
    s.playbackState = .playing ∧ takenRates s 2000000 = [1000, 500] ∧
      playbackSubmission defaultOptions (playbackSection s 2000000).1.pointRate
        (playbackSection s 2000000).2 = some (.submitContinuous {
          points := [plainPoint.point, changePoint.point]
          durationUs := 4000
          effectivePointRate := some 500 }) := by
  decide +kernel

/-- half the rate comes into force for the last point of three, whenever the tick comes -/
theorem timely_slower :
    let s := playingAt 1000 501 [plainPoint, plainPoint, changePoint]
    ∀ t now, TickedAt s t now → Timely t now :=
  (timely_iff (playingAt 1000 501 [plainPoint, plainPoint, changePoint]) (by decide +kernel)
    (by decide +kernel)).1 (by decide +kernel)

/-- Two points that last 20 milliseconds at the rate that comes into force are taken after one, and the
device stops. -/
theorem slow_rate_underflows :
    let s := playingAt 3000 100 [changePoint, plainPoint]
    s.playbackState = .playing ∧ ¬ Timely s 1000000 ∧
      (playbackSection s 1000000).1.playbackState = .idle ∧
      (playbackSection s 1000000).1.underflowFlag = true ∧
      removed s (playbackSection s 1000000).1 = s.pointBuffer ∧
      playingTime (bufferedRates s) = 1 / 50 ∧ credited s 1000000 = 1 / 1000 := by
  intro s
  have hidle : (playbackSection s 1000000).1.playbackState = .idle := by decide +kernel
  have htime : playingTime (bufferedRates s) = 1 / 50 := by decide +kernel
  have hcredited : credited s 1000000 = 1 / 1000 := by decide +kernel
  refine ⟨by decide +kernel, ?_, hidle, by decide +kernel, by decide +kernel, htime, hcredited⟩
  intro h
  have hlasts := h.not_short hidle
  rw [htime, hcredited] at hlasts
  exact absurd hlasts (by decide +kernel)

end LiberaLink.EtherDream
