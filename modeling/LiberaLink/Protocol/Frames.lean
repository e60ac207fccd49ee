import LiberaLink.Protocol.Ownership
import LiberaLink.Protocol.Session

/-!
# Frames by count

A marker announces a frame of so many points, and the records behind it bring them in any pieces.

* `Interim`, `recordPoints`     the records that may come between a marker and its last point, and the
  points they bring;
* `Collecting`                  a session with a part of a frame;
* `Collecting.receive`, `.complete`, `.overfull`, `.interrupted`   what the next record makes of it;
* `frame_by_count`              **one frame with the announced points, or none of them**.
-/

namespace LiberaLink.Protocol

/-! ## what a session submits -/

/-- the calls that hand points to a target -/
def submits : SinkCall → Bool
  | .submitContinuous _ => true
  | .replaceFrame _ => true
  | .submitFrame _ => true
  | .setScannerSync _ _ => false
  | .reset => false

def Session.submissions (x : Session) : List SinkCall := x.calls.filter submits

section
variable {srv : TargetServer} {x : Session}

/-- a session that has ended takes no record -/
theorem Session.ended (h : x.alive = false) (records : List (Record × Bool)) :
    records.foldl (Session.receive srv) x = x := by
  induction records with
  | nil => rfl
  | cons r records ih =>
    rw [List.foldl_cons, Session.receive, h]
    exact ih

/-- one record of a session that goes on -/
theorem Session.receive_alive (h : x.alive = true) (r : Record × Bool) : x.receive srv r =
    { state := (handleRecord srv x.state r.1 r.2).state
      alive := (handleRecord srv x.state r.1 r.2).ok
      calls := x.calls ++ (handleRecord srv x.state r.1 r.2).call.toList } := by
  rw [Session.receive, if_pos h]

theorem Session.receive_submissions (h : x.alive = true) (r : Record × Bool) :
    (x.receive srv r).submissions = x.submissions ++
      (handleRecord srv x.state r.1 r.2).call.toList.filter submits := by
  rw [Session.receive_alive h]
  exact List.filter_append _ _

end

/-- Two sessions that differ in other calls than submissions. -/
structure Alike (x y : Session) : Prop where
  state : x.state = y.state
  alive : x.alive = y.alive
  submissions : x.submissions = y.submissions

theorem Alike.receive {srv : TargetServer} {x y : Session} (h : Alike x y) (r : Record × Bool) :
    Alike (x.receive srv r) (y.receive srv r) := by
  cases hx : x.alive with
  | false =>
    have hy : y.alive = false := h.alive ▸ hx
    rw [show x.receive srv r = x from Session.ended hx [r],
      show y.receive srv r = y from Session.ended hy [r]]
    exact h
  | true =>
    have hy : y.alive = true := h.alive ▸ hx
    refine ⟨?_, ?_, ?_⟩
    · rw [Session.receive_alive hx, Session.receive_alive hy, h.state]
    · rw [Session.receive_alive hx, Session.receive_alive hy, h.state]
    · rw [Session.receive_submissions hx, Session.receive_submissions hy, h.state, h.submissions]

theorem Alike.records {srv : TargetServer} {x y : Session} (h : Alike x y)
    (records : List (Record × Bool)) : Alike (records.foldl (Session.receive srv) x)
      (records.foldl (Session.receive srv) y) := by
  induction records generalizing x y with
  | nil => exact h
  | cons r records ih =>
    rw [List.foldl_cons, List.foldl_cons]
    exact ih (h.receive r)

/-! ## the records of a frame -/

section
variable (srv : TargetServer) (userChannelCount : Nat)

/-- the points that a record brings -/
def recordPoints (r : Record × Bool) : List LaserPoint :=
  match r.1.type with
  | .points => match srv.codec.decodePointSamples r.1.payload userChannelCount with
    | .ok samples => toLaserPoints srv.codec samples
    | .error _ => []
  | _ => []

/-- The records that end neither the session nor a pending frame: points and scanner settings that
decode, pings that are answered, and the types that a session ignores. -/
def Interim (r : Record × Bool) : Prop :=
  match r.1.type with
  | .points => ∃ samples, srv.codec.decodePointSamples r.1.payload userChannelCount = .ok samples
  | .setScannerSync => ∃ scannerSync, srv.codec.decodeScannerSync r.1.payload = .ok scannerSync
  | .ping => r.1.payload.length = 8 ∧ r.2 = true
  | .streamConfig => False
  | .frameMarker => False
  | .close => False
  | _ => True

end

theorem recordPoints_aside {srv : TargetServer} {userChannelCount : Nat} {r : Record × Bool}
    (htype : r.1.type ≠ .points) : recordPoints srv userChannelCount r = [] := by
  unfold recordPoints
  split
  · rename_i hpoints
    exact absurd hpoints htype
  · rfl

/-- What a record makes of a pending frame, if it is not one that brings points to it. -/
theorem handleRecord_aside {srv : TargetServer} {state : SessionState} {r : Record × Bool}
    (hr : Interim srv state.userChannelCount r) (htype : r.1.type ≠ .points) :
    let handled := handleRecord srv state r.1 r.2
    handled.ok = true ∧ handled.state = state ∧ handled.call.toList.filter submits = [] := by
  intro handled
  show (handleRecord srv state r.1 r.2).ok = true ∧ (handleRecord srv state r.1 r.2).state = state ∧
    (handleRecord srv state r.1 r.2).call.toList.filter submits = []
  unfold Interim at hr
  unfold handleRecord
  cases hkind : r.1.type with
  | points => exact absurd hkind htype
  | streamConfig => rw [hkind] at hr; exact absurd hr not_false
  | frameMarker => rw [hkind] at hr; exact absurd hr not_false
  | close => rw [hkind] at hr; exact absurd hr not_false
  | setScannerSync =>
    rw [hkind] at hr
    obtain ⟨scannerSync, hdecoded⟩ := hr
    simp only [handleScannerSync, hdecoded]
    cases srv.sink with
    | none => exact ⟨trivial, trivial, rfl⟩
    | some info => exact ⟨trivial, trivial, rfl⟩
  | ping =>
    rw [hkind] at hr
    simp only
    rw [if_pos hr.1]
    exact ⟨hr.2, rfl, rfl⟩
  | _ => exact ⟨rfl, rfl, rfl⟩

/-! ## a session with a part of a frame -/

/-- the rate of a marked frame -/
def markedRate (srv : TargetServer) (state : SessionState) (marker : FrameMarker) : Nat :=
  if marker.pointRate ≠ 0 then srv.clampPointRate marker.pointRate else state.pointRate

/-- the pending frame of a session that was in `state` before the marker -/
def pendingOf (state : SessionState) (marker : FrameMarker) (points : List LaserPoint) : PendingFrame where
  marker := marker
  points := points
  targetBeginTime := frameBeginTime state.sessionStartedAt marker.targetBeginTimeNs

/-- the state of a session with these points of a frame -/
def collecting (srv : TargetServer) (state : SessionState) (marker : FrameMarker)
    (points : List LaserPoint) : SessionState :=
  { state with
    pendingFrame := some (pendingOf state marker points)
    pointRate := markedRate srv state marker }

/-- the submission of a whole frame -/
def frameOf (srv : TargetServer) (state : SessionState) (marker : FrameMarker)
    (points : List LaserPoint) : SinkCall :=
  let rate := markedRate srv state marker
  .submitFrame {
    slices := [{
      points := points
      durationUs := pointDurationUs points.length rate
      effectivePointRate := some rate }]
    effectivePointRate := some rate
    targetBeginTime := frameBeginTime state.sessionStartedAt marker.targetBeginTimeNs }

/-- The session `y` came from `x` by a marker and records that brought these points. -/
structure Collecting (srv : TargetServer) (x : Session) (marker : FrameMarker)
    (points : List LaserPoint) (y : Session) : Prop where
  alive : y.alive = true
  state : y.state = collecting srv x.state marker points
  submissions : y.submissions = x.submissions
  mode : x.state.streamMode = .frameByCount

section
variable {srv : TargetServer} {x y : Session} {marker : FrameMarker} {points : List LaserPoint}
  {r : Record × Bool}

/-- an accepted marker -/
theorem Collecting.marked (halive : x.alive = true) (htype : r.1.type = .frameMarker)
    (hdecoded : srv.codec.decodeFrameMarker r.1.payload = .ok marker)
    (haccepted : (x.receive srv r).alive = true) :
    Collecting srv x marker [] (x.receive srv r) := by
  have hhandled : handleRecord srv x.state r.1 r.2 = handleFrameMarker srv x.state r.1 := by
    rw [handleRecord, htype]
  have hmarker : (handleFrameMarker srv x.state r.1).ok = true →
      (handleFrameMarker srv x.state r.1).state = collecting srv x.state marker [] ∧
      (handleFrameMarker srv x.state r.1).call = none ∧ x.state.streamMode = .frameByCount := by
    intro hok
    unfold handleFrameMarker at hok ⊢
    rw [hdecoded] at hok ⊢
    simp only at hok ⊢
    by_cases hcount : marker.framePointCount = 0 ∨ marker.framePointCount > srv.options.maxFramePoints
    · rw [if_pos hcount] at hok
      cases hok
    · by_cases hmode : x.state.streamMode ≠ .frameByCount ∨ x.state.pendingFrame.isSome
      · rw [if_neg hcount, if_pos hmode] at hok
        cases hok
      · rw [if_neg hcount, if_neg hmode]
        exact ⟨rfl, rfl, by_contra fun h => hmode (.inl h)⟩
  rw [Session.receive_alive halive, hhandled] at haccepted ⊢
  obtain ⟨hstate, hcall, hmode⟩ := hmarker haccepted
  refine ⟨haccepted, hstate, ?_, hmode⟩
  rw [hcall]
  exact (List.filter_append _ _).trans (List.append_nil _)

/-- a record that brings points goes to the pending frame -/
theorem handleRecord_points (hr : Interim srv x.state.userChannelCount r) (htype : r.1.type = .points) :
    handleRecord srv (collecting srv x.state marker points) r.1 r.2 =
      appendFramePoints srv (collecting srv x.state marker points) (pendingOf x.state marker points)
        (recordPoints srv x.state.userChannelCount r) := by
  unfold Interim at hr
  rw [htype] at hr
  obtain ⟨samples, hdecoded⟩ := hr
  have hchannels : srv.codec.decodePointSamples r.1.payload
      (collecting srv x.state marker points).userChannelCount = .ok samples := hdecoded
  unfold handleRecord recordPoints
  rw [htype]
  simp only [hdecoded]
  unfold handlePoints
  rw [hchannels]
  rfl

theorem submitPendingFrame_collecting (hsink : srv.sink.isSome) (hsome : points ≠ [])
    (before : List LaserPoint) :
    submitPendingFrame srv (collecting srv x.state marker before) (pendingOf x.state marker points) =
      some (frameOf srv x.state marker points) := by
  have hsubmits : ¬ (srv.sink.isNone = true ∨ points = []) := by
    rintro (hnone | hempty)
    · rw [Option.isNone_iff_eq_none] at hnone
      rw [hnone] at hsink
      cases hsink
    · exact hsome hempty
  have hrate : (if (pendingOf x.state marker points).marker.pointRate ≠ 0
      then srv.clampPointRate (pendingOf x.state marker points).marker.pointRate
      else (collecting srv x.state marker before).pointRate) = markedRate srv x.state marker := by
    show (if marker.pointRate ≠ 0 then _ else markedRate srv x.state marker) = _
    unfold markedRate
    split <;> rfl
  unfold submitPendingFrame
  simp only
  rw [if_neg (by exact hsubmits), hrate]
  rfl

/-- What any other record makes of a session with a part of a frame: it ends, or goes on in a state
that has forgotten the frame. -/
theorem handleRecord_interrupts (marker : FrameMarker) (hr : ¬ Interim srv x.state.userChannelCount r) :
    ∃ after : Option SessionState, ∀ points,
      let handled := handleRecord srv (collecting srv x.state marker points) r.1 r.2
      handled.call = none ∧ handled.ok = after.isSome ∧
        ∀ state, after = some state → handled.state = state ∧ state.pendingFrame = none := by
  have hends : (∀ points, (handleRecord srv (collecting srv x.state marker points) r.1 r.2).call = none ∧
      (handleRecord srv (collecting srv x.state marker points) r.1 r.2).ok = false) →
      ∃ after : Option SessionState, ∀ points,
        let handled := handleRecord srv (collecting srv x.state marker points) r.1 r.2
        handled.call = none ∧ handled.ok = after.isSome ∧
          ∀ state, after = some state → handled.state = state ∧ state.pendingFrame = none := by
    intro h
    refine ⟨none, fun points => ⟨(h points).1, (h points).2, ?_⟩⟩
    intro state hsome
    cases hsome
  unfold Interim at hr
  unfold handleRecord at hends ⊢
  cases hkind : r.1.type with
  | streamConfig =>
    rw [hkind] at hends
    simp only [handleStreamConfig] at hends ⊢
    cases hconfig : srv.codec.decodeStreamConfig r.1.payload with
    | error e =>
      rw [hconfig] at hends
      exact hends fun _ => ⟨rfl, rfl⟩
    | ok config =>
      refine ⟨some (handleStreamConfig srv (collecting srv x.state marker []) r.1).state, ?_⟩
      intro points
      refine ⟨rfl, rfl, ?_⟩
      intro state hstate
      obtain rfl := Option.some.inj hstate
      unfold handleStreamConfig
      rw [hconfig]
      exact ⟨rfl, rfl⟩
  | frameMarker =>
    rw [hkind] at hends
    apply hends
    intro points
    have hpending : (collecting srv x.state marker points).streamMode ≠ .frameByCount ∨
        (collecting srv x.state marker points).pendingFrame.isSome = true := .inr rfl
    simp only [handleFrameMarker]
    split
    · exact ⟨rfl, rfl⟩
    · split
      · exact ⟨rfl, rfl⟩
      · exact ⟨rfl, rfl⟩
  | points =>
    rw [hkind] at hr hends
    apply hends
    intro points
    simp only [handlePoints]
    cases hsamples : srv.codec.decodePointSamples r.1.payload
        (collecting srv x.state marker points).userChannelCount with
    | error e => exact ⟨rfl, rfl⟩
    | ok samples => exact absurd ⟨samples, hsamples⟩ hr
  | setScannerSync =>
    rw [hkind] at hr hends
    apply hends
    intro points
    simp only [handleScannerSync]
    cases hsync : srv.codec.decodeScannerSync r.1.payload with
    | error e => exact ⟨rfl, rfl⟩
    | ok scannerSync => exact absurd ⟨scannerSync, hsync⟩ hr
  | ping =>
    rw [hkind] at hr hends
    apply hends
    intro points
    simp only
    split
    · rename_i hlength
      exact ⟨rfl, Bool.eq_false_of_not_eq_true fun h => hr ⟨hlength, h⟩⟩
    · exact ⟨rfl, rfl⟩
  | close =>
    rw [hkind] at hends
    exact hends fun _ => ⟨rfl, rfl⟩
  | _ =>
    rw [hkind] at hr
    exact absurd trivial hr

/-- points that do not leave the frame short come in a record of points -/
theorem points_type_of_full (hshort : points.length < marker.framePointCount)
    (hfull : marker.framePointCount ≤
      (points ++ recordPoints srv x.state.userChannelCount r).length) : r.1.type = .points := by
  by_contra htype
  rw [recordPoints_aside htype, List.append_nil] at hfull
  omega

variable (h : Collecting srv x marker points y)
include h

/-- **Points that leave the frame short** are collected, and other records leave it alone. -/
theorem Collecting.receive (hr : Interim srv x.state.userChannelCount r)
    (hshort : (points ++ recordPoints srv x.state.userChannelCount r).length < marker.framePointCount) :
    Collecting srv x marker (points ++ recordPoints srv x.state.userChannelCount r)
      (y.receive srv r) := by
  by_cases htype : r.1.type = .points
  · have hhandled : handleRecord srv y.state r.1 r.2 = {
        ok := true
        state := collecting srv x.state marker
          (points ++ recordPoints srv x.state.userChannelCount r) } := by
      rw [h.state, handleRecord_points hr htype]
      rw [List.length_append] at hshort
      unfold appendFramePoints
      simp only [pendingOf, List.length_append]
      rw [if_neg (by omega), if_neg (by omega)]
      rfl
    rw [Session.receive_alive h.alive, hhandled]
    refine ⟨rfl, rfl, ?_, h.mode⟩
    rw [← h.submissions]
    exact congrArg (List.filter submits) (List.append_nil _)
  · have hr' : Interim srv y.state.userChannelCount r := by
      rw [h.state]
      exact hr
    obtain ⟨hok, hstate, hcall⟩ := handleRecord_aside hr' htype
    rw [recordPoints_aside htype, List.append_nil]
    refine ⟨?_, ?_, ?_, h.mode⟩
    · rw [Session.receive_alive h.alive]
      exact hok
    · rw [Session.receive_alive h.alive]
      exact hstate.trans h.state
    · rw [Session.receive_submissions h.alive, hcall, List.append_nil]
      exact h.submissions

/-- **The last points** complete the frame, and it is submitted. -/
theorem Collecting.complete (hsink : srv.sink.isSome) (hr : Interim srv x.state.userChannelCount r)
    (hshort : points.length < marker.framePointCount)
    (hfull : (points ++ recordPoints srv x.state.userChannelCount r).length = marker.framePointCount) :
    (y.receive srv r).alive = true ∧ (y.receive srv r).state.pendingFrame = none ∧
      (y.receive srv r).state.streamMode = .frameByCount ∧
      (y.receive srv r).state.userChannelCount = x.state.userChannelCount ∧
      (y.receive srv r).submissions = x.submissions ++
        [frameOf srv x.state marker (points ++ recordPoints srv x.state.userChannelCount r)] := by
  have htype := points_type_of_full hshort (Nat.le_of_eq hfull.symm)
  have hsome : points ++ recordPoints srv x.state.userChannelCount r ≠ [] := by
    apply List.length_pos_iff.mp
    omega
  have hsubmit : submitPendingFrame srv (collecting srv x.state marker points) _ = _ :=
    submitPendingFrame_collecting hsink hsome points
  have hhandled : handleRecord srv y.state r.1 r.2 = {
      ok := true
      state := { collecting srv x.state marker points with pendingFrame := none }
      call := some (frameOf srv x.state marker
        (points ++ recordPoints srv x.state.userChannelCount r)) } := by
    rw [h.state, handleRecord_points hr htype, ← hsubmit]
    rw [List.length_append] at hfull
    unfold appendFramePoints
    simp only [pendingOf, List.length_append]
    rw [if_neg (by omega), if_pos hfull]
  rw [Session.receive_submissions h.alive, Session.receive_alive h.alive, hhandled, h.submissions]
  exact ⟨rfl, rfl, h.mode, rfl, rfl⟩

/-- **Points beyond the frame** end the session, and nothing is submitted. -/
theorem Collecting.overfull (hr : Interim srv x.state.userChannelCount r)
    (hshort : points.length < marker.framePointCount)
    (hover : marker.framePointCount < (points ++ recordPoints srv x.state.userChannelCount r).length) :
    (y.receive srv r).alive = false ∧ (y.receive srv r).submissions = x.submissions := by
  have htype := points_type_of_full hshort (Nat.le_of_lt hover)
  have hhandled : handleRecord srv y.state r.1 r.2 = {
      ok := false
      state := collecting srv x.state marker points } := by
    rw [h.state, handleRecord_points hr htype]
    rw [List.length_append] at hover
    unfold appendFramePoints
    have hrefused : marker.framePointCount = 0 ∨ points.length > marker.framePointCount ∨
        (recordPoints srv x.state.userChannelCount r).length >
          marker.framePointCount - points.length := by omega
    simp only
    rw [if_pos (by exact hrefused)]
  rw [Session.receive_submissions h.alive, Session.receive_alive h.alive, hhandled, h.submissions]
  exact ⟨rfl, List.append_nil _⟩

/-- **Any other record** ends the session or makes it forget the frame: from there on it submits what
it would submit if the points had never come. -/
theorem Collecting.interrupted {y₀ : Session} (h₀ : Collecting srv x marker [] y₀)
    (hr : ¬ Interim srv x.state.userChannelCount r) :
    (y.receive srv r).submissions = x.submissions ∧
      ((y.receive srv r).alive = true → (y.receive srv r).state.pendingFrame = none) ∧
      ∀ later : List (Record × Bool), ((r :: later).foldl (Session.receive srv) y).submissions =
        ((r :: later).foldl (Session.receive srv) y₀).submissions := by
  obtain ⟨after, hafter⟩ := handleRecord_interrupts marker hr
  have hreceived : ∀ {points z}, Collecting srv x marker points z →
      (z.receive srv r).submissions = x.submissions ∧ (z.receive srv r).alive = after.isSome ∧
        ∀ state, after = some state →
          (z.receive srv r).state = state ∧ state.pendingFrame = none := by
    intro points z hz
    obtain ⟨hcall, hok, hstate⟩ := hafter points
    rw [Session.receive_submissions hz.alive, Session.receive_alive hz.alive, hz.state, hcall,
      hz.submissions]
    exact ⟨List.append_nil _, hok, hstate⟩
  obtain ⟨hquiet, halive, hstate⟩ := hreceived h
  obtain ⟨hquiet₀, halive₀, hstate₀⟩ := hreceived h₀
  cases after with
  | none =>
    refine ⟨hquiet, fun h => absurd (halive.symm.trans h) Bool.false_ne_true, ?_⟩
    intro later
    rw [List.foldl_cons, List.foldl_cons, Session.ended halive, Session.ended halive₀, hquiet, hquiet₀]
  | some state =>
    obtain ⟨hsame, hforgot⟩ := hstate state rfl
    refine ⟨hquiet, fun _ => hsame ▸ hforgot, ?_⟩
    intro later
    have halike : Alike (y.receive srv r) (y₀.receive srv r) :=
      ⟨hsame.trans (hstate₀ state rfl).1.symm, halive.trans halive₀.symm, hquiet.trans hquiet₀.symm⟩
    exact (halike.records later).submissions

/-- **Records that leave the frame short** are collected in their order. -/
theorem Collecting.records (records : List (Record × Bool))
    (hrecords : ∀ q ∈ records, Interim srv x.state.userChannelCount q)
    (hshort : (points ++ records.flatMap (recordPoints srv x.state.userChannelCount)).length <
      marker.framePointCount) :
    Collecting srv x marker (points ++ records.flatMap (recordPoints srv x.state.userChannelCount))
      (records.foldl (Session.receive srv) y) := by
  induction records generalizing points y with
  | nil =>
    rw [List.flatMap_nil, List.append_nil]
    exact h
  | cons q records ih =>
    rw [List.flatMap_cons, ← List.append_assoc] at hshort ⊢
    rw [List.foldl_cons]
    apply ih
    · apply h.receive (hrecords q List.mem_cons_self)
      rw [List.length_append] at hshort
      omega
    · exact fun q' hq' => hrecords q' (List.mem_cons_of_mem _ hq')
    · exact hshort

end

/-- A session in which points are refused: it has ended, or it waits for a marker. -/
def Waiting (channels : Nat) (y : Session) : Prop :=
  y.alive = true → y.state.pendingFrame = none ∧ y.state.streamMode = .frameByCount ∧
    y.state.userChannelCount = channels

theorem Waiting.records {srv : TargetServer} {channels : Nat} {y : Session} (h : Waiting channels y)
    (records : List (Record × Bool)) (hrecords : ∀ q ∈ records, Interim srv channels q) :
    (records.foldl (Session.receive srv) y).submissions = y.submissions := by
  induction records generalizing y with
  | nil => rfl
  | cons q records ih =>
    have hq : Interim srv channels q := hrecords q List.mem_cons_self
    have hrest : ∀ q' ∈ records, Interim srv channels q' :=
      fun q' hq' => hrecords q' (List.mem_cons_of_mem _ hq')
    rw [List.foldl_cons]
    cases halive : y.alive with
    | false =>
      rw [show y.receive srv q = y from Session.ended halive [q], Session.ended halive]
    | true =>
      obtain ⟨hpending, hmode, rfl⟩ := h halive
      by_cases htype : q.1.type = .points
      · -- points without a marker end the session
        have hhandled : (handleRecord srv y.state q.1 q.2).ok = false ∧
            (handleRecord srv y.state q.1 q.2).call = none := by
          unfold handleRecord
          rw [htype]
          simp only [handlePoints]
          split
          · exact ⟨rfl, rfl⟩
          · rw [hpending]
            simp only
            rw [if_pos hmode]
            exact ⟨rfl, rfl⟩
        have hended : (y.receive srv q).alive = false := by
          rw [Session.receive_alive halive]
          exact hhandled.1
        rw [Session.ended hended, Session.receive_submissions halive, hhandled.2]
        exact List.append_nil _
      · obtain ⟨_, hstate, hcall⟩ := handleRecord_aside hq htype
        have hwaiting : Waiting y.state.userChannelCount (y.receive srv q) := by
          intro _
          rw [Session.receive_alive halive, hstate]
          exact ⟨hpending, hmode, rfl⟩
        rw [ih hwaiting hrest, Session.receive_submissions halive, hcall]
        exact List.append_nil _

/-- **A frame by count.**  Behind an accepted marker, and records that leave the frame short in any
pieces, nothing is submitted; the record that brings the last of the announced points submits them all
in their order as one frame, at the rate of the marker or else of the session, and up to the next
marker nothing else is submitted; a record that brings more ends the session, and any other record ends
it or makes it forget the points. -/
theorem frame_by_count {srv : TargetServer} (hsink : srv.sink.isSome) {x : Session}
    (halive : x.alive = true) {r : Record × Bool} {marker : FrameMarker}
    (htype : r.1.type = .frameMarker)
    (hdecoded : srv.codec.decodeFrameMarker r.1.payload = .ok marker)
    (haccepted : (x.receive srv r).alive = true) (before : List (Record × Bool))
    (hbefore : ∀ q ∈ before, Interim srv x.state.userChannelCount q)
    (hshort : (before.flatMap (recordPoints srv x.state.userChannelCount)).length <
      marker.framePointCount) :
    let channels := x.state.userChannelCount
    let marked := x.receive srv r
    let points := before.flatMap (recordPoints srv channels)
    let y := before.foldl (Session.receive srv) marked
    (y.alive = true ∧ y.submissions = x.submissions) ∧
    ∀ q later,
      let z := y.receive srv q
      let last := (q :: later).foldl (Session.receive srv) y
      (Interim srv channels q →
        (points ++ recordPoints srv channels q).length = marker.framePointCount →
        z.alive = true ∧
          z.submissions = x.submissions ++
            [frameOf srv x.state marker (points ++ recordPoints srv channels q)] ∧
          ((∀ q' ∈ later, Interim srv channels q') → last.submissions = z.submissions)) ∧
      (Interim srv channels q →
        marker.framePointCount < (points ++ recordPoints srv channels q).length →
        last.alive = false ∧ last.submissions = x.submissions) ∧
      (¬ Interim srv channels q →
        z.submissions = x.submissions ∧ (z.alive = true → z.state.pendingFrame = none) ∧
          last.submissions = ((q :: later).foldl (Session.receive srv) marked).submissions) := by
  intro channels marked points y
  have hmarked : Collecting srv x marker [] marked := .marked halive htype hdecoded haccepted
  have hy : Collecting srv x marker points y := hmarked.records before hbefore hshort
  refine ⟨⟨hy.alive, hy.submissions⟩, ?_⟩
  intro q later z last
  refine ⟨?_, ?_, ?_⟩
  · intro hq hfull
    obtain ⟨hz, hpending, hmode, hchannels, hsubmitted⟩ := hy.complete hsink hq hshort hfull
    refine ⟨hz, hsubmitted, fun hlater => ?_⟩
    exact Waiting.records (fun _ => ⟨hpending, hmode, hchannels⟩) later hlater
  · intro hq hover
    obtain ⟨hended, hquiet⟩ := hy.overfull hq hshort hover
    have hend : last = z := Session.ended hended later
    rw [hend]
    exact ⟨hended, hquiet⟩
  · intro hq
    obtain ⟨hquiet, hforgot, hlater⟩ := hy.interrupted hmarked hq
    exact ⟨hquiet, hforgot, hlater later⟩

/-- a server for markers of five points, and points of one byte each -/
def byteServer : TargetServer :=
  { plainServer with codec := { plainCodec with
      decodeFrameMarker := fun _ => .ok ⟨5, 0, 0⟩
      decodePointSamples := fun payload _ =>
        .ok (payload.map fun b => ⟨0, 0, b.toNat, 0, 0, b.toNat, []⟩) } }

/-- a session of a client that sends frames by count -/
def frameSession : Session := .accepted byteServer ⟨"client", .frameByCount, 0, 0⟩ 0

def recordOf (type : RecordType) (payload : List UInt8) : Record × Bool :=
  ({ type := type, payload := payload }, true)

/-- two points, none, a ping, and two more -/
def pieces : List (Record × Bool) :=
  [recordOf .points [1, 2], recordOf .points [], recordOf .ping (List.replicate 8 0),
    recordOf .points [3, 4]]

/-- the point of a byte -/
def bytePoint (b : UInt8) : LaserPoint :=
  ⟨0, 0, channelFromProtocol b.toNat, 0, 0, channelFromProtocol b.toNat, 0, 0⟩

/-- A frame of five points in three records, and points without a marker behind it. -/
theorem frame_by_count_pieces :
    ((recordOf .points [5] :: [recordOf .ping (List.replicate 8 0)]).foldl (Session.receive byteServer)
      (pieces.foldl (Session.receive byteServer)
        (frameSession.receive byteServer (recordOf .frameMarker [])))).submissions =
      [frameOf byteServer frameSession.state ⟨5, 0, 0⟩ ([1, 2, 3, 4, 5].map bytePoint)] := by
  have h := @frame_by_count byteServer rfl frameSession rfl (recordOf .frameMarker []) ⟨5, 0, 0⟩ rfl rfl
    (by decide +kernel) pieces (by simp [pieces, Interim, recordOf, byteServer])
    (by decide +kernel)
  obtain ⟨hframe, _, _⟩ := h.2 (recordOf .points [5]) [recordOf .ping (List.replicate 8 0)]
  obtain ⟨_, hsubmitted, hlater⟩ := hframe ⟨_, rfl⟩ (by decide +kernel)
  refine (hlater (by simp [Interim, recordOf])).trans (hsubmitted.trans ?_)
  have hpoints : pieces.flatMap (recordPoints byteServer frameSession.state.userChannelCount) ++
      recordPoints byteServer frameSession.state.userChannelCount (recordOf .points [5]) =
        [1, 2, 3, 4, 5].map bytePoint := by decide +kernel
  rw [hpoints]
  rfl

end LiberaLink.Protocol
