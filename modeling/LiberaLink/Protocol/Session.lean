import LiberaLink.Protocol.Options

/-!
# What stays within bounds in a session

A session starts with a negotiated state and takes records with arbitrary field values.  Whatever they
say, its rate and its channels stay within the limits of the server, and a pending frame is smaller
than the frame that its marker has announced.

* `SessionState.Inv`             the bounds on the state of a session;
* `Handled.Sound`                what a record leaves and calls is within bounds;
* `handleRecord_sound`           one record;
* `session_stays_in_bounds`      **every state and every submission of a session**.
-/

namespace LiberaLink.Protocol
open Numeric

section
variable (srv : TargetServer)

theorem effectiveMaxPointRate_pos : 1 ≤ srv.effectiveMaxPointRate := Nat.le_max_left _ _

theorem effectiveMinPointRate_le : srv.effectiveMinPointRate ≤ srv.effectiveMaxPointRate :=
  Nat.min_le_right _ _

theorem effectiveMinPointRate_pos (h : 1 ≤ srv.options.minPointRate) :
    1 ≤ srv.effectiveMinPointRate := by
  have := effectiveMaxPointRate_pos srv
  show 1 ≤ min _ _
  omega

/-- the rates a session may play at -/
def RateOk (rate : Nat) : Prop :=
  srv.effectiveMinPointRate ≤ rate ∧ rate ≤ srv.effectiveMaxPointRate

theorem clampPointRate_ok (rate : Nat) : RateOk srv (srv.clampPointRate rate) :=
  clamp_mem (effectiveMinPointRate_le srv)

/-- The bounds on the state of a session. -/
structure SessionState.Inv (state : SessionState) : Prop where
  pointRate : RateOk srv state.pointRate
  userChannelCount : state.userChannelCount ≤ srv.options.maxUserChannels
  pendingMode : state.pendingFrame ≠ none → state.streamMode = .frameByCount
  framePointCount : ∀ pending, state.pendingFrame = some pending →
    1 ≤ pending.marker.framePointCount ∧ pending.marker.framePointCount ≤ srv.options.maxFramePoints
  collected : ∀ pending, state.pendingFrame = some pending →
    pending.points.length < pending.marker.framePointCount

/-- a submission commands a rate that the session may play at -/
def SinkCall.RateOk : SinkCall → Prop
  | .submitContinuous submission =>
      ∃ rate, submission.effectivePointRate = some rate ∧ Protocol.RateOk srv rate
  | .submitFrame submission =>
      ∃ rate, submission.effectivePointRate = some rate ∧ Protocol.RateOk srv rate ∧
        ∀ slice ∈ submission.slices, slice.effectivePointRate = some rate
  | .setScannerSync _ _ => True
  | .replaceFrame _ => False
  | .reset => False

/-- What a record leaves and calls is within bounds. -/
def Handled.Sound (h : Handled) : Prop :=
  h.state.Inv srv ∧ ∀ c, h.call = some c → SinkCall.RateOk srv c

theorem Handled.Sound.of_no_call {h : Handled} (hstate : h.state.Inv srv) (hcall : h.call = none) :
    h.Sound srv := by
  refine ⟨hstate, ?_⟩
  intro c hc
  rw [hcall] at hc
  cases hc

theorem negotiate_inv (hello : Hello) (now : Int) : (negotiate srv hello now).Inv srv where
  pointRate := clampPointRate_ok srv _
  userChannelCount := Nat.min_le_left _ _
  pendingMode := fun h => absurd rfl h
  framePointCount := by
    intro pending h
    cases h
  collected := by
    intro pending h
    cases h

variable {srv} {state : SessionState}

/-! ## one record -/

theorem handleStreamConfig_sound (h : state.Inv srv) (record : Record) :
    (handleStreamConfig srv state record).Sound srv := by
  unfold handleStreamConfig
  split
  · exact .of_no_call srv h rfl
  · rename_i config _
    refine .of_no_call srv ?_ rfl
    refine ⟨?_, Nat.min_le_left _ _, fun hp => absurd rfl hp, ?_, ?_⟩
    · show RateOk srv (if config.defaultPointRate ≠ 0 then _ else _)
      split
      · exact clampPointRate_ok srv _
      · exact h.pointRate
    · intro pending hp
      cases hp
    · intro pending hp
      cases hp

theorem handleScannerSync_sound (h : state.Inv srv) (record : Record) :
    (handleScannerSync srv state record).Sound srv := by
  unfold handleScannerSync
  split
  · exact .of_no_call srv h rfl
  · refine ⟨h, ?_⟩
    intro c hc
    simp only at hc
    split at hc
    · obtain rfl := Option.some.inj hc
      trivial
    · cases hc

theorem handleFrameMarker_sound (h : state.Inv srv) (record : Record) :
    (handleFrameMarker srv state record).Sound srv := by
  unfold handleFrameMarker
  split
  · exact .of_no_call srv h rfl
  · rename_i marker _
    split
    · exact .of_no_call srv h rfl
    · rename_i hcount
      split
      · exact .of_no_call srv h rfl
      · rename_i hmode
        refine .of_no_call srv ?_ rfl
        refine ⟨?_, h.userChannelCount, fun _ => ?_, ?_, ?_⟩
        · show RateOk srv (if marker.pointRate ≠ 0 then _ else _)
          split
          · exact clampPointRate_ok srv _
          · exact h.pointRate
        · show state.streamMode = .frameByCount
          by_contra hother
          exact hmode (.inl hother)
        · intro pending hp
          obtain rfl := Option.some.inj hp
          show 1 ≤ marker.framePointCount ∧ marker.framePointCount ≤ srv.options.maxFramePoints
          omega
        · intro pending hp
          obtain rfl := Option.some.inj hp
          show 0 < marker.framePointCount
          omega

theorem submitContinuousPoints_rateOk (h : state.Inv srv) (points : List LaserPoint) {c : SinkCall}
    (hc : submitContinuousPoints srv points state.pointRate = some c) : SinkCall.RateOk srv c := by
  unfold submitContinuousPoints at hc
  split at hc
  · cases hc
  · obtain rfl := Option.some.inj hc
    exact ⟨_, rfl, h.pointRate⟩

theorem submitPendingFrame_rateOk (h : state.Inv srv) (pending : PendingFrame) {c : SinkCall}
    (hc : submitPendingFrame srv state pending = some c) : SinkCall.RateOk srv c := by
  unfold submitPendingFrame at hc
  split at hc
  · cases hc
  · obtain rfl := Option.some.inj hc
    refine ⟨_, rfl, ?_, ?_⟩
    · split
      · exact clampPointRate_ok srv _
      · exact h.pointRate
    · intro slice hslice
      rw [List.mem_singleton.mp hslice]

theorem appendFramePoints_sound (h : state.Inv srv) {pending : PendingFrame}
    (hpending : state.pendingFrame = some pending) (points : List LaserPoint) :
    (appendFramePoints srv state pending points).Sound srv := by
  have hmode : state.streamMode = .frameByCount := h.pendingMode (by rw [hpending]; simp)
  unfold appendFramePoints
  simp only
  split
  · exact .of_no_call srv h rfl
  · rename_i hfits
    split
    · refine ⟨⟨h.pointRate, h.userChannelCount, fun hp => absurd rfl hp, ?_, ?_⟩, ?_⟩
      · intro p hp
        cases hp
      · intro p hp
        cases hp
      · intro c hc
        exact submitPendingFrame_rateOk h _ hc
    · rename_i hmore
      refine .of_no_call srv ?_ rfl
      refine ⟨h.pointRate, h.userChannelCount, fun _ => hmode, ?_, ?_⟩
      · intro p hp
        obtain rfl := Option.some.inj hp
        exact h.framePointCount pending hpending
      · intro p hp
        obtain rfl := Option.some.inj hp
        rw [List.length_append] at hmore
        show (pending.points ++ points).length < pending.marker.framePointCount
        rw [List.length_append]
        omega

theorem handlePoints_sound (h : state.Inv srv) (record : Record) :
    (handlePoints srv state record).Sound srv := by
  unfold handlePoints
  split
  · exact .of_no_call srv h rfl
  · simp only
    split
    · rename_i pending hpending
      exact appendFramePoints_sound h hpending _
    · split
      · exact .of_no_call srv h rfl
      · exact ⟨h, fun c hc => submitContinuousPoints_rateOk h _ hc⟩

theorem handleRecord_sound (h : state.Inv srv) (record : Record) (written : Bool) :
    (handleRecord srv state record written).Sound srv := by
  unfold handleRecord
  split
  · exact handleStreamConfig_sound h record
  · exact handleScannerSync_sound h record
  · exact handleFrameMarker_sound h record
  · exact handlePoints_sound h record
  · split
    · exact .of_no_call srv h rfl
    · exact .of_no_call srv h rfl
  · exact .of_no_call srv h rfl
  · exact .of_no_call srv h rfl

end

/-! ## a session -/

/-- A session after its handshake, with the calls of the sink it has made. -/
structure Session where
  state : SessionState
  alive : Bool
  calls : List SinkCall

/-- an accepted session that has read the record `Ready` -/
def Session.accepted (srv : TargetServer) (hello : Hello) (now : Int) : Session where
  state := negotiate srv hello now
  alive := true
  calls := []

/-- one turn of the loop of `runSession`: a record, and whether an answer to it can be written -/
def Session.receive (srv : TargetServer) (x : Session) (r : Record × Bool) : Session :=
  if x.alive then
    let handled := handleRecord srv x.state r.1 r.2
    { state := handled.state
      alive := handled.ok
      calls := x.calls ++ handled.call.toList }
  else x

/-- the bounds on a session -/
def Session.Sound (srv : TargetServer) (x : Session) : Prop :=
  x.state.Inv srv ∧ ∀ c ∈ x.calls, SinkCall.RateOk srv c

theorem Session.Sound.receive {srv : TargetServer} {x : Session} (h : x.Sound srv)
    (r : Record × Bool) : (x.receive srv r).Sound srv := by
  unfold Session.receive
  split
  · obtain ⟨hstate, hcall⟩ := handleRecord_sound h.1 r.1 r.2
    refine ⟨hstate, ?_⟩
    intro c hc
    rcases List.mem_append.mp hc with hc | hc
    · exact h.2 c hc
    · exact hcall c (Option.mem_toList.mp hc)
  · exact h

theorem Session.sound_records {srv : TargetServer} {x : Session} (h : x.Sound srv)
    (records : List (Record × Bool)) : (records.foldl (Session.receive srv) x).Sound srv := by
  induction records generalizing x with
  | nil => exact h
  | cons r records ih =>
    rw [List.foldl_cons]
    exact ih (h.receive r)

/-- **Every state and every submission of a session** is within the bounds of the server, for every
option map, every target and every sequence of records. -/
theorem session_stays_in_bounds (ports : DefaultPorts) (config : VirtualControllerHostConfig)
    (codec : Codec) (sink : Option TargetInfo) (hello : Hello) (now : Int)
    (records : List (Record × Bool)) :
    let srv : TargetServer := ⟨codec, makeHostOptions ports config, sink⟩
    let x := records.foldl (Session.receive srv) (.accepted srv hello now)
    (1 ≤ srv.effectiveMinPointRate ∧ srv.effectiveMinPointRate ≤ x.state.pointRate ∧
        x.state.pointRate ≤ srv.effectiveMaxPointRate) ∧
      x.state.userChannelCount ≤ srv.options.maxUserChannels ∧
      (∀ pending, x.state.pendingFrame = some pending →
        x.state.streamMode = .frameByCount ∧ 1 ≤ pending.marker.framePointCount ∧
          pending.marker.framePointCount ≤ srv.options.maxFramePoints ∧
          pending.points.length < pending.marker.framePointCount) ∧
      srv.effectiveMinPointRate ≤ srv.effectiveMaxPointRate ∧
      ∀ c ∈ x.calls, SinkCall.RateOk srv c := by
  intro srv x
  have hstart : (Session.accepted srv hello now).Sound srv := by
    refine ⟨negotiate_inv srv hello now, ?_⟩
    intro c hc
    cases hc
  have hx : x.Sound srv := Session.sound_records hstart records
  have hpos : 1 ≤ srv.effectiveMinPointRate :=
    effectiveMinPointRate_pos srv (makeHostOptions_bounded ports config).minPointRate_pos
  refine ⟨⟨hpos, hx.1.pointRate⟩, hx.1.userChannelCount, ?_, effectiveMinPointRate_le srv, hx.2⟩
  intro pending hpending
  obtain ⟨hone, hmax⟩ := hx.1.framePointCount pending hpending
  exact ⟨hx.1.pendingMode (by rw [hpending]; simp), hone, hmax, hx.1.collected pending hpending⟩

end LiberaLink.Protocol
