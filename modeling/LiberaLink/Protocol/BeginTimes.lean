import LiberaLink.Lib.Reach
import LiberaLink.Protocol.Frames
import LiberaLink.Target.Refusals

/-!
# The begin times of frames

A marker counts the nanoseconds from the start of the session to the begin of its frame.  The count has 64
bits, the clock 64 with a sign, and nothing checks that their sum fits.

* `Pending`               a session that collects a frame for a begin time;
* `handleRecord_pending`  what a record makes of it;
* `BeginsRight`           the frame of a marker begins where the marker says;
* `beginsRight_iff`       **when it does**.
-/

namespace LiberaLink.Protocol
open Stepwise Numeric

/-! ## the pending frame -/

section
variable {srv : TargetServer} {state : SessionState} {pending : PendingFrame}

/-- a frame with points that begins at this time -/
def Timed (time : Option Int) (f : FrameSubmission) : Prop :=
  f.targetBeginTime = time ∧ Target.framePoints f ≠ []

/-- What a record leaves of a pending frame, and submits of it, begins when the frame does. -/
structure Handled.Keeps (h : Handled) (time : Option Int) : Prop where
  pendingFrame : ∀ pending, h.state.pendingFrame = some pending → pending.targetBeginTime = time
  call : ∀ f, h.call = some (.submitFrame f) → Timed time f

theorem Handled.Keeps.of_same {h : Handled} (hpending : state.pendingFrame = some pending)
    (hstate : h.state = state) (hcall : ∀ f, h.call ≠ some (.submitFrame f)) :
    h.Keeps pending.targetBeginTime where
  pendingFrame := by
    intro p hp
    rw [hstate, hpending] at hp
    rw [← Option.some.inj hp]
  call := fun f hf => absurd hf (hcall f)

theorem submitPendingFrame_timed (pending : PendingFrame) {f : FrameSubmission}
    (h : submitPendingFrame srv state pending = some (.submitFrame f)) :
    Timed pending.targetBeginTime f := by
  unfold submitPendingFrame at h
  split at h
  · cases h
  · rename_i hsubmits
    rw [← SinkCall.submitFrame.inj (Option.some.inj h)]
    refine ⟨rfl, fun hnil => hsubmits (.inr ?_)⟩
    exact (List.append_nil _).symm.trans hnil

theorem appendFramePoints_keeps (hpending : state.pendingFrame = some pending)
    (points : List LaserPoint) :
    (appendFramePoints srv state pending points).Keeps pending.targetBeginTime := by
  unfold appendFramePoints
  simp only
  split
  · exact .of_same hpending rfl nofun
  · split
    · refine ⟨nofun, fun f hf => ?_⟩
      exact submitPendingFrame_timed { pending with points := pending.points ++ points } hf
    · refine ⟨fun p hp => ?_, nofun⟩
      rw [← Option.some.inj hp]

/-- **A record** keeps the begin time of a pending frame, submits the frame with it or forgets the
frame. -/
theorem handleRecord_pending (hpending : state.pendingFrame = some pending) (record : Record)
    (written : Bool) : (handleRecord srv state record written).Keeps pending.targetBeginTime := by
  unfold handleRecord
  split
  · unfold handleStreamConfig
    split
    · exact .of_same hpending rfl nofun
    · exact ⟨nofun, nofun⟩
  · unfold handleScannerSync
    split
    · exact .of_same hpending rfl nofun
    · refine .of_same hpending rfl fun f hf => ?_
      simp only at hf
      split at hf
      · cases hf
      · cases hf
  · unfold handleFrameMarker
    split
    · exact .of_same hpending rfl nofun
    · split
      · exact .of_same hpending rfl nofun
      · rw [if_pos (.inr (hpending ▸ rfl))]
        exact .of_same hpending rfl nofun
  · unfold handlePoints
    split
    · exact .of_same hpending rfl nofun
    · simp only [hpending]
      exact appendFramePoints_keeps hpending _
  · split
    · exact .of_same hpending rfl nofun
    · exact .of_same hpending rfl nofun
  · exact .of_same hpending rfl nofun
  · exact .of_same hpending rfl nofun

end

/-! ## a session with a pending frame -/

/-- the session goes on, and part of a frame has come -/
def Collects (y : Session) : Prop := y.alive = true ∧ y.state.pendingFrame.isSome = true

/-- the session goes on, and part of a frame has come that is to begin at this time -/
def Pending (time : Option Int) (y : Session) : Prop :=
  y.alive = true ∧ ∃ pending, y.state.pendingFrame = some pending ∧ pending.targetBeginTime = time

section
variable {srv : TargetServer} {y : Session} {time : Option Int}

theorem Pending.receive (h : Pending time y) {r : Record × Bool}
    (hcollects : Collects (y.receive srv r)) :
    Pending time (y.receive srv r) := by
  obtain ⟨halive, pending, hpending, rfl⟩ := h
  obtain ⟨hnext, hsome⟩ := hcollects
  obtain ⟨p, hp⟩ := Option.isSome_iff_exists.mp hsome
  refine ⟨hnext, p, hp, ?_⟩
  rw [Session.receive_alive halive] at hp
  exact (handleRecord_pending hpending r.1 r.2).pendingFrame p hp

/-- **As long as the frame is pending** its begin time stays. -/
theorem Pending.records (h : Pending time y) {records : List (Record × Bool)}
    (hcollects : Along (Session.receive srv) Collects y records) :
    Pending time (records.foldl (Session.receive srv) y) := by
  induction records generalizing y with
  | nil => exact h
  | cons r records ih => exact ih (h.receive hcollects.2.first) hcollects.2

/-- the record that completes the frame submits it for its begin time -/
theorem Pending.submits (h : Pending time y) {r : Record × Bool} {f : FrameSubmission}
    (hcalls : (y.receive srv r).calls = y.calls ++ [.submitFrame f]) : Timed time f := by
  obtain ⟨halive, pending, hpending, rfl⟩ := h
  rw [Session.receive_alive halive] at hcalls
  have hcall : (handleRecord srv y.state r.1 r.2).call = some (.submitFrame f) := by
    have hlist := List.append_cancel_left hcalls
    cases hcall : (handleRecord srv y.state r.1 r.2).call with
    | none =>
      rw [hcall] at hlist
      cases hlist
    | some call =>
      rw [hcall] at hlist
      exact congrArg some (List.cons.inj hlist).1
  exact (handleRecord_pending hpending r.1 r.2).call f hcall

end

/-! ## what the controller is sent -/

/-- a target sends a frame last, for the begin time of the submission -/
theorem Timed.sends {time : Option Int} {f : FrameSubmission} (h : Timed time f)
    (cfg : Target.TargetConfig) (a : Target.Answers) (s : Target.LiberaTarget) :
    ((Target.submitFrame cfg f a).run s).2.controller.getLast? =
      some (.sendFrame (Target.framePoints f) time) := by
  obtain ⟨rfl, hne⟩ := h
  have hlast : (Target.frameSent cfg f a s).controller.getLast? =
      some (.sendFrame (Target.framePoints f) f.targetBeginTime) := by
    rw [Target.frameSent_controller, Target.frameCalls, ← List.append_assoc, List.getLast?_concat]
  rw [Target.submitFrame_run cfg f a s hne]
  split
  · rw [Target.finish_state]
    exact hlast
  · rw [Target.finish_state]
    exact hlast

/-! ## where a frame begins -/

/-- A session behind a marker has this begin time attached to its pending frame, to the frame that is
submitted when that is complete, and to what a target then sends to its controller. -/
structure Attached (srv : TargetServer) (marked : Session) (time : Int) : Prop where
  pending : ∃ pending, marked.state.pendingFrame = some pending ∧ pending.targetBeginTime = some time
  submitted : ∀ between, Along (Session.receive srv) Collects marked between → ∀ r f,
    let y := between.foldl (Session.receive srv) marked
    (y.receive srv r).calls = y.calls ++ [.submitFrame f] → f.targetBeginTime = some time ∧
      ∀ (cfg : Target.TargetConfig) (a : Target.Answers) (s : Target.LiberaTarget),
        ((Target.submitFrame cfg f a).run s).2.controller.getLast? =
          some (.sendFrame (Target.framePoints f) (some time))

/-- The frame of a marker begins so many nanoseconds after the session, in a sum that the clock can
hold. -/
structure BeginsRight (srv : TargetServer) (x : Session) (r : Record × Bool) (ns : Nat) : Prop where
  no_overflow : InInt64 (x.state.sessionStartedAt + wrapInt64 ns)
  attached : Attached srv (x.receive srv r) (x.state.sessionStartedAt + ns)
  not_earlier : x.state.sessionStartedAt ≤ x.state.sessionStartedAt + ns

theorem Attached.of_pending {srv : TargetServer} {marked : Session} {time : Int}
    (h : Pending (some time) marked) : Attached srv marked time where
  pending := h.2
  submitted := by
    intro between hcollects r f y hcalls
    have htimed := (h.records hcollects).submits hcalls
    exact ⟨htimed.1, htimed.sends⟩

/-- the sum is right and does not overflow -/
theorem frameBeginTime_iff {start : Int} {ns : Nat} (hstart : InInt64 start) (hne : ns ≠ 0)
    (hns : ns < 2 ^ 64) :
    InInt64 (start + wrapInt64 ns) ∧ frameBeginTime start ns = some (start + ns) ↔
      ns < 2 ^ 63 ∧ start + ns < 2 ^ 63 := by
  have hsum : frameBeginTime start ns = some (wrapInt64 (start + wrapInt64 ns)) := if_pos hne
  rw [hsum]
  constructor
  · rintro ⟨hfits, htime⟩
    rw [wrapInt64_of_mem hfits] at htime
    have hcount : wrapInt64 ns = ns := by
      have htime' := Option.some.inj htime
      omega
    rw [hcount] at hfits
    refine ⟨?_, hfits.2⟩
    by_contra hhigh
    rw [wrapInt64_of_high (by omega) (by omega)] at hcount
    omega
  · rintro ⟨hlow, hhigh⟩
    have hcount : wrapInt64 ns = ns := wrapInt64_of_mem ⟨by omega, by omega⟩
    have hfits : InInt64 (start + ns) := ⟨by have := hstart.1; omega, hhigh⟩
    rw [hcount]
    exact ⟨hfits, congrArg some (wrapInt64_of_mem hfits)⟩

/-- **A frame begins where its marker says** exactly if the count of the marker fits a signed clock and so
does the sum of the start and the count; no marker is rejected for it. -/
theorem beginsRight_iff {srv : TargetServer} {x : Session} (halive : x.alive = true)
    (hstart : InInt64 x.state.sessionStartedAt) {r : Record × Bool} {marker : FrameMarker}
    (htype : r.1.type = .frameMarker)
    (hdecoded : srv.codec.decodeFrameMarker r.1.payload = .ok marker)
    (haccepted : (x.receive srv r).alive = true) (hne : marker.targetBeginTimeNs ≠ 0)
    (hns : marker.targetBeginTimeNs < 2 ^ 64) :
    BeginsRight srv x r marker.targetBeginTimeNs ↔
      marker.targetBeginTimeNs < 2 ^ 63 ∧
        x.state.sessionStartedAt + marker.targetBeginTimeNs < 2 ^ 63 := by
  have hmarked : Collecting srv x marker [] (x.receive srv r) := .marked halive htype hdecoded haccepted
  have hpending : (x.receive srv r).state.pendingFrame = some (pendingOf x.state marker []) := by
    rw [hmarked.state]
    rfl
  rw [← frameBeginTime_iff hstart hne hns]
  constructor
  · rintro ⟨hfits, ⟨⟨pending, hp, htime⟩, -⟩, -⟩
    obtain rfl := Option.some.inj (hpending.symm.trans hp)
    exact ⟨hfits, htime⟩
  · rintro ⟨hfits, htime⟩
    refine ⟨hfits, .of_pending ⟨hmarked.alive, _, hpending, htime⟩, ?_⟩
    omega

/-- a server that reads every marker as one point with this begin time -/
def timedServer (ns : Nat) : TargetServer :=
  { plainServer with codec := { plainCodec with decodeFrameMarker := fun _ => .ok ⟨1, 0, ns⟩ } }

/-- a record that this server can read -/
def zeros (type : RecordType) : Record × Bool := recordOf type (List.replicate 8 0)

/-- a session that takes frames by count and began at this time -/
def timedSession (ns : Nat) (now : Int) : Session :=
  .accepted (timedServer ns) ⟨"client", .frameByCount, 0, 0⟩ now

/-- seven nanoseconds after the start -/
theorem beginsRight_seven : BeginsRight (timedServer 7) (timedSession 7 5) (zeros .frameMarker) 7 :=
  (@beginsRight_iff (timedServer 7) (timedSession 7 5) rfl ⟨by decide, by decide⟩ (zeros .frameMarker)
    ⟨1, 0, 7⟩ rfl rfl (by decide +kernel) (by decide) (by decide)).mpr ⟨by decide, by decide⟩

/-- A count of `2 ^ 64 - 1` is accepted, and its frame begins before the session did. -/
theorem begins_before_session :
    let srv := timedServer (2 ^ 64 - 1)
    let x := timedSession (2 ^ 64 - 1) 5
    let marked := x.receive srv (zeros .frameMarker)
    marked.alive = true ∧
      (∃ f, (marked.receive srv (zeros .points)).submissions = [.submitFrame f] ∧
        f.targetBeginTime = some 4) ∧
      ¬ BeginsRight srv x (zeros .frameMarker) (2 ^ 64 - 1) := by
  intro srv x marked
  have haccepted : marked.alive = true := by decide +kernel
  have hmarked : Collecting srv x ⟨1, 0, 2 ^ 64 - 1⟩ [] marked := .marked rfl rfl rfl haccepted
  have htime : frameBeginTime 5 (2 ^ 64 - 1) = some 4 := by decide +kernel
  refine ⟨haccepted, ?_, fun hright => ?_⟩
  · obtain ⟨-, -, -, -, hsubmitted⟩ := @Collecting.complete srv x marked ⟨1, 0, 2 ^ 64 - 1⟩ []
      (zeros .points) hmarked rfl ⟨_, rfl⟩ (by decide) (by decide +kernel)
    exact ⟨_, hsubmitted, htime⟩
  · obtain ⟨pending, hpending, hwrong⟩ := hright.attached.pending
    rw [hmarked.state] at hpending
    obtain rfl := Option.some.inj hpending
    have hfour : some (5 + ((2 ^ 64 - 1 : Nat) : Int)) = some 4 := hwrong.symm.trans htime
    exact absurd hfour (by decide)

end LiberaLink.Protocol
