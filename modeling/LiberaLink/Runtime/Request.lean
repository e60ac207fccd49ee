import LiberaLink.Lib.Weave
import LiberaLink.Runtime.Runs

/-!
# A stop request during a start

`requestStop` raises the flag and then, in a section of its own, takes a starting or running link back
to `StopRequested`.  A start that is under way polls the flag at many places, but it clears the flag
once at its beginning and writes `Running` at its end whatever the state is by then.

* `requests`             the two actions of the request, put among those of a start;
* `stopping`             the start as a program that can be cancelled;
* `obeys_afterGate`      every action of a start follows the protocol;
* `request_effective_iff`  **when a request during a start has an effect**;
* `request_lost`         a request that is lost.
-/

namespace LiberaLink
open Stepwise Impl LinkRuntime

namespace Impl

/-- the state without what a request changes -/
def calm (s : Impl) : Impl := { s with state := .stopped, statusMessage := "", stopRequested := false }

end Impl

/-- the flag is raised -/
def raiseStop (s : Impl) : Impl := s.withStop true

/-- The actions of `requestStop`: the first after `i` actions of the start, the second after `d` more. -/
def requests (i d : Nat) : List (Nat × (Impl → Impl)) := [(i, raiseStop), (d, markStop)]

/-- `s'` may differ from `s` in the flag, and be taken back. -/
def Disturbed (s s' : Impl) : Prop :=
  s'.calm = s.calm ∧ (s'.state = s.state ∨
    s'.state = .stopRequested ∧ (s.state = .starting ∨ s.state = .running))

/-- The start as a program that can be cancelled. -/
def stopping : Cancellable Act Impl where
  poll l := l == .poll
  clear l := l == .clear
  publish l := l == .publish
  flag s := s.stopRequested
  on s := s.state = .running
  rel := Disturbed
  agree s s' := s'.calm = s.calm ∧ s'.state = s.state
  poll_not_clear h := by rw [beq_iff_eq.mp h]; rfl
  rel_of_agree h := ⟨h.1, .inl h.2⟩
  on_of_agree h := by rw [h.2]

theorem markStop_cases (s : Impl) :
    (s.state = .starting ∨ s.state = .running) ∧ markStop s = s.withState .stopRequested "Stopping..." ∨
    ¬ (s.state = .starting ∨ s.state = .running) ∧ markStop s = s := by
  by_cases h : s.state = .starting ∨ s.state = .running
  · exact .inl ⟨h, if_pos h⟩
  · exact .inr ⟨h, if_neg h⟩

theorem markStop_takesBack : stopping.TakesBack markStop where
  rel := by
    rintro s s' ⟨hc, hs⟩
    rcases markStop_cases s' with ⟨h, e⟩ | ⟨_, e⟩ <;> rw [e]
    · refine ⟨hc, .inr ⟨rfl, ?_⟩⟩
      rcases hs with hs | ⟨hs, _⟩
      · rwa [hs] at h
      · rw [hs] at h
        simp at h
    · exact ⟨hc, hs⟩
  off s := by
    show (markStop s).state ≠ .running
    rcases markStop_cases s with ⟨_, e⟩ | ⟨h, e⟩ <;> rw [e]
    · exact fun h => nomatch h
    · exact fun e => h (.inr e)
  flag s := by
    show (markStop s).stopRequested = s.stopRequested
    rcases markStop_cases s with ⟨_, e⟩ | ⟨_, e⟩
    · rw [e]; rfl
    · rw [e]

theorem raiseStop_agree (s : Impl) :
    stopping.agree s (raiseStop s) ∧ stopping.flag (raiseStop s) = true := ⟨⟨rfl, rfl⟩, rfl⟩

/-! ## the actions of a start -/

/-- what the calm part determines is the same in states that differ by a request -/
theorem calm_field {α : Type} (f : Impl → α) (hf : ∀ s, f s.calm = f s) {s s' : Impl}
    (h : s'.calm = s.calm) : f s' = f s := by
  rw [← hf s', ← hf s]
  exact congrArg f h

/-- an action that neither reads nor changes the state and the flag -/
structure Plain (u : Impl → Impl) : Prop where
  calm : ∀ s, (u s.calm).calm = (u s).calm
  state : ∀ s, (u s).state = s.state
  flag : ∀ s, (u s).stopRequested = s.stopRequested

/-- an action that sets the state without reading it -/
structure Sets (u : Impl → Impl) : Prop where
  calm : ∀ s, (u s.calm).calm = (u s).calm
  state : ∀ s, (u s.calm).state = (u s).state
  flag : ∀ s, (u s).stopRequested = s.stopRequested

section
variable {α : Type} {F : α → Prop → Prop} {s : Impl} {l : Act} {u : Impl → Impl} {r : Impl → α}

theorem obeys_plain (hl : l ≠ .poll) (hc : l ≠ .clear) (hp : l ≠ .publish) (hu : Plain u)
    (hr : ∀ s, r s.calm = r s) : stopping.Obeys (Prog.exchange l r u) F s where
  left := {
    rel := fun s' h => ⟨calm_field (fun s => (u s).calm) hu.calm h.1, by
      rw [hu.state, hu.state]; exact h.2⟩
    agree := fun s' h => ⟨calm_field (fun s => (u s).calm) hu.calm h.1, by
      rw [hu.state, hu.state]; exact h.2⟩
    publish := fun h => absurd (beq_iff_eq.mp h) hp
    off := fun _ s' h => by
      show (u s').state ≠ .running
      rw [hu.state]
      exact h
    cleared := fun h => absurd (beq_iff_eq.mp h) hc
    kept := fun _ s' h => (hu.flag s').trans h
    same := fun s' _ h => (hu.flag s').trans (h.trans (hu.flag s).symm)
    next := fun s' h _ => congrArg Prog.ret (calm_field r hr h.1)
    seen := fun h => absurd (beq_iff_eq.mp h) hl }
  right := trivial

theorem obeys_sets (hl : l ≠ .poll) (hc : l ≠ .clear) (hp : l = .publish ∨ ∀ s, (u s).state ≠ .running)
    (hu : Sets u) (hr : ∀ s, r s.calm = r s) : stopping.Obeys (Prog.exchange l r u) F s where
  left := {
    rel := fun s' h => ⟨calm_field (fun s => (u s).calm) hu.calm h.1,
      .inl (calm_field (fun s => (u s).state) hu.state h.1)⟩
    agree := fun s' h => ⟨calm_field (fun s => (u s).calm) hu.calm h.1,
      calm_field (fun s => (u s).state) hu.state h.1⟩
    publish := fun _ s' h => ⟨calm_field (fun s => (u s).calm) hu.calm h.1,
      calm_field (fun s => (u s).state) hu.state h.1⟩
    off := fun hn s' _ => by
      rcases hp with rfl | hp
      · cases hn
      · exact hp s'
    cleared := fun h => absurd (beq_iff_eq.mp h) hc
    kept := fun _ s' h => (hu.flag s').trans h
    same := fun s' _ h => (hu.flag s').trans (h.trans (hu.flag s).symm)
    next := fun s' h _ => congrArg Prog.ret (calm_field r hr h.1)
    seen := fun h => absurd (beq_iff_eq.mp h) hl }
  right := trivial

theorem obeys_pollStop {F : Bool → Prop → Prop} (hF : F true False) : stopping.Obeys pollStop F s where
  left := {
    rel := fun _ h => h
    agree := fun _ h => h
    publish := fun h => (nomatch beq_iff_eq.mp h)
    off := fun _ _ h => h
    cleared := fun h => (nomatch beq_iff_eq.mp h)
    kept := fun _ _ h => h
    same := fun _ _ h => h
    next := fun s' _ h => by
      rcases h with h | h
      · cases h
      · exact congrArg Prog.ret h
    seen := fun _ s' _ h => by
      have e : s'.stopRequested = true := h
      show F s'.stopRequested False
      rw [e]
      exact hF }
  right := trivial

end

section
variable {α β : Type} {p : LinkM α} {f : α → LinkM β} {F : β → Prop → Prop} {s : Impl}

/-- the continuation obeys whatever the state is -/
theorem obeys_then (hp : stopping.Obeys p (fun a o => stopping.Settles (f a) F o) s)
    (hf : ∀ a s', stopping.Obeys (f a) F s') : stopping.Obeys (p >>= f) F s :=
  Cancellable.obeys_bind hp (hf _ _)

/-- a poll, and both ways to go on -/
theorem obeys_poll {f : Bool → LinkM β} (hseen : stopping.Settles (f true) F False)
    (hf : ∀ b s', stopping.Obeys (f b) F s') : stopping.Obeys (pollStop >>= f) F s :=
  obeys_then (obeys_pollStop hseen) hf

/-- after the flag was seen, a second poll sees it too -/
theorem settles_poll {f : Bool → LinkM β} {off : Prop} (h : ∀ off, stopping.Settles (f true) F off) :
    stopping.Settles (pollStop >>= f) F off := by
  refine ⟨rfl, rfl, fun _ h => h, fun _ h => h, fun s hs => ?_⟩
  show stopping.Settles (f s.stopRequested) F _
  rw [show s.stopRequested = true from hs]
  exact h _

theorem settles_read {r : Impl → α} {off : Prop} (h : ∀ a off, stopping.Settles (f a) F off) :
    stopping.Settles (Prog.read .work r >>= f) F off :=
  ⟨rfl, rfl, fun _ h => h, fun _ h => h, fun _ _ => h _ _⟩

/-- the exit of a cancelled start takes the link back -/
theorem settles_cancelled {F : Bool → Prop → Prop} {off : Prop} (hF : ∀ o : Prop, o → F false o) :
    stopping.Settles cancelled F off :=
  ⟨rfl, rfl, fun _ h => h, fun _ _ h => (nomatch h), fun _ _ => hF _ (.inr fun _ h => (nomatch h))⟩

theorem obeys_setState {F : Unit → Prop → Prop} (st : RuntimeState) (hst : st ≠ .running) (m : String) :
    stopping.Obeys (setState st m) F s :=
  obeys_sets (l := .section) (u := fun s => s.withState st m) (r := fun _ => ()) nofun nofun
    (.inr fun _ => hst) ⟨fun _ => rfl, fun _ => rfl, fun _ => rfl⟩ fun _ => rfl

theorem obeys_setStatus {F : Unit → Prop → Prop} (m : String) : stopping.Obeys (setStatus m) F s :=
  obeys_plain (l := .section) (u := fun s => s.withStatus m) (r := fun _ => ()) nofun nofun nofun
    ⟨fun _ => rfl, fun _ => rfl, fun _ => rfl⟩ fun _ => rfl

theorem obeys_logError {F : Unit → Prop → Prop} (line : String) : stopping.Obeys (logError line) F s :=
  obeys_plain (l := .work) (u := fun s => s.withError line) (r := fun _ => ()) nofun nofun nofun
    ⟨fun _ => rfl, fun _ => rfl, fun _ => rfl⟩ fun _ => rfl

/-- work on the host calls -/
theorem obeys_work {F : α → Prop → Prop} (r : HostLog → α) (g : HostLog → HostLog) :
    stopping.Obeys (Prog.exchange .work (fun s => r s.io) fun s => s.withIo (g s.io)) F s :=
  obeys_plain nofun nofun nofun ⟨fun _ => rfl, fun _ => rfl, fun _ => rfl⟩ fun _ => rfl

theorem obeys_failWith {F : Bool → Prop → Prop} (e : String) : stopping.Obeys (failWith e) F s :=
  obeys_then (obeys_setState .failed nofun e) fun _ _ => obeys_then (obeys_logError e) fun _ _ => trivial

theorem obeys_cancelled {F : Bool → Prop → Prop} : stopping.Obeys cancelled F s :=
  obeys_then (obeys_setState .stopped nofun _) fun _ _ => trivial

theorem obeys_clearStop {F : Unit → Prop → Prop} : stopping.Obeys clearStop F s where
  left := {
    rel := fun _ h => h
    agree := fun _ h => h
    publish := fun h => (nomatch beq_iff_eq.mp h)
    off := fun _ _ h => h
    cleared := fun _ _ => rfl
    kept := fun h => (nomatch h)
    same := fun _ _ _ => rfl
    next := fun _ _ _ => rfl
    seen := fun h => (nomatch beq_iff_eq.mp h) }
  right := trivial

/-! ## the parts of a start -/

theorem obeys_logErrors {F : Unit → Prop → Prop} (lines : List String) (s : Impl) :
    stopping.Obeys (logErrors lines) F s := by
  induction lines generalizing s with
  | nil => exact trivial
  | cons line lines ih => exact obeys_then (obeys_logError line) fun _ s' => ih s'

theorem obeys_discoverLoop {F : List ControllerInfo → Prop → Prop} (hF : ∀ found, F found False)
    (timeoutMs : Nat) (rounds : List DiscoveryRound) (d : Discovery) (s : Impl) :
    stopping.Obeys (discoverLoop timeoutMs rounds d) F s := by
  induction rounds generalizing d s with
  | nil => exact obeys_poll (hF d.discovered) fun _ _ => trivial
  | cons round rounds ih =>
    refine obeys_poll (hF d.discovered) fun b s' => ?_
    cases b with
    | true => exact trivial
    | false =>
      refine obeys_then (obeys_logErrors round.errors s') fun _ s1 => ?_
      show stopping.Obeys (if _ then _ else if _ then _ else _) F s1
      split
      · exact trivial
      · split
        · exact trivial
        · exact ih (d.see round) s1

theorem obeys_discoverControllers {env : Env} {F : List ControllerInfo → Prop → Prop}
    (hF : ∀ found, F found False) (timeoutMs : Nat) (s : Impl) :
    stopping.Obeys (discoverControllers env timeoutMs) F s :=
  obeys_then (obeys_work (fun io => env.discover io.ticks) HostLog.tick) fun _ s' =>
    obeys_discoverLoop hF timeoutMs _ _ s'

theorem obeys_discoverForStart {env : Env} {options : LinkOptions} {F : Bool → Prop → Prop}
    (hF : ∀ o : Prop, o → F false o) (s : Impl) : stopping.Obeys (discoverForStart env options) F s := by
  refine obeys_then (obeys_setState .starting nofun _) fun _ s1 =>
    obeys_then (obeys_discoverControllers (fun found => ?_) _ s1) fun found s2 => ?_
  · exact settles_read fun _ _ => settles_poll fun _ => settles_cancelled hF
  · refine obeys_then (obeys_plain nofun nofun nofun ⟨fun _ => rfl, fun _ => rfl, fun _ => rfl⟩
      fun _ => rfl) fun errorSet s3 => obeys_poll (settles_cancelled hF) fun b s4 => ?_
    cases b with
    | true => exact obeys_cancelled
    | false =>
      show stopping.Obeys (if found.isEmpty then _ else _) F s4
      split
      · refine obeys_then (obeys_plain (r := fun _ => ()) nofun nofun nofun
          ⟨fun _ => rfl, fun _ => rfl, fun _ => rfl⟩ fun _ => rfl) fun _ s5 =>
          obeys_then (obeys_setState .failed nofun _) fun _ s6 => ?_
        show stopping.Obeys (if _ then _ else _) F s6
        split
        · exact trivial
        · exact obeys_then (obeys_logError _) fun _ _ => trivial
      · exact obeys_then (obeys_plain (r := fun _ => ()) nofun nofun nofun
          ⟨fun _ => rfl, fun _ => rfl, fun _ => rfl⟩ fun _ => rfl) fun _ _ => trivial

theorem obeys_connectController {env : Env} {info : ControllerInfo} {F : Bool → Prop → Prop} :
    stopping.Obeys (connectController env info) F s :=
  obeys_work (fun io => env.connect io.ticks info) HostLog.tick

theorem obeys_connectControllers {env : Env} {options : LinkOptions} {sel : IdSet}
    {F : List LinkedTarget → Prop → Prop} (hF : ∀ ts, F ts False) (infos : List ControllerInfo)
    (acc : List LinkedTarget) (s : Impl) :
    stopping.Obeys (connectControllers env options sel infos acc) F s := by
  induction infos generalizing acc s with
  | nil => exact trivial
  | cons info rest ih =>
    refine obeys_poll (hF acc) fun b s1 => ?_
    cases b with
    | true => exact trivial
    | false =>
      refine obeys_then (obeys_setStatus _) fun _ s2 => ?_
      show stopping.Obeys (if _ then _ else if _ then _ else if _ then _ else _) F s2
      split
      · exact ih acc s2
      · split
        · exact ih acc s2
        · split
          · exact trivial
          · refine obeys_then obeys_connectController fun c s3 => ?_
            cases c with
            | true => exact ih _ s3
            | false => exact obeys_then (obeys_logError _) fun _ s4 => ih acc s4

theorem obeys_startHostGroups {env : Env} {reg : Registry} {options : LinkOptions}
    {F : Option (List ActiveVirtualControllerHost) → Prop → Prop} (hF : ∀ o : Prop, o → F none o)
    (groups : List PendingVirtualControllerHostGroup) (acc : List ActiveVirtualControllerHost)
    (s : Impl) : stopping.Obeys (startHostGroups env reg options groups acc) F s := by
  induction groups generalizing acc s with
  | nil => exact trivial
  | cons g rest ih =>
    refine obeys_then (obeys_setStatus _) fun _ s1 => obeys_then (obeys_work
      (fun io => (startActiveHostGroup env reg g options.sliceDurationUs io).1)
      fun io => (startActiveHostGroup env reg g options.sliceDurationUs io).2) fun r s2 => ?_
    cases r with
    | error e =>
      exact obeys_then (obeys_work (fun _ => ()) (stopHosts acc)) fun _ s3 =>
        obeys_then (obeys_setState .failed nofun e) fun _ s4 =>
          obeys_then (obeys_logError e) fun _ _ => trivial
    | ok h =>
      refine obeys_poll ?_ fun b s3 => ?_
      · exact ⟨rfl, rfl, fun _ h => h, fun _ h => h, fun _ _ =>
          ⟨rfl, rfl, fun _ h => h, fun _ _ h => (nomatch h), fun _ _ => hF _ (.inr fun _ h => (nomatch h))⟩⟩
      · cases b with
        | true =>
          exact obeys_then (obeys_work (fun _ => ()) (stopHosts (h :: acc))) fun _ s4 =>
            obeys_then (obeys_setState .stopped nofun _) fun _ _ => trivial
        | false => exact ih (acc ++ [h]) s3

end

section
variable {env : Env} {reg : Registry} {options : LinkOptions} {sel : IdSet} {s : Impl}

theorem plain_configure (options : LinkOptions) : Plain (configureLiberaSystem options) := by
  have hcalm : ∀ s, (configureLiberaSystem options s.calm).calm =
      (configureLiberaSystem options s).calm := by
    intro s
    unfold configureLiberaSystem
    by_cases h : s.liberaSystem ∧ s.activeDisabledControllerTypes = options.disabledControllerTypes ∧
        s.activeSelectedControllerDrivers = options.selectedControllerDrivers
    · rw [if_pos h, if_pos (by exact h)]
      rfl
    · rw [if_neg h, if_neg (by exact h)]
      rfl
  refine ⟨hcalm, fun s => ?_, fun s => ?_⟩ <;> unfold configureLiberaSystem <;> split <;> rfl

theorem plain_spawnMonitor : Plain spawnMonitor := by
  refine ⟨fun s => ?_, fun s => ?_, fun s => ?_⟩
  · by_cases h : s.monitorThread = true
    · unfold spawnMonitor
      rw [if_pos h, if_pos (by exact h)]
      rfl
    · unfold spawnMonitor
      rw [if_neg h, if_neg (by exact h)]
      rfl
  · unfold spawnMonitor; split <;> rfl
  · unfold spawnMonitor; split <;> rfl

theorem obeys_startHosts {F : Bool → Prop → Prop} (hF : ∀ o : Prop, o → F false o)
    (targets : List LinkedTarget) (s : Impl) :
    stopping.Obeys (startHosts env reg options targets) F s := by
  unfold startHosts
  split
  · exact obeys_failWith _
  · refine obeys_then (obeys_startHostGroups (fun o h => hF o h) _ [] s) fun r s1 => ?_
    cases r with
    | none => exact trivial
    | some hosts =>
      refine obeys_then (obeys_sets (l := .publish) (r := fun _ => ()) nofun nofun (.inl rfl)
        ⟨fun _ => rfl, fun _ => rfl, fun _ => rfl⟩ fun _ => rfl) fun _ s2 => ?_
      exact obeys_then (obeys_plain (l := .spawn) (r := fun _ => ()) nofun nofun nofun
        plain_spawnMonitor fun _ => rfl) fun _ _ => trivial

theorem obeys_connectAndStart {F : Bool → Prop → Prop} (hF : ∀ o : Prop, o → F false o) (s : Impl) :
    stopping.Obeys (connectAndStart env reg options sel) F s := by
  refine obeys_then (obeys_plain nofun nofun nofun ⟨fun _ => rfl, fun _ => rfl, fun _ => rfl⟩
    fun _ => rfl) fun infos s1 => obeys_then (obeys_connectControllers (fun ts => ?_) infos [] s1)
    fun targets s2 => obeys_poll (settles_cancelled hF) fun b s3 => ?_
  · exact settles_poll fun _ => settles_cancelled hF
  · cases b with
    | true => exact obeys_cancelled
    | false =>
      show stopping.Obeys (if targets.isEmpty then _ else _) F s3
      split
      · exact obeys_failWith _
      · exact obeys_startHosts hF targets s3

/-- **A start from the ground up** follows the protocol. -/
theorem obeys_startLink (s : Impl) :
    stopping.Obeys (startLink env reg options sel) Cancellable.Off s := by
  have hF : ∀ o : Prop, o → (Cancellable.Off : Bool → Prop → Prop) false o := fun _ h => h
  refine obeys_then (obeys_logError (s := s) "") fun _ s1 => obeys_then obeys_clearStop fun _ s2 => ?_
  show stopping.Obeys (if fallbackUnknown reg options then _ else _) _ s2
  split
  · exact obeys_failWith _
  · refine obeys_then (obeys_plain (r := fun _ => ()) nofun nofun nofun (plain_configure options)
      fun _ => rfl) fun _ s3 => obeys_then (obeys_plain nofun nofun nofun
      ⟨fun _ => rfl, fun _ => rfl, fun _ => rfl⟩ fun _ => rfl) fun cached s4 => ?_
    show stopping.Obeys (if cached.isEmpty then _ else _) _ s4
    split
    · refine obeys_then (obeys_discoverForStart (fun o h => h) s4) fun ok s5 => ?_
      cases ok with
      | true => exact obeys_connectAndStart hF s5
      | false => exact trivial
    · exact obeys_then (obeys_setState .starting nofun _) fun _ s5 => obeys_connectAndStart hF s5

/-! ## the update -/

theorem obeys_raise {F : Unit → Prop → Prop} :
    stopping.Obeys (Prog.modify .raise fun s => s.withStop true) F s where
  left := {
    rel := fun _ h => h
    agree := fun _ h => h
    publish := fun h => (nomatch beq_iff_eq.mp h)
    off := fun _ _ h => h
    cleared := fun h => (nomatch beq_iff_eq.mp h)
    kept := fun _ _ _ => rfl
    same := fun _ _ _ => rfl
    next := fun _ _ _ => rfl
    seen := fun h => (nomatch beq_iff_eq.mp h) }
  right := trivial

theorem markStop_agree {s s' : Impl} (h : stopping.agree s s') :
    stopping.agree (markStop s) (markStop s') := by
  obtain ⟨hc, hs⟩ := h
  rcases markStop_cases s with ⟨h, e⟩ | ⟨h, e⟩
  · rw [e, show markStop s' = _ from if_pos (hs ▸ h)]
    exact ⟨hc, rfl⟩
  · rw [e, show markStop s' = _ from if_neg (hs ▸ h)]
    exact ⟨hc, hs⟩

/-- the section of the start's own `requestStop` -/
theorem obeys_markStop {F : Unit → Prop → Prop} :
    stopping.Obeys (Prog.modify .section markStop) F s where
  left := {
    rel := by
      rintro s' ⟨hc, hs | ⟨hs, hst⟩⟩
      · exact stopping.rel_of_agree (markStop_agree ⟨hc, hs⟩)
      · have e : markStop s' = s' := if_neg (by rw [hs]; simp)
        rw [show markStop s = _ from if_pos hst, e]
        exact ⟨hc, .inl hs⟩
    agree := fun _ h => markStop_agree h
    publish := fun h => (nomatch beq_iff_eq.mp h)
    off := fun _ s' _ => markStop_takesBack.off s'
    cleared := fun h => (nomatch beq_iff_eq.mp h)
    kept := fun _ s' h => (markStop_takesBack.flag s').trans h
    same := fun s' _ h => (markStop_takesBack.flag s').trans (h.trans (markStop_takesBack.flag s).symm)
    next := fun _ _ _ => rfl
    seen := fun h => (nomatch beq_iff_eq.mp h) }
  right := trivial

theorem obeys_stop {F : Unit → Prop → Prop} (s : Impl) : stopping.Obeys stop F s := by
  refine obeys_then (obeys_then obeys_raise fun _ _ => obeys_markStop) fun _ s1 => ?_
  refine obeys_then (obeys_plain (l := .section) (r := fun _ => ()) nofun nofun nofun
    ⟨fun _ => rfl, fun _ => rfl, fun _ => rfl⟩ fun _ => rfl) fun _ s2 => ?_
  refine obeys_then (obeys_sets (l := .section) nofun nofun (.inr fun _ => nofun)
    ⟨fun _ => rfl, fun _ => rfl, fun _ => rfl⟩ fun _ => rfl) fun hosts s3 => ?_
  exact obeys_then (obeys_work (fun _ => ()) (stopHosts hosts)) fun _ _ => obeys_clearStop

theorem obeys_connectMissing {F : List String × TargetMap → Prop → Prop} (infos : List ControllerInfo)
    (missing : List String) (m : TargetMap) (s : Impl) :
    stopping.Obeys (connectMissing env options infos missing m) F s := by
  induction infos generalizing missing m s with
  | nil => exact trivial
  | cons info rest ih =>
    unfold connectMissing
    split
    · exact ih missing m s
    · split
      · exact ih _ m s
      · refine obeys_then (obeys_setStatus _) fun _ s1 => obeys_then obeys_connectController
          fun c s2 => ?_
        cases c with
        | true => exact ih _ _ s2
        | false => exact obeys_then (obeys_logError _) fun _ s3 => ih _ m s3

theorem obeys_targetsForUpdate {F : TargetMap → Prop → Prop} (m : TargetMap) (s : Impl) :
    stopping.Obeys (targetsForUpdate env options sel m) F s := by
  unfold targetsForUpdate
  simp only
  split
  · exact trivial
  · refine obeys_then (obeys_plain (r := fun _ => ()) nofun nofun nofun (plain_configure options)
      fun _ => rfl) fun _ s1 => obeys_then (obeys_plain nofun nofun nofun
      ⟨fun _ => rfl, fun _ => rfl, fun _ => rfl⟩ fun _ => rfl) fun infos s2 => ?_
    exact obeys_then (obeys_connectMissing infos _ m s2) fun r s3 =>
      obeys_then (obeys_logErrors _ s3) fun _ _ => trivial

theorem obeys_regroup {F : Bool → Prop → Prop} (m : TargetMap) (s : Impl) :
    stopping.Obeys (regroup env reg options sel m) F s := by
  unfold regroup
  split
  · exact obeys_failWith _
  · simp only
    split
    · exact obeys_failWith _
    · rename_i groups _
      split
      · exact obeys_then (obeys_stop s) fun _ _ => trivial
      · have hsets : Sets fun s => (updateSection env reg options
            ((desiredTargets sel m).map Prod.snd) groups s).2 := by
          refine ⟨fun s => ?_, fun s => ?_, fun s => ?_⟩ <;> unfold updateSection
          · simp only [Impl.calm]
            split <;> rfl
          · simp only [Impl.calm]
            split <;> rfl
          · split <;> rfl
        have hread : ∀ s : Impl, (updateSection env reg options ((desiredTargets sel m).map Prod.snd)
            groups s.calm).1 = (updateSection env reg options ((desiredTargets sel m).map Prod.snd)
            groups s).1 := by
          intro s
          unfold updateSection
          simp only [Impl.calm]
          split <;> rfl
        refine obeys_then (obeys_sets (l := .publish) nofun nofun (.inl rfl) hsets hread) fun e s1 => ?_
        cases e with
        | none => exact trivial
        | some e => exact obeys_then (obeys_logError e) fun _ _ => trivial

theorem obeys_updateRunningLink {F : Option Bool → Prop → Prop} (s : Impl) :
    stopping.Obeys (updateRunningLink env reg options sel) F s := by
  unfold updateRunningLink
  split
  · exact obeys_then (obeys_stop s) fun _ _ => trivial
  · refine obeys_then (obeys_plain nofun nofun nofun ⟨fun _ => rfl, fun _ => rfl, fun _ => rfl⟩
      fun _ => rfl) fun p s1 => ?_
    obtain ⟨active, targets⟩ := p
    show stopping.Obeys (if targetRuntimeOptionsChanged active options then _ else _) F s1
    split
    · exact obeys_then (obeys_stop s1) fun _ _ => trivial
    · exact obeys_then (obeys_targetsForUpdate _ s1) fun m s2 =>
        obeys_then (obeys_regroup m s2) fun _ _ => trivial

end

/-! ## the call -/

section
variable {env : Env} {reg : Registry} {options : LinkOptions} {sel : IdSet}

/-- the state check of a stopped link is not changed by a request -/
theorem obeys_gate {F : Gate → Prop → Prop} {s : Impl} (hs : s.state = .stopped) :
    stopping.Obeys gate F s := by
  have same : ∀ {s' : Impl}, stopping.rel s s' → s'.calm = s.calm ∧ s'.state = .stopped := by
    rintro s' ⟨hc, h | ⟨_, h⟩⟩
    · exact ⟨hc, h.trans hs⟩
    · rw [hs] at h
      simp at h
  have fresh : ∀ {s' : Impl}, s'.state = .stopped → gateOf s' = .fresh := fun h =>
    gateOf_fresh.mpr (.inl h)
  have after : ∀ {s' : Impl}, stopping.rel s s' → stopping.agree (gateState s) (gateState s') := by
    intro s' h
    obtain ⟨hc, hs'⟩ := same h
    unfold gateState
    rw [fresh hs, fresh hs']
    exact ⟨calm_field (fun s => Impl.calm { s with
      activeVirtualControllerHostId := "", activeVirtualControllerHostDisplayName := "" })
      (fun _ => rfl) hc, rfl⟩
  have hflag : ∀ s' : Impl, (gateState s').stopRequested = s'.stopRequested := by
    intro s'
    unfold gateState
    split <;> rfl
  refine ⟨{
    rel := fun s' h => stopping.rel_of_agree (after h)
    agree := fun s' h => after (stopping.rel_of_agree h)
    publish := fun h => (nomatch beq_iff_eq.mp h)
    off := fun _ s' h => ?_
    cleared := fun h => (nomatch beq_iff_eq.mp h)
    kept := fun _ s' h => (hflag s').trans h
    same := fun s' _ h => (hflag s').trans (h.trans (hflag s).symm)
    next := fun s' h _ => congrArg Prog.ret ((fresh (same h).2).trans (fresh hs).symm)
    seen := fun h => (nomatch beq_iff_eq.mp h) }, trivial⟩
  show (gateState s').state ≠ .running
  unfold gateState
  split
  · exact h
  · exact h
  · exact fun h => nomatch h

/-- what a start does after its state check -/
def afterGate (env : Env) (reg : Registry) (options : LinkOptions) (sel : IdSet) : Gate → LinkM Bool
  | .refused => pure false
  | .fresh => startLink env reg options sel
  | .update => do
    match ← updateRunningLink env reg options sel with
    | some r => pure r
    | none => startFuel env reg options sel 1

/-- **Every action of a start after its state check follows the protocol.** -/
theorem obeys_afterGate (g : Gate) (s : Impl) :
    stopping.Obeys (afterGate env reg options sel g) Cancellable.Off s := by
  cases g with
  | refused => exact trivial
  | fresh => exact obeys_startLink s
  | update =>
    refine Cancellable.obeys_bind_of (obeys_updateRunningLink s) (updateRunningLink_stopped s)
      fun r s1 h1 => ?_
    cases r with
    | some r => exact trivial
    | none =>
      have hs := h1 rfl
      refine Cancellable.obeys_bind_of (Q := fun g _ => g = .fresh) (obeys_gate hs) ?_ ?_
      · exact ⟨trivial, gateOf_fresh.mpr (.inl hs)⟩
      · rintro g s2 rfl
        exact obeys_startLink s2

/-- a start is its state check and what comes after it -/
theorem start_eq (env : Env) (reg : Registry) (options : LinkOptions) (sel : IdSet) :
    start env reg options sel =
      .act .gate gateState fun s => afterGate env reg options sel (gateOf s) := by
  show Prog.bind gate _ = _
  refine congrArg (Prog.act Act.gate gateState) (funext fun s => ?_)
  show (Prog.ret (gateOf s)).bind _ = _
  cases gateOf s <;> rfl

/-- **When a stop request during a start has an effect.**  With the flag raised after `i + 1` actions
of the start, of which the first is its state check, and the state taken back after `d` more, the link
does not run in the end exactly if it would not run without the request either, or the start polls the
flag from there on before it clears it, or it does not write `Running` after the state was taken
back. -/
theorem request_effective_iff (env : Env) (reg : Registry) (options : LinkOptions) (sel : IdSet)
    (s : Impl) (i d : Nat) :
    ((start env reg options sel).weave (requests (i + 1) d) s).2.state ≠ .running ↔
      ((start env reg options sel).run s).2.state ≠ .running ∨
      stopping.seen (((start env reg options sel).labels s).drop (i + 1)) = true ∨
      .publish ∉ ((start env reg options sel).labels s).drop (i + 1 + d) := by
  rw [start_eq, Nat.add_right_comm]
  show ¬ stopping.on (((afterGate env reg options sel (gateOf s)).weave [(i, raiseStop), (d, markStop)]
      (gateState s)).2) ↔
    ¬ stopping.on ((afterGate env reg options sel (gateOf s)).run (gateState s)).2 ∨
      stopping.seen (((afterGate env reg options sel (gateOf s)).labels (gateState s)).drop i) = true ∨
      .publish ∉ ((afterGate env reg options sel (gateOf s)).labels (gateState s)).drop (i + d)
  have h := Cancellable.weave_on_iff markStop_takesBack raiseStop_agree
    (@obeys_afterGate env reg options sel (gateOf s) (gateState s)) i d
  have hany : ∀ ls : List Act, ls.any stopping.publish = true ↔ .publish ∈ ls := by
    intro ls
    rw [List.any_eq_true]
    constructor
    · rintro ⟨l, hl, e⟩
      exact beq_iff_eq.mp e ▸ hl
    · exact fun h => ⟨_, h, rfl⟩
  rw [h, hany, not_and_or, not_and_or, Bool.not_eq_false]

end

/-- Right after the state check the flag is cleared again, and right before `Running` is written nobody
looks at it any more: either way the link runs, in the second case with the flag raised. -/
theorem request_lost :
    let p := start (succeeding [controller "a"]) registry {} (.single "a")
    gateOf {} = .fresh ∧ (p.weave (requests 1 0) {}).2.state = .running ∧
      (p.labels {})[20]? = some .publish ∧ (p.weave (requests 20 0) {}).2.state = .running ∧
      (p.weave (requests 20 0) {}).2.stopRequested = true := by
  decide +kernel

end LiberaLink
