import LiberaLink.Gui.OneTask

/-!
# What the tasks come to

While a task works on the runtime, the GUI's thread may ask it to stop.  Whatever it does, a task that has
finished leaves a runtime that is neither scanning nor starting, and a start that finds no controllers in the
cache looks for them.

* `Meddles`           what the GUI's thread does to the runtime while a task is under way;
* `call_settles`      **what a task leaves**;
* `start_discovers`   **a start that has no cached controllers begins a discovery**.
-/

namespace LiberaLink.Gui
open Stepwise LinkRuntime Impl

/-! ## between the actions of a task -/

/-- no scan and no start is under way -/
def Settled (s : Impl) : Prop := s.state ≠ .scanning ∧ s.state ≠ .starting

structure Meddles (s s' : Impl) : Prop where
  data : discoveryData s' = discoveryData s
  settled : Settled s → Settled s'
  fresh : gateOf s = .fresh → gateOf s' = .fresh

theorem Meddles.refl (s : Impl) : Meddles s s := ⟨rfl, id, id⟩

theorem Meddles.trans {s s' s'' : Impl} (h : Meddles s s') (h' : Meddles s' s'') : Meddles s s'' :=
  ⟨h'.data.trans h.data, h'.settled ∘ h.settled, h'.fresh ∘ h.fresh⟩

theorem gateOf_eq_fresh {s : Impl} : gateOf s = .fresh ↔
    Settled s ∧ s.state ≠ .running ∧ s.state ≠ .stopRequested := by
  unfold gateOf Settled
  cases s.state <;> decide

/-- the states in which the link neither runs nor scans nor starts -/
theorem fresh_of_state {s s' : Impl} (hstate : s'.state = s.state ∨ s'.state = .stopped)
    (h : gateOf s = .fresh) : gateOf s' = .fresh := by
  unfold gateOf at h ⊢
  rcases hstate with hsame | hstopped
  · rw [hsame]
    exact h
  · rw [hstopped]
    decide

/-- the action leaves a settled runtime settled -/
def KeepsSettled (_ : Act) (u : Impl → Impl) : Prop := ∀ s, Settled s → Settled (u s)

theorem keepsSettled_same {l : Act} {u : Impl → Impl} (h : ∀ s, (u s).state = s.state) :
    KeepsSettled l u := by
  intro s hs
  unfold Settled at hs ⊢
  rw [h]
  exact hs

theorem keepsSettled_state {l : Act} {u : Impl → Impl} (next : RuntimeState)
    (hnext : next ≠ .scanning ∧ next ≠ .starting) (h : ∀ s, (u s).state = next) : KeepsSettled l u := by
  intro s _
  unfold Settled
  rw [h]
  exact hnext

/-- the program leaves a settled runtime, whatever the GUI's thread does -/
abbrev Settles {α : Type} (p : LinkM α) (s : Impl) : Prop :=
  Prog.Holds Meddles (fun _ _ _ => True) p (fun _ s' => Settled s') s

section
variable {α β : Type} {s : Impl}

theorem holds_any (p : LinkM α) (s : Impl) :
    Prog.Holds Meddles (fun _ _ _ => True) p (fun _ _ => True) s := by
  induction p generalizing s with
  | ret a => trivial
  | act l u k ih => exact fun s' _ => ⟨trivial, ih s' (u s')⟩

theorem settles_of_acts {p : LinkM α} (hp : Prog.Acts KeepsSettled p) (hs : Settled s) : Settles p s :=
  Prog.holds_of_acts hp (fun h hr => hr.settled h) (fun _ _ hu s hs => ⟨trivial, hu s hs⟩) hs

/-- what comes last settles the runtime -/
theorem settles_last {p : LinkM α} {f : α → LinkM β} (hf : ∀ a s, Settles (f a) s) (s : Impl) :
    Settles (p >>= f) s := Prog.holds_seq (holds_any p s) fun a s' _ => hf a s'

theorem settles_setState {next : RuntimeState} {message : String} {p : LinkM α}
    (hnext : next ≠ .scanning ∧ next ≠ .starting) (hp : Prog.Acts KeepsSettled p) (s : Impl) :
    Settles (setState next message >>= fun _ => p) s :=
  fun _ _ => ⟨trivial, settles_of_acts hp hnext⟩

end

/-! ## the parts of the calls -/

theorem settled_logErrors (lines : List String) : Prog.Acts KeepsSettled (logErrors lines) := by
  induction lines with
  | nil => trivial
  | cons line lines ih =>
    exact Prog.acts_bind (Prog.acts_modify (keepsSettled_same fun _ => rfl)) fun _ => ih

theorem settled_requestStop : Prog.Acts KeepsSettled requestStop := by
  refine Prog.acts_bind (Prog.acts_modify (keepsSettled_same fun _ => rfl)) fun _ => ?_
  refine Prog.acts_modify fun s hs => ?_
  unfold markStop
  split
  · exact ⟨RuntimeState.noConfusion, RuntimeState.noConfusion⟩
  · exact hs

theorem settled_stop : Prog.Acts KeepsSettled LinkRuntime.stop := by
  refine Prog.acts_bind settled_requestStop fun _ => ?_
  refine Prog.acts_bind (Prog.acts_modify (keepsSettled_same fun _ => rfl)) fun _ => ?_
  refine Prog.acts_bind ⟨?_, fun _ => trivial⟩ fun hosts => ?_
  · exact keepsSettled_state .stopped (by decide) fun _ => rfl
  · exact Prog.acts_bind (Prog.acts_modify (keepsSettled_same fun _ => rfl)) fun _ =>
      Prog.acts_modify (keepsSettled_same fun _ => rfl)

theorem settled_failWith (error : String) : Prog.Acts KeepsSettled (failWith error) := by
  refine Prog.acts_bind (Prog.acts_modify ?_) fun _ => ?_
  · exact keepsSettled_state .failed (by decide) fun _ => rfl
  · exact Prog.acts_bind (Prog.acts_modify (keepsSettled_same fun _ => rfl)) fun _ => trivial

theorem settles_failWith (error : String) (s : Impl) : Settles (failWith error) s := by
  unfold failWith
  refine settles_setState ⟨RuntimeState.noConfusion, RuntimeState.noConfusion⟩ ?_ s
  exact Prog.acts_bind (Prog.acts_modify (keepsSettled_same fun _ => rfl)) fun _ => trivial

theorem settles_cancelled (s : Impl) : Settles cancelled s := by
  unfold cancelled
  refine settles_setState ⟨RuntimeState.noConfusion, RuntimeState.noConfusion⟩ ?_ s
  trivial

section
variable {env : Env} {reg : Registry} {options : LinkOptions} {sel : IdSet}

/-! ## a start from the ground up -/

/-- a discovery that ends the start settles the runtime -/
theorem discoverForStart_settles (s : Impl) : Prog.Holds Meddles (fun _ _ _ => True)
    (discoverForStart env options) (fun goesOn s' => goesOn = false → Settled s') s := by
  unfold discoverForStart
  refine Prog.holds_seq (holds_any _ s) fun _ s1 _ => ?_
  refine Prog.holds_seq (holds_any _ s1) fun found s2 _ => ?_
  refine Prog.holds_seq (holds_any _ s2) fun errorSet s3 _ => ?_
  refine Prog.holds_seq (holds_any _ s3) fun stopped s4 _ => ?_
  simp only
  split
  · exact Prog.holds_mono (settles_cancelled s4) fun _ _ h _ => h
  · split
    · refine Prog.holds_mono (settles_last (fun _ s5 => ?_) s4) fun _ _ h _ => h
      refine settles_setState ⟨RuntimeState.noConfusion, RuntimeState.noConfusion⟩ ?_ s5
      split
      · trivial
      · exact Prog.acts_bind (Prog.acts_modify (keepsSettled_same fun _ => rfl)) fun _ => trivial
    · refine Prog.holds_seq (holds_any _ s4) fun _ s5 _ => ?_
      intro hgoes
      cases hgoes

/-- so do hosts that do not start -/
theorem startHostGroups_settles (groups : List PendingVirtualControllerHostGroup)
    (hosts : List ActiveVirtualControllerHost) (s : Impl) : Prog.Holds Meddles (fun _ _ _ => True)
    (startHostGroups env reg options groups hosts) (fun r s' => r = none → Settled s') s := by
  induction groups generalizing hosts s with
  | nil =>
    intro hr
    cases hr
  | cons group rest ih =>
    unfold startHostGroups
    refine Prog.holds_seq (holds_any _ s) fun _ s1 _ => ?_
    refine Prog.holds_seq (holds_any _ s1) fun r s2 _ => ?_
    cases r with
    | error error =>
      refine Prog.holds_mono (?_ : Settles (failStart hosts error) s2) fun _ _ h _ => h
      unfold failStart
      refine settles_last (fun _ s3 => ?_) s2
      refine settles_setState ⟨RuntimeState.noConfusion, RuntimeState.noConfusion⟩ ?_ s3
      exact Prog.acts_bind (Prog.acts_modify (keepsSettled_same fun _ => rfl)) fun _ => trivial
    | ok activeHost =>
      refine Prog.holds_seq (holds_any _ s2) fun stopped s3 _ => ?_
      split
      · refine Prog.holds_mono (settles_last (fun _ s4 => ?_) s3) fun _ _ h _ => h
        refine settles_setState ⟨RuntimeState.noConfusion, RuntimeState.noConfusion⟩ ?_ s4
        trivial
      · exact ih (hosts ++ [activeHost]) s3

theorem startHosts_settles (targets : List LinkedTarget) (s : Impl) :
    Settles (startHosts env reg options targets) s := by
  unfold startHosts
  split
  · exact settles_failWith _ s
  · refine Prog.holds_seq (startHostGroups_settles _ _ s) fun r s1 hr => ?_
    cases r with
    | none => exact hr rfl
    | some hosts =>
      refine Prog.holds_seq (R := fun _ s => Settled s) ?_ fun _ s2 hs => settles_of_acts ?_ hs
      · exact fun _ _ => ⟨trivial, RuntimeState.noConfusion, RuntimeState.noConfusion⟩
      refine Prog.acts_bind (Prog.acts_modify (keepsSettled_same fun s => ?_)) fun _ => trivial
      unfold spawnMonitor
      split <;> rfl

theorem connectAndStart_settles (s : Impl) : Settles (connectAndStart env reg options sel) s := by
  unfold connectAndStart
  refine settles_last (fun infos s1 => settles_last (fun targets s2 => settles_last (fun stopped s3 => ?_) s2)
    s1) s
  split
  · exact settles_cancelled s3
  · split
    · exact settles_failWith _ s3
    · exact startHosts_settles targets s3

theorem startLink_settles (s : Impl) : Settles (startLink env reg options sel) s := by
  unfold startLink
  refine settles_last (fun _ s1 => settles_last (fun _ s2 => ?_) s1) s
  split
  · exact settles_failWith _ s2
  · refine settles_last (fun _ s3 => settles_last (fun cached s4 => ?_) s3) s2
    split
    · refine Prog.holds_seq (discoverForStart_settles s4) fun goesOn s5 hgoes => ?_
      cases goesOn with
      | true => exact connectAndStart_settles s5
      | false => exact hgoes rfl
    · exact settles_last (fun _ s5 => connectAndStart_settles s5) s4

/-! ## an update -/

theorem settled_connectMissing (infos : List ControllerInfo) (missing : List String) (m : TargetMap) :
    Prog.Acts KeepsSettled (connectMissing env options infos missing m) := by
  induction infos generalizing missing m with
  | nil => trivial
  | cons info rest ih =>
    unfold connectMissing
    split
    · exact ih missing m
    · split
      · exact ih _ m
      · refine Prog.acts_bind (Prog.acts_modify (keepsSettled_same fun _ => rfl)) fun _ => ?_
        refine Prog.acts_bind ⟨keepsSettled_same fun _ => rfl, fun _ => trivial⟩ fun connected => ?_
        split
        · exact ih _ _
        · exact Prog.acts_bind (Prog.acts_modify (keepsSettled_same fun _ => rfl)) fun _ => ih _ _

theorem configureLiberaSystem_state (s : Impl) : (configureLiberaSystem options s).state = s.state := by
  unfold configureLiberaSystem
  split <;> rfl

theorem settled_targetsForUpdate (m : TargetMap) :
    Prog.Acts KeepsSettled (targetsForUpdate env options sel m) := by
  unfold targetsForUpdate
  simp only
  split
  · trivial
  · refine Prog.acts_bind (Prog.acts_modify (keepsSettled_same configureLiberaSystem_state)) fun _ => ?_
    refine Prog.acts_bind (Prog.acts_read (keepsSettled_same fun _ => rfl)) fun infos => ?_
    refine Prog.acts_bind (settled_connectMissing infos _ m) fun found => ?_
    exact Prog.acts_bind (settled_logErrors _) fun _ => trivial

/-- an update ends running or failed -/
theorem updateSection_settled (desired : List LinkedTarget)
    (groups : List PendingVirtualControllerHostGroup) (s : Impl) :
    Settled (updateSection env reg options desired groups s).2 := by
  unfold updateSection
  split
  · exact ⟨RuntimeState.noConfusion, RuntimeState.noConfusion⟩
  · exact ⟨RuntimeState.noConfusion, RuntimeState.noConfusion⟩

theorem settled_regroup (m : TargetMap) : Prog.Acts KeepsSettled (regroup env reg options sel m) := by
  unfold regroup
  split
  · exact settled_failWith _
  · simp only
    split
    · exact settled_failWith _
    · split
      · exact Prog.acts_bind settled_stop fun _ => trivial
      · refine Prog.acts_bind ⟨fun s _ => updateSection_settled _ _ s, fun _ => trivial⟩ fun error => ?_
        cases error with
        | some error =>
          exact Prog.acts_bind (Prog.acts_modify (keepsSettled_same fun _ => rfl)) fun _ => trivial
        | none => trivial

theorem settled_updateRunningLink :
    Prog.Acts KeepsSettled (updateRunningLink env reg options sel) := by
  unfold updateRunningLink
  split
  · exact Prog.acts_bind settled_stop fun _ => trivial
  · refine Prog.acts_bind (Prog.acts_read (keepsSettled_same fun _ => rfl)) fun found => ?_
    obtain ⟨active, targets⟩ := found
    simp only
    split
    · exact Prog.acts_bind settled_stop fun _ => trivial
    · exact Prog.acts_bind (settled_targetsForUpdate _) fun m =>
        Prog.acts_bind (settled_regroup m) fun _ => trivial

/-! ## the calls -/

/-- a start that does not go ahead leaves the state as it is -/
theorem gate_settles {s : Impl} (hs : Settled s) :
    Prog.Holds Meddles (fun _ _ _ => True) gate (fun g s' => g ≠ .fresh → Settled s') s := by
  intro s1 hr
  have h1 := hr.settled hs
  refine ⟨trivial, fun hgoes => ?_⟩
  show Settled (gateState s1)
  unfold gateState
  cases hgate : gateOf s1 with
  | refused => exact h1
  | fresh => exact absurd hgate hgoes
  | update => exact h1

theorem startFuel_settles (n : Nat) {s : Impl} (hs : Settled s) :
    Settles (startFuel env reg options sel n) s := by
  induction n generalizing s with
  | zero => exact hs
  | succ n ih =>
    unfold startFuel
    refine Prog.holds_seq (gate_settles hs) fun g s1 h1 => ?_
    cases g with
    | refused => exact h1 Gate.noConfusion
    | fresh => exact startLink_settles _
    | update =>
      have hs1 : Settled s1 := h1 Gate.noConfusion
      refine Prog.holds_seq (settles_of_acts settled_updateRunningLink hs1) fun r s2 h2 => ?_
      cases r with
      | some r => exact h2
      | none => exact ih h2

/-- a scan that its state check refuses leaves the runtime as it is -/
theorem scanGate_settles {s : Impl} (hs : Settled s) : Prog.Holds Meddles (fun _ _ _ => True)
    scanGate (fun refused s' => refused = true → Settled s') s := by
  intro s1 hr
  refine ⟨trivial, fun hrefused => ?_⟩
  show Settled (if _ then s1 else _)
  rw [if_pos (of_decide_eq_true hrefused)]
  exact hr.settled hs

theorem scan_settles {s : Impl} (hs : Settled s) : Settles (scan env options) s := by
  unfold scan
  refine Prog.holds_seq (scanGate_settles hs) fun refused s1 h1 => ?_
  split
  · rename_i hrefused
    exact h1 hrefused
  · refine settles_last (fun _ s2 => settles_last (fun _ s3 => settles_last (fun _ s4 =>
      settles_last (fun found s5 => settles_last (fun errorSet s6 => settles_last (fun stopped s7 => ?_) s6)
        s5) s4) s3) s2) s1
    split
    · refine settles_setState ⟨RuntimeState.noConfusion, RuntimeState.noConfusion⟩ ?_ s7
      trivial
    · intro s8 _
      refine ⟨trivial, ?_⟩
      show Settled (storeScan found _ s8)
      unfold storeScan Impl.withState Settled
      simp only
      split
      · exact ⟨RuntimeState.noConfusion, RuntimeState.noConfusion⟩
      · exact ⟨RuntimeState.noConfusion, RuntimeState.noConfusion⟩

end

/-- the calls that the tasks of the GUI make -/
def IsTask (env : Env) (reg : Registry) (p : LinkM Bool) : Prop :=
  (∃ options, p = Call.prog env reg (.scan options)) ∨
    (∃ options sel, p = Call.prog env reg (.start options sel)) ∨ p = Call.prog env reg .stop

/-- **A task leaves a runtime that neither scans nor starts.** -/
theorem call_settles {env : Env} {reg : Registry} {p : LinkM Bool} (hp : IsTask env reg p) {s : Impl}
    (hs : Settled s) : Settles p s := by
  rcases hp with ⟨options, rfl⟩ | ⟨options, sel, rfl⟩ | rfl
  · exact scan_settles hs
  · exact startFuel_settles 2 hs
  · exact settles_of_acts (Prog.acts_bind settled_stop fun _ => trivial) hs

/-! ## a start without cached controllers -/

section
variable {env : Env} {reg : Registry} {options : LinkOptions} {sel : IdSet}

/-- the program is about to begin a discovery -/
def BeginsDiscovery (env : Env) (p : LinkM Bool) : Prop :=
  ∃ (timeoutMs : Nat) (k : List ControllerInfo → LinkM Bool), p = discoverControllers env timeoutMs >>= k

theorem not_beginsDiscovery_ret (b : Bool) : ¬ BeginsDiscovery env (.ret b) := by
  rintro ⟨timeoutMs, k, h⟩
  cases h

/-- the controllers that a start with these options finds in the cache -/
def cachedFor (options : LinkOptions) (s : Impl) : List ControllerInfo :=
  (configureLiberaSystem options s).discoveredControllerInfos

/-- they are a matter of the discovery data -/
theorem cachedFor_data {s s' : Impl} (h : discoveryData s' = discoveryData s) :
    cachedFor options s' = cachedFor options s := by
  unfold discoveryData at h
  simp only [Prod.mk.injEq] at h
  obtain ⟨hinfos, hsystem, htypes, hdrivers⟩ := h
  unfold cachedFor configureLiberaSystem
  rw [hsystem, htypes, hdrivers]
  split
  · exact hinfos
  · rfl

theorem gateState_data (s : Impl) : discoveryData (gateState s) = discoveryData s := by
  unfold gateState
  split <;> rfl

/-- **A start that finds no controllers in the cache begins a discovery**, whether it is asked to stop
or not. -/
theorem start_discovers {s : Impl} (hfresh : gateOf s = .fresh)
    (hknown : fallbackUnknown reg options = false) (hcached : cachedFor options s = []) :
    Prog.Eventually Meddles (BeginsDiscovery env) (Call.prog env reg (.start options sel)) s := by
  -- what the start and the GUI's thread do until the discovery leaves the cache as it is
  have hkeep : ∀ {s s' : Impl}, discoveryData s' = discoveryData s → cachedFor options s = [] →
      cachedFor options s' = [] := fun hdata h => (cachedFor_data hdata).trans h
  refine Prog.eventually_exchange fun s1 h1 => ?_
  rw [h1.fresh hfresh]
  have hc1 : cachedFor options (gateState s1) = [] := hkeep (gateState_data s1) (hkeep h1.data hcached)
  show Prog.Eventually Meddles (BeginsDiscovery env) (startLink env reg options sel) _
  unfold startLink
  refine Prog.eventually_modify fun s2 h2 => Prog.eventually_modify fun s3 h3 => ?_
  have hc2 : cachedFor options (s2.withError "") = [] := hkeep rfl (hkeep h2.data hc1)
  have hc3 : cachedFor options (s3.withStop false) = [] := hkeep rfl (hkeep h3.data hc2)
  rw [if_neg (by rw [hknown]; exact Bool.false_ne_true)]
  refine Prog.eventually_modify fun s4 h4 => Prog.eventually_exchange fun s5 h5 => ?_
  have hempty : s5.discoveredControllerInfos = [] := by
    have hinfos : s5.discoveredControllerInfos =
        (configureLiberaSystem options s4).discoveredControllerInfos := congrArg Prod.fst h5.data
    exact hinfos.trans (hkeep h4.data hc3)
  rw [if_pos (by rw [hempty]; rfl)]
  unfold discoverForStart
  rw [Prog.bind_assoc]
  refine Prog.eventually_modify fun s6 _ => .now ?_
  rw [Prog.bind_assoc]
  exact ⟨options.discoveryTimeoutMs, _, rfl⟩

end

end LiberaLink.Gui
