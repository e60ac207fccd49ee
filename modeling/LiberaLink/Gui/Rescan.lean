import LiberaLink.Gui.Tasks
import LiberaLink.Lib.Weave

/-!
# Rescans of a running link

A rescan that is asked for while the link runs is carried out by a stop and a start.  The start looks for
controllers only if it finds none in the cache.

* `Answers`            what an action of the GUI's thread does for a rescan, `holdsIf_frame` in a frame;
* `Sound`              what holds in every state of a run;
* `Awaiting`           a rescan that has been asked for and no discovery has begun since;
* `rescan_discovers`   **a rescan is over only after a discovery**, if the start that answers it finds no
                       controllers in the cache.
-/

namespace LiberaLink.Gui
open Stepwise LinkRuntime Impl

/-! ## what is kept -/

/-- What the tasks do between two actions of the GUI's thread; without a task the runtime stays as it
is. -/
structure Calm (w w' : World) : Prop where
  others : Others w w'
  quiet : (∀ t, w.future t = none) → w'.runtime = w.runtime

namespace Calm
variable {w w' w'' : World}

theorem refl (w : World) : Calm w w := ⟨.refl w, fun _ => rfl⟩

theorem futures (h : Calm w w') (hnone : ∀ t, w.future t = none) (t : Task) : w'.future t = none := by
  have hvalid := h.others.valid t
  rw [hnone t] at hvalid
  exact Option.isNone_iff_eq_none.mp (Option.isSome_eq_false_iff.mp hvalid)

theorem trans (h : Calm w w') (h' : Calm w' w'') : Calm w w'' where
  others := h.others.trans h'.others
  quiet hnone := (h'.quiet (h.futures hnone)).trans (h.quiet hnone)

end Calm

section
variable (env : Env) (reg : Registry)

/-- **What an action of the GUI's thread does for a rescan.** -/
structure Answers (l : GuiAct) (w w' : World) : Prop where
  raised : w.gui.rescanInFlight = false → w'.gui.rescanInFlight = true → w.gui.busy = false ∧
    (∀ t, w.future t = none) ∧ ∀ t, w'.future t = none
  lowered : w.gui.rescanInFlight = true → w'.gui.rescanInFlight = false →
    w.gui.startInFlight = true ∧ w.future .start = none
  flagged : w'.gui.startInFlight = true → w.gui.startInFlight = true ∨ w.Outstanding .start
  kept : ∀ t, l ≠ .collect t → w.Outstanding t → w'.future t = w.future t
  launched : ∀ t p, w'.future t = some p → w.future t = some p ∨ l = .launch t ∧ IsTask env reg p
  started : ∀ p, w'.future .start = some p → w.future .start = some p ∨ l = .launch .start ∧ ∃ ids,
    p = Call.prog env reg (.start (w.gui.startOptions ids) ids) ∧
    fallbackUnknown reg w.gui.linkOptions = false ∧
    (w.gui.rescanInFlight = true → (takeSnapshot w.runtime).linkRunning = false)
  settled : Settled w.runtime → Settled w'.runtime
  fresh : gateOf w.runtime = .fresh → gateOf w'.runtime = .fresh

/-- the GUI's thread is at the end of a frame -/
def AtDispatch (p : GuiM Unit) : Prop := ∃ snapshot, p = dispatch env reg snapshot

/-- The end of a frame that finds a rescan for a link that does not run finds a selection to start. -/
def Selects (p : GuiM Unit) (w : World) : Prop :=
  AtDispatch env reg p → w.gui.rescanInFlight = true → w.gui.busy = false →
    (takeSnapshot w.runtime).linkRunning = false →
    (w.gui.selectedLinkableIds (takeSnapshot w.runtime)).ids ≠ []

/-- what holds in a frame after its snapshot: while no task is in flight, the snapshot is up to date -/
structure Seen (snapshot : RuntimeSnapshot) (w : World) : Prop where
  tidy : Tidy w
  known : fallbackUnknown reg w.gui.linkOptions = false
  current : w.gui.busy = false → takeSnapshot w.runtime = snapshot

end

/-! ## actions that have nothing to do with a rescan -/

/-- The action leaves the futures, the flags and the default host as they are. -/
structure Aside (reg : Registry) (_ : GuiAct) (u : World → World) : Prop where
  future : ∀ w, (u w).future = w.future
  flags : ∀ w, (u w).gui.inFlight = w.gui.inFlight
  rescan : ∀ w, (u w).gui.rescanInFlight = w.gui.rescanInFlight
  known : ∀ w, fallbackUnknown reg w.gui.linkOptions = false →
    fallbackUnknown reg (u w).gui.linkOptions = false
  settled : ∀ w, Settled w.runtime → Settled (u w).runtime
  fresh : ∀ w, gateOf w.runtime = .fresh → gateOf (u w).runtime = .fresh

/-- the action leaves what a snapshot shows as it is as well -/
structure Steady (reg : Registry) (l : GuiAct) (u : World → World) : Prop extends Aside reg l u where
  current : ∀ w, takeSnapshot (u w).runtime = takeSnapshot w.runtime

section
variable {env : Env} {reg : Registry} {snapshot : RuntimeSnapshot} {w w' : World} {l : GuiAct}
  {u : World → World}

/-- an action that leaves `rescanInFlight` as it is neither asks for a rescan nor ends one -/
theorem not_raised {a b : Bool} {Q : Prop} (hsame : b = a) (hfalse : a = false) (htrue : b = true) : Q := by
  rw [hsame, hfalse] at htrue
  cases htrue

theorem not_lowered {a b : Bool} {Q : Prop} (hsame : b = a) (htrue : a = true) (hfalse : b = false) : Q := by
  rw [hsame, htrue] at hfalse
  cases hfalse

theorem busy_congr {g g' : Locals} (h : g'.inFlight = g.inFlight) : g'.busy = g.busy := by
  unfold Locals.busy Locals.scanInFlight Locals.startInFlight Locals.stopInFlight
  rw [h]

theorem Aside.answers (h : Aside reg l u) (w : World) : Answers env reg l w (u w) where
  raised := not_raised (h.rescan w)
  lowered := not_lowered (h.rescan w)
  flagged hstart := by
    unfold Locals.startInFlight at hstart
    rw [h.flags] at hstart
    exact .inl hstart
  kept t _ _ := congrFun (h.future w) t
  launched t p hp := .inl (by rwa [h.future] at hp)
  started p hp := .inl (by rwa [h.future] at hp)
  settled := h.settled w
  fresh := h.fresh w

theorem Aside.tidy (h : Aside reg l u) (ht : Tidy w) : Tidy (u w) where
  one t t' ht1 ht2 := by
    unfold World.Outstanding at ht1 ht2
    rw [h.future] at ht1 ht2
    exact ht.one t t' ht1 ht2
  flags t := by
    rw [h.flags, h.future]
    exact ht.flags t

theorem Seen.calm (h : Seen reg snapshot w) (hr : Calm w w') : Seen reg snapshot w' where
  tidy := hr.others.tidy h.tidy
  known := by
    rw [hr.others.gui]
    exact h.known
  current hb := by
    rw [hr.others.gui] at hb
    rw [hr.quiet (h.tidy.idle hb)]
    exact h.current hb

theorem Seen.steady (h : Seen reg snapshot w) (hu : Steady reg l u) : Seen reg snapshot (u w) where
  tidy := hu.tidy h.tidy
  known := hu.known w h.known
  current hb := by
    rw [busy_congr (hu.flags w)] at hb
    rw [hu.current]
    exact h.current hb

end

/-! ## programs of the GUI's thread -/

/-- the programs that keep what holds in a frame -/
def KeepsSeen (env : Env) (reg : Registry) (snapshot : RuntimeSnapshot) {α : Type} (p : GuiM α) : Prop :=
  ∀ w : World, Seen reg snapshot w →
    Prog.Holds Calm (Answers env reg) p (fun _ w' => Seen reg snapshot w') w

section
variable {env : Env} {reg : Registry} {snapshot : RuntimeSnapshot} {w : World} {α β : Type}

theorem keepsSeen_bind {p : GuiM α} {f : α → GuiM β} (hp : KeepsSeen env reg snapshot p)
    (hf : ∀ a, KeepsSeen env reg snapshot (f a)) : KeepsSeen env reg snapshot (p >>= f) :=
  fun _ h => Prog.holds_seq (hp _ h) hf

theorem keepsSeen_each {γ : Type} {f : γ → GuiM Unit} (hf : ∀ x, KeepsSeen env reg snapshot (f x))
    (xs : List γ) : KeepsSeen env reg snapshot (Prog.each f xs) :=
  fun _ h => Prog.holds_each (fun x s => hf x s) xs h

theorem keepsSeen_when {c : Bool} {p : GuiM Unit} (hp : KeepsSeen env reg snapshot p) :
    KeepsSeen env reg snapshot (Prog.when c p) := fun _ h => Prog.holds_when h fun _ => hp _ h

theorem keepsSeen_steady {p : GuiM α} (hp : Prog.Acts (Steady reg) p) : KeepsSeen env reg snapshot p := by
  intro w h
  refine Prog.holds_of_acts hp (fun h hr => h.calm hr) ?_ h
  exact fun l u hu w' h' => ⟨hu.toAside.answers w', h'.steady hu⟩

/-- while a task is in flight, the snapshot need not be up to date -/
theorem keepsSeen_busy {p : GuiM α} (hp : Prog.Acts (Aside reg) p) (h : Seen reg snapshot w)
    (hb : w.gui.busy = true) :
    Prog.Holds Calm (Answers env reg) p (fun _ w' => Seen reg snapshot w') w := by
  refine Prog.holds_mono (Prog.holds_of_acts
    (R := fun w' => Seen reg snapshot w' ∧ w'.gui.busy = true) hp ?_ ?_ ⟨h, hb⟩) fun _ _ h' => h'.1
  · rintro w1 w2 ⟨h1, hb1⟩ hr
    exact ⟨h1.calm hr, by rw [hr.others.gui]; exact hb1⟩
  · rintro l u hu w1 ⟨h1, hb1⟩
    have hb2 : (u w1).gui.busy = true := by rw [busy_congr (hu.flags w1)]; exact hb1
    refine ⟨hu.answers w1, ⟨hu.tidy h1.tidy, hu.known w1 h1.known, ?_⟩, hb2⟩
    intro hidle
    rw [hb2] at hidle
    cases hidle

/-- outside a frame only the flags count -/
theorem holds_aside {p : GuiM α} (hp : Prog.Acts (Aside reg) p) (h : Tidy w) :
    Prog.Holds Calm (Answers env reg) p (fun _ w' => Tidy w') w :=
  Prog.holds_of_acts hp (fun h hr => hr.others.tidy h) (fun _ _ hu w' h' => ⟨hu.answers w', hu.tidy h'⟩) h

/-- an action on the variables of the loop -/
theorem steady_own {u : World → World} (hf : ∀ w, (u w).future = w.future)
    (hg : ∀ w, (u w).gui.inFlight = w.gui.inFlight)
    (hrescan : ∀ w, (u w).gui.rescanInFlight = w.gui.rescanInFlight)
    (hknown : ∀ w, fallbackUnknown reg w.gui.linkOptions = false →
      fallbackUnknown reg (u w).gui.linkOptions = false)
    (hr : ∀ w, (u w).runtime = w.runtime) : Steady reg .own u where
  future := hf
  flags := hg
  rescan := hrescan
  known := hknown
  settled w h := by rw [hr]; exact h
  fresh w h := by rw [hr]; exact h
  current w := by rw [hr]

theorem steady_assign {f : Locals → Locals} (hg : ∀ g, (f g).inFlight = g.inFlight)
    (hrescan : ∀ g, (f g).rescanInFlight = g.rescanInFlight)
    (hknown : ∀ g : Locals, fallbackUnknown reg g.linkOptions = false →
      fallbackUnknown reg (f g).linkOptions = false) : Prog.Acts (Steady reg) (assign f) :=
  Prog.acts_modify (steady_own (fun _ => rfl) (fun w => hg w.gui) (fun w => hrescan w.gui)
    (fun w => hknown w.gui) fun _ => rfl)

theorem steady_locals : Prog.Acts (Steady reg) locals :=
  Prog.acts_read (steady_own (fun _ => rfl) (fun _ => rfl) (fun _ => rfl) (fun _ h => h) fun _ => rfl)

/-- the variables as they are read -/
theorem seen_locals {f : Locals → GuiM α} {Q : α → World → Prop} (h : Seen reg snapshot w)
    (hf : ∀ w' : World, Seen reg snapshot w' → w'.gui = w.gui →
      Prog.Holds Calm (Answers env reg) (f w'.gui) Q w') :
    Prog.Holds Calm (Answers env reg) (locals >>= f) Q w := by
  have hsteady : Prog.Acts (Steady reg) locals := steady_locals
  intro w' hr
  exact ⟨hsteady.1.toAside.answers w', hf w' (h.calm hr) hr.others.gui⟩

/-- the action keeps the runtime from scanning, starting and running -/
def KeepsIdle (_ : Act) (u : Impl → Impl) : Prop :=
  ∀ s, (Settled s → Settled (u s)) ∧ (gateOf s = .fresh → gateOf (u s) = .fresh)

theorem keepsIdle_state {l : Act} {u : Impl → Impl}
    (h : ∀ s, (u s).state = s.state ∨ (u s).state = .stopped) : KeepsIdle l u := by
  refine fun s => ⟨fun hs => ?_, fresh_of_state (h s)⟩
  unfold Settled at hs ⊢
  rcases h s with hsame | hstopped
  · rw [hsame]
    exact hs
  · rw [hstopped]
    decide

theorem idle_requestStop : Prog.Acts KeepsIdle LinkRuntime.requestStop := by
  refine Prog.acts_bind (Prog.acts_modify (keepsIdle_state fun _ => .inl rfl)) fun _ => ?_
  refine Prog.acts_modify fun s => ⟨(settled_requestStop.2 s).1 s, fun hfresh => ?_⟩
  -- a request takes back a link that starts or runs, and no other
  have hsame : markStop s = s := by
    refine if_neg fun hbusy => ?_
    unfold gateOf at hfresh
    rcases hbusy with hstate | hstate
    · rw [hstate] at hfresh
      cases hfresh
    · rw [hstate] at hfresh
      cases hfresh
  rw [hsame]
  exact hfresh

theorem idle_stop : Prog.Acts KeepsIdle LinkRuntime.stop := by
  refine Prog.acts_bind idle_requestStop fun _ => ?_
  refine Prog.acts_bind (Prog.acts_modify (keepsIdle_state fun _ => .inl rfl)) fun _ => ?_
  refine Prog.acts_bind ⟨keepsIdle_state fun _ => .inr rfl, fun _ => trivial⟩ fun hosts => ?_
  exact Prog.acts_bind (Prog.acts_modify (keepsIdle_state fun _ => .inl rfl)) fun _ =>
    Prog.acts_modify (keepsIdle_state fun _ => .inl rfl)

/-- a call of the runtime on the GUI's thread -/
theorem aside_onRuntime {l : GuiAct} {p : LinkM α} (hp : Prog.Acts KeepsIdle p) :
    Prog.Acts (Aside reg) (onRuntime l p) := by
  refine Prog.acts_lift ?_ hp
  intro _ u hu
  exact ⟨fun _ => rfl, fun _ => rfl, fun _ => rfl, fun _ h => h, fun w => (hu w.runtime).1,
    fun w => (hu w.runtime).2⟩

/-! ## launching and collecting -/

/-- **A launch** while no flag is up.  A start that answers a rescan is one of a link that does not
run. -/
theorem holds_launched (h : Tidy w) (hb : w.gui.busy = false) (t : Task) (p : LinkM Bool)
    (hp : IsTask env reg p) (hstart : t = .start → ∃ ids,
      p = Call.prog env reg (.start (w.gui.startOptions ids) ids) ∧
      fallbackUnknown reg w.gui.linkOptions = false ∧
      (w.gui.rescanInFlight = true → (takeSnapshot w.runtime).linkRunning = false)) :
    Prog.Holds Calm (Answers env reg) (launch t p) (fun _ w' => Tidy w' ∧
      w'.gui = { w.gui with inFlight := Function.update w.gui.inFlight t true }) w := by
  have hnone := h.idle hb
  intro w1 h1
  have ht1 := h1.others.tidy h
  have hnone1 := h1.futures hnone
  have hone : (w1.setFuture t (some p)).OneTask := launched_oneTask hnone1 t p
  refine ⟨⟨not_raised rfl, not_lowered rfl, fun hflag => .inl hflag, ?_, ?_, ?_, id, id⟩,
    fun w2 h2 => ⟨⟨not_raised rfl, not_lowered rfl, ?_, fun _ _ _ => rfl,
    fun _ _ hf => .inl hf, fun _ hf => .inl hf, id, id⟩, ?_, ?_⟩⟩
  · intro t' _ ho
    unfold World.Outstanding at ho
    rw [hnone1] at ho
    cases ho
  · intro t' p' hf
    obtain ⟨rfl, rfl⟩ := launched_eq hnone1 hf
    exact .inr ⟨rfl, hp⟩
  · intro p' hf
    obtain ⟨rfl, rfl⟩ := launched_eq hnone1 hf
    obtain ⟨ids, hprog, hknown, hrunning⟩ := hstart rfl
    rw [h1.others.gui, h1.quiet hnone]
    exact .inr ⟨rfl, ids, hprog, hknown, hrunning⟩
  -- the flag follows the future
  · intro hflag
    by_cases ht : t = .start
    · right
      unfold World.Outstanding
      rw [h2.others.valid .start, ht]
      show (Function.update w1.future .start (some p) .start).isSome = true
      rw [Function.update_self]
      rfl
    · left
      change Function.update w2.gui.inFlight t true .start = true at hflag
      rwa [Function.update_of_ne (Ne.symm ht)] at hflag
  · exact ht1.setFuture hone h2.others rfl
  · show { w2.gui with inFlight := Function.update w2.gui.inFlight t true } = _
    rw [h2.others.gui]
    show { w1.gui with inFlight := Function.update w1.gui.inFlight t true } = _
    rw [h1.others.gui]

theorem busy_update (g : Locals) (t : Task) :
    ({ g with inFlight := Function.update g.inFlight t true } : Locals).busy = true := by
  cases t <;> simp [Locals.busy, Locals.scanInFlight, Locals.startInFlight, Locals.stopInFlight]

/-- a launch in a frame -/
theorem seen_launched (h : Seen reg snapshot w) (hb : w.gui.busy = false) (t : Task) (p : LinkM Bool)
    (hp : IsTask env reg p) (hstart : t = .start → ∃ ids,
      p = Call.prog env reg (.start (w.gui.startOptions ids) ids) ∧
      (w.gui.rescanInFlight = true → snapshot.linkRunning = false)) :
    Prog.Holds Calm (Answers env reg) (launch t p) (fun _ w' => Seen reg snapshot w') w := by
  refine Prog.holds_mono (holds_launched h.tidy hb t p hp ?_) ?_
  · intro ht
    obtain ⟨ids, hprog, hrunning⟩ := hstart ht
    rw [h.current hb]
    exact ⟨ids, hprog, h.known, hrunning⟩
  · rintro _ w' ⟨htidy, hgui⟩
    refine ⟨htidy, ?_, ?_⟩
    · rw [hgui]
      exact h.known
    · intro hidle
      rw [hgui, busy_update] at hidle
      cases hidle

theorem outstanding_of_ready {t : Task} (h : w.ready t = true) : w.Outstanding t := by
  unfold World.ready at h
  unfold World.Outstanding
  cases hf : w.future t with
  | none =>
    rw [hf] at h
    cases h
  | some p => rfl

/-- **A task that has finished is collected**, and with a start the rescan that it answers. -/
theorem holds_collect (h : Tidy w) (t : Task) :
    Prog.Holds Calm (Answers env reg) (collect t) (fun _ w' => Tidy w') w := by
  intro w1 h1
  have ht1 := h1.others.tidy h
  have hpoll : Aside reg (.poll t) (id : World → World) :=
    ⟨fun _ => rfl, fun _ => rfl, fun _ => rfl, fun _ h => h, fun _ h => h, fun _ h => h⟩
  refine ⟨hpoll.answers w1, ?_⟩
  refine Prog.holds_when (R := Tidy) ht1 fun hready w2 h2 => ?_
  have ht2 := h2.others.tidy ht1
  have hcollected : (w2.setFuture t none).future t = none := Function.update_self _ _ _
  have hone : (w2.setFuture t none).OneTask := collected_oneTask ht2.one t
  have hflag : w2.gui.inFlight t = true := by
    rw [ht2.flags, h2.others.valid]
    exact outstanding_of_ready hready
  refine ⟨⟨not_raised rfl, not_lowered rfl, fun hstart => .inl hstart, ?_,
    fun t' p hf => .inl (collected_eq hf), fun p hf => .inl (collected_eq hf), id, id⟩,
    fun w3 h3 => ⟨⟨?_, ?_, ?_, fun _ _ _ => rfl, fun _ _ hf => .inl hf, fun _ hf => .inl hf, id, id⟩, ?_⟩⟩
  · intro t' hne _
    refine Function.update_of_ne ?_ _ _
    rintro rfl
    exact hne rfl
  · intro hfalse htrue
    cases t with
    | scan => exact not_raised rfl hfalse htrue
    | start => cases htrue
    | stop => exact not_raised rfl hfalse htrue
  · -- only a start that has been collected is the end of a rescan
    intro htrue hfalse
    cases t with
    | scan => exact not_lowered rfl htrue hfalse
    | stop => exact not_lowered rfl htrue hfalse
    | start =>
      refine ⟨?_, ?_⟩
      · show w3.gui.inFlight .start = true
        rw [h3.others.gui]
        exact hflag
      · have hvalid := h3.others.valid .start
        rw [hcollected] at hvalid
        exact Option.isNone_iff_eq_none.mp (Option.isSome_eq_false_iff.mp hvalid)
  · intro hstart
    left
    change (afterCollect t w3.gui).inFlight .start = true at hstart
    rw [afterCollect_inFlight] at hstart
    by_cases ht : t = .start
    · rw [ht, Function.update_self] at hstart
      cases hstart
    · rwa [Function.update_of_ne (Ne.symm ht)] at hstart
  · exact ht2.setFuture hone h3.others (afterCollect_inFlight t w3.gui)

/-! ## a frame -/

theorem seen_launchScan (h : Seen reg snapshot w) (hb : w.gui.busy = false) :
    Prog.Holds Calm (Answers env reg) (launchScan env reg) (fun _ w' => Seen reg snapshot w') w :=
  seen_locals h fun _ h' hg => seen_launched h' (hg ▸ hb) _ _ (.inl ⟨_, rfl⟩) Task.noConfusion

theorem seen_launchStop (h : Seen reg snapshot w) (hb : w.gui.busy = false) :
    Prog.Holds Calm (Answers env reg) (launchStop env reg) (fun _ w' => Seen reg snapshot w') w :=
  seen_launched h hb _ _ (.inr (.inr rfl)) Task.noConfusion

theorem seen_launchSelectedStart (h : Seen reg snapshot w) (hb : w.gui.busy = false) (ids : IdSet)
    (hrunning : w.gui.rescanInFlight = true → snapshot.linkRunning = false) :
    Prog.Holds Calm (Answers env reg) (launchSelectedStart env reg ids)
      (fun _ w' => Seen reg snapshot w') w := by
  refine Prog.holds_when h fun _ => seen_locals h fun w' h' hg => ?_
  rw [← hg] at hrunning
  exact seen_launched h' (hg ▸ hb) _ _ (.inr (.inl ⟨_, _, rfl⟩)) fun _ => ⟨ids, rfl, hrunning⟩

/-- an assignment that leaves the flags and the host alone, with what is known of the flags -/
theorem seen_assign {f : Locals → Locals} {p : GuiM α} {Q : α → World → Prop} (h : Seen reg snapshot w)
    (hg : ∀ g, (f g).inFlight = g.inFlight) (hrescan : ∀ g, (f g).rescanInFlight = g.rescanInFlight)
    (hoptions : ∀ g, (f g).linkOptions = g.linkOptions)
    (hp : ∀ w' : World, Seen reg snapshot w' → w'.gui = f w.gui →
      Prog.Holds Calm (Answers env reg) p Q w') :
    Prog.Holds Calm (Answers env reg) (assign f >>= fun _ => p) Q w := by
  intro w1 h1
  have hsteady : Prog.Acts (Steady reg) (assign f) :=
    steady_assign hg hrescan fun g hknown => by rw [hoptions]; exact hknown
  refine ⟨hsteady.1.toAside.answers w1, hp _ ((h.calm h1).steady hsteady.1) ?_⟩
  show f w1.gui = f w.gui
  rw [h1.others.gui]

/-- a rescan is asked for while no task is in flight -/
theorem seen_raise (h : Seen reg snapshot w) (hb : w.gui.busy = false) :
    Prog.Holds Calm (Answers env reg)
      (assign fun g => { g with rescanInFlight := true, linkSyncPending := false })
      (fun _ w' => Seen reg snapshot w') w := by
  intro w1 h1
  have h1' := h.calm h1
  have hb1 : w1.gui.busy = false := by rw [h1.others.gui]; exact hb
  have hnone := h1'.tidy.idle hb1
  refine ⟨⟨fun _ _ => ⟨hb1, hnone, hnone⟩, ?_, fun hstart => .inl hstart, fun _ _ _ => rfl,
    fun _ _ hf => .inl hf, fun _ hf => .inl hf, id, id⟩, ⟨⟨h1'.tidy.one, h1'.tidy.flags⟩, h1'.known,
    h1'.current⟩⟩
  intro _ hfalse
  cases hfalse

theorem keepsSeen_linkChanged : KeepsSeen env reg snapshot linkChanged := by
  refine keepsSeen_bind (keepsSeen_steady (steady_assign (fun _ => rfl) (fun _ => rfl) fun _ h => h))
    fun _ w h => ?_
  refine seen_locals h fun w' h' _ => Prog.holds_when h' fun hstart => ?_
  refine keepsSeen_busy (aside_onRuntime idle_requestStop) h' ?_
  unfold Locals.busy
  rw [hstart, Bool.or_true, Bool.true_or]

theorem keepsSeen_requestDiscoverySettingsSync :
    KeepsSeen env reg snapshot (requestDiscoverySettingsSync env reg snapshot) := by
  refine keepsSeen_bind (keepsSeen_steady (steady_assign (fun _ => rfl) (fun _ => rfl) fun _ h => h))
    fun _ w h => ?_
  refine seen_locals h fun w' h' _ => ?_
  split
  · rename_i hidle
    have hb : w'.gui.busy = false := by simpa using (Bool.and_eq_true_iff.mp hidle).1
    split
    · exact seen_raise h' hb
    · exact seen_assign h' (by intro; rfl) (by intro; rfl) (by intro; rfl) fun w1 h1 hg1 =>
        seen_launchScan h1 (by rw [hg1]; exact hb)
  · refine seen_assign h' (by intro; rfl) (by intro; rfl) (by intro; rfl) fun w1 h1 hg1 => ?_
    refine Prog.holds_when h1 fun hstart => keepsSeen_busy (aside_onRuntime idle_requestStop) h1 ?_
    rw [hg1]
    show w'.gui.busy = true
    unfold Locals.busy
    rw [hstart, Bool.or_true, Bool.true_or]

/-- clearing the cache leaves the snapshot and the state as they are -/
theorem steady_invalidate : Prog.Acts (Steady reg) (onRuntime .invalidate invalidateDiscoveryCache) := by
  refine Prog.acts_lift
    (P := fun _ u => u = fun s : Impl => { s with discoveredControllerInfos := [] }) ?_
    (Prog.acts_modify rfl)
  rintro _ _ rfl
  exact ⟨⟨fun _ => rfl, fun _ => rfl, fun _ => rfl, fun _ h => h, fun _ h => h, fun _ h => h⟩,
    fun _ => rfl⟩

theorem keepsSeen_rescanButton (clicked : Bool) :
    KeepsSeen env reg snapshot (rescanButton env reg snapshot clicked) := by
  intro w h
  refine seen_locals h fun w' h' _ => ?_
  split
  · exact h'
  · rename_i hscan
    split
    · exact h'
    · refine Prog.holds_when h' fun hclick => ?_
      have hb : w'.gui.busy = false := by
        have hrest := (Bool.and_eq_true_iff.mp hclick).2
        unfold Locals.busy
        simp_all
      split
      · intro w1 h1
        have hb1 : w1.gui.busy = false := by rw [h1.others.gui]; exact hb
        have hsteady : Prog.Acts (Steady reg) (onRuntime .invalidate invalidateDiscoveryCache) :=
          steady_invalidate
        have h2 := (h'.calm h1).steady hsteady.1
        exact ⟨hsteady.1.toAside.answers w1, seen_raise h2 hb1⟩
      · exact seen_launchScan h' hb

theorem keepsSeen_bulkButton (clicked : Bool) :
    KeepsSeen env reg snapshot (bulkButton snapshot clicked) := by
  refine keepsSeen_bind (keepsSeen_steady steady_locals) fun _ => keepsSeen_steady (Prog.acts_when ?_)
  exact steady_assign (by intro; rfl) (by intro; rfl) (by intro _ h; exact h)

theorem keepsSeen_controllerRow (controller : DiscoveredControllerSnapshot) (input : RowInput) :
    KeepsSeen env reg snapshot (controllerRow reg controller input) := by
  have hchange : ∀ {c : Bool} {f : Locals → Locals}, (∀ g, (f g).inFlight = g.inFlight) →
      (∀ g, (f g).rescanInFlight = g.rescanInFlight) → (∀ g, (f g).linkOptions = g.linkOptions) →
      KeepsSeen env reg snapshot (Prog.when c (assign f >>= fun _ => linkChanged)) := by
    intro c f hg hrescan hoptions
    refine keepsSeen_when (keepsSeen_bind (keepsSeen_steady (steady_assign hg hrescan fun g h => ?_))
      fun _ => keepsSeen_linkChanged)
    rw [hoptions]
    exact h
  refine keepsSeen_bind (hchange (by intro; rfl) (by intro; rfl) (by intro; rfl)) fun _ => ?_
  refine keepsSeen_bind (hchange (by intro; rfl) (by intro; rfl) (by intro; rfl)) fun _ => ?_
  exact keepsSeen_each (fun _ => hchange (by intro; rfl) (by intro; rfl) (by intro; rfl)) _

theorem keepsSeen_managerRow (input : SettingsInput) (locked : Bool) (type : String) :
    KeepsSeen env reg snapshot (managerRow env reg snapshot input locked type) := by
  have hsync : ∀ {f : Locals → Locals}, (∀ g, (f g).inFlight = g.inFlight) →
      (∀ g, (f g).rescanInFlight = g.rescanInFlight) → (∀ g : Locals,
        fallbackUnknown reg g.linkOptions = false → fallbackUnknown reg (f g).linkOptions = false) →
      KeepsSeen env reg snapshot (assign f >>= fun _ => requestDiscoverySettingsSync env reg snapshot) :=
    fun hg hrescan hknown => keepsSeen_bind (keepsSeen_steady (steady_assign hg hrescan hknown))
      fun _ => keepsSeen_requestDiscoverySettingsSync
  refine keepsSeen_bind (keepsSeen_when ?_) fun _ => keepsSeen_when (keepsSeen_each (fun _ => ?_) _)
  · exact hsync (by intro; rfl) (by intro; rfl) (by intro _ h; exact h)
  · exact hsync (by intro; rfl) (by intro; rfl) (by intro _ h; exact h)

/-- a registered host is not unknown -/
theorem known_of_find {options : LinkOptions}
    (h : (findVirtualControllerHost reg options.virtualControllerHostId).isSome) :
    fallbackUnknown reg options = false := by
  unfold fallbackUnknown fallbackVirtualControllerHostInfo
  split
  · rw [Option.isSome_iff_exists] at h
    obtain ⟨info, hinfo⟩ := h
    rw [hinfo]
    exact Bool.and_false _
  · rename_i hempty
    rw [decide_eq_false hempty]
    rfl

theorem keepsSeen_settingsWindow (input : SettingsInput) :
    KeepsSeen env reg snapshot (settingsWindow env reg snapshot input) := by
  refine keepsSeen_bind (keepsSeen_steady steady_locals) fun _ => ?_
  refine keepsSeen_bind (keepsSeen_when fun w h => ?_) fun _ => ?_
  · refine Prog.holds_each_mem reg.registrations (fun host hhost w' h' => ?_) h
    refine keepsSeen_steady (Prog.acts_when ?_) w' h'
    refine steady_assign (by intro; rfl) (by intro; rfl) fun _ _ => known_of_find ?_
    show (findVirtualControllerHost reg host.info.id).isSome
    rw [findVirtualControllerHost_mem hhost]
    rfl
  refine keepsSeen_bind (keepsSeen_steady steady_locals) fun _ => ?_
  refine keepsSeen_bind (keepsSeen_when ?_) fun _ => ?_
  · refine keepsSeen_bind (keepsSeen_steady ?_) fun _ => keepsSeen_requestDiscoverySettingsSync
    exact steady_assign (by intro; rfl) (by intro; rfl) (by intro _ h; exact h)
  · exact keepsSeen_each (fun type => keepsSeen_managerRow input _ type) _

theorem keepsSeen_avbWindow (changed : Bool) :
    KeepsSeen env reg snapshot (avbWindow env reg snapshot changed) :=
  keepsSeen_bind (keepsSeen_steady steady_locals) fun _ =>
    keepsSeen_when keepsSeen_requestDiscoverySettingsSync

/-- the checks at the begin of a frame leave a default host that is registered, or none -/
theorem known_checkSettings (g : Locals) :
    fallbackUnknown reg (Locals.checkSettings reg snapshot g).linkOptions = false := by
  by_cases hask : g.linkOptions.virtualControllerHostId = "" ∨
      (findVirtualControllerHost reg g.linkOptions.virtualControllerHostId).isNone
  · cases hdefault : defaultVirtualControllerHost reg with
    | none =>
      have hid : (Locals.checkSettings reg snapshot g).linkOptions.virtualControllerHostId = "" := by
        unfold Locals.checkSettings
        simp only [if_pos hask, hdefault]
      unfold fallbackUnknown
      rw [hid]
      rfl
    | some host =>
      refine known_of_find ?_
      have hid : (Locals.checkSettings reg snapshot g).linkOptions.virtualControllerHostId = host.id := by
        unfold Locals.checkSettings
        simp only [if_pos hask, hdefault]
      rw [hid, defaultVirtualControllerHost_find hdefault]
      rfl
  · refine known_of_find ?_
    have hid : (Locals.checkSettings reg snapshot g).linkOptions.virtualControllerHostId =
        g.linkOptions.virtualControllerHostId := if_neg hask
    rw [hid]
    have hsome := (not_or.mp hask).2
    cases hfind : findVirtualControllerHost reg g.linkOptions.virtualControllerHostId with
    | none =>
      rw [hfind] at hsome
      exact absurd rfl hsome
    | some info => rfl

/-- **The end of a frame** answers a rescan by a stop and a start, as long as there is a selection. -/
theorem holdsIf_dispatch (h : Seen reg snapshot w) :
    Prog.HoldsIf (Selects env reg) Calm (Answers env reg) (dispatch env reg snapshot)
      (fun _ w' => Tidy w') w := by
  intro w1 h1 hselects
  have h1' := h.calm h1
  have hsteady : Prog.Acts (Steady reg) locals := steady_locals
  refine ⟨hsteady.1.toAside.answers w1, Prog.Holds.holdsIf ?_⟩
  change Selects env reg (dispatch env reg snapshot) w1 at hselects
  have htidy : ∀ {p : GuiM Unit} {w' : World},
      Prog.Holds Calm (Answers env reg) p (fun _ w' => Seen reg snapshot w') w' →
      Prog.Holds Calm (Answers env reg) p (fun _ w' => Tidy w') w' :=
    fun hp => Prog.holds_mono hp fun _ _ h' => h'.tidy
  show Prog.Holds Calm (Answers env reg) (if w1.gui.busy then _ else _) _ w1
  split
  · exact h1'.tidy
  · rename_i hbusy
    have hb : w1.gui.busy = false := by simpa using hbusy
    split
    · rename_i hrescan
      split
      · exact htidy (seen_launchStop h1' hb)
      · rename_i hrunning
        have hstopped : snapshot.linkRunning = false := by simpa using hrunning
        split
        · refine seen_assign h1' (by intro; rfl) (by intro; rfl) (by intro; rfl) fun w2 h2 hg => ?_
          exact htidy (seen_launchSelectedStart h2 (by rw [hg]; exact hb) _ fun _ => hstopped)
        · -- a rescan that finds no selection would be given up
          rename_i hempty
          have hselected := hselects ⟨snapshot, rfl⟩ hrescan hb (by rw [h1'.current hb]; exact hstopped)
          rw [h1'.current hb] at hselected
          exact absurd (by simpa using hempty) hselected
    · rename_i hrescan
      refine htidy (Prog.holds_when h1' fun _ => ?_)
      refine seen_assign h1' (by intro; rfl) (by intro; rfl) (by intro; rfl) fun w2 h2 hg => ?_
      have hb2 : w2.gui.busy = false := by rw [hg]; exact hb
      split
      · refine seen_launchSelectedStart h2 hb2 _ fun htrue => ?_
        rw [hg] at htrue
        exact absurd htrue hrescan
      · exact Prog.holds_when h2 fun _ => seen_launchStop h2 hb2

/-- **A frame** -/
theorem holdsIf_frame (input : FrameInput) (h : Tidy w) :
    Prog.HoldsIf (Selects env reg) Calm (Answers env reg) (frame env reg input)
      (fun _ w' => Tidy w') w := by
  unfold frame
  refine Prog.holdsIf_seq (holds_collect h .scan) fun _ w1 h1 => ?_
  refine Prog.holdsIf_seq (holds_collect h1 .start) fun _ w2 h2 => ?_
  refine Prog.holdsIf_seq (holds_collect h2 .stop) fun _ w3 h3 => ?_
  have hread : Prog.Holds Calm (Answers env reg) (Prog.read .snapshot fun w => takeSnapshot w.runtime)
      (fun snapshot w' => Tidy w' ∧ takeSnapshot w'.runtime = snapshot) w3 := by
    intro w4 h4
    have hplain : Aside reg .snapshot (id : World → World) :=
      ⟨fun _ => rfl, fun _ => rfl, fun _ => rfl, fun _ h => h, fun _ h => h, fun _ h => h⟩
    exact ⟨hplain.answers w4, h4.others.tidy h3, rfl⟩
  refine Prog.holdsIf_seq hread fun snapshot w4 h4 => ?_
  have hcheck : Prog.Holds Calm (Answers env reg) (assign (Locals.checkSettings reg snapshot))
      (fun _ w' => Seen reg snapshot w') w4 := by
    intro w5 h5
    have ht5 := h5.others.tidy h4.1
    have haside : Aside reg .own fun w => { w with gui := Locals.checkSettings reg snapshot w.gui } :=
      ⟨fun _ => rfl, fun _ => rfl, fun _ => rfl, fun w _ => known_checkSettings w.gui, fun _ h => h,
        fun _ h => h⟩
    refine ⟨haside.answers w5, haside.tidy ht5, known_checkSettings w5.gui, fun hb => ?_⟩
    have hidle : w4.gui.busy = false := by
      rw [← h5.others.gui]
      exact hb
    show takeSnapshot w5.runtime = snapshot
    rw [h5.quiet (h4.1.idle hidle)]
    exact h4.2
  refine Prog.holdsIf_seq hcheck fun _ w5 h5 => ?_
  refine Prog.holdsIf_seq (keepsSeen_rescanButton _ w5 h5) fun _ w6 h6 => ?_
  refine Prog.holdsIf_seq (keepsSeen_bulkButton _ w6 h6) fun _ w7 h7 => ?_
  refine Prog.holdsIf_seq (keepsSeen_each (fun _ => keepsSeen_controllerRow _ _) _ w7 h7) fun _ w8 h8 => ?_
  refine Prog.holdsIf_seq (keepsSeen_settingsWindow _ w8 h8) fun _ w9 h9 => ?_
  refine Prog.holdsIf_seq (keepsSeen_avbWindow _ w9 h9) fun _ w10 h10 => ?_
  exact holdsIf_dispatch h10

theorem holds_shutdown (h : Tidy w) :
    Prog.Holds Calm (Answers env reg) shutdown (fun _ w' => Tidy w') w := by
  refine holds_aside (Prog.acts_bind (aside_onRuntime idle_requestStop) fun _ => ?_) h
  refine Prog.acts_bind (Prog.acts_each (fun _ => Prog.acts_read ?_) _) fun _ => ?_
  · exact ⟨fun _ => rfl, fun _ => rfl, fun _ => rfl, fun _ h => h, fun _ h => h, fun _ h => h⟩
  · exact aside_onRuntime idle_stop

end

/-! ## the runs -/

namespace System
variable (env : Env) (reg : Registry)

/-- What holds in every state of a run. -/
structure Sound (s : System) : Prop where
  orderly : s.Orderly
  gui : Prog.HoldsIf (Selects env reg) Calm (Answers env reg) s.gui (fun _ w => Tidy w) s.world
  settles : ∀ t p, s.world.future t = some p → Settles p s.world.runtime
  settled : (∀ t, s.world.future t = none) → Settled s.world.runtime

/-- A rescan of a link that has been stopped is answered by a start, and the start finds no controllers
in the cache. -/
structure FromScratch (s : System) (m : Move) : Prop where
  selects : m = .gui → Selects env reg s.gui s.world
  uncached : m = .gui → s.gui.next = some (.launch .start) → s.world.gui.rescanInFlight = true →
    cachedFor s.world.gui.linkOptions s.world.runtime = []

/-- A rescan has been asked for, and a start that is under way has yet to begin its discovery. -/
structure Awaiting (s : System) : Prop where
  rescan : s.world.gui.rescanInFlight = true
  flag : s.world.gui.startInFlight = true → s.world.Outstanding .start
  start : ∀ p, s.world.future .start = some p →
    Prog.Eventually Meddles (BeginsDiscovery env) p s.world.runtime

/-- the next step of the task begins a discovery -/
def Discovers (s : System) (t : Task) : Prop :=
  s.world.runtime.terminated = false ∧ ∃ p, s.world.future t = some p ∧ BeginsDiscovery env p

variable {env reg} {s : System}

theorem Sound.init (settings : Settings) : Sound env reg (System.init env reg settings) where
  orderly := Orderly.init settings
  gui := by
    refine Prog.Holds.holdsIf ?_
    intro w1 h1
    have hsteady : Prog.Acts (Steady reg) locals := steady_locals
    have htidy : Tidy w1 := h1.others.tidy ⟨fun t _ h => (by cases h), fun _ => rfl⟩
    refine ⟨hsteady.1.toAside.answers w1, Prog.holds_mono (holds_launched htidy ?_ .scan _ (.inl ⟨_, rfl⟩)
      Task.noConfusion) fun _ _ h => h.1⟩
    show w1.gui.busy = false
    rw [h1.others.gui]
    rfl
  settles t p h := by cases h
  settled _ := ⟨RuntimeState.noConfusion, RuntimeState.noConfusion⟩

/-- an action of the GUI's thread, as the tasks see it -/
theorem meddles_of_answers {l : GuiAct} {w w' : World} (hg : Guarantee l w w')
    (ha : Answers env reg l w w')
    {t : Task} (ho : w.Outstanding t) : Meddles w.runtime w'.runtime where
  data := by
    refine hg.data ?_
    rintro rfl
    exact hg.idle rfl t ho
  settled := ha.settled
  fresh := ha.fresh

theorem not_outstanding {w : World} {t : Task} : ¬ w.Outstanding t ↔ w.future t = none := by
  unfold World.Outstanding
  rw [Bool.not_eq_true, Option.isSome_eq_false_iff, Option.isNone_iff_eq_none]

theorem futures_none_of_idle {w : World} (h : ∀ t, ¬ w.Outstanding t) (t : Task) : w.future t = none :=
  not_outstanding.mp (h t)

/-- a step of the GUI's thread -/
theorem Sound.act {l : GuiAct} {u : World → World} {k : World → GuiM Unit} {world : World}
    {closing : Bool}
    (h : Sound env reg ⟨world, .act l u k, closing⟩) (hok : Selects env reg (.act l u k) world) :
    Sound env reg ⟨u world, k world, closing⟩ := by
  obtain ⟨ha, hk⟩ := Prog.holdsIf_step Calm.refl h.gui hok
  obtain ⟨hg, horderly⟩ := Prog.holds_step Others.refl h.orderly.gui
  refine ⟨⟨hg.one, horderly⟩, hk, ?_, ?_⟩
  · intro t p hp
    rcases ha.launched t p hp with hold | ⟨rfl, hcall⟩
    · have hmeddles := meddles_of_answers hg ha (Option.isSome_of_eq_some hold)
      exact Prog.holds_stable (fun h1 h2 => h1.trans h2) (fun hq hr => hr.settled hq) (h.settles t p hold)
        hmeddles
    · exact call_settles hcall (ha.settled (h.settled (futures_none_of_idle (hg.idle rfl))))
  · intro hnone
    by_cases hidle : ∃ t, world.Outstanding t
    · obtain ⟨t, ho⟩ := hidle
      have hcollect : l = .collect t := by
        by_contra hne
        have hsame := ha.kept t hne ho
        rw [hnone t] at hsame
        unfold World.Outstanding at ho
        rw [← hsame] at ho
        cases ho
      -- the last task has finished, and has left the runtime settled
      have hready := hg.finished t hcollect
      unfold World.ready at hready
      split at hready
      · rename_i b hret
        exact ha.settled (h.settles t _ hret)
      · cases hready
    · exact ha.settled (h.settled (futures_none_of_idle (not_exists.mp hidle)))

/-- what a task does is no matter to the GUI's thread, and no other task is under way -/
theorem Sound.task (h : Sound env reg s) {t : Task} {l : Act} {u : Impl → Impl} {k : Impl → LinkM Bool}
    (hf : s.world.future t = some (.act l u k)) : Sound env reg { s with world :=
      { s.world.setFuture t (some (k s.world.runtime)) with runtime := u s.world.runtime } } := by
  have hothers := others_task hf
  have ho : s.world.Outstanding t := Option.isSome_of_eq_some hf
  have hstep := Prog.holds_step Meddles.refl (h.settles t _ hf)
  refine ⟨⟨hothers.oneTask h.orderly.one, ?_⟩, ?_, ?_, ?_⟩
  · exact Prog.holds_stable (fun h1 h2 => h1.trans h2) (fun ht hr => hr.tidy ht) h.orderly.gui hothers
  · refine Prog.holdsIf_stable (fun h1 h2 => h1.trans h2) (fun ht hr => hr.others.tidy ht) h.gui
      ⟨hothers, fun hnone => ?_⟩
    rw [hnone t] at hf
    cases hf
  · intro t' p hp
    by_cases ht : t' = t
    · rw [ht] at hp
      change Function.update s.world.future t (some (k s.world.runtime)) t = some p at hp
      rw [Function.update_self] at hp
      rw [← Option.some.inj hp]
      exact hstep.2
    · change Function.update s.world.future t (some (k s.world.runtime)) t' = some p at hp
      rw [Function.update_of_ne ht] at hp
      exact absurd (h.orderly.one t' t (Option.isSome_of_eq_some hp) ho) ht
  · intro hnone
    have hself := hnone t
    change Function.update s.world.future t (some (k s.world.runtime)) t = none at hself
    rw [Function.update_self] at hself
    cases hself

/-- **Every move keeps the system sound.** -/
theorem Sound.step (h : Sound env reg s) {m : Move} (hm : FromScratch env reg s m) :
    Sound env reg (s.step env reg m) := by
  unfold System.step
  split
  · exact h
  · cases m with
    | gui =>
      obtain ⟨world, gui, closing⟩ := s
      cases gui with
      | ret a => exact h
      | act l u k =>
        simp only
        split
        · exact h
        · exact h.act (hm.selects rfl)
    | frame input =>
      obtain ⟨world, gui, closing⟩ := s
      cases gui with
      | ret a =>
        simp only
        split
        · exact h
        · exact ⟨⟨h.orderly.one, keeps_frame env reg input world h.gui⟩, holdsIf_frame input h.gui,
            h.settles, h.settled⟩
      | act l u k => exact h
    | close =>
      obtain ⟨world, gui, closing⟩ := s
      cases gui with
      | ret a =>
        simp only
        split
        · exact h
        · exact ⟨⟨h.orderly.one, keeps_shutdown world h.gui⟩, Prog.Holds.holdsIf (holds_shutdown h.gui),
            h.settles, h.settled⟩
      | act l u k => exact h
    | task t =>
      cases hf : s.world.future t with
      | none => simp only [hf]; exact h
      | some p =>
        cases p with
        | ret b => simp only [hf]; exact h
        | act l u k =>
          simp only [hf]
          exact h.task hf

/-! ## a rescan that is asked for -/

theorem linkRunning_eq_false {s : Impl} (h : (takeSnapshot s).linkRunning = false) :
    s.state ≠ .running ∧ s.state ≠ .stopRequested := by
  unfold RuntimeSnapshot.linkRunning takeSnapshot at h
  simpa using h

/-- the actions of the GUI's thread keep a rescan waiting for its discovery -/
theorem Awaiting.act {l : GuiAct} {u : World → World} {k : World → GuiM Unit} {world : World}
    {closing : Bool} (h : Awaiting env ⟨world, .act l u k, closing⟩)
    (hs : Sound env reg ⟨world, .act l u k, closing⟩)
    (hm : FromScratch env reg ⟨world, .act l u k, closing⟩ .gui) :
    Awaiting env ⟨u world, k world, closing⟩ := by
  obtain ⟨ha, _⟩ := Prog.holdsIf_step Calm.refl hs.gui (hm.selects rfl)
  obtain ⟨hg, _⟩ := Prog.holds_step Others.refl hs.orderly.gui
  -- the start has not finished before it has begun its discovery
  have hcollect : l ≠ .collect .start := by
    intro hl
    have hready := hg.finished .start hl
    unfold World.ready at hready
    split at hready
    · rename_i b hret
      exact Prog.Eventually.not_ret (not_beginsDiscovery_ret b) (h.start _ hret)
    · cases hready
  refine ⟨?_, ?_, ?_⟩
  · show (u world).gui.rescanInFlight = true
    by_contra hlowered
    obtain ⟨hflag, hnone⟩ := ha.lowered h.rescan (Bool.eq_false_of_not_eq_true hlowered)
    exact not_outstanding.mpr hnone (h.flag hflag)
  · intro hflag
    have ho : world.Outstanding .start := by
      rcases ha.flagged hflag with hbefore | ho
      · exact h.flag hbefore
      · exact ho
    show ((u world).future .start).isSome = true
    rw [ha.kept .start hcollect ho]
    exact ho
  · intro p hp
    rcases ha.started p hp with hold | ⟨rfl, ids, rfl, hknown, hrunning⟩
    · exact (h.start p hold).stable (fun h1 h2 => h1.trans h2)
        (meddles_of_answers hg ha (Option.isSome_of_eq_some hold))
    · have hsettled : Settled world.runtime := hs.settled (futures_none_of_idle (hg.idle rfl))
      have hfresh : gateOf world.runtime = .fresh :=
        gateOf_eq_fresh.mpr ⟨hsettled, linkRunning_eq_false (hrunning h.rescan)⟩
      have hcached : cachedFor world.gui.linkOptions world.runtime = [] := hm.uncached rfl rfl h.rescan
      have hdata := hg.data GuiAct.noConfusion
      exact start_discovers (ha.fresh hfresh) hknown ((cachedFor_data hdata).trans hcached)

/-- so do the tasks, up to the discovery -/
theorem Awaiting.task (h : Awaiting env s) (hs : Sound env reg s) {t : Task} {l : Act} {u : Impl → Impl}
    {k : Impl → LinkM Bool} (hf : s.world.future t = some (.act l u k)) :
    t = .start ∧ BeginsDiscovery env (.act l u k) ∨ Awaiting env { s with world :=
      { s.world.setFuture t (some (k s.world.runtime)) with runtime := u s.world.runtime } } := by
  have hothers := others_task hf
  have hflag : s.world.gui.startInFlight = true → (Function.update s.world.future t
      (some (k s.world.runtime)) .start).isSome = true := by
    intro hstart
    have hvalid := hothers.valid .start
    change (Function.update s.world.future t (some (k s.world.runtime)) .start).isSome = _ at hvalid
    rw [hvalid]
    exact h.flag hstart
  by_cases ht : t = .start
  · subst ht
    rcases (h.start _ hf).step Meddles.refl with hgoal | hcloser
    · exact .inl ⟨rfl, hgoal⟩
    · refine .inr ⟨h.rescan, hflag, fun p hp => ?_⟩
      change Function.update s.world.future .start (some (k s.world.runtime)) .start = some p at hp
      rw [Function.update_self] at hp
      rw [← Option.some.inj hp]
      exact hcloser
  · refine .inr ⟨h.rescan, hflag, fun p hp => ?_⟩
    change Function.update s.world.future t (some (k s.world.runtime)) .start = some p at hp
    rw [Function.update_of_ne (Ne.symm ht)] at hp
    exact absurd (hs.orderly.one t .start (Option.isSome_of_eq_some hf) (Option.isSome_of_eq_some hp)) ht

/-- **A step of the start begins the discovery, or the rescan goes on waiting for it.** -/
theorem Awaiting.step (h : Awaiting env s) (hs : Sound env reg s) {m : Move}
    (hm : FromScratch env reg s m) :
    m = .task .start ∧ Discovers env s .start ∨ Awaiting env (s.step env reg m) := by
  by_cases hterminated : s.world.runtime.terminated = true
  · have hsame : s.step env reg m = s := if_pos hterminated
    rw [hsame]
    exact .inr h
  unfold System.step
  rw [if_neg hterminated]
  cases m with
  | gui =>
    right
    obtain ⟨world, gui, closing⟩ := s
    cases gui with
    | ret a => exact h
    | act l u k =>
      simp only
      split
      · exact h
      · exact h.act hs hm
  | frame input =>
    right
    obtain ⟨world, gui, closing⟩ := s
    cases gui with
    | ret a =>
      simp only
      split
      · exact h
      · exact ⟨h.rescan, h.flag, h.start⟩
    | act l u k => exact h
  | close =>
    right
    obtain ⟨world, gui, closing⟩ := s
    cases gui with
    | ret a =>
      simp only
      split
      · exact h
      · exact ⟨h.rescan, h.flag, h.start⟩
    | act l u k => exact h
  | task t =>
    cases hf : s.world.future t with
    | none => simp only [hf]; exact .inr h
    | some p =>
      cases p with
      | ret b => simp only [hf]; exact .inr h
      | act l u k =>
        simp only [hf]
        rcases h.task hs hf with ⟨rfl, hbegins⟩ | hstill
        · exact .inl ⟨rfl, Bool.eq_false_of_not_eq_true hterminated, _, hf, hbegins⟩
        · exact .inr hstill

variable (env reg) in
/-- the state after some moves -/
def after (s : System) (moves : List Move) : System := moves.foldl (System.step env reg) s

variable (env reg) in
/-- the move asks for a rescan of a running link -/
def Raises (s : System) (m : Move) : Prop :=
  s.world.gui.rescanInFlight = false ∧ (s.step env reg m).world.gui.rescanInFlight = true

variable (env reg) in
/-- with the move the rescan is over -/
def Lowers (s : System) (m : Move) : Prop :=
  s.world.gui.rescanInFlight = true ∧ (s.step env reg m).world.gui.rescanInFlight = false

/-- only the GUI's thread changes the variables of the loop -/
theorem step_variables {m : Move} (hm : m ≠ .gui) : (s.step env reg m).world.gui = s.world.gui := by
  unfold System.step
  split
  · rfl
  · cases m with
    | gui => exact absurd rfl hm
    | frame input =>
      cases s.gui with
      | ret a => simp only; split <;> rfl
      | act l u k => rfl
    | close =>
      cases s.gui with
      | ret a => simp only; split <;> rfl
      | act l u k => rfl
    | task t =>
      simp only
      split <;> rfl

/-- a move of the GUI's thread is one of its actions, if it is any -/
theorem step_gui_cases (s : System) : s.step env reg .gui = s ∨ ∃ l u k, s.gui = .act l u k ∧
    s.step env reg .gui = ⟨u s.world, k s.world, s.closing⟩ := by
  unfold System.step
  split
  · exact .inl rfl
  · obtain ⟨world, gui, closing⟩ := s
    cases gui with
    | ret a => exact .inl rfl
    | act l u k =>
      simp only
      split
      · exact .inl rfl
      · exact .inr ⟨l, u, k, rfl, rfl⟩

/-- what changes `rescanInFlight` is an action of the GUI's thread -/
theorem Sound.changes (hs : Sound env reg s) {m : Move} (hm : FromScratch env reg s m)
    (hchanges : (s.step env reg m).world.gui.rescanInFlight ≠ s.world.gui.rescanInFlight) :
    m = .gui ∧ ∃ l, Answers env reg l s.world (s.step env reg m).world := by
  have hgui : m = .gui := by
    by_contra hne
    rw [step_variables hne] at hchanges
    exact hchanges rfl
  subst hgui
  refine ⟨rfl, ?_⟩
  have hcases : s.step env reg .gui = s ∨ ∃ l u k, s.gui = .act l u k ∧
    s.step env reg .gui = ⟨u s.world, k s.world, s.closing⟩ := step_gui_cases s
  rcases hcases with hsame | ⟨l, u, k, hact, hstep⟩
  · rw [hsame] at hchanges
    exact absurd rfl hchanges
  · have hheld := hs.gui
    have hok := hm.selects rfl
    rw [hact] at hheld hok
    rw [hstep]
    exact ⟨l, (Prog.holdsIf_step Calm.refl hheld hok).1⟩

/-- a rescan is asked for while no task is under way -/
theorem Awaiting.of_raises (hs : Sound env reg s) {m : Move} (hm : FromScratch env reg s m)
    (hraises : Raises env reg s m) : Awaiting env (s.step env reg m) := by
  obtain ⟨hfalse, htrue⟩ := hraises
  obtain ⟨-, l, ha⟩ := hs.changes hm (by rw [hfalse, htrue]; decide)
  obtain ⟨hbusy, hnone, hnone'⟩ := ha.raised hfalse htrue
  refine ⟨htrue, fun hflag => ?_, fun p hp => ?_⟩
  · rcases ha.flagged hflag with hbefore | ho
    · have hidle : s.world.gui.startInFlight = false := busy_eq_false.mp hbusy .start
      rw [hidle] at hbefore
      cases hbefore
    · exact absurd ho (not_outstanding.mpr (hnone .start))
  · rw [hnone'] at hp
    cases hp

/-- a rescan goes on waiting until the start begins a discovery -/
theorem discovers_or_awaits {moves : List Move} (hs : Sound env reg s) (h : Awaiting env s)
    (hmoves : Allowed (System.step env reg) (FromScratch env reg) s moves) :
    (∃ earlier later, moves = earlier ++ .task .start :: later ∧
      Discovers env (s.after env reg earlier) .start) ∨ Awaiting env (s.after env reg moves) := by
  induction moves generalizing s with
  | nil => exact .inr h
  | cons m moves ih =>
    obtain ⟨hm, hmoves⟩ := hmoves
    rcases h.step hs hm with ⟨rfl, hdiscovers⟩ | hstep
    · exact .inl ⟨[], moves, rfl, hdiscovers⟩
    · rcases ih (hs.step hm) hstep hmoves with ⟨earlier, later, rfl, hdiscovers⟩ | hlast
      · exact .inl ⟨m :: earlier, later, rfl, hdiscovers⟩
      · exact .inr hlast

/-- a rescan is over when its start has been collected -/
theorem Sound.lowers (hs : Sound env reg s) {m : Move} (hm : FromScratch env reg s m)
    (hlowers : Lowers env reg s m) : m = .gui ∧ s.world.future .start = none := by
  obtain ⟨htrue, hfalse⟩ := hlowers
  obtain ⟨hgui, l, ha⟩ := hs.changes hm (by rw [hfalse, htrue]; decide)
  exact ⟨hgui, (ha.lowered htrue hfalse).2⟩

variable (env reg) in
/-- Whenever a rescan of a running link is over, a task has begun a discovery since it was asked for,
and has finished. -/
def RescanDiscovers (s : System) (moves : List Move) : Prop :=
  ∀ before request between last rest, moves = before ++ request :: (between ++ last :: rest) →
    Raises env reg (s.after env reg before) request →
    Lowers env reg (s.after env reg (before ++ request :: between)) last →
    ∃ earlier t later, between = earlier ++ .task t :: later ∧
      Discovers env (s.after env reg (before ++ request :: earlier)) t ∧
      ¬ (s.after env reg (before ++ request :: between)).world.Outstanding t

end System

/-! ## a link of one controller -/

/-- the condition on the moves, evaluated -/
def System.fromScratch (s : System) : Bool :=
  (!(s.world.gui.rescanInFlight && !s.world.gui.busy && !(takeSnapshot s.world.runtime).linkRunning) ||
    !(s.world.gui.selectedLinkableIds (takeSnapshot s.world.runtime)).ids.isEmpty) &&
  (!(decide (s.gui.next = some (.launch .start)) && s.world.gui.rescanInFlight) ||
    (cachedFor s.world.gui.linkOptions s.world.runtime).isEmpty)

theorem System.fromScratch_of_eval {env : Env} {reg : Registry} {s : System} (h : s.fromScratch = true)
    (m : Move) : s.FromScratch env reg m := by
  unfold fromScratch at h
  obtain ⟨hselects, huncached⟩ := Bool.and_eq_true_iff.mp h
  refine ⟨fun _ _ hrescan hbusy hrunning hnone => ?_, fun _ hnext hrescan => ?_⟩
  · rw [hrescan, hbusy, hrunning, hnone] at hselects
    cases hselects
  · rw [hnext, hrescan] at huncached
    simpa using huncached

/-- the saved settings select the one controller -/
def oneLink : System :=
  .init (succeeding [controller "a"]) registry { enabledControllers := {"a"} }

/-- a scan, a start, and the first actions of a frame with this input -/
def linkedUntil (input : FrameInput) (n : Nat) : List Move :=
  List.replicate 3 .gui ++ List.replicate 10 (.task .scan) ++ .frame {} :: List.replicate 25 .gui ++
    List.replicate 30 (.task .start) ++ .frame input :: List.replicate n .gui

/-- the end of that frame, a stop, a frame, a start, and the first actions of the next frame -/
def stopAndStart : List Move :=
  List.replicate 9 .gui ++ List.replicate 6 (.task .stop) ++ .frame {} :: List.replicate 17 .gui ++
    List.replicate 22 (.task .start) ++ .frame {} :: List.replicate 3 .gui

/-- how a discovery begins that finds the one controller -/
theorem labels_discovery {p : LinkM Bool} (h : BeginsDiscovery (succeeding [controller "a"]) p) :
    (p.labels {}).take 3 = [.work, .poll, .poll] := by
  obtain ⟨timeoutMs, k, rfl⟩ := h
  have hsettled : (Discovery.see { started := 0 } { found := [controller "a"] }).settled 0 = false := by
    decide
  have htime : ∀ d : Discovery, d.timedOut timeoutMs 0 = false := by
    intro d
    unfold Discovery.timedOut
    simp
    omega
  have hloop : discoverLoop timeoutMs [{ found := [controller "a"] }] { started := 0 } =
      pollStop >>= fun stop => if stop = true then pure [] else logErrors [] >>= fun _ =>
        discoverLoop timeoutMs [] (Discovery.see { started := 0 } { found := [controller "a"] }) := by
    rw [discoverLoop]
    refine congrArg (pollStop >>= ·) (funext fun stop => ?_)
    cases stop with
    | true => rfl
    | false =>
      refine congrArg (logErrors [] >>= ·) (funext fun _ => ?_)
      exact (if_neg (Bool.eq_false_iff.mp hsettled)).trans (if_neg (Bool.eq_false_iff.mp (htime _)))
  change Act.work :: (Prog.labels (Prog.bind (discoverLoop timeoutMs [{ found := [controller "a"] }]
    { started := 0 }) k) _).take 2 = _
  rw [hloop]
  rfl

/-- the next move may be the begin of a discovery -/
def System.mayDiscover (s : System) : Move → Bool
  | .task t => (s.world.future t).any fun p => decide ((p.labels {}).take 3 = [.work, .poll, .poll])
  | _ => false

theorem System.mayDiscover_of_discovers {s : System} {t : Task}
    (h : s.Discovers (succeeding [controller "a"]) t) : s.mayDiscover (.task t) = true := by
  obtain ⟨_, p, hp, hbegins⟩ := h
  unfold mayDiscover
  simp only [hp, Option.any_some, labels_discovery hbegins, decide_true]

/-! ## rescans and discoveries -/

open LiberaLink.Gui.System in
/-- **A rescan is over only after a discovery**: in every run of the frame loop in which each start that
answers a rescan finds no controllers in the cache, and no rescan is given up for want of a selection. -/
theorem rescan_discovers (env : Env) (reg : Registry) (settings : Settings) (moves : List Move)
    (hmoves : Allowed (System.step env reg) (FromScratch env reg) (System.init env reg settings) moves) :
    RescanDiscovers env reg (System.init env reg settings) moves := by
  rintro before request between last rest rfl hraises hlowers
  obtain ⟨hbefore, hrequest, hmoves⟩ := allowed_append.mp hmoves
  obtain ⟨hbetween, hlast, _⟩ := allowed_append.mp hmoves
  have hsound : Sound env reg ((System.init env reg settings).after env reg before) :=
    hbefore.history (P := fun _ s => Sound env reg s) (Sound.init settings) fun _ _ _ hs hm => hs.step hm
  have hwhole : ∀ moves, (System.init env reg settings).after env reg (before ++ request :: moves) =
      after env reg (System.step env reg ((System.init env reg settings).after env reg before) request)
        moves := by
    intro moves
    unfold after
    rw [List.foldl_append, List.foldl_cons]
  have hsound' := hbetween.history (P := fun _ s => Sound env reg s) (hsound.step hrequest)
    fun _ _ _ hs hm => hs.step hm
  rw [hwhole between] at hlowers ⊢
  obtain ⟨rfl, hcollected⟩ := hsound'.lowers hlast hlowers
  have hawaiting := Awaiting.of_raises hsound hrequest hraises
  rcases discovers_or_awaits (hsound.step hrequest) hawaiting hbetween with
    ⟨earlier, later, hsplit, hdiscovers⟩ | hstill
  · refine ⟨earlier, .start, later, hsplit, ?_, ?_⟩
    · rw [hwhole earlier]
      exact hdiscovers
    · exact not_outstanding.mpr hcollected
  · -- without a discovery the rescan would still be waiting
    rcases hstill.step hsound' hlast with ⟨hmove, _⟩ | hstep
    · cases hmove
    · exact absurd hlowers.2 (by rw [Bool.not_eq_false]; exact hstep.rescan)

open LiberaLink.Gui.System in
/-- RESCAN -/
theorem rescan_discovers_button :
    let env := succeeding [controller "a"]
    let before := linkedUntil { rescan := true } 9
    Raises env registry (oneLink.after env registry before) .gui ∧
      Lowers env registry (oneLink.after env registry (before ++ .gui :: stopAndStart)) .gui ∧
      ∃ earlier t later, stopAndStart = earlier ++ .task t :: later ∧
        Discovers env (oneLink.after env registry (before ++ .gui :: earlier)) t ∧
        ¬ (oneLink.after env registry (before ++ .gui :: stopAndStart)).world.Outstanding t := by
  intro env before
  have hraises : Raises env registry (oneLink.after env registry before) .gui :=
    ⟨by decide +kernel, by decide +kernel⟩
  have hlowers : Lowers env registry (oneLink.after env registry (before ++ .gui :: stopAndStart)) .gui :=
    ⟨by decide +kernel, by decide +kernel⟩
  have heval : Allowed (System.step env registry) (fun s _ => s.fromScratch = true) oneLink
      (before ++ .gui :: (stopAndStart ++ [.gui])) := by decide +kernel
  refine ⟨hraises, hlowers, ?_⟩
  exact rescan_discovers env registry { enabledControllers := {"a"} } _
    (heval.mono fun _ m h => fromScratch_of_eval h m) before .gui stopAndStart .gui [] rfl hraises hlowers

open LiberaLink.Gui.System in
/-- A changed AVB setup asks for a rescan, and the start that answers it uses the controllers of the last
scan. -/
theorem rescan_from_cache : ¬ ∀ (env : Env) (reg : Registry) (settings : Settings) (moves : List Move),
    RescanDiscovers env reg (System.init env reg settings) moves := by
  intro h
  have hraises : Raises (succeeding [controller "a"]) registry
      (oneLink.after (succeeding [controller "a"]) registry (linkedUntil { avb := true } 14)) .gui :=
    ⟨by decide +kernel, by decide +kernel⟩
  have hlowers : Lowers (succeeding [controller "a"]) registry (oneLink.after (succeeding [controller "a"])
      registry (linkedUntil { avb := true } 14 ++ .gui :: stopAndStart)) .gui :=
    ⟨by decide +kernel, by decide +kernel⟩
  have hquiet : Allowed (System.step (succeeding [controller "a"]) registry)
      (fun s m => s.mayDiscover m = false)
      (oneLink.after (succeeding [controller "a"]) registry (linkedUntil { avb := true } 14 ++ [.gui]))
      stopAndStart := by decide +kernel
  obtain ⟨earlier, t, later, hsplit, hdiscovers, _⟩ :=
    h _ registry { enabledControllers := {"a"} } _ (linkedUntil { avb := true } 14) .gui stopAndStart .gui
      [] rfl hraises hlowers
  rw [hsplit] at hquiet
  have hnone := (allowed_append.mp hquiet).2.1
  have hmay := mayDiscover_of_discovers hdiscovers
  rw [List.append_cons] at hmay
  unfold after at hmay hnone
  rw [List.foldl_append] at hmay
  exact absurd (hnone.symm.trans hmay) Bool.false_ne_true

end LiberaLink.Gui
