import LiberaLink.Gui.FrameLoop

/-!
# One task at a time

`LinkRuntime` has no lock for its discovery data.  The GUI's thread keeps the tasks apart by its flags:
each flag says that a future is valid, whatever the tasks do meanwhile, and a task is launched, or the
cache cleared, only while all flags are down.

* `Tidy`                    the flags and the futures, `Others` what the tasks do between;
* `Guarantee`               what every action of the GUI's thread keeps to;
* `keeps_frame`             a frame keeps to it;
* `one_task_at_a_time`      **the tasks, the cache and the data in every run**.
-/

namespace LiberaLink.Gui
open Stepwise

/-! ## what is kept -/

/-- the data of the runtime that a discovery works on, without a lock -/
def discoveryData (s : Impl) : List ControllerInfo × Bool × Finset String × OptionMap :=
  (s.discoveredControllerInfos, s.liberaSystem, s.activeDisabledControllerTypes,
    s.activeSelectedControllerDrivers)

namespace World

/-- the task was launched and its future not yet taken -/
def Outstanding (w : World) (t : Task) : Prop := (w.future t).isSome = true

def OneTask (w : World) : Prop := ∀ t t', w.Outstanding t → w.Outstanding t' → t = t'

end World

/-- The flags say which futures are valid. -/
structure Tidy (w : World) : Prop where
  one : w.OneTask
  flags : ∀ t, w.gui.inFlight t = (w.future t).isSome

/-- What the tasks do between two actions of the GUI's thread. -/
structure Others (w w' : World) : Prop where
  gui : w'.gui = w.gui
  valid : ∀ t, (w'.future t).isSome = (w.future t).isSome
  ready : ∀ t, w.ready t = true → w'.ready t = true

/-- the actions for which no task may be outstanding -/
def GuiAct.exclusive : GuiAct → Bool
  | .launch _ => true
  | .invalidate => true
  | _ => false

/-- **What an action of the GUI's thread keeps to.** -/
structure Guarantee (l : GuiAct) (w w' : World) : Prop where
  one : w'.OneTask
  idle : l.exclusive = true → ∀ t, ¬ w.Outstanding t
  finished : ∀ t, l = .collect t → w.ready t = true
  data : l ≠ .invalidate → discoveryData w'.runtime = discoveryData w.runtime

namespace Others
variable {w w' w'' : World}

theorem refl (w : World) : Others w w := ⟨rfl, fun _ => rfl, fun _ h => h⟩

theorem trans (h : Others w w') (h' : Others w' w'') : Others w w'' where
  gui := h'.gui.trans h.gui
  valid t := (h'.valid t).trans (h.valid t)
  ready t hr := h'.ready t (h.ready t hr)

theorem outstanding (h : Others w w') (t : Task) : w'.Outstanding t ↔ w.Outstanding t := by
  unfold World.Outstanding
  rw [h.valid]

theorem oneTask (h : Others w w') (ho : w.OneTask) : w'.OneTask :=
  fun t t' ht ht' => ho t t' ((h.outstanding t).mp ht) ((h.outstanding t').mp ht')

theorem tidy (h : Others w w') (ht : Tidy w) : Tidy w' where
  one := h.oneTask ht.one
  flags t := by rw [h.gui, h.valid]; exact ht.flags t

end Others

theorem busy_eq_false {g : Locals} : g.busy = false ↔ ∀ t, g.inFlight t = false := by
  unfold Locals.busy Locals.scanInFlight Locals.startInFlight Locals.stopInFlight
  constructor
  · intro h t
    rw [Bool.or_eq_false_iff, Bool.or_eq_false_iff] at h
    cases t with
    | scan => exact h.1.1
    | start => exact h.1.2
    | stop => exact h.2
  · intro h
    rw [h, h, h]
    rfl

/-- no flag is up, so no task is outstanding -/
theorem Tidy.idle {w : World} (h : Tidy w) (hb : w.gui.busy = false) (t : Task) : w.future t = none := by
  have hf := h.flags t
  rw [busy_eq_false.mp hb] at hf
  exact Option.isSome_eq_false_iff.mp hf.symm |> Option.isNone_iff_eq_none.mp

/-! ## actions that launch and collect nothing -/

/-- The action leaves the futures, the flags and the discovery data as they are. -/
structure Plain (l : GuiAct) (u : World → World) : Prop where
  exclusive : l.exclusive = false
  collect : ∀ t, l ≠ .collect t
  future : ∀ w, (u w).future = w.future
  flags : ∀ w, (u w).gui.inFlight = w.gui.inFlight
  data : ∀ w, discoveryData (u w).runtime = discoveryData w.runtime

theorem Plain.guarantee {l : GuiAct} {u : World → World} (h : Plain l u) {w : World}
    (ho : w.OneTask) : Guarantee l w (u w) where
  one t t' ht ht' := by
    unfold World.Outstanding at ht ht'
    rw [h.future] at ht ht'
    exact ho t t' ht ht'
  idle he := by rw [h.exclusive] at he; cases he
  finished t e := absurd e (h.collect t)
  data _ := h.data w

theorem Plain.tidy {l : GuiAct} {u : World → World} (h : Plain l u) {w : World} (ht : Tidy w) :
    Tidy (u w) where
  one := (h.guarantee ht.one).one
  flags t := by rw [h.flags, h.future]; exact ht.flags t

/-- the programs of the GUI's thread that leave the flags in order -/
def Keeps {α : Type} (p : GuiM α) : Prop :=
  ∀ w : World, Tidy w → Prog.Holds Others Guarantee p (fun _ w' => Tidy w') w

section
variable {α β : Type} {w : World}

theorem keeps_bind {p : GuiM α} {f : α → GuiM β} (hp : Keeps p) (hf : ∀ a, Keeps (f a)) :
    Keeps (p >>= f) := fun _ h => Prog.holds_seq (hp _ h) hf

theorem keeps_each {γ : Type} {f : γ → GuiM Unit} (hf : ∀ x, Keeps (f x)) (xs : List γ) :
    Keeps (Prog.each f xs) := fun _ h => Prog.holds_each (fun x s => hf x s) xs h

theorem keeps_when {c : Bool} {p : GuiM Unit} (hp : Keeps p) : Keeps (Prog.when c p) :=
  fun _ h => Prog.holds_when h fun _ => hp _ h

/-- a plain program keeps what is known of the flags -/
theorem holds_plain {P : (Task → Bool) → Prop} {p : GuiM α} (hp : Prog.Acts Plain p) (h : Tidy w)
    (hP : P w.gui.inFlight) :
    Prog.Holds Others Guarantee p (fun _ w' => Tidy w' ∧ P w'.gui.inFlight) w := by
  refine Prog.holds_of_acts hp ?_ ?_ ⟨h, hP⟩
  · intro s s' hs hr
    exact ⟨hr.tidy hs.1, hr.gui ▸ hs.2⟩
  · intro l u hu s hs
    refine ⟨hu.guarantee hs.1.one, hu.tidy hs.1, ?_⟩
    rw [hu.flags]
    exact hs.2

theorem keeps_plain {p : GuiM α} (hp : Prog.Acts Plain p) : Keeps p := fun _ h =>
  Prog.holds_mono (holds_plain (P := fun _ => True) hp h trivial) fun _ _ h' => h'.1

theorem plain_own {u : World → World} (hf : ∀ w, (u w).future = w.future)
    (hg : ∀ w, (u w).gui.inFlight = w.gui.inFlight) (hr : ∀ w, (u w).runtime = w.runtime) :
    Plain .own u := ⟨rfl, fun _ => nofun, hf, hg, fun w => by rw [hr]⟩

theorem plain_assign {f : Locals → Locals} (hf : ∀ g, (f g).inFlight = g.inFlight) :
    Prog.Acts Plain (assign f) :=
  Prog.acts_modify (plain_own (fun _ => rfl) (fun w => hf w.gui) fun _ => rfl)

theorem plain_locals : Prog.Acts Plain locals :=
  Prog.acts_read (plain_own (fun _ => rfl) (fun _ => rfl) fun _ => rfl)

/-- a call of the runtime that leaves the discovery data alone -/
theorem plain_onRuntime {l : GuiAct} (hl : l.exclusive = false) (hc : ∀ t, l ≠ .collect t) {p : LinkM α}
    (hp : Prog.Acts (fun _ u => ∀ s, discoveryData (u s) = discoveryData s) p) :
    Prog.Acts Plain (onRuntime l p) := by
  refine Prog.acts_lift ?_ hp
  intro _ u hu
  exact ⟨hl, hc, fun _ => rfl, fun _ => rfl, fun w => hu w.runtime⟩

end

theorem requestStop_data :
    Prog.Acts (fun _ u => ∀ s, discoveryData (u s) = discoveryData s) LinkRuntime.requestStop := by
  refine Prog.acts_bind (Prog.acts_modify fun _ => rfl) fun _ => Prog.acts_modify fun s => ?_
  unfold LinkRuntime.markStop
  split <;> rfl

theorem stop_data :
    Prog.Acts (fun _ u => ∀ s, discoveryData (u s) = discoveryData s) LinkRuntime.stop := by
  refine Prog.acts_bind requestStop_data fun _ => ?_
  refine Prog.acts_bind (Prog.acts_modify fun _ => rfl) fun _ => ?_
  refine Prog.acts_bind ⟨fun _ => rfl, fun _ => trivial⟩ fun hosts => ?_
  exact Prog.acts_bind (Prog.acts_modify fun _ => rfl) fun _ => Prog.acts_modify fun _ => rfl

theorem plain_requestStop : Prog.Acts Plain (onRuntime .requestStop LinkRuntime.requestStop) :=
  plain_onRuntime rfl (by intro t h; cases h) requestStop_data

theorem plain_linkChanged : Prog.Acts Plain linkChanged :=
  Prog.acts_bind (plain_assign fun _ => rfl) fun _ =>
    Prog.acts_bind plain_locals fun _ => Prog.acts_when plain_requestStop

/-! ## launching and collecting -/

section
variable {w : World}

/-- the variables as they are read, which only the GUI's thread changes -/
theorem holds_locals {α : Type} {f : Locals → GuiM α} {Q : α → World → Prop} (h : Tidy w)
    (hf : ∀ w' : World, Tidy w' → w'.gui = w.gui → Prog.Holds Others Guarantee (f w'.gui) Q w') :
    Prog.Holds Others Guarantee (locals >>= f) Q w := by
  intro w' hr
  have hplain : Plain .own (id : World → World) :=
    plain_own (fun _ => rfl) (fun _ => rfl) fun _ => rfl
  exact ⟨hplain.guarantee (hr.tidy h).one, hf w' (hr.tidy h) hr.gui⟩

/-- the only task is the one that was launched -/
theorem launched_eq (hnone : ∀ t, w.future t = none) {t t' : Task} {p p' : LinkM Bool}
    (h : (w.setFuture t (some p)).future t' = some p') : t' = t ∧ p' = p := by
  by_cases ht : t' = t
  · subst ht
    change Function.update w.future t' (some p) t' = some p' at h
    rw [Function.update_self] at h
    exact ⟨rfl, (Option.some.inj h).symm⟩
  · change Function.update w.future t (some p) t' = some p' at h
    rw [Function.update_of_ne ht, hnone] at h
    cases h

theorem launched_oneTask (hnone : ∀ t, w.future t = none) (t : Task) (p : LinkM Bool) :
    (w.setFuture t (some p)).OneTask := by
  intro t1 t2 ho1 ho2
  obtain ⟨p1, h1⟩ := Option.isSome_iff_exists.mp ho1
  obtain ⟨p2, h2⟩ := Option.isSome_iff_exists.mp ho2
  rw [(launched_eq hnone h1).1, (launched_eq hnone h2).1]

/-- what is left was there before one was collected -/
theorem collected_eq {t t' : Task} {p : LinkM Bool} (h : (w.setFuture t none).future t' = some p) :
    w.future t' = some p := by
  by_cases ht : t' = t
  · subst ht
    change Function.update w.future t' none t' = some p at h
    rw [Function.update_self] at h
    cases h
  · change Function.update w.future t none t' = some p at h
    rwa [Function.update_of_ne ht] at h

theorem collected_oneTask (hone : w.OneTask) (t : Task) : (w.setFuture t none).OneTask := by
  intro t1 t2 ho1 ho2
  obtain ⟨p1, h1⟩ := Option.isSome_iff_exists.mp ho1
  obtain ⟨p2, h2⟩ := Option.isSome_iff_exists.mp ho2
  exact hone t1 t2 (Option.isSome_of_eq_some (collected_eq h1)) (Option.isSome_of_eq_some (collected_eq h2))

/-- one future is set, with its flag -/
theorem Tidy.setFuture {w2 w3 : World} {t : Task} {p : Option (LinkM Bool)} {g : Locals} (h : Tidy w2)
    (hone : (w2.setFuture t p).OneTask) (hr : Others (w2.setFuture t p) w3)
    (hg : g.inFlight = Function.update w3.gui.inFlight t p.isSome) : Tidy { w3 with gui := g } where
  one := hr.oneTask hone
  flags t' := by
    show g.inFlight t' = (w3.future t').isSome
    rw [hg, hr.valid, hr.gui]
    show Function.update w2.gui.inFlight t p.isSome t' = (Function.update w2.future t p t').isSome
    by_cases ht : t' = t
    · subst ht
      rw [Function.update_self, Function.update_self]
    · rw [Function.update_of_ne ht, Function.update_of_ne ht]
      exact h.flags t'

/-- **A launch** while no flag is up. -/
theorem holds_launch (h : Tidy w) (hb : w.gui.busy = false) (t : Task) (p : LinkM Bool) :
    Prog.Holds Others Guarantee (launch t p) (fun _ w' => Tidy w') w := by
  intro w1 h1
  have ht1 := h1.tidy h
  have hfutures : ∀ t', w1.future t' = none := ht1.idle (h1.gui ▸ hb)
  have hnone : ∀ t', ¬ w1.Outstanding t' := by
    intro t' ht'
    unfold World.Outstanding at ht'
    rw [hfutures] at ht'
    cases ht'
  have hone : (w1.setFuture t (some p)).OneTask := launched_oneTask hfutures t p
  refine ⟨⟨hone, fun _ => hnone, fun _ => nofun, fun _ => rfl⟩, fun w2 h2 => ?_⟩
  have ht2 : Tidy { w2 with gui := { w2.gui with
      inFlight := Function.update w2.gui.inFlight t true } } := ht1.setFuture hone h2 rfl
  exact ⟨⟨ht2.one, nofun, fun _ => nofun, fun _ => rfl⟩, ht2⟩

/-- what is collected is the flag of the task -/
theorem afterCollect_inFlight (t : Task) (g : Locals) :
    (afterCollect t g).inFlight = Function.update g.inFlight t false := by
  cases t <;> rfl

/-- **A task that has finished is collected.** -/
theorem keeps_collect (t : Task) : Keeps (collect t) := by
  intro w h w1 h1
  have ht1 := h1.tidy h
  have hpoll : Plain (.poll t) (id : World → World) :=
    ⟨rfl, fun _ => nofun, fun _ => rfl, fun _ => rfl, fun _ => rfl⟩
  refine ⟨hpoll.guarantee ht1.one, ?_⟩
  refine Prog.holds_when (R := Tidy) ht1 fun hready w2 h2 => ?_
  have ht2 := h2.tidy ht1
  have hone : (w2.setFuture t none).OneTask := collected_oneTask ht2.one t
  refine ⟨⟨hone, nofun, fun t' e => ?_, fun _ => rfl⟩, fun w3 h3 => ?_⟩
  · cases e
    exact h2.ready t hready
  · have ht3 := ht2.setFuture hone h3 (afterCollect_inFlight t w3.gui)
    exact ⟨⟨ht3.one, nofun, fun _ => nofun, fun _ => rfl⟩, ht3⟩

end

/-! ## a frame -/

section
variable (env : Env) (reg : Registry)

theorem holds_launchScan {w : World} (h : Tidy w) (hb : w.gui.busy = false) :
    Prog.Holds Others Guarantee (launchScan env reg) (fun _ w' => Tidy w') w :=
  holds_locals h fun _ ht hg => holds_launch ht (hg ▸ hb) _ _

theorem holds_launchStop {w : World} (h : Tidy w) (hb : w.gui.busy = false) :
    Prog.Holds Others Guarantee (launchStop env reg) (fun _ w' => Tidy w') w :=
  holds_launch h hb _ _

theorem holds_launchSelectedStart {w : World} (h : Tidy w) (hb : w.gui.busy = false) (ids : IdSet) :
    Prog.Holds Others Guarantee (launchSelectedStart env reg ids) (fun _ w' => Tidy w') w :=
  Prog.holds_when h fun _ => holds_locals h fun _ ht hg => holds_launch ht (hg ▸ hb) _ _

/-- an assignment that leaves the flags alone, before a launch -/
theorem holds_assign {w : World} {α : Type} {f : Locals → Locals} {p : GuiM α} {Q : α → World → Prop}
    (h : Tidy w) (hb : w.gui.busy = false) (hf : ∀ g, (f g).inFlight = g.inFlight)
    (hp : ∀ w' : World, Tidy w' → w'.gui.busy = false → Prog.Holds Others Guarantee p Q w') :
    Prog.Holds Others Guarantee (assign f >>= fun _ => p) Q w := by
  refine Prog.holds_seq (holds_plain (P := fun flags => ∀ t, flags t = false) (plain_assign hf) h
    (busy_eq_false.mp hb)) ?_
  intro _ w' h'
  exact hp w' h'.1 (busy_eq_false.mpr h'.2)

theorem keeps_requestDiscoverySettingsSync (snapshot : RuntimeSnapshot) :
    Keeps (requestDiscoverySettingsSync env reg snapshot) := by
  refine keeps_bind (keeps_plain (plain_assign (by intro; rfl))) fun _ w h => ?_
  refine holds_locals h fun w' h' _ => ?_
  split
  · rename_i hidle
    have hb : w'.gui.busy = false := by simpa using (Bool.and_eq_true_iff.mp hidle).1
    split
    · exact keeps_plain (plain_assign (by intro; rfl)) w' h'
    · exact holds_assign h' hb (by intro; rfl) fun _ => holds_launchScan env reg
  · refine keeps_bind (keeps_plain (plain_assign (by intro; rfl))) (fun _ => ?_) w' h'
    exact keeps_plain (Prog.acts_when plain_requestStop)

/-- **RESCAN**: the cache is cleared, or a scan launched, while no task is in flight. -/
theorem keeps_rescanButton (snapshot : RuntimeSnapshot) (clicked : Bool) :
    Keeps (rescanButton env reg snapshot clicked) := by
  intro w h
  refine holds_locals h fun w' h' _ => ?_
  split
  · exact h'
  · rename_i hscan
    split
    · exact h'
    · refine Prog.holds_when h' fun hclick => ?_
      have hb : w'.gui.busy = false := by
        have hrest := (Bool.and_eq_true_iff.mp hclick).2
        unfold Locals.busy
        simp_all
      split
      · refine Prog.holds_seq (R := fun _ w'' => Tidy w'') (fun w1 h1 => ?_)
          fun _ => keeps_plain (plain_assign (by intro; rfl))
        have ht1 := h1.tidy h'
        refine ⟨⟨ht1.one, fun _ t ht => ?_, fun _ => nofun, fun hne => absurd rfl hne⟩, ht1.one, ht1.flags⟩
        unfold World.Outstanding at ht
        rw [ht1.idle (h1.gui ▸ hb)] at ht
        cases ht
      · exact holds_launchScan env reg h' hb

theorem keeps_bulkButton (snapshot : RuntimeSnapshot) (clicked : Bool) :
    Keeps (bulkButton snapshot clicked) :=
  keeps_bind (keeps_plain plain_locals) fun _ =>
    keeps_plain (Prog.acts_when (plain_assign (by intro; rfl)))

theorem keeps_controllerRow (controller : DiscoveredControllerSnapshot) (input : RowInput) :
    Keeps (controllerRow reg controller input) := by
  have hchange : ∀ {c : Bool} {f : Locals → Locals}, (∀ g, (f g).inFlight = g.inFlight) →
      Prog.Acts Plain (Prog.when c (assign f >>= fun _ => linkChanged)) := fun hf =>
    Prog.acts_when (Prog.acts_bind (plain_assign hf) fun _ => plain_linkChanged)
  refine keeps_plain (Prog.acts_bind (hchange (by intro; rfl)) fun _ => ?_)
  refine Prog.acts_bind (hchange (by intro; rfl)) fun _ => ?_
  exact Prog.acts_each (fun _ => hchange (by intro; rfl)) _

theorem keeps_managerRow (snapshot : RuntimeSnapshot) (input : SettingsInput) (locked : Bool)
    (type : String) : Keeps (managerRow env reg snapshot input locked type) := by
  have hsync : ∀ {f : Locals → Locals}, (∀ g, (f g).inFlight = g.inFlight) →
      Keeps (assign f >>= fun _ => requestDiscoverySettingsSync env reg snapshot) := fun hf =>
    keeps_bind (keeps_plain (plain_assign hf)) fun _ =>
      keeps_requestDiscoverySettingsSync env reg snapshot
  refine keeps_bind (keeps_when (hsync (by intro; rfl))) fun _ => ?_
  exact keeps_when (keeps_each (fun _ => hsync (by intro; rfl)) _)

theorem keeps_settingsWindow (snapshot : RuntimeSnapshot) (input : SettingsInput) :
    Keeps (settingsWindow env reg snapshot input) := by
  refine keeps_bind (keeps_plain plain_locals) fun _ => ?_
  refine keeps_bind (keeps_plain (Prog.acts_when (Prog.acts_each (fun _ =>
    Prog.acts_when (plain_assign (by intro; rfl))) _))) fun _ => ?_
  refine keeps_bind (keeps_plain plain_locals) fun _ => ?_
  refine keeps_bind (keeps_when ?_) fun _ => ?_
  · exact keeps_bind (keeps_plain (plain_assign (by intro; rfl))) fun _ =>
      keeps_requestDiscoverySettingsSync env reg snapshot
  · exact keeps_each (fun type => keeps_managerRow env reg snapshot input _ type) _

theorem keeps_avbWindow (snapshot : RuntimeSnapshot) (changed : Bool) :
    Keeps (avbWindow env reg snapshot changed) :=
  keeps_bind (keeps_plain plain_locals) fun _ =>
    keeps_when (keeps_requestDiscoverySettingsSync env reg snapshot)

/-- **The end of a frame** launches a task only while none is in flight. -/
theorem keeps_dispatch (snapshot : RuntimeSnapshot) : Keeps (dispatch env reg snapshot) := by
  intro w h
  refine holds_locals h fun w' h' _ => ?_
  simp only
  split
  · exact h'
  · rename_i hbusy
    have hb : w'.gui.busy = false := by simpa using hbusy
    split
    · split
      · exact holds_launchStop env reg h' hb
      · split
        · exact holds_assign h' hb (by intro; rfl) fun _ h1 hb1 =>
            holds_launchSelectedStart env reg h1 hb1 _
        · exact keeps_plain (plain_assign (by intro; rfl)) w' h'
    · refine Prog.holds_when h' fun _ => ?_
      refine holds_assign h' hb (by intro; rfl) fun w1 h1 hb1 => ?_
      split
      · exact holds_launchSelectedStart env reg h1 hb1 _
      · exact Prog.holds_when h1 fun _ => holds_launchStop env reg h1 hb1

/-- **A frame** keeps the flags in order, whatever its widgets return. -/
theorem keeps_frame (input : FrameInput) : Keeps (frame env reg input) := by
  refine keeps_bind (keeps_collect .scan) fun _ => ?_
  refine keeps_bind (keeps_collect .start) fun _ => ?_
  refine keeps_bind (keeps_collect .stop) fun _ => ?_
  refine keeps_bind (keeps_plain (Prog.acts_read ?_)) fun snapshot => ?_
  · exact ⟨rfl, fun _ => nofun, fun _ => rfl, fun _ => rfl, fun _ => rfl⟩
  refine keeps_bind (keeps_plain (plain_assign (by intro; rfl))) fun _ => ?_
  refine keeps_bind (keeps_rescanButton env reg snapshot _) fun _ => ?_
  refine keeps_bind (keeps_bulkButton snapshot _) fun _ => ?_
  refine keeps_bind (keeps_each (fun _ => keeps_controllerRow reg _ _) _) fun _ => ?_
  refine keeps_bind (keeps_settingsWindow env reg snapshot _) fun _ => ?_
  refine keeps_bind (keeps_avbWindow env reg snapshot _) fun _ => ?_
  exact keeps_dispatch env reg snapshot

theorem keeps_shutdown : Keeps shutdown := by
  refine keeps_plain (Prog.acts_bind plain_requestStop fun _ => ?_)
  refine Prog.acts_bind (Prog.acts_each (fun _ => Prog.acts_read ?_) _) fun _ => ?_
  · exact ⟨rfl, fun _ => nofun, fun _ => rfl, fun _ => rfl, fun _ => rfl⟩
  · exact plain_onRuntime rfl (by intro t h; cases h) stop_data

end

/-! ## the runs -/

/-- what may work on the discovery data -/
inductive Operation where
  | task (t : Task) | invalidate

namespace System

/-- The operation has begun and not ended; `invalidate` is one action. -/
def InProgress (s : System) : Operation → Prop
  | .task t => s.world.Outstanding t ∧ s.world.ready t = false
  | .invalidate => s.gui.next = some .invalidate

/-- The state of a run: the GUI's thread keeps to its guarantee from here on. -/
structure Orderly (s : System) : Prop where
  one : s.world.OneTask
  gui : Prog.Holds Others Guarantee s.gui (fun _ w => Tidy w) s.world

/-- a move of the operation -/
def moveOf : Operation → Move
  | .task t => .task t
  | .invalidate => .gui

/-- **What is kept apart**: the tasks, what the GUI's thread does next, and whatever changes the data. -/
structure Exclusive (env : Env) (reg : Registry) (s : System) : Prop where
  outstanding : ∀ t t', s.world.Outstanding t → s.world.Outstanding t' → t = t'
  launched : ∀ t, s.gui.next = some (.launch t) → ∀ t', ¬ s.world.Outstanding t'
  invalidated : s.gui.next = some .invalidate → ∀ t, ¬ s.world.Outstanding t
  collected : ∀ t, s.gui.next = some (.collect t) → s.world.ready t = true
  single : ∀ o o', s.InProgress o → s.InProgress o' → o = o'
  data : ∀ m, discoveryData (s.step env reg m).world.runtime ≠ discoveryData s.world.runtime →
    ∃ o, s.InProgress o ∧ m = moveOf o

variable {env : Env} {reg : Registry} {s : System}

theorem ready_congr {w w' : World} {t : Task} (h : w'.future t = w.future t) :
    w'.ready t = w.ready t := by
  unfold World.ready
  rw [h]

/-- an action of a task, as the GUI's thread sees it -/
theorem others_task {t : Task} {l : Act} {u : Impl → Impl} {k : Impl → LinkM Bool}
    (hf : s.world.future t = some (.act l u k)) :
    Others s.world { s.world.setFuture t (some (k s.world.runtime)) with
      runtime := u s.world.runtime } where
  gui := rfl
  valid t' := by
    show (Function.update s.world.future t (some (k s.world.runtime)) t').isSome = _
    by_cases ht : t' = t
    · subst ht
      rw [Function.update_self, hf]
      rfl
    · rw [Function.update_of_ne ht]
  ready t' hr := by
    have hne : t' ≠ t := by
      rintro rfl
      unfold World.ready at hr
      rw [hf] at hr
      cases hr
    exact (ready_congr (Function.update_of_ne hne _ _)).trans hr

theorem Orderly.init (settings : Settings) : Orderly (System.init env reg settings) where
  one := fun t _ h => by cases h
  gui := holds_launchScan env reg ⟨fun t _ h => (by cases h), fun _ => rfl⟩ rfl

/-- **Every move keeps the system orderly.** -/
theorem Orderly.step (h : Orderly s) (m : Move) : Orderly (s.step env reg m) := by
  unfold System.step
  split
  · exact h
  · cases m with
    | gui =>
      obtain ⟨world, gui, closing⟩ := s
      cases gui with
      | ret a => exact h
      | act l u k =>
        simp only
        split
        · exact h
        · obtain ⟨hg, hk⟩ := Prog.holds_step Others.refl h.gui
          exact ⟨hg.one, hk⟩
    | frame input =>
      obtain ⟨world, gui, closing⟩ := s
      cases gui with
      | ret a =>
        simp only
        split
        · exact h
        · exact ⟨h.one, keeps_frame env reg input world h.gui⟩
      | act l u k => exact h
    | close =>
      obtain ⟨world, gui, closing⟩ := s
      cases gui with
      | ret a =>
        simp only
        split
        · exact h
        · exact ⟨h.one, keeps_shutdown world h.gui⟩
      | act l u k => exact h
    | task t =>
      cases hf : s.world.future t with
      | none => simp only [hf]; exact h
      | some p =>
        cases p with
        | ret b => simp only [hf]; exact h
        | act l u k =>
          simp only [hf]
          have ho := others_task hf
          refine ⟨ho.oneTask h.one, Prog.holds_stable ?_ ?_ h.gui ho⟩
          · exact fun h1 h2 => h1.trans h2
          · exact fun ht hr => hr.tidy ht

/-- the guarantee of the action that comes next -/
theorem Orderly.guarantee (h : Orderly s) {l : GuiAct} (hn : s.gui.next = some l) :
    ∃ u k, s.gui = .act l u k ∧ Guarantee l s.world (u s.world) := by
  obtain ⟨world, gui, closing⟩ := s
  cases gui with
  | ret a => cases hn
  | act l' u k =>
    obtain rfl : l' = l := Option.some.inj hn
    exact ⟨u, k, rfl, (Prog.holds_step Others.refl h.gui).1⟩

/-- what changes the discovery data is an operation in progress -/
theorem Orderly.data (h : Orderly s) (m : Move)
    (hne : discoveryData (s.step env reg m).world.runtime ≠ discoveryData s.world.runtime) :
    ∃ o, s.InProgress o ∧ m = moveOf o := by
  unfold System.step at hne
  split at hne
  · exact absurd rfl hne
  · cases m with
    | gui =>
      obtain ⟨world, gui, closing⟩ := s
      cases gui with
      | ret a => exact absurd rfl hne
      | act l u k =>
        simp only at hne
        split at hne
        · exact absurd rfl hne
        · by_cases hl : l = .invalidate
          · subst hl
            exact ⟨.invalidate, rfl, rfl⟩
          · exact absurd ((Prog.holds_step Others.refl h.gui).1.data hl) hne
    | frame input =>
      obtain ⟨world, gui, closing⟩ := s
      cases gui with
      | ret a =>
        simp only at hne
        split at hne <;> exact absurd rfl hne
      | act l u k => exact absurd rfl hne
    | close =>
      obtain ⟨world, gui, closing⟩ := s
      cases gui with
      | ret a =>
        simp only at hne
        split at hne <;> exact absurd rfl hne
      | act l u k => exact absurd rfl hne
    | task t =>
      refine ⟨.task t, ?_, rfl⟩
      cases hf : s.world.future t with
      | none => simp only [hf] at hne; exact absurd rfl hne
      | some p =>
        cases p with
        | ret b => simp only [hf] at hne; exact absurd rfl hne
        | act l u k =>
          show (s.world.future t).isSome = true ∧ s.world.ready t = false
          unfold World.ready
          rw [hf]
          exact ⟨rfl, rfl⟩

theorem Orderly.exclusive (h : Orderly s) : Exclusive env reg s := by
  have hinvalidate : s.gui.next = some .invalidate → ∀ t, ¬ s.world.Outstanding t := by
    intro hn
    obtain ⟨u, k, _, hg⟩ := h.guarantee hn
    exact hg.idle rfl
  refine ⟨h.one, fun t hn => ?_, hinvalidate, fun t hn => ?_, fun o o' ho ho' => ?_, fun m => h.data m⟩
  · obtain ⟨u, k, _, hg⟩ := h.guarantee hn
    exact hg.idle rfl
  · obtain ⟨u, k, _, hg⟩ := h.guarantee hn
    exact hg.finished t rfl
  · cases o with
    | task t =>
      cases o' with
      | task t' => rw [h.one t t' ho.1 ho'.1]
      | invalidate => exact absurd ho.1 (hinvalidate ho' t)
    | invalidate =>
      cases o' with
      | task t' => exact absurd ho'.1 (hinvalidate ho t')
      | invalidate => rfl

end System

/-- **One task at a time.**  In every state of every run of the frame loop at most one task is
outstanding; a task is launched, and the cache cleared, only while none is; a future is taken only from
a task that has finished; and at most one operation is in progress that can change the discovery data,
which nothing else changes. -/
theorem one_task_at_a_time {env : Env} {reg : Registry} {settings : Settings} {s : System}
    (h : Reachable env reg settings s) : s.Exclusive env reg := by
  have horderly : s.Orderly := by
    refine h.invariant (P := System.Orderly) (System.Orderly.init settings) ?_
    intro s m hs _
    exact hs.step m
  exact horderly.exclusive

/-- RESCAN on a running link, after the scan and the start of the first frames -/
theorem one_task_at_a_time_rescan :
    let env := succeeding [controller "a"]
    let moves : List Move := List.replicate 3 .gui ++ List.replicate 40 (.task .scan) ++
      .frame {} :: List.replicate 40 .gui ++ List.replicate 60 (.task .start) ++
      .frame { rescan := true } :: List.replicate 8 .gui
    let s := moves.foldl (System.step env registry)
      (System.init env registry { enabledControllers := {"a"} })
    s.world.runtime.state = .running ∧ s.gui.next = some .invalidate ∧
      ∀ t, ¬ s.world.Outstanding t := by
  intro env moves s
  have hnext : s.gui.next = some .invalidate := by decide +kernel
  have hreach : Reachable env registry { enabledControllers := {"a"} } s := Reach.of_list moves
  exact ⟨by decide +kernel, hnext, (one_task_at_a_time hreach).invalidated hnext⟩

end LiberaLink.Gui
