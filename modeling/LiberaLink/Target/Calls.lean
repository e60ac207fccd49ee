import Mathlib.Data.List.Nodup
import LiberaLink.Target.Operations

/-!
# Calls of a target, with what they are given and what they return

Operations overlap on one target as in `System`, and each call is kept with its arguments and, once it is
over, with its result.  What the calls do to the queue happens in the sections under the queue mutex, one
for each call at most, and the results say what happened there.

* `TargetOp.call`, `Calls.step`   the operations with their results, any number of them under way;
* `forget_run`                    without the results this is a run of `System`;
* `Passed`, `history`             what the sections of a run have done, in the order of the queue mutex;
* `Stage`, `call_tracked`         where a call stands, and what its result says about its section;
* `run_tracked`                   **what the sections keep, and what the results say about them**;
* `queueOrder_inTime`             the order of the queue mutex does not contradict the order in time.
-/

namespace LiberaLink.Target
open Stepwise

/-- what a call returns; for a callback, what it has appended to its output -/
inductive Returned where
  | submission (result : SubmissionResult)
  | nothing
  | filled (output : Filled)
  deriving DecidableEq

def TargetOp.call (cfg : TargetConfig) : TargetOp → TargetM Returned
  | .submitContinuous submission a => do
    let result ← Target.submitContinuous cfg submission a
    pure (.submission result)
  | .replaceFrame submission a => do
    let result ← Target.replaceFrame cfg submission a
    pure (.submission result)
  | .submitFrame submission a => do
    let result ← Target.submitFrame cfg submission a
    pure (.submission result)
  | .reset => do
    Target.reset cfg
    pure .nothing
  | .fillFromQueue req outSize now underrunNow => do
    let output ← Target.fillFromQueue cfg req outSize now underrunNow
    pure (.filled output)

/-- a target with the calls of its operations, in the order in which they began -/
structure Calls where
  target : LiberaTarget
  ops : List TargetOp
  threads : List (TargetM Returned)

def Calls.new (s : LiberaTarget) : Calls := ⟨s, [], []⟩

def Calls.step (cfg : TargetConfig) (y : Calls) : SystemInput → Calls
  | .start op => { y with ops := y.ops ++ [op], threads := y.threads ++ [op.call cfg] }
  | .run i => {
      y with
      target := (Prog.fireThread i y.threads y.target).2
      threads := (Prog.fireThread i y.threads y.target).1 }

/-- no call is under way -/
def Calls.Quiescent (y : Calls) : Prop := ∀ p ∈ y.threads, p.Finished

/-- what the call `i` has returned -/
def Calls.returned (y : Calls) (i : Nat) : Option Returned := y.threads[i]?.bind Prog.result?

/-- the points that a call is given to put into the queue -/
def TargetOp.givenPoints : TargetOp → List LaserPoint
  | .submitContinuous submission _ => submission.points
  | .replaceFrame submission _ => framePoints submission
  | _ => []

/-- the points of the queue that a callback has appended to its output -/
def Returned.takenPoints : Returned → List LaserPoint
  | .filled output => output.points
  | _ => []

/-- the number of dropped points that a submission has returned -/
def Returned.droppedPoints : Returned → Nat
  | .submission result => result.droppedPoints
  | _ => 0

section
variable (y : Calls) (i : Nat)

def Calls.givenPoints : List LaserPoint := (y.ops[i]?.map TargetOp.givenPoints).getD []
def Calls.takenPoints : List LaserPoint := ((y.returned i).map Returned.takenPoints).getD []
def Calls.droppedPoints : Nat := ((y.returned i).map Returned.droppedPoints).getD 0

end

/-! ## without the results -/

def Calls.forget (y : Calls) : System := ⟨y.target, y.threads.map Prog.discard⟩

theorem call_discard (cfg : TargetConfig) (op : TargetOp) : (op.call cfg).discard = op.run cfg := by
  cases op with
  | submitContinuous submission a => exact Prog.bind_assoc _ _ _
  | replaceFrame submission a => exact Prog.bind_assoc _ _ _
  | submitFrame submission a => exact Prog.bind_assoc _ _ _
  | reset => exact (Prog.bind_assoc _ _ _).trans (Prog.discard_unit _)
  | fillFromQueue req outSize now underrunNow => exact Prog.bind_assoc _ _ _

/-- **Without the results a run of calls is a run of operations.** -/
theorem forget_run (cfg : TargetConfig) (y : Calls) (inputs : List SystemInput) :
    (inputs.foldl (Calls.step cfg) y).forget = inputs.foldl (System.step cfg) y.forget := by
  induction inputs generalizing y with
  | nil => rfl
  | cons input inputs ih =>
    rw [List.foldl_cons, List.foldl_cons, ih]
    congr 1
    cases input with
    | start op =>
      show System.mk y.target ((y.threads ++ [op.call cfg]).map Prog.discard) =
        ⟨y.target, y.threads.map Prog.discard ++ [op.run cfg]⟩
      rw [List.map_append, List.map_singleton, call_discard]
    | run i =>
      show System.mk _ ((Prog.fireThread i y.threads y.target).1.map Prog.discard) =
        ⟨(Prog.fireThread i (y.threads.map Prog.discard) y.target).2,
          (Prog.fireThread i (y.threads.map Prog.discard) y.target).1⟩
      rw [Prog.fireThread_discard]
      rfl

/-! ## the sections of a run -/

/-- what a section under the queue mutex has done -/
inductive Passed where
  | queued (points : List LaserPoint) (drops : Nat)
  | replaced (points : List LaserPoint) (drops : Nat)
  | cleared
  | reset
  | filled (output : Filled)
  deriving DecidableEq

def outcome (cfg : TargetConfig) : TargetAct → LiberaTarget → Option Passed
  | .queueSlice points limit _, s =>
    some (.queued points (overflowDrop limit (s.pendingPoints ++ points)))
  | .replaceQueue points downstream _, _ =>
    some (.replaced points (replaceDrop cfg points downstream))
  | .clearQueue _, _ => some .cleared
  | .resetQueue, _ => some .reset
  | .fill f, s => some (.filled (fillOutput cfg f s))
  | _, _ => none

/-- the section that a step passes, with its call -/
def Calls.passing (cfg : TargetConfig) (y : Calls) : SystemInput → List (Nat × Passed)
  | .start _ => []
  | .run i => match y.threads[i]?.bind Prog.next with
    | some l => ((outcome cfg l y.target).map fun p => (i, p)).toList
    | none => []

/-- the sections of a run, in the order of the queue mutex -/
def history (cfg : TargetConfig) : Calls → List SystemInput → List (Nat × Passed)
  | _, [] => []
  | y, input :: inputs => y.passing cfg input ++ history cfg (y.step cfg input) inputs

/-- the calls in the order in which they pass their sections -/
def queueOrder (cfg : TargetConfig) (y : Calls) (inputs : List SystemInput) : List Nat :=
  (history cfg y inputs).map Prod.fst

theorem history_concat (cfg : TargetConfig) (y : Calls) (inputs : List SystemInput)
    (input : SystemInput) : history cfg y (inputs ++ [input]) =
      history cfg y inputs ++ (inputs.foldl (Calls.step cfg) y).passing cfg input := by
  induction inputs generalizing y with
  | nil => exact List.append_nil _
  | cons first inputs ih => rw [List.cons_append, history, history, ih, List.append_assoc,
      List.foldl_cons]

/-- the operations of a run -/
theorem ops_of_run {cfg : TargetConfig} {y : Calls} {inputs : List SystemInput} {op : TargetOp}
    (h : op ∈ (inputs.foldl (Calls.step cfg) y).ops) : op ∈ y.ops ∨ .start op ∈ inputs := by
  induction inputs generalizing y with
  | nil => exact .inl h
  | cons input inputs ih =>
    rcases ih h with hold | hnew
    · cases input with
      | start op' =>
        rcases List.mem_append.mp hold with hold | hlast
        · exact .inl hold
        · rw [List.mem_singleton.mp hlast]
          exact .inr List.mem_cons_self
      | run i => exact .inl hold
    · exact .inr (List.mem_cons_of_mem _ hnew)

/-! ## where a call stands -/

inductive Stage where
  | idle
  /-- so many points are counted as received and not yet in the queue -/
  | announced (pointCount : Nat)
  | passed (p : Passed)
  deriving DecidableEq

/-- where a call stands right before its section -/
def TargetAct.ready : TargetAct → Stage
  | .queueSlice points _ _ => .announced points.length
  | _ => .idle

/-- the actions of continuous submissions and callbacks -/
def TargetAct.streams : TargetAct → Bool
  | .announceSlice _ => true
  | .updatePointRate _ _ => true
  | .observe _ => true
  | .countLit _ => true
  | .queueSlice _ _ _ => true
  | .countCallback => true
  | .fill _ => true
  | .report _ => true
  | .look => true
  | _ => false

/-- A call announces its points, passes its section once, and makes `allowed` actions besides. -/
def tracking (cfg : TargetConfig) (allowed : TargetAct → Bool) :
    Typestate TargetAct LiberaTarget Stage where
  effect := effect cfg
  next t l s :=
    if allowed l = true then
      match outcome cfg l s with
      | some p => if t = l.ready then some (.passed p) else none
      | none => match l with
        | .announceSlice pointCount => if t = .idle then some (.announced pointCount) else none
        | _ => some t
    else none

/-- What a call has returned, against where it stands then. -/
def TargetOp.Ends : TargetOp → Returned → Stage → Prop
  | .submitContinuous submission _, .submission result, t =>
    (submission.points = [] ∧ result.droppedPoints = 0 ∧ t = .idle) ∨
      t = .passed (.queued submission.points result.droppedPoints)
  | .replaceFrame submission _, .submission _, t =>
    t = .idle ∨ ∃ n drops, t = .passed (.replaced ((framePoints submission).take n) drops)
  | .submitFrame _ _, .submission _, t => t = .idle ∨ t = .passed .cleared
  | .reset, .nothing, t => t = .passed .reset
  | .fillFromQueue _ _ _ _, .filled output, t =>
    (output = ⟨[], []⟩ ∧ t = .idle) ∨ t = .passed (.filled output)
  | _, _, _ => False

/-- **The ends that a call can come to.** -/
theorem TargetOp.Ends.inv {op : TargetOp} {result : Returned} {t : Stage} (h : op.Ends result t) :
    (∃ submission a r, op = .submitContinuous submission a ∧ result = .submission r ∧
      ((submission.points = [] ∧ r.droppedPoints = 0 ∧ t = .idle) ∨
        t = .passed (.queued submission.points r.droppedPoints))) ∨
    (∃ submission a r, op = .replaceFrame submission a ∧ result = .submission r ∧
      (t = .idle ∨ ∃ n drops, t = .passed (.replaced ((framePoints submission).take n) drops))) ∨
    (∃ submission a r, op = .submitFrame submission a ∧ result = .submission r ∧
      (t = .idle ∨ t = .passed .cleared)) ∨
    (op = .reset ∧ result = .nothing ∧ t = .passed .reset) ∨
    ∃ req outSize now underrunNow output, op = .fillFromQueue req outSize now underrunNow ∧
      result = .filled output ∧ ((output = ⟨[], []⟩ ∧ t = .idle) ∨ t = .passed (.filled output)) := by
  cases op with
  | submitContinuous submission a =>
    cases result with
    | submission r => exact .inl ⟨submission, a, r, rfl, rfl, h⟩
    | nothing => exact h.elim
    | filled output => exact h.elim
  | replaceFrame submission a =>
    cases result with
    | submission r => exact .inr (.inl ⟨submission, a, r, rfl, rfl, h⟩)
    | nothing => exact h.elim
    | filled output => exact h.elim
  | submitFrame submission a =>
    cases result with
    | submission r => exact .inr (.inr (.inl ⟨submission, a, r, rfl, rfl, h⟩))
    | nothing => exact h.elim
    | filled output => exact h.elim
  | reset =>
    cases result with
    | submission r => exact h.elim
    | nothing => exact .inr (.inr (.inr (.inl ⟨rfl, rfl, h⟩)))
    | filled output => exact h.elim
  | fillFromQueue req outSize now underrunNow =>
    cases result with
    | submission r => exact h.elim
    | nothing => exact h.elim
    | filled output =>
      exact .inr (.inr (.inr (.inr ⟨req, outSize, now, underrunNow, output, rfl, rfl, h⟩)))

/-- the operations of a stream: continuous submissions and callbacks -/
def TargetOp.Streams : TargetOp → Prop
  | .submitContinuous _ _ => True
  | .fillFromQueue _ _ _ _ => True
  | _ => False

/-- the actions of the operation are allowed -/
def TargetOp.Fits (op : TargetOp) (allowed : TargetAct → Bool) : Prop :=
  ∀ l : TargetAct, (op.Streams → l.streams = true) → allowed l = true

section
variable {cfg : TargetConfig} {allowed : TargetAct → Bool} {t t' : Stage} {α : Type}

/-- **A step of a stage**: the call passes its section, it announces its points, or nothing changes. -/
theorem tracking_next {l : TargetAct} {s : LiberaTarget}
    (h : (tracking cfg allowed).next t l s = some t') : allowed l = true ∧
      ((∃ p, outcome cfg l s = some p ∧ t = l.ready ∧ t' = .passed p) ∨
        (outcome cfg l s = none ∧ ((∃ n, l = .announceSlice n ∧ t = .idle ∧ t' = .announced n) ∨
          (t' = t ∧ ∀ n, l ≠ .announceSlice n)))) := by
  unfold tracking at h
  simp only at h
  split at h
  · rename_i hallowed
    refine ⟨hallowed, ?_⟩
    cases hout : outcome cfg l s with
    | some p =>
      rw [hout] at h
      simp only at h
      split at h
      · rename_i hready
        exact .inl ⟨p, rfl, hready, (Option.some.inj h).symm⟩
      · cases h
    | none =>
      refine .inr ⟨rfl, ?_⟩
      rw [hout] at h
      cases l with
      | announceSlice n =>
        simp only at h
        split at h
        · rename_i hidle
          exact .inl ⟨n, rfl, hidle, (Option.some.inj h).symm⟩
        · cases h
      | _ => exact .inr ⟨(Option.some.inj h).symm, fun n hn => TargetAct.noConfusion hn⟩
  · cases h

/-- a call that has passed its section stays where it is -/
theorem tracking_stays {p : Passed} {l : TargetAct} {s : LiberaTarget}
    (h : (tracking cfg allowed).next (.passed p) l s = some t') : t' = .passed p := by
  obtain ⟨_, ⟨q, _, hready, _⟩ | ⟨_, ⟨n, _, hidle, _⟩ | ⟨hsame, _⟩⟩⟩ := tracking_next h
  · cases l <;> cases hready
  · cases hidle
  · exact hsame

theorem tracks_quiet {l : TargetAct} (hl : allowed l = true)
    (hnext : ∀ s, (tracking cfg fun _ => true).next t l s = some t) {Q : Unit → Stage → Prop}
    (h : Q () t) : (tracking cfg allowed).Follows (perform cfg l) Q t :=
  Typestate.follows_modify (fun s => (if_pos hl).trans (hnext s)) h

theorem tracks_look (hl : allowed .look = true) {r : LiberaTarget → α} {Q : α → Stage → Prop}
    (h : ∀ s, Q (r s) t) : (tracking cfg allowed).Follows (look cfg r) Q t :=
  Typestate.follows_exchange fun s => ⟨t, if_pos hl, h s⟩

/-- a section that returns what it has done -/
theorem tracks_section {l : TargetAct} (hl : allowed l = true) {p : LiberaTarget → Passed}
    (hout : ∀ s, outcome cfg l s = some (p s)) {r : LiberaTarget → α} {Q : α → Stage → Prop}
    (h : ∀ s, Q (r s) (.passed (p s))) :
    (tracking cfg allowed).Follows (Prog.exchange l r (effect cfg l)) Q l.ready := by
  refine Typestate.follows_exchange fun s => ⟨.passed (p s), ?_, h s⟩
  refine (if_pos hl).trans ?_
  rw [hout s]
  exact if_pos rfl

theorem tracks_finish (hallowed : ∀ l : TargetAct, l.streams = true → allowed l = true)
    {accepted : Bool} {submittedPoints n : Nat} {a : Answers} {Q : SubmissionResult → Stage → Prop}
    (h : ∀ result, result.droppedPoints = n → Q result t) :
    (tracking cfg allowed).Follows (finish cfg accepted submittedPoints n a) Q t := by
  rw [finish, Typestate.follows_bind]
  refine tracks_quiet (hallowed _ rfl) (fun _ => rfl) ?_
  refine Typestate.follows_exchange fun s => ⟨t, if_pos (hallowed _ rfl), h _ rfl⟩

theorem submitContinuous_tracked (hallowed : ∀ l : TargetAct, l.streams = true → allowed l = true)
    (submission : SliceSubmission) (a : Answers) :
    (tracking cfg allowed).Follows (submitContinuous cfg submission a)
      (fun result t => (TargetOp.submitContinuous submission a).Ends (.submission result) t) .idle := by
  unfold submitContinuous
  simp only
  split
  · rename_i hnone
    exact tracks_finish hallowed fun result hdrops =>
      .inl ⟨List.length_eq_zero_iff.mp hnone, hdrops, rfl⟩
  · simp only [Typestate.follows_bind]
    have hannounce : ∀ s, (tracking cfg allowed).next .idle (.announceSlice submission.points.length) s =
        some (.announced submission.points.length) := fun s => if_pos (hallowed _ rfl)
    refine Typestate.follows_modify hannounce ?_
    refine tracks_quiet (hallowed _ rfl) (fun _ => rfl) ?_
    refine tracks_quiet (hallowed _ rfl) (fun _ => rfl) ?_
    refine tracks_look (hallowed _ rfl) fun s => ?_
    refine tracks_quiet (hallowed _ rfl) (fun _ => rfl) ?_
    refine tracks_section (l := .queueSlice submission.points _ a.now) (hallowed _ rfl)
      (fun _ => rfl) fun s' => ?_
    refine tracks_finish hallowed fun result hdrops => .inr ?_
    rw [hdrops]

theorem fillFromQueue_tracked (hallowed : ∀ l : TargetAct, l.streams = true → allowed l = true)
    (req : PointFillRequest) (outSize : Nat) (now underrunNow : Int) :
    (tracking cfg allowed).Follows (fillFromQueue cfg req outSize now underrunNow)
      (fun output t => (TargetOp.fillFromQueue req outSize now underrunNow).Ends (.filled output) t)
      .idle := by
  unfold fillFromQueue
  split
  · exact .inl ⟨rfl, rfl⟩
  · simp only [Typestate.follows_bind]
    refine tracks_quiet (hallowed _ rfl) (fun _ => rfl) ?_
    refine tracks_look (hallowed _ rfl) fun s => ?_
    exact tracks_section (l := .fill _) (hallowed _ rfl) (fun _ => rfl) fun s' => .inr rfl

theorem replaceFrame_tracked (hallowed : ∀ l : TargetAct, allowed l = true)
    (submission : FrameSubmission) (a : Answers) :
    (tracking cfg allowed).Follows (replaceFrame cfg submission a)
      (fun result t => (TargetOp.replaceFrame submission a).Ends (.submission result) t) .idle := by
  have hstreams : ∀ l : TargetAct, l.streams = true → allowed l = true := fun l _ => hallowed l
  unfold replaceFrame
  split
  · exact tracks_finish hstreams fun _ _ => .inl rfl
  · rw [Typestate.follows_bind]
    refine tracks_quiet (hallowed _) (fun _ => rfl) ?_
    simp only
    split
    · exact tracks_finish hstreams fun _ _ => .inl rfl
    · simp only [Typestate.follows_bind]
      refine tracks_look (hallowed _) fun s => ?_
      refine tracks_quiet (hallowed _) (fun _ => rfl) ?_
      refine tracks_quiet (hallowed _) (fun _ => rfl) ?_
      refine tracks_section (l := .replaceQueue _ _ a.now) (hallowed _) (fun _ => rfl) fun s' => ?_
      refine tracks_quiet (hallowed _) (fun _ => rfl) ?_
      split
      · rw [Typestate.follows_bind]
        refine tracks_quiet (hallowed _) (fun _ => rfl) ?_
        exact tracks_finish hstreams fun _ _ => .inr ⟨_, _, rfl⟩
      · exact tracks_finish hstreams fun _ _ => .inr ⟨_, _, rfl⟩

theorem submitFrame_tracked (hallowed : ∀ l : TargetAct, allowed l = true)
    (submission : FrameSubmission) (a : Answers) :
    (tracking cfg allowed).Follows (submitFrame cfg submission a)
      (fun result t => (TargetOp.submitFrame submission a).Ends (.submission result) t) .idle := by
  have hstreams : ∀ l : TargetAct, l.streams = true → allowed l = true := fun l _ => hallowed l
  unfold submitFrame
  simp only
  split
  · exact tracks_finish hstreams fun _ _ => .inl rfl
  · simp only [Typestate.follows_bind]
    refine tracks_quiet (hallowed _) (fun _ => rfl) ?_
    refine tracks_quiet (hallowed _) (fun _ => rfl) ?_
    refine tracks_section (l := .clearQueue a.now) (hallowed _) (fun _ => rfl) fun s => ?_
    refine tracks_quiet (hallowed _) (fun _ => rfl) ?_
    split
    · exact tracks_finish hstreams fun _ _ => .inr rfl
    · rw [Typestate.follows_bind]
      refine tracks_quiet (hallowed _) (fun _ => rfl) ?_
      exact tracks_finish hstreams fun _ _ => .inr rfl

/-- **A call keeps to its stages**, and what it returns is what its section has done. -/
theorem call_tracked {op : TargetOp} (hallowed : op.Fits allowed) :
    (tracking cfg allowed).Follows (op.call cfg) op.Ends .idle := by
  cases op with
  | submitContinuous submission a =>
    rw [TargetOp.call, Typestate.follows_bind]
    exact submitContinuous_tracked (fun l hl => hallowed l fun _ => hl) submission a
  | fillFromQueue req outSize now underrunNow =>
    rw [TargetOp.call, Typestate.follows_bind]
    exact fillFromQueue_tracked (fun l hl => hallowed l fun _ => hl) req outSize now underrunNow
  | replaceFrame submission a =>
    rw [TargetOp.call, Typestate.follows_bind]
    exact replaceFrame_tracked (fun l => hallowed l fun h => h.elim) submission a
  | submitFrame submission a =>
    rw [TargetOp.call, Typestate.follows_bind]
    exact submitFrame_tracked (fun l => hallowed l fun h => h.elim) submission a
  | reset =>
    have hall : ∀ l : TargetAct, allowed l = true := fun l => hallowed l fun h => h.elim
    rw [TargetOp.call, Typestate.follows_bind]
    simp only [reset, Typestate.follows_bind]
    refine tracks_section (l := .resetQueue) (hall _) (fun _ => rfl) fun s => ?_
    refine tracks_quiet (hall _) (fun _ => rfl) ?_
    exact tracks_quiet (hall _) (fun _ => rfl) rfl

end

/-! ## runs -/

/-- The stages of the calls of `y`, against the sections that have been passed. -/
structure Tracked (cfg : TargetConfig) (allowed : TargetAct → Bool) (y : Calls)
    (passed : List (Nat × Passed)) (stages : List Stage) : Prop where
  served : (tracking cfg allowed).Served TargetOp.Ends y.ops stages y.threads
  mem : ∀ i p, (i, p) ∈ passed ↔ stages[i]? = some (.passed p)
  nodup : (passed.map Prod.fst).Nodup

section
variable {cfg : TargetConfig} {allowed : TargetAct → Bool} {y : Calls}
  {passed : List (Nat × Passed)} {stages : List Stage}

theorem Tracked.start (h : Tracked cfg allowed y passed stages) {op : TargetOp}
    (hop : op.Fits allowed) :
    Tracked cfg allowed (y.step cfg (.start op)) passed (stages ++ [.idle]) where
  served := h.served.spawn (call_tracked hop)
  mem := by
    intro i p
    rw [h.mem]
    by_cases hi : i < stages.length
    · rw [List.getElem?_append_left hi]
    · rw [List.getElem?_append_right (by omega), List.getElem?_eq_none (by omega)]
      refine ⟨fun h => (by cases h), fun h => ?_⟩
      have := List.mem_of_getElem? h
      rw [List.mem_singleton] at this
      cases this
  nodup := h.nodup

/-- **One action**: nothing happens, or one call makes a step of its stage. -/
theorem Tracked.run (h : Tracked cfg allowed y passed stages) (i : Nat) :
    (y.step cfg (.run i) = y ∧ y.passing cfg (.run i) = []) ∨
      ∃ t l t', stages[i]? = some t ∧ (tracking cfg allowed).next t l y.target = some t' ∧
        (y.step cfg (.run i)).target = effect cfg l y.target ∧
        y.passing cfg (.run i) = ((outcome cfg l y.target).map fun p => (i, p)).toList ∧
        Tracked cfg allowed (y.step cfg (.run i)) (passed ++ y.passing cfg (.run i))
          (stages.set i t') := by
  rcases h.served.fire i y.target with ⟨hsame, hnone⟩ | ⟨t, l, t', hl, ht, hnext, heffect, hserved⟩
  · refine .inl ⟨?_, ?_⟩
    · show Calls.mk _ _ _ = y
      rw [hsame]
    · show (match y.threads[i]?.bind Prog.next with | some l => _ | none => []) = []
      rw [hnone]
  · have hpassing : y.passing cfg (.run i) =
        ((outcome cfg l y.target).map fun p => (i, p)).toList := by
      show (match y.threads[i]?.bind Prog.next with | some l => _ | none => []) = _
      rw [hl]
    have hlt : i < stages.length := (List.getElem?_eq_some_iff.mp ht).1
    refine .inr ⟨t, l, t', ht, hnext, heffect, hpassing, hserved, ?_, ?_⟩
    · intro j p
      rw [List.mem_append, h.mem, hpassing]
      obtain ⟨_, hstep⟩ := tracking_next hnext
      by_cases hij : i = j
      · subst hij
        rw [List.getElem?_set_self hlt, ht, Option.some_inj, Option.some_inj]
        rcases hstep with ⟨q, hq, hready, rfl⟩ | ⟨hq, ⟨n, _, rfl, rfl⟩ | ⟨rfl, _⟩⟩
        · have hnot : t ≠ .passed p := by
            rw [hready]
            cases l <;> exact Stage.noConfusion
          simp [hq, hnot, eq_comm]
        · simp [hq]
        · simp [hq]
      · rw [List.getElem?_set_ne hij]
        cases outcome cfg l y.target with
        | none => simp
        | some q => simp [Ne.symm hij]
    · rw [hpassing]
      obtain ⟨_, ⟨q, hq, hready, _⟩ | ⟨hq, _⟩⟩ := tracking_next hnext
      · rw [hq, List.map_append]
        show (passed.map Prod.fst ++ [i]).Nodup
        rw [List.nodup_append_comm]
        refine List.nodup_cons.mpr ⟨?_, h.nodup⟩
        intro hmem
        obtain ⟨⟨j, p⟩, hp, rfl⟩ := List.mem_map.mp hmem
        rw [h.mem, ht, hready] at hp
        cases l <;> cases hp
      · rw [hq]
        simpa using h.nodup

/-- **The rule of runs**: what one section keeps, of the stages, of the sections passed and of the target,
holds at the end of every run, and the stages of the calls are those of their results. -/
theorem run_tracked {P : List Stage → List (Nat × Passed) → LiberaTarget → Prop} {s : LiberaTarget}
    (h0 : P [] [] s) (hstart : ∀ stages passed s, P stages passed s → P (stages ++ [.idle]) passed s)
    (hact : ∀ stages passed s i t l t', stages[i]? = some t →
      (tracking cfg allowed).next t l s = some t' → P stages passed s →
      P (stages.set i t') (passed ++ ((outcome cfg l s).map fun p => (i, p)).toList) (effect cfg l s))
    (inputs : List SystemInput) (hfits : ∀ op, .start op ∈ inputs → op.Fits allowed) :
    ∃ stages, Tracked cfg allowed (inputs.foldl (Calls.step cfg) (.new s))
        (history cfg (.new s) inputs) stages ∧
      P stages (history cfg (.new s) inputs) (inputs.foldl (Calls.step cfg) (.new s)).target := by
  induction inputs using List.reverseRecOn with
  | nil =>
    refine ⟨[], ⟨⟨rfl, rfl, ?_⟩, ?_, List.nodup_nil⟩, h0⟩
    · intro i op t p hop
      cases hop
    · intro i p
      exact ⟨fun h => (by cases h), fun h => (by cases h)⟩
  | append_singleton inputs input ih =>
    obtain ⟨stages, htracked, hP⟩ := ih fun op hop => hfits op (List.mem_append_left _ hop)
    rw [List.foldl_append, history_concat]
    show ∃ stages, Tracked cfg allowed (Calls.step cfg _ input) _ stages ∧
      P stages _ (Calls.step cfg _ input).target
    generalize inputs.foldl (Calls.step cfg) (.new s) = y at htracked hP ⊢
    generalize history cfg (.new s) inputs = passed at htracked hP ⊢
    cases input with
    | start op =>
      have hop := hfits op (List.mem_append_right _ List.mem_cons_self)
      refine ⟨stages ++ [.idle], ?_, ?_⟩
      · rw [Calls.passing, List.append_nil]
        exact htracked.start hop
      · rw [Calls.passing, List.append_nil]
        exact hstart _ _ _ hP
    | run i =>
      rcases htracked.run i with ⟨hsame, hnone⟩ | ⟨t, l, t', ht, hnext, heffect, hpassing, hnew⟩
      · rw [hsame, hnone, List.append_nil]
        exact ⟨stages, htracked, hP⟩
      · refine ⟨stages.set i t', hnew, ?_⟩
        rw [heffect, hpassing]
        exact hact _ _ _ i t l t' ht hnext hP

/-- what a call that has passed its section is -/
theorem Tracked.ends (h : Tracked cfg allowed y passed stages) {i : Nat} {p : Passed}
    (hi : (i, p) ∈ passed) : ∃ op result, y.ops[i]? = some op ∧ op.Ends result (.passed p) :=
  h.served.ends ((h.mem i p).mp hi) y.target fun _ _ _ hnext => tracking_stays hnext

/-- what a call that has returned has done -/
theorem Tracked.returned (h : Tracked cfg allowed y passed stages) {i : Nat} {result : Returned}
    (hi : y.returned i = some result) : ∃ op t, y.ops[i]? = some op ∧ stages[i]? = some t ∧
      op.Ends result t := h.served.returned hi

end

/-! ## the order in time -/

section
variable {cfg : TargetConfig} {y : Calls} {i k : Nat}

/-- a call that was over when another one began is before it in the order -/
def InTime (cfg : TargetConfig) (y : Calls) (inputs : List SystemInput) (order : List Nat) : Prop :=
  ∀ early late, inputs = early ++ late →
    let mid := early.foldl (Calls.step cfg) y
    ∀ i k, (mid.returned i).isSome = true → mid.ops.length ≤ k → i ∈ order → k ∈ order →
      [i, k].Sublist order

theorem queueOrder_append (early late : List SystemInput) : queueOrder cfg y (early ++ late) =
    queueOrder cfg y early ++ queueOrder cfg (early.foldl (Calls.step cfg) y) late := by
  induction early generalizing y with
  | nil => rfl
  | cons input early ih =>
    show ((y.passing cfg input ++ history cfg (y.step cfg input) (early ++ late)).map Prod.fst) =
      (y.passing cfg input ++ history cfg (y.step cfg input) early).map Prod.fst ++ _
    rw [List.map_append, List.map_append, List.append_assoc]
    exact congrArg _ ih

/-- a call that is over has no more actions -/
theorem next_of_returned (h : (y.returned i).isSome = true) : y.threads[i]?.bind Prog.next = none := by
  unfold Calls.returned at h
  cases hi : y.threads[i]? with
  | none => rfl
  | some p =>
    rw [hi] at h
    cases p with
    | ret a => rfl
    | act l u next => cases h

/-- a result stays -/
theorem returned_step (h : (y.returned i).isSome = true) (input : SystemInput) :
    ((y.step cfg input).returned i).isSome = true := by
  unfold Calls.returned at h ⊢
  cases hi : y.threads[i]? with
  | none =>
    rw [hi] at h
    cases h
  | some p =>
    rw [hi] at h
    have hlt : i < y.threads.length := (List.getElem?_eq_some_iff.mp hi).1
    cases input with
    | start op =>
      show ((y.threads ++ [op.call cfg])[i]?.bind Prog.result?).isSome = true
      rw [List.getElem?_append_left hlt, hi]
      exact h
    | run j =>
      show ((Prog.fireThread j y.threads y.target).1[i]?.bind Prog.result?).isSome = true
      unfold Prog.fireThread
      split
      · next l u next hj =>
        have hne : j ≠ i := by
          rintro rfl
          rw [hi] at hj
          obtain rfl := Option.some.inj hj
          cases h
        rw [List.getElem?_set_ne hne, hi]
        exact h
      · rw [hi]
        exact h

/-- a call that is over passes no section after that -/
theorem not_mem_queueOrder (h : (y.returned i).isSome = true) (late : List SystemInput) :
    i ∉ queueOrder cfg y late := by
  induction late generalizing y with
  | nil => exact List.not_mem_nil
  | cons input late ih =>
    rw [queueOrder, history, List.map_append, List.mem_append, not_or]
    refine ⟨?_, ih (returned_step h input)⟩
    intro hmem
    obtain ⟨⟨j, p⟩, hp, rfl⟩ := List.mem_map.mp hmem
    cases input with
    | start op => cases hp
    | run j' =>
      change (j, p) ∈ (match y.threads[j']?.bind Prog.next with
        | some l => ((outcome cfg l y.target).map fun q => (j', q)).toList
        | none => []) at hp
      split at hp
      · next l hl =>
        obtain ⟨q, _, hq⟩ := Option.map_eq_some_iff.mp (Option.mem_toList.mp hp)
        obtain rfl : j' = j := congrArg Prod.fst hq
        rw [next_of_returned h] at hl
        cases hl
      · cases hp

/-- the calls of the order have begun -/
theorem lt_of_mem_queueOrder {s : LiberaTarget} {inputs : List SystemInput}
    (h : i ∈ queueOrder cfg (.new s) inputs) :
    i < (inputs.foldl (Calls.step cfg) (.new s)).ops.length := by
  obtain ⟨stages, htracked, _⟩ : ∃ stages,
      Tracked cfg (fun _ => true) (inputs.foldl (Calls.step cfg) (.new s)) (history cfg (.new s) inputs)
        stages ∧ True :=
    run_tracked (P := fun _ _ _ => True) trivial (fun _ _ _ _ => trivial)
      (fun _ _ _ _ _ _ _ _ _ _ => trivial) inputs fun _ _ _ _ => rfl
  obtain ⟨⟨j, p⟩, hp, rfl⟩ := List.mem_map.mp h
  obtain ⟨op, result, hop, _⟩ := htracked.ends hp
  exact (List.getElem?_eq_some_iff.mp hop).1

/-- **The order of the queue mutex is one in time.** -/
theorem queueOrder_inTime (cfg : TargetConfig) (s : LiberaTarget) (inputs : List SystemInput) :
    InTime cfg (.new s) inputs (queueOrder cfg (.new s) inputs) := by
  rintro early late rfl mid i k hover hbegan hi hk
  rw [queueOrder_append] at hi hk ⊢
  have hearly : i ∈ queueOrder cfg (.new s) early :=
    (List.mem_append.mp hi).resolve_right (not_mem_queueOrder hover late)
  have hlate : k ∈ queueOrder cfg mid late := by
    refine (List.mem_append.mp hk).resolve_left fun hmem => ?_
    exact absurd (lt_of_mem_queueOrder hmem) (Nat.not_lt.mpr hbegan)
  exact (List.singleton_sublist.mpr hearly).append (List.singleton_sublist.mpr hlate)

end

end LiberaLink.Target
