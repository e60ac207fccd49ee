import LiberaLink.Target.Limits

/-!
# A target is dark after a reset

Whatever calls are under way on a target and however their sections interleave, a callback appends only
points that a submission has put into the queue since the last reset, and fallback points without colour.

* `sinceLast`            what has happened since the last reset;
* `fallback_dark`        fallback points have no colour;
* `Fresh`, `fresh_act`   what every action keeps;
* `dark_after_reset`     **from a reset to the next submission every output is dark**.
-/

namespace LiberaLink.Target
open Stepwise

/-! ## since the last one -/

section
variable {α β : Type}

/-- the entries behind the last one that is a `stop` -/
def sinceLast (stop : α → Bool) (l : List α) : List α := (l.reverse.takeWhile fun a => !stop a).reverse

theorem sinceLast_stop {stop : α → Bool} {a : α} (h : stop a = true) (l : List α) :
    sinceLast stop (l ++ [a]) = [] := by
  simp [sinceLast, h]

theorem sinceLast_concat {stop : α → Bool} {a : α} (h : stop a = false) (l : List α) :
    sinceLast stop (l ++ [a]) = sinceLast stop l ++ [a] := by
  simp [sinceLast, h]

theorem sinceLast_suffix (stop : α → Bool) (l : List α) : sinceLast stop l <:+ l := by
  rw [← List.reverse_prefix, sinceLast, List.reverse_reverse]
  exact List.takeWhile_prefix _

/-- behind a `stop` only what follows it counts -/
theorem sinceLast_append {stop : α → Bool} {a : α} (h : stop a = true) (before quiet : List α) :
    sinceLast stop (before ++ a :: quiet) <:+ quiet := by
  induction quiet using List.reverseRecOn with
  | nil =>
    rw [sinceLast_stop h]
  | append_singleton quiet e ih =>
    rw [← List.cons_append, ← List.append_assoc]
    cases he : stop e with
    | true =>
      rw [sinceLast_stop he]
      exact List.nil_suffix
    | false =>
      rw [sinceLast_concat he]
      obtain ⟨dropped, hdropped⟩ := ih
      exact ⟨dropped, by rw [← List.append_assoc, hdropped]⟩

theorem sinceLast_map {stop : β → Bool} {stop' : α → Bool} {f : α → β} {l : List α}
    (h : ∀ a ∈ l, stop (f a) = stop' a) : sinceLast stop (l.map f) = (sinceLast stop' l).map f := by
  induction l using List.reverseRecOn with
  | nil => rfl
  | append_singleton l a ih =>
    have hl := ih fun b hb => h b (List.mem_append_left _ hb)
    have ha := h a (List.mem_append_right _ List.mem_cons_self)
    rw [List.map_append, List.map_singleton]
    cases hstop : stop' a with
    | true => rw [sinceLast_stop hstop, sinceLast_stop (ha.trans hstop), List.map_nil]
    | false => rw [sinceLast_concat hstop, sinceLast_concat (ha.trans hstop), hl, List.map_append,
        List.map_singleton]

theorem flatMap_sublist {f g : α → List β} {l : List α} (h : ∀ a ∈ l, (f a).Sublist (g a)) :
    (l.flatMap f).Sublist (l.flatMap g) := by
  induction l with
  | nil => exact List.Sublist.refl _
  | cons a l ih =>
    rw [List.flatMap_cons, List.flatMap_cons]
    exact (h a List.mem_cons_self).append (ih fun b hb => h b (List.mem_cons_of_mem _ hb))

end

/-! ## fallback points -/

section
variable {cfg : TargetConfig} (hdefault : cfg.defaultPoint.Dark)
include hdefault

theorem fallbackPoint_dark (s : LiberaTarget) : (fallbackPoint cfg s).Dark := by
  unfold fallbackPoint
  split
  · exact ⟨rfl, rfl, rfl⟩
  · exact hdefault

/-- **Fallback points have no colour.** -/
theorem fallback_dark (f : FillInput) (s : LiberaTarget) :
    ∀ p ∈ (fillOutput cfg f s).fallback, p.Dark := by
  have hrep : ∀ (n : Nat) (t : LiberaTarget), ∀ p ∈ List.replicate n (fallbackPoint cfg t), p.Dark := by
    intro n t p hp
    rw [List.eq_of_mem_replicate hp]
    exact fallbackPoint_dark hdefault t
  unfold fillOutput
  split
  · exact hrep _ s
  · simp only
    split
    · exact hrep _ _
    · intro p hp
      cases hp

end

/-! ## the invariant -/

def passesReset (q : Nat × Passed) : Bool := decide (q.2 = .reset)

/-- the sections since the last reset -/
def sinceReset (passed : List (Nat × Passed)) : List (Nat × Passed) := sinceLast passesReset passed

/-- what a callback may append, after the sections `before` -/
def MayEmit (before : List (Nat × Passed)) : Nat × Passed → Prop
  | (_, .filled output) =>
    (takenBy (sinceReset before) ++ output.points).Sublist (givenBy (sinceReset before)) ∧
      ∀ p ∈ output.fallback, p.Dark
  | _ => True

/-- Since the last reset, what was taken and what is queued are, in order, among the points that
submissions put into the queue; and every callback appended what it may. -/
structure Fresh (queue : List LaserPoint) (passed : List (Nat × Passed)) : Prop where
  queued : (takenBy (sinceReset passed) ++ queue).Sublist (givenBy (sinceReset passed))
  outputs : EachAfter MayEmit passed

section
variable {queue queue' : List LaserPoint} {passed : List (Nat × Passed)} {i : Nat}

/-- a section that puts points behind the queue, or behind some of it -/
theorem Fresh.give (h : Fresh queue passed) {p : Passed} (hreset : p ≠ .reset) (htaken : p.taken = [])
    (hmay : MayEmit passed (i, p)) (hqueue : queue'.Sublist (queue ++ p.given)) :
    Fresh queue' (passed ++ [(i, p)]) := by
  have hstop : passesReset (i, p) = false := decide_eq_false hreset
  refine ⟨?_, h.outputs.concat hmay⟩
  rw [sinceReset, sinceLast_concat hstop, takenBy_concat, givenBy_concat, htaken,
    List.append_nil]
  refine ((List.Sublist.refl _).append hqueue).trans ?_
  rw [← List.append_assoc]
  exact h.queued.append (List.Sublist.refl _)

theorem Fresh.fill (h : Fresh queue passed) {output : Filled} {n : Nat}
    (hpoints : output.points = queue.take n) (hdark : ∀ p ∈ output.fallback, p.Dark) :
    Fresh (queue.drop n) (passed ++ [(i, .filled output)]) := by
  have hsub : (takenBy (sinceReset passed) ++ output.points).Sublist (givenBy (sinceReset passed)) :=
    ((List.Sublist.refl _).append (hpoints ▸ List.take_sublist n queue)).trans h.queued
  have hstop : passesReset (i, .filled output) = false := rfl
  refine ⟨?_, h.outputs.concat ⟨hsub, hdark⟩⟩
  rw [sinceReset, sinceLast_concat hstop, takenBy_concat,
    givenBy_concat, show (Passed.filled output).given = [] from rfl, List.append_nil, Passed.taken,
    hpoints, List.append_assoc, List.take_append_drop]
  exact h.queued

theorem Fresh.reset (h : Fresh queue passed) : Fresh [] (passed ++ [(i, .reset)]) := by
  have hstop : passesReset (i, .reset) = true := rfl
  refine ⟨?_, h.outputs.concat trivial⟩
  rw [sinceReset, sinceLast_stop hstop]
  exact List.Sublist.refl _

end

/-- **Every action keeps it**, whoever makes it and whatever the other calls have done. -/
theorem fresh_act {cfg : TargetConfig} (hdefault : cfg.defaultPoint.Dark) {s : LiberaTarget}
    {passed : List (Nat × Passed)} (h : Fresh s.pendingPoints passed) (l : TargetAct) (i : Nat) :
    Fresh (effect cfg l s).pendingPoints
      (passed ++ ((outcome cfg l s).map fun p => (i, p)).toList) := by
  have hquiet : ∀ {s' : LiberaTarget}, s'.pendingPoints = s.pendingPoints →
      Fresh s'.pendingPoints (passed ++ []) := by
    intro s' hs'
    rw [hs', List.append_nil]
    exact h
  cases l with
  | queueSlice points limit now =>
    exact h.give Passed.noConfusion rfl trivial (List.drop_sublist _ _)
  | replaceQueue points downstream now =>
    refine h.give Passed.noConfusion rfl trivial ((List.drop_sublist _ _).trans ?_)
    exact List.sublist_append_right _ _
  | clearQueue now => exact h.give Passed.noConfusion rfl trivial (List.nil_sublist _)
  | resetQueue => exact h.reset
  | fill f =>
    have hq : (effect cfg (.fill f) s).pendingPoints = _ :=
      congrArg Books.pendingPoints (fill_books cfg f s)
    rw [hq]
    exact h.fill (fillOutput_take cfg f s) (fallback_dark hdefault f s)
  | updatePointRate commanded avbRate =>
    exact hquiet (congrArg Books.pendingPoints (maybeUpdatePointRate_books cfg s commanded avbRate))
  | report n => exact hquiet rfl
  | announceSlice n => exact hquiet rfl
  | observe breakdown => exact hquiet rfl
  | countLit n => exact hquiet rfl
  | installCallback => exact hquiet rfl
  | announceFrame replacement sliceCount pointCount litCount => exact hquiet rfl
  | sendFrame points time => exact hquiet rfl
  | countDropped n => exact hquiet rfl
  | clearPrefetch => exact hquiet rfl
  | resetAtomics => exact hquiet rfl
  | resetController => exact hquiet rfl
  | countCallback => exact hquiet rfl
  | look => exact hquiet rfl

/-! ## what the calls were given and have returned -/

def Calls.isReset (y : Calls) (i : Nat) : Bool :=
  match y.ops[i]? with
  | some .reset => true
  | _ => false

section
variable {cfg : TargetConfig} {allowed : TargetAct → Bool} {y : Calls}
  {passed : List (Nat × Passed)} {stages : List Stage}

/-- what a section puts into the queue was given to its call, and only resets reset -/
theorem Tracked.given (h : Tracked cfg allowed y passed stages) {i : Nat} {p : Passed}
    (hi : (i, p) ∈ passed) :
    p.given.Sublist (y.givenPoints i) ∧ y.isReset i = passesReset (i, p) := by
  obtain ⟨op, result, hop, hends⟩ := h.ends hi
  unfold Calls.givenPoints Calls.isReset
  rw [hop]
  obtain ⟨submission, a, r, rfl, -, ⟨-, -, hidle⟩ | hpassed⟩ |
    ⟨submission, a, r, rfl, -, hidle | ⟨n, drops, hpassed⟩⟩ |
    ⟨submission, a, r, rfl, -, hidle | hpassed⟩ | ⟨rfl, -, hpassed⟩ |
    ⟨req, outSize, now, underrunNow, output, rfl, -, ⟨-, hidle⟩ | hpassed⟩ := hends.inv
  · cases hidle
  · obtain rfl := Stage.passed.inj hpassed
    exact ⟨List.Sublist.refl _, rfl⟩
  · cases hidle
  · obtain rfl := Stage.passed.inj hpassed
    exact ⟨List.take_sublist n _, rfl⟩
  · cases hidle
  · obtain rfl := Stage.passed.inj hpassed
    exact ⟨List.Sublist.refl _, rfl⟩
  · obtain rfl := Stage.passed.inj hpassed
    exact ⟨List.Sublist.refl _, rfl⟩
  · cases hidle
  · obtain rfl := Stage.passed.inj hpassed
    exact ⟨List.Sublist.refl _, rfl⟩

/-- what a callback has returned is what its section has done -/
theorem Tracked.filled (h : Tracked cfg allowed y passed stages) {k : Nat} {output : Filled}
    (hk : y.returned k = some (.filled output)) :
    (k, .filled output) ∈ passed ∨ output = ⟨[], []⟩ ∧ k ∉ passed.map Prod.fst := by
  obtain ⟨op, t, _, ht, hends⟩ := h.returned hk
  obtain ⟨_, _, _, _, hresult, _⟩ | ⟨_, _, _, _, hresult, _⟩ | ⟨_, _, _, _, hresult, _⟩ | ⟨_, hresult, _⟩ |
    ⟨_, _, _, _, output', _, hresult, hend⟩ := hends.inv
  · cases hresult
  · cases hresult
  · cases hresult
  · cases hresult
  · obtain rfl : output = output' := Returned.filled.inj hresult
    obtain ⟨hnone, rfl⟩ | rfl := hend
    · refine .inr ⟨hnone, fun hmem => ?_⟩
      obtain ⟨⟨j, p⟩, hp, rfl⟩ := List.mem_map.mp hmem
      have hstage := (h.mem j p).mp hp
      rw [ht] at hstage
      cases hstage
    · exact .inl ((h.mem k _).mpr ht)

theorem Tracked.passed_unique (h : Tracked cfg allowed y passed stages) {i : Nat} {p q : Passed}
    (hp : (i, p) ∈ passed) (hq : (i, q) ∈ passed) : p = q := by
  rw [h.mem] at hp hq
  exact Stage.passed.inj (Option.some.inj (hp.symm.trans hq))

theorem Tracked.taken (h : Tracked cfg allowed y passed stages) {i : Nat} {p : Passed}
    (hi : (i, p) ∈ passed) : (y.takenPoints i).Sublist p.taken := by
  unfold Calls.takenPoints
  cases hreturned : y.returned i with
  | none => exact List.nil_sublist _
  | some result =>
    cases result with
    | submission result => exact List.nil_sublist _
    | nothing => exact List.nil_sublist _
    | filled output =>
      rcases h.filled hreturned with hmem | ⟨rfl, _⟩
      · rw [h.passed_unique hi hmem]
        exact List.Sublist.refl _
      · exact List.nil_sublist _

/-- a reset that is over has passed its section -/
theorem Tracked.reset (h : Tracked cfg allowed y passed stages) {j : Nat} {result : Returned}
    (hj : y.isReset j = true) (hover : y.returned j = some result) : j ∈ passed.map Prod.fst := by
  obtain ⟨op, t, hop, ht, hends⟩ := h.returned hover
  unfold Calls.isReset at hj
  rw [hop] at hj
  obtain ⟨_, _, _, rfl, _⟩ | ⟨_, _, _, rfl, _⟩ | ⟨_, _, _, rfl, _⟩ | ⟨_, _, rfl⟩ | ⟨_, _, _, _, _, rfl, _⟩ :=
    hends.inv
  · cases hj
  · cases hj
  · cases hj
  · exact List.mem_map.mpr ⟨(j, .reset), (h.mem j _).mpr ht, rfl⟩
  · cases hj

/-- what a callback returns was put into the queue since the last reset, or has no colour -/
theorem Tracked.output (h : Tracked cfg allowed y passed stages) (hmay : EachAfter MayEmit passed)
    {before after : List Nat} {k : Nat} {output : Filled}
    (horder : passed.map Prod.fst = before ++ k :: after) (hk : y.returned k = some (.filled output)) :
    ((sinceLast y.isReset before).flatMap y.takenPoints ++ output.points).Sublist
        ((sinceLast y.isReset before).flatMap y.givenPoints) ∧
      ∀ p ∈ output.fallback, p.Dark := by
  obtain ⟨earlier, rest, rfl, rfl, hrest⟩ := List.map_eq_append_iff.mp horder
  obtain ⟨⟨k', p⟩, later, rfl, rfl, _⟩ := List.map_eq_cons_iff.mp hrest
  have hp : (k', p) ∈ earlier ++ (k', p) :: later := List.mem_append_right _ List.mem_cons_self
  obtain rfl : p = .filled output := by
    rcases h.filled hk with hmem | ⟨_, hnot⟩
    · exact h.passed_unique hp hmem
    · exact absurd (List.mem_map.mpr ⟨_, hp, rfl⟩) hnot
  have hin : ∀ q ∈ earlier, (q.1, q.2) ∈ earlier ++ (k', .filled output) :: later :=
    fun q hq => List.mem_append_left _ hq
  have hsince : sinceLast y.isReset (earlier.map Prod.fst) = (sinceReset earlier).map Prod.fst :=
    sinceLast_map fun q hq => (h.given (hin q hq)).2
  have hmem : ∀ q ∈ sinceReset earlier, q ∈ earlier :=
    fun q hq => (sinceLast_suffix _ _).subset hq
  obtain ⟨hsub, hdark⟩ := hmay earlier _ later rfl
  refine ⟨?_, hdark⟩
  rw [hsince, List.flatMap_map, List.flatMap_map]
  refine ((flatMap_sublist fun q hq => ?_).append (List.Sublist.refl _)).trans
    (hsub.trans (flatMap_sublist fun q hq => ?_))
  · exact h.taken (hin q (hmem q hq))
  · exact (h.given (hin q (hmem q hq))).1

end

/-! ## runs -/

/-- what every run of calls keeps -/
theorem run_fresh {cfg : TargetConfig} (hdefault : cfg.defaultPoint.Dark) (latencyMs avbRate : Nat)
    (inputs : List SystemInput) : ∃ stages,
      Tracked cfg (fun _ => true) (inputs.foldl (Calls.step cfg) (.new (.new cfg latencyMs avbRate)))
        (history cfg (.new (.new cfg latencyMs avbRate)) inputs) stages ∧
      EachAfter MayEmit (history cfg (.new (.new cfg latencyMs avbRate)) inputs) := by
  have hact : ∀ (stages : List Stage) (passed : List (Nat × Passed)) (s : LiberaTarget) (i : Nat)
      (t : Stage) (l : TargetAct) (t' : Stage), stages[i]? = some t →
      (tracking cfg fun _ => true).next t l s = some t' → Fresh s.pendingPoints passed →
      Fresh (effect cfg l s).pendingPoints
        (passed ++ ((outcome cfg l s).map fun p => (i, p)).toList) :=
    fun _ _ _ i _ l _ _ _ h => fresh_act hdefault h l i
  obtain ⟨stages, htracked, hfresh⟩ := run_tracked (P := fun _ passed s => Fresh s.pendingPoints passed)
    (s := .new cfg latencyMs avbRate) ⟨List.Sublist.refl _, eachAfter_nil⟩ (fun _ _ _ h => h) hact inputs
    fun _ _ _ _ => rfl
  exact ⟨stages, htracked, hfresh.outputs⟩

/-- **A target is dark after a reset.**  In every run of calls that overlap in any way, in the order in
which they pass the queue mutex: a call that was over when another one began comes before it; every reset
that is over is in this order; a callback that is not has appended nothing; and the points of the queue
that a callback returns were given to submissions since the last reset, in order and each at most once,
and its fallback points have no colour.  So between a reset and the next submission every output that a
callback returns is dark. -/
theorem dark_after_reset {cfg : TargetConfig} (hdefault : cfg.defaultPoint.Dark)
    (latencyMs avbRate : Nat) (inputs : List SystemInput) :
    let new := Calls.new (.new cfg latencyMs avbRate)
    let y := inputs.foldl (Calls.step cfg) new
    let order := queueOrder cfg new inputs
    InTime cfg new inputs order ∧
    (∀ j result, y.isReset j = true → y.returned j = some result → j ∈ order) ∧
    (∀ k output, y.returned k = some (.filled output) → k ∉ order → output = ⟨[], []⟩) ∧
    (∀ before k after output, order = before ++ k :: after →
      y.returned k = some (.filled output) →
      ((sinceLast y.isReset before).flatMap y.takenPoints ++ output.points).Sublist
          ((sinceLast y.isReset before).flatMap y.givenPoints) ∧
        ∀ p ∈ output.fallback, p.Dark) ∧
    (∀ before j quiet k after output, order = before ++ j :: quiet ++ k :: after →
      y.isReset j = true → (∀ i ∈ quiet, y.givenPoints i = []) →
      y.returned k = some (.filled output) → ∀ p ∈ output.points ++ output.fallback, p.Dark) := by
  intro new y order
  obtain ⟨stages, htracked, hmay⟩ := run_fresh hdefault latencyMs avbRate inputs
  refine ⟨queueOrder_inTime cfg _ inputs, fun j result hj hover => htracked.reset hj hover, ?_,
    fun before k after output horder hk => htracked.output hmay horder hk, ?_⟩
  · intro k output hk hnot
    rcases htracked.filled hk with hmem | ⟨hnone, _⟩
    · exact absurd (List.mem_map.mpr ⟨_, hmem, rfl⟩) hnot
    · exact hnone
  · intro before j quiet k after output horder hj hquiet hk p hp
    obtain ⟨hsub, hdark⟩ := htracked.output hmay horder hk
    have hnone : (sinceLast y.isReset (before ++ j :: quiet)).flatMap y.givenPoints = [] := by
      rw [List.flatMap_eq_nil_iff]
      intro i hi
      exact hquiet i ((sinceLast_append hj before quiet).subset hi)
    rw [hnone, List.sublist_nil, List.append_eq_nil_iff] at hsub
    rw [hsub.2, List.nil_append] at hp
    exact hdark p hp

/-- a lit point is queued, then a reset by another thread and a callback before the submission ends -/
def resetDuringSubmission : List SystemInput :=
  [.start (.submitContinuous { points := [⟨0, 0, 1, 1, 1, 1, 0, 0⟩] } quietAnswers), .start .reset] ++
    List.replicate 6 (.run 0) ++ List.replicate 3 (.run 1) ++
    [.start (.fillFromQueue ⟨1, 1, true⟩ 0 0 0)] ++ List.replicate 3 (.run 2)

theorem dark_after_reset_during_submission :
    let new := Calls.new (.new smallTarget 10 0)
    let y := resetDuringSubmission.foldl (Calls.step smallTarget) new
    queueOrder smallTarget new resetDuringSubmission = [0, 1, 2] ∧
      y.returned 2 = some (.filled ⟨[], [smallTarget.defaultPoint]⟩) ∧
      smallTarget.defaultPoint.Dark := by
  have h := @dark_after_reset smallTarget ⟨rfl, rfl, rfl⟩ 10 0 resetDuringSubmission
  have horder : queueOrder smallTarget (.new (.new smallTarget 10 0)) resetDuringSubmission =
      [0] ++ 1 :: [] ++ 2 :: [] := by decide +kernel
  have hreturned : (resetDuringSubmission.foldl (Calls.step smallTarget)
      (.new (.new smallTarget 10 0))).returned 2 =
        some (.filled ⟨[], [smallTarget.defaultPoint]⟩) := by decide +kernel
  have hreset : (resetDuringSubmission.foldl (Calls.step smallTarget)
      (.new (.new smallTarget 10 0))).isReset 1 = true := by decide +kernel
  simp only at h ⊢
  generalize resetDuringSubmission.foldl (Calls.step smallTarget) (.new (.new smallTarget 10 0)) = y
    at h hreturned hreset ⊢
  exact ⟨horder, hreturned,
    h.2.2.2.2 _ _ _ _ _ _ horder hreset (by simp) hreturned _ List.mem_cons_self⟩

end LiberaLink.Target
