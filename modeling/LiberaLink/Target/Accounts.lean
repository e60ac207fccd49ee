import Mathlib.Algebra.BigOperators.Group.Finset.Basic
import LiberaLink.Target.Calls

/-!
# No point of a stream is lost or doubled

Continuous submissions and callbacks overlap in any order on one target.  Points enter its queue at
the end, in the sections of the submissions, and leave it at the front: drained by a callback, or
dropped by a submission that finds the queue too long.

* `Split`, `Ledger`         the books of a target, and what has become of the points;
* `Ledger.act`             what one action does to them;
* `points_conserved`       **every point is emitted once, dropped once, or queued**.
-/

namespace LiberaLink.Target
open Stepwise Numeric

/-! ## what a commanded rate does -/

/-- the rate a target runs at after a submission that commands `commanded` -/
def commandedRate (cfg : TargetConfig) (rate commanded avbRate : Nat) : Nat :=
  if commanded = 0 then rate
  else if clamp commanded 1000 cfg.maxPointRateValue = rate then rate
  else if cfg.info.type = "AVB" then avbRate else clamp commanded 1000 cfg.maxPointRateValue

/-- the rate that a target sends when `commanded` is commanded, if it sends one -/
def rateCalls (cfg : TargetConfig) (rate commanded : Nat) : List ControllerCall :=
  if commanded = 0 ∨ clamp commanded 1000 cfg.maxPointRateValue = rate then []
  else [.setPointRate (clamp commanded 1000 cfg.maxPointRateValue)]

/-- **What a commanded rate does**: it changes the two rates, and is sent to the controller. -/
theorem maybeUpdatePointRate_eq (cfg : TargetConfig) (s : LiberaTarget) (commanded avbRate : Nat) :
    maybeUpdatePointRate cfg s commanded avbRate = {
      s with
      commandedInputPps := if commanded = 0 then s.commandedInputPps
        else clamp commanded 1000 cfg.maxPointRateValue
      controller := s.controller ++ rateCalls cfg s.currentPointRate commanded
      currentPointRate := commandedRate cfg s.currentPointRate commanded avbRate } := by
  unfold maybeUpdatePointRate rateCalls commandedRate
  by_cases hzero : commanded = 0
  · simp only [if_pos hzero, if_pos (Or.inl hzero), List.append_nil]
  · by_cases hsame : clamp commanded 1000 cfg.maxPointRateValue = s.currentPointRate
    · simp only [if_neg hzero, if_pos hsame, if_pos (Or.inr hsame), List.append_nil]
    · simp only [if_neg hzero, if_neg hsame, if_neg (not_or.mpr ⟨hzero, hsame⟩)]

/-! ## what a callback does to the queue -/

section
variable (cfg : TargetConfig) (f : FillInput) (s : LiberaTarget)

/-- the latency control changes nothing but the latency and its own clocks -/
theorem maybeIncreaseLatency_cases (missing minimum target : Nat) (now : Int) :
    ∃ latency accumulator : Nat, ∃ increase sample : Int,
      maybeIncreaseLatencyOnUnderrun cfg missing minimum target now s = {
        s with
        latencyMs := latency
        latencyUnderrunAccumulator := accumulator
        lastLatencyIncrease := increase
        lastLatencyUnderrunSample := sample } := by
  unfold maybeIncreaseLatencyOnUnderrun
  split
  · exact ⟨_, _, _, _, rfl⟩
  · simp only
    split <;> split
    · exact ⟨_, _, _, _, rfl⟩
    · split
      · exact ⟨_, _, _, _, rfl⟩
      · split <;> exact ⟨_, _, _, _, rfl⟩
    · exact ⟨_, _, _, _, rfl⟩
    · split
      · exact ⟨_, _, _, _, rfl⟩
      · split <;> exact ⟨_, _, _, _, rfl⟩

/-- the points of the queue leave it, and the last of them is remembered -/
theorem drainQueue_cases : ∃ last known, drainQueue f s = {
    s with
    buffering := false
    pendingPoints := s.pendingPoints.drop (toWrite f s)
    emittedPoints := s.emittedPoints + .ofNat (toWrite f s)
    lastOutputPoint := last
    haveLastOutputPoint := known } := by
  unfold drainQueue rememberLast
  split
  · exact ⟨_, _, rfl⟩
  · exact ⟨_, _, rfl⟩

/-- What a callback makes of a target: it leaves the queue alone in the buffering hold, it drains the
queue, or it drains the queue and counts an underrun, which may raise the latency. -/
inductive FillOutcome : LiberaTarget → Prop where
  | hold (h : inBufferingHold cfg f s = true) :
      FillOutcome (countUnderrun s f.req.minimumPointsRequired)
  | drained (h : inBufferingHold cfg f s = false) (buffering : Bool) :
      FillOutcome { drainQueue f s with buffering := buffering }
  | missed (h : inBufferingHold cfg f s = false) (missing : Nat) (buffering : Bool) :
      FillOutcome { countUnderrun (drainQueue f s) missing with buffering := buffering }
  | underrun (h : inBufferingHold cfg f s = false) (missing target : Nat) (buffering : Bool) :
      FillOutcome {
        countUnderrun (maybeIncreaseLatencyOnUnderrun cfg missing f.req.minimumPointsRequired target
          f.underrunNow (drainQueue f s)) missing with
        buffering := buffering }

theorem fillState_outcome : FillOutcome cfg f s (fillState cfg f s) := by
  unfold fillState
  cases hh : inBufferingHold cfg f s with
  | true => exact .hold hh
  | false =>
    simp only [Bool.false_eq_true, if_false]
    split
    · split
      · split
        · exact .drained hh _
        · exact .drained hh true
      · split
        · exact .missed hh _ _
        · exact .underrun hh _ _ _
    · exact .drained hh _

/-- the points a callback takes are the front of the queue -/
theorem fillOutput_take :
    (fillOutput cfg f s).points = s.pendingPoints.take (fillOutput cfg f s).points.length := by
  have htake : ∀ n : Nat, s.pendingPoints.take n =
      s.pendingPoints.take (s.pendingPoints.take n).length := by
    intro n
    rw [List.length_take, List.take_eq_take_iff]
    omega
  unfold fillOutput
  split
  · rfl
  · simp only
    split
    · exact htake _
    · exact htake _

theorem fillOutput_points (h : inBufferingHold cfg f s = false) :
    (fillOutput cfg f s).points = s.pendingPoints.take (toWrite f s) := by
  unfold fillOutput
  rw [h]
  simp only [Bool.false_eq_true, if_false]
  split <;> rfl

theorem fillOutput_hold (h : inBufferingHold cfg f s = true) : (fillOutput cfg f s).points = [] := by
  unfold fillOutput
  rw [h]
  rfl

end

/-- What the books of a target are about: its queue, three counters and the log. -/
structure Books where
  pendingPoints : List LaserPoint
  receivedPoints : UInt64
  emittedPoints : UInt64
  droppedPoints : UInt64
  log : List TargetEvent

def LiberaTarget.books (s : LiberaTarget) : Books :=
  ⟨s.pendingPoints, s.receivedPoints, s.emittedPoints, s.droppedPoints, s.log⟩

section
variable (cfg : TargetConfig) (f : FillInput) (s : LiberaTarget)

theorem drainQueue_books : (drainQueue f s).books = {
    s.books with
    pendingPoints := s.pendingPoints.drop (toWrite f s)
    emittedPoints := s.emittedPoints + .ofNat (toWrite f s) } := by
  obtain ⟨_, _, h⟩ := drainQueue_cases f s
  rw [h]
  rfl

theorem fillState_books : (fillState cfg f s).books = {
    s.books with
    pendingPoints := s.pendingPoints.drop (fillOutput cfg f s).points.length
    emittedPoints := s.emittedPoints + .ofNat (fillOutput cfg f s).points.length } := by
  have hdrained : inBufferingHold cfg f s = false → (drainQueue f s).books = {
      s.books with
      pendingPoints := s.pendingPoints.drop (fillOutput cfg f s).points.length
      emittedPoints := s.emittedPoints + .ofNat (fillOutput cfg f s).points.length } := by
    intro hh
    have hlen : (fillOutput cfg f s).points.length = toWrite f s := by
      rw [fillOutput_points cfg f s hh, List.length_take, toWrite]
      omega
    rw [hlen, drainQueue_books]
  have houtcome := fillState_outcome cfg f s
  generalize fillState cfg f s = t at houtcome
  cases houtcome with
  | hold hh =>
    rw [fillOutput_hold cfg f s hh]
    simp [LiberaTarget.books, countUnderrun]
  | drained hh buffering => exact hdrained hh
  | missed hh missing buffering =>
    rw [← hdrained hh]
    rfl
  | underrun hh missing target buffering =>
    obtain ⟨_, _, _, _, h⟩ := maybeIncreaseLatency_cases cfg (drainQueue f s) missing
      f.req.minimumPointsRequired target f.underrunNow
    rw [h, ← hdrained hh]
    rfl

/-- **What a callback does to the books.** -/
theorem fill_books : (fill cfg f s).books = {
    s.books with
    pendingPoints := s.pendingPoints.drop (fillOutput cfg f s).points.length
    emittedPoints := s.emittedPoints + .ofNat (fillOutput cfg f s).points.length
    log := s.log ++ [.emitted (fillOutput cfg f s).points (fillOutput cfg f s).fallback] } := by
  have h := fillState_books cfg f s
  exact congrArg (fun b : Books => { b with
    log := s.log ++ [TargetEvent.emitted (fillOutput cfg f s).points (fillOutput cfg f s).fallback] }) h

end

theorem maybeUpdatePointRate_books (cfg : TargetConfig) (s : LiberaTarget) (commanded avbRate : Nat) :
    (maybeUpdatePointRate cfg s commanded avbRate).books = s.books := by
  rw [maybeUpdatePointRate_eq]
  rfl

theorem overflowDrop_le (limit : Nat) (queue : List LaserPoint) :
    overflowDrop limit queue ≤ queue.length := by
  unfold overflowDrop
  split
  · exact Nat.min_le_right _ _
  · exact Nat.zero_le _

theorem ofNat_add (a b : Nat) : UInt64.ofNat (a + b) = UInt64.ofNat a + UInt64.ofNat b :=
  UInt64.ofNat_add a b

/-! ## what the sections say about points -/

/-- the points that a section puts into the queue -/
def Passed.given : Passed → List LaserPoint
  | .queued points _ => points
  | .replaced points _ => points
  | _ => []

/-- the points that a section takes out of the queue for a callback -/
def Passed.taken : Passed → List LaserPoint
  | .filled output => output.points
  | _ => []

/-- how many points a section drops -/
def Passed.drops : Passed → Nat
  | .queued _ drops => drops
  | .replaced _ drops => drops
  | _ => 0

def givenBy (passed : List (Nat × Passed)) : List LaserPoint := passed.flatMap fun q => q.2.given
def takenBy (passed : List (Nat × Passed)) : List LaserPoint := passed.flatMap fun q => q.2.taken
def dropsBy (passed : List (Nat × Passed)) : Nat := (passed.map fun q => q.2.drops).sum

section
variable (passed : List (Nat × Passed)) (i : Nat) (p : Passed)

theorem givenBy_concat : givenBy (passed ++ [(i, p)]) = givenBy passed ++ p.given := by
  rw [givenBy, List.flatMap_append, List.flatMap_singleton]
  rfl

theorem takenBy_concat : takenBy (passed ++ [(i, p)]) = takenBy passed ++ p.taken := by
  rw [takenBy, List.flatMap_append, List.flatMap_singleton]
  rfl

theorem dropsBy_concat : dropsBy (passed ++ [(i, p)]) = dropsBy passed + p.drops := by
  rw [dropsBy, List.map_append, List.sum_append]
  rfl

end

/-! ## the books -/

/-- Each of the points that were given has left the queue, emitted (`true`) or dropped, or is in it. -/
def Split (given taken : List LaserPoint) (drops : Nat) (queue : List LaserPoint) : Prop :=
  ∃ fates : List (LaserPoint × Bool), given = fates.map Prod.fst ++ queue ∧
    taken = (fates.filter fun p => p.2).map Prod.fst ∧ drops = fates.countP fun p => !p.2

namespace Split
variable {given taken queue : List LaserPoint} {drops : Nat}

/-- points come in behind the queue, and `n` of them all are dropped from the front -/
theorem drop (h : Split given taken drops queue) (points : List LaserPoint) {n : Nat}
    (hn : n ≤ (queue ++ points).length) :
    Split (given ++ points) taken (drops + n) ((queue ++ points).drop n) := by
  obtain ⟨fates, hgiven, htaken, hdrops⟩ := h
  refine ⟨fates ++ ((queue ++ points).take n).map fun p => (p, false), ?_, ?_, ?_⟩
  · have hfst : (((queue ++ points).take n).map fun p => (p, false)).map Prod.fst =
        (queue ++ points).take n := by
      rw [List.map_map]
      exact List.map_id _
    rw [List.map_append, hfst, List.append_assoc, List.take_append_drop, hgiven, List.append_assoc]
  · have hnone : (((queue ++ points).take n).map fun p => (p, false)).filter (fun p => p.2) = [] := by
      rw [List.filter_map]
      simp [Function.comp_def]
    rw [List.filter_append, hnone, List.append_nil]
    exact htaken
  · have hall : (((queue ++ points).take n).map fun p => (p, false)).countP (fun p => !p.2) = n := by
      rw [List.countP_map]
      simp only [Function.comp_def, Bool.not_false, List.countP_true, List.length_take]
      omega
    rw [List.countP_append, hall, ← hdrops]

/-- points are emitted from the front of the queue -/
theorem take (h : Split given taken drops queue) (n : Nat) :
    Split given (taken ++ queue.take n) drops (queue.drop n) := by
  obtain ⟨fates, hgiven, htaken, hdrops⟩ := h
  have hfst : ((queue.take n).map fun p => (p, true)).map Prod.fst = queue.take n := by
    rw [List.map_map]
    exact List.map_id _
  refine ⟨fates ++ (queue.take n).map fun p => (p, true), ?_, ?_, ?_⟩
  · rw [List.map_append, hfst, List.append_assoc, List.take_append_drop]
    exact hgiven
  · have hall : ((queue.take n).map fun p => (p, true)).filter (fun p => p.2) =
        (queue.take n).map fun p => (p, true) := by
      rw [List.filter_map]
      simp [Function.comp_def]
    rw [List.filter_append, hall, List.map_append, hfst, ← htaken]
  · have hnone : ((queue.take n).map fun p => (p, true)).countP (fun p => !p.2) = 0 := by
      rw [List.countP_map]
      simp [Function.comp_def]
    rw [List.countP_append, hnone, Nat.add_zero]
    exact hdrops

theorem length_eq (h : Split given taken drops queue) :
    given.length = taken.length + drops + queue.length := by
  obtain ⟨fates, rfl, rfl, rfl⟩ := h
  rw [List.length_append, List.length_map, List.length_map, ← List.countP_eq_length_filter,
    List.length_eq_countP_add_countP fun p => p.2]
  simp only [Bool.not_eq_true, Bool.decide_eq_false]

end Split

/-- The books of a target after these sections, with `owed` points received and not yet queued. -/
structure Ledger (b : Books) (passed : List (Nat × Passed)) (owed : Nat) : Prop where
  split : Split (givenBy passed) (takenBy passed) (dropsBy passed) b.pendingPoints
  received : b.receivedPoints = .ofNat ((givenBy passed).length + owed)
  emitted : b.emittedPoints = .ofNat (takenBy passed).length
  dropped : b.droppedPoints = .ofNat (dropsBy passed)

/-- the points that a call has counted as received and not yet queued -/
def Stage.owed : Stage → Nat
  | .announced pointCount => pointCount
  | _ => 0

section
variable {b : Books} {passed : List (Nat × Passed)} {owed : Nat}

theorem Ledger.announce (h : Ledger b passed owed) (n : Nat) :
    Ledger { b with receivedPoints := b.receivedPoints + .ofNat n } passed (owed + n) where
  split := h.split
  received := by
    show b.receivedPoints + .ofNat n = .ofNat ((givenBy passed).length + (owed + n))
    rw [h.received, ← ofNat_add, Nat.add_assoc]
  emitted := h.emitted
  dropped := h.dropped

/-- a submission puts its points into the queue and drops `n` from the front -/
theorem Ledger.queue {i : Nat} {points : List LaserPoint} (h : Ledger b passed (owed + points.length))
    {n : Nat} (hn : n ≤ (b.pendingPoints ++ points).length) (log : List TargetEvent) :
    Ledger {
      b with
      pendingPoints := (b.pendingPoints ++ points).drop n
      droppedPoints := b.droppedPoints + .ofNat n
      log := log } (passed ++ [(i, .queued points n)]) owed where
  split := by
    rw [givenBy_concat, takenBy_concat, dropsBy_concat,
      show (Passed.queued points n).taken = [] from rfl, List.append_nil]
    exact h.split.drop points hn
  received := by
    show b.receivedPoints = _
    rw [h.received, givenBy_concat, List.length_append, Nat.add_right_comm, ← Nat.add_assoc]
    rfl
  emitted := by
    rw [takenBy_concat, show (Passed.queued points n).taken = [] from rfl, List.append_nil]
    exact h.emitted
  dropped := by
    rw [dropsBy_concat, ofNat_add, ← h.dropped]
    rfl

/-- a callback drains the front of the queue -/
theorem Ledger.drain {i : Nat} (h : Ledger b passed owed) {output : Filled} {n : Nat}
    (hpoints : output.points = b.pendingPoints.take n) (hn : output.points.length = n)
    (log : List TargetEvent) :
    Ledger {
      b with
      pendingPoints := b.pendingPoints.drop n
      emittedPoints := b.emittedPoints + .ofNat n
      log := log } (passed ++ [(i, .filled output)]) owed where
  split := by
    rw [givenBy_concat, takenBy_concat, dropsBy_concat, show (Passed.filled output).given = [] from rfl,
      List.append_nil, Passed.taken, hpoints]
    exact h.split.take n
  received := by
    rw [givenBy_concat, show (Passed.filled output).given = [] from rfl, List.append_nil]
    exact h.received
  emitted := by
    rw [takenBy_concat, List.length_append, ofNat_add, ← h.emitted, Passed.taken, hn]
  dropped := by
    rw [dropsBy_concat]
    exact h.dropped

/-- an action that leaves queue and counters alone -/
theorem Ledger.quiet {cfg : TargetConfig} {allowed : TargetAct → Bool} {s : LiberaTarget}
    {t t' : Stage} {l : TargetAct} {p : Nat} (h : Ledger s.books passed (p + t.owed))
    (hnext : (tracking cfg allowed).next t l s = some t') (hout : outcome cfg l s = none)
    {log : List TargetEvent} (hbooks : (effect cfg l s).books = { s.books with log := log })
    (hother : ∀ n, l ≠ .announceSlice n) (i : Nat) :
    Ledger (effect cfg l s).books (passed ++ ((outcome cfg l s).map fun q => (i, q)).toList)
      (p + t'.owed) := by
  obtain ⟨_, ⟨q, hq, _⟩ | ⟨_, ⟨n, hn, _⟩ | ⟨rfl, _⟩⟩⟩ := tracking_next hnext
  · rw [hout] at hq
    cases hq
  · exact absurd hn (hother n)
  · rw [hout, hbooks, Option.map_none, Option.toList_none, List.append_nil]
    exact ⟨h.split, h.received, h.emitted, h.dropped⟩

end

/-- **What one action of a stream does to the books**, with `p` points owed by the other calls. -/
theorem Ledger.act {cfg : TargetConfig} {s : LiberaTarget} {t t' : Stage} {l : TargetAct}
    {passed : List (Nat × Passed)} {p : Nat} (h : Ledger s.books passed (p + t.owed))
    (hnext : (tracking cfg TargetAct.streams).next t l s = some t') (i : Nat) :
    Ledger (effect cfg l s).books (passed ++ ((outcome cfg l s).map fun q => (i, q)).toList)
      (p + t'.owed) := by
  obtain ⟨hallowed, hstep⟩ := tracking_next hnext
  cases l with
  | queueSlice points limit now =>
    obtain ⟨q, hq, rfl, rfl⟩ | ⟨hnone, _⟩ := hstep
    · obtain rfl := Option.some.inj hq
      exact h.queue (overflowDrop_le limit (s.pendingPoints ++ points)) _
    · cases hnone
  | fill f =>
    obtain ⟨q, hq, rfl, rfl⟩ | ⟨hnone, _⟩ := hstep
    · obtain rfl := Option.some.inj hq
      show Ledger (fill cfg f s).books _ _
      rw [fill_books]
      exact h.drain (fillOutput_take cfg f s) rfl _
    · cases hnone
  | announceSlice n =>
    obtain ⟨q, hq, _⟩ | ⟨_, ⟨m, hm, rfl, rfl⟩ | ⟨_, hother⟩⟩ := hstep
    · cases hq
    · obtain rfl := TargetAct.announceSlice.inj hm
      rw [show (outcome cfg (.announceSlice n) s).map _ = none from rfl, Option.toList_none,
        List.append_nil]
      exact h.announce n
    · exact absurd rfl (hother n)
  | updatePointRate commanded avbRate =>
    exact h.quiet hnext rfl (maybeUpdatePointRate_books cfg s commanded avbRate)
      (fun _ => TargetAct.noConfusion) i
  | observe breakdown => exact h.quiet hnext rfl rfl (fun _ => TargetAct.noConfusion) i
  | countLit n => exact h.quiet hnext rfl rfl (fun _ => TargetAct.noConfusion) i
  | countCallback => exact h.quiet hnext rfl rfl (fun _ => TargetAct.noConfusion) i
  | look => exact h.quiet hnext rfl rfl (fun _ => TargetAct.noConfusion) i
  | report n => exact h.quiet hnext rfl rfl (fun _ => TargetAct.noConfusion) i
  | installCallback => cases hallowed
  | announceFrame replacement sliceCount pointCount litCount => cases hallowed
  | replaceQueue points downstream now => cases hallowed
  | clearQueue now => cases hallowed
  | sendFrame points time => cases hallowed
  | countDropped n => cases hallowed
  | clearPrefetch => cases hallowed
  | resetQueue => cases hallowed
  | resetAtomics => cases hallowed
  | resetController => cases hallowed

/-! ## the results of a stream -/

def SystemInput.Streams : SystemInput → Prop
  | .start op => op.Streams
  | .run _ => True

def Stage.given : Stage → List LaserPoint
  | .passed p => p.given
  | _ => []

def Stage.taken : Stage → List LaserPoint
  | .passed p => p.taken
  | _ => []

def Stage.drops : Stage → Nat
  | .passed p => p.drops
  | _ => 0

/-- **A call of a stream that is over** has put the points it was given into the queue, has returned the
points it took from there, and has reported what it dropped. -/
theorem ends_of_stream {op : TargetOp} {result : Returned} {t : Stage} (hop : op.Streams)
    (h : op.Ends result t) : t.owed = 0 ∧ op.givenPoints = t.given ∧
      result.takenPoints = t.taken ∧ result.droppedPoints = t.drops := by
  obtain ⟨submission, a, r, rfl, rfl, ⟨hnone, hdrops, rfl⟩ | rfl⟩ | ⟨_, _, _, rfl, _⟩ | ⟨_, _, _, rfl, _⟩ |
    ⟨rfl, _⟩ | ⟨req, outSize, now, underrunNow, output, rfl, rfl, ⟨rfl, rfl⟩ | rfl⟩ := h.inv
  · exact ⟨rfl, hnone, rfl, hdrops⟩
  · exact ⟨rfl, rfl, rfl, rfl⟩
  · exact hop.elim
  · exact hop.elim
  · exact hop.elim
  · exact ⟨rfl, rfl, rfl, rfl⟩
  · exact ⟨rfl, rfl, rfl, rfl⟩

section
variable {cfg : TargetConfig} {allowed : TargetAct → Bool} {y : Calls}
  {passed : List (Nat × Passed)} {stages : List Stage}

/-- where a call stands when no call is under way -/
theorem Tracked.quiescent (h : Tracked cfg allowed y passed stages) (hq : y.Quiescent)
    (hstream : ∀ op ∈ y.ops, op.Streams) (i : Nat) :
    (stages.getD i .idle).owed = 0 ∧ y.givenPoints i = (stages.getD i .idle).given ∧
      y.takenPoints i = (stages.getD i .idle).taken ∧
      y.droppedPoints i = (stages.getD i .idle).drops := by
  unfold Calls.givenPoints Calls.takenPoints Calls.droppedPoints
  by_cases hi : i < y.threads.length
  · obtain ⟨result, hresult⟩ : ∃ result, y.returned i = some result := by
      unfold Calls.returned
      rw [List.getElem?_eq_getElem hi]
      cases hthread : y.threads[i] with
      | ret a => exact ⟨a, rfl⟩
      | act l u k =>
        have hdone := hq _ (List.getElem_mem hi)
        rw [hthread] at hdone
        exact hdone.elim
    obtain ⟨op, t, hop, ht, hends⟩ := h.returned hresult
    rw [hop, hresult, List.getD_eq_getElem?_getD, ht]
    exact ends_of_stream (hstream op (List.mem_of_getElem? hop)) hends
  · have hops : y.ops[i]? = none := List.getElem?_eq_none (by rw [h.served.ops_length]; omega)
    have hstage : stages[i]? = none := List.getElem?_eq_none (by rw [h.served.phases_length]; omega)
    have hresult : y.returned i = none := by
      unfold Calls.returned
      rw [List.getElem?_eq_none (by omega)]
      rfl
    rw [hops, hresult, List.getD_eq_getElem?_getD, hstage]
    exact ⟨rfl, rfl, rfl, rfl⟩

theorem Tracked.getD (h : Tracked cfg allowed y passed stages) {i : Nat} {p : Passed}
    (hi : (i, p) ∈ passed) : stages.getD i .idle = .passed p := by
  rw [List.getD_eq_getElem?_getD, (h.mem i p).mp hi]
  rfl

/-- a call that has not passed a section has done nothing -/
theorem Tracked.not_passed (h : Tracked cfg allowed y passed stages) {i : Nat}
    (hi : i ∉ passed.map Prod.fst) : (stages.getD i .idle).given = [] ∧
      (stages.getD i .idle).taken = [] ∧ (stages.getD i .idle).drops = 0 := by
  have hnot : ∀ p, stages.getD i .idle ≠ .passed p := by
    intro p hp
    refine hi (List.mem_map.mpr ⟨(i, p), (h.mem i p).mpr ?_, rfl⟩)
    rw [List.getD_eq_getElem?_getD] at hp
    cases hstage : stages[i]? with
    | none =>
      rw [hstage] at hp
      cases hp
    | some t =>
      rw [hstage] at hp
      exact congrArg some hp
  cases hstage : stages.getD i .idle with
  | idle => exact ⟨rfl, rfl, rfl⟩
  | announced n => exact ⟨rfl, rfl, rfl⟩
  | passed p => exact absurd hstage (hnot p)

/-- a sum over the calls is one over those that have passed a section, if the others add nothing -/
theorem Tracked.sum (h : Tracked cfg allowed y passed stages) {f : Nat → Nat}
    (hother : ∀ i, i ∉ passed.map Prod.fst → f i = 0) :
    ((List.range y.ops.length).map f).sum = (passed.map fun q => f q.1).sum := by
  have hmap : (passed.map fun q => f q.1) = (passed.map Prod.fst).map f := by
    rw [List.map_map]
    rfl
  rw [hmap, ← List.sum_toFinset f h.nodup, ← List.sum_toFinset f List.nodup_range]
  refine (Finset.sum_subset ?_ ?_).symm
  · intro i hi
    rw [List.mem_toFinset] at hi ⊢
    obtain ⟨⟨j, p⟩, hp, rfl⟩ := List.mem_map.mp hi
    obtain ⟨op, _, hop, _⟩ := h.ends hp
    exact List.mem_range.mpr (List.getElem?_eq_some_iff.mp hop).1
  · intro i _ hi
    rw [List.mem_toFinset] at hi
    exact hother i hi

/-- **What the calls of a stream were given and have returned**, when none of them is under way. -/
theorem Tracked.results (h : Tracked cfg allowed y passed stages) (hq : y.Quiescent)
    (hstream : ∀ op ∈ y.ops, op.Streams) :
    (passed.map Prod.fst).flatMap y.givenPoints = givenBy passed ∧
      (passed.map Prod.fst).flatMap y.takenPoints = takenBy passed ∧
      ((List.range y.ops.length).map fun i => (y.givenPoints i).length).sum = (givenBy passed).length ∧
      ((List.range y.ops.length).map fun i => (y.takenPoints i).length).sum = (takenBy passed).length ∧
      ((List.range y.ops.length).map y.droppedPoints).sum = dropsBy passed ∧
      ∀ i, i ∉ passed.map Prod.fst → y.givenPoints i = [] ∧ y.takenPoints i = [] := by
  have hstand := h.quiescent hq hstream
  have hother : ∀ i, i ∉ passed.map Prod.fst → y.givenPoints i = [] ∧ y.takenPoints i = [] ∧
      y.droppedPoints i = 0 := by
    intro i hi
    obtain ⟨_, hgiven, htaken, hdrops⟩ := hstand i
    rw [hgiven, htaken, hdrops]
    exact h.not_passed hi
  have hpassed : ∀ q ∈ passed, y.givenPoints q.1 = q.2.given ∧ y.takenPoints q.1 = q.2.taken ∧
      y.droppedPoints q.1 = q.2.drops := by
    intro q hmem
    obtain ⟨_, hgiven, htaken, hdrops⟩ := hstand q.1
    rw [hgiven, htaken, hdrops, h.getD hmem]
    exact ⟨rfl, rfl, rfl⟩
  refine ⟨?_, ?_, ?_, ?_, ?_, fun i hi => ⟨(hother i hi).1, (hother i hi).2.1⟩⟩
  · rw [List.flatMap_map]
    exact List.flatMap_congr fun q hmem => (hpassed q hmem).1
  · rw [List.flatMap_map]
    exact List.flatMap_congr fun q hmem => (hpassed q hmem).2.1
  · rw [h.sum fun i hi => by rw [(hother i hi).1]; rfl, givenBy, List.length_flatMap]
    exact congrArg List.sum (List.map_congr_left fun q hmem => by rw [(hpassed q hmem).1])
  · rw [h.sum fun i hi => by rw [(hother i hi).2.1]; rfl, takenBy, List.length_flatMap]
    exact congrArg List.sum (List.map_congr_left fun q hmem => by rw [(hpassed q hmem).2.1])
  · rw [h.sum fun i hi => (hother i hi).2.2]
    exact congrArg List.sum (List.map_congr_left fun q hmem => (hpassed q hmem).2.2)

/-- nothing is announced and not queued -/
theorem Tracked.owes_nothing (h : Tracked cfg allowed y passed stages) (hq : y.Quiescent)
    (hstream : ∀ op ∈ y.ops, op.Streams) : (stages.map Stage.owed).sum = 0 := by
  refine List.sum_eq_zero fun n hn => ?_
  obtain ⟨t, ht, rfl⟩ := List.mem_map.mp hn
  obtain ⟨i, hi⟩ := List.mem_iff_getElem?.mp ht
  have howed := (h.quiescent hq hstream i).1
  rw [List.getD_eq_getElem?_getD, hi] at howed
  exact howed

end

/-! ## runs -/

/-- the books along a run of a stream -/
theorem stream_ledger (cfg : TargetConfig) (latencyMs avbRate : Nat) (inputs : List SystemInput)
    (hstream : ∀ input ∈ inputs, input.Streams) :
    ∃ stages, Tracked cfg TargetAct.streams
        (inputs.foldl (Calls.step cfg) (.new (.new cfg latencyMs avbRate)))
        (history cfg (.new (.new cfg latencyMs avbRate)) inputs) stages ∧
      Ledger (inputs.foldl (Calls.step cfg) (.new (.new cfg latencyMs avbRate))).target.books
        (history cfg (.new (.new cfg latencyMs avbRate)) inputs) (stages.map Stage.owed).sum := by
  refine run_tracked (P := fun stages passed s => Ledger s.books passed (stages.map Stage.owed).sum)
    ⟨⟨[], rfl, rfl, rfl⟩, rfl, rfl, rfl⟩ ?_ ?_ inputs ?_
  · intro stages passed s h
    rw [List.map_append, List.sum_append]
    exact h
  · intro stages passed s i t l t' ht hnext h
    obtain ⟨rest, hrest, hrest'⟩ := Typestate.sum_set Stage.owed ht
    rw [hrest] at h
    rw [hrest']
    exact h.act hnext i
  · intro op hop l hl
    exact hl (hstream _ hop)

/-- **No point of a stream is lost or doubled.**  Continuous submissions and callbacks have overlapped in
any way and none of them is under way.  The points received are those the submissions were given, and
those emitted, dropped and queued; the points emitted are those the callbacks have returned, and the
points dropped are those the submissions have reported.  In the order of the queue mutex, in which each
call takes one turn at most, a call that was over when another one began comes before it, and calls that
take no turn have nothing to put in or take out, the points that the submissions were given are, each of
them emitted or dropped, those that have left the queue and then those in it, and the callbacks have
returned the emitted ones in that order. -/
theorem points_conserved (cfg : TargetConfig) (latencyMs avbRate : Nat) (inputs : List SystemInput)
    (hstream : ∀ input ∈ inputs, input.Streams) :
    let new := Calls.new (.new cfg latencyMs avbRate)
    let y := inputs.foldl (Calls.step cfg) new
    let calls := List.range y.ops.length
    let order := queueOrder cfg new inputs
    y.Quiescent →
    y.target.receivedPoints =
        y.target.emittedPoints + y.target.droppedPoints + .ofNat y.target.pendingPoints.length ∧
      y.target.receivedPoints = .ofNat (calls.map fun i => (y.givenPoints i).length).sum ∧
      y.target.emittedPoints = .ofNat (calls.map fun i => (y.takenPoints i).length).sum ∧
      y.target.droppedPoints = .ofNat (calls.map y.droppedPoints).sum ∧
      order.Nodup ∧ InTime cfg new inputs order ∧
      (∀ i, i ∉ order → y.givenPoints i = [] ∧ y.takenPoints i = []) ∧
      ∃ fates : List (LaserPoint × Bool),
        order.flatMap y.givenPoints = fates.map Prod.fst ++ y.target.pendingPoints ∧
        order.flatMap y.takenPoints = (fates.filter fun p => p.2).map Prod.fst ∧
        (calls.map y.droppedPoints).sum = fates.countP fun p => !p.2 := by
  intro new y calls order hq
  obtain ⟨stages, htracked, hledger⟩ := stream_ledger cfg latencyMs avbRate inputs hstream
  have hops : ∀ op ∈ y.ops, op.Streams := by
    intro op hop
    rcases ops_of_run hop with hnone | hstart
    · cases hnone
    · exact hstream _ hstart
  obtain ⟨hgiven, htaken, hgivenLength, htakenLength, hdrops, hother⟩ := htracked.results hq hops
  obtain ⟨hsplit, hreceived, hemitted, hdropped⟩ := hledger
  rw [htracked.owes_nothing hq hops, Nat.add_zero] at hreceived
  refine ⟨?_, ?_, ?_, ?_, htracked.nodup, queueOrder_inTime cfg _ inputs, hother, ?_⟩
  · show y.target.books.receivedPoints = y.target.books.emittedPoints + y.target.books.droppedPoints + _
    rw [hreceived, hemitted, hdropped, ← ofNat_add, ← ofNat_add, hsplit.length_eq]
    rfl
  · exact hreceived.trans (congrArg UInt64.ofNat hgivenLength.symm)
  · exact hemitted.trans (congrArg UInt64.ofNat htakenLength.symm)
  · exact hdropped.trans (congrArg UInt64.ofNat hdrops.symm)
  · obtain ⟨fates, hsplit1, hsplit2, hsplit3⟩ := hsplit
    exact ⟨fates, hgiven.trans hsplit1, htaken.trans hsplit2, hdrops.trans hsplit3⟩

/-- the smallest queue, on a controller that is not AVB -/
def smallTarget : TargetConfig :=
  .make ⟨⟨"a", "A", "USB", 60000⟩, 1000, 10, 100, true⟩ ⟨0, 0, 0, 0, 0, 0, 0, 0⟩

def quietAnswers : Answers := ⟨0, 0, none, none, true⟩

/-- a slice of equal points -/
def evenSlice (n : Nat) (p : LaserPoint) : SliceSubmission := { points := List.replicate n p }

/-- Two submissions overlap, of four dark points and of 998 lit ones, and between their sections a
callback that may read short takes a point; the second submission drops the other three. -/
def overlappingCallback : List SystemInput :=
  [.start (.submitContinuous (evenSlice 4 smallTarget.defaultPoint) quietAnswers),
    .start (.submitContinuous (evenSlice 998 ⟨0, 0, 1, 1, 1, 1, 0, 0⟩) quietAnswers),
    .run 1, .run 1, .run 1, .run 0, .run 0, .run 0, .run 0, .run 0, .run 0,
    .start (.fillFromQueue ⟨1, 1, true⟩ 0 0 0), .run 2, .run 2, .run 2,
    .run 1, .run 1, .run 1, .run 1, .run 1, .run 0, .run 0]

theorem points_conserved_overlapping :
    let new := Calls.new (.new smallTarget 10 0)
    let y := overlappingCallback.foldl (Calls.step smallTarget) new
    queueOrder smallTarget new overlappingCallback = [0, 2, 1] ∧
      y.target.receivedPoints =
        y.target.emittedPoints + y.target.droppedPoints + .ofNat y.target.pendingPoints.length ∧
      y.target.emittedPoints = 1 ∧ y.target.droppedPoints = 3 ∧ y.droppedPoints 1 = 3 ∧
      y.takenPoints 2 = [smallTarget.defaultPoint] := by
  have hstreams : ∀ input ∈ overlappingCallback, input.Streams := by
    simp [overlappingCallback, SystemInput.Streams, TargetOp.Streams]
  have h := points_conserved smallTarget 10 0 overlappingCallback hstreams
  simp only at h ⊢
  -- the run is evaluated where its values are asked for, and nowhere else
  generalize hy : overlappingCallback.foldl (Calls.step smallTarget)
    (.new (.new smallTarget 10 0)) = y at h ⊢
  have hquiet : y.Quiescent := by
    rw [← hy]
    unfold Calls.Quiescent
    decide +kernel
  refine ⟨?_, (h hquiet).1, ?_, ?_, ?_, ?_⟩
  · decide +kernel
  · rw [← hy]
    decide +kernel
  · rw [← hy]
    decide +kernel
  · rw [← hy]
    decide +kernel
  · rw [← hy]
    decide +kernel

end LiberaLink.Target
