import LiberaLink.Protocol.Server

/-!
# The endpoint of a server is lent to one session at a time

An endpoint, seen from outside, is free or lent to one session, which first resets the target, then
feeds it, then resets it again and gives the endpoint back.  Every run of a server, with any number of
sessions in any order, is a run of this machine; what the log may look like follows from it.

* `Lends`                   the machine;
* `owns_iff`                who owns the endpoint, read off the log;
* `handover`                what lies between two sessions that feed the target;
* `Inv.step`, `inv_of_reachable`   the server refines the machine;
* `sessions_take_turns`     **one owner at a time, and two resets between owners**.
-/

namespace LiberaLink.Protocol
open Stepwise

/-! ## the machine -/

inductive Stage where
  | acquired | streaming | drained
  deriving DecidableEq

/-- One step of an endpoint: nobody has it, or one session is at a stage of its turn. -/
inductive Lends : Option (Nat × Stage) → Nat × SessionEvent → Option (Nat × Stage) → Prop where
  | acquire (i : Nat) : Lends none (i, .acquired) (some (i, .acquired))
  | reset (i : Nat) : Lends (some (i, .acquired)) (i, .call .reset) (some (i, .streaming))
  | feed (i : Nat) {c : SinkCall} (hc : c.Feeds) :
    Lends (some (i, .streaming)) (i, .call c) (some (i, .streaming))
  | drain (i : Nat) : Lends (some (i, .streaming)) (i, .call .reset) (some (i, .drained))
  | release (i : Nat) : Lends (some (i, .drained)) (i, .released) none

/-- the session `i` has acquired the endpoint and has not released it since -/
def Owns (log : List (Nat × SessionEvent)) (i : Nat) : Prop :=
  ∃ before after, log = before ++ (i, .acquired) :: after ∧ (i, .released) ∉ after

section
variable {log : List (Nat × SessionEvent)} {o o' : Option (Nat × Stage)} {i j : Nat} {g : Stage}

/-- only the owner makes a step -/
theorem lends_own {e : SessionEvent} (h : Lends (some (j, g)) (i, e) o') : j = i := by
  cases h with
  | reset => rfl
  | feed => rfl
  | drain => rfl
  | release => rfl

theorem lends_isSome {e : SessionEvent} (h : Lends o (i, e) o') :
    o'.isSome = if e = .acquired then true else if e = .released then false else o.isSome := by
  cases h with
  | acquire => rfl
  | reset => rfl
  | feed => rfl
  | drain => rfl
  | release => rfl

/-- an owner stays the owner until it releases -/
theorem lends_stays (h : Path Lends (some (i, g)) log o) (hno : (i, .released) ∉ log) :
    ∃ g', o = some (i, g') := by
  induction log generalizing g with
  | nil => exact ⟨g, h.symm⟩
  | cons e log ih =>
    obtain ⟨m, he, h⟩ := h
    have hno' : (i, SessionEvent.released) ∉ log := fun hm => hno (List.mem_cons_of_mem _ hm)
    cases he with
    | reset => exact ih h hno'
    | feed => exact ih h hno'
    | drain => exact ih h hno'
    | release => exact absurd List.mem_cons_self hno

theorem Owns.concat {e : Nat × SessionEvent} (h : Owns log i) (he : e ≠ (i, .released)) :
    Owns (log ++ [e]) i := by
  obtain ⟨a, b, rfl, hb⟩ := h
  refine ⟨a, b ++ [e], by simp, fun hm => ?_⟩
  rcases List.mem_append.mp hm with hm | hm
  · exact hb hm
  · exact he (List.mem_singleton.mp hm).symm

/-- **The owner is the session that the machine has lent the endpoint to.** -/
theorem owns_iff (h : Path Lends none log o) : Owns log i ↔ ∃ g, o = some (i, g) := by
  constructor
  · rintro ⟨a, b, rfl, hb⟩
    obtain ⟨m, _, m', he, h⟩ := path_append.mp h
    cases he
    exact lends_stays h hb
  · induction log using List.reverseRecOn generalizing o with
    | nil =>
      rintro ⟨g, rfl⟩
      cases h
    | append_singleton log e ih =>
      rintro ⟨g, rfl⟩
      obtain ⟨m, hlog, he⟩ := path_concat.mp h
      cases he with
      | acquire => exact ⟨log, [], rfl, List.not_mem_nil⟩
      | reset => exact (ih hlog ⟨_, rfl⟩).concat (by simp)
      | feed => exact (ih hlog ⟨_, rfl⟩).concat (by simp)
      | drain => exact (ih hlog ⟨_, rfl⟩).concat (by simp)

/-- who calls the sink owns the endpoint -/
theorem owns_of_call {before after : List (Nat × SessionEvent)} {c : SinkCall}
    (h : Path Lends none (before ++ (i, .call c) :: after) o) : Owns before i := by
  obtain ⟨m, h, m', he, _⟩ := path_append.mp h
  rw [owns_iff h]
  cases he with
  | reset => exact ⟨_, rfl⟩
  | feed => exact ⟨_, rfl⟩
  | drain => exact ⟨_, rfl⟩

/-! ## from one session to the next -/

/-- an owner that has streamed resets and releases before the endpoint is free -/
theorem lends_free (h : Path Lends (some (i, g)) log none) :
    [(i, SessionEvent.released)].Sublist log ∧
      (g = .streaming → [(i, SessionEvent.call .reset), (i, .released)].Sublist log) := by
  induction log generalizing g with
  | nil => cases h
  | cons e log ih =>
    obtain ⟨m, he, h⟩ := h
    cases he with
    | reset => exact ⟨(ih h).1.cons _, by simp⟩
    | feed => exact ⟨(ih h).1.cons _, fun _ => ((ih h).2 rfl).cons _⟩
    | drain => exact ⟨(ih h).1.cons _, fun _ => (ih h).1.cons_cons _⟩
    | release => exact ⟨List.singleton_sublist.mpr List.mem_cons_self, by simp⟩

/-- a session that streams, and did not own the endpoint before, found it free, acquired it and reset
the target -/
theorem lends_taken (h : Path Lends o log (some (j, g))) (ho : ∀ g', o ≠ some (j, g')) :
    ∃ before after, log = before ++ after ∧ Path Lends o before none ∧
      [(j, SessionEvent.acquired)].Sublist after ∧
      (g = .streaming → [(j, SessionEvent.acquired), (j, .call .reset)].Sublist after) := by
  induction log using List.reverseRecOn generalizing g with
  | nil => exact absurd h (ho g)
  | append_singleton log e ih =>
    obtain ⟨m, hlog, he⟩ := path_concat.mp h
    cases he with
    | acquire => exact ⟨log, [(j, .acquired)], rfl, hlog, List.Sublist.refl _, by simp⟩
    | reset =>
      obtain ⟨a, b, rfl, ha, hb, _⟩ := ih hlog
      exact ⟨a, b ++ [_], List.append_assoc _ _ _, ha, hb.trans (List.sublist_append_left _ _),
        fun _ => hb.append (List.Sublist.refl _)⟩
    | feed =>
      obtain ⟨a, b, rfl, ha, hb, hs⟩ := ih hlog
      exact ⟨a, b ++ [_], List.append_assoc _ _ _, ha, hb.trans (List.sublist_append_left _ _),
        fun _ => (hs rfl).trans (List.sublist_append_left _ _)⟩
    | drain =>
      obtain ⟨a, b, rfl, ha, hb, hs⟩ := ih hlog
      exact ⟨a, b ++ [_], List.append_assoc _ _ _, ha, hb.trans (List.sublist_append_left _ _), by simp⟩

/-- **Between a call that one session feeds the target with and one of another session** the old owner
resets the target and releases the endpoint, and the new one acquires it and resets the target. -/
theorem handover {before between after : List (Nat × SessionEvent)} {c d : SinkCall}
    (h : Path Lends none (before ++ (i, .call c) :: between ++ (j, .call d) :: after) o)
    (hc : c.Feeds) (hd : d.Feeds) (hij : i ≠ j) :
    [(i, SessionEvent.call .reset), (i, .released), (j, .acquired), (j, .call .reset)].Sublist
      between := by
  have streaming : ∀ {k m e m'}, Lends m (k, .call e) m' → e.Feeds →
      m = some (k, .streaming) ∧ m' = some (k, .streaming) := by
    intro k m e m' h he
    cases h with
    | reset => exact he.elim
    | feed => exact ⟨rfl, rfl⟩
    | drain => exact he.elim
  rw [List.append_assoc, List.cons_append] at h
  obtain ⟨m1, _, m2, h2, h3⟩ := path_append.mp h
  obtain ⟨m3, h3, m4, h4, _⟩ := path_append.mp h3
  obtain ⟨_, rfl⟩ := streaming h2 hc
  obtain ⟨rfl, _⟩ := streaming h4 hd
  obtain ⟨a, b, rfl, ha, _, hb⟩ := lends_taken h3 fun g' e => hij (by
    simpa using congrArg (Option.map Prod.fst) e)
  exact ((lends_free ha).2 rfl).append (hb rfl)

end

/-! ## what one session logs -/

/-- the events of one session -/
def ownLog (log : List (Nat × SessionEvent)) (i : Nat) : List SessionEvent :=
  (log.filter fun e => e.1 = i).map Prod.snd

/-- A session from its acquisition to its release: it resets the target, feeds it with `calls`, resets
it and releases the endpoint. -/
def Turn (calls : List SinkCall) : List SessionEvent :=
  [.acquired, .call .reset] ++ calls.map .call ++ [.call .reset, .released]

theorem ownLog_concat (log : List (Nat × SessionEvent)) (i j : Nat) (e : SessionEvent) :
    ownLog (log ++ [(j, e)]) i = if j = i then ownLog log i ++ [e] else ownLog log i := by
  unfold ownLog
  rw [List.filter_append, List.map_append]
  split
  · rename_i h
    subst h
    simp
  · rename_i h
    simp [h]

/-- what a session has logged, by its phase -/
def Logged : Phase → List SessionEvent → Prop
  | .waiting, own => own = []
  | .acquired, own => own = [.acquired]
  | .streaming, own => ∃ calls : List SinkCall, (∀ c ∈ calls, c.Feeds) ∧
      own = [.acquired, .call .reset] ++ calls.map .call
  | .drained, own => ∃ calls : List SinkCall, (∀ c ∈ calls, c.Feeds) ∧
      own = [.acquired, .call .reset] ++ calls.map .call ++ [.call .reset]
  | .gone, own => ∃ calls : List SinkCall, (∀ c ∈ calls, c.Feeds) ∧ own = Turn calls

theorem Logged.move {p p' : Phase} {own : List SessionEvent} {e : SessionEvent} (h : Logged p own)
    (hm : Phase.Move p e p') : Logged p' (own ++ [e]) := by
  cases hm with
  | acquire =>
    obtain rfl : own = [] := h
    exact rfl
  | reset =>
    obtain rfl : own = [.acquired] := h
    exact ⟨[], by simp, rfl⟩
  | @feed c hc =>
    obtain ⟨calls, hcalls, rfl⟩ := h
    refine ⟨calls ++ [c], ?_, by simp⟩
    intro d hd
    rcases List.mem_append.mp hd with hd | hd
    · exact hcalls d hd
    · exact List.mem_singleton.mp hd ▸ hc
  | drain =>
    obtain ⟨calls, hcalls, rfl⟩ := h
    exact ⟨calls, hcalls, rfl⟩
  | release =>
    obtain ⟨calls, hcalls, rfl⟩ := h
    exact ⟨calls, hcalls, by simp [Turn]⟩

/-- every session is on its way through a turn, or has not begun one -/
theorem Logged.part {p : Phase} {own : List SessionEvent} (h : Logged p own) :
    own = [] ∨ ∃ calls, (∀ c ∈ calls, SinkCall.Feeds c) ∧ own <+: Turn calls := by
  cases p with
  | waiting => exact .inl h
  | acquired =>
    obtain rfl : own = [.acquired] := h
    exact .inr ⟨[], by simp, ⟨_, rfl⟩⟩
  | streaming =>
    obtain ⟨calls, hcalls, rfl⟩ := h
    exact .inr ⟨calls, hcalls, List.prefix_append _ _⟩
  | drained =>
    obtain ⟨calls, hcalls, rfl⟩ := h
    exact .inr ⟨calls, hcalls, ⟨[.released], by simp [Turn]⟩⟩
  | gone =>
    obtain ⟨calls, hcalls, rfl⟩ := h
    exact .inr ⟨calls, hcalls, List.prefix_rfl⟩

/-! ## the server refines the machine -/

/-- the stage of the endpoint that a session in this phase stands for -/
def Phase.stage : Phase → Option Stage
  | .acquired => some .acquired
  | .streaming => some .streaming
  | .drained => some .drained
  | .waiting => none
  | .gone => none

/-- What holds of a server whose sessions are in the phases `phases`, with the endpoint at `o`. -/
structure Inv (y : System) (phases : List (Nat × Phase)) (o : Option (Nat × Stage)) : Prop where
  typed : sessions.Typed Ended phases y.threads
  own : ∀ (i j : Nat) (p : Phase), phases[i]? = some (j, p) → j = i
  path : Path Lends none y.state.log o
  flag : y.state.sessionOwned = o.isSome
  holder : ∀ (i : Nat) (g : Stage), o = some (i, g) ↔
    ∃ p, phases[i]? = some (i, p) ∧ p.stage = some g
  logged : ∀ (i : Nat) (p : Phase), phases[i]? = some (i, p) → Logged p (ownLog y.state.log i)
  fresh : ∀ i, phases.length ≤ i → ownLog y.state.log i = []

/-- what the endpoint becomes when its owner, or a session that finds it free, makes a move -/
def moved (i : Nat) (p : Phase) : Option (Nat × Stage) := p.stage.map fun g => (i, g)

theorem moved_eq_some {i j : Nat} {p : Phase} {g : Stage} :
    moved i p = some (j, g) ↔ j = i ∧ p.stage = some g := by
  unfold moved
  cases p.stage with
  | none => simp
  | some g' => simp [Prod.ext_iff, eq_comm]

section
variable {y y' : System} {phases : List (Nat × Phase)} {o : Option (Nat × Stage)} {i : Nat}
  {p p' : Phase} {e : SessionEvent}

/-- a move of a session is a move of the endpoint -/
theorem Inv.lends (h : Inv y phases o) (hi : phases[i]? = some (i, p)) (hm : Phase.Move p e p')
    (hfree : e = .acquired → y.state.sessionOwned = false) : Lends o (i, e) (moved i p') := by
  have at_stage : ∀ g, p.stage = some g → o = some (i, g) := fun g hg => (h.holder i g).mpr ⟨p, hi, hg⟩
  cases hm with
  | acquire =>
    have hn := hfree rfl
    rw [h.flag, Option.isSome_eq_false_iff, Option.isNone_iff_eq_none] at hn
    rw [hn]
    exact .acquire i
  | reset =>
    rw [at_stage _ rfl]
    exact .reset i
  | feed hc =>
    rw [at_stage _ rfl]
    exact .feed i hc
  | drain =>
    rw [at_stage _ rfl]
    exact .drain i
  | release =>
    rw [at_stage _ rfl]
    exact .release i

/-- only the session that moves can have the endpoint, before and after -/
theorem Inv.alone (h : Inv y phases o) (hi : phases[i]? = some (i, p)) (hm : Phase.Move p e p')
    (hfree : e = .acquired → y.state.sessionOwned = false) {j : Nat} (hj : j ≠ i) (g : Stage) :
    o ≠ some (j, g) := by
  intro ho
  have hl := h.lends hi hm hfree
  rw [ho] at hl
  exact hj (lends_own hl)

/-- the invariant after one event of one session -/
theorem Inv.event (h : Inv y phases o) (hi : phases[i]? = some (i, p)) (hm : Phase.Move p e p')
    (hfree : e = .acquired → y.state.sessionOwned = false)
    (htyped : sessions.Typed Ended (phases.set i (i, p')) y'.threads)
    (hlog : y'.state.log = y.state.log ++ [(i, e)])
    (hflag : y'.state.sessionOwned =
      if e = .acquired then true else if e = .released then false else y.state.sessionOwned) :
    Inv y' (phases.set i (i, p')) (moved i p') := by
  have hlt : i < phases.length := (List.getElem?_eq_some_iff.mp hi).1
  have hset : (phases.set i (i, p'))[i]? = some (i, p') := by simp [hlt]
  have hother : ∀ {j : Nat}, j ≠ i → (phases.set i (i, p'))[j]? = phases[j]? := fun hj =>
    List.getElem?_set_ne hj.symm
  refine ⟨htyped, ?_, hlog ▸ h.path.concat (h.lends hi hm hfree), ?_, ?_, ?_, ?_⟩
  · intro j k q hj
    by_cases hji : j = i
    · subst hji
      rw [hset] at hj
      exact (Prod.mk.inj (Option.some.inj hj)).1.symm
    · rw [hother hji] at hj
      exact h.own j k q hj
  · rw [hflag, h.flag]
    exact (lends_isSome (h.lends hi hm hfree)).symm
  · intro j g
    rw [moved_eq_some]
    by_cases hji : j = i
    · subst hji
      simp [hset]
    · rw [hother hji, ← h.holder j g]
      simp [hji, h.alone hi hm hfree hji g]
  · intro j q hj
    rw [hlog, ownLog_concat]
    by_cases hji : j = i
    · subst hji
      rw [hset] at hj
      obtain rfl : p' = q := (Prod.mk.inj (Option.some.inj hj)).2
      rw [if_pos rfl]
      exact (h.logged j p hi).move hm
    · rw [hother hji] at hj
      rw [if_neg (Ne.symm hji)]
      exact h.logged j q hj
  · intro j hj
    rw [List.length_set] at hj
    rw [hlog, ownLog_concat, if_neg (by omega)]
    exact h.fresh j hj

/-- the invariant is about the log, the flag and the threads -/
theorem Inv.congr (h : Inv y phases o) (ht : sessions.Typed Ended phases y'.threads)
    (hlog : y'.state.log = y.state.log) (hflag : y'.state.sessionOwned = y.state.sessionOwned) :
    Inv y' phases o :=
  ⟨ht, h.own, hlog ▸ h.path, hflag ▸ h.flag, h.holder, hlog ▸ h.logged, hlog ▸ h.fresh⟩

/-- a new connection -/
theorem Inv.spawn (h : Inv y phases o) {t : SessionM Unit}
    (ht : sessions.Follows t (fun _ => Ended) (y.threads.length, .waiting))
    (hthreads : y'.threads = y.threads ++ [t])
    (hlog : y'.state.log = y.state.log) (hflag : y'.state.sessionOwned = y.state.sessionOwned) :
    Inv y' (phases ++ [(y.threads.length, .waiting)]) o := by
  have hlen := h.typed.length_eq
  have hget : ∀ {j k : Nat} {q : Phase},
      (phases ++ [(y.threads.length, Phase.waiting)])[j]? = some (k, q) →
        phases[j]? = some (k, q) ∨ (j = phases.length ∧ k = phases.length ∧ q = .waiting) := by
    intro j k q hj
    rcases Nat.lt_or_ge j phases.length with hlt | hge
    · rw [List.getElem?_append_left hlt] at hj
      exact .inl hj
    · rw [List.getElem?_append_right hge, List.getElem?_singleton] at hj
      split at hj
      · obtain ⟨rfl, rfl⟩ := Prod.mk.inj (Option.some.inj hj)
        exact .inr ⟨by omega, hlen.symm, rfl⟩
      · cases hj
  refine ⟨hthreads ▸ h.typed.spawn ht, ?_, hlog ▸ h.path, hflag ▸ h.flag, ?_, ?_, ?_⟩
  · intro j k q hj
    rcases hget hj with hj | ⟨rfl, rfl, _⟩
    · exact h.own j k q hj
    · rfl
  · intro j g
    rw [h.holder j g]
    constructor
    · rintro ⟨q, hq, hg⟩
      exact ⟨q, by rwa [List.getElem?_append_left (List.getElem?_eq_some_iff.mp hq).1], hg⟩
    · rintro ⟨q, hq, hg⟩
      rcases hget hq with hq | ⟨_, _, rfl⟩
      · exact ⟨q, hq, hg⟩
      · cases hg
  · intro j q hj
    rw [hlog]
    rcases hget hj with hj | ⟨rfl, _, rfl⟩
    · exact h.logged j q hj
    · exact h.fresh _ (Nat.le_refl _)
  · intro j hj
    rw [List.length_append] at hj
    rw [hlog]
    exact h.fresh j (by omega)

/-- **Every step of the server keeps the invariant.** -/
theorem Inv.step (h : Inv y phases o) (srv : TargetServer) (input : ServerInput) :
    ∃ phases' o', Inv (y.step srv input) phases' o' := by
  cases input with
  | connect client configured =>
    unfold System.step
    simp only
    split
    · exact ⟨_, o, h.spawn (sessionThread_follows client) rfl rfl rfl⟩
    · exact ⟨phases, o, h⟩
  | run i =>
    rcases h.typed.fire i y.state with hidle | ⟨t, l, t', ht, hnext, hs, htyped⟩
    · refine ⟨phases, o, h.congr ?_ ?_ ?_⟩
      · show sessions.Typed Ended phases (Prog.fireThread i y.threads y.state).1
        rw [hidle]
        exact h.typed
      · exact congrArg (fun r => r.2.log) hidle
      · exact congrArg (fun r => r.2.sessionOwned) hidle
    · obtain ⟨j, p⟩ := t
      obtain rfl := h.own i j p ht
      rcases next_cases hnext with ⟨rfl, hlog, hflag⟩ | ⟨e, p', rfl, hm, hlog, hfree, hflag⟩
      · obtain ⟨hlt, he⟩ := List.getElem?_eq_some_iff.mp ht
        rw [← he, List.set_getElem_self] at htyped
        exact ⟨phases, o, h.congr htyped ((congrArg ServerState.log hs).trans hlog)
          ((congrArg ServerState.sessionOwned hs).trans hflag)⟩
      · exact ⟨_, _, h.event ht hm hfree htyped ((congrArg ServerState.log hs).trans hlog)
          ((congrArg ServerState.sessionOwned hs).trans hflag)⟩
  | stop => exact ⟨phases, o, h.congr h.typed rfl rfl⟩
  | acceptExit =>
    unfold System.step
    simp only
    split
    · exact ⟨phases, o, h⟩
    · exact ⟨phases, o, h.congr h.typed rfl rfl⟩
  | joined =>
    unfold System.step
    simp only
    split
    · exact ⟨phases, o, h.congr h.typed rfl rfl⟩
    · exact ⟨phases, o, h⟩

end

theorem inv_started : Inv System.started [] none where
  typed := .nil
  own := by simp
  path := rfl
  flag := rfl
  holder := by simp
  logged := by simp
  fresh := by
    intro i _
    rfl

theorem inv_of_reachable {srv : TargetServer} {y : System} (h : Reachable srv y) :
    ∃ phases o, Inv y phases o := by
  have hstep : ∀ y input, (∃ phases o, Inv y phases o) → True →
      ∃ phases o, Inv (y.step srv input) phases o := by
    intro y input hy _
    obtain ⟨phases, o, hy⟩ := hy
    exact hy.step srv input
  exact Reach.invariant (P := fun y => ∃ phases o, Inv y phases o) h ⟨_, _, inv_started⟩ hstep

/-! ## the result -/

/-- **Sessions take turns.**  However many clients connect, whatever they send, and in whatever order
the sessions and the stop of the server act: at most one session owns the endpoint; who calls the sink
owns it; a session that has ended never had it, or has taken one whole turn (a reset, what it fed the
target with, a reset, one release), and one that has not is on its way through a turn; and between what
one session feeds the target with and what the next one does, the old owner resets the target and
releases the endpoint, and the new one acquires it and resets the target. -/
theorem sessions_take_turns {srv : TargetServer} {y : System} (h : Reachable srv y) :
    (∀ i j, Owns y.state.log i → Owns y.state.log j → i = j) ∧
    (∀ before i c after, y.state.log = before ++ (i, .call c) :: after → Owns before i) ∧
    (∀ i p, y.threads[i]? = some p → p.Finished → ownLog y.state.log i = [] ∨
      ∃ calls, (∀ c ∈ calls, SinkCall.Feeds c) ∧ ownLog y.state.log i = Turn calls) ∧
    (∀ i, ownLog y.state.log i = [] ∨
      ∃ calls, (∀ c ∈ calls, SinkCall.Feeds c) ∧ ownLog y.state.log i <+: Turn calls) ∧
    (∀ before i c between j d after,
      y.state.log = before ++ (i, .call c) :: between ++ (j, .call d) :: after →
      c.Feeds → d.Feeds → i ≠ j →
      [(i, SessionEvent.call .reset), (i, .released), (j, .acquired), (j, .call .reset)].Sublist
        between) := by
  obtain ⟨phases, o, hinv⟩ := inv_of_reachable h
  refine ⟨?_, ?_, ?_, ?_, ?_⟩
  · intro i j hi hj
    obtain ⟨g, hi⟩ := (owns_iff hinv.path).mp hi
    obtain ⟨g', hj⟩ := (owns_iff hinv.path).mp hj
    rw [hi] at hj
    exact (Prod.mk.inj (Option.some.inj hj)).1
  · intro before i c after hlog
    exact owns_of_call (hlog ▸ hinv.path)
  · intro i p hi hp
    obtain ⟨t, ht, hend⟩ := hinv.typed.finished hi hp
    obtain ⟨j, q⟩ := t
    obtain rfl := hinv.own i j q ht
    have hl := hinv.logged j q ht
    rcases hend with rfl | rfl
    · exact .inl hl
    · exact .inr hl
  · intro i
    rcases Nat.lt_or_ge i phases.length with hi | hi
    · obtain ⟨t, ht⟩ : ∃ t, phases[i]? = some t := ⟨_, List.getElem?_eq_getElem hi⟩
      obtain ⟨j, q⟩ := t
      obtain rfl := hinv.own i j q ht
      exact (hinv.logged j q ht).part
    · exact .inl (hinv.fresh i hi)
  · intro before i c between j d after hlog hc hd hij
    exact handover (hlog ▸ hinv.path) hc hd hij

/-- a codec for which every payload decodes, to a hello, a ready or one dark point -/
def plainCodec : Codec where
  decodeHello _ := .ok ⟨"client", .rawPointStream, 0, 0⟩
  decodeStreamConfig _ := .ok ⟨.rawPointStream, 0, 0⟩
  decodeScannerSync _ := .ok ⟨0, false⟩
  decodeFrameMarker _ := .ok ⟨1, 0, 0⟩
  decodePointSamples _ _ := .ok [⟨0, 0, 0, 0, 0, 0, []⟩]
  readUInt64 _ := 0
  defaultPoint := ⟨0, 0, 0, 0, 0, 0, 0, 0⟩

def plainServer : TargetServer where
  codec := plainCodec
  options := { tcpPort := 1, discoveryPort := 1 }
  sink := some ⟨"a", "A", "USB", 60000⟩

/-- a client that sends one record with points -/
def plainClient : Client where
  hello := { header := .ok { type := .hello, payloadSize := 0 } }
  accepted := true
  now := 0
  ready := { header := .ok { type := .ready, payloadSize := 0 } }
  records := [(true, { header := .ok { type := .points, payloadSize := 0 } }, true)]

/-- Three clients: the second comes while the first has the endpoint, the third when it is free again;
the server is stopped while the third has it. -/
def threeClients : List ServerInput :=
  [.connect plainClient true, .connect plainClient true, .run 0, .run 1, .run 1, .run 1] ++
    List.replicate 8 (.run 0) ++ [.connect plainClient true] ++ List.replicate 5 (.run 2) ++ [.stop]

/-- what the server makes of the record of `plainClient` -/
def darkSlice : SinkCall := .submitContinuous {
  points := [⟨0, 0, 0, 0, 0, 0, 0, 0⟩], durationUs := 33, effectivePointRate := some 30000 }

theorem sessions_take_turns_three :
    let log := (threeClients.foldl (System.step plainServer) System.started).state.log
    Owns (log.take 7) 2 ∧
      [(0, SessionEvent.call .reset), (0, .released), (2, .acquired), (2, .call .reset)].Sublist
        ((log.drop 3).take 4) := by
  have h : Reachable plainServer (threeClients.foldl (System.step plainServer) System.started) :=
    Reach.of_list threeClients
  obtain ⟨_, hcall, _, _, hturn⟩ := sessions_take_turns h
  exact ⟨hcall _ 2 darkSlice [] (by decide +kernel),
    hturn [(0, .acquired), (0, .call .reset)] 0 darkSlice _ 2 darkSlice [] (by decide +kernel)
      trivial trivial (by decide)⟩

end LiberaLink.Protocol
