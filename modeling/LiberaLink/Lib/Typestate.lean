import Mathlib.Algebra.Ring.Nat
import Mathlib.Data.List.Forall2
import LiberaLink.Lib.Prog

/-!
# Threads that follow a typestate

A pool of threads, each a program of atomic actions over the same shared state.  Every action does
what its label says; a thread is in a phase, and a typestate says which labels it may make next and
which phase they lead to, depending on the shared state the action meets.

* `Follows D p Q t`     the program `p`, begun in phase `t`, keeps to `D` and ends as `Q` says;
* `follows_bind`        one program after the other, `follows_weaken` under a typestate that allows more;
* `fireThread`          one action of one thread of the pool;
* `Typed`               every thread of the pool follows `D` from its phase;
* `Typed.fire`          **one action of a pool is one step of one phase**;
* `Typed.spawn`, `Typed.finished`   new threads and finished ones;
* `Served`              the same for a pool of calls, whose results are kept;
* `Served.fire`, `Served.spawn`     one action of a call, and a new one;
* `Served.returned`, `Served.ends`  what a call has returned, and what its phase can still lead to;
* `sum_set`             a sum over the phases, when one of them changes.
-/

namespace Stepwise

namespace Prog
variable {L σ α : Type}

/-- one action of the thread `i`; a finished thread does nothing -/
def fireThread (i : Nat) (threads : List (Prog L σ α)) (s : σ) : List (Prog L σ α) × σ :=
  match threads[i]? with
  | some (.act _ u k) => (threads.set i (k s), u s)
  | _ => (threads, s)

def Finished : Prog L σ α → Prop
  | .ret _ => True
  | .act _ _ _ => False

instance : (p : Prog L σ α) → Decidable p.Finished
  | .ret _ => .isTrue trivial
  | .act _ _ _ => .isFalse not_false

/-- the result of a finished thread -/
def result? : Prog L σ α → Option α
  | .ret a => some a
  | .act _ _ _ => none

/-- the program without its result -/
def discard (p : Prog L σ α) : Prog L σ Unit := p.bind fun _ => .ret ()

theorem discard_unit (p : Prog L σ Unit) : p.discard = p := by
  induction p with
  | ret a => rfl
  | act l u k ih => exact congrArg (Prog.act l u) (funext ih)

/-- a pool goes on alike when nobody looks at the results -/
theorem fireThread_discard (i : Nat) (threads : List (Prog L σ α)) (s : σ) :
    fireThread i (threads.map discard) s =
      ((fireThread i threads s).1.map discard, (fireThread i threads s).2) := by
  unfold fireThread
  rw [List.getElem?_map]
  cases threads[i]? with
  | none => rfl
  | some p =>
    cases p with
    | ret a => rfl
    | act l u k => exact Prod.ext (List.map_set).symm rfl

end Prog

/-- What the labels do to the shared state, and which of them a thread may make in which phase. -/
structure Typestate (L σ T : Type) where
  effect : L → σ → σ
  next : T → L → σ → Option T

namespace Typestate
variable {L σ T O α β : Type} (D : Typestate L σ T)

/-- Every action does what its label says and is allowed in the phase it is made in; the result and
the last phase satisfy `Q`. -/
def Follows : Prog L σ α → (α → T → Prop) → T → Prop
  | .ret a, Q, t => Q a t
  | .act l u k, Q, t => u = D.effect l ∧ ∀ s, ∃ t', D.next t l s = some t' ∧ Follows (k s) Q t'

variable {D}

@[simp] theorem follows_ret (a : α) (Q : α → T → Prop) (t : T) :
    D.Follows (.ret a) Q t ↔ Q a t := Iff.rfl

@[simp] theorem follows_pure (a : α) (Q : α → T → Prop) (t : T) :
    D.Follows (pure a) Q t ↔ Q a t := Iff.rfl

theorem follows_mono {p : Prog L σ α} {Q Q' : α → T → Prop} {t : T} (h : D.Follows p Q t)
    (hQ : ∀ a t, Q a t → Q' a t) : D.Follows p Q' t := by
  induction p generalizing t with
  | ret a => exact hQ a t h
  | act l u k ih =>
    refine ⟨h.1, fun s => ?_⟩
    obtain ⟨t', ht, hf⟩ := h.2 s
    exact ⟨t', ht, ih s hf⟩

/-- **One program after the other.** -/
theorem follows_bind {p : Prog L σ α} {f : α → Prog L σ β} {Q : β → T → Prop} {t : T} :
    D.Follows (p >>= f) Q t ↔ D.Follows p (fun a t' => D.Follows (f a) Q t') t := by
  rw [Prog.bind_eq]
  induction p generalizing t with
  | ret a => rfl
  | act l u k ih =>
    rw [Prog.act_bind]
    exact and_congr_right fun _ => forall_congr' fun s => exists_congr fun t' =>
      and_congr_right fun _ => ih s

/-- a typestate that allows no less -/
theorem follows_weaken {p : Prog L σ α} {Q : α → T → Prop} {t : T} (h : D.Follows p Q t)
    {D' : Typestate L σ T} (heffect : D.effect = D'.effect)
    (hnext : ∀ t l s t', D.next t l s = some t' → D'.next t l s = some t') : D'.Follows p Q t := by
  induction p generalizing t with
  | ret a => exact h
  | act l u k ih =>
    refine ⟨h.1.trans (congrFun heffect l), fun s => ?_⟩
    obtain ⟨t', ht, hf⟩ := h.2 s
    exact ⟨t', hnext _ _ _ _ ht, ih s hf⟩

/-- an action that reads a value -/
theorem follows_exchange {l : L} {r : σ → α} {Q : α → T → Prop} {t : T}
    (h : ∀ s, ∃ t', D.next t l s = some t' ∧ Q (r s) t') :
    D.Follows (Prog.exchange l r (D.effect l)) Q t := ⟨rfl, h⟩

/-- an action that leads to the same phase from every state -/
theorem follows_modify {l : L} {Q : Unit → T → Prop} {t t' : T}
    (hnext : ∀ s, D.next t l s = some t') (h : Q () t') :
    D.Follows (Prog.modify l (D.effect l)) Q t := ⟨rfl, fun s => ⟨t', hnext s, h⟩⟩

/-! ## pools of threads -/

variable (D) in
/-- every thread follows the typestate from its phase; `done` are the phases a thread may end in -/
def Typed (done : T → Prop) : List T → List (Prog L σ Unit) → Prop :=
  List.Forall₂ fun t p => D.Follows p (fun _ => done) t

variable {done : T → Prop} {phases : List T} {threads : List (Prog L σ Unit)}

theorem Typed.get (h : D.Typed done phases threads) {i : Nat} {p : Prog L σ Unit}
    (hi : threads[i]? = some p) : ∃ t, phases[i]? = some t ∧ D.Follows p (fun _ => done) t := by
  induction h generalizing i with
  | nil => simp at hi
  | cons ht hrest ih =>
    cases i with
    | zero =>
      obtain rfl := Option.some.inj hi
      exact ⟨_, rfl, ht⟩
    | succ i => exact ih hi

theorem Typed.set (h : D.Typed done phases threads) {i : Nat} {t : T} {p : Prog L σ Unit}
    (hp : D.Follows p (fun _ => done) t) : D.Typed done (phases.set i t) (threads.set i p) := by
  induction h generalizing i with
  | nil => exact .nil
  | cons ht hrest ih =>
    cases i with
    | zero => exact .cons hp hrest
    | succ i => exact .cons ht ih

theorem Typed.spawn (h : D.Typed done phases threads) {t : T} {p : Prog L σ Unit}
    (hp : D.Follows p (fun _ => done) t) : D.Typed done (phases ++ [t]) (threads ++ [p]) := by
  induction h with
  | nil => exact .cons hp .nil
  | cons ht hrest ih => exact .cons ht ih

theorem Typed.length_eq (h : D.Typed done phases threads) : phases.length = threads.length :=
  List.Forall₂.length_eq h

/-- a finished thread is in a last phase -/
theorem Typed.finished (h : D.Typed done phases threads) {i : Nat} {p : Prog L σ Unit}
    (hi : threads[i]? = some p) (hp : p.Finished) : ∃ t, phases[i]? = some t ∧ done t := by
  obtain ⟨t, ht, hf⟩ := h.get hi
  cases p with
  | ret a => exact ⟨t, ht, hf⟩
  | act l u k => exact hp.elim

/-- **One action of a pool**: nothing happens, or one thread makes a step its phase allows. -/
theorem Typed.fire (h : D.Typed done phases threads) (i : Nat) (s : σ) :
    Prog.fireThread i threads s = (threads, s) ∨
      ∃ t l t', phases[i]? = some t ∧ D.next t l s = some t' ∧
        (Prog.fireThread i threads s).2 = D.effect l s ∧
        D.Typed done (phases.set i t') (Prog.fireThread i threads s).1 := by
  unfold Prog.fireThread
  cases hi : threads[i]? with
  | none => exact .inl rfl
  | some p =>
    cases p with
    | ret a => exact .inl rfl
    | act l u k =>
      obtain ⟨t, ht, hu, hf⟩ := h.get hi
      obtain ⟨t', hnext, hk⟩ := hf s
      exact .inr ⟨t, l, t', ht, hnext, congrFun hu s, h.set hk⟩

/-! ## pools of calls -/

variable (D) in
/-- Every call follows the typestate from its phase to an end that its operation allows. -/
structure Served (Q : O → α → T → Prop) (ops : List O) (phases : List T)
    (calls : List (Prog L σ α)) : Prop where
  ops_length : ops.length = calls.length
  phases_length : phases.length = calls.length
  follows : ∀ {i : Nat} {op t p}, ops[i]? = some op → phases[i]? = some t → calls[i]? = some p →
    D.Follows p (Q op) t

section
variable {Q : O → α → T → Prop} {ops : List O} {calls : List (Prog L σ α)}

theorem Served.phase (h : D.Served Q ops phases calls) {i : Nat} {p : Prog L σ α}
    (hi : calls[i]? = some p) : ∃ op t, ops[i]? = some op ∧ phases[i]? = some t ∧
      D.Follows p (Q op) t := by
  have hlt : i < calls.length := (List.getElem?_eq_some_iff.mp hi).1
  have hop := List.getElem?_eq_getElem (h.ops_length ▸ hlt)
  have ht := List.getElem?_eq_getElem (h.phases_length ▸ hlt)
  exact ⟨_, _, hop, ht, h.follows hop ht hi⟩

theorem Served.set (h : D.Served Q ops phases calls) {i : Nat} {t : T} {p : Prog L σ α}
    (hp : ∀ op, ops[i]? = some op → D.Follows p (Q op) t) :
    D.Served Q ops (phases.set i t) (calls.set i p) where
  ops_length := by rw [h.ops_length, List.length_set]
  phases_length := by rw [List.length_set, List.length_set, h.phases_length]
  follows := by
    intro j op t' p' hop ht hp'
    by_cases hij : i = j
    · subst hij
      rw [List.getElem?_set_self'] at ht hp'
      obtain ⟨_, _, rfl⟩ := Option.map_eq_some_iff.mp ht
      obtain ⟨_, _, rfl⟩ := Option.map_eq_some_iff.mp hp'
      exact hp op hop
    · rw [List.getElem?_set_ne hij] at ht hp'
      exact h.follows hop ht hp'

theorem Served.spawn (h : D.Served Q ops phases calls) {op : O} {t : T} {p : Prog L σ α}
    (hp : D.Follows p (Q op) t) : D.Served Q (ops ++ [op]) (phases ++ [t]) (calls ++ [p]) where
  ops_length := by rw [List.length_append, List.length_append, h.ops_length]; rfl
  phases_length := by rw [List.length_append, List.length_append, h.phases_length]; rfl
  follows := by
    intro i op' t' p' hop ht hp'
    by_cases hi : i < calls.length
    · rw [List.getElem?_append_left (by rwa [h.ops_length])] at hop
      rw [List.getElem?_append_left (by rwa [h.phases_length])] at ht
      rw [List.getElem?_append_left hi] at hp'
      exact h.follows hop ht hp'
    · have hlast : i = calls.length := by
        have := (List.getElem?_eq_some_iff.mp hp').1
        rw [List.length_append] at this
        exact Nat.le_antisymm (Nat.le_of_lt_succ this) (Nat.le_of_not_lt hi)
      subst hlast
      rw [← h.ops_length, List.getElem?_concat_length] at hop
      rw [← h.phases_length, List.getElem?_concat_length] at ht
      rw [List.getElem?_concat_length] at hp'
      obtain rfl := Option.some.inj hop
      obtain rfl := Option.some.inj ht
      obtain rfl := Option.some.inj hp'
      exact hp

/-- a call that has returned -/
theorem Served.returned (h : D.Served Q ops phases calls) {i : Nat} {a : α}
    (hi : calls[i]?.bind Prog.result? = some a) :
    ∃ op t, ops[i]? = some op ∧ phases[i]? = some t ∧ Q op a t := by
  obtain ⟨p, hp, ha⟩ := Option.bind_eq_some_iff.mp hi
  obtain ⟨op, t, hop, ht, hf⟩ := h.phase hp
  cases p with
  | ret b =>
    obtain rfl : b = a := Option.some.inj ha
    exact ⟨op, t, hop, ht, hf⟩
  | act l u k => cases ha

/-- **One action of a pool of calls**: nothing happens, or one call makes a step its phase allows. -/
theorem Served.fire (h : D.Served Q ops phases calls) (i : Nat) (s : σ) :
    (Prog.fireThread i calls s = (calls, s) ∧ calls[i]?.bind Prog.next = none) ∨
      ∃ t l t', calls[i]?.bind Prog.next = some l ∧ phases[i]? = some t ∧
        D.next t l s = some t' ∧ (Prog.fireThread i calls s).2 = D.effect l s ∧
        D.Served Q ops (phases.set i t') (Prog.fireThread i calls s).1 := by
  unfold Prog.fireThread
  cases hi : calls[i]? with
  | none => exact .inl ⟨rfl, rfl⟩
  | some p =>
    cases p with
    | ret a => exact .inl ⟨rfl, rfl⟩
    | act l u k =>
      obtain ⟨op, t, hop, ht, hu, hf⟩ := h.phase hi
      obtain ⟨t', hnext, hk⟩ := hf s
      refine .inr ⟨t, l, t', rfl, ht, hnext, congrFun hu s, h.set ?_⟩
      intro op' hop'
      rw [hop] at hop'
      obtain rfl := Option.some.inj hop'
      exact hk

/-- A phase that no action leaves is the phase a call ends in. -/
theorem Follows.ends {p : Prog L σ α} {Q : α → T → Prop} {t : T} (h : D.Follows p Q t) (s : σ)
    (hstay : ∀ l s t', D.next t l s = some t' → t' = t) : ∃ a, Q a t := by
  induction p with
  | ret a => exact ⟨a, h⟩
  | act l u k ih =>
    obtain ⟨t', hnext, hk⟩ := h.2 s
    obtain rfl := hstay _ _ _ hnext
    exact ih s hk

/-- what the phase of a call, if no action leaves it, says about its operation -/
theorem Served.ends (h : D.Served Q ops phases calls) {i : Nat} {t : T} (hi : phases[i]? = some t)
    (s : σ) (hstay : ∀ l s t', D.next t l s = some t' → t' = t) :
    ∃ op a, ops[i]? = some op ∧ Q op a t := by
  have hlt : i < calls.length := h.phases_length ▸ (List.getElem?_eq_some_iff.mp hi).1
  obtain ⟨op, t', hop, ht', hf⟩ := h.phase (List.getElem?_eq_getElem hlt)
  rw [hi] at ht'
  obtain rfl := Option.some.inj ht'
  obtain ⟨a, ha⟩ := hf.ends s hstay
  exact ⟨op, a, hop, ha⟩

end

/-- a sum over the phases, when one of them changes -/
theorem sum_set {i : Nat} {t : T} (f : T → Nat) (hi : phases[i]? = some t) :
    ∃ rest, (phases.map f).sum = rest + f t ∧
      ∀ t', ((phases.set i t').map f).sum = rest + f t' := by
  induction phases generalizing i with
  | nil =>
    rw [List.getElem?_nil] at hi
    cases hi
  | cons u phases ih =>
    cases i with
    | zero =>
      obtain rfl : u = t := Option.some.inj hi
      refine ⟨(phases.map f).sum, ?_, fun t' => ?_⟩
      · rw [List.map_cons, List.sum_cons, Nat.add_comm]
      · rw [List.set_cons_zero, List.map_cons, List.sum_cons, Nat.add_comm]
    | succ i =>
      obtain ⟨rest, h1, h2⟩ := ih hi
      refine ⟨f u + rest, ?_, fun t' => ?_⟩
      · rw [List.map_cons, List.sum_cons, h1, Nat.add_assoc]
      · rw [List.set_cons_succ, List.map_cons, List.sum_cons, h2, Nat.add_assoc]

end Typestate
end Stepwise
