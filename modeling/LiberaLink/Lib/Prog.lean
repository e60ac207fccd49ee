import Mathlib.Data.List.Basic

/-!
# Programs cut into atomic actions

A sequential program over a shared state `σ` is a tree of atomic actions: each action carries a
label, changes the state, and goes on with a program chosen by the state it READ (the state before
its own change).

* `Prog.run p s`          the program alone, from `s`; `Prog.visited` the states it passes;
* `Prog.wp I p Q s`       every state the run passes satisfies `I`, and the result satisfies `Q`;
* `Prog.wp_bind`          sequencing, `Prog.wp_mono` weakening;
* `Prog.wp_run`           from the rule to the run.
-/

namespace Stepwise

/-- A program over the shared state `σ`, with actions labelled in `L` and a result in `α`. -/
inductive Prog (L σ α : Type) : Type where
  | ret (a : α)
  | act (l : L) (upd : σ → σ) (next : σ → Prog L σ α)

namespace Prog
variable {L σ α β γ : Type}

/-- one program after the other -/
def bind : Prog L σ α → (α → Prog L σ β) → Prog L σ β
  | .ret a, f => f a
  | .act l u k, f => .act l u fun s => (k s).bind f

instance : Monad (Prog L σ) where
  pure := .ret
  bind := bind

/-- an action that only changes the state -/
def modify (l : L) (u : σ → σ) : Prog L σ Unit := .act l u fun _ => .ret ()

/-- an action that reads a value and changes the state -/
def exchange (l : L) (r : σ → α) (u : σ → σ) : Prog L σ α := .act l u fun s => .ret (r s)

/-- an action that only reads -/
def read (l : L) (r : σ → α) : Prog L σ α := exchange l r id

/-- The program alone: its result and its last state. -/
def run : Prog L σ α → σ → α × σ
  | .ret a, s => (a, s)
  | .act _ u k, s => run (k s) (u s)

/-- the states the program passes, in order, without the first one -/
def visited : Prog L σ α → σ → List σ
  | .ret _, _ => []
  | .act _ u k, s => u s :: visited (k s) (u s)

/-- the label of the next action -/
def next : Prog L σ α → Option L
  | .ret _ => none
  | .act l _ _ => some l

theorem bind_eq (p : Prog L σ α) (f : α → Prog L σ β) : p >>= f = p.bind f := rfl
@[simp] theorem ret_bind (a : α) (f : α → Prog L σ β) : (Prog.ret a).bind f = f a := rfl
@[simp] theorem act_bind (l : L) (u : σ → σ) (k : σ → Prog L σ α) (f : α → Prog L σ β) :
    (Prog.act l u k).bind f = .act l u fun s => (k s).bind f := rfl

theorem bind_assoc (p : Prog L σ α) (f : α → Prog L σ β) (g : β → Prog L σ γ) :
    p >>= f >>= g = p >>= fun a => f a >>= g := by
  simp only [bind_eq]
  induction p with
  | ret a => rfl
  | act l u k ih => exact congrArg (Prog.act l u) (funext ih)

theorem run_bind (p : Prog L σ α) (f : α → Prog L σ β) (s : σ) :
    (p.bind f).run s = (f (p.run s).1).run (p.run s).2 := by
  induction p generalizing s with
  | ret a => rfl
  | act l u k ih => exact ih s (u s)

/-! ## Hoare rules for the program alone -/

/-- Every state the program passes satisfies `I`, and the result and the last state satisfy `Q`. -/
def wp (I : σ → Prop) : Prog L σ α → (α → σ → Prop) → σ → Prop
  | .ret a, Q, s => Q a s
  | .act _ u k, Q, s => I (u s) ∧ wp I (k s) Q (u s)

section
variable (I : σ → Prop)

@[simp] theorem wp_ret (a : α) (Q : α → σ → Prop) (s : σ) :
    wp I (.ret a : Prog L σ α) Q s ↔ Q a s := Iff.rfl

@[simp] theorem wp_act (l : L) (u : σ → σ) (k : σ → Prog L σ α) (Q : α → σ → Prop) (s : σ) :
    wp I (.act l u k) Q s ↔ I (u s) ∧ wp I (k s) Q (u s) := Iff.rfl

@[simp] theorem wp_modify (l : L) (u : σ → σ) (Q : Unit → σ → Prop) (s : σ) :
    wp I (modify l u) Q s ↔ I (u s) ∧ Q () (u s) := Iff.rfl

@[simp] theorem wp_exchange (l : L) (r : σ → α) (u : σ → σ) (Q : α → σ → Prop) (s : σ) :
    wp I (exchange l r u) Q s ↔ I (u s) ∧ Q (r s) (u s) := Iff.rfl

@[simp] theorem wp_read (l : L) (r : σ → α) (Q : α → σ → Prop) (s : σ) :
    wp I (read l r) Q s ↔ I s ∧ Q (r s) s := Iff.rfl

theorem wp_bind (p : Prog L σ α) (f : α → Prog L σ β) (Q : β → σ → Prop) (s : σ) :
    wp I (p.bind f) Q s ↔ wp I p (fun a s' => wp I (f a) Q s') s := by
  induction p generalizing s with
  | ret a => rfl
  | act l u k ih => exact and_congr Iff.rfl (ih s (u s))

@[simp] theorem wp_bind' (p : Prog L σ α) (f : α → Prog L σ β) (Q : β → σ → Prop) (s : σ) :
    wp I (p >>= f) Q s ↔ wp I p (fun a s' => wp I (f a) Q s') s := wp_bind I p f Q s

@[simp] theorem wp_pure (a : α) (Q : α → σ → Prop) (s : σ) :
    wp I (pure a : Prog L σ α) Q s ↔ Q a s := Iff.rfl

variable {I}

theorem wp_mono {p : Prog L σ α} {Q Q' : α → σ → Prop} {s : σ} (h : wp I p Q s)
    (hQ : ∀ a s', Q a s' → Q' a s') : wp I p Q' s := by
  induction p generalizing s with
  | ret a => exact hQ a s h
  | act l u k ih => exact ⟨h.1, ih s h.2⟩

theorem wp_trivial {p : Prog L σ α} {Q : α → σ → Prop} {s : σ} (hI : ∀ s, I s)
    (hQ : ∀ a s, Q a s) : wp I p Q s := by
  induction p generalizing s with
  | ret a => exact hQ a s
  | act l u k ih => exact ⟨hI _, ih s⟩

/-- the rule read off the run -/
theorem wp_iff {p : Prog L σ α} {Q : α → σ → Prop} {s : σ} :
    wp I p Q s ↔ (∀ s' ∈ p.visited s, I s') ∧ Q (p.run s).1 (p.run s).2 := by
  induction p generalizing s with
  | ret a => simp [visited, run]
  | act l u k ih =>
    rw [wp_act, ih]
    simp only [visited, run, List.forall_mem_cons, and_assoc]

theorem wp_run {p : Prog L σ α} {Q : α → σ → Prop} {s : σ} (h : wp I p Q s) :
    Q (p.run s).1 (p.run s).2 := (wp_iff.mp h).2

theorem wp_visited {p : Prog L σ α} {Q : α → σ → Prop} {s : σ} (h : wp I p Q s) :
    ∀ s' ∈ p.visited s, I s' := (wp_iff.mp h).1

/-- the result is the one of the run -/
theorem wp_self {p : Prog L σ α} {Q : α → σ → Prop} {s : σ} (h : wp I p Q s) :
    wp I p (fun a s' => Q a s' ∧ p.run s = (a, s')) s :=
  wp_iff.mpr ⟨wp_visited h, wp_run h, rfl⟩

/-- two facts about one program -/
theorem wp_and {p : Prog L σ α} {Q Q' : α → σ → Prop} {s : σ} (h : wp I p Q s) (h' : wp I p Q' s) :
    wp I p (fun a s' => Q a s' ∧ Q' a s') s :=
  wp_iff.mpr ⟨wp_visited h, wp_run h, wp_run h'⟩

end
end Prog
end Stepwise
