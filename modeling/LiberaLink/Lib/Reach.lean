import Mathlib.Data.List.Induction

/-!
# Runs of a deterministic machine fed with inputs

`Reach step ok s₀ s`: from `s₀` some finite list of inputs, each of which satisfied `ok` at the
state it met, leads to `s`.  `ok := fun _ _ => True` gives every run.

* `Reach.invariant`  what one allowed step preserves holds in every state reached;
* `Reach.of_forall`, `Reach.of_list`   a concrete list of inputs is a run.

`Along step P s is`: `P` holds of `s` and after each of the inputs `is`.

* `along_append`, `Along.of_step`   one list after the other, steps that keep `P`.

`Allowed step ok s is`: each of the inputs `is` satisfies `ok` at the state it meets.

* `allowed_append`      one list after the other;
* `Allowed.history`     what one allowed step preserves, of the state and the inputs so far.

`Path R s es t`: the labelled transition relation `R` leads from `s` to `t` over the labels `es`.

* `path_append`, `path_concat`   one run after the other, and one more step.

`EachAfter P log`: every entry of `log` stands to what came before it as `P` says.
-/

namespace Stepwise
variable {σ ι : Type}

inductive Reach (step : σ → ι → σ) (ok : σ → ι → Prop) (s₀ : σ) : σ → Prop where
  | start : Reach step ok s₀ s₀
  | next {s : σ} (h : Reach step ok s₀ s) (i : ι) (hi : ok s i) : Reach step ok s₀ (step s i)

variable {step : σ → ι → σ} {ok ok' : σ → ι → Prop} {s₀ s : σ}

theorem Reach.invariant {P : σ → Prop} (h : Reach step ok s₀ s) (h0 : P s₀)
    (hstep : ∀ s i, P s → ok s i → P (step s i)) : P s := by
  induction h with
  | start => exact h0
  | next _ i hi ih => exact hstep _ i ih hi

theorem Reach.of_forall (is : List ι) (hok : ∀ s, ∀ i ∈ is, ok s i) :
    Reach step ok s₀ (is.foldl step s₀) := by
  induction is using List.reverseRecOn with
  | nil => exact .start
  | append_singleton is i ih =>
    rw [List.foldl_append]
    exact .next (ih fun s j hj => hok s j (List.mem_append_left _ hj)) i
      (hok _ i (List.mem_append_right _ List.mem_cons_self))

theorem Reach.of_list (is : List ι) : Reach step (fun _ _ => True) s₀ (is.foldl step s₀) :=
  Reach.of_forall is fun _ _ _ => trivial

/-! ## along a list of inputs -/

def Along (step : σ → ι → σ) (P : σ → Prop) : σ → List ι → Prop
  | s, [] => P s
  | s, i :: is => P s ∧ Along step P (step s i) is

section
variable {P Q : σ → Prop}

theorem Along.first {is : List ι} (h : Along step P s is) : P s := by
  cases is with
  | nil => exact h
  | cons i is => exact h.1

theorem along_append {a b : List ι} :
    Along step P s (a ++ b) ↔ Along step P s a ∧ Along step P (a.foldl step s) b := by
  induction a generalizing s with
  | nil => exact ⟨fun h => ⟨h.first, h⟩, fun h => h.2⟩
  | cons i a ih =>
    rw [List.cons_append, Along, Along, ih, List.foldl_cons, and_assoc]

theorem Along.last {is : List ι} (h : Along step P s is) : P (is.foldl step s) := by
  have h' : Along step P s (is ++ []) := by rwa [List.append_nil]
  exact (along_append.mp h').2

theorem Along.mono {is : List ι} (h : Along step P s is) (hPQ : ∀ s, P s → Q s) :
    Along step Q s is := by
  induction is generalizing s with
  | nil => exact hPQ s h
  | cons i is ih => exact ⟨hPQ s h.1, ih h.2⟩

/-- what the inputs of a list keep holds along it -/
theorem Along.of_step {is : List ι} (h0 : P s) (hstep : ∀ s, ∀ i ∈ is, P s → P (step s i)) :
    Along step P s is := by
  induction is generalizing s with
  | nil => exact h0
  | cons i is ih =>
    exact ⟨h0, ih (hstep s i List.mem_cons_self h0) fun s j hj =>
      hstep s j (List.mem_cons_of_mem _ hj)⟩

end

/-! ## allowed inputs -/

def Allowed (step : σ → ι → σ) (ok : σ → ι → Prop) : σ → List ι → Prop
  | _, [] => True
  | s, i :: is => ok s i ∧ Allowed step ok (step s i) is

instance Allowed.decidable [∀ s i, Decidable (ok s i)] :
    (s : σ) → (is : List ι) → Decidable (Allowed step ok s is)
  | _, [] => .isTrue trivial
  | s, i :: is =>
    have := Allowed.decidable (step s i) is
    inferInstanceAs (Decidable (ok s i ∧ Allowed step ok (step s i) is))

theorem allowed_append {a b : List ι} :
    Allowed step ok s (a ++ b) ↔ Allowed step ok s a ∧ Allowed step ok (a.foldl step s) b := by
  induction a generalizing s with
  | nil => exact ⟨fun h => ⟨trivial, h⟩, fun h => h.2⟩
  | cons i a ih =>
    rw [List.cons_append, Allowed, Allowed, ih, List.foldl_cons, and_assoc]

theorem Allowed.and {is : List ι} (h : Allowed step ok s is) (h' : Allowed step ok' s is) :
    Allowed step (fun s i => ok s i ∧ ok' s i) s is := by
  induction is generalizing s with
  | nil => exact trivial
  | cons i is ih => exact ⟨⟨h.1, h'.1⟩, ih h.2 h'.2⟩

theorem Allowed.mono {is : List ι} (h : Allowed step ok s is) (hok : ∀ s i, ok s i → ok' s i) :
    Allowed step ok' s is := by
  induction is generalizing s with
  | nil => exact trivial
  | cons i is ih => exact ⟨hok s i h.1, ih h.2⟩

theorem Allowed.history {P : List ι → σ → Prop} {is : List ι} (h : Allowed step ok s is)
    (h0 : P [] s) (hstep : ∀ before s i, P before s → ok s i → P (before ++ [i]) (step s i)) :
    P is (is.foldl step s) := by
  induction is using List.reverseRecOn with
  | nil => exact h0
  | append_singleton is i ih =>
    obtain ⟨hbefore, hi, _⟩ := allowed_append.mp h
    rw [List.foldl_append]
    exact hstep is _ i (ih hbefore) hi

/-! ## runs of a labelled transition relation -/

def Path {S E : Type} (R : S → E → S → Prop) : S → List E → S → Prop
  | s, [], t => s = t
  | s, e :: es, t => ∃ m, R s e m ∧ Path R m es t

section
variable {S E : Type} {R : S → E → S → Prop} {s t : S}

theorem Path.refl (s : S) : Path R s [] s := rfl

theorem path_append {a b : List E} : Path R s (a ++ b) t ↔ ∃ m, Path R s a m ∧ Path R m b t := by
  induction a generalizing s with
  | nil =>
    constructor
    · intro h
      exact ⟨s, rfl, h⟩
    · rintro ⟨m, rfl, h⟩
      exact h
  | cons e a ih =>
    rw [List.cons_append, Path]
    constructor
    · rintro ⟨m, hm, h⟩
      obtain ⟨m', h1, h2⟩ := ih.mp h
      exact ⟨m', ⟨m, hm, h1⟩, h2⟩
    · rintro ⟨m', ⟨m, hm, h1⟩, h2⟩
      exact ⟨m, hm, ih.mpr ⟨m', h1, h2⟩⟩

theorem path_concat {es : List E} {e : E} :
    Path R s (es ++ [e]) t ↔ ∃ m, Path R s es m ∧ R m e t := by
  rw [path_append]
  constructor
  · rintro ⟨m, h, _, he, rfl⟩
    exact ⟨m, h, he⟩
  · rintro ⟨m, h, he⟩
    exact ⟨m, h, t, he, rfl⟩

theorem Path.concat {es : List E} {e : E} {m : S} (h : Path R s es m) (he : R m e t) :
    Path R s (es ++ [e]) t := path_concat.mpr ⟨m, h, he⟩

end
/-! ## each entry of a list and what came before it -/

def EachAfter {E : Type} (P : List E → E → Prop) (log : List E) : Prop :=
  ∀ before e after, log = before ++ e :: after → P before e

theorem eachAfter_nil {E : Type} {P : List E → E → Prop} : EachAfter P [] := by
  intro before e after h
  simp at h

theorem EachAfter.concat {E : Type} {P : List E → E → Prop} {log : List E} {e : E}
    (h : EachAfter P log) (he : P log e) : EachAfter P (log ++ [e]) := by
  intro before x after hsplit
  rcases List.eq_nil_or_concat after with rfl | ⟨rest, y, rfl⟩
  · obtain ⟨rfl, h2⟩ := List.append_inj' hsplit rfl
    obtain rfl : e = x := by simpa using h2
    exact he
  · have h' : log ++ [e] = (before ++ x :: rest) ++ [y] := by simpa using hsplit
    exact h before x rest (List.append_inj' h' rfl).1

end Stepwise
