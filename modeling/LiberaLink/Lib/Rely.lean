import LiberaLink.Lib.Prog

/-!
# A program among other threads

Other threads step in before each action of a program.  `rely` says what they may do to the state,
`guar` what an action of the program does, by its label.

* `Prog.Holds rely guar p Q s`   from `s` on the program keeps `guar`, and its result satisfies `Q`;
* `holds_bind`, `holds_mono`     sequencing and weakening;
* `holds_when`, `holds_each`     conditions and loops;
* `holds_stable`, `holds_step`   a step of the others, a step of the program;
* `Prog.Acts`, `holds_of_acts`   what every action keeps;
* `Prog.Eventually`              the program comes to a goal before it returns;
* `Prog.HoldsIf`                 the same as `Holds` while each action meets an assumption;
* `Prog.lift`, `acts_lift`       a program on a part of the state.
-/

namespace Stepwise
namespace Prog
variable {L M σ τ α β : Type}

def Holds (rely : σ → σ → Prop) (guar : L → σ → σ → Prop) :
    Prog L σ α → (α → σ → Prop) → σ → Prop
  | .ret a, Q, s => Q a s
  | .act l u k, Q, s => ∀ s', rely s s' → guar l s' (u s') ∧ Holds rely guar (k s') Q (u s')

section
variable {rely : σ → σ → Prop} {guar : L → σ → σ → Prop}

theorem holds_bind {p : Prog L σ α} {f : α → Prog L σ β} {Q : β → σ → Prop} {s : σ} :
    Holds rely guar (p >>= f) Q s ↔ Holds rely guar p (fun a s' => Holds rely guar (f a) Q s') s := by
  rw [bind_eq]
  induction p generalizing s with
  | ret a => rfl
  | act l u k ih =>
    simp only [act_bind, Holds]
    exact forall_congr' fun s' => imp_congr_right fun _ => and_congr_right fun _ => ih s'

theorem holds_mono {p : Prog L σ α} {Q Q' : α → σ → Prop} {s : σ} (h : Holds rely guar p Q s)
    (hQ : ∀ a s', Q a s' → Q' a s') : Holds rely guar p Q' s := by
  induction p generalizing s with
  | ret a => exact hQ a s h
  | act l u k ih =>
    intro s' hr
    exact ⟨(h s' hr).1, ih s' (h s' hr).2⟩

/-- one program after the other, with the assertion between them -/
theorem holds_seq {p : Prog L σ α} {f : α → Prog L σ β} {R : α → σ → Prop} {Q : β → σ → Prop} {s : σ}
    (hp : Holds rely guar p R s) (hf : ∀ a s', R a s' → Holds rely guar (f a) Q s') :
    Holds rely guar (p >>= f) Q s := holds_bind.mpr (holds_mono hp hf)

/-- what holds before the others step in holds after it -/
theorem holds_stable (htrans : ∀ {s s' s''}, rely s s' → rely s' s'' → rely s s'')
    {p : Prog L σ α} {Q : α → σ → Prop} (hQ : ∀ {a s s'}, Q a s → rely s s' → Q a s') {s s' : σ}
    (h : Holds rely guar p Q s) (hr : rely s s') : Holds rely guar p Q s' := by
  cases p with
  | ret a => exact hQ h hr
  | act l u k =>
    intro s'' hr'
    exact h s'' (htrans hr hr')

theorem holds_step (hrefl : ∀ s, rely s s) {l : L} {u : σ → σ} {k : σ → Prog L σ α}
    {Q : α → σ → Prop} {s : σ} (h : Holds rely guar (.act l u k) Q s) :
    guar l s (u s) ∧ Holds rely guar (k s) Q (u s) := h s (hrefl s)

end

/-! ## statements -/

/-- a statement under a condition -/
def when (c : Bool) (p : Prog L σ Unit) : Prog L σ Unit := if c then p else pure ()

/-- a statement for each entry of a list -/
def each {γ : Type} (f : γ → Prog L σ Unit) : List γ → Prog L σ Unit
  | [] => pure ()
  | x :: xs => do
    f x
    each f xs

section
variable {rely : σ → σ → Prop} {guar : L → σ → σ → Prop} {R : σ → Prop}

theorem holds_when {c : Bool} {p : Prog L σ Unit} {s : σ} (hs : R s)
    (hp : c = true → Holds rely guar p (fun _ s' => R s') s) :
    Holds rely guar (when c p) (fun _ s' => R s') s := by
  unfold when
  split
  · rename_i hc
    exact hp hc
  · exact hs

/-- the rule for a loop over these entries, with its invariant -/
theorem holds_each_mem {γ : Type} {f : γ → Prog L σ Unit} (xs : List γ) (hf : ∀ x ∈ xs, ∀ s, R s →
    Holds rely guar (f x) (fun _ s' => R s') s) {s : σ} (hs : R s) :
    Holds rely guar (each f xs) (fun _ s' => R s') s := by
  induction xs generalizing s with
  | nil => exact hs
  | cons x xs ih =>
    refine holds_seq (hf x List.mem_cons_self s hs) fun _ s' => ?_
    exact ih fun y hy => hf y (List.mem_cons_of_mem _ hy)

theorem holds_each {γ : Type} {f : γ → Prog L σ Unit} (hf : ∀ x s, R s →
    Holds rely guar (f x) (fun _ s' => R s') s) (xs : List γ) {s : σ} (hs : R s) :
    Holds rely guar (each f xs) (fun _ s' => R s') s :=
  holds_each_mem xs (fun x _ => hf x) hs

end

/-! ## what every action keeps -/

/-- Every action that the program may come to satisfies `P`. -/
def Acts (P : L → (σ → σ) → Prop) : Prog L σ α → Prop
  | .ret _ => True
  | .act l u k => P l u ∧ ∀ s, Acts P (k s)

section
variable {P : L → (σ → σ) → Prop}

theorem acts_bind {p : Prog L σ α} {f : α → Prog L σ β} (hp : Acts P p) (hf : ∀ a, Acts P (f a)) :
    Acts P (p >>= f) := by
  rw [bind_eq]
  induction p with
  | ret a => exact hf a
  | act l u k ih => exact ⟨hp.1, fun s => ih s (hp.2 s)⟩

theorem acts_when {c : Bool} {p : Prog L σ Unit} (hp : Acts P p) : Acts P (when c p) := by
  unfold when
  split
  · exact hp
  · trivial

theorem acts_each {γ : Type} {f : γ → Prog L σ Unit} (hf : ∀ x, Acts P (f x)) (xs : List γ) :
    Acts P (each f xs) := by
  induction xs with
  | nil => trivial
  | cons x xs ih => exact acts_bind (hf x) fun _ => ih

theorem acts_modify {l : L} {u : σ → σ} (h : P l u) : Acts P (modify l u) := ⟨h, fun _ => trivial⟩

theorem acts_read {l : L} {r : σ → α} (h : P l id) : Acts P (read l r) := ⟨h, fun _ => trivial⟩

/-- what every action keeps is kept throughout, if the others keep it too -/
theorem holds_of_acts {rely : σ → σ → Prop} {guar : L → σ → σ → Prop} {R : σ → Prop}
    {p : Prog L σ α} {s : σ} (hacts : Acts P p) (hrely : ∀ {s s'}, R s → rely s s' → R s')
    (hP : ∀ l u, P l u → ∀ s, R s → guar l s (u s) ∧ R (u s)) (hs : R s) :
    Holds rely guar p (fun _ s' => R s') s := by
  induction p generalizing s with
  | ret a => exact hs
  | act l u k ih =>
    intro s' hr
    obtain ⟨h1, h2⟩ := hP l u hacts.1 s' (hrely hs hr)
    exact ⟨h1, ih s' (hacts.2 s') h2⟩

end

/-! ## what a program comes to -/

/-- Whatever the others do, the program comes to a point that meets the goal before it returns. -/
inductive Eventually (rely : σ → σ → Prop) (goal : Prog L σ α → Prop) : Prog L σ α → σ → Prop where
  | now {p : Prog L σ α} {s : σ} (h : goal p) : Eventually rely goal p s
  | act {l : L} {u : σ → σ} {k : σ → Prog L σ α} {s : σ}
      (h : ∀ s', rely s s' → Eventually rely goal (k s') (u s')) : Eventually rely goal (.act l u k) s

section
variable {rely : σ → σ → Prop} {goal : Prog L σ α → Prop} {p : Prog L σ α} {s s' : σ}

theorem Eventually.stable (htrans : ∀ {s s' s''}, rely s s' → rely s' s'' → rely s s'')
    (h : Eventually rely goal p s) (hr : rely s s') : Eventually rely goal p s' := by
  cases h with
  | now hgoal => exact .now hgoal
  | act hk => exact .act fun s'' hr' => hk s'' (htrans hr hr')

/-- a step of the program brings it to its goal or closer to it -/
theorem Eventually.step (hrefl : ∀ s, rely s s) {l : L} {u : σ → σ} {k : σ → Prog L σ α}
    (h : Eventually rely goal (.act l u k) s) : goal (.act l u k) ∨ Eventually rely goal (k s) (u s) := by
  cases h with
  | now hgoal => exact .inl hgoal
  | act hk => exact .inr (hk s (hrefl s))

theorem eventually_exchange {l : L} {r : σ → β} {u : σ → σ} {f : β → Prog L σ α}
    (h : ∀ s', rely s s' → Eventually rely goal (f (r s')) (u s')) :
    Eventually rely goal (exchange l r u >>= f) s := .act h

theorem eventually_modify {l : L} {u : σ → σ} {f : Unit → Prog L σ α}
    (h : ∀ s', rely s s' → Eventually rely goal (f ()) (u s')) :
    Eventually rely goal (modify l u >>= f) s := .act h

theorem Eventually.not_ret {a : α} (hgoal : ¬ goal (.ret a)) : ¬ Eventually rely goal (.ret a) s := by
  intro h
  cases h with
  | now hret => exact hgoal hret

end

/-! ## under an assumption -/

/-- `Holds`, as long as each action meets the assumption when the program comes to it. -/
def HoldsIf (ok : Prog L σ α → σ → Prop) (rely : σ → σ → Prop) (guar : L → σ → σ → Prop) :
    Prog L σ α → (α → σ → Prop) → σ → Prop
  | .ret a, Q, s => Q a s
  | .act l u k, Q, s => ∀ s', rely s s' → ok (.act l u k) s' →
      guar l s' (u s') ∧ HoldsIf ok rely guar (k s') Q (u s')

section
variable {rely : σ → σ → Prop} {guar : L → σ → σ → Prop} {ok : Prog L σ α → σ → Prop}

theorem Holds.holdsIf {p : Prog L σ α} {Q : α → σ → Prop} {s : σ} (h : Holds rely guar p Q s) :
    HoldsIf ok rely guar p Q s := by
  induction p generalizing s with
  | ret a => exact h
  | act l u k ih =>
    intro s' hr _
    exact ⟨(h s' hr).1, ih s' (h s' hr).2⟩

/-- a part that needs no assumption comes first -/
theorem holdsIf_seq {p : Prog L σ β} {f : β → Prog L σ α} {R : β → σ → Prop} {Q : α → σ → Prop} {s : σ}
    (hp : Holds rely guar p R s) (hf : ∀ b s', R b s' → HoldsIf ok rely guar (f b) Q s') :
    HoldsIf ok rely guar (p >>= f) Q s := by
  rw [bind_eq]
  induction p generalizing s with
  | ret b => exact hf b s hp
  | act l u k ih =>
    intro s' hr _
    exact ⟨(hp s' hr).1, ih s' (hp s' hr).2⟩

theorem holdsIf_stable (htrans : ∀ {s s' s''}, rely s s' → rely s' s'' → rely s s'')
    {p : Prog L σ α} {Q : α → σ → Prop} (hQ : ∀ {a s s'}, Q a s → rely s s' → Q a s') {s s' : σ}
    (h : HoldsIf ok rely guar p Q s) (hr : rely s s') : HoldsIf ok rely guar p Q s' := by
  cases p with
  | ret a => exact hQ h hr
  | act l u k =>
    intro s'' hr' hok
    exact h s'' (htrans hr hr') hok

theorem holdsIf_step (hrefl : ∀ s, rely s s) {l : L} {u : σ → σ} {k : σ → Prog L σ α}
    {Q : α → σ → Prop} {s : σ} (h : HoldsIf ok rely guar (.act l u k) Q s) (hok : ok (.act l u k) s) :
    guar l s (u s) ∧ HoldsIf ok rely guar (k s) Q (u s) := h s (hrefl s) hok

end

/-! ## a part of the state -/

/-- The program on the part of the state that `get` reads and `set` writes. -/
def lift (get : τ → σ) (set : σ → τ → τ) (label : L → M) : Prog L σ α → Prog M τ α
  | .ret a => .ret a
  | .act l u k => .act (label l) (fun t => set (u (get t)) t) fun t => lift get set label (k (get t))

theorem acts_lift {get : τ → σ} {set : σ → τ → τ} {label : L → M} {P : L → (σ → σ) → Prop}
    {P' : M → (τ → τ) → Prop} (h : ∀ l u, P l u → P' (label l) fun t => set (u (get t)) t)
    {p : Prog L σ α} (hp : Acts P p) : Acts P' (p.lift get set label) := by
  induction p with
  | ret a => trivial
  | act l u k ih => exact ⟨h l u hp.1, fun t => ih (get t) (hp.2 (get t))⟩

end Prog
end Stepwise
