import LiberaLink.Lib.Rely

/-!
# Two programs side by side

Two programs run over the same state, and at every moment the one or the other makes its next action.
Each was proved against the steps that the other one guarantees, so that the pair is proved.

* `Prog.advance`       the next action of a program; `holds_alone` its run without the other one;
* `Pair`, `Pair.run`   the two and their state, and the run of a schedule;
* `Pair.Relies`        what a program may rely on;
* `Pair.holds_run`     **both keep their proof along every schedule**, and so does an invariant of
                       their guarantees.
-/

namespace Stepwise
namespace Prog
variable {L M σ α β : Type}

/-- the next action of a program; one that has returned makes none -/
def advance : Prog L σ α → σ → Prog L σ α × σ
  | .ret a, s => (.ret a, s)
  | .act _ u k, s => (k s, u s)

theorem holds_advance {rely : σ → σ → Prop} {guar : L → σ → σ → Prop} (hrefl : ∀ s, rely s s)
    {p : Prog L σ α} {Q : α → σ → Prop} {s : σ} (h : Holds rely guar p Q s) :
    Holds rely guar (p.advance s).1 Q (p.advance s).2 ∧
      ((p.advance s).2 = s ∨ ∃ l, guar l s (p.advance s).2) := by
  cases p with
  | ret a => exact ⟨h, .inl rfl⟩
  | act l u k => exact ⟨(holds_step hrefl h).2, .inr ⟨l, (holds_step hrefl h).1⟩⟩

/-- the program without the others: its result, and what its actions make of the state -/
theorem holds_alone {rely : σ → σ → Prop} {guar : L → σ → σ → Prop} {keeps : σ → σ → Prop}
    (hrefl : ∀ s, rely s s) (hkrefl : ∀ s, keeps s s)
    (hktrans : ∀ {s s' s''}, keeps s s' → keeps s' s'' → keeps s s'')
    (hguar : ∀ {l s s'}, guar l s s' → keeps s s') {p : Prog L σ α} {Q : α → σ → Prop} {s : σ}
    (h : Holds rely guar p Q s) : Q (p.run s).1 (p.run s).2 ∧ keeps s (p.run s).2 := by
  induction p generalizing s with
  | ret a => exact ⟨h, hkrefl s⟩
  | act l u k ih =>
    obtain ⟨hstep, hrest⟩ := holds_step hrefl h
    obtain ⟨hQ, hkeeps⟩ := ih s hrest
    exact ⟨hQ, hktrans (hguar hstep) hkeeps⟩

end Prog

open Prog

/-- two programs and the state they share -/
structure Pair (L M σ α β : Type) where
  left : Prog L σ α
  right : Prog M σ β
  state : σ

namespace Pair
variable {L M σ α β : Type}

/-- which of the two makes the next action -/
inductive Side where
  | left
  | right

def step (c : Pair L M σ α β) : Side → Pair L M σ α β
  | .left => { c with left := (c.left.advance c.state).1, state := (c.left.advance c.state).2 }
  | .right => { c with right := (c.right.advance c.state).1, state := (c.right.advance c.state).2 }

def run (c : Pair L M σ α β) (schedule : List Side) : Pair L M σ α β := schedule.foldl step c

/-- what one program relies on: it may be nothing, and it adds up -/
structure Relies (rely : σ → σ → Prop) (Q : α → σ → Prop) : Prop where
  refl : ∀ s, rely s s
  trans : ∀ {s s' s''}, rely s s' → rely s' s'' → rely s s''
  stable : ∀ {a s s'}, Q a s → rely s s' → Q a s'

variable {relyL relyR : σ → σ → Prop} {guarL : L → σ → σ → Prop} {guarR : M → σ → σ → Prop}
  {Q : α → σ → Prop} {R : β → σ → Prop} {I : σ → Prop}

/-- Along every schedule both programs keep what was proved of them, and the state keeps what every
action they guarantee keeps. -/
theorem holds_run (hl : Relies relyL Q) (hr : Relies relyR R)
    (hleft : ∀ {l s s'}, guarL l s s' → relyR s s') (hright : ∀ {l s s'}, guarR l s s' → relyL s s')
    (hkeepL : ∀ {l s s'}, guarL l s s' → I s → I s') (hkeepR : ∀ {l s s'}, guarR l s s' → I s → I s')
    (schedule : List Side) {c : Pair L M σ α β} (hI : I c.state)
    (hp : Holds relyL guarL c.left Q c.state) (hq : Holds relyR guarR c.right R c.state) :
    I (c.run schedule).state ∧ Holds relyL guarL (c.run schedule).left Q (c.run schedule).state ∧
      Holds relyR guarR (c.run schedule).right R (c.run schedule).state := by
  induction schedule generalizing c with
  | nil => exact ⟨hI, hp, hq⟩
  | cons side schedule ih =>
    rw [run, List.foldl_cons]
    cases side with
    | left =>
      obtain ⟨hp', hsame | ⟨l, hguar⟩⟩ := holds_advance hl.refl hp
      · exact ih (c := c.step .left) (by rw [step, hsame]; exact hI) hp' (by rw [step, hsame]; exact hq)
      · have hq' : Holds relyR guarR c.right R (c.step .left).state := by
          refine holds_stable ?_ ?_ hq (hleft hguar)
          · exact hr.trans
          · exact hr.stable
        exact ih (c := c.step .left) (hkeepL hguar hI) hp' hq'
    | right =>
      obtain ⟨hq', hsame | ⟨l, hguar⟩⟩ := holds_advance hr.refl hq
      · exact ih (c := c.step .right) (by rw [step, hsame]; exact hI) (by rw [step, hsame]; exact hp) hq'
      · have hp' : Holds relyL guarL c.left Q (c.step .right).state := by
          refine holds_stable ?_ ?_ hp (hright hguar)
          · exact hl.trans
          · exact hl.stable
        exact ih (c := c.step .right) (hkeepR hguar hI) hp' hq'

end Pair
end Stepwise
