import LiberaLink.Lib.Prog

/-!
# A program and a request to cancel it

`Prog.weave p es s` runs `p` with the actions `es` of another thread between its own.  The other
thread asks the program to stop: it raises a flag and then takes the program's published state back.
The program polls the flag, clears it, and publishes; whether the request is lost depends on where it
lands among these.

* `Cancellable`       what polls, clears and publishes, and how two executions may differ;
* `Obeys`             the program follows the protocol, action by action, from a state;
* `obeys_bind`        one program after the other;
* `weave_on_iff`      **when a request is lost**.
-/

namespace Stepwise
namespace Prog
variable {L σ α β : Type}

/-- the events that are due before the next action -/
def fire : List (Nat × (σ → σ)) → σ → σ
  | (0, e) :: es, s => fire es (e s)
  | _, s => s

/-- the events that are left after the next action -/
def later : List (Nat × (σ → σ)) → List (Nat × (σ → σ))
  | (0, _) :: es => later es
  | (n + 1, e) :: es => (n, e) :: es
  | [] => []

/-- The program with the actions of another thread between its own, each after as many actions of the
program as its number says, counted from the event before it; what is left comes after the end. -/
def weave : Prog L σ α → List (Nat × (σ → σ)) → σ → α × σ
  | .ret a, es, s => (a, es.foldl (fun s e => e.2 s) s)
  | .act _ u k, es, s => weave (k (fire es s)) (later es) (u (fire es s))

/-- the labels of the actions the program makes alone -/
def labels : Prog L σ α → σ → List L
  | .ret _, _ => []
  | .act l u k, s => l :: labels (k s) (u s)

theorem weave_nil (p : Prog L σ α) (s : σ) : p.weave [] s = p.run s := by
  induction p generalizing s with
  | ret a => rfl
  | act l u k ih => exact ih s (u s)

end Prog

/-- What the actions of a program have to do with a request to stop: which ones poll, clear and
publish; the flag; whether the published state is on; and two degrees of likeness between the state of
the program alone and its state with the request. -/
structure Cancellable (L σ : Type) where
  poll : L → Bool
  clear : L → Bool
  publish : L → Bool
  flag : σ → Bool
  on : σ → Prop
  /-- alike but for what the request may have changed -/
  rel : σ → σ → Prop
  /-- alike but for the flag -/
  agree : σ → σ → Prop
  poll_not_clear : ∀ {l}, poll l = true → clear l = false
  rel_of_agree : ∀ {s s'}, agree s s' → rel s s'
  on_of_agree : ∀ {s s'}, agree s s' → (on s' ↔ on s)

namespace Cancellable
variable {L σ α β : Type} (C : Cancellable L σ)

/-- A program that has seen the flag: it neither publishes nor clears, and when it returns `a`, with
`off` saying whether it has taken the published state back, `F a off` holds. -/
def Settles : Prog L σ α → (α → Prop → Prop) → Prop → Prop
  | .ret a, F, off => F a off
  | .act l u k, F, off => C.publish l = false ∧ C.clear l = false ∧
      (∀ s, C.flag s = true → C.flag (u s) = true) ∧ (∀ s, ¬ C.on s → ¬ C.on (u s)) ∧
      ∀ s, C.flag s = true → Settles (k s) F (off ∨ ∀ s, ¬ C.on (u s))

/-- What one action has to respect, at the state `s` of the program alone. -/
structure Respects (l : L) (u : σ → σ) (k : σ → Prog L σ α) (F : α → Prop → Prop) (s : σ) : Prop where
  rel : ∀ s', C.rel s s' → C.rel (u s) (u s')
  agree : ∀ s', C.agree s s' → C.agree (u s) (u s')
  publish : C.publish l = true → ∀ s', C.rel s s' → C.agree (u s) (u s')
  off : C.publish l = false → ∀ s', ¬ C.on s' → ¬ C.on (u s')
  cleared : C.clear l = true → ∀ s', C.flag (u s') = false
  kept : C.clear l = false → ∀ s', C.flag s' = true → C.flag (u s') = true
  same : ∀ s', C.rel s s' → C.flag s' = C.flag s → C.flag (u s') = C.flag (u s)
  next : ∀ s', C.rel s s' → C.poll l = false ∨ C.flag s' = C.flag s → k s' = k s
  seen : C.poll l = true → ∀ s', C.rel s s' → C.flag s' = true → C.Settles (k s') F False

/-- The program follows the protocol from the state `s`; what it returns after it has seen the flag
satisfies `F`. -/
def Obeys : Prog L σ α → (α → Prop → Prop) → σ → Prop
  | .ret _, _, _ => True
  | .act l u k, F, s => C.Respects l u k F s ∧ Obeys (k s) F (u s)

variable {C}

theorem settles_bind {p : Prog L σ α} {f : α → Prog L σ β} {F : β → Prop → Prop} {off : Prop} :
    C.Settles (p.bind f) F off ↔ C.Settles p (fun a o => C.Settles (f a) F o) off := by
  induction p generalizing off with
  | ret a => rfl
  | act l u k ih =>
    simp only [Prog.act_bind, Settles]
    exact and_congr_right fun _ => and_congr_right fun _ => and_congr_right fun _ =>
      and_congr_right fun _ => forall_congr' fun s => imp_congr_right fun _ => ih s

/-- **One program after the other.** -/
theorem obeys_bind {p : Prog L σ α} {f : α → Prog L σ β} {F : β → Prop → Prop} {s : σ}
    (hp : C.Obeys p (fun a o => C.Settles (f a) F o) s)
    (hf : C.Obeys (f (p.run s).1) F (p.run s).2) : C.Obeys (p.bind f) F s := by
  induction p generalizing s with
  | ret a => exact hf
  | act l u k ih =>
    obtain ⟨hr, hp⟩ := hp
    refine ⟨⟨hr.rel, hr.agree, hr.publish, hr.off, hr.cleared, hr.kept, hr.same, fun s' h hn => ?_,
      fun hl s' h hs => ?_⟩, ih s hp hf⟩
    · show (k s').bind f = (k s).bind f
      rw [hr.next s' h hn]
    · exact settles_bind.mpr (hr.seen hl s' h hs)

/-- what the alone state is known to be at the end of the first program -/
theorem obeys_bind_of {p : Prog L σ α} {f : α → Prog L σ β} {F : β → Prop → Prop} {s : σ}
    {Q : α → σ → Prop} (hp : C.Obeys p (fun a o => C.Settles (f a) F o) s)
    (hq : Prog.wp (fun _ => True) p Q s) (hf : ∀ a s', Q a s' → C.Obeys (f a) F s') :
    C.Obeys (p.bind f) F s := obeys_bind hp (hf _ _ (Prog.wp_run hq))

/-! ## where the request lands -/

/-- a poll comes before a clear -/
def seen (C : Cancellable L σ) : List L → Bool
  | [] => false
  | l :: ls => C.poll l || (!C.clear l && seen C ls)

/-- what the actions of the other thread have to respect -/
structure TakesBack (C : Cancellable L σ) (mark : σ → σ) : Prop where
  rel : ∀ {s s'}, C.rel s s' → C.rel s (mark s')
  off : ∀ s, ¬ C.on (mark s)
  flag : ∀ s, C.flag (mark s) = C.flag s

/-- the last thing a run has to do -/
abbrev Off : α → Prop → Prop := fun _ off => off

theorem off_of_settles {mark : σ → σ} (hm : C.TakesBack mark) {p : Prog L σ α} {off : Prop}
    (h : C.Settles p Off off) {s : σ} (hs : C.flag s = true) (ho : off → ¬ C.on s)
    (es : List Nat) (hes : es.length ≤ 1) :
    ¬ C.on (p.weave (es.map fun n => (n, mark)) s).2 := by
  induction p generalizing s off es with
  | ret a =>
    match es, hes with
    | [], _ => exact ho h
    | [n], _ => exact hm.off s
  | act l u k ih =>
    obtain ⟨h1, h2, h3, h4, h5⟩ := h
    have step : ∀ s', C.flag s' = true → (off → ¬ C.on s') → ∀ es : List Nat, es.length ≤ 1 →
        ¬ C.on ((k s').weave (es.map fun n => (n, mark)) (u s')).2 := by
      intro s' hs' ho' es hes
      refine ih s' (h5 s' hs') (h3 s' hs') (fun hor => ?_) es hes
      rcases hor with hoff | hoff
      · exact h4 s' (ho' hoff)
      · exact hoff s'
    match es, hes with
    | [], _ => exact step s hs ho [] (by simp)
    | [0], _ => exact step (mark s) ((hm.flag s).trans hs) (fun _ => hm.off s) [] (by simp)
    | [n + 1], _ => exact step s hs ho [n] (by simp)

/-- The flag of the run with the request: raised, or as in the run alone. -/
def Watch (C : Cancellable L σ) (watch : Bool) (s s' : σ) : Prop :=
  if watch then C.flag s' = true else C.flag s' = C.flag s

section
variable {l : L} {u : σ → σ} {k : σ → Prog L σ α} {s s' : σ} {watch : Bool}

/-- What one action does to the flag: it is seen, or the two runs go on alike. -/
theorem Respects.flag_step (hr : C.Respects l u k Off s) (h : C.rel s s') (hw : C.Watch watch s s')
    (ls : List L) :
    (watch = true ∧ C.poll l = true ∧ C.flag s' = true) ∨
    (k s' = k s ∧ ∃ watch', C.Watch watch' (u s) (u s') ∧
      (watch && C.seen (l :: ls)) = (watch' && C.seen ls)) := by
  cases watch with
  | false =>
    have hf : C.flag s' = C.flag s := hw
    exact .inr ⟨hr.next s' h (.inr hf), false, hr.same s' h hf, rfl⟩
  | true =>
    have hf : C.flag s' = true := hw
    cases hp : C.poll l with
    | true => exact .inl ⟨rfl, rfl, hf⟩
    | false =>
      refine .inr ⟨hr.next s' h (.inl hp), ?_⟩
      cases hc : C.clear l with
      | true =>
        refine ⟨false, (hr.cleared hc s').trans (hr.cleared hc s).symm, ?_⟩
        simp [Cancellable.seen, hp, hc]
      | false => exact ⟨true, hr.kept hc s' hf, by simp [Cancellable.seen, hp, hc]⟩

/-- the poll that sees the flag ends the program -/
theorem Respects.off_of_seen {mark : σ → σ} (hm : C.TakesBack mark) (hr : C.Respects l u k Off s)
    (h : C.rel s s') (hl : C.poll l = true) (hf : C.flag s' = true) (es : List Nat)
    (hes : es.length ≤ 1) : ¬ C.on ((k s').weave (es.map fun n => (n, mark)) (u s')).2 :=
  off_of_settles hm (hr.seen hl s' h hf) (hr.kept (C.poll_not_clear hl) s' hf) False.elim es hes

end

section
variable {mark : σ → σ} (hm : C.TakesBack mark)
include hm

/-- after the request, when a publication has undone it -/
theorem on_iff_of_agree {p : Prog L σ α} {s s' : σ} {watch : Bool} (hp : C.Obeys p Off s)
    (h : C.agree s s') (hw : C.Watch watch s s') : C.on (p.run s').2 ↔
      C.on (p.run s).2 ∧ (watch && C.seen (p.labels s)) = false := by
  induction p generalizing s s' watch with
  | ret a => simp [Prog.run, Prog.labels, seen, C.on_of_agree h]
  | act l u k ih =>
    obtain ⟨hr, hp⟩ := hp
    have hrel := C.rel_of_agree h
    show C.on ((k s').run (u s')).2 ↔ C.on ((k s).run (u s)).2 ∧
      (watch && C.seen (l :: (k s).labels (u s))) = false
    rcases hr.flag_step hrel hw ((k s).labels (u s)) with ⟨rfl, hl, hf⟩ | ⟨hk, w, hw', he⟩
    · have hoff := hr.off_of_seen hm hrel hl hf [] (by simp)
      rw [List.map_nil, Prog.weave_nil] at hoff
      simp [hoff, seen, hl]
    · rw [hk, he]
      exact ih s hp (hr.agree s' h) hw'

/-- after the request -/
theorem on_iff_of_rel {p : Prog L σ α} {s s' : σ} {watch : Bool} (hp : C.Obeys p Off s)
    (h : C.rel s s') (hoff : ¬ C.on s') (hw : C.Watch watch s s') : C.on (p.run s').2 ↔
      C.on (p.run s).2 ∧ (watch && C.seen (p.labels s)) = false ∧
        (p.labels s).any C.publish = true := by
  induction p generalizing s s' watch with
  | ret a => simpa [Prog.run, Prog.labels] using hoff
  | act l u k ih =>
    obtain ⟨hr, hp⟩ := hp
    show C.on ((k s').run (u s')).2 ↔ C.on ((k s).run (u s)).2 ∧
      (watch && C.seen (l :: (k s).labels (u s))) = false ∧
        (l :: (k s).labels (u s)).any C.publish = true
    rcases hr.flag_step h hw ((k s).labels (u s)) with ⟨rfl, hl, hf⟩ | ⟨hk, w, hw', he⟩
    · have hno := hr.off_of_seen hm h hl hf [] (by simp)
      rw [List.map_nil, Prog.weave_nil] at hno
      simp [hno, seen, hl]
    · rw [hk, he, List.any_cons]
      cases hpub : C.publish l with
      | true =>
        rw [Bool.true_or, on_iff_of_agree hm hp (hr.publish hpub s' h) hw']
        simp
      | false =>
        rw [Bool.false_or]
        exact ih s hp (hr.rel s' h) (hr.off hpub s' hoff) hw'

/-- between the two actions of the request -/
theorem on_iff_of_raised {p : Prog L σ α} {s s' : σ} {watch : Bool} (hp : C.Obeys p Off s)
    (h : C.agree s s') (hw : C.Watch watch s s') (d : Nat) : C.on (p.weave [(d, mark)] s').2 ↔
      C.on (p.run s).2 ∧ (watch && C.seen (p.labels s)) = false ∧
        ((p.labels s).drop d).any C.publish = true := by
  induction p generalizing s s' watch d with
  | ret a => simpa [Prog.weave, Prog.run, Prog.labels] using hm.off s'
  | act l u k ih =>
    cases d with
    | zero =>
      -- the mark comes now
      have e : (Prog.act l u k).weave [(0, mark)] s' = (Prog.act l u k).run (mark s') :=
        Prog.weave_nil (Prog.act l u k) (mark s')
      have hw' : C.Watch watch s (mark s') := by
        unfold Watch at hw ⊢
        rwa [hm.flag]
      rw [e, List.drop_zero]
      exact on_iff_of_rel hm hp (hm.rel (C.rel_of_agree h)) (hm.off s') hw'
    | succ d =>
      obtain ⟨hr, hp⟩ := hp
      have hrel := C.rel_of_agree h
      show C.on ((k s').weave [(d, mark)] (u s')).2 ↔ C.on ((k s).run (u s)).2 ∧
        (watch && C.seen (l :: (k s).labels (u s))) = false ∧
          (((k s).labels (u s)).drop d).any C.publish = true
      rcases hr.flag_step hrel hw ((k s).labels (u s)) with ⟨rfl, hl, hf⟩ | ⟨hk, w, hw', he⟩
      · have hno := hr.off_of_seen hm hrel hl hf [d] (by simp)
        simp only [List.map_cons, List.map_nil] at hno
        simp [hno, seen, hl]
      · rw [hk, he]
        exact ih s hp (hr.agree s' h) hw' d

/-- **When a request is lost.**  With the flag raised after `i` actions of the program and its state
taken back after `d` more, the program ends published exactly if it does so alone, does not poll the
flag from there on before it clears it, and publishes after it was taken back. -/
theorem weave_on_iff {raise : σ → σ} (hraise : ∀ s, C.agree s (raise s) ∧ C.flag (raise s) = true)
    {p : Prog L σ α} {s : σ} (hp : C.Obeys p Off s) (i d : Nat) :
    C.on (p.weave [(i, raise), (d, mark)] s).2 ↔
      C.on (p.run s).2 ∧ C.seen ((p.labels s).drop i) = false ∧
        ((p.labels s).drop (i + d)).any C.publish = true := by
  induction p generalizing s i with
  | ret a => simpa [Prog.weave, Prog.run, Prog.labels] using hm.off (raise s)
  | act l u k ih =>
    cases i with
    | zero =>
      have h := on_iff_of_raised hm hp (hraise s).1 (show C.Watch true s (raise s) from (hraise s).2) d
      rw [Bool.true_and] at h
      rw [Nat.zero_add, List.drop_zero]
      exact h
    | succ i =>
      have h := ih s hp.2 i
      rw [Nat.add_right_comm]
      exact h

end
end Cancellable
end Stepwise
