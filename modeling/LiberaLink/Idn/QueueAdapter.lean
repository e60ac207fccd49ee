import LiberaLink.Idn.QueueServer

/-!
# The adapter's side of the queue, and both sides together

* `Adapting`, `Passing`     what the adapter knows between two calls, and while the caret leaves a ring;
* `adapts_readCaret`        the next buffer that was put is read, and none only when all that was put
                            before the call was read;
* `ServerCalls`, `AdapterCalls`   any calls of the server and of the adapter, each call chosen by what
                            the calls before it returned;
* `queue_fifo`              **whatever the order of their accesses**, every buffer is read once and in
                            order, given back after it was read and in order, and no ring is touched
                            after it was freed;
* `queue_calls`             between two calls the queue is a list with two places in it;
* `queue_forcedStop`        what a stop that does not wait leaves to be given back.
-/

namespace LiberaLink.Idn
open Stepwise Stepwise.Prog

variable {α : Type}

/-! ## what the adapter knows -/

abbrev Adapts {β : Type} (p : QueueProg α β) (Q : β → AdapterBase α → Prop) (s : AdapterBase α) : Prop :=
  Holds ServerStep (fun _ => AdapterStep) p Q s

/-- What the adapter knows between two calls: the caret's ring has more to come, and these buffers were
read. -/
structure Adapting (R : List α) (s : AdapterBase α) : Prop where
  inv : s.Inv
  notPassed : ¬ (s.ring s.caretQueue).Passed
  reads : s.reads = R

/-- what it knows while the caret leaves a ring -/
structure Passing (R : List α) (c : Nat) (s : AdapterBase α) : Prop where
  inv : s.Inv
  caretQueue : s.caretQueue = c
  next : c + 1 < s.queues.length
  passed : (s.ring c).Passed
  reads : s.reads = R

section adapter
variable {β γ : Type} {s s' : AdapterBase α} {P R : List α} {c : Nat} {e : Entry α} {a : α}
  {Q : β → AdapterBase α → Prop}

theorem Adapting.stable (hs : Adapting R s) (hr : ServerStep s s') : Adapting R s' where
  inv := hr.inv hs.inv
  notPassed := by
    rw [hr.caretQueue]
    exact hr.not_passed hs.inv hs.inv.caret_lt hs.notPassed
  reads := (hr.reads hs.inv).trans hs.reads

/-- nothing is written behind a link -/
theorem ServerStep.written_eq (hr : ServerStep s s') (hinv : s.Inv) (hc : c < s.queues.length)
    (hlinked : Linked (s.ring c).written) : (s'.ring c).written = (s.ring c).written := by
  obtain ⟨rest, hrest⟩ := hr.written c
  obtain ⟨i, q, hi⟩ := (linked_iff (hinv.ring c hc)).mp hlinked
  have hend := ((hinv.ring c hc).link i q hi).1
  have hi' : (s'.ring c).written[i]? = some (.queue q) := by
    rw [← hrest, List.getElem?_append_left (by omega), hi]
  have hend' := (((hr.inv hinv).ring c (hc.trans_le hr.length)).link i q hi').1
  rw [← hrest, List.length_append] at hend'
  have hnone : rest = [] := List.eq_nil_of_length_eq_zero (by omega)
  rw [← hrest, hnone, List.append_nil]

theorem Passing.stable (hs : Passing R c s) (hr : ServerStep s s') : Passing R c s' where
  inv := hr.inv hs.inv
  caretQueue := hr.caretQueue.trans hs.caretQueue
  next := hs.next.trans_le hr.length
  passed := by
    have hsame := hr.written_eq hs.inv (Nat.lt_of_succ_lt hs.next) hs.passed.2
    rw [QueueBuffer.Passed, hsame, hr.seen]
    exact hs.passed
  reads := (hr.reads hs.inv).trans hs.reads

theorem adapts_read {field : AdapterBase α → γ} {k : γ → QueueProg α β}
    (next : ∀ s', ServerStep s s' → Adapts (k (field s')) Q s') :
    Adapts (read .adapter field >>= k) Q s := fun s' hr => ⟨.refl s', next s' hr⟩

theorem adapts_readRing {field : QueueBuffer α → γ} {k : γ → QueueProg α β} (hs : Adapting R s)
    (next : ∀ s', ServerStep s s' → Adapts (k (field (s'.ring s.caretQueue))) Q s') :
    Adapts (readRing .adapter s.caretQueue field >>= k) Q s := by
  intro s' hr
  have hs' := hs.stable hr
  show AdapterStep s' (s'.touch _ id) ∧ Holds _ _ (k (field (s'.ring s.caretQueue))) Q (s'.touch _ id)
  rw [touch_id (hr.caretQueue ▸ hs'.inv.caret_live hs'.notPassed)]
  exact ⟨.refl s', next s' hr⟩

theorem adapts_modify {u : AdapterBase α → AdapterBase α} {k : Unit → QueueProg α β}
    (next : ∀ s', ServerStep s s' → AdapterStep s' (u s') ∧ Adapts (k ()) Q (u s')) :
    Adapts (modify .adapter u >>= k) Q s := fun s' hr => next s' hr

/-- the caret passes an entry -/
theorem Adapting.step (hs : Adapting R s)
    (he : (s.ring s.caretQueue).written[(s.ring s.caretQueue).seen]? = some e) {s' : AdapterBase α}
    (hs' : s' = s.touch s.caretQueue fun r =>
      { r with caret := (r.caret + 1) % r.size, seen := r.seen + 1 }) :
    AdapterStep s s' ∧ s'.reads = R ++ items [e] := by
  have hq := hs.inv.caret_lt
  have hlt := (List.getElem?_eq_some_iff.mp he).1
  subst hs'
  refine ⟨⟨fun hinv => ?_, rfl, rfl, Nat.le_refl _, length_touch, fun k => ?_⟩, ?_⟩
  · exact hinv.touch (hs.inv.caret_live hs.notPassed) ((hinv.ring _ hq).moveCaret hlt) (.inl rfl)
  · rw [ring_touch hq]
    split
    · next hk => rw [hk]; exact ⟨_, _, Nat.le_succ _, rfl⟩
    · exact ⟨_, _, Nat.le_refl _, rfl⟩
  · rw [← hs.reads, AdapterBase.reads, AdapterBase.reads, flatMap_queues, flatMap_queues, length_touch]
    refine flatMap_range_grow hq (fun k hk => ?_) ?_ fun k hk => ?_
    · rw [ring_touch hq, if_neg hk]
    · rw [ring_touch hq, if_pos rfl, List.take_add_one, he, items_append]
      rfl
    · rw [hs.inv.unread hk]
      rfl

/-- The caret passes a buffer. -/
theorem Adapting.moveCaret (hs : Adapting R s)
    (he : (s.ring s.caretQueue).written[(s.ring s.caretQueue).seen]? = some (.item a))
    {s' : AdapterBase α} (hs' : s' = s.touch s.caretQueue fun r =>
      { r with caret := (r.caret + 1) % r.size, seen := r.seen + 1 }) :
    AdapterStep s s' ∧ Adapting (R ++ [a]) s' := by
  obtain ⟨hstep, hreads⟩ := hs.step he hs'
  refine ⟨hstep, hstep.inv hs.inv, ?_, hreads⟩
  subst hs'
  rw [caretQueue_touch, ring_touch hs.inv.caret_lt, if_pos rfl]
  rintro ⟨hall, next, hlast⟩
  simp only at hall hlast
  rw [List.getLast?_eq_getElem?, ← hall, Nat.add_sub_cancel, he] at hlast
  cases hlast

/-- The caret passes the link. -/
theorem Adapting.moveCaret_link (hs : Adapting R s) {next : Nat}
    (he : (s.ring s.caretQueue).written[(s.ring s.caretQueue).seen]? = some (.queue next))
    {s' : AdapterBase α} (hs' : s' = s.touch s.caretQueue fun r =>
      { r with caret := (r.caret + 1) % r.size, seen := r.seen + 1 }) :
    AdapterStep s s' ∧ Passing R s.caretQueue s' ∧ next = s.caretQueue + 1 := by
  obtain ⟨hstep, hreads⟩ := hs.step he hs'
  obtain ⟨hall, -, hnext, hlt⟩ := (hs.inv.ring _ hs.inv.caret_lt).link _ _ he
  refine ⟨hstep, ?_, hnext⟩
  subst hs'
  exact {
    inv := hstep.inv hs.inv
    caretQueue := rfl
    next := by rw [length_touch]; exact hlt
    passed := by
      rw [ring_touch hs.inv.caret_lt, if_pos rfl]
      refine ⟨hall, next, ?_⟩
      simp only
      rw [List.getLast?_eq_getElem?, ← hall, Nat.add_sub_cancel, he]
    reads := hreads.trans (List.append_nil _) }

/-- the caret goes on to the next ring, of which nothing was read -/
theorem Passing.enter (hs : Passing R c s) :
    AdapterStep s { s with caretQueue := c + 1 } ∧ Adapting R { s with caretQueue := c + 1 } ∧
      (s.ring (c + 1)).seen = 0 := by
  have hfirst := (hs.inv.ring (c + 1) hs.next).ahead (by rw [hs.caretQueue]; exact Nat.lt_succ_self c)
  have hstep : AdapterStep s { s with caretQueue := c + 1 } := {
    inv := fun hinv => by
      obtain rfl := hs.caretQueue
      exact hinv.nextCaret hs.passed hs.next
    headQueue := rfl
    tailQueue := rfl
    caretQueue := by rw [hs.caretQueue]; exact Nat.le_succ c
    length := rfl
    ring := fun _ => ⟨_, _, Nat.le_refl _, rfl⟩ }
  refine ⟨hstep, ⟨hstep.inv hs.inv, ?_, hs.reads⟩, hfirst⟩
  rintro ⟨hall, q, hlast⟩
  have hnone : (s.ring (c + 1)).written = [] := List.eq_nil_of_length_eq_zero (hall.symm.trans hfirst)
  have hlast' : (s.ring (c + 1)).written.getLast? = some (.queue q) := hlast
  rw [hnone] at hlast'
  cases hlast'

/-- no ring after one without a link was written to -/
theorem AdapterBase.Inv.unwritten (h : s.Inv) {k : Nat} (hopen : ¬ Linked (s.ring k).written) (n : Nat) :
    (s.ring (k + 1 + n)).written = [] := by
  induction n with
  | zero =>
    by_contra hused
    exact hopen (h.order k hused)
  | succ n ih =>
    by_contra hused
    obtain ⟨q, hq⟩ := h.order (k + 1 + n) hused
    rw [ih] at hq
    cases hq

/-- When the caret has reached the head, all that was put was read. -/
theorem Adapting.puts_eq (hs : Adapting R s)
    (hall : (s.ring s.caretQueue).seen = (s.ring s.caretQueue).written.length) : s.puts = R := by
  have hopen : ¬ Linked (s.ring s.caretQueue).written := fun hl => hs.notPassed ⟨hall, hl⟩
  rw [← hs.reads, AdapterBase.puts, AdapterBase.reads, flatMap_queues, flatMap_queues]
  refine List.flatMap_congr fun k hk => ?_
  rw [List.mem_range] at hk
  rcases Nat.lt_trichotomy k s.caretQueue with hlt | rfl | hgt
  · rw [((hs.inv.ring k hk).behind hlt).1, List.take_length]
  · rw [hall, List.take_length]
  · obtain ⟨n, rfl⟩ := Nat.exists_eq_add_of_le (Nat.succ_le_of_lt hgt)
    rw [hs.inv.unwritten hopen n, List.take_nil]

/-! ## `peekCaret` and `readCaret` -/

/-- what `peekCaret` comes to, where `P` was put when it was called -/
def Peeked (P R : List α) (result : Option α) (s : AdapterBase α) : Prop :=
  match result with
  | some a => Adapting R s ∧ (s.ring s.caretQueue).written[(s.ring s.caretQueue).seen]? = some (.item a)
  | none => Adapting R s ∧ P <+: R

theorem Peeked.stable {result : Option α} (hs : Peeked P R result s) (hr : ServerStep s s') :
    Peeked P R result s' := by
  cases result with
  | none => exact ⟨hs.1.stable hr, hs.2⟩
  | some a =>
    obtain ⟨rest, hrest⟩ := hr.written s.caretQueue
    refine ⟨hs.1.stable hr, ?_⟩
    rw [hr.caretQueue, hr.seen, ← hrest, List.getElem?_append_left (List.getElem?_eq_some_iff.mp hs.2).1]
    exact hs.2

/-- the entry at the caret, once the head is past it -/
theorem Adapting.entry (hs : Adapting R s)
    (hlt : (s.ring s.caretQueue).seen < (s.ring s.caretQueue).written.length) :
    ∃ e, (s.ring s.caretQueue).written[(s.ring s.caretQueue).seen]? = some e ∧
      (s.ring s.caretQueue).entries (s.ring s.caretQueue).caret = some e := by
  have hok := (hs.inv.ring _ hs.inv.caret_lt).ok
  have he := List.getElem?_eq_getElem hlt
  exact ⟨_, he, by rw [hok.caret, hok.entries _ _ hok.removed_le he]⟩

/-- The adapter looks at an entry. -/
theorem adapts_look {turns i c : Nat} (hs : Adapting R s) (hP : P <+: s.puts) (hc : s.caretQueue = c)
    (hi : (s.ring c).caret = i) (hlt : (s.ring c).seen < (s.ring c).written.length)
    (hnext : (s.ring c).seen ≠ 0 → ∀ s', Adapting R s' → (s'.ring s'.caretQueue).seen = 0 →
      P <+: s'.puts → Adapts (peekCaretLoop turns) (Peeked P R) s') :
    Adapts (do
      let entry ← readRing .adapter c fun q => q.entries i
      match entry with
      | none => wild .adapter none
      | some (.item taxiBuffer) => return some taxiBuffer
      | some (.queue queue) => do
        moveCaret c
        modify .adapter fun s => { s with caretQueue := queue }
        peekCaretLoop turns) (Peeked P R) s := by
  subst hc
  refine adapts_readRing hs fun s₁ hr₁ => ?_
  have hs₁ := hs.stable hr₁
  have hc₁ := hr₁.caretQueue
  obtain ⟨rest, hrest⟩ := hr₁.written s.caretQueue
  have hlt₁ : (s₁.ring s₁.caretQueue).seen < (s₁.ring s₁.caretQueue).written.length := by
    rw [hc₁, hr₁.seen, ← hrest, List.length_append]
    omega
  have hi₁ : (s₁.ring s₁.caretQueue).caret = i := by
    rw [hc₁, hr₁.caret, hi]
  obtain ⟨e, hw, he⟩ := hs₁.entry hlt₁
  rw [hi₁, hc₁] at he
  simp only [he]
  cases e with
  | item a => exact ⟨hs₁, hw⟩
  | queue q =>
    refine adapts_modify fun s₂ hr₂ => ?_
    have hs₂ := hs₁.stable hr₂
    have hw₂ : (s₂.ring s₂.caretQueue).written[(s₂.ring s₂.caretQueue).seen]? = some (.queue q) := by
      obtain ⟨rest₂, hrest₂⟩ := hr₂.written s₁.caretQueue
      rw [hr₂.caretQueue, hr₂.seen, ← hrest₂, List.getElem?_append_left hlt₁, hw]
    have hsome : (s.ring s.caretQueue).seen ≠ 0 := by
      have hpos := ((hs₂.inv.ring _ hs₂.inv.caret_lt).link _ _ hw₂).2.1
      rw [hr₂.caretQueue, hr₂.seen, hc₁, hr₁.seen] at hpos
      exact hpos.ne'
    rw [← hc₁, ← hr₂.caretQueue]
    obtain ⟨hstep, hpass, rfl⟩ := hs₂.moveCaret_link hw₂ rfl
    refine ⟨hstep, adapts_modify fun s₃ hr₃ => ?_⟩
    obtain ⟨hstep₃, hs₃, hfirst⟩ := (hpass.stable hr₃).enter
    refine ⟨hstep₃, hnext hsome _ hs₃ hfirst ?_⟩
    have hputs := (hP.trans hr₁.puts).trans hr₂.puts
    rw [← hstep.puts] at hputs
    exact hputs.trans hr₃.puts

/-- One turn of the loop. -/
theorem adapts_peekCaretLoop {turns : Nat} (hs : Adapting R s) (hP : P <+: s.puts)
    (hnext : (s.ring s.caretQueue).seen ≠ 0 → ∀ s', Adapting R s' → (s'.ring s'.caretQueue).seen = 0 →
      P <+: s'.puts → Adapts (peekCaretLoop turns) (Peeked P R) s') :
    Adapts (peekCaretLoop (turns + 1)) (Peeked P R) s := by
  refine adapts_read fun s₁ hr₁ => ?_
  have hs₁ := hs.stable hr₁
  refine adapts_readRing hs₁ fun s₂ hr₂ => ?_
  have hs₂ := hs₁.stable hr₂
  have hok₂ := (hs₂.inv.ring _ hs₂.inv.caret_lt).ok
  have hP₂ : P <+: s₂.puts := (hP.trans hr₁.puts).trans hr₂.puts
  have hmeet := mod_eq_iff (s₂.ring s₂.caretQueue).size hok₂.seen_le
    (by have := hok₂.removed_le; have := hok₂.room; omega)
  rw [← hr₂.caretQueue]
  dsimp only
  split
  · next heq =>
    rw [hok₂.caret, hok₂.head, hmeet] at heq
    exact ⟨hs₂, hs₂.puts_eq heq ▸ hP₂⟩
  · next hne =>
    rw [hok₂.caret, hok₂.head, hmeet] at hne
    refine adapts_look hs₂ hP₂ rfl rfl (lt_of_le_of_ne hok₂.seen_le hne) fun hsome => ?_
    rw [hr₂.caretQueue, hr₂.seen, hr₁.caretQueue, hr₁.seen] at hsome
    exact hnext hsome

theorem adapts_peekCaret (hs : Adapting R s) (hP : P <+: s.puts) : Adapts peekCaret (Peeked P R) s := by
  refine adapts_peekCaretLoop hs hP fun _ s₁ hs₁ hfirst hP₁ => ?_
  exact adapts_peekCaretLoop hs₁ hP₁ fun hsome => absurd hfirst hsome

/-- what `readCaret` comes to, where `P` was put when it was called -/
def ReadOut (P R : List α) (result : Option α) (s : AdapterBase α) : Prop :=
  match result with
  | some a => Adapting (R ++ [a]) s
  | none => Adapting R s ∧ P <+: R

theorem adapts_readCaret (hs : Adapting R s) (hP : P <+: s.puts) : Adapts readCaret (ReadOut P R) s := by
  refine holds_seq (adapts_peekCaret hs hP) fun result s₁ hs₁ => ?_
  cases result with
  | none => exact hs₁
  | some a =>
    refine adapts_read fun s₂ hr₂ => ?_
    refine adapts_modify fun s₃ hr₃ => ?_
    obtain ⟨hs₃, hw₃⟩ := (hs₁.stable hr₂).stable hr₃
    rw [← hr₃.caretQueue]
    exact hs₃.moveCaret hw₃ rfl

end adapter

/-! ## any calls of both -/

/-- What the server calls, each call chosen by what the calls before it returned. -/
inductive ServerCalls (α : Type) where
  | done
  | put (taxiBuffer : α) (next : ServerCalls α)
  | trash (next : Option α → ServerCalls α)
  | stop (next : Bool → ServerCalls α)

/-- what the adapter calls -/
inductive AdapterCalls (α : Type) where
  | done
  | peek (next : Option α → AdapterCalls α)
  | read (next : Option α → AdapterCalls α)

/-- the buffers that it puts, and the ones that it gets back -/
def ServerCalls.prog : ServerCalls α → QueueProg α (List α × List α)
  | .done => return ([], [])
  | .put taxiBuffer next => do
    putBuffer taxiBuffer
    let rest ← next.prog
    return (taxiBuffer :: rest.1, rest.2)
  | .trash next => do
    let result ← getTrash
    let rest ← (next result).prog
    return (rest.1, result.toList ++ rest.2)
  | .stop next => do
    let result ← gracefulStop
    (next result).prog

/-- the buffers that it reads -/
def AdapterCalls.prog : AdapterCalls α → QueueProg α (List α)
  | .done => return []
  | .peek next => do
    let result ← peekCaret
    (next result).prog
  | .read next => do
    let result ← readCaret
    let rest ← (next result).prog
    return result.toList ++ rest

section runs
variable {s s' : AdapterBase α} {P T R : List α}

theorem serves_calls (calls : ServerCalls α) (hs : Serving P T s) :
    Serves calls.prog (fun r s' => Serving (P ++ r.1) (T ++ r.2) s') s := by
  induction calls generalizing P T s with
  | done =>
    show Serving (P ++ []) (T ++ []) s
    rwa [List.append_nil, List.append_nil]
  | put a next ih =>
    refine holds_seq (serves_putBuffer hs) fun _ s₁ hs₁ => holds_seq (ih hs₁) fun rest s₂ hs₂ => ?_
    show Serving (P ++ a :: rest.1) (T ++ rest.2) s₂
    rwa [List.append_cons]
  | trash next ih =>
    refine holds_seq (serves_getTrash hs (List.nil_prefix)) fun result s₁ hs₁ => ?_
    cases result with
    | none => exact holds_seq (ih none hs₁.1) fun rest s₂ hs₂ => hs₂
    | some a =>
      refine holds_seq (ih (some a) hs₁) fun rest s₂ hs₂ => ?_
      show Serving (P ++ rest.1) (T ++ a :: rest.2) s₂
      rwa [List.append_cons]
  | stop next ih =>
    exact holds_seq (serves_gracefulStop hs List.nil_prefix) fun result s₁ hs₁ => ih result hs₁.1

theorem adapts_calls (calls : AdapterCalls α) (hs : Adapting R s) :
    Adapts calls.prog (fun r s' => Adapting (R ++ r) s') s := by
  induction calls generalizing R s with
  | done =>
    show Adapting (R ++ []) s
    rwa [List.append_nil]
  | peek next ih =>
    refine holds_seq (adapts_peekCaret hs List.nil_prefix) fun result s₁ hs₁ => ?_
    cases result with
    | none => exact ih none hs₁.1
    | some a => exact ih (some a) hs₁.1
  | read next ih =>
    refine holds_seq (adapts_readCaret hs List.nil_prefix) fun result s₁ hs₁ => ?_
    cases result with
    | none => exact holds_seq (ih none hs₁.1) fun rest s₂ hs₂ => hs₂
    | some a =>
      refine holds_seq (ih (some a) hs₁) fun rest s₂ hs₂ => ?_
      show Adapting (R ++ a :: rest) s₂
      rwa [List.append_cons]

theorem AdapterBase.start_unlinked : ¬ Linked ((AdapterBase.start : AdapterBase α).ring 0).written := by
  rintro ⟨q, hq⟩
  simp [AdapterBase.start, AdapterBase.ring, QueueBuffer.alloc] at hq

theorem serving_start : Serving [] [] (AdapterBase.start : AdapterBase α) := by
  refine ⟨⟨AdapterBase.inv_start, ?_, fun he => AdapterBase.start_unlinked he.2, rfl, rfl⟩, rfl,
    AdapterBase.start_unlinked, fun k hk => absurd hk (Nat.succ_ne_zero k), fun hpos => absurd hpos (Nat.lt_irrefl 0)⟩
  simp [isLive_iff, AdapterBase.start, AdapterBase.ring, QueueBuffer.alloc]

theorem adapting_start : Adapting [] (AdapterBase.start : AdapterBase α) :=
  ⟨AdapterBase.inv_start, fun hp => AdapterBase.start_unlinked hp.2, rfl⟩

/-- the server and the adapter from the start, after this schedule -/
def queueRun (server : ServerCalls α) (adapter : AdapterCalls α) (schedule : List Pair.Side) :
    Pair Access Access (AdapterBase α) (List α × List α) (List α) :=
  Pair.run ⟨server.prog, adapter.prog, .start⟩ schedule

theorem queueRun_holds (server : ServerCalls α) (adapter : AdapterCalls α)
    (schedule : List Pair.Side) :
    (queueRun server adapter schedule).state.Inv ∧
      Serves (queueRun server adapter schedule).left (fun r s => Serving r.1 r.2 s)
        (queueRun server adapter schedule).state ∧
      Adapts (queueRun server adapter schedule).right Adapting (queueRun server adapter schedule).state := by
  have hserver : Pair.Relies (α := List α × List α) AdapterStep (fun r s => Serving r.1 r.2 s) :=
    ⟨AdapterStep.refl, AdapterStep.trans, Serving.stable⟩
  have hadapter : Pair.Relies ServerStep (Adapting (α := α)) :=
    ⟨ServerStep.refl, ServerStep.trans, Adapting.stable⟩
  refine Pair.holds_run hserver hadapter (fun h => h) (fun h => h) (fun h => h.inv) (fun h => h.inv)
    schedule AdapterBase.inv_start ?_ ?_
  · exact holds_mono (serves_calls server serving_start) fun _ _ h => h
  · exact holds_mono (adapts_calls adapter adapting_start) fun _ _ h => h

/-- **The queue keeps its order.**  For any calls of the server and of the adapter, and any order of
their accesses: what was read is the begin of what was put, what was given back is the begin of what
was read, and no access went to a ring that was freed or used a word that was never written.  What the
two return is this history. -/
theorem queue_fifo (server : ServerCalls α) (adapter : AdapterCalls α) (schedule : List Pair.Side) :
    let c := queueRun server adapter schedule
    c.state.fault = false ∧ c.state.trash <+: c.state.reads ∧ c.state.reads <+: c.state.puts ∧
      (∀ puts trash, c.left = .ret (puts, trash) → c.state.puts = puts ∧ c.state.trash = trash) ∧
      ∀ reads, c.right = .ret reads → c.state.reads = reads := by
  intro c
  obtain ⟨hinv, hserver, hadapter⟩ := queueRun_holds server adapter schedule
  refine ⟨hinv.fault, hinv.trash_prefix, hinv.reads_prefix, fun puts trash hret => ?_, fun reads hret => ?_⟩
  · rw [show (queueRun server adapter schedule).left = .ret (puts, trash) from hret] at hserver
    exact ⟨hserver.1.puts, hserver.1.trash⟩
  · rw [show (queueRun server adapter schedule).right = .ret reads from hret] at hadapter
    exact hadapter.reads

/-! ## between two calls -/

/-- the server gets back the next buffer that was read -/
theorem getTrash_alone (hs : Serving P T s) (ha : Adapting R s) :
    (getTrash.run s).1 = R[T.length]? ∧ Serving P (T ++ (getTrash.run s).1.toList) (getTrash.run s).2 ∧
      Adapting R (getTrash.run s).2 ∧ ServerStep s (getTrash.run s).2 := by
  obtain ⟨hget, hstep⟩ := holds_alone AdapterStep.refl ServerStep.refl ServerStep.trans (fun h => h)
    (serves_getTrash hs (List.prefix_refl _))
  have hreads := (hstep.reads hs.1.inv).trans ha.reads
  have hafter := ha.stable hstep
  cases hresult : (getTrash.run s).1 with
  | none =>
    rw [hresult] at hget
    have hle := hget.2.length_le
    rw [ha.reads] at hle
    rw [List.getElem?_eq_none hle, Option.toList_none, List.append_nil]
    exact ⟨rfl, hget.1, hafter, hstep⟩
  | some a =>
    rw [hresult] at hget
    have hpre := hget.1.inv.trash_prefix
    rw [hget.1.trash, hreads] at hpre
    obtain ⟨rest, rfl⟩ := hpre
    exact ⟨by simp, hget, hafter, hstep⟩

/-- **Between two calls** the queue is the list of what was put, with two places in it: the adapter
reads the next buffer behind the one place, the server gets back the next one behind the other, and
a graceful stop comes when the first is at the end. -/
theorem queue_calls (server : ServerCalls α) (adapter : AdapterCalls α) (schedule : List Pair.Side)
    {puts trash reads : List α} (hserver : (queueRun server adapter schedule).left = .ret (puts, trash))
    (hadapter : (queueRun server adapter schedule).right = .ret reads) :
    let s := (queueRun server adapter schedule).state
    (readCaret.run s).1 = puts[reads.length]? ∧ (getTrash.run s).1 = reads[trash.length]? ∧
      ((gracefulStop.run s).1 = true ↔ reads = puts) := by
  intro s
  obtain ⟨-, hs, ha⟩ := queueRun_holds server adapter schedule
  rw [hserver] at hs
  rw [hadapter] at ha
  replace hs : Serving puts trash s := hs
  replace ha : Adapting reads s := ha
  refine ⟨?_, (getTrash_alone hs ha).1, ?_⟩
  · obtain ⟨hread, hstep⟩ := holds_alone ServerStep.refl AdapterStep.refl AdapterStep.trans (fun h => h)
      (adapts_readCaret ha (List.prefix_refl _))
    have hputs := hstep.puts.trans hs.1.puts
    cases hresult : (readCaret.run s).1 with
    | none =>
      rw [hresult] at hread
      have hle := hread.2.length_le
      rw [hs.1.puts] at hle
      rw [List.getElem?_eq_none hle]
    | some a =>
      rw [hresult] at hread
      have hpre := hread.inv.reads_prefix
      rw [hread.reads, hputs] at hpre
      obtain ⟨rest, rfl⟩ := hpre
      simp
  · obtain ⟨hstop, hstep⟩ := holds_alone AdapterStep.refl ServerStep.refl ServerStep.trans (fun h => h)
      (serves_gracefulStop hs (List.prefix_refl _))
    obtain ⟨-, htrue, hfalse⟩ := hstop
    rw [hstep.reads hs.1.inv] at htrue
    refine ⟨fun h => ha.reads.symm.trans (htrue h), fun h => ?_⟩
    by_contra hresult
    exact hfalse (Bool.eq_false_iff.mpr hresult) (ha.reads.trans h)

theorem queue_calls_two :
    let s := (queueRun (.put 5 (.put 6 .done)) (.read fun _ => .done)
      (List.replicate 16 .left ++ List.replicate 7 .right)).state
    (readCaret.run s).1 = [5, 6][[5].length]? ∧ (getTrash.run s).1 = [5][([] : List Nat).length]? ∧
      ((gracefulStop.run s).1 = true ↔ [5] = [5, 6]) :=
  queue_calls _ _ _ rfl rfl

/-! ## a stop that does not wait -/

/-- what comes back from `k` calls of `getTrash` in a row -/
def recycled : Nat → AdapterBase α → List α
  | 0, _ => []
  | k + 1, s => (getTrash.run s).1.toList ++ recycled k (getTrash.run s).2

/-- the state that a forced stop leaves, when no one comes in between -/
def AdapterBase.stopped (s : AdapterBase α) : AdapterBase α :=
  AdapterBase.touch { s with caretQueue := s.headQueue } s.headQueue fun r =>
    { r with caret := r.head, seen := r.written.length }

theorem forcedStop_run (hs : Serving P T s) : (forcedStop.run s).2 = s.stopped := by
  have hlive : AdapterBase.isLive { s with caretQueue := s.headQueue } s.headQueue = true := hs.2.isLive hs.1
  have hrun : (forcedStop.run s).2 =
      (AdapterBase.touch { s with caretQueue := s.headQueue } s.headQueue id).touch s.headQueue fun r =>
        { r with caret := (s.ring s.headQueue).head, seen := r.written.length } := rfl
  rw [hrun, touch_id hlive]
  rfl

/-- An item is read or, where the caret has come to the newest ring, skipped: it can be given back. -/
theorem recycled_eq (hs : Serving P T s) (ha : Adapting R s) (k : Nat) :
    recycled k s = (R.drop T.length).take k := by
  induction k generalizing T s with
  | zero => rw [List.take_zero]; rfl
  | succ k ih =>
    obtain ⟨hresult, hs', ha', -⟩ := getTrash_alone hs ha
    rw [recycled, ih hs' ha', hresult]
    cases hnext : R[T.length]? with
    | none => simp [List.drop_eq_nil_of_le (List.getElem?_eq_none_iff.mp hnext)]
    | some a =>
      obtain ⟨hlt, rfl⟩ := List.getElem?_eq_some_iff.mp hnext
      rw [List.drop_eq_getElem_cons hlt, List.take_succ_cons, Option.toList_some, List.length_append]
      rfl

/-- Where the caret is in the newest ring, the stop is as good as the reading of all that was put. -/
theorem Serving.stopped (hs : Serving P T s) (hc : s.caretQueue = s.headQueue) :
    Serving P T s.stopped ∧ Adapting P s.stopped := by
  have hq : s.headQueue < s.queues.length := by
    have hlen := hs.2.length
    omega
  have hring := hs.1.inv.ring s.headQueue hq
  rw [AdapterBase.stopped, write_caretQueue hc]
  have hinv := hs.1.inv.touch (hs.2.isLive hs.1)
    (f := fun r => { r with caret := r.head, seen := r.written.length })
    { ok := { hring.ok with
        caret := hring.ok.head
        removed_le := hring.ok.removed_le.trans hring.ok.seen_le
        seen_le := Nat.le_refl _ }
      link := hring.link
      behind := fun hlt => absurd hlt (by omega)
      ahead := fun hlt => absurd hlt (by omega)
      freed := hring.freed
      last := hring.last
      kept := hring.kept } (.inl rfl)
  have hserving : Serving P T
      (s.touch s.headQueue fun r => { r with caret := r.head, seen := r.written.length }) :=
    ⟨hs.1.touch hq hinv rfl (fun he => he) ((puts_touch hq rfl).trans hs.1.puts)
      ((trash_touch hq rfl).trans hs.1.trash), hs.2.touch hq rfl⟩
  have hdrained : Drained
      (s.touch s.headQueue fun r => { r with caret := r.head, seen := r.written.length }) := by
    refine ⟨hc, ?_⟩
    rw [headQueue_touch, ring_touch hq, if_pos rfl]
  refine ⟨hserving, hinv, fun hpassed => ?_, hdrained.reads hserving⟩
  rw [hdrained.1] at hpassed
  exact hserving.2.unlinked hpassed.2

/-! Otherwise the rings up to the one of the caret are as they were, and the server comes no further. -/

/-- accesses to two rings -/
theorem touch_touch {q q' : Nat} (hne : q ≠ q') (f g : QueueBuffer α → QueueBuffer α) :
    (s.touch q f).touch q' g = { s with
      queues := (s.queues.set q (f (s.ring q))).set q' (g (s.ring q'))
      fault := s.fault || !s.isLive q || !s.isLive q' } := by
  have hring : (s.touch q f).ring q' = s.ring q' := by
    simp only [AdapterBase.ring, AdapterBase.touch, List.getD_eq_getElem?_getD, List.getElem?_set, hne,
      if_false]
  have hlive : (s.touch q f).isLive q' = s.isLive q' := by
    rw [AdapterBase.isLive, AdapterBase.isLive, hring, length_touch]
  show AdapterBase.mk ((s.touch q f).queues.set q' (g ((s.touch q f).ring q'))) _ _ _
    ((s.touch q f).fault || !(s.touch q f).isLive q') = _
  rw [hring, hlive]
  rfl

theorem touch_comm {q q' : Nat} (hne : q ≠ q') (f g : QueueBuffer α → QueueBuffer α) :
    (s.touch q f).touch q' g = (s.touch q' g).touch q f := by
  rw [touch_touch hne, touch_touch hne.symm, List.set_comm _ _ hne, Bool.or_right_comm]

/-- the tail has passed one entry -/
def AdapterBase.tailMoved (s : AdapterBase α) : AdapterBase α :=
  s.touch s.tailQueue fun r => { r with tail := (r.tail + 1) % r.size, removed := r.removed + 1 }

/-- the tail has left its ring -/
def AdapterBase.tailLeft (s : AdapterBase α) (next : Nat) : AdapterBase α :=
  { s.touch s.tailQueue (fun r => { r with live := false }) with tailQueue := next }

theorem run_readRing {β : Type} (who : Access) (q : Nat) (field : QueueBuffer α → β) (s : AdapterBase α) :
    (readRing who q field).run s = (field (s.ring q), s.touch q id) := rfl

/-- one turn of the loop, when no one comes in between -/
theorem getTrashLoop_run (turns : Nat) (hlive : s.isLive s.tailQueue = true) :
    (getTrashLoop (turns + 1)).run s =
      if (s.ring s.tailQueue).tail = (s.ring s.tailQueue).caret then (none, s)
      else
        match (s.ring s.tailQueue).entries (s.ring s.tailQueue).tail with
        | none => (none, { s.tailMoved with fault := true })
        | some (.item a) => (some a, s.tailMoved)
        | some (.queue next) => (getTrashLoop turns).run (s.tailMoved.tailLeft next) := by
  have hread : (read Access.server fun s : AdapterBase α => s.tailQueue).run s = (s.tailQueue, s) := rfl
  rw [getTrashLoop, bind_eq, run_bind, hread, bind_eq, run_bind, run_readRing, touch_id hlive]
  dsimp only
  split
  · rfl
  · rw [bind_eq, run_bind, run_readRing, touch_id hlive]
    dsimp only
    cases (s.ring s.tailQueue).entries (s.ring s.tailQueue).tail with
    | none => rfl
    | some e =>
      cases e with
      | item a => rfl
      | queue next => rfl

/-- the tail in another ring than the newest does not see the stop -/
theorem stopped_tail (hne : s.tailQueue ≠ s.headQueue) :
    s.stopped.ring s.tailQueue = s.ring s.tailQueue ∧ s.stopped.isLive s.tailQueue = s.isLive s.tailQueue ∧
      s.stopped.tailMoved = s.tailMoved.stopped ∧
      ∀ next, s.stopped.tailLeft next = (s.tailLeft next).stopped := by
  have hring : s.stopped.ring s.tailQueue = s.ring s.tailQueue := by
    simp only [AdapterBase.stopped, AdapterBase.ring, AdapterBase.touch, List.getD_eq_getElem?_getD,
      List.getElem?_set, hne.symm, if_false]
  refine ⟨hring, ?_, touch_comm hne.symm _ _, fun next => ?_⟩
  · rw [AdapterBase.isLive, AdapterBase.isLive, hring]
    simp [AdapterBase.stopped]
  · have hcomm := touch_comm (s := { s with caretQueue := s.headQueue, tailQueue := next }) hne.symm
      (fun r => { r with caret := r.head, seen := r.written.length }) fun r => { r with live := false }
    exact hcomm

/-- One turn of the loop, in a ring before the newest. -/
theorem getTrashLoop_stopped {turns : Nat} (hlive : s.isLive s.tailQueue = true)
    (hne : s.tailQueue ≠ s.headQueue)
    (hnext : ∀ next, (s.ring s.tailQueue).tail ≠ (s.ring s.tailQueue).caret →
      (s.ring s.tailQueue).entries (s.ring s.tailQueue).tail = some (.queue next) →
      (getTrashLoop turns).run (s.tailMoved.tailLeft next).stopped =
        (((getTrashLoop turns).run (s.tailMoved.tailLeft next)).1,
          ((getTrashLoop turns).run (s.tailMoved.tailLeft next)).2.stopped)) :
    (getTrashLoop (turns + 1)).run s.stopped =
      (((getTrashLoop (turns + 1)).run s).1, ((getTrashLoop (turns + 1)).run s).2.stopped) := by
  obtain ⟨hring, hlive', hmoved, -⟩ := stopped_tail hne
  rw [getTrashLoop_run turns hlive, getTrashLoop_run turns (hlive'.trans hlive)]
  change (if (s.stopped.ring s.tailQueue).tail = (s.stopped.ring s.tailQueue).caret then (none, s.stopped)
    else match (s.stopped.ring s.tailQueue).entries (s.stopped.ring s.tailQueue).tail with
      | none => (none, { s.stopped.tailMoved with fault := true })
      | some (.item a) => (some a, s.stopped.tailMoved)
      | some (.queue next) => (getTrashLoop turns).run (s.stopped.tailMoved.tailLeft next)) = _
  rw [hring, hmoved]
  split
  · rfl
  · next hmore =>
    cases hentry : (s.ring s.tailQueue).entries (s.ring s.tailQueue).tail with
    | none => rfl
    | some e =>
      cases e with
      | item a => rfl
      | queue next =>
        have hleft := (stopped_tail (s := s.tailMoved) hne).2.2.2 next
        dsimp only
        rw [hleft]
        exact hnext next hmore hentry

/-- The tail is behind the caret, and stays there. -/
theorem getTrash_stopped (hs : Serving P T s) (ha : Adapting R s) (hc : s.caretQueue ≠ s.headQueue) :
    getTrash.run s.stopped = ((getTrash.run s).1, (getTrash.run s).2.stopped) := by
  have hinv := hs.1.inv
  have hcaret : s.caretQueue < s.headQueue := by
    have hlt := hinv.caret_lt
    have hlen := hs.2.length
    omega
  have htail : s.tailQueue ≤ s.caretQueue := by
    by_contra hgt
    have hring := hinv.ring _ hinv.caret_lt
    obtain ⟨hall, hlinked⟩ := (hring.freed (by omega)).1
    have h₁ := hring.ok.removed_le
    have h₂ := hring.ok.seen_le
    exact ha.notPassed ⟨by omega, hlinked⟩
  refine getTrashLoop_stopped hs.1.tail (by omega) fun next hmore hentry => ?_
  have hring := hinv.ring _ hinv.tail_lt
  have hok := hring.ok
  have hremoved : (s.ring s.tailQueue).removed < (s.ring s.tailQueue).seen := by
    refine lt_of_le_of_ne hok.removed_le fun heq => hmore ?_
    rw [hok.tail, hok.caret, heq]
  obtain ⟨e, hwritten, he⟩ := hs.entry hremoved
  obtain rfl : e = .queue next := Option.some.inj (he.symm.trans hentry)
  -- the link was read, so that the caret is in a later ring
  obtain ⟨hlast, -, rfl, -⟩ := hring.link _ _ hwritten
  have hlater : s.tailQueue < s.caretQueue := by
    refine lt_of_le_of_ne htail fun heq => ha.notPassed ?_
    rw [← heq]
    refine ⟨?_, (linked_iff hring).mpr ⟨_, _, hwritten⟩⟩
    have hle := hok.seen_le
    omega
  refine getTrashLoop_stopped ?_ ?_ fun _ _ _ => rfl
  · have hkept := ((hinv.ring (s.tailQueue + 1) (by have := hinv.caret_lt; omega)).kept (Nat.lt_succ_self _)).2
    have hother : (s.tailMoved.tailLeft (s.tailQueue + 1)).ring (s.tailQueue + 1) =
        s.ring (s.tailQueue + 1) := by
      simp [AdapterBase.tailLeft, AdapterBase.tailMoved, AdapterBase.ring, AdapterBase.touch,
        List.getD_eq_getElem?_getD, List.getElem?_set]
    refine isLive_iff.mpr ⟨?_, ?_⟩
    · have hlt := hinv.caret_lt
      simp only [AdapterBase.tailLeft, AdapterBase.tailMoved, length_touch]
      omega
    · show ((s.tailMoved.tailLeft (s.tailQueue + 1)).ring (s.tailQueue + 1)).live = true
      rw [hother, hkept]
  · show s.tailQueue + 1 ≠ s.headQueue
    omega

theorem recycled_stopped (hs : Serving P T s) (ha : Adapting R s) (hc : s.caretQueue < s.headQueue) (k : Nat) :
    recycled k s.stopped = recycled k s := by
  induction k generalizing T s with
  | zero => rfl
  | succ k ih =>
    obtain ⟨-, hs', ha', hstep⟩ := getTrash_alone hs ha
    have hlen := hs.2.length
    have hlen' := hs'.2.length
    have hle := hstep.length
    rw [recycled, recycled, getTrash_stopped hs ha hc.ne]
    refine congrArg _ (ih hs' ha' ?_)
    rw [hstep.caretQueue]
    omega

/-- **A stop that does not wait**, between two calls.  The adapter finds nothing more to read.  Where its
caret was in the newest ring, all that was put comes back to the server, as if it had been read; where
the queue went on in another ring, only what was read comes back, and the rest never. -/
theorem queue_forcedStop (server : ServerCalls α) (adapter : AdapterCalls α) (schedule : List Pair.Side)
    {puts trash reads : List α} (hserver : (queueRun server adapter schedule).left = .ret (puts, trash))
    (hadapter : (queueRun server adapter schedule).right = .ret reads) :
    let s := (queueRun server adapter schedule).state
    let s' := (forcedStop.run s).2
    (readCaret.run s').1 = none ∧
      ∀ k, recycled k s' = ((if s.caretQueue = s.headQueue then puts else reads).drop trash.length).take k := by
  intro s s'
  obtain ⟨-, hs, ha⟩ := queueRun_holds server adapter schedule
  rw [hserver] at hs
  rw [hadapter] at ha
  replace hs : Serving puts trash s := hs
  replace ha : Adapting reads s := ha
  have hlen := hs.2.length
  have hring : s.stopped.ring s.headQueue =
      { s.ring s.headQueue with
        caret := (s.ring s.headQueue).head
        seen := (s.ring s.headQueue).written.length } := by
    rw [AdapterBase.stopped, ring_touch (by show s.headQueue < s.queues.length; omega), if_pos rfl]
    rfl
  have hs' : s' = s.stopped := forcedStop_run hs
  rw [hs']
  refine ⟨?_, fun k => ?_⟩
  · have hcaret : (s.stopped.ring s.headQueue).caret = (s.stopped.ring s.headQueue).head := by rw [hring]
    have hread : (read Access.adapter fun s : AdapterBase α => s.caretQueue).run s.stopped =
        (s.headQueue, s.stopped) := rfl
    rw [readCaret, bind_eq, run_bind, peekCaret, peekCaretLoop, bind_eq, run_bind, hread, bind_eq, run_bind,
      run_readRing]
    dsimp only
    rw [if_pos hcaret]
    rfl
  · split
    · next hc =>
      obtain ⟨hserving, hadapting⟩ := hs.stopped hc
      exact recycled_eq hserving hadapting k
    · next hc =>
      have hlt := hs.1.inv.caret_lt
      rw [recycled_stopped hs ha (by omega) k]
      exact recycled_eq hs ha k

/-- In the middle of a poll the buffer that the adapter has peeked at comes back to the server, which
frees it. -/
example :
    let peeked := peekCaret.run ((putBuffer 5).run (AdapterBase.start : AdapterBase Nat)).2
    peeked.1 = some 5 ∧ (getTrash.run (forcedStop.run peeked.2).2).1 = some 5 := ⟨rfl, rfl⟩

end runs

end LiberaLink.Idn
