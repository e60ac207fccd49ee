import Mathlib.Data.List.Infix
import LiberaLink.Lib.Parallel

/-!
# The queue between the IDN server and an adapter

The server hands its buffers to an adapter through a ring, and the adapter gives them back through the
same ring: the caret moves behind the head, and the tail behind the caret.  There is no lock.  Where a
ring is full the server allocates one of twice its size and puts the pointer to it in the last slot;
caret and tail follow it, and the tail frees the ring that it leaves.

The server and the adapter are programs of single accesses to the memory they share.  A ring carries
the history of what was written to it, which no access looks at.

* `putBuffer`, `getTrash`       what the server does; `peekCaret`, `readCaret` what the adapter does;
* `AdapterBase.Inv`             the rings, and how they are linked;
* `ServerStep`, `AdapterStep`   what the one does to the other.
-/

namespace LiberaLink.Idn
open Stepwise Stepwise.Prog

variable {α : Type}

/-- a word of a ring; the low bit tells a buffer from a ring -/
inductive Entry (α : Type) where
  | item (a : α)
  | queue (q : Nat)
  deriving DecidableEq

structure QueueBuffer (α : Type) where
  size : Nat
  head : Nat
  caret : Nat
  tail : Nat
  /-- the words behind the header; one that was never written has no value -/
  entries : Nat → Option (Entry α)
  live : Bool
  /-- history: the entries that the head has passed -/
  written : List (Entry α)
  /-- history: how many of them the caret has passed, and the tail -/
  seen : Nat
  removed : Nat

/-- The state of the queue.  A pointer to a ring is its number in the order of allocation. -/
structure AdapterBase (α : Type) where
  queues : List (QueueBuffer α)
  headQueue : Nat
  caretQueue : Nat
  tailQueue : Nat
  /-- a ring was touched that is not there, or a word was used that was never written -/
  fault : Bool

def QueueBuffer.alloc (size : Nat) : QueueBuffer α where
  size := size
  head := 0
  caret := 0
  tail := 0
  entries := fun _ => none
  live := true
  written := []
  seen := 0
  removed := 0

def AdapterBase.start : AdapterBase α where
  queues := [.alloc 16]
  headQueue := 0
  caretQueue := 0
  tailQueue := 0
  fault := false

/-! ## the accesses -/

namespace AdapterBase

def ring (s : AdapterBase α) (q : Nat) : QueueBuffer α := s.queues.getD q (.alloc 0)

/-- the ring can be touched -/
def isLive (s : AdapterBase α) (q : Nat) : Bool := q < s.queues.length ∧ (s.ring q).live

/-- an access to a ring -/
def touch (s : AdapterBase α) (q : Nat) (change : QueueBuffer α → QueueBuffer α) : AdapterBase α :=
  { s with
    queues := s.queues.set q (change (s.ring q))
    fault := s.fault || !s.isLive q }

end AdapterBase

/-- the accesses, by who makes them -/
inductive Access where
  | server
  | adapter

abbrev QueueProg (α β : Type) := Prog Access (AdapterBase α) β

/-- a read of one field of a ring, or of fields that no one else writes -/
def readRing {β : Type} (who : Access) (q : Nat) (field : QueueBuffer α → β) : QueueProg α β :=
  exchange who (fun s => field (s.ring q)) fun s => s.touch q id

def writeRing (who : Access) (q : Nat) (change : QueueBuffer α → QueueBuffer α) : QueueProg α Unit :=
  modify who fun s => s.touch q change

/-- a word without a value is used -/
def wild {β : Type} (who : Access) (b : β) : QueueProg α β := do
  modify who fun s => { s with fault := true }
  return b

def writeEntry (q i : Nat) (e : Entry α) : QueueProg α Unit :=
  writeRing .server q fun r => { r with entries := fun j => if j = i then some e else r.entries j }

def moveHead (q : Nat) (e : Entry α) : QueueProg α Unit :=
  writeRing .server q fun r => { r with head := (r.head + 1) % r.size, written := r.written ++ [e] }

def moveTail (q : Nat) : QueueProg α Unit :=
  writeRing .server q fun r => { r with tail := (r.tail + 1) % r.size, removed := r.removed + 1 }

def moveCaret (q : Nat) : QueueProg α Unit :=
  writeRing .adapter q fun r => { r with caret := (r.caret + 1) % r.size, seen := r.seen + 1 }

/-- an entry is written, and only then the head moves -/
def addEntry (q head : Nat) (e : Entry α) : QueueProg α Unit := do
  writeEntry q head e
  moveHead q e

def allocQueue (size : Nat) : QueueProg α Nat :=
  exchange .server (fun s => s.queues.length) fun s => { s with queues := s.queues ++ [.alloc size] }

def freeQueue (q : Nat) : QueueProg α Unit := writeRing .server q fun r => { r with live := false }

/-! ## the server -/

def putBuffer (taxiBuffer : α) : QueueProg α Unit := do
  let headQueue ← read .server fun s => s.headQueue
  let r ← readRing .server headQueue fun r => (r.head, r.tail, r.size)
  when ((r.1 + 2) % r.2.2 = r.2.1) do
    -- full: a new ring becomes the last item
    let queue ← allocQueue (r.2.2 * 2)
    addEntry headQueue r.1 (.queue queue)
    modify .server fun s => { s with headQueue := queue }
  let headQueue ← read .server fun s => s.headQueue
  let head ← readRing .server headQueue fun r => r.head
  addEntry headQueue head (.item taxiBuffer)

/-- The loop of `getTrash`.  It comes round once for every ring that the tail leaves. -/
def getTrashLoop : Nat → QueueProg α (Option α)
  | 0 => wild .server none
  | turns + 1 => do
    let tailQueue ← read .server fun s => s.tailQueue
    let r ← readRing .server tailQueue fun r => (r.tail, r.caret)
    if r.1 = r.2 then return none
    else
      let entry ← readRing .server tailQueue fun q => q.entries r.1
      moveTail tailQueue
      match entry with
      | none => wild .server none
      | some (.item taxiBuffer) => return some taxiBuffer
      | some (.queue queue) => do
        freeQueue tailQueue
        modify .server fun s => { s with tailQueue := queue }
        getTrashLoop turns

def getTrash : QueueProg α (Option α) := getTrashLoop 2

/-- `stop(true)`: nothing is done while the adapter has buffers to read. -/
def gracefulStop : QueueProg α Bool := do
  let caretQueue ← read .server fun s => s.caretQueue
  let headQueue ← read .server fun s => s.headQueue
  if caretQueue ≠ headQueue then return false
  else
    let r ← readRing .server headQueue fun r => (r.caret, r.head)
    if r.1 ≠ r.2 then return false
    else
      modify .server fun s => { s with caretQueue := headQueue }
      writeRing .server headQueue fun r => { r with caret := r.head }
      return true

/-- `stop(false)`: the caret goes to the head of the newest ring, wherever it was. -/
def forcedStop : QueueProg α Unit := do
  let headQueue ← read .server fun s => s.headQueue
  modify .server fun s => { s with caretQueue := headQueue }
  let head ← readRing .server headQueue fun r => r.head
  writeRing .server headQueue fun r => { r with caret := head, seen := r.written.length }

/-! ## the adapter -/

/-- The loop of `peekCaret`.  It comes round once for every ring that the caret leaves. -/
def peekCaretLoop : Nat → QueueProg α (Option α)
  | 0 => wild .adapter none
  | turns + 1 => do
    let caretQueue ← read .adapter fun s => s.caretQueue
    let r ← readRing .adapter caretQueue fun r => (r.caret, r.head)
    if r.1 = r.2 then return none
    else
      let entry ← readRing .adapter caretQueue fun q => q.entries r.1
      match entry with
      | none => wild .adapter none
      | some (.item taxiBuffer) => return some taxiBuffer
      | some (.queue queue) => do
        moveCaret caretQueue
        modify .adapter fun s => { s with caretQueue := queue }
        peekCaretLoop turns

def peekCaret : QueueProg α (Option α) := peekCaretLoop 2

def readCaret : QueueProg α (Option α) := do
  let result ← peekCaret
  match result with
  | none => return none
  | some taxiBuffer => do
    let caretQueue ← read .adapter fun s => s.caretQueue
    moveCaret caretQueue
    return some taxiBuffer

/-! ## what went through the queue -/

/-- the buffers among the entries of a ring -/
def items (entries : List (Entry α)) : List α :=
  entries.filterMap fun e => match e with
    | .item a => some a
    | .queue _ => none

namespace AdapterBase

def puts (s : AdapterBase α) : List α := s.queues.flatMap fun r => items r.written

def reads (s : AdapterBase α) : List α := s.queues.flatMap fun r => items (r.written.take r.seen)

def trash (s : AdapterBase α) : List α := s.queues.flatMap fun r => items (r.written.take r.removed)

end AdapterBase

/-! ## the rings -/

/-- the last entry is the pointer to another ring -/
def Linked (entries : List (Entry α)) : Prop := ∃ q, entries.getLast? = some (.queue q)

/-- The indices of a ring are its history, modulo its size.  A ring without a link keeps a slot free
for it, besides the one that tells a full ring from an empty one. -/
structure QueueBuffer.Ok (r : QueueBuffer α) : Prop where
  size : 3 ≤ r.size
  head : r.head = r.written.length % r.size
  caret : r.caret = r.seen % r.size
  tail : r.tail = r.removed % r.size
  removed_le : r.removed ≤ r.seen
  seen_le : r.seen ≤ r.written.length
  room : r.written.length < r.removed + r.size
  slack : ¬ Linked r.written → r.written.length + 2 ≤ r.removed + r.size
  entries : ∀ i e, r.removed ≤ i → r.written[i]? = some e → r.entries (i % r.size) = some e

/-- all of the ring was read, its link too -/
def QueueBuffer.Passed (r : QueueBuffer α) : Prop := r.seen = r.written.length ∧ Linked r.written

/-- all of the ring was given back, its link too -/
def QueueBuffer.Emptied (r : QueueBuffer α) : Prop := r.removed = r.written.length ∧ Linked r.written

/-- Ring `k` of `count` rings: its only link is its last entry and leads to the next ring, the caret is
past the rings before its own, and the tail has freed the rings before its own. -/
structure RingAt (count caretQueue tailQueue k : Nat) (r : QueueBuffer α) : Prop where
  ok : r.Ok
  link : ∀ i q, r.written[i]? = some (.queue q) →
    i + 1 = r.written.length ∧ 0 < i ∧ q = k + 1 ∧ k + 1 < count
  behind : k < caretQueue → r.Passed
  ahead : caretQueue < k → r.seen = 0
  freed : k < tailQueue → r.Emptied ∧ r.live = false
  last : k = tailQueue → r.live = true ∨ r.Emptied
  kept : tailQueue < k → r.removed = 0 ∧ r.live = true

structure AdapterBase.Inv (s : AdapterBase α) : Prop where
  fault : s.fault = false
  caret_lt : s.caretQueue < s.queues.length
  tail_lt : s.tailQueue < s.queues.length
  ring : ∀ k < s.queues.length, RingAt s.queues.length s.caretQueue s.tailQueue k (s.ring k)
  /-- a ring is used once the ring before it leads to it -/
  order : ∀ k, (s.ring (k + 1)).written ≠ [] → Linked (s.ring k).written

section rings
variable {s : AdapterBase α} {r : QueueBuffer α} {q k : Nat} {f : QueueBuffer α → QueueBuffer α}

/-- two indices of a ring meet where their histories do -/
theorem mod_eq_iff (size : Nat) {a b : Nat} (hle : a ≤ b) (hlt : b < a + size) : a % size = b % size ↔ a = b := by
  refine ⟨fun h => ?_, fun h => by rw [h]⟩
  have hzero : (b - a) % size = 0 := Nat.sub_mod_eq_zero_of_mod_eq h.symm
  rw [Nat.mod_eq_of_lt (by omega)] at hzero
  omega

theorem ring_touch (hq : q < s.queues.length) :
    (s.touch q f).ring k = if k = q then f (s.ring q) else s.ring k := by
  simp only [AdapterBase.ring, AdapterBase.touch, List.getD_eq_getElem?_getD, List.getElem?_set]
  by_cases hk : k = q
  · subst hk
    simp [hq]
  · simp [hk, Ne.symm hk]

@[simp] theorem length_touch : (s.touch q f).queues.length = s.queues.length := by
  simp [AdapterBase.touch]

@[simp] theorem caretQueue_touch : (s.touch q f).caretQueue = s.caretQueue := rfl

@[simp] theorem tailQueue_touch : (s.touch q f).tailQueue = s.tailQueue := rfl

@[simp] theorem headQueue_touch : (s.touch q f).headQueue = s.headQueue := rfl

theorem isLive_iff : s.isLive q = true ↔ q < s.queues.length ∧ (s.ring q).live = true := by
  simp [AdapterBase.isLive]

theorem touch_id (hq : s.isLive q = true) : s.touch q id = s := by
  obtain ⟨hlt, -⟩ := isLive_iff.mp hq
  have hset : s.queues.set q (s.ring q) = s.queues := by
    rw [AdapterBase.ring, List.getD_eq_getElem?_getD, List.getElem?_eq_getElem hlt, Option.getD_some,
      List.set_getElem_self]
  simp only [AdapterBase.touch, id, hset, hq, Bool.not_true, Bool.or_false]

/-- An access to one live ring, which leaves what was written there or adds to what has no link yet. -/
theorem AdapterBase.Inv.touch (h : s.Inv) (hq : s.isLive q = true)
    (hf : RingAt s.queues.length s.caretQueue s.tailQueue q (f (s.ring q)))
    (hwritten : (f (s.ring q)).written = (s.ring q).written ∨
      ¬ Linked (s.ring q).written ∧ ∀ k, k + 1 = q → Linked (s.ring k).written) : (s.touch q f).Inv where
  fault := by simp [AdapterBase.touch, h.fault, hq]
  caret_lt := by simpa using h.caret_lt
  tail_lt := by simpa using h.tail_lt
  ring k hk := by
    rw [length_touch] at hk ⊢
    rw [ring_touch (isLive_iff.mp hq).1]
    split
    · next hkq => rw [hkq]; exact hf
    · exact h.ring k hk
  order k := by
    have hlt := (isLive_iff.mp hq).1
    rw [ring_touch hlt, ring_touch hlt]
    rcases hwritten with hsame | ⟨hopen, hprev⟩
    · have hk := h.order k
      split <;> split <;> simp_all
    · intro hused
      by_cases hk : k + 1 = q
      · rw [if_neg (by omega)]
        exact hprev k hk
      · rw [if_neg hk] at hused
        have hk' : k ≠ q := fun heq => hopen (heq ▸ h.order k hused)
        rw [if_neg hk']
        exact h.order k hused

/-- the caret's ring can be touched until the caret has left it -/
theorem AdapterBase.Inv.caret_live (h : s.Inv) (hready : ¬ (s.ring s.caretQueue).Passed) :
    s.isLive s.caretQueue = true := by
  have hring := h.ring _ h.caret_lt
  refine isLive_iff.mpr ⟨h.caret_lt, ?_⟩
  have hpassed : (s.ring s.caretQueue).Emptied → (s.ring s.caretQueue).Passed := fun he => by
    have h1 := hring.ok.removed_le
    have h2 := hring.ok.seen_le
    exact ⟨by have := he.1; omega, he.2⟩
  rcases Nat.lt_trichotomy s.caretQueue s.tailQueue with hlt | heq | hgt
  · exact absurd (hpassed (hring.freed hlt).1) hready
  · exact (hring.last heq).resolve_right fun he => hready (hpassed he)
  · exact (hring.kept hgt).2

/-- the newest ring is never freed while it has no link -/
theorem AdapterBase.Inv.unlinked_live (h : s.Inv) (hk : k < s.queues.length)
    (hlink : ¬ Linked (s.ring k).written) : s.isLive k = true := by
  have hring := h.ring k hk
  refine isLive_iff.mpr ⟨hk, ?_⟩
  rcases Nat.lt_trichotomy k s.tailQueue with hlt | heq | hgt
  · exact absurd (hring.freed hlt).1.2 hlink
  · exact (hring.last heq).resolve_right fun he => hlink he.2
  · exact (hring.kept hgt).2

theorem linked_iff (h : RingAt s.queues.length s.caretQueue s.tailQueue k r) :
    Linked r.written ↔ ∃ (i q : Nat), r.written[i]? = some (Entry.queue q) := by
  constructor
  · rintro ⟨q, hlast⟩
    exact ⟨_, q, by rwa [List.getLast?_eq_getElem?] at hlast⟩
  · rintro ⟨i, q, hi⟩
    have hlast := (h.link i q hi).1
    exact ⟨q, by rw [List.getLast?_eq_getElem?, ← hi]; congr 1; omega⟩

/-! ## what the accesses make of a ring -/

variable {count caretQueue tailQueue : Nat} {e : Entry α}

theorem RingAt.writeEntry (h : RingAt count caretQueue tailQueue k r) :
    RingAt count caretQueue tailQueue k
      { r with entries := fun j => if j = r.head then some e else r.entries j } where
  ok :=
    { h.ok with
      entries := by
        intro i e' hi he
        have hlt : i < r.written.length := (List.getElem?_eq_some_iff.mp he).1
        have hroom := h.ok.room
        have hspan : r.written.length < i + r.size :=
          Nat.lt_of_lt_of_le hroom (Nat.add_le_add_right hi _)
        have hother : ¬ i % r.size = r.head := by
          rw [h.ok.head, mod_eq_iff _ hlt.le hspan]
          exact hlt.ne
        simp only [if_neg hother]
        exact h.ok.entries i e' hi he }
  link := h.link
  behind := h.behind
  ahead := h.ahead
  freed := h.freed
  last := h.last
  kept := h.kept

/-- The head passes an entry that was written at it: a buffer, while there is room for a link behind
it, or the link to the next ring. -/
theorem RingAt.moveHead (h : RingAt count caretQueue tailQueue k r) (hlinked : ¬ Linked r.written)
    (he : r.entries r.head = some e)
    (hitem : ∀ a, e = .item a → r.written.length + 3 ≤ r.removed + r.size)
    (hlink : ∀ q, e = .queue q → 0 < r.written.length ∧ q = k + 1 ∧ k + 1 < count) :
    RingAt count caretQueue tailQueue k
      { r with head := (r.head + 1) % r.size, written := r.written ++ [e] } where
  ok :=
    { h.ok with
      head := by
        simp only [List.length_append, List.length_singleton, h.ok.head, Nat.mod_add_mod]
      seen_le := by
        have := h.ok.seen_le
        simp only [List.length_append, List.length_singleton]
        omega
      room := by
        have := h.ok.slack hlinked
        simp only [List.length_append, List.length_singleton]
        omega
      slack := by
        intro hopen
        simp only [List.length_append, List.length_singleton]
        cases e with
        | item a => have := hitem a rfl; omega
        | queue q => exact absurd ⟨q, by simp⟩ hopen
      entries := by
        intro i e' hi hw
        rw [List.getElem?_append] at hw
        split at hw
        · exact h.ok.entries i e' hi hw
        · next hge =>
          have hlt := (List.getElem?_eq_some_iff.mp hw).1
          have hi' : i = r.written.length := by simp only [List.length_singleton] at hlt; omega
          rw [hi', Nat.sub_self, List.getElem?_cons_zero, Option.some.injEq] at hw
          rw [← hw, ← he, hi', ← h.ok.head] }
  link := by
    intro i q hw
    rw [List.getElem?_append] at hw
    split at hw
    · have hlast := (h.link i q hw).1
      exact absurd ⟨q, by rw [List.getLast?_eq_getElem?, ← hw]; congr 1; omega⟩ hlinked
    · next hge =>
      have hlt := (List.getElem?_eq_some_iff.mp hw).1
      have hi' : i = r.written.length := by simp only [List.length_singleton] at hlt; omega
      rw [hi', Nat.sub_self, List.getElem?_cons_zero, Option.some.injEq] at hw
      rw [hi', List.length_append, List.length_singleton]
      exact ⟨rfl, hlink q hw⟩
  behind hk := absurd (h.behind hk).2 hlinked
  ahead := h.ahead
  freed hk := absurd (h.freed hk).1.2 hlinked
  last hk := .inl ((h.last hk).resolve_right fun he => hlinked he.2)
  kept := h.kept

theorem RingAt.moveTail (h : RingAt count caretQueue tailQueue tailQueue r) (hlive : r.live = true)
    (hseen : r.removed < r.seen) :
    RingAt count caretQueue tailQueue tailQueue
      { r with tail := (r.tail + 1) % r.size, removed := r.removed + 1 } where
  ok :=
    { h.ok with
      tail := by simp only [h.ok.tail, Nat.mod_add_mod]
      removed_le := hseen
      room := by have := h.ok.room; simp only; omega
      slack := fun hopen => by have := h.ok.slack hopen; simp only; omega
      entries := fun i e hi hw => h.ok.entries i e (Nat.le_of_succ_le hi) hw }
  link := h.link
  behind := h.behind
  ahead := h.ahead
  freed hk := absurd hk (Nat.lt_irrefl _)
  last _ := .inl hlive
  kept hk := absurd hk (Nat.lt_irrefl _)

theorem RingAt.free (h : RingAt count caretQueue tailQueue tailQueue r) (hempty : r.Emptied) :
    RingAt count caretQueue tailQueue tailQueue { r with live := false } where
  ok := { h.ok with }
  link := h.link
  behind := h.behind
  ahead := h.ahead
  freed hk := absurd hk (Nat.lt_irrefl _)
  last _ := .inr hempty
  kept hk := absurd hk (Nat.lt_irrefl _)

theorem RingAt.moveCaret (h : RingAt count caretQueue tailQueue caretQueue r)
    (hseen : r.seen < r.written.length) :
    RingAt count caretQueue tailQueue caretQueue
      { r with caret := (r.caret + 1) % r.size, seen := r.seen + 1 } where
  ok :=
    { h.ok with
      caret := by simp only [h.ok.caret, Nat.mod_add_mod]
      removed_le := by have := h.ok.removed_le; simp only; omega
      seen_le := hseen }
  link := h.link
  behind hk := absurd hk (Nat.lt_irrefl _)
  ahead hk := absurd hk (Nat.lt_irrefl _)
  freed := h.freed
  last := h.last
  kept := h.kept

end rings

section states
variable {s : AdapterBase α}

theorem ring_of_le {k : Nat} (hk : s.queues.length ≤ k) : s.ring k = .alloc 0 := by
  rw [AdapterBase.ring, List.getD_eq_getElem?_getD, List.getElem?_eq_none hk, Option.getD_none]

theorem ring_alloc (size k : Nat) :
    AdapterBase.ring { s with queues := s.queues ++ [.alloc size] } k =
      if k = s.queues.length then .alloc size else s.ring k := by
  rw [AdapterBase.ring, AdapterBase.ring, List.getD_eq_getElem?_getD, List.getD_eq_getElem?_getD]
  rcases Nat.lt_trichotomy k s.queues.length with hlt | rfl | hgt
  · rw [List.getElem?_append_left hlt, if_neg hlt.ne]
  · simp
  · rw [if_neg hgt.ne', List.getElem?_eq_none hgt.le, List.getElem?_eq_none (by simp; omega)]

theorem AdapterBase.Inv.alloc (h : s.Inv) {size : Nat} (hsize : 3 ≤ size) :
    AdapterBase.Inv { s with queues := s.queues ++ [.alloc size] } where
  fault := h.fault
  caret_lt := by have := h.caret_lt; simp only [List.length_append]; omega
  tail_lt := by have := h.tail_lt; simp only [List.length_append]; omega
  ring k hk := by
    have hc := h.caret_lt
    have ht := h.tail_lt
    simp only [List.length_append, List.length_singleton] at hk ⊢
    rcases Nat.lt_succ_iff_lt_or_eq.mp hk with hold | rfl
    · have hring : AdapterBase.ring { s with queues := s.queues ++ [.alloc size] } k = s.ring k := by
        simp [AdapterBase.ring, List.getD_eq_getElem?_getD, List.getElem?_append_left hold]
      have hr := h.ring k hold
      rw [hring]
      exact { hr with
        link := fun i q hw => by
          have := hr.link i q hw
          exact ⟨this.1, this.2.1, this.2.2.1, by omega⟩ }
    · have hring : AdapterBase.ring { s with queues := s.queues ++ [.alloc size] } s.queues.length =
          .alloc size := by
        simp [AdapterBase.ring, List.getD_eq_getElem?_getD]
      rw [hring]
      exact {
        ok := {
          size := hsize
          head := by simp [QueueBuffer.alloc]
          caret := by simp [QueueBuffer.alloc]
          tail := by simp [QueueBuffer.alloc]
          removed_le := Nat.le_refl _
          seen_le := Nat.le_refl _
          room := by simp only [QueueBuffer.alloc, List.length_nil]; omega
          slack := fun _ => by simp only [QueueBuffer.alloc, List.length_nil]; omega
          entries := fun i e _ hw => by simp [QueueBuffer.alloc] at hw }
        link := fun i q hw => by simp [QueueBuffer.alloc] at hw
        behind := fun hlt => absurd hlt (by omega)
        ahead := fun _ => rfl
        freed := fun hlt => absurd hlt (by omega)
        last := fun _ => .inl rfl
        kept := fun _ => ⟨rfl, rfl⟩ }
  order k hused := by
    rw [ring_alloc] at hused ⊢
    split at hused
    · exact absurd rfl hused
    · next hk =>
      have hlt : k + 1 < s.queues.length := by
        by_contra hge
        exact hused (by rw [ring_of_le (by omega)]; rfl)
      rw [if_neg (by omega)]
      exact h.order k hused

/-- the caret goes on to the next ring -/
theorem AdapterBase.Inv.nextCaret (h : s.Inv) (hpassed : (s.ring s.caretQueue).Passed)
    (hnext : s.caretQueue + 1 < s.queues.length) :
    AdapterBase.Inv { s with caretQueue := s.caretQueue + 1 } where
  fault := h.fault
  caret_lt := hnext
  tail_lt := h.tail_lt
  ring k hk :=
    { h.ring k hk with
      behind := fun hlt => by
        rcases Nat.lt_succ_iff_lt_or_eq.mp hlt with hold | rfl
        · exact (h.ring k hk).behind hold
        · exact hpassed
      ahead := fun hgt => (h.ring k hk).ahead (Nat.lt_of_succ_lt hgt) }
  order := h.order

/-- the tail goes on to the next ring -/
theorem AdapterBase.Inv.nextTail (h : s.Inv) (hempty : (s.ring s.tailQueue).Emptied)
    (hfreed : (s.ring s.tailQueue).live = false) (hnext : s.tailQueue + 1 < s.queues.length) :
    AdapterBase.Inv { s with tailQueue := s.tailQueue + 1 } where
  fault := h.fault
  caret_lt := h.caret_lt
  tail_lt := hnext
  ring k hk :=
    { h.ring k hk with
      freed := fun hlt => by
        rcases Nat.lt_succ_iff_lt_or_eq.mp hlt with hold | rfl
        · exact (h.ring k hk).freed hold
        · exact ⟨hempty, hfreed⟩
      last := fun heq => .inl ((h.ring k hk).kept (by rw [heq]; exact Nat.lt_succ_self _)).2
      kept := fun hgt => (h.ring k hk).kept (Nat.lt_of_succ_lt hgt) }
  order := h.order

theorem AdapterBase.inv_start : (AdapterBase.start : AdapterBase α).Inv where
  fault := rfl
  caret_lt := Nat.zero_lt_one
  tail_lt := Nat.zero_lt_one
  ring k hk := by
    obtain rfl : k = 0 := by simpa [AdapterBase.start] using hk
    exact {
      ok := {
        size := by simp [AdapterBase.ring, AdapterBase.start, QueueBuffer.alloc]
        head := rfl
        caret := rfl
        tail := rfl
        removed_le := Nat.le_refl _
        seen_le := Nat.le_refl _
        room := by simp [AdapterBase.ring, AdapterBase.start, QueueBuffer.alloc]
        slack := fun _ => by simp [AdapterBase.ring, AdapterBase.start, QueueBuffer.alloc]
        entries := fun i e _ hw => by simp [AdapterBase.ring, AdapterBase.start, QueueBuffer.alloc] at hw }
      link := fun i q hw => by simp [AdapterBase.ring, AdapterBase.start, QueueBuffer.alloc] at hw
      behind := fun hlt => absurd hlt (Nat.not_lt_zero _)
      ahead := fun _ => rfl
      freed := fun hlt => absurd hlt (Nat.not_lt_zero _)
      last := fun _ => .inl rfl
      kept := fun _ => ⟨rfl, rfl⟩ }
  order k hused := absurd (by rw [ring_of_le (by simp [AdapterBase.start])]; rfl) hused

end states

/-! ## the histories of all rings together -/

section histories
variable {β γ : Type}

/-- What the rings hold together is known from what each of them holds. -/
theorem flatMap_queues (s : AdapterBase α) (f : QueueBuffer α → List β) :
    s.queues.flatMap f = (List.range s.queues.length).flatMap fun k => f (s.ring k) := by
  have hqueues : s.queues = (List.range s.queues.length).map fun k => s.ring k := by
    refine List.ext_getElem (by simp) fun k hk hk' => ?_
    simp [AdapterBase.ring, List.getD_eq_getElem?_getD, hk]
  conv_lhs => rw [hqueues]
  rw [List.flatMap_map]

/-- Two strands that are equal up to a place, where the one is behind the other, and after which it has
nothing. -/
theorem flatMap_range_prefix {f g : Nat → List β} (n p : Nat) (hbefore : ∀ k < p, f k = g k)
    (hat : f p <+: g p) (hafter : ∀ k, p < k → f k = []) :
    (List.range n).flatMap f <+: (List.range n).flatMap g := by
  induction n with
  | zero => exact List.prefix_refl _
  | succ n ih =>
    rw [List.range_succ, List.flatMap_append, List.flatMap_append, List.flatMap_singleton,
      List.flatMap_singleton]
    rcases Nat.lt_trichotomy n p with hlt | heq | hgt
    · have hsame : (List.range n).flatMap f = (List.range n).flatMap g :=
        List.flatMap_congr fun k hk => hbefore k ((List.mem_range.mp hk).trans hlt)
      rw [hsame, hbefore n hlt]
    · have hsame : (List.range n).flatMap f = (List.range n).flatMap g :=
        List.flatMap_congr fun k hk => hbefore k (heq ▸ List.mem_range.mp hk)
      rw [hsame, heq]
      exact List.prefix_append_right_inj _ |>.mpr hat
    · rw [hafter n hgt, List.append_nil]
      exact ih.trans (List.prefix_append _ _)

/-- A strand grows at the last place that holds anything. -/
theorem flatMap_range_grow {f g : Nat → List β} {n p : Nat} {l : List β} (hp : p < n)
    (hother : ∀ k, k ≠ p → g k = f k) (hat : g p = f p ++ l) (hafter : ∀ k, p < k → f k = []) :
    (List.range n).flatMap g = (List.range n).flatMap f ++ l := by
  induction n with
  | zero => exact absurd hp (Nat.not_lt_zero _)
  | succ n ih =>
    simp only [List.range_succ, List.flatMap_append, List.flatMap_singleton]
    rcases Nat.lt_succ_iff_lt_or_eq.mp hp with hlt | rfl
    · rw [ih hlt, hother n (by omega), hafter n hlt, List.append_nil, List.append_nil]
    · have hsame : (List.range p).flatMap g = (List.range p).flatMap f :=
        List.flatMap_congr fun k hk => hother k (List.mem_range.mp hk).ne
      rw [hsame, hat, List.append_assoc]

variable {s : AdapterBase α}

/-- no ring after the caret's was read -/
theorem AdapterBase.Inv.unread (h : s.Inv) {k : Nat} (hk : s.caretQueue < k) : (s.ring k).seen = 0 := by
  rcases Nat.lt_or_ge k s.queues.length with hlt | hge
  · exact (h.ring k hlt).ahead hk
  · rw [ring_of_le hge]
    rfl

/-- no ring after the tail's was given back -/
theorem AdapterBase.Inv.unreturned (h : s.Inv) {k : Nat} (hk : s.tailQueue < k) :
    (s.ring k).removed = 0 := by
  rcases Nat.lt_or_ge k s.queues.length with hlt | hge
  · exact ((h.ring k hlt).kept hk).1
  · rw [ring_of_le hge]
    rfl

theorem AdapterBase.Inv.removed_le (h : s.Inv) {k : Nat} (hk : k < s.queues.length) :
    (s.ring k).removed ≤ (s.ring k).seen := (h.ring k hk).ok.removed_le

theorem AdapterBase.Inv.seen_le (h : s.Inv) {k : Nat} (hk : k < s.queues.length) :
    (s.ring k).seen ≤ (s.ring k).written.length := (h.ring k hk).ok.seen_le

theorem items_append (xs ys : List (Entry α)) : items (xs ++ ys) = items xs ++ items ys :=
  List.filterMap_append

theorem items_isPrefix {xs ys : List (Entry α)} (h : xs <+: ys) : items xs <+: items ys := by
  obtain ⟨zs, rfl⟩ := h
  exact ⟨items zs, (items_append xs zs).symm⟩

/-- what was read was put, and in this order -/
theorem AdapterBase.Inv.reads_prefix (h : s.Inv) : s.reads <+: s.puts := by
  rw [AdapterBase.reads, AdapterBase.puts, flatMap_queues, flatMap_queues]
  refine flatMap_range_prefix _ s.caretQueue (fun k hk => ?_) ?_ fun k hk => ?_
  · have hpassed := (h.ring k (hk.trans h.caret_lt)).behind hk
    rw [hpassed.1, List.take_length]
  · exact items_isPrefix (List.take_prefix _ _)
  · rw [h.unread hk]
    rfl

/-- what was given back was read, and in this order -/
theorem AdapterBase.Inv.trash_prefix (h : s.Inv) : s.trash <+: s.reads := by
  rw [AdapterBase.trash, AdapterBase.reads, flatMap_queues, flatMap_queues]
  refine flatMap_range_prefix _ s.tailQueue (fun k hk => ?_) ?_ fun _ hk => ?_
  · have hlt := hk.trans h.tail_lt
    have hempty := ((h.ring k hlt).freed hk).1
    have hremoved := h.removed_le hlt
    have hseen := h.seen_le hlt
    have hsame : (s.ring k).removed = (s.ring k).seen := by have := hempty.1; omega
    rw [hsame]
  · refine items_isPrefix ?_
    rw [List.prefix_take_iff]
    refine ⟨List.take_prefix _ _, ?_⟩
    rw [List.length_take]
    exact (Nat.min_le_left _ _).trans (h.removed_le h.tail_lt)
  · rw [h.unreturned hk]
    rfl

end histories

/-! ## what the one does to the other -/

/-- A step of the server: the caret stays, and what was put. -/
structure ServerStep (s s' : AdapterBase α) : Prop where
  inv : s.Inv → s'.Inv
  caretQueue : s'.caretQueue = s.caretQueue
  length : s.queues.length ≤ s'.queues.length
  caret : ∀ k, (s'.ring k).caret = (s.ring k).caret
  seen : ∀ k, (s'.ring k).seen = (s.ring k).seen
  written : ∀ k, (s.ring k).written <+: (s'.ring k).written
  puts : s.puts <+: s'.puts

/-- A step of the adapter: all of a ring stays but its caret, which moves on. -/
structure AdapterStep (s s' : AdapterBase α) : Prop where
  inv : s.Inv → s'.Inv
  headQueue : s'.headQueue = s.headQueue
  tailQueue : s'.tailQueue = s.tailQueue
  caretQueue : s.caretQueue ≤ s'.caretQueue
  length : s'.queues.length = s.queues.length
  ring : ∀ k, ∃ caret seen, (s.ring k).seen ≤ seen ∧
    s'.ring k = { s.ring k with caret := caret, seen := seen }

section steps
variable {s s' s'' : AdapterBase α} {k : Nat}

theorem ServerStep.refl (s : AdapterBase α) : ServerStep s s where
  inv h := h
  caretQueue := rfl
  length := Nat.le_refl _
  caret _ := rfl
  seen _ := rfl
  written _ := List.prefix_refl _
  puts := List.prefix_refl _

theorem ServerStep.trans (h : ServerStep s s') (h' : ServerStep s' s'') : ServerStep s s'' where
  inv hi := h'.inv (h.inv hi)
  caretQueue := h'.caretQueue.trans h.caretQueue
  length := h.length.trans h'.length
  caret k := (h'.caret k).trans (h.caret k)
  seen k := (h'.seen k).trans (h.seen k)
  written k := (h.written k).trans (h'.written k)
  puts := h.puts.trans h'.puts

theorem AdapterStep.refl (s : AdapterBase α) : AdapterStep s s where
  inv h := h
  headQueue := rfl
  tailQueue := rfl
  caretQueue := Nat.le_refl _
  length := rfl
  ring _ := ⟨_, _, Nat.le_refl _, rfl⟩

theorem AdapterStep.trans (h : AdapterStep s s') (h' : AdapterStep s' s'') : AdapterStep s s'' where
  inv hi := h'.inv (h.inv hi)
  headQueue := h'.headQueue.trans h.headQueue
  tailQueue := h'.tailQueue.trans h.tailQueue
  caretQueue := h.caretQueue.trans h'.caretQueue
  length := h'.length.trans h.length
  ring k := by
    obtain ⟨c, n, hle, hring⟩ := h.ring k
    obtain ⟨c', n', hle', hring'⟩ := h'.ring k
    refine ⟨c', n', ?_, by rw [hring', hring]⟩
    rw [hring] at hle'
    exact hle.trans hle'

/-! what the adapter cannot change -/

theorem AdapterStep.size (h : AdapterStep s s') : (s'.ring k).size = (s.ring k).size := by
  obtain ⟨_, _, _, hring⟩ := h.ring k
  rw [hring]

theorem AdapterStep.head (h : AdapterStep s s') : (s'.ring k).head = (s.ring k).head := by
  obtain ⟨_, _, _, hring⟩ := h.ring k
  rw [hring]

theorem AdapterStep.tail (h : AdapterStep s s') : (s'.ring k).tail = (s.ring k).tail := by
  obtain ⟨_, _, _, hring⟩ := h.ring k
  rw [hring]

theorem AdapterStep.entries (h : AdapterStep s s') : (s'.ring k).entries = (s.ring k).entries := by
  obtain ⟨_, _, _, hring⟩ := h.ring k
  rw [hring]

theorem AdapterStep.live (h : AdapterStep s s') : (s'.ring k).live = (s.ring k).live := by
  obtain ⟨_, _, _, hring⟩ := h.ring k
  rw [hring]

theorem AdapterStep.written (h : AdapterStep s s') : (s'.ring k).written = (s.ring k).written := by
  obtain ⟨_, _, _, hring⟩ := h.ring k
  rw [hring]

theorem AdapterStep.removed (h : AdapterStep s s') : (s'.ring k).removed = (s.ring k).removed := by
  obtain ⟨_, _, _, hring⟩ := h.ring k
  rw [hring]

theorem AdapterStep.seen (h : AdapterStep s s') : (s.ring k).seen ≤ (s'.ring k).seen := by
  obtain ⟨_, _, hle, hring⟩ := h.ring k
  rwa [hring]

theorem AdapterStep.isLive (h : AdapterStep s s') : s'.isLive k = s.isLive k := by
  rw [AdapterBase.isLive, h.length, h.live, AdapterBase.isLive]

theorem AdapterStep.puts (h : AdapterStep s s') : s'.puts = s.puts := by
  rw [AdapterBase.puts, AdapterBase.puts, flatMap_queues, flatMap_queues, h.length]
  exact List.flatMap_congr fun k _ => by rw [h.written]

theorem AdapterStep.trash (h : AdapterStep s s') : s'.trash = s.trash := by
  rw [AdapterBase.trash, AdapterBase.trash, flatMap_queues, flatMap_queues, h.length]
  exact List.flatMap_congr fun k _ => by rw [h.written, h.removed]

/-- what was read stays read -/
theorem AdapterStep.reads (h : AdapterStep s s') (hinv : s.Inv) : s.reads <+: s'.reads := by
  have hinv' := h.inv hinv
  rw [AdapterBase.reads, AdapterBase.reads, flatMap_queues, flatMap_queues, h.length]
  refine flatMap_range_prefix _ s.caretQueue (fun k hk => ?_) (items_isPrefix ?_) fun _ hk => ?_
  · have hlt := hk.trans hinv.caret_lt
    have hpassed := ((hinv.ring k hlt).behind hk).1
    have hle := hinv'.seen_le (h.length.symm ▸ hlt)
    have hmore := h.seen (k := k)
    rw [h.written] at hle ⊢
    have hsame : (s'.ring k).seen = (s.ring k).seen := by omega
    rw [hsame]
  · rw [h.written, List.prefix_take_iff, List.length_take]
    exact ⟨List.take_prefix _ _, (Nat.min_le_left _ _).trans h.seen⟩
  · rw [hinv.unread hk]
    rfl

/-! what the server cannot change -/

theorem ServerStep.reads (h : ServerStep s s') (hinv : s.Inv) : s'.reads = s.reads := by
  have htake : ∀ k, (s'.ring k).written.take (s'.ring k).seen = (s.ring k).written.take (s.ring k).seen := by
    intro k
    rw [h.seen k]
    rcases Nat.lt_or_ge k s.queues.length with hlt | hge
    · obtain ⟨rest, hrest⟩ := h.written k
      rw [← hrest, List.take_append_of_le_length (hinv.seen_le hlt)]
    · rw [ring_of_le hge]
      rfl
  obtain ⟨more, hmore⟩ := Nat.exists_eq_add_of_le h.length
  rw [AdapterBase.reads, AdapterBase.reads, flatMap_queues, flatMap_queues, hmore, List.range_add,
    List.flatMap_append, List.flatMap_map]
  have hnew : (List.range more).flatMap (fun k => items ((s'.ring (s.queues.length + k)).written.take
      (s'.ring (s.queues.length + k)).seen)) = [] := by
    refine List.flatMap_eq_nil_iff.mpr fun k _ => ?_
    rw [htake, ring_of_le (Nat.le_add_right _ _)]
    rfl
  rw [hnew, List.append_nil]
  exact List.flatMap_congr fun k _ => by rw [htake]

/-- a ring that the caret has not left is not left by what the server does -/
theorem ServerStep.not_passed (h : ServerStep s s') (hinv : s.Inv) (hk : k < s.queues.length)
    (hready : ¬ (s.ring k).Passed) : ¬ (s'.ring k).Passed := by
  rintro ⟨hseen, hlinked⟩
  obtain ⟨rest, hrest⟩ := h.written k
  have hle := hinv.seen_le hk
  rw [h.seen k, ← hrest, List.length_append] at hseen
  have hnone : rest = [] := List.eq_nil_of_length_eq_zero (by omega)
  rw [← hrest, hnone, List.append_nil] at hlinked
  rw [hnone, List.length_nil] at hseen
  exact hready ⟨hseen, hlinked⟩

end steps

end LiberaLink.Idn
