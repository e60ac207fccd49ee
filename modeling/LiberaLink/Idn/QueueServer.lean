import LiberaLink.Idn.AdapterQueue

/-!
# The server's side of the queue

What `putBuffer` and `getTrash` do, whatever steps the adapter makes between their accesses.

* `Server`, `Serving`       what the server knows while it puts, and between two calls;
* `Pushing`, `Leaving`      what it knows while it adds an entry, and while the tail leaves a ring;
* `serves_putBuffer`        the buffer is put behind all others;
* `serves_gracefulStop`     a graceful stop changes nothing, and comes when all was read;
* `serves_getTrash`         the next buffer that was read comes back, and none only when all that was
                            read before the call came back.
-/

namespace LiberaLink.Idn
open Stepwise.Prog

variable {α : Type}

/-! ## what the server knows -/

abbrev Serves {β : Type} (p : QueueProg α β) (Q : β → AdapterBase α → Prop) (s : AdapterBase α) : Prop :=
  Holds AdapterStep (fun _ => ServerStep) p Q s

/-- What the server knows while it puts: the tail's ring can be touched and the tail
will not leave it behind; these buffers were put and these were given back. -/
structure Server (puts trash : List α) (s : AdapterBase α) : Prop where
  inv : s.Inv
  tail : s.isLive s.tailQueue = true
  notEmptied : ¬ (s.ring s.tailQueue).Emptied
  puts : s.puts = puts
  trash : s.trash = trash

/-- the newest ring, which has no link yet -/
structure Top (h : Nat) (s : AdapterBase α) : Prop where
  length : h + 1 = s.queues.length
  unlinked : ¬ Linked (s.ring h).written
  prev : ∀ k, k + 1 = h → Linked (s.ring k).written
  used : 0 < h → (s.ring h).written ≠ []

/-- what the server knows between two calls -/
def Serving (puts trash : List α) (s : AdapterBase α) : Prop := Server puts trash s ∧ Top s.headQueue s

section server
variable {β γ : Type} {s s' : AdapterBase α} {P T : List α} {q h : Nat} {e : Entry α} {a : α}
  {f : QueueBuffer α → QueueBuffer α} {Q : β → AdapterBase α → Prop}

theorem Server.stable (hs : Server P T s) (hr : AdapterStep s s') : Server P T s' where
  inv := hr.inv hs.inv
  tail := by rw [hr.tailQueue, hr.isLive, hs.tail]
  notEmptied := by
    rw [QueueBuffer.Emptied, hr.tailQueue, hr.removed, hr.written]
    exact hs.notEmptied
  puts := hr.puts.trans hs.puts
  trash := hr.trash.trans hs.trash

theorem Top.stable (ht : Top h s) (hr : AdapterStep s s') : Top h s' where
  length := ht.length.trans hr.length.symm
  unlinked := by rw [hr.written]; exact ht.unlinked
  prev k hk := by rw [hr.written]; exact ht.prev k hk
  used hh := by rw [hr.written]; exact ht.used hh

theorem Top.isLive (ht : Top h s) (hs : Server P T s) : s.isLive h = true :=
  hs.inv.unlinked_live (by have := ht.length; omega) ht.unlinked

theorem Serving.stable (hs : Serving P T s) (hr : AdapterStep s s') : Serving P T s' :=
  ⟨hs.1.stable hr, by rw [hr.headQueue]; exact hs.2.stable hr⟩

theorem serves_read {field : AdapterBase α → γ} {k : γ → QueueProg α β}
    (next : ∀ s', AdapterStep s s' → Serves (k (field s')) Q s') :
    Serves (read .server field >>= k) Q s := fun s' hr => ⟨.refl s', next s' hr⟩

theorem serves_readRing {field : QueueBuffer α → γ} {k : γ → QueueProg α β} (hlive : s.isLive q = true)
    (next : ∀ s', AdapterStep s s' → Serves (k (field (s'.ring q))) Q s') :
    Serves (readRing .server q field >>= k) Q s := by
  intro s' hr
  show ServerStep s' (s'.touch q id) ∧ Holds _ _ (k (field (s'.ring q))) Q (s'.touch q id)
  rw [touch_id (hr.isLive.trans hlive)]
  exact ⟨.refl s', next s' hr⟩

theorem serves_modify {u : AdapterBase α → AdapterBase α} {k : Unit → QueueProg α β}
    (next : ∀ s', AdapterStep s s' → ServerStep s' (u s') ∧ Serves (k ()) Q (u s')) :
    Serves (modify .server u >>= k) Q s := fun s' hr => next s' hr

/-- what is left of a ring by an access to it -/
theorem isLive_touch (hq : q < s.queues.length) (hf : (f (s.ring q)).live = (s.ring q).live) (k : Nat) :
    (s.touch q f).isLive k = s.isLive k := by
  rw [AdapterBase.isLive, AdapterBase.isLive, length_touch, ring_touch hq]
  split
  · next hk => rw [hf, hk]
  · rfl

theorem puts_touch (hq : q < s.queues.length) (hf : (f (s.ring q)).written = (s.ring q).written) :
    (s.touch q f).puts = s.puts := by
  rw [AdapterBase.puts, AdapterBase.puts, flatMap_queues, flatMap_queues, length_touch]
  refine List.flatMap_congr fun k _ => ?_
  rw [ring_touch hq]
  split
  · next hk => rw [hf, hk]
  · rfl

theorem trash_touch (hq : q < s.queues.length)
    (hf : (f (s.ring q)).written.take (f (s.ring q)).removed =
      (s.ring q).written.take (s.ring q).removed) : (s.touch q f).trash = s.trash := by
  rw [AdapterBase.trash, AdapterBase.trash, flatMap_queues, flatMap_queues, length_touch]
  refine List.flatMap_congr fun k _ => ?_
  rw [ring_touch hq]
  split
  · next hk => rw [hf, hk]
  · rfl

/-- the head passes an entry, and the rings after its own are new -/
theorem puts_moveHead (hq : q < s.queues.length) (hnew : ∀ k, q < k → (s.ring k).written = [])
    (hf : (f (s.ring q)).written = (s.ring q).written ++ [e]) :
    (s.touch q f).puts = s.puts ++ items [e] := by
  rw [AdapterBase.puts, AdapterBase.puts, flatMap_queues, flatMap_queues, length_touch]
  refine flatMap_range_grow hq (fun k hk => ?_) ?_ fun k hk => ?_
  · rw [ring_touch hq, if_neg hk]
  · rw [ring_touch hq, if_pos rfl, hf, items_append]
  · rw [hnew k hk]
    rfl

/-- an access that leaves what was written to a ring -/
theorem serverStep_touch (hlive : s.isLive q = true)
    (hring : s.Inv → RingAt s.queues.length s.caretQueue s.tailQueue q (f (s.ring q)))
    (hcaret : (f (s.ring q)).caret = (s.ring q).caret) (hseen : (f (s.ring q)).seen = (s.ring q).seen)
    (hwritten : (f (s.ring q)).written = (s.ring q).written) : ServerStep s (s.touch q f) where
  inv hinv := hinv.touch hlive (hring hinv) (.inl hwritten)
  caretQueue := rfl
  length := by rw [length_touch]
  caret k := by
    rw [ring_touch (isLive_iff.mp hlive).1]
    split
    · next hk => rw [hcaret, hk]
    · rfl
  seen k := by
    rw [ring_touch (isLive_iff.mp hlive).1]
    split
    · next hk => rw [hseen, hk]
    · rfl
  written k := by
    rw [ring_touch (isLive_iff.mp hlive).1]
    split
    · next hk => rw [hk, hwritten]
    · exact List.prefix_refl _
  puts := by rw [puts_touch (isLive_iff.mp hlive).1 hwritten]

/-- the tail passes an entry -/
theorem trash_moveTail (hinv : s.Inv) (hentry : (s.ring s.tailQueue).written[(s.ring s.tailQueue).removed]? = some e)
    (hwritten : (f (s.ring s.tailQueue)).written = (s.ring s.tailQueue).written)
    (hremoved : (f (s.ring s.tailQueue)).removed = (s.ring s.tailQueue).removed + 1) :
    (s.touch s.tailQueue f).trash = s.trash ++ items [e] := by
  rw [AdapterBase.trash, AdapterBase.trash, flatMap_queues, flatMap_queues, length_touch]
  refine flatMap_range_grow hinv.tail_lt (fun k hk => ?_) ?_ fun k hk => ?_
  · rw [ring_touch hinv.tail_lt, if_neg hk]
  · rw [ring_touch hinv.tail_lt, if_pos rfl, hwritten, hremoved, List.take_add_one, hentry, items_append]
    rfl
  · rw [hinv.unreturned hk]
    rfl

/-- What the server knows of the ring it writes to: its entries `w`, and the room behind them. -/
structure Pushing (P T : List α) (h headQueue count : Nat) (w : List (Entry α)) (spare : Nat)
    (s : AdapterBase α) : Prop where
  server : Server P T s
  headQueue : s.headQueue = headQueue
  length : s.queues.length = count
  lt : h < count
  written : (s.ring h).written = w
  room : w.length + spare ≤ (s.ring h).removed + (s.ring h).size
  new : ∀ k, h < k → (s.ring k).written = []
  prev : ∀ k, k + 1 = h → Linked (s.ring k).written

/-- what it knows after an entry -/
structure Pushed (P T : List α) (h headQueue count : Nat) (w : List (Entry α)) (s : AdapterBase α) :
    Prop where
  server : Server P T s
  headQueue : s.headQueue = headQueue
  length : s.queues.length = count
  written : (s.ring h).written = w
  new : ∀ k, h < k → (s.ring k).written = []
  prev : ∀ k, k + 1 = h → Linked (s.ring k).written

variable {g n spare head : Nat} {w : List (Entry α)}

theorem Pushing.stable (hp : Pushing P T h g n w spare s) (hr : AdapterStep s s') :
    Pushing P T h g n w spare s' where
  server := hp.server.stable hr
  headQueue := hr.headQueue.trans hp.headQueue
  length := hr.length.trans hp.length
  lt := hp.lt
  written := hr.written.trans hp.written
  room := by rw [hr.removed, hr.size]; exact hp.room
  new k hk := hr.written.trans (hp.new k hk)
  prev k hk := by rw [hr.written]; exact hp.prev k hk

theorem Pushed.stable (hp : Pushed P T h g n w s) (hr : AdapterStep s s') : Pushed P T h g n w s' where
  server := hp.server.stable hr
  headQueue := hr.headQueue.trans hp.headQueue
  length := hr.length.trans hp.length
  written := hr.written.trans hp.written
  new k hk := hr.written.trans (hp.new k hk)
  prev k hk := by rw [hr.written]; exact hp.prev k hk

theorem Server.touch {P' T' : List α} (hs : Server P T s) (hq : q < s.queues.length)
    (hinv : (s.touch q f).Inv) (hlive : (f (s.ring q)).live = (s.ring q).live)
    (hemptied : (f (s.ring q)).Emptied → (s.ring q).Emptied)
    (hputs : (s.touch q f).puts = P') (htrash : (s.touch q f).trash = T') :
    Server P' T' (s.touch q f) where
  inv := hinv
  tail := by rw [tailQueue_touch, isLive_touch hq hlive, hs.tail]
  notEmptied := by
    rw [tailQueue_touch, ring_touch hq]
    split
    · next htail =>
      subst htail
      exact fun he => hs.notEmptied (hemptied he)
    · exact hs.notEmptied
  puts := hputs
  trash := htrash

theorem Pushing.isLive (hp : Pushing P T h g n w spare s) (hw : ¬ Linked w) : s.isLive h = true :=
  hp.server.inv.unlinked_live (hp.length ▸ hp.lt) (by rwa [hp.written])

theorem Pushing.writeEntry (hp : Pushing P T h g n w spare s) (hw : ¬ Linked w)
    (hhead : (s.ring h).head = head) {s' : AdapterBase α}
    (hs' : s' = s.touch h fun r => { r with entries := fun j => if j = head then some e else r.entries j }) :
    ServerStep s s' ∧ Pushing P T h g n w spare s' ∧
      (s'.ring h).head = head ∧ (s'.ring h).entries head = some e := by
  have hq : h < s.queues.length := hp.length ▸ hp.lt
  have hstep : ServerStep s s' := by
    rw [hs']
    refine serverStep_touch (hp.isLive hw) (fun hinv => ?_) rfl rfl rfl
    rw [← hhead]
    exact (hinv.ring h hq).writeEntry
  have hring : s'.ring h =
      { s.ring h with entries := fun j => if j = head then some e else (s.ring h).entries j } := by
    rw [hs', ring_touch hq, if_pos rfl]
  have hother : ∀ k, k ≠ h → s'.ring k = s.ring k := fun k hk => by
    rw [hs', ring_touch hq, if_neg hk]
  refine ⟨hstep, ?_, by rw [hring, ← hhead], by rw [hring]; exact if_pos rfl⟩
  exact {
    server := by
      rw [hs']
      exact hp.server.touch hq (hs' ▸ hstep.inv hp.server.inv) rfl id
        ((puts_touch hq rfl).trans hp.server.puts) ((trash_touch hq rfl).trans hp.server.trash)
    headQueue := by rw [hs', headQueue_touch, hp.headQueue]
    length := by rw [hs', length_touch, hp.length]
    lt := hp.lt
    written := by rw [hring]; exact hp.written
    room := by rw [hring]; exact hp.room
    new := fun k hk => by rw [hother k hk.ne', hp.new k hk]
    prev := fun k hk => by rw [hother k (by omega)]; exact hp.prev k hk }

theorem Pushing.moveHead (hp : Pushing P T h g n w spare s) (hw : ¬ Linked w)
    (he : (s.ring h).entries (s.ring h).head = some e) (hitem : ∀ a, e = .item a → 3 ≤ spare)
    (hlink : ∀ q, e = .queue q → 0 < w.length ∧ q = h + 1 ∧ h + 1 < n) {s' : AdapterBase α}
    (hs' : s' = s.touch h fun r =>
      { r with head := (r.head + 1) % r.size, written := r.written ++ [e] }) :
    ServerStep s s' ∧ Pushed (P ++ items [e]) T h g n (w ++ [e]) s' := by
  have hq : h < s.queues.length := hp.length ▸ hp.lt
  have hunlinked : ¬ Linked (s.ring h).written := by rwa [hp.written]
  have hring := (hp.server.inv.ring h hq).moveHead hunlinked he
    (fun a ha => by
      have hspare := hitem a ha
      have hroom := hp.room
      rw [hp.written]
      omega)
    fun q hq' => by
      rw [hp.written, hp.length]
      exact hlink q hq'
  have hstep : ServerStep s s' := by
    rw [hs']
    exact {
      inv := fun hinv => hinv.touch (hp.isLive hw) hring (.inr ⟨hunlinked, hp.prev⟩)
      caretQueue := rfl
      length := by rw [length_touch]
      caret := fun k => by
        rw [ring_touch hq]
        split
        · next hk => rw [hk]
        · rfl
      seen := fun k => by
        rw [ring_touch hq]
        split
        · next hk => rw [hk]
        · rfl
      written := fun k => by
        rw [ring_touch hq]
        split
        · next hk => rw [hk]; exact List.prefix_append _ _
        · exact List.prefix_refl _
      puts := by
        rw [puts_moveHead hq hp.new rfl]
        exact List.prefix_append _ _ }
  have hremoved : (s.ring h).removed ≤ (s.ring h).written.length :=
    (hp.server.inv.removed_le hq).trans (hp.server.inv.seen_le hq)
  refine ⟨hstep, ?_⟩
  exact {
    server := by
      rw [hs']
      refine hp.server.touch hq (hs' ▸ hstep.inv hp.server.inv) rfl (fun he => ?_) ?_ ?_
      · have hall := he.1
        simp only [List.length_append, List.length_singleton] at hall
        omega
      · rw [puts_moveHead hq hp.new rfl, hp.server.puts]
      · rw [trash_touch hq (List.take_append_of_le_length hremoved), hp.server.trash]
    headQueue := by rw [hs', headQueue_touch, hp.headQueue]
    length := by rw [hs', length_touch, hp.length]
    written := by rw [hs', ring_touch hq, if_pos rfl, hp.written]
    new := fun k hk => by rw [hs', ring_touch hq, if_neg hk.ne', hp.new k hk]
    prev := fun k hk => by
      rw [hs', ring_touch hq, if_neg (by omega)]
      exact hp.prev k hk }

/-- An entry that there is room for. -/
theorem serves_addEntry (hp : Pushing P T h g n w spare s) (hw : ¬ Linked w)
    (hhead : (s.ring h).head = head) (hitem : ∀ a, e = .item a → 3 ≤ spare)
    (hlink : ∀ q, e = .queue q → 0 < w.length ∧ q = h + 1 ∧ h + 1 < n) :
    Serves (addEntry h head e) (fun _ s' => Pushed (P ++ items [e]) T h g n (w ++ [e]) s') s := by
  refine serves_modify fun s₁ hr₁ => ?_
  obtain ⟨hstep₁, hp₁, hhead₁, he₁⟩ :=
    (hp.stable hr₁).writeEntry (e := e) hw (hr₁.head.trans hhead) rfl
  refine ⟨hstep₁, fun s₂ hr₂ => ?_⟩
  have he₂ : (s₂.ring h).entries (s₂.ring h).head = some e := by rw [hr₂.entries, hr₂.head, hhead₁, he₁]
  exact (hp₁.stable hr₂).moveHead hw he₂ hitem hlink rfl

/-! ### `putBuffer` -/

theorem puts_alloc {size : Nat} :
    AdapterBase.puts { s with queues := s.queues ++ [.alloc size] } = s.puts := by
  rw [AdapterBase.puts, List.flatMap_append]
  exact List.append_nil _

theorem serverStep_alloc {size : Nat} (hsize : 3 ≤ size) :
    ServerStep s { s with queues := s.queues ++ [.alloc size] } where
  inv hinv := hinv.alloc hsize
  caretQueue := rfl
  length := by simp
  caret k := by
    rw [ring_alloc]
    split
    · next hk => rw [hk, ring_of_le (Nat.le_refl _)]; rfl
    · rfl
  seen k := by
    rw [ring_alloc]
    split
    · next hk => rw [hk, ring_of_le (Nat.le_refl _)]; rfl
    · rfl
  written k := by
    rw [ring_alloc]
    split
    · next hk => rw [hk, ring_of_le (Nat.le_refl _)]; exact List.nil_prefix
    · exact List.prefix_refl _
  puts := by rw [puts_alloc]

theorem Serving.alloc (hs : Serving P T s) {size : Nat} (hsize : 3 ≤ size) :
    Pushing P T s.headQueue s.headQueue (s.headQueue + 2) (s.ring s.headQueue).written 2
      { s with queues := s.queues ++ [.alloc size] } := by
  have hlen := hs.2.length
  have hring : AdapterBase.ring { s with queues := s.queues ++ [.alloc size] } s.headQueue =
      s.ring s.headQueue := by
    rw [ring_alloc, if_neg (by omega)]
  exact {
    server := {
      inv := hs.1.inv.alloc hsize
      tail := by
        obtain ⟨hlt, hlive⟩ := isLive_iff.mp hs.1.tail
        refine isLive_iff.mpr ⟨by simp only [List.length_append]; omega, ?_⟩
        rw [ring_alloc, if_neg hlt.ne, hlive]
      notEmptied := by
        rw [ring_alloc, if_neg hs.1.inv.tail_lt.ne]
        exact hs.1.notEmptied
      puts := by rw [puts_alloc, hs.1.puts]
      trash := by
        rw [← hs.1.trash, AdapterBase.trash, List.flatMap_append]
        exact List.append_nil _ }
    headQueue := rfl
    length := by simp only [List.length_append, List.length_singleton]; omega
    lt := by omega
    written := by rw [hring]
    room := by rw [hring]; exact (hs.1.inv.ring _ (by omega)).ok.slack hs.2.unlinked
    new := fun k hk => by
      rw [ring_alloc]
      split
      · rfl
      · rw [ring_of_le (by omega)]
        rfl
    prev := fun k hk => by
      rw [ring_alloc, if_neg (by omega)]
      exact hs.2.prev k hk }

/-- a ring without a link has room for it, and for a buffer before it unless the ring is full -/
theorem room_of_not_full {r : QueueBuffer α} (hok : r.Ok) (hw : ¬ Linked r.written)
    (hfull : ¬ (r.head + 2) % r.size = r.tail) : r.written.length + 3 ≤ r.removed + r.size := by
  have hslack := hok.slack hw
  have hne : r.written.length + 2 ≠ r.removed + r.size := fun heq => hfull (by
    rw [hok.head, hok.tail, Nat.mod_add_mod, heq, Nat.add_mod_right])
  omega

/-- a full ring has entries up to its last free slot -/
theorem length_of_full {r : QueueBuffer α} (hok : r.Ok) (hw : ¬ Linked r.written)
    (hfull : (r.head + 2) % r.size = r.tail) : r.written.length + 2 = r.removed + r.size := by
  have hslack := hok.slack hw
  have hle := hok.removed_le.trans hok.seen_le
  rw [hok.head, hok.tail, Nat.mod_add_mod] at hfull
  by_contra hne
  have hmeet := (mod_eq_iff _ (by omega) (by omega)).mp hfull.symm
  omega

/-- the newest ring, with room for a buffer and for a link behind it -/
def Roomy (P T : List α) (s : AdapterBase α) : Prop :=
  ∃ h w, Pushing P T h h (h + 1) w 3 s ∧ ¬ Linked w

theorem Roomy.stable (hs : Roomy P T s) (hr : AdapterStep s s') : Roomy P T s' :=
  let ⟨h, w, hp, hw⟩ := hs
  ⟨h, w, hp.stable hr, hw⟩

theorem Serving.roomy (hs : Serving P T s)
    (hfull : ¬ ((s.ring s.headQueue).head + 2) % (s.ring s.headQueue).size = (s.ring s.headQueue).tail) :
    Roomy P T s := by
  have hlen := hs.2.length
  refine ⟨s.headQueue, (s.ring s.headQueue).written, ?_, hs.2.unlinked⟩
  exact {
    server := hs.1
    headQueue := rfl
    length := hlen.symm
    lt := Nat.lt_succ_self _
    written := rfl
    room := room_of_not_full (hs.1.inv.ring _ (by omega)).ok hs.2.unlinked hfull
    new := fun k hk => by rw [ring_of_le (by omega)]; rfl
    prev := hs.2.prev }

/-- the ring is full: a link to a new one, which becomes the newest -/
theorem serves_grow (hs : Serving P T s) (hh : s.headQueue = h) {r : Nat × Nat × Nat}
    (hr : ((s.ring h).head, (s.ring h).tail, (s.ring h).size) = r) (hfull : (r.1 + 2) % r.2.2 = r.2.1) :
    Serves (do
      let queue ← allocQueue (r.2.2 * 2)
      addEntry h r.1 (.queue queue)
      modify .server fun s => { s with headQueue := queue }) (fun _ s' => Roomy P T s') s := by
  intro s₁ hr₁
  have hs₁ := hs.stable hr₁
  obtain rfl : s₁.headQueue = h := hr₁.headQueue.trans hh
  have hlen₁ := hs₁.2.length
  have hok₁ := (hs₁.1.inv.ring s₁.headQueue (by omega)).ok
  have hhead₁ : (s₁.ring s₁.headQueue).head = r.1 := by rw [hr₁.head, ← hr]
  have hsize₁ : (s₁.ring s₁.headQueue).size = r.2.2 := by rw [hr₁.size, ← hr]
  have htail₁ : (s₁.ring s₁.headQueue).tail = r.2.1 := by rw [hr₁.tail, ← hr]
  have hsize : 3 ≤ r.2.2 := hsize₁ ▸ hok₁.size
  have hused : 0 < (s₁.ring s₁.headQueue).written.length := by
    rw [← hhead₁, ← hsize₁, ← htail₁] at hfull
    have hlength := length_of_full hok₁ hs₁.2.unlinked hfull
    omega
  refine ⟨serverStep_alloc (by omega), ?_⟩
  have hhead : (AdapterBase.ring { s₁ with queues := s₁.queues ++ [.alloc (r.2.2 * 2)] }
      s₁.headQueue).head = r.1 := by
    rw [ring_alloc, if_neg (by omega), hhead₁]
  show Serves (addEntry s₁.headQueue r.1 (.queue s₁.queues.length) >>= fun _ =>
    modify .server fun s => { s with headQueue := s₁.queues.length }) _ _
  refine holds_seq (serves_addEntry (e := .queue s₁.queues.length) (hs₁.alloc (by omega))
    hs₁.2.unlinked hhead (fun a ha => by cases ha) fun q hq => ?_) fun _ s₂ hs₂ => ?_
  · obtain rfl : s₁.queues.length = q := Entry.queue.inj hq
    exact ⟨hused, by omega, by omega⟩
  · intro s₃ hr₃
    have hs₃ := hs₂.stable hr₃
    refine ⟨?_, s₁.headQueue + 1, [], ?_, by rintro ⟨q, hq⟩; cases hq⟩
    · exact {
        inv := fun hinv => ⟨hinv.fault, hinv.caret_lt, hinv.tail_lt, hinv.ring, hinv.order⟩
        caretQueue := rfl
        length := Nat.le_refl _
        caret := fun _ => rfl
        seen := fun _ => rfl
        written := fun _ => List.prefix_refl _
        puts := List.prefix_refl _ }
    · have hinv₃ := hs₃.server.inv
      have hlen₃ := hs₃.length
      exact {
        server := {
          inv := ⟨hinv₃.fault, hinv₃.caret_lt, hinv₃.tail_lt, hinv₃.ring, hinv₃.order⟩
          tail := hs₃.server.tail
          notEmptied := hs₃.server.notEmptied
          puts := hs₃.server.puts.trans (List.append_nil _)
          trash := hs₃.server.trash }
        headQueue := hlen₁.symm
        length := hlen₃
        lt := Nat.lt_succ_self _
        written := hs₃.new _ (Nat.lt_succ_self _)
        room := by
          have hbig := (hinv₃.ring (s₁.headQueue + 1) (by omega)).ok.size
          rw [List.length_nil, Nat.zero_add]
          exact hbig.trans (Nat.le_add_left _ _)
        new := fun k hk => hs₃.new k (by omega)
        prev := fun k hk => by
          obtain rfl : k = s₁.headQueue := by omega
          exact ⟨s₁.queues.length, by
            show (s₃.ring s₁.headQueue).written.getLast? = _
            rw [hs₃.written, List.getLast?_concat]⟩ }

/-- the buffer goes to the newest ring -/
theorem serves_putItem (hs : Roomy P T s) :
    Serves (do
      let headQueue ← read .server fun s => s.headQueue
      let head ← readRing .server headQueue fun r => r.head
      addEntry headQueue head (.item a)) (fun _ s' => Serving (P ++ [a]) T s') s := by
  obtain ⟨h, w, hp, hw⟩ := hs
  refine serves_read fun s₁ hr₁ => ?_
  have hp₁ := hp.stable hr₁
  rw [hp₁.headQueue]
  refine serves_readRing (hp₁.isLive hw) fun s₂ hr₂ => ?_
  refine holds_mono (serves_addEntry (hp₁.stable hr₂) hw rfl (fun _ _ => Nat.le_refl _)
    (fun q hq => by cases hq)) fun _ s₃ hs₃ => ⟨hs₃.server, ?_⟩
  rw [hs₃.headQueue]
  refine ⟨hs₃.length.symm, ?_, hs₃.prev, fun _ => ?_⟩
  · rw [hs₃.written]
    rintro ⟨q, hq⟩
    simp at hq
  · rw [hs₃.written]
    exact List.concat_ne_nil _ _

theorem serves_putBuffer (hs : Serving P T s) :
    Serves (putBuffer a) (fun _ s' => Serving (P ++ [a]) T s') s := by
  refine serves_read fun s₁ hr₁ => ?_
  have hs₁ := hs.stable hr₁
  refine serves_readRing (hs₁.2.isLive hs₁.1) fun s₂ hr₂ => ?_
  have hs₂ := hs₁.stable hr₂
  refine holds_seq (R := fun _ s' => Roomy P T s') ?_ fun _ s₃ hs₃ => serves_putItem hs₃
  unfold when
  split
  · next hfull => exact serves_grow hs₂ hr₂.headQueue rfl (of_decide_eq_true hfull)
  · next hfull =>
    rw [← hr₂.headQueue] at hfull
    exact hs₂.roomy fun heq => hfull (decide_eq_true heq)

/-! ### `getTrash` -/

/-- What the server knows while the tail leaves a ring. -/
structure Leaving (P T : List α) (t : Nat) (s : AdapterBase α) : Prop where
  inv : s.Inv
  top : Top s.headQueue s
  tailQueue : s.tailQueue = t
  next : t + 1 < s.queues.length
  emptied : (s.ring t).Emptied
  puts : s.puts = P
  trash : s.trash = T

theorem Leaving.stable {t : Nat} (hs : Leaving P T t s) (hr : AdapterStep s s') : Leaving P T t s' where
  inv := hr.inv hs.inv
  top := by rw [hr.headQueue]; exact hs.top.stable hr
  tailQueue := hr.tailQueue.trans hs.tailQueue
  next := by rw [hr.length]; exact hs.next
  emptied := by
    rw [QueueBuffer.Emptied, hr.removed, hr.written]
    exact hs.emptied
  puts := hr.puts.trans hs.puts
  trash := hr.trash.trans hs.trash

/-- an access to another ring than the newest, or to its other fields -/
theorem Top.touch (ht : Top h s) (hq : q < s.queues.length)
    (hf : (f (s.ring q)).written = (s.ring q).written) : Top h (s.touch q f) where
  length := by rw [length_touch, ht.length]
  unlinked := by
    rw [ring_touch hq]
    split
    · next hh => rw [hf, ← hh]; exact ht.unlinked
    · exact ht.unlinked
  prev k hk := by
    rw [ring_touch hq]
    split
    · next hkq => rw [hf, ← hkq]; exact ht.prev k hk
    · exact ht.prev k hk
  used hpos := by
    rw [ring_touch hq]
    split
    · next hh => rw [hf, ← hh]; exact ht.used hpos
    · exact ht.used hpos

theorem serverStep_moveTail (hs : Serving P T s)
    (hseen : (s.ring s.tailQueue).removed < (s.ring s.tailQueue).seen) {s' : AdapterBase α}
    (hs' : s' = s.touch s.tailQueue fun r =>
      { r with tail := (r.tail + 1) % r.size, removed := r.removed + 1 }) : ServerStep s s' := by
  rw [hs']
  refine serverStep_touch hs.1.tail (fun hinv => ?_) rfl rfl rfl
  exact (hinv.ring _ hinv.tail_lt).moveTail (isLive_iff.mp hs.1.tail).2 hseen

/-- The tail passes a buffer. -/
theorem Serving.moveTail (hs : Serving P T s)
    (he : (s.ring s.tailQueue).written[(s.ring s.tailQueue).removed]? = some (.item a))
    (hseen : (s.ring s.tailQueue).removed < (s.ring s.tailQueue).seen) {s' : AdapterBase α}
    (hs' : s' = s.touch s.tailQueue fun r =>
      { r with tail := (r.tail + 1) % r.size, removed := r.removed + 1 }) :
    ServerStep s s' ∧ Serving P (T ++ [a]) s' := by
  have hstep := serverStep_moveTail hs hseen hs'
  have hq := hs.1.inv.tail_lt
  have hinv' := hstep.inv hs.1.inv
  subst hs'
  refine ⟨hstep, ?_, hs.2.touch hq rfl⟩
  exact {
    inv := hinv'
    tail := by rw [tailQueue_touch, isLive_touch hq rfl, hs.1.tail]
    notEmptied := by
      rw [tailQueue_touch, ring_touch hq, if_pos rfl]
      rintro ⟨hall, next, hlast⟩
      simp only at hall hlast
      rw [List.getLast?_eq_getElem?, ← hall, Nat.add_sub_cancel, he] at hlast
      cases hlast
    puts := (puts_touch hq rfl).trans hs.1.puts
    trash := by rw [trash_moveTail hs.1.inv he rfl rfl, hs.1.trash]; rfl }

/-- The tail passes the link, and is about to leave its ring. -/
theorem Serving.moveTail_link (hs : Serving P T s) {next : Nat}
    (he : (s.ring s.tailQueue).written[(s.ring s.tailQueue).removed]? = some (.queue next))
    (hseen : (s.ring s.tailQueue).removed < (s.ring s.tailQueue).seen) {s' : AdapterBase α}
    (hs' : s' = s.touch s.tailQueue fun r =>
      { r with tail := (r.tail + 1) % r.size, removed := r.removed + 1 }) :
    ServerStep s s' ∧ Leaving P T s.tailQueue s' ∧ s'.isLive s.tailQueue = true ∧
      next = s.tailQueue + 1 := by
  have hstep := serverStep_moveTail hs hseen hs'
  have hq := hs.1.inv.tail_lt
  have hinv' := hstep.inv hs.1.inv
  obtain ⟨hall, -, hnext, hlt⟩ := (hs.1.inv.ring _ hq).link _ _ he
  subst hs'
  refine ⟨hstep, ?_, by rw [isLive_touch hq rfl, hs.1.tail], hnext⟩
  exact {
    inv := hinv'
    top := hs.2.touch hq rfl
    tailQueue := rfl
    next := by rw [length_touch]; exact hlt
    emptied := by
      rw [ring_touch hq, if_pos rfl]
      refine ⟨hall, next, ?_⟩
      simp only
      rw [List.getLast?_eq_getElem?, ← hall, Nat.add_sub_cancel, he]
    puts := (puts_touch hq rfl).trans hs.1.puts
    trash := by
      rw [trash_moveTail hs.1.inv he rfl rfl, hs.1.trash]
      exact List.append_nil _ }

/-- the ring is freed, and the tail goes on to the next -/
theorem serves_leave {t : Nat} (hs : Leaving P T t s) (hlive : s.isLive t = true)
    {k : QueueProg α β} (next : ∀ s', Serving P T s' → (s'.ring s'.tailQueue).removed = 0 →
      (∀ R₀, R₀ <+: s.reads → R₀ <+: s'.reads) → Serves k Q s') :
    Serves (do
      freeQueue t
      modify .server fun s => { s with tailQueue := t + 1 }
      k) Q s := by
  refine serves_modify fun s₁ hr₁ => ?_
  have hs₁ := hs.stable hr₁
  obtain ⟨ht, -⟩ := isLive_iff.mp (hr₁.isLive.trans hlive)
  have hfree : ServerStep s₁ (s₁.touch t fun r => { r with live := false }) := by
    refine serverStep_touch (hr₁.isLive.trans hlive) (fun hinv => ?_) rfl rfl rfl
    have hring := hinv.ring t ht
    rw [hs₁.tailQueue] at hring ⊢
    exact hring.free hs₁.emptied
  have hs₂ : Leaving P T t (s₁.touch t fun r => { r with live := false }) := {
    inv := hfree.inv hs₁.inv
    top := hs₁.top.touch ht rfl
    tailQueue := hs₁.tailQueue
    next := by rw [length_touch]; exact hs₁.next
    emptied := by rw [ring_touch ht, if_pos rfl]; exact hs₁.emptied
    puts := (puts_touch ht rfl).trans hs₁.puts
    trash := (trash_touch ht rfl).trans hs₁.trash }
  refine ⟨hfree, serves_modify fun s₃ hr₃ => ?_⟩
  have hs₃ := hs₂.stable hr₃
  have hfreed : (s₃.ring t).live = false := by rw [hr₃.live, ring_touch ht, if_pos rfl]
  have hmove : ServerStep s₃ { s₃ with tailQueue := t + 1 } := {
    inv := fun hinv => by
      obtain rfl := hs₃.tailQueue
      exact hinv.nextTail hs₃.emptied hfreed hs₃.next
    caretQueue := rfl
    length := Nat.le_refl _
    caret := fun _ => rfl
    seen := fun _ => rfl
    written := fun _ => List.prefix_refl _
    puts := List.prefix_refl _ }
  have hinv₃ := hs₃.inv
  have hkept := (hinv₃.ring (t + 1) hs₃.next).kept (by rw [hs₃.tailQueue]; exact Nat.lt_succ_self t)
  refine ⟨hmove, next _ ⟨?_, hs₃.top.length, hs₃.top.unlinked, hs₃.top.prev, hs₃.top.used⟩ hkept.1 fun R₀ hR => ?_⟩
  · exact {
      inv := hmove.inv hinv₃
      tail := isLive_iff.mpr ⟨hs₃.next, hkept.2⟩
      notEmptied := by
        rintro ⟨hall, q, hlast⟩
        have hnone : (s₃.ring (t + 1)).written = [] :=
          List.eq_nil_of_length_eq_zero (hall.symm.trans hkept.1)
        have hlast' : (s₃.ring (t + 1)).written.getLast? = some (.queue q) := hlast
        rw [hnone] at hlast'
        cases hlast'
      puts := hs₃.puts
      trash := hs₃.trash }
  · rw [hmove.reads hinv₃]
    refine (hR.trans (hr₁.reads hs.inv)).trans ?_
    rw [← hfree.reads hs₁.inv]
    exact hr₃.reads hs₂.inv

/-- While the tail's ring has more to come, nothing was read from the rings behind it. -/
theorem Serving.trash_eq_reads (hs : Serving P T s)
    (hseen : (s.ring s.tailQueue).removed = (s.ring s.tailQueue).seen) : s.reads = T := by
  have hinv := hs.1.inv
  have hle : s.caretQueue ≤ s.tailQueue := by
    by_contra hlt
    have hpassed := (hinv.ring _ hinv.tail_lt).behind (by omega)
    exact hs.1.notEmptied ⟨hseen.trans hpassed.1, hpassed.2⟩
  rw [← hs.1.trash, AdapterBase.trash, AdapterBase.reads, flatMap_queues, flatMap_queues]
  refine List.flatMap_congr fun k hk => ?_
  rw [List.mem_range] at hk
  rcases Nat.lt_trichotomy k s.tailQueue with hlt | rfl | hgt
  · have hall := ((hinv.ring k hk).freed hlt).1.1
    have h₁ := hinv.removed_le hk
    have h₂ := hinv.seen_le hk
    have hsame : (s.ring k).removed = (s.ring k).seen := by omega
    rw [hsame]
  · rw [hseen]
  · rw [hinv.unread (hle.trans_lt hgt), hinv.unreturned hgt]

/-- what `getTrash` comes to, where `R` was read when it was called -/
def Returned (P T R : List α) (result : Option α) (s : AdapterBase α) : Prop :=
  match result with
  | some a => Serving P (T ++ [a]) s
  | none => Serving P T s ∧ R <+: T

/-- the entry at the tail, once the caret is past it -/
theorem Serving.entry (hs : Serving P T s)
    (hlt : (s.ring s.tailQueue).removed < (s.ring s.tailQueue).seen) :
    ∃ e, (s.ring s.tailQueue).written[(s.ring s.tailQueue).removed]? = some e ∧
      (s.ring s.tailQueue).entries (s.ring s.tailQueue).tail = some e := by
  have hok := (hs.1.inv.ring _ hs.1.inv.tail_lt).ok
  have he := List.getElem?_eq_getElem (hlt.trans_le hok.seen_le)
  exact ⟨_, he, by rw [hok.tail, hok.entries _ _ (Nat.le_refl _) he]⟩

/-- The tail takes an entry.  A link is an entry behind another one, so that the next turn finds none. -/
theorem serves_take {turns i t : Nat} {R : List α} (hs : Serving P T s) (hR : R <+: s.reads)
    (ht : s.tailQueue = t) (hi : (s.ring t).tail = i) (hlt : (s.ring t).removed < (s.ring t).seen)
    (hnext : (s.ring t).removed ≠ 0 → ∀ s', Serving P T s' → (s'.ring s'.tailQueue).removed = 0 →
      R <+: s'.reads → Serves (getTrashLoop turns) (Returned P T R) s') :
    Serves (do
      let entry ← readRing .server t fun q => q.entries i
      moveTail t
      match entry with
      | none => wild .server none
      | some (.item taxiBuffer) => return some taxiBuffer
      | some (.queue queue) => do
        freeQueue t
        modify .server fun s => { s with tailQueue := queue }
        getTrashLoop turns) (Returned P T R) s := by
  subst ht
  refine serves_readRing hs.1.tail fun s₁ hr₁ => ?_
  have hs₁ := hs.stable hr₁
  have hi₁ : (s₁.ring s₁.tailQueue).tail = i := by rw [hr₁.tailQueue, hr₁.tail, hi]
  have hlt₁ : (s₁.ring s₁.tailQueue).removed < (s₁.ring s₁.tailQueue).seen := by
    rw [hr₁.tailQueue, hr₁.removed]
    exact hlt.trans_le hr₁.seen
  obtain ⟨e, hw, he⟩ := hs₁.entry hlt₁
  rw [hi₁] at he
  rw [← hr₁.tailQueue]
  simp only [he]
  refine serves_modify fun s₂ hr₂ => ?_
  have hs₂ := hs₁.stable hr₂
  have hlt₂ : (s₂.ring s₂.tailQueue).removed < (s₂.ring s₂.tailQueue).seen := by
    rw [hr₂.tailQueue, hr₂.removed]
    exact hlt₁.trans_le hr₂.seen
  have hw₂ : (s₂.ring s₂.tailQueue).written[(s₂.ring s₂.tailQueue).removed]? = some e := by
    rw [hr₂.tailQueue, hr₂.removed, hr₂.written, hw]
  have hR₂ := (hR.trans (hr₁.reads hs.1.inv)).trans (hr₂.reads hs₁.1.inv)
  rw [← hr₂.tailQueue]
  cases e with
  | item a =>
    obtain ⟨hstep, hs'⟩ := hs₂.moveTail hw₂ hlt₂ rfl
    exact ⟨hstep, hs'⟩
  | queue q =>
    obtain ⟨hstep, hleave, hlive, rfl⟩ := hs₂.moveTail_link hw₂ hlt₂ rfl
    have hsome : (s.ring s.tailQueue).removed ≠ 0 := by
      have hpos := ((hs₂.1.inv.ring _ hs₂.1.inv.tail_lt).link _ _ hw₂).2.1
      rw [hr₂.tailQueue, hr₂.removed, hr₁.tailQueue, hr₁.removed] at hpos
      exact hpos.ne'
    refine ⟨hstep, serves_leave hleave hlive fun s' hs' hnew hkeep => ?_⟩
    refine hnext hsome s' hs' hnew (hkeep R ?_)
    rw [hstep.reads hs₂.1.inv]
    exact hR₂

/-- One turn of the loop. -/
theorem serves_getTrashLoop {turns : Nat} {R : List α} (hs : Serving P T s) (hR : R <+: s.reads)
    (hnext : (s.ring s.tailQueue).removed ≠ 0 → ∀ s', Serving P T s' →
      (s'.ring s'.tailQueue).removed = 0 → R <+: s'.reads → Serves (getTrashLoop turns) (Returned P T R) s') :
    Serves (getTrashLoop (turns + 1)) (Returned P T R) s := by
  refine serves_read fun s₁ hr₁ => ?_
  have hs₁ := hs.stable hr₁
  refine serves_readRing hs₁.1.tail fun s₂ hr₂ => ?_
  have hs₂ := hs₁.stable hr₂
  have hinv₂ := hs₂.1.inv
  have hok₂ := (hinv₂.ring _ hinv₂.tail_lt).ok
  have hR₂ : R <+: s₂.reads := (hR.trans (hr₁.reads hs.1.inv)).trans (hr₂.reads hs₁.1.inv)
  have hmeet := mod_eq_iff (s₂.ring s₂.tailQueue).size hok₂.removed_le
    (by have := hok₂.seen_le; have := hok₂.room; omega)
  rw [← hr₂.tailQueue]
  dsimp only
  split
  · next heq =>
    rw [hok₂.tail, hok₂.caret, hmeet] at heq
    exact ⟨hs₂, hs₂.trash_eq_reads heq ▸ hR₂⟩
  · next hne =>
    rw [hok₂.tail, hok₂.caret, hmeet] at hne
    refine serves_take hs₂ hR₂ rfl rfl (lt_of_le_of_ne hok₂.removed_le hne) fun hsome => ?_
    rw [hr₂.tailQueue, hr₂.removed, hr₁.tailQueue, hr₁.removed] at hsome
    exact hnext hsome

theorem serves_getTrash {R : List α} (hs : Serving P T s) (hR : R <+: s.reads) :
    Serves getTrash (Returned P T R) s := by
  refine serves_getTrashLoop hs hR fun _ s₁ hs₁ hfirst hR₁ => ?_
  exact serves_getTrashLoop hs₁ hR₁ fun hsome => absurd hfirst hsome

/-! ### a graceful stop -/

/-- the caret is at the head of the newest ring -/
def Drained (s : AdapterBase α) : Prop :=
  s.caretQueue = s.headQueue ∧ (s.ring s.headQueue).seen = (s.ring s.headQueue).written.length

theorem Drained.stable (hd : Drained s) (hs : Serving P T s) (hr : AdapterStep s s') : Drained s' := by
  have hs' := hs.stable hr
  have hlen := hs.2.length
  have hlen' := hr.length
  have hlt := hs'.1.inv.caret_lt
  have hle := hr.caretQueue
  refine ⟨by rw [hr.headQueue]; have := hd.1; omega, Nat.le_antisymm ?_ ?_⟩
  · exact hs'.1.inv.seen_le (by rw [hr.headQueue]; omega)
  · rw [hr.headQueue, hr.written, ← hd.2]
    exact hr.seen

theorem Drained.caret (hd : Drained s) (hs : Serving P T s) :
    (s.ring s.headQueue).caret = (s.ring s.headQueue).head := by
  have hok := (hs.1.inv.ring s.headQueue (by have := hs.2.length; omega)).ok
  rw [hok.caret, hok.head, hd.2]

theorem Serving.drained_iff (hs : Serving P T s) (hc : s.caretQueue = s.headQueue) :
    Drained s ↔ (s.ring s.headQueue).caret = (s.ring s.headQueue).head := by
  refine ⟨fun hd => hd.caret hs, fun heq => ⟨hc, ?_⟩⟩
  have hok := (hs.1.inv.ring s.headQueue (by have := hs.2.length; omega)).ok
  have hmeet := mod_eq_iff (s.ring s.headQueue).size hok.seen_le
    (by have := hok.removed_le; have := hok.room; omega)
  rwa [hok.caret, hok.head, hmeet] at heq

/-- where the caret is in the newest ring, the first write of a stop writes what is there -/
theorem write_caretQueue (hc : s.caretQueue = s.headQueue) : { s with caretQueue := s.headQueue } = s := by
  cases s
  simp only at hc
  subst hc
  rfl

/-- where the caret is at the head, so does the second -/
theorem Drained.write_caret (hd : Drained s) (hs : Serving P T s) :
    s.touch s.headQueue (fun r => { r with caret := r.head }) = s := by
  have hsame : ∀ r : QueueBuffer α, r.caret = r.head → { r with caret := r.head } = r := by
    intro r hr
    cases r
    simp only at hr
    subst hr
    rfl
  conv_rhs => rw [← touch_id (hs.2.isLive hs.1)]
  rw [AdapterBase.touch, AdapterBase.touch, hsame _ (hd.caret hs)]
  rfl

/-- where the caret is at the head, all was read -/
theorem Drained.reads (hd : Drained s) (hs : Serving P T s) : s.reads = P := by
  rw [← hs.1.puts, AdapterBase.puts, AdapterBase.reads, flatMap_queues, flatMap_queues]
  refine List.flatMap_congr fun k hk => ?_
  rw [List.mem_range] at hk
  have hlen := hs.2.length
  rcases Nat.lt_or_ge k s.headQueue with hlt | hge
  · rw [((hs.1.inv.ring k hk).behind (hd.1 ▸ hlt)).1, List.take_length]
  · obtain rfl : k = s.headQueue := by omega
    rw [hd.2, List.take_length]

theorem items_take_lt {w : List (Entry α)} {n : Nat} (hw : ∀ (i q : Nat), w[i]? ≠ some (Entry.queue q))
    (hn : n < w.length) : (items (w.take n)).length < (items w).length := by
  have hitem : ∃ a, w[n] = .item a := by
    cases he : w[n] with
    | item a => exact ⟨a, rfl⟩
    | queue q => exact absurd (by rw [List.getElem?_eq_getElem hn, he]) (hw n q)
  obtain ⟨a, ha⟩ := hitem
  conv_rhs => rw [← List.take_append_drop n w, items_append, List.drop_eq_getElem_cons hn, ha]
  simp [items]

/-- While the caret is not at the head there is a buffer that was not read. -/
theorem Serving.not_drained (hs : Serving P T s) (hd : ¬ Drained s) : s.reads ≠ P := by
  have hinv := hs.1.inv
  have hlen := hs.2.length
  have hring := hinv.ring s.headQueue (by omega)
  have hopen := hs.2.unlinked
  have hitems : ∀ (i q : Nat), (s.ring s.headQueue).written[i]? ≠ some (Entry.queue q) := fun i q hi =>
    hopen ((linked_iff hring).mpr ⟨i, q, hi⟩)
  have hbehind : (s.ring s.headQueue).seen < (s.ring s.headQueue).written.length := by
    have hcaret := hinv.caret_lt
    rcases Nat.lt_or_ge s.caretQueue s.headQueue with hlt | hge
    · rw [hinv.unread hlt]
      exact List.length_pos_of_ne_nil (hs.2.used (by omega))
    · exact lt_of_le_of_ne hring.ok.seen_le fun heq => hd ⟨by omega, heq⟩
  intro hreads
  have hsame := congrArg List.length (hreads.trans hs.1.puts.symm)
  have hearlier : (List.range s.headQueue).flatMap (fun k => items ((s.ring k).written.take (s.ring k).seen))
      <+: (List.range s.headQueue).flatMap fun k => items (s.ring k).written := by
    refine flatMap_range_prefix _ s.caretQueue (fun k hk => ?_) (items_isPrefix (List.take_prefix _ _))
      fun k hk => ?_
    · rw [((hinv.ring k (hk.trans hinv.caret_lt)).behind hk).1, List.take_length]
    · rw [hinv.unread hk]
      rfl
  have hle := hearlier.length_le
  have hlt := items_take_lt hitems hbehind
  rw [AdapterBase.reads, AdapterBase.puts, flatMap_queues, flatMap_queues, ← hlen, List.range_succ,
    List.flatMap_append, List.flatMap_append, List.flatMap_singleton, List.flatMap_singleton,
    List.length_append, List.length_append] at hsame
  omega

/-- what a graceful stop comes to, where `R` was read when it was called -/
def Stopped (P T R : List α) (result : Bool) (s : AdapterBase α) : Prop :=
  Serving P T s ∧ (result = true → s.reads = P) ∧ (result = false → R ≠ P)

theorem Serving.reads_ne {R : List α} (hs : Serving P T s) (hR : R <+: s.reads) (hd : ¬ Drained s) :
    R ≠ P := by
  rintro rfl
  have hle := hs.1.inv.reads_prefix
  rw [hs.1.puts] at hle
  exact hs.not_drained hd (hle.eq_of_length_le hR.length_le)

theorem serves_gracefulStop {R : List α} (hs : Serving P T s) (hR : R <+: s.reads) :
    Serves gracefulStop (Stopped P T R) s := by
  refine serves_read fun s₁ hr₁ => serves_read fun s₂ hr₂ => ?_
  have hs₁ := hs.stable hr₁
  have hs₂ := hs₁.stable hr₂
  have hR₁ := hR.trans (hr₁.reads hs.1.inv)
  split
  · next hc =>
    refine ⟨hs₂, fun h => absurd h Bool.false_ne_true, fun _ => hs₁.reads_ne hR₁ fun hd => ?_⟩
    exact hc (hd.1.trans hr₂.headQueue.symm)
  · next hc =>
    refine serves_readRing (hs₂.2.isLive hs₂.1) fun s₃ hr₃ => ?_
    have hs₃ := hs₂.stable hr₃
    rw [← hr₃.headQueue]
    split
    · next hne =>
      refine ⟨hs₃, fun h => absurd h Bool.false_ne_true, fun _ => hs₃.reads_ne ?_ fun hd => ?_⟩
      · exact (hR₁.trans (hr₂.reads hs₁.1.inv)).trans (hr₃.reads hs₂.1.inv)
      · exact hne (hd.caret hs₃)
    · next heq =>
      have hc₃ : s₃.caretQueue = s₃.headQueue := by
        have h₁ := hs₃.1.inv.caret_lt
        have h₂ := hs₃.2.length
        have h₃ := hr₂.caretQueue
        have h₄ := hr₃.caretQueue
        have h₅ := hr₃.headQueue
        have h₆ : s₁.caretQueue = s₂.headQueue := by_contra hc
        omega
      have hd₃ := (hs₃.drained_iff hc₃).mpr (by_contra heq)
      refine serves_modify fun s₄ hr₄ => ?_
      have hs₄ := hs₃.stable hr₄
      have hd₄ := hd₃.stable hs₃ hr₄
      rw [← hr₄.headQueue, write_caretQueue hd₄.1]
      refine ⟨.refl s₄, serves_modify fun s₅ hr₅ => ?_⟩
      have hs₅ := hs₄.stable hr₅
      have hd₅ := hd₄.stable hs₄ hr₅
      rw [← hr₅.headQueue, hd₅.write_caret hs₅]
      exact ⟨.refl s₅, hs₅, fun _ => hd₅.reads hs₅, fun h => absurd h.symm Bool.false_ne_true⟩

end server

end LiberaLink.Idn
