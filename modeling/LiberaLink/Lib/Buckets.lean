import Mathlib.Data.List.Nodup

/-!
# Sorting items into keyed buckets, first come first served

`place same push new bs`: find the first bucket that fits and push into it; if there is none, open
a new one at the end.  `Buckets key items keyOf xs bs`: the buckets `bs` partition the items `xs` by
their keys, one bucket for each key that occurs.

* `Buckets.nil`, `Buckets.place`   the empty list, and one more item;
* `Buckets.eq_of_key`              a bucket is determined by its key;
* `Buckets.mem_items`              a bucket holds exactly the items with its key.
-/

namespace Sorting
variable {α β κ : Type}

def place (same : β → Bool) (push : β → β) (new : β) : List β → List β
  | [] => [new]
  | b :: bs => if same b then push b :: bs else b :: place same push new bs

theorem mem_place {same : β → Bool} {push : β → β} {new : β} {bs : List β} {c : β}
    (h : c ∈ place same push new bs) :
    c = new ∧ (∀ b ∈ bs, same b = false) ∨ (∃ b ∈ bs, same b = true ∧ c = push b) ∨ c ∈ bs := by
  induction bs with
  | nil => exact .inl ⟨List.mem_singleton.mp h, by simp⟩
  | cons b bs ih =>
    unfold place at h
    by_cases hs : same b = true
    · rw [if_pos hs] at h
      rcases List.mem_cons.mp h with rfl | h
      · exact .inr (.inl ⟨b, List.mem_cons_self, hs, rfl⟩)
      · exact .inr (.inr (List.mem_cons_of_mem _ h))
    · rw [if_neg hs] at h
      rcases List.mem_cons.mp h with rfl | h
      · exact .inr (.inr List.mem_cons_self)
      · rcases ih h with ⟨e, hall⟩ | ⟨b', hb', hs', e⟩ | h
        · exact .inl ⟨e, by simpa [hs] using hall⟩
        · exact .inr (.inl ⟨b', List.mem_cons_of_mem _ hb', hs', e⟩)
        · exact .inr (.inr (List.mem_cons_of_mem _ h))

/-- The buckets `bs` partition the items `xs` by key, one bucket for each key that occurs. -/
structure Buckets (key : β → κ) (items : β → List α) (keyOf : α → κ) (xs : List α) (bs : List β) :
    Prop where
  keys : (bs.map key).Nodup
  sound : ∀ b ∈ bs, ∀ x ∈ items b, x ∈ xs ∧ keyOf x = key b
  complete : ∀ x ∈ xs, ∃ b ∈ bs, x ∈ items b
  nonempty : ∀ b ∈ bs, items b ≠ []
  sublist : ∀ b ∈ bs, (items b).Sublist xs

namespace Buckets
variable {key : β → κ} {items : β → List α} {keyOf : α → κ} {xs : List α} {bs : List β}

theorem nil : Buckets key items keyOf [] [] := ⟨.nil, by simp, by simp, by simp, by simp⟩

theorem eq_of_key (h : Buckets key items keyOf xs bs) {b c : β} (hb : b ∈ bs) (hc : c ∈ bs)
    (e : key b = key c) : b = c := List.inj_on_of_nodup_map h.keys hb hc e

theorem mem_items (h : Buckets key items keyOf xs bs) {b : β} (hb : b ∈ bs) {x : α} :
    x ∈ items b ↔ x ∈ xs ∧ keyOf x = key b := by
  refine ⟨h.sound b hb x, fun ⟨hx, hk⟩ => ?_⟩
  obtain ⟨c, hc, hxc⟩ := h.complete x hx
  have e : key c = key b := (h.sound c hc x hxc).2.symm.trans hk
  exact h.eq_of_key hc hb e ▸ hxc

/-- the keys of the buckets are the keys of the items -/
theorem exists_key_iff (h : Buckets key items keyOf xs bs) (k : κ) :
    (∃ b ∈ bs, key b = k) ↔ ∃ x ∈ xs, keyOf x = k := by
  constructor
  · rintro ⟨b, hb, rfl⟩
    obtain ⟨x, hx⟩ := List.exists_mem_of_ne_nil _ (h.nonempty b hb)
    exact ⟨x, h.sound b hb x hx⟩
  · rintro ⟨x, hx, rfl⟩
    obtain ⟨b, hb, hxb⟩ := h.complete x hx
    exact ⟨b, hb, (h.sound b hb x hxb).2.symm⟩

section
variable [DecidableEq κ] {same : β → Bool} {push : β → β} {new : β} {x : α}
  (hsame : ∀ b, same b = true ↔ key b = keyOf x) (hpushK : ∀ b, key (push b) = key b)
  (hpushI : ∀ b, items (push b) = items b ++ [x]) (hnewK : key new = keyOf x)
  (hnewI : items new = [x])
include hsame hpushK hnewK

/-- placing keeps the keys, or adds the new one at the end -/
theorem place_keys (bs : List β) : (Sorting.place same push new bs).map key =
    if keyOf x ∈ bs.map key then bs.map key else bs.map key ++ [keyOf x] := by
  induction bs with
  | nil => simp [Sorting.place, hnewK]
  | cons b bs ih =>
    unfold Sorting.place
    by_cases hs : same b = true
    · have hb : key b = keyOf x := (hsame b).mp hs
      simp [if_pos hs, hpushK, hb]
    · have hb : key b ≠ keyOf x := fun e => hs ((hsame b).mpr e)
      have hmem : keyOf x ∈ (b :: bs).map key ↔ keyOf x ∈ bs.map key := by
        rw [List.map_cons, List.mem_cons, or_iff_right (Ne.symm hb)]
      rw [if_neg hs, List.map_cons, ih]
      by_cases hm : keyOf x ∈ bs.map key
      · rw [if_pos hm, if_pos (hmem.mpr hm), List.map_cons]
      · rw [if_neg hm, if_neg (mt hmem.mp hm), List.map_cons, List.cons_append]

include hpushI hnewI

/-- **One more item.** -/
theorem place (h : Buckets key items keyOf xs bs) :
    Buckets key items keyOf (xs ++ [x]) (Sorting.place same push new bs) := by
  have hkeys := place_keys hsame hpushK hnewK bs
  constructor
  · rw [hkeys]
    by_cases hm : keyOf x ∈ bs.map key
    · rw [if_pos hm]; exact h.keys
    · rw [if_neg hm, List.nodup_append]
      refine ⟨h.keys, List.nodup_singleton _, fun a ha b hb hab => hm ?_⟩
      rw [List.mem_singleton] at hb
      exact hb ▸ hab ▸ ha
  · intro c hc y hy
    rw [List.mem_append, List.mem_singleton]
    rcases mem_place hc with ⟨rfl, _⟩ | ⟨b, hb, hs, rfl⟩ | hc
    · rw [hnewI, List.mem_singleton] at hy
      exact ⟨.inr hy, by rw [hy, hnewK]⟩
    · rw [hpushI, List.mem_append, List.mem_singleton] at hy
      rcases hy with hy | rfl
      · exact ⟨.inl (h.sound b hb y hy).1, by rw [hpushK]; exact (h.sound b hb y hy).2⟩
      · exact ⟨.inr rfl, by rw [hpushK, (hsame b).mp hs]⟩
    · exact ⟨.inl (h.sound c hc y hy).1, (h.sound c hc y hy).2⟩
  · intro y hy
    have step : ∀ bs : List β, (y = x ∨ ∃ b ∈ bs, y ∈ items b) →
        ∃ b ∈ Sorting.place same push new bs, y ∈ items b := by
      intro bs
      induction bs with
      | nil =>
        rintro (rfl | ⟨b, hb, _⟩)
        · exact ⟨new, List.mem_singleton_self _, by rw [hnewI]; exact List.mem_singleton_self _⟩
        · cases hb
      | cons b bs ih =>
        intro hy
        unfold Sorting.place
        by_cases hs : same b = true
        · rw [if_pos hs]
          rcases hy with rfl | ⟨c, hc, hyc⟩
          · exact ⟨push b, List.mem_cons_self, by rw [hpushI]; simp⟩
          · rcases List.mem_cons.mp hc with rfl | hc
            · exact ⟨push c, List.mem_cons_self, by rw [hpushI]; simp [hyc]⟩
            · exact ⟨c, List.mem_cons_of_mem _ hc, hyc⟩
        · rw [if_neg hs]
          have tail : (y = x ∨ ∃ c ∈ bs, y ∈ items c) →
              ∃ c ∈ b :: Sorting.place same push new bs, y ∈ items c := fun h =>
            (ih h).imp fun c hc => ⟨List.mem_cons_of_mem _ hc.1, hc.2⟩
          rcases hy with hy | ⟨c, hc, hyc⟩
          · exact tail (.inl hy)
          · rcases List.mem_cons.mp hc with rfl | hc
            · exact ⟨c, List.mem_cons_self, hyc⟩
            · exact tail (.inr ⟨c, hc, hyc⟩)
    rw [List.mem_append, List.mem_singleton] at hy
    exact step bs (hy.elim (fun hy => .inr (h.complete y hy)) .inl)
  · intro c hc
    rcases mem_place hc with ⟨rfl, _⟩ | ⟨b, _, _, rfl⟩ | hc
    · rw [hnewI]; simp
    · rw [hpushI]; simp
    · exact h.nonempty c hc
  · intro c hc
    rcases mem_place hc with ⟨rfl, _⟩ | ⟨b, hb, _, rfl⟩ | hc
    · rw [hnewI]; exact List.sublist_append_right xs [x]
    · rw [hpushI]; exact (h.sublist b hb).append (List.Sublist.refl [x])
    · exact (h.sublist c hc).trans (List.sublist_append_left xs [x])

end
end Buckets
end Sorting
