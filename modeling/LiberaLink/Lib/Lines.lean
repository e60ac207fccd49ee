import Mathlib.Data.List.DropRight

/-!
# Texts of lines

* `splitLines`, `joinLines`   the lines of a text, and the text of lines that each end with a separator;
* `splitLines_joinLines`      **lines without a separator are read back**;
* `trim`                      what is left between the first and the last entry that `p` does not hold of;
* `cut`                       what stands before the first separator, and what behind it.
-/

namespace Text

/-! ## lines -/

section
variable {α : Type} [DecidableEq α] (sep : α)

/-- The lines of a text; the last one need not end with a separator. -/
def splitLines : List α → List (List α)
  | [] => []
  | c :: text =>
    if c = sep then [] :: splitLines text
    else match splitLines text with
      | [] => [[c]]
      | line :: lines => (c :: line) :: lines

/-- the text of these lines, each of which ends with a separator -/
def joinLines (lines : List (List α)) : List α := lines.flatMap fun line => line ++ [sep]

/-- what stands before the first separator, and what behind it -/
def cut : List α → Option (List α × List α)
  | [] => none
  | c :: text => if c = sep then some ([], text) else (cut text).map fun p => (c :: p.1, p.2)

variable {sep}

theorem sep_not_mem_splitLines {text line : List α} (h : line ∈ splitLines sep text) : sep ∉ line := by
  induction text generalizing line with
  | nil => cases h
  | cons c text ih =>
    unfold splitLines at h
    split at h
    · rcases List.mem_cons.mp h with rfl | hrest
      · exact List.not_mem_nil
      · exact ih hrest
    · rename_i hc
      split at h
      · rw [List.mem_singleton.mp h, List.mem_singleton]
        exact fun hsep => hc hsep.symm
      · rename_i first lines hlines
        rw [hlines] at ih
        rcases List.mem_cons.mp h with rfl | hrest
        · intro hmem
          rcases List.mem_cons.mp hmem with hsep | hfirst
          · exact hc hsep.symm
          · exact ih List.mem_cons_self hfirst
        · exact ih (List.mem_cons_of_mem _ hrest)

theorem splitLines_line {line : List α} (h : sep ∉ line) (text : List α) :
    splitLines sep (line ++ sep :: text) = line :: splitLines sep text := by
  induction line with
  | nil =>
    rw [List.nil_append, splitLines, if_pos rfl]
  | cons c line ih =>
    have hc : c ≠ sep := fun hsep => h (List.mem_cons.mpr (.inl hsep.symm))
    rw [List.cons_append, splitLines, if_neg hc, ih fun hmem => h (List.mem_cons_of_mem _ hmem)]

theorem splitLines_joinLines {lines : List (List α)} (h : ∀ line ∈ lines, sep ∉ line) :
    splitLines sep (joinLines sep lines) = lines := by
  induction lines with
  | nil => rfl
  | cons line lines ih =>
    have htext : joinLines sep (line :: lines) = line ++ sep :: joinLines sep lines := by
      unfold joinLines
      rw [List.flatMap_cons, List.append_assoc]
      rfl
    rw [htext, splitLines_line (h line List.mem_cons_self),
      ih fun line hline => h line (List.mem_cons_of_mem _ hline)]

theorem cut_eq_some_iff {text before behind : List α} :
    cut sep text = some (before, behind) ↔ text = before ++ sep :: behind ∧ sep ∉ before := by
  induction text generalizing before with
  | nil => simp [cut]
  | cons c text ih =>
    unfold cut
    split
    · rename_i hc
      subst hc
      constructor
      · intro h
        obtain ⟨rfl, rfl⟩ := Prod.mk.inj (Option.some.inj h)
        exact ⟨rfl, List.not_mem_nil⟩
      · rintro ⟨htext, hnot⟩
        cases before with
        | nil =>
          obtain rfl := (List.cons.inj htext).2
          rfl
        | cons b before =>
          obtain rfl := (List.cons.inj htext).1
          exact absurd List.mem_cons_self hnot
    · rename_i hc
      rw [Option.map_eq_some_iff]
      constructor
      · rintro ⟨⟨b, r⟩, hcut, heq⟩
        obtain ⟨rfl, rfl⟩ := Prod.mk.inj heq
        obtain ⟨rfl, hnot⟩ := ih.mp hcut
        refine ⟨rfl, fun hmem => ?_⟩
        rcases List.mem_cons.mp hmem with hsep | hrest
        · exact hc hsep.symm
        · exact hnot hrest
      · rintro ⟨htext, hnot⟩
        cases before with
        | nil => exact absurd (List.cons.inj htext).1 hc
        | cons b before =>
          obtain ⟨rfl, rfl⟩ := List.cons.inj htext
          exact ⟨(before, behind), ih.mpr ⟨rfl, fun hmem => hnot (List.mem_cons_of_mem _ hmem)⟩, rfl⟩

end

/-! ## trimming -/

section
variable {α : Type} (p : α → Bool)

def trim (text : List α) : List α := (text.dropWhile p).rdropWhile p

variable {p} {text : List α}

theorem trim_isPrefix : trim p text <+: text.dropWhile p := List.rdropWhile_prefix p _

theorem mem_of_mem_trim {c : α} (h : c ∈ trim p text) : c ∈ text :=
  (List.dropWhile_sublist p).subset (trim_isPrefix.subset h)

/-- a prefix that is not empty begins with the same entry -/
theorem head?_of_isPrefix {a b : List α} (h : a <+: b) (hne : a ≠ []) : a.head? = b.head? := by
  obtain ⟨rest, rfl⟩ := h
  cases a with
  | nil => exact absurd rfl hne
  | cons c a => rfl

theorem trim_head (c : α) (h : c ∈ (trim p text).head?) : p c = false := by
  have hne : trim p text ≠ [] := by
    intro hnil
    rw [hnil] at h
    cases h
  rw [head?_of_isPrefix trim_isPrefix hne] at h
  have hhead := List.head?_dropWhile_not p text
  rw [Option.mem_def.mp h] at hhead
  simpa using hhead

theorem trim_last (c : α) (h : c ∈ (trim p text).getLast?) : p c = false := by
  have hne : trim p text ≠ [] := by
    intro hnil
    rw [hnil] at h
    cases h
  rw [List.getLast?_eq_some_getLast hne] at h
  obtain rfl := Option.some.inj h
  exact Bool.not_eq_true _ ▸ List.rdropWhile_last_not p (text.dropWhile p) hne

theorem dropWhile_eq_self (hhead : ∀ c ∈ text.head?, p c = false) : text.dropWhile p = text := by
  cases text with
  | nil => rfl
  | cons c text => rw [List.dropWhile_cons, hhead c rfl, if_neg Bool.false_ne_true]

/-- a text that neither begins nor ends with what is trimmed -/
theorem trim_eq_self (hhead : ∀ c ∈ text.head?, p c = false) (hlast : ∀ c ∈ text.getLast?, p c = false) :
    trim p text = text := by
  unfold trim
  rw [dropWhile_eq_self hhead, List.rdropWhile_eq_self_iff]
  intro hne
  rw [hlast _ (List.getLast?_eq_some_getLast hne)]
  exact Bool.false_ne_true

theorem trim_trim : trim p (trim p text) = trim p text := trim_eq_self trim_head trim_last

/-- trimming keeps the first entry if it stays -/
theorem head?_trim (hhead : ∀ c ∈ text.head?, p c = false) (hne : trim p text ≠ []) :
    (trim p text).head? = text.head? := by
  rw [head?_of_isPrefix trim_isPrefix hne, dropWhile_eq_self hhead]

end
end Text
