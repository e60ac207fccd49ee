import LiberaLink.Avb.Settings
import LiberaLink.Runtime.CommandLine

/-!
# The numbers of options

The command line and both hosts read a number with `std::stoull` and check that it took the whole text.
What they accept, against what they are meant to: the digits of a number that fits its type.

* `stoull_iff`        the texts that `stoull` takes whole, with white space and a sign in front;
* `ReadsDigits`       what a reader is meant to do with a text;
* `Disguised`         the texts that are no digits and read as a number all the same;
* `readsDigits_iff`   **when the readers do what they are meant to**.
-/

namespace LiberaLink
open Text IStream

/-! ## what `stoull` takes whole -/

theorem ofDigits_eq (digits : List Char) : ofDigits digits = Nat.ofDigitChars 10 digits 0 := rfl

/-- `stoull` splits off a sign as an input stream does -/
theorem sign_eq (text : List Char) :
    sign text = (decide (text.head? = some '-'),
      if decide (text.head? = some '-') = true ∨ text.head? = some '+' then text.tail else text) := by
  unfold sign
  split
  · rfl
  · rfl
  · rename_i hminus hplus
    have hminus' : text.head? ≠ some '-' := by
      cases text with
      | nil => exact nofun
      | cons c text => exact fun hc => hminus text (congrArg (· :: text) (Option.some.inj hc))
    have hplus' : text.head? ≠ some '+' := by
      cases text with
      | nil => exact nofun
      | cons c text => exact fun hc => hplus text (congrArg (· :: text) (Option.some.inj hc))
    rw [decide_eq_false hminus', if_neg fun h => h.elim Bool.false_ne_true hplus']

theorem stoull_eq (text : List Char) :
    let behind := sign (text.dropWhile isSpace)
    let digits := behind.2.takeWhile Char.isDigit
    stoull text =
      if digits = [] ∨ 2 ^ 64 ≤ ofDigits digits then none
      else some (if behind.1 then (2 ^ 64 - ofDigits digits) % 2 ^ 64 else ofDigits digits,
        text.length - (behind.2.length - digits.length)) := by
  intro behind digits
  have hbehind : behind = _ := sign_eq _
  have hdigits : digits = _ := congrArg (fun b => b.2.takeWhile Char.isDigit) hbehind
  rw [hdigits, hbehind]
  rfl

/-- a sign in front of digits counts modulo `2 ^ 64` -/
theorem signed_emod (negative : Bool) {digits : List Char} (h : ofDigits digits < 2 ^ 64) :
    ((if negative then (2 ^ 64 - ofDigits digits) % 2 ^ 64 else ofDigits digits : Nat) : Int) =
      signed negative digits % 2 ^ 64 := by
  unfold signed
  rw [← ofDigits_eq]
  cases negative with
  | true =>
    rw [if_pos rfl, if_pos rfl]
    omega
  | false =>
    rw [if_neg Bool.false_ne_true, if_neg Bool.false_ne_true]
    omega

theorem natAbs_signed (negative : Bool) (digits : List Char) :
    (signed negative digits).natAbs = ofDigits digits := by
  unfold signed
  rw [← ofDigits_eq]
  cases negative with
  | true => exact Int.natAbs_neg _
  | false => rfl

theorem stoull_cases {text : List Char} {n : Nat} (h : stoull text = some (n, text.length)) :
    ∃ blanks number value, text = blanks ++ number ∧ Blank isSpace blanks ∧ IsNumber number value ∧
      value.natAbs < 2 ^ 64 ∧ (n : Int) = value % 2 ^ 64 := by
  rw [stoull_eq] at h
  split at h
  · cases h
  · rename_i hfits
    obtain ⟨hne, hlt⟩ := not_or.mp hfits
    obtain ⟨hn, hlength⟩ := Prod.mk.inj (Option.some.inj h)
    obtain ⟨signs, hunspaced, hsigns⟩ := sign_cases (text.dropWhile isSpace)
    generalize (sign (text.dropWhile isSpace)).1 = negative at *
    generalize (sign (text.dropWhile isSpace)).2 = rest at *
    have hfront : rest.takeWhile Char.isDigit <+: rest := List.takeWhile_prefix _
    have hdigits := fun c (hc : c ∈ rest.takeWhile Char.isDigit) => List.mem_takeWhile_imp hc
    generalize rest.takeWhile Char.isDigit = digits at *
    have htext : text.takeWhile isSpace ++ (signs ++ rest) = text := by
      rw [← hunspaced]
      exact List.takeWhile_append_dropWhile
    -- nothing is left behind the digits
    obtain rfl : digits = rest := by
      refine hfront.eq_of_length ?_
      have hle := hfront.length_le
      have hpos := List.length_pos_of_ne_nil hne
      have hlonger := congrArg List.length htext
      rw [List.length_append, List.length_append] at hlonger
      omega
    refine ⟨text.takeWhile isSpace, signs ++ digits, signed negative digits, htext.symm,
      fun c hc => List.mem_takeWhile_imp hc, ⟨signs, digits, rfl, hne, hdigits, ?_⟩, ?_, ?_⟩
    · rcases hsigns with ⟨hminus, rfl⟩ | ⟨hplus, rfl⟩
      · exact .inl ⟨hminus, rfl⟩
      · exact .inr ⟨hplus, rfl⟩
    · rw [natAbs_signed]
      exact not_le.mp hlt
    · rw [← hn]
      exact signed_emod negative (not_le.mp hlt)

theorem stoull_of {blanks number : List Char} {value : Int} {n : Nat} (hblanks : Blank isSpace blanks)
    (hnumber : IsNumber number value) (hfits : value.natAbs < 2 ^ 64) (hn : (n : Int) = value % 2 ^ 64) :
    stoull (blanks ++ number) = some (n, (blanks ++ number).length) := by
  have hstarts := isNumber_starts numbersShow_isSpace hnumber []
  obtain ⟨digits, hne, hdigits, hrest, hvalue⟩ := isNumber_sign hnumber []
  rw [List.append_nil] at hstarts hrest hvalue
  rw [List.append_nil] at hrest
  have hall : digits.takeWhile Char.isDigit = digits := List.takeWhile_eq_self_iff.mpr hdigits
  rw [← hvalue, natAbs_signed] at hfits
  rw [stoull_eq, dropWhile_of hblanks hstarts]
  rw [hrest, hall, if_neg (not_or.mpr ⟨hne, not_le.mpr hfits⟩), Nat.sub_self, Nat.sub_zero]
  congr 2
  have hsigned := signed_emod (sign number).1 hfits
  rw [hvalue, ← hn] at hsigned
  exact Int.ofNat_inj.mp hsigned

/-- **The texts that `stoull` takes whole** are numbers, with white space in front of them; it returns
them modulo `2 ^ 64`. -/
theorem stoull_iff (text : List Char) (n : Nat) :
    stoull text = some (n, text.length) ↔ ∃ blanks number value, text = blanks ++ number ∧
      Blank isSpace blanks ∧ IsNumber number value ∧ value.natAbs < 2 ^ 64 ∧ (n : Int) = value % 2 ^ 64 := by
  constructor
  · exact stoull_cases
  · rintro ⟨blanks, number, value, rfl, hblanks, hnumber, hfits, hn⟩
    exact stoull_of hblanks hnumber hfits hn

/-! ## the readers -/

/-- the text is the digits of the number -/
def IsNumeral (text : String) (n : Nat) : Prop :=
  text.toList ≠ [] ∧ (∀ c ∈ text.toList, c.isDigit = true) ∧ ofDigits text.toList = n

/-- The reader takes the digits of the numbers below `bound` and nothing else. -/
def ReadsDigits (bound : Nat) (parse : String → Option Nat) (text : String) : Prop :=
  ∀ n, parse text = some n ↔ IsNumeral text n ∧ n < bound

/-- White space or a sign is in front of digits, and what `stoull` makes of it is below `bound`. -/
def Disguised (bound : Nat) (text : String) : Prop :=
  ∃ blanks number value, text.toList = blanks ++ number ∧ Blank isSpace blanks ∧ IsNumber number value ∧
    value.natAbs < 2 ^ 64 ∧ value % 2 ^ 64 < bound ∧
    (blanks ≠ [] ∨ number.head? = some '-' ∨ number.head? = some '+')

theorem isNumber_of_isNumeral {text : String} {n : Nat} (h : IsNumeral text n) :
    IsNumber text.toList n :=
  ⟨[], text.toList, rfl, h.1, h.2.1, .inr ⟨.inl rfl, congrArg Nat.cast h.2.2.symm⟩⟩

/-- a number that begins with no sign is digits -/
theorem isNumeral_of_isNumber {text : String} {value : Int} (h : IsNumber text.toList value)
    (hminus : text.toList.head? ≠ some '-') (hplus : text.toList.head? ≠ some '+') :
    ∃ n, IsNumeral text n ∧ value = n := by
  obtain ⟨signs, digits, htext, hne, hdigits, ⟨rfl, -⟩ | ⟨rfl | rfl, hvalue⟩⟩ := h
  · rw [htext] at hminus
    exact absurd rfl hminus
  · rw [List.nil_append] at htext
    subst htext
    exact ⟨_, ⟨hne, hdigits, rfl⟩, hvalue⟩
  · rw [htext] at hplus
    exact absurd rfl hplus

/-- a text with white space or a sign in front is no digits -/
theorem not_isNumeral {text : String} {blanks number : List Char} {n : Nat}
    (htext : text.toList = blanks ++ number) (hblanks : Blank isSpace blanks)
    (hfront : blanks ≠ [] ∨ number.head? = some '-' ∨ number.head? = some '+') :
    ¬ IsNumeral text n := by
  rintro ⟨-, hdigits, -⟩
  have hsign : ∀ c, c.isDigit = false → number.head? ≠ some c := by
    intro c hc hhead
    have hmem : c ∈ text.toList := htext ▸ List.mem_append_right _ (List.mem_of_mem_head? hhead)
    exact absurd (hdigits c hmem) (hc ▸ Bool.false_ne_true)
  rcases hfront with hne | hminus | hplus
  · obtain ⟨c, hc⟩ := List.exists_mem_of_ne_nil blanks hne
    have hdigit := hdigits c (htext ▸ List.mem_append_left _ hc)
    have hspace := hblanks c hc
    rw [numbersShow_isSpace c (.inl hdigit)] at hspace
    cases hspace
  · exact hsign '-' (by decide) hminus
  · exact hsign '+' (by decide) hplus

theorem parseUnsigned_iff (text : String) (n : Nat) : parseUnsigned text = some n ↔
    stoull text.toList = some (n, text.toList.length) ∧ n < 2 ^ 64 := by
  constructor
  · intro h
    refine ⟨?_, parseUnsigned_lt h⟩
    unfold parseUnsigned at h
    split at h
    · cases h
    · rename_i raw parsed hread
      split at h
      · cases h
      · rename_i hwhole
        rw [hread, Option.some.inj h, not_not.mp hwhole]
  · rintro ⟨h, -⟩
    unfold parseUnsigned
    rw [h]
    exact if_neg (not_not.mpr rfl)

theorem parseU32_iff (text : String) (n : Nat) : parseU32 text = some n ↔
    stoull text.toList = some (n, text.toList.length) ∧ n < 2 ^ 32 := by
  constructor
  · intro h
    refine ⟨?_, parseU32_lt h⟩
    unfold parseU32 at h
    split at h
    · cases h
    · rename_i raw parsed hread
      split at h
      · cases h
      · rename_i hwhole
        rw [hread, Option.some.inj h, not_not.mp (not_or.mp hwhole).1]
  · rintro ⟨h, hlt⟩
    unfold parseU32
    rw [h]
    exact if_neg (not_or.mpr ⟨not_not.mpr rfl, not_le.mpr hlt⟩)

/-- a reader that keeps what `stoull` takes whole and the type holds -/
theorem readsDigits_of_stoull {bound : Nat} {parse : String → Option Nat} (hbound : bound ≤ 2 ^ 64)
    (hparse : ∀ text n, parse text = some n ↔
      stoull text.toList = some (n, text.toList.length) ∧ n < bound) (text : String) :
    ReadsDigits bound parse text ↔ ¬ Disguised bound text := by
  constructor
  · rintro hreads ⟨blanks, number, value, htext, hblanks, hnumber, hfits, hlt, hfront⟩
    -- the number that comes out is no number of this text
    have hcast : ((value % 2 ^ 64).toNat : Int) = value % 2 ^ 64 :=
      Int.toNat_of_nonneg (Int.emod_nonneg value (by decide))
    have hread := stoull_of hblanks hnumber hfits hcast
    rw [← htext] at hread
    have hsome := (hparse text _).mpr ⟨hread, by omega⟩
    exact not_isNumeral htext hblanks hfront ((hreads _).mp hsome).1
  · intro hplain n
    rw [hparse, stoull_iff]
    constructor
    · rintro ⟨⟨blanks, number, value, htext, hblanks, hnumber, hfits, hn⟩, hlt⟩
      have hfront : ¬ (blanks ≠ [] ∨ number.head? = some '-' ∨ number.head? = some '+') := fun hfront =>
        hplain ⟨blanks, number, value, htext, hblanks, hnumber, hfits, by omega, hfront⟩
      rw [not_or, not_or, not_not] at hfront
      obtain ⟨rfl, hminus, hplus⟩ := hfront
      rw [List.nil_append] at htext
      subst htext
      obtain ⟨m, hnumeral, rfl⟩ := isNumeral_of_isNumber hnumber hminus hplus
      obtain rfl : n = m := by omega
      exact ⟨hnumeral, hlt⟩
    · rintro ⟨hnumeral, hlt⟩
      refine ⟨⟨[], text.toList, n, rfl, nofun, isNumber_of_isNumeral hnumeral, ?_, ?_⟩, hlt⟩
      · show n < 2 ^ 64
        omega
      · omega

/-- **The readers accept the digits of the numbers that fit**, and nothing else, on every text but those
with white space or a sign in front of digits that `stoull` brings into their type. -/
theorem readsDigits_iff (text : String) :
    (ReadsDigits (2 ^ 64) parseUnsigned text ↔ ¬ Disguised (2 ^ 64) text) ∧
      (ReadsDigits (2 ^ 32) parseU32 text ↔ ¬ Disguised (2 ^ 32) text) :=
  ⟨readsDigits_of_stoull le_rfl parseUnsigned_iff text,
    readsDigits_of_stoull (by decide) parseU32_iff text⟩

/-- A negative number is read as a huge one, or as a small one. -/
theorem negative_numbers_read :
    parseUnsigned "-1" = some (2 ^ 64 - 1) ∧ ¬ ReadsDigits (2 ^ 64) parseUnsigned "-1" ∧
      parseU32 "-18446744073709551615" = some 1 ∧
      ¬ ReadsDigits (2 ^ 32) parseU32 "-18446744073709551615" := by
  have hunsigned : parseUnsigned "-1" = some (2 ^ 64 - 1) := by decide +kernel
  have hsmall : parseU32 "-18446744073709551615" = some 1 := by decide +kernel
  have hminus : ∀ text n, '-' ∈ text.toList → ¬ IsNumeral text n := fun text n hmem hnumeral =>
    absurd (hnumeral.2.1 '-' hmem) (by decide)
  refine ⟨hunsigned, fun hreads => ?_, hsmall, fun hreads => ?_⟩
  · exact hminus _ _ (by decide +kernel) ((hreads _).mp hunsigned).1
  · exact hminus _ _ (by decide +kernel) ((hreads _).mp hsmall).1

end LiberaLink
