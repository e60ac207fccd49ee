import Mathlib.Algebra.Ring.Int.Defs
import Mathlib.Data.List.Basic
import Mathlib.Data.List.TakeWhile
import Mathlib.Tactic.Cases

/-!
# Reading words from a text

A stream is the text that is left and two flags; a reading operation that finds nothing raises `fail`, and
one that meets the end raises `eof`.  Once a flag is up, nothing more is read.

* `IStream.ws`, `word`, `quoted`, `int64`   the reading operations;
* `quote`                                   the quoted form of a text;
* `word_cases`, `quoted_cases`, `int64_cases`   **what a successful operation has read**;
* `word_of`, `quoted_of`, `bare_of`, `int64_of`   **what is read from a given text**.
-/

namespace Text

structure IStream where
  rest : List Char
  eof : Bool
  fail : Bool
deriving DecidableEq, Repr

namespace IStream

/-- the stream at the front of a text -/
def ofText (text : List Char) : IStream := ⟨text, false, false⟩

def good (s : IStream) : Bool := !s.eof && !s.fail

/-- the stream behind what was read, which met the end if nothing is left -/
def behind (rest : List Char) : IStream := ⟨rest, rest.isEmpty, false⟩

section
variable (space : Char → Bool)

/-- passes over white space; that nothing follows is no failure -/
def ws (s : IStream) : IStream :=
  if s.good then
    let rest := s.rest.dropWhile space
    ⟨rest, rest.isEmpty, false⟩
  else { s with fail := true }

/-- the start of a reading operation, which passes over white space and fails if nothing follows -/
def sentry (s : IStream) : IStream :=
  if s.good then
    let rest := s.rest.dropWhile space
    ⟨rest, rest.isEmpty, rest.isEmpty⟩
  else { s with fail := true }

/-- the entries before the next white space -/
def word (s : IStream) : List Char × IStream :=
  let s := s.sentry space
  if s.fail then ([], s)
  else (s.rest.takeWhile (!space ·), behind (s.rest.dropWhile (!space ·)))

/-- What stands before the closing delimiter, without the escapes; white space is read as it is. -/
def quotedRest (delim escape : Char) : List Char → List Char × IStream
  | [] => ([], ⟨[], true, true⟩)
  | c :: rest =>
    if c = escape then
      match rest with
      | [] => ([], ⟨[], true, true⟩)
      | d :: rest =>
        let r := quotedRest delim escape rest
        (d :: r.1, r.2)
    else if c = delim then ([], ⟨rest, false, false⟩)
    else
      let r := quotedRest delim escape rest
      (c :: r.1, r.2)

/-- a text between delimiters, or a word if there is no delimiter in front -/
def quoted (delim escape : Char) (s : IStream) : List Char × IStream :=
  let s := s.sentry space
  if s.fail then ([], s)
  else match s.rest with
    | [] => ([], s)
    | c :: rest => if c = delim then quotedRest delim escape rest else s.word space

/-- the sign in front of a number, and what follows it -/
def sign : List Char → Bool × List Char
  | '-' :: text => (true, text)
  | '+' :: text => (false, text)
  | text => (false, text)

/-- the number of a sign and the digits behind it -/
def signed (negative : Bool) (digits : List Char) : Int :=
  if negative then -(Nat.ofDigitChars 10 digits 0 : Int) else Nat.ofDigitChars 10 digits 0

/-- The number at the front of a text, to the base 10.  One that 64 bits do not hold is a failure. -/
def number (text : List Char) : Int × IStream :=
  let value := signed (sign text).1 ((sign text).2.takeWhile Char.isDigit)
  let s := behind ((sign text).2.dropWhile Char.isDigit)
  if (sign text).2.takeWhile Char.isDigit = [] then (0, { s with fail := true })
  else if value < -2 ^ 63 then (-2 ^ 63, { s with fail := true })
  else if 2 ^ 63 ≤ value then (2 ^ 63 - 1, { s with fail := true })
  else (value, s)

def int64 (s : IStream) : Int × IStream :=
  let s := s.sentry space
  if s.fail then (0, s) else number s.rest

end
end IStream

/-- the text with an escape before each delimiter and each escape -/
def escaped (delim escape : Char) (text : List Char) : List Char :=
  text.flatMap fun c => if c = delim ∨ c = escape then [escape, c] else [c]

def quote (delim escape : Char) (text : List Char) : List Char :=
  delim :: (escaped delim escape text ++ [delim])

/-- `body` stands for `text` between two delimiters. -/
inductive Quotes (delim escape : Char) : List Char → List Char → Prop
  | nil : Quotes delim escape [] []
  | plain {c : Char} {body text : List Char} (hescape : c ≠ escape) (hdelim : c ≠ delim)
      (h : Quotes delim escape body text) : Quotes delim escape (c :: body) (c :: text)
  | escape {c : Char} {body text : List Char} (h : Quotes delim escape body text) :
      Quotes delim escape (escape :: c :: body) (c :: text)

theorem quotes_escaped {delim escape : Char} (text : List Char) :
    Quotes delim escape (escaped delim escape text) text := by
  induction text with
  | nil => exact .nil
  | cons c text ih =>
    unfold escaped
    rw [List.flatMap_cons]
    split
    · exact .escape ih
    · rename_i hc
      rw [not_or] at hc
      exact .plain hc.2 hc.1 ih

/-- an unquoted text has no other entries than its quoted form -/
theorem Quotes.mem {delim escape c : Char} {body text : List Char} (h : Quotes delim escape body text)
    (hc : c ∈ text) : c ∈ body := by
  induction h with
  | nil => exact hc
  | plain _ _ _ ih =>
    rcases List.mem_cons.mp hc with rfl | hrest
    · exact List.mem_cons_self
    · exact List.mem_cons_of_mem _ (ih hrest)
  | escape _ ih =>
    rcases List.mem_cons.mp hc with rfl | hrest
    · exact List.mem_cons_of_mem _ List.mem_cons_self
    · exact List.mem_cons_of_mem _ (List.mem_cons_of_mem _ (ih hrest))

/-- quoting a text brings in no other entries -/
theorem mem_of_mem_quote {delim escape c : Char} {text : List Char} (h : c ∈ quote delim escape text)
    (hdelim : c ≠ delim) (hescape : c ≠ escape) : c ∈ text := by
  rcases List.mem_cons.mp h with rfl | hrest
  · exact absurd rfl hdelim
  · rcases List.mem_append.mp hrest with hbody | hlast
    · obtain ⟨d, hd, hc⟩ := List.mem_flatMap.mp hbody
      split at hc
      · rcases List.mem_cons.mp hc with rfl | hc
        · exact absurd rfl hescape
        · rwa [List.mem_singleton.mp hc]
      · rwa [List.mem_singleton.mp hc]
    · exact absurd (List.mem_singleton.mp hlast) hdelim

/-- `text` stands for the number `value`. -/
def IsNumber (text : List Char) (value : Int) : Prop :=
  ∃ signs digits, text = signs ++ digits ∧ digits ≠ [] ∧ (∀ c ∈ digits, c.isDigit = true) ∧
    (signs = ['-'] ∧ value = -(Nat.ofDigitChars 10 digits 0 : Int) ∨
      (signs = [] ∨ signs = ['+']) ∧ value = (Nat.ofDigitChars 10 digits 0 : Int))

/-- the digits of a number stand for it -/
theorem isNumber_toDigits (n : Nat) : IsNumber (Nat.toDigits 10 n) n :=
  ⟨[], Nat.toDigits 10 n, rfl, Nat.toDigits_ne_nil,
    fun _ hc => Nat.isDigit_of_mem_toDigits (by decide) (by decide) hc,
    .inr ⟨.inl rfl, by rw [Nat.ofDigitChars_ten_toDigits]⟩⟩

namespace IStream
section
variable {space : Char → Bool}

/-! ## white space -/

variable (space) in
/-- nothing but white space -/
def Blank (text : List Char) : Prop := ∀ c ∈ text, space c = true

instance (text : List Char) : Decidable (Blank space text) :=
  List.decidableBAll (fun c => space c = true) text

variable (space) in
/-- a text that is not empty and begins with no white space -/
def Starts (text : List Char) : Prop := ∃ c rest, text = c :: rest ∧ space c = false

theorem blank_nil : Blank space [] := fun _ h => absurd h List.not_mem_nil

theorem dropWhile_eq_nil {text : List Char} : text.dropWhile space = [] ↔ Blank space text :=
  List.dropWhile_eq_nil_iff

theorem dropWhile_of {before text : List Char} (hbefore : Blank space before)
    (htext : Starts space text) :
    (before ++ text).dropWhile space = text := by
  obtain ⟨c, rest, rfl, hc⟩ := htext
  rw [List.dropWhile_append_of_pos hbefore, List.dropWhile_cons, hc, if_neg Bool.false_ne_true]

variable (space) in
/-- white space in front, and what follows it -/
theorem dropWhile_cases (text : List Char) :
    Blank space text ∨
      ∃ before, text = before ++ text.dropWhile space ∧ Blank space before ∧
        Starts space (text.dropWhile space) := by
  cases hrest : text.dropWhile space with
  | nil => exact .inl (dropWhile_eq_nil.mp hrest)
  | cons c rest =>
    refine .inr ⟨text.takeWhile space, ?_, fun d hd => List.mem_takeWhile_imp hd, c, rest, rfl, ?_⟩
    · rw [← hrest, List.takeWhile_append_dropWhile]
    · have hhead := List.head?_dropWhile_not space text
      rw [hrest] at hhead
      simpa using hhead

theorem ws_eof_iff {rest : List Char} {eof : Bool} (h : eof = true → rest = []) :
    (ws space ⟨rest, eof, false⟩).eof = true ↔ Blank space rest := by
  cases eof with
  | true =>
    obtain rfl := h rfl
    exact ⟨fun _ => blank_nil, fun _ => rfl⟩
  | false =>
    change (rest.dropWhile space).isEmpty = true ↔ _
    rw [List.isEmpty_iff, dropWhile_eq_nil]

theorem ws_of {before text : List Char} (hbefore : Blank space before) (htext : Starts space text) :
    ws space (ofText (before ++ text)) = ofText text := by
  change (⟨_, _, _⟩ : IStream) = _
  rw [show (ofText (before ++ text)).rest = before ++ text from rfl, dropWhile_of hbefore htext]
  obtain ⟨c, rest, rfl, _⟩ := htext
  rfl

variable (space) in
/-- `ws` meets the end, or stops in front of what follows the white space. -/
theorem ws_cases (line : List Char) :
    Blank space line ∧ (ws space (ofText line)).eof = true ∨
      ∃ before text, line = before ++ text ∧ Blank space before ∧ Starts space text ∧
        ws space (ofText line) = ofText text := by
  rcases dropWhile_cases space line with hblank | ⟨before, hline, hbefore, hstarts⟩
  · exact .inl ⟨hblank, (ws_eof_iff fun h => absurd h Bool.false_ne_true).mpr hblank⟩
  · have hws := ws_of hbefore hstarts
    rw [← hline] at hws
    exact .inr ⟨before, _, hline, hbefore, hstarts, hws⟩

theorem behind_of_ne_nil {rest : List Char} (h : rest ≠ []) : behind rest = ofText rest := by
  cases rest with
  | nil => exact absurd rfl h
  | cons c rest => rfl

theorem sentry_of {before text : List Char} (hbefore : Blank space before) (htext : Starts space text) :
    sentry space (ofText (before ++ text)) = ofText text := by
  change (⟨_, _, _⟩ : IStream) = _
  rw [show (ofText (before ++ text)).rest = before ++ text from rfl, dropWhile_of hbefore htext]
  obtain ⟨c, rest, rfl, _⟩ := htext
  rfl

theorem sentry_cases {s : IStream} (h : (sentry space s).fail = false) :
    ∃ before text, s = ofText (before ++ text) ∧ Blank space before ∧ Starts space text ∧
      sentry space s = ofText text := by
  obtain ⟨rest, eof, fail⟩ := s
  cases eof with
  | true => cases h
  | false =>
    cases fail with
    | true => cases h
    | false =>
      rcases dropWhile_cases space rest with hblank | ⟨before, hrest, hbefore, hstarts⟩
      · change (rest.dropWhile space).isEmpty = false at h
        rw [dropWhile_eq_nil.mpr hblank] at h
        cases h
      · refine ⟨before, rest.dropWhile space, ?_, hbefore, hstarts, ?_⟩
        · rw [← hrest]
          rfl
        · have hsentry := sentry_of hbefore hstarts
          rw [← hrest] at hsentry
          exact hsentry

/-! ## words -/

variable (space) in
/-- a text that is not empty and has no white space -/
def IsWord (text : List Char) : Prop := text ≠ [] ∧ ∀ c ∈ text, space c = false

instance (text : List Char) : Decidable (IsWord space text) :=
  have := List.decidableBAll (fun c => space c = false) text
  inferInstanceAs (Decidable (text ≠ [] ∧ ∀ c ∈ text, space c = false))

variable (space) in
/-- A word ends in front of this text. -/
def WordEnds (text : List Char) : Prop := ∀ c ∈ text.head?, space c = true

theorem IsWord.starts {text : List Char} (h : IsWord space text) (after : List Char) :
    Starts space (text ++ after) := by
  cases text with
  | nil => exact absurd rfl h.1
  | cons c text => exact ⟨c, text ++ after, rfl, h.2 c List.mem_cons_self⟩

theorem word_split {text after : List Char} (h : IsWord space text) (hafter : WordEnds space after) :
    (text ++ after).takeWhile (!space ·) = text ∧ (text ++ after).dropWhile (!space ·) = after := by
  have htext : ∀ c ∈ text, (!space c) = true := fun c hc => by rw [h.2 c hc]; rfl
  rw [List.takeWhile_append_of_pos htext, List.dropWhile_append_of_pos htext]
  cases after with
  | nil => exact ⟨List.append_nil text, rfl⟩
  | cons c after =>
    have hc : (!space c) = false := by rw [hafter c rfl]; rfl
    rw [List.takeWhile_cons, List.dropWhile_cons, hc, if_neg Bool.false_ne_true,
      if_neg Bool.false_ne_true,
      List.append_nil]
    exact ⟨rfl, rfl⟩

/-- the word at the front of a text -/
theorem word_front {text : List Char} (h : Starts space text) :
    ∃ front after, text = front ++ after ∧ IsWord space front ∧ WordEnds space after ∧
      text.takeWhile (!space ·) = front ∧ text.dropWhile (!space ·) = after := by
  refine ⟨text.takeWhile (!space ·), text.dropWhile (!space ·), List.takeWhile_append_dropWhile.symm,
    ⟨?_, ?_⟩, ?_, rfl, rfl⟩
  · obtain ⟨c, rest, rfl, hc⟩ := h
    rw [List.takeWhile_cons, hc]
    exact List.cons_ne_nil _ _
  · intro c hc
    simpa using List.mem_takeWhile_imp hc
  · intro c hc
    have hhead := List.head?_dropWhile_not (!space ·) text
    rw [Option.mem_def.mp hc] at hhead
    simpa using hhead

theorem word_of {before text after : List Char} (hbefore : Blank space before) (h : IsWord space text)
    (hafter : WordEnds space after) :
    word space (ofText (before ++ (text ++ after))) = (text, behind after) := by
  unfold word
  simp only
  rw [sentry_of hbefore (h.starts after)]
  obtain ⟨htake, hdrop⟩ := word_split h hafter
  change ((text ++ after).takeWhile _, behind ((text ++ after).dropWhile _)) = _
  rw [htake, hdrop]

theorem word_cases {s : IStream} (h : (word space s).2.fail = false) :
    ∃ before text after, s = ofText (before ++ (text ++ after)) ∧ Blank space before ∧ IsWord space text ∧
      WordEnds space after ∧ word space s = (text, behind after) := by
  have hsentry : (sentry space s).fail = false := by
    unfold word at h
    simp only at h
    split at h
    · exact h
    · rename_i hfail
      exact Bool.not_eq_true _ ▸ hfail
  obtain ⟨before, rest, rfl, hbefore, hstarts, -⟩ := sentry_cases hsentry
  obtain ⟨text, after, rfl, htext, hafter, -⟩ := word_front hstarts
  exact ⟨before, text, after, rfl, hbefore, htext, hafter, word_of hbefore htext hafter⟩

/-! ## quoted texts -/

section
variable {delim escape : Char}

theorem quotedRest_of {body text : List Char} (h : Quotes delim escape body text) (hne : delim ≠ escape)
    (after : List Char) : quotedRest delim escape (body ++ delim :: after) = (text, ofText after) := by
  induction h with
  | nil =>
    rw [List.nil_append, quotedRest.eq_def]
    simp only
    rw [if_neg hne, if_pos trivial]
    rfl
  | plain hescape hdelim _ ih =>
    rw [List.cons_append, quotedRest.eq_def]
    simp only
    rw [if_neg hescape, if_neg hdelim, ih]
  | escape _ ih =>
    rw [List.cons_append, List.cons_append, quotedRest.eq_def]
    simp only
    rw [if_pos trivial, ih]

theorem quotedRest_cases {rest : List Char} (h : (quotedRest delim escape rest).2.fail = false) :
    ∃ body text after, rest = body ++ delim :: after ∧ Quotes delim escape body text ∧
      quotedRest delim escape rest = (text, ofText after) := by
  induction rest using quotedRest.induct delim escape with
  | case1 => cases h
  | case2 => simp [quotedRest] at h
  | case3 c rest ih =>
    have hread : quotedRest delim escape (escape :: c :: rest) =
        (c :: (quotedRest delim escape rest).1, (quotedRest delim escape rest).2) := by
      rw [quotedRest.eq_def]
      simp only
      rw [if_pos trivial]
    rw [hread] at h
    obtain ⟨body, text, after, rfl, hquotes, hrest⟩ := ih h
    exact ⟨escape :: c :: body, c :: text, after, rfl, .escape hquotes, by rw [hread, hrest]⟩
  | case4 rest hne =>
    exact ⟨[], [], rest, rfl, .nil, quotedRest_of .nil hne rest⟩
  | case5 c rest hescape hdelim ih =>
    have hread : quotedRest delim escape (c :: rest) =
        (c :: (quotedRest delim escape rest).1, (quotedRest delim escape rest).2) := by
      rw [quotedRest.eq_def]
      simp only
      rw [if_neg hescape, if_neg hdelim]
    rw [hread] at h
    obtain ⟨body, text, after, rfl, hquotes, hrest⟩ := ih h
    exact ⟨c :: body, c :: text, after, rfl, .plain hescape hdelim hquotes, by rw [hread, hrest]⟩

theorem quoted_start {s : IStream} {c : Char} {rest : List Char}
    (h : sentry space s = ofText (c :: rest)) :
    quoted space delim escape s =
      if c = delim then quotedRest delim escape rest else word space (ofText (c :: rest)) := by
  unfold quoted
  simp only
  rw [h]
  rfl

theorem quoted_of {before body text : List Char} (hbefore : Blank space before)
    (hspace : space delim = false) (hne : delim ≠ escape) (h : Quotes delim escape body text)
    (after : List Char) :
    quoted space delim escape (ofText (before ++ delim :: (body ++ delim :: after))) =
      (text, ofText after) := by
  rw [quoted_start (sentry_of hbefore ⟨delim, _, rfl, hspace⟩), if_pos rfl, quotedRest_of h hne]

/-- a word without a delimiter in front is read as it is -/
theorem bare_of {before text after : List Char} (hbefore : Blank space before) (h : IsWord space text)
    (hdelim : text.head? ≠ some delim) (hafter : WordEnds space after) :
    quoted space delim escape (ofText (before ++ (text ++ after))) = (text, behind after) := by
  have hsentry := sentry_of hbefore (h.starts after)
  obtain ⟨c, rest, hrest, hc⟩ := h.starts after
  have hne : c ≠ delim := by
    rintro rfl
    cases text with
    | nil => exact h.1 rfl
    | cons d text =>
      obtain rfl := (List.cons.inj hrest).1
      exact hdelim rfl
  have hword := word_of blank_nil h hafter
  rw [List.nil_append] at hword
  rw [hrest] at hsentry hword ⊢
  rw [quoted_start hsentry, if_neg hne, hword]

theorem quoted_cases {s : IStream} (hspace : space delim = false) (hne : delim ≠ escape)
    (h : (quoted space delim escape s).2.fail = false) :
    ∃ before, Blank space before ∧
      ((∃ body text after, s = ofText (before ++ delim :: (body ++ delim :: after)) ∧
          Quotes delim escape body text ∧ quoted space delim escape s = (text, ofText after)) ∨
        ∃ text after, s = ofText (before ++ (text ++ after)) ∧ IsWord space text ∧
          text.head? ≠ some delim ∧ WordEnds space after ∧
          quoted space delim escape s = (text, behind after)) := by
  have hsentry : (sentry space s).fail = false := by
    unfold quoted at h
    simp only at h
    split at h
    · exact h
    · rename_i hfail
      exact Bool.not_eq_true _ ▸ hfail
  obtain ⟨before, rest, rfl, hbefore, hstarts, hs⟩ := sentry_cases hsentry
  refine ⟨before, hbefore, ?_⟩
  obtain ⟨c, rest, rfl, hc⟩ := hstarts
  by_cases hdelim : c = delim
  · subst hdelim
    rw [quoted_start hs, if_pos rfl] at h
    obtain ⟨body, text, after, rfl, hquotes, -⟩ := quotedRest_cases h
    exact .inl ⟨body, text, after, rfl, hquotes, quoted_of hbefore hc hne hquotes after⟩
  · obtain ⟨text, after, htext, hword, hafter, -⟩ := word_front ⟨c, rest, rfl, hc⟩
    have hhead : text.head? ≠ some delim := by
      intro hhead
      cases text with
      | nil => cases hhead
      | cons d text =>
        obtain rfl := Option.some.inj hhead
        exact hdelim (List.cons.inj htext).1
    refine .inr ⟨text, after, ?_, hword, hhead, hafter, ?_⟩
    · rw [htext]
    · rw [htext]
      exact bare_of hbefore hword hhead hafter

end

/-! ## numbers -/

/-- A number begins with no white space. -/
def NumbersShow (space : Char → Bool) : Prop := ∀ c, c.isDigit = true ∨ c = '+' ∨ c = '-' → space c = false

theorem sign_cases (text : List Char) :
    ∃ signs, text = signs ++ (sign text).2 ∧
      (signs = ['-'] ∧ (sign text).1 = true ∨ (signs = [] ∨ signs = ['+']) ∧ (sign text).1 = false) := by
  unfold sign
  split
  · exact ⟨['-'], rfl, .inl ⟨rfl, rfl⟩⟩
  · exact ⟨['+'], rfl, .inr ⟨.inr rfl, rfl⟩⟩
  · exact ⟨[], rfl, .inr ⟨.inl rfl, rfl⟩⟩

theorem sign_digits {text : List Char} (h : ∀ c ∈ text.head?, c.isDigit = true) :
    sign text = (false, text) := by
  unfold sign
  split
  · exact absurd (h '-' rfl) (by decide)
  · exact absurd (h '+' rfl) (by decide)
  · rfl

theorem digits_split {digits after : List Char} (h : ∀ c ∈ digits, c.isDigit = true)
    (hafter : ∀ c ∈ after.head?, c.isDigit = false) :
    (digits ++ after).takeWhile Char.isDigit = digits ∧
      (digits ++ after).dropWhile Char.isDigit = after := by
  rw [List.takeWhile_append_of_pos h, List.dropWhile_append_of_pos h]
  cases after with
  | nil => exact ⟨List.append_nil digits, rfl⟩
  | cons c after =>
    rw [List.takeWhile_cons, List.dropWhile_cons, hafter c rfl, if_neg Bool.false_ne_true,
      if_neg Bool.false_ne_true, List.append_nil]
    exact ⟨rfl, rfl⟩

theorem int64_start {s : IStream} {text : List Char} (h : sentry space s = ofText text) :
    int64 space s = number text := by
  unfold int64
  simp only
  rw [h]
  rfl

/-- the sign and the digits of a number -/
theorem isNumber_sign {text : List Char} {value : Int} (h : IsNumber text value) (after : List Char) :
    ∃ digits, digits ≠ [] ∧ (∀ c ∈ digits, c.isDigit = true) ∧ (sign (text ++ after)).2 = digits ++ after ∧
      signed (sign (text ++ after)).1 digits = value := by
  obtain ⟨signs, digits, rfl, hne, hdigits, hsign⟩ := h
  refine ⟨digits, hne, hdigits, ?_⟩
  rcases hsign with ⟨rfl, rfl⟩ | ⟨rfl | rfl, rfl⟩
  · exact ⟨rfl, rfl⟩
  · have hfirst : ∀ c ∈ (digits ++ after).head?, c.isDigit = true := by
      intro c hc
      rw [List.head?_append_of_ne_nil _ hne] at hc
      exact hdigits c (List.mem_of_mem_head? hc)
    rw [List.nil_append, sign_digits hfirst]
    exact ⟨rfl, rfl⟩
  · exact ⟨rfl, rfl⟩

/-- a number begins with a sign or a digit -/
theorem isNumber_starts {text : List Char} {value : Int} (hshow : NumbersShow space)
    (h : IsNumber text value) (after : List Char) : Starts space (text ++ after) := by
  obtain ⟨signs, digits, rfl, hne, hdigits, hsign⟩ := h
  rcases hsign with ⟨rfl, -⟩ | ⟨rfl | rfl, -⟩
  · exact ⟨'-', _, rfl, hshow '-' (.inr (.inr rfl))⟩
  · cases digits with
    | nil => exact absurd rfl hne
    | cons c digits => exact ⟨c, _, rfl, hshow c (.inl (hdigits c List.mem_cons_self))⟩
  · exact ⟨'+', _, rfl, hshow '+' (.inr (.inl rfl))⟩

theorem int64_of {before text after : List Char} {value : Int} (hshow : NumbersShow space)
    (hbefore : Blank space before) (h : IsNumber text value) (hlow : -2 ^ 63 ≤ value)
    (hhigh : value < 2 ^ 63) (hafter : ∀ c ∈ after.head?, c.isDigit = false) :
    int64 space (ofText (before ++ (text ++ after))) = (value, behind after) := by
  rw [int64_start (sentry_of hbefore (isNumber_starts hshow h after))]
  obtain ⟨digits, hne, hdigits, hrest, hvalue⟩ := isNumber_sign h after
  obtain ⟨htake, hdrop⟩ := digits_split hdigits hafter
  unfold number
  simp only
  rw [hrest, htake, hdrop, hvalue, if_neg hne, if_neg (Int.not_lt.mpr hlow),
    if_neg (Int.not_le.mpr hhigh)]

theorem int64_cases {s : IStream} (h : (int64 space s).2.fail = false) :
    ∃ before text value after, s = ofText (before ++ (text ++ after)) ∧ Blank space before ∧
      IsNumber text value ∧ int64 space s = (value, behind after) := by
  have hsentry : (sentry space s).fail = false := by
    unfold int64 at h
    simp only at h
    split at h
    · exact h
    · rename_i hfail
      exact Bool.not_eq_true _ ▸ hfail
  obtain ⟨before, rest, rfl, hbefore, -, hs⟩ := sentry_cases hsentry
  rw [int64_start hs] at h ⊢
  obtain ⟨signs, hrest, hsign⟩ := sign_cases rest
  have hdigits : (sign rest).2.takeWhile Char.isDigit ≠ [] := by
    intro hnil
    unfold number at h
    simp only at h
    rw [if_pos hnil] at h
    cases h
  refine ⟨before, signs ++ (sign rest).2.takeWhile Char.isDigit,
    signed (sign rest).1 ((sign rest).2.takeWhile Char.isDigit), (sign rest).2.dropWhile Char.isDigit, ?_,
    hbefore, ⟨signs, _, rfl, hdigits, fun c hc => List.mem_takeWhile_imp hc, ?_⟩, ?_⟩
  · rw [List.append_assoc, List.takeWhile_append_dropWhile, ← hrest]
  · rcases hsign with ⟨hsigns, hnegative⟩ | ⟨hsigns, hnegative⟩
    · exact .inl ⟨hsigns, by rw [hnegative]; rfl⟩
    · exact .inr ⟨hsigns, by rw [hnegative]; rfl⟩
  · unfold number at h ⊢
    simp only at h ⊢
    rw [if_neg hdigits] at h ⊢
    split at h
    · cases h
    · rename_i hlow
      split at h
      · cases h
      · rename_i hhigh
        rw [if_neg hlow, if_neg hhigh]

end
end IStream
end Text
