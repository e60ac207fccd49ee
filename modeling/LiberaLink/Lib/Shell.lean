import Mathlib.Data.List.Basic

/-!
# Reading a command line

The words of a command line as a POSIX shell takes them from its characters, one after the other.  What an
unquoted `$` or backquote begins is read by rules of its own, which are a parameter; a here-document, which
comes behind the line that asks for it, is not read.

* `Lexer`, `step`, `read`   the characters of a line, by the mode the reader is in;
* `tokens`, `simpleCommand` the tokens of a line, and the arguments if it is a simple command;
* `singleQuote`             a text between single quotes;
* `read_singleQuote`        **it is read back as one word**;
* `read_arguments`          a line of arguments, plain or quoted.
-/

namespace Shell

/-! ## tokens -/

/-- a character of a word and if it was quoted -/
abbrev Letter := Char × Bool

inductive Token where
  | word (letters : List Letter)
  | ioNumber (digits : List Char)
  | operator (text : List Char)
  deriving DecidableEq

def operators : List (List Char) :=
  [['&'], [';'], ['<'], ['>'], ['|'], ['('], [')'], ['&', '&'], ['|', '|'], [';', ';'], [';', '&'],
    ['<', '<'], ['>', '>'], ['<', '&'], ['>', '&'], ['<', '>'], ['<', '<', '-'], ['>', '|']]

def isBlank (c : Char) : Bool := c = ' ' || c = '\t'

/-- digits that a redirection follows -/
def isIoNumber (letters : List Letter) : Bool :=
  !letters.isEmpty && letters.all fun l => l.1.isDigit && !l.2

/-- what an expansion makes of a character: it goes on, it ends with it, or it ended in front of it -/
inductive Taken (σ : Type) where
  | more (x : σ)
  | last
  | outside

/-- how expansions are read, and if one may end with the line -/
structure Expansions (σ : Type) where
  start : Char → σ
  step : σ → Char → Taken σ
  complete : σ → Bool

/-! ## the lexer -/

/-- where the reader is; an expansion may stand between double quotes, and there is no way out of a
here-document -/
inductive Mode (σ : Type) where
  | plain
  | escape
  | single
  | double
  | doubleEscape
  | expansion (x : σ) (quoted : Bool)
  | comment
  | hereDocument
  deriving DecidableEq

/-- the word and the operator that have begun, and the tokens in front of them -/
structure Lexer (σ : Type) where
  mode : Mode σ := .plain
  word : Option (List Letter) := none
  operator : List Char := []
  tokens : List Token := []

section
variable {σ : Type} (e : Expansions σ)

namespace Lexer

def push (l : Lexer σ) (c : Char) (quoted : Bool) : Lexer σ :=
  { l with word := some (l.word.getD [] ++ [(c, quoted)]) }

def openWord (l : Lexer σ) : Lexer σ := { l with word := some (l.word.getD []) }

def endOperator (l : Lexer σ) : Lexer σ :=
  if l.operator = [] then l
  else { l with operator := [], tokens := l.tokens ++ [.operator l.operator] }

def endWord (l : Lexer σ) (redirected : Bool) : Lexer σ :=
  match l.word with
  | none => l
  | some letters =>
    let token := if redirected && isIoNumber letters then .ioNumber (letters.map Prod.fst)
      else .word letters
    { l with word := none, tokens := l.tokens ++ [token] }

/-- a line that asks for no here-document is followed by the next one -/
def endLine (l : Lexer σ) : Lexer σ :=
  { l with
    mode := if .operator ['<', '<'] ∈ l.tokens ∨ .operator ['<', '<', '-'] ∈ l.tokens then .hereDocument
      else .plain
    tokens := l.tokens ++ [.operator ['\n']] }

/-- a character that is not quoted, with no operator in front of it -/
def readFresh (l : Lexer σ) (c : Char) : Lexer σ :=
  if c = '\'' then { l.openWord with mode := .single }
  else if c = '"' then { l.openWord with mode := .double }
  else if c = '$' ∨ c = '`' then { l.push c false with mode := .expansion (e.start c) false }
  else if c = '\n' then (l.endWord false).endLine
  else if [c] ∈ operators then { l.endWord (c = '<' || c = '>') with operator := [c] }
  else if isBlank c then l.endWord false
  else if c = '#' ∧ l.word = none then { l with mode := .comment }
  else l.push c false

/-- a character that is not quoted; a backslash may take back the end of the line, so it ends nothing -/
def readPlain (l : Lexer σ) (c : Char) : Lexer σ :=
  if c = '\\' then { l with mode := .escape }
  else if l.operator ≠ [] ∧ l.operator ++ [c] ∈ operators then { l with operator := l.operator ++ [c] }
  else readFresh e l.endOperator c

/-- a character between double quotes -/
def readDouble (l : Lexer σ) (c : Char) : Lexer σ :=
  if c = '"' then { l with mode := .plain }
  else if c = '\\' then { l with mode := .doubleEscape }
  else if c = '$' ∨ c = '`' then { l.push c false with mode := .expansion (e.start c) true }
  else l.push c true

def step (l : Lexer σ) (c : Char) : Lexer σ :=
  match l.mode with
  | .plain => readPlain e l c
  | .escape =>
    if c = '\n' then { l with mode := .plain } else { l.endOperator.push c true with mode := .plain }
  | .single => if c = '\'' then { l with mode := .plain } else l.push c true
  | .double => readDouble e l c
  | .doubleEscape =>
    let l := { l with mode := .double }
    if c = '\n' then l
    else if c ∈ ['$', '`', '"', '\\'] then l.push c true
    else (l.push '\\' true).push c true
  | .expansion x quoted =>
    let around : Mode σ := if quoted then .double else .plain
    match e.step x c with
    | .more x => { l.push c false with mode := .expansion x quoted }
    | .last => { l.push c false with mode := around }
    | .outside =>
      if quoted then readDouble e { l with mode := around } c else readPlain e { l with mode := around } c
  | .comment => if c = '\n' then l.endLine else l
  | .hereDocument => l

def read (l : Lexer σ) (text : List Char) : Lexer σ := text.foldl (step e) l

/-- The line may end here: no quote or expansion is open. -/
def complete (l : Lexer σ) : Bool :=
  match l.mode with
  | .plain | .comment => true
  | .expansion x quoted => !quoted && e.complete x
  | .escape | .single | .double | .doubleEscape | .hereDocument => false

/-- the reader is between two words, and nothing is quoted -/
def Between (l : Lexer σ) : Prop := ∃ tokens, l = { tokens := tokens }

/-- The character is a blank that is not quoted; an expansion may end in front of it. -/
def Delimits (l : Lexer σ) (b : Char) : Prop :=
  isBlank b = true ∧ (l.mode = .plain ∨ ∃ x, l.mode = .expansion x false ∧ e.step x b = .outside)

/-- the reader is in a word, behind these letters -/
def inWord (letters : List Letter) (tokens : List Token) : Lexer σ :=
  { word := some letters, tokens := tokens }

end Lexer

/-- the tokens of a line, if it is complete -/
def tokens (line : List Char) : Option (List Token) :=
  let l := Lexer.read e {} line
  if l.complete e then some (l.endOperator.endWord false).tokens else none

/-! ## simple commands -/

/-- Characters that stand for other text where they are not quoted. -/
def special : List Char := ['$', '`', '*', '?', '[', '{', '~']

/-- the text of a word, if nothing in it is expanded -/
def literal (letters : List Letter) : Option (List Char) :=
  if letters.any fun l => !l.2 && special.contains l.1 then none else some (letters.map Prod.fst)

def reserved : List (List Char) :=
  [['!'], ['{'], ['}'], ['c', 'a', 's', 'e'], ['d', 'o'], ['d', 'o', 'n', 'e'], ['e', 'l', 'i', 'f'],
    ['e', 'l', 's', 'e'], ['e', 's', 'a', 'c'], ['f', 'i'], ['f', 'o', 'r'], ['i', 'f'], ['i', 'n'],
    ['t', 'h', 'e', 'n'], ['u', 'n', 't', 'i', 'l'], ['w', 'h', 'i', 'l', 'e']]

/-- The first word names a command: it is no reserved word and no assignment. -/
def isName (letters : List Letter) : Bool :=
  !(letters.any fun l => !l.2 && l.1 = '=') &&
    !((letters.all fun l => !l.2) && reserved.contains (letters.map Prod.fst))

structure Redirection where
  fd : Option (List Char)
  operator : List Char
  target : List Char
  deriving DecidableEq

structure SimpleCommand where
  arguments : List (List Char) := []
  redirections : List Redirection := []
  deriving DecidableEq

/-- the operators that a file name or a number follows -/
def redirecting : List (List Char) :=
  [['<'], ['>'], ['>', '>'], ['<', '&'], ['>', '&'], ['<', '>'], ['>', '|']]

def redirect (fd : Option (List Char)) (operator : List Char) (target : Option (List Char))
    (command : Option SimpleCommand) : Option SimpleCommand :=
  match target, command with
  | some target, some command =>
    if operator ∈ redirecting then
      some { command with redirections := ⟨fd, operator, target⟩ :: command.redirections }
    else none
  | _, _ => none

/-- the arguments and the redirections, where there is nothing else -/
def parse : List Token → Option SimpleCommand
  | [] => some {}
  | .word letters :: rest =>
    match literal letters, parse rest with
    | some value, some command => some { command with arguments := value :: command.arguments }
    | _, _ => none
  | .operator operator :: .word target :: rest => redirect none operator (literal target) (parse rest)
  | .ioNumber fd :: .operator operator :: .word target :: rest =>
    redirect (some fd) operator (literal target) (parse rest)
  | _ => none

/-- the simple command that a line is -/
def simpleCommand (line : List Char) : Option SimpleCommand :=
  match tokens e line with
  | some (.word letters :: rest) => if isName letters then parse (.word letters :: rest) else none
  | _ => none

end

/-! ## a quoted word -/

/-- the text between two quotes; a quote in it leaves them, and comes behind a backslash -/
def quotedBody (text : List Char) : List Char :=
  text.flatMap fun c => if c = '\'' then ['\'', '\\', '\'', '\''] else [c]

def singleQuote (text : List Char) : List Char := '\'' :: (quotedBody text ++ ['\''])

theorem mem_of_mem_singleQuote {c : Char} {text : List Char} (h : c ∈ singleQuote text)
    (hquote : c ≠ '\'') (hescape : c ≠ '\\') : c ∈ text := by
  rcases List.mem_cons.mp h with heq | h
  · exact absurd heq hquote
  rcases List.mem_append.mp h with hbody | heq
  · obtain ⟨d, hd, hc⟩ := List.mem_flatMap.mp hbody
    split at hc
    · simp only [List.mem_cons, List.not_mem_nil, or_false] at hc
      rcases hc with heq | heq | heq | heq
      · exact absurd heq hquote
      · exact absurd heq hescape
      · exact absurd heq hquote
      · exact absurd heq hquote
    · exact List.mem_singleton.mp hc ▸ hd
  · exact absurd (List.mem_singleton.mp heq) hquote

/-- the letters of a text that is quoted as a whole -/
def quotedLetters (text : List Char) : List Letter := text.map fun c => (c, true)

section
variable {σ : Type} (e : Expansions σ)

open Lexer

theorem read_append (l : Lexer σ) (first second : List Char) :
    read e l (first ++ second) = read e (read e l first) second :=
  List.foldl_append

theorem read_cons (l : Lexer σ) (c : Char) (text : List Char) :
    read e l (c :: text) = read e (step e l c) text := rfl

theorem step_plain {l : Lexer σ} (hmode : l.mode = .plain) (c : Char) : step e l c = readPlain e l c := by
  unfold step
  rw [hmode]

theorem step_single {l : Lexer σ} (hmode : l.mode = .single) {c : Char} (hc : c ≠ '\'') :
    step e l c = l.push c true := by
  unfold step
  rw [hmode]
  exact if_neg hc

theorem read_quotedBody (letters : List Letter) (ts : List Token) (text : List Char) :
    read e ⟨.single, some letters, [], ts⟩ (quotedBody text) =
      ⟨.single, some (letters ++ quotedLetters text), [], ts⟩ := by
  induction text generalizing letters with
  | nil =>
    show _ = (⟨_, some (letters ++ []), _, _⟩ : Lexer σ)
    rw [List.append_nil]
    rfl
  | cons c text ih =>
    have hletters : letters ++ quotedLetters (c :: text) = (letters ++ [(c, true)]) ++ quotedLetters text :=
      (List.append_assoc letters [(c, true)] (quotedLetters text)).symm
    have hbody : quotedBody (c :: text) =
        (if c = '\'' then ['\'', '\\', '\'', '\''] else [c]) ++ quotedBody text := List.flatMap_cons
    rw [hletters, hbody, read_append, ← ih]
    congr 1
    by_cases hc : c = '\''
    · subst hc
      rfl
    · rw [if_neg hc, read_cons, step_single e rfl hc]
      rfl

/-- the quotes of a word bring it to its end, from wherever a word may begin -/
theorem read_singleQuote (ts : List Token) (text : List Char) :
    read e { tokens := ts } (singleQuote text) = inWord (quotedLetters text) ts := by
  unfold singleQuote
  rw [read_cons, show step e { tokens := ts } '\'' = ⟨.single, some [], [], ts⟩ from rfl, read_append,
    read_quotedBody]
  rfl

theorem isBlank_iff {b : Char} : isBlank b = true ↔ b = ' ' ∨ b = '\t' := by
  rw [isBlank, Bool.or_eq_true, decide_eq_true_eq, decide_eq_true_eq]

/-- a blank that is not quoted ends a word -/
theorem step_blank (letters : List Letter) (ts : List Token) {b : Char} (hb : isBlank b = true) :
    step e (inWord letters ts) b = { tokens := ts ++ [.word letters] } := by
  rcases isBlank_iff.mp hb with rfl | rfl
  · rfl
  · rfl

/-- no operator goes on with a blank -/
theorem blank_not_operator {b : Char} (hb : isBlank b = true) (text : List Char) :
    text ++ [b] ∉ operators := by
  have hlast : ∀ op ∈ operators, op.getLast? ≠ some ' ' ∧ op.getLast? ≠ some '\t' := by decide
  intro hmem
  have hboth := hlast _ hmem
  rw [List.getLast?_concat] at hboth
  exact (isBlank_iff.mp hb).elim (fun h => hboth.1 (congrArg some h)) fun h => hboth.2 (congrArg some h)

theorem endOperator_operator (l : Lexer σ) : l.endOperator.operator = [] := by
  unfold endOperator
  split
  · assumption
  · rfl

theorem endOperator_mode (l : Lexer σ) : l.endOperator.mode = l.mode := by
  unfold endOperator
  split
  · rfl
  · rfl

theorem endWord_between {l : Lexer σ} (hmode : l.mode = .plain) (hoperator : l.operator = [])
    (redirected : Bool) : (l.endWord redirected).Between := by
  obtain ⟨mode, word, operator, ts⟩ := l
  subst hmode hoperator
  cases word with
  | none => exact ⟨ts, rfl⟩
  | some letters => exact ⟨_, rfl⟩

theorem readPlain_fresh {l : Lexer σ} {c : Char} (hescape : c ≠ '\\')
    (hends : ¬ (l.operator ≠ [] ∧ l.operator ++ [c] ∈ operators)) :
    readPlain e l c = readFresh e l.endOperator c := by
  unfold readPlain
  rw [if_neg hescape, if_neg hends]

theorem readPlain_blank (l : Lexer σ) {b : Char} (hb : isBlank b = true) :
    readPlain e l b = l.endOperator.endWord false := by
  have hescape : b ≠ '\\' := by
    rintro rfl
    cases hb
  rw [readPlain_fresh e hescape fun h => blank_not_operator hb _ h.2]
  rcases isBlank_iff.mp hb with rfl | rfl
  · rfl
  · rfl

/-- **Behind a blank that is not quoted** the reader is between two words. -/
theorem Lexer.Delimits.between {l : Lexer σ} {b : Char} (h : l.Delimits e b) : (step e l b).Between := by
  obtain ⟨hb, hplain | ⟨x, hexpansion, houtside⟩⟩ := h
  · rw [step_plain e hplain, readPlain_blank e l hb]
    exact endWord_between ((endOperator_mode l).trans hplain) (endOperator_operator l) false
  · have hstep : step e l b = readPlain e { l with mode := .plain } b := by
      unfold step
      simp only [hexpansion, houtside]
      rfl
    rw [hstep, readPlain_blank e _ hb]
    exact endWord_between (endOperator_mode _) (endOperator_operator _) false

/-- **A quoted text between two blanks** is one word, and what comes behind is not quoted. -/
theorem read_quoted_word {l : Lexer σ} (h : l.Between) (text : List Char) {b : Char}
    (hb : isBlank b = true) (after : List Char) :
    read e l (singleQuote text ++ b :: after) =
      read e { tokens := l.tokens ++ [.word (quotedLetters text)] } after := by
  obtain ⟨ts, rfl⟩ := h
  rw [read_append, read_singleQuote, read_cons, step_blank e _ _ hb]

end

/-! ## plain words -/

/-- the characters that mean something where they are not quoted -/
def significant : List Char :=
  special ++ ['\\', '\'', '"', ' ', '\t', '\n', '&', ';', '<', '>', '|', '(', ')']

/-- the text stands for itself without quotes -/
def IsPlain (text : List Char) : Prop :=
  text ≠ [] ∧ text.head? ≠ some '#' ∧ ∀ c ∈ text, c ∉ significant

instance (text : List Char) : Decidable (IsPlain text) :=
  have := List.decidableBAll (fun c => c ∉ significant) text
  inferInstanceAs (Decidable (text ≠ [] ∧ text.head? ≠ some '#' ∧ ∀ c ∈ text, c ∉ significant))

def plainLetters (text : List Char) : List Letter := text.map fun c => (c, false)

theorem operators_significant : ∀ op ∈ operators, op.headD ' ' ∈ significant := by decide

section
variable {σ : Type} (e : Expansions σ)

open Lexer

theorem step_ordinary {l : Lexer σ} (hmode : l.mode = .plain) (hoperator : l.operator = []) {c : Char}
    (hc : c ∉ significant) (hcomment : ¬ (c = '#' ∧ l.word = none)) : step e l c = l.push c false := by
  have hne : ∀ d, d ∈ significant → c ≠ d := fun d hd heq => hc (heq ▸ hd)
  have hoperators : [c] ∉ operators := fun hmem => hc (operators_significant [c] hmem)
  have hblank : ¬ isBlank c = true := by
    rw [isBlank, Bool.or_eq_true, decide_eq_true_eq, decide_eq_true_eq]
    exact not_or.mpr ⟨hne ' ' (by decide), hne '\t' (by decide)⟩
  have hexpansion : ¬ (c = '$' ∨ c = '`') := not_or.mpr ⟨hne '$' (by decide), hne '`' (by decide)⟩
  have hend : l.endOperator = l := if_pos hoperator
  rw [step_plain e hmode, readPlain_fresh e (hne '\\' (by decide)) fun h => h.1 hoperator, hend]
  unfold readFresh
  rw [if_neg (hne '\'' (by decide)), if_neg (hne '"' (by decide)), if_neg hexpansion,
    if_neg (hne '\n' (by decide)), if_neg hoperators, if_neg hblank, if_neg hcomment]

theorem read_ordinary (letters : List Letter) (ts : List Token) {text : List Char}
    (h : ∀ c ∈ text, c ∉ significant) :
    read e (inWord letters ts) text = inWord (letters ++ plainLetters text) ts := by
  induction text generalizing letters with
  | nil => exact congrArg (inWord · ts) (List.append_nil letters).symm
  | cons c text ih =>
    have hc : c ∉ significant := h c List.mem_cons_self
    rw [read_cons, step_ordinary e rfl rfl hc fun h => Option.some_ne_none letters h.2,
      show (inWord letters ts).push c false = (inWord (letters ++ [(c, false)]) ts : Lexer σ) from rfl,
      ih _ fun d hd => h d (List.mem_cons_of_mem c hd), List.append_assoc]
    rfl

theorem read_plain (ts : List Token) {text : List Char} (h : IsPlain text) :
    read e { tokens := ts } text = inWord (plainLetters text) ts := by
  obtain ⟨hne, hhead, hordinary⟩ := h
  cases text with
  | nil => exact absurd rfl hne
  | cons c text =>
    have hc : c ∉ significant := hordinary c List.mem_cons_self
    have hcomment : c ≠ '#' := fun heq => hhead (congrArg some heq)
    rw [read_cons, step_ordinary e rfl rfl hc fun h => hcomment h.1,
      show ({ tokens := ts } : Lexer σ).push c false = inWord [(c, false)] ts from rfl,
      read_ordinary e _ ts fun d hd => hordinary d (List.mem_cons_of_mem c hd)]
    rfl

end

/-! ## redirections -/

section
variable {σ : Type} (e : Expansions σ)

open Lexer

/-- a character that no operator goes on with ends the operator in front of it -/
theorem step_operator {operator : List Char} {ts : List Token} {c : Char} (hoperator : operator ≠ [])
    (hescape : c ≠ '\\') (hends : operator ++ [c] ∉ operators) :
    step e ⟨.plain, none, operator, ts⟩ c = step e { tokens := ts ++ [.operator operator] } c := by
  have hend : (⟨.plain, none, operator, ts⟩ : Lexer σ).endOperator =
      { tokens := ts ++ [.operator operator] } := if_neg hoperator
  rw [step_plain e rfl, step_plain e rfl, readPlain_fresh e hescape fun h => hends h.2,
    readPlain_fresh e hescape fun h => h.1 rfl, hend]
  rfl

/-- the target of a redirection -/
theorem read_target {operator : List Char} (ts : List Token) {text : List Char} (htext : IsPlain text)
    (hoperator : operator ≠ []) (hends : operator ++ text.take 1 ∉ operators) :
    read e ⟨.plain, none, operator, ts⟩ text = inWord (plainLetters text) (ts ++ [.operator operator]) := by
  rw [← read_plain e _ htext]
  cases text with
  | nil => exact absurd rfl htext.1
  | cons c text =>
    have hescape : c ≠ '\\' := by
      rintro rfl
      exact htext.2.2 _ List.mem_cons_self (by decide)
    rw [read_cons, step_operator e hoperator hescape hends]
    rfl

/-- The number in front of a redirection is no word of the command. -/
theorem step_redirect (letters : List Letter) (ts : List Token) :
    step e (inWord letters ts) '>' = ⟨.plain, none, ['>'],
      ts ++ [if isIoNumber letters then .ioNumber (letters.map Prod.fst) else .word letters]⟩ := by
  rfl

end

/-! ## lines of arguments -/

/-- an argument as it is written down -/
inductive Argument where
  | plain (text : List Char)
  | quoted (text : List Char)

namespace Argument

def shown : Argument → List Char
  | plain text => text
  | quoted text => singleQuote text

def letters : Argument → List Letter
  | plain text => plainLetters text
  | quoted text => quotedLetters text

def value : Argument → List Char
  | plain text => text
  | quoted text => text

def Valid : Argument → Prop
  | plain text => IsPlain text
  | quoted _ => True

end Argument

theorem valid_nil : ∀ a ∈ ([] : List Argument), a.Valid := nofun

theorem valid_plain {text : List Char} {rest : List Argument} (h : IsPlain text)
    (hrest : ∀ a ∈ rest, a.Valid) : ∀ a ∈ Argument.plain text :: rest, a.Valid :=
  List.forall_mem_cons.mpr ⟨h, hrest⟩

theorem valid_quoted (text : List Char) {rest : List Argument} (hrest : ∀ a ∈ rest, a.Valid) :
    ∀ a ∈ Argument.quoted text :: rest, a.Valid :=
  List.forall_mem_cons.mpr ⟨trivial, hrest⟩

/-- the arguments behind a command -/
def shownArguments (rest : List Argument) : List Char := rest.flatMap fun a => ' ' :: a.shown

theorem shownArguments_nil : shownArguments [] = [] := rfl

theorem shownArguments_cons (a : Argument) (rest : List Argument) :
    shownArguments (a :: rest) = ' ' :: (a.shown ++ shownArguments rest) := rfl

def argumentTokens (rest : List Argument) : List Token := rest.map fun a => .word a.letters

/-- a word in which nothing is expanded -/
theorem literal_eq {letters : List Letter} (h : ∀ l ∈ letters, l.2 = true ∨ l.1 ∉ special) :
    literal letters = some (letters.map Prod.fst) := by
  have hnone : ¬ (letters.any fun l => !l.2 && special.contains l.1) = true := by
    intro hany
    obtain ⟨l, hl, hexpanded⟩ := List.any_eq_true.mp hany
    obtain ⟨hplain, hspecial⟩ := Bool.and_eq_true_iff.mp hexpanded
    rcases h l hl with hquoted | hordinary
    · rw [hquoted] at hplain
      cases hplain
    · exact hordinary (List.contains_iff_mem.mp hspecial)
  unfold literal
  rw [if_neg hnone]

theorem literal_plain {text : List Char} (h : IsPlain text) :
    literal (plainLetters text) = some text := by
  rw [literal_eq, plainLetters, List.map_map]
  · exact congrArg some (List.map_id text)
  · intro l hl
    obtain ⟨c, hc, rfl⟩ := List.mem_map.mp hl
    exact .inr fun hspecial => h.2.2 c hc (List.mem_append_left _ hspecial)

theorem literal_quoted (text : List Char) : literal (quotedLetters text) = some text := by
  rw [literal_eq, quotedLetters, List.map_map]
  · exact congrArg some (List.map_id text)
  · intro l hl
    obtain ⟨c, -, rfl⟩ := List.mem_map.mp hl
    exact .inl rfl

theorem literal_letters {a : Argument} (h : a.Valid) : literal a.letters = some a.value := by
  cases a with
  | plain text => exact literal_plain h
  | quoted text => exact literal_quoted text

/-- arguments are parsed in front of whatever comes behind them -/
theorem parse_arguments {rest : List Argument} (h : ∀ a ∈ rest, a.Valid) {tail : List Token}
    {command : SimpleCommand} (htail : parse tail = some command) :
    parse (argumentTokens rest ++ tail) =
      some { command with arguments := rest.map Argument.value ++ command.arguments } := by
  induction rest with
  | nil => exact htail
  | cons a rest ih =>
    have hrest := ih fun b hb => h b (List.mem_cons_of_mem a hb)
    show parse (.word a.letters :: (argumentTokens rest ++ tail)) = _
    unfold parse
    rw [literal_letters (h a List.mem_cons_self), hrest]
    rfl

section
variable {σ : Type} (e : Expansions σ)

open Lexer

theorem read_argument (ts : List Token) {a : Argument} (h : a.Valid) :
    read e { tokens := ts } a.shown = inWord a.letters ts := by
  cases a with
  | plain text => exact read_plain e ts h
  | quoted text => exact read_singleQuote e ts text

/-- The last argument is still open at the end of the line. -/
theorem read_arguments (letters : List Letter) (ts : List Token) {rest : List Argument}
    (h : ∀ a ∈ rest, a.Valid) : ∃ letters' ts',
      read e (inWord letters ts) (shownArguments rest) = inWord letters' ts' ∧
        ts' ++ [.word letters'] = ts ++ .word letters :: argumentTokens rest := by
  induction rest generalizing letters ts with
  | nil => exact ⟨letters, ts, rfl, rfl⟩
  | cons a rest ih =>
    obtain ⟨letters', ts', hread, htokens⟩ :=
      ih a.letters (ts ++ [.word letters]) fun b hb => h b (List.mem_cons_of_mem a hb)
    refine ⟨letters', ts', ?_, ?_⟩
    · show read e (inWord letters ts) (' ' :: a.shown ++ shownArguments rest) = _
      rw [read_append, read_cons, step_blank e letters ts rfl, read_argument e _ (h a List.mem_cons_self),
        hread]
    · rw [htokens, List.append_assoc]
      rfl

/-- **A command with its arguments** and what comes behind them, if that ends the last argument and adds
tokens of its own. -/
theorem simpleCommand_arguments {first : List Char} {rest : List Argument} (hfirst : IsPlain first)
    (hname : isName (plainLetters first) = true) (hrest : ∀ a ∈ rest, a.Valid) {suffix : List Char}
    {tail : List Token} {command : SimpleCommand} (htail : parse tail = some command)
    (hsuffix : ∀ letters ts, (read e (inWord letters ts) suffix).complete e = true ∧
      ((read e (inWord letters ts) suffix).endOperator.endWord false).tokens =
        ts ++ [.word letters] ++ tail) :
    simpleCommand e (first ++ shownArguments rest ++ suffix) =
      some { command with arguments := first :: rest.map Argument.value ++ command.arguments } := by
  obtain ⟨letters, ts, hread, htokens⟩ := read_arguments e (plainLetters first) [] hrest
  obtain ⟨hcomplete, hend⟩ := hsuffix letters ts
  have hline : read e {} (first ++ shownArguments rest ++ suffix) = read e (inWord letters ts) suffix := by
    rw [read_append, read_append, read_plain e [] hfirst, hread]
  have htokens : tokens e (first ++ shownArguments rest ++ suffix) =
      some (argumentTokens (.plain first :: rest) ++ tail) := by
    unfold tokens
    rw [hline, if_pos hcomplete, hend, htokens]
    rfl
  have hvalid : ∀ a ∈ Argument.plain first :: rest, a.Valid := valid_plain hfirst hrest
  unfold simpleCommand
  rw [htokens]
  exact (if_pos hname).trans (parse_arguments hvalid htail)

end

end Shell
