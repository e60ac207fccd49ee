import LiberaLink.EtherDream.Aliases
import LiberaLink.Lib.Scan
import LiberaLink.Lib.Shell

/-!
# The commands that change addresses

On macOS an alias is added and removed with `ifconfig`, run by the shell; if that fails, once more through
AppleScript, which asks for the rights of an administrator and runs the command in a shell of its own.

* `shellQuote`, `appleScriptQuote`   the two quotings;
* `addAlias`, `removeAlias`          the lines that are run;
* `readLiteral`, `readScript`        how AppleScript reads a string and a call of `do shell script`;
* `Runs`, `Prompts`                  what a line comes down to;
* `commands_reach_shell`             **every argument comes through both ways**.
-/

namespace LiberaLink.EtherDream
open Text Shell

/-! ## quoting -/

def shellQuote (text : String) : String :=
  text.toList.foldl (fun quoted ch => if ch = '\'' then quoted ++ "'\\''" else quoted.push ch) "'" ++ "'"

def appleScriptQuote (text : String) : String :=
  (text.toList.foldl (fun quoted ch =>
    (if ch = '\\' ∨ ch = '"' then quoted.push '\\' else quoted).push ch) "\"").push '"'

/-- a loop that puts something behind a text for each character -/
theorem toList_foldl {f : String → Char → String} (piece : Char → List Char)
    (h : ∀ quoted ch, (f quoted ch).toList = quoted.toList ++ piece ch) (text : List Char)
    (quoted : String) :
    (text.foldl f quoted).toList = quoted.toList ++ text.flatMap piece := by
  induction text generalizing quoted with
  | nil => exact (List.append_nil _).symm
  | cons ch text ih => rw [List.foldl_cons, ih, h, List.append_assoc, List.flatMap_cons]

theorem toList_shellQuote (text : String) : (shellQuote text).toList = singleQuote text.toList := by
  unfold shellQuote
  rw [String.toList_append, toList_foldl fun ch => if ch = '\'' then ['\'', '\\', '\'', '\''] else [ch]]
  · rfl
  · intro quoted ch
    show (if ch = '\'' then _ else _ : String).toList = _ ++ if ch = '\'' then _ else _
    split
    · exact String.toList_append
    · exact String.toList_push ch

theorem toList_appleScriptQuote (text : String) :
    (appleScriptQuote text).toList = quote '"' '\\' text.toList := by
  unfold appleScriptQuote
  rw [String.toList_push, toList_foldl fun ch => if ch = '"' ∨ ch = '\\' then ['\\', ch] else [ch]]
  · rfl
  · intro quoted ch
    by_cases hch : ch = '\\' ∨ ch = '"'
    · rw [String.toList_push, if_pos hch, if_pos hch.symm, String.toList_push, List.append_assoc]
      rfl
    · rw [String.toList_push, if_neg hch, if_neg fun h => hch h.symm]

/-! ## the lines that are run -/

/-- what `system` is given: a string of C ends at its first NUL -/
def cString (text : String) : List Char := text.toList.takeWhile fun c => c ≠ Char.ofNat 0

/-- a command whose output is thrown away -/
def silent (command : String) : String := command ++ " >/dev/null 2>&1"

def privilegedCommand (command : String) : String :=
  "/usr/bin/osascript -e " ++
    shellQuote ("do shell script " ++ appleScriptQuote command ++ " with administrator privileges")

def addCommand (record : AliasRecord) : String :=
  "/sbin/ifconfig " ++ shellQuote record.interfaceName ++ " alias " ++ shellQuote record.address ++ " " ++
    shellQuote record.netmask

def removeCommand (record : AliasRecord) : String :=
  "/sbin/ifconfig " ++ shellQuote record.interfaceName ++ " -alias " ++ shellQuote record.address

section
variable (systemCommandSucceeded : List Char → Bool) (options : HostOptions) (record : AliasRecord)

/-- if the alias was added, and the lines that were run -/
def addAlias : Bool × List String :=
  let command := addCommand record
  if systemCommandSucceeded (cString (silent command)) then (true, [silent command])
  else if !options.allowPrivilegePrompt then (false, [silent command])
  else
    let privileged := privilegedCommand command
    (systemCommandSucceeded (cString (silent privileged)), [silent command, silent privileged])

/-- the lines that were run; nobody asks if they succeeded -/
def removeAlias : List String :=
  let command := removeCommand record
  if systemCommandSucceeded (cString (silent command)) then [silent command]
  else if options.allowPrivilegePrompt then [silent command, silent (privilegedCommand command)]
  else [silent command]

end

/-! ## AppleScript -/

/-- what a backslash and the character behind it stand for; there are no others -/
def unescape (c : Char) : Option Char :=
  if c = '"' then some '"' else if c = '\\' then some '\\' else if c = 'n' then some '\n'
  else if c = 'r' then some '\r' else if c = 't' then some '\t' else none

/-- a string behind the quote that opens it, and what follows the one that closes it -/
def readLiteralRest : List Char → Option (List Char × List Char)
  | [] => none
  | '"' :: rest => some ([], rest)
  | '\\' :: c :: rest =>
    (unescape c).bind fun c => (readLiteralRest rest).map fun behind => (c :: behind.1, behind.2)
  | c :: rest => (readLiteralRest rest).map fun behind => (c :: behind.1, behind.2)

def readLiteral : List Char → Option (List Char × List Char)
  | '"' :: rest => readLiteralRest rest
  | _ => none

/-- the command that a script has run with the rights of an administrator -/
def readScript (script : List Char) : Option (List Char) :=
  if "do shell script ".toList.isPrefixOf script then
    match readLiteral (script.drop "do shell script ".toList.length) with
    | some (command, rest) =>
      if rest = " with administrator privileges".toList then some command else none
    | none => none
  else none

theorem readLiteralRest_plain {c : Char} (hquote : c ≠ '"') (hescape : c ≠ '\\') (rest : List Char) :
    readLiteralRest (c :: rest) =
      (readLiteralRest rest).map fun behind => (c :: behind.1, behind.2) := by
  rw [readLiteralRest]
  · exact hquote
  · exact fun _ _ h => absurd h hescape

theorem readLiteralRest_escaped (text rest : List Char) :
    readLiteralRest (escaped '"' '\\' text ++ '"' :: rest) = some (text, rest) := by
  induction text with
  | nil => rfl
  | cons c text ih =>
    have hcons : escaped '"' '\\' (c :: text) ++ '"' :: rest =
        (if c = '"' ∨ c = '\\' then ['\\', c] else [c]) ++ (escaped '"' '\\' text ++ '"' :: rest) := by
      unfold escaped
      rw [List.flatMap_cons, List.append_assoc]
    rw [hcons]
    split
    · rename_i hescaped
      have hc : unescape c = some c := by
        rcases hescaped with rfl | rfl
        · rfl
        · rfl
      rw [List.cons_append, List.cons_append, List.nil_append, readLiteralRest, hc, ih]
      rfl
    · rename_i hplain
      obtain ⟨hquote, hescape⟩ := not_or.mp hplain
      rw [List.cons_append, List.nil_append, readLiteralRest_plain hquote hescape, ih]
      rfl

/-- **A string that was quoted** is read back, whatever comes behind it. -/
theorem readLiteral_appleScriptQuote (text : String) (rest : List Char) :
    readLiteral ((appleScriptQuote text).toList ++ rest) = some (text.toList, rest) := by
  rw [toList_appleScriptQuote]
  show readLiteralRest (escaped '"' '\\' text.toList ++ ['"'] ++ rest) = _
  rw [List.append_assoc]
  exact readLiteralRest_escaped text.toList rest

/-- the script of a privileged command -/
theorem readScript_appleScriptQuote (command : String) :
    readScript ("do shell script " ++ appleScriptQuote command ++ " with administrator privileges").toList =
      some command.toList := by
  rw [String.toList_append, String.toList_append, List.append_assoc]
  have hfront : "do shell script ".toList.isPrefixOf ("do shell script ".toList ++
      ((appleScriptQuote command).toList ++ " with administrator privileges".toList)) = true :=
    List.isPrefixOf_iff_prefix.mpr (List.prefix_append _ _)
  unfold readScript
  rw [if_pos hfront, List.drop_left, readLiteral_appleScriptQuote]
  exact if_pos rfl

/-! ## what a line comes down to -/

def NulFree (text : String) : Prop := ∀ c ∈ text.toList, c ≠ Char.ofNat 0

instance (text : String) : Decidable (NulFree text) :=
  List.decidableBAll (fun c => c ≠ Char.ofNat 0) text.toList

structure AliasRecord.NulFree (record : AliasRecord) : Prop where
  interfaceName : EtherDream.NulFree record.interfaceName
  address : EtherDream.NulFree record.address
  netmask : EtherDream.NulFree record.netmask

/-- where the output of a silent command goes -/
def thrownAway : List Redirection :=
  [⟨none, ['>'], "/dev/null".toList⟩, ⟨some ['2'], ['>', '&'], ['1']⟩]

section
variable {σ : Type} (e : Expansions σ)

/-- The shell runs a command with these arguments, and throws its output away. -/
def Runs (line : String) (arguments : List String) : Prop :=
  simpleCommand e (cString line) = some ⟨arguments.map String.toList, thrownAway⟩

/-- The shell runs AppleScript, which has a shell of its own run a command with these arguments. -/
def Prompts (line : String) (arguments : List String) : Prop :=
  ∃ script command, Runs e line ["/usr/bin/osascript", "-e", script] ∧
    readScript script.toList = some command ∧
    simpleCommand e command = some ⟨arguments.map String.toList, []⟩

end

theorem NulFree.append {first second : String} (hfirst : NulFree first) (hsecond : NulFree second) :
    NulFree (first ++ second) := by
  intro c hc
  rw [String.toList_append] at hc
  exact (List.mem_append.mp hc).elim (hfirst c) (hsecond c)

theorem NulFree.shellQuote {text : String} (h : NulFree text) : NulFree (shellQuote text) := by
  rintro c hc rfl
  rw [toList_shellQuote] at hc
  exact h _ (mem_of_mem_singleQuote hc (by decide) (by decide)) rfl

theorem NulFree.appleScriptQuote {text : String} (h : NulFree text) :
    NulFree (appleScriptQuote text) := by
  rintro c hc rfl
  rw [toList_appleScriptQuote] at hc
  exact h _ (mem_of_mem_quote hc (by decide) (by decide)) rfl

theorem cString_eq {text : String} (h : NulFree text) : cString text = text.toList :=
  List.takeWhile_eq_self_iff.mpr fun c hc => decide_eq_true (h c hc)

/-- The command is a name and the arguments behind it, as a shell reads them. -/
structure Spells (command first : String) (rest : List Argument) : Prop where
  toList_eq : command.toList = first.toList ++ shownArguments rest
  plain : IsPlain first.toList
  name : isName (plainLetters first.toList) = true
  valid : ∀ a ∈ rest, a.Valid
  nulFree : NulFree command

namespace Spells
variable {σ : Type} (e : Expansions σ) {command first : String} {rest : List Argument}

/-- a command that a shell reads by itself -/
theorem alone (h : Spells command first rest) :
    simpleCommand e command.toList = some ⟨first.toList :: rest.map Argument.value, []⟩ := by
  have hread : simpleCommand e (first.toList ++ shownArguments rest ++ []) =
      some ⟨first.toList :: rest.map Argument.value ++ [], []⟩ :=
    simpleCommand_arguments e h.plain h.name h.valid (rfl : parse [] = some {})
      fun letters ts => ⟨rfl, (List.append_nil _).symm⟩
  rw [List.append_nil, List.append_nil, ← h.toList_eq] at hread
  exact hread

/-- the tokens that throw the output of a command away -/
def silence : List Token :=
  [.operator ['>'], .word (plainLetters "/dev/null".toList), .ioNumber ['2'], .operator ['>', '&'],
    .word (plainLetters ['1'])]

theorem read_silence (letters : List Letter) (ts : List Token) :
    Lexer.read e (Lexer.inWord letters ts) " >/dev/null 2>&1".toList =
      Lexer.inWord (plainLetters ['1']) (ts ++ [.word letters] ++ silence.dropLast) := by
  have hline : " >/dev/null 2>&1".toList =
      ' ' :: '>' :: ("/dev/null".toList ++ ' ' :: '2' :: '>' :: '&' :: ['1']) := by decide +kernel
  have hnull : IsPlain "/dev/null".toList := by decide +kernel
  have hslash : ['>'] ++ "/dev/null".toList.take 1 ∉ operators := by decide +kernel
  have hgreater : ∀ ts', Lexer.step e { tokens := ts' } '>' = ⟨.plain, none, ['>'], ts'⟩ := fun _ => rfl
  have hand : ∀ ts', Lexer.step e ⟨.plain, none, ['>'], ts'⟩ '&' = ⟨.plain, none, ['>', '&'], ts'⟩ :=
    fun _ => rfl
  have htwo : ∀ ts', Lexer.step e { tokens := ts' } '2' = Lexer.inWord [('2', false)] ts' := fun _ => rfl
  rw [hline, read_cons, step_blank e letters ts rfl, read_cons, hgreater, read_append,
    read_target e _ hnull (by decide) hslash, read_cons, step_blank e _ _ rfl, read_cons, htwo, read_cons,
    step_redirect, read_cons, hand, read_target e _ (by decide) (by decide) (by decide)]
  simp only [List.append_assoc]
  rfl

/-- a command whose output is thrown away -/
theorem silent (h : Spells command first rest) :
    simpleCommand e (cString (EtherDream.silent command)) =
      some ⟨first.toList :: rest.map Argument.value, thrownAway⟩ := by
  have hnulFree : NulFree (EtherDream.silent command) := h.nulFree.append (by decide +kernel)
  have hparse : parse silence = some ⟨[], thrownAway⟩ := by decide +kernel
  have hread : simpleCommand e (first.toList ++ shownArguments rest ++ " >/dev/null 2>&1".toList) =
      some ⟨first.toList :: rest.map Argument.value ++ [], thrownAway⟩ :=
    simpleCommand_arguments e h.plain h.name h.valid hparse fun letters ts => by
      rw [read_silence]
      refine ⟨rfl, ?_⟩
      show ts ++ [.word letters] ++ silence.dropLast ++ [.word (plainLetters ['1'])] = _
      rw [List.append_assoc]
      rfl
  rw [List.append_nil, ← h.toList_eq, ← String.toList_append] at hread
  rw [cString_eq hnulFree]
  exact hread

/-- a command that is run with the rights of an administrator -/
theorem privileged (h : NulFree command) :
    Spells (privilegedCommand command) "/usr/bin/osascript" [.plain ['-', 'e'],
      .quoted ("do shell script " ++ appleScriptQuote command ++ " with administrator privileges").toList] where
  toList_eq := by
    have hname : "/usr/bin/osascript -e ".toList =
        "/usr/bin/osascript".toList ++ ' ' :: ['-', 'e', ' '] := by decide +kernel
    unfold privilegedCommand
    rw [String.toList_append, toList_shellQuote, hname, List.append_assoc]
    show _ = _ ++ (' ' :: ['-', 'e', ' '] ++ (singleQuote _ ++ []))
    rw [List.append_nil]
  plain := by decide +kernel
  name := by decide +kernel
  valid := valid_plain (by decide) (valid_quoted _ valid_nil)
  nulFree := NulFree.append (by decide +kernel)
    (((NulFree.append (by decide +kernel) h.appleScriptQuote).append (by decide +kernel)).shellQuote)

theorem runs {arguments : List String} (h : Spells command first rest)
    (harguments : arguments.map String.toList = first.toList :: rest.map Argument.value) :
    Runs e (EtherDream.silent command) arguments := by
  unfold Runs
  rw [harguments]
  exact h.silent e

theorem prompts {arguments : List String} (h : Spells command first rest)
    (harguments : arguments.map String.toList = first.toList :: rest.map Argument.value) :
    Prompts e (EtherDream.silent (privilegedCommand command)) arguments := by
  refine ⟨_, _, (privileged h.nulFree).runs e rfl, readScript_appleScriptQuote command, ?_⟩
  rw [harguments]
  exact h.alone e

end Spells

/-! ## aliases -/

section
variable {record : AliasRecord}

theorem spells_addCommand (h : record.NulFree) : Spells (addCommand record) "/sbin/ifconfig"
    [.quoted record.interfaceName.toList, .plain "alias".toList, .quoted record.address.toList,
      .quoted record.netmask.toList] where
  toList_eq := by
    have hname : "/sbin/ifconfig ".toList = "/sbin/ifconfig".toList ++ [' '] := by decide +kernel
    have halias : " alias ".toList = ' ' :: ("alias".toList ++ [' ']) := by decide +kernel
    unfold addCommand
    simp only [String.toList_append, toList_shellQuote, hname, halias, shownArguments_cons,
      shownArguments_nil, Argument.shown, List.append_assoc, List.cons_append, List.append_nil]
    rfl
  plain := by decide +kernel
  name := by decide +kernel
  valid := valid_quoted _ (valid_plain (by decide +kernel) (valid_quoted _ (valid_quoted _ valid_nil)))
  nulFree :=
    ((((NulFree.append (by decide +kernel) h.interfaceName.shellQuote).append (by decide +kernel)).append
      h.address.shellQuote).append (by decide +kernel)).append h.netmask.shellQuote

theorem spells_removeCommand (h : record.NulFree) : Spells (removeCommand record) "/sbin/ifconfig"
    [.quoted record.interfaceName.toList, .plain "-alias".toList, .quoted record.address.toList] where
  toList_eq := by
    have hname : "/sbin/ifconfig ".toList = "/sbin/ifconfig".toList ++ [' '] := by decide +kernel
    have halias : " -alias ".toList = ' ' :: ("-alias".toList ++ [' ']) := by decide +kernel
    unfold removeCommand
    simp only [String.toList_append, toList_shellQuote, hname, halias, shownArguments_cons,
      shownArguments_nil, Argument.shown, List.append_assoc, List.cons_append, List.append_nil]
    rfl
  plain := by decide +kernel
  name := by decide +kernel
  valid := valid_quoted _ (valid_plain (by decide +kernel) (valid_quoted _ valid_nil))
  nulFree :=
    ((NulFree.append (by decide +kernel) h.interfaceName.shellQuote).append (by decide +kernel)).append
      h.address.shellQuote

end

def addArguments (record : AliasRecord) : List String :=
  ["/sbin/ifconfig", record.interfaceName, "alias", record.address, record.netmask]

def removeArguments (record : AliasRecord) : List String :=
  ["/sbin/ifconfig", record.interfaceName, "-alias", record.address]

section
variable (systemCommandSucceeded : List Char → Bool) (options : HostOptions) (record : AliasRecord)

theorem addAlias_lines {line : String} (h : line ∈ (addAlias systemCommandSucceeded options record).2) :
    line = silent (addCommand record) ∨ line = silent (privilegedCommand (addCommand record)) := by
  unfold addAlias at h
  simp only at h
  split at h
  · exact .inl (List.mem_singleton.mp h)
  split at h
  · exact .inl (List.mem_singleton.mp h)
  · exact (List.mem_cons.mp h).imp_right List.mem_singleton.mp

theorem removeAlias_lines {line : String} (h : line ∈ removeAlias systemCommandSucceeded options record) :
    line = silent (removeCommand record) ∨ line = silent (privilegedCommand (removeCommand record)) := by
  unfold removeAlias at h
  simp only at h
  split at h
  · exact .inl (List.mem_singleton.mp h)
  split at h
  · exact (List.mem_cons.mp h).imp_right List.mem_singleton.mp
  · exact .inl (List.mem_singleton.mp h)

end

/-- **What is quoted comes through**: the shell reads a quoted text between blanks as one word and goes on
without quotes, AppleScript reads a quoted text as it was, and every line that adds or removes an alias is
the command with exactly its arguments, through AppleScript as well. -/
theorem commands_reach_shell {σ : Type} (e : Expansions σ) (text : String) {before : List Char}
    {b b' : Char} (hb : (Lexer.read e {} before).Delimits e b) (hb' : isBlank b' = true)
    (after rest : List Char) (systemCommandSucceeded : List Char → Bool) (options : HostOptions)
    {record : AliasRecord} (hrecord : record.NulFree) :
    (Lexer.read e {} (before ++ b :: ((shellQuote text).toList ++ b' :: after)) =
        Lexer.read e { tokens := (Lexer.read e {} (before ++ [b])).tokens ++
          [.word (quotedLetters text.toList)] } after ∧
      literal (quotedLetters text.toList) = some text.toList) ∧
    readLiteral ((appleScriptQuote text).toList ++ rest) = some (text.toList, rest) ∧
    Prompts e (silent (privilegedCommand (addCommand record))) (addArguments record) ∧
    Prompts e (silent (privilegedCommand (removeCommand record))) (removeArguments record) ∧
    (∀ line ∈ (addAlias systemCommandSucceeded options record).2,
      Runs e line (addArguments record) ∨ Prompts e line (addArguments record)) ∧
    ∀ line ∈ removeAlias systemCommandSucceeded options record,
      Runs e line (removeArguments record) ∨ Prompts e line (removeArguments record) := by
  have hadd := spells_addCommand hrecord
  have hremove := spells_removeCommand hrecord
  refine ⟨⟨?_, literal_quoted _⟩, readLiteral_appleScriptQuote text rest, hadd.prompts e rfl,
    hremove.prompts e rfl, fun line hline => ?_, fun line hline => ?_⟩
  · rw [read_append, read_cons, toList_shellQuote, read_quoted_word e hb.between _ hb', read_append]
    rfl
  · rcases addAlias_lines systemCommandSucceeded options record hline with rfl | rfl
    · exact .inl (hadd.runs e rfl)
    · exact .inr (hadd.prompts e rfl)
  · rcases removeAlias_lines systemCommandSucceeded options record hline with rfl | rfl
    · exact .inl (hremove.runs e rfl)
    · exact .inr (hremove.prompts e rfl)

/-- expansions of names: a dollar sign with letters, digits and underscores behind it -/
def nameExpansions : Expansions Unit where
  start _ := ()
  step _ c := if c.isAlphanum || c = '_' then .more () else .outside
  complete _ := true

/-- Quotes and backslashes next to each other, behind an expansion. -/
theorem commands_reach_shell_quotes :
    let record : AliasRecord := { interfaceName := "en'0\\", address := "'10.\"", netmask := "\\'\\\"'" }
    Lexer.read nameExpansions {}
          (['a', ' ', '$', 'B'] ++ ' ' :: ((shellQuote "it's").toList ++ '\t' :: [])) =
        { tokens := [.word (plainLetters ['a']), .word (plainLetters ['$', 'B']),
          .word (quotedLetters "it's".toList)] } ∧
      Prompts nameExpansions (silent (privilegedCommand (addCommand record))) (addArguments record) := by
  intro record
  have hb : (Lexer.read nameExpansions {} ['a', ' ', '$', 'B']).Delimits nameExpansions ' ' :=
    ⟨rfl, .inr ⟨(), by decide +kernel, rfl⟩⟩
  have hrecord : record.NulFree := ⟨by decide +kernel, by decide +kernel, by decide +kernel⟩
  have htokens : (Lexer.read nameExpansions {} (['a', ' ', '$', 'B'] ++ [' '])).tokens =
      [.word (plainLetters ['a']), .word (plainLetters ['$', 'B'])] := by decide +kernel
  obtain ⟨⟨hread, -⟩, -, hprompts, -⟩ := commands_reach_shell nameExpansions "it's" hb
    (rfl : isBlank '\t' = true) [] [] (fun _ => false) (makeHostOptions ⟨7765, 7654⟩ ⟨15000, ∅⟩) hrecord
  rw [htokens] at hread
  exact ⟨hread, hprompts⟩

end LiberaLink.EtherDream
