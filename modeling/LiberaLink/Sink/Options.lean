import LiberaLink.Lib.Lines
import LiberaLink.Runtime.Hosts

/-!
# Options of virtual controller hosts

A host is made from a map of strings.  How the hosts read numbers, switches, texts and lists from it;
a value that does not read is passed over in favour of the default.
-/

namespace LiberaLink

/-- `std::isspace` in the C locale -/
def isSpace (c : Char) : Bool := c = ' ' || (9 ≤ c.toNat && c.toNat ≤ 13)

def trim (text : String) : String := .ofList (Text.trim isSpace text.toList)

def splitCsv (text : String) : List String :=
  ((text.toList.splitOnP (fun c => c = ',')).map fun piece => trim (.ofList piece)).filter
    fun value => value ≠ ""

/-- the number that digits stand for -/
def ofDigits (digits : List Char) : Nat :=
  digits.foldl (fun n c => 10 * n + (c.toNat - '0'.toNat)) 0

/-- `std::stoull` to the base 10: the number at the front of a text, after white space and perhaps a
sign, and how many characters it takes.  A minus sign takes the number modulo `2 ^ 64`. -/
def stoull (text : List Char) : Option (Nat × Nat) :=
  let unspaced := text.dropWhile isSpace
  let negative : Bool := unspaced.head? = some '-'
  let unsigned := if negative ∨ unspaced.head? = some '+' then unspaced.tail else unspaced
  let digits := unsigned.takeWhile Char.isDigit
  let value := ofDigits digits
  if digits = [] ∨ 2 ^ 64 ≤ value then none
  else some (if negative then (2 ^ 64 - value) % 2 ^ 64 else value,
    text.length - (unsigned.length - digits.length))

def parseU32 (text : String) : Option Nat :=
  match stoull text.toList with
  | none => none
  | some (raw, parsed) => if parsed ≠ text.toList.length ∨ 2 ^ 32 ≤ raw then none else some raw

def parseBool (text : String) (fallback : Bool) : Bool :=
  let value := (trim text).toList.map Char.toLower
  if value = ['1'] ∨ value = "true".toList ∨ value = "yes".toList ∨ value = "on".toList then true
  else if value = ['0'] ∨ value = "false".toList ∨ value = "no".toList ∨ value = "off".toList then false
  else fallback

section
variable (config : VirtualControllerHostConfig) (key : String)

def optionU16 (fallback : Nat) : Nat :=
  match config.options.lookup key with
  | none => fallback
  | some text => match parseU32 text with
    | none => fallback
    | some parsed => if 2 ^ 16 ≤ parsed then fallback else parsed

def optionU32 (fallback : Nat) : Nat :=
  match config.options.lookup key with
  | none => fallback
  | some text => (parseU32 text).getD fallback

def optionString (fallback : String) : String :=
  match config.options.lookup key with
  | none => fallback
  | some text => trim text

def optionBool (fallback : Bool) : Bool :=
  match config.options.lookup key with
  | none => fallback
  | some text => parseBool text fallback

end

theorem parseU32_lt {text : String} {n : Nat} (h : parseU32 text = some n) : n < 2 ^ 32 := by
  unfold parseU32 at h
  split at h
  · cases h
  · split at h
    · cases h
    · rename_i hraw
      obtain rfl := Option.some.inj h
      omega

section
variable (config : VirtualControllerHostConfig) (key : String) {fallback : Nat}

theorem optionU16_lt (h : fallback < 2 ^ 16) : optionU16 config key fallback < 2 ^ 16 := by
  unfold optionU16
  split
  · exact h
  · split
    · exact h
    · split
      · exact h
      · omega

theorem optionU32_lt (h : fallback < 2 ^ 32) : optionU32 config key fallback < 2 ^ 32 := by
  unfold optionU32
  split
  · exact h
  · rename_i text _
    cases hparse : parseU32 text with
    | none => exact h
    | some n => exact parseU32_lt hparse

end

example : parseU32 " 42" = some 42 ∧ parseU32 "4 2" = none ∧ parseU32 "" = none := by
  decide +kernel

end LiberaLink
