/-!
# The contents of strings

A string is written as characters and as escapes for units of 16 bits. Two units
in the surrogate range spell one character when they come in the right order; by
themselves they spell none, and the string then has no value.
-/

namespace RobotPath.Json

/-- A string while it is being read. -/
structure Content where
  /-- The characters so far, the latest first. -/
  characters : List Char
  /-- A leading surrogate that waits for the trailing one. -/
  leading : Option Nat
  /-- Whether every surrogate found its partner. -/
  paired : Bool

namespace Content

def empty : Content := ⟨[], none, true⟩

def isLeading (unit : Nat) : Bool := 0xD800 ≤ unit && unit < 0xDC00

def isTrailing (unit : Nat) : Bool := 0xDC00 ≤ unit && unit < 0xE000

/-- Adds a character. A leading surrogate in front of it stays alone. -/
def push (content : Content) (c : Char) : Content :=
  ⟨c :: content.characters, none, content.paired && content.leading.isNone⟩

/-- The character of a pair of surrogates. -/
def joined (leading trailing : Nat) : Char :=
  Char.ofNat (0x10000 + (leading - 0xD800) * 0x400 + (trailing - 0xDC00))

def pushUnit (content : Content) (unit : Nat) : Content :=
  match content.leading with
  | some leading =>
      if isTrailing unit then
        { content with characters := joined leading unit :: content.characters, leading := none }
      else { content with leading := none, paired := false }
  | none =>
      if isLeading unit then { content with leading := some unit }
      else if isTrailing unit then { content with paired := false }
      else content.push (Char.ofNat unit)

/-- The string, if it has a value. -/
def finish (content : Content) : Option String :=
  if content.paired && content.leading.isNone then
    some (String.ofList content.characters.reverse)
  else none

/-- The character that a backslash and a letter stand for. -/
def escaped? : Char → Option Char
  | '"' => some '"'
  | '\\' => some '\\'
  | '/' => some '/'
  | 'b' => some '\x08'
  | 'f' => some '\x0c'
  | 'n' => some '\n'
  | 'r' => some '\r'
  | 't' => some '\t'
  | _ => none

/-- The value of a hexadecimal digit. -/
def hexDigit? (c : Char) : Option Nat :=
  if c.isDigit then some (c.toNat - '0'.toNat)
  else if 'a' ≤ c ∧ c ≤ 'f' then some (c.toNat - 'a'.toNat + 10)
  else if 'A' ≤ c ∧ c ≤ 'F' then some (c.toNat - 'A'.toNat + 10)
  else none

end Content

end RobotPath.Json
