import RobotPath.Json.Number
import RobotPath.Json.Text

/-!
# Tokens

The text of a JSON value as brackets, separators, strings and words. A word is
as long as it can be, and is a literal or a number as a whole or nothing at all;
so `01` and `1x` are refused here and not read as two tokens.
-/

namespace RobotPath.Json

/-- A piece of the text that has no smaller parts. -/
inductive Token where
  | openArray
  | closeArray
  | openObject
  | closeObject
  | comma
  | colon
  | text (content : Option String)
  /-- A literal or a number. -/
  | scalar (value : Json)

namespace Token

/-- What may stand between tokens. -/
def isBlank (c : Char) : Bool := c = ' ' || c = '\t' || c = '\n' || c = '\r'

def ofChar? : Char → Option Token
  | '[' => some openArray
  | ']' => some closeArray
  | '\x7b' => some openObject
  | '\x7d' => some closeObject
  | ',' => some comma
  | ':' => some colon
  | _ => none

def ofWord? (word : List Char) : Option Token :=
  if word = "null".toList then some (scalar .null)
  else if word = "true".toList then some (scalar (.bool true))
  else if word = "false".toList then some (scalar (.bool false))
  else (number? word).map scalar

end Token

/-- Where in the text a reader of tokens is. -/
inductive Position where
  | between
  /-- In a word, whose characters are kept in reverse. -/
  | word (characters : List Char)
  | string (content : Content)
  /-- After a backslash. -/
  | escape (content : Content)
  /-- In the digits of a unit: how many are missing, and the unit so far. -/
  | unit (content : Content) (missing value : Nat)

/-- The tokens so far, the latest first, and the place in the text. -/
structure Scan where
  tokens : List Token
  position : Position

namespace Scan

def start : Scan := ⟨[], .between⟩

/-- Adds a token and stands behind it. -/
def emit (s : Scan) (token : Token) : Scan := ⟨token :: s.tokens, .between⟩

/-- Takes in a character that does not continue the token before it. -/
def between (s : Scan) (c : Char) : Scan :=
  if Token.isBlank c then { s with position := .between }
  else if c = '"' then { s with position := .string .empty }
  else
    match Token.ofChar? c with
    | some token => s.emit token
    | none => { s with position := .word [c] }

/-- Whether a word ends before a character. -/
def endsWord (c : Char) : Bool := Token.isBlank c || c = '"' || (Token.ofChar? c).isSome

/-- Takes in one character of the text. -/
def step (s : Scan) (c : Char) : Option Scan :=
  match s.position with
  | .between => some (s.between c)
  | .word characters =>
      if endsWord c then do
        let token ← Token.ofWord? characters.reverse
        return (s.emit token).between c
      else some { s with position := .word (c :: characters) }
  | .string content =>
      if c = '"' then some (s.emit (.text content.finish))
      else if c = '\\' then some { s with position := .escape content }
      else if c.toNat < 0x20 then none
      else some { s with position := .string (content.push c) }
  | .escape content =>
      if c = 'u' then some { s with position := .unit content 3 0 }
      else do
        let meant ← Content.escaped? c
        return { s with position := .string (content.push meant) }
  | .unit content missing value => do
      let digit ← Content.hexDigit? c
      let value := 16 * value + digit
      match missing with
      | 0 => return { s with position := .string (content.pushUnit value) }
      | missing + 1 => return { s with position := .unit content missing value }

/-- All tokens in order, when the text ends here. -/
def finish (s : Scan) : Option (List Token) :=
  match s.position with
  | .between => some s.tokens.reverse
  | .word characters => do
      let token ← Token.ofWord? characters.reverse
      return (s.emit token).tokens.reverse
  | _ => none

end Scan

/-- The tokens of a text, if all of it is made of tokens. -/
def tokens? (text : String) : Option (List Token) := do
  (← text.toList.foldlM Scan.step Scan.start).finish

end RobotPath.Json
