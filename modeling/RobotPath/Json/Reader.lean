import RobotPath.Json.Token

/-!
# Reading JSON

Tokens become a value on a stack of the arrays and objects that are still open.
What may come next is always known from the token before and the top of the
stack, so each token is taken or refused at once.
-/

namespace RobotPath.Json

/-- An array or an object that waits for a value. What it already holds is kept
in reverse. -/
inductive Frame where
  | items (held : List Json)
  | member (held : List (Option String × Json)) (name : Option String)

/-- A value while it is being read, by what may come next. -/
inductive Assembly where
  | value (stack : List Frame)
  /-- After the opening bracket of an array. -/
  | itemOrEnd (stack : List Frame)
  /-- After the opening brace of an object. -/
  | nameOrEnd (stack : List Frame)
  | name (held : List (Option String × Json)) (stack : List Frame)
  | colon (held : List (Option String × Json)) (name : Option String) (stack : List Frame)
  | afterItem (held : List Json) (stack : List Frame)
  | afterMember (held : List (Option String × Json)) (stack : List Frame)
  | complete (value : Json)

namespace Assembly

/-- Puts a complete value where it belongs. -/
def accept (v : Json) : List Frame → Assembly
  | [] => complete v
  | .items held :: stack => afterItem (v :: held) stack
  | .member held key :: stack => afterMember ((key, v) :: held) stack

def beginValue (stack : List Frame) : Token → Option Assembly
  | .scalar v => some (accept v stack)
  | .text content => some (accept (.string content) stack)
  | .openArray => some (itemOrEnd stack)
  | .openObject => some (nameOrEnd stack)
  | _ => none

def step : Assembly → Token → Option Assembly
  | value stack, token => beginValue stack token
  | itemOrEnd stack, .closeArray => some (accept (.array []) stack)
  | itemOrEnd stack, token => beginValue (.items [] :: stack) token
  | nameOrEnd stack, .closeObject => some (accept (.object []) stack)
  | nameOrEnd stack, .text content => some (colon [] content stack)
  | name held stack, .text content => some (colon held content stack)
  | colon held key stack, .colon => some (value (.member held key :: stack))
  | afterItem held stack, .comma => some (value (.items held :: stack))
  | afterItem held stack, .closeArray => some (accept (.array held.reverse) stack)
  | afterMember held stack, .comma => some (name held stack)
  | afterMember held stack, .closeObject => some (accept (.object held.reverse) stack)
  | _, _ => none

def finish? : Assembly → Option Json
  | complete v => some v
  | _ => none

end Assembly

/-- The value that tokens spell, if they spell exactly one. -/
def ofTokens? (tokens : List Token) : Option Json := do
  (← tokens.foldlM Assembly.step (.value [])).finish?

/-- The value of a text. Nothing but blanks may surround it. -/
def read? (text : String) : Option Json := do
  ofTokens? (← tokens? text)

end RobotPath.Json
