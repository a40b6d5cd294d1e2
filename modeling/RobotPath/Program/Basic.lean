import RobotPath.Program.Instruction

/-!
# Programs

A program is a name and two lists, declarations and instructions. Its text is
computed from them and never stored, so the two cannot disagree.
-/

namespace RobotPath

/-- A controller program. -/
structure Program where
  name : String
  declarations : List Declaration
  instructions : List Instruction
deriving BEq, Repr, DecidableEq, Inhabited

namespace Program

/-- A program that declares its header and does nothing. -/
def named (name : String) : Program := ⟨name, [.header name], []⟩

/-- The program with one more declaration, after the others. -/
def declare (p : Program) (declaration : Declaration) : Program :=
  { p with declarations := p.declarations ++ [declaration] }

/-- The program with one more instruction, after the others. -/
def append (p : Program) (instruction : Instruction) : Program :=
  { p with instructions := p.instructions ++ [instruction] }

/-- The line that closes every program. -/
def endMarker : String := "END"

def declarationText (p : Program) : String :=
  String.join (p.declarations.map Declaration.text)

def instructionText (p : Program) : String :=
  String.join (p.instructions.map Instruction.text)

/-- The whole text: declarations, instructions and the closing line. -/
def text (p : Program) : String :=
  p.declarationText ++ p.instructionText ++ line endMarker

end Program

end RobotPath
