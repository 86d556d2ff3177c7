import NodeNames.Code.Instruction
/-!
# Code and its listings

The code of a method is a list of instructions. It is shown on one line with
pool indices, or as a listing of one numbered instruction a line with what the
indices stand for.
-/

namespace NodeNames

/-- The instructions of a method, in order. -/
abbrev Code := List Instruction

namespace Code

def render (code : Code) : String :=
  String.intercalate "; " (code.map Instruction.render)

/-- One line of a listing: the position in four columns, and the instruction. -/
def listingLine (position : Nat) (instruction : String) : String :=
  Text.alignRight 4 (toString position) ++ ": " ++ instruction

/-- The instructions with what their pool indices stand for. -/
def renderResolved (code : Code) (pool : ConstantPool) : List String :=
  code.map fun instruction => instruction.renderResolved pool

def listingLines (instructions : List String) : List String :=
  instructions.zipIdx.map fun entry => listingLine entry.2 entry.1

def listing (code : Code) (pool : ConstantPool) : String :=
  String.intercalate "\n" (listingLines (code.renderResolved pool))

end Code

end NodeNames
