import NodeNames.CompileError
/-!
# Method signatures

The descriptor of a method lists the types of its parameters between
parentheses and then the type of its result. `render` writes a signature as a
descriptor and `ofDescriptor?` reads one.
-/

namespace NodeNames

/-- The type of a field, a parameter or a result. -/
inductive FieldType where
  | byte
  | char
  | double
  | float
  | int
  | long
  | short
  | boolean
  | object (className : String)
  | array (element : FieldType)
deriving DecidableEq

namespace FieldType

def slots : FieldType → Nat
  | long | double => 2
  | byte | char | float | int | short | boolean | object _ | array _ => 1

/-- How many slots values of the given types take together. -/
def totalSlots : List FieldType → Nat
  | [] => 0
  | type :: others => type.slots + totalSlots others

def render : FieldType → List Char
  | byte => ['B']
  | char => ['C']
  | double => ['D']
  | float => ['F']
  | int => ['I']
  | long => ['J']
  | short => ['S']
  | boolean => ['Z']
  | object className => 'L' :: className.toList ++ [';']
  | array element => '[' :: element.render

/-- Reads a field type and returns it with the text that follows. -/
def read : List Char → Option (FieldType × List Char)
  | 'B' :: rest => some (byte, rest)
  | 'C' :: rest => some (char, rest)
  | 'D' :: rest => some (double, rest)
  | 'F' :: rest => some (float, rest)
  | 'I' :: rest => some (int, rest)
  | 'J' :: rest => some (long, rest)
  | 'S' :: rest => some (short, rest)
  | 'Z' :: rest => some (boolean, rest)
  | 'L' :: rest =>
      match Text.cutAtFirst ';' rest with
      | none => none
      | some ([], _) => none
      | some (className, final) => some (object (String.ofList className), final)
  | '[' :: rest => (read rest).map fun element => (array element.1, element.2)
  | _ => none

theorem length_lt_of_read {source rest : List Char} {type : FieldType}
    (found : read source = some (type, rest)) : rest.length < source.length := by
  fun_induction read source generalizing type <;>
    simp only [Option.some.injEq, Prod.mk.injEq, Option.map_eq_some_iff, reduceCtorEq] at found
  case case11 className final _ cut =>
    have whole := congrArg List.length (Text.cutAtFirst_eq_some_iff.1 cut).1
    rcases found with ⟨-, rfl⟩
    simp only [List.length_append, List.length_cons] at whole ⊢
    omega
  case case12 ih =>
    rcases found with ⟨element, readElement, -, rfl⟩
    exact Nat.lt_succ_of_lt (ih readElement)
  all_goals
    rcases found with ⟨-, rfl⟩
    simp

def readAll (source : List Char) : Option (List FieldType) :=
  if source = [] then some []
  else
    match found : read source with
    | none => none
    | some (type, rest) =>
        have := length_lt_of_read found
        (readAll rest).map (type :: ·)
termination_by source.length

/-- Reads the type of a result, which is absent for `V`. -/
def readResult (source : List Char) : Option (Option FieldType) :=
  if source = ['V'] then some none
  else
    match read source with
    | some (type, []) => some (some type)
    | _ => none

end FieldType

/-- The types of the parameters and of the result of a method; no result is void. -/
structure MethodSignature where
  parameters : List FieldType
  result : Option FieldType
deriving DecidableEq

namespace MethodSignature

def render (signature : MethodSignature) : List Char :=
  '(' :: (signature.parameters.flatMap FieldType.render ++
    ')' :: match signature.result with
      | some type => type.render
      | none => ['V'])

/-- Reads a descriptor. The parameters end at the first closing parenthesis. -/
def read (descriptor : List Char) : Option MethodSignature :=
  match descriptor with
  | '(' :: body =>
      match Text.cutAtFirst ')' body with
      | none => none
      | some (parameterText, resultText) =>
          match FieldType.readAll parameterText, FieldType.readResult resultText with
          | some parameters, some result => some { parameters, result }
          | _, _ => none
  | _ => none

def ofDescriptor (descriptor : String) : Except CompileError MethodSignature :=
  match read descriptor.toList with
  | some signature => .ok signature
  | none => .error (.malformedDescriptor descriptor)

def argumentSlots (signature : MethodSignature) : Nat :=
  FieldType.totalSlots signature.parameters

def resultSlots (signature : MethodSignature) : Nat :=
  match signature.result with
  | some type => type.slots
  | none => 0

end MethodSignature

end NodeNames
