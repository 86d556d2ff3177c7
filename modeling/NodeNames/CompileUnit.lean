import NodeNames.Call.Failure
import NodeNames.Call.Reader
import NodeNames.Code.Verification
import NodeNames.NameCall.Basic
import NodeNames.NameCall.Checking
import NodeNames.NameCall.Emission
/-!
# Compile units

A compile unit turns calls into the methods of one class. Its variables are
visible to all later calls, and its methods share one constant pool.
-/

namespace NodeNames

/-- Reads the text of a call; a failure says where reading it got stuck. -/
def FunctionCall.ofText (source : String) : Except CompileError FunctionCall :=
  match FunctionCall.read? source.toList with
  | some call => .ok call
  | none => .error (.unreadable (failureAccount source.toList))

structure CompiledMethod where
  name : String
  function : NameFunction
  code : Code
  resultType : ValueType
  maxStack : Nat
  source : String

def CompiledMethod.render (method : CompiledMethod) : String :=
  method.name ++ ": " ++ method.code.render

/-- A class, the variables visible to its calls, and how many methods have been started. -/
structure CompileUnit where
  classDraft : ClassDraft
  symbols : SymbolTable
  /-- The variables in the order of their latest declarations. -/
  declared : List (QName × ValueType)
  methodCount : Nat

/-- An operation on a compile unit; what it has done to the unit stays when it fails. -/
abbrev UnitAction := EStateM CompileError CompileUnit

namespace CompileUnit

def new (className : String) (config : Config) : CompileUnit :=
  { classDraft := ClassDraft.new className config
    symbols := SymbolTable.empty
    declared := []
    methodCount := 0 }

/-- The class name of units for which none is given. -/
def defaultClassName : String := "Translet"

/-- Moves a variable to the end of a list of variables, with a new type. -/
def redeclare (declared : List (QName × ValueType)) (name : QName) (type : ValueType) :
    List (QName × ValueType) :=
  (declared.filter fun entry => entry.1.expandedName ≠ name.expandedName) ++ [(name, type)]

def declareVariable (name : QName) (type : ValueType) : UnitAction Unit := fun unit =>
  match unit.classDraft.config.resolve name with
  | .ok resolved =>
      .ok () { unit with
        symbols := unit.symbols.declare resolved type
        declared := redeclare unit.declared resolved type }
  | .error error => .error error unit

/-- Gives local slots to variables, in order, up to the first failure. -/
def allocateVariables : List (QName × ValueType) → MethodAction Unit
  | [] => return ()
  | (name, type) :: others => do
      let _ ← MethodDraft.addLocal name type
      allocateVariables others

/-- Starts the next method, with local slots for the variables of the unit. -/
def startMethod : UnitAction MethodDraft := fun unit =>
  let started := { unit with methodCount := unit.methodCount + 1 }
  let method := MethodDraft.new s!"call{unit.methodCount}" unit.classDraft.config
  match allocateVariables unit.declared method with
  | .ok _ allocated => .ok allocated started
  | .error error _ => .error error started

/-- Emits the code of a checked call at the end of a method. -/
def emitInto (method : MethodDraft) (call : NameCall) : UnitAction MethodDraft := fun unit =>
  match call.emit { classDraft := unit.classDraft, method } with
  | .ok _ draft => .ok draft.method { unit with classDraft := draft.classDraft }
  | .error error draft => .error error { unit with classDraft := draft.classDraft }

/-- Verifies code against the constant pool of the unit. -/
def verify (code : Code) : UnitAction StackSummary := fun unit =>
  match code.verify unit.classDraft.pool with
  | .ok summary => .ok summary unit
  | .error error => .error error unit

/-- Checks a resolved call against the variables of the unit. -/
def check (call : NameCall) : UnitAction NameCall := fun unit =>
  match call.check unit.symbols with
  | .ok checked => .ok checked unit
  | .error error => .error error unit

/-- Checks a resolved call and emits its code into a method of its own. -/
def compileCall (call : NameCall) (source : String) : UnitAction CompiledMethod := do
  let checked ← check call
  let method ← emitInto (← startMethod) checked
  let summary ← verify method.code
  return {
    name := method.name
    function := call.function
    code := method.code
    resultType := NameCall.resultType
    maxStack := summary.maxStack
    source }

def resolveCall (source : String) : UnitAction NameCall := fun unit =>
  match (FunctionCall.ofText source).bind fun call => call.resolve unit.classDraft.config with
  | .ok call => .ok call unit
  | .error error => .error error unit

/-- Reads and resolves the text of a call and compiles it. -/
def compile (source : String) : UnitAction CompiledMethod := do
  let call ← resolveCall source
  compileCall call source

def listing (unit : CompileUnit) (method : CompiledMethod) : String :=
  method.code.listing unit.classDraft.pool

end CompileUnit

/-- Compiles one call in the standard configuration, without variables. -/
def compileAlone (source : String) : Except CompileError (CompiledMethod × ClassDraft) :=
  match CompileUnit.compile source (.new CompileUnit.defaultClassName {}) with
  | .ok method unit => .ok (method, unit.classDraft)
  | .error error _ => .error error

end NodeNames
