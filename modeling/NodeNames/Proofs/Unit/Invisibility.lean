import NodeNames.Proofs.Unit.Refusal
/-!
# Refusals are invisible

An operation that fails for a fault of the compiled text leaves the unit as it
was. So nothing tells a unit on which such operations have been tried from one
on which they have not: all other operations do and answer the same.
-/

namespace NodeNames

/-- What an action answers, with success or without. -/
def answerOf {Error State Answer : Type} : EStateM.Result Error State Answer → Except Error Answer
  | .ok answer _ => .ok answer
  | .error error _ => .error error

namespace UnitOperation

/-- What an operation answers; a declaration has nothing to say when it succeeds. -/
def answer (unit : CompileUnit) : UnitOperation → Except CompileError (Option CompiledMethod)
  | declare name type =>
      (answerOf (CompileUnit.declareVariable name type unit)).map fun _ => none
  | compile source => (answerOf (CompileUnit.compile source unit)).map some
  | compileCall call source => (answerOf (CompileUnit.compileCall call source unit)).map some

end UnitOperation

/-- What an operation has been asked, what it has answered and what it has left behind. -/
structure JournalEntry where
  operation : UnitOperation
  answer : Except CompileError (Option CompiledMethod)
  after : CompileUnit

/-- Whether the operation has failed for a fault of the compiled text. -/
def JournalEntry.isRefusal (entry : JournalEntry) : Bool :=
  match entry.answer with
  | .ok _ => false
  | .error error => !error.code.isInternal

def UnitOperation.entry (unit : CompileUnit) (operation : UnitOperation) : JournalEntry :=
  ⟨operation, operation.answer unit, operation.perform unit⟩

namespace CompileUnit

/-- The journal of operations that are performed one after the other. -/
def journal (unit : CompileUnit) : List UnitOperation → List JournalEntry
  | [] => []
  | operation :: others =>
      operation.entry unit :: journal (operation.perform unit) others

/-- The entries of the journal but for refusals. -/
def journalWithoutRefusals (unit : CompileUnit) (operations : List UnitOperation) :
    List JournalEntry :=
  (unit.journal operations).filter fun entry => !entry.isRefusal

/-- The operations that are not refused. -/
def withoutRefusals (unit : CompileUnit) (operations : List UnitOperation) : List UnitOperation :=
  (unit.journalWithoutRefusals operations).map (·.operation)

variable {unit later : CompileUnit} {config : Config} {declared : List (QName × ValueType)}
  {error : CompileError}

/-- When a method has been started, what fails is a failure of code generation. -/
theorem isInternal_of_finish (describes : unit.Describes config declared) {method : MethodDraft}
    (isStarted : unit.Started config declared method) {call : NameCall} {type : ValueType}
    (known : call.operandType = some type) (checked : CheckedOperand method call.operand type)
    {source : String} (fails : finish method call source unit.started = .error error later) :
    error.code.isInternal = true := by
  have refused := refusal_of_finish describes isStarted known checked source
  rw [fails] at refused
  rcases refused.2 with isFault | ⟨exhausted, _⟩
  · rcases iteratorFault?_eq config type with sound | broken
    · rw [sound] at isFault
      cases isFault
    · rw [broken] at isFault
      rw [← Option.some.inj isFault]
      rfl
  · rw [exhausted]
    rfl

theorem unchanged_of_compileCall (describes : unit.Describes config declared) {call : NameCall}
    {source : String} (fails : compileCall call source unit = .error error later)
    (refused : error.code.isInternal = false) : later = unit := by
  cases course_compileCall describes call source with
  | undeclared name untyped undeclared =>
      rw [fails] at undeclared
      cases undeclared
      rfl
  | otherType type typed notNode mistyped =>
      rw [fails] at mistyped
      cases mistyped
      rfl
  | noRoom type name typed nodeLike full overflows =>
      rw [fails] at overflows
      cases overflows
      cases refused
  | finished type slots typed nodeLike room isStarted checked finishes =>
      rw [finishes] at fails
      have isInternal := @isInternal_of_finish _ _ _ _ _ describes _ isStarted
        { call with operandType := some type } type rfl checked source fails
      rw [refused] at isInternal
      cases isInternal

theorem unchanged_of_compile (describes : unit.Describes config declared) {source : String}
    (fails : compile source unit = .error error later)
    (refused : error.code.isInternal = false) : later = unit := by
  cases resolves : resolvedCall config source with
  | error cause =>
      rw [compile_of_unresolved describes resolves] at fails
      cases fails
      rfl
  | ok call =>
      rw [compile_of_resolvedCall describes resolves] at fails
      exact unchanged_of_compileCall describes fails refused

theorem unchanged_of_declareVariable {name : QName} {type : ValueType}
    (fails : declareVariable name type unit = .error error later) : later = unit := by
  unfold declareVariable at fails
  split at fails
  · cases fails
  · cases fails
    rfl

theorem of_map_answerOf {Answer Shown : Type} {present : Answer → Shown}
    {result : EStateM.Result CompileError CompileUnit Answer}
    (answers : (answerOf result).map present = .error error) :
    result = .error error (leftBehind result) := by
  cases result with
  | ok answer state => cases answers
  | error cause state =>
      cases answers
      rfl

theorem ok_of_map_answerOf {Answer Shown : Type} {present : Answer → Shown} {shown : Shown}
    {result : EStateM.Result CompileError CompileUnit Answer}
    (answers : (answerOf result).map present = .ok shown) :
    ∃ answer, present answer = shown ∧ result = .ok answer (leftBehind result) := by
  cases result with
  | ok answer state => exact ⟨answer, Except.ok.inj answers, rfl⟩
  | error cause state => cases answers

/-- An operation that is refused leaves the unit as it was. -/
theorem perform_of_refused (describes : unit.Describes config declared)
    {operation : UnitOperation} (answers : operation.answer unit = .error error)
    (refused : error.code.isInternal = false) : operation.perform unit = unit := by
  cases operation with
  | declare name type => exact unchanged_of_declareVariable (of_map_answerOf answers)
  | compile source => exact unchanged_of_compile describes (of_map_answerOf answers) refused
  | compileCall call source =>
      exact unchanged_of_compileCall describes (of_map_answerOf answers) refused

theorem perform_after (className : String) (config : Config) (history : List UnitOperation)
    (operation : UnitOperation) :
    operation.perform (after className config history) =
      after className config (history ++ [operation]) := by
  simp [after]

theorem perform_of_isRefusal {className : String} {config : Config}
    {history : List UnitOperation} {operation : UnitOperation}
    (refused : (operation.entry (after className config history)).isRefusal = true) :
    operation.perform (after className config history) = after className config history := by
  unfold JournalEntry.isRefusal at refused
  split at refused
  · cases refused
  · rename_i error answers
    exact perform_of_refused (describes_after className config history) answers
      (by simpa using refused)

theorem journalWithoutRefusals_cons (unit : CompileUnit) (operation : UnitOperation)
    (others : List UnitOperation) :
    unit.journalWithoutRefusals (operation :: others) =
      if (operation.entry unit).isRefusal then
        (operation.perform unit).journalWithoutRefusals others
      else operation.entry unit :: (operation.perform unit).journalWithoutRefusals others := by
  unfold journalWithoutRefusals
  rw [journal, List.filter_cons]
  cases (operation.entry unit).isRefusal <;> rfl

/-- Without the operations that are refused, the others do and answer the same. -/
theorem journal_withoutRefusals (className : String) (config : Config)
    (history operations : List UnitOperation) :
    (after className config history).journal
        ((after className config history).withoutRefusals operations) =
      (after className config history).journalWithoutRefusals operations := by
  induction operations generalizing history with
  | nil => rfl
  | cons operation others ih =>
      unfold withoutRefusals at ih ⊢
      rw [journalWithoutRefusals_cons]
      split_ifs with refused
      · rw [perform_of_isRefusal refused]
        exact ih history
      · have later := ih (history ++ [operation])
        rw [← perform_after] at later
        rw [List.map_cons, journal]
        exact congrArg (operation.entry (after className config history) :: ·) later

theorem foldl_withoutRefusals (className : String) (config : Config)
    (history operations : List UnitOperation) :
    ((after className config history).withoutRefusals operations).foldl UnitOperation.perform
        (after className config history) =
      operations.foldl UnitOperation.perform (after className config history) := by
  induction operations generalizing history with
  | nil => rfl
  | cons operation others ih =>
      unfold withoutRefusals at ih ⊢
      rw [journalWithoutRefusals_cons, List.foldl_cons]
      split_ifs with refused
      · rw [perform_of_isRefusal refused]
        exact ih history
      · have later := ih (history ++ [operation])
        rw [← perform_after] at later
        rw [List.map_cons, List.foldl_cons]
        exact later

/--
Whatever has been done to a unit, an operation that fails for a fault of the compiled text leaves
all of the unit as it was. So the operations that fail in this way can be left out of a sequence of
operations: all others answer the same and leave the same behind.
-/
theorem refusals_invisible (className : String) (config : Config)
    (history : List UnitOperation) :
    (∀ operation error,
      UnitOperation.answer (after className config history) operation = .error error →
      error.code.isInternal = false →
      operation.perform (after className config history) = after className config history) ∧
    ∀ operations,
      (after className config history).journal
          ((after className config history).withoutRefusals operations) =
        (after className config history).journalWithoutRefusals operations ∧
      ((after className config history).withoutRefusals operations).foldl UnitOperation.perform
          (after className config history) =
        operations.foldl UnitOperation.perform (after className config history) := by
  constructor
  · intro operation error answers refused
    exact perform_of_refused (describes_after className config history) answers refused
  · intro operations
    exact ⟨journal_withoutRefusals className config history operations,
      foldl_withoutRefusals className config history operations⟩

/-- A call with a variable that is not declared leaves no trace. -/
theorem refusals_invisible_undeclared :
    UnitOperation.perform (after "A" {} []) (.compile "name($m)") = after "A" {} [] := by
  have describes := describes_after "A" {} []
  have resolved : resolvedCall {} "name($m)" =
      .ok (.onOperand .name (.ofLocalPart "name") (.variableReference (.ofLocalPart "m"))) := by
    decide +kernel
  have compiled := compile_of_resolvedCall describes resolved
  rcases @check_of_undeclared _ _ _ describes (.onOperand .name (.ofLocalPart "name")
    (.variableReference (.ofLocalPart "m"))) rfl with ⟨name, undeclared⟩
  rw [compileCall, bind_of_eq_error undeclared] at compiled
  have answers : UnitOperation.answer (after "A" {} []) (.compile "name($m)") =
      .error (.undeclaredVariable name) := by
    rw [UnitOperation.answer, compiled]
    rfl
  exact (refusals_invisible "A" {} []).1 _ _ answers rfl

end CompileUnit

end NodeNames
