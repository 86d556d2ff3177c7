import NodeNames.NameCall.Emission
import NodeNames.Proofs.Emission.Step
import NodeNames.Proofs.Pool.Extension
/-!
# Emission only extends

Emission appends instructions, adds constants and registers names, and it does
nothing else to the drafts, wherever it fails. This is so for any drafts: every
single action leads from a draft only to one that extends it, and extension is
transitive.
-/

namespace NodeNames

/--
A later draft, which differs from an earlier one only by further code, further constants and
further names of nodes.
-/
structure Draft.Extends (later earlier : Draft) : Prop where
  code : earlier.method.code <+: later.method.code
  pool : later.classDraft.pool.Extends earlier.classDraft.pool
  nodeTypes : later.classDraft.nodeTypes.Extends earlier.classDraft.nodeTypes
  name : later.classDraft.name = earlier.classDraft.name
  config : later.classDraft.config = earlier.classDraft.config
  frame : later.method.frame = earlier.method.frame

namespace Draft

instance : Std.Refl Extends where
  refl _ := ⟨List.prefix_rfl, Std.Refl.refl _, .refl _, rfl, rfl, rfl⟩

instance : IsTrans Draft Extends where
  trans _ _ _ later earlier :=
    { code := earlier.code.trans later.code
      pool := IsTrans.trans _ _ _ later.pool earlier.pool
      nodeTypes := later.nodeTypes.trans earlier.nodeTypes
      name := later.name.trans earlier.name
      config := later.config.trans earlier.config
      frame := later.frame.trans earlier.frame }

end Draft

namespace Emission

theorem leadsOn_config : LeadsOn Draft.Extends config :=
  .bind .get fun _ => .pure _

theorem leadsOn_loadDocument : LeadsOn Draft.Extends loadDocument :=
  .bind .get fun _ => .pure _

theorem leadsOn_loadContextNode : LeadsOn Draft.Extends loadContextNode :=
  .bind .get fun _ => .pure _

/-- What an action does to the pool only extends the draft if it only extends the pool. -/
theorem leadsOn_onPool {Answer : Type} {action : PoolAction Answer}
    (leads : LeadsOn ConstantPool.Extends action) : LeadsOn Draft.Extends (onPool action) := by
  intro draft
  have poolLeads := leads draft.classDraft.pool
  cases result : action draft.classDraft.pool with
  | ok answer pool =>
      rw [onPool_of_eq_ok result]
      rw [result] at poolLeads
      exact ⟨List.prefix_rfl, poolLeads, .refl _, rfl, rfl, rfl⟩
  | error error pool =>
      rw [onPool_of_eq_error result]
      rw [result] at poolLeads
      exact ⟨List.prefix_rfl, poolLeads, .refl _, rfl, rfl, rfl⟩

theorem leadsOn_append (instruction : Instruction) : LeadsOn Draft.Extends (append instruction) :=
  fun _ => ⟨List.prefix_append _ _, Std.Refl.refl _, .refl _, rfl, rfl, rfl⟩

theorem leadsOn_registerName (axis : Axis) (name : QName) :
    LeadsOn Draft.Extends (registerName axis name) := by
  intro draft
  have registers (types : NodeTypes) :
      (if axis = .attributeAxis then types.registerAttribute name
        else types.registerElement name).2.Extends types := by
    split_ifs
    · exact Interner.extends_intern types _
    · exact Interner.extends_intern types _
  exact ⟨List.prefix_rfl, Std.Refl.refl _, registers _, rfl, rfl, rfl⟩

end Emission

namespace RuntimeOperation

theorem leadsOn_intern (operation : RuntimeOperation) : LeadsOn Draft.Extends operation.intern :=
  .bind Emission.leadsOn_config fun _ =>
    Emission.leadsOn_onPool (ConstantPool.leadsOn_addMethodReference _)

theorem leadsOn_emit (operation : RuntimeOperation) : LeadsOn Draft.Extends operation.emit :=
  have indexed : LeadsOn Draft.Extends operation.emitIndexed :=
    .bind operation.leadsOn_intern fun _ => .bind (Emission.leadsOn_append _) fun _ => .pure _
  .bind indexed fun _ => .pure _

end RuntimeOperation

open Emission

theorem Step.leadsOn_nodeType? (step : Step) : LeadsOn Draft.Extends step.nodeType? := by
  rw [nodeType?]
  cases step.test with
  | anyNode | kind kind | wildcard => exact .pure _
  | name name => exact .bind (leadsOn_registerName _ name) fun _ => .pure _

namespace Emission

theorem leadsOn_push (value : Int) : LeadsOn Draft.Extends (push value) :=
  .bind (leadsOn_onPool (Instruction.leadsOn_push value)) leadsOn_append

theorem leadsOn_pushVariable (name : QName) : LeadsOn Draft.Extends (pushVariable name) := by
  refine .bind .get fun draft => ?_
  cases draft.method.local? name with
  | none => exact .throw _
  | some declared =>
      dsimp only
      cases declared.type with
      | nodeSet => exact .bind (leadsOn_append _) fun _ => RuntimeOperation.leadsOn_emit _
      | _ => exact leadsOn_append _

theorem leadsOn_pushStep (step : Step) : LeadsOn Draft.Extends (pushStep step) := by
  refine .bind step.leadsOn_nodeType? fun nodeType? => ?_
  refine .bind leadsOn_loadDocument fun document => ?_
  refine .bind (leadsOn_append document) fun _ => ?_
  refine .bind (leadsOn_push step.axis.id) fun _ => ?_
  cases nodeType? with
  | none => exact RuntimeOperation.leadsOn_emit _
  | some type => exact .bind (leadsOn_push type) fun _ => RuntimeOperation.leadsOn_emit _

end Emission

namespace Expression

theorem leadsOn_emit (expression : Expression) : LeadsOn Draft.Extends expression.emit := by
  cases expression with
  | contextNode => exact .bind leadsOn_loadContextNode leadsOn_append
  | variableReference name => exact leadsOn_pushVariable name
  | step selected => exact leadsOn_pushStep selected
  | literal value =>
      exact .bind (leadsOn_onPool (ConstantPool.leadsOn_addString value)) fun _ =>
        leadsOn_append _

theorem leadsOn_startIterator (expression : Expression) (type : ValueType) :
    LeadsOn Draft.Extends (expression.startIterator type) := by
  have starts : LeadsOn Draft.Extends (do
      append (← loadContextNode)
      RuntimeOperation.setStartNode.emit) :=
    .bind leadsOn_loadContextNode fun _ =>
      .bind (leadsOn_append _) fun _ => RuntimeOperation.leadsOn_emit _
  rw [startIterator.eq_def]
  split
  · exact .pure _
  · exact starts
  · exact .pure _

end Expression

theorem Emission.leadsOn_pushOperand (operand : Option Expression) (type : ValueType) :
    LeadsOn Draft.Extends (pushOperand operand type) := by
  refine .bind leadsOn_loadDocument fun document => .bind (leadsOn_append document) fun _ => ?_
  cases operand with
  | none => exact .bind leadsOn_loadContextNode leadsOn_append
  | some expression =>
      refine .bind expression.leadsOn_emit fun _ => ?_
      cases type with
      | node => exact .pure _
      | reference =>
          exact .bind (RuntimeOperation.leadsOn_emit _) fun _ => RuntimeOperation.leadsOn_emit _
      | _ =>
          exact .bind (expression.leadsOn_startIterator _) fun _ =>
            RuntimeOperation.leadsOn_emit _

theorem NameCall.leadsOn_emit (call : NameCall) : LeadsOn Draft.Extends call.emit := by
  rw [emit]
  cases call.operandType with
  | none => exact .throw _
  | some type =>
      refine .bind (.mapM (fun operation => ?_) _) fun invocations => ?_
      · exact .bind operation.leadsOn_intern fun _ => .pure _
      · exact .bind (leadsOn_pushOperand call.operand type) fun _ =>
          .forM leadsOn_append invocations

/--
What is left behind by the emission of an expression or of a call, or by the start of an iterator,
on any drafts and whether it fails or not: the drafts, with further code, constants and names and
otherwise as they were. A call whose operand has not been checked fails and changes nothing.
-/
theorem Draft.extends_of_emission (draft : Draft) :
    (∀ expression : Expression, (leftBehind (expression.emit draft)).Extends draft) ∧
      (∀ (expression : Expression) (type : ValueType),
        (leftBehind (expression.startIterator type draft)).Extends draft) ∧
      ∀ call : NameCall, (leftBehind (call.emit draft)).Extends draft ∧
        (call.operandType = none →
          ∃ error, call.emit draft = .error error draft ∧ error.code = .uncheckedCall) := by
  refine ⟨fun expression => expression.leadsOn_emit draft,
    fun expression type => expression.leadsOn_startIterator type draft,
    fun call => ⟨call.leadsOn_emit draft, ?_⟩⟩
  intro unchecked
  rw [NameCall.emit, unchecked]
  exact ⟨_, rfl, rfl⟩

/-- A step that finds no room for its operation leaves code and two constants behind. -/
theorem Draft.extends_of_emission_exhausted :
    let config : Config := { maxPoolEntries := 2, domInterface := "x/DOM" }
    let draft : Draft := ⟨ClassDraft.new "A" config, MethodDraft.new "m" config⟩
    let children : Expression := .step ⟨.child, .anyNode⟩
    let call := NameCall.onOperand .name (.ofLocalPart "name") children
    let later := leftBehind (children.emit draft)
    later.method.code = [.aload 1, .iconst 3] ∧
      later.classDraft.pool.entries.items.toList = [.utf8 "x/DOM", .classEntry 1] ∧
      later.Extends draft ∧
      ∃ error, call.emit draft = .error error draft ∧ error.code = .uncheckedCall := by
  intro config draft children call later
  have emission := draft.extends_of_emission
  have left : later.method.code = [.aload 1, .iconst 3] ∧
      later.classDraft.pool.entries.items.toList = [.utf8 "x/DOM", .classEntry 1] := by
    decide +kernel
  exact ⟨left.1, left.2, emission.1 children, (emission.2.2 call).2 rfl⟩

end NodeNames
