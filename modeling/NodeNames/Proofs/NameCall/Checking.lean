import NodeNames.Emission.Draft
import NodeNames.NameCall.Checking
/-!
# Checked operands

The check of a call leaves few forms of operands: the context node, a variable
whose type can be a node, a node-set or a reference, and a step.
-/

namespace NodeNames

/-- The type of an operand, if its variable is declared; no operand stands for the context node. -/
def operandType? (typeOf? : QName → Option ValueType) : Option Expression → Option ValueType
  | none | some .contextNode => some .node
  | some (.variableReference name) => typeOf? name
  | some (.step _) => some .nodeSet
  | some (.literal _) => some .string

/-- The operands that pass the check, with their types, in a method that has their variables. -/
inductive CheckedOperand (method : MethodDraft) : Option Expression → ValueType → Prop where
  | absent : CheckedOperand method none .node
  | contextNode : CheckedOperand method (some .contextNode) .node
  | nodeVariable {name : QName} {slot : UInt16} :
      method.local? name = some ⟨slot, .node⟩ →
        CheckedOperand method (some (.variableReference name)) .node
  | nodeSetVariable {name : QName} {slot : UInt16} :
      method.local? name = some ⟨slot, .nodeSet⟩ →
        CheckedOperand method (some (.variableReference name)) .nodeSet
  | referenceVariable {name : QName} {slot : UInt16} :
      method.local? name = some ⟨slot, .reference⟩ →
        CheckedOperand method (some (.variableReference name)) .reference
  | step (step : Step) : CheckedOperand method (some (.step step)) .nodeSet

variable {symbols : SymbolTable}

theorem checkOperand_of_type {function : String} {operand : Option Expression} {type : ValueType}
    (typed : operandType? symbols.lookup? operand = some type) :
    checkOperand function operand.toList symbols =
      if type.isNodeLike then .ok type else .error (.operandNotNode function type) := by
  cases operand with
  | none =>
      cases typed
      rfl
  | some expression =>
      have found : expression.type symbols = .ok type := by
        cases expression with
        | variableReference name =>
            rw [operandType?] at typed
            rw [Expression.type, typed]
        | contextNode | step step | literal value =>
            cases typed
            rfl
      simp only [checkOperand, Option.toList_some, found]
      rfl

theorem checkOperand_of_undeclared {function : String} {operand : Option Expression}
    (untyped : operandType? symbols.lookup? operand = none) :
    ∃ name, operand = some (.variableReference name) ∧
      checkOperand function operand.toList symbols = .error (.undeclaredVariable name) := by
  cases operand with
  | none => cases untyped
  | some expression =>
      cases expression with
      | variableReference name =>
          rw [operandType?] at untyped
          refine ⟨name, rfl, ?_⟩
          simp only [checkOperand, Option.toList_some, Expression.type, untyped]
          rfl
      | contextNode | step step | literal value => cases untyped

/-- A call passes the check with the type of its operand. -/
theorem NameCall.of_check {call checked : NameCall}
    (checks : call.check symbols = .ok checked) :
    ∃ type, operandType? symbols.lookup? call.operand = some type ∧ type.isNodeLike = true ∧
      checked = { call with operandType := some type } := by
  unfold check at checks
  cases typed : operandType? symbols.lookup? call.operand with
  | none =>
      rcases @checkOperand_of_undeclared _ call.function.render _ typed with ⟨name, _, refused⟩
      rw [refused] at checks
      cases checks
  | some type =>
      rw [checkOperand_of_type typed] at checks
      by_cases nodeLike : type.isNodeLike = true
      · rw [if_pos nodeLike] at checks
        cases checks
        exact ⟨type, rfl, nodeLike, rfl⟩
      · rw [if_neg nodeLike] at checks
        cases checks

/-- In a method that has the variables of the unit, a call that passes has a checked operand. -/
theorem checkedOperand_of_type {method : MethodDraft} {operand : Option Expression}
    {type : ValueType}
    (typed : operandType? (fun name => (method.local? name).map (·.type)) operand = some type)
    (nodeLike : type.isNodeLike = true) : CheckedOperand method operand type := by
  cases operand with
  | none =>
      cases typed
      exact .absent
  | some expression =>
      cases expression with
      | contextNode =>
          cases typed
          exact .contextNode
      | variableReference name =>
          rw [operandType?, Option.map_eq_some_iff] at typed
          rcases typed with ⟨⟨slot, declared⟩, found, rfl⟩
          cases declared with
          | node => exact .nodeVariable found
          | nodeSet => exact .nodeSetVariable found
          | reference => exact .referenceVariable found
          | string | boolean | int | real | void => cases nodeLike
      | step step =>
          cases typed
          exact .step step
      | literal value =>
          cases typed
          cases nodeLike

end NodeNames
