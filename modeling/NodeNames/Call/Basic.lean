import NodeNames.Axis
import NodeNames.QName
/-!
# Function calls

A call of a function by name with its operands, as it is written in a
stylesheet, and its text in diagnostics. Context items, variable references and
string literals are printed as they are written in a call; a step shows the
name of its axis.
-/

namespace NodeNames

/-- The condition that a step puts on the nodes of its axis. -/
inductive NodeTest where
  | anyNode
  | kind (kind : NodeKind)
  | wildcard
  | name (name : QName)
deriving DecidableEq

/-- The nodes along an axis that pass a test. -/
structure Step where
  axis : Axis
  test : NodeTest
deriving DecidableEq

inductive Expression where
  | contextNode
  | variableReference (name : QName)
  | step (step : Step)
  | literal (value : String)
deriving DecidableEq

/-- A function name applied to its operands. -/
structure FunctionCall where
  name : QName
  arguments : List Expression
deriving DecidableEq

def NodeTest.render : NodeTest → String
  | anyNode => "node()"
  | kind .text => "text()"
  | kind .comment => "comment()"
  | kind .processingInstruction => "processing-instruction()"
  | kind other => other.label
  | wildcard => "*"
  | name tested => tested.render

def Step.render (step : Step) : String :=
  step.axis.label ++ "::" ++ step.test.render

/-- Every occurrence of the delimiter inside a literal is written twice. -/
def doubleDelimiter (delimiter : Char) (value : List Char) : List Char :=
  value.flatMap fun character =>
    if character = delimiter then [delimiter, delimiter] else [character]

def Expression.render : Expression → String
  | contextNode => "."
  | variableReference name => "$" ++ name.render
  | step selected => selected.render
  | literal value => "'" ++ String.ofList (doubleDelimiter '\'' value.toList) ++ "'"

def FunctionCall.render (call : FunctionCall) : String :=
  call.name.render ++ "(" ++ String.intercalate ", " (call.arguments.map Expression.render) ++ ")"

end NodeNames
