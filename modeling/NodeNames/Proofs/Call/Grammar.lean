import NodeNames.Call.Basic
import NodeNames.Call.Token
/-!
# The grammar of calls

A call is spelled by a list of tokens, and a text is written with tokens when
they stand in it one after the other with any white space between them. The
grammar says nothing about how a text is read: which tokens a character belongs
to and which form a token opens is left open.
-/

namespace NodeNames

open Token

/-- A part of a name: a character that can start one, and then characters that can go on. -/
def IsNamePart (text : String) : Prop :=
  ∃ first rest, text.toList = first :: rest ∧ isNameStart first = true ∧
    ∀ character ∈ rest, isNameCharacter character = true

/-- A name as it stands in a call: one part, or two around a colon, and no namespace yet. -/
structure QName.IsLexical (name : QName) : Prop where
  localPart : IsNamePart name.localPart
  qualifier : ∀ qualifier ∈ name.qualifier, IsNamePart qualifier
  uri : name.uri = none

inductive NodeTest.SpelledBy : NodeTest → List String → Prop where
  | anyNode : SpelledBy anyNode ["node", "(", ")"]
  | text : SpelledBy (kind .text) ["text", "(", ")"]
  | comment : SpelledBy (kind .comment) ["comment", "(", ")"]
  | processingInstruction :
      SpelledBy (kind .processingInstruction) ["processing-instruction", "(", ")"]
  | wildcard : SpelledBy wildcard ["*"]
  | name {tested : QName} : tested.IsLexical → SpelledBy (name tested) [tested.render]

inductive Step.SpelledBy : Step → List String → Prop where
  | attributeSign {test : NodeTest} {tokens : List String} :
      test.SpelledBy tokens → SpelledBy ⟨.attributeAxis, test⟩ ("@" :: tokens)
  | axis {test : NodeTest} {tokens : List String} (axis : Axis) :
      test.SpelledBy tokens → SpelledBy ⟨axis, test⟩ (axis.keyword :: "::" :: tokens)
  | child {test : NodeTest} {tokens : List String} :
      test.SpelledBy tokens → SpelledBy ⟨.child, test⟩ tokens

/-- A literal between delimiters, with every delimiter inside doubled. -/
def quotedLiteral (delimiter : Char) (value : String) : String :=
  String.ofList (delimiter :: (doubleDelimiter delimiter value.toList ++ [delimiter]))

inductive Expression.SpelledBy : Expression → List String → Prop where
  | contextNode : SpelledBy contextNode ["."]
  | variableReference {name : QName} :
      name.IsLexical → SpelledBy (variableReference name) ["$" ++ name.render]
  | step {selected : Step} {tokens : List String} :
      selected.SpelledBy tokens → SpelledBy (step selected) tokens
  | literal {delimiter : Char} (value : String) :
      delimiter = '\'' ∨ delimiter = '"' →
        SpelledBy (literal value) [quotedLiteral delimiter value]

/-- Operands, each after a comma. -/
inductive FurtherSpelledBy : List Expression → List String → Prop where
  | nil : FurtherSpelledBy [] []
  | cons {argument : Expression} {others : List Expression} {tokens further : List String} :
      argument.SpelledBy tokens → FurtherSpelledBy others further →
        FurtherSpelledBy (argument :: others) ("," :: (tokens ++ further))

/-- Operands with commas between them. -/
inductive ArgumentsSpelledBy : List Expression → List String → Prop where
  | nil : ArgumentsSpelledBy [] []
  | cons {argument : Expression} {others : List Expression} {tokens further : List String} :
      argument.SpelledBy tokens → FurtherSpelledBy others further →
        ArgumentsSpelledBy (argument :: others) (tokens ++ further)

inductive FunctionCall.SpelledBy : FunctionCall → List String → Prop where
  | intro {name : QName} {arguments : List Expression} {tokens : List String} :
      name.IsLexical → ArgumentsSpelledBy arguments tokens →
        SpelledBy ⟨name, arguments⟩ (name.render :: "(" :: (tokens ++ [")"]))

def IsBlank (text : List Char) : Prop :=
  ∀ character ∈ text, isSpace character = true

/-- A text in which tokens stand one after the other, each after white space, before a rest. -/
inductive TokensThen : List String → List Char → List Char → Prop where
  | nil {rest : List Char} : TokensThen [] rest rest
  | cons {token : String} {tokens : List String} {blank text rest : List Char} :
      IsBlank blank → TokensThen tokens text rest →
        TokensThen (token :: tokens) (blank ++ (token.toList ++ text)) rest

/-- A text that spells a call, with white space around its tokens and nothing else. -/
def FunctionCall.IsWritten (call : FunctionCall) (source : List Char) : Prop :=
  ∃ tokens rest, call.SpelledBy tokens ∧ TokensThen tokens source rest ∧ IsBlank rest

end NodeNames
