import NodeNames.Call.Token
/-!
# Accounts of unreadable calls

Says where reading a call got stuck and what could have stood there. The
grammar is walked once more, in the order in which its forms are tried; every
rule that fails is noted at the place where it started, and only notes at the
furthest such place are kept. A rule gives way to the rules inside it when
exactly one of them failed at the same place.
-/

namespace NodeNames

/-- The rules of the grammar that an account can name, in the order in which it lists them. -/
inductive Rule where
  | endOfInput
  | call
  | functionCall
  | contextItem
  | variableReference
  | step
  | attributeSign
  | axisName
  | kindTest
  | kindName
  | wildcard
  | name
  | stringLiteral
deriving DecidableEq

namespace Rule

/-- Every rule, in the order in which an account lists them. -/
def all : List Rule :=
  [endOfInput, call, functionCall, contextItem, variableReference, step, attributeSign, axisName,
    kindTest, kindName, wildcard, name, stringLiteral]

def label : Rule → String
  | endOfInput => "EOI"
  | call => "call"
  | functionCall => "function_call"
  | contextItem => "context_item"
  | variableReference => "var_ref"
  | step => "step"
  | attributeSign => "abbrev_attribute"
  | axisName => "axis_name"
  | kindTest => "kind_test"
  | kindName => "kind_name"
  | wildcard => "wildcard"
  | name => "qname"
  | stringLiteral => "string_literal"

end Rule

/-- The rules that failed at the furthest place so far, which is known by the length of its rest. -/
structure Attempts where
  remaining : Nat
  rules : List Rule

namespace Attempts

def countAt (attempts : Attempts) (remaining : Nat) : Nat :=
  if attempts.remaining = remaining then attempts.rules.length else 0

/-- Notes that a rule failed where it started, given how many failures were noted there before. -/
def record (attempts : Attempts) (rule : Rule) (remaining before : Nat) : Attempts :=
  if attempts.countAt remaining = before + 1 then attempts
  else if remaining = attempts.remaining then
    { attempts with rules := attempts.rules.take before ++ [rule] }
  else if remaining < attempts.remaining then { remaining, rules := [rule] }
  else attempts

end Attempts

/-- A walk through part of the text: the rest on success, and the failures on the way. -/
abbrev Walk := List Char → StateM Attempts (Option (List Char))

namespace Walk

open Token

/-- Follows a rule and notes its failure. -/
def rule (named : Rule) (body : Walk) : Walk := fun source => do
  let before := (← get).countAt source.length
  let outcome ← body source
  if outcome.isNone then
    modify fun attempts => attempts.record named source.length before
  return outcome

/-- Follows a rule without rules inside it. -/
def token (named : Rule) (read : List Char → Option (List Char)) : Walk :=
  rule named fun source => return read source

/-- Tries walks in turn from the same place until one succeeds. -/
def firstOf : List Walk → Walk
  | [], _ => return none
  | first :: others, source => do
      match ← first source with
      | some rest => return some rest
      | none => firstOf others source

def character (expected : Char) : List Char → Option (List Char)
  | first :: rest => if first = expected then some rest else none
  | [] => none

def name : Walk :=
  token .name fun source => (readName source).map Prod.snd

def kindTest : Walk :=
  rule .kindTest fun source => do
    match ← token .kindName (fun source => (readKindWord source).map Prod.snd) source with
    | none => return none
    | some rest =>
        return (character '(' (skipSpace rest)).bind fun inner => character ')' (skipSpace inner)

/-- A node test: a kind test, a wildcard or a name. -/
def nodeTest : Walk :=
  firstOf [kindTest, token .wildcard (character '*'), name]

def attributeStep : Walk := fun source => do
  match ← token .attributeSign (character '@') source with
  | none => return none
  | some rest => nodeTest (skipSpace rest)

def axisStep : Walk := fun source => do
  let named ← token .axisName (fun source => (readAxis source).map Prod.snd) source
  match named.bind fun rest => Text.afterWord? [':', ':'] (skipSpace rest) with
  | some rest => nodeTest (skipSpace rest)
  | none => nodeTest source

def argument : Walk :=
  firstOf [
    token .stringLiteral fun source => (readLiteral source).map Prod.snd,
    token .contextItem (character '.'),
    rule .variableReference fun source =>
      match character '$' source with
      | none => return none
      | some rest => name rest,
    rule .step (firstOf [attributeStep, axisStep])]

/-- Goes through the operands after the first one, at most as many as the fuel says. -/
def furtherArguments : Nat → List Char → StateM Attempts (List Char)
  | 0, source => return source
  | fuel + 1, source =>
      match character ',' (skipSpace source) with
      | none => return source
      | some afterComma => do
          match ← argument (skipSpace afterComma) with
          | none => return source
          | some rest => furtherArguments fuel rest

def functionCall : Walk :=
  rule .functionCall fun source => do
    match (← name source).bind fun rest => character '(' (skipSpace rest) with
    | none => return none
    | some rest =>
        let inner := skipSpace rest
        let afterArguments ←
          match ← argument inner with
          | none => pure inner
          | some afterFirst => furtherArguments afterFirst.length afterFirst
        return character ')' (skipSpace afterArguments)

/-- A call that takes up the whole text. -/
def call : Walk :=
  rule .call fun source => do
    match ← functionCall (skipSpace source) with
    | none => return none
    | some rest =>
        token .endOfInput (fun source => if source = [] then some [] else none) (skipSpace rest)

end Walk

namespace Attempts

/-- The failures at the furthest place that reading a text as a call gets to. -/
def ofSource (source : List Char) : Attempts :=
  ((Walk.call source).run { remaining := source.length, rules := [] }).2

def expected (attempts : Attempts) : List Rule :=
  Rule.all.filter (· ∈ attempts.rules)

end Attempts

/-- Alternatives in a sentence: `a`, then `a or b`, then `a, b, or c`. -/
def alternatives : List String → String
  | [] => ""
  | [only] => only
  | [first, second] => first ++ " or " ++ second
  | names => String.intercalate ", " names.dropLast ++ ", or " ++ names.getLastD ""

/-- Line ends are shown as symbols if the place is at one, and left out otherwise. -/
def shownLine (atLineEnd : Bool) (line : List Char) : List Char :=
  if atLineEnd then
    line.map fun character =>
      if character = '\r' then '\u240D' else if character = '\n' then '\u240A' else character
  else line.filter fun character => character ≠ '\r' && character ≠ '\n'

/-- The line with a given place, a mark under the place, and what could have stood there. -/
def markedLine (source : List Char) (position : Nat) (expectation : String) : String :=
  let before := source.take position
  let lineNumber := 1 + before.count '\n'
  let beforeInLine := (before.reverse.takeWhile (· ≠ '\n')).reverse
  let after := source.drop position
  let untilLineEnd := after.takeWhile (· ≠ '\n')
  let lineEnd := (after.dropWhile (· ≠ '\n')).take 1
  let atLineEnd := after.head?.any fun character => character = '\n' || character = '\r'
  let line := shownLine atLineEnd (beforeInLine ++ untilLineEnd ++ lineEnd)
  let padding := (line.take beforeInLine.length).map fun character =>
    if character = '\t' then '\t' else ' '
  let number := toString lineNumber
  let gutter := String.ofList (List.replicate number.length ' ')
  String.intercalate "\n" [
    gutter ++ "--> " ++ number ++ ":" ++ toString (beforeInLine.length + 1),
    gutter ++ " |",
    number ++ " | " ++ String.ofList line,
    gutter ++ " | " ++ String.ofList padding ++ "^---",
    gutter ++ " |",
    gutter ++ " = " ++ expectation]

/-- Why a text cannot be read as a call. -/
def failureAccount (source : List Char) : String :=
  let attempts := Attempts.ofSource source
  markedLine source (source.length - attempts.remaining)
    ("expected " ++ alternatives (attempts.expected.map Rule.label))

end NodeNames
