import NodeNames.Call.Token
/-!
# The grammar as ordered choice

The grammar once more as parsing expressions: alternatives are tried in order,
the first one that succeeds is kept whatever comes after it, and a repetition
takes as much as it can and gives nothing back.
-/

namespace NodeNames

open Token

/-- A parsing expression: what it takes from the head of a text, with the rest, or a failure. -/
abbrev Parsing (Result : Type) := StateT (List Char) Option Result

namespace Parsing

variable {Result Other : Type}

def word (expected : String) : Parsing Unit := fun source =>
  (Text.afterWord? expected.toList source).map fun rest => ((), rest)

/-- A word of one character. -/
def mark (expected : Char) : Parsing Unit
  | [] => none
  | first :: rest => if first = expected then some ((), rest) else none

def one (allowed : Char → Bool) : Parsing Char
  | [] => none
  | first :: rest => if allowed first then some (first, rest) else none

/-- The first alternative that succeeds. -/
def firstOf (alternatives : List (Parsing Result)) : Parsing Result := fun source =>
  alternatives.findSome? fun alternative => alternative source

def optional (body : Parsing Result) : Parsing (Option Result) := fun source =>
  match body source with
  | some (result, rest) => some (some result, rest)
  | none => some (none, source)

/-- As many as there are, one after the other. -/
def many (body : Parsing Result) (source : List Char) : Option (List Result × List Char) :=
  match body source with
  | none => some ([], source)
  | some (first, rest) =>
      if rest.length < source.length then
        (many body rest).map fun others => (first :: others.1, others.2)
      else some ([], source)
termination_by source.length

/-- Takes nothing, where an expression fails. -/
def absent (body : Parsing Result) : Parsing Unit := fun source =>
  match body source with
  | some _ => none
  | none => some ((), source)

def endOfInput : Parsing Unit := fun source =>
  if source = [] then some ((), []) else none

def blank : Parsing Unit := do
  let _ ← many (one isSpace)

/-- As many as there are, with white space between them. -/
def manySpaced (body : Parsing Result) : Parsing (List Result) := do
  match ← optional body with
  | none => return []
  | some first =>
      let others ← many (do blank; body)
      return first :: others

def part : Parsing String := do
  let first ← one isNameStart
  let others ← many (one isNameCharacter)
  return String.ofList (first :: others)

def name : Parsing QName := do
  let first ← part
  match ← optional (do mark ':'; part) with
  | none => return .ofLocalPart first
  | some second => return { qualifier := some first, localPart := second, uri := none }

def kindTest : Parsing NodeTest := do
  let test ← firstOf (kindWords.map fun entry => do word entry.1; return entry.2)
  blank
  mark '('
  blank
  mark ')'
  return test

def nodeTest : Parsing NodeTest :=
  firstOf [kindTest, do mark '*'; return .wildcard, do return .name (← name)]

/-- The axes in the order in which their names are tried: no name starts with an earlier one. -/
def axisOrder : List Axis :=
  [.ancestorOrSelf, .ancestor, .attributeAxis, .child, .descendantOrSelf, .descendant,
    .followingSibling, .following, .namespaceAxis, .parent, .precedingSibling, .preceding, .self]

def axisName : Parsing Axis := do
  let axis ← firstOf (axisOrder.map fun axis => do word axis.keyword; return axis)
  absent (one isNameCharacter)
  return axis

/-- The name of an axis and the two colons after it. -/
def selector : Parsing Axis := do
  let axis ← axisName
  blank
  word "::"
  return axis

def attributeStep : Parsing Step := do
  mark '@'
  blank
  return { axis := .attributeAxis, test := ← nodeTest }

def axisStep : Parsing Step := do
  let selected ← optional selector
  blank
  return { axis := selected.getD .child, test := ← nodeTest }

def step : Parsing Step :=
  firstOf [attributeStep, axisStep]

/-- A character of a literal: the delimiter twice, or another one. -/
def inside (delimiter : Char) : Parsing Char :=
  firstOf [
    do
      word (String.ofList [delimiter, delimiter])
      return delimiter,
    do
      absent (mark delimiter)
      one fun _ => true]

def quoted (delimiter : Char) : Parsing String := do
  mark delimiter
  let value ← many (inside delimiter)
  mark delimiter
  return String.ofList value

def argument : Parsing Expression :=
  firstOf [
    do return .literal (← firstOf [quoted '\'', quoted '"']),
    do mark '.'; return .contextNode,
    do mark '$'; return .variableReference (← name),
    do return .step (← step)]

def furtherArgument : Parsing Expression := do
  mark ','
  blank
  argument

def arguments : Parsing (List Expression) := do
  let operands ← optional (do
    let first ← argument
    blank
    let others ← manySpaced furtherArgument
    return first :: others)
  return operands.getD []

def functionCall : Parsing FunctionCall := do
  let called ← name
  blank
  mark '('
  blank
  let operands ← arguments
  blank
  mark ')'
  return { name := called, arguments := operands }

/-- A call that takes up the whole text, apart from white space around it. -/
def call : Parsing FunctionCall := do
  blank
  let written ← functionCall
  blank
  endOfInput
  return written

section Combinators

variable {source : List Char} {alternative : Parsing Result} {others : List (Parsing Result)}

@[simp]
theorem pure_apply (result : Result) (source : List Char) :
    (pure result : Parsing Result) source = some (result, source) :=
  rfl

@[simp]
theorem bind_apply (first : Parsing Result) (next : Result → Parsing Other)
    (source : List Char) :
    (first >>= next) source = (first source).bind fun taken => next taken.1 taken.2 :=
  rfl

@[simp]
theorem map_apply (change : Result → Other) (body : Parsing Result) (source : List Char) :
    (change <$> body) source = (body source).map fun taken => (change taken.1, taken.2) := by
  cases taken : body source <;> simp [Functor.map, StateT.map, taken]

theorem firstOf_cons : firstOf (alternative :: others) source =
    (alternative source).orElse fun _ => firstOf others source := by
  cases taken : alternative source <;> simp [firstOf, taken]

@[simp]
theorem firstOf_nil (source : List Char) : firstOf ([] : List (Parsing Result)) source = none :=
  rfl

@[simp]
theorem mark_nil (expected : Char) : mark expected [] = none :=
  rfl

@[simp]
theorem mark_cons (expected first : Char) (rest : List Char) :
    mark expected (first :: rest) = if first = expected then some ((), rest) else none :=
  rfl

theorem word_eq_some_iff {text : String} {source rest : List Char} :
    word text source = some ((), rest) ↔ source = text.toList ++ rest := by
  simp [word, Text.afterWord?_eq_some_iff]

theorem word_eq_none {text : String} {source : List Char} (refused : word text source = none)
    (rest : List Char) : source ≠ text.toList ++ rest := by
  intro whole
  rw [word_eq_some_iff.mpr whole] at refused
  cases refused

theorem many_of_none {body : Parsing Result} {source : List Char} (refused : body source = none) :
    many body source = some ([], source) := by
  rw [many, refused]

theorem many_of_some {body : Parsing Result} {source rest : List Char} {first : Result}
    (taken : body source = some (first, rest)) (shorter : rest.length < source.length) :
    many body source = (many body rest).map fun others => (first :: others.1, others.2) := by
  rw [many, taken]
  exact if_pos shorter

theorem many_one (allowed : Char → Bool) (source : List Char) :
    many (one allowed) source = some (source.takeWhile allowed, source.dropWhile allowed) := by
  induction source with
  | nil => simp [many, one]
  | cons first rest ih =>
      by_cases goesOn : allowed first = true <;> rw [many] <;> simp [one, goesOn, ih]

theorem many_ne_none (body : Parsing Result) (source : List Char) : many body source ≠ none := by
  fun_induction many body source with
  | case1 => simp
  | case2 _ _ _ _ _ ih => simpa using ih
  | case3 => simp

/-- The operands after the first one, of which there may be none, are never refused. -/
theorem manySpaced_ne_none (body : Parsing Result) (source : List Char) :
    manySpaced body source ≠ none := by
  unfold manySpaced
  cases taken : body source with
  | none => simp [optional, taken]
  | some found => simpa [optional, taken] using many_ne_none _ _

@[simp]
theorem blank_apply (source : List Char) : blank source = some ((), skipSpace source) := by
  simp [blank, many_one, skipSpace]

end Combinators

end Parsing

end NodeNames
