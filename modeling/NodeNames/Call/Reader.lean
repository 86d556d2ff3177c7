import NodeNames.Call.Token
/-!
# Reading calls

Reads the text of a call. White space may stand around every token except
inside names, variable references and literals. Each reader is deterministic:
the head of the text selects the form that is read.
-/

namespace NodeNames

open Token

/-- Reads a kind test: its word and an empty pair of parentheses. -/
def NodeTest.readKind (source : List Char) : Option (NodeTest × List Char) :=
  match readKindWord source with
  | none => none
  | some (test, rest) =>
      match skipSpace rest with
      | '(' :: inner =>
          match skipSpace inner with
          | ')' :: final => some (test, final)
          | _ => none
      | _ => none

/-- Reads a node test: a kind test if there is one, otherwise a wildcard or a name. -/
def NodeTest.read (source : List Char) : Option (NodeTest × List Char) :=
  match NodeTest.readKind source, source with
  | some read, _ => some read
  | none, '*' :: rest => some (.wildcard, rest)
  | none, _ => (readName source).map fun read => (.name read.1, read.2)

/-- Reads the name of an axis and the two colons after it. -/
def Axis.readSelector (source : List Char) : Option (Axis × List Char) :=
  match readAxis source with
  | none => none
  | some (axis, rest) =>
      match skipSpace rest with
      | ':' :: ':' :: final => some (axis, final)
      | _ => none

/-- Reads a step; without a selected axis it is a step to children. -/
def Step.read (source : List Char) : Option (Step × List Char) :=
  let selected : Axis × List Char :=
    match source with
    | '@' :: rest => (.attributeAxis, skipSpace rest)
    | _ =>
        match Axis.readSelector source with
        | some (axis, rest) => (axis, skipSpace rest)
        | none => (.child, source)
  (NodeTest.read selected.2).map fun read => ({ axis := selected.1, test := read.1 }, read.2)

def Expression.read (source : List Char) : Option (Expression × List Char) :=
  match source with
  | '.' :: rest => some (.contextNode, rest)
  | '$' :: rest => (readName rest).map fun read => (.variableReference read.1, read.2)
  | '\'' :: _ | '"' :: _ => (readLiteral source).map fun read => (.literal read.1, read.2)
  | _ => (Step.read source).map fun read => (.step read.1, read.2)

theorem NodeTest.length_lt_of_readKind {source rest : List Char} {test : NodeTest}
    (read : NodeTest.readKind source = some (test, rest)) : rest.length < source.length := by
  unfold NodeTest.readKind at read
  split at read
  · simp at read
  · rename_i afterWord word
    have first := length_lt_of_readKindWord word
    split at read
    · rename_i inner opened
      split at read
      · rename_i final closed
        rcases Prod.mk.inj (Option.some.inj read) with ⟨-, rfl⟩
        have second := length_skipSpace_le afterWord
        have third := length_skipSpace_le inner
        simp only [opened, closed, List.length_cons] at second third
        omega
      · simp at read
    · simp at read

theorem NodeTest.length_lt_of_read {source rest : List Char} {test : NodeTest}
    (read : NodeTest.read source = some (test, rest)) : rest.length < source.length := by
  unfold NodeTest.read at read
  split at read
  · rename_i kindTest
    exact NodeTest.length_lt_of_readKind (kindTest.trans read)
  · rcases Prod.mk.inj (Option.some.inj read) with ⟨-, rfl⟩
    simp
  · rcases Option.map_eq_some_iff.1 read with ⟨name, readOne, same⟩
    rcases Prod.mk.inj same with ⟨-, rfl⟩
    exact length_lt_of_readName readOne

theorem Axis.length_le_of_readSelector {source rest : List Char} {axis : Axis}
    (read : Axis.readSelector source = some (axis, rest)) : rest.length ≤ source.length := by
  unfold Axis.readSelector at read
  split at read
  · simp at read
  · rename_i afterName named
    rcases Option.map_eq_some_iff.1 named with ⟨_, _, same⟩
    rcases Prod.mk.inj same with ⟨-, rfl⟩
    split at read
    · rename_i final colons
      rcases Prod.mk.inj (Option.some.inj read) with ⟨-, rfl⟩
      have first := length_skipSpace_le (source.dropWhile isNameCharacter)
      have second := (List.dropWhile_suffix (l := source) isNameCharacter).length_le
      simp only [colons, List.length_cons] at first
      omega
    · simp at read

theorem Step.length_lt_of_read {source rest : List Char} {step : Step}
    (read : Step.read source = some (step, rest)) : rest.length < source.length := by
  unfold Step.read at read
  rcases Option.map_eq_some_iff.1 read with ⟨found, readTest, same⟩
  rcases Prod.mk.inj same with ⟨-, rfl⟩
  have shorter := NodeTest.length_lt_of_read readTest
  refine Nat.lt_of_lt_of_le shorter ?_
  split
  · rename_i afterSign
    have := length_skipSpace_le afterSign
    simp only [List.length_cons]
    omega
  · split
    · rename_i afterColons selector
      exact Nat.le_trans (length_skipSpace_le afterColons) (Axis.length_le_of_readSelector selector)
    · exact Nat.le_refl _

theorem Expression.length_lt_of_read {source rest : List Char} {argument : Expression}
    (read : Expression.read source = some (argument, rest)) : rest.length < source.length := by
  unfold Expression.read at read
  split at read
  · rcases Prod.mk.inj (Option.some.inj read) with ⟨-, rfl⟩
    simp
  · rcases Option.map_eq_some_iff.1 read with ⟨found, readOne, same⟩
    rcases Prod.mk.inj same with ⟨-, rfl⟩
    exact Nat.lt_succ_of_lt (length_lt_of_readName readOne)
  all_goals
    rcases Option.map_eq_some_iff.1 read with ⟨found, readOne, same⟩
    rcases Prod.mk.inj same with ⟨-, rfl⟩
  · exact length_lt_of_readLiteral readOne
  · exact length_lt_of_readLiteral readOne
  · exact Step.length_lt_of_read readOne

/-- Reads the operands that follow the first one, up to the closing parenthesis. -/
def FunctionCall.readFurther (source : List Char) : Option (List Expression × List Char) :=
  match found : skipSpace source with
  | ')' :: rest => some ([], rest)
  | ',' :: rest =>
      match read : Expression.read (skipSpace rest) with
      | none => none
      | some (argument, afterArgument) =>
          have : afterArgument.length < source.length := by
            have first := length_skipSpace_le source
            have second := length_skipSpace_le rest
            have third := Expression.length_lt_of_read read
            simp only [found, List.length_cons] at first
            omega
          (FunctionCall.readFurther afterArgument).map fun further =>
            (argument :: further.1, further.2)
  | _ => none
termination_by source.length

/-- Reads the operands of a call after its opening parenthesis, and the closing one. -/
def FunctionCall.readArguments (source : List Char) : Option (List Expression × List Char) :=
  match skipSpace source with
  | ')' :: rest => some ([], rest)
  | first =>
      match Expression.read first with
      | none => none
      | some (argument, rest) =>
          (FunctionCall.readFurther rest).map fun further => (argument :: further.1, further.2)

/-- Reads a call that takes up the whole text, apart from white space around it. -/
def FunctionCall.read? (source : List Char) : Option FunctionCall :=
  match readName (skipSpace source) with
  | none => none
  | some (name, afterName) =>
      match skipSpace afterName with
      | '(' :: inner =>
          match FunctionCall.readArguments inner with
          | none => none
          | some (arguments, rest) => if skipSpace rest = [] then some { name, arguments } else none
      | _ => none

end NodeNames
