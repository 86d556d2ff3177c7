import Mathlib.Data.List.DropRight
import NodeNames.CompileUnit
import NodeNames.Proofs.Call.OrderedChoice
import NodeNames.Proofs.Call.Reading
/-!
# The parser and its language

Ordered choice never undoes a choice, and still it takes what the readers take
and with the same result. So each text is read as the one call it is written
for, however close its names come to the words of the grammar.
-/

namespace NodeNames

open Token

namespace Parsing

section Names

variable (source : List Char)

theorem part_eq_readPart :
    part source = (readPart source).map fun read => (String.ofList read.1, read.2) := by
  cases source with
  | nil => rfl
  | cons first rest =>
      by_cases starts : isNameStart first = true <;>
        simp [part, one, readPart, starts, many_one]

theorem name_eq_readName : name source = readName source := by
  unfold name readName
  simp only [bind_apply, part_eq_readPart]
  cases readPart source with
  | none => rfl
  | some found =>
      rcases found with ⟨first, _ | ⟨next, afterColon⟩⟩
      · rfl
      · by_cases isColon : next = ':'
        · subst isColon
          cases second : readPart afterColon <;>
            simp [optional, part_eq_readPart, QName.ofLocalPart, second]
        · simp [optional, QName.ofLocalPart, isColon]

theorem kindTest_eq_readKind : kindTest source = NodeTest.readKind source := by
  have opens : firstOf (kindWords.map fun entry => do word entry.1; return entry.2) source =
      readKindWord source := by
    simp [firstOf, readKindWord, List.findSome?_map, word, Function.comp_def]
  unfold kindTest NodeTest.readKind
  simp only [bind_apply, opens]
  cases readKindWord source with
  | none => rfl
  | some found =>
      rcases found with ⟨test, rest⟩
      rcases opened : skipSpace rest with _ | ⟨first, inner⟩
      · simp [opened]
      · by_cases opens : first = '('
        · rcases closed : skipSpace inner with _ | ⟨second, final⟩
          · simp [opened, opens, closed]
          · by_cases closes : second = ')' <;> simp [opened, opens, closed, closes]
        · simp [opened, opens]

theorem nodeTest_eq_read : nodeTest source = NodeTest.read source := by
  unfold nodeTest NodeTest.read
  rw [firstOf_cons, kindTest_eq_readKind]
  cases NodeTest.readKind source with
  | some found => rfl
  | none =>
      rcases source with _ | ⟨first, rest⟩
      · rfl
      · by_cases isStar : first = '*'
        · simp [firstOf_cons, isStar]
        · simp [firstOf_cons, isStar, name_eq_readName]

end Names

section Steps

/-- No axis name starts with one that is tried before it. -/
theorem pairwise_axisOrder : axisOrder.Pairwise fun earlier later =>
    ¬ earlier.keyword.toList <+: later.keyword.toList := by
  decide

theorem mem_axisOrder (axis : Axis) : axis ∈ axisOrder := by
  cases axis <;> decide

/-- Where the first axis name that fits goes on with a character of a name, no axis is named. -/
theorem readAxis_eq_none_of_order {axis : Axis} {before after : List Axis} {source rest : List Char}
    (order : axisOrder = before ++ axis :: after) (whole : source = axis.keyword.toList ++ rest)
    (refused : ∀ earlier ∈ before, word earlier.keyword source = none)
    (goesOn : ¬ EndsName rest) : readAxis source = none := by
  cases named : readAxis source with
  | none => rfl
  | some found =>
      rcases found with ⟨other, final⟩
      rcases of_readAxis named with ⟨otherWhole, ends⟩
      have isOther := mem_axisOrder other
      rw [order] at isOther
      rcases List.mem_append.mp isOther with isEarlier | isOther
      · exact absurd otherWhole (word_eq_none (refused other isEarlier) final)
      · rcases List.mem_cons.mp isOther with rfl | isLater
        · rw [whole] at otherWhole
          exact absurd (List.append_cancel_left otherWhole ▸ ends) goesOn
        · have inOrder := pairwise_axisOrder
          rw [order, List.pairwise_append, List.pairwise_cons] at inOrder
          have apart := inOrder.2.1.1 other isLater
          rcases List.append_eq_append_iff.mp (whole.symm.trans otherWhole) with
            ⟨beyond, isLonger, _⟩ | ⟨remainder, isShorter, isFinal⟩
          · exact absurd ⟨beyond, isLonger.symm⟩ apart
          · -- the other name is shorter, and what follows it belongs to the first one
            cases remainder with
            | nil => exact absurd ⟨[], by simp [isShorter]⟩ apart
            | cons next others =>
                have inside := isNameCharacter_of_mem_keyword axis next
                  (by simp [isShorter])
                have stops := ends next (by simp [isFinal])
                exact absurd inside (by simp [stops])

theorem absent_of_endsName {source : List Char} (ends : EndsName source) :
    absent (one isNameCharacter) source = some ((), source) := by
  cases source with
  | nil => rfl
  | cons first rest => simp [absent, one, ends first rfl]

theorem absent_of_not_endsName {source : List Char} (goesOn : ¬ EndsName source) :
    absent (one isNameCharacter) source = none := by
  cases source with
  | nil => exact absurd (fun _ isHead => nomatch isHead) goesOn
  | cons first rest =>
      cases isName : isNameCharacter first with
      | true => simp [absent, one, isName]
      | false =>
          have ends : EndsName (first :: rest) := by
            rintro head ⟨rfl⟩
            exact isName
          exact absurd ends goesOn

theorem axisName_eq_readAxis (source : List Char) : axisName source = readAxis source := by
  unfold axisName
  cases chosen : firstOf (axisOrder.map fun axis => do word axis.keyword; return axis) source with
  | none =>
      simp only [bind_apply, chosen, Option.bind_none]
      cases named : readAxis source with
      | none => rfl
      | some found =>
          rcases found with ⟨other, final⟩
          have refused := List.findSome?_eq_none_iff.mp chosen _
            (List.mem_map_of_mem (mem_axisOrder other))
          simp [word_eq_some_iff.mpr (of_readAxis named).1] at refused
  | some found =>
      rcases found with ⟨axis, rest⟩
      have first := chosen
      simp only [firstOf, List.findSome?_map] at first
      rcases List.findSome?_eq_some_iff.mp first with ⟨before, other, after, order, taken, refused⟩
      simp only [Function.comp_apply, bind_apply, pure_apply, Option.bind_eq_some_iff,
        Option.some.injEq, Prod.mk.injEq, Prod.exists] at taken
      rcases taken with ⟨⟨⟩, final, taken, rfl, rfl⟩
      have whole := word_eq_some_iff.mp taken
      simp only [bind_apply, chosen, Option.bind_some]
      by_cases ends : EndsName final
      · rw [absent_of_endsName ends, whole, readAxis_keyword other ends]
        rfl
      · have unread : readAxis source = none := by
          apply readAxis_eq_none_of_order order whole _ ends
          intro earlier isEarlier
          simpa using refused earlier isEarlier
        rw [absent_of_not_endsName ends, unread]
        rfl

theorem selector_eq_readSelector (source : List Char) :
    selector source = Axis.readSelector source := by
  unfold selector Axis.readSelector
  simp only [bind_apply, axisName_eq_readAxis]
  cases readAxis source with
  | none => rfl
  | some found =>
      rcases found with ⟨axis, rest⟩
      simp only [Option.bind_some, blank_apply]
      split
      · rename_i final colons
        rw [colons]
        rfl
      · rename_i noColons
        cases taken : word "::" (skipSpace rest) with
        | none => rfl
        | some found => exact absurd (word_eq_some_iff.mp taken) (noColons found.2)

theorem skipSpace_skipSpace (source : List Char) :
    skipSpace (skipSpace source) = skipSpace source :=
  List.dropWhile_idempotent isSpace source

theorem axisStep_eq (source : List Char) :
    axisStep (skipSpace source) =
      match Axis.readSelector (skipSpace source) with
      | some (axis, rest) =>
          (NodeTest.read (skipSpace rest)).map fun read => (⟨axis, read.1⟩, read.2)
      | none => (NodeTest.read (skipSpace source)).map fun read => (⟨.child, read.1⟩, read.2) := by
  unfold axisStep
  cases selected : Axis.readSelector (skipSpace source) with
  | none =>
      simp [optional, selector_eq_readSelector, selected, skipSpace_skipSpace, nodeTest_eq_read]
  | some found =>
      simp [optional, selector_eq_readSelector, selected, nodeTest_eq_read]

/-- No step is read as one of the second form where the first form opens. -/
theorem axisStep_sign (rest : List Char) : axisStep ('@' :: rest) = none := by
  have atSign := axisStep_eq ('@' :: rest)
  rw [skipSpace_of_solid (by decide)] at atSign
  exact atSign

theorem step_eq_read (source : List Char) :
    step (skipSpace source) = Step.read (skipSpace source) := by
  unfold step Step.read
  rw [firstOf_cons, firstOf_cons, firstOf_nil]
  split
  · rename_i rest signed
    rw [signed, axisStep_sign]
    simp [attributeStep, nodeTest_eq_read]
  · rename_i noSign
    have noAttribute : attributeStep (skipSpace source) = none := by
      rcases opened : skipSpace source with _ | ⟨first, rest⟩
      · rfl
      · have different : first ≠ '@' := fun same => noSign rest (by rw [opened, same])
        simp [attributeStep, different]
    rw [noAttribute, axisStep_eq]
    cases Axis.readSelector (skipSpace source) with
    | none => simp
    | some found => simp

end Steps

section Literals

variable {delimiter : Char}

theorem inside_of_ne {first : Char} (different : first ≠ delimiter) (rest : List Char) :
    inside delimiter (first :: rest) = some (first, rest) := by
  simp [inside, firstOf_cons, word, Text.afterWord?, absent, one, different]

theorem inside_doubled (rest : List Char) :
    inside delimiter (delimiter :: delimiter :: rest) = some (delimiter, rest) := by
  simp [inside, firstOf_cons, word, Text.afterWord?]

theorem inside_closing {rest : List Char} (closes : rest.head? ≠ some delimiter) :
    inside delimiter (delimiter :: rest) = none := by
  cases rest with
  | nil => simp [inside, firstOf_cons, word, Text.afterWord?, absent]
  | cons next tail =>
      have different : next ≠ delimiter := fun same => closes (congrArg some same)
      simp [inside, firstOf_cons, word, Text.afterWord?, absent, different]

theorem inside_nil : inside delimiter [] = none := by
  simp [inside, firstOf_cons, word, Text.afterWord?, absent, one]

theorem many_inside_eq_readQuoted (delimiter : Char) (text : List Char) :
    ((many (inside delimiter) text).bind fun taken =>
        (mark delimiter taken.2).map fun closed => (taken.1, closed.2)) =
      readQuoted delimiter text := by
  fun_induction readQuoted delimiter text with
  | case1 => simp [many_of_none inside_nil]
  | case2 =>
      have closing : inside delimiter [delimiter] = none := inside_closing (by simp)
      simp [many_of_none closing]
  | case3 last different =>
      rw [many_of_some (inside_of_ne different []) (by simp)]
      simp [many_of_none inside_nil]
  | case4 first second tail different ih =>
      rw [many_of_some (inside_of_ne different _) (by simp), ← ih]
      cases many (inside delimiter) (second :: tail) with
      | none => rfl
      | some taken => cases closed : mark delimiter taken.2 <;> simp [closed]
  | case5 first tail same ih =>
      obtain rfl : first = delimiter := by simpa using same
      have shorter : tail.length < (first :: first :: tail).length :=
        Nat.lt_succ_of_lt (Nat.lt_succ_self _)
      rw [many_of_some (inside_doubled _) shorter, ← ih]
      cases many (inside first) tail with
      | none => rfl
      | some taken => cases closed : mark first taken.2 <;> simp [closed]
  | case6 first second tail same different =>
      obtain rfl : first = delimiter := by simpa using same
      rw [many_of_none (inside_closing (by simpa using different))]
      simp

theorem quoted_cons (delimiter first : Char) (rest : List Char) :
    quoted delimiter (first :: rest) =
      if first = delimiter then
        (readQuoted delimiter rest).map fun read => (String.ofList read.1, read.2)
      else none := by
  by_cases opens : first = delimiter
  · rw [if_pos opens, ← many_inside_eq_readQuoted]
    simp only [quoted, bind_apply, mark_cons, if_pos opens, Option.bind_some]
    cases many (inside delimiter) rest with
    | none => rfl
    | some taken => cases closed : mark delimiter taken.2 <;> simp [closed]
  · simp [quoted, opens]

theorem quoted_eq_readLiteral (source : List Char) :
    firstOf [quoted '\'', quoted '"'] source = readLiteral source := by
  rw [firstOf_cons, firstOf_cons, firstOf_nil]
  unfold readLiteral
  split
  · rename_i rest
    have other : quoted '"' ('\'' :: rest) = none := by simp [quoted_cons]
    simp [quoted_cons, other]
  · rename_i rest
    simp [quoted_cons]
  · rename_i noSingle noDouble
    cases source with
    | nil => rfl
    | cons first rest =>
        have other : first ≠ '\'' ∧ first ≠ '"' := by
          constructor
          · rintro rfl
            exact noSingle rest rfl
          · rintro rfl
            exact noDouble rest rfl
        simp [quoted_cons, other]

end Literals

section Operands

theorem argument_eq_read (source : List Char) :
    argument (skipSpace source) = Expression.read (skipSpace source) := by
  unfold argument
  rw [firstOf_cons, firstOf_cons, firstOf_cons, firstOf_cons, firstOf_nil]
  simp only [bind_apply, quoted_eq_readLiteral, step_eq_read, name_eq_readName]
  unfold Expression.read
  split
  · rename_i rest opened
    have noLiteral : readLiteral ('.' :: rest) = none := rfl
    simp [opened, noLiteral]
  · rename_i rest opened
    have noLiteral : readLiteral ('$' :: rest) = none := rfl
    have noStep : Step.read ('$' :: rest) = none := rfl
    cases named : readName rest <;> simp [opened, noLiteral, noStep, named]
  · rename_i rest opened
    have noStep : Step.read ('\'' :: rest) = none := rfl
    cases quotedText : readLiteral ('\'' :: rest) <;> simp [opened, noStep, quotedText]
  · rename_i rest opened
    have noStep : Step.read ('"' :: rest) = none := rfl
    cases quotedText : readLiteral ('"' :: rest) <;> simp [opened, noStep, quotedText]
  · rename_i noPoint noDollar noSingle noDouble
    rcases opened : skipSpace source with _ | ⟨first, rest⟩
    · rfl
    · have other : first ≠ '.' ∧ first ≠ '$' := by
        constructor
        · rintro rfl
          exact noPoint rest opened
        · rintro rfl
          exact noDollar rest opened
      have noLiteral : readLiteral (first :: rest) = none := by
        cases read : readLiteral (first :: rest) with
        | none => rfl
        | some found =>
            rcases of_readLiteral read with ⟨delimiter, isDelimiter, whole⟩
            rw [whole, toList_quotedLiteral] at opened
            rcases isDelimiter with rfl | rfl
            · exact absurd opened (noSingle _)
            · exact absurd opened (noDouble _)
      cases read : Step.read (first :: rest) <;> simp [noLiteral, other]

/-- What is taken before a closing parenthesis. -/
def closing (taken : Option (List Expression × List Char)) :
    Option (List Expression × List Char) :=
  taken.bind fun taken => (mark ')' (skipSpace taken.2)).map fun closed => (taken.1, closed.2)

theorem furtherArgument_of_comma {source rest : List Char} (comma : skipSpace source = ',' :: rest) :
    furtherArgument (skipSpace source) = Expression.read (skipSpace rest) := by
  simp [furtherArgument, comma, argument_eq_read]

theorem furtherArgument_eq_none {source : List Char}
    (noComma : ∀ rest, skipSpace source ≠ ',' :: rest) :
    furtherArgument (skipSpace source) = none := by
  rcases opened : skipSpace source with _ | ⟨first, rest⟩
  · rfl
  · have different : first ≠ ',' := fun same => noComma rest (by rw [opened, same])
    simp [furtherArgument, different]

theorem length_lt_of_furtherArgument {source rest : List Char} {operand : Expression}
    (taken : furtherArgument (skipSpace source) = some (operand, rest)) :
    rest.length < source.length := by
  by_cases comma : ∃ afterComma, skipSpace source = ',' :: afterComma
  · rcases comma with ⟨afterComma, comma⟩
    rw [furtherArgument_of_comma comma] at taken
    have first := length_skipSpace_le source
    have second := length_skipSpace_le afterComma
    have third := Expression.length_lt_of_read taken
    simp only [comma, List.length_cons] at first
    omega
  · rw [furtherArgument_eq_none fun afterComma found => comma ⟨afterComma, found⟩] at taken
    cases taken

theorem closing_cons (argument : Expression) (taken : Option (List Expression × List Char)) :
    closing (taken.map fun others => (argument :: others.1, others.2)) =
      (closing taken).map fun others => (argument :: others.1, others.2) := by
  rcases taken with _ | ⟨others, rest⟩
  · rfl
  · cases closed : mark ')' (skipSpace rest) <;> simp [closing, closed]

theorem closing_eq_none {source : List Char} (operands : List Expression)
    (noClosing : ∀ rest, skipSpace source ≠ ')' :: rest) :
    closing (some (operands, source)) = none := by
  rcases opened : skipSpace source with _ | ⟨first, rest⟩
  · simp [closing, opened]
  · have different : first ≠ ')' := fun same => noClosing rest (by rw [opened, same])
    simp [closing, opened, different]

/-- As many operands after commas as there are. -/
def further : Parsing (List Expression) :=
  many (do blank; furtherArgument)

theorem closing_further_eq_readFurther (source : List Char) :
    closing (further source) = FunctionCall.readFurther source := by
  unfold further
  fun_induction FunctionCall.readFurther source with
  | case1 source rest closed =>
      have refused : (do blank; furtherArgument : Parsing Expression) source = none := by
        simpa using furtherArgument_eq_none (by simp [closed])
      simp [many_of_none refused, closing, closed]
  | case2 source rest comma unread =>
      have refused : (do blank; furtherArgument : Parsing Expression) source = none := by
        simp [furtherArgument_of_comma comma, unread]
      rw [many_of_none refused, closing_eq_none [] (by simp [comma])]
  | case3 source rest comma operand afterOperand read shorter ih =>
      have taken : (do blank; furtherArgument : Parsing Expression) source =
          some (operand, afterOperand) := by
        simp [furtherArgument_of_comma comma, read]
      rw [many_of_some taken shorter, closing_cons, ih]
  | case4 source noClosing noComma =>
      have refused : (do blank; furtherArgument : Parsing Expression) source = none := by
        simpa using furtherArgument_eq_none noComma
      rw [many_of_none refused, closing_eq_none [] noClosing]

theorem closing_manySpaced (source : List Char) :
    closing (manySpaced furtherArgument (skipSpace source)) = closing (further source) := by
  unfold further manySpaced
  cases taken : furtherArgument (skipSpace source) with
  | none =>
      have refused : (do blank; furtherArgument : Parsing Expression) source = none := by
        simpa using taken
      simp [optional, taken, many_of_none refused, closing, skipSpace_skipSpace]
  | some found =>
      rcases found with ⟨operand, rest⟩
      have first : (do blank; furtherArgument : Parsing Expression) source =
          some (operand, rest) := by
        simpa using taken
      rw [many_of_some first (length_lt_of_furtherArgument taken)]
      simp [optional, taken]

theorem closing_arguments_eq_readArguments (source : List Char) :
    closing (arguments (skipSpace source)) = FunctionCall.readArguments source := by
  cases read : Expression.read (skipSpace source) with
  | none =>
      have noArgument : argument (skipSpace source) = none := by rw [argument_eq_read, read]
      have taken : arguments (skipSpace source) = some ([], skipSpace source) := by
        simp [arguments, optional, noArgument]
      rw [taken]
      unfold FunctionCall.readArguments
      split
      · rename_i rest closed
        have solid : skipSpace (')' :: rest) = ')' :: rest := skipSpace_of_solid (by decide) rest
        simp [closing, closed, solid]
      · rename_i noClosing
        rw [read, closing_eq_none [] (by simpa only [skipSpace_skipSpace] using noClosing)]
  | some found =>
      rcases found with ⟨operand, rest⟩
      have first : argument (skipSpace source) = some (operand, rest) := by
        rw [argument_eq_read, read]
      have same := (closing_manySpaced rest).trans (closing_further_eq_readFurther rest)
      cases others : manySpaced furtherArgument (skipSpace rest) with
      | none => exact absurd others (manySpaced_ne_none _ _)
      | some found =>
          have taken : arguments (skipSpace source) = some (operand :: found.1, found.2) := by
            simp [arguments, optional, first, others]
          have closed := closing_cons operand (some found)
          rw [← others, same, others, Option.map_some] at closed
          rw [taken, closed]
          unfold FunctionCall.readArguments
          split
          · rename_i final closed
            rw [closed] at read
            cases read
          · simp [read]

end Operands

theorem functionCall_eq (source : List Char) :
    functionCall (skipSpace source) =
      match readName (skipSpace source) with
      | none => none
      | some (name, afterName) =>
          match skipSpace afterName with
          | '(' :: inner =>
              (FunctionCall.readArguments inner).map fun read => (⟨name, read.1⟩, read.2)
          | _ => none := by
  unfold functionCall
  simp only [bind_apply, name_eq_readName]
  cases named : readName (skipSpace source) with
  | none => rfl
  | some found =>
      rcases found with ⟨called, afterName⟩
      simp only [Option.bind_some, blank_apply]
      rcases opened : skipSpace afterName with _ | ⟨first, inner⟩
      · rfl
      · by_cases opens : first = '('
        · simp only [opens, mark_cons, if_true, Option.bind_some,
            ← closing_arguments_eq_readArguments, closing]
          cases arguments (skipSpace inner) with
          | none => rfl
          | some taken => cases closed : mark ')' (skipSpace taken.2) <;> simp [closed]
        · simp [opens]

/-- Ordered choice takes what the reader takes. -/
theorem call_eq_read? (source : List Char) :
    (call source).map Prod.fst = FunctionCall.read? source := by
  unfold call FunctionCall.read?
  simp only [bind_apply, blank_apply, Option.bind_some, functionCall_eq]
  cases readName (skipSpace source) with
  | none => rfl
  | some found =>
      rcases found with ⟨called, afterName⟩
      rcases opened : skipSpace afterName with _ | ⟨first, inner⟩
      · simp [opened]
      · by_cases opens : first = '('
        · cases operands : FunctionCall.readArguments inner with
          | none => simp [opened, opens, operands]
          | some read =>
              by_cases atEnd : skipSpace read.2 = [] <;>
                simp [opened, opens, operands, endOfInput, atEnd]
        · simp [opened, opens]

end Parsing

namespace FunctionCall

variable {source : String}

theorem ofText_eq_ok_iff {call : FunctionCall} :
    ofText source = .ok call ↔ read? source.toList = some call := by
  unfold ofText
  cases read? source.toList <;> simp

theorem ofText_of_unread (unread : read? source.toList = none) :
    ofText source = .error (.unreadable (failureAccount source.toList)) := by
  unfold ofText
  rw [unread]

/--
The parser accepts exactly the language of the grammar and builds the call that is written, and so
does ordered choice. No text is written for two calls, and a text that is written for none is
refused as a syntax fault.
-/
theorem ofText_exact (source : String) (call : FunctionCall) :
    (ofText source = .ok call ↔ call.IsWritten source.toList) ∧
    ((Parsing.call source.toList).map Prod.fst = some call ↔ call.IsWritten source.toList) ∧
    (call.IsWritten source.toList → ∀ other : FunctionCall,
      other.IsWritten source.toList → other = call) ∧
    ((∀ written : FunctionCall, ¬ written.IsWritten source.toList) →
      ∃ error, ofText source = .error error ∧ error.code = .syntaxFault) := by
  refine ⟨ofText_eq_ok_iff.trans read?_eq_some_iff, ?_, ?_, ?_⟩
  · rw [Parsing.call_eq_read?]
    exact read?_eq_some_iff
  · intro isWritten other otherWritten
    have read := read?_of_isWritten isWritten
    rw [read?_of_isWritten otherWritten] at read
    exact Option.some.inj read
  · intro unwritten
    have unread : read? source.toList = none := by
      apply Option.eq_none_iff_forall_ne_some.mpr
      intro written read
      exact unwritten written (isWritten_of_read? read)
    exact ⟨_, ofText_of_unread unread, rfl⟩

/-- The keyword of an axis as the name of an element, and a kind test with something inside. -/
theorem ofText_exact_keywords :
    (∃ call : FunctionCall, call.IsWritten "name( ancestor :: ancestor-or-self )".toList ∧
      ∀ other : FunctionCall,
        other.IsWritten "name( ancestor :: ancestor-or-self )".toList → other = call) ∧
    ∃ error, ofText "name(text(x))" = .error error ∧ error.code = .syntaxFault := by
  constructor
  · have read : read? "name( ancestor :: ancestor-or-self )".toList = some ⟨.ofLocalPart "name",
        [.step ⟨.ancestor, .name (.ofLocalPart "ancestor-or-self")⟩]⟩ := by
      decide +kernel
    have isWritten := isWritten_of_read? read
    exact ⟨_, isWritten, (ofText_exact _ _).2.2.1 isWritten⟩
  · have unread : read? "name(text(x))".toList = none := by
      decide +kernel
    apply (ofText_exact _ ⟨.ofLocalPart "name", []⟩).2.2.2
    intro written isWritten
    have read := read?_of_isWritten isWritten
    rw [unread] at read
    cases read

end FunctionCall

end NodeNames
