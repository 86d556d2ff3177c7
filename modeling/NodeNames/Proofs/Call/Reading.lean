import NodeNames.Proofs.Call.Step
/-!
# Reading calls

A call is read from exactly the texts that it is written as. Its operands are
read one by one, and after each of them the rest of the text shows where it has
ended.
-/

namespace NodeNames

open Token

variable {source text rest : List Char}

namespace Expression

theorem read_of_isStart {first : Char} (starts : Step.IsStart first) (text : List Char) :
    Expression.read (first :: text) =
      (Step.read (first :: text)).map fun read => (step read.1, read.2) := by
  have other : first ≠ '.' ∧ first ≠ '$' ∧ first ≠ '\'' ∧ first ≠ '"' := by
    refine ⟨?_, ?_, ?_, ?_⟩ <;>
    · rintro rfl
      rcases starts with isSign | isStar | starts
      · cases isSign
      · cases isStar
      · exact absurd starts (by decide)
  unfold Expression.read
  split <;> simp_all

theorem read_of_spelledBy {argument : Expression} {tokens : List String}
    (spelled : argument.SpelledBy tokens) (stands : TokensThen tokens source rest)
    (ends : EndsOperand rest) : Expression.read (skipSpace source) = some (argument, rest) := by
  cases spelled with
  | contextNode =>
      rcases stands.skipSpace_eq ⟨_, _, rfl, rfl⟩ with ⟨text, skipped, stands⟩
      cases stands
      rw [skipped]
      rfl
  | @variableReference name lexical =>
      have isText : ("$" ++ name.render).toList = '$' :: name.render.toList := by simp
      rcases stands.skipSpace_eq ⟨_, _, isText, rfl⟩ with ⟨text, skipped, stands⟩
      cases stands
      have read := readName_of_isLexical lexical ends.closesName
      rw [skipped, isText, List.cons_append]
      exact congrArg (Option.map _) read
  | step spelled =>
      have read := Step.read_of_spelledBy spelled stands ends
      rcases Step.head_of_spelledBy spelled stands with ⟨first, remainder, skipped, starts⟩
      rw [skipped] at read ⊢
      rw [read_of_isStart starts, read]
      rfl
  | @literal delimiter value isDelimiter =>
      have solid : isSpace delimiter = false ∧ delimiter ≠ ',' ∧ delimiter ≠ ')' := by
        rcases isDelimiter with rfl | rfl <;> decide
      have isText : (quotedLiteral delimiter value).toList =
          delimiter :: (doubleDelimiter delimiter value.toList ++ [delimiter]) := by
        simp [quotedLiteral]
      rcases stands.skipSpace_eq ⟨_, _, isText, solid.1⟩ with ⟨text, skipped, stands⟩
      cases stands
      have read := @readLiteral_quotedLiteral delimiter rest value isDelimiter
        (ends.head?_ne solid.1 solid.2)
      rw [skipped, isText]
      rw [isText] at read
      rcases isDelimiter with rfl | rfl
      · exact congrArg (Option.map _) read
      · exact congrArg (Option.map _) read

theorem of_read {argument : Expression}
    (read : Expression.read (skipSpace source) = some (argument, rest)) :
    ∃ tokens, argument.SpelledBy tokens ∧ TokensThen tokens source rest := by
  unfold Expression.read at read
  split at read
  · rename_i skipped
    cases read
    exact ⟨_, .contextNode, .of_skipSpace skipped .nil⟩
  · rename_i text skipped
    rcases Option.map_eq_some_iff.mp read with ⟨⟨name, final⟩, readName, same⟩
    cases same
    rcases of_readName readName with ⟨lexical, rfl⟩
    refine ⟨_, .variableReference lexical, .of_skipSpace ?_ .nil⟩
    simp [skipped]
  all_goals
    rcases Option.map_eq_some_iff.mp read with ⟨⟨found, final⟩, readFound, same⟩
    cases same
  · rcases of_readLiteral readFound with ⟨delimiter, isDelimiter, whole⟩
    exact ⟨_, .literal _ isDelimiter, .of_skipSpace whole .nil⟩
  · rcases of_readLiteral readFound with ⟨delimiter, isDelimiter, whole⟩
    exact ⟨_, .literal _ isDelimiter, .of_skipSpace whole .nil⟩
  · rcases Step.of_read readFound with ⟨tokens, spelled, stands⟩
    exact ⟨tokens, .step spelled, stands⟩

end Expression

namespace FunctionCall

/-- What follows an operand in a call starts with a comma or is the closing parenthesis. -/
theorem endsOperand_of_further {others : List Expression} {tokens : List String}
    (spelled : FurtherSpelledBy others tokens)
    (stands : TokensThen (tokens ++ [")"]) text rest) : EndsOperand text := by
  cases spelled with
  | nil =>
      rcases stands.skipSpace_eq ⟨_, _, rfl, rfl⟩ with ⟨final, skipped, _⟩
      exact ⟨')', final, skipped, .inr rfl⟩
  | cons _ _ =>
      rcases stands.skipSpace_eq ⟨_, _, rfl, rfl⟩ with ⟨final, skipped, _⟩
      exact ⟨',', final, skipped, .inl rfl⟩

theorem readFurther_of_spelledBy {others : List Expression} {tokens : List String}
    (spelled : FurtherSpelledBy others tokens) (stands : TokensThen (tokens ++ [")"]) source rest) :
    readFurther source = some (others, rest) := by
  induction spelled generalizing source with
  | nil =>
      rcases stands.skipSpace_eq ⟨_, _, rfl, rfl⟩ with ⟨final, skipped, stands⟩
      cases stands
      rw [readFurther]
      split <;> simp_all
  | @cons argument others tokens further spelled further ih =>
      rw [List.cons_append, List.append_assoc] at stands
      rcases stands.skipSpace_eq ⟨_, _, rfl, rfl⟩ with ⟨text, skipped, stands⟩
      rcases stands.split with ⟨afterArgument, stands, follows⟩
      have read := Expression.read_of_spelledBy spelled stands
        (endsOperand_of_further further follows)
      rw [readFurther]
      split
      · simp_all
      · rename_i afterComma comma
        obtain rfl : text = afterComma := (List.cons.inj (skipped.symm.trans comma)).2
        split
        · simp_all
        · rename_i other afterOther readOther
          rw [read] at readOther
          cases readOther
          simp [ih follows]
      · simp_all

theorem of_readFurther {others : List Expression} (read : readFurther source = some (others, rest)) :
    ∃ tokens, FurtherSpelledBy others tokens ∧ TokensThen (tokens ++ [")"]) source rest := by
  fun_induction readFurther source generalizing others with
  | case1 source final closed =>
      cases read
      exact ⟨[], .nil, .of_skipSpace closed .nil⟩
  | case2 => cases read
  | case3 source afterComma comma argument afterArgument readArgument _ ih =>
      rcases Option.map_eq_some_iff.mp read with ⟨⟨found, final⟩, readRest, same⟩
      cases same
      rcases Expression.of_read readArgument with ⟨tokens, spelled, stands⟩
      rcases ih readRest with ⟨further, furtherSpelled, follows⟩
      refine ⟨_, .cons spelled furtherSpelled, ?_⟩
      rw [List.cons_append, List.append_assoc]
      exact .of_skipSpace comma (stands.append follows)
  | case4 => cases read

theorem readArguments_of_spelledBy {arguments : List Expression} {tokens : List String}
    (spelled : ArgumentsSpelledBy arguments tokens)
    (stands : TokensThen (tokens ++ [")"]) source rest) :
    readArguments source = some (arguments, rest) := by
  unfold readArguments
  cases spelled with
  | nil =>
      rcases stands.skipSpace_eq ⟨_, _, rfl, rfl⟩ with ⟨final, skipped, stands⟩
      cases stands
      rw [skipped]
      rfl
  | cons spelled further =>
      rw [List.append_assoc] at stands
      rcases stands.split with ⟨afterArgument, stands, follows⟩
      have read := Expression.read_of_spelledBy spelled stands
        (endsOperand_of_further further follows)
      split
      · rename_i final closed
        rw [closed] at read
        cases read
      · simp [read, readFurther_of_spelledBy further follows]

theorem of_readArguments {arguments : List Expression}
    (read : readArguments source = some (arguments, rest)) :
    ∃ tokens, ArgumentsSpelledBy arguments tokens ∧ TokensThen (tokens ++ [")"]) source rest := by
  unfold readArguments at read
  split at read
  · rename_i final closed
    cases read
    exact ⟨[], .nil, .of_skipSpace closed .nil⟩
  · cases readFirst : Expression.read (skipSpace source) with
    | none => simp [readFirst] at read
    | some found =>
        rcases found with ⟨argument, afterArgument⟩
        simp only [readFirst] at read
        rcases Option.map_eq_some_iff.mp read with ⟨⟨others, final⟩, readRest, same⟩
        cases same
        rcases Expression.of_read readFirst with ⟨tokens, spelled, stands⟩
        rcases of_readFurther readRest with ⟨further, furtherSpelled, follows⟩
        refine ⟨_, .cons spelled furtherSpelled, ?_⟩
        rw [List.append_assoc]
        exact stands.append follows

theorem read?_of_isWritten {call : FunctionCall} (written : call.IsWritten source) :
    read? source = some call := by
  rcases written with ⟨_, rest, ⟨lexical, spelled⟩, stands, isBlank⟩
  rcases stands.skipSpace_eq lexical.isSolid with ⟨text, skipped, stands⟩
  rcases stands.skipSpace_eq ⟨_, _, rfl, rfl⟩ with ⟨inner, opened, stands⟩
  have closes : ClosesName text := by
    refine ⟨endsName_of_skipSpace opened (by decide), ?_⟩
    cases text with
    | nil => simp
    | cons first tail =>
        rintro ⟨rfl⟩
        rw [skipSpace_of_solid (by decide)] at opened
        cases opened
  unfold read?
  rw [skipped, readName_of_isLexical lexical closes]
  simp [opened, readArguments_of_spelledBy spelled stands, skipSpace_eq_nil_iff.mpr isBlank]

theorem isWritten_of_read? {call : FunctionCall} (read : read? source = some call) :
    call.IsWritten source := by
  unfold read? at read
  cases named : readName (skipSpace source) with
  | none => simp [named] at read
  | some found =>
      rcases found with ⟨name, afterName⟩
      rcases of_readName named with ⟨lexical, skipped⟩
      simp only [named] at read
      split at read
      · rename_i inner opened
        cases operands : readArguments inner with
        | none => simp [operands] at read
        | some found =>
            rcases found with ⟨arguments, rest⟩
            simp only [operands] at read
            split_ifs at read with atEnd
            cases read
            rcases of_readArguments operands with ⟨tokens, spelled, stands⟩
            exact ⟨_, rest, ⟨lexical, spelled⟩,
              .of_skipSpace skipped (.of_skipSpace opened stands), skipSpace_eq_nil_iff.mp atEnd⟩
      · cases read

/-- A call is read from exactly the texts that it is written as. -/
theorem read?_eq_some_iff {call : FunctionCall} :
    read? source = some call ↔ call.IsWritten source :=
  ⟨isWritten_of_read?, read?_of_isWritten⟩

end FunctionCall

end NodeNames
