import NodeNames.Proofs.Call.Parser
/-!
# Printing calls

A printed call is one of the texts that the call is written as: white space
stands after every comma and nowhere else, and a literal stands between
apostrophes. So reading it gives the call back. Steps are printed for the eye
only, with a label of the axis that the grammar does not have.
-/

namespace NodeNames

open Token

/-- A name can be written in a call exactly if reading its printed form gives it back. -/
theorem QName.isLexical_iff {name : QName} :
    name.IsLexical ↔ readName name.render.toList = some (name, []) := by
  constructor
  · intro lexical
    have closes : ClosesName [] := ⟨by simp [EndsName], by simp⟩
    simpa using readName_of_isLexical lexical closes
  · intro read
    exact (of_readName read).1

instance (name : QName) : Decidable name.IsLexical :=
  decidable_of_iff _ QName.isLexical_iff.symm

namespace TokensThen

variable {tokens : List String} {text rest : List Char}

/-- A token that stands right at the head of a text. -/
theorem unspaced (token : String) (follows : TokensThen tokens text rest) :
    TokensThen (token :: tokens) (token.toList ++ text) rest := by
  have noSpace : IsBlank [] := by simp [IsBlank]
  exact .cons noSpace follows

/-- A token after one space. -/
theorem spaced (token : String) (follows : TokensThen tokens text rest) :
    TokensThen (token :: tokens) (' ' :: (token.toList ++ text)) rest := by
  have oneSpace : IsBlank [' '] := by simp [IsBlank, isSpace]
  exact .cons oneSpace follows

end TokensThen

namespace Expression

/-- An operand that is printed as it is written in a call. -/
inductive PrintsAsWritten : Expression → Prop where
  | contextNode : PrintsAsWritten contextNode
  | variableReference {name : QName} : name.IsLexical → PrintsAsWritten (variableReference name)
  | literal (value : String) : PrintsAsWritten (literal value)

instance : DecidablePred PrintsAsWritten
  | contextNode => isTrue .contextNode
  | variableReference name =>
      decidable_of_iff name.IsLexical
        ⟨.variableReference, fun (.variableReference lexical) => lexical⟩
  | step _ => isFalse nofun
  | literal value => isTrue (.literal value)

/-- The printed form of an operand is one token, which spells the operand. -/
theorem spelledBy_render {argument : Expression} (prints : argument.PrintsAsWritten) :
    argument.SpelledBy [argument.render] := by
  cases prints with
  | contextNode => exact .contextNode
  | variableReference lexical => exact .variableReference lexical
  | literal value =>
      have isQuoted : render (literal value) = quotedLiteral '\'' value := by
        apply String.toList_injective
        simp [render, quotedLiteral]
      rw [isQuoted]
      exact .literal value (.inl rfl)

end Expression

namespace FunctionCall

/-- A call of lexical names whose operands are printed as they are written. -/
structure PrintsAsWritten (call : FunctionCall) : Prop where
  name : call.name.IsLexical
  arguments : ∀ argument ∈ call.arguments, argument.PrintsAsWritten

instance (call : FunctionCall) : Decidable call.PrintsAsWritten :=
  decidable_of_iff (call.name.IsLexical ∧ ∀ argument ∈ call.arguments, argument.PrintsAsWritten)
    ⟨fun prints => ⟨prints.1, prints.2⟩, fun prints => ⟨prints.name, prints.arguments⟩⟩

theorem toList_intercalate_cons (first : String) (others : List String) :
    (String.intercalate ", " (first :: others)).toList =
      first.toList ++ others.flatMap fun other => ',' :: ' ' :: other.toList := by
  induction others generalizing first with
  | nil => simp
  | cons second rest ih =>
      rw [String.intercalate_cons_cons, String.toList_append, String.toList_append, ih]
      simp

/-- After the first operand, the text goes on with a comma, a space and the next one. -/
theorem exists_further_spelledBy {others : List Expression}
    (prints : ∀ argument ∈ others, argument.PrintsAsWritten) (rest : List Char) :
    ∃ tokens, FurtherSpelledBy others tokens ∧
      TokensThen tokens
        ((others.map Expression.render).flatMap (fun other => ',' :: ' ' :: other.toList) ++ rest)
        rest := by
  induction others with
  | nil => exact ⟨[], .nil, .nil⟩
  | cons argument others ih =>
      rw [List.forall_mem_cons] at prints
      rcases prints with ⟨printsFirst, printsOthers⟩
      rcases ih printsOthers with ⟨further, spelled, stands⟩
      refine ⟨_, .cons (Expression.spelledBy_render printsFirst) spelled, ?_⟩
      have follows := (stands.spaced argument.render).unspaced ","
      simpa using follows

/-- Printed operands stand one after the other, with commas between them. -/
theorem exists_arguments_spelledBy {arguments : List Expression}
    (prints : ∀ argument ∈ arguments, argument.PrintsAsWritten) (rest : List Char) :
    ∃ tokens, ArgumentsSpelledBy arguments tokens ∧
      TokensThen tokens
        ((String.intercalate ", " (arguments.map Expression.render)).toList ++ rest) rest := by
  cases arguments with
  | nil => exact ⟨[], .nil, .nil⟩
  | cons argument others =>
      rw [List.forall_mem_cons] at prints
      rcases prints with ⟨printsFirst, printsOthers⟩
      rcases exists_further_spelledBy printsOthers rest with ⟨further, spelled, stands⟩
      refine ⟨_, .cons (Expression.spelledBy_render printsFirst) spelled, ?_⟩
      rw [List.map_cons, toList_intercalate_cons, List.append_assoc]
      exact stands.unspaced argument.render

/-- The printed form of a call is one of the texts that the call is written as. -/
theorem isWritten_render {call : FunctionCall} (prints : call.PrintsAsWritten) :
    call.IsWritten call.render.toList := by
  rcases call with ⟨name, arguments⟩
  rcases exists_arguments_spelledBy prints.arguments ")".toList with ⟨tokens, spelled, stands⟩
  have closing : TokensThen [")"] ")".toList [] := TokensThen.nil.unspaced ")"
  have whole := ((stands.append closing).unspaced "(").unspaced name.render
  refine ⟨_, [], .intro prints.name spelled, ?_, by simp [IsBlank]⟩
  simpa [render] using whole

/-- Reading a printed call gives the call back, with the qualifiers of its names. -/
theorem ofText_render (call : FunctionCall) (prints : call.PrintsAsWritten) :
    ofText call.render = .ok call := by
  apply ofText_eq_ok_iff.mpr
  exact read?_of_isWritten (isWritten_render prints)

/-- Literals that start and end with delimiters, next to names with qualifiers. -/
theorem ofText_render_literals :
    let call : FunctionCall :=
      ⟨⟨some "fn", "name", none⟩,
        [.literal "'it''s\n(\"é\", ')'", .variableReference ⟨some "p", "v-1", none⟩, .contextNode,
          .literal "'", .literal ""]⟩
    call.PrintsAsWritten ∧
      call.render = "fn:name('''it''''s\n(\"é\", '')''', $p:v-1, ., '''', '')" ∧
      ofText call.render = .ok call := by
  intro call
  have prints : call.PrintsAsWritten := by decide +kernel
  exact ⟨prints, by decide +kernel, ofText_render call prints⟩

/-- The label of an axis in a printed step is none of the keywords that calls have. -/
example : read? (render ⟨.ofLocalPart "name", [.step ⟨.child, .wildcard⟩]⟩).toList = none := by
  decide +kernel

end FunctionCall

end NodeNames
