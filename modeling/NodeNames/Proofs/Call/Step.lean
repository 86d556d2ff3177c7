import NodeNames.Call.Reader
import NodeNames.Proofs.Call.Token
/-!
# Reading steps

What the reader of a test or a step takes from a text after white space is
spelled by the tokens that stand there. The other way round, it finds what
tokens spell where an operand ends, which is before a comma or a closing
parenthesis: there no name reads as a kind test and no test as an axis.
-/

namespace NodeNames

open Token

variable {source text rest : List Char}

/-- A text that goes on, after white space, with what can follow an operand. -/
def EndsOperand (text : List Char) : Prop :=
  ∃ first remainder, skipSpace text = first :: remainder ∧ (first = ',' ∨ first = ')')

theorem EndsOperand.endsName (ends : EndsOperand text) : EndsName text := by
  rcases ends with ⟨first, remainder, skipped, rfl | rfl⟩
  · exact endsName_of_skipSpace skipped (by decide)
  · exact endsName_of_skipSpace skipped (by decide)

theorem EndsOperand.head?_ne (ends : EndsOperand text) {character : Char}
    (solid : isSpace character = false) (other : character ≠ ',' ∧ character ≠ ')') :
    text.head? ≠ some character := by
  intro isHead
  cases text with
  | nil => cases isHead
  | cons head tail =>
      cases isHead
      rcases ends with ⟨first, remainder, skipped, isEnd⟩
      rw [skipSpace_of_solid solid] at skipped
      cases skipped
      rcases isEnd with rfl | rfl
      · exact other.1 rfl
      · exact other.2 rfl

theorem EndsOperand.closesName (ends : EndsOperand text) : ClosesName text :=
  ⟨ends.endsName, ends.head?_ne (by decide) (by decide)⟩

namespace NodeTest

theorem spelledBy_of_mem_kindWords : ∀ entry ∈ kindWords,
    entry.2.SpelledBy [entry.1, "(", ")"] := by
  intro entry isWord
  simp only [kindWords, List.mem_cons, List.not_mem_nil, or_false] at isWord
  rcases isWord with rfl | rfl | rfl | rfl
  · exact .anyNode
  · exact .text
  · exact .comment
  · exact .processingInstruction

theorem isNameCharacter_of_mem_kindWords {entry : String × NodeTest}
    (isWord : entry ∈ kindWords) :
    ∀ character ∈ entry.1.toList, isNameCharacter character = true := by
  have whole : kindWords.all (fun entry => entry.1.toList.all isNameCharacter) = true := rfl
  exact List.all_eq_true.mp (List.all_eq_true.mp whole entry isWord)

theorem isSolid_of_mem_kindWords : ∀ entry ∈ kindWords, IsSolid entry.1 := by
  intro entry isWord
  simp only [kindWords, List.mem_cons, List.not_mem_nil, or_false] at isWord
  rcases isWord with rfl | rfl | rfl | rfl <;> exact ⟨_, _, rfl, rfl⟩

/-- The forms of a test: a kind test, a wildcard and a name. -/
theorem SpelledBy.forms {test : NodeTest} {tokens : List String} (spelled : test.SpelledBy tokens) :
    (∃ word, (word, test) ∈ kindWords ∧ tokens = [word, "(", ")"]) ∨
      (test = .wildcard ∧ tokens = ["*"]) ∨
      ∃ tested, test = .name tested ∧ tested.IsLexical ∧ tokens = [tested.render] := by
  cases spelled with
  | wildcard => exact .inr (.inl ⟨rfl, rfl⟩)
  | name lexical => exact .inr (.inr ⟨_, rfl, lexical, rfl⟩)
  | anyNode | text | comment | processingInstruction =>
      exact .inl ⟨_, by decide, rfl⟩

theorem readKind_of_mem {word : String} {test : NodeTest} (isWord : (word, test) ∈ kindWords)
    (stands : TokensThen ["(", ")"] text rest) :
    readKind (word.toList ++ text) = some (test, rest) := by
  rcases stands.skipSpace_eq ⟨_, _, rfl, rfl⟩ with ⟨inner, opened, stands⟩
  rcases stands.skipSpace_eq ⟨_, _, rfl, rfl⟩ with ⟨final, closed, stands⟩
  cases stands
  unfold readKind
  rw [readKindWord_of_mem _ isWord]
  simp [opened, closed]

theorem of_readKind {test : NodeTest} (read : readKind (skipSpace source) = some (test, rest)) :
    ∃ tokens, test.SpelledBy tokens ∧ TokensThen tokens source rest := by
  unfold readKind at read
  cases opening : readKindWord (skipSpace source) with
  | none => simp [opening] at read
  | some found =>
      rcases found with ⟨other, afterWord⟩
      rcases of_readKindWord opening with ⟨word, isWord, skipped⟩
      simp only [opening] at read
      split at read
      · rename_i inner opened
        split at read
        · rename_i final closed
          cases read
          refine ⟨_, spelledBy_of_mem_kindWords _ isWord, .of_skipSpace skipped ?_⟩
          exact .of_skipSpace opened (.of_skipSpace closed .nil)
        · cases read
      · cases read

theorem mem_render {name : QName} (lexical : name.IsLexical) {character : Char}
    (isInside : character ∈ name.render.toList) :
    isNameCharacter character = true ∨ character = ':' := by
  rcases lexical.render_eq with ⟨first, remainder, isText, starts, goOn⟩
  rw [isText] at isInside
  rcases List.mem_cons.mp isInside with rfl | isLater
  · exact .inl (isNameCharacter_of_isNameStart starts)
  · exact goOn character isLater

/-- The word of a kind test at the head of a name opens no kind test. -/
theorem readKind_render {name : QName} (lexical : name.IsLexical) (ends : EndsOperand rest) :
    readKind (name.render.toList ++ rest) = none := by
  unfold readKind
  cases opening : readKindWord (name.render.toList ++ rest) with
  | none => rfl
  | some found =>
      rcases found with ⟨test, afterWord⟩
      rcases of_readKindWord opening with ⟨word, isWord, same⟩
      have noParenthesis (inner : List Char) : skipSpace afterWord ≠ '(' :: inner := by
        intro opened
        rcases List.append_eq_append_iff.mp same with
          ⟨beyond, isLonger, rfl⟩ | ⟨remainder, isShorter, rfl⟩
        · -- the word does not go past the end of the name
          cases beyond with
          | nil =>
              rcases ends with ⟨first, remainder, skipped, rfl | rfl⟩ <;> simp_all
          | cons first others =>
              have goesOn := isNameCharacter_of_mem_kindWords isWord first (by simp [isLonger])
              exact absurd goesOn (by simp [ends.endsName first rfl])
        · cases remainder with
          | nil =>
              rcases ends with ⟨first, remainder, skipped, rfl | rfl⟩ <;> simp_all
          | cons first others =>
              have solid : isSpace first = false ∧ first ≠ '(' := by
                rcases mem_render lexical (by simp [isShorter] : first ∈ name.render.toList) with
                  goesOn | rfl
                · refine ⟨isSpace_of_isNameCharacter goesOn, ?_⟩
                  rintro rfl
                  exact absurd goesOn (by decide)
                · decide
              rw [List.cons_append, skipSpace_of_solid solid.1] at opened
              exact solid.2 (List.cons.inj opened).1
      dsimp only
      split
      · rename_i inner opened
        exact absurd opened (noParenthesis inner)
      · rfl

theorem read_of_spelledBy {test : NodeTest} {tokens : List String}
    (spelled : test.SpelledBy tokens) (stands : TokensThen tokens source rest)
    (ends : EndsOperand rest) : NodeTest.read (skipSpace source) = some (test, rest) := by
  unfold NodeTest.read
  rcases spelled.forms with ⟨word, isWord, rfl⟩ | ⟨rfl, rfl⟩ | ⟨tested, rfl, lexical, rfl⟩
  · rcases stands.skipSpace_eq (isSolid_of_mem_kindWords _ isWord) with ⟨text, skipped, stands⟩
    rw [skipped, readKind_of_mem isWord stands]
  · rcases stands.skipSpace_eq ⟨_, _, rfl, rfl⟩ with ⟨text, skipped, stands⟩
    cases stands
    rw [skipped]
    rfl
  · rcases stands.skipSpace_eq lexical.isSolid with ⟨text, skipped, stands⟩
    cases stands
    rcases lexical.render_eq with ⟨first, remainder, isText, starts, _⟩
    have notStar : first ≠ '*' := by
      rintro rfl
      exact absurd starts (by decide)
    rw [skipped, readKind_render lexical ends, readName_of_isLexical lexical ends.closesName]
    simp [isText, notStar]

theorem of_read {test : NodeTest} (read : NodeTest.read (skipSpace source) = some (test, rest)) :
    ∃ tokens, test.SpelledBy tokens ∧ TokensThen tokens source rest := by
  unfold NodeTest.read at read
  split at read
  · rename_i kindTest
    exact of_readKind (kindTest.trans read)
  · rename_i starred
    cases read
    exact ⟨_, .wildcard, .of_skipSpace starred .nil⟩
  · rcases Option.map_eq_some_iff.mp read with ⟨⟨tested, final⟩, readTested, same⟩
    cases same
    rcases of_readName readTested with ⟨lexical, skipped⟩
    exact ⟨_, .name lexical, .of_skipSpace skipped .nil⟩

end NodeTest

namespace Axis

theorem of_readSelector {axis : Axis} (read : readSelector text = some (axis, rest)) :
    ∃ afterName, text = axis.keyword.toList ++ afterName ∧ EndsName afterName ∧
      skipSpace afterName = ':' :: ':' :: rest := by
  unfold readSelector at read
  cases named : readAxis text with
  | none => simp [named] at read
  | some found =>
      rcases found with ⟨other, afterName⟩
      simp only [named] at read
      split at read
      · rename_i final colons
        cases read
        rcases of_readAxis named with ⟨whole, ends⟩
        exact ⟨afterName, whole, ends, colons⟩
      · cases read

theorem readSelector_keyword (axis : Axis) {tokens : List String}
    (stands : TokensThen ("::" :: tokens) text rest) :
    ∃ afterColons, readSelector (axis.keyword.toList ++ text) = some (axis, afterColons) ∧
      TokensThen tokens afterColons rest := by
  rcases stands.skipSpace_eq ⟨_, _, rfl, rfl⟩ with ⟨afterColons, skipped, stands⟩
  refine ⟨afterColons, ?_, stands⟩
  unfold readSelector
  rw [readAxis_keyword axis (endsName_of_skipSpace skipped (by decide))]
  simp [skipped]

theorem eq_of_append_eq {word other final : List Char}
    (inside : ∀ character ∈ word, isNameCharacter character = true)
    (otherInside : ∀ character ∈ other, isNameCharacter character = true)
    (ends : EndsName rest) (otherEnds : EndsName final) (same : word ++ rest = other ++ final) :
    rest = final := by
  rw [← dropWhile_append_of_endsName inside ends, same,
    dropWhile_append_of_endsName otherInside otherEnds]

/-- A word before anything but two colons does not select an axis, whatever the word is. -/
theorem readSelector_of_word {word : List Char}
    (inside : ∀ character ∈ word, isNameCharacter character = true) (ends : EndsName rest)
    (noColons : ∀ final, skipSpace rest ≠ ':' :: ':' :: final) :
    readSelector (word ++ rest) = none := by
  cases read : readSelector (word ++ rest) with
  | none => rfl
  | some found =>
      rcases found with ⟨axis, final⟩
      rcases of_readSelector read with ⟨afterName, whole, otherEnds, colons⟩
      have same := eq_of_append_eq inside (isNameCharacter_of_mem_keyword axis) ends
        otherEnds whole
      exact absurd (same ▸ colons) (noColons final)

theorem EndsOperand.no_colons (ends : EndsOperand text) (final : List Char) :
    skipSpace text ≠ ':' :: ':' :: final := by
  rcases ends with ⟨first, remainder, skipped, rfl | rfl⟩ <;> simp [skipped]

theorem readSelector_render {name : QName} (lexical : name.IsLexical) (ends : EndsOperand rest) :
    readSelector (name.render.toList ++ rest) = none := by
  rcases name with ⟨_ | qualifier, localPart, uri⟩
  · exact readSelector_of_word (fun _ => isNameCharacter_of_mem lexical.localPart) ends.endsName
      (EndsOperand.no_colons ends)
  · have whole : (QName.render ⟨some qualifier, localPart, uri⟩).toList ++ rest =
        qualifier.toList ++ ':' :: (localPart.toList ++ rest) := by
      simp [QName.render]
    rw [whole]
    apply readSelector_of_word (fun _ => isNameCharacter_of_mem (lexical.qualifier qualifier rfl))
      (endsName_colon _)
    intro final colons
    rcases lexical.localPart with ⟨first, others, isText, starts, _⟩
    rw [skipSpace_of_solid (by decide), isText] at colons
    simp only [List.cons_append, List.cons.injEq, true_and] at colons
    rw [colons.1] at starts
    exact absurd starts (by decide)

/-- No test reads as the name of an axis before two colons. -/
theorem readSelector_test {test : NodeTest} {tokens : List String}
    (spelled : test.SpelledBy tokens) (stands : TokensThen tokens source rest)
    (ends : EndsOperand rest) : readSelector (skipSpace source) = none := by
  rcases spelled.forms with ⟨word, isWord, rfl⟩ | ⟨rfl, rfl⟩ | ⟨tested, rfl, lexical, rfl⟩
  · rcases stands.skipSpace_eq (NodeTest.isSolid_of_mem_kindWords _ isWord) with
      ⟨text, skipped, stands⟩
    rcases stands.skipSpace_eq ⟨_, _, rfl, rfl⟩ with ⟨inner, opened, _⟩
    rw [skipped]
    apply readSelector_of_word (NodeTest.isNameCharacter_of_mem_kindWords isWord)
      (endsName_of_skipSpace opened (by decide))
    intro final
    simp [opened]
  · rcases stands.skipSpace_eq ⟨_, _, rfl, rfl⟩ with ⟨text, skipped, _⟩
    rw [skipped]
    have ends : EndsName ('*' :: text) := by
      rintro first ⟨rfl⟩
      decide
    apply readSelector_of_word (by simp : ∀ character ∈ ([] : List Char), _) ends
    intro final
    simp [skipSpace_of_solid (by decide : isSpace '*' = false)]
  · rcases stands.skipSpace_eq lexical.isSolid with ⟨text, skipped, stands⟩
    cases stands
    rw [skipped]
    exact readSelector_render lexical ends

end Axis

namespace Step

/-- The characters with which a step can start. -/
def IsStart (character : Char) : Prop :=
  character = '@' ∨ character = '*' ∨ isNameStart character = true

theorem read_of_selected {axis : Axis} {afterColons : List Char}
    (selected : Axis.readSelector text = some (axis, afterColons)) :
    Step.read text = (NodeTest.read (skipSpace afterColons)).map fun read =>
      (⟨axis, read.1⟩, read.2) := by
  unfold Step.read
  split
  · rcases Axis.of_readSelector selected with ⟨_, whole, _⟩
    have starts := congrArg List.head? whole
    cases axis <;> cases starts
  · rw [selected]

theorem read_of_unselected (noSign : text.head? ≠ some '@')
    (unselected : Axis.readSelector text = none) :
    Step.read text = (NodeTest.read text).map fun read => (⟨.child, read.1⟩, read.2) := by
  unfold Step.read
  split
  · exact absurd rfl noSign
  · rw [unselected]

theorem head_of_test {test : NodeTest} {tokens : List String} (spelled : test.SpelledBy tokens)
    (stands : TokensThen tokens source rest) :
    ∃ first remainder, skipSpace source = first :: remainder ∧
      (first = '*' ∨ isNameStart first = true) := by
  rcases spelled.forms with ⟨word, isWord, rfl⟩ | ⟨rfl, rfl⟩ | ⟨tested, rfl, lexical, rfl⟩
  · simp only [kindWords, List.mem_cons, List.not_mem_nil, or_false, Prod.mk.injEq] at isWord
    rcases isWord with ⟨rfl, _⟩ | ⟨rfl, _⟩ | ⟨rfl, _⟩ | ⟨rfl, _⟩ <;>
    · rcases stands.skipSpace_eq ⟨_, _, rfl, rfl⟩ with ⟨text, skipped, _⟩
      exact ⟨_, _, skipped, .inr (by decide)⟩
  · rcases stands.skipSpace_eq ⟨_, _, rfl, rfl⟩ with ⟨text, skipped, _⟩
    exact ⟨'*', text, skipped, .inl rfl⟩
  · rcases stands.skipSpace_eq lexical.isSolid with ⟨text, skipped, _⟩
    rcases lexical.render_eq with ⟨first, remainder, isText, starts, _⟩
    rw [isText] at skipped
    exact ⟨first, _, skipped, .inr starts⟩

theorem head_of_spelledBy {step : Step} {tokens : List String} (spelled : step.SpelledBy tokens)
    (stands : TokensThen tokens source rest) :
    ∃ first remainder, skipSpace source = first :: remainder ∧ IsStart first := by
  cases spelled with
  | attributeSign _ =>
      rcases stands.skipSpace_eq ⟨_, _, rfl, rfl⟩ with ⟨text, skipped, _⟩
      exact ⟨'@', text, skipped, .inl rfl⟩
  | axis axis _ =>
      cases axis <;>
      · rcases stands.skipSpace_eq ⟨_, _, rfl, rfl⟩ with ⟨text, skipped, _⟩
        exact ⟨_, _, skipped, .inr (.inr (by decide))⟩
  | child spelled =>
      rcases head_of_test spelled stands with ⟨first, remainder, skipped, starts⟩
      exact ⟨first, remainder, skipped, .inr starts⟩

theorem isSolid_keyword (axis : Axis) : IsSolid axis.keyword := by
  cases axis <;> exact ⟨_, _, rfl, rfl⟩

theorem read_of_spelledBy {step : Step} {tokens : List String} (spelled : step.SpelledBy tokens)
    (stands : TokensThen tokens source rest) (ends : EndsOperand rest) :
    Step.read (skipSpace source) = some (step, rest) := by
  cases spelled with
  | attributeSign spelled =>
      rcases stands.skipSpace_eq ⟨_, _, rfl, rfl⟩ with ⟨text, skipped, stands⟩
      have read := NodeTest.read_of_spelledBy spelled stands ends
      rw [skipped]
      exact congrArg (Option.map _) read
  | axis axis spelled =>
      rcases stands.skipSpace_eq (isSolid_keyword axis) with ⟨text, skipped, stands⟩
      rcases axis.readSelector_keyword stands with ⟨afterColons, selected, stands⟩
      rw [skipped, read_of_selected selected, NodeTest.read_of_spelledBy spelled stands ends]
      rfl
  | child spelled =>
      have noSign : (skipSpace source).head? ≠ some '@' := by
        rcases head_of_test spelled stands with ⟨first, remainder, skipped, starts⟩
        rw [skipped]
        rintro ⟨rfl⟩
        rcases starts with isStar | starts
        · cases isStar
        · exact absurd starts (by decide)
      rw [read_of_unselected noSign (Axis.readSelector_test spelled stands ends),
        NodeTest.read_of_spelledBy spelled stands ends]
      rfl

theorem of_read {step : Step} (read : Step.read (skipSpace source) = some (step, rest)) :
    ∃ tokens, step.SpelledBy tokens ∧ TokensThen tokens source rest := by
  unfold Step.read at read
  split at read
  · rename_i afterSign signed
    rcases Option.map_eq_some_iff.mp read with ⟨⟨test, final⟩, readTest, same⟩
    cases same
    rcases NodeTest.of_read readTest with ⟨tokens, spelled, stands⟩
    exact ⟨_, .attributeSign spelled, .of_skipSpace signed stands⟩
  · rcases Option.map_eq_some_iff.mp read with ⟨⟨test, final⟩, readTest, same⟩
    cases same
    cases selected : Axis.readSelector (skipSpace source) with
    | none =>
        simp only [selected] at readTest ⊢
        rcases NodeTest.of_read readTest with ⟨tokens, spelled, stands⟩
        exact ⟨tokens, .child spelled, stands⟩
    | some found =>
        rcases found with ⟨axis, afterColons⟩
        simp only [selected] at readTest ⊢
        rcases NodeTest.of_read readTest with ⟨tokens, spelled, stands⟩
        rcases Axis.of_readSelector selected with ⟨afterName, skipped, _, colons⟩
        exact ⟨_, .axis axis spelled, .of_skipSpace skipped (.of_skipSpace colons stands)⟩

end Step

end NodeNames
