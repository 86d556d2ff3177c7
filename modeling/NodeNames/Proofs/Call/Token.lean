import Mathlib.Data.List.TakeWhile
import NodeNames.Proofs.Call.Grammar
/-!
# Reading tokens

Each reader of a token takes the token from the head of a text exactly when the
text goes on with something that cannot belong to the token.
-/

namespace NodeNames

open Token

section Spaces

variable {token : String} {tokens others : List String} {text rest final : List Char}

theorem isBlank_takeWhile (text : List Char) : IsBlank (text.takeWhile isSpace) :=
  fun _ isFirst => List.mem_takeWhile_imp isFirst

theorem skipSpace_append {blank : List Char} (isBlank : IsBlank blank) (text : List Char) :
    skipSpace (blank ++ text) = skipSpace text :=
  List.dropWhile_append_of_pos isBlank

theorem skipSpace_of_solid {first : Char} (solid : isSpace first = false) (text : List Char) :
    skipSpace (first :: text) = first :: text :=
  List.dropWhile_cons_of_neg (by simp [solid])

theorem skipSpace_eq_nil_iff : skipSpace text = [] ↔ IsBlank text :=
  List.dropWhile_eq_nil_iff

/-- A token that can be told from the white space before it. -/
def IsSolid (token : String) : Prop :=
  ∃ first remainder, token.toList = first :: remainder ∧ isSpace first = false

theorem TokensThen.of_skipSpace (skipped : skipSpace text = token.toList ++ rest)
    (follows : TokensThen tokens rest final) : TokensThen (token :: tokens) text final := by
  have whole : text = text.takeWhile isSpace ++ (token.toList ++ rest) := by
    rw [← skipped, skipSpace, List.takeWhile_append_dropWhile]
  rw [whole]
  exact .cons (isBlank_takeWhile text) follows

theorem TokensThen.skipSpace_eq (solid : IsSolid token)
    (stands : TokensThen (token :: tokens) text final) :
    ∃ rest, skipSpace text = token.toList ++ rest ∧ TokensThen tokens rest final := by
  rcases stands with _ | ⟨isBlank, follows⟩
  rcases solid with ⟨first, remainder, isToken, notSpace⟩
  refine ⟨_, ?_, follows⟩
  rw [skipSpace_append isBlank, isToken]
  exact skipSpace_of_solid notSpace _

theorem TokensThen.append (stand : TokensThen tokens text rest)
    (follow : TokensThen others rest final) : TokensThen (tokens ++ others) text final := by
  induction stand with
  | nil => exact follow
  | cons isBlank _ ih => exact .cons isBlank (ih follow)

theorem TokensThen.split (stand : TokensThen (tokens ++ others) text final) :
    ∃ rest, TokensThen tokens text rest ∧ TokensThen others rest final := by
  induction tokens generalizing text with
  | nil => exact ⟨text, .nil, stand⟩
  | cons token tokens ih =>
      rcases stand with _ | ⟨isBlank, follows⟩
      rcases ih follows with ⟨rest, stand, follow⟩
      exact ⟨rest, .cons isBlank stand, follow⟩

end Spaces

section Names

variable {text rest : List Char}

/-- A text that does not go on with a character of a name. -/
def EndsName (text : List Char) : Prop :=
  ∀ first, text.head? = some first → isNameCharacter first = false

theorem isNameCharacter_of_isNameStart {character : Char}
    (starts : isNameStart character = true) : isNameCharacter character = true := by
  simp only [isNameStart, isNameCharacter, Char.isAlphanum, Bool.or_eq_true] at starts ⊢
  rcases starts with isLetter | isUnderscore
  · exact .inl (.inl (.inl (.inl isLetter)))
  · exact .inl (.inl (.inr isUnderscore))

theorem isSpace_of_isNameCharacter {character : Char}
    (goesOn : isNameCharacter character = true) : isSpace character = false := by
  by_contra spaced
  rw [Bool.not_eq_false] at spaced
  simp only [isSpace, Bool.or_eq_true, decide_eq_true_eq] at spaced
  rcases spaced with ((rfl | rfl) | rfl) | rfl <;> revert goesOn <;> decide

/-- What stands after white space cannot belong to a name before it. -/
theorem endsName_of_skipSpace {first : Char} (skipped : skipSpace text = first :: rest)
    (endsName : isNameCharacter first = false) : EndsName text := by
  intro head isHead
  cases text with
  | nil => cases isHead
  | cons other tail =>
      cases isHead
      by_contra goesOn
      rw [Bool.not_eq_false] at goesOn
      rw [skipSpace_of_solid (isSpace_of_isNameCharacter goesOn)] at skipped
      cases skipped
      exact absurd goesOn (by simp [endsName])

theorem takeWhile_append_of_endsName {word : List Char}
    (inside : ∀ character ∈ word, isNameCharacter character = true) (ends : EndsName rest) :
    (word ++ rest).takeWhile isNameCharacter = word := by
  rw [List.takeWhile_append_of_pos inside]
  cases rest with
  | nil => simp
  | cons first tail => simp [ends first rfl]

theorem dropWhile_append_of_endsName {word : List Char}
    (inside : ∀ character ∈ word, isNameCharacter character = true) (ends : EndsName rest) :
    (word ++ rest).dropWhile isNameCharacter = rest := by
  rw [List.dropWhile_append_of_pos inside]
  cases rest with
  | nil => simp
  | cons first tail => simp [ends first rfl]

theorem endsName_dropWhile (text : List Char) :
    EndsName (text.dropWhile isNameCharacter) := by
  intro first isFirst
  have stops := List.head?_dropWhile_not isNameCharacter text
  rw [isFirst] at stops
  simpa using stops

theorem isNameCharacter_of_mem {part : String} (isPart : IsNamePart part) {character : Char}
    (isInside : character ∈ part.toList) : isNameCharacter character = true := by
  rcases isPart with ⟨first, others, isText, starts, goOn⟩
  rw [isText] at isInside
  rcases List.mem_cons.mp isInside with rfl | isLater
  · exact isNameCharacter_of_isNameStart starts
  · exact goOn character isLater

theorem readPart_of_isNamePart {part : String} (isPart : IsNamePart part)
    (ends : EndsName rest) : readPart (part.toList ++ rest) = some (part.toList, rest) := by
  rcases isPart with ⟨first, others, isText, starts, goOn⟩
  simp only [isText, List.cons_append, readPart, if_pos starts,
    takeWhile_append_of_endsName goOn ends, dropWhile_append_of_endsName goOn ends]

theorem of_readPart {part : List Char} (read : readPart text = some (part, rest)) :
    IsNamePart (String.ofList part) ∧ text = part ++ rest ∧ EndsName rest := by
  cases text with
  | nil => cases read
  | cons first tail =>
      simp only [readPart] at read
      split_ifs at read with starts
      cases read
      refine ⟨⟨first, _, String.toList_ofList, starts, ?_⟩, ?_, endsName_dropWhile tail⟩
      · intro character isInside
        exact List.mem_takeWhile_imp isInside
      · rw [List.cons_append, List.takeWhile_append_dropWhile]

/-- A text at which a name ends: it goes on neither with a character of a name nor with a colon. -/
def ClosesName (text : List Char) : Prop :=
  EndsName text ∧ text.head? ≠ some ':'

theorem endsName_colon (text : List Char) : EndsName (':' :: text) := by
  rintro first ⟨rfl⟩
  decide

theorem readName_of_isLexical {name : QName} (lexical : name.IsLexical)
    (closes : ClosesName rest) :
    readName (name.render.toList ++ rest) = some (name, rest) := by
  rcases name with ⟨_ | qualifier, localPart, uri⟩
  · cases lexical.uri
    have first := readPart_of_isNamePart lexical.localPart closes.1
    rw [readName, QName.render, first]
    cases rest with
    | nil => simp [QName.ofLocalPart]
    | cons next tail =>
        have notColon : next ≠ ':' := fun isColon => closes.2 (congrArg some isColon)
        simp [QName.ofLocalPart, notColon]
  · cases lexical.uri
    have first := readPart_of_isNamePart (lexical.qualifier qualifier rfl)
      (endsName_colon (localPart.toList ++ rest))
    have second := readPart_of_isNamePart lexical.localPart closes.1
    have whole : (QName.render ⟨some qualifier, localPart, none⟩).toList ++ rest =
        qualifier.toList ++ ':' :: (localPart.toList ++ rest) := by
      simp [QName.render]
    rw [whole, readName, first]
    simp [second, QName.ofLocalPart]

theorem of_readName {name : QName} (read : readName text = some (name, rest)) :
    name.IsLexical ∧ text = name.render.toList ++ rest := by
  rw [readName] at read
  cases first : readPart text with
  | none => simp [first] at read
  | some found =>
      rcases found with ⟨part, afterPart⟩
      rcases of_readPart first with ⟨isPart, rfl, ends⟩
      have unqualified : (QName.ofLocalPart (String.ofList part)).IsLexical :=
        ⟨isPart, by simp [QName.ofLocalPart], rfl⟩
      simp only [first] at read
      split at read
      · rename_i afterColon
        cases second : readPart afterColon with
        | none =>
            simp only [second, Option.some.injEq, Prod.mk.injEq] at read
            rcases read with ⟨rfl, rfl⟩
            exact ⟨unqualified, by simp [QName.render, QName.ofLocalPart]⟩
        | some found =>
            rcases found with ⟨localPart, afterName⟩
            rcases of_readPart second with ⟨isLocalPart, rfl, _⟩
            simp only [second, Option.some.injEq, Prod.mk.injEq] at read
            rcases read with ⟨rfl, rfl⟩
            exact ⟨⟨isLocalPart, by simpa using isPart, rfl⟩, by simp [QName.render]⟩
      · simp only [Option.some.injEq, Prod.mk.injEq] at read
        rcases read with ⟨rfl, rfl⟩
        exact ⟨unqualified, by simp [QName.render, QName.ofLocalPart]⟩

/-- A name starts with a character that starts names, and goes on with those or a colon. -/
theorem QName.IsLexical.render_eq {name : QName} (lexical : name.IsLexical) :
    ∃ first remainder, name.render.toList = first :: remainder ∧ isNameStart first = true ∧
      ∀ character ∈ remainder, isNameCharacter character = true ∨ character = ':' := by
  rcases name with ⟨_ | qualifier, localPart, uri⟩
  · rcases lexical.localPart with ⟨first, others, isText, starts, goOn⟩
    exact ⟨first, others, isText, starts, fun character isInside => .inl (goOn character isInside)⟩
  · rcases lexical.qualifier qualifier rfl with ⟨first, others, isText, starts, goOn⟩
    refine ⟨first, others ++ ':' :: localPart.toList, by simp [QName.render, isText], starts, ?_⟩
    intro character isInside
    rcases List.mem_append.mp isInside with isQualifier | isLocal
    · exact .inl (goOn character isQualifier)
    · rcases List.mem_cons.mp isLocal with isColon | isLocal
      · exact .inr isColon
      · exact .inl (isNameCharacter_of_mem lexical.localPart isLocal)

theorem QName.IsLexical.isSolid {name : QName} (lexical : name.IsLexical) :
    IsSolid name.render := by
  rcases lexical.render_eq with ⟨first, remainder, isText, starts, _⟩
  exact ⟨first, remainder, isText,
    isSpace_of_isNameCharacter (isNameCharacter_of_isNameStart starts)⟩

end Names

section Literals

variable {delimiter : Char} {value text rest : List Char}

theorem doubleDelimiter_cons (delimiter first : Char) (value : List Char) :
    doubleDelimiter delimiter (first :: value) =
      (if first = delimiter then [delimiter, delimiter] else [first]) ++
        doubleDelimiter delimiter value := by
  rw [doubleDelimiter, List.flatMap_cons]
  rfl

theorem readQuoted_of_ne {first : Char} (different : first ≠ delimiter)
    (text : List Char) :
    readQuoted delimiter (first :: text) =
      (readQuoted delimiter text).map fun read => (first :: read.1, read.2) := by
  cases text with
  | nil => simp [readQuoted, different]
  | cons second tail => simp [readQuoted, different]

theorem readQuoted_of_doubled (delimiter : Char) (text : List Char) :
    readQuoted delimiter (delimiter :: delimiter :: text) =
      (readQuoted delimiter text).map fun read => (delimiter :: read.1, read.2) := by
  simp [readQuoted]

theorem readQuoted_doubleDelimiter (closes : rest.head? ≠ some delimiter) :
    readQuoted delimiter (doubleDelimiter delimiter value ++ delimiter :: rest) =
      some (value, rest) := by
  induction value with
  | nil =>
      cases rest with
      | nil => simp [doubleDelimiter, readQuoted]
      | cons next tail =>
          have notDoubled : next ≠ delimiter := fun same => closes (congrArg some same)
          simp [doubleDelimiter, readQuoted, notDoubled]
  | cons first value ih =>
      rw [doubleDelimiter_cons]
      split_ifs with same
      · simp [readQuoted_of_doubled, ih, same]
      · simp [readQuoted_of_ne same, ih]

theorem eq_of_readQuoted (read : readQuoted delimiter text = some (value, rest)) :
    text = doubleDelimiter delimiter value ++ delimiter :: rest := by
  fun_induction readQuoted delimiter text generalizing value with
  | case1 => cases read
  | case2 =>
      cases read
      rfl
  | case3 => cases read
  | case4 first second tail different ih =>
      rcases Option.map_eq_some_iff.mp read with ⟨⟨inner, final⟩, readInner, same⟩
      cases same
      rw [ih readInner, doubleDelimiter_cons, if_neg different]
      rfl
  | case5 _ tail _ ih =>
      rcases Option.map_eq_some_iff.mp read with ⟨⟨inner, final⟩, readInner, same⟩
      cases same
      rw [ih readInner, doubleDelimiter_cons, if_pos rfl]
      simp_all
  | case6 =>
      cases read
      simp_all [doubleDelimiter]

theorem toList_quotedLiteral (delimiter : Char) (value : String) :
    (quotedLiteral delimiter value).toList ++ rest =
      delimiter :: (doubleDelimiter delimiter value.toList ++ delimiter :: rest) := by
  simp [quotedLiteral]

theorem readLiteral_quotedLiteral {value : String} (isDelimiter : delimiter = '\'' ∨ delimiter = '"')
    (closes : rest.head? ≠ some delimiter) :
    readLiteral ((quotedLiteral delimiter value).toList ++ rest) = some (value, rest) := by
  rw [toList_quotedLiteral]
  rcases isDelimiter with rfl | rfl
  · simp [readLiteral, readQuoted_doubleDelimiter closes]
  · simp [readLiteral, readQuoted_doubleDelimiter closes]

theorem of_readLiteral {value : String} (read : readLiteral text = some (value, rest)) :
    ∃ delimiter, (delimiter = '\'' ∨ delimiter = '"') ∧
      text = (quotedLiteral delimiter value).toList ++ rest := by
  unfold readLiteral at read
  split at read
  · rcases Option.map_eq_some_iff.mp read with ⟨⟨inner, final⟩, readInner, same⟩
    cases same
    refine ⟨'\'', .inl rfl, ?_⟩
    rw [toList_quotedLiteral, eq_of_readQuoted readInner, String.toList_ofList]
  · rcases Option.map_eq_some_iff.mp read with ⟨⟨inner, final⟩, readInner, same⟩
    cases same
    refine ⟨'"', .inr rfl, ?_⟩
    rw [toList_quotedLiteral, eq_of_readQuoted readInner, String.toList_ofList]
  · cases read

end Literals

section Words

variable {text rest : List Char}

theorem isNameCharacter_of_mem_keyword (axis : Axis) :
    ∀ character ∈ axis.keyword.toList, isNameCharacter character = true := by
  apply List.all_eq_true.mp
  cases axis <;> rfl

theorem Axis.ofKeyword?_keyword (axis : Axis) : Axis.ofKeyword? axis.keyword = some axis := by
  cases axis <;> decide

theorem Axis.keyword_of_ofKeyword? {word : String} {axis : Axis}
    (found : Axis.ofKeyword? word = some axis) : axis.keyword = word := by
  simpa using List.find?_some found

theorem readAxis_keyword (axis : Axis) (ends : EndsName rest) :
    readAxis (axis.keyword.toList ++ rest) = some (axis, rest) := by
  have inside := isNameCharacter_of_mem_keyword axis
  rw [readAxis, takeWhile_append_of_endsName inside ends, dropWhile_append_of_endsName inside ends,
    String.ofList_toList, Axis.ofKeyword?_keyword]
  rfl

theorem of_readAxis {axis : Axis} (read : readAxis text = some (axis, rest)) :
    text = axis.keyword.toList ++ rest ∧ EndsName rest := by
  rcases Option.map_eq_some_iff.mp read with ⟨found, isAxis, same⟩
  cases same
  refine ⟨?_, endsName_dropWhile text⟩
  rw [Axis.keyword_of_ofKeyword? isAxis, String.toList_ofList, List.takeWhile_append_dropWhile]

theorem readKindWord_of_mem : ∀ entry ∈ kindWords, ∀ rest : List Char,
    readKindWord (entry.1.toList ++ rest) = some (entry.2, rest) := by
  intro entry isWord rest
  simp only [kindWords, List.mem_cons, List.not_mem_nil, or_false] at isWord
  rcases isWord with rfl | rfl | rfl | rfl <;> rfl

theorem of_readKindWord {test : NodeTest} (read : readKindWord text = some (test, rest)) :
    ∃ word, (word, test) ∈ kindWords ∧ text = word.toList ++ rest := by
  rcases List.exists_of_findSome?_eq_some read with ⟨⟨word, other⟩, isWord, stripped⟩
  rcases Option.map_eq_some_iff.mp stripped with ⟨remainder, found, same⟩
  cases same
  exact ⟨word, isWord, Text.afterWord?_eq_some_iff.mp found⟩

end Words

end NodeNames
