import NodeNames.Call.Basic
/-!
# Tokens of calls

The smallest readable parts of a call: names, literals, axis names and the
words of kind tests. A reader takes the token at the head of the text and
returns it with the text that follows, which is always shorter.
-/

namespace NodeNames.Token

/-- White space between tokens is made of spaces, tabs and line ends. -/
def isSpace (character : Char) : Bool :=
  character = ' ' || character = '\t' || character = '\r' || character = '\n'

/-- The text from its first character that is not white space. -/
def skipSpace (source : List Char) : List Char :=
  source.dropWhile isSpace

/-- A part of a name starts with an ASCII letter or an underscore. -/
def isNameStart (character : Char) : Bool :=
  character.isAlpha || character = '_'

/-- A part of a name goes on with ASCII letters, digits, underscores, hyphens and points. -/
def isNameCharacter (character : Char) : Bool :=
  character.isAlphanum || character = '_' || character = '-' || character = '.'

/-- Reads one part of a name, as long as possible. -/
def readPart : List Char → Option (List Char × List Char)
  | [] => none
  | first :: rest =>
      if isNameStart first then
        some (first :: rest.takeWhile isNameCharacter, rest.dropWhile isNameCharacter)
      else none

/-- Reads a name: one part, or two parts around a colon. -/
def readName (source : List Char) : Option (QName × List Char) :=
  match readPart source with
  | none => none
  | some (first, rest) =>
      let unqualified := QName.ofLocalPart (String.ofList first)
      match rest with
      | ':' :: afterColon =>
          match readPart afterColon with
          | some (second, final) =>
              some ({ unqualified with
                qualifier := some (String.ofList first), localPart := String.ofList second }, final)
          | none => some (unqualified, rest)
      | _ => some (unqualified, rest)

/-- Reads a literal after its opening delimiter; a doubled delimiter stands for one inside. -/
def readQuoted (delimiter : Char) : List Char → Option (List Char × List Char)
  | [] => none
  | [last] => if last = delimiter then some ([], []) else none
  | first :: second :: rest =>
      if first ≠ delimiter then
        (readQuoted delimiter (second :: rest)).map fun read => (first :: read.1, read.2)
      else if second = delimiter then
        (readQuoted delimiter rest).map fun read => (delimiter :: read.1, read.2)
      else some ([], second :: rest)

def readLiteral (source : List Char) : Option (String × List Char) :=
  match source with
  | '\'' :: rest => (readQuoted '\'' rest).map fun read => (String.ofList read.1, read.2)
  | '"' :: rest => (readQuoted '"' rest).map fun read => (String.ofList read.1, read.2)
  | _ => none

/-- Reads the name of an axis, which no further name character may follow. -/
def readAxis (source : List Char) : Option (Axis × List Char) :=
  (Axis.ofKeyword? (String.ofList (source.takeWhile isNameCharacter))).map fun axis =>
    (axis, source.dropWhile isNameCharacter)

/-- The words that open a kind test, with the tests they stand for. -/
def kindWords : List (String × NodeTest) :=
  [("node", .anyNode), ("text", .kind .text), ("comment", .kind .comment),
    ("processing-instruction", .kind .processingInstruction)]

/-- Reads the word that opens a kind test, whatever follows it. -/
def readKindWord (source : List Char) : Option (NodeTest × List Char) :=
  kindWords.findSome? fun entry =>
    (Text.afterWord? entry.1.toList source).map fun rest => (entry.2, rest)

theorem length_skipSpace_le (source : List Char) : (skipSpace source).length ≤ source.length :=
  (List.dropWhile_suffix isSpace).length_le

theorem length_lt_of_readKindWord {source rest : List Char} {test : NodeTest}
    (read : readKindWord source = some (test, rest)) : rest.length < source.length := by
  rcases List.exists_of_findSome?_eq_some read with ⟨entry, member, stripped⟩
  rcases Option.map_eq_some_iff.1 stripped with ⟨remainder, found, same⟩
  rcases Prod.mk.inj same with ⟨-, rfl⟩
  have whole := congrArg List.length (Text.afterWord?_eq_some_iff.1 found)
  have nonempty : 0 < entry.1.toList.length := by
    simp only [kindWords, List.mem_cons, List.not_mem_nil, or_false] at member
    rcases member with rfl | rfl | rfl | rfl <;> decide
  simp only [List.length_append] at whole
  omega

theorem length_lt_of_readPart {source part rest : List Char}
    (read : readPart source = some (part, rest)) : rest.length < source.length := by
  cases source with
  | nil => simp [readPart] at read
  | cons first tail =>
      simp only [readPart] at read
      split at read
      · rcases Prod.mk.inj (Option.some.inj read) with ⟨-, rfl⟩
        exact Nat.lt_succ_of_le (List.dropWhile_suffix isNameCharacter).length_le
      · simp at read

theorem length_lt_of_readName {source rest : List Char} {name : QName}
    (read : readName source = some (name, rest)) : rest.length < source.length := by
  simp only [readName] at read
  split at read
  · simp at read
  · rename_i first afterFirst readFirst
    have shorter := length_lt_of_readPart readFirst
    split at read
    · split at read
      · rename_i readSecond
        rcases Prod.mk.inj (Option.some.inj read) with ⟨-, rfl⟩
        have := length_lt_of_readPart readSecond
        simp only [List.length_cons] at shorter
        omega
      · rcases Prod.mk.inj (Option.some.inj read) with ⟨-, rfl⟩
        exact shorter
    · rcases Prod.mk.inj (Option.some.inj read) with ⟨-, rfl⟩
      exact shorter

theorem length_lt_of_readQuoted {delimiter : Char} {source value rest : List Char}
    (read : readQuoted delimiter source = some (value, rest)) : rest.length < source.length := by
  fun_induction readQuoted delimiter source generalizing value with
  | case1 => simp at read
  | case2 =>
      rcases Prod.mk.inj (Option.some.inj read) with ⟨-, rfl⟩
      simp
  | case3 => simp at read
  | case4 first second tail _ ih =>
      rcases Option.map_eq_some_iff.1 read with ⟨inner, readInner, same⟩
      rcases Prod.mk.inj same with ⟨-, rfl⟩
      have := ih readInner
      simp only [List.length_cons] at this ⊢
      omega
  | case5 _ tail _ ih =>
      rcases Option.map_eq_some_iff.1 read with ⟨inner, readInner, same⟩
      rcases Prod.mk.inj same with ⟨-, rfl⟩
      have := ih readInner
      simp only [List.length_cons]
      omega
  | case6 =>
      rcases Prod.mk.inj (Option.some.inj read) with ⟨-, rfl⟩
      simp

theorem length_lt_of_readLiteral {source rest : List Char} {value : String}
    (read : readLiteral source = some (value, rest)) : rest.length < source.length := by
  unfold readLiteral at read
  split at read
  · rcases Option.map_eq_some_iff.1 read with ⟨found, readOne, same⟩
    rcases Prod.mk.inj same with ⟨-, rfl⟩
    exact Nat.lt_succ_of_lt (length_lt_of_readQuoted readOne)
  · rcases Option.map_eq_some_iff.1 read with ⟨found, readOne, same⟩
    rcases Prod.mk.inj same with ⟨-, rfl⟩
    exact Nat.lt_succ_of_lt (length_lt_of_readQuoted readOne)
  · simp at read

end NodeNames.Token
