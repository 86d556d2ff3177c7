/-!
# Cutting text

`cutAtFirst` splits text around the first occurrence of a separator. It loses
nothing, and the part before the cut is free of the separator. `afterWord?`
takes a word away from the head of the text. `trim` takes blanks away from both
ends; blank are the twenty-five code points with the Unicode property
`White_Space`.
-/

namespace NodeNames.Text

/-- The text before and after the first occurrence of a separator, if it occurs. -/
def cutAtFirst (separator : Char) : List Char → Option (List Char × List Char)
  | [] => none
  | character :: rest =>
      if character = separator then some ([], rest)
      else (cutAtFirst separator rest).map fun parts => (character :: parts.1, parts.2)

/-- A cut is found exactly where the text has a separator with none before it. -/
theorem cutAtFirst_eq_some_iff {separator : Char} {text before after : List Char} :
    cutAtFirst separator text = some (before, after) ↔
      text = before ++ separator :: after ∧ separator ∉ before := by
  induction text generalizing before with
  | nil => simp [cutAtFirst]
  | cons character rest ih =>
      by_cases same : character = separator
      · subst same
        cases before with
        | nil => simp [cutAtFirst, eq_comm]
        | cons head tail =>
            simp only [cutAtFirst, if_pos, List.cons_append, List.cons.injEq]
            grind
      · simp only [cutAtFirst, if_neg same, Option.map_eq_some_iff, Prod.exists, Prod.mk.injEq]
        cases before with
        | nil => simp [same]
        | cons head tail =>
            constructor
            · rintro ⟨first, second, found, heads, rfl⟩
              rcases List.cons.inj heads with ⟨rfl, rfl⟩
              have := ih.1 found
              grind
            · rintro ⟨whole, absent⟩
              rcases List.cons.inj whole with ⟨rfl, remainder⟩
              exact ⟨tail, after, ih.2 ⟨remainder, by grind⟩, rfl, rfl⟩

/-- The text before and after the first occurrence of a separator in a string. -/
def splitAtFirst? (separator : Char) (text : String) : Option (String × String) :=
  (cutAtFirst separator text.toList).map fun parts => (String.ofList parts.1, String.ofList parts.2)

/-- The text after a word that stands at its head. -/
def afterWord? : List Char → List Char → Option (List Char)
  | [], text => some text
  | _ :: _, [] => none
  | expected :: word, first :: rest => if first = expected then afterWord? word rest else none

/-- A word is taken away exactly when the text is that word and what follows it. -/
theorem afterWord?_eq_some_iff {word text rest : List Char} :
    afterWord? word text = some rest ↔ text = word ++ rest := by
  fun_induction afterWord? word text with
  | case1 => simp [eq_comm]
  | case2 => simp
  | case3 _ _ _ ih => simp [ih]
  | case4 expected word first tail different => simp [different]

/-- The text after the last occurrence of a separator, or all of it without one. -/
def afterLast (separator : Char) (text : String) : String :=
  String.ofList (text.toList.reverse.takeWhile (· ≠ separator)).reverse

/-- The closed ranges of the blank code points, in ascending order. -/
def blankRanges : List (Nat × Nat) :=
  [(0x09, 0x0D), (0x20, 0x20), (0x85, 0x85), (0xA0, 0xA0), (0x1680, 0x1680), (0x2000, 0x200A),
    (0x2028, 0x2029), (0x202F, 0x202F), (0x205F, 0x205F), (0x3000, 0x3000)]

def isBlank (character : Char) : Bool :=
  blankRanges.any fun range => range.1 ≤ character.toNat && character.toNat ≤ range.2

def trimEnd (text : String) : String :=
  String.ofList (text.toList.reverse.dropWhile isBlank).reverse

def trim (text : String) : String :=
  trimEnd (String.ofList (text.toList.dropWhile isBlank))

/-- The text moved to the right end of a field of a given width. -/
def alignRight (width : Nat) (text : String) : String :=
  String.ofList (List.replicate (width - text.length) ' ') ++ text

end NodeNames.Text
