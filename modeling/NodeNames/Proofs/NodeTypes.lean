import Mathlib.Tactic.MkIffOfInductiveProp
import NodeNames.Proofs.Call.Token
import NodeNames.Proofs.Emission.Script
/-!
# Keys of named nodes

The key of a name is its namespace and its local part around a colon, after an
at sign for an attribute. A local part as it is written in a call has neither
sign in it, so that the key tells the two apart. It does not always tell an
attribute from other nodes: the at sign can also be the first character of a
namespace. Registered keys stand in the order of their first uses.
-/

namespace NodeNames

/-- The namespace of a name, which is empty for a name in no namespace. -/
def QName.namespaceUri (name : QName) : String :=
  name.uri.getD ""

/-- An attribute, and another node whose namespace is that of the attribute after an at sign. -/
@[mk_iff]
structure QName.CollidesAsAttribute (name : QName) (axis : Axis) (other : QName)
    (otherAxis : Axis) : Prop where
  isAttribute : axis.principalKind = .attributeNode
  isOther : otherAxis.principalKind ≠ .attributeNode
  inNamespace : name.namespaceUri ≠ ""
  marked : other.namespaceUri = "@" ++ name.namespaceUri

theorem Axis.principalKind_eq_attributeNode_iff {axis : Axis} :
    axis.principalKind = .attributeNode ↔ axis = .attributeAxis := by
  cases axis <;> decide

/-- Where no namespaces are selected, being attributes alike is being of the same kind. -/
theorem Axis.principalKind_eq_iff {first second : Axis}
    (isFirst : first.principalKind ≠ .namespaceNode)
    (isSecond : second.principalKind ≠ .namespaceNode) :
    first.principalKind = second.principalKind ↔
      (first.principalKind = .attributeNode ↔ second.principalKind = .attributeNode) := by
  have kinds (axis : Axis) : axis.principalKind ≠ .namespaceNode →
      axis.principalKind = .attributeNode ∨ axis.principalKind = .element := by
    cases axis <;> decide
  rcases kinds first isFirst with firstKind | firstKind <;>
    rcases kinds second isSecond with secondKind | secondKind <;>
      simp [firstKind, secondKind]

theorem IsNamePart.notMem {part : String} (isPart : IsNamePart part) {sign : Char}
    (isSign : Token.isNameCharacter sign = false) : sign ∉ part.toList := by
  intro isInside
  rw [isNameCharacter_of_mem isPart isInside] at isSign
  cases isSign

theorem IsNamePart.noColon {part : String} (isPart : IsNamePart part) : ':' ∉ part.toList :=
  isPart.notMem (by decide)

/-- Texts around a sign can be taken apart again when the second one has no such sign in it. -/
theorem eq_of_append_cons_eq {sign : Char} {before otherBefore after otherAfter : List Char}
    (plain : sign ∉ after) (otherPlain : sign ∉ otherAfter)
    (same : before ++ sign :: after = otherBefore ++ sign :: otherAfter) :
    before = otherBefore ∧ after = otherAfter := by
  induction before generalizing otherBefore with
  | nil =>
      cases otherBefore with
      | nil => exact ⟨rfl, (List.cons.inj same).2⟩
      | cons first others =>
          have isAfter := (List.cons.inj same).2
          exact absurd (by simp [isAfter]) plain
  | cons first others ih =>
      cases otherBefore with
      | nil =>
          have isAfter := (List.cons.inj same).2
          exact absurd (by simp [← isAfter]) otherPlain
      | cons otherFirst rest =>
          rcases List.cons.inj same with ⟨rfl, sameRest⟩
          rcases ih sameRest with ⟨rfl, sameAfter⟩
          exact ⟨rfl, sameAfter⟩

namespace QName

variable {first second : QName}

theorem typeKey_eq (name : QName) :
    name.typeKey =
      if name.namespaceUri = "" then name.localPart
      else name.namespaceUri ++ ":" ++ name.localPart := by
  unfold typeKey namespaceUri
  cases name.uri with
  | none => rfl
  | some uri => simp

/-- The local part of a name is not the key of a name in a namespace. -/
theorem localPart_ne_of_present (noColon : ':' ∉ first.localPart.toList)
    (present : second.namespaceUri ≠ "") : first.localPart ≠ second.typeKey := by
  intro same
  rw [same, typeKey_eq, if_neg present] at noColon
  exact noColon (by simp)

theorem eq_of_append_colon_eq {before otherBefore : String}
    (noColon : ':' ∉ first.localPart.toList) (otherNoColon : ':' ∉ second.localPart.toList)
    (same : before ++ ":" ++ first.localPart = otherBefore ++ ":" ++ second.localPart) :
    before = otherBefore ∧ first.localPart = second.localPart := by
  have sameText := congrArg String.toList same
  simp only [String.toList_append, List.append_assoc] at sameText
  rcases eq_of_append_cons_eq noColon otherNoColon sameText with ⟨sameBefore, sameAfter⟩
  exact ⟨String.toList_injective sameBefore, String.toList_injective sameAfter⟩

/-- Names have one key when they have the same namespace and the same local part. -/
theorem typeKey_eq_iff (noColon : ':' ∉ first.localPart.toList)
    (otherNoColon : ':' ∉ second.localPart.toList) :
    first.typeKey = second.typeKey ↔
      first.namespaceUri = second.namespaceUri ∧ first.localPart = second.localPart := by
  constructor
  · intro same
    by_cases firstAbsent : first.namespaceUri = "" <;>
      by_cases secondAbsent : second.namespaceUri = ""
    · rw [typeKey_eq, typeKey_eq, if_pos firstAbsent, if_pos secondAbsent] at same
      exact ⟨firstAbsent.trans secondAbsent.symm, same⟩
    · rw [typeKey_eq first, if_pos firstAbsent] at same
      exact absurd same (localPart_ne_of_present noColon secondAbsent)
    · rw [typeKey_eq second, if_pos secondAbsent] at same
      exact absurd same.symm (localPart_ne_of_present otherNoColon firstAbsent)
    · rw [typeKey_eq, typeKey_eq, if_neg firstAbsent, if_neg secondAbsent] at same
      exact eq_of_append_colon_eq noColon otherNoColon same
  · rintro ⟨sameUri, sameLocalPart⟩
    rw [typeKey_eq, typeKey_eq, sameUri, sameLocalPart]

/-- An attribute has the key of another node when the namespace of the other brings the sign. -/
theorem atSign_typeKey_eq_iff (firstPart : IsNamePart first.localPart)
    (secondPart : IsNamePart second.localPart) :
    "@" ++ first.typeKey = second.typeKey ↔
      first.localPart = second.localPart ∧ first.namespaceUri ≠ "" ∧
        second.namespaceUri = "@" ++ first.namespaceUri := by
  constructor
  · intro same
    by_cases secondAbsent : second.namespaceUri = ""
    · rw [typeKey_eq second, if_pos secondAbsent] at same
      have noSign : '@' ∉ second.localPart.toList := secondPart.notMem (by decide)
      rw [← same] at noSign
      exact absurd (by simp) noSign
    · by_cases firstAbsent : first.namespaceUri = ""
      · rw [typeKey_eq, typeKey_eq, if_pos firstAbsent, if_neg secondAbsent] at same
        have noColon := firstPart.noColon
        have colon : ':' ∈ ("@" ++ first.localPart).toList := by
          rw [same]
          simp
        exact absurd (by simpa using colon) noColon
      · rw [typeKey_eq, typeKey_eq, if_neg firstAbsent, if_neg secondAbsent,
          ← String.append_assoc, ← String.append_assoc] at same
        rcases eq_of_append_colon_eq firstPart.noColon secondPart.noColon same with
          ⟨sameUri, sameLocalPart⟩
        exact ⟨sameLocalPart, firstAbsent, sameUri.symm⟩
  · rintro ⟨sameLocalPart, present, marked⟩
    have secondPresent : second.namespaceUri ≠ "" := by simp [marked]
    rw [typeKey_eq, typeKey_eq, if_neg present, if_neg secondPresent, marked, sameLocalPart,
      String.append_assoc, String.append_assoc, String.append_assoc]

end QName

/--
Nodes have one key when they have the same namespace and local part and are both attributes or both
not, and also when an attribute collides with another node of the same local part.
-/
theorem NodeTypes.keyOf_eq_iff {first second : QName} (firstPart : IsNamePart first.localPart)
    (secondPart : IsNamePart second.localPart) (firstAxis secondAxis : Axis) :
    keyOf firstAxis first = keyOf secondAxis second ↔
      first.localPart = second.localPart ∧
        ((firstAxis.principalKind = .attributeNode ↔
            secondAxis.principalKind = .attributeNode) ∧
          first.namespaceUri = second.namespaceUri ∨
          first.CollidesAsAttribute firstAxis second secondAxis ∨
          second.CollidesAsAttribute secondAxis first firstAxis) := by
  simp only [QName.collidesAsAttribute_iff, ne_eq, Axis.principalKind_eq_attributeNode_iff]
  by_cases firstIs : firstAxis = .attributeAxis <;> by_cases secondIs : secondAxis = .attributeAxis
  · have keys := QName.typeKey_eq_iff firstPart.noColon secondPart.noColon
    simp [keyOf, firstIs, secondIs, keys, and_comm]
  · have keys := QName.atSign_typeKey_eq_iff firstPart secondPart
    simp [keyOf, firstIs, secondIs, keys]
  · have keys := QName.atSign_typeKey_eq_iff secondPart firstPart
    simp [keyOf, firstIs, secondIs, eq_comm.trans keys, @eq_comm _ second.localPart]
  · have keys := QName.typeKey_eq_iff firstPart.noColon secondPart.noColon
    simp [keyOf, firstIs, secondIs, keys, and_comm]

/-- A key is appended to the names unless it is one of them. -/
theorem NodeTypes.names_register {types : NodeTypes} (consistent : types.Consistent)
    (key : String) :
    (types.register key).2.names =
      if key ∈ types.names then types.names else types.names ++ [key] := by
  rw [register]
  cases found : types.position? key with
  | some position =>
      have atPosition := consistent.position?_eq_some_iff.mp found
      have known : key ∈ types.names := List.mem_of_getElem? atPosition
      rw [Interner.intern_of_position? found, if_pos known]
  | none =>
      have unknown : key ∉ types.names := by
        intro known
        rcases List.mem_iff_getElem?.mp known with ⟨position, atPosition⟩
        rw [consistent.position?_eq_some_iff.mpr atPosition] at found
        cases found
      rw [Interner.intern_of_unknown found, if_neg unknown]
      simp [names, Interner.push]

/-- Registering a key continues a row of first uses. -/
theorem eraseDups_append_singleton (keys : List String) (key : String) :
    (keys ++ [key]).eraseDups =
      if key ∈ keys.eraseDups then keys.eraseDups else keys.eraseDups ++ [key] := by
  rw [List.eraseDups_append]
  by_cases known : key ∈ keys
  · simp [List.removeAll, known]
  · simp [List.removeAll, known, List.eraseDups_cons]

end NodeNames
