import NodeNames.Proofs.NodeTypes
import NodeNames.Proofs.Unit.Locals
/-!
# Identity of names

Variables are told apart by their expanded names and node types by the keys of
names. The two agree but for one case: a qualifier can be bound to the empty
namespace, and the key of such a name is the key of the name in no namespace,
whereas the expanded names differ.
-/

namespace NodeNames

/-- Names with one local part, of which one has no namespace and the other has an empty one. -/
def QName.DiffersByEmptyNamespace (first second : QName) : Prop :=
  first.localPart = second.localPart ∧
    (first.uri = none ∧ second.uri = some "" ∨ first.uri = some "" ∧ second.uri = none)

namespace QName

variable {first second : QName}

theorem expandedName_eq_iff :
    first.expandedName = second.expandedName ↔
      first.uri = second.uri ∧ first.localPart = second.localPart := by
  simp only [expandedName, ExpandedName.mk.injEq]

theorem namespaceUri_eq_iff :
    first.namespaceUri = second.namespaceUri ↔
      first.uri = second.uri ∨ first.uri = none ∧ second.uri = some "" ∨
        first.uri = some "" ∧ second.uri = none := by
  rw [namespaceUri, namespaceUri]
  cases first.uri with
  | none => cases second.uri <;> simp [eq_comm]
  | some uri => cases second.uri <;> simp

/-- Names without a colon have one key if they expand alike or differ by the empty namespace. -/
theorem typeKey_eq_iff_expandedName (noColon : ':' ∉ first.localPart.toList)
    (otherNoColon : ':' ∉ second.localPart.toList) :
    first.typeKey = second.typeKey ↔
      first.expandedName = second.expandedName ∨ first.DiffersByEmptyNamespace second := by
  rw [typeKey_eq_iff noColon otherNoColon, namespaceUri_eq_iff, expandedName_eq_iff,
    DiffersByEmptyNamespace]
  tauto

theorem DiffersByEmptyNamespace.expandedName_ne (differs : first.DiffersByEmptyNamespace second) :
    first.expandedName ≠ second.expandedName := by
  rw [ne_eq, expandedName_eq_iff]
  rcases differs with ⟨_, ⟨absent, empty⟩ | ⟨empty, absent⟩⟩ <;> simp [absent, empty]

end QName

/-- A declared variable is found by all names that expand like its own. -/
theorem SymbolTable.lookup?_declare (table : SymbolTable) (name other : QName) (type : ValueType) :
    (table.declare name type).lookup? other =
      if name.expandedName = other.expandedName then some type else table.lookup? other :=
  lookup_replace name.expandedName other.expandedName type table.types

namespace NodeTypes

/-- The node types after keys have been registered one after the other. -/
def ofKeys (keys : List String) : NodeTypes :=
  keys.foldl (fun types key => (types.register key).2) Interner.empty

theorem consistent_ofKeys (keys : List String) : (ofKeys keys).Consistent := by
  have grows (types : NodeTypes) (consistent : types.Consistent) :
      (keys.foldl (fun types key => (types.register key).2) types).Consistent := by
    induction keys generalizing types with
    | nil => exact consistent
    | cons key others ih => exact ih _ (Interner.consistent_intern consistent key)
  exact grows _ Interner.consistent_empty

/-- Keys that are registered one after the other get one type exactly if they are the same. -/
theorem register_register_eq_iff {types : NodeTypes} (consistent : types.Consistent)
    (first second : String) :
    ((types.register first).2.register second).1 = (types.register first).1 ↔ first = second := by
  have afterFirst := types.position?_intern first
  have afterSecond := (types.intern first).2.position?_intern second
  have stillFirst :=
    ((types.intern first).2.extends_intern second).positions first _ afterFirst
  have lastConsistent :=
    Interner.consistent_intern (Interner.consistent_intern consistent first) second
  rw [register, register, Nat.add_left_cancel_iff]
  exact eq_comm.trans (lastConsistent.position_inj stillFirst afterSecond)

end NodeTypes

/--
Names without a colon in their local parts. What has been declared for the first is found by the
second, in the table of variables and among the variables of a method, exactly if they expand
alike, and they get one node type as elements and as attributes exactly if they have one key. These
are the same names but for those that differ by the empty namespace, which have one key and do not
expand alike.
-/
theorem QName.identities_agree {first second : QName} (noColon : ':' ∉ first.localPart.toList)
    (otherNoColon : ':' ∉ second.localPart.toList) :
    (first.typeKey = second.typeKey ↔
        first.expandedName = second.expandedName ∨ first.DiffersByEmptyNamespace second) ∧
      (first.DiffersByEmptyNamespace second → first.expandedName ≠ second.expandedName) ∧
      (∀ (table : SymbolTable) (type : ValueType),
        (table.declare first type).lookup? second =
          if first.expandedName = second.expandedName then some type
          else table.lookup? second) ∧
      (∀ (method later : MethodDraft) (type : ValueType) (slot : UInt16),
        MethodDraft.addLocal first type method = .ok slot later →
          later.local? second =
            if first.expandedName = second.expandedName then some { slot, type }
            else method.local? second) ∧
      ∀ keys : List String,
        let types := NodeTypes.ofKeys keys
        let asElement := types.registerElement first
        let asAttribute := types.registerAttribute first
        ((asElement.2.registerElement second).1 = asElement.1 ↔
            first.typeKey = second.typeKey) ∧
          ((asAttribute.2.registerAttribute second).1 = asAttribute.1 ↔
            first.typeKey = second.typeKey) := by
  refine ⟨typeKey_eq_iff_expandedName noColon otherNoColon,
    DiffersByEmptyNamespace.expandedName_ne, fun table => table.lookup?_declare first second,
    fun method later type slot added => MethodDraft.local?_of_addLocal added second, ?_⟩
  intro keys types asElement asAttribute
  have consistent : types.Consistent := NodeTypes.consistent_ofKeys keys
  have marked : "@" ++ first.typeKey = "@" ++ second.typeKey ↔ first.typeKey = second.typeKey :=
    String.append_right_inj "@"
  exact ⟨NodeTypes.register_register_eq_iff consistent _ _,
    (NodeTypes.register_register_eq_iff consistent _ _).trans marked⟩

/-- Two qualifiers for one namespace: a variable is found and a node type is shared. -/
theorem QName.identities_agree_qualified :
    let first : QName := ⟨some "p", "i", some "urn:x"⟩
    let second : QName := ⟨some "q", "i", some "urn:x"⟩
    (SymbolTable.empty.declare first .node).lookup? second = some .node ∧
      first.typeKey = second.typeKey := by
  intro first second
  have agree := @identities_agree first second (by decide +kernel) (by decide +kernel)
  have alike : first.expandedName = second.expandedName := rfl
  have found := agree.2.2.1 SymbolTable.empty .node
  rw [if_pos alike] at found
  exact ⟨found, agree.1.mpr (.inl alike)⟩

/--
A qualifier that is bound to the empty namespace: the qualified name and the plain one have one key
and one node type and do not expand alike, so that the variable is not found.
-/
theorem QName.identities_differ_emptyNamespace :
    let bound : QName := ⟨some "p", "i", some ""⟩
    let plain := QName.ofText "i"
    (Config.bindNamespace {} "p" "").resolve (.ofText "p:i") = .ok bound ∧
      ':' ∉ bound.localPart.toList ∧ ':' ∉ plain.localPart.toList ∧
      ¬(bound.expandedName = plain.expandedName ↔ bound.typeKey = plain.typeKey) ∧
      (SymbolTable.empty.declare plain .node).lookup? bound = none ∧
      (((NodeTypes.ofKeys []).registerElement plain).2.registerElement bound).1 =
        ((NodeTypes.ofKeys []).registerElement plain).1 := by
  decide +kernel

end NodeNames
