import Mathlib.Algebra.Ring.Nat
import Mathlib.Data.List.Induction
import Mathlib.Data.List.Nodup
import NodeNames.Proofs.Code.IntegerPush
import NodeNames.Proofs.Emission.Repetition
import NodeNames.Proofs.NameIdentity
/-!
# The registry of names

Types are asked for in any order, for elements and for attributes, and for one
name again and again. The keys stand in the order of their first requests, each
once, and the type of a key is the number of its place, which it keeps. So a type
that code pushes can be read back as the key that it was given out for, and it is
not mistaken for the type of unnamed nodes.
-/

namespace NodeNames

/-- A request for the type of the elements or the attributes with a name. -/
inductive TypeRequest where
  | element (name : QName)
  | attributeNode (name : QName)

namespace TypeRequest

def key : TypeRequest → String
  | element name => name.typeKey
  | attributeNode name => "@" ++ name.typeKey

/-- The type that is given out, and the types that are known from then on. -/
def perform (types : NodeTypes) : TypeRequest → Nat × NodeTypes
  | element name => types.registerElement name
  | attributeNode name => types.registerAttribute name

/-- The types that are known after requests, if none were known before them. -/
def performAll (requests : List TypeRequest) : NodeTypes :=
  requests.foldl (fun types request => (request.perform types).2) Interner.empty

end TypeRequest

namespace NodeTypes

/-- The type under which a key is registered, if it is. -/
def typeOf? (types : NodeTypes) (key : String) : Option Nat :=
  (types.position? key).map (firstNamedType + ·)

variable {types later : NodeTypes} {key : String} {type : Nat}

theorem typeOf?_eq_some_iff (consistent : types.Consistent) :
    types.typeOf? key = some type ↔
      ∃ position, types.names[position]? = some key ∧ type = firstNamedType + position := by
  simp only [typeOf?, Option.map_eq_some_iff, consistent.position?_eq_some_iff, names,
    @eq_comm _ type]

/-- A key that stands at two places would have two positions. -/
theorem nodup_names (consistent : types.Consistent) : types.names.Nodup := by
  apply List.nodup_iff_getElem?_ne_getElem?.mpr
  intro first second before inside same
  have isSecond := List.getElem?_eq_getElem inside
  have isFirst := same.trans isSecond
  have samePosition := (consistent.position_inj (consistent.position?_eq_some_iff.mpr isFirst)
    (consistent.position?_eq_some_iff.mpr isSecond)).mpr rfl
  exact absurd samePosition (Nat.ne_of_lt before)

theorem typeOf?_register (types : NodeTypes) (key : String) :
    (types.register key).2.typeOf? key = some (types.register key).1 := by
  rcases position?_register types key with ⟨position, found, isType⟩
  rw [typeOf?, found, isType]
  rfl

theorem typeOf?_of_extends (extended : later.Extends types)
    (found : types.typeOf? key = some type) : later.typeOf? key = some type := by
  rcases Option.map_eq_some_iff.mp found with ⟨position, isPosition, rfl⟩
  rw [typeOf?, extended.positions key position isPosition]
  rfl

/-- Named nodes have no type of unnamed ones. -/
theorem ne_typeId (isNamed : firstNamedType ≤ type) (kind : NodeKind) : type ≠ kind.typeId :=
  Nat.ne_of_gt (Nat.lt_of_lt_of_le kind.typeId_lt isNamed)

theorem ofKeys_concat (keys : List String) (key : String) :
    ofKeys (keys ++ [key]) = ((ofKeys keys).register key).2 := by
  simp only [ofKeys, List.foldl_append, List.foldl_cons, List.foldl_nil]

/-- Registering further keys extends what has been registered. -/
theorem extends_ofKeys_append (keys further : List String) :
    (ofKeys (keys ++ further)).Extends (ofKeys keys) := by
  induction further generalizing keys with
  | nil =>
      rw [List.append_nil]
      exact Interner.Extends.refl _
  | cons key others ih =>
      have step : (ofKeys (keys ++ [key])).Extends (ofKeys keys) := by
        rw [ofKeys_concat]
        exact Interner.extends_intern _ key
      have rest := ih (keys ++ [key])
      rw [List.append_assoc, List.singleton_append] at rest
      exact rest.trans step

/-- The registered keys are those that have been asked for, in the order of their first requests. -/
theorem names_ofKeys (keys : List String) : (ofKeys keys).names = keys.eraseDups := by
  induction keys using List.reverseRecOn with
  | nil => rfl
  | append_singleton keys key ih =>
      rw [ofKeys_concat, names_register (consistent_ofKeys keys), ih, eraseDups_append_singleton]

end NodeTypes

namespace TypeRequest

theorem perform_eq_register (request : TypeRequest) (types : NodeTypes) :
    request.perform types = types.register request.key := by
  cases request <;> rfl

theorem performAll_eq_ofKeys (requests : List TypeRequest) :
    performAll requests = NodeTypes.ofKeys (requests.map key) := by
  simp only [performAll, NodeTypes.ofKeys, List.foldl_map, perform_eq_register]

theorem extends_performAll_append (requests further : List TypeRequest) :
    (performAll (requests ++ further)).Extends (performAll requests) := by
  simp only [performAll_eq_ofKeys, List.map_append]
  exact NodeTypes.extends_ofKeys_append _ _

theorem performAll_concat (requests : List TypeRequest) (request : TypeRequest) :
    performAll (requests ++ [request]) = (request.perform (performAll requests)).2 := by
  simp only [performAll, List.foldl_append, List.foldl_cons, List.foldl_nil]

theorem names_performAll (requests : List TypeRequest) :
    (performAll requests).names = (requests.map key).eraseDups := by
  rw [performAll_eq_ofKeys, NodeTypes.names_ofKeys]

/-- What is found for the key of a request ever after is the type that was given out. -/
theorem typeOf?_performAll (before further : List TypeRequest) (request : TypeRequest) :
    (performAll (before ++ request :: further)).typeOf? request.key =
      some (request.perform (performAll before)).1 := by
  have extended := extends_performAll_append (before ++ [request]) further
  rw [List.append_assoc, List.singleton_append, performAll_concat, perform_eq_register]
    at extended
  rw [perform_eq_register]
  exact NodeTypes.typeOf?_of_extends extended (NodeTypes.typeOf?_register _ _)

theorem consistent_performAll (requests : List TypeRequest) :
    (performAll requests).Consistent := by
  rw [performAll_eq_ofKeys]
  exact NodeTypes.consistent_ofKeys _

/--
The types after any requests with fewer keys than there are types left in words of thirty-two bits.
The keys stand in a row without repetition, and the types are the numbers of their places from the
first named type on. Each request is answered by the type of its key, which was appended if it was
new, and the answer stays the type of the key. It fits in a word and is no type of unnamed nodes.
Pushed with any pool, it is what the instruction pushes by that pool and by all later ones, and it
leads back to the key.
-/
theorem registered_performAll (requests : List TypeRequest)
    (few : (requests.map key).eraseDups.length < 2 ^ 31 - firstNamedType) :
    let types := performAll requests
    types.names.Nodup ∧
      (∀ key type, types.typeOf? key = some type ↔
        ∃ position, types.names[position]? = some key ∧ type = firstNamedType + position) ∧
      ∀ before request further, requests = before ++ request :: further →
        let earlier := performAll before
        let type := (request.perform earlier).1
        let later := (request.perform earlier).2
        later.typeOf? request.key = some type ∧
          later.names =
            (if request.key ∈ earlier.names then earlier.names
              else earlier.names ++ [request.key]) ∧
          types.typeOf? request.key = some type ∧
          (Int32.ofNat type).toInt = type ∧
          (∀ kind : NodeKind, type ≠ kind.typeId) ∧
          (∀ limit constants instruction pool,
            Instruction.push type (ConstantValue.addAll (.withLimit limit) constants) =
                .ok instruction pool →
              ∀ grown : ConstantPool, grown.Extends pool →
                instruction.decode? grown = some (.pushInteger type)) ∧
          firstNamedType ≤ type ∧
          types.names[type - firstNamedType]? = some request.key := by
  intro types
  have consistent := consistent_performAll requests
  refine ⟨NodeTypes.nodup_names consistent,
    fun key type => NodeTypes.typeOf?_eq_some_iff consistent, ?_⟩
  intro before request further isSplit earlier type later
  have registered := perform_eq_register request earlier
  have answered : types.typeOf? request.key = some type := by
    simp only [types, isSplit]
    exact typeOf?_performAll before further request
  rcases (NodeTypes.typeOf?_eq_some_iff consistent).mp answered with ⟨position, isPlace, isType⟩
  have inside : position < types.names.length := (List.getElem?_eq_some_iff.mp isPlace).1
  rw [names_performAll] at inside
  have isNamed : firstNamedType ≤ type := by omega
  have fits : type < 2 ^ 31 := by omega
  refine ⟨?_, ?_, answered, Int32.toInt_ofNat_of_lt fits, NodeTypes.ne_typeId isNamed, ?_, isNamed,
    ?_⟩
  · simp only [later, type, registered]
    exact NodeTypes.typeOf?_register earlier request.key
  · simp only [later, registered]
    exact NodeTypes.names_register (consistent_performAll before) request.key
  · intro limit constants instruction pool pushed grown extension
    rcases ConstantPool.represents_addAll (ConstantPool.represents_withLimit limit) constants with
      ⟨_, _, _, represents⟩
    exact Instruction.decode?_of_push represents pushed extension
  · rwa [isType, Nat.add_sub_cancel_left]

/-- A name that is asked for as an element, as an attribute and as an element again. -/
theorem registered_performAll_again :
    let name := QName.ofLocalPart "item"
    let requests := [element name, attributeNode name, element name]
    (requests.map key).eraseDups.length < 2 ^ 31 - firstNamedType ∧
      (performAll requests).names.Nodup ∧
      (performAll requests).typeOf? "@item" = some 15 := by
  intro name requests
  have few : (requests.map key).eraseDups.length < 2 ^ 31 - firstNamedType := by
    decide +kernel
  have registered := registered_performAll requests few
  have answered := (registered.2.2 [element name] (attributeNode name) [element name] rfl).2.2.1
  have isKey : (attributeNode name).key = "@item" := by
    decide +kernel
  have isType : ((attributeNode name).perform (performAll [element name])).1 = 15 := by
    decide +kernel
  rw [isKey, isType] at answered
  exact ⟨few, registered.1, answered⟩

end TypeRequest

end NodeNames
