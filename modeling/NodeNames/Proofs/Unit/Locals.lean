import Mathlib.Data.List.Basic
import NodeNames.Proofs.Unit.Layout
/-!
# Local variables of a method

Slots are set aside for the variables of a method on request. A variable that
is requested again keeps its slots if the type is the same; with another type
it gets new slots and the old ones are given up. So the slots in use stay apart
and below the next free one, and a request fails only for lack of slots above.
-/

namespace NodeNames

namespace MethodDraft

variable {method : MethodDraft} {first : Nat} {name : QName} {type : ValueType}

/-- The method that a request for a variable leaves behind, with success or without. -/
def withLocal (method : MethodDraft) (request : QName × ValueType) : MethodDraft :=
  leftBehind (addLocal request.1 request.2 method)

/-- The method after requests for variables, one after the other. -/
def withLocals (method : MethodDraft) (requests : List (QName × ValueType)) : MethodDraft :=
  requests.foldl withLocal method

/-- The requests that succeed. -/
def granted (method : MethodDraft) : List (QName × ValueType) → List (QName × ValueType)
  | [] => []
  | request :: others =>
      match addLocal request.1 request.2 method with
      | .ok _ later => request :: granted later others
      | .error _ later => granted later others

/-- A method whose variables have slots of their own from a first slot to the next free one. -/
structure SetsApart (method : MethodDraft) (first : Nat) : Prop where
  bounds : ∀ name place, method.local? name = some place →
    first ≤ place.slot.toNat ∧ place.slot.toNat + place.type.width ≤ method.nextSlot.toNat
  apart : ∀ name other place otherPlace slot, method.local? name = some place →
    method.local? other = some otherPlace → place.Occupies slot → otherPlace.Occupies slot →
    name.expandedName = other.expandedName
  start : first ≤ method.nextSlot.toNat

theorem setsApart_new (methodName : String) (config : Config) :
    (MethodDraft.new methodName config).SetsApart config.firstFreeSlot.toNat where
  bounds := by
    intro name place found
    cases found
  apart := by
    intro name other place otherPlace slot found
    cases found
  start := Nat.le_refl _

/-- A new variable has its slots above those of all others. -/
theorem SetsApart.allocate {later : MethodDraft} (setsApart : method.SetsApart first)
    (nextSlot : later.nextSlot.toNat = method.nextSlot.toNat + type.width)
    (found : ∀ other, later.local? other =
      if name.expandedName = other.expandedName then some ⟨method.nextSlot, type⟩
      else method.local? other) : later.SetsApart first where
  bounds := by
    intro other place isPlace
    rw [found] at isPlace
    rw [nextSlot]
    split_ifs at isPlace with same
    · cases isPlace
      exact ⟨setsApart.start, Nat.le_refl _⟩
    · have := setsApart.bounds other place isPlace
      omega
  apart := by
    intro other third place thirdPlace slot isPlace isThird occupied alsoOccupied
    rw [found] at isPlace isThird
    split_ifs at isPlace isThird with same sameThird sameThird
    · exact same.symm.trans sameThird
    · cases isPlace
      have above : method.nextSlot.toNat ≤ slot.toNat := occupied.1
      have below := alsoOccupied.2
      have bounds := setsApart.bounds third thirdPlace isThird
      omega
    · cases isThird
      have above : method.nextSlot.toNat ≤ slot.toNat := alsoOccupied.1
      have below := occupied.2
      have bounds := setsApart.bounds other place isPlace
      omega
    · exact setsApart.apart other third place thirdPlace slot isPlace isThird occupied alsoOccupied
  start := by
    have := setsApart.start
    omega

theorem SetsApart.withLocal (setsApart : method.SetsApart first) (request : QName × ValueType) :
    (method.withLocal request).SetsApart first := by
  have outcome := request_addLocal method request.1 request.2
  rw [MethodDraft.withLocal]
  generalize addLocal request.1 request.2 method = result at outcome ⊢
  cases outcome with
  | kept slot found => exact setsApart
  | allocated later changes room widens nextSlot found => exact setsApart.allocate nextSlot found
  | refused changes full => exact setsApart

theorem SetsApart.withLocals (setsApart : method.SetsApart first)
    (requests : List (QName × ValueType)) : (method.withLocals requests).SetsApart first := by
  induction requests generalizing method with
  | nil => exact setsApart
  | cons request others ih => exact ih (setsApart.withLocal request)

theorem name_withLocals (method : MethodDraft) (requests : List (QName × ValueType)) :
    (method.withLocals requests).name = method.name := by
  induction requests generalizing method with
  | nil => rfl
  | cons request others ih =>
      rw [withLocals, List.foldl_cons, ← withLocals, ih, withLocal]
      exact (widens_addLocal method request.1 request.2).name

/-- A variable has the type of the last request for it that has succeeded. -/
theorem type_withLocals (method : MethodDraft) (requests : List (QName × ValueType))
    (name : QName) :
    ((method.withLocals requests).local? name).map (·.type) =
      (typeOf? (method.granted requests).reverse name).or
        ((method.local? name).map (·.type)) := by
  induction requests generalizing method with
  | nil => rfl
  | cons request others ih =>
      have outcome := request_addLocal method request.1 request.2
      rw [withLocals, List.foldl_cons, ← withLocals, ih, withLocal, granted]
      generalize addLocal request.1 request.2 method = result at outcome ⊢
      cases outcome with
      | kept slot found =>
          simp only [leftBehind, List.reverse_cons, typeOf?_append, typeOf?_cons, Option.or_assoc]
          congr 1
          split_ifs with same
          · rw [local?, ← same, ← local?, found]
            rfl
          · rfl
      | allocated later changes room widens nextSlot found =>
          simp only [leftBehind, List.reverse_cons, typeOf?_append, typeOf?_cons, Option.or_assoc,
            found]
          congr 1
          split_ifs with same
          · rfl
          · rfl
      | refused changes full => rfl

theorem addLocal_eq_ok_iff (method : MethodDraft) (name : QName) (type : ValueType) :
    (∃ slot later, addLocal name type method = .ok slot later) ↔
      method.Has name type ∨ method.nextSlot.toNat + type.width ≤ 65535 := by
  have outcome := request_addLocal method name type
  generalize addLocal name type method = result at outcome ⊢
  cases outcome with
  | kept slot found =>
      have has : method.Has name type := by rw [Has, found, Option.map_some]
      exact ⟨fun _ => .inl has, fun _ => ⟨slot, method, rfl⟩⟩
  | allocated later changes room widens nextSlot found =>
      exact ⟨fun _ => .inr room, fun _ => ⟨_, later, rfl⟩⟩
  | refused changes full =>
      constructor
      · rintro ⟨slot, later, succeeds⟩
        cases succeeds
      · rintro (has | room)
        · exact absurd has changes
        · omega

/-- A request that succeeds gives the place of the variable and leaves all others theirs. -/
theorem local?_of_addLocal {slot : UInt16} {later : MethodDraft}
    (succeeds : addLocal name type method = .ok slot later) (other : QName) :
    later.local? other =
      if name.expandedName = other.expandedName then some ⟨slot, type⟩
      else method.local? other := by
  have outcome := request_addLocal method name type
  rw [succeeds] at outcome
  cases outcome with
  | kept _ found =>
      split_ifs with same
      · rw [local?, ← same, ← local?, found]
      · rfl
  | allocated _ changes room widens nextSlot found => exact found other

/-- A request that fails names the variable and the method, and it has changed nothing. -/
theorem eq_of_addLocal_error {error : CompileError} {later : MethodDraft}
    (fails : addLocal name type method = .error error later) :
    error = .noLocalSlot name method.name ∧ later = method := by
  have outcome := request_addLocal method name type
  rw [fails] at outcome
  cases outcome
  exact ⟨rfl, rfl⟩

/--
The variables of a method after any requests, successful or not. Their slots lie between the first
free slot and the next one, and no slot belongs to two variables. Each has the type of the last
request for it that has succeeded. A further request succeeds exactly if the variable has the type
already, and then nothing changes, or there are slots left for it; it leaves all other variables
where they are. A request that fails names the variable and the method and changes nothing, so that
variables for which there are slots can still be requested.
-/
theorem withLocals_new (methodName : String) (config : Config)
    (requests : List (QName × ValueType)) :
    let new := MethodDraft.new methodName config
    let method := new.withLocals requests
    (∀ name place, method.local? name = some place →
      config.firstFreeSlot.toNat ≤ place.slot.toNat ∧
        place.slot.toNat + place.type.width ≤ method.nextSlot.toNat) ∧
    method.nextSlot.toNat ≤ 65535 ∧
    (∀ name other place otherPlace slot, method.local? name = some place →
      method.local? other = some otherPlace → place.Occupies slot → otherPlace.Occupies slot →
      name.expandedName = other.expandedName) ∧
    (∀ name, (method.local? name).map (·.type) = typeOf? (new.granted requests).reverse name) ∧
    ∀ name type,
      ((∃ slot later, addLocal name type method = .ok slot later) ↔
        (method.local? name).map (·.type) = some type ∨
          method.nextSlot.toNat + type.width ≤ 65535) ∧
      (∀ slot, method.local? name = some ⟨slot, type⟩ →
        addLocal name type method = .ok slot method) ∧
      (∀ slot later, addLocal name type method = .ok slot later → ∀ other,
        later.local? other =
          if name.expandedName = other.expandedName then some ⟨slot, type⟩
          else method.local? other) ∧
      ∀ error later, addLocal name type method = .error error later →
        error = .noLocalSlot name methodName ∧ error.code = .slotsExhausted ∧
          later = method ∧ new.withLocals (requests ++ [(name, type)]) = method ∧
          ∀ other narrower, method.nextSlot.toNat + narrower.width ≤ 65535 →
            ∃ slot last, addLocal other narrower later = .ok slot last := by
  intro new method
  have setsApart : method.SetsApart config.firstFreeSlot.toNat :=
    (setsApart_new methodName config).withLocals requests
  refine ⟨setsApart.bounds, ?_, setsApart.apart, ?_, ?_⟩
  · have small := method.nextSlot.toNat_lt
    omega
  · intro name
    rw [type_withLocals, Option.or_eq_left_of_none]
    rfl
  · intro name type
    refine ⟨addLocal_eq_ok_iff method name type, fun slot => addLocal_of_kept,
      fun slot later => local?_of_addLocal, ?_⟩
    intro error later fails
    rcases eq_of_addLocal_error fails with ⟨isError, unchanged⟩
    have isName : method.name = methodName := name_withLocals new requests
    rw [isName] at isError
    refine ⟨isError, by rw [isError]; rfl, unchanged, ?_, ?_⟩
    · rw [withLocals, List.foldl_append]
      change leftBehind (addLocal name type method) = method
      rw [fails]
      exact unchanged
    · intro other narrower room
      rw [unchanged]
      exact (addLocal_eq_ok_iff method other narrower).mpr (.inr room)

/-- With one slot left, a real number is refused, and the integer that is tried then gets it. -/
theorem withLocals_new_lastSlot :
    let new := MethodDraft.new "m" { firstFreeSlot := 65534 }
    let method := new.withLocals [(.ofLocalPart "a", .real), (.ofLocalPart "a", .int)]
    addLocal (.ofLocalPart "a") .real new =
        .error (.noLocalSlot (.ofLocalPart "a") "m") new ∧
      (∃ slot last, addLocal (.ofLocalPart "a") .int new = .ok slot last) ∧
      ∃ place, method.local? (.ofLocalPart "a") = some place ∧ place = ⟨65534, .int⟩ ∧
        place.slot.toNat + place.type.width ≤ method.nextSlot.toNat ∧
        addLocal (.ofLocalPart "a") .int method = .ok 65534 method := by
  intro new method
  have refused : addLocal (.ofLocalPart "a") .real new =
      .error (.noLocalSlot (.ofLocalPart "a") "m") new := addLocal_of_no_room nofun (by decide)
  have found : method.local? (.ofLocalPart "a") = some ⟨65534, .int⟩ := by decide +kernel
  have before := withLocals_new "m" { firstFreeSlot := 65534 } []
  have after := withLocals_new "m" { firstFreeSlot := 65534 }
    [(.ofLocalPart "a", .real), (.ofLocalPart "a", .int)]
  have failure := (before.2.2.2.2 _ _).2.2.2 _ _ refused
  refine ⟨refused, failure.2.2.2.2 _ .int (by decide), _, found, rfl, (after.1 _ _ found).2,
    (after.2.2.2.2 _ _).2.1 _ found⟩

end MethodDraft

end NodeNames
