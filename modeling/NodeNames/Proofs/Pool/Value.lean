import Mathlib.Data.List.Basic
import NodeNames.Pool.Basic
/-!
# Constant values

A constant value is a constant with its parts in full, where an entry of a
pool has only their indices. Asking a pool for a value asks it for the parts
first; `absorb` says what a pool with room for a limited number of values
holds afterwards.
-/

namespace NodeNames

/-- A constant with its parts in full. -/
inductive ConstantValue where
  | utf8 (text : String)
  | integer (value : Int)
  | string (text : String)
  | classEntry (name : String)
  | nameAndType (name descriptor : String)
  | method (reference : MethodReference)
deriving DecidableEq

namespace ConstantValue

/-- Adds a value to a pool, with the parts that the pool does not have. -/
def add : ConstantValue → PoolAction PoolIndex
  | utf8 text => ConstantPool.addText text
  | integer value => ConstantPool.addInteger value
  | string text => ConstantPool.addString text
  | classEntry name => ConstantPool.addClass name
  | nameAndType name descriptor => ConstantPool.addNameAndType name descriptor
  | method reference => ConstantPool.addMethodReference reference

/-- Why a value is refused whatever is in the pool: a method needs a descriptor that can be read. -/
def fault? : ConstantValue → Option CompileError
  | method reference =>
      match MethodSignature.ofDescriptor reference.descriptor with
      | .ok _ => none
      | .error error => some error
  | _ => none

/-- The values whose indices the entry for a value has. -/
def parts : ConstantValue → List ConstantValue
  | utf8 _ | integer _ => []
  | string text => [utf8 text]
  | classEntry name => [utf8 name]
  | nameAndType name descriptor => [utf8 name, utf8 descriptor]
  | method reference =>
      [classEntry reference.owner, nameAndType reference.name reference.descriptor]

/-- The values that adding one asks for, in order; the last one is the value itself. -/
def constituents : ConstantValue → List ConstantValue
  | utf8 text => [utf8 text]
  | integer value => [integer value]
  | string text => [utf8 text, string text]
  | classEntry name => [utf8 name, classEntry name]
  | nameAndType name descriptor => [utf8 name, utf8 descriptor, nameAndType name descriptor]
  | method reference =>
      [utf8 reference.owner, classEntry reference.owner, utf8 reference.name,
        utf8 reference.descriptor, nameAndType reference.name reference.descriptor,
        method reference]

/-- The entry for a value in a pool that numbers its parts in a given way. -/
def entry (number : ConstantValue → PoolIndex) : ConstantValue → Constant
  | utf8 text => .utf8 text
  | integer value => .integer value
  | string text => .string (number (utf8 text))
  | classEntry name => .classEntry (number (utf8 name))
  | nameAndType name descriptor => .nameAndType (number (utf8 name)) (number (utf8 descriptor))
  | method reference =>
      .methodReference reference.kind (number (classEntry reference.owner))
        (number (nameAndType reference.name reference.descriptor))

/-- The index of a value in a pool that holds the given values in order. -/
def indexIn (values : List ConstantValue) (value : ConstantValue) : PoolIndex :=
  values.idxOf value + 1

theorem mem_constituents (value : ConstantValue) : value ∈ value.constituents := by
  cases value <;> simp [constituents]

/-- What holds of a value, and of the parts of what it holds of, holds of all constituents. -/
theorem of_mem_constituents {motive : ConstantValue → Prop} {whole : ConstantValue}
    (top : motive whole)
    (descend : ∀ value, motive value → ∀ part ∈ value.parts, motive part) :
    ∀ value ∈ whole.constituents, motive value := by
  have below := descend whole top
  cases whole with
  | utf8 text => simpa [constituents] using top
  | integer number => simpa [constituents] using top
  | string text => simpa [constituents, parts, top] using below
  | classEntry name => simpa [constituents, parts, top] using below
  | nameAndType name descriptor => simpa [constituents, parts, top] using below
  | method reference =>
      have owner := below (classEntry reference.owner) (by simp [parts])
      have nameType := below (nameAndType reference.name reference.descriptor) (by simp [parts])
      have ownerText := descend _ owner (utf8 reference.owner) (by simp [parts])
      have nameText := descend _ nameType (utf8 reference.name) (by simp [parts])
      have descriptorText := descend _ nameType (utf8 reference.descriptor) (by simp [parts])
      simpa [constituents] using
        ⟨ownerText, owner, nameText, descriptorText, nameType, top⟩

/-- The parts of a value are texts, classes, names and types, which nothing is wrong with. -/
theorem fault?_of_mem_parts {value part : ConstantValue} (isPart : part ∈ value.parts) :
    part.fault? = none := by
  cases value with
  | utf8 text | integer number => simp [parts] at isPart
  | string text | classEntry text =>
      rw [List.mem_singleton.mp isPart]
      rfl
  | nameAndType name descriptor | method reference =>
      rcases List.mem_pair.mp isPart with rfl | rfl <;> rfl

theorem fault?_of_mem_constituents {value part : ConstantValue} (sound : value.fault? = none)
    (isPart : part ∈ value.constituents) : part.fault? = none :=
  of_mem_constituents (motive := fun known => known.fault? = none) sound
    (fun _ _ _ => fault?_of_mem_parts) part isPart

theorem entry_congr {value : ConstantValue} {first second : ConstantValue → PoolIndex}
    (agree : ∀ part ∈ value.parts, first part = second part) :
    value.entry first = value.entry second := by
  cases value <;> simp_all [entry, parts]

/-- Values with the same entry are equal if their parts are numbered apart. -/
theorem eq_of_entry_eq {number : ConstantValue → PoolIndex} {first second : ConstantValue}
    (apart : ∀ part ∈ first.parts, ∀ other ∈ second.parts,
      number part = number other → part = other)
    (same : first.entry number = second.entry number) : first = second := by
  cases first with
  | method reference =>
      cases second with
      | method other =>
          cases reference
          cases other
          simp_all [entry, parts]
      | _ => simp [entry] at same
  | _ => cases second <;> simp_all [entry, parts]

theorem indexIn_inj {values : List ConstantValue} {first second : ConstantValue}
    (known : first ∈ values) (same : indexIn values first = indexIn values second) :
    first = second :=
  (List.idxOf_inj known).mp (Nat.succ.inj same)

theorem indexIn_of_longer {earlier later : List ConstantValue} {value : ConstantValue}
    (longer : earlier <+: later) (known : value ∈ earlier) :
    indexIn later value = indexIn earlier value := by
  rcases longer with ⟨added, rfl⟩
  simp [indexIn, List.idxOf_append_of_mem known]

/--
The values of a pool after it has been asked for some in order, and whether all of them have found
room. A value is appended unless the pool holds it, and the first one without room ends the matter.
-/
def absorb (limit : Nat) (values : List ConstantValue) :
    List ConstantValue → List ConstantValue × Bool
  | [] => (values, true)
  | wanted :: others =>
      if wanted ∈ values then absorb limit values others
      else if values.length < limit then absorb limit (values ++ [wanted]) others
      else (values, false)

theorem absorb_append (limit : Nat) (values first second : List ConstantValue) :
    absorb limit values (first ++ second) =
      if (absorb limit values first).2 then absorb limit (absorb limit values first).1 second
      else ((absorb limit values first).1, false) := by
  induction first generalizing values with
  | nil => simp [absorb]
  | cons wanted others ih =>
      simp only [List.cons_append, absorb]
      split_ifs <;> simp_all

theorem prefix_absorb (limit : Nat) (values wanted : List ConstantValue) :
    values <+: (absorb limit values wanted).1 := by
  induction wanted generalizing values with
  | nil => exact List.prefix_rfl
  | cons first others ih =>
      simp only [absorb]
      split_ifs
      · exact ih values
      · exact (List.prefix_append values [first]).trans (ih (values ++ [first]))
      · exact List.prefix_rfl

theorem mem_absorb {limit : Nat} {values wanted : List ConstantValue} {value : ConstantValue}
    (room : (absorb limit values wanted).2 = true) (asked : value ∈ wanted) :
    value ∈ (absorb limit values wanted).1 := by
  induction wanted generalizing values with
  | nil => simp at asked
  | cons first others ih =>
      simp only [absorb] at room ⊢
      split_ifs at room ⊢ with held free
      · rcases List.mem_cons.mp asked with rfl | later
        · exact (prefix_absorb limit values others).subset held
        · exact ih room later
      · rcases List.mem_cons.mp asked with rfl | later
        · exact (prefix_absorb limit _ others).subset (by simp)
        · exact ih room later

/-- A pool holds nothing but what it has held before and what it has been asked for. -/
theorem of_mem_absorb {limit : Nat} {values wanted : List ConstantValue} {value : ConstantValue}
    (held : value ∈ (absorb limit values wanted).1) : value ∈ values ∨ value ∈ wanted := by
  induction wanted generalizing values with
  | nil => exact .inl held
  | cons first others ih =>
      simp only [absorb] at held
      split_ifs at held
      · rcases ih held with old | asked
        · exact .inl old
        · exact .inr (List.mem_cons_of_mem _ asked)
      · rcases ih held with old | asked
        · rcases List.mem_append.mp old with before | isFirst
          · exact .inl before
          · exact .inr (by simp [List.mem_singleton.mp isFirst])
        · exact .inr (List.mem_cons_of_mem _ asked)
      · exact .inl held

/-- Values that the pool holds already change nothing. -/
theorem absorb_of_subset {limit : Nat} {values wanted : List ConstantValue}
    (held : ∀ value ∈ wanted, value ∈ values) : absorb limit values wanted = (values, true) := by
  induction wanted with
  | nil => rfl
  | cons first others ih =>
      rw [absorb, if_pos (held first (by simp))]
      exact ih fun value mem => held value (by simp [mem])

/-- Asking again for values changes nothing, whether they have found room or not. -/
theorem absorb_append_of_subset {limit : Nat} {values first second : List ConstantValue}
    (again : ∀ value ∈ second, value ∈ first) :
    absorb limit values (first ++ second) = absorb limit values first := by
  rw [absorb_append]
  split_ifs with room
  · rw [absorb_of_subset fun value asked => mem_absorb room (again value asked), ← room]
  · rw [Bool.not_eq_true] at room
    rw [← room]

/-- What is absorbed under any limit fits under a limit that leaves room for all of it. -/
theorem length_absorb_le_of_room {limit bound : Nat} {values wanted : List ConstantValue}
    (fits : values.length ≤ bound) (room : (absorb bound values wanted).2 = true) :
    (absorb limit values wanted).1.length ≤ bound := by
  induction wanted generalizing values with
  | nil => exact fits
  | cons first others ih =>
      simp only [absorb] at room ⊢
      split_ifs at room ⊢ with held free within
      · exact ih fits room
      · refine ih ?_ room
        rw [List.length_append]
        exact within
      · exact fits

/-- Values find room unless the pool gets full. -/
theorem limit_lt_of_absorb {limit : Nat} {values wanted : List ConstantValue}
    (full : (absorb limit values wanted).2 = false) : limit < values.length + wanted.length := by
  induction wanted generalizing values with
  | nil => simp [absorb] at full
  | cons first others ih =>
      simp only [absorb] at full
      simp only [List.length_cons]
      split_ifs at full with held free
      · have := ih full
        omega
      · have := ih full
        simp only [List.length_append, List.length_singleton] at this
        omega
      · omega

end ConstantValue

end NodeNames
