import NodeNames.CompileUnit
import NodeNames.Proofs.NameCall.Checking
import NodeNames.Proofs.Sequencing
/-!
# The layout of local slots

The variables of a unit have their slots one after the other from the first
free slot on. A method gets this layout if the last slot is small enough for
an instruction, and otherwise none.
-/

namespace NodeNames

/-- The names of variables, as far as they identify them. -/
def variableNames (declared : List (QName × ValueType)) : List ExpandedName :=
  declared.map fun entry => entry.1.expandedName

theorem variableNames_cons (entry : QName × ValueType) (others : List (QName × ValueType)) :
    variableNames (entry :: others) = entry.1.expandedName :: variableNames others :=
  rfl

theorem variableNames_append (first second : List (QName × ValueType)) :
    variableNames (first ++ second) = variableNames first ++ variableNames second := by
  simp [variableNames]

def totalWidth : List (QName × ValueType) → Nat
  | [] => 0
  | (_, type) :: others => type.width + totalWidth others

def typeOf? (declared : List (QName × ValueType)) (name : QName) : Option ValueType :=
  (declared.find? fun entry => entry.1.expandedName = name.expandedName).map (·.2)

theorem typeOf?_cons (entry : QName × ValueType) (others : List (QName × ValueType))
    (name : QName) :
    typeOf? (entry :: others) name =
      if entry.1.expandedName = name.expandedName then some entry.2 else typeOf? others name := by
  rw [typeOf?, List.find?_cons]
  by_cases found : entry.1.expandedName = name.expandedName
  · simp [found]
  · simp [found, typeOf?]

theorem typeOf?_append (first second : List (QName × ValueType)) (name : QName) :
    typeOf? (first ++ second) name = (typeOf? first name).or (typeOf? second name) := by
  rw [typeOf?, List.find?_append, Option.map_or]
  rfl

/-- The place of a variable when variables have their slots one after the other. -/
def placeOf? (first : Nat) : List (QName × ValueType) → QName → Option LocalVariable
  | [], _ => none
  | (other, type) :: others, name =>
      if other.expandedName = name.expandedName then some { slot := UInt16.ofNat first, type }
      else placeOf? (first + type.width) others name

/-- A slot that is one of those set aside for a variable. -/
def LocalVariable.Occupies (place : LocalVariable) (slot : UInt16) : Prop :=
  place.slot.toNat ≤ slot.toNat ∧ slot.toNat < place.slot.toNat + place.type.width

instance (place : LocalVariable) (slot : UInt16) : Decidable (place.Occupies slot) :=
  inferInstanceAs (Decidable (_ ∧ _))

theorem map_type_placeOf? (first : Nat) (declared : List (QName × ValueType)) (name : QName) :
    (placeOf? first declared name).map (·.type) = typeOf? declared name := by
  induction declared generalizing first with
  | nil => rfl
  | cons entry others ih =>
      rcases entry with ⟨other, type⟩
      rw [placeOf?, typeOf?, List.find?_cons]
      by_cases same : other.expandedName = name.expandedName
      · simp [same]
      · simp only [same, if_false, decide_false]
        exact ih (first + type.width)

/-- The slots of a variable lie between the first one and the end of all variables. -/
theorem bounds_of_placeOf? {first : Nat} {declared : List (QName × ValueType)} {name : QName}
    {place : LocalVariable} (found : placeOf? first declared name = some place)
    (room : first + totalWidth declared ≤ 65535) :
    first ≤ place.slot.toNat ∧
      place.slot.toNat + place.type.width ≤ first + totalWidth declared := by
  induction declared generalizing first with
  | nil => cases found
  | cons entry others ih =>
      rcases entry with ⟨other, type⟩
      rw [totalWidth, ← Nat.add_assoc] at room ⊢
      rw [placeOf?] at found
      by_cases same : other.expandedName = name.expandedName
      · rw [if_pos same] at found
        cases found
        have slot : (UInt16.ofNat first).toNat = first := by
          rw [UInt16.toNat_ofNat']
          omega
        dsimp only
        rw [slot]
        omega
      · rw [if_neg same] at found
        have bounds := ih found room
        omega

section Lookup

variable {Key Value : Type} [DecidableEq Key]

theorem lookup_filter_of_ne {key other : Key} (different : key ≠ other)
    (entries : List (Key × Value)) :
    (entries.filter fun entry => entry.1 ≠ key).lookup other = entries.lookup other := by
  induction entries with
  | nil => rfl
  | cons entry others ih =>
      rcases entry with ⟨first, value⟩
      rw [List.filter_cons, List.lookup_cons]
      by_cases removed : first = key
      · have unlike : (other == first) = false := by
          simpa [removed] using different.symm
        rw [if_neg (by simpa using removed), unlike, ih]
      · rw [if_pos (by simpa using removed), List.lookup_cons, ih]

/-- An entry in place of the earlier ones for its key is found under this key only. -/
theorem lookup_replace (key other : Key) (value : Value) (entries : List (Key × Value)) :
    ((key, value) :: entries.filter fun entry => entry.1 ≠ key).lookup other =
      if key = other then some value else entries.lookup other := by
  rw [List.lookup_cons]
  by_cases same : key = other
  · simp [same]
  · have unlike : (other == key) = false := by simpa using Ne.symm same
    rw [unlike, if_neg same]
    exact lookup_filter_of_ne same entries

end Lookup

namespace MethodDraft

variable {method : MethodDraft} {name : QName} {type : ValueType}

/-- What a method with further variables has in common with the method before. -/
structure Widens (later earlier : MethodDraft) : Prop where
  name : later.name = earlier.name
  code : later.code = earlier.code
  documentSlot : later.documentSlot = earlier.documentSlot
  contextNodeSlot : later.contextNodeSlot = earlier.contextNodeSlot

theorem Widens.trans {first second third : MethodDraft} (later : third.Widens second)
    (earlier : second.Widens first) : third.Widens first :=
  ⟨later.name.trans earlier.name, later.code.trans earlier.code,
    later.documentSlot.trans earlier.documentSlot,
    later.contextNodeSlot.trans earlier.contextNodeSlot⟩

theorem addLocal_of_kept {slot : UInt16} (found : method.local? name = some ⟨slot, type⟩) :
    addLocal name type method = .ok slot method := by
  rw [addLocal, bind_get, found]
  exact congrFun (if_pos rfl) method

theorem addLocal_eq_allocate
    (changes : ∀ place, method.local? name = some place → place.type ≠ type) :
    addLocal name type method = allocate name type method := by
  rw [addLocal, bind_get]
  cases found : method.local? name with
  | none => rfl
  | some existing => exact congrFun (if_neg (changes existing found)) method

/-- A variable that is new, or has another type than before, gets the next free slots. -/
theorem addLocal_of_room
    (changes : ∀ place, method.local? name = some place → place.type ≠ type)
    (room : method.nextSlot.toNat + type.width ≤ 65535) :
    ∃ later, addLocal name type method = .ok method.nextSlot later ∧ later.Widens method ∧
      later.nextSlot.toNat = method.nextSlot.toNat + type.width ∧
      ∀ other, later.local? other =
        if name.expandedName = other.expandedName then some { slot := method.nextSlot, type }
        else method.local? other := by
  rw [addLocal_eq_allocate changes, allocate, bind_get, slotAfter?, if_pos room]
  refine ⟨_, rfl, ⟨rfl, rfl, rfl, rfl⟩, ?_, ?_⟩
  · rw [UInt16.toNat_add, UInt16.toNat_ofNat']
    omega
  · intro other
    rw [local?, lookup_replace]
    rfl

/-- Without room nothing has been changed when the failure is found. -/
theorem addLocal_of_no_room
    (changes : ∀ place, method.local? name = some place → place.type ≠ type)
    (full : 65535 < method.nextSlot.toNat + type.width) :
    addLocal name type method = .error (.noLocalSlot name method.name) method := by
  rw [addLocal_eq_allocate changes, allocate, bind_get, slotAfter?, if_neg (Nat.not_le.mpr full)]
  rfl

/-- A method that has a variable with a type already. -/
def Has (method : MethodDraft) (name : QName) (type : ValueType) : Prop :=
  (method.local? name).map (·.type) = some type

/-- What becomes of a method and a request for a variable of it. -/
inductive Request (method : MethodDraft) (name : QName) (type : ValueType) :
    EStateM.Result CompileError MethodDraft UInt16 → Prop where
  | kept (slot : UInt16) (found : method.local? name = some ⟨slot, type⟩) :
      Request method name type (.ok slot method)
  | allocated (later : MethodDraft) (changes : ¬method.Has name type)
      (room : method.nextSlot.toNat + type.width ≤ 65535) (widens : later.Widens method)
      (nextSlot : later.nextSlot.toNat = method.nextSlot.toNat + type.width)
      (found : ∀ other, later.local? other =
        if name.expandedName = other.expandedName then some ⟨method.nextSlot, type⟩
        else method.local? other) :
      Request method name type (.ok method.nextSlot later)
  | refused (changes : ¬method.Has name type)
      (full : 65535 < method.nextSlot.toNat + type.width) :
      Request method name type (.error (.noLocalSlot name method.name) method)

theorem request_addLocal (method : MethodDraft) (name : QName) (type : ValueType) :
    method.Request name type (addLocal name type method) := by
  by_cases has : method.Has name type
  · rcases Option.map_eq_some_iff.mp has with ⟨⟨slot, _⟩, found, rfl⟩
    rw [addLocal_of_kept found]
    exact .kept slot found
  · have changes (place : LocalVariable) (found : method.local? name = some place) :
        place.type ≠ type := by
      rintro rfl
      exact has (by rw [Has, found, Option.map_some])
    by_cases room : method.nextSlot.toNat + type.width ≤ 65535
    · rcases addLocal_of_room changes room with ⟨later, added, widens, nextSlot, found⟩
      rw [added]
      exact .allocated later has room widens nextSlot found
    · have full := Nat.lt_of_not_le room
      rw [addLocal_of_no_room changes full]
      exact .refused has full

/-- A request for a variable leaves the name, the code and the reserved slots as they are. -/
theorem widens_addLocal (method : MethodDraft) (name : QName) (type : ValueType) :
    (leftBehind (addLocal name type method)).Widens method := by
  have outcome := request_addLocal method name type
  generalize addLocal name type method = result at outcome ⊢
  cases outcome with
  | kept slot found => exact ⟨rfl, rfl, rfl, rfl⟩
  | allocated later changes room widens nextSlot found => exact widens
  | refused changes full => exact ⟨rfl, rfl, rfl, rfl⟩

end MethodDraft

namespace CompileUnit

variable {method : MethodDraft} {declared : List (QName × ValueType)}

theorem local?_eq_none_of_added {later : MethodDraft} {name : QName} {type : ValueType}
    {place : LocalVariable} (new : name.expandedName ∉ variableNames declared)
    (fresh : ∀ entry ∈ (name, type) :: declared, method.local? entry.1 = none)
    (found : ∀ other, later.local? other =
      if name.expandedName = other.expandedName then some place else method.local? other) :
    ∀ entry ∈ declared, later.local? entry.1 = none := by
  intro entry isOther
  have different : name.expandedName ≠ entry.1.expandedName := by
    intro same
    exact new (List.mem_map.mpr ⟨entry, isOther, same.symm⟩)
  rw [found, if_neg different]
  exact fresh entry (by simp [isOther])

theorem changes_of_unknown {name : QName} {type : ValueType} (unknown : method.local? name = none) :
    ∀ place, method.local? name = some place → place.type ≠ type := by
  simp [unknown]

/-- Variables that find room have their slots one after the other. -/
theorem allocateVariables_of_room (distinct : (variableNames declared).Nodup)
    (fresh : ∀ entry ∈ declared, method.local? entry.1 = none)
    (room : method.nextSlot.toNat + totalWidth declared ≤ 65535) :
    ∃ later, allocateVariables declared method = .ok () later ∧ later.Widens method ∧
      later.nextSlot.toNat = method.nextSlot.toNat + totalWidth declared ∧
      ∀ name, later.local? name =
        (method.local? name).or (placeOf? method.nextSlot.toNat declared name) := by
  induction declared generalizing method with
  | nil =>
      refine ⟨method, rfl, ⟨rfl, rfl, rfl, rfl⟩, rfl, ?_⟩
      intro name
      simp [placeOf?]
  | cons entry others ih =>
      rcases entry with ⟨name, type⟩
      rw [variableNames_cons, List.nodup_cons] at distinct
      rw [totalWidth, ← Nat.add_assoc] at room
      have unknown := fresh (name, type) (by simp)
      rcases MethodDraft.addLocal_of_room (changes_of_unknown unknown)
        (by omega : method.nextSlot.toNat + type.width ≤ 65535) with
        ⟨next, added, widens, nextSlot, found⟩
      have stillFresh := local?_eq_none_of_added distinct.1 fresh found
      rcases ih distinct.2 stillFresh (by rwa [nextSlot]) with
        ⟨later, allocated, laterWidens, lastSlot, laterFound⟩
      refine ⟨later, ?_, laterWidens.trans widens, ?_, ?_⟩
      · rw [allocateVariables, bind_of_eq_ok added]
        exact allocated
      · rw [lastSlot, nextSlot, totalWidth, Nat.add_assoc]
      · intro other
        rw [laterFound, found, nextSlot, placeOf?]
        by_cases same : name.expandedName = other.expandedName
        · rw [MethodDraft.local?, same] at unknown
          rw [MethodDraft.local?, unknown, if_pos same, if_pos same, UInt16.ofNat_toNat]
          rfl
        · rw [if_neg same, if_neg same]

theorem allocateVariables_of_no_room (distinct : (variableNames declared).Nodup)
    (fresh : ∀ entry ∈ declared, method.local? entry.1 = none)
    (full : 65535 < method.nextSlot.toNat + totalWidth declared) :
    ∃ name later,
      allocateVariables declared method = .error (.noLocalSlot name method.name) later := by
  induction declared generalizing method with
  | nil =>
      have small := method.nextSlot.toNat_lt
      rw [totalWidth] at full
      omega
  | cons entry others ih =>
      rcases entry with ⟨name, type⟩
      rw [variableNames_cons, List.nodup_cons] at distinct
      rw [totalWidth, ← Nat.add_assoc] at full
      have unknown := fresh (name, type) (by simp)
      by_cases room : method.nextSlot.toNat + type.width ≤ 65535
      · rcases MethodDraft.addLocal_of_room (changes_of_unknown unknown) room with
          ⟨next, added, widens, nextSlot, found⟩
        have stillFresh := local?_eq_none_of_added distinct.1 fresh found
        rcases ih distinct.2 stillFresh (by rwa [nextSlot]) with
          ⟨overflowing, later, refused⟩
        refine ⟨overflowing, later, ?_⟩
        rw [allocateVariables, bind_of_eq_ok added, ← widens.name]
        exact refused
      · refine ⟨name, method, ?_⟩
        exact bind_of_eq_error (MethodDraft.addLocal_of_no_room (changes_of_unknown unknown)
          (Nat.lt_of_not_le room))

end CompileUnit

end NodeNames
