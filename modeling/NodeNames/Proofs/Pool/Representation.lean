import NodeNames.Proofs.Interner
import NodeNames.Proofs.Pool.Value
import NodeNames.Proofs.Sequencing
/-!
# What a pool represents

A pool represents a list of constant values: its entries are those of the
values in order, with the places of the parts for their indices. The empty
pool represents no values, and every addition turns the list into the one that
`ConstantValue.absorb` gives. All facts about reachable pools follow from the
list that they represent.
-/

namespace NodeNames

open ConstantValue

namespace ConstantPool

/-- The entries of a pool are those of given values, each once and after its parts. -/
structure Represents (pool : ConstantPool) (values : List ConstantValue) : Prop where
  consistent : pool.entries.Consistent
  items : pool.entries.items.toList = values.map (entry (indexIn values))
  distinct : values.Nodup
  partsBefore : ∀ position value, values[position]? = some value →
    ∀ part ∈ value.parts, part ∈ values.take position
  length_le : values.length ≤ pool.limit

/-- The value with an index, if all its parts can be found. -/
def valueAt? (pool : ConstantPool) (index : PoolIndex) : Option ConstantValue :=
  match pool.get? index with
  | some (.utf8 text) => some (.utf8 text)
  | some (.integer value) => some (.integer value)
  | some (.string text) => (pool.text? text).map .string
  | some (.classEntry _) => (pool.className? index).map .classEntry
  | some (.nameAndType _ _) =>
      (pool.nameAndType? index).map fun found => .nameAndType found.1 found.2
  | some (.methodReference _ _ _) => (pool.methodReference? index).map .method
  | none => none

theorem represents_withLimit (limit : Nat) : (withLimit limit).Represents [] where
  consistent := Interner.consistent_empty
  items := rfl
  distinct := List.nodup_nil
  partsBefore := by simp
  length_le := Nat.zero_le _

namespace Represents

variable {pool : ConstantPool} {values : List ConstantValue}

theorem size_eq (represents : pool.Represents values) : pool.size = values.length := by
  have sameLength := congrArg List.length represents.items
  simpa [size, Interner.size] using sameLength

theorem part_mem (represents : pool.Represents values) {value part : ConstantValue}
    (known : value ∈ values) (isPart : part ∈ value.parts) : part ∈ values := by
  rcases List.mem_iff_getElem?.mp known with ⟨position, found⟩
  exact List.mem_of_mem_take (represents.partsBefore position value found part isPart)

theorem get?_succ (represents : pool.Represents values) (position : Nat) :
    pool.get? (position + 1) = values[position]?.map (entry (indexIn values)) := by
  simp only [get?, Nat.add_one_ne_zero, if_false, Nat.add_sub_cancel]
  rw [← Array.getElem?_toList, represents.items, List.getElem?_map]

theorem get?_indexIn (represents : pool.Represents values) {value : ConstantValue}
    (known : value ∈ values) :
    pool.get? (indexIn values value) = some (value.entry (indexIn values)) := by
  simp [indexIn, represents.get?_succ, List.getElem?_idxOf known]

theorem text?_indexIn (represents : pool.Represents values) {text : String}
    (known : utf8 text ∈ values) : pool.text? (indexIn values (utf8 text)) = some text := by
  simp [text?, represents.get?_indexIn known, entry]

theorem className?_indexIn (represents : pool.Represents values) {name : String}
    (known : classEntry name ∈ values) :
    pool.className? (indexIn values (classEntry name)) = some name := by
  have text : pool.text? (indexIn values (utf8 name)) = some name :=
    represents.text?_indexIn (represents.part_mem known (by simp [parts]))
  simp [className?, represents.get?_indexIn known, entry, text]

theorem nameAndType?_indexIn (represents : pool.Represents values) {name descriptor : String}
    (known : nameAndType name descriptor ∈ values) :
    pool.nameAndType? (indexIn values (nameAndType name descriptor)) = some (name, descriptor) := by
  have nameText : pool.text? (indexIn values (utf8 name)) = some name :=
    represents.text?_indexIn (represents.part_mem known (by simp [parts]))
  have descriptorText : pool.text? (indexIn values (utf8 descriptor)) = some descriptor :=
    represents.text?_indexIn (represents.part_mem known (by simp [parts]))
  simp [nameAndType?, represents.get?_indexIn known, entry, nameText, descriptorText]

theorem methodReference?_indexIn (represents : pool.Represents values)
    {reference : MethodReference} (known : method reference ∈ values) :
    pool.methodReference? (indexIn values (method reference)) = some reference := by
  have owner : pool.className? (indexIn values (classEntry reference.owner)) =
      some reference.owner :=
    represents.className?_indexIn (represents.part_mem known (by simp [parts]))
  have nameType : pool.nameAndType?
      (indexIn values (nameAndType reference.name reference.descriptor)) =
        some (reference.name, reference.descriptor) :=
    represents.nameAndType?_indexIn (represents.part_mem known (by simp [parts]))
  simp [methodReference?, represents.get?_indexIn known, entry, owner, nameType]

/-- The index of a value gives the value back. -/
theorem valueAt?_indexIn (represents : pool.Represents values) {value : ConstantValue}
    (known : value ∈ values) : pool.valueAt? (indexIn values value) = some value := by
  have found := represents.get?_indexIn known
  cases value with
  | utf8 text => simp [valueAt?, found, entry]
  | integer value => simp [valueAt?, found, entry]
  | string text =>
      have content : pool.text? (indexIn values (utf8 text)) = some text :=
        represents.text?_indexIn (represents.part_mem known (by simp [parts]))
      simp [valueAt?, found, entry, content]
  | classEntry name => simp [valueAt?, found, entry, represents.className?_indexIn known]
  | nameAndType name descriptor =>
      simp [valueAt?, found, entry, represents.nameAndType?_indexIn known]
  | method reference =>
      simp [valueAt?, found, entry, represents.methodReference?_indexIn known]

theorem valueAt?_succ (represents : pool.Represents values) (position : Nat) :
    pool.valueAt? (position + 1) = values[position]? := by
  cases found : values[position]? with
  | none => simp [valueAt?, represents.get?_succ, found]
  | some value =>
      have known := List.mem_of_getElem? found
      have place : values.idxOf value = position := by
        rcases List.getElem?_eq_some_iff.mp found with ⟨inside, rfl⟩
        exact represents.distinct.idxOf_getElem position inside
      rw [← represents.valueAt?_indexIn known, indexIn, place]

theorem position?_entry (represents : pool.Represents values) {value : ConstantValue}
    (known : value ∈ values) :
    pool.entries.position? (value.entry (indexIn values)) = some (values.idxOf value) := by
  rw [represents.consistent, ← Array.getElem?_toList, represents.items, List.getElem?_map,
    List.getElem?_idxOf known]
  rfl

theorem position?_entry_of_unknown (represents : pool.Represents values) {value : ConstantValue}
    (unknown : value ∉ values) :
    pool.entries.position? (value.entry (indexIn values)) = none := by
  by_contra found
  rcases Option.ne_none_iff_exists'.mp found with ⟨position, found⟩
  rw [represents.consistent, ← Array.getElem?_toList, represents.items, List.getElem?_map,
    Option.map_eq_some_iff] at found
  rcases found with ⟨other, atPosition, sameEntry⟩
  have otherKnown := List.mem_of_getElem? atPosition
  have same : other = value := by
    apply eq_of_entry_eq _ sameEntry
    intro part isPart otherPart otherIsPart sameIndex
    exact indexIn_inj (represents.part_mem otherKnown isPart) sameIndex
  exact unknown (same ▸ otherKnown)

/-- A value whose parts are known is appended to the values of a pool that has room. -/
theorem push (represents : pool.Represents values) {value : ConstantValue}
    (partsKnown : ∀ part ∈ value.parts, part ∈ values) (unknown : value ∉ values)
    (room : values.length < pool.limit) :
    ConstantPool.Represents
      { pool with entries := pool.entries.push (value.entry (indexIn values)) }
      (values ++ [value]) where
  consistent := Interner.consistent_push represents.consistent
    (represents.position?_entry_of_unknown unknown)
  items := by
    have longer := List.prefix_append values [value]
    have old : values.map (entry (indexIn (values ++ [value]))) =
        values.map (entry (indexIn values)) := by
      apply List.map_congr_left
      intro known knownMem
      apply entry_congr
      intro part isPart
      exact indexIn_of_longer longer (represents.part_mem knownMem isPart)
    have new : value.entry (indexIn (values ++ [value])) = value.entry (indexIn values) := by
      apply entry_congr
      intro part isPart
      exact indexIn_of_longer longer (partsKnown part isPart)
    simp [Interner.push, represents.items, old, new]
  distinct := by
    rw [List.nodup_append]
    refine ⟨represents.distinct, by simp, ?_⟩
    intro known knownMem added addedMem same
    rw [List.mem_singleton] at addedMem
    exact unknown (addedMem ▸ same ▸ knownMem)
  partsBefore := by
    intro position found atPosition part isPart
    by_cases old : position < values.length
    · rw [List.getElem?_append_left old] at atPosition
      have before := represents.partsBefore position found atPosition part isPart
      rwa [List.take_append_of_le_length (Nat.le_of_lt old)]
    · rcases List.getElem?_eq_some_iff.mp atPosition with ⟨inside, rfl⟩
      simp only [List.length_append, List.length_singleton] at inside
      have atEnd : position = values.length := by omega
      subst atEnd
      simp only [List.getElem_concat_length] at isPart
      simpa using partsKnown part isPart
  length_le := by
    rw [List.length_append, List.length_singleton]
    exact room

end Represents

/--
What comes of asking a pool for some values: the pool then represents the given outcome, and the
answer is given if there was room for all of them.
-/
def Answers {Answer : Type} (limit : Nat) (outcome : List ConstantValue × Bool)
    (answer : List ConstantValue → Answer) :
    EStateM.Result CompileError ConstantPool Answer → Prop
  | .ok given pool =>
      outcome.2 = true ∧ pool.limit = limit ∧ pool.Represents outcome.1 ∧ given = answer outcome.1
  | .error error pool =>
      outcome.2 = false ∧ pool.limit = limit ∧ pool.Represents outcome.1 ∧
        error = .poolExhausted limit

/-- Interning the entry for a value asks for that value. -/
theorem answers_intern {pool : ConstantPool} {values : List ConstantValue}
    (represents : pool.Represents values) (value : ConstantValue)
    (partsKnown : ∀ part ∈ value.parts, part ∈ values) :
    Answers pool.limit (absorb pool.limit values [value]) (indexIn · value)
      (intern (value.entry (indexIn values)) pool) := by
  by_cases known : value ∈ values
  · simp [intern, represents.position?_entry known, absorb, known, Answers, represents, indexIn]
  · simp only [intern, represents.position?_entry_of_unknown known, absorb, known, if_false,
      represents.size_eq]
    split_ifs with room
    · refine ⟨rfl, rfl, represents.push partsKnown known room, ?_⟩
      simp [indexIn, List.idxOf_append_of_notMem known]
    · exact ⟨rfl, rfl, represents, rfl⟩

/-- Asking for values and then, with the answer to that, for others. -/
theorem answers_bind {First Second : Type} {pool : ConstantPool}
    {values needed others : List ConstantValue} {firstAnswer : List ConstantValue → First}
    {answer : List ConstantValue → Second} {action : PoolAction First}
    {next : First → PoolAction Second}
    (answers : Answers pool.limit (absorb pool.limit values needed) firstAnswer (action pool))
    (continues : ∀ later held, later.Represents held → later.limit = pool.limit →
      values <+: held → (∀ value ∈ needed, value ∈ held) →
      Answers pool.limit (absorb pool.limit held others) answer (next (firstAnswer held) later)) :
    Answers pool.limit (absorb pool.limit values (needed ++ others)) answer
      ((action >>= next) pool) := by
  rw [absorb_append]
  cases result : action pool with
  | ok given later =>
      rw [bind_of_eq_ok result]
      rw [result] at answers
      rcases answers with ⟨room, sameLimit, represents, rfl⟩
      rw [room, if_pos rfl]
      exact continues later _ represents sameLimit (prefix_absorb _ _ _)
        fun value asked => mem_absorb room asked
  | error error later =>
      rw [bind_of_eq_error result]
      rw [result] at answers
      rcases answers with ⟨full, sameLimit, represents, rfl⟩
      rw [full, if_neg Bool.false_ne_true]
      exact ⟨rfl, sameLimit, represents, rfl⟩

/-- An answer that is made from another one. -/
theorem answers_map {First Second : Type} {pool : ConstantPool}
    {values needed : List ConstantValue} {firstAnswer : List ConstantValue → First}
    {action : PoolAction First} (convert : First → Second)
    (answers : Answers pool.limit (absorb pool.limit values needed) firstAnswer (action pool)) :
    Answers pool.limit (absorb pool.limit values needed) (fun held => convert (firstAnswer held))
      ((do return convert (← action)) pool) := by
  rw [← List.append_nil needed]
  apply answers_bind answers
  intro later held represents sameLimit _ _
  exact ⟨rfl, sameLimit, represents, rfl⟩

variable {pool : ConstantPool} {values : List ConstantValue}

theorem answers_addText (represents : pool.Represents values) (text : String) :
    Answers pool.limit (absorb pool.limit values [utf8 text]) (indexIn · (utf8 text))
      (addText text pool) :=
  answers_intern represents (utf8 text) (by simp [parts])

theorem answers_addInteger (represents : pool.Represents values) (value : Int) :
    Answers pool.limit (absorb pool.limit values [integer value]) (indexIn · (integer value))
      (addInteger value pool) :=
  answers_intern represents (integer value) (by simp [parts])

theorem answers_addString (represents : pool.Represents values) (text : String) :
    Answers pool.limit (absorb pool.limit values (string text).constituents)
      (indexIn · (string text)) (addString text pool) := by
  apply answers_bind (answers_addText represents text)
  intro later held laterRepresents sameLimit _ known
  rw [← sameLimit]
  exact answers_intern laterRepresents (string text) (by simpa [parts] using known)

theorem answers_addClass (represents : pool.Represents values) (name : String) :
    Answers pool.limit (absorb pool.limit values (classEntry name).constituents)
      (indexIn · (classEntry name)) (addClass name pool) := by
  apply answers_bind (answers_addText represents name)
  intro later held laterRepresents sameLimit _ known
  rw [← sameLimit]
  exact answers_intern laterRepresents (classEntry name) (by simpa [parts] using known)

theorem answers_addNameAndType (represents : pool.Represents values) (name descriptor : String) :
    Answers pool.limit (absorb pool.limit values (nameAndType name descriptor).constituents)
      (indexIn · (nameAndType name descriptor)) (addNameAndType name descriptor pool) := by
  apply answers_bind (answers_addText represents name)
  intro later held laterRepresents sameLimit _ heldAll
  have nameKnown := heldAll (utf8 name) (by simp)
  rw [← sameLimit]
  apply answers_bind (answers_addText laterRepresents descriptor)
  intro last all lastRepresents lastLimit longer lastHeld
  have descriptorKnown := lastHeld (utf8 descriptor) (by simp)
  have nameStays := longer.subset nameKnown
  rw [← indexIn_of_longer longer nameKnown, ← lastLimit]
  exact answers_intern lastRepresents (nameAndType name descriptor)
    (by simp [parts, nameStays, descriptorKnown])

/-- A reference whose descriptor can be read asks for all its constituents. -/
theorem answers_addMethodReference (represents : pool.Represents values)
    {reference : MethodReference} {signature : MethodSignature}
    (readable : MethodSignature.ofDescriptor reference.descriptor = .ok signature) :
    Answers pool.limit (absorb pool.limit values (method reference).constituents)
      (indexIn · (method reference)) (addMethodReference reference pool) := by
  simp only [addMethodReference, readable]
  apply answers_bind (answers_addClass represents reference.owner)
  intro later held laterRepresents sameLimit _ heldAll
  have ownerKnown := heldAll (classEntry reference.owner) (mem_constituents _)
  rw [← sameLimit]
  apply answers_bind
    (answers_addNameAndType laterRepresents reference.name reference.descriptor)
  intro last all lastRepresents lastLimit longer lastHeld
  have nameTypeKnown :=
    lastHeld (nameAndType reference.name reference.descriptor) (mem_constituents _)
  have ownerStays := longer.subset ownerKnown
  rw [← indexIn_of_longer longer ownerKnown, ← lastLimit]
  exact answers_intern lastRepresents (method reference)
    (by simp [parts, ownerStays, nameTypeKnown])

/-- A reference whose descriptor cannot be read is refused and changes nothing. -/
theorem addMethodReference_of_malformed {reference : MethodReference} {error : CompileError}
    (malformed : MethodSignature.ofDescriptor reference.descriptor = .error error)
    (pool : ConstantPool) : addMethodReference reference pool = .error error pool := by
  simp only [addMethodReference, malformed]
  rfl

theorem answers_add (represents : pool.Represents values) {value : ConstantValue}
    (sound : value.fault? = none) :
    Answers pool.limit (absorb pool.limit values value.constituents) (indexIn · value)
      (value.add pool) := by
  cases value with
  | utf8 text => exact answers_addText represents text
  | integer value => exact answers_addInteger represents value
  | string text => exact answers_addString represents text
  | classEntry name => exact answers_addClass represents name
  | nameAndType name descriptor => exact answers_addNameAndType represents name descriptor
  | method reference =>
      cases readable : MethodSignature.ofDescriptor reference.descriptor with
      | ok signature => exact answers_addMethodReference represents readable
      | error error => simp [fault?, readable] at sound

theorem add_of_fault {value : ConstantValue} {error : CompileError}
    (faulty : value.fault? = some error) (pool : ConstantPool) :
    value.add pool = .error error pool := by
  cases value with
  | method reference =>
      cases readable : MethodSignature.ofDescriptor reference.descriptor with
      | ok signature => simp [fault?, readable] at faulty
      | error cause =>
          simp only [fault?, readable, Option.some.injEq] at faulty
          subst faulty
          exact addMethodReference_of_malformed readable pool
  | _ => simp [fault?] at faulty

/-- A value that has been added is among the values of the pool, under its index. -/
theorem represents_of_add_eq_ok (represents : pool.Represents values) {value : ConstantValue}
    {index : PoolIndex} {later : ConstantPool} (added : value.add pool = .ok index later) :
    ∃ held, values <+: held ∧ later.Represents held ∧ value ∈ held ∧
      index = indexIn held value := by
  cases faulty : value.fault? with
  | some error => simp [add_of_fault faulty] at added
  | none =>
      have answers := answers_add represents faulty
      rw [added] at answers
      rcases answers with ⟨room, _, laterRepresents, sameIndex⟩
      exact ⟨_, prefix_absorb _ _ _, laterRepresents,
        mem_absorb room (mem_constituents value), sameIndex⟩

theorem intern_of_mem (represents : pool.Represents values) {value : ConstantValue}
    (known : value ∈ values) :
    intern (value.entry (indexIn values)) pool = .ok (indexIn values value) pool := by
  simp [intern, represents.position?_entry known, indexIn]

theorem addText_of_mem (represents : pool.Represents values) {text : String}
    (known : utf8 text ∈ values) : addText text pool = .ok (indexIn values (utf8 text)) pool :=
  intern_of_mem represents known

theorem addClass_of_mem (represents : pool.Represents values) {name : String}
    (known : classEntry name ∈ values) :
    addClass name pool = .ok (indexIn values (classEntry name)) pool := by
  have text := represents.part_mem known (List.mem_singleton_self _)
  rw [addClass, bind_of_eq_ok (addText_of_mem represents text)]
  exact intern_of_mem represents known

theorem addNameAndType_of_mem (represents : pool.Represents values) {name descriptor : String}
    (known : nameAndType name descriptor ∈ values) :
    addNameAndType name descriptor pool =
      .ok (indexIn values (nameAndType name descriptor)) pool := by
  have nameText : utf8 name ∈ values := represents.part_mem known (by simp [parts])
  have descriptorText : utf8 descriptor ∈ values := represents.part_mem known (by simp [parts])
  rw [addNameAndType, bind_of_eq_ok (addText_of_mem represents nameText),
    bind_of_eq_ok (addText_of_mem represents descriptorText)]
  exact intern_of_mem represents known

/-- A value that the pool holds is found, and the pool stays as it is. -/
theorem add_of_mem (represents : pool.Represents values) {value : ConstantValue}
    (sound : value.fault? = none) (known : value ∈ values) :
    value.add pool = .ok (indexIn values value) pool := by
  cases value with
  | utf8 text => exact addText_of_mem represents known
  | integer value => exact intern_of_mem represents known
  | string text =>
      have content := represents.part_mem known (List.mem_singleton_self _)
      rw [add, addString, bind_of_eq_ok (addText_of_mem represents content)]
      exact intern_of_mem represents known
  | classEntry name => exact addClass_of_mem represents known
  | nameAndType name descriptor => exact addNameAndType_of_mem represents known
  | method reference =>
      cases readable : MethodSignature.ofDescriptor reference.descriptor with
      | error error => simp [fault?, readable] at sound
      | ok signature =>
          have owner : classEntry reference.owner ∈ values :=
            represents.part_mem known (by simp [parts])
          have nameType : nameAndType reference.name reference.descriptor ∈ values :=
            represents.part_mem known (by simp [parts])
          simp only [add, addMethodReference, readable]
          rw [bind_of_eq_ok (addClass_of_mem represents owner),
            bind_of_eq_ok (addNameAndType_of_mem represents nameType)]
          exact intern_of_mem represents known

end ConstantPool

end NodeNames
