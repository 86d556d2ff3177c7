import NodeNames.Proofs.Pool.Representation
/-!
# Hash-consing

Whatever a pool has been asked for, and whether it had room or not, every
constant is in it once, after its parts. An index that has been given out
stands for the constant that was asked for, then and ever after, and two
requests get the same index exactly when they ask for the same constant.
-/

namespace NodeNames

open ConstantValue

namespace ConstantValue

/-- The pool after a value has been asked for, with success or without. -/
def addTo (pool : ConstantPool) (value : ConstantValue) : ConstantPool :=
  match value.add pool with
  | .ok _ later => later
  | .error _ later => later

/-- The pool after values have been asked for one after the other. -/
def addAll (pool : ConstantPool) (requests : List ConstantValue) : ConstantPool :=
  requests.foldl addTo pool

end ConstantValue

namespace ConstantPool

variable {pool : ConstantPool} {values : List ConstantValue}

/-- A request appends values without a fault, or none, and leaves the limit. -/
theorem grows_addTo (represents : pool.Represents values) (value : ConstantValue) :
    (addTo pool value).limit = pool.limit ∧
      ∃ held, values <+: held ∧ (addTo pool value).Represents held ∧
        ∀ known ∈ held, known ∈ values ∨ known.fault? = none := by
  rw [addTo]
  cases faulty : value.fault? with
  | some error =>
      rw [add_of_fault faulty]
      exact ⟨rfl, values, List.prefix_rfl, represents, fun known isKnown => .inl isKnown⟩
  | none =>
      have answers := answers_add represents faulty
      have sound (known : ConstantValue)
          (isKnown : known ∈ (absorb pool.limit values value.constituents).1) :
          known ∈ values ∨ known.fault? = none :=
        (of_mem_absorb isKnown).imp_right (fault?_of_mem_constituents faulty)
      cases result : value.add pool with
      | ok index later =>
          rw [result] at answers
          exact ⟨answers.2.1, _, prefix_absorb _ _ _, answers.2.2.1, sound⟩
      | error error later =>
          rw [result] at answers
          exact ⟨answers.2.1, _, prefix_absorb _ _ _, answers.2.2.1, sound⟩

theorem represents_addTo (represents : pool.Represents values) (value : ConstantValue) :
    (addTo pool value).limit = pool.limit ∧
      ∃ held, values <+: held ∧ (addTo pool value).Represents held := by
  rcases grows_addTo represents value with ⟨sameLimit, held, longer, laterRepresents, _⟩
  exact ⟨sameLimit, held, longer, laterRepresents⟩

/-- Requests append values without a fault, or none, and leave the limit. -/
theorem grows_addAll (represents : pool.Represents values) (requests : List ConstantValue) :
    (addAll pool requests).limit = pool.limit ∧
      ∃ held, values <+: held ∧ (addAll pool requests).Represents held ∧
        ∀ known ∈ held, known ∈ values ∨ known.fault? = none := by
  induction requests generalizing pool values with
  | nil => exact ⟨rfl, values, List.prefix_rfl, represents, fun known isKnown => .inl isKnown⟩
  | cons value others ih =>
      rcases grows_addTo represents value with
        ⟨sameLimit, held, longer, laterRepresents, isOld⟩
      rcases ih laterRepresents with ⟨lastLimit, all, longest, lastRepresents, wasHeld⟩
      refine ⟨lastLimit.trans sameLimit, all, longer.trans longest, lastRepresents, ?_⟩
      intro known isKnown
      exact (wasHeld known isKnown).elim (isOld known) .inr

/-- Requests extend the values of a pool and leave its limit. -/
theorem represents_addAll (represents : pool.Represents values) (requests : List ConstantValue) :
    (addAll pool requests).limit = pool.limit ∧
      ∃ held, values <+: held ∧ (addAll pool requests).Represents held := by
  rcases grows_addAll represents requests with ⟨sameLimit, held, longer, laterRepresents, _⟩
  exact ⟨sameLimit, held, longer, laterRepresents⟩

/-- The parts of an entry have smaller indices than the entry and the kinds that it needs. -/
def PartsBefore (pool : ConstantPool) (index : PoolIndex) : Constant → Prop
  | .utf8 _ | .integer _ => True
  | .string text | .classEntry text =>
      text < index ∧ ∃ content, pool.get? text = some (.utf8 content)
  | .nameAndType name descriptor =>
      (name < index ∧ ∃ content, pool.get? name = some (.utf8 content)) ∧
        descriptor < index ∧ ∃ content, pool.get? descriptor = some (.utf8 content)
  | .methodReference _ owner nameType =>
      (owner < index ∧ ∃ name, pool.get? owner = some (.classEntry name)) ∧
        nameType < index ∧
          ∃ name descriptor, pool.get? nameType = some (.nameAndType name descriptor)

/-- A pool in which every constant is once, after its parts, and is found by its content. -/
structure HashConsed (pool : ConstantPool) : Prop where
  isSome_get?_iff : ∀ index, (pool.get? index).isSome ↔ 1 ≤ index ∧ index ≤ pool.size
  partsBefore : ∀ index entry, pool.get? index = some entry → pool.PartsBefore index entry
  position?_iff : ∀ entry position,
    pool.entries.position? entry = some position ↔ pool.get? (position + 1) = some entry
  isSome_valueAt? : ∀ index, 1 ≤ index → index ≤ pool.size → (pool.valueAt? index).isSome
  valueAt?_inj : ∀ first second value,
    pool.valueAt? first = some value → pool.valueAt? second = some value → first = second

namespace Represents

theorem index_of_get? (represents : pool.Represents values) {index : PoolIndex}
    {entry : Constant} (found : pool.get? index = some entry) :
    ∃ position value, index = position + 1 ∧ values[position]? = some value ∧
      entry = value.entry (indexIn values) := by
  cases index with
  | zero => simp [get?] at found
  | succ position =>
      rw [represents.get?_succ, Option.map_eq_some_iff] at found
      rcases found with ⟨value, atPosition, rfl⟩
      exact ⟨position, value, rfl, atPosition, rfl⟩

theorem part_before (represents : pool.Represents values) {position : Nat}
    {value part : ConstantValue} (atPosition : values[position]? = some value)
    (isPart : part ∈ value.parts) :
    indexIn values part < position + 1 ∧
      pool.get? (indexIn values part) = some (part.entry (indexIn values)) := by
  have before := represents.partsBefore position value atPosition part isPart
  constructor
  · have place := indexIn_of_longer (List.take_prefix position values) before
    have inside := List.idxOf_lt_length_of_mem before
    have short := List.length_take_le position values
    rw [place]
    exact Nat.succ_lt_succ (Nat.lt_of_lt_of_le inside short)
  · exact represents.get?_indexIn (List.mem_of_mem_take before)

theorem partsBefore_entry (represents : pool.Represents values) {index : PoolIndex}
    {entry : Constant} (found : pool.get? index = some entry) : pool.PartsBefore index entry := by
  rcases represents.index_of_get? found with ⟨position, value, rfl, atPosition, rfl⟩
  have part {part : ConstantValue} (isPart : part ∈ value.parts) :=
    represents.part_before atPosition isPart
  cases value with
  | utf8 text => trivial
  | integer value => trivial
  | string text =>
      have text := part (List.mem_singleton_self _)
      exact ⟨text.1, _, text.2⟩
  | classEntry name =>
      have name := part (List.mem_singleton_self _)
      exact ⟨name.1, _, name.2⟩
  | nameAndType name descriptor =>
      have nameText := @part (utf8 name) (by simp [parts])
      have descriptorText := @part (utf8 descriptor) (by simp [parts])
      exact ⟨⟨nameText.1, _, nameText.2⟩, descriptorText.1, _, descriptorText.2⟩
  | method reference =>
      have owner := @part (classEntry reference.owner) (by simp [parts])
      have nameType :=
        @part (nameAndType reference.name reference.descriptor) (by simp [parts])
      exact ⟨⟨owner.1, _, owner.2⟩, nameType.1, _, _, nameType.2⟩

theorem index_of_valueAt? (represents : pool.Represents values) {index : PoolIndex}
    {value : ConstantValue} (found : pool.valueAt? index = some value) :
    value ∈ values ∧ index = indexIn values value := by
  cases index with
  | zero => simp [valueAt?, get?] at found
  | succ position =>
      rw [represents.valueAt?_succ] at found
      refine ⟨List.mem_of_getElem? found, ?_⟩
      rcases List.getElem?_eq_some_iff.mp found with ⟨inside, rfl⟩
      rw [indexIn, represents.distinct.idxOf_getElem position inside]

/-- An index stands for the same value when the pool has grown. -/
theorem valueAt?_of_longer (represents : pool.Represents values) {grown : ConstantPool}
    {held : List ConstantValue} (grownRepresents : grown.Represents held)
    (longer : values <+: held) {index : PoolIndex} {value : ConstantValue}
    (found : pool.valueAt? index = some value) : grown.valueAt? index = some value := by
  rcases represents.index_of_valueAt? found with ⟨known, rfl⟩
  rw [← indexIn_of_longer longer known]
  exact grownRepresents.valueAt?_indexIn (longer.subset known)

/-- A pool that represents a list of values is hash-consed. -/
theorem hashConsed (represents : pool.Represents values) : pool.HashConsed where
  isSome_get?_iff := by
    intro index
    rw [represents.size_eq]
    cases index with
    | zero => simp [get?]
    | succ position =>
        rw [represents.get?_succ, Option.isSome_map, isSome_getElem?]
        exact ⟨fun inside => ⟨Nat.succ_pos position, inside⟩, fun bounds => bounds.2⟩
  partsBefore := fun _ _ found => represents.partsBefore_entry found
  position?_iff := by
    intro entry position
    rw [represents.consistent]
    simp [get?]
  isSome_valueAt? := by
    intro index positive inside
    rw [represents.size_eq] at inside
    cases index with
    | zero => omega
    | succ position =>
        rw [represents.valueAt?_succ]
        have insideList : position < values.length := inside
        simpa using insideList
  valueAt?_inj := by
    intro first second value firstFound secondFound
    rw [(represents.index_of_valueAt? firstFound).2, (represents.index_of_valueAt? secondFound).2]

end Represents

/--
The pool after any requests, successful or not, from an empty one. It keeps within its limit and
is hash-consed. An index that it gives out for a value stands for that value after any further
requests, and it is the index that another request gets then exactly if it asks for the same value.
-/
theorem hashConsed_addAll (limit : Nat) (requests : List ConstantValue) :
    (addAll (withLimit limit) requests).HashConsed ∧
      (addAll (withLimit limit) requests).size ≤ min limit 65534 ∧
      ∀ value index pool, value.add (addAll (withLimit limit) requests) = .ok index pool →
        ∀ further, (addAll pool further).valueAt? index = some value ∧
          ∀ other otherIndex last, other.add (addAll pool further) = .ok otherIndex last →
            (otherIndex = index ↔ other = value) := by
  rcases represents_addAll (represents_withLimit limit) requests with
    ⟨sameLimit, values, _, represents⟩
  refine ⟨represents.hashConsed, ?_, ?_⟩
  · rw [represents.size_eq]
    exact Nat.le_trans represents.length_le (Nat.le_of_eq sameLimit)
  · intro value index pool added further
    rcases represents_of_add_eq_ok represents added with
      ⟨held, _, laterRepresents, known, rfl⟩
    rcases represents_addAll laterRepresents further with ⟨_, all, longer, furtherRepresents⟩
    have stillKnown := longer.subset known
    rw [← indexIn_of_longer longer known]
    refine ⟨furtherRepresents.valueAt?_indexIn stillKnown, ?_⟩
    intro other otherIndex last otherAdded
    rcases represents_of_add_eq_ok furtherRepresents otherAdded with
      ⟨final, longest, _, otherKnown, rfl⟩
    rw [← indexIn_of_longer longest stillKnown]
    constructor
    · intro sameIndex
      exact indexIn_inj otherKnown sameIndex
    · intro same
      rw [same]

/-- A class that is added twice, with a text in between, keeps its index. -/
theorem hashConsed_addAll_class :
    ∃ pool last, (classEntry "a/B").add (addAll (withLimit 3) [utf8 "m"]) = .ok 3 pool ∧
      (classEntry "a/B").add (addAll pool [utf8 "n"]) = .ok 3 last ∧
      (addAll pool [utf8 "n"]).valueAt? 3 = some (classEntry "a/B") := by
  refine ⟨_, _, rfl, rfl, ?_⟩
  exact ((hashConsed_addAll 3 [utf8 "m"]).2.2 (classEntry "a/B") 3 _ rfl [utf8 "n"]).1

end ConstantPool

end NodeNames
