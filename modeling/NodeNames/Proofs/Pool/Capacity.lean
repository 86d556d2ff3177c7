import NodeNames.Proofs.Pool.HashConsing
/-!
# Capacity of pools

What a request adds to a pool is what it needs and the pool does not hold, each
value once and in the order of creation. The request succeeds exactly if all of
it finds room. Otherwise the pool takes as much as it has room for, from the
front, and is full.
-/

namespace NodeNames

open ConstantValue

namespace ConstantValue

/-- The wanted values that are not among given ones, each once, in the order of the request. -/
def missing (values wanted : List ConstantValue) : List ConstantValue :=
  (wanted.filter (· ∉ values)).eraseDups

theorem missing_cons_of_mem {values others : List ConstantValue} {first : ConstantValue}
    (held : first ∈ values) : missing values (first :: others) = missing values others := by
  rw [missing, List.filter_cons_of_neg (by simpa using held)]
  rfl

/-- A missing value counts as held from then on. -/
theorem missing_cons_of_notMem {values others : List ConstantValue} {first : ConstantValue}
    (new : first ∉ values) :
    missing values (first :: others) = first :: missing (values ++ [first]) others := by
  rw [missing, List.filter_cons_of_pos (by simpa using new), List.eraseDups_cons,
    List.filter_filter, missing]
  congr 2
  apply List.filter_congr
  intro value _
  by_cases same : value = first <;> simp [same]

/-- A pool takes the missing values, in order, as far as it has room for them. -/
theorem absorb_eq_missing (limit : Nat) (values wanted : List ConstantValue) :
    absorb limit values wanted =
      (values ++ (missing values wanted).take (limit - values.length),
        decide ((missing values wanted).length ≤ limit - values.length)) := by
  induction wanted generalizing values with
  | nil => simp [absorb, missing]
  | cons first others ih =>
      rw [absorb]
      split_ifs with held room
      · rw [ih, missing_cons_of_mem held]
      · have free : limit - values.length = limit - (values ++ [first]).length + 1 := by
          rw [List.length_append, List.length_singleton]
          omega
        rw [ih, missing_cons_of_notMem held, free, List.take_succ_cons, List.length_cons,
          List.append_assoc, List.singleton_append]
        simp
      · have full : limit - values.length = 0 := by omega
        simp [missing_cons_of_notMem held, full]

end ConstantValue

namespace ConstantPool

/-- The values that a pool holds, in the order of their indices. -/
def held (pool : ConstantPool) : List ConstantValue :=
  (List.range pool.size).filterMap fun position => pool.valueAt? (position + 1)

theorem Represents.held_eq {pool : ConstantPool} {values : List ConstantValue}
    (represents : pool.Represents values) : pool.held = values := by
  have found : (List.range values.length).map (values[·]?) = values.map some := by
    apply List.ext_getElem?
    intro position
    by_cases inside : position < values.length
    · simp [inside]
    · simp [inside]
  calc
    pool.held = ((List.range values.length).map (values[·]?)).filterMap id := by
      simp [held, represents.size_eq, represents.valueAt?_succ, List.filterMap_map]
    _ = values := by
      rw [found]
      simp

/-- What is wrong with a value is that the descriptor of a method is malformed. -/
theorem code_of_fault? {value : ConstantValue} {error : CompileError}
    (faulty : value.fault? = some error) : error.code = .malformedDescriptor := by
  cases value with
  | method reference =>
      simp only [fault?, MethodSignature.ofDescriptor] at faulty
      cases readable : MethodSignature.read reference.descriptor.toList with
      | some signature => simp [readable] at faulty
      | none =>
          simp only [readable, Option.some.injEq] at faulty
          rw [← faulty]
          rfl
  | _ => cases faulty

/-- Adding a value without a fault appends the missing values, as far as there is room. -/
theorem add_of_sound {pool : ConstantPool} {values : List ConstantValue}
    (represents : pool.Represents values) {value : ConstantValue} (sound : value.fault? = none) :
    match value.add pool with
    | .ok index later =>
        (missing values value.constituents).length ≤ pool.limit - pool.size ∧
          later.limit = pool.limit ∧
          later.Represents (values ++ missing values value.constituents) ∧
          later.valueAt? index = some value
    | .error error later =>
        pool.limit - pool.size < (missing values value.constituents).length ∧
          error = .poolExhausted pool.limit ∧
          later.limit = pool.limit ∧
          later.Represents
            (values ++ (missing values value.constituents).take (pool.limit - pool.size)) ∧
          later.size = later.limit := by
  have answers := answers_add represents sound
  have known := @mem_absorb pool.limit values value.constituents value
  rw [absorb_eq_missing, ← represents.size_eq] at answers known
  cases result : value.add pool with
  | ok index later =>
      rw [result] at answers
      rcases answers with ⟨room, sameLimit, laterRepresents, rfl⟩
      have held := laterRepresents.valueAt?_indexIn (known room (mem_constituents value))
      have fits := of_decide_eq_true room
      refine ⟨fits, sameLimit, ?_, held⟩
      rwa [List.take_of_length_le fits] at laterRepresents
  | error error later =>
      rw [result] at answers
      rcases answers with ⟨full, sameLimit, laterRepresents, rfl⟩
      have short := Nat.lt_of_not_le (of_decide_eq_false full)
      refine ⟨short, rfl, sameLimit, laterRepresents, ?_⟩
      have within := represents.length_le
      rw [laterRepresents.size_eq, List.length_append, List.length_take, sameLimit,
        ← represents.size_eq]
      rw [← represents.size_eq] at within
      omega

/--
A request to any pool that requests lead to. A method with a malformed descriptor is refused and
changes nothing. Any other value is added, with an index that stands for it, exactly if all that it
needs and the pool does not hold finds room, and all of this is appended in the order of creation.
Otherwise as much of it is appended as there is room for, from the front, and the pool is full.
-/
theorem add_addAll (limit : Nat) (requests : List ConstantValue) (value : ConstantValue) :
    let pool := addAll (withLimit limit) requests
    let needed := missing pool.held value.constituents
    let free := min limit poolCapacity - pool.size
    pool.Represents pool.held ∧
      match value.fault? with
      | some error => value.add pool = .error error pool ∧ error.code = .malformedDescriptor
      | none =>
          match value.add pool with
          | .ok index later =>
              needed.length ≤ free ∧ later.Represents (pool.held ++ needed) ∧
                later.valueAt? index = some value
          | .error error later =>
              free < needed.length ∧ error = .poolExhausted (min limit poolCapacity) ∧
                later.Represents (pool.held ++ needed.take free) ∧
                later.size = min limit poolCapacity := by
  intro pool needed free
  rcases represents_addAll (represents_withLimit limit) requests with
    ⟨sameLimit, values, _, represents⟩
  have isLimit : pool.limit = min limit poolCapacity := sameLimit
  have isHeld : pool.held = values := represents.held_eq
  have representsHeld : pool.Represents pool.held := isHeld.symm ▸ represents
  refine ⟨representsHeld, ?_⟩
  cases faulty : value.fault? with
  | some error => exact ⟨add_of_fault faulty pool, code_of_fault? faulty⟩
  | none =>
      have outcome := add_of_sound representsHeld faulty
      dsimp only
      cases result : value.add pool with
      | ok index later =>
          simp only [result, isLimit] at outcome
          exact ⟨outcome.1, outcome.2.2.1, outcome.2.2.2⟩
      | error error later =>
          simp only [result, isLimit] at outcome
          rcases outcome with ⟨short, exhausted, laterLimit, laterRepresents, full⟩
          exact ⟨short, exhausted, laterRepresents, full.trans laterLimit⟩

/-- A method with the name of its class needs five values, of which a pool of three takes three. -/
example :
    missing [] (method ⟨"m", "m", "()V", .ofClass⟩).constituents =
        [utf8 "m", classEntry "m", utf8 "()V", nameAndType "m" "()V",
          method ⟨"m", "m", "()V", .ofClass⟩] ∧
      (addTo (withLimit 3) (method ⟨"m", "m", "()V", .ofClass⟩)).held =
        [utf8 "m", classEntry "m", utf8 "()V"] := by
  decide +kernel

end ConstantPool

end NodeNames
