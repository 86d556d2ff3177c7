import NodeNames.Proofs.Code.Encodable
import NodeNames.Proofs.Machine.Execution
import NodeNames.Proofs.Pool.Extension
/-!
# Pushes of integers

An integer is pushed by an instruction that carries it, if one can, and otherwise
by a load of its constant, whose form depends on the index that the history of
the pool has led to. In the pool that is left and in all later ones the chosen
instruction pushes exactly the integer.
-/

namespace NodeNames

open ConstantValue

/-- The pool has to take in an integer that no instruction can carry and that it does not have. -/
def ConstantPool.NeedsEntry (pool : ConstantPool) (value : Int) : Prop :=
  ¬(-32768 ≤ value ∧ value ≤ 32767) ∧ ∀ index, pool.get? index ≠ some (.integer value)

theorem ConstantPool.valueAt?_of_integer {pool : ConstantPool} {index : PoolIndex} {value : Int} :
    pool.valueAt? index = some (.integer value) ↔ pool.get? index = some (.integer value) := by
  rw [valueAt?]
  split <;> simp_all

/-- A pool with room takes in an integer that it needs. -/
theorem ConstantPool.Represents.push_integer {pool : ConstantPool} {values : List ConstantValue}
    {value : Int} (represents : pool.Represents values) (needs : pool.NeedsEntry value)
    (room : pool.size < pool.limit) :
    ConstantPool.Represents { pool with entries := pool.entries.push (.integer value) }
      (values ++ [.integer value]) := by
  rw [represents.size_eq] at room
  have unknown : .integer value ∉ values := fun known =>
    needs.2 _ (represents.get?_indexIn known)
  exact represents.push (by simp [parts]) unknown room

namespace Instruction

/-- The push of an integer in the first form that can carry it, from the shortest one on. -/
inductive ShortestPush (pool : ConstantPool) (value : Int) : Instruction → Prop where
  | iconst {byte : Int8} (isValue : byte.toInt = value) (tiny : -1 ≤ value ∧ value ≤ 5) :
      ShortestPush pool value (.iconst byte)
  | bipush {byte : Int8} (isValue : byte.toInt = value) (notTiny : ¬(-1 ≤ value ∧ value ≤ 5)) :
      ShortestPush pool value (.bipush byte)
  | sipush {short : Int16} (isValue : short.toInt = value)
      (notByte : ¬(-128 ≤ value ∧ value ≤ 127)) : ShortestPush pool value (.sipush short)
  | ldc {index : PoolIndex} (entry : pool.get? index = some (.integer value))
      (notShort : ¬(-32768 ≤ value ∧ value ≤ 32767)) (near : index ≤ 255) :
      ShortestPush pool value (.ldc index)
  | ldcWide {index : PoolIndex} (entry : pool.get? index = some (.integer value))
      (notShort : ¬(-32768 ≤ value ∧ value ≤ 32767)) (far : 255 < index) :
      ShortestPush pool value (.ldcWide index)

/--
The bytes that the push of an integer takes in a class file, with the five of the constant that a
load needs.
-/
def pushSize : Instruction → Nat
  | iconst _ => 1
  | bipush _ => 2
  | sipush _ => 3
  | ldc _ => 2 + 5
  | ldcWide _ => 3 + 5
  | aload _ | iload _ | dload _ | invokeStatic _ | invokeInterface _ _ => 0

namespace ShortestPush

variable {pool later : ConstantPool} {value : Int} {instruction other : Instruction}

/-- In its pool and in all later ones, the instruction means the integer. -/
theorem decode?_eq (shortest : ShortestPush pool value instruction)
    (extension : later.Extends pool) :
    instruction.decode? later = some (.pushInteger value) := by
  cases shortest with
  | iconst isValue _ | bipush isValue _ | sipush isValue _ => rw [decode?, isValue]
  | ldc entry _ _ | ldcWide entry _ _ =>
      have still := ConstantPool.valueAt?_of_integer.mpr (extension.get? entry)
      rw [decode?, ConstantPool.pushOf?, still]

theorem run_eq {Value : Type} (shortest : ShortestPush pool value instruction)
    (extension : later.Extends pool) (machine : Machine Value) (stack : List Value) :
    Code.run machine later [instruction] stack = some (machine.integer value :: stack) := by
  have decodes : Code.decode? later [instruction] = some [.pushInteger value] := by
    simp [Code.decode?, shortest.decode?_eq extension]
  simp [Code.run_of_decode? decodes]

theorem of_load {index : PoolIndex} (entry : pool.get? index = some (.integer value))
    (notShort : ¬(-32768 ≤ value ∧ value ≤ 32767)) : ShortestPush pool value (load index) := by
  rw [load]
  split_ifs with near
  · exact .ldc entry notShort near
  · exact .ldcWide entry notShort (Nat.lt_of_not_le near)

variable {values : List ConstantValue}

theorem encodable (represents : pool.Represents values) (capacity : pool.limit ≤ poolCapacity)
    (shortest : ShortestPush pool value instruction) : instruction.Encodable pool := by
  have loadable {index : PoolIndex} (entry : pool.get? index = some (.integer value)) :
      pool.HasLoadable index ∧ 1 ≤ index ∧ index < 65536 := by
    have found := ConstantPool.valueAt?_of_integer.mpr entry
    rcases represents.index_of_valueAt? found with ⟨known, rfl⟩
    exact ⟨.inl ⟨value, found⟩, Nat.le_add_left _ _, indexIn_lt represents capacity known⟩
  cases shortest with
  | iconst isValue tiny =>
      rw [← isValue] at tiny
      exact tiny
  | bipush _ _ | sipush _ _ => trivial
  | ldc entry _ near =>
      rcases loadable entry with ⟨isLoadable, positive, _⟩
      exact ⟨positive, near, isLoadable⟩
  | ldcWide entry _ far =>
      rcases loadable entry with ⟨isLoadable, _, small⟩
      exact ⟨far, small, isLoadable⟩

/-- No other encodable instruction that pushes the integer is shorter. -/
theorem pushSize_le (represents : pool.Represents values)
    (shortest : ShortestPush pool value instruction) (encodable : other.Encodable pool)
    (pushes : other.decode? pool = some (.pushInteger value)) :
    instruction.pushSize ≤ other.pushSize := by
  cases other with
  | aload slot | iload slot | dload slot => simp [decode?] at pushes
  | invokeStatic index | invokeInterface index count => simp [decode?] at pushes
  | iconst byte =>
      have isValue : byte.toInt = value := by simpa [decode?] using pushes
      rw [Encodable, isValue] at encodable
      cases shortest <;> simp [pushSize] <;> omega
  | bipush byte =>
      have isValue : byte.toInt = value := by simpa [decode?] using pushes
      have lower := byte.le_toInt
      have upper := byte.toInt_lt
      cases shortest <;> simp [pushSize] <;> omega
  | sipush short =>
      have isValue : short.toInt = value := by simpa [decode?] using pushes
      have lower := short.le_toInt
      have upper := short.toInt_lt
      cases shortest <;> simp [pushSize] <;> omega
  | ldc index =>
      have found : pool.valueAt? index = some (.integer value) := by
        rw [decode?, ConstantPool.pushOf?] at pushes
        split at pushes <;> simp_all
      cases shortest with
      | ldcWide entry _ far =>
          -- the integer has one index only, which an index of one byte is not
          have alsoFound := ConstantPool.valueAt?_of_integer.mpr entry
          have same := represents.hashConsed.valueAt?_inj _ _ _ found alsoFound
          have near := encodable.2.1
          rw [same] at near
          exact absurd near (Nat.not_le_of_lt far)
      | _ => simp [pushSize]
  | ldcWide index => cases shortest <;> simp [pushSize]

end ShortestPush

/-- A push fails if the pool is full and has to take in the integer, and else does just that. -/
theorem push_of_represents {pool : ConstantPool} {values : List ConstantValue}
    (represents : pool.Represents values) (value : Int) :
    match push value pool with
    | .ok instruction later =>
        ShortestPush later value instruction ∧
          (pool.NeedsEntry value ∧ pool.size < pool.limit ∧
              later = { pool with entries := pool.entries.push (.integer value) } ∨
            ¬pool.NeedsEntry value ∧ later = pool)
    | .error error later =>
        pool.NeedsEntry value ∧ pool.size = pool.limit ∧
          error = .poolExhausted pool.limit ∧ later = pool := by
  rw [push]
  split_ifs with tiny byte short
  · have isValue : (Int8.ofInt value).toInt = value :=
      Int8.toInt_ofInt_of_le (by omega) (by omega)
    exact ⟨.iconst isValue tiny, .inr ⟨fun needs => needs.1 (by omega), rfl⟩⟩
  · have isValue : (Int8.ofInt value).toInt = value :=
      Int8.toInt_ofInt_of_le (by omega) (by omega)
    exact ⟨.bipush isValue tiny, .inr ⟨fun needs => needs.1 (by omega), rfl⟩⟩
  · have isValue : (Int16.ofInt value).toInt = value :=
      Int16.toInt_ofInt_of_le (by omega) (by omega)
    exact ⟨.sipush isValue byte, .inr ⟨fun needs => needs.1 short, rfl⟩⟩
  · have hashConsed := represents.hashConsed
    cases found : pool.entries.position? (.integer value) with
    | some position =>
        have added : ConstantPool.addInteger value pool = .ok (position + 1) pool := by
          simp [ConstantPool.addInteger, ConstantPool.intern, found]
        have entry := (hashConsed.position?_iff _ _).mp found
        rw [bind_of_eq_ok added]
        exact ⟨.of_load entry short, .inr ⟨fun needs => needs.2 _ entry, rfl⟩⟩
    | none =>
        have needs : pool.NeedsEntry value := by
          refine ⟨short, fun index entry => ?_⟩
          cases index with
          | zero => simp [ConstantPool.get?] at entry
          | succ position => simp [(hashConsed.position?_iff _ _).mpr entry] at found
        by_cases room : pool.size < pool.limit
        · have added : ConstantPool.addInteger value pool = .ok (pool.size + 1)
              { pool with entries := pool.entries.push (.integer value) } := by
            simp [ConstantPool.addInteger, ConstantPool.intern, found, room]
          rw [bind_of_eq_ok added]
          refine ⟨.of_load ?_ short, .inl ⟨needs, room, rfl⟩⟩
          simp [ConstantPool.get?, ConstantPool.size, Interner.push, Interner.size]
        · have refused : ConstantPool.addInteger value pool =
              .error (.poolExhausted pool.limit) pool := by
            simp [ConstantPool.addInteger, ConstantPool.intern, found, room]
          have within := represents.length_le
          rw [← represents.size_eq] at within
          rw [bind_of_eq_error refused]
          exact ⟨needs, by omega, rfl, rfl⟩

section Outcomes

variable {pool : ConstantPool} {values : List ConstantValue} (represents : pool.Represents values)

include represents

theorem exists_push_eq_error_iff (value : Int) :
    (∃ error later, push value pool = .error error later) ↔
      pool.NeedsEntry value ∧ pool.size = pool.limit := by
  have outcome := push_of_represents represents value
  cases result : push value pool with
  | error error later =>
      rw [result] at outcome
      exact ⟨fun _ => ⟨outcome.1, outcome.2.1⟩, fun _ => ⟨error, later, rfl⟩⟩
  | ok instruction later =>
      rw [result] at outcome
      refine ⟨by simp, ?_⟩
      rintro ⟨needs, full⟩
      rcases outcome.2 with ⟨_, room, _⟩ | ⟨spared, _⟩
      · exact absurd full (Nat.ne_of_lt room)
      · exact absurd needs spared

variable {value : Int} {instruction : Instruction} {later : ConstantPool}

theorem represents_of_push (pushed : push value pool = .ok instruction later) :
    later.limit = pool.limit ∧ ∃ held, later.Represents held := by
  have outcome := push_of_represents represents value
  rw [pushed] at outcome
  rcases outcome.2 with ⟨needs, room, rfl⟩ | ⟨_, rfl⟩
  · exact ⟨rfl, _, represents.push_integer needs room⟩
  · exact ⟨rfl, values, represents⟩

/-- What has been pushed is pushed by the pool that is left and by all later ones. -/
theorem decode?_of_push (pushed : push value pool = .ok instruction later) {grown : ConstantPool}
    (extension : grown.Extends later) : instruction.decode? grown = some (.pushInteger value) := by
  have outcome := push_of_represents represents value
  rw [pushed] at outcome
  exact outcome.1.decode?_eq extension

theorem entries_of_push (pushed : push value pool = .ok instruction later) :
    (pool.NeedsEntry value →
        later = { pool with entries := pool.entries.push (.integer value) }) ∧
      (¬pool.NeedsEntry value → later = pool) := by
  have outcome := push_of_represents represents value
  rw [pushed] at outcome
  rcases outcome.2 with ⟨needs, _, grown⟩ | ⟨spared, same⟩
  · exact ⟨fun _ => grown, fun spared => absurd needs spared⟩
  · exact ⟨fun needs => absurd needs spared, fun _ => same⟩

end Outcomes

/--
Pushing an integer in any pool that requests lead to. It fails exactly if the pool is full and has
to take in the integer, and then changes nothing. Otherwise the instruction is the shortest one and
pushes the integer, by the pool that is left and by all later ones, and the pool has taken in the
integer if it had to.
-/
theorem push_addAll (limit : Nat) (requests : List ConstantValue) (value : Int) :
    let pool := addAll (.withLimit limit) requests
    ((∃ error later, push value pool = .error error later) ↔
        pool.NeedsEntry value ∧ pool.size = min limit poolCapacity) ∧
      match push value pool with
      | .ok instruction later =>
          ShortestPush later value instruction ∧ instruction.Encodable later ∧
            (∀ other : Instruction, other.Encodable later →
              other.decode? later = some (.pushInteger value) →
                instruction.pushSize ≤ other.pushSize) ∧
            (∀ further, further.Extends later →
              ∀ (Value : Type) (machine : Machine Value) (stack : List Value),
                Code.run machine further [instruction] stack =
                  some (machine.integer value :: stack)) ∧
            (pool.NeedsEntry value →
              later = { pool with entries := pool.entries.push (.integer value) }) ∧
            (¬pool.NeedsEntry value → later = pool)
      | .error error later => error.code = .poolExhausted ∧ later = pool := by
  intro pool
  rcases ConstantPool.represents_addAll (ConstantPool.represents_withLimit limit) requests with
    ⟨sameLimit, values, _, represents⟩
  have isLimit : pool.limit = min limit poolCapacity := sameLimit
  have outcome := push_of_represents represents value
  have fails := exists_push_eq_error_iff represents value
  refine ⟨by rwa [← isLimit], ?_⟩
  cases result : push value pool with
  | error error later =>
      rw [result] at outcome
      rcases outcome with ⟨_, _, rfl, same⟩
      exact ⟨rfl, same⟩
  | ok instruction later =>
      rw [result] at outcome
      have shortest := outcome.1
      rcases represents_of_push represents result with ⟨laterLimit, held, laterRepresents⟩
      have capacity : later.limit ≤ poolCapacity := by
        rw [laterLimit, isLimit]
        exact Nat.min_le_right _ _
      exact ⟨shortest, shortest.encodable laterRepresents capacity,
        fun other encodable pushes => shortest.pushSize_le laterRepresents encodable pushes,
        fun further extension Value machine stack => shortest.run_eq extension machine stack,
        entries_of_push represents result⟩

/-- A pool with room for one integer loads it again and again and has no room for another. -/
theorem push_addAll_full :
    let pool := addAll (.withLimit 1) [.integer 40000]
    push 40000 pool = .ok (.ldc 1) pool ∧ ShortestPush pool 40000 (.ldc 1) ∧
      ∃ error, push 40001 pool = .error error pool ∧ error.code = .poolExhausted := by
  intro pool
  have known := (push_addAll 1 [.integer 40000] 40000).2
  have unknown := (push_addAll 1 [.integer 40000] 40001).2
  have loads : push 40000 pool = .ok (.ldc 1) pool := rfl
  have refused : push 40001 pool = .error (.poolExhausted 1) pool := rfl
  simp only [pool, loads] at known
  simp only [pool, refused] at unknown
  exact ⟨loads, known.1, _, refused, unknown.1⟩

end Instruction

end NodeNames
