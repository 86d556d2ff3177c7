import NodeNames.Proofs.Machine.Effect
import NodeNames.Proofs.Pool.HashConsing
/-!
# Climbs

Between two depths of the stack, code goes through a greatest one, whatever
lies below. What verification finds is determined by this climb, and it stays
the same when the pool has grown and when other code stands before.
-/

namespace NodeNames

open ConstantValue

/-- Instructions that take the stack from a depth, through a greatest depth, to a depth. -/
inductive Climbs : List DecodedInstruction → Nat → Nat → Nat → Prop where
  | nil (depth : Nat) : Climbs [] depth depth depth
  | cons {instruction : DecodedInstruction} {others : List DecodedInstruction}
      {effect : StackEffect} {start peak final : Nat} :
      instruction.effect? = some effect → effect.consumed ≤ start →
        Climbs others (start - effect.consumed + effect.produced) peak final →
        Climbs (instruction :: others) start (max start peak) final

namespace Climbs

variable {plan others : List DecodedInstruction} {start peak middle final otherPeak : Nat}

theorem start_le_peak (climbs : Climbs plan start peak final) : start ≤ peak := by
  cases climbs with
  | nil => exact Nat.le_refl start
  | cons _ _ _ => exact Nat.le_max_left _ _

theorem final_le_peak (climbs : Climbs plan start peak final) : final ≤ peak := by
  induction climbs with
  | nil depth => exact Nat.le_refl depth
  | cons _ _ _ ih => exact Nat.le_trans ih (Nat.le_max_right _ _)

theorem append (climbs : Climbs plan start peak middle)
    (further : Climbs others middle otherPeak final) :
    Climbs (plan ++ others) start (max peak otherPeak) final := by
  induction climbs with
  | nil depth =>
      rw [Nat.max_eq_right further.start_le_peak]
      exact further
  | cons effective enough _ ih =>
      rw [Nat.max_assoc]
      exact .cons effective enough (ih further)

/-- What lies below does not matter. -/
theorem above (climbs : Climbs plan start peak final) (below : Nat) :
    Climbs plan (below + start) (below + peak) (below + final) := by
  induction climbs with
  | nil depth => exact .nil _
  | @cons _ _ effect start peak final effective enough _ ih =>
      rw [← Nat.add_max_add_left]
      refine .cons effective (by omega) ?_
      have same : below + start - effect.consumed + effect.produced =
          below + (start - effect.consumed + effect.produced) := by
        omega
      rw [same]
      exact ih

/-- An instruction that pushes one slot. -/
theorem push {instruction : DecodedInstruction}
    (effective : instruction.effect? = some ⟨0, 1⟩)
    (climbs : Climbs plan (start + 1) peak final) :
    Climbs (instruction :: plan) start peak final := by
  have higher : start ≤ peak := Nat.le_of_succ_le climbs.start_le_peak
  have whole := Climbs.cons effective (Nat.zero_le start) climbs
  rwa [Nat.max_eq_right higher] at whole

end Climbs

section Verification

variable {pool : ConstantPool} {summary later : StackSummary} {position : Nat}

/-- Verification finds the climb of the code. -/
theorem Code.verifyFrom_of_climbs {code : Code} {plan : List DecodedInstruction}
    {start peak final maxStack : Nat} (decodes : code.decode? pool = some plan)
    (climbs : Climbs plan start peak final) (reached : start ≤ maxStack) (position : Nat) :
    Code.verifyFrom pool position ⟨maxStack, start⟩ code = .ok ⟨max maxStack peak, final⟩ := by
  induction code generalizing plan start maxStack position peak with
  | nil =>
      cases decodes
      cases climbs
      rw [Nat.max_eq_left reached]
      rfl
  | cons instruction others ih =>
      rcases Code.decode?_cons decodes with ⟨decoded, rest, first, last, rfl⟩
      rcases climbs with _ | ⟨effective, enough, further⟩
      rcases effect_of_decode? first effective position with ⟨counted, effects⟩
      have verified := ih last further (Nat.le_max_right maxStack _) (position + 1)
      rw [Nat.max_assoc, Nat.max_eq_right further.start_le_peak] at verified
      rw [← Nat.max_assoc, Nat.max_eq_left reached]
      exact Code.verifyFrom_cons_eq_ok_iff.mpr ⟨_,
        Code.verifyInstruction_eq_ok_iff.mpr ⟨counted, _, effects, enough, rfl⟩, verified⟩

/-- Verification starts with nothing on the stack. -/
theorem Code.verify_of_climbs {code : Code} {plan : List DecodedInstruction} {peak final : Nat}
    (decodes : code.decode? pool = some plan) (climbs : Climbs plan 0 peak final) :
    code.verify pool = .ok ⟨peak, final⟩ := by
  have verified := Code.verifyFrom_of_climbs decodes climbs (Nat.le_refl 0) 0
  rwa [Nat.zero_max] at verified

/-- Over code, the depth of the stack changes from the start of the climb to its end. -/
theorem Code.stackDelta_of_climbs {code : Code} {plan : List DecodedInstruction}
    {start peak final : Nat} (decodes : code.decode? pool = some plan)
    (climbs : Climbs plan start peak final) :
    code.stackDelta pool = .ok ((final : Int) - start) := by
  induction code generalizing plan start peak with
  | nil =>
      cases decodes
      cases climbs
      rw [Int.sub_self]
      rfl
  | cons instruction others ih =>
      rcases Code.decode?_cons decodes with ⟨decoded, rest, first, last, rfl⟩
      rcases climbs with _ | ⟨effective, enough, further⟩
      rcases effect_of_decode? first effective 0 with ⟨_, effects⟩
      rw [Code.stackDelta, effects, ok_bind, ih last further, ok_bind]
      refine congrArg Except.ok ?_
      rw [StackEffect.delta]
      omega

end Verification

section Growth

variable {pool grown : ConstantPool} {values held : List ConstantValue}

theorem ConstantPool.valueAt?_eq_method_iff {index : PoolIndex} {reference : MethodReference} :
    pool.valueAt? index = some (method reference) ↔
      pool.methodReference? index = some reference := by
  unfold valueAt?
  cases found : pool.get? index with
  | none => simp [methodReference?, found]
  | some entry => cases entry <;> simp [methodReference?, found]

/-- A pool that has grown refers to the same methods under the same indices. -/
theorem ConstantPool.methodReference?_of_longer (represents : pool.Represents values)
    (grownRepresents : grown.Represents held) (longer : values <+: held) {index : PoolIndex}
    {reference : MethodReference} (found : pool.methodReference? index = some reference) :
    grown.methodReference? index = some reference := by
  rw [← valueAt?_eq_method_iff] at found ⊢
  exact represents.valueAt?_of_longer grownRepresents longer found

variable (represents : pool.Represents values) (grownRepresents : grown.Represents held)
  (longer : values <+: held)

include represents grownRepresents longer

theorem ConstantPool.methodReference_of_longer {index : PoolIndex} {reference : MethodReference}
    (found : pool.methodReference index = .ok reference) :
    grown.methodReference index = .ok reference := by
  unfold ConstantPool.methodReference at found ⊢
  split at found
  · rename_i known isMethod
    cases found
    rw [ConstantPool.methodReference?_of_longer represents grownRepresents longer isMethod]
  · cases found

theorem ConstantPool.signature_of_longer {index : PoolIndex} {kind : MethodKind}
    {signature : MethodSignature} (described : pool.signature index kind = .ok signature) :
    grown.signature index kind = .ok signature := by
  unfold ConstantPool.signature at described ⊢
  cases found : pool.methodReference index with
  | error error =>
      rw [found] at described
      cases described
  | ok reference =>
      rw [methodReference_of_longer represents grownRepresents longer found]
      rw [found] at described
      exact described

theorem Instruction.stackEffect_of_longer {instruction : Instruction} {effect : StackEffect}
    (effects : instruction.stackEffect pool = .ok effect) :
    instruction.stackEffect grown = .ok effect := by
  cases instruction with
  | aload slot | iload slot | dload slot | iconst value | bipush value | sipush value | ldc index
  | ldcWide index => exact effects
  | invokeStatic index | invokeInterface index count =>
      unfold Instruction.stackEffect at effects ⊢
      dsimp only at effects ⊢
      cases described : pool.signature index _ with
      | error error =>
          rw [described] at effects
          cases effects
      | ok signature =>
          rw [ConstantPool.signature_of_longer represents grownRepresents longer described]
          rw [described] at effects
          exact effects

theorem Code.checkCount_of_longer {instruction : Instruction} {position : Nat}
    (counted : Code.checkCount pool position instruction = .ok ()) :
    Code.checkCount grown position instruction = .ok () := by
  cases instruction with
  | aload slot | iload slot | dload slot | iconst value | bipush value | sipush value | ldc index
  | ldcWide index | invokeStatic index => rfl
  | invokeInterface index count =>
      unfold Code.checkCount at counted ⊢
      dsimp only at counted ⊢
      cases found : pool.methodReference index with
      | error error =>
          rw [found] at counted
          cases counted
      | ok reference =>
          rw [ConstantPool.methodReference_of_longer represents grownRepresents longer found]
          rw [found] at counted
          exact counted

/-- Verified code stays verified when the pool grows. -/
theorem Code.verifyFrom_of_longer {code : Code} {position : Nat} {summary later : StackSummary}
    (verified : Code.verifyFrom pool position summary code = .ok later) :
    Code.verifyFrom grown position summary code = .ok later := by
  induction code generalizing summary position with
  | nil => exact verified
  | cons instruction others ih =>
      rcases Code.verifyFrom_cons_eq_ok_iff.mp verified with ⟨between, first, rest⟩
      rcases Code.verifyInstruction_eq_ok_iff.mp first with ⟨counted, effect, effects, isAfter⟩
      have stillFirst := Code.verifyInstruction_eq_ok_iff.mpr
        ⟨checkCount_of_longer represents grownRepresents longer counted, effect,
          Instruction.stackEffect_of_longer represents grownRepresents longer effects, isAfter⟩
      exact Code.verifyFrom_cons_eq_ok_iff.mpr ⟨between, stillFirst, ih rest⟩

end Growth

end NodeNames
