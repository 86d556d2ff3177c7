import Mathlib.Tactic.SplitIfs
import NodeNames.Code.Instruction
import NodeNames.Proofs.Pool.HashConsing
/-!
# Extension of pools

Every operation on a pool appends constants or leaves the pool as it is, whether
it succeeds or not. So all constants stay at their indices. This needs nothing
of the pool, whose index of positions may even have gone astray.
-/

namespace NodeNames

namespace ConstantPool

/-- A later pool, which has all constants of an earlier one at their indices. -/
structure Extends (later earlier : ConstantPool) : Prop where
  entries : later.entries.Extends earlier.entries
  limit : later.limit = earlier.limit

instance : Std.Refl Extends where
  refl pool := ⟨.refl pool.entries, rfl⟩

instance : IsTrans ConstantPool Extends where
  trans _ _ _ later earlier :=
    ⟨later.entries.trans earlier.entries, later.limit.trans earlier.limit⟩

theorem Extends.get? {later earlier : ConstantPool} (extension : later.Extends earlier)
    {index : PoolIndex} {constant : Constant} (found : earlier.get? index = some constant) :
    later.get? index = some constant := by
  simp only [ConstantPool.get?, ← Array.getElem?_toList] at found ⊢
  split_ifs at found ⊢
  rcases List.getElem?_eq_some_iff.mp found with ⟨inside, isConstant⟩
  rw [List.prefix_iff_getElem?.mp extension.entries.items _ inside, isConstant]

/-- Interning appends a constant or leaves the pool as it is. -/
theorem leadsOn_intern (constant : Constant) : LeadsOn Extends (intern constant) := by
  intro pool
  rw [intern]
  cases found : pool.entries.position? constant with
  | some position => exact Std.Refl.refl pool
  | none =>
      dsimp only
      split_ifs with room
      · exact ⟨Interner.extends_push found, rfl⟩
      · exact Std.Refl.refl pool

theorem leadsOn_addText (text : String) : LeadsOn Extends (addText text) :=
  leadsOn_intern (.utf8 text)

theorem leadsOn_addInteger (value : Int) : LeadsOn Extends (addInteger value) :=
  leadsOn_intern (.integer value)

theorem leadsOn_addString (value : String) : LeadsOn Extends (addString value) :=
  .bind (leadsOn_addText value) fun _ => leadsOn_intern _

theorem leadsOn_addClass (name : String) : LeadsOn Extends (addClass name) :=
  .bind (leadsOn_addText name) fun _ => leadsOn_intern _

theorem leadsOn_addNameAndType (name descriptor : String) :
    LeadsOn Extends (addNameAndType name descriptor) :=
  .bind (leadsOn_addText name) fun _ =>
    .bind (leadsOn_addText descriptor) fun _ => leadsOn_intern _

theorem leadsOn_addMethodReference (reference : MethodReference) :
    LeadsOn Extends (addMethodReference reference) := by
  rw [addMethodReference]
  cases MethodSignature.ofDescriptor reference.descriptor with
  | error error => exact .throw error
  | ok signature =>
      exact .bind (leadsOn_addClass _) fun _ =>
        .bind (leadsOn_addNameAndType _ _) fun _ => leadsOn_intern _

end ConstantPool

/-- Pushing an integer adds at most the integer to the pool. -/
theorem Instruction.leadsOn_push (value : Int) :
    LeadsOn ConstantPool.Extends (Instruction.push value) := by
  rw [push]
  split_ifs
  · exact .pure _
  · exact .pure _
  · exact .pure _
  · exact .bind (ConstantPool.leadsOn_addInteger value) fun _ => .pure _

end NodeNames
