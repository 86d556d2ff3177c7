import NodeNames.Code.Listing
import NodeNames.Proofs.Machine.Climb
/-!
# Listings of decoded code

What an instruction means and how a listing shows it are read off the constants
that its index stands for, down to the last part. So code that means something
in a pool means the same, and is listed in the same way, when the pool has grown.
-/

namespace NodeNames

open ConstantValue

/-- How a listing shows a constant that is pushed; a class is left to its index. -/
def ConstantValue.shown? : ConstantValue → Option String
  | integer value => some (toString value)
  | string text => some (Text.quote text)
  | utf8 _ | classEntry _ | nameAndType _ _ | method _ => none

variable {pool grown : ConstantPool} {values held : List ConstantValue}

/-- The constant that is shown for an index is the one that the index stands for. -/
theorem Instruction.renderConstant?_of_valueAt? {index : PoolIndex} {value : ConstantValue}
    (found : pool.valueAt? index = some value) :
    renderConstant? pool index = value.shown? := by
  unfold ConstantPool.valueAt? at found
  rw [renderConstant?]
  cases entry : pool.get? index with
  | none => simp [entry] at found
  | some constant =>
      rw [entry] at found
      cases constant with
      | utf8 text =>
          cases found
          rfl
      | integer number =>
          cases found
          rfl
      | string part =>
          rcases Option.map_eq_some_iff.mp found with ⟨text, isText, rfl⟩
          simp only [isText, Option.getD_some, shown?]
      | classEntry part | nameAndType first second | methodReference kind first second =>
          rcases Option.map_eq_some_iff.mp found with ⟨content, _, rfl⟩
          rfl

theorem ConstantPool.valueAt?_of_pushOf? {index : PoolIndex} {decoded : DecodedInstruction}
    (pushed : pool.pushOf? index = some decoded) : ∃ value, pool.valueAt? index = some value := by
  rw [pushOf?] at pushed
  cases found : pool.valueAt? index with
  | none => simp [found] at pushed
  | some value => exact ⟨value, rfl⟩

section Growth

variable (represents : pool.Represents values) (grownRepresents : grown.Represents held)
  (longer : values <+: held)

include represents grownRepresents longer

/-- An instruction means the same when the pool has grown. -/
theorem Instruction.decode?_of_longer {instruction : Instruction} {decoded : DecodedInstruction}
    (decodes : instruction.decode? pool = some decoded) :
    instruction.decode? grown = some decoded := by
  cases instruction with
  | aload slot | iload slot | dload slot | iconst value | bipush value | sipush value =>
      exact decodes
  | ldc index | ldcWide index =>
      rcases ConstantPool.valueAt?_of_pushOf? decodes with ⟨value, found⟩
      have still := represents.valueAt?_of_longer grownRepresents longer found
      rw [← decodes]
      simp only [decode?, ConstantPool.pushOf?, found, still]
  | invokeStatic index | invokeInterface index count =>
      rcases Option.map_eq_some_iff.mp decodes with ⟨reference, found, rfl⟩
      have still :=
        ConstantPool.methodReference?_of_longer represents grownRepresents longer found
      simp only [decode?, still, Option.map_some]

theorem Code.decode?_of_longer {code : Code} {plan : List DecodedInstruction}
    (decodes : code.decode? pool = some plan) : code.decode? grown = some plan := by
  induction code generalizing plan with
  | nil => exact decodes
  | cons instruction others ih =>
      rcases Code.decode?_cons decodes with ⟨decoded, rest, first, last, rfl⟩
      have stillFirst :=
        Instruction.decode?_of_longer represents grownRepresents longer first
      have stillLast := ih last
      rw [Code.decode?] at stillLast ⊢
      simp [stillFirst, stillLast]

/-- An instruction that means something is shown in the same way when the pool has grown. -/
theorem Instruction.renderResolved_of_longer {instruction : Instruction}
    {decoded : DecodedInstruction} (decodes : instruction.decode? pool = some decoded) :
    instruction.renderResolved grown = instruction.renderResolved pool := by
  cases instruction with
  | aload slot | iload slot | dload slot | iconst value | bipush value | sipush value => rfl
  | ldc index | ldcWide index =>
      rcases ConstantPool.valueAt?_of_pushOf? decodes with ⟨value, found⟩
      have still := represents.valueAt?_of_longer grownRepresents longer found
      simp only [renderResolved, renderConstant?_of_valueAt? found,
        renderConstant?_of_valueAt? still]
  | invokeStatic index | invokeInterface index count =>
      rcases Option.map_eq_some_iff.mp decodes with ⟨reference, found, _⟩
      have still :=
        ConstantPool.methodReference?_of_longer represents grownRepresents longer found
      simp only [renderResolved, found, still]

/-- Code that means something is listed in the same way when the pool has grown. -/
theorem Code.listing_of_longer {code : Code} {plan : List DecodedInstruction}
    (decodes : code.decode? pool = some plan) : code.listing grown = code.listing pool := by
  have sameLines : code.renderResolved grown = code.renderResolved pool := by
    induction code generalizing plan with
    | nil => rfl
    | cons instruction others ih =>
        rcases Code.decode?_cons decodes with ⟨decoded, rest, first, last, rfl⟩
        have sameFirst :=
          Instruction.renderResolved_of_longer represents grownRepresents longer first
        have sameOthers := ih last
        rw [renderResolved] at sameOthers ⊢
        rw [List.map_cons, sameFirst, sameOthers]
        rfl
  rw [listing, listing, sameLines]

end Growth

end NodeNames
