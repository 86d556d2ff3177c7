import NodeNames.Proofs.Unit.Growth
/-!
# Reserved slots

The document and the context node have slots of their own, which are set apart
from the first free slot in the configuration. The variables of a method take
the slots from the first free one on without a gap and without regard to the
reserved ones. So a reserved slot is a variable's as soon as it lies above the
first free slot and the variables before it are wide enough.
-/

namespace NodeNames

open EmissionStep

/-- A slot outside those that variables take from the first free slot on. -/
def Config.ClearOf (config : Config) (declared : List (QName × ValueType)) (slot : UInt16) :
    Prop :=
  slot.toNat < config.firstFreeSlot.toNat ∨
    config.firstFreeSlot.toNat + totalWidth declared ≤ slot.toNat

instance (config : Config) (declared : List (QName × ValueType)) (slot : UInt16) :
    Decidable (config.ClearOf declared slot) :=
  inferInstanceAs (Decidable (_ ∨ _))

section Places

theorem mem_variableNames_of_placeOf? {first : Nat} {declared : List (QName × ValueType)}
    {name : QName} {place : LocalVariable} (found : placeOf? first declared name = some place) :
    name.expandedName ∈ variableNames declared := by
  induction declared generalizing first with
  | nil => cases found
  | cons entry others ih =>
      rcases entry with ⟨other, type⟩
      rw [variableNames_cons, List.mem_cons]
      rw [placeOf?] at found
      split_ifs at found with same
      · exact .inl same.symm
      · exact .inr (ih found)

/-- Every slot between the first one and the end of all variables is a slot of one of them. -/
theorem exists_placeOf?_occupies {first : Nat} {declared : List (QName × ValueType)}
    (distinct : (variableNames declared).Nodup) (room : first + totalWidth declared ≤ 65535)
    {slot : UInt16} (after : first ≤ slot.toNat)
    (before : slot.toNat < first + totalWidth declared) :
    ∃ name place, placeOf? first declared name = some place ∧ place.Occupies slot := by
  induction declared generalizing first with
  | nil =>
      rw [totalWidth] at before
      omega
  | cons entry others ih =>
      rcases entry with ⟨other, type⟩
      rw [variableNames_cons, List.nodup_cons] at distinct
      rw [totalWidth, ← Nat.add_assoc] at room before
      -- the first variable has the first slots, and the others have the rest
      by_cases own : slot.toNat < first + type.width
      · refine ⟨other, ⟨UInt16.ofNat first, type⟩, by rw [placeOf?, if_pos rfl], ?_⟩
        have isFirst : (UInt16.ofNat first).toNat = first := by
          rw [UInt16.toNat_ofNat']
          omega
        rw [LocalVariable.Occupies, isFirst]
        exact ⟨after, own⟩
      · rcases ih distinct.2 room (Nat.le_of_not_lt own) before with
          ⟨name, place, found, occupies⟩
        have different : other.expandedName ≠ name.expandedName := by
          intro same
          exact distinct.1 (same ▸ mem_variableNames_of_placeOf? found)
        exact ⟨name, place, by rw [placeOf?, if_neg different, found], occupies⟩

/-- No variable occupies a slot exactly if the slot is clear of all of them. -/
theorem not_occupies_iff_clearOf {config : Config} {declared : List (QName × ValueType)}
    (distinct : (variableNames declared).Nodup)
    (room : config.firstFreeSlot.toNat + totalWidth declared ≤ 65535) (slot : UInt16) :
    (∀ name place, placeOf? config.firstFreeSlot.toNat declared name = some place →
      ¬place.Occupies slot) ↔ config.ClearOf declared slot := by
  constructor
  · intro free
    by_contra crowded
    rw [Config.ClearOf, not_or, Nat.not_lt, Nat.not_le] at crowded
    rcases exists_placeOf?_occupies distinct room crowded.1 crowded.2 with
      ⟨name, place, found, occupies⟩
    exact free name place found occupies
  · intro clear name place found occupies
    have bounds := bounds_of_placeOf? found room
    rw [LocalVariable.Occupies] at occupies
    rcases clear with below | above <;> omega

end Places

namespace CompileUnit

/-- The code of a call loads the document first. -/
theorem Compiled.head?_code {unit later : CompileUnit} {config : Config} {slots : MethodDraft}
    {call : NameCall} {type : ValueType} {source : String} {method : CompiledMethod}
    (known : call.operandType = some type)
    (compiled : unit.Compiled config slots call source method later) :
    method.code.head? = some (.aload slots.documentSlot) := by
  rcases compiled.encoded with ⟨held, _, _, code⟩
  simp only [code, NameCall.script, known, plan_append, plan_preparations, List.nil_append,
    Emission.operandScript, plan_append_cons]
  rfl

/--
A method that is compiled has every declared variable, with its type, and its code loads the
document from the slot of the document first. Variables occupy neither this slot nor that of the
context node exactly if both are clear of the slots that the variables take from the first free
slot on.
-/
theorem reservedSlots_free_iff (className : String) (config : Config)
    (history : List UnitOperation) (operation : UnitOperation) {compiled : CompiledMethod}
    (answered : operation.answer (after className config history) = .ok (some compiled)) :
    ∃ method later, startMethod (after className config history) = .ok method later ∧
      (∀ name type, typeOf? (after className config history).declared name = some type ↔
        ∃ place, method.local? name = some place ∧ place.type = type) ∧
      compiled.code.head? = some (.aload config.domSlot) ∧
      ((∀ name place, method.local? name = some place →
          ¬place.Occupies config.domSlot ∧ ¬place.Occupies config.contextNodeSlot) ↔
        config.ClearOf (after className config history).declared config.domSlot ∧
          config.ClearOf (after className config history).declared config.contextNodeSlot) := by
  have describes := describes_after className config history
  rcases compileCall_of_answer describes answered with ⟨call, source, succeeds⟩
  rcases compiled_of_compileCall describes succeeds with
    ⟨type, slots, _, _, room, started, _, isCompiled⟩
  rcases startMethod_of_room describes room with ⟨method, begun, isStarted⟩
  have clear := not_occupies_iff_clearOf describes.distinct room
  refine ⟨method, _, begun, ?_, ?_, ?_⟩
  · intro name type
    rw [describes.sameDeclared, ← map_type_placeOf? config.firstFreeSlot.toNat,
      Option.map_eq_some_iff, isStarted.local?]
  · rw [isCompiled.head?_code rfl, started.reserves.documentSlot]
  · rw [describes.sameDeclared, ← clear, ← clear]
    simp only [isStarted.local?]
    exact ⟨fun free => ⟨fun name place found => (free name place found).1,
      fun name place found => (free name place found).2⟩,
      fun free name place found => ⟨free.1 name place found, free.2 name place found⟩⟩

/-- In the standard layout a real number takes the slots after those that are reserved. -/
theorem reservedSlots_free_iff_standard :
    ∃ compiled method later,
      UnitOperation.answer (after "A" {} [.declare (.ofLocalPart "d") .real])
          (.compile "name()") = .ok (some compiled) ∧
      startMethod (after "A" {} [.declare (.ofLocalPart "d") .real]) = .ok method later ∧
      ∀ name place, method.local? name = some place → ¬place.Occupies 1 ∧ ¬place.Occupies 4 := by
  rcases compile_of_few "A" {} [.declare (.ofLocalPart "d") .real] "name()" (by decide +kernel)
    (by decide) with ⟨compiled, unit, compiles⟩
  have answered : UnitOperation.answer (after "A" {} [.declare (.ofLocalPart "d") .real])
      (.compile "name()") = .ok (some compiled) := by
    rw [UnitOperation.answer, compiles]
    rfl
  rcases reservedSlots_free_iff "A" {} [.declare (.ofLocalPart "d") .real] _ answered with
    ⟨method, later, begun, _, _, free⟩
  exact ⟨compiled, method, later, answered, begun, free.mpr (by decide +kernel)⟩

/--
With the document in slot seven and the first free slot left at five, the third variable gets the
slot of the document, and the code of a call with this variable loads one slot for both.
-/
theorem reservedSlots_occupied :
    let config : Config := { domSlot := 7, contextNodeSlot := 9 }
    let unit := after "T" config [.declare (.ofLocalPart "a") .node,
      .declare (.ofLocalPart "b") .node, .declare (.ofLocalPart "c") .node]
    config.domSlot ≠ config.contextNodeSlot ∧
      (∃ method later, startMethod unit = .ok method later ∧
        ∃ place, method.local? (.ofLocalPart "c") = some place ∧ place.Occupies config.domSlot) ∧
      ∃ compiled later, compile "name($c)" unit = .ok compiled later ∧
        compiled.code = [.aload 7, .iload 7, .invokeInterface 6 2] := by
  intro config unit
  have describes := describes_after "T" config [.declare (.ofLocalPart "a") .node,
    .declare (.ofLocalPart "b") .node, .declare (.ofLocalPart "c") .node]
  refine ⟨by decide, ?_, ?_⟩
  · rcases startMethod_of_room describes (by decide) with ⟨method, begun, isStarted⟩
    exact ⟨method, _, begun, ⟨7, .node⟩, (isStarted.local? _).trans (by decide +kernel),
      by decide⟩
  · rcases compile_of_few "T" config [.declare (.ofLocalPart "a") .node,
      .declare (.ofLocalPart "b") .node, .declare (.ofLocalPart "c") .node] "name($c)"
      (by decide +kernel) (by decide) with ⟨compiled, later, compiles⟩
    have isCode : (answerOf (compile "name($c)" unit)).toOption.map CompiledMethod.code =
        some [.aload 7, .iload 7, .invokeInterface 6 2] := by
      decide +kernel
    rw [compiles] at isCode
    exact ⟨compiled, later, compiles, Option.some.inj isCode⟩

end CompileUnit

end NodeNames
