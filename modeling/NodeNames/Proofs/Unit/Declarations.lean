import Mathlib.Algebra.BigOperators.Group.Finset.Basic
import NodeNames.Proofs.Unit.Growth
/-!
# Slots of declared variables

Declaring a variable again moves it behind all others and frees the slots that
it had. So a method has slots for a variable above those of exactly the
variables whose latest declarations come before its own, by their latest types,
and there is no gap. Methods that have been compiled before are not affected.
-/

namespace NodeNames

open EmissionStep

/-- The width of a variable by its latest declaration. -/
def latestWidth (declarations : List (QName × ValueType)) (name : ExpandedName) : Nat :=
  match (declarations.filter fun entry => entry.1.expandedName = name).getLast? with
  | some (_, type) => type.width
  | none => 0

section Latest

variable {declarations before later : List (QName × ValueType)} {entry : QName × ValueType}

theorem exists_eq_append_of_mem_latestDeclarations
    (isLatest : entry ∈ latestDeclarations declarations) :
    ∃ before later, declarations = before ++ entry :: later ∧
      entry.1.expandedName ∉ variableNames later := by
  induction declarations with
  | nil => cases isLatest
  | cons first others ih =>
      have ofOthers (isOther : entry ∈ latestDeclarations others) :
          ∃ before later, first :: others = before ++ entry :: later ∧
            entry.1.expandedName ∉ variableNames later := by
        rcases ih isOther with ⟨before, later, rfl, last⟩
        exact ⟨first :: before, later, rfl, last⟩
      rw [latestDeclarations] at isLatest
      split_ifs at isLatest with replaced
      · exact ofOthers isLatest
      · rcases List.mem_cons.mp isLatest with rfl | isOther
        · exact ⟨[], others, rfl, replaced⟩
        · exact ofOthers isOther

theorem latestWidth_of_last (last : entry.1.expandedName ∉ variableNames later) :
    latestWidth (before ++ entry :: later) entry.1.expandedName = entry.2.width := by
  have none : later.filter (fun other => other.1.expandedName = entry.1.expandedName) = [] := by
    apply List.filter_eq_nil_iff.mpr
    intro other isLater same
    exact last (List.mem_map.mpr ⟨other, isLater, of_decide_eq_true same⟩)
  rw [latestWidth, List.filter_append, List.filter_cons_of_pos (by simp), none,
    List.getLast?_concat]

theorem latestWidth_of_mem (isLatest : entry ∈ latestDeclarations declarations) :
    latestWidth declarations entry.1.expandedName = entry.2.width := by
  rcases exists_eq_append_of_mem_latestDeclarations isLatest with ⟨before, later, rfl, last⟩
  exact latestWidth_of_last last

theorem mem_variableNames_latestDeclarations_iff {name : ExpandedName} :
    name ∈ variableNames (latestDeclarations declarations) ↔ name ∈ variableNames declarations := by
  induction declarations with
  | nil => rfl
  | cons entry later ih =>
      by_cases replaced : entry.1.expandedName ∈ variableNames later
      · simp only [latestDeclarations, replaced, if_true, ih, variableNames_cons, List.mem_cons]
        constructor
        · exact .inr
        · rintro (rfl | isLater)
          · exact replaced
          · exact isLater
      · simp [latestDeclarations, replaced, ih, variableNames_cons]

theorem totalWidth_eq_sum {width : ExpandedName → Nat} {declared : List (QName × ValueType)}
    (distinct : (variableNames declared).Nodup)
    (widths : ∀ entry ∈ declared, width entry.1.expandedName = entry.2.width) :
    totalWidth declared = ∑ name ∈ (variableNames declared).toFinset, width name := by
  induction declared with
  | nil => rfl
  | cons entry others ih =>
      rw [variableNames_cons, List.nodup_cons] at distinct
      have sumOthers := ih distinct.2 fun other isOther => widths other (by simp [isOther])
      have new := mt List.mem_toFinset.mp distinct.1
      simp only [totalWidth, variableNames_cons, List.toFinset_cons]
      rw [Finset.sum_insert new, ← sumOthers, widths entry (by simp)]

theorem totalWidth_append (first second : List (QName × ValueType)) :
    totalWidth (first ++ second) = totalWidth first + totalWidth second := by
  induction first with
  | nil => simp [totalWidth]
  | cons entry others ih => simp [totalWidth, ih, Nat.add_assoc]

/-- A variable has its slots above those of the variables before it. -/
theorem placeOf?_append {first : Nat} {front rest : List (QName × ValueType)} {name : QName}
    {type : ValueType} (new : name.expandedName ∉ variableNames front) :
    placeOf? first (front ++ (name, type) :: rest) name =
      some ⟨UInt16.ofNat (first + totalWidth front), type⟩ := by
  induction front generalizing first with
  | nil => simp [placeOf?, totalWidth]
  | cons entry others ih =>
      rw [variableNames_cons, List.mem_cons, not_or] at new
      simp [placeOf?, Ne.symm new.1, ih new.2, totalWidth, Nat.add_assoc]

theorem mem_variableNames_filter_iff {names : List ExpandedName} {name : ExpandedName} :
    name ∈ variableNames (declarations.filter fun entry => entry.1.expandedName ∉ names) ↔
      name ∈ variableNames declarations ∧ name ∉ names := by
  simp only [variableNames, List.mem_map, List.mem_filter, decide_eq_true_iff]
  constructor
  · rintro ⟨entry, ⟨isEntry, kept⟩, rfl⟩
    exact ⟨⟨entry, isEntry, rfl⟩, kept⟩
  · rintro ⟨⟨entry, isEntry, rfl⟩, kept⟩
    exact ⟨entry, ⟨isEntry, kept⟩, rfl⟩

/-- The variables before another one are those that are declared before it and not again later. -/
theorem latestDeclarations_split {name : QName} {type : ValueType}
    (last : name.expandedName ∉ variableNames later) :
    ∃ front, latestDeclarations (before ++ (name, type) :: later) =
        front ++ (name, type) :: latestDeclarations later ∧
      (variableNames front).toFinset =
        (variableNames before).toFinset \ (variableNames ((name, type) :: later)).toFinset := by
  refine ⟨(latestDeclarations before).filter fun entry =>
    entry.1.expandedName ∉ variableNames ((name, type) :: later), ?_, ?_⟩
  · rw [latestDeclarations_append, latestDeclarations, if_neg last]
  · ext other
    rw [List.mem_toFinset, mem_variableNames_filter_iff, mem_variableNames_latestDeclarations_iff,
      Finset.mem_sdiff, List.mem_toFinset, List.mem_toFinset]

end Latest

namespace CompileUnit

variable {unit later : CompileUnit} {config : Config} {declared : List (QName × ValueType)}

theorem nextSlot_of_startMethod (describes : unit.Describes config declared)
    (room : config.firstFreeSlot.toNat + totalWidth declared ≤ 65535) {method : MethodDraft}
    (begun : startMethod unit = .ok method later) :
    method.nextSlot.toNat = config.firstFreeSlot.toNat + totalWidth declared := by
  rcases @allocateVariables_of_room (MethodDraft.new s!"call{unit.methodCount}" config) declared
      describes.distinct (fun _ _ => rfl) room with ⟨allocated, allocates, _, nextSlot, _⟩
  simp only [startMethod, describes.sameConfig, describes.sameDeclared, allocates] at begun
  cases begun
  exact nextSlot

/-- The code of a call with a variable loads the variable from its slot after the document. -/
theorem Compiled.load_variable {slots : MethodDraft} {call : NameCall} {type : ValueType}
    {source : String} {method : CompiledMethod} (known : call.operandType = some type)
    (compiled : unit.Compiled config slots call source method later) {name : QName}
    (isVariable : call.operand = some (.variableReference name))
    (checked : CheckedOperand slots call.operand type) :
    ∃ slot, slots.local? name = some ⟨slot, type⟩ ∧
      method.code[1]? = some (if type = .node then .iload slot else .aload slot) := by
  rcases compiled.encoded with ⟨held, _, _, code⟩
  simp only [code, NameCall.script, known, plan_append, plan_preparations, List.nil_append,
    Emission.operandScript, plan_append_cons, isVariable, Expression.script,
    Emission.variableSteps]
  rw [isVariable] at checked
  cases checked with
  | nodeVariable found | nodeSetVariable found | referenceVariable found =>
      refine ⟨_, found, ?_⟩
      simp only [found]
      rfl

theorem Compiled.listing_of_extends {slots : MethodDraft} {call : NameCall} {source : String}
    {method : CompiledMethod} {current : CompileUnit}
    (compiled : unit.Compiled config slots call source method later)
    (extended : current.Extends later) : current.listing method = later.listing method := by
  rcases compiled.encoded with ⟨values, represents, _, _⟩
  rcases extended.pool values represents with ⟨held, longer, grown⟩
  exact Code.listing_of_longer represents grown longer compiled.decode?

/-- The variables that have their slots below those of another one, and how many slots these are. -/
theorem declaredVariables_split {history : List UnitOperation}
    {before others : List (QName × ValueType)} {name : QName} {type : ValueType}
    (distinct : (variableNames (declaredVariables config history)).Nodup)
    (isDeclared : history.filterMap (UnitOperation.declaration? config) =
      before ++ (name, type) :: others)
    (last : name.expandedName ∉ variableNames others) :
    ∃ front rest, declaredVariables config history = front ++ (name, type) :: rest ∧
      name.expandedName ∉ variableNames front ∧
      totalWidth front =
        ∑ other ∈ (variableNames before).toFinset \
            (variableNames ((name, type) :: others)).toFinset,
          latestWidth (before ++ (name, type) :: others) other := by
  rcases @latestDeclarations_split before others name type last with ⟨front, isLatest, names⟩
  rw [declaredVariables, isDeclared, isLatest] at distinct ⊢
  rw [variableNames_append, List.nodup_append'] at distinct
  rcases distinct with ⟨distinct, _, apart⟩
  refine ⟨front, latestDeclarations others, rfl, ?_, ?_⟩
  · intro known
    exact apart known (by simp [variableNames_cons])
  · rw [← names]
    apply totalWidth_eq_sum distinct
    intro entry isFront
    exact latestWidth_of_mem (isLatest ▸ List.mem_append_left _ isFront)

theorem totalWidth_declaredVariables {history : List UnitOperation}
    (distinct : (variableNames (declaredVariables config history)).Nodup) :
    totalWidth (declaredVariables config history) =
      ∑ name ∈ (variableNames (history.filterMap (UnitOperation.declaration? config))).toFinset,
        latestWidth (history.filterMap (UnitOperation.declaration? config)) name := by
  rw [totalWidth_eq_sum distinct fun entry => latestWidth_of_mem]
  congr 1
  ext name
  rw [List.mem_toFinset, List.mem_toFinset, declaredVariables,
    mem_variableNames_latestDeclarations_iff]

/--
A method that is compiled after any declarations, and after any calls between them, has the slots of
each variable above those of exactly the other variables whose latest declarations come before its
own, by their latest types, and from there its code loads the variable. The method has no other
slots for variables. Nothing that is done to the unit later changes what the method reads.
-/
theorem slots_of_declarations (className : String) (config : Config)
    (history : List UnitOperation) (operation : UnitOperation) {compiled : CompiledMethod}
    (answered : operation.answer (after className config history) = .ok (some compiled)) :
    let declarations := history.filterMap (UnitOperation.declaration? config)
    ∃ method later, startMethod (after className config history) = .ok method later ∧
      compiled.name = method.name ∧
      (∀ before name type others, declarations = before ++ (name, type) :: others →
        name.expandedName ∉ variableNames others →
        ∃ slot, method.local? name = some ⟨slot, type⟩ ∧
          slot.toNat = config.firstFreeSlot.toNat +
            ∑ other ∈ (variableNames before).toFinset \
                (variableNames ((name, type) :: others)).toFinset,
              latestWidth declarations other ∧
          ∀ call reference, operation.call? config = some call →
            call.operand = some (.variableReference reference) →
            reference.expandedName = name.expandedName →
            compiled.code[1]? = some (if type = .node then .iload slot else .aload slot)) ∧
      method.nextSlot.toNat = config.firstFreeSlot.toNat +
        ∑ name ∈ (variableNames declarations).toFinset, latestWidth declarations name ∧
      ∀ further, (after className config (history ++ operation :: further)).listing compiled =
        (after className config (history ++ [operation])).listing compiled := by
  intro declarations
  have describes := describes_after className config history
  rcases compileCall_call?_of_answer describes answered with ⟨call, source, isCall, succeeds⟩
  rw [perform_after] at succeeds
  rcases compiled_of_compileCall describes succeeds with
    ⟨type, slots, _, _, room, started, checked, isCompiled⟩
  rcases startMethod_of_room describes room with ⟨method, begun, isStarted⟩
  have sameLocals (name : QName) : slots.local? name = method.local? name := by
    rw [started.local?, isStarted.local?]
  refine ⟨method, _, begun, ?_, ?_, ?_, ?_⟩
  · rw [isCompiled.isMethod, started.name, isStarted.name]
  · intro before name variableType others isDeclared last
    rcases declaredVariables_split describes.distinct isDeclared last with
      ⟨front, rest, isSplit, new, width⟩
    have found := isStarted.local? name
    rw [isSplit, placeOf?_append new] at found
    rw [isSplit, totalWidth_append, totalWidth] at room
    refine ⟨_, found, ?_, ?_⟩
    · have small : config.firstFreeSlot.toNat + totalWidth front < 65536 := by omega
      simp only [declarations, isDeclared]
      rw [UInt16.toNat_ofNat', Nat.mod_eq_of_lt small, width]
    · intro other reference isOther isVariable same
      cases isCall.symm.trans isOther
      rcases isCompiled.load_variable rfl isVariable checked with ⟨slot, isLocal, load⟩
      rw [sameLocals, MethodDraft.local?, same, ← MethodDraft.local?, found] at isLocal
      cases isLocal
      exact load
  · rw [nextSlot_of_startMethod describes room begun]
    exact congrArg _ (totalWidth_declaredVariables describes.distinct)
  · intro further
    rw [after_cons]
    exact isCompiled.listing_of_extends
      (extends_after className config (history ++ [operation]) further)

/-- A real number that becomes a node moves behind the node next to it and gives its slots back. -/
theorem slots_of_declarations_redeclared :
    let history : List UnitOperation := [.declare (.ofLocalPart "a") .real,
      .declare (.ofLocalPart "b") .node, .declare (.ofLocalPart "a") .node]
    ∃ compiled method later,
      UnitOperation.answer (after "A" {} history) (.compile "name($a)") = .ok (some compiled) ∧
      startMethod (after "A" {} history) = .ok method later ∧
      method.local? (.ofLocalPart "a") = some ⟨6, .node⟩ ∧
      compiled.code[1]? = some (.iload 6) := by
  intro history
  rcases compile_of_few "A" {} history "name($a)" (by decide +kernel) (by decide) with
    ⟨compiled, unit, compiles⟩
  have answered : UnitOperation.answer (after "A" {} history) (.compile "name($a)") =
      .ok (some compiled) := by
    rw [UnitOperation.answer, compiles]
    rfl
  rcases slots_of_declarations "A" {} history _ answered with ⟨method, later, begun, _, slots, _⟩
  rcases slots [(.ofLocalPart "a", .real), (.ofLocalPart "b", .node)] (.ofLocalPart "a") .node []
    (by decide) (by decide) with ⟨slot, found, isSlot, loads⟩
  have isSix : slot = 6 := UInt16.toNat_inj.mp (isSlot.trans (by decide +kernel))
  rw [isSix] at found loads
  exact ⟨compiled, method, later, answered, begun, found,
    loads ⟨.name, .ofLocalPart "name", some (.variableReference (.ofLocalPart "a")), none⟩
      (.ofLocalPart "a") (by decide +kernel) rfl rfl⟩

end CompileUnit

end NodeNames
