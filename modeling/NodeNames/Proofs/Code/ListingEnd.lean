import NodeNames.Proofs.Code.References
import NodeNames.Text.Cut
/-!
# Ends of listings

What stands at the end of a line of a listing is a number, a quote, or the
descriptor of a method, whose last character ends the name of a type. None of
these is blank, if the code has passed verification and so invokes only methods
with readable descriptors. So nothing of a listing is lost when blanks are cut off
after it.
-/

namespace NodeNames

namespace Text

/-- A text that has a last character, and one that is not blank. -/
def EndsVisibly (text : String) : Prop :=
  ∃ last, text.toList.getLast? = some last ∧ isBlank last = false

theorem EndsVisibly.append {text : String} (visible : EndsVisibly text) (before : String) :
    EndsVisibly (before ++ text) := by
  rcases visible with ⟨last, isLast, shows⟩
  refine ⟨last, ?_, shows⟩
  simp [isLast]

theorem EndsVisibly.getD {resolved : Option String} {fallback : String}
    (visible : EndsVisibly fallback) (shows : ∀ text ∈ resolved, EndsVisibly text) :
    EndsVisibly (resolved.getD fallback) := by
  cases resolved with
  | none => exact visible
  | some text => exact shows text rfl

theorem isBlank_eq_false_of_isDigit {character : Char} (isDigit : character.isDigit = true) :
    isBlank character = false := by
  have bounds : 48 ≤ character.toNat ∧ character.toNat ≤ 57 := Char.isDigit_iff_toNat.mp isDigit
  have apart : ∀ range ∈ blankRanges, range.2 < 48 ∨ 57 < range.1 := by decide
  rw [isBlank, List.any_eq_false]
  intro range isRange
  have := apart range isRange
  simp only [Bool.and_eq_true, decide_eq_true_eq]
  omega

theorem endsVisibly_natural (number : Nat) : EndsVisibly (toString number) := by
  have nonempty : Nat.toDigits 10 number ≠ [] := Nat.toDigits_ne_nil
  have isDigit := Nat.isDigit_of_mem_toDigits (by decide) (by decide) (List.getLast_mem nonempty)
  refine ⟨_, ?_, isBlank_eq_false_of_isDigit isDigit⟩
  rw [Nat.toString_eq_repr, Nat.repr, String.toList_ofList]
  exact List.getLast?_eq_some_getLast nonempty

theorem endsVisibly_integer (number : Int) : EndsVisibly (toString number) := by
  cases number with
  | ofNat magnitude => exact endsVisibly_natural magnitude
  | negSucc predecessor => exact (endsVisibly_natural (predecessor + 1)).append "-"

theorem endsVisibly_quote (text : String) : EndsVisibly (quote text) :=
  EndsVisibly.append ⟨'"', rfl, by decide⟩ _

/-- After a text that ends visibly, what is cut off is what follows it. -/
theorem trimEnd_append_newline {text : String} (visible : EndsVisibly text) :
    trimEnd (text ++ "\n") = text := by
  rcases visible with ⟨last, isLast, shows⟩
  rcases List.getLast?_eq_some_iff.mp isLast with ⟨before, isText⟩
  have newline : isBlank '\n' = true := by decide
  rw [trimEnd, ← String.toList_inj]
  simp [isText, newline, shows]

end Text

open Text

theorem FieldType.getLast?_render (type : FieldType) :
    ∃ last, type.render.getLast? = some last ∧ isBlank last = false := by
  induction type with
  | object className => exact ⟨';', by simp [render, List.getLast?_cons], by decide⟩
  | array element ih =>
      rcases ih with ⟨last, isLast, shows⟩
      exact ⟨last, by simp [render, List.getLast?_cons, isLast], shows⟩
  | _ => exact ⟨_, rfl, by decide⟩

theorem FieldType.getLast?_renderResult (result : Option FieldType) :
    ∃ last, (renderResult result).getLast? = some last ∧ isBlank last = false := by
  cases result with
  | none => exact ⟨'V', rfl, by decide⟩
  | some type => exact type.getLast?_render

/-- A readable descriptor ends with the type of the result. -/
theorem MethodSignature.endsVisibly_descriptor {descriptor : String} {signature : MethodSignature}
    (readable : ofDescriptor descriptor = .ok signature) : EndsVisibly descriptor := by
  rcases FieldType.getLast?_renderResult signature.result with ⟨last, isLast, shows⟩
  refine ⟨last, ?_, shows⟩
  rw [(ofDescriptor_eq_ok_iff.mp readable).1, render_eq]
  simp [List.getLast?_cons, isLast]

theorem PoolIndex.endsVisibly_render (index : PoolIndex) : EndsVisibly index.render :=
  (endsVisibly_natural index).append "#"

namespace Instruction

variable {pool : ConstantPool}

theorem endsVisibly_render (instruction : Instruction) : EndsVisibly instruction.render := by
  cases instruction with
  | aload slot | iload slot | dload slot => exact (endsVisibly_natural slot.toNat).append _
  | iconst value =>
      change EndsVisibly (if value = -1 then "iconst_m1" else s!"iconst_{value.toInt}")
      split_ifs
      · exact ⟨'1', by decide +kernel, by decide⟩
      · exact (endsVisibly_integer value.toInt).append _
  | bipush value | sipush value => exact (endsVisibly_integer value.toInt).append _
  | ldc index | ldcWide index | invokeStatic index =>
      exact (PoolIndex.endsVisibly_render index).append _
  | invokeInterface index count => exact (endsVisibly_natural count.toNat).append _

theorem endsVisibly_of_renderConstant? {index : PoolIndex} {constant : String}
    (shown : renderConstant? pool index = some constant) : EndsVisibly constant := by
  rw [renderConstant?] at shown
  split at shown
  · cases shown
    exact endsVisibly_integer _
  · cases shown
    exact endsVisibly_quote _
  · cases shown

/-- An instruction that verification can make sense of is shown by a text that ends visibly. -/
theorem endsVisibly_renderResolved {instruction : Instruction} {effect : StackEffect}
    (effects : instruction.stackEffect pool = .ok effect) :
    EndsVisibly (instruction.renderResolved pool) := by
  unfold renderResolved
  apply EndsVisibly.getD (endsVisibly_render instruction)
  intro text resolved
  cases instruction with
  | aload slot | iload slot | dload slot | iconst value | bipush value | sipush value =>
      cases resolved
  | ldc index | ldcWide index =>
      rcases Option.map_eq_some_iff.mp resolved with ⟨constant, shown, rfl⟩
      exact (endsVisibly_of_renderConstant? shown).append _
  | invokeStatic index =>
      rcases bind_eq_ok_iff.mp effects with ⟨signature, described, _⟩
      rcases ConstantPool.signature_eq_ok_iff.mp described with ⟨reference, found, _, readable⟩
      rcases Option.map_eq_some_iff.mp resolved with ⟨other, alsoFound, rfl⟩
      cases found.symm.trans alsoFound
      have visible := MethodSignature.endsVisibly_descriptor readable
      exact (visible.append _).append _
  | invokeInterface index count =>
      rcases Option.map_eq_some_iff.mp resolved with ⟨reference, _, rfl⟩
      exact (endsVisibly_natural count.toNat).append _

end Instruction

namespace Code

variable {pool : ConstantPool}

theorem endsVisibly_listingLine (position : Nat) {text : String} (visible : EndsVisibly text) :
    EndsVisibly (listingLine position text) :=
  visible.append _

/-- Lines that are joined end as the last one does. -/
theorem endsVisibly_intercalate (lines : List String) {last : String}
    (visible : EndsVisibly last) : EndsVisibly (String.intercalate "\n" (lines ++ [last])) := by
  cases lines with
  | nil => simpa using visible
  | cons first others =>
      rw [String.intercalate_append_of_ne_nil (List.cons_ne_nil _ _) (List.cons_ne_nil _ _),
        String.intercalate_singleton]
      exact visible.append _

/-- The listing of verified code ends visibly, unless there is no code. -/
theorem endsVisibly_listing {code : Code} {summary : StackSummary}
    (verified : code.verify pool = .ok summary) (nonempty : code ≠ []) :
    EndsVisibly (code.listing pool) := by
  rcases List.eq_nil_or_concat code with rfl | ⟨before, last, rfl⟩
  · exact absurd rfl nonempty
  · rw [List.concat_eq_append] at verified ⊢
    rw [verify_concat] at verified
    rcases bind_eq_ok_iff.mp verified with ⟨between, _, accepted⟩
    rcases verifyInstruction_eq_ok_iff.mp accepted with ⟨_, effect, effects, _⟩
    have visible := Instruction.endsVisibly_renderResolved effects
    simp only [listing, renderResolved, listingLines, List.map_append, List.zipIdx_append,
      List.map_cons, List.map_nil, List.zipIdx_cons, List.zipIdx_nil]
    exact endsVisibly_intercalate _ (endsVisibly_listingLine _ visible)

end Code

end NodeNames
