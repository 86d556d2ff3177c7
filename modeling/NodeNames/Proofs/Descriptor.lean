import NodeNames.Proofs.MethodSignature
/-!
# Reading descriptors inverts writing them

A class name in a descriptor ends at the next semicolon, and the parameters
end at the first closing parenthesis. Signatures whose class names keep clear
of these are exactly the signatures that are read, each from one text only.
-/

namespace NodeNames

namespace FieldType

/-- The class of an object type, or of the objects in an array. -/
def className? : FieldType → Option String
  | object className => some className
  | array element => element.className?
  | byte | char | double | float | int | long | short | boolean => none

theorem wellFormed_iff {type : FieldType} :
    type.WellFormed ↔
      ∀ className ∈ type.className?, className ≠ "" ∧ ';' ∉ className.toList := by
  induction type with
  | object className => simp [WellFormed, className?]
  | array element ih => exact ih
  | byte | char | double | float | int | long | short | boolean => simp [WellFormed, className?]

/-- Only a class puts a parenthesis into the written form of a type. -/
theorem parenthesis_mem_render_iff {type : FieldType} :
    ')' ∈ type.render ↔ ∃ className ∈ type.className?, ')' ∈ className.toList := by
  induction type with
  | object className => simp [render, className?]
  | array element ih => simpa [render, className?] using ih
  | byte | char | double | float | int | long | short | boolean => simp [render, className?]

end FieldType

namespace MethodSignature

/-- Class names are not empty and free of semicolons, and those of parameters of parentheses too. -/
def Describable (signature : MethodSignature) : Prop :=
  (∀ type ∈ signature.parameters, ∀ className ∈ type.className?,
    className ≠ "" ∧ ';' ∉ className.toList ∧ ')' ∉ className.toList) ∧
  ∀ type ∈ signature.result, ∀ className ∈ type.className?,
    className ≠ "" ∧ ';' ∉ className.toList

theorem describable_iff_wellFormed {signature : MethodSignature} :
    signature.Describable ↔ signature.WellFormed := by
  have parameter (type : FieldType) :
      (∀ className ∈ type.className?,
          className ≠ "" ∧ ';' ∉ className.toList ∧ ')' ∉ className.toList) ↔
        type.WellFormed ∧ ')' ∉ type.render := by
    rw [FieldType.wellFormed_iff, FieldType.parenthesis_mem_render_iff]
    cases type.className? <;> simp [and_assoc]
  simp only [Describable, WellFormed, parameter, FieldType.wellFormed_iff]

/-- A describable signature is read from its written form, and from no other text. -/
theorem ofDescriptor_eq_ok_iff_describable {descriptor : String} {signature : MethodSignature} :
    ofDescriptor descriptor = .ok signature ↔
      descriptor.toList = signature.render ∧ signature.Describable := by
  rw [ofDescriptor_eq_ok_iff, describable_iff_wellFormed]

/-- A describable signature can be recovered from its written form. -/
theorem render_inj {first second : MethodSignature} (isFirst : first.Describable)
    (isSecond : second.Describable) (same : first.render = second.render) : first = second := by
  have readFirst := ofDescriptor_eq_ok_iff_describable.mpr
    ⟨String.toList_ofList (l := first.render), isFirst⟩
  have readSecond := ofDescriptor_eq_ok_iff_describable.mpr
    ⟨(String.toList_ofList (l := first.render)).trans same, isSecond⟩
  exact Except.ok.inj (readFirst.symm.trans readSecond)

/-- What is read as parameters is all of the text before the first closing parenthesis. -/
theorem texts_of_ofDescriptor {descriptor : String} {signature : MethodSignature}
    {parameterText resultText : List Char}
    (isDescriptor : descriptor.toList = '(' :: (parameterText ++ ')' :: resultText))
    (isFirst : ')' ∉ parameterText) (found : ofDescriptor descriptor = .ok signature) :
    parameterText = signature.parameters.flatMap FieldType.render ∧
      resultText = FieldType.renderResult signature.result := by
  rcases ofDescriptor_eq_ok_iff.mp found with ⟨written, wellFormed⟩
  have same := (List.cons.inj ((isDescriptor.symm.trans written).trans signature.render_eq)).2
  -- both texts are cut at their first closing parenthesis
  have cut : Text.cutAtFirst ')' (parameterText ++ ')' :: resultText) =
      some (parameterText, resultText) := Text.cutAtFirst_eq_some_iff.mpr ⟨rfl, isFirst⟩
  rw [same, cut_render fun type member => (wellFormed.1 type member).2] at cut
  cases cut
  exact ⟨rfl, rfl⟩

/--
A text is read as a signature exactly if it is the written form of that signature and the signature
is describable; every other text is reported as malformed. So no two describable signatures are
written alike. The parameters that are read take up all of the text before the first closing
parenthesis, and the result takes up all of the text after it.
-/
theorem ofDescriptor_inverts_render (descriptor : String) :
    (∀ signature, ofDescriptor descriptor = .ok signature ↔
      descriptor.toList = signature.render ∧ signature.Describable) ∧
    ((∃ error, ofDescriptor descriptor = .error error ∧ error.code.render = "XSLTC0002") ↔
      ∀ signature : MethodSignature,
        signature.Describable → descriptor.toList ≠ signature.render) ∧
    (∀ first second : MethodSignature, first.Describable → second.Describable →
      first.render = second.render → first = second) ∧
    ∀ signature parameterText resultText,
      descriptor.toList = '(' :: (parameterText ++ ')' :: resultText) → ')' ∉ parameterText →
      ofDescriptor descriptor = .ok signature →
        parameterText = signature.parameters.flatMap FieldType.render ∧
          resultText = FieldType.renderResult signature.result := by
  refine ⟨fun signature => ofDescriptor_eq_ok_iff_describable, ⟨?_, ?_⟩,
    fun first second => render_inj, fun signature parameterText resultText => texts_of_ofDescriptor⟩
  · rintro ⟨error, refused, _⟩ signature describable written
    rw [ofDescriptor_eq_ok_iff_describable.mpr ⟨written, describable⟩] at refused
    cases refused
  · intro unwritten
    refine ⟨.malformedDescriptor descriptor, ofDescriptor_eq_error ?_, rfl⟩
    intro signature wellFormed
    exact unwritten signature (describable_iff_wellFormed.mpr wellFormed)

/-- A parenthesis may stand in the class of a result but not in that of a parameter. -/
example : ofDescriptor "([I)La)b;" = .ok ⟨[.array .int], some (.object "a)b")⟩ ∧
    ofDescriptor "([La)b;)I" = .error (.malformedDescriptor "([La)b;)I") := by
  decide +kernel

end MethodSignature

end NodeNames
