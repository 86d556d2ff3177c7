import Mathlib.Data.List.Basic
import NodeNames.Proofs.NameCall.Resolution
import Std.Data.TreeMap.Lemmas
/-!
# Outcomes of resolution

Several things can be wrong with a call at once: the qualifier of the function
or of an argument is not bound, the function is not known, or there are too
many arguments. Resolution reports the first of them in a fixed order. What a
qualifier is bound to depends on how the configuration has been built.
-/

namespace NodeNames

/-- A choice in building a configuration. -/
inductive ConfigSetting where
  | domInterface (className : String)
  | nodeIteratorInterface (className : String)
  | basisLibraryClass (className : String)
  | domSlot (slot : UInt16)
  | contextNodeSlot (slot : UInt16)
  | firstFreeSlot (slot : UInt16)
  | poolLimit (limit : Nat)
  | binding (qualifier uri : String)
  | defaultFunctionNamespace (uri : Option String)

namespace ConfigSetting

def apply (config : Config) : ConfigSetting → Config
  | domInterface className => { config with domInterface := className }
  | nodeIteratorInterface className => { config with nodeIteratorInterface := className }
  | basisLibraryClass className => { config with basisLibraryClass := className }
  | domSlot slot => { config with domSlot := slot }
  | contextNodeSlot slot => { config with contextNodeSlot := slot }
  | firstFreeSlot slot => { config with firstFreeSlot := slot }
  | poolLimit limit => config.limitPool limit
  | binding qualifier uri => config.bindNamespace qualifier uri
  | defaultFunctionNamespace uri => { config with defaultFunctionNamespace := uri }

/-- The namespace that a setting binds a qualifier to. -/
def uri? (qualifier : String) : ConfigSetting → Option String
  | binding bound uri => if bound = qualifier then some uri else none
  | _ => none

end ConfigSetting

namespace Config

def ofSettings (settings : List ConfigSetting) : Config :=
  settings.foldl ConfigSetting.apply {}

variable {config : Config} {qualifier : String}

theorem resolveQualifier?_bindNamespace (other uri : String) :
    (config.bindNamespace qualifier uri).resolveQualifier? other =
      if other ≠ "xml" ∧ qualifier = other then some uri else config.resolveQualifier? other := by
  by_cases reserved : qualifier = "xml"
  · have keeps : ¬(other ≠ "xml" ∧ qualifier = other) := by
      intro binds
      apply binds.1
      rw [← binds.2, reserved]
    simp only [bindNamespace, if_pos reserved, if_neg keeps]
  · by_cases same : qualifier = other
    · simp [bindNamespace, resolveQualifier?, reserved, ← same]
    · simp [bindNamespace, resolveQualifier?, Std.TreeMap.getElem?_insert, reserved, same]

theorem resolveQualifier?_apply (setting : ConfigSetting) :
    (setting.apply config).resolveQualifier? qualifier =
      if qualifier = "xml" then config.resolveQualifier? qualifier
      else (setting.uri? qualifier).or (config.resolveQualifier? qualifier) := by
  cases setting with
  | binding bound uri =>
      simp only [ConfigSetting.apply, ConfigSetting.uri?, resolveQualifier?_bindNamespace]
      by_cases reserved : qualifier = "xml"
      · simp [reserved]
      · by_cases same : bound = qualifier
        · simp [reserved, same]
        · simp [reserved, same]
  | _ => exact (ite_self _).symm

/-- The last binding of a qualifier counts, and without one the qualifier stands for the same. -/
theorem resolveQualifier?_foldl (settings : List ConfigSetting) :
    (settings.foldl ConfigSetting.apply config).resolveQualifier? qualifier =
      if qualifier = "xml" then config.resolveQualifier? qualifier
      else (settings.filterMap (·.uri? qualifier)).getLast?.or
        (config.resolveQualifier? qualifier) := by
  induction settings generalizing config with
  | nil => exact (ite_self _).symm
  | cons setting others ih =>
      simp only [List.foldl_cons, ih, resolveQualifier?_apply]
      by_cases reserved : qualifier = "xml"
      · simp [reserved]
      · cases bound : setting.uri? qualifier with
        | none => simp [reserved, bound]
        | some uri =>
            simp only [reserved, if_false, List.filterMap_cons_some bound, List.getLast?_cons]
            cases (others.filterMap (·.uri? qualifier)).getLast? <;> simp

theorem resolveQualifier?_ofSettings (settings : List ConfigSetting) (qualifier : String) :
    (ofSettings settings).resolveQualifier? qualifier =
      if qualifier = "xml" then some xmlNamespace
      else (settings.filterMap (·.uri? qualifier)).getLast? := by
  have initially : ({} : Config).resolveQualifier? qualifier =
      if "xml" = qualifier then some xmlNamespace else none := by
    simp [resolveQualifier?, Std.TreeMap.getElem?_insert]
  rw [ofSettings, resolveQualifier?_foldl, initially]
  by_cases reserved : qualifier = "xml"
  · simp [reserved]
  · simp [reserved, Ne.symm reserved]

/-- The name in the namespace that its qualifier stands for. -/
def filledIn (config : Config) (name : QName) : QName :=
  { name with uri := name.qualifier.elim name.uri config.resolveQualifier? }

end Config

/-- The name has a qualifier that nothing is bound to. -/
def QName.Unbound (name : QName) (config : Config) (qualifier : String) : Prop :=
  name.qualifier = some qualifier ∧ config.resolveQualifier? qualifier = none

section Names

variable {config : Config} {name : QName} {qualifier : String}

theorem Config.resolve_of_unbound (unbound : name.Unbound config qualifier) :
    config.resolve name = .error (.unboundQualifier qualifier) := by
  rw [resolve, unbound.1]
  simp only [unbound.2]

theorem Config.resolve_of_bound (bound : ∀ qualifier, ¬name.Unbound config qualifier) :
    config.resolve name = .ok (config.filledIn name) := by
  rcases name with ⟨_ | qualifier, localPart, uri⟩
  · rfl
  · cases found : config.resolveQualifier? qualifier with
    | none => exact absurd ⟨rfl, found⟩ (bound qualifier)
    | some uri => simp only [resolve, filledIn, found, Option.elim_some]

theorem NameFunction.ofName?_eq_some_iff {called : String} {function : NameFunction} :
    ofName? called = some function ↔ called = function.render := by
  constructor
  · intro found
    have isName := List.find?_some found
    exact (of_decide_eq_true isName).symm
  · rintro rfl
    cases function <;> rfl

end Names

namespace Expression

variable {config : Config}

/-- The name that an expression refers to. -/
def name? : Expression → Option QName
  | variableReference name => some name
  | step { test := .name name, .. } => some name
  | _ => none

/-- The name in the expression has a qualifier that nothing is bound to. -/
def Unbound (expression : Expression) (config : Config) (qualifier : String) : Prop :=
  ∃ name, expression.name? = some name ∧ name.Unbound config qualifier

def filledIn (config : Config) : Expression → Expression
  | variableReference name => variableReference (config.filledIn name)
  | step { axis, test := .name name } => step { axis, test := .name (config.filledIn name) }
  | other => other

theorem resolve_of_unbound {expression : Expression} {qualifier : String}
    (unbound : expression.Unbound config qualifier) :
    expression.resolve config = .error (.unboundQualifier qualifier) := by
  rcases unbound with ⟨name, isName, unbound⟩
  have fails := Config.resolve_of_unbound unbound
  cases expression with
  | contextNode | literal value => cases isName
  | variableReference name =>
      cases isName
      rw [resolve, fails, error_bind]
  | step selected =>
      rcases selected with ⟨axis, test⟩
      cases test with
      | anyNode | kind kind | wildcard => cases isName
      | name name =>
          cases isName
          rw [resolve, fails, error_bind]

theorem resolve_of_bound {expression : Expression}
    (bound : ∀ qualifier, ¬expression.Unbound config qualifier) :
    expression.resolve config = .ok (expression.filledIn config) := by
  have resolves (name : QName) (isName : expression.name? = some name) :
      config.resolve name = .ok (config.filledIn name) := by
    apply Config.resolve_of_bound
    intro qualifier unbound
    exact bound qualifier ⟨name, isName, unbound⟩
  cases expression with
  | contextNode | literal value => rfl
  | variableReference name =>
      rw [resolve, resolves name rfl, ok_bind]
      rfl
  | step selected =>
      rcases selected with ⟨axis, test⟩
      cases test with
      | anyNode | kind kind | wildcard => rfl
      | name name =>
          rw [resolve, resolves name rfl, ok_bind]
          rfl

theorem mapM_resolve_of_bound {arguments : List Expression}
    (bound : ∀ argument ∈ arguments, ∀ qualifier, ¬argument.Unbound config qualifier) :
    arguments.mapM (resolve config) = .ok (arguments.map (filledIn config)) := by
  induction arguments with
  | nil => rfl
  | cons argument others ih =>
      rw [List.forall_mem_cons] at bound
      rw [List.mapM_cons, resolve_of_bound bound.1, ok_bind, ih bound.2]
      rfl

theorem mapM_resolve_of_unbound {before after : List Expression} {argument : Expression}
    {qualifier : String}
    (bound : ∀ earlier ∈ before, ∀ qualifier, ¬earlier.Unbound config qualifier)
    (unbound : argument.Unbound config qualifier) :
    (before ++ argument :: after).mapM (resolve config) =
      .error (.unboundQualifier qualifier) := by
  rw [List.mapM_append, mapM_resolve_of_bound bound, ok_bind, List.mapM_cons,
    resolve_of_unbound unbound]
  rfl

theorem bound_or_exists_first_unbound (config : Config) (arguments : List Expression) :
    (∀ argument ∈ arguments, ∀ qualifier, ¬argument.Unbound config qualifier) ∨
      ∃ before argument after qualifier, arguments = before ++ argument :: after ∧
        (∀ earlier ∈ before, ∀ qualifier, ¬earlier.Unbound config qualifier) ∧
        argument.Unbound config qualifier := by
  induction arguments with
  | nil => exact .inl (by simp)
  | cons first others ih =>
      by_cases firstUnbound : ∃ qualifier, first.Unbound config qualifier
      · rcases firstUnbound with ⟨qualifier, unbound⟩
        exact .inr ⟨[], first, others, qualifier, rfl, by simp, unbound⟩
      · rw [not_exists] at firstUnbound
        rcases ih with bound | ⟨before, argument, after, qualifier, rfl, bound, unbound⟩
        · exact .inl (List.forall_mem_cons.mpr ⟨firstUnbound, bound⟩)
        · exact .inr ⟨first :: before, argument, after, qualifier, rfl,
            List.forall_mem_cons.mpr ⟨firstUnbound, bound⟩, unbound⟩

end Expression

namespace FunctionCall

variable {config : Config} {call : FunctionCall} {function : NameFunction}

/-- The name of the call, with its namespace, is a name of the function. -/
structure Calls (call : FunctionCall) (config : Config) (function : NameFunction) : Prop where
  bound : ∀ qualifier, ¬call.name.Unbound config qualifier
  isKnown : (config.filledIn call.name).uri = none ∨
    (config.filledIn call.name).uri = config.defaultFunctionNamespace
  isName : call.name.localPart = function.render

/-- What a call stands for, or the first of the things that are wrong with it. -/
inductive ResolvesTo (config : Config) (call : FunctionCall) :
    Except CompileError NameCall → Prop where
  | functionUnbound {qualifier : String} (unbound : call.name.Unbound config qualifier) :
      ResolvesTo config call (.error (.unboundQualifier qualifier))
  | unknownFunction (bound : ∀ qualifier, ¬call.name.Unbound config qualifier)
      (unknown : ∀ function, ¬call.Calls config function) :
      ResolvesTo config call (.error (.unknownFunction call.name call.arguments.length))
  | argumentUnbound {function : NameFunction} (calls : call.Calls config function)
      {before after : List Expression} {argument : Expression}
      (isArguments : call.arguments = before ++ argument :: after)
      (bound : ∀ earlier ∈ before, ∀ qualifier, ¬earlier.Unbound config qualifier)
      {qualifier : String} (unbound : argument.Unbound config qualifier) :
      ResolvesTo config call (.error (.unboundQualifier qualifier))
  | tooManyArguments {function : NameFunction} (calls : call.Calls config function)
      (bound : ∀ argument ∈ call.arguments, ∀ qualifier, ¬argument.Unbound config qualifier)
      (many : 2 ≤ call.arguments.length) :
      ResolvesTo config call (.error (.tooManyArguments function.render call.arguments.length))
  | onContextNode {function : NameFunction} (calls : call.Calls config function)
      (isArguments : call.arguments = []) :
      ResolvesTo config call (.ok (.onContextNode function (config.filledIn call.name)))
  | onOperand {function : NameFunction} (calls : call.Calls config function)
      {argument : Expression} (isArguments : call.arguments = [argument])
      (bound : ∀ qualifier, ¬argument.Unbound config qualifier) :
      ResolvesTo config call
        (.ok (.onOperand function (config.filledIn call.name) (argument.filledIn config)))

theorem ofQName?_eq_some_iff (bound : ∀ qualifier, ¬call.name.Unbound config qualifier) :
    NameFunction.ofQName? config (config.filledIn call.name) = some function ↔
      call.Calls config function := by
  rw [NameFunction.ofQName?]
  split_ifs with isKnown
  · rw [NameFunction.ofName?_eq_some_iff]
    constructor
    · intro isName
      exact ⟨bound, isKnown, isName⟩
    · exact Calls.isName
  · constructor
    · intro found
      cases found
    · intro calls
      exact absurd calls.isKnown isKnown

theorem resolve_of_calls (calls : call.Calls config function) :
    call.resolve config = call.arguments.mapM (Expression.resolve config) >>= fun operands =>
      match operands with
      | [] => .ok (.onContextNode function (config.filledIn call.name))
      | [operand] => .ok (.onOperand function (config.filledIn call.name) operand)
      | operands => .error (.tooManyArguments function.render operands.length) := by
  rw [resolve, Config.resolve_of_bound calls.bound, ok_bind,
    (ofQName?_eq_some_iff calls.bound).mpr calls]
  rfl

theorem resolve_of_resolvesTo {result : Except CompileError NameCall}
    (resolves : call.ResolvesTo config result) : call.resolve config = result := by
  cases resolves with
  | functionUnbound unbound => rw [resolve, Config.resolve_of_unbound unbound, error_bind]
  | unknownFunction bound unknown =>
      have unheard : NameFunction.ofQName? config (config.filledIn call.name) = none := by
        apply Option.eq_none_iff_forall_ne_some.mpr
        intro function found
        apply unknown function
        exact (ofQName?_eq_some_iff bound).mp found
      rw [resolve, Config.resolve_of_bound bound, ok_bind, unheard]
      rfl
  | argumentUnbound calls isArguments bound unbound =>
      rw [resolve_of_calls calls, isArguments, Expression.mapM_resolve_of_unbound bound unbound,
        error_bind]
  | tooManyArguments calls bound many =>
      rw [resolve_of_calls calls, Expression.mapM_resolve_of_bound bound, ok_bind]
      rcases isArguments : call.arguments with _ | ⟨first, _ | ⟨second, others⟩⟩
      · simp [isArguments] at many
      · simp [isArguments] at many
      · simp
  | onContextNode calls isArguments =>
      rw [resolve_of_calls calls, isArguments]
      rfl
  | onOperand calls isArguments bound =>
      rw [resolve_of_calls calls, isArguments, List.mapM_cons, Expression.resolve_of_bound bound]
      rfl

theorem exists_resolvesTo (config : Config) (call : FunctionCall) :
    ∃ result, call.ResolvesTo config result := by
  by_cases known : ∃ function, call.Calls config function
  · rcases known with ⟨function, calls⟩
    rcases Expression.bound_or_exists_first_unbound config call.arguments with
      bound | ⟨before, argument, after, qualifier, isArguments, bound, unbound⟩
    · rcases isArguments : call.arguments with _ | ⟨first, _ | ⟨second, others⟩⟩
      · exact ⟨_, .onContextNode calls isArguments⟩
      · exact ⟨_, .onOperand calls isArguments (bound first (by simp [isArguments]))⟩
      · exact ⟨_, .tooManyArguments calls bound (by simp [isArguments])⟩
    · exact ⟨_, .argumentUnbound calls isArguments bound unbound⟩
  · by_cases unbound : ∃ qualifier, call.name.Unbound config qualifier
    · rcases unbound with ⟨qualifier, unbound⟩
      exact ⟨_, .functionUnbound unbound⟩
    · exact ⟨_, .unknownFunction (not_exists.mp unbound) (not_exists.mp known)⟩

/--
In a configuration that is built from any settings, `xml` stands for its namespace and any other
qualifier for what it is bound to last. A call has exactly one outcome there, decided in this order:
the qualifier of its function, the function, the qualifiers of its arguments from the left, and how
many arguments there are.
-/
theorem resolve_eq_iff_resolvesTo (settings : List ConfigSetting) :
    (∀ qualifier, (Config.ofSettings settings).resolveQualifier? qualifier =
      if qualifier = "xml" then some xmlNamespace
      else (settings.filterMap (·.uri? qualifier)).getLast?) ∧
    ∀ (call : FunctionCall) (result : Except CompileError NameCall),
      call.resolve (Config.ofSettings settings) = result ↔
        call.ResolvesTo (Config.ofSettings settings) result := by
  refine ⟨Config.resolveQualifier?_ofSettings settings, ?_⟩
  intro call result
  constructor
  · intro isResult
    rcases exists_resolvesTo (Config.ofSettings settings) call with ⟨outcome, resolves⟩
    rw [resolve_of_resolvesTo resolves] at isResult
    exact isResult ▸ resolves
  · exact resolve_of_resolvesTo

end FunctionCall

end NodeNames
