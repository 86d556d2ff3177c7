import Mathlib.Order.Defs.Unbundled
/-!
# Sequencing

What one action after another does, by what the first one does. Pool actions,
emission and operations on a unit are all actions of this kind. A relation that
every single action keeps between the states before and after it is kept by
whole sequences if it is transitive.
-/

namespace NodeNames

variable {Error State First Second : Type} {action : EStateM Error State First}
  {next : First → EStateM Error State Second} {state later : State}

/-- The state that an action leaves behind, with success or without. -/
def leftBehind {Error State Answer : Type} : EStateM.Result Error State Answer → State
  | .ok _ state => state
  | .error _ state => state

theorem bind_of_eq_ok {result : First} (succeeds : action state = .ok result later) :
    (action >>= next) state = next result later := by
  change EStateM.bind action next state = _
  rw [EStateM.bind, succeeds]

theorem bind_of_eq_error {error : Error} (fails : action state = .error error later) :
    (action >>= next) state = .error error later := by
  change EStateM.bind action next state = _
  rw [EStateM.bind, fails]

/-- A sequence of actions succeeds only if both parts do. -/
theorem exists_of_bind_eq_ok {result : Second} (succeeds : (action >>= next) state = .ok result later) :
    ∃ answer between, action state = .ok answer between ∧ next answer between = .ok result later := by
  cases first : action state with
  | error error between =>
      rw [bind_of_eq_error first] at succeeds
      cases succeeds
  | ok answer between =>
      rw [bind_of_eq_ok first] at succeeds
      exact ⟨answer, between, rfl, succeeds⟩

theorem bind_get (next : State → EStateM Error State Second) (state : State) :
    (get >>= next) state = next state state :=
  rfl

theorem ok_bind (value : First) (next : First → Except Error Second) :
    (Except.ok value >>= next) = next value :=
  rfl

theorem error_bind (error : Error) (next : First → Except Error Second) :
    (Except.error error >>= next) = .error error :=
  rfl

/-- A sequence fails for its first part, or for what follows a success of it. -/
theorem bind_eq_error_iff {computation : Except Error First} {next : First → Except Error Second}
    {error : Error} :
    (computation >>= next) = .error error ↔
      computation = .error error ∨ ∃ value, computation = .ok value ∧ next value = .error error := by
  cases computation with
  | error cause => simp [error_bind]
  | ok value => simp [ok_bind]

theorem bind_eq_ok_iff {computation : Except Error First} {next : First → Except Error Second}
    {result : Second} :
    (computation >>= next) = .ok result ↔
      ∃ value, computation = .ok value ∧ next value = .ok result := by
  cases computation with
  | error cause => simp [error_bind]
  | ok value => simp [ok_bind]

/-- An action that leads only to later states, with success or without. -/
def LeadsOn {Error State Answer : Type} (After : State → State → Prop)
    (action : EStateM Error State Answer) : Prop :=
  ∀ state, After (leftBehind (action state)) state

namespace LeadsOn

variable {Error State First Second : Type} {After : State → State → Prop}

section Reflexive

variable [Std.Refl After]

theorem pure (answer : First) :
    LeadsOn After (Pure.pure answer : EStateM Error State First) :=
  fun state => Std.Refl.refl state

theorem throw (error : Error) :
    LeadsOn After (MonadExcept.throw error : EStateM Error State First) :=
  fun state => Std.Refl.refl state

theorem get : LeadsOn After (MonadState.get : EStateM Error State State) :=
  fun state => Std.Refl.refl state

end Reflexive

section Transitive

variable [IsTrans State After]

theorem bind {action : EStateM Error State First} {next : First → EStateM Error State Second}
    (leads : LeadsOn After action) (leadsNext : ∀ answer, LeadsOn After (next answer)) :
    LeadsOn After (action >>= next) := by
  intro state
  have first := leads state
  cases result : action state with
  | error error later =>
      rw [bind_of_eq_error result]
      rw [result] at first
      exact first
  | ok answer later =>
      rw [bind_of_eq_ok result]
      rw [result] at first
      exact IsTrans.trans _ _ _ (leadsNext answer later) first

variable [Std.Refl After]

theorem mapM {Item : Type} {action : Item → EStateM Error State First}
    (leads : ∀ item, LeadsOn After (action item)) (items : List Item) :
    LeadsOn After (items.mapM action) := by
  induction items with
  | nil => exact .pure []
  | cons item others ih =>
      rw [List.mapM_cons]
      exact .bind (leads item) fun _ => .bind ih fun _ => .pure _

theorem forM {Item : Type} {action : Item → EStateM Error State PUnit}
    (leads : ∀ item, LeadsOn After (action item)) (items : List Item) :
    LeadsOn After (items.forM action) := by
  induction items with
  | nil => exact .pure _
  | cons item others ih => exact .bind (leads item) fun _ => ih

end Transitive

end LeadsOn

end NodeNames
