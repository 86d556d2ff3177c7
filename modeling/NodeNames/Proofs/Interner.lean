import NodeNames.Interner
import Std.Data.TreeMap.Lemmas
/-!
# Interning

The index of an interner is the inverse of its row of items, and interning
keeps it so. An interner only ever extends: known items keep their positions,
so that interning an item again finds it where it was put first.
-/

namespace NodeNames

namespace Interner

variable {Item : Type} [Ord Item]

/-- The index finds an item exactly at the position where the row has it. -/
def Consistent (interner : Interner Item) : Prop :=
  ∀ item position,
    interner.position? item = some position ↔ interner.items[position]? = some item

theorem Consistent.position?_eq_some_iff {interner : Interner Item}
    (consistent : interner.Consistent) {item : Item} {position : Nat} :
    interner.position? item = some position ↔
      interner.items.toList[position]? = some item := by
  rw [consistent, Array.getElem?_toList]

/-- Items at known positions are the same when the positions are. -/
theorem Consistent.position_inj {interner : Interner Item} (consistent : interner.Consistent)
    {first second : Item} {firstPosition secondPosition : Nat}
    (isFirst : interner.position? first = some firstPosition)
    (isSecond : interner.position? second = some secondPosition) :
    firstPosition = secondPosition ↔ first = second := by
  constructor
  · rintro rfl
    have atFirst := (consistent first firstPosition).mp isFirst
    rw [(consistent second firstPosition).mp isSecond] at atFirst
    exact (Option.some.inj atFirst).symm
  · rintro rfl
    rw [isFirst] at isSecond
    exact Option.some.inj isSecond

/-- A later interner, which has all items of an earlier one at their positions. -/
structure Extends (later earlier : Interner Item) : Prop where
  items : earlier.items.toList <+: later.items.toList
  positions : ∀ item position,
    earlier.position? item = some position → later.position? item = some position

theorem Extends.refl (interner : Interner Item) : interner.Extends interner :=
  ⟨List.prefix_rfl, fun _ _ found => found⟩

theorem Extends.trans {first second third : Interner Item} (later : third.Extends second)
    (earlier : second.Extends first) : third.Extends first :=
  ⟨earlier.items.trans later.items,
    fun item position found =>
      later.positions item position (earlier.positions item position found)⟩

theorem Extends.size_le {later earlier : Interner Item} (extended : later.Extends earlier) :
    earlier.size ≤ later.size :=
  extended.items.length_le

theorem intern_of_position? {interner : Interner Item} {item : Item} {position : Nat}
    (found : interner.position? item = some position) :
    interner.intern item = (position, interner) := by
  simp [intern, found]

theorem intern_of_unknown {interner : Interner Item} {item : Item}
    (unknown : interner.position? item = none) :
    interner.intern item = (interner.size, interner.push item) := by
  simp [intern, unknown]

theorem size_intern_le (interner : Interner Item) (item : Item) :
    (interner.intern item).2.size ≤ interner.size + 1 := by
  cases found : interner.position? item with
  | none =>
      rw [intern_of_unknown found]
      simp [push, size]
  | some position =>
      rw [intern_of_position? found]
      exact Nat.le_succ _

variable [DecidableEq Item] [Std.TransOrd Item] [Std.LawfulEqOrd Item]

omit [DecidableEq Item] [Std.LawfulEqOrd Item] in
theorem consistent_empty : (empty : Interner Item).Consistent := by
  intro item position
  simp [position?, empty]

theorem position?_push (interner : Interner Item) (item other : Item) :
    (interner.push item).position? other =
      if item = other then some interner.size else interner.position? other := by
  simp only [position?, push, Std.TreeMap.getElem?_insert, Std.compare_eq_iff_eq]

theorem extends_push {interner : Interner Item} {item : Item}
    (unknown : interner.position? item = none) : (interner.push item).Extends interner := by
  constructor
  · simp [push]
  · intro other position found
    have different : item ≠ other := by
      intro same
      subst same
      simp [unknown] at found
    rw [position?_push, if_neg different]
    exact found

/-- Appending a new item keeps the index and the row inverse to each other. -/
theorem consistent_push {interner : Interner Item} {item : Item} (consistent : interner.Consistent)
    (unknown : interner.position? item = none) : (interner.push item).Consistent := by
  intro other position
  rw [position?_push]
  simp only [push, Array.getElem?_push]
  by_cases same : item = other
  · subst same
    have absent : interner.items[position]? ≠ some item := by
      intro present
      simp [(consistent item position).mpr present] at unknown
    by_cases atEnd : position = interner.items.size
    · simp [atEnd, size]
    · simp [atEnd, absent, size, Ne.symm atEnd]
  · rw [if_neg same]
    by_cases atEnd : position = interner.items.size
    · subst atEnd
      have outside : interner.items[interner.items.size]? ≠ some other := by simp
      simpa [same] using mt (consistent other _).mp outside
    · simpa [atEnd] using consistent other position

theorem extends_intern (interner : Interner Item) (item : Item) :
    (interner.intern item).2.Extends interner := by
  cases found : interner.position? item with
  | none =>
      rw [intern_of_unknown found]
      exact extends_push found
  | some position =>
      rw [intern_of_position? found]
      exact Extends.refl interner

/-- Interning keeps the index and the row inverse to each other. -/
theorem consistent_intern {interner : Interner Item} (consistent : interner.Consistent)
    (item : Item) : (interner.intern item).2.Consistent := by
  cases found : interner.position? item with
  | none =>
      rw [intern_of_unknown found]
      exact consistent_push consistent found
  | some position =>
      rw [intern_of_position? found]
      exact consistent

/-- After an item has been interned its position is known. -/
theorem position?_intern (interner : Interner Item) (item : Item) :
    (interner.intern item).2.position? item = some (interner.intern item).1 := by
  cases found : interner.position? item with
  | none =>
      rw [intern_of_unknown found]
      simp [position?_push]
  | some position =>
      rw [intern_of_position? found]
      exact found

end Interner

end NodeNames
