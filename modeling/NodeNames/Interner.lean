import Std.Data.TreeMap.Basic
/-!
# Interners

An interner numbers items in the order in which they first arrive. It finds
the number of an item by an ordered index and the item of a number by position.
-/

namespace NodeNames

/-- Items in the order of their arrival, each once, with an index of their positions. -/
structure Interner (Item : Type) [Ord Item] where
  items : Array Item
  positions : Std.TreeMap Item Nat

namespace Interner

variable {Item : Type} [Ord Item]

def empty : Interner Item :=
  { items := #[], positions := Std.TreeMap.empty }

def size (interner : Interner Item) : Nat :=
  interner.items.size

def position? (interner : Interner Item) (item : Item) : Option Nat :=
  interner.positions[item]?

/-- Appends an item, which should not be there yet. -/
def push (interner : Interner Item) (item : Item) : Interner Item :=
  let position := interner.size
  { items := interner.items.push item
    positions := interner.positions.insert item position }

/-- The position of an item, which is appended if it is new. -/
def intern (interner : Interner Item) (item : Item) : Nat × Interner Item :=
  match interner.position? item with
  | some position => (position, interner)
  | none => (interner.size, interner.push item)

end Interner

end NodeNames
