import NodeNames.CompileError
import Std.Data.TreeMap.Basic
/-!
# Constants

The entries of a constant pool. An entry refers to its parts by their indices.
Entries are ordered by kind and then by content, so that a pool can be searched.
-/

namespace NodeNames

/-- An entry of a constant pool. -/
inductive Constant where
  | utf8 (text : String)
  | integer (value : Int)
  | string (text : PoolIndex)
  | classEntry (name : PoolIndex)
  | nameAndType (name descriptor : PoolIndex)
  | methodReference (kind : MethodKind) (owner nameAndType : PoolIndex)
deriving DecidableEq

namespace Constant

def rank : Constant → Nat
  | utf8 _ => 0
  | integer _ => 1
  | string _ => 2
  | classEntry _ => 3
  | nameAndType _ _ => 4
  | methodReference .ofClass _ _ => 5
  | methodReference .ofInterface _ _ => 6

def text : Constant → String
  | utf8 text => text
  | _ => ""

def number : Constant → Int
  | integer value => value
  | _ => 0

/-- The parts of an entry, of which there are at most two. -/
def parts : Constant → Nat × Nat
  | utf8 _ | integer _ => (0, 0)
  | string part | classEntry part => (part, 0)
  | nameAndType first second => (first, second)
  | methodReference _ first second => (first, second)

/-- Compares entries by kind, text, number and parts. -/
abbrev order : Constant → Constant → Ordering :=
  compareLex (compareOn rank) (compareLex (compareOn text) (compareLex (compareOn number)
    (compareLex (compareOn fun entry => entry.parts.1) (compareOn fun entry => entry.parts.2))))

instance : Ord Constant := ⟨order⟩

instance : Std.TransOrd Constant :=
  inferInstanceAs (Std.TransCmp order)

/-- Entries that compare equal are equal. -/
theorem eq_of_order_eq {first second : Constant} (same : order first second = .eq) :
    first = second := by
  simp only [compareLex_eq_eq, compareOn, Std.compare_eq_iff_eq] at same
  rcases same with ⟨sameRank, sameText, sameNumber, sameFirst, sameSecond⟩
  rcases first with _ | _ | _ | _ | _ | ⟨_ | _, _, _⟩ <;>
    rcases second with _ | _ | _ | _ | _ | ⟨_ | _, _, _⟩ <;>
    simp_all [rank, text, number, parts]

instance : Std.LawfulEqOrd Constant where
  eq_of_compare := eq_of_order_eq

end Constant

end NodeNames
