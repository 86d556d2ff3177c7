import NodeNames.Text.Cut
/-!
# References

How the entries of a constant pool are known, and what an entry that refers to a
method says about it.
-/

namespace NodeNames

/-- The index of an entry in a constant pool; the first entry has index one. -/
abbrev PoolIndex := Nat

def PoolIndex.render (index : PoolIndex) : String :=
  "#" ++ toString index

/-- Whether a method is declared by a class or by an interface. -/
inductive MethodKind where
  | ofClass
  | ofInterface
deriving DecidableEq

/-- What kind of reference is asked for, in words. -/
def MethodKind.render : MethodKind → String
  | ofClass => "class method"
  | ofInterface => "interface method"

/-- The class name without the packages that contain it. -/
def simpleClassName (className : String) : String :=
  Text.afterLast '/' className

/-- A method, known by the class that declares it, its name and its descriptor. -/
structure MethodReference where
  owner : String
  name : String
  descriptor : String
  kind : MethodKind
deriving DecidableEq

/-- The short form of a reference: the simple class name, the name and the descriptor. -/
def MethodReference.render (reference : MethodReference) : String :=
  simpleClassName reference.owner ++ "." ++ reference.name ++ reference.descriptor

end NodeNames
