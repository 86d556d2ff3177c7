/-!
# Axes and kinds of nodes

The axes along which a step selects nodes, and the kinds of these nodes, with
the numbers by which the document model knows them.
-/

namespace NodeNames

inductive NodeKind where
  | element
  | attributeNode
  | text
  | processingInstruction
  | comment
  | document
  | namespaceNode
deriving DecidableEq

namespace NodeKind

def label : NodeKind → String
  | element => "Element"
  | attributeNode => "Attribute"
  | text => "Text"
  | processingInstruction => "ProcessingInstruction"
  | comment => "Comment"
  | document => "Document"
  | namespaceNode => "Namespace"

/-- The node type that the document model gives to unnamed nodes of a kind. -/
def typeId : NodeKind → Nat
  | element => 1
  | attributeNode => 2
  | text => 3
  | processingInstruction => 7
  | comment => 8
  | document => 9
  | namespaceNode => 13

end NodeKind

/-- The thirteen axes. -/
inductive Axis where
  | ancestor
  | ancestorOrSelf
  | attributeAxis
  | child
  | descendant
  | descendantOrSelf
  | following
  | followingSibling
  | namespaceAxis
  | parent
  | preceding
  | precedingSibling
  | self
deriving DecidableEq

namespace Axis

def all : List Axis :=
  [ancestor, ancestorOrSelf, attributeAxis, child, descendant, descendantOrSelf, following,
    followingSibling, namespaceAxis, parent, preceding, precedingSibling, self]

def keyword : Axis → String
  | ancestor => "ancestor"
  | ancestorOrSelf => "ancestor-or-self"
  | attributeAxis => "attribute"
  | child => "child"
  | descendant => "descendant"
  | descendantOrSelf => "descendant-or-self"
  | following => "following"
  | followingSibling => "following-sibling"
  | namespaceAxis => "namespace"
  | parent => "parent"
  | preceding => "preceding"
  | precedingSibling => "preceding-sibling"
  | self => "self"

def ofKeyword? (word : String) : Option Axis :=
  all.find? (·.keyword = word)

def label : Axis → String
  | ancestor => "Ancestor"
  | ancestorOrSelf => "AncestorOrSelf"
  | attributeAxis => "Attribute"
  | child => "Child"
  | descendant => "Descendant"
  | descendantOrSelf => "DescendantOrSelf"
  | following => "Following"
  | followingSibling => "FollowingSibling"
  | namespaceAxis => "Namespace"
  | parent => "Parent"
  | preceding => "Preceding"
  | precedingSibling => "PrecedingSibling"
  | self => "SelfAxis"

/-- The number by which the document model knows an axis; eight is not in use. -/
def id : Axis → Nat
  | ancestor => 0
  | ancestorOrSelf => 1
  | attributeAxis => 2
  | child => 3
  | descendant => 4
  | descendantOrSelf => 5
  | following => 6
  | followingSibling => 7
  | namespaceAxis => 9
  | parent => 10
  | preceding => 11
  | precedingSibling => 12
  | self => 13

/-- The kind of node that a wildcard selects along an axis. -/
def principalKind : Axis → NodeKind
  | attributeAxis => .attributeNode
  | namespaceAxis => .namespaceNode
  | _ => .element

end Axis

end NodeNames
