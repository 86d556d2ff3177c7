import NodeNames.Text.Cut
/-!
# Qualified names

A qualified name is written with an optional qualifier and identifies, once
the qualifier has been resolved, a namespace and a local part. Two names are
the same name when they expand alike, whatever their qualifiers.
-/

namespace NodeNames

/-- The identity of a name: the namespace it belongs to, if any, and its local part. -/
structure ExpandedName where
  uri : Option String
  localPart : String
deriving DecidableEq

/-- A name as written, together with the namespace that its qualifier stands for. -/
structure QName where
  qualifier : Option String
  localPart : String
  uri : Option String
deriving DecidableEq

namespace QName

def ofLocalPart (localPart : String) : QName :=
  { qualifier := none, localPart, uri := none }

/-- Reads a written name: the text before the first colon, if there is one, is the qualifier. -/
def ofText (text : String) : QName :=
  match Text.splitAtFirst? ':' text with
  | some (qualifier, localPart) => { qualifier := some qualifier, localPart, uri := none }
  | none => ofLocalPart text

def render (name : QName) : String :=
  match name.qualifier with
  | some qualifier => qualifier ++ ":" ++ name.localPart
  | none => name.localPart

/-- What the name identifies; the qualifier plays no part in it. -/
def expandedName (name : QName) : ExpandedName :=
  { uri := name.uri, localPart := name.localPart }

/--
The key of the name in the table of node types: the namespace and the local part around a colon,
or the local part alone when the namespace is absent or empty.
-/
def typeKey (name : QName) : String :=
  match name.uri with
  | some uri => if uri.isEmpty then name.localPart else uri ++ ":" ++ name.localPart
  | none => name.localPart

end QName

end NodeNames
