/-!
# JSON output

Objects with flat members, written over several lines with an indentation of
two spaces a level.
-/

namespace NodeNames.Json

/-- The written form of a character inside a JSON string. -/
def escapeCharacter (character : Char) : String :=
  match character with
  | '"' => "\\\""
  | '\\' => "\\\\"
  | '\x08' => "\\b"
  | '\t' => "\\t"
  | '\n' => "\\n"
  | '\x0c' => "\\f"
  | '\r' => "\\r"
  | other =>
      if other.toNat < 16 then "\\u000" ++ String.ofList (Nat.toDigits 16 other.toNat)
      else if other.toNat < 32 then "\\u00" ++ String.ofList (Nat.toDigits 16 other.toNat)
      else String.singleton other

def quote (text : String) : String :=
  "\"" ++ String.join (text.toList.map escapeCharacter) ++ "\""

def indentation (level : Nat) : String :=
  String.ofList (List.replicate (2 * level) ' ')

/-- Items between brackets, one a line, indented one level more than the brackets. -/
def bracket (opening closing : String) (level : Nat) (items : List String) : String :=
  if items.isEmpty then opening ++ closing
  else
    opening ++ "\n" ++
      String.intercalate ",\n" (items.map fun item => indentation (level + 1) ++ item) ++
      "\n" ++ indentation level ++ closing

def array (level : Nat) (items : List String) : String :=
  bracket "[" "]" level items

inductive Value where
  | number (value : Nat)
  | text (value : String)
  | texts (values : List String)

def Value.render (level : Nat) : Value → String
  | number value => toString value
  | text value => quote value
  | texts values => array level (values.map quote)

/-- An object at a level; its members keep their order. -/
def object (level : Nat) (members : List (String × Value)) : String :=
  bracket "\x7b" "\x7d" level
    (members.map fun member => quote member.1 ++ ": " ++ member.2.render (level + 1))

end NodeNames.Json
