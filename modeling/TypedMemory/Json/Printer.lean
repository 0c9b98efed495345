import TypedMemory.Numeral

/-!
# Writing JSON

A `Document` is what a JSON text says.  `Document.compact` writes it on one line, `Document.pretty`
with each item on a line of its own.
-/

namespace TypedMemory

/-- A JSON document.  The members of its objects have an order. -/
inductive Document
  | integer (n : Int)
  | text (content : String)
  | array (items : List Document)
  | object (members : List (String × Document))

namespace Document

def escape (c : Char) : List Char :=
  if c = '"' ∨ c = '\\' then ['\\', c]
  else if c = '\x08' then ['\\', 'b']
  else if c = '\x0c' then ['\\', 'f']
  else if c = '\n' then ['\\', 'n']
  else if c = '\r' then ['\\', 'r']
  else if c = '\t' then ['\\', 't']
  else if c.toNat < 0x20 then
    "\\u".toList ++ (Numeral.padLeft '0' 4 (Numeral.hexLower c.toNat)).toList
  else [c]

def quote (text : String) : String :=
  String.ofList (['"'] ++ text.toList.flatMap escape ++ ['"'])

mutual

/-- The document on one line, without blanks. -/
def compact : Document → String
  | integer n => Numeral.signedDecimal n
  | text content => quote content
  | array items => "[" ++ compactItems items ++ "]"
  | object members => "\x7b" ++ compactMembers members ++ "\x7d"

def compactItems : List Document → String
  | [] => ""
  | [item] => item.compact
  | item :: rest => item.compact ++ "," ++ compactItems rest

def compactMembers : List (String × Document) → String
  | [] => ""
  | [(name, item)] => quote name ++ ":" ++ item.compact
  | (name, item) :: rest => quote name ++ ":" ++ item.compact ++ "," ++ compactMembers rest

end

/-- The beginning of a line at a level. -/
def newLine (level : Nat) : String :=
  "\n" ++ String.join (List.replicate level "  ")

mutual

/-- The document over several lines, of which the first is at a level. -/
def prettyAt (level : Nat) : Document → String
  | integer n => Numeral.signedDecimal n
  | text content => quote content
  | array [] => "[]"
  | object [] => "\x7b\x7d"
  | array items => "[" ++ prettyItems (level + 1) items ++ newLine level ++ "]"
  | object members => "\x7b" ++ prettyMembers (level + 1) members ++ newLine level ++ "\x7d"

def prettyItems (level : Nat) : List Document → String
  | [] => ""
  | [item] => newLine level ++ item.prettyAt level
  | item :: rest => newLine level ++ item.prettyAt level ++ "," ++ prettyItems level rest

def prettyMembers (level : Nat) : List (String × Document) → String
  | [] => ""
  | [(name, item)] => newLine level ++ quote name ++ ": " ++ item.prettyAt level
  | (name, item) :: rest =>
    newLine level ++ quote name ++ ": " ++ item.prettyAt level ++ "," ++
      prettyMembers level rest

end

def pretty (d : Document) : String :=
  d.prettyAt 0

end Document

end TypedMemory
