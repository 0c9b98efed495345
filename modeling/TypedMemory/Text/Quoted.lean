import TypedMemory.Numeral
import TypedMemory.Text.Extending
import TypedMemory.Text.Hidden

/-!
# Quoted text

A text between double quotes, in which quotes, backslashes and the characters that would not show
are escaped.
-/

namespace TypedMemory.Text

def codeEscape (c : Char) : List Char :=
  "\\u\x7b".toList ++ Numeral.digits 16 c.toNat ++ ['}']

/-- A character as it stands between the quotes. -/
def escape (c : Char) : List Char :=
  if c = '\x00' then ['\\', '0']
  else if c = '\t' then ['\\', 't']
  else if c = '\r' then ['\\', 'r']
  else if c = '\n' then ['\\', 'n']
  else if c = '\\' ∨ c = '"' then ['\\', c]
  else if isExtending c || isHidden c then codeEscape c
  else [c]

def quoted (text : String) : String :=
  String.ofList (['"'] ++ text.toList.flatMap escape ++ ['"'])

end TypedMemory.Text
