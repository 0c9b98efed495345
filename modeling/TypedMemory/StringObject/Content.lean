import TypedMemory.Space
import TypedMemory.Text.Utf8

/-!
# The characters of string objects

A string object keeps its characters as UTF-8 with a zero byte behind them.
-/

namespace TypedMemory.StringObject

/-- The text of `bytes`, which have to be well-formed. -/
def decodeContent (address : Address) (bytes : Bytes) : Except Error String :=
  match Utf8.decode? bytes with
  | some text => .ok text
  | none => .error (.decode address (Numeral.decimal bytes.length ++ " bytes are not valid UTF-8"))

/-- The text of `bytes`; none for malformed ones. -/
def contentOrEmpty (address : Address) (bytes : Bytes) : String :=
  (decodeContent address bytes).toOption.getD ""

/-- The bytes of a text and the zero byte behind them. -/
def withTerminator (text : String) : Bytes :=
  Utf8.encode text ++ [0]

end TypedMemory.StringObject
