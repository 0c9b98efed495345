import TypedMemory.Bytes
import TypedMemory.Numeral

/-!
# Hexdumps

Bytes in lines of sixteen.  A line starts with the offset of its first byte, shows the bytes in two
groups of eight and, if asked to, the same bytes as characters.
-/

namespace TypedMemory.Hexdump

def lineLength : Nat := 16

/-- The number of bytes before the gap in the middle of a line. -/
def groupLength : Nat := 8

def cell (b : UInt8) : String :=
  Numeral.padLeft '0' 2 (Numeral.hexUpper b.toNat)

/-- The byte at a column and the blank behind it, blanks alone in a column without a byte. -/
def column (row : Bytes) (index : Nat) : String :=
  let gap := if index = groupLength then " " else ""
  match row[index]? with
  | some b => gap ++ cell b ++ " "
  | none => gap ++ "   "

/-- A byte as a character, if it is one of the visible characters of ASCII or a space. -/
def glyph (b : UInt8) : Char :=
  if 0x20 ≤ b.toNat ∧ b.toNat < 0x7f then Char.ofNat b.toNat else '.'

def lineText (offset : Nat) (row : Bytes) (ascii : Bool) : String :=
  let columns := String.join ((List.range lineLength).map (column row))
  let characters :=
    if ascii then " |" ++ Numeral.padRight ' ' lineLength (String.ofList (row.map glyph)) ++ "|"
    else ""
  "0x" ++ Numeral.padLeft '0' 3 (Numeral.hexUpper offset) ++ ": " ++ columns ++ characters

/-- The lines for bytes from an offset on, at most `fuel` of them. -/
def linesFrom (ascii : Bool) : (fuel : Nat) → (offset : Nat) → Bytes → List String
  | 0, _, _ => []
  | _ + 1, _, [] => []
  | fuel + 1, offset, bytes =>
    lineText offset (bytes.take lineLength) ascii ::
      linesFrom ascii fuel (offset + lineLength) (bytes.drop lineLength)

/-- The lines for `bytes`, with offsets from the first of them. -/
def lines (bytes : Bytes) (ascii : Bool) : List String :=
  linesFrom ascii bytes.length 0 bytes

end TypedMemory.Hexdump
