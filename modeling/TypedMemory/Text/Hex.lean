import TypedMemory.Bytes
import TypedMemory.Numeral
import TypedMemory.Text.Blank
import TypedMemory.Text.Split

/-!
# Addresses in hexadecimal

Addresses and offsets as they are shown and typed in: with a mark of the base in front, which may be
left out when an address is read.
-/

namespace TypedMemory.Hex

def address (a : Address) : String :=
  "0x" ++ Numeral.hexUpper a.toNat

/-- The offset of a member in hexadecimal, with its sign. -/
def offset (distance : Int) : String :=
  (if distance < 0 then "-0x" else "+0x") ++ Numeral.hexUpper distance.natAbs

/-- An address that could not be read, without the blanks around it. -/
structure Fault where
  text : String
  fault : Numeral.Fault
  deriving DecidableEq, Repr

def Fault.message (f : Fault) : String :=
  s!"Invalid hex address '{f.text}': " ++ f.fault.message

/-- `text` without one mark of the base. -/
def dropMark (text : List Char) : List Char :=
  match Text.dropPrefix? ['0', 'x'] text with
  | some digits => digits
  | none => (Text.dropPrefix? ['0', 'X'] text).getD text

/-- Reads an address, with or without the mark of the base. -/
def toAddress (text : String) : Except Fault Address :=
  let trimmed := Text.trim text.toList
  match Numeral.parse 16 wordLimit (dropMark trimmed) with
  | .ok n => .ok (UInt64.ofNat n)
  | .error fault => .error ⟨String.ofList trimmed, fault⟩

end TypedMemory.Hex
