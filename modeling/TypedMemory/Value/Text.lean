import TypedMemory.Binary.Decimal
import TypedMemory.Text.Hex
import TypedMemory.Text.Quoted
import TypedMemory.View.Access

/-!
# Values as text

How values are shown to a reader.  Scalars are written out and texts quoted.  Arrays and composites
are named with their addresses; of a pointer the address that it holds is shown, which is read from
memory at that moment.
-/

namespace TypedMemory

namespace Value

variable {σ : Type} (m : Space σ)

def pointerText (slot : PointerSlot) : Access σ String := do
  match ← attempt (slot.targetAddress m) with
  | .ok target => return if target = 0 then "NULL" else Hex.address target
  | .error _ => return "<unreadable pointer @ " ++ Hex.address slot.address ++ ">"

def display : Value → Access σ String
  | void => return "void"
  | bool flag => return toString flag
  | int n => return Numeral.signedDecimal n.value
  | single pattern => return FloatFormat.binary32.plainText pattern.toNat
  | double pattern => return FloatFormat.binary64.plainText pattern.toNat
  | text content => return Text.quoted content
  | array view =>
    return (Field.array view.element view.length).describe m.schema ++ " @ " ++
      Hex.address view.address
  | pointer slot => pointerText m slot
  | composite view => return view.layout.name ++ " @ " ++ Hex.address view.address

end Value

end TypedMemory
