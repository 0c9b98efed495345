import TypedMemory.Port
import TypedMemory.Text.Marked

/-!
# Terminated strings

Text in memory that ends with a zero byte.
-/

namespace TypedMemory.Port

variable {σ : Type} (port : Port σ)

/-- Reads a text of at most `limit` bytes, up to the first zero byte among them.  Malformed parts
are replaced. -/
def readCString (address : Address) (limit : Nat) : Access σ String := do
  let bytes ← port.readBytes address limit
  return Text.decodeMarked (bytes.takeWhile (· != 0))

end TypedMemory.Port
