import TypedMemory.Json.Printer
import TypedMemory.Json.Value
import TypedMemory.Report
import TypedMemory.ScalarKind
import TypedMemory.Text.Utf8

/-!
# Saved descriptions

Platforms, and the names that occur in them, as JSON.  A platform is an object, in which other
members are ignored, or an array of its parts; the byte order may be left out of either.
-/

namespace TypedMemory

open Json Json.Reader

namespace Saved

/-- The saved name of a scalar kind, which splits words that its plain name runs together. -/
def kindName : ScalarKind → String
  | .isize => "i_size" | .usize => "u_size"
  | .ubyte => "u_byte" | .ushort => "u_short" | .uint => "u_int" | .ulong => "u_long"
  | .longlong => "long_long" | .ulonglong => "u_long_long"
  | kind => kind.name

def scalarKind : Reader ScalarKind := nameOf ScalarKind.all kindName

def stringAbi : Reader StringAbi := nameOf StringAbi.all StringAbi.name

def osFamily : Reader OsFamily := nameOf OsFamily.all OsFamily.name

def byteOrder : Reader ByteOrder := nameOf ByteOrder.all ByteOrder.name

/-- A word width, which is the number of its bits. -/
def bits : Reader WordWidth := do
  let n ← natural IntType.u32.cardinality "u32"
  match WordWidth.ofNat? n with
  | .ok b => return b
  | .error e => reject (.refused e.message)

/-- The parts of a platform that have been read. -/
structure Parts where
  bits : Option WordWidth := none
  os : Option OsFamily := none
  byteOrder : Option ByteOrder := none

/-- Reads the value of a member that may occur only once. -/
def once {α : Type} (name : String) (known : Option α) (reader : Reader α) : Reader (Option α) :=
  if known.isSome then reject (.repeatedMember name)
  else do
    colon
    some <$> reader

def Parts.read (parts : Parts) (name : String) : Reader Parts :=
  match name with
  | "bits" => return { parts with bits := ← once name parts.bits Saved.bits }
  | "os" => return { parts with os := ← once name parts.os osFamily }
  | "byte_order" =>
    return { parts with byteOrder := ← once name parts.byteOrder Saved.byteOrder }
  | _ => do
    colon
    skipValue (← enough)
    return parts

def readParts : (fuel : Nat) → (first : Bool) → Parts → Reader Parts
  | 0, _, parts => return parts
  | fuel + 1, first, parts => do
    match ← nextMember first with
    | none => return parts
    | some name => readParts fuel false (← parts.read name)

def Parts.platform (parts : Parts) : Reader Platform :=
  match parts.bits, parts.os with
  | none, _ => reject (.missingMember "bits")
  | _, none => reject (.missingMember "os")
  | some bits, some os => return ⟨bits, os, parts.byteOrder.getD .native⟩

/-- Reads the next item of an array that has to have more than `index` of them. -/
def required {α : Type} (index : Nat) (reader : Reader α) : Reader α := do
  if ← nextItem (index == 0) then reader
  else reject (.tooShort index "struct PlatformConfig with 3 elements")

def readItems : Reader Platform := do
  let bits ← required 0 bits
  let os ← required 1 osFamily
  let order ← if ← nextItem false then byteOrder else pure .native
  return ⟨bits, os, order⟩

def platform : Reader Platform :=
  placed do
    match ← next with
    | none => fail .endInValue
    | some '[' => enclosed readItems endArray
    | some '\x7b' =>
      enclosed (do (← readParts (← enough) true {}).platform) endObject
    | some _ => unexpected "struct PlatformConfig"

end Saved

namespace Platform

def document (p : Platform) : Document :=
  .object [("bits", .integer p.bits.toNat), ("os", .text p.os.name),
    ("byte_order", .text p.byteOrder.name)]

def saved (p : Platform) : String :=
  p.document.pretty

def load (contents : Bytes) : Except Error Platform :=
  match Utf8.decode? contents with
  | none => .error (.io "stream did not contain valid UTF-8")
  | some text => (Json.read Saved.platform text).mapError fun fault => .json fault.message

end Platform

def ReportRow.document (row : ReportRow) : Document :=
  .object [("name", .text row.name), ("type", .text row.type), ("offset", .integer row.offset),
    ("size", .integer row.size), ("alignment", .integer row.alignment)]

def Report.document (r : Report) : Document :=
  .object [("name", .text r.name), ("kind", .text r.kind.name),
    ("platform", .text r.platform.text), ("size", .integer r.size),
    ("alignment", .integer r.alignment), ("start", .integer r.start),
    ("fields", .array (r.rows.map ReportRow.document))]

end TypedMemory
