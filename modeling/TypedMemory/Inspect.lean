import TypedMemory.Binary.Decimal
import TypedMemory.Text.Hex
import TypedMemory.Text.Quoted
import TypedMemory.Value

/-!
# Structural text

`inspect` writes a value the way it is built: the name of a constructor in capitals and in
parentheses or braces what it holds.  It reads no memory.
-/

namespace TypedMemory

namespace Inspect

/-- A constructor and what it holds. -/
def call (name content : String) : String :=
  name ++ "(" ++ content ++ ")"

/-- A constructor and the named parts that it holds. -/
def fields (name : String) (parts : List (String × String)) : String :=
  name ++ " \x7b " ++ ", ".intercalate (parts.map fun (label, text) => label ++ ": " ++ text) ++
    " \x7d"

def numberStyle : FloatFormat.FractionStyle := ⟨.upper, -4, false⟩

def optional : Option String → String
  | some text => call "Some" text
  | none => "None"

end Inspect

def WordWidth.inspect (b : WordWidth) : String :=
  "B" ++ Numeral.decimal b.toNat

def OsFamily.inspect : OsFamily → String
  | unknown => "Unknown" | android => "Android" | ios => "Ios" | ipadOs => "IpadOs"
  | linux => "Linux" | macOs => "MacOs" | windows => "Windows"

def ByteOrder.inspect : ByteOrder → String
  | little => "Little" | big => "Big" | native => "Native"

def Platform.inspect (p : Platform) : String :=
  Inspect.fields "PlatformConfig"
    [("bits", p.bits.inspect), ("os", p.os.inspect), ("byte_order", p.byteOrder.inspect)]

def StringAbi.inspect : StringAbi → String
  | sso => "Sso" | refCounted => "RefCounted" | native => "Native"

def ScalarKind.inspect : ScalarKind → String
  | bool => "Bool" | char => "Char"
  | i8 => "I8" | u8 => "U8" | i16 => "I16" | u16 => "U16"
  | i32 => "I32" | u32 => "U32" | i64 => "I64" | u64 => "U64"
  | f32 => "F32" | f64 => "F64"
  | isize => "ISize" | usize => "USize" | size => "Size"
  | byte => "Byte" | ubyte => "UByte" | short => "Short" | ushort => "UShort"
  | int => "Int" | uint => "UInt" | long => "Long" | ulong => "ULong"
  | longlong => "LongLong" | ulonglong => "ULongLong"
  | float => "Float" | double => "Double"

def IntType.inspect : IntType → String
  | i8 => "I8" | u8 => "U8" | i16 => "I16" | u16 => "U16"
  | i32 => "I32" | u32 => "U32" | i64 => "I64" | u64 => "U64"

def PlatformCounts.inspect (counts : PlatformCounts) : String :=
  "\x7b" ++ ", ".intercalate (counts.map fun (p, n) => p.inspect ++ ": " ++ Numeral.decimal n) ++
    "\x7d"

def Field.inspect (s : Schema) : Field → String
  | void => "Void"
  | scalar kind => Inspect.call "Scalar" kind.inspect
  | array element length =>
    Inspect.fields "Array"
      [("element", element.inspect s), ("length", Inspect.optional (length.map Numeral.decimal))]
  | pointer target => Inspect.call "Pointer" (target.inspect s)
  | composite type => Inspect.call "Composite" (s.describe type)
  | string abi => Inspect.call "String" abi.inspect
  | fill counts => Inspect.call "Fill" counts.inspect

def ArrayView.inspect (s : Schema) (a : ArrayView) : String :=
  Inspect.fields "ArrayProxy"
    [("address", Hex.address a.address), ("element", a.element.inspect s),
      ("length", Inspect.optional (a.length.map Numeral.decimal)), ("order", a.order.inspect)]

def PointerSlot.inspect (s : Schema) (slot : PointerSlot) : String :=
  Inspect.fields "PointerCursor"
    [("address", Hex.address slot.address), ("target", slot.target.inspect s),
      ("order", slot.order.inspect)]

def CompositeView.inspect (c : CompositeView) : String :=
  Inspect.fields "Instance"
    [("type", Text.quoted c.layout.name), ("address", Hex.address c.address),
      ("order", c.order.inspect)]

def Value.inspect (s : Schema) : Value → String
  | void => "Void"
  | bool flag => Inspect.call "Bool" (toString flag)
  | int n => Inspect.call n.type.inspect (Numeral.signedDecimal n.value)
  | single pattern =>
    Inspect.call "F32" (FloatFormat.binary32.fractionText Inspect.numberStyle pattern.toNat)
  | double pattern =>
    Inspect.call "F64" (FloatFormat.binary64.fractionText Inspect.numberStyle pattern.toNat)
  | text content => Inspect.call "Text" (Text.quoted content)
  | array view => Inspect.call "Array" (view.inspect s)
  | pointer slot => Inspect.call "Pointer" (slot.inspect s)
  | composite view => Inspect.call "Composite" view.inspect

end TypedMemory
