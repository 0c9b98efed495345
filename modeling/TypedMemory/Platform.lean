import TypedMemory.Error
import TypedMemory.Integer
import TypedMemory.Text.Blank
import TypedMemory.Text.Split

/-!
# Target platforms

A `Platform` describes the process whose memory is looked at: word width, family of operating
systems and byte order.  It fixes the sizes of the types that C leaves open.

The text form is `<os>_x<bits>`, and after it `_le` or `_be` where the byte order is pinned.
`Platform.text` writes it and `Platform.parse` reads it.
-/

namespace TypedMemory

inductive WordWidth
  | b8 | b16 | b32 | b64
  deriving DecidableEq, Repr

namespace WordWidth

def all : List WordWidth := [b8, b16, b32, b64]

def toNat : WordWidth → Nat
  | b8 => 8 | b16 => 16 | b32 => 32 | b64 => 64

def bytes (b : WordWidth) : Nat :=
  b.toNat / 8

def ofNat? (n : Nat) : Except Error WordWidth :=
  match all.find? (·.toNat == n) with
  | some b => .ok b
  | none => .error (.unsupportedBits n)

end WordWidth

inductive OsFamily
  | unknown | android | ios | ipadOs | linux | macOs | windows
  deriving DecidableEq, Repr

namespace OsFamily

def all : List OsFamily := [unknown, android, ios, ipadOs, linux, macOs, windows]

def name : OsFamily → String
  | unknown => "unknown" | android => "android" | ios => "ios" | ipadOs => "ipad_os"
  | linux => "linux" | macOs => "mac_os" | windows => "windows"

/-- The family with this name, in any case of its letters. -/
def ofName? (text : List Char) : Option OsFamily :=
  all.find? fun os => Text.sameLetters os.name.toList text

def isWindows (os : OsFamily) : Bool :=
  os == windows

end OsFamily

/-- The order of the bytes of a scalar in memory. -/
inductive ByteOrder
  | little
  | big
  /-- The order of the target platform. -/
  | native
  deriving DecidableEq, Repr

namespace ByteOrder

def all : List ByteOrder := [little, big, native]

def name : ByteOrder → String
  | little => "little" | big => "big" | native => "native"

/-- The order of the machine that looks at the target. -/
def host : ByteOrder := little

end ByteOrder

/-- The architecture of a target process. -/
structure Platform where
  bits : WordWidth
  os : OsFamily
  byteOrder : ByteOrder
  deriving DecidableEq, Repr

namespace Platform

def host : Platform := ⟨.b64, .linux, .native⟩

/-- The size of a pointer, and of the integers as wide as one. -/
def pointerSize (p : Platform) : Nat :=
  p.bits.bytes

/-- The size of `int`: two bytes below 32 bits, and four from there on. -/
def intSize (p : Platform) : Nat :=
  if p.bits.toNat < 32 then 2 else 4

/-- The size of `long`: eight bytes on 64 bits, except under Windows. -/
def longSize (p : Platform) : Nat :=
  if 32 < p.bits.toNat ∧ ¬ p.os.isWindows then 8 else 4

end Platform

/-- The byte order that is meant on `p`.  A platform that pins none has that of the host. -/
def ByteOrder.resolve (order : ByteOrder) (p : Platform) : ByteOrder :=
  match order with
  | native =>
    match p.byteOrder with
    | native => host
    | pinned => pinned
  | pinned => pinned

def ByteOrder.isBigEndian (order : ByteOrder) (p : Platform) : Bool :=
  order.resolve p == big

namespace Platform

/-- The mark of a pinned byte order in the text form. -/
def orderMark : ByteOrder → String
  | .little => "_le" | .big => "_be" | .native => ""

def text (p : Platform) : String :=
  p.os.name ++ "_x" ++ Numeral.decimal p.bits.toNat ++ orderMark p.byteOrder

/-- Takes the mark of a byte order off the end of a text. -/
def splitOrder (text : List Char) : List Char × ByteOrder :=
  match Text.dropSuffix? (orderMark .little).toList text with
  | some rest => (rest, .little)
  | none =>
    match Text.dropSuffix? (orderMark .big).toList text with
    | some rest => (rest, .big)
    | none => (text, .native)

/-- Reads the text form.  Blanks around it and the case of the family's name do not matter. -/
def parse (text : String) : Except Error Platform :=
  let (rest, order) := splitOrder (Text.trim text.toList)
  match Text.splitLast? ['_', 'x'] rest with
  | none => .error (.invalidPlatform text)
  | some (name, width) =>
    match OsFamily.ofName? name, Numeral.parse 10 IntType.u32.cardinality width with
    | some os, .ok n => (WordWidth.ofNat? n).map fun bits => ⟨bits, os, order⟩
    | _, _ => .error (.invalidPlatform text)

end Platform

end TypedMemory
