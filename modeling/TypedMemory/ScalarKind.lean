import TypedMemory.Integer
import TypedMemory.Platform

/-!
# Scalar kinds

A `ScalarKind` is a kind of scalar that a field can hold.  The kinds with a width in their name have
that width everywhere, the others have the width that the target platform gives them.  The size of a
scalar is also its alignment.
-/

namespace TypedMemory

inductive ScalarKind
  /-- One byte; zero is false. -/
  | bool
  /-- One byte of character data. -/
  | char
  | i8 | u8 | i16 | u16 | i32 | u32 | i64 | u64
  | f32 | f64
  | isize | usize | size
  | byte | ubyte | short | ushort | int | uint | long | ulong | longlong | ulonglong
  | float | double
  deriving DecidableEq, Repr

/-- How the bits of a scalar are read. -/
inductive ScalarEncoding
  | bool
  | signed
  | unsigned
  | single
  | double
  deriving DecidableEq, Repr

namespace ScalarKind

def all : List ScalarKind :=
  [bool, char, i8, u8, i16, u16, i32, u32, i64, u64, f32, f64, isize, usize, size, byte, ubyte,
    short, ushort, int, uint, long, ulong, longlong, ulonglong, float, double]

def name : ScalarKind → String
  | bool => "bool" | char => "char"
  | i8 => "i8" | u8 => "u8" | i16 => "i16" | u16 => "u16"
  | i32 => "i32" | u32 => "u32" | i64 => "i64" | u64 => "u64"
  | f32 => "f32" | f64 => "f64"
  | isize => "isize" | usize => "usize" | size => "size"
  | byte => "byte" | ubyte => "ubyte" | short => "short" | ushort => "ushort"
  | int => "int" | uint => "uint" | long => "long" | ulong => "ulong"
  | longlong => "longlong" | ulonglong => "ulonglong"
  | float => "float" | double => "double"

/-- The kind with this name, in any case of its letters. -/
def ofName? (text : List Char) : Option ScalarKind :=
  all.find? fun kind => Text.sameLetters kind.name.toList text

def encoding : ScalarKind → ScalarEncoding
  | bool => .bool
  | i8 | i16 | i32 | i64 | isize | byte | short | int | long | longlong => .signed
  | char | u8 | u16 | u32 | u64 | usize | size | ubyte | ushort | uint | ulong | ulonglong =>
    .unsigned
  | f32 | float => .single
  | f64 | double => .double

def isFloat (kind : ScalarKind) : Bool :=
  kind.encoding == .single || kind.encoding == .double

/-- Signed integers and floating-point numbers. -/
def isSigned (kind : ScalarKind) : Bool :=
  kind.encoding == .signed || kind.isFloat

def sizeOn (kind : ScalarKind) (p : Platform) : Nat :=
  match kind with
  | bool | char | i8 | u8 | byte | ubyte => 1
  | i16 | u16 | short | ushort => 2
  | i32 | u32 | f32 | float => 4
  | i64 | u64 | f64 | double | longlong | ulonglong => 8
  | isize | usize | size => p.pointerSize
  | int | uint => p.intSize
  | long | ulong => p.longSize

def alignmentOn (kind : ScalarKind) (p : Platform) : Nat :=
  kind.sizeOn p

end ScalarKind

end TypedMemory
