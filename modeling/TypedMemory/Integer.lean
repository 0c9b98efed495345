/-!
# Integers of a fixed width

`IntType` names the eight fixed-width integer types.  An `Integer` is a number together with the
type whose range holds it, so its value is an ordinary `Int` that later arithmetic can use.
-/

namespace TypedMemory

inductive IntType
  | i8 | u8 | i16 | u16 | i32 | u32 | i64 | u64
  deriving DecidableEq, Repr

namespace IntType

def size : IntType → Nat
  | i8 | u8 => 1
  | i16 | u16 => 2
  | i32 | u32 => 4
  | i64 | u64 => 8

def isSigned : IntType → Bool
  | i8 | i16 | i32 | i64 => true
  | u8 | u16 | u32 | u64 => false

def name : IntType → String
  | i8 => "i8" | u8 => "u8" | i16 => "i16" | u16 => "u16"
  | i32 => "i32" | u32 => "u32" | i64 => "i64" | u64 => "u64"

/-- The number of values, a power of two. -/
def cardinality (t : IntType) : Nat :=
  1 <<< (8 * t.size)

def least (t : IntType) : Int :=
  if t.isSigned then -(t.cardinality / 2 : Nat) else 0

def greatest (t : IntType) : Int :=
  if t.isSigned then (t.cardinality / 2 : Nat) - 1 else t.cardinality - 1

/-- The number congruent to `n` modulo the cardinality that lies in the range of the type. -/
def reduce (t : IntType) (n : Int) : Int :=
  if t.isSigned then n.bmod t.cardinality else n % t.cardinality

theorem cardinality_pos (t : IntType) : 0 < t.cardinality := by
  cases t <;> decide

theorem cardinality_even (t : IntType) : t.cardinality % 2 = 0 := by
  cases t <;> rfl

theorem least_le_reduce (t : IntType) (n : Int) : t.least ≤ t.reduce n := by
  have pos := t.cardinality_pos
  unfold least reduce
  split
  · exact_mod_cast Int.le_bmod (x := n) pos
  · exact Int.emod_nonneg n (by omega)

theorem reduce_le_greatest (t : IntType) (n : Int) : t.reduce n ≤ t.greatest := by
  have pos := t.cardinality_pos
  have even := t.cardinality_even
  unfold greatest reduce
  split
  · have below := Int.bmod_lt (x := n) pos
    omega
  · exact Int.le_sub_one_of_lt (Int.emod_lt_of_pos n (by omega))

end IntType

structure Integer where
  type : IntType
  value : Int
  least_le : type.least ≤ value
  le_greatest : value ≤ type.greatest
  deriving DecidableEq

namespace Integer

/-- `n` as a value of type `t`, when it is in range. -/
def ofInt? (t : IntType) (n : Int) : Option Integer :=
  if h : t.least ≤ n ∧ n ≤ t.greatest then some ⟨t, n, h.1, h.2⟩ else none

/-- The value of type `t` that is congruent to `n` modulo the cardinality of `t`. -/
def wrap (t : IntType) (n : Int) : Integer :=
  ⟨t, t.reduce n, t.least_le_reduce n, t.reduce_le_greatest n⟩

end Integer

end TypedMemory
