import TypedMemory.Bytes

/-!
# UTF-8

`Utf8.scan` reads bytes as a sequence of characters and of faults, one fault for each longest run of
bytes that begins a character and can not end as one.  `Utf8.decode?` accepts bytes without faults,
`Utf8.decodeLossy` puts a replacement character in the place of each, and `Utf8.encode` is the other
direction.
-/

namespace TypedMemory.Utf8

/-- A character of which more bytes are to come. -/
structure Partial where
  /-- The number of bytes to come. -/
  missing : Nat
  /-- The bits read so far. -/
  code : Nat
  /-- The least and greatest next byte. -/
  low : Nat
  high : Nat
  deriving DecidableEq, Repr

/-- What the first byte of a character says. -/
inductive Lead
  | single (c : Char)
  | multiple (state : Partial)
  | invalid
  deriving DecidableEq, Repr

/-- Reads a first byte.  The bounds on the second one shut out overlong forms, surrogates and codes
past the last character. -/
def lead (b : UInt8) : Lead :=
  let n := b.toNat
  if n < 0x80 then .single (Char.ofNat n)
  else if n < 0xc2 then .invalid
  else if n < 0xe0 then .multiple ⟨1, n - 0xc0, 0x80, 0xbf⟩
  else if n < 0xf0 then
    .multiple ⟨2, n - 0xe0, if n = 0xe0 then 0xa0 else 0x80, if n = 0xed then 0x9f else 0xbf⟩
  else if n < 0xf5 then
    .multiple ⟨3, n - 0xf0, if n = 0xf0 then 0x90 else 0x80, if n = 0xf4 then 0x8f else 0xbf⟩
  else .invalid

/-- A character, or a fault. -/
abbrev Item := Option Char

def stepLead (b : UInt8) : List Item × Option Partial :=
  match lead b with
  | .single c => ([some c], none)
  | .multiple state => ([], some state)
  | .invalid => ([none], none)

/-- Reads a byte.  One that can not continue a character ends it in a fault and is read again. -/
def step : Option Partial → UInt8 → List Item × Option Partial
  | none, b => stepLead b
  | some state, b =>
    let n := b.toNat
    if state.low ≤ n ∧ n ≤ state.high then
      let code := state.code * 64 + n % 64
      if state.missing ≤ 1 then ([some (Char.ofNat code)], none)
      else ([], some ⟨state.missing - 1, code, 0x80, 0xbf⟩)
    else
      let (items, next) := stepLead b
      (none :: items, next)

/-- The characters and faults of `bytes`, begun in a given state. -/
def scan : Option Partial → Bytes → List Item
  | none, [] => []
  | some _, [] => [none]
  | state, b :: rest =>
    let (items, next) := step state b
    items ++ scan next rest

def replacement : Char := '\ufffd'

/-- The text of `bytes` that hold no fault. -/
def decode? (bytes : Bytes) : Option String :=
  ((scan none bytes).mapM id).map String.ofList

/-- The text of `bytes`, with each fault replaced. -/
def decodeLossy (bytes : Bytes) : String :=
  String.ofList ((scan none bytes).map (·.getD replacement))

def encode (text : String) : Bytes :=
  text.toList.flatMap String.utf8EncodeChar

def size (text : String) : Nat :=
  (encode text).length

end TypedMemory.Utf8
