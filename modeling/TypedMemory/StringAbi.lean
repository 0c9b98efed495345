import TypedMemory.Platform

/-!
# Representations of strings

The two ways in which a C++ library lays out its string objects.  Which one is native depends on the
operating system.
-/

namespace TypedMemory

inductive StringAbi
  /-- Short strings are held within the object. -/
  | sso
  /-- The object points to the characters, which follow a header that counts references. -/
  | refCounted
  /-- `sso` under Windows, `refCounted` elsewhere. -/
  | native
  deriving DecidableEq, Repr

namespace StringAbi

def all : List StringAbi := [sso, refCounted, native]

def name : StringAbi → String
  | sso => "sso" | refCounted => "ref_counted" | native => "native"

/-- The representation with this name, in any case of its letters. -/
def ofName? (text : List Char) : Option StringAbi :=
  all.find? fun abi => Text.sameLetters abi.name.toList text

/-- The representation that is meant on `p`. -/
def resolve (abi : StringAbi) (p : Platform) : StringAbi :=
  match abi with
  | native => if p.os.isWindows then sso else refCounted
  | explicit => explicit

end StringAbi

end TypedMemory
