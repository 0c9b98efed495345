import TypedMemory.Schema.Builtin

/-!
# Schemas

A `Schema` knows the composite types by their identity.  Types are declared first and defined later,
so they can refer to each other in any way; a type is defined once and keeps its definition.
-/

namespace TypedMemory

/-- The composite types: the predefined ones, and those that have been declared. -/
structure Schema where
  declared : List TypeEntry := []
  deriving DecidableEq, Repr

namespace Schema

/-- The schema of the predefined types alone. -/
def empty : Schema := {}

def size (s : Schema) : Nat :=
  Builtin.all.length + s.declared.length

def entry? (s : Schema) : TypeId → Option TypeEntry
  | .builtin type => some type.entry
  | .declared index => s.declared[index]?

def name (s : Schema) (id : TypeId) : String :=
  ((s.entry? id).map (·.name)).getD ""

def kind (s : Schema) (id : TypeId) : TypeKind :=
  ((s.entry? id).map (·.kind)).getD .struct

/-- The kind and name of a type, as in `struct Node`. -/
def describe (s : Schema) (id : TypeId) : String :=
  (s.kind id).name ++ " " ++ s.name id

def isDefined (s : Schema) (id : TypeId) : Bool :=
  ((s.entry? id).bind (·.definition)).isSome

/-- The definition of a type, which a declared type may not have yet. -/
def definition (s : Schema) (id : TypeId) : Except Error Definition :=
  match (s.entry? id).bind (·.definition) with
  | some d => .ok d
  | none => .error (.layout (.undefined (s.describe id)))

def declare (s : Schema) (name : String) (kind : TypeKind) : TypeId × Schema :=
  (.declared s.declared.length, { s with declared := s.declared ++ [⟨name, kind, none⟩] })

def define (s : Schema) (id : TypeId) (d : Definition) : Except Error Schema :=
  match id, s.entry? id with
  | .declared index, some ⟨name, kind, none⟩ =>
    .ok { s with declared := s.declared.set index ⟨name, kind, some d⟩ }
  | _, _ => .error (.layout (.redefined (s.describe id)))

end Schema

/-- The type of a field in short, as in `[u16; 4]` or `*struct Node`. -/
def Field.describe (s : Schema) : Field → String
  | void => "void"
  | scalar kind => kind.name
  | array element (some length) =>
    "[" ++ element.describe s ++ "; " ++ Numeral.decimal length ++ "]"
  | array element none => "[" ++ element.describe s ++ "]"
  | pointer target => "*" ++ target.describe s
  | composite type => s.describe type
  | string abi => "std::string<" ++ abi.name ++ ">"
  | fill _ => "fill"

end TypedMemory
