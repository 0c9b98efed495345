import TypedMemory.Layout.Recall

/-!
# Catalogs

A `Catalog` is a schema that remembers the layouts it has been asked for.
-/

namespace TypedMemory

/-- A schema and the layouts that are known of its types. -/
structure Catalog where
  schema : Schema := .empty
  known : LayoutTable := []
  deriving DecidableEq, Repr

namespace Catalog

def empty : Catalog := {}

def declare (c : Catalog) (name : String) (kind : TypeKind) : TypeId × Catalog :=
  let (id, schema) := c.schema.declare name kind
  (id, { c with schema })

def define (c : Catalog) (id : TypeId) (d : Definition) : Except Error Catalog :=
  (c.schema.define id d).map fun schema => { c with schema }

/-- The layout of a type, and the catalog that knows it. -/
def layout (c : Catalog) (p : Platform) (id : TypeId) : Except Error Layout × Catalog :=
  let (result, known) := (c.schema.knownLayout p id).run c.known
  (result, { c with known })

end Catalog

end TypedMemory
