import TypedMemory.Value.Text

/-!
# Listings

The members of a composite, one on a line.  A composite among them is expanded below its name, up to
a depth; everything else is shown, and what can not be read is shown with its failure.
-/

namespace TypedMemory

/-- Composites within this many others are named and not expanded. -/
def listingDepth : Nat := 4

def indent (level : Nat) : String :=
  String.join (List.replicate level "  ")

namespace CompositeView

variable {σ : Type} (m : Space σ)

/-- The lines for the members of a composite, each behind `level` indents.  There are `depth` more
levels to expand. -/
def linesAt : (depth level : Nat) → CompositeView → Access σ (List String)
  | depth, level, c => do
    let lines ← c.layout.fields.mapM fun field => do
      let lead := indent level ++ field.name
      match ← attempt (c.readField m field) with
      | .error e => return [lead ++ " = <" ++ e.message ++ ">"]
      | .ok (.composite nested) =>
        match depth with
        | 0 => return [lead ++ " = " ++ (← (Value.composite nested).display m)]
        | depth + 1 =>
          return (lead ++ ": " ++ nested.layout.name) :: (← linesAt depth (level + 1) nested)
      | .ok value => return [lead ++ " = " ++ (← value.display m)]
    return lines.flatten

def listing (c : CompositeView) : Access σ (List String) :=
  linesAt m (listingDepth - 1) 1 c

end CompositeView

end TypedMemory
