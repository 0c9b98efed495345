import TypedMemory.Schema

/-!
# The members of a type

The members of a type are those of its base, and then its own.  A member that is declared again
keeps its place and takes the later description.  If a type or one of its bases dispatches
virtually, a pointer named `vtableName` comes first.

* `Schema.baseChain`: the definitions of a type and its bases.
* `Schema.members`: the members.
-/

namespace TypedMemory

abbrev Member := String × Field

/-- The name of the pointer to the table of virtual functions. -/
def vtableName : String := "__vtable__"

/-- Adds a member, or gives the one of this name its new description. -/
def putMember (members : List Member) (member : Member) : List Member :=
  if members.any (·.1 == member.1) then
    members.map fun m => if m.1 == member.1 then member else m
  else members ++ [member]

/-- The members of a chain of definitions, of which the first is the most derived. -/
def mergeMembers (chain : List Definition) : List Member :=
  let members := (chain.reverse.flatMap (·.fields)).foldl putMember []
  if chain.any (·.hasVtable) && !members.any (·.1 == vtableName) then
    (vtableName, .pointer .void) :: members
  else members

namespace Schema

/-- The definitions from `id` on towards its bases, of which `seen` are the types derived from it.
Each step sees one more type, so a chain that is longer than there are types has come back to one;
`fuel` is more than that. -/
def chainFrom (s : Schema) (root : TypeId) :
    (fuel : Nat) → (seen : List TypeId) → TypeId → Except Error (List Definition)
  | 0, _, id => .error (.layout (.baseLoop (s.name root) (s.name id)))
  | fuel + 1, seen, id =>
    if id ∈ seen then .error (.layout (.baseLoop (s.name root) (s.name id)))
    else do
      let d ← s.definition id
      match d.base with
      | none => return [d]
      | some base => return d :: (← s.chainFrom root fuel (id :: seen) base)

def baseChain (s : Schema) (id : TypeId) : Except Error (List Definition) :=
  s.chainFrom id (s.size + 1) [] id

/-- The members of a type, those of its bases first. -/
def members (s : Schema) (id : TypeId) : Except Error (List Member) :=
  (s.baseChain id).map mergeMembers

end Schema

end TypedMemory
