import Mathlib.Data.List.Nodup
import Mathlib.Data.List.Perm.Subperm
import Mathlib.Logic.Relation
import TypedMemory.Layout.Resolve
import TypedMemory.Proofs.Layout.Measure

/-!
# Layouts as derivations

`Schema.layoutIn` carries a path of types and a bound on its depth.  Neither
matters for the layouts that it finds.  `Schema.LaysOut s p id l` says that `l` is
the layout of a type, with a derivation that follows the parts held by value and
knows no path:

* `laysOut_of_layoutIn`: a layout that is found has a derivation;
* `layoutIn_of_laysOut`: a layout with a derivation is found, on every path that
  leads to the type, with a bound above the number of types.

A derivation is finite, so a type with a layout holds no part of itself
(`LaysOut.acc`), and this is why no path can stand in the way.
-/

namespace TypedMemory

namespace Schema

variable {s : Schema} {p : Platform}

/-! ### Parts -/

/-- A member of the type `id` holds a value of the type `part`. -/
def HasPart (s : Schema) (p : Platform) (id part : TypeId) : Prop :=
  ∃ ms, s.members id = .ok ms ∧ ∃ m ∈ ms, m.2.valueType? p = some part

/-- The layout of a type, derived from the layouts of its parts. -/
inductive LaysOut (s : Schema) (p : Platform) : TypeId → Layout → Prop
  | intro {id : TypeId} {d : Definition} {ms : List Member} {measured : List MeasuredMember}
      {l : Layout} (known : TypeId → Layout) (hd : s.definition id = .ok d)
      (hms : s.members id = .ok ms)
      (hparts : ∀ m ∈ ms, ∀ part, m.2.valueType? p = some part → LaysOut s p part (known part))
      (hmeasured : ms.mapM (measure s p fun part => .ok (known part)) = .ok measured)
      (hplace : place s p (s.name id) (s.kind id) d measured = .ok l) : LaysOut s p id l

/-- Following the parts of a type with a layout comes to an end. -/
theorem LaysOut.acc {id : TypeId} {l : Layout} (h : LaysOut s p id l) :
    Acc (fun part whole => HasPart s p whole part) id := by
  induction h with
  | intro known hd hms hparts hmeasured hplace ih =>
    refine Acc.intro _ fun part hpart => ?_
    obtain ⟨ms', hms', m, hm, hvalue⟩ := hpart
    cases hms.symm.trans hms'
    exact ih m hm part hvalue

/-- A type with a layout is no part of itself, however deep. -/
theorem LaysOut.not_transGen_self {id : TypeId} {l : Layout} (h : LaysOut s p id l) :
    ¬ Relation.TransGen (HasPart s p) id id := by
  have hacc := h.acc.transGen
  intro hloop
  rw [← Relation.transGen_swap] at hloop
  exact hacc.recOn (motive := fun x _ =>
    Relation.TransGen (Function.swap (HasPart s p)) x x → False)
    (fun x _ ih hx => ih x hx hx) hloop

/-! ### Layouts that are found -/

/-- Working out a layout, step by step. -/
theorem layoutIn_succ_eq_ok_iff {fuel : Nat} {path : List TypeId} {id : TypeId} {l : Layout} :
    s.layoutIn p (fuel + 1) path id = .ok l ↔
      id ∉ path ∧ ∃ d ms measured, s.definition id = .ok d ∧ s.members id = .ok ms ∧
        ms.mapM (measure s p (s.layoutIn p fuel (path ++ [id]))) = .ok measured ∧
        place s p (s.name id) (s.kind id) d measured = .ok l := by
  rw [layoutIn]
  by_cases hin : id ∈ path
  · rw [if_pos hin]
    constructor
    · intro h
      cases h
    · exact fun h => absurd hin h.1
  · rw [if_neg hin]
    simp only [bind_eq_ok_iff]
    constructor
    · rintro ⟨d, hd, ms, hms, measured, hmeasured, hplace⟩
      exact ⟨hin, d, ms, measured, hd, hms, hmeasured, hplace⟩
    · rintro ⟨-, d, ms, measured, hd, hms, hmeasured, hplace⟩
      exact ⟨d, hd, ms, hms, measured, hmeasured, hplace⟩

theorem laysOut_of_layoutIn {fuel : Nat} {path : List TypeId} {id : TypeId} {l : Layout}
    (h : s.layoutIn p fuel path id = .ok l) : LaysOut s p id l := by
  induction fuel generalizing path id l with
  | zero => cases h
  | succ fuel ih =>
    obtain ⟨-, d, ms, measured, hd, hms, hmeasured, hplace⟩ := layoutIn_succ_eq_ok_iff.mp h
    -- what is found for the parts; the types that are no parts do not matter
    let known : TypeId → Layout := fun part =>
      ((s.layoutIn p fuel (path ++ [id]) part).toOption).getD l
    have hknown : ∀ m ∈ ms, ∀ part, m.2.valueType? p = some part →
        s.layoutIn p fuel (path ++ [id]) part = .ok (known part) := by
      intro m hm part hpart
      obtain ⟨needs, hneeds⟩ := exists_ok_of_mapM hmeasured hm
      obtain ⟨l', hl'⟩ := exists_part_of_measure hneeds hpart
      simp only [known, hl', Except.toOption, Option.getD_some]
    refine LaysOut.intro known hd hms (fun m hm part hpart => ih (hknown m hm part hpart)) ?_ hplace
    rw [← hmeasured]
    exact mapM_congr fun m hm => measure_congr fun part hpart => (hknown m hm part hpart).symm

/-! ### Paths -/

/-- All types of a schema. -/
def allIds (s : Schema) : List TypeId :=
  Builtin.all.map .builtin ++ (List.range s.declared.length).map .declared

theorem length_allIds (s : Schema) : s.allIds.length = s.size := by
  simp [allIds, size]

theorem mem_allIds_of_definition {id : TypeId} {d : Definition} (h : s.definition id = .ok d) :
    id ∈ s.allIds := by
  cases id with
  | builtin type =>
    refine List.mem_append_left _ (List.mem_map_of_mem ?_)
    cases type <;> decide
  | declared index =>
    refine List.mem_append_right _ (List.mem_map_of_mem (List.mem_range.mpr ?_))
    by_contra hindex
    have hnone : s.entry? (.declared index) = none := List.getElem?_eq_none (by omega)
    rw [definition, hnone] at h
    cases h

/-- There are no more defined types than there are types. -/
theorem length_le_size {ids : List TypeId} (hnodup : ids.Nodup)
    (hdefined : ∀ t ∈ ids, ∃ d, s.definition t = .ok d) : ids.length ≤ s.size := by
  rw [← length_allIds]
  refine (List.subperm_of_subset hnodup fun t ht => ?_).length_le
  obtain ⟨d, hd⟩ := hdefined t ht
  exact mem_allIds_of_definition hd

/-- The types of `path` are defined, and each holds the next and in the end `id`. -/
structure PathTo (s : Schema) (p : Platform) (path : List TypeId) (id : TypeId) : Prop where
  nodup : path.Nodup
  definition : ∀ t ∈ path, ∃ d, s.definition t = .ok d
  transGen : ∀ t ∈ path, Relation.TransGen (HasPart s p) t id

theorem PathTo.nil (id : TypeId) : PathTo s p [] id :=
  ⟨List.nodup_nil, fun _ h => absurd h List.not_mem_nil, fun _ h => absurd h List.not_mem_nil⟩

/-- No path is longer than there are types. -/
theorem PathTo.length_le {path : List TypeId} {id : TypeId} (h : PathTo s p path id) :
    path.length ≤ s.size :=
  length_le_size h.nodup h.definition

theorem PathTo.concat {path : List TypeId} {id part : TypeId} {d : Definition}
    (h : PathTo s p path id) (hin : id ∉ path) (hd : s.definition id = .ok d)
    (hpart : HasPart s p id part) : PathTo s p (path ++ [id]) part := by
  refine ⟨?_, ?_, ?_⟩
  · exact List.nodup_append.mpr ⟨h.nodup, List.nodup_singleton _, by
      rintro t ht _ hid rfl
      exact hin (List.mem_singleton.mp hid ▸ ht)⟩
  · intro t ht
    rcases List.mem_append.mp ht with ht | ht
    · exact h.definition t ht
    · exact ⟨d, List.mem_singleton.mp ht ▸ hd⟩
  · intro t ht
    rcases List.mem_append.mp ht with ht | ht
    · exact (h.transGen t ht).tail hpart
    · exact .single (List.mem_singleton.mp ht ▸ hpart)

/-- A type with a layout is not on a path to it. -/
theorem LaysOut.notMem_path {id : TypeId} {l : Layout} (h : LaysOut s p id l)
    {path : List TypeId} (hpath : PathTo s p path id) : id ∉ path :=
  fun hin => h.not_transGen_self (hpath.transGen id hin)

theorem layoutIn_of_laysOut {id : TypeId} {l : Layout} (h : LaysOut s p id l) {fuel : Nat}
    {path : List TypeId} (hpath : PathTo s p path id) (hfuel : s.size < fuel + path.length) :
    s.layoutIn p fuel path id = .ok l := by
  induction h generalizing fuel path with
  | @intro id d ms measured l known hd hms hparts hmeasured hplace ih =>
    have hin : id ∉ path :=
      (LaysOut.intro known hd hms hparts hmeasured hplace).notMem_path hpath
    cases fuel with
    | zero =>
      have := hpath.length_le
      omega
    | succ fuel =>
      refine layoutIn_succ_eq_ok_iff.mpr ⟨hin, d, ms, measured, hd, hms, ?_, hplace⟩
      rw [← hmeasured]
      refine mapM_congr fun m hm => measure_congr fun part hpart => ?_
      refine ih m hm part hpart (hpath.concat hin hd ⟨ms, hms, m, hm, hpart⟩) ?_
      rw [List.length_append, List.length_singleton]
      omega

/-- More fuel than there are types changes nothing, not even a failure. -/
theorem layoutIn_eq_of_size_lt {fuel other : Nat} {path : List TypeId} {id : TypeId}
    (hpath : PathTo s p path id) (hfuel : s.size < fuel + path.length)
    (hother : s.size < other + path.length) :
    s.layoutIn p fuel path id = s.layoutIn p other path id := by
  have hlength := hpath.length_le
  induction fuel generalizing other path id with
  | zero => omega
  | succ fuel ih =>
    cases other with
    | zero => omega
    | succ other =>
      rw [layoutIn, layoutIn]
      by_cases hin : id ∈ path
      · rw [if_pos hin, if_pos hin]
      · rw [if_neg hin, if_neg hin]
        cases hd : s.definition id with
        | error e => rfl
        | ok d =>
          cases hms : s.members id with
          | error e => rfl
          | ok ms =>
            have hparts : ∀ m ∈ ms, measure s p (s.layoutIn p fuel (path ++ [id])) m =
                measure s p (s.layoutIn p other (path ++ [id])) m := by
              intro m hm
              refine measure_congr fun part hpart => ?_
              have hnext := hpath.concat hin hd ⟨ms, hms, m, hm, hpart⟩
              have hlen : (path ++ [id]).length = path.length + 1 := by simp
              exact ih hnext (by omega) (by omega) hnext.length_le
            simp only [bind, Except.bind, mapM_congr hparts]

end Schema

end TypedMemory
