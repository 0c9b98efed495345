import TypedMemory.Layout.Recall
import TypedMemory.Proofs.Access
import TypedMemory.Proofs.Layout.Resolve

/-!
# Remembered layouts are those that would be worked out

A table is sound if all its layouts have derivations.  From a sound table
`Schema.knownLayoutIn` gives what `Schema.layoutIn` gives, failures included, and
leaves a sound table (`eval_knownLayoutIn`).  So the bound on the depth and the
table disappear from `Schema.layout`:

* `layout_eq_layoutIn`: it is the plain recursion, with any sufficient bound;
* `layout_eq_ok_iff`: it finds the layout of a type exactly where there is one;
* `layout_eq_place`: where the members measure, it is their placement, and
  `LaysOut.exists_place`: where there is one, the members measure.
-/

namespace TypedMemory

namespace Schema

variable {s : Schema} {p : Platform}

/-- All layouts of the table are those of their types. -/
def TableSound (s : Schema) (table : LayoutTable) : Prop :=
  ∀ id q l, table.lookup (id, q) = some l → LaysOut s q id l

theorem tableSound_nil (s : Schema) : TableSound s [] := by
  intro id q l h
  cases h

theorem TableSound.cons {table : LayoutTable} (h : TableSound s table) {id : TypeId} {l : Layout}
    (hl : LaysOut s p id l) : TableSound s (((id, p), l) :: table) := by
  intro id' q l' hlookup
  rw [List.lookup_cons] at hlookup
  split at hlookup
  next heq =>
    obtain ⟨rfl, rfl⟩ := Prod.mk.inj (beq_iff_eq.mp heq)
    cases hlookup
    exact hl
  next => exact h id' q l' hlookup

/-- Measuring with layouts that are asked for one at a time. -/
theorem eval_measureWith {layout : TypeId → Recall Layout} {plain : TypeId → Except Error Layout}
    {m : Member} (inv : LayoutTable → Prop)
    (h : ∀ part, m.2.valueType? p = some part → ∀ table, inv table →
      ∃ table', inv table' ∧ Access.eval (layout part) table = (plain part, table'))
    {table : LayoutTable} (hinv : inv table) :
    ∃ table', inv table' ∧
      Access.eval (s.measureWith p layout m) table = (measure s p plain m, table') := by
  unfold measureWith
  cases hpart : m.2.valueType? p with
  | none =>
    refine ⟨table, hinv, ?_⟩
    simp only
    rw [Access.eval_liftM, measure_congr fun part h => absurd (hpart.symm.trans h) nofun]
  | some part =>
    obtain ⟨table', hinv', heval⟩ := h part hpart table hinv
    refine ⟨table', hinv', ?_⟩
    simp only
    rw [Access.eval_bind, heval]
    cases hplain : plain part with
    | error e =>
      simp only
      rw [measure_of_part_error hpart hplain]
    | ok known =>
      simp only
      rw [Access.eval_liftM, measure_congr fun other hother => ?_]
      rw [Option.some.inj (hpart.symm.trans hother)] at hplain
      exact hplain.symm

theorem eval_knownLayoutIn {fuel : Nat} {path : List TypeId} {id : TypeId}
    (hpath : PathTo s p path id) (hfuel : s.size < fuel + path.length) {table : LayoutTable}
    (hsound : TableSound s table) :
    ∃ table', TableSound s table' ∧
      Access.eval (s.knownLayoutIn p fuel path id) table = (s.layoutIn p fuel path id, table') := by
  induction fuel generalizing path id table with
  | zero => exact ⟨table, hsound, rfl⟩
  | succ fuel ih =>
    unfold knownLayoutIn
    rw [Access.eval_bind, Access.eval_get]
    cases hlookup : table.lookup (id, p) with
    | some known =>
      refine ⟨table, hsound, ?_⟩
      simp only [hlookup]
      rw [Access.eval_pure, layoutIn_of_laysOut (hsound id p known hlookup) hpath hfuel]
    | none =>
      simp only [hlookup]
      rw [layoutIn]
      by_cases hin : id ∈ path
      · rw [if_pos hin, if_pos hin]
        exact ⟨table, hsound, rfl⟩
      · rw [if_neg hin, if_neg hin, Access.eval_bind, Access.eval_liftM]
        cases hd : s.definition id with
        | error e => exact ⟨table, hsound, rfl⟩
        | ok d =>
          simp only
          rw [Access.eval_bind, Access.eval_liftM]
          cases hms : s.members id with
          | error e => exact ⟨table, hsound, rfl⟩
          | ok ms =>
            obtain ⟨table', hsound', hmapM⟩ := Access.eval_mapM (TableSound s)
              (fun m hm table hsound => eval_measureWith (s := s) (p := p) (m := m) (TableSound s)
                (fun part hpart table hsound =>
                  ih (hpath.concat hin hd ⟨ms, hms, m, hm, hpart⟩)
                    (by rw [List.length_append, List.length_singleton]; omega) hsound)
                hsound)
              table hsound
            simp only
            rw [Access.eval_bind, hmapM]
            cases hmeasured : ms.mapM (measure s p (s.layoutIn p fuel (path ++ [id]))) with
            | error e => exact ⟨table', hsound', by simp only [bind, Except.bind]; rw [hmeasured]⟩
            | ok measured =>
              simp only
              rw [Access.eval_bind, Access.eval_liftM]
              cases hplace : place s p (s.name id) (s.kind id) d measured with
              | error e =>
                refine ⟨table', hsound', ?_⟩
                simp only [bind, Except.bind, hmeasured, hplace]
              | ok l =>
                refine ⟨((id, p), l) :: table', hsound'.cons ?_, ?_⟩
                · exact laysOut_of_layoutIn (layoutIn_succ_eq_ok_iff.mpr
                    ⟨hin, d, ms, measured, hd, hms, hmeasured, hplace⟩)
                · simp only [bind, Except.bind, hmeasured, hplace]
                  rfl

/-! ### Layouts without a table -/

theorem layout_eq_layoutIn (s : Schema) (p : Platform) (id : TypeId) {fuel : Nat}
    (hfuel : s.size < fuel) : s.layout p id = s.layoutIn p fuel [] id := by
  obtain ⟨table, -, heval⟩ := eval_knownLayoutIn (p := p) (PathTo.nil id)
    (Nat.lt_succ_self s.size) (tableSound_nil s)
  calc s.layout p id = s.layoutIn p (s.size + 1) [] id := congrArg Prod.fst heval
    _ = s.layoutIn p fuel [] id :=
      layoutIn_eq_of_size_lt (PathTo.nil id) (Nat.lt_succ_self s.size) hfuel

theorem layout_eq_ok_iff {id : TypeId} {l : Layout} :
    s.layout p id = .ok l ↔ LaysOut s p id l := by
  rw [layout_eq_layoutIn s p id (Nat.lt_succ_self s.size)]
  exact ⟨laysOut_of_layoutIn,
    fun h => layoutIn_of_laysOut h (PathTo.nil id) (Nat.lt_succ_self s.size)⟩

/-- A layout is the placement of the members, measured with the layouts of their parts. -/
theorem LaysOut.exists_place {id : TypeId} {l : Layout} (h : LaysOut s p id l) :
    ∃ d ms measured, s.definition id = .ok d ∧ s.members id = .ok ms ∧
      ms.mapM (measure s p (s.layout p)) = .ok measured ∧
      place s p (s.name id) (s.kind id) d measured = .ok l := by
  cases h with
  | @intro _ d ms measured _ known hd hms hparts hmeasured hplace =>
    refine ⟨d, ms, measured, hd, hms, ?_, hplace⟩
    rw [← hmeasured]
    refine mapM_congr fun m hm => measure_congr fun part hpart => ?_
    exact layout_eq_ok_iff.mpr (hparts m hm part hpart)

/-- Where the members measure, the layout is their placement. -/
theorem layout_eq_place {id : TypeId} {d : Definition} {ms : List Member}
    {measured : List MeasuredMember} (hd : s.definition id = .ok d) (hms : s.members id = .ok ms)
    (hmeasured : ms.mapM (measure s p (s.layout p)) = .ok measured) :
    s.layout p id = place s p (s.name id) (s.kind id) d measured := by
  have hparts : ∀ m ∈ ms,
      measure s p (s.layoutIn p s.size [id]) m = measure s p (s.layout p) m := by
    intro m hm
    refine measure_congr fun part hpart => ?_
    obtain ⟨needs, hneeds⟩ := exists_ok_of_mapM hmeasured hm
    obtain ⟨l, hl⟩ := exists_part_of_measure hneeds hpart
    have hpath : PathTo s p [id] part :=
      (PathTo.nil id).concat List.not_mem_nil hd ⟨ms, hms, m, hm, hpart⟩
    rw [hl, layoutIn_of_laysOut (layout_eq_ok_iff.mp hl) hpath (Nat.lt_succ_self s.size)]
  rw [layout_eq_layoutIn s p id (Nat.lt_succ_self s.size), layoutIn, if_neg List.not_mem_nil, hd,
    hms, ← mapM_congr hparts] at *
  simp only [bind, Except.bind, List.nil_append, hmeasured]

end Schema

end TypedMemory
