import TypedMemory.Proofs.Layout.Placement

/-!
# Why a type has no layout

Working a layout out fails in one way only: the definition of a type is at fault
(`layoutIn_failsBySchema`).
-/

namespace TypedMemory

/-- If `x` fails, then through the definition of a type. -/
def FailsBySchema {α : Type} (x : Except Error α) : Prop :=
  ∀ e, x = .error e → e.concernsSchema = true

namespace FailsBySchema

variable {α β : Type} {x : Except Error α}

theorem ok (a : α) : FailsBySchema (.ok a) := nofun

theorem error {e : Error} (h : e.concernsSchema = true) :
    FailsBySchema (.error e : Except Error α) := by
  rintro _ ⟨⟩
  exact h

theorem bind {f : α → Except Error β} (hx : FailsBySchema x) (hf : ∀ a, FailsBySchema (f a)) :
    FailsBySchema (x >>= f) := by
  cases x with
  | error e => exact error (hx e rfl)
  | ok a => exact hf a

theorem map {f : α → β} (hx : FailsBySchema x) : FailsBySchema (x.map f) := by
  cases x with
  | error e => exact error (hx e rfl)
  | ok a => exact ok (f a)

theorem mapM {f : α → Except Error β} {items : List α} (h : ∀ a, FailsBySchema (f a)) :
    FailsBySchema (items.mapM f) := by
  induction items with
  | nil => exact ok []
  | cons a rest ih =>
    rw [List.mapM_cons]
    exact bind (h a) fun b => bind ih fun more => ok (b :: more)

end FailsBySchema

open FailsBySchema

variable {s : Schema} {p : Platform}

/-! ### Members -/

theorem definition_failsBySchema (id : TypeId) : FailsBySchema (s.definition id) := by
  unfold Schema.definition
  cases (s.entry? id).bind (·.definition) with
  | some d => exact ok d
  | none => exact error rfl

theorem members_failsBySchema (id : TypeId) : FailsBySchema (s.members id) := by
  have hchain : ∀ root fuel seen id, FailsBySchema (s.chainFrom root fuel seen id) := by
    intro root fuel
    induction fuel with
    | zero => exact fun _ _ => error rfl
    | succ fuel ih =>
      intro seen id
      rw [Schema.chainFrom]
      split
      · exact error rfl
      · refine (definition_failsBySchema id).bind fun d => ?_
        cases d.base with
        | none => exact ok [d]
        | some base => exact (ih _ _).bind fun rest => ok (d :: rest)
  exact (hchain _ _ _ _).map

section Measuring

variable {layout : TypeId → Except Error Layout} (h : ∀ id, FailsBySchema (layout id))

include h

theorem alignmentBy_failsBySchema (field : Field) : FailsBySchema (field.alignmentBy p layout) := by
  induction field with
  | array element length ih => exact ih
  | composite id => exact (h id).map
  | string abi => exact (h (abi.objectType p)).map
  | void | scalar | pointer | fill => exact ok _

theorem sizeBy_failsBySchema (field : Field) : FailsBySchema (field.sizeBy s p layout) := by
  induction field with
  | array element length ih =>
    cases length with
    | none => exact error rfl
    | some n =>
      refine ih.bind fun size => ?_
      split
      · exact ok _
      · exact error rfl
  | composite id => exact (h id).map
  | string abi => exact (h (abi.objectType p)).map
  | void | scalar | pointer | fill => exact ok _

theorem measure_failsBySchema (m : Member) : FailsBySchema (measure s p layout m) := by
  refine (alignmentBy_failsBySchema h m.2).bind fun alignment => ?_
  split
  · exact ok _
  · exact (sizeBy_failsBySchema h m.2).bind fun size => ok _

end Measuring

/-! ### Placements -/

theorem placeForward_failsBySchema {type : String} {packed : Bool} {cursor : Nat}
    (ms : List MeasuredMember) : FailsBySchema (placeForward s type packed cursor ms) := by
  induction ms generalizing cursor with
  | nil => exact ok _
  | cons m rest ih =>
    by_cases hm : m.size.isSome ∨ rest = []
    · rw [placeForward_cons hm]
      cases roundUp? cursor (m.placedAlignment packed) with
      | none => exact error rfl
      | some offset =>
        rw [Option.elim_some]
        split
        · exact ih.map
        · exact error rfl
    · have hnone : m.size = none := by simpa using (not_or.mp hm).1
      have hrest : rest.isEmpty = false := by simpa using (not_or.mp hm).2
      rw [placeForward]
      simp only [hnone, hrest]
      exact error rfl

theorem placeBackward_failsBySchema {type : String} {start : Int} (ms : List MeasuredMember) :
    FailsBySchema (placeBackward type start ms) := by
  induction ms generalizing start with
  | nil => exact ok _
  | cons m rest ih =>
    rw [placeBackward]
    cases m.size with
    | none => exact error rfl
    | some size =>
      simp only
      split
      · exact ih.bind fun placed => ok _
      · exact error rfl

theorem originIndex_failsBySchema {type : String} {ms : List MeasuredMember}
    (origin : Option String) : FailsBySchema (originIndex type ms origin) := by
  cases origin with
  | none => exact ok 0
  | some origin =>
    rw [originIndex]
    cases ms.findIdx? (·.name == origin) with
    | some index => exact ok index
    | none => exact error rfl

theorem structPlacement_failsBySchema {type : String} {ms : List MeasuredMember} {packed : Bool}
    {origin : Option String} : FailsBySchema (structPlacement s type ms packed origin) := by
  refine (originIndex_failsBySchema origin).bind fun index => ?_
  refine (placeBackward_failsBySchema _).bind fun (below, start) => ?_
  refine (placeForward_failsBySchema _).bind fun (above, last) => ?_
  simp only
  split
  · cases roundUp? (last + start.natAbs) (commonAlignment packed ms) with
    | some size => exact ok _
    | none => exact error rfl
  · exact error rfl

theorem unionPlacement_failsBySchema {type : String} {ms : List MeasuredMember} {packed : Bool} :
    FailsBySchema (unionPlacement s type ms packed) := by
  have hgreatest : FailsBySchema (greatestSize s type ms) := by
    induction ms with
    | nil => exact ok 0
    | cons m rest ih =>
      rw [greatestSize]
      cases m.size with
      | none => exact error rfl
      | some size => exact ih.map
  exact hgreatest.bind fun size => ok _

theorem place_failsBySchema {type : String} {kind : TypeKind} {d : Definition}
    {ms : List MeasuredMember} : FailsBySchema (place s p type kind d ms) := by
  cases kind with
  | struct =>
    rw [place_struct]
    exact structPlacement_failsBySchema.map
  | union =>
    cases horigin : d.origin with
    | some origin =>
      rw [place_union_of_origin horigin]
      exact error rfl
    | none =>
      rw [place_union horigin]
      exact unionPlacement_failsBySchema.map

theorem layoutIn_failsBySchema (s : Schema) (p : Platform) (fuel : Nat) (path : List TypeId)
    (id : TypeId) : FailsBySchema (s.layoutIn p fuel path id) := by
  induction fuel generalizing path id with
  | zero => exact error rfl
  | succ fuel ih =>
    rw [Schema.layoutIn]
    split
    · exact error rfl
    · refine (definition_failsBySchema id).bind fun d => ?_
      refine (members_failsBySchema id).bind fun ms => ?_
      exact (FailsBySchema.mapM (measure_failsBySchema (ih _))).bind fun _ => place_failsBySchema

end TypedMemory
