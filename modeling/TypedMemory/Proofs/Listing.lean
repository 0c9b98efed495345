import Mathlib.Data.List.Forall2
import TypedMemory.Listing
import TypedMemory.Proofs.Layout.Extent
import TypedMemory.Proofs.View.Navigation

/-!
# The shape of a listing

The members of a composite, and those of the composites in it, are a tree.  A member is
found in it by its path, the positions of the members on the way (`Layout.MemberAt`), and
paths are ordered as words, so that a composite comes before its members.

Main statement: a listing has one line for each path of up to four members, in this order
(`CompositeView.listing_shape`).  Indentation, name and whether a line is a header follow
from the path and the layout.  So they are the same for any memory, whatever can be read
of it.
-/

namespace TypedMemory

open Access

/-! ### The tree of members -/

/-- A member of a layout, or of a composite in it, by the positions of the members on the way. -/
inductive Layout.MemberAt (s : Schema) (p : Platform) : Layout → List Nat → PlacedField → Prop
  | here {l : Layout} {i : Nat} {f : PlacedField} (hf : l.fields[i]? = some f) :
      MemberAt s p l [i] f
  | inside {l inner : Layout} {i : Nat} {f g : PlacedField} {type : TypeId} {path : List Nat}
      (hf : l.fields[i]? = some f) (hfield : f.field = .composite type)
      (hinner : s.layout p type = .ok inner) (hrest : MemberAt s p inner path g) :
      MemberAt s p l (i :: path) g

/-- A member and its path. -/
abbrev MemberRow := List Nat × PlacedField

namespace MemberRow

/-- A row of a composite at position `i`, as a row of what the composite is in. -/
def within (i : Nat) (row : MemberRow) : MemberRow := (i :: row.1, row.2)

/-- The rows for members from a position on, each member before the rows `inner` in it. -/
def rowsFrom (inner : PlacedField → List MemberRow) (start : Nat) (fields : List PlacedField) :
    List MemberRow :=
  (fields.zipIdx start).flatMap fun (f, i) => ([i], f) :: (inner f).map (within i)

variable (s : Schema) (p : Platform)

/-- The members that a field holds, if it is a composite. -/
def fieldsIn (f : PlacedField) : List PlacedField :=
  match f.field with
  | .composite type =>
    match s.layout p type with
    | .ok l => l.fields
    | .error _ => []
  | _ => []

/-- The rows for some members, with those of composites down to `depth` further levels. -/
def rows : (depth : Nat) → List PlacedField → List MemberRow
  | 0, fields => rowsFrom (fun _ => []) 0 fields
  | depth + 1, fields => rowsFrom (fun f => rows depth (fieldsIn s p f)) 0 fields

variable {s p} {inner : PlacedField → List MemberRow} {start depth : Nat} {f g : PlacedField}
  {fields : List PlacedField} {path : List Nat} {l : Layout}

theorem mem_rowsFrom_iff : (path, g) ∈ rowsFrom inner 0 fields ↔
    ∃ i f, fields[i]? = some f ∧
      (path = [i] ∧ g = f ∨ ∃ rest, path = i :: rest ∧ (rest, g) ∈ inner f) := by
  rw [rowsFrom, List.mem_flatMap]
  constructor
  · rintro ⟨⟨f, i⟩, hf, hrow⟩
    refine ⟨i, f, List.mem_zipIdx_iff_getElem?.mp hf, ?_⟩
    rcases List.mem_cons.mp hrow with hrow | hrow
    · cases hrow
      exact Or.inl ⟨rfl, rfl⟩
    · obtain ⟨⟨rest, g'⟩, hrest, heq⟩ := List.mem_map.mp hrow
      cases heq
      exact Or.inr ⟨rest, rfl, hrest⟩
  · rintro ⟨i, f, hf, hrow⟩
    refine ⟨(f, i), List.mem_zipIdx_iff_getElem?.mpr hf, ?_⟩
    rcases hrow with ⟨rfl, rfl⟩ | ⟨rest, rfl, hrest⟩
    · exact List.mem_cons_self
    · exact List.mem_cons_of_mem _ (List.mem_map_of_mem (f := within i) hrest)

theorem rows_nil (depth : Nat) : rows s p depth [] = [] := by
  cases depth <;> rfl

theorem fieldsIn_of_composite {type : TypeId} (hfield : f.field = .composite type)
    (hl : s.layout p type = .ok l) : fieldsIn s p f = l.fields := by
  simp only [fieldsIn, hfield, hl]

theorem fieldsIn_of_not_composite (hfield : ∀ type, f.field ≠ .composite type) :
    fieldsIn s p f = [] := by
  unfold fieldsIn
  split
  next type htype => exact absurd htype (hfield type)
  next => rfl

theorem mem_rows_fieldsIn_iff : (path, g) ∈ rows s p depth (fieldsIn s p f) ↔
    ∃ type inner, f.field = .composite type ∧ s.layout p type = .ok inner ∧
      (path, g) ∈ rows s p depth inner.fields := by
  unfold fieldsIn
  split
  next type hfield =>
    split
    next l hl =>
      constructor
      · exact fun h => ⟨type, l, hfield, hl, h⟩
      · rintro ⟨type', inner, hfield', hinner, h⟩
        cases hfield.symm.trans hfield'
        cases hl.symm.trans hinner
        exact h
    next e he =>
      rw [rows_nil]
      refine iff_of_false nofun ?_
      rintro ⟨type', inner, hfield', hinner, -⟩
      cases hfield.symm.trans hfield'
      cases he.symm.trans hinner
  next hfield =>
    rw [rows_nil]
    refine iff_of_false nofun ?_
    rintro ⟨type, -, htype, -⟩
    exact hfield type htype

theorem ne_nil_of_mem_rows (h : (path, g) ∈ rows s p depth fields) : path ≠ [] := by
  cases depth <;> obtain ⟨i, f, -, ⟨rfl, -⟩ | ⟨rest, rfl, -⟩⟩ := mem_rowsFrom_iff.mp h <;>
    exact List.cons_ne_nil _ _

/-- Each member has a row down to the depth, and nothing else has. -/
theorem mem_rows_iff :
    (path, g) ∈ rows s p depth l.fields ↔ l.MemberAt s p path g ∧ path.length ≤ depth + 1 := by
  induction depth generalizing l path with
  | zero =>
    rw [rows, mem_rowsFrom_iff]
    constructor
    · rintro ⟨i, f, hf, ⟨rfl, rfl⟩ | ⟨rest, -, hrest⟩⟩
      · exact ⟨.here hf, le_rfl⟩
      · cases hrest
    · rintro ⟨h, hlength⟩
      cases h with
      | @here _ i f hf => exact ⟨i, g, hf, Or.inl ⟨rfl, rfl⟩⟩
      | inside hf hfield hinner hrest => cases hrest <;> cases hlength <;> contradiction
  | succ depth ih =>
    rw [rows, mem_rowsFrom_iff]
    simp only [mem_rows_fieldsIn_iff, ih]
    constructor
    · rintro ⟨i, f, hf, ⟨rfl, rfl⟩ | ⟨rest, rfl, type, inner, hfield, hinner, hrest, hlength⟩⟩
      · exact ⟨.here hf, Nat.succ_le_succ (Nat.zero_le _)⟩
      · exact ⟨.inside hf hfield hinner hrest, Nat.succ_le_succ hlength⟩
    · rintro ⟨h, hlength⟩
      cases h with
      | here hf => exact ⟨_, g, hf, Or.inl ⟨rfl, rfl⟩⟩
      | inside hf hfield hinner hrest =>
        have hrest := And.intro hrest (Nat.le_of_succ_le_succ hlength)
        exact ⟨_, _, hf, Or.inr ⟨_, rfl, _, _, hfield, hinner, hrest⟩⟩

/-- The rows of a member begin with its position. -/
theorem exists_of_mem_rowsOf {i : Nat} {row : MemberRow}
    (h : row ∈ ([i], f) :: (inner f).map (within i)) : ∃ rest, row.1 = i :: rest := by
  rcases List.mem_cons.mp h with rfl | h
  · exact ⟨[], rfl⟩
  · obtain ⟨row', -, rfl⟩ := List.mem_map.mp h
    exact ⟨row'.1, rfl⟩

theorem pairwise_rowsFrom (hinner : ∀ f, (inner f).Pairwise fun a b => a.1 < b.1)
    (hne : ∀ f, ∀ row ∈ inner f, row.1 ≠ []) (start : Nat) (fields : List PlacedField) :
    (rowsFrom inner start fields).Pairwise fun a b => a.1 < b.1 := by
  have hpositions : (fields.zipIdx start).Pairwise fun a b => a.2 < b.2 := by
    rw [← List.pairwise_map, List.zipIdx_map_snd]
    exact List.pairwise_lt_range'
  rw [rowsFrom, List.pairwise_flatMap]
  constructor
  · rintro ⟨f, i⟩ -
    refine List.pairwise_cons.mpr ⟨fun row hrow => ?_, ?_⟩
    · obtain ⟨row', hrow', rfl⟩ := List.mem_map.mp hrow
      obtain ⟨j, rest, hpath⟩ := List.exists_cons_of_ne_nil (hne f row' hrow')
      refine List.cons_lt_cons_iff.mpr (Or.inr ⟨rfl, ?_⟩)
      rw [hpath]
      exact List.nil_lt_cons j rest
    · refine List.pairwise_map.mpr ((hinner f).imp fun h => ?_)
      exact List.cons_lt_cons_iff.mpr (Or.inr ⟨rfl, h⟩)
  · refine hpositions.imp fun {a b} hlt row hrow row' hrow' => ?_
    obtain ⟨rest, hrest⟩ := exists_of_mem_rowsOf hrow
    obtain ⟨rest', hrest'⟩ := exists_of_mem_rowsOf hrow'
    rw [hrest, hrest']
    exact List.cons_lt_cons_iff.mpr (Or.inl hlt)

/-- The rows are in the order of their paths. -/
theorem pairwise_rows (depth : Nat) (fields : List PlacedField) :
    (rows s p depth fields).Pairwise fun a b => a.1 < b.1 := by
  induction depth generalizing fields with
  | zero => exact pairwise_rowsFrom (fun _ => .nil) (fun _ _ => nofun) 0 fields
  | succ depth ih =>
    exact pairwise_rowsFrom (fun f => ih _) (fun f row hrow => ne_nil_of_mem_rows hrow) 0 fields

end MemberRow

/-! ### Lines -/

/-- A line for a member on a level: a header for a composite that is expanded, and else the name
with any content behind it. -/
inductive IsLine (s : Schema) (level : Nat) (f : PlacedField) : String → Prop
  | header {type : TypeId} (hfield : f.field = .composite type) (hlevel : level < listingDepth) :
      IsLine s level f (indent level ++ f.name ++ ": " ++ s.name type)
  | content (hfield : ∀ type, f.field = .composite type → listingDepth ≤ level)
      (content : String) : IsLine s level f (indent level ++ f.name ++ " = " ++ content)

/-- The lines have the same indentation and name, and both are headers or both are not. -/
def SameShape (line line' : String) : Prop :=
  ∃ level name,
    (∃ type, line = indent level ++ name ++ ": " ++ type ∧
      line' = indent level ++ name ++ ": " ++ type) ∨
    ∃ content content', line = indent level ++ name ++ " = " ++ content ∧
      line' = indent level ++ name ++ " = " ++ content'

theorem IsLine.sameShape {s : Schema} {level : Nat} {f : PlacedField} {line line' : String}
    (h : IsLine s level f line) (h' : IsLine s level f line') : SameShape line line' := by
  cases h with
  | header hfield hlevel =>
    cases h' with
    | header hfield' =>
      cases hfield.symm.trans hfield'
      exact ⟨level, f.name, Or.inl ⟨_, rfl, rfl⟩⟩
    | content hfield' => exact absurd hlevel (Nat.not_lt.mpr (hfield' _ hfield))
  | content hfield content =>
    cases h' with
    | header hfield' hlevel => exact absurd hlevel (Nat.not_lt.mpr (hfield _ hfield'))
    | content _ content' => exact ⟨level, f.name, Or.inr ⟨content, content', rfl, rfl⟩⟩

/-- Lines for the same rows have the same shape, one by one. -/
theorem forall₂_sameShape {s : Schema} {level : MemberRow → Nat} {rows : List MemberRow}
    {lines lines' : List String}
    (h : List.Forall₂ (fun row line => IsLine s (level row) row.2 line) rows lines)
    (h' : List.Forall₂ (fun row line => IsLine s (level row) row.2 line) rows lines') :
    List.Forall₂ SameShape lines lines' := by
  induction h generalizing lines' with
  | nil =>
    cases h'
    exact .nil
  | cons hline _ ih =>
    cases h' with
    | cons hline' h' => exact .cons (hline.sameShape hline') (ih h')

/-- The parts of a type with a layout have layouts. -/
theorem Schema.LaysOut.exists_inner {s : Schema} {p : Platform} {id type : TypeId} {l : Layout}
    {f : PlacedField} (h : s.LaysOut p id l) (hf : f ∈ l.fields)
    (hfield : f.field = .composite type) : ∃ inner, s.layout p type = .ok inner := by
  have hmembers := h.members_eq
  cases h with
  | intro known hd hms hparts =>
    cases hms.symm.trans hmembers
    have hm : (f.name, f.field) ∈ l.members := List.mem_map_of_mem hf
    rw [hfield] at hm
    exact ⟨_, layout_eq_ok_iff.mpr (hparts _ hm type rfl)⟩

variable {σ : Type} {m : Space σ}

/-- Every value is shown, also a pointer that can not be read. -/
theorem Value.exists_display (v : Value) (st : σ) : ∃ text t, (v.display m).Yields st text t := by
  cases v with
  | pointer slot =>
    rcases yields_or_fails (slot.targetAddress m) st with ⟨target, t, h⟩ | ⟨t, e, h⟩
    · exact ⟨_, t, (yields_attempt.mpr h).bind_iff.mpr (yields_pure.mpr ⟨rfl, rfl⟩)⟩
    · exact ⟨_, t, (yields_attempt.mpr h).bind_iff.mpr (yields_pure.mpr ⟨rfl, rfl⟩)⟩
  | _ => exact ⟨_, st, rfl⟩

/-- Only a composite field is read as a composite. -/
theorem Field.not_composite_of_read {field : Field} (hfield : ∀ type, field ≠ .composite type)
    {a : Address} {order : ByteOrder} {st t : σ} {view : CompositeView} :
    ¬ (field.read m a order).Yields st (.composite view) t := by
  intro h
  cases field with
  | composite type => exact hfield type rfl
  | scalar kind =>
    rw [Field.read, ScalarKind.read_eq] at h
    obtain ⟨bytes, -, hvalue⟩ := yields_map.mp h
    have hscalar := isScalar_decode kind m.platform order bytes
    rw [hvalue] at hscalar
    cases hscalar
  | string abi =>
    obtain ⟨text, -, hvalue⟩ := yields_map.mp h
    cases hvalue
  | _ => cases h

namespace CompositeView

open MemberRow

variable {c : CompositeView} {level depth : Nat} {st : σ}

/-- What a listing does for one member. -/
def fieldLines (m : Space σ) (expand : CompositeView → Option (Access σ (List String)))
    (level : Nat) (c : CompositeView) (f : PlacedField) : Access σ (List String) := do
  let lead := indent level ++ f.name
  match ← attempt (c.readField m f) with
  | .error e => return [lead ++ " = <" ++ e.message ++ ">"]
  | .ok (.composite nested) =>
    match expand nested with
    | none => return [lead ++ " = " ++ (← (Value.composite nested).display m)]
    | some inner => return (lead ++ ": " ++ nested.layout.name) :: (← inner)
  | .ok value => return [lead ++ " = " ++ (← value.display m)]

theorem linesAt_zero : linesAt m 0 level c =
    c.layout.fields.mapM (fieldLines m (fun _ => none) level c) >>= fun lines =>
      pure lines.flatten := by
  rw [linesAt]
  rfl

theorem linesAt_succ : linesAt m (depth + 1) level c =
    c.layout.fields.mapM
      (fieldLines m (fun nested => some (linesAt m depth (level + 1) nested)) level c) >>=
        fun lines => pure lines.flatten := by
  rw [linesAt]
  rfl

variable {expand : CompositeView → Option (Access σ (List String))} {f : PlacedField}

/-- A member that is no composite has one line, whether it can be read or not. -/
theorem exists_line_of_not_composite (hfield : ∀ type, f.field ≠ .composite type) (st : σ) :
    ∃ content t,
      (fieldLines m expand level c f).Yields st [indent level ++ f.name ++ " = " ++ content] t := by
  rcases yields_or_fails (c.readField m f) st with ⟨value, t, hread⟩ | ⟨t, e, hread⟩
  · obtain ⟨text, u, htext⟩ := Value.exists_display (m := m) value t
    refine ⟨text, u, (yields_attempt.mpr hread).bind_iff.mpr ?_⟩
    cases value with
    | composite view => exact absurd hread (Field.not_composite_of_read hfield)
    | _ => exact yields_bind.mpr ⟨text, u, htext, yields_pure.mpr ⟨rfl, rfl⟩⟩
  · refine ⟨"<" ++ e.message ++ ">", t, (yields_attempt.mpr hread).bind_iff.mpr ?_⟩
    refine yields_pure.mpr ⟨congrArg (fun line => [line]) ?_, rfl⟩
    have hmark : (" = <" : String) = " = " ++ "<" := rfl
    rw [hmark]
    simp only [String.append_assoc]

/-- A composite is read as a view of it, without a look at the memory. -/
theorem readField_composite {type : TypeId} {inner : Layout} (hfield : f.field = .composite type)
    (hinner : m.layout type = .ok inner) (st : σ) :
    ∃ nested : CompositeView, nested.layout = inner ∧
      (c.readField m f).Yields st (.composite nested) st := by
  refine ⟨⟨(c.address.move f.offset).move (-inner.start), inner, c.order⟩, rfl, ?_⟩
  rw [readField, hfield]
  exact read_composite_yields_iff.mpr ⟨inner, hinner, rfl, rfl⟩

/-- A composite that is not expanded has one line. -/
theorem exists_line_of_composite {type : TypeId} {inner : Layout}
    (hfield : f.field = .composite type) (hinner : m.layout type = .ok inner) (st : σ) :
    ∃ content t, (fieldLines m (fun _ => none) level c f).Yields st
      [indent level ++ f.name ++ " = " ++ content] t := by
  obtain ⟨nested, -, hread⟩ := readField_composite (c := c) hfield hinner st
  obtain ⟨text, t, htext⟩ := Value.exists_display (m := m) (.composite nested) st
  refine ⟨text, t, (yields_attempt.mpr hread).bind_iff.mpr ?_⟩
  exact yields_bind.mpr ⟨text, t, htext, yields_pure.mpr ⟨rfl, rfl⟩⟩

/-- A composite that is expanded has its header, and behind it the lines of its members. -/
theorem fieldLines_yields_of_expanded {nested : CompositeView}
    {linesOf : CompositeView → Access σ (List String)} {below : List String} {t : σ}
    (hread : (c.readField m f).Yields st (.composite nested) st)
    (hlines : (linesOf nested).Yields st below t) :
    (fieldLines m (fun nested => some (linesOf nested)) level c f).Yields st
      ((indent level ++ f.name ++ ": " ++ nested.layout.name) :: below) t := by
  refine (yields_attempt.mpr hread).bind_iff.mpr ?_
  exact yields_bind.mpr ⟨below, t, hlines, yields_pure.mpr ⟨rfl, rfl⟩⟩

/-- Where each member has lines for its rows, one after the other they are lines for all rows. -/
theorem exists_lines_mapM {R : MemberRow → String → Prop} {inner : PlacedField → List MemberRow}
    {linesOf : PlacedField → Access σ (List String)} {fields : List PlacedField}
    (hlines : ∀ f ∈ fields, ∀ i st, ∃ lines t, (linesOf f).Yields st lines t ∧
      List.Forall₂ R (([i], f) :: (inner f).map (within i)) lines) (start : Nat) (st : σ) :
    ∃ lines t, (fields.mapM linesOf >>= fun lines => pure lines.flatten).Yields st lines t ∧
      List.Forall₂ R (rowsFrom inner start fields) lines := by
  induction fields generalizing start st with
  | nil => exact ⟨[], st, rfl, .nil⟩
  | cons f fields ih =>
    obtain ⟨first, t, hfirst, hrows⟩ := hlines f List.mem_cons_self start st
    obtain ⟨rest, u, hrest, hrestRows⟩ :=
      ih (fun g hg => hlines g (List.mem_cons_of_mem f hg)) (start + 1) t
    obtain ⟨parts, u', hparts, hflatten⟩ := yields_bind.mp hrest
    obtain ⟨rfl, rfl⟩ := yields_pure.mp hflatten
    refine ⟨first ++ parts.flatten, u', ?_, ?_⟩
    · rw [List.mapM_cons]
      refine yields_bind.mpr ⟨first :: parts, u', ?_, yields_pure.mpr ⟨rfl, rfl⟩⟩
      exact hfirst.bind_iff.mpr (hparts.bind_iff.mpr (yields_pure.mpr ⟨rfl, rfl⟩))
    · rw [rowsFrom, List.zipIdx_cons, List.flatMap_cons]
      exact List.rel_append hrows hrestRows

/-- A composite with `level` others around it has a line for each row of its members. -/
theorem exists_linesAt {id : TypeId} (hdepth : level + depth + 1 = listingDepth)
    (hl : m.layout id = .ok c.layout) (st : σ) :
    ∃ lines t, (linesAt m depth (level + 1) c).Yields st lines t ∧
      List.Forall₂ (fun row line => IsLine m.schema (level + row.1.length) row.2 line)
        (rows m.schema m.platform depth c.layout.fields) lines := by
  induction depth generalizing id level c st with
  | zero =>
    rw [linesAt_zero]
    refine exists_lines_mapM (fun f hf i st => ?_) 0 st
    have hone : ∃ content t, (fieldLines m (fun _ => none) (level + 1) c f).Yields st
        [indent (level + 1) ++ f.name ++ " = " ++ content] t := by
      by_cases hfield : ∃ type, f.field = .composite type
      · obtain ⟨type, hfield⟩ := hfield
        obtain ⟨inner, hinner⟩ := (Schema.layout_eq_ok_iff.mp hl).exists_inner hf hfield
        exact exists_line_of_composite hfield hinner st
      · exact exists_line_of_not_composite (not_exists.mp hfield) st
    obtain ⟨content, t, hyields⟩ := hone
    exact ⟨_, t, hyields, .cons (.content (fun _ _ => hdepth.ge) content) .nil⟩
  | succ depth ih =>
    rw [linesAt_succ]
    refine exists_lines_mapM (fun f hf i st => ?_) 0 st
    by_cases hfield : ∃ type, f.field = .composite type
    · obtain ⟨type, hfield⟩ := hfield
      obtain ⟨inner, hinner⟩ := (Schema.layout_eq_ok_iff.mp hl).exists_inner hf hfield
      obtain ⟨nested, rfl, hread⟩ := readField_composite (c := c) hfield hinner st
      have hdepth' : level + 1 + depth + 1 = listingDepth := by omega
      obtain ⟨below, t, hyields, hbelow⟩ := ih hdepth' hinner st
      have hlevel : level + 1 < listingDepth := by omega
      refine ⟨_, t, fieldLines_yields_of_expanded hread hyields, .cons ?_ ?_⟩
      · rw [(Schema.layout_eq_ok_iff.mp hinner).name_eq]
        exact .header hfield hlevel
      · rw [fieldsIn_of_composite hfield hinner, List.forall₂_map_left_iff]
        refine hbelow.imp fun row line hline => ?_
        rwa [Nat.add_right_comm, Nat.add_assoc] at hline
    · have hfield := not_exists.mp hfield
      obtain ⟨content, t, hyields⟩ := exists_line_of_not_composite (m := m) (c := c) hfield st
      rw [fieldsIn_of_not_composite hfield, rows_nil]
      exact ⟨_, t, hyields, .cons (.content (fun type h => absurd h (hfield type)) content) .nil⟩

/-- A listing has a line for each row, whatever is in the memory. -/
theorem exists_listing {id : TypeId} (hl : m.layout id = .ok c.layout) (st : σ) :
    ∃ lines t, (c.listing m).Yields st lines t ∧
      List.Forall₂ (fun row line => IsLine m.schema row.1.length row.2 line)
        (rows m.schema m.platform (listingDepth - 1) c.layout.fields) lines := by
  have hdepth : 0 + (listingDepth - 1) + 1 = listingDepth := rfl
  obtain ⟨lines, t, hyields, hlines⟩ := exists_linesAt hdepth hl st
  refine ⟨lines, t, hyields, hlines.imp fun row line hline => ?_⟩
  rwa [Nat.zero_add] at hline

/-- The listings of a type in two memories have one line for each path of up to four members.  The
lines are in the order of the paths, and what the memories hold shows only behind the names. -/
theorem listing_shape {σ σ' : Type} (m : Space σ) (m' : Space σ') (hschema : m'.schema = m.schema)
    (hplatform : m'.platform = m.platform) {id : TypeId} {l : Layout} (hl : m.layout id = .ok l) :
    ∃ rows : List MemberRow,
      rows.Pairwise (fun row row' => row.1 < row'.1) ∧
      (∀ path f, (path, f) ∈ rows ↔
        l.MemberAt m.schema m.platform path f ∧ path.length ≤ listingDepth) ∧
      ∀ (a a' : Address) (order order' : ByteOrder) (st : σ) (st' : σ'), ∃ lines lines' t t',
        (listing m ⟨a, l, order⟩).Yields st lines t ∧
        (listing m' ⟨a', l, order'⟩).Yields st' lines' t' ∧
        List.Forall₂ (fun row line => IsLine m.schema row.1.length row.2 line) rows lines ∧
        List.Forall₂ (fun row line => IsLine m.schema row.1.length row.2 line) rows lines' ∧
        lines.length = lines'.length ∧ List.Forall₂ SameShape lines lines' := by
  refine ⟨rows m.schema m.platform (listingDepth - 1) l.fields, pairwise_rows _ _,
    fun path f => mem_rows_iff, fun a a' order order' st st' => ?_⟩
  have hl' : m'.layout id = .ok l := by
    rw [Space.layout, hschema, hplatform]
    exact hl
  obtain ⟨lines, t, hyields, hlines⟩ := exists_listing (c := ⟨a, l, order⟩) hl st
  obtain ⟨lines', t', hyields', hlines'⟩ := exists_listing (c := ⟨a', l, order'⟩) hl' st'
  rw [hschema, hplatform] at hlines'
  have hsame := forall₂_sameShape hlines hlines'
  exact ⟨lines, lines', t, t', hyields, hyields', hlines, hlines', hsame.length_eq, hsame⟩

/-- The layout of a rectangle. -/
def rectLayout : Layout :=
  { name := "CCRect", kind := .struct, platform := .host, size := 16, alignment := 4, start := 0
    fields := [⟨"origin", .composite (.builtin .point), 0, 8, 4⟩,
      ⟨"size", .composite (.builtin .extent), 8, 8, 4⟩] }

/-- A rectangle in a buffer that holds it, and one apart from all that a buffer holds. -/
theorem listing_shape_rect :
    let m := Buffer.space .host .empty
    m.layout (.builtin .rect) = .ok rectLayout ∧ ∃ lines lines' t t',
      (listing m ⟨4096, rectLayout, .native⟩).Yields (Buffer.zeroed 4096 16) lines t ∧
      (listing m ⟨65536, rectLayout, .native⟩).Yields (Buffer.zeroed 8192 4) lines' t' ∧
      lines.length = lines'.length ∧ List.Forall₂ SameShape lines lines' := by
  intro m
  have hl : m.layout (.builtin .rect) = .ok rectLayout := by decide +kernel
  obtain ⟨rows, -, -, hlistings⟩ := listing_shape m m rfl rfl hl
  obtain ⟨lines, lines', t, t', hyields, hyields', -, -, hlength, hsame⟩ := hlistings 4096 65536
    .native .native (Buffer.zeroed 4096 16) (Buffer.zeroed 8192 4)
  exact ⟨hl, lines, lines', t, t', hyields, hyields', hlength, hsame⟩

/-- Each member of a rectangle stands before the two in it. -/
example : (rows .empty .host (listingDepth - 1) rectLayout.fields).map Prod.fst =
    [[0], [0, 0], [0, 1], [1], [1, 0], [1, 1]] := by
  decide +kernel

end CompositeView

end TypedMemory
