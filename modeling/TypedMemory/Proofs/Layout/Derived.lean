import TypedMemory.Proofs.Layout.Alignment
import TypedMemory.View.Access

/-!
# Derived structs

The layout of a base is not used again for a struct that is derived from it: all members
are put together and placed anew.  Yet the members of the base come first and find the
same places, so the layout of the derived struct extends that of the base
(`Layout.Extends`), if the struct only adds members (`Schema.AddsTo`).

The padding at the end of the base is no part of this.  Its members are followed by
those of the derived struct wherever these fit, so the layouts agree on the members and
not on the bytes behind them.

* `AddsTo.exists_layout`: one step, from a struct to its base;
* `reads_as_base`: a chain of bases, and what is read through the views.
-/

namespace TypedMemory

/-! ### Members in front -/

variable {packed : Bool} {cursor : Nat} {ms first more : List MeasuredMember} {type other : String}
  {p : Platform}

/-- The size of a struct with its members at the tight offsets. -/
def tightSize (packed : Bool) (ms : List MeasuredMember) : Nat :=
  roundUp (lastEnd 0 ms (tightOffsets packed 0 ms)) (commonAlignment packed ms)

/-- Members behind the first ones start from the end of those. -/
theorem tightOffsets_append (packed : Bool) (cursor : Nat) (first more : List MeasuredMember) :
    tightOffsets packed cursor (first ++ more) = tightOffsets packed cursor first ++
      tightOffsets packed (lastEnd cursor first (tightOffsets packed cursor first)) more := by
  induction first generalizing cursor with
  | nil => rfl
  | cons m rest ih =>
    show _ :: tightOffsets packed _ (rest ++ more) = _
    rw [ih]
    rfl

theorem lastEnd_append (packed : Bool) (cursor : Nat) (first more : List MeasuredMember) :
    lastEnd cursor (first ++ more) (tightOffsets packed cursor (first ++ more)) =
      lastEnd (lastEnd cursor first (tightOffsets packed cursor first)) more
        (tightOffsets packed (lastEnd cursor first (tightOffsets packed cursor first)) more) := by
  induction first generalizing cursor with
  | nil => rfl
  | cons m rest ih => exact ih _

theorem memberEnds_append {offsets others : List Nat} (h : first.length = offsets.length) :
    memberEnds (first ++ more) (offsets ++ others) =
      memberEnds first offsets ++ memberEnds more others :=
  List.zipWith_append h

theorem roundUp_mono {value value' alignment alignment' : Nat} (hle : value ≤ value')
    (hdvd : max 1 alignment ∣ max 1 alignment') :
    roundUp value alignment ≤ roundUp value' alignment' := by
  apply (isLeast_roundUp value alignment).2
  exact ⟨hdvd.trans (dvd_roundUp value' alignment'), hle.trans (le_roundUp value' alignment')⟩

theorem commonAlignment_le_of_subset (packed : Bool) (h : first ⊆ ms) :
    commonAlignment packed first ≤ commonAlignment packed ms := by
  apply (isGreatest_commonAlignment packed ms).2
  rcases (isGreatest_commonAlignment packed first).1 with hone | ⟨m, hm, halignment⟩
  · exact Or.inl hone
  · exact Or.inr ⟨m, h hm, halignment⟩

/-- Alignments are powers of two, so an alignment divides each greater one. -/
theorem commonAlignment_dvd_of_subset (packed : Bool) (h : first ⊆ ms)
    (hpower : ∀ m ∈ ms, (max 1 m.alignment).isPowerOfTwo) :
    commonAlignment packed first ∣ commonAlignment packed ms :=
  dvd_of_isPowerOfTwo (isPowerOfTwo_commonAlignment fun m hm => hpower m (h hm))
    (isPowerOfTwo_commonAlignment hpower) (commonAlignment_le_of_subset packed h)

section

variable (hdvd : commonAlignment packed first ∣ commonAlignment packed (first ++ more))

include hdvd

theorem tightSize_le_append : tightSize packed first ≤ tightSize packed (first ++ more) := by
  have hpos : ∀ ms, 1 ≤ commonAlignment packed ms :=
    fun ms => (isGreatest_commonAlignment packed ms).2 (Or.inl rfl)
  apply roundUp_mono
  · rw [lastEnd_append]
    exact (bounds_tightOffsets packed _ more).1
  · rwa [max_eq_right (hpos first), max_eq_right (hpos (first ++ more))]

/-- Members that have a place together with more members have one without these. -/
theorem withinLimits_of_append
    (h : WithinLimits (first ++ more) (tightOffsets packed 0 (first ++ more))
      (tightSize packed (first ++ more))) :
    WithinLimits first (tightOffsets packed 0 first) (tightSize packed first) := by
  obtain ⟨hoffsets, hends, hsize⟩ := h
  rw [tightOffsets_append] at hoffsets hends
  rw [memberEnds_append (length_tightOffsets _ _ _).symm] at hends
  refine ⟨fun x hx => ?_, fun x hx => ?_, ?_⟩
  · exact hoffsets x (List.mem_append_left _ hx)
  · exact hends x (List.mem_append_left _ hx)
  · exact (tightSize_le_append hdvd).trans_lt hsize

end

/-! ### Layouts that extend others -/

namespace Layout

/-- The layout `l'` has the fields of `l` first, and has them at the same places. -/
structure Extends (l l' : Layout) : Prop where
  fields_prefix : l.fields <+: l'.fields
  start_eq : l'.start = l.start
  size_le : l.size ≤ l'.size
  alignment_le : l.alignment ≤ l'.alignment
  alignment_dvd : l.alignment ∣ l'.alignment

theorem Extends.trans {l l' l'' : Layout} (h : l.Extends l') (h' : l'.Extends l'') :
    l.Extends l'' where
  fields_prefix := h.fields_prefix.trans h'.fields_prefix
  start_eq := h'.start_eq.trans h.start_eq
  size_le := h.size_le.trans h'.size_le
  alignment_le := h.alignment_le.trans h'.alignment_le
  alignment_dvd := h.alignment_dvd.trans h'.alignment_dvd

end Layout

theorem extends_structLayout
    (hdvd : commonAlignment packed first ∣ commonAlignment packed (first ++ more)) :
    (structLayout type p first (tightOffsets packed 0 first) (commonAlignment packed first)
      (tightSize packed first)).Extends
    (structLayout other p (first ++ more) (tightOffsets packed 0 (first ++ more))
      (commonAlignment packed (first ++ more)) (tightSize packed (first ++ more))) where
  fields_prefix := by
    unfold structLayout
    rw [tightOffsets_append, List.zip_append (length_tightOffsets _ _ _).symm, List.map_append]
    exact List.prefix_append _ _
  start_eq := rfl
  size_le := tightSize_le_append hdvd
  alignment_le := commonAlignment_le_of_subset packed (List.subset_append_left first more)
  alignment_dvd := hdvd

/-! ### Bases -/

namespace Schema

variable {s : Schema} {id base : TypeId} {l l' : Layout}

/-- The struct `id` only adds members to those of its base: it declares none of them
again, and no pointer to a table of functions comes before them. -/
inductive AddsTo (s : Schema) (id base : TypeId) : Prop
  | intro {d b : Definition} {inherited : List Member} (hd : s.definition id = .ok d)
      (hb : s.definition base = .ok b) (hms : s.members base = .ok inherited)
      (hbase : d.base = some base) (hkind : s.kind id = .struct) (hkind' : s.kind base = .struct)
      (hpacked : d.isPacked = b.isPacked) (horigin : d.origin = none) (horigin' : b.origin = none)
      (hnames : ∀ m ∈ d.fields, m.1 ∉ memberNames inherited)
      (hvtable : d.hasVtable = true → vtableName ∈ memberNames inherited)

/-- With the struct its base has a layout too, and the struct extends it. -/
theorem AddsTo.exists_layout (h : AddsTo s id base) (hl : LaysOut s p id l) :
    ∃ l', LaysOut s p base l' ∧ l'.Extends l := by
  obtain ⟨d, ms, measured, hd, hms, hmeasured, hplace⟩ := hl.exists_place
  cases h with
  | @intro d' b inherited hd' hb hinherited hbase hkind hkind' hpacked horigin horigin' hnames
      hvtable =>
    cases hd'.symm.trans hd
    rw [members_of_base hms hd hbase hinherited hnames hvtable] at hmeasured
    have hpower := fun m => isPowerOfTwo_of_measured (m := m) hmeasured
    rw [List.mapM_append] at hmeasured
    obtain ⟨first, hfirst, hmeasured⟩ := bind_eq_ok_iff.mp hmeasured
    obtain ⟨more, hmore, hmeasured⟩ := bind_eq_ok_iff.mp hmeasured
    cases hmeasured
    have hdvd : commonAlignment d.isPacked first ∣ commonAlignment d.isPacked (first ++ more) :=
      commonAlignment_dvd_of_subset d.isPacked (List.subset_append_left first more) hpower
    rw [hkind] at hplace
    obtain ⟨hsized, hlimits, rfl⟩ := eq_structLayout_of_place horigin hplace
    have hsized' : ∀ m ∈ first.dropLast, m.size.isSome := by
      intro m hm
      cases more with
      | nil => exact hsized m (by rwa [List.append_nil])
      | cons next rest =>
        apply hsized m
        rw [List.dropLast_append_of_ne_nil (List.cons_ne_nil next rest)]
        exact List.mem_append_left _ (List.dropLast_subset first hm)
    have hplace' : s.layout p base = .ok (structLayout (s.name base) p first
        (tightOffsets d.isPacked 0 first) (commonAlignment d.isPacked first)
        (tightSize d.isPacked first)) := by
      rw [layout_eq_place hb hinherited hfirst, hkind', place_struct_eq horigin' hsized', ← hpacked]
      exact if_pos (withinLimits_of_append hdvd hlimits)
    exact ⟨_, layout_eq_ok_iff.mp hplace', extends_structLayout hdvd⟩

theorem exists_layout_of_bases (h : Relation.TransGen (AddsTo s) id base)
    (hl : LaysOut s p id l) : ∃ l', LaysOut s p base l' ∧ l'.Extends l := by
  induction h with
  | single hstep => exact hstep.exists_layout hl
  | tail _ hstep ih =>
    obtain ⟨middle, hmiddle, hextends⟩ := ih
    obtain ⟨l', hl', hextends'⟩ := hstep.exists_layout hmiddle
    exact ⟨l', hl', hextends'.trans hextends⟩

/-- A field of the base is found in both layouts. -/
theorem LaysOut.find_of_extends (hl : LaysOut s p id l) (hl' : LaysOut s p base l')
    (h : l'.Extends l) {f : PlacedField} (hf : f ∈ l'.fields) : l.find f.name = l'.find f.name := by
  rw [hl'.find_of_mem hf, hl.find_of_mem (h.fields_prefix.subset hf)]

/-- A struct with a layout extends those of all its bases, as long as members are only
added.  So a member of a base is at the same address in both, and is read alike. -/
theorem reads_as_base (h : Relation.TransGen (AddsTo s) id base) (hl : s.layout p id = .ok l) :
    ∃ l', s.layout p base = .ok l' ∧ l'.Extends l ∧
      ∀ {σ : Type} (m : Space σ) (a : Address) (order : ByteOrder), ∀ f ∈ l'.fields,
        (CompositeView.mk a l order).addressOf f.name =
            (CompositeView.mk a l' order).addressOf f.name ∧
          (CompositeView.mk a l order).get m f.name =
            (CompositeView.mk a l' order).get m f.name := by
  have hderived := layout_eq_ok_iff.mp hl
  obtain ⟨l', hl', hextends⟩ := exists_layout_of_bases h hderived
  refine ⟨l', layout_eq_ok_iff.mpr hl', hextends, ?_⟩
  intro σ m a order f hf
  have hfind := hderived.find_of_extends hl' hextends hf
  constructor
  · show (l.find f.name).map _ = (l'.find f.name).map _
    rw [hfind]
  · show liftM (l.find f.name) >>= _ = liftM (l'.find f.name) >>= _
    rw [hfind]
    rfl

/-- A struct with a pointer to functions and padding at its end, one that adds a byte in
this padding, and one that adds a number to the second. -/
def shapeSchema : Schema :=
  { declared := [
      ⟨"Shape", .struct, some
        { fields := [("id", .scalar .u32), ("tag", .scalar .u8)], hasVtable := true }⟩,
      ⟨"Filled", .struct, some
        { base := some (.declared 0), fields := [("color", .scalar .u8)], hasVtable := true }⟩,
      ⟨"Circle", .struct, some
        { base := some (.declared 1), fields := [("radius", .scalar .double)] }⟩] }

theorem reads_as_base_circle :
    ∃ l l', shapeSchema.layout .host (.declared 2) = .ok l ∧
      shapeSchema.layout .host (.declared 0) = .ok l' ∧ l'.Extends l ∧ l'.size = 16 ∧
      l.fields.map (·.offset) = [0, 8, 12, 13, 16] ∧
      ∀ {σ : Type} (m : Space σ) (a : Address), ∀ f ∈ l'.fields,
        (CompositeView.mk a l .native).get m f.name =
          (CompositeView.mk a l' .native).get m f.name := by
  have hshape : shapeSchema.members (.declared 0) = .ok [(vtableName, .pointer .void),
      ("id", .scalar .u32), ("tag", .scalar .u8)] := by
    decide +kernel
  have hfilled : shapeSchema.members (.declared 1) = .ok [(vtableName, .pointer .void),
      ("id", .scalar .u32), ("tag", .scalar .u8), ("color", .scalar .u8)] := by
    decide +kernel
  have hfirst : AddsTo shapeSchema (.declared 1) (.declared 0) :=
    .intro rfl rfl hshape rfl rfl rfl rfl rfl rfl (by decide) (by decide)
  have hsecond : AddsTo shapeSchema (.declared 2) (.declared 1) :=
    .intro rfl rfl hfilled rfl rfl rfl rfl rfl rfl (by decide) nofun
  have hoffsets : (shapeSchema.layout .host (.declared 2)).map (·.fields.map (·.offset)) =
      .ok [0, 8, 12, 13, 16] := by
    decide +kernel
  have hsize : (shapeSchema.layout .host (.declared 0)).map (·.size) = .ok 16 := by
    decide +kernel
  obtain ⟨l, hl, hoffsets⟩ := map_eq_ok_iff.mp hoffsets
  obtain ⟨shape, hshape, hsize⟩ := map_eq_ok_iff.mp hsize
  obtain ⟨l', hl', hextends, hreads⟩ := reads_as_base (.tail (.single hsecond) hfirst) hl
  cases hshape.symm.trans hl'
  exact ⟨l, shape, hl, hl', hextends, hsize, hoffsets, fun m a f hf => (hreads m a .native f hf).2⟩

end Schema

end TypedMemory
