import TypedMemory.Proofs.Layout.Placement
import TypedMemory.Proofs.Layout.Recall
import TypedMemory.Proofs.Schema

/-!
# Layouts stay

A schema enters a layout by the types that it defines, and beside that only the
wording of failures.  So what is laid out in a schema has the same layout in every
extension (`LaysOut.mono`), and a sound table stays sound (`TableSound.mono`).
-/

namespace TypedMemory

section Placement

variable {s : Schema} (s' : Schema) {type : String} {packed : Bool} {ms : List MeasuredMember}

theorem placeForward_mono {cursor : Nat} {placed : List Int × Nat}
    (h : placeForward s type packed cursor ms = .ok placed) :
    placeForward s' type packed cursor ms = .ok placed := by
  induction ms generalizing cursor placed with
  | nil => exact h
  | cons m rest ih =>
    obtain ⟨hsize, offset, more, hround, hfits, hmore, hplaced⟩ := placeForward_cons_eq_ok_iff.mp h
    exact placeForward_cons_eq_ok_iff.mpr
      ⟨hsize, offset, more, hround, hfits, ih hmore, hplaced⟩

theorem greatestSize_mono {size : Nat} (h : greatestSize s type ms = .ok size) :
    greatestSize s' type ms = .ok size := by
  induction ms generalizing size with
  | nil => exact h
  | cons m rest ih =>
    rw [greatestSize] at h ⊢
    cases hm : m.size with
    | none =>
      rw [hm] at h
      cases h
    | some known =>
      simp only [hm] at h ⊢
      obtain ⟨greatest, hrest, rfl⟩ := map_eq_ok_iff.mp h
      rw [ih hrest]
      rfl

theorem structPlacement_mono {origin : Option String} {placement : Placement}
    (h : structPlacement s type ms packed origin = .ok placement) :
    structPlacement s' type ms packed origin = .ok placement := by
  unfold structPlacement at h ⊢
  obtain ⟨index, hindex, h⟩ := bind_eq_ok_iff.mp h
  obtain ⟨below, hbelow, h⟩ := bind_eq_ok_iff.mp h
  obtain ⟨above, habove, h⟩ := bind_eq_ok_iff.mp h
  exact bind_eq_ok_iff.mpr ⟨index, hindex, bind_eq_ok_iff.mpr ⟨below, hbelow,
    bind_eq_ok_iff.mpr ⟨above, placeForward_mono s' habove, h⟩⟩⟩

theorem unionPlacement_mono {placement : Placement}
    (h : unionPlacement s type ms packed = .ok placement) :
    unionPlacement s' type ms packed = .ok placement := by
  unfold unionPlacement at h ⊢
  obtain ⟨size, hsize, h⟩ := bind_eq_ok_iff.mp h
  exact bind_eq_ok_iff.mpr ⟨size, greatestSize_mono s' hsize, h⟩

theorem place_mono {p : Platform} {kind : TypeKind} {d : Definition} {l : Layout}
    (h : place s p type kind d ms = .ok l) : place s' p type kind d ms = .ok l := by
  cases kind with
  | struct =>
    rw [place_struct] at h ⊢
    obtain ⟨placement, hplacement, rfl⟩ := map_eq_ok_iff.mp h
    rw [structPlacement_mono s' hplacement]
    rfl
  | union =>
    cases horigin : d.origin with
    | some origin =>
      rw [place_union_of_origin horigin] at h
      cases h
    | none =>
      rw [place_union horigin] at h ⊢
      obtain ⟨placement, hplacement, rfl⟩ := map_eq_ok_iff.mp h
      rw [unionPlacement_mono s' hplacement]
      rfl

end Placement

namespace Schema

variable {s s' : Schema} {p : Platform} {id : TypeId} {l : Layout}

theorem LaysOut.mono (h : LaysOut s p id l) (hext : Extends s s') : LaysOut s' p id l := by
  induction h with
  | @intro id d ms measured l known hd hms hparts hmeasured hplace ih =>
    have hmeasured' : ms.mapM (measure s' p fun part => .ok (known part)) = .ok measured :=
      mapM_mono (fun m hm needs hneeds => measure_mono hneeds) hmeasured
    refine LaysOut.intro known (hext.definition hd) (hext.members hms) ih hmeasured' ?_
    rw [hext.name hd, hext.kind hd]
    exact place_mono s' hplace

/-- A layout stays, whatever is declared and defined. -/
theorem layout_mono (h : s.layout p id = .ok l) (hext : Extends s s') :
    s'.layout p id = .ok l :=
  layout_eq_ok_iff.mpr ((layout_eq_ok_iff.mp h).mono hext)

theorem TableSound.mono {table : LayoutTable} (h : TableSound s table) (hext : Extends s s') :
    TableSound s' table :=
  fun id q l hlookup => (h id q l hlookup).mono hext

end Schema

end TypedMemory
