import TypedMemory.Layout.Resolve
import TypedMemory.Proofs.Results
import TypedMemory.Proofs.Rounding

/-!
# Placements, step by step

What `placeForward` does with a member that has a size or is the last one
(`placeForward_cons`), and that no other member is placed
(`isSome_size_of_placeForward`).  Members are placed where the first one and the others
are (`placeForward_cons_eq_ok_iff`, `placeBackward_cons_eq_ok_iff`).  A layout that is
found comes from a placement (`exists_placement_of_place`), and that of a struct from the
members on the two sides of the origin (`exists_parts_of_structPlacement`).
-/

namespace TypedMemory

variable {s : Schema} {type : String} {packed : Bool} {cursor : Nat} {m : MeasuredMember}
  {rest : List MeasuredMember}

theorem placeForward_cons (h : m.size.isSome ∨ rest = []) :
    placeForward s type packed cursor (m :: rest) =
      (roundUp? cursor (m.placedAlignment packed)).elim (.error (tooLarge type)) fun offset =>
        if offset < offsetLimit ∧ offset + m.size.getD 0 < wordLimit then
          (placeForward s type packed (offset + m.size.getD 0) rest).map fun placed =>
            ((offset : Int) :: placed.1, placed.2)
        else .error (tooLarge type) := by
  rw [placeForward]
  cases hm : m.size with
  | some size =>
    rw [Option.getD_some]
    cases roundUp? cursor (m.placedAlignment packed) with
    | none => rfl
    | some offset =>
      -- both sides go on with the rest in the same way
      cases placeForward s type packed (offset + size) rest <;> rfl
  | none =>
    have hrest : rest = [] := by simpa [hm] using h
    subst hrest
    cases roundUp? cursor (m.placedAlignment packed) <;> rfl

theorem isSome_size_of_placeForward {placed : List Int × Nat}
    (h : placeForward s type packed cursor (m :: rest) = .ok placed) :
    m.size.isSome ∨ rest = [] := by
  cases hm : m.size with
  | some size => exact Or.inl rfl
  | none =>
    refine Or.inr (List.isEmpty_iff.mp ?_)
    by_contra hrest
    rw [placeForward] at h
    simp only [hm, if_neg hrest] at h
    cases h

/-- A member that is placed has a suitable offset, and the others follow behind it. -/
theorem placeForward_cons_eq_ok_iff {placed : List Int × Nat} :
    placeForward s type packed cursor (m :: rest) = .ok placed ↔
      (m.size.isSome ∨ rest = []) ∧ ∃ offset more,
        roundUp? cursor (m.placedAlignment packed) = some offset ∧
        (offset < offsetLimit ∧ offset + m.size.getD 0 < wordLimit) ∧
        placeForward s type packed (offset + m.size.getD 0) rest = .ok more ∧
        placed = ((offset : Int) :: more.1, more.2) := by
  constructor
  · intro h
    have hsize := isSome_size_of_placeForward h
    refine ⟨hsize, ?_⟩
    rw [placeForward_cons hsize] at h
    cases hround : roundUp? cursor (m.placedAlignment packed) with
    | none =>
      rw [hround] at h
      cases h
    | some offset =>
      rw [hround, Option.elim_some] at h
      split at h
      next hfits =>
        obtain ⟨more, hmore, hplaced⟩ := map_eq_ok_iff.mp h
        exact ⟨offset, more, rfl, hfits, hmore, hplaced.symm⟩
      next => cases h
  · rintro ⟨hsize, offset, more, hround, hfits, hmore, rfl⟩
    rw [placeForward_cons hsize, hround, Option.elim_some, if_pos hfits, hmore]
    rfl

/-- A member that is placed downwards has a size, and the others are below it. -/
theorem placeBackward_cons_eq_ok_iff {start : Int} {placed : List Int × Int} :
    placeBackward type start (m :: rest) = .ok placed ↔
      ∃ size more, m.size = some size ∧
        (size < offsetLimit ∧ -(offsetLimit : Int) ≤ start - size) ∧
        placeBackward type (start - size) rest = .ok more ∧
        placed = ((start - size : Int) :: more.1, more.2) := by
  rw [placeBackward]
  constructor
  · intro h
    cases hsize : m.size with
    | none =>
      simp only [hsize] at h
      cases h
    | some size =>
      simp only [hsize] at h
      split at h
      next hfits =>
        obtain ⟨more, hmore, hplaced⟩ := bind_eq_ok_iff.mp h
        cases hplaced
        exact ⟨size, more, rfl, hfits, hmore, rfl⟩
      next => cases h
  · rintro ⟨size, more, hsize, hfits, hmore, rfl⟩
    simp only [hsize]
    rw [if_pos hfits, hmore]
    rfl

/-- The placement of a struct, in the parts before and from the origin on. -/
theorem exists_parts_of_structPlacement {ms : List MeasuredMember} {origin : Option String}
    {placement : Placement} (h : structPlacement s type ms packed origin = .ok placement) :
    ∃ index below start above last, originIndex type ms origin = .ok index ∧
      placeBackward type 0 (ms.take index).reverse = .ok (below, start) ∧
      placeForward s type packed 0 (ms.drop index) = .ok (above, last) ∧
      placement.size < wordLimit ∧
      placement = ⟨below.reverse ++ above, roundUp (last + start.natAbs) (commonAlignment packed ms),
        commonAlignment packed ms, start⟩ := by
  unfold structPlacement at h
  obtain ⟨index, hindex, h⟩ := bind_eq_ok_iff.mp h
  obtain ⟨⟨below, start⟩, hbelow, h⟩ := bind_eq_ok_iff.mp h
  obtain ⟨⟨above, last⟩, habove, h⟩ := bind_eq_ok_iff.mp h
  refine ⟨index, below, start, above, last, hindex, hbelow, habove, ?_⟩
  simp only at h
  split at h
  next hextent =>
    rw [roundUp?_eq hextent] at h
    generalize roundUp _ (commonAlignment packed ms) = size at h ⊢
    split at h
    next size' hsize =>
      split at hsize
      next hlimit =>
        cases hsize
        cases h
        exact ⟨hlimit, rfl⟩
      next => cases hsize
    next => cases h
  next => cases h

/-- The layout of placed members. -/
def Placement.layout (placement : Placement) (type : String) (kind : TypeKind) (p : Platform)
    (ms : List MeasuredMember) : Layout :=
  { name := type, kind, platform := p, size := placement.size, alignment := placement.alignment
    start := placement.start
    fields := List.zipWith (fun m offset => ⟨m.name, m.field, offset, m.size.getD 0, m.alignment⟩)
      ms placement.offsets }

variable {p : Platform} {kind : TypeKind} {d : Definition} {ms : List MeasuredMember} {l : Layout}

theorem place_struct :
    place s p type .struct d ms =
      (structPlacement s type ms d.isPacked d.origin).map (·.layout type .struct p ms) := rfl

theorem place_union (horigin : d.origin = none) :
    place s p type .union d ms =
      (unionPlacement s type ms d.isPacked).map (·.layout type .union p ms) := by
  unfold place
  rw [horigin]
  rfl

theorem place_union_of_origin {origin : String} (horigin : d.origin = some origin) :
    place s p type .union d ms = .error (.layout (.unionOrigin type origin)) := by
  unfold place
  rw [horigin]
  rfl

theorem exists_placement_of_place (h : place s p type kind d ms = .ok l) :
    ∃ placement : Placement,
      (structPlacement s type ms d.isPacked d.origin = .ok placement ∨
        unionPlacement s type ms d.isPacked = .ok placement) ∧
      l = placement.layout type kind p ms := by
  cases kind with
  | struct =>
    obtain ⟨placement, hplacement, hl⟩ := map_eq_ok_iff.mp h
    exact ⟨placement, Or.inl hplacement, hl.symm⟩
  | union =>
    cases horigin : d.origin with
    | some origin =>
      rw [place_union_of_origin horigin] at h
      cases h
    | none =>
      rw [place_union horigin] at h
      obtain ⟨placement, hplacement, hl⟩ := map_eq_ok_iff.mp h
      exact ⟨placement, Or.inr hplacement, hl.symm⟩

theorem alignment_of_place (h : place s p type kind d ms = .ok l) :
    l.alignment = commonAlignment d.isPacked ms := by
  obtain ⟨placement, hplacement | hplacement, rfl⟩ := exists_placement_of_place h
  · obtain ⟨index, below, start, above, last, -, -, -, -, rfl⟩ :=
      exists_parts_of_structPlacement hplacement
    rfl
  · obtain ⟨size, -, hplacement⟩ := bind_eq_ok_iff.mp hplacement
    cases hplacement
    rfl

end TypedMemory
