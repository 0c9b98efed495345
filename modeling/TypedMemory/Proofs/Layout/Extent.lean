import TypedMemory.Proofs.Layout.Members

/-!
# Extents of composites

The members of a struct follow each other, and those of a union all start with the union,
which is as long as its greatest member.  In both cases a member lies within the bytes of
the composite (`LaysOut.within`).  What is read or copied with a composite is read or copied
with each member of it.
-/

namespace TypedMemory

variable {s : Schema} {p : Platform} {type : String} {packed : Bool} {ms : List MeasuredMember}

theorem size_le_greatestSize {size : Nat} (h : greatestSize s type ms = .ok size)
    {m : MeasuredMember} (hm : m ∈ ms) : m.size.getD 0 ≤ size := by
  induction ms generalizing size with
  | nil => cases hm
  | cons first rest ih =>
    rw [greatestSize] at h
    cases hfirst : first.size with
    | none =>
      rw [hfirst] at h
      cases h
    | some n =>
      rw [hfirst] at h
      obtain ⟨greatest, hrest, rfl⟩ := map_eq_ok_iff.mp h
      rcases List.mem_cons.mp hm with rfl | hm
      · rw [hfirst]
        exact Nat.le_max_left n greatest
      · exact (ih hrest hm).trans (Nat.le_max_right n greatest)

/-- A member of a union is at the start of it. -/
theorem within_of_place_union {d : Definition} {l : Layout} (h : place s p type .union d ms = .ok l)
    {f : PlacedField} (hf : f ∈ l.fields) : f.offset = 0 ∧ l.start = 0 ∧ f.size ≤ l.size := by
  cases horigin : d.origin with
  | some origin =>
    rw [place_union_of_origin horigin] at h
    cases h
  | none =>
    rw [place_union horigin] at h
    obtain ⟨placement, hplacement, rfl⟩ := map_eq_ok_iff.mp h
    obtain ⟨size, hsize, hplaced⟩ := bind_eq_ok_iff.mp hplacement
    cases hplaced
    change f ∈ List.zipWith MeasuredMember.placed ms (ms.map fun _ => 0) at hf
    rw [List.zipWith_map_right, List.zipWith_self] at hf
    obtain ⟨m, hm, rfl⟩ := List.mem_map.mp hf
    exact ⟨rfl, rfl, size_le_greatestSize hsize hm⟩

theorem name_of_place {name : String} {kind : TypeKind} {d : Definition} {l : Layout}
    (h : place s p name kind d ms = .ok l) : l.name = name := by
  obtain ⟨placement, -, rfl⟩ := exists_placement_of_place h
  rfl

namespace Schema

variable {id : TypeId} {l : Layout} {f : PlacedField}

theorem LaysOut.name_eq (h : LaysOut s p id l) : l.name = s.name id := by
  obtain ⟨d, ms, measured, -, -, -, hplace⟩ := h.exists_place
  exact name_of_place hplace

/-- The bytes of a member are bytes of its composite. -/
theorem LaysOut.within (h : LaysOut s p id l) (hf : f ∈ l.fields) :
    l.start ≤ f.offset ∧ f.offset + (f.size : Int) ≤ l.start + l.size := by
  cases hkind : s.kind id with
  | struct =>
    have horder := h.inOrder hkind
    exact ⟨horder.start_le f hf, horder.le_end f hf⟩
  | union =>
    obtain ⟨d, ms, measured, -, -, -, hplace⟩ := h.exists_place
    rw [hkind] at hplace
    obtain ⟨hoffset, hstart, hsize⟩ := within_of_place_union hplace hf
    omega

end Schema

end TypedMemory
