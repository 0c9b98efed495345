import Mathlib.Data.List.Pairwise
import TypedMemory.Proofs.Layout.Struct

/-!
# Structs in order

The members of a struct follow each other, also where some of them lie before the
origin: `inOrder_of_place` holds for every struct with a layout.  The numbers of a
member in a layout are those of its field (`size_of_mem_fields`,
`alignment_of_mem_fields`).
-/

namespace TypedMemory

/-- The fields of a layout follow each other within its bytes. -/
structure Layout.InOrder (l : Layout) : Prop where
  pairwise : l.fields.Pairwise fun f g => f.offset + (f.size : Int) ≤ g.offset
  start_le : ∀ f ∈ l.fields, l.start ≤ f.offset
  le_end : ∀ f ∈ l.fields, f.offset + (f.size : Int) ≤ l.start + l.size

/-- Two fields of a layout in order do not share bytes. -/
theorem Layout.InOrder.apart {l : Layout} (h : l.InOrder) {f g : PlacedField} (hf : f ∈ l.fields)
    (hg : g ∈ l.fields) (hne : f ≠ g) :
    f.offset + (f.size : Int) ≤ g.offset ∨ g.offset + (g.size : Int) ≤ f.offset := by
  let Apart : PlacedField → PlacedField → Prop := fun f g =>
    f.offset + (f.size : Int) ≤ g.offset ∨ g.offset + (g.size : Int) ≤ f.offset
  have hsymm : Std.Symm Apart := ⟨fun _ _ => Or.symm⟩
  have hpairwise : l.fields.Pairwise Apart := h.pairwise.imp Or.inl
  exact hpairwise.forall hf hg hne

/-- A member at an offset. -/
def MeasuredMember.placed (m : MeasuredMember) (offset : Int) : PlacedField :=
  ⟨m.name, m.field, offset, m.size.getD 0, m.alignment⟩

/-- Fields that follow each other from `low` to `high`. -/
structure RunsFrom (low high : Int) (fields : List PlacedField) : Prop where
  pairwise : fields.Pairwise fun f g => f.offset + (f.size : Int) ≤ g.offset
  le : low ≤ high
  low_le : ∀ f ∈ fields, low ≤ f.offset
  le_high : ∀ f ∈ fields, f.offset + (f.size : Int) ≤ high

namespace RunsFrom

variable {low middle high : Int} {fields more : List PlacedField} {f : PlacedField}

theorem nil (h : low ≤ high) : RunsFrom low high [] :=
  ⟨.nil, h, nofun, nofun⟩

theorem append (h : RunsFrom low middle fields) (h' : RunsFrom middle high more) :
    RunsFrom low high (fields ++ more) := by
  refine ⟨List.pairwise_append.mpr ⟨h.pairwise, h'.pairwise, fun f hf g hg => ?_⟩,
    h.le.trans h'.le, fun f hf => ?_, fun f hf => ?_⟩
  · exact (h.le_high f hf).trans (h'.low_le g hg)
  · rcases List.mem_append.mp hf with hf | hf
    · exact h.low_le f hf
    · exact h.le.trans (h'.low_le f hf)
  · rcases List.mem_append.mp hf with hf | hf
    · exact (h.le_high f hf).trans h'.le
    · exact h'.le_high f hf

theorem single (hlow : low ≤ f.offset) (hhigh : f.offset + (f.size : Int) ≤ high) :
    RunsFrom low high [f] := by
  refine ⟨List.pairwise_singleton _ _, by omega, ?_, ?_⟩ <;>
    · intro g hg
      rwa [List.mem_singleton.mp hg]

end RunsFrom

variable {s : Schema} {p : Platform} {type : String} {packed : Bool} {ms : List MeasuredMember}

/-! ### Placements -/

theorem runsFrom_placeForward {cursor last : Nat} {offsets : List Int} (hcursor : cursor < wordLimit)
    (h : placeForward s type packed cursor ms = .ok (offsets, last)) :
    RunsFrom cursor last (List.zipWith MeasuredMember.placed ms offsets) := by
  induction ms generalizing cursor offsets with
  | nil =>
    cases h
    exact .nil le_rfl
  | cons m rest ih =>
    obtain ⟨-, offset, ⟨offsets, last⟩, hround, hfits, hmore, hplaced⟩ :=
      placeForward_cons_eq_ok_iff.mp h
    cases hplaced
    have hle := le_roundUp cursor (m.placedAlignment packed)
    rw [eq_roundUp_of_roundUp? hcursor hround] at hle
    have hfirst : RunsFrom cursor (offset + m.size.getD 0 : Nat) [m.placed offset] :=
      .single (by simp only [MeasuredMember.placed]; omega)
        (by simp only [MeasuredMember.placed]; omega)
    exact hfirst.append (ih hfits.2 hmore)

theorem runsFrom_placeBackward {start lowest : Int} {offsets : List Int}
    (h : placeBackward type start ms = .ok (offsets, lowest)) :
    RunsFrom lowest start (List.zipWith MeasuredMember.placed ms offsets).reverse ∧
      offsets.length = ms.length := by
  induction ms generalizing start offsets with
  | nil =>
    cases h
    exact ⟨.nil le_rfl, rfl⟩
  | cons m rest ih =>
    obtain ⟨size, ⟨offsets, lowest⟩, hsize, -, hmore, hplaced⟩ :=
      placeBackward_cons_eq_ok_iff.mp h
    cases hplaced
    obtain ⟨hbelow, hlength⟩ := ih hmore
    have hfirst : RunsFrom (start - size) start [m.placed (start - size)] :=
      .single le_rfl (by simp only [MeasuredMember.placed, hsize, Option.getD_some]; omega)
    rw [List.zipWith_cons_cons, List.reverse_cons]
    exact ⟨hbelow.append hfirst, congrArg (· + 1) hlength⟩

/-- The fields before the origin, which are placed from the last one on, and the others. -/
theorem zipWith_placed_append {index : Nat} {below above : List Int}
    (h : below.length = (ms.take index).reverse.length) :
    List.zipWith MeasuredMember.placed ms (below.reverse ++ above) =
      (List.zipWith MeasuredMember.placed (ms.take index).reverse below).reverse ++
        List.zipWith MeasuredMember.placed (ms.drop index) above := by
  rw [List.reverse_zipWith h.symm, List.reverse_reverse, ← List.zipWith_append,
    List.take_append_drop]
  rw [List.length_reverse, h, List.length_reverse]

/-- The members before the origin lie below it, and the others from it on. -/
theorem inOrder_of_place {d : Definition} {l : Layout} (h : place s p type .struct d ms = .ok l) :
    l.InOrder := by
  rw [place_struct] at h
  obtain ⟨placement, hplacement, rfl⟩ := map_eq_ok_iff.mp h
  obtain ⟨index, below, start, above, last, -, hbelow, habove, -, rfl⟩ :=
    exists_parts_of_structPlacement hplacement
  obtain ⟨hlow, hlength⟩ := runsFrom_placeBackward hbelow
  have hall := hlow.append (runsFrom_placeForward (by decide) habove)
  rw [← zipWith_placed_append hlength] at hall
  have hstart := hlow.le
  have hround := le_roundUp (last + start.natAbs) (commonAlignment d.isPacked ms)
  refine ⟨hall.pairwise, hall.low_le, fun f hf => (hall.le_high f hf).trans ?_⟩
  show (last : Int) ≤ start + (roundUp (last + start.natAbs) (commonAlignment d.isPacked ms) : Nat)
  omega

/-! ### The fields of a layout -/

theorem length_placeForward {cursor last : Nat} {offsets : List Int}
    (h : placeForward s type packed cursor ms = .ok (offsets, last)) :
    offsets.length = ms.length := by
  induction ms generalizing cursor offsets with
  | nil =>
    cases h
    rfl
  | cons m rest ih =>
    obtain ⟨-, offset, ⟨offsets, last⟩, -, -, hmore, hplaced⟩ := placeForward_cons_eq_ok_iff.mp h
    cases hplaced
    exact congrArg (· + 1) (ih hmore)

/-- The fields of a layout are the measured members, each at an offset. -/
theorem exists_offsets_of_place {name : String} {kind : TypeKind} {d : Definition} {l : Layout}
    (h : place s p name kind d ms = .ok l) :
    ∃ offsets : List Int, offsets.length = ms.length ∧
      l.fields = List.zipWith MeasuredMember.placed ms offsets := by
  obtain ⟨placement, hplacement, rfl⟩ := exists_placement_of_place h
  refine ⟨placement.offsets, ?_, rfl⟩
  rcases hplacement with hplacement | hplacement
  · obtain ⟨index, below, start, above, last, -, hbelow, habove, -, rfl⟩ :=
      exists_parts_of_structPlacement hplacement
    rw [List.length_append, List.length_reverse, (runsFrom_placeBackward hbelow).2,
      length_placeForward habove, List.length_reverse, ← List.length_append,
      List.take_append_drop]
  · obtain ⟨size, -, hplacement⟩ := bind_eq_ok_iff.mp hplacement
    cases hplacement
    exact List.length_map _

theorem exists_of_mem_zipWith {α β γ : Type} {f : α → β → γ} {xs : List α} {ys : List β} {c : γ}
    (h : c ∈ List.zipWith f xs ys) : ∃ a ∈ xs, ∃ b, c = f a b := by
  rw [← List.map_uncurry_zip_eq_zipWith] at h
  obtain ⟨⟨a, b⟩, hab, rfl⟩ := List.mem_map.mp h
  exact ⟨a, (List.of_mem_zip hab).1, b, rfl⟩

namespace Schema

variable {id : TypeId} {l : Layout} {f : PlacedField}

theorem LaysOut.inOrder (h : LaysOut s p id l) (hkind : s.kind id = .struct) : l.InOrder := by
  obtain ⟨d, ms, measured, -, -, -, hplace⟩ := h.exists_place
  rw [hkind] at hplace
  exact inOrder_of_place hplace

/-- A field of a layout is a member with its needs, at an offset. -/
theorem LaysOut.exists_measures (h : LaysOut s p id l) (hf : f ∈ l.fields) :
    ∃ m needs offset, Measures s p (s.layout p) m needs ∧ f = needs.placed offset := by
  obtain ⟨d, ms, measured, -, -, hmeasured, hplace⟩ := h.exists_place
  obtain ⟨offsets, -, hfields⟩ := exists_offsets_of_place hplace
  rw [hfields] at hf
  obtain ⟨needs, hneeds, offset, rfl⟩ := exists_of_mem_zipWith hf
  obtain ⟨m, -, hm⟩ := exists_of_mem_mapM hmeasured hneeds
  exact ⟨m, needs, offset, measures_of_measure hm, rfl⟩

/-- The size of a field in a layout is the size of the field. -/
theorem LaysOut.size_of_mem_fields (h : LaysOut s p id l) (hf : f ∈ l.fields)
    (hsized : f.field.isUnsized = false) : f.field.size s p = .ok f.size := by
  obtain ⟨m, needs, offset, hneeds, rfl⟩ := h.exists_measures hf
  have hfield : (needs.placed offset).field = m.2 := hneeds.field_eq
  rw [hfield] at hsized ⊢
  obtain ⟨n, hsize, hn⟩ := hneeds.size_eq hsized
  rw [MeasuredMember.placed, hn, Option.getD_some]
  exact hsize

theorem LaysOut.alignment_of_mem_fields (h : LaysOut s p id l) (hf : f ∈ l.fields) :
    f.field.alignment s p = .ok f.alignment := by
  obtain ⟨m, needs, offset, hneeds, rfl⟩ := h.exists_measures hf
  have hfield : (needs.placed offset).field = m.2 := hneeds.field_eq
  rw [hfield]
  exact hneeds.alignment_eq

end Schema

end TypedMemory
