import TypedMemory.Proofs.Layout.Order
import TypedMemory.Proofs.Schema.Members

/-!
# The fields of a layout are the members of the type

* `LaysOut.members_eq`: a layout has one field for each member, in the same order.
* `LaysOut.find_of_mem`: a field is found by its name, which no other field has.
-/

namespace TypedMemory

namespace Layout

/-- The members that the fields of a layout place. -/
def members (l : Layout) : List Member := l.fields.map fun f => (f.name, f.field)

variable {l : Layout} {f : PlacedField}

theorem memberNames_members (l : Layout) : memberNames l.members = l.fields.map (·.name) :=
  List.map_map

/-- Where no two fields have one name, a look-up gives the field of the name. -/
theorem find_of_nodup (h : (memberNames l.members).Nodup) (hf : f ∈ l.fields) :
    l.find f.name = .ok f := by
  rw [memberNames_members] at h
  unfold find field?
  cases hfound : l.fields.find? (·.name == f.name) with
  | none => exact absurd (beq_self_eq_true f.name) (List.find?_eq_none.mp hfound f hf)
  | some g =>
    have hname : g.name = f.name := by simpa using List.find?_some hfound
    have hg : g ∈ l.fields := List.mem_of_find?_eq_some hfound
    exact congrArg Except.ok (List.inj_on_of_nodup_map h hg hf hname)

end Layout

variable {s : Schema} {p : Platform} {layout : TypeId → Except Error Layout} {ms : List Member}
  {measured : List MeasuredMember}

/-- Measuring keeps the names and the fields of members. -/
theorem members_of_measured (h : ms.mapM (measure s p layout) = .ok measured) :
    measured.map (fun m => (m.name, m.field)) = ms := by
  induction ms generalizing measured with
  | nil =>
    cases h
    rfl
  | cons m rest ih =>
    obtain ⟨needs, more, hneeds, hmore, rfl⟩ := mapM_cons_eq_ok_iff.mp h
    have hm := measures_of_measure hneeds
    rw [List.map_cons, ih hmore, hm.name_eq, hm.field_eq]

theorem map_placed {offsets : List Int} (h : offsets.length = measured.length) :
    (List.zipWith MeasuredMember.placed measured offsets).map (fun f => (f.name, f.field)) =
      measured.map fun m => (m.name, m.field) := by
  induction measured generalizing offsets with
  | nil => rfl
  | cons m rest ih =>
    cases offsets with
    | nil => cases h
    | cons offset offsets =>
      rw [List.zipWith_cons_cons, List.map_cons, List.map_cons, ih (Nat.succ_injective h)]
      rfl

namespace Schema

variable {id : TypeId} {l : Layout} {f : PlacedField}

theorem LaysOut.members_eq (h : LaysOut s p id l) : s.members id = .ok l.members := by
  obtain ⟨d, ms, measured, -, hms, hmeasured, hplace⟩ := h.exists_place
  obtain ⟨offsets, hlength, hfields⟩ := exists_offsets_of_place hplace
  rw [hms, Layout.members, hfields, map_placed hlength, members_of_measured hmeasured]

/-- No field of a layout hides another one. -/
theorem LaysOut.find_of_mem (h : LaysOut s p id l) (hf : f ∈ l.fields) :
    l.find f.name = .ok f :=
  Layout.find_of_nodup (nodup_names_of_members h.members_eq) hf

end Schema

end TypedMemory
