import TypedMemory.Proofs.Schema.Declared
import TypedMemory.Proofs.View.Record

/-!
# Members in layouts and views

A layout has one field for each member of its type, so the names of its fields are apart.

* `Layout.find_eq_ok_iff_of_nodup`: a look-up gives the field at the place of the name.
* `CompositeView.readFields_eq`: reading all fields is getting each name once, in order.
* `Schema.members_as_declared`: which members a type has, and where its layouts have them.
-/

namespace TypedMemory

open Access

namespace Layout

variable {l : Layout} {f : PlacedField} {name : String}

theorem find_eq_ok_iff_of_nodup (h : (memberNames l.members).Nodup) :
    l.find name = .ok f ↔
      ∃ i : Nat, (memberNames l.members)[i]? = some name ∧ l.fields[i]? = some f := by
  constructor
  · intro hfind
    obtain ⟨hf, rfl⟩ := CompositeView.find_eq_ok hfind
    obtain ⟨i, hi⟩ := List.mem_iff_getElem?.mp hf
    refine ⟨i, ?_, hi⟩
    rw [memberNames_members, List.getElem?_map, hi]
    rfl
  · rintro ⟨i, hname, hi⟩
    rw [memberNames_members, List.getElem?_map, hi] at hname
    obtain rfl : f.name = name := Option.some.inj hname
    exact find_of_nodup h (List.mem_of_getElem? hi)

theorem find_of_notMem (h : name ∉ memberNames l.members) :
    l.find name = .error (.unknownField l.name name) := by
  cases hfind : l.find name with
  | ok f =>
    obtain ⟨hf, rfl⟩ := CompositeView.find_eq_ok hfind
    rw [memberNames_members] at h
    exact absurd (List.mem_map_of_mem hf) h
  | error e =>
    unfold find at hfind
    split at hfind
    · cases hfind
    · exact hfind.symm

end Layout

/-- Reading the fields of a composite is getting each of its names. -/
theorem CompositeView.readFields_eq {σ : Type} {c : CompositeView} (m : Space σ)
    (h : (memberNames c.layout.members).Nodup) :
    c.readFields m =
      (memberNames c.layout.members).mapM fun name => do
        return (name, ← attempt (c.get m name)) := by
  rw [Layout.memberNames_members, List.mapM_map]
  refine mapM_congr fun f hf => ?_
  have hget : c.get m f.name = c.readField m f := by
    rw [get, Layout.find_of_nodup h hf, liftM_ok_bind]
  simp only [Function.comp_apply, hget]

namespace Schema

/-- A type whose bases are defined and come to an end has the members that are collected from its
chain, and no other list is.  Every other type has a fault.  The names of members are apart: a
layout has a field for each member, a look-up gives the field at the place of the name, and the
fields of a composite are read by getting each name once, in order. -/
theorem members_as_declared (s : Schema) (id : TypeId) :
    ((∀ base, ¬ BadBase s id base) → ∃ chain ms, HasChain s id chain ∧
      s.members id = .ok ms ∧ ∀ ms', CollectedFrom chain ms' ↔ ms' = ms) ∧
    ((∃ base, BadBase s id base) → ∃ base fault, BadBase s id base ∧ BaseFault s id base fault ∧
      s.members id = .error (.layout fault)) ∧
    (∀ ms, s.members id = .ok ms → (memberNames ms).Nodup) ∧
    ∀ p l, s.layout p id = .ok l →
      s.members id = .ok l.members ∧
      (∀ name f, l.find name = .ok f ↔
        ∃ i : Nat, (memberNames l.members)[i]? = some name ∧ l.fields[i]? = some f) ∧
      (∀ name, name ∉ memberNames l.members →
        l.find name = .error (.unknownField l.name name)) ∧
      ∀ {σ : Type} (m : Space σ) (c : CompositeView), c.layout = l →
        c.readFields m =
          (memberNames l.members).mapM fun name => do
            return (name, ← attempt (c.get m name)) := by
  refine ⟨fun hgood => ?_, ?_, fun ms hms => nodup_names_of_members hms, fun p l hl => ?_⟩
  · obtain ⟨chain, hchain, hms⟩ := exists_chain hgood
    exact ⟨chain, _, hchain, hms, fun ms' => collectedFrom_iff⟩
  · rintro ⟨base, hbad⟩
    obtain ⟨bad, fault, hreach, hfault, hms⟩ := exists_fault_of_badBase hbad
    exact ⟨bad, fault, hfault.badBase hreach, hfault, hms⟩
  · have hms := (layout_eq_ok_iff.mp hl).members_eq
    have hnodup := nodup_names_of_members hms
    refine ⟨hms, fun name f => Layout.find_eq_ok_iff_of_nodup hnodup,
      fun name hname => Layout.find_of_notMem hname, ?_⟩
    rintro σ m c rfl
    exact CompositeView.readFields_eq m hnodup

/-- A struct that gives a member of its base another description and declares one twice, a struct
with a base that is only declared, and two structs that are bases of each other. -/
def panelSchema : Schema :=
  { declared := [
      ⟨"Node", .struct, some
        { fields := [("id", .scalar .u32), ("next", .pointer .void)], hasVtable := true }⟩,
      ⟨"Panel", .struct, some
        { base := some (.declared 0)
          fields := [("width", .scalar .u16), ("id", .scalar .u64), ("width", .scalar .i32)] }⟩,
      ⟨"Pending", .struct, none⟩,
      ⟨"Waiting", .struct, some { base := some (.declared 2) }⟩,
      ⟨"Left", .struct, some { base := some (.declared 5) }⟩,
      ⟨"Right", .struct, some { base := some (.declared 4) }⟩] }

theorem members_as_declared_panel :
    ((∀ base, ¬ BadBase panelSchema (.declared 1) base) ∧
      ∃ chain, HasChain panelSchema (.declared 1) chain ∧
        CollectedFrom chain [(vtableName, .pointer .void), ("id", .scalar .u64),
          ("next", .pointer .void), ("width", .scalar .i32)]) ∧
    (BadBase panelSchema (.declared 3) (.declared 2) ∧
      ∃ fault, panelSchema.members (.declared 3) = .error (.layout fault)) ∧
    (BadBase panelSchema (.declared 4) (.declared 4) ∧
      ∃ fault, panelSchema.members (.declared 4) = .error (.layout fault)) ∧
    ∃ l f, panelSchema.layout .host (.declared 1) = .ok l ∧ l.find "width" = .ok f ∧
      l.fields[3]? = some f ∧ f.field = .scalar .i32 := by
  have hms : panelSchema.members (.declared 1) = .ok [(vtableName, .pointer .void),
      ("id", .scalar .u64), ("next", .pointer .void), ("width", .scalar .i32)] := by
    decide +kernel
  have hgood := exists_members_iff.mp ⟨_, hms⟩
  have hpending : BadBase panelSchema (.declared 3) (.declared 2) :=
    ⟨.single ⟨_, rfl, rfl⟩, Or.inl rfl⟩
  have hloop : BadBase panelSchema (.declared 4) (.declared 4) := by
    have hright : HasBase panelSchema (.declared 4) (.declared 5) := ⟨_, rfl, rfl⟩
    have hleft : HasBase panelSchema (.declared 5) (.declared 4) := ⟨_, rfl, rfl⟩
    exact ⟨.refl, Or.inr (.tail (.single hright) hleft)⟩
  obtain ⟨hchain, -, -, hlayout⟩ := members_as_declared panelSchema (.declared 1)
  obtain ⟨-, hwaiting, -⟩ := members_as_declared panelSchema (.declared 3)
  obtain ⟨-, hcircle, -⟩ := members_as_declared panelSchema (.declared 4)
  obtain ⟨chain, ms, hhas, hms', hcollected⟩ := hchain hgood
  cases hms.symm.trans hms'
  obtain ⟨-, fault, -, -, hfault⟩ := hwaiting ⟨_, hpending⟩
  obtain ⟨-, other, -, -, hother⟩ := hcircle ⟨_, hloop⟩
  have hfields : (panelSchema.layout .host (.declared 1)).map (·.fields[3]?.map (·.field)) =
      .ok (some (.scalar .i32)) := by
    decide +kernel
  obtain ⟨l, hl, hfield⟩ := map_eq_ok_iff.mp hfields
  obtain ⟨f, hf, hkind⟩ := Option.map_eq_some_iff.mp hfield
  obtain ⟨hmembers, hfind, -⟩ := hlayout .host l hl
  have hname : (memberNames l.members)[3]? = some "width" := by
    rw [← Except.ok.inj (hms.symm.trans hmembers)]
    rfl
  exact ⟨⟨hgood, chain, hhas, (hcollected _).mpr rfl⟩, ⟨hpending, fault, hfault⟩,
    ⟨hloop, other, hother⟩, l, f, hl, (hfind "width" f).mpr ⟨3, hname, hf⟩, hf, hkind⟩

end Schema

end TypedMemory
