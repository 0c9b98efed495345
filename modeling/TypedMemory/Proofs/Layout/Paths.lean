import TypedMemory.Proofs.Layout.Alignment

/-!
# Paths into a field

A field is a tree: an array has its elements, and a composite has the members of its
type.  A path of indices and names leads into it (`Field.IsPath`), and ends at a leaf
where there are no more parts.  If no path leads to a union, each path to a leaf leads to
one place among the bytes of the field (`Field.PathAt`, `exists_pathAt`):

* `PathAt.add_le`: the bytes of the leaf are bytes of the field;
* `PathAt.apart`: the leaves of different paths do not share bytes;
* `PathAt.exists_alignment`: a place that suits the field suits the leaf.

All these are shown for one step, from a field to a part of it (`PartAt`), and then for
the path by induction.
-/

namespace TypedMemory

namespace Field

/-- From a field to one of its parts. -/
inductive Step
  | element (index : Nat)
  | member (name : String)
  deriving DecidableEq, Repr

/-- An element of an array, or a member of a composite.  Padding has no parts, and an
array of unknown length has none that are known. -/
inductive IsPart (s : Schema) : Field → Step → Field → Prop
  | element {element : Field} {length index : Nat} (hindex : index < length) :
      IsPart s (.array element (some length)) (.element index) element
  | member {type : TypeId} {ms : List Member} {name : String} {part : Field}
      (hms : s.members type = .ok ms) (hm : (name, part) ∈ ms) :
      IsPart s (.composite type) (.member name) part

/-- The path leads from the field to `last`. -/
inductive IsPath (s : Schema) : Field → List Step → Field → Prop
  | here {field : Field} : IsPath s field [] field
  | step {field part last : Field} {step : Step} {rest : List Step}
      (hpart : IsPart s field step part) (hrest : IsPath s part rest last) :
      IsPath s field (step :: rest) last

/-- The field has a value of its own. -/
def isLeaf : Field → Bool
  | scalar _ | pointer _ | string _ | fill _ => true
  | void | array .. | composite _ => false

/-- All types of the field, at any depth, have the property. -/
def EachType (s : Schema) (field : Field) (P : TypeId → Prop) : Prop :=
  ∀ path id, IsPath s field path (.composite id) → P id

variable {s : Schema} {p : Platform} {field part leaf leaf' : Field} {step other : Step}
  {path path' : List Step} {P : TypeId → Prop} {n size size' distance distance' alignment : Nat}

theorem EachType.here {id : TypeId} (h : EachType s (.composite id) P) : P id :=
  h [] id .here

theorem EachType.of_isPart (h : EachType s field P) (hpart : IsPart s field step part) :
    EachType s part P := by
  intro path id hpath
  exact h (step :: path) id (.step hpart hpath)

theorem not_isPart_of_isLeaf (hleaf : leaf.isLeaf = true) : ¬ IsPart s leaf step part := by
  intro h
  cases h <;> cases hleaf

/-- A path to a leaf does not start from an array of unknown length. -/
theorem isUnsized_of_isPath (hpath : IsPath s field path leaf) (hleaf : leaf.isLeaf = true) :
    field.isUnsized = false := by
  cases hpath with
  | here => cases field <;> first | rfl | cases hleaf
  | step hpart => cases hpart <;> rfl

theorem eachType_of_isLeaf (hleaf : leaf.isLeaf = true) : EachType s leaf P := by
  intro path id hpath
  cases hpath with
  | here => cases hleaf
  | step hpart => exact absurd hpart (not_isPart_of_isLeaf hleaf)

theorem eachType_array {length : Option Nat} (h : EachType s field P) :
    EachType s (.array field length) P := by
  intro path id hpath
  cases hpath with
  | step hpart hrest =>
    cases hpart with
    | element => exact h _ id hrest

theorem EachType.core {type : TypeId} (h : EachType s field P) (hcore : field.core = composite type)
    (hcount : field.count ≠ 0) : P type := by
  induction field with
  | array element length ih =>
    obtain ⟨helement, hlength⟩ := Nat.mul_ne_zero_iff.mp hcount
    cases length with
    | none => cases hlength rfl
    | some length => exact ih (h.of_isPart (.element (Nat.pos_of_ne_zero hlength))) hcore helement
  | composite =>
    cases hcore
    exact h.here
  | void | scalar | pointer | string | fill => cases hcore

theorem eachType_composite {type : TypeId} {ms : List Member} (hP : P type)
    (hms : s.members type = .ok ms) (h : ∀ m ∈ ms, EachType s m.2 P) :
    EachType s (.composite type) P := by
  intro path id hpath
  cases hpath with
  | here => exact hP
  | step hpart hrest =>
    cases hpart with
    | member hms' hm =>
      cases hms.symm.trans hms'
      exact h _ hm _ id hrest

/-! ### One step -/

/-- The part has `size` bytes, `distance` bytes behind the first byte of the field. -/
inductive PartAt (s : Schema) (p : Platform) : Field → Step → Field → (distance size : Nat) → Prop
  | element {element : Field} {length index size : Nat} (hindex : index < length)
      (hsize : element.size s p = .ok size) :
      PartAt s p (.array element (some length)) (.element index) element (index * size) size
  | member {type : TypeId} {l : Layout} {f : PlacedField} {name : String} {distance : Nat}
      (hkind : s.kind type = .struct) (hl : s.layout p type = .ok l) (hf : f ∈ l.fields)
      (hname : f.name = name) (hsize : f.field.size s p = .ok f.size)
      (hdistance : (distance : Int) = f.offset - l.start) :
      PartAt s p (.composite type) (.member name) f.field distance f.size

/-- Each part with a size has a place. -/
theorem exists_partAt (hpart : IsPart s field step part) (hsize : field.size s p = .ok n)
    (hstruct : EachType s field fun id => s.kind id = .struct) (hsized : part.isUnsized = false) :
    ∃ distance size, PartAt s p field step part distance size := by
  cases hpart with
  | element hindex =>
    obtain ⟨stride, hstride, -⟩ := size_array_eq_ok hsize
    exact ⟨_, stride, .element hindex hstride⟩
  | @member type ms name part hms hm =>
    obtain ⟨l, hl, rfl⟩ := map_eq_ok_iff.mp hsize
    have hlays := Schema.layout_eq_ok_iff.mp hl
    cases hms.symm.trans hlays.members_eq
    obtain ⟨f, hf, hmember⟩ := List.mem_map.mp hm
    cases hmember
    have hstart := (hlays.inOrder hstruct.here).start_le f hf
    refine ⟨(f.offset - l.start).toNat, f.size, ?_⟩
    exact .member hstruct.here hl hf rfl (hlays.size_of_mem_fields hf hsized) (by omega)

namespace PartAt

theorem isPart (h : PartAt s p field step part distance size) : IsPart s field step part := by
  cases h with
  | element hindex => exact .element hindex
  | @member type l f name distance hkind hl hf hname =>
    refine .member (Schema.layout_eq_ok_iff.mp hl).members_eq (List.mem_map.mpr ⟨f, hf, ?_⟩)
    rw [hname]

theorem size_eq (h : PartAt s p field step part distance size) : part.size s p = .ok size := by
  cases h with
  | element hindex hsize => exact hsize
  | member hkind hl hf hname hsize => exact hsize

theorem add_le (h : PartAt s p field step part distance size) (hsize : field.size s p = .ok n) :
    distance + size ≤ n := by
  cases h with
  | @element element length index size hindex hstride =>
    obtain ⟨stride, hstride', rfl⟩ := size_array_eq_ok hsize
    cases hstride.symm.trans hstride'
    rw [← Nat.succ_mul, Nat.mul_comm]
    exact Nat.mul_le_mul_left size hindex
  | @member type l f name distance hkind hl hf =>
    obtain ⟨l', hl', rfl⟩ := map_eq_ok_iff.mp hsize
    cases hl.symm.trans hl'
    have hend := ((Schema.layout_eq_ok_iff.mp hl).inOrder hkind).le_end f hf
    omega

theorem unique {part' : Field} (h : PartAt s p field step part distance size)
    (h' : PartAt s p field step part' distance' size') :
    part = part' ∧ distance = distance' := by
  cases h with
  | element hindex hsize =>
    cases h' with
    | element hindex' hsize' =>
      cases hsize.symm.trans hsize'
      exact ⟨rfl, rfl⟩
  | @member type l f name distance hkind hl hf hname hsize hdistance =>
    cases h' with
    | @member _ l' g _ distance' hkind' hl' hg hname' hsize' hdistance' =>
      cases hl.symm.trans hl'
      have hlays := Schema.layout_eq_ok_iff.mp hl
      have hfind := hlays.find_of_mem hf
      rw [hname, ← hname', hlays.find_of_mem hg] at hfind
      cases hfind
      exact ⟨rfl, by omega⟩

/-- Different parts do not share bytes. -/
theorem apart {part' : Field} (h : PartAt s p field step part distance size)
    (h' : PartAt s p field other part' distance' size') (hne : step ≠ other) :
    distance + size ≤ distance' ∨ distance' + size' ≤ distance := by
  cases h with
  | @element element length i size hindex hsize =>
    cases h' with
    | @element _ _ j size' hindex' hsize' =>
      cases hsize.symm.trans hsize'
      have hij : i ≠ j := fun h => hne (congrArg Step.element h)
      rw [← Nat.succ_mul, ← Nat.succ_mul]
      rcases Nat.lt_or_gt_of_ne hij with hlt | hlt
      · exact Or.inl (Nat.mul_le_mul_right size hlt)
      · exact Or.inr (Nat.mul_le_mul_right size hlt)
  | @member type l f name distance hkind hl hf hname hsize hdistance =>
    cases h' with
    | @member _ l' g name' distance' hkind' hl' hg hname' hsize' hdistance' =>
      cases hl.symm.trans hl'
      have hfg : f ≠ g := by
        rintro rfl
        exact hne (congrArg Step.member (hname.symm.trans hname'))
      have hapart := ((Schema.layout_eq_ok_iff.mp hl).inOrder hkind).apart hf hg hfg
      omega

end PartAt

/-! ### Alignment of a part -/

/-- Structs without an origin that are not packed. -/
def Plain (s : Schema) (id : TypeId) : Prop :=
  s.kind id = .struct ∧ ∀ d, s.definition id = .ok d → d.isPacked = false ∧ d.origin = none

/-- A place that suits the field suits the part. -/
theorem PartAt.exists_alignment (h : PartAt s p field step part distance size)
    (hplain : EachType s field (Plain s)) (halignment : field.alignment s p = .ok alignment) :
    ∃ a, part.alignment s p = .ok a ∧ max 1 a ∣ max 1 alignment ∧ max 1 a ∣ distance := by
  cases h with
  | @element _ length index size hindex hsize =>
    refine ⟨alignment, halignment, dvd_rfl, Nat.dvd_mul_left_of_dvd ?_ index⟩
    refine alignment_dvd_size ?_ hsize halignment
    intro type hcore hcount
    exact ((hplain.of_isPart (.element hindex)).core hcore hcount).1
  | @member type l f name distance hkind hl hf hname hsize hdistance =>
    obtain ⟨l', hl', rfl⟩ := map_eq_ok_iff.mp halignment
    cases hl.symm.trans hl'
    have hlays := Schema.layout_eq_ok_iff.mp hl
    obtain ⟨d, ms, measured, hd, -⟩ := hlays.exists_place
    obtain ⟨hpacked, horigin⟩ := hplain.here.2 d hd
    obtain ⟨hstart, hoffset⟩ := hlays.alignment_dvd_offset hkind hd hpacked horigin hf
    refine ⟨f.alignment, hlays.alignment_of_mem_fields hf, hlays.alignment_dvd hd hpacked hf, ?_⟩
    rwa [← Int.natCast_dvd_natCast, hdistance, hstart, Int.sub_zero]

/-! ### Paths -/

/-- The path leads to `last`, `distance` bytes behind the first byte of the field. -/
inductive PathAt (s : Schema) (p : Platform) : Field → List Step → Field → (distance : Nat) → Prop
  | here {field : Field} : PathAt s p field [] field 0
  | step {field part last : Field} {step : Step} {rest : List Step} {distance size more : Nat}
      (hpart : PartAt s p field step part distance size) (hrest : PathAt s p part rest last more) :
      PathAt s p field (step :: rest) last (distance + more)

/-- Each path to a leaf leads to a place. -/
theorem exists_pathAt (hpath : IsPath s field path leaf) (hleaf : leaf.isLeaf = true)
    (hsize : field.size s p = .ok n) (hstruct : EachType s field fun id => s.kind id = .struct) :
    ∃ distance, PathAt s p field path leaf distance := by
  induction hpath generalizing n with
  | here => exact ⟨0, .here⟩
  | @step field part last step rest hpart hrest ih =>
    have hsized : part.isUnsized = false := isUnsized_of_isPath hrest hleaf
    obtain ⟨distance, size, hat⟩ := exists_partAt hpart hsize hstruct hsized
    obtain ⟨more, hmore⟩ := ih hleaf hat.size_eq (hstruct.of_isPart hpart)
    exact ⟨distance + more, .step hat hmore⟩

namespace PathAt

theorem exists_size (h : PathAt s p field path leaf distance) (hsize : field.size s p = .ok n) :
    ∃ size, leaf.size s p = .ok size ∧ distance + size ≤ n := by
  induction h generalizing n with
  | here => exact ⟨n, hsize, by omega⟩
  | step hpart hrest ih =>
    obtain ⟨size, hleaf, hle⟩ := ih hpart.size_eq
    have hpartle := hpart.add_le hsize
    exact ⟨size, hleaf, by omega⟩

/-- The bytes of the last field are bytes of the first. -/
theorem add_le (h : PathAt s p field path leaf distance) (hsize : field.size s p = .ok n)
    (hleaf : leaf.size s p = .ok size) : distance + size ≤ n := by
  obtain ⟨size', hleaf', hle⟩ := h.exists_size hsize
  cases hleaf.symm.trans hleaf'
  exact hle

/-- Different leaves do not share bytes: where two paths part, so do the bytes. -/
theorem apart (h : PathAt s p field path leaf distance)
    (h' : PathAt s p field path' leaf' distance') (hleaf : leaf.isLeaf = true)
    (hleaf' : leaf'.isLeaf = true) (hsize : leaf.size s p = .ok size)
    (hsize' : leaf'.size s p = .ok size') (hne : path ≠ path') :
    distance + size ≤ distance' ∨ distance' + size' ≤ distance := by
  induction h generalizing path' distance' with
  | here =>
    cases h' with
    | here => exact absurd rfl hne
    | step hpart' => exact absurd hpart'.isPart (not_isPart_of_isLeaf hleaf)
  | @step field part last step rest distance width more hpart hrest ih =>
    cases h' with
    | here => exact absurd hpart.isPart (not_isPart_of_isLeaf hleaf')
    | @step _ part' _ other rest' distance' width' more' hpart' hrest' =>
      by_cases hsame : step = other
      · subst hsame
        obtain ⟨rfl, rfl⟩ := hpart.unique hpart'
        have hrestne : rest ≠ rest' := fun h => hne (congrArg (List.cons step) h)
        have hrestapart := ih hrest' hleaf hsize hrestne
        omega
      · have hpartsapart := hpart.apart hpart' hsame
        have hle := hrest.add_le hpart.size_eq hsize
        have hle' := hrest'.add_le hpart'.size_eq hsize'
        omega

/-- A place that suits the first field suits the last. -/
theorem exists_alignment (h : PathAt s p field path leaf distance)
    (hplain : EachType s field (Plain s)) (halignment : field.alignment s p = .ok alignment) :
    ∃ a, leaf.alignment s p = .ok a ∧ max 1 a ∣ max 1 alignment ∧ max 1 a ∣ distance := by
  induction h generalizing alignment with
  | here => exact ⟨alignment, halignment, dvd_rfl, Nat.dvd_zero _⟩
  | step hpart hrest ih =>
    obtain ⟨b, hb, hdvd, hdistance⟩ := hpart.exists_alignment hplain halignment
    obtain ⟨a, ha, hdvd', hmore⟩ := ih (hplain.of_isPart hpart.isPart) hb
    exact ⟨a, ha, hdvd'.trans hdvd, Nat.dvd_add (hdvd'.trans hdistance) hmore⟩

end PathAt

end Field

end TypedMemory
