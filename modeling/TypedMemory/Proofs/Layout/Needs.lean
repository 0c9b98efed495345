import Mathlib.Tactic.Choose
import TypedMemory.Proofs.Layout.Embedding
import TypedMemory.Proofs.Layout.Struct

/-!
# Needs in unbounded numbers

`Takes s p field needs`: the size and the alignment of a field, where no number has a
limit.  A field has at most one such pair (`Takes.unique`).  A field is measured as
what it takes, as long as the arrays in it stay in the address space
(`Field.exists_takes`), and a type without an origin field has a layout of the size
that it takes, if that size is below the limit of an offset (`exists_layout_takes`).
-/

namespace TypedMemory

/-- A size and an alignment. -/
structure Needs where
  size : Nat
  alignment : Nat
  deriving DecidableEq, Repr, Inhabited

/-- The member with its needs. -/
def Needs.measured (needs : Needs) (m : Member) : MeasuredMember :=
  ⟨m.1, m.2, some needs.size, needs.alignment⟩

/-- What a field takes in unbounded numbers. -/
inductive Takes (s : Schema) (p : Platform) : Field → Needs → Prop
  | void : Takes s p .void ⟨0, 0⟩
  | scalar (kind : ScalarKind) : Takes s p (.scalar kind) ⟨kind.sizeOn p, kind.alignmentOn p⟩
  | array {element : Field} {needs : Needs} (length : Nat) (helement : Takes s p element needs) :
      Takes s p (.array element (some length)) ⟨needs.size * length, needs.alignment⟩
  | pointer (target : Field) : Takes s p (.pointer target) ⟨p.pointerSize, p.pointerSize⟩
  | string (abi : StringAbi) :
      Takes s p (.string abi) ⟨(abi.objectLayout p).size, (abi.objectLayout p).alignment⟩
  | fill (counts : PlatformCounts) : Takes s p (.fill counts) ⟨counts.get p, 1⟩
  /-- The members of a struct follow each other with the least padding. -/
  | struct {id : TypeId} {d : Definition} {ms : List Member} (needs : Member → Needs)
      {offsets : List Nat} {alignment size : Nat} (hkind : s.kind id = .struct)
      (hd : s.definition id = .ok d) (hms : s.members id = .ok ms)
      (hneeds : ∀ m ∈ ms, Takes s p m.2 (needs m))
      (htight : IsTight d.isPacked (ms.map fun m => (needs m).measured m) offsets alignment size) :
      Takes s p (.composite id) ⟨size, alignment⟩
  /-- The members of a union overlap. -/
  | union {id : TypeId} {d : Definition} {ms : List Member} (needs : Member → Needs)
      {alignment size : Nat} (hkind : s.kind id = .union) (hd : s.definition id = .ok d)
      (hms : s.members id = .ok ms) (hneeds : ∀ m ∈ ms, Takes s p m.2 (needs m))
      (hsize : IsGreatest {x | x = 0 ∨ ∃ m ∈ ms, x = (needs m).size} size)
      (halignment : IsGreatest {x | x = 1 ∨
        ∃ m ∈ ms, x = ((needs m).measured m).placedAlignment d.isPacked} alignment) :
      Takes s p (.composite id) ⟨size, alignment⟩

variable {s : Schema} {p : Platform}

/-! ### At most one size and alignment -/

/-- Least offsets are determined by the members. -/
theorem eq_tightOffsets {packed : Bool} {ms : List MeasuredMember} {offsets : List Nat}
    {cursor : Nat} (hlength : offsets.length = ms.length)
    (hleast : ∀ (i : Nat) (m : MeasuredMember) (before offset : Nat), ms[i]? = some m →
      (cursor :: memberEnds ms offsets)[i]? = some before → offsets[i]? = some offset →
        IsLeast {x | max 1 (m.placedAlignment packed) ∣ x ∧ before ≤ x} offset) :
    offsets = tightOffsets packed cursor ms := by
  induction ms generalizing offsets cursor with
  | nil => exact List.length_eq_zero_iff.mp hlength
  | cons m rest ih =>
    cases offsets with
    | nil => cases hlength
    | cons offset more =>
      have hoffset : offset = roundUp cursor (m.placedAlignment packed) :=
        (hleast 0 m cursor offset rfl rfl rfl).unique (isLeast_roundUp _ _)
      rw [tightOffsets, ← hoffset]
      refine congrArg (offset :: ·) (ih (Nat.succ.inj hlength) fun i => ?_)
      exact hleast (i + 1)

theorem IsTight.unique {packed : Bool} {ms : List MeasuredMember} {offsets offsets' : List Nat}
    {alignment alignment' size size' : Nat} (h : IsTight packed ms offsets alignment size)
    (h' : IsTight packed ms offsets' alignment' size') :
    size = size' ∧ alignment = alignment' := by
  have hoffsets := eq_tightOffsets h.length_eq h.offset_isLeast
  rw [← eq_tightOffsets h'.length_eq h'.offset_isLeast] at hoffsets
  subst hoffsets
  obtain rfl := h.alignment_isGreatest.unique h'.alignment_isGreatest
  exact ⟨h.size_isLeast.unique h'.size_isLeast, rfl⟩

theorem Takes.unique {field : Field} {needs needs' : Needs} (h : Takes s p field needs)
    (h' : Takes s p field needs') : needs = needs' := by
  induction h generalizing needs' with
  | void | scalar | pointer | string | fill =>
    cases h'
    rfl
  | array length helement ih =>
    cases h' with
    | array _ helement' => rw [ih helement']
  | struct known hkind hd hms hneeds htight ih =>
    cases h' with
    | struct known' _ hd' hms' hneeds' htight' =>
      cases hd.symm.trans hd'
      cases hms.symm.trans hms'
      rw [List.map_congr_left fun m hm => by rw [ih m hm (hneeds' m hm)]] at htight
      obtain ⟨rfl, rfl⟩ := htight.unique htight'
      rfl
    | union _ hkind' => cases hkind.symm.trans hkind'
  | @union id d ms known alignment size hkind hd hms hneeds hsize halignment ih =>
    cases h' with
    | struct _ hkind' => cases hkind.symm.trans hkind'
    | union known' _ hd' hms' hneeds' hsize' halignment' =>
      cases hd.symm.trans hd'
      cases hms.symm.trans hms'
      have hknown : ∀ m ∈ ms, known m = known' m := fun m hm => ih m hm (hneeds' m hm)
      have hsizes : {x | x = 0 ∨ ∃ m ∈ ms, x = (known m).size} =
          {x | x = 0 ∨ ∃ m ∈ ms, x = (known' m).size} := by
        ext x
        exact or_congr_right (exists_congr fun m => and_congr_right fun hm => by rw [hknown m hm])
      have halignments : {x | x = 1 ∨ ∃ m ∈ ms,
            x = ((known m).measured m).placedAlignment d.isPacked} =
          {x | x = 1 ∨ ∃ m ∈ ms, x = ((known' m).measured m).placedAlignment d.isPacked} := by
        ext x
        exact or_congr_right (exists_congr fun m => and_congr_right fun hm => by rw [hknown m hm])
      rw [hsizes] at hsize
      rw [halignments] at halignment
      rw [hsize.unique hsize', halignment.unique halignment']

/-! ### What is measured -/

/-- A field is measured as what it takes. -/
theorem Field.exists_takes {field : Field}
    (hsized : ∀ f ∈ field.layers, f.isUnsized = false)
    (hlimit : ∀ f ∈ field.layers, ∀ needs, Takes s p f needs → needs.size < wordLimit)
    (hcore : ∀ id, field.core = .composite id → ∃ l, s.layout p id = .ok l ∧
      Takes s p (.composite id) ⟨l.size, l.alignment⟩) :
    ∃ needs, Takes s p field needs ∧ field.sizeBy s p (s.layout p) = .ok needs.size ∧
      field.alignmentBy p (s.layout p) = .ok needs.alignment := by
  induction field with
  | void => exact ⟨_, .void, rfl, rfl⟩
  | scalar kind => exact ⟨_, .scalar kind, rfl, rfl⟩
  | pointer target => exact ⟨_, .pointer target, rfl, rfl⟩
  | fill counts => exact ⟨_, .fill counts, rfl, rfl⟩
  | string abi =>
    refine ⟨_, .string abi, ?_, ?_⟩
    · rw [sizeBy, s.layout_objectType p abi]
      rfl
    · rw [alignmentBy, s.layout_objectType p abi]
      rfl
  | composite id =>
    obtain ⟨l, hl, htakes⟩ := hcore id rfl
    refine ⟨_, htakes, ?_, ?_⟩
    · rw [sizeBy, hl]
      rfl
    · rw [alignmentBy, hl]
      rfl
  | array element length ih =>
    obtain ⟨needs, htakes, hsize, halignment⟩ := ih
      (fun f hf => hsized f (List.mem_cons_of_mem _ hf))
      (fun f hf => hlimit f (List.mem_cons_of_mem _ hf)) hcore
    cases length with
    | none =>
      have hfalse : true = false := hsized _ List.mem_cons_self
      cases hfalse
    | some n =>
      have htakes' := Takes.array n htakes
      refine ⟨_, htakes', ?_, halignment⟩
      rw [sizeBy, hsize]
      exact if_pos (hlimit _ List.mem_cons_self _ htakes')

theorem measure_eq_measured {m : Member} {needs : Needs} (hsized : m.2.isUnsized = false)
    (hsize : m.2.sizeBy s p (s.layout p) = .ok needs.size)
    (halignment : m.2.alignmentBy p (s.layout p) = .ok needs.alignment) :
    measure s p (s.layout p) m = .ok (needs.measured m) := by
  rw [measure, halignment, hsize, hsized]
  rfl

/-! ### What is placed -/

theorem greatestSize_eq (s : Schema) (type : String) {ms : List MeasuredMember}
    (hsized : ∀ m ∈ ms, m.size.isSome) :
    ∃ size, greatestSize s type ms = .ok size ∧
      IsGreatest {x | x = 0 ∨ ∃ m ∈ ms, x = m.size.getD 0} size := by
  induction ms with
  | nil => exact ⟨0, rfl, Or.inl rfl, by rintro x (rfl | ⟨m, hm, -⟩); exacts [le_rfl, by cases hm]⟩
  | cons m rest ih =>
    obtain ⟨size, hsize, hmem, hle⟩ := ih fun m' hm' => hsized m' (List.mem_cons_of_mem m hm')
    obtain ⟨n, hn⟩ := Option.isSome_iff_exists.mp (hsized m List.mem_cons_self)
    refine ⟨max n size, by simp only [greatestSize, hn, hsize]; rfl, ?_, ?_⟩
    · rcases max_choice n size with hmax | hmax
      · exact Or.inr ⟨m, List.mem_cons_self, by rw [hmax, hn]; rfl⟩
      · rw [hmax]
        exact hmem.imp_right fun ⟨m', hm', hx⟩ => ⟨m', List.mem_cons_of_mem m hm', hx⟩
    · rintro x (rfl | ⟨m', hm', rfl⟩)
      · exact Nat.zero_le _
      · rcases List.mem_cons.mp hm' with rfl | hm'
        · rw [hn]
          exact le_max_left _ _
        · exact (hle (Or.inr ⟨m', hm', rfl⟩)).trans (le_max_right _ _)

/-- A placement within the limit of an offset is within all limits. -/
theorem withinLimits_tightOffsets {packed : Bool} {ms : List MeasuredMember} {size : Nat}
    (hend : lastEnd 0 ms (tightOffsets packed 0 ms) ≤ size) (hsize : size < offsetLimit) :
    WithinLimits ms (tightOffsets packed 0 ms) size := by
  have hbounds := (bounds_tightOffsets packed 0 ms).2
  have hlimits : offsetLimit < wordLimit := by decide
  refine ⟨fun x hx => ?_, fun x hx => ?_, hsize.trans hlimits⟩
  · obtain ⟨i, hi, rfl⟩ := List.mem_iff_getElem.mp hx
    have hi' : i < ms.length := by rwa [length_tightOffsets] at hi
    have hzip : (ms[i], (tightOffsets packed 0 ms)[i]) ∈ ms.zip (tightOffsets packed 0 ms) := by
      rw [← List.getElem_zip (h := by rw [List.length_zip]; omega)]
      exact List.getElem_mem _
    have := (hbounds _ hzip).2
    omega
  · rw [memberEnds, ← List.map_uncurry_zip_eq_zipWith] at hx
    obtain ⟨⟨m, offset⟩, hzip, rfl⟩ := List.mem_map.mp hx
    have : offset + m.size.getD 0 ≤ _ := (hbounds _ hzip).2
    simp only [Function.uncurry_apply_pair]
    omega

/-- A type of measured members has a layout of the size that it takes. -/
theorem exists_layout_takes {id : TypeId} {d : Definition} {ms : List Member}
    {needs : Member → Needs} (hd : s.definition id = .ok d) (hms : s.members id = .ok ms)
    (horigin : d.origin = none) (htakes : ∀ m ∈ ms, Takes s p m.2 (needs m))
    (hmeasured : ∀ m ∈ ms, measure s p (s.layout p) m = .ok ((needs m).measured m))
    (hlimit : ∀ needs, Takes s p (.composite id) needs → needs.size < offsetLimit) :
    ∃ l, s.layout p id = .ok l ∧ Takes s p (.composite id) ⟨l.size, l.alignment⟩ := by
  have hlayout := Schema.layout_eq_place hd hms (mapM_eq_map hmeasured)
  have hsized : ∀ m ∈ ms.map fun m => (needs m).measured m, m.size.isSome := by
    intro m hm
    obtain ⟨m', -, rfl⟩ := List.mem_map.mp hm
    rfl
  cases hkind : s.kind id with
  | struct =>
    have htight := isTight_tightOffsets d.isPacked (ms.map fun m => (needs m).measured m)
    have hstruct := Takes.struct needs hkind hd hms htakes htight
    have hfirst := fun m hm => hsized m (List.mem_of_mem_dropLast hm)
    rw [hkind, place_struct_eq horigin hfirst] at hlayout
    simp only [if_pos (withinLimits_tightOffsets (le_roundUp _ _) (hlimit _ hstruct))] at hlayout
    exact ⟨_, hlayout, hstruct⟩
  | union =>
    obtain ⟨size, hsize, hgreatest⟩ := greatestSize_eq s (s.name id) hsized
    have halignment := isGreatest_commonAlignment d.isPacked (ms.map fun m => (needs m).measured m)
    simp only [List.mem_map, exists_exists_and_eq_and] at hgreatest halignment
    have hunion := Takes.union needs hkind hd hms htakes hgreatest halignment
    rw [hkind, place_union horigin] at hlayout
    simp only [unionPlacement, hsize] at hlayout
    exact ⟨_, hlayout, hunion⟩

end TypedMemory
