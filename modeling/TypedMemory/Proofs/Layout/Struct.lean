import Mathlib.Order.MinMax
import TypedMemory.Proofs.Layout.Placement
import TypedMemory.Proofs.Layout.Recall
import TypedMemory.Proofs.Rounding

/-!
# Structs without an origin field

In unbounded numbers the members of a struct have one placement in which each of
them starts at the least suitable offset behind the one before (`IsTight`,
`tightOffsets`).  The layout of the struct is this placement, or a failure where an
offset, an end or the size is past its limit (`place_struct_eq`).
-/

namespace TypedMemory

/-! ### Placement in unbounded numbers -/

/-- The ends of members that start at `offsets`. -/
def memberEnds (ms : List MeasuredMember) (offsets : List Nat) : List Nat :=
  List.zipWith (fun m offset => offset + m.size.getD 0) ms offsets

/-- The end of the last of these members, of which the first starts at or after `cursor`. -/
def lastEnd (cursor : Nat) (ms : List MeasuredMember) (offsets : List Nat) : Nat :=
  (cursor :: memberEnds ms offsets).getLast (List.cons_ne_nil _ _)

/-- The placement of the members of a struct with the least padding. -/
structure IsTight (packed : Bool) (ms : List MeasuredMember) (offsets : List Nat)
    (alignment size : Nat) : Prop where
  length_eq : offsets.length = ms.length
  /-- An offset is the least one behind the member before, or from zero on. -/
  offset_isLeast : ∀ (i : Nat) (m : MeasuredMember) (before offset : Nat), ms[i]? = some m →
    (0 :: memberEnds ms offsets)[i]? = some before → offsets[i]? = some offset →
      IsLeast {x | max 1 (m.placedAlignment packed) ∣ x ∧ before ≤ x} offset
  alignment_isGreatest : IsGreatest {x | x = 1 ∨ ∃ m ∈ ms, x = m.placedAlignment packed} alignment
  size_isLeast : IsLeast {x | alignment ∣ x ∧ lastEnd 0 ms offsets ≤ x} size

/-- All numbers of a placement are below their limits. -/
def WithinLimits (ms : List MeasuredMember) (offsets : List Nat) (size : Nat) : Prop :=
  (∀ x ∈ offsets, x < offsetLimit) ∧ (∀ x ∈ memberEnds ms offsets, x < wordLimit) ∧
    size < wordLimit

instance (ms : List MeasuredMember) (offsets : List Nat) (size : Nat) :
    Decidable (WithinLimits ms offsets size) :=
  inferInstanceAs (Decidable (_ ∧ _ ∧ _))

/-- The least offsets from `cursor` on. -/
def tightOffsets (packed : Bool) : (cursor : Nat) → List MeasuredMember → List Nat
  | _, [] => []
  | cursor, m :: rest =>
    let offset := roundUp cursor (m.placedAlignment packed)
    offset :: tightOffsets packed (offset + m.size.getD 0) rest

variable {s : Schema} {type : String} {packed : Bool} {cursor : Nat} {m : MeasuredMember}
  {ms rest : List MeasuredMember}

theorem lastEnd_cons {offset : Nat} {offsets : List Nat} :
    lastEnd cursor (m :: rest) (offset :: offsets) =
      lastEnd (offset + m.size.getD 0) rest offsets := rfl

theorem length_tightOffsets (packed : Bool) (cursor : Nat) (ms : List MeasuredMember) :
    (tightOffsets packed cursor ms).length = ms.length := by
  induction ms generalizing cursor with
  | nil => rfl
  | cons m rest ih => rw [tightOffsets, List.length_cons, List.length_cons, ih]

theorem isLeast_tightOffsets {i before offset : Nat} (hm : ms[i]? = some m)
    (hbefore : (cursor :: memberEnds ms (tightOffsets packed cursor ms))[i]? = some before)
    (hoffset : (tightOffsets packed cursor ms)[i]? = some offset) :
    IsLeast {x | max 1 (m.placedAlignment packed) ∣ x ∧ before ≤ x} offset := by
  induction ms generalizing cursor i with
  | nil => cases hm
  | cons first rest ih =>
    cases i with
    | zero =>
      cases hm
      cases hbefore
      cases hoffset
      exact isLeast_roundUp _ _
    | succ i => exact ih hm hbefore hoffset

/-- The members are behind `cursor` and end before the end of the last. -/
theorem bounds_tightOffsets (packed : Bool) (cursor : Nat) (ms : List MeasuredMember) :
    cursor ≤ lastEnd cursor ms (tightOffsets packed cursor ms) ∧
      ∀ x ∈ ms.zip (tightOffsets packed cursor ms), cursor ≤ x.2 ∧
        x.2 + x.1.size.getD 0 ≤ lastEnd cursor ms (tightOffsets packed cursor ms) := by
  induction ms generalizing cursor with
  | nil => exact ⟨Nat.le_refl _, fun x hx => absurd hx List.not_mem_nil⟩
  | cons m rest ih =>
    have hcursor := le_roundUp cursor (m.placedAlignment packed)
    rw [tightOffsets, lastEnd_cons]
    obtain ⟨hlast, hrest⟩ := ih (roundUp cursor (m.placedAlignment packed) + m.size.getD 0)
    refine ⟨by omega, fun x hx => ?_⟩
    rcases List.mem_cons.mp hx with rfl | hx
    · exact ⟨hcursor, hlast⟩
    · obtain ⟨hlow, hhigh⟩ := hrest x hx
      exact ⟨by omega, hhigh⟩

theorem dvd_tightOffsets {x : MeasuredMember × Nat}
    (hx : x ∈ ms.zip (tightOffsets packed cursor ms)) :
    max 1 (x.1.placedAlignment packed) ∣ x.2 := by
  induction ms generalizing cursor with
  | nil => cases hx
  | cons m rest ih =>
    rcases List.mem_cons.mp hx with rfl | hx
    · exact dvd_roundUp _ _
    · exact ih hx

/-- Each member ends before the later ones start. -/
theorem pairwise_tightOffsets (packed : Bool) (cursor : Nat) (ms : List MeasuredMember) :
    (ms.zip (tightOffsets packed cursor ms)).Pairwise fun x y => x.2 + x.1.size.getD 0 ≤ y.2 := by
  induction ms generalizing cursor with
  | nil => exact List.Pairwise.nil
  | cons m rest ih =>
    refine List.Pairwise.cons (fun y hy => ?_) (ih _)
    exact ((bounds_tightOffsets packed _ rest).2 y hy).1

/-! ### The alignment of the struct -/

theorem isGreatest_foldl_max (values : List Nat) (least : Nat) :
    IsGreatest {x | x = least ∨ x ∈ values} (values.foldl max least) := by
  induction values generalizing least with
  | nil => exact ⟨Or.inl rfl, by rintro x (rfl | hx); exacts [Nat.le_refl _, by cases hx]⟩
  | cons a rest ih =>
    obtain ⟨hmem, hle⟩ := ih (max least a)
    refine ⟨?_, ?_⟩
    · rcases hmem with h | h
      · rcases max_choice least a with hmax | hmax
        · exact Or.inl (h.trans hmax)
        · exact Or.inr (List.mem_cons.mpr (Or.inl (h.trans hmax)))
      · exact Or.inr (List.mem_cons_of_mem a h)
    · have hmax : max least a ≤ rest.foldl max (max least a) := hle (Or.inl rfl)
      rintro x (rfl | hx)
      · exact (le_max_left _ _).trans hmax
      · rcases List.mem_cons.mp hx with rfl | hx
        · exact (le_max_right _ _).trans hmax
        · exact hle (Or.inr hx)

theorem isGreatest_commonAlignment (packed : Bool) (ms : List MeasuredMember) :
    IsGreatest {x | x = 1 ∨ ∃ m ∈ ms, x = m.placedAlignment packed}
      (commonAlignment packed ms) := by
  have h := isGreatest_foldl_max (ms.map (·.placedAlignment packed)) 1
  simpa only [commonAlignment, List.mem_map, eq_comm] using h

theorem isTight_tightOffsets (packed : Bool) (ms : List MeasuredMember) :
    IsTight packed ms (tightOffsets packed 0 ms) (commonAlignment packed ms)
      (roundUp (lastEnd 0 ms (tightOffsets packed 0 ms)) (commonAlignment packed ms)) := by
  have hgreatest := isGreatest_commonAlignment packed ms
  refine ⟨length_tightOffsets _ _ _, fun i m before offset => isLeast_tightOffsets, hgreatest, ?_⟩
  have hleast := isLeast_roundUp (lastEnd 0 ms (tightOffsets packed 0 ms))
    (commonAlignment packed ms)
  rwa [max_eq_right (hgreatest.2 (Or.inl rfl))] at hleast

/-! ### What the program places -/

theorem placeForward_eq (hsized : ∀ m ∈ ms.dropLast, m.size.isSome) (hcursor : cursor < wordLimit) :
    placeForward s type packed cursor ms =
      if (∀ x ∈ tightOffsets packed cursor ms, x < offsetLimit) ∧
          ∀ x ∈ memberEnds ms (tightOffsets packed cursor ms), x < wordLimit then
        .ok ((tightOffsets packed cursor ms).map Int.ofNat,
          lastEnd cursor ms (tightOffsets packed cursor ms))
      else .error (tooLarge type) := by
  induction ms generalizing cursor with
  | nil => rfl
  | cons m rest ih =>
    have hm : m.size.isSome ∨ rest = [] := by
      cases rest with
      | nil => exact Or.inr rfl
      | cons next rest => exact Or.inl (hsized m List.mem_cons_self)
    have hrest : ∀ m' ∈ rest.dropLast, m'.size.isSome := by
      intro m' hm'
      cases rest with
      | nil => cases hm'
      | cons next rest => exact hsized m' (List.mem_cons_of_mem m hm')
    rw [placeForward_cons hm, roundUp?_eq hcursor, tightOffsets, lastEnd_cons, memberEnds,
      List.zipWith_cons_cons]
    simp only [List.forall_mem_cons]
    generalize roundUp cursor (m.placedAlignment packed) = offset
    by_cases hfits : offset < offsetLimit ∧ offset + m.size.getD 0 < wordLimit
    · rw [if_pos (by omega), Option.elim_some, if_pos hfits, ih hrest hfits.2]
      by_cases hmore : (∀ x ∈ tightOffsets packed (offset + m.size.getD 0) rest, x < offsetLimit) ∧
          ∀ x ∈ memberEnds rest (tightOffsets packed (offset + m.size.getD 0) rest), x < wordLimit
      · rw [if_pos hmore, if_pos ⟨⟨hfits.1, hmore.1⟩, hfits.2, hmore.2⟩]
        rfl
      · rw [if_neg hmore, if_neg fun h => hmore ⟨h.1.2, h.2.2⟩]
        rfl
    · have hnot : ∀ {offsets ends : Prop},
          ¬ ((offset < offsetLimit ∧ offsets) ∧ offset + m.size.getD 0 < wordLimit ∧ ends) :=
        fun h => hfits ⟨h.1.1, h.2.1⟩
      by_cases hround : offset < wordLimit
      · rw [if_pos hround, Option.elim_some, if_neg hfits, if_neg hnot]
      · -- an offset past the address space is refused by the rounding
        rw [if_neg hround, Option.elim_none, if_neg hnot]

theorem lastEnd_lt {offsets : List Nat} (h : ∀ x ∈ memberEnds ms offsets, x < wordLimit) :
    lastEnd 0 ms offsets < wordLimit := by
  rcases List.mem_cons.mp (List.getLast_mem (List.cons_ne_nil 0 (memberEnds ms offsets))) with
    hzero | hend
  · rw [lastEnd, hzero]
    decide
  · exact h _ hend

theorem structPlacement_eq (hsized : ∀ m ∈ ms.dropLast, m.size.isSome) :
    structPlacement s type ms packed none =
      let offsets := tightOffsets packed 0 ms
      let size := roundUp (lastEnd 0 ms offsets) (commonAlignment packed ms)
      if WithinLimits ms offsets size then
        .ok ⟨offsets.map Int.ofNat, size, commonAlignment packed ms, 0⟩
      else .error (tooLarge type) := by
  have hzero : 0 < wordLimit := by decide
  unfold structPlacement
  simp only [originIndex, List.take_zero, List.drop_zero, List.reverse_nil, placeBackward, bind,
    Except.bind, placeForward_eq hsized hzero]
  by_cases hfits : (∀ x ∈ tightOffsets packed 0 ms, x < offsetLimit) ∧
      ∀ x ∈ memberEnds ms (tightOffsets packed 0 ms), x < wordLimit
  · have hlast := lastEnd_lt hfits.2
    simp only [if_pos hfits, Int.natAbs_zero, Nat.add_zero, if_pos hlast, roundUp?_eq hlast]
    generalize roundUp _ (commonAlignment packed ms) = size
    by_cases hsize : size < wordLimit
    · rw [if_pos hsize, if_pos ⟨hfits.1, hfits.2, hsize⟩]
      rfl
    · rw [if_neg hsize, if_neg fun h => hsize h.2.2]
  · rw [if_neg hfits, if_neg fun h => hfits ⟨h.1, h.2.1⟩]

/-! ### The layout of a struct -/

/-- The layout of a struct with its members at `offsets`. -/
def structLayout (type : String) (p : Platform) (ms : List MeasuredMember) (offsets : List Nat)
    (alignment size : Nat) : Layout :=
  { name := type, kind := .struct, platform := p, size, alignment, start := 0
    fields := (ms.zip offsets).map fun x =>
      ⟨x.1.name, x.1.field, x.2, x.1.size.getD 0, x.1.alignment⟩ }

theorem place_struct_eq {p : Platform} {d : Definition} (horigin : d.origin = none)
    (hsized : ∀ m ∈ ms.dropLast, m.size.isSome) :
    place s p type .struct d ms =
      let offsets := tightOffsets d.isPacked 0 ms
      let size := roundUp (lastEnd 0 ms offsets) (commonAlignment d.isPacked ms)
      if WithinLimits ms offsets size then
        .ok (structLayout type p ms offsets (commonAlignment d.isPacked ms) size)
      else .error (tooLarge type) := by
  rw [place_struct, horigin, structPlacement_eq hsized]
  simp only
  split
  next hlimits =>
    simp only [Except.map, Placement.layout, structLayout, List.zipWith_map_right, List.zip,
      List.map_zipWith]
    rfl
  next hlimits => rfl

theorem sized_of_placeForward {placed : List Int × Nat}
    (h : placeForward s type packed cursor ms = .ok placed) : ∀ m ∈ ms.dropLast, m.size.isSome := by
  induction ms generalizing cursor placed with
  | nil => exact nofun
  | cons m rest ih =>
    obtain ⟨hm, offset, more, -, -, hmore, -⟩ := placeForward_cons_eq_ok_iff.mp h
    cases rest with
    | nil => exact nofun
    | cons next rest =>
      intro m' hm'
      rcases List.mem_cons.mp hm' with rfl | hm'
      · exact hm.resolve_right (List.cons_ne_nil _ _)
      · exact ih hmore m' hm'

/-- A struct with a layout has its members at the tight offsets. -/
theorem eq_structLayout_of_place {p : Platform} {d : Definition} {l : Layout}
    (horigin : d.origin = none) (h : place s p type .struct d ms = .ok l) :
    let offsets := tightOffsets d.isPacked 0 ms
    let size := roundUp (lastEnd 0 ms offsets) (commonAlignment d.isPacked ms)
    (∀ m ∈ ms.dropLast, m.size.isSome) ∧ WithinLimits ms offsets size ∧
      l = structLayout type p ms offsets (commonAlignment d.isPacked ms) size := by
  have hsized : ∀ m ∈ ms.dropLast, m.size.isSome := by
    have h' := h
    rw [place_struct, horigin] at h'
    obtain ⟨placement, hplacement, -⟩ := map_eq_ok_iff.mp h'
    obtain ⟨index, below, start, above, last, hindex, -, habove, -, -⟩ :=
      exists_parts_of_structPlacement hplacement
    cases hindex
    exact sized_of_placeForward habove
  rw [place_struct_eq horigin hsized] at h
  simp only at h ⊢
  split at h
  next hlimits =>
    cases h
    exact ⟨hsized, hlimits, rfl⟩
  next => cases h

/-- Members at tight offsets do not overlap, and they are aligned within the struct. -/
theorem fields_structLayout (packed : Bool) {p : Platform} {alignment size : Nat}
    (hsize : lastEnd 0 ms (tightOffsets packed 0 ms) ≤ size) :
    let l := structLayout type p ms (tightOffsets packed 0 ms) alignment size
    l.fields.Pairwise (fun f g => f.offset + (f.size : Int) ≤ g.offset) ∧
      ∀ f ∈ l.fields, 0 ≤ f.offset ∧ f.offset + f.size ≤ l.size ∧
        ((max 1 (if packed then 1 else f.alignment) : Nat) : Int) ∣ f.offset := by
  refine ⟨?_, ?_⟩
  · rw [structLayout, List.pairwise_map]
    refine (pairwise_tightOffsets packed 0 ms).imp fun h => ?_
    exact Int.ofNat_le.mpr h
  · intro f hf
    obtain ⟨x, hx, rfl⟩ := List.mem_map.mp hf
    obtain ⟨hlow, hhigh⟩ := (bounds_tightOffsets packed 0 ms).2 x hx
    refine ⟨Int.natCast_nonneg _, ?_, Int.natCast_dvd_natCast.mpr (dvd_tightOffsets hx)⟩
    exact Int.ofNat_le.mpr (hhigh.trans hsize)

/-- The layout of a struct is the placement with the least padding, and there is none
exactly where one of its numbers passes the limit.  So in a layout the members keep
their order, they do not overlap, and they are aligned within the size of the struct. -/
theorem layout_of_struct {p : Platform} {id : TypeId} {d : Definition} {members : List Member}
    (hkind : s.kind id = .struct) (hd : s.definition id = .ok d) (horigin : d.origin = none)
    (hmembers : s.members id = .ok members)
    (hmeasured : members.mapM (measure s p (s.layout p)) = .ok ms)
    (hsized : ∀ m ∈ ms.dropLast, m.size.isSome) :
    ∃ offsets alignment size, IsTight d.isPacked ms offsets alignment size ∧
      s.layout p id =
        (if WithinLimits ms offsets size then
          .ok (structLayout (s.name id) p ms offsets alignment size)
        else .error (.layout (.tooLarge (s.name id)))) ∧
      ∀ l, s.layout p id = .ok l →
        l.fields.Pairwise (fun f g => f.offset + (f.size : Int) ≤ g.offset) ∧
          ∀ f ∈ l.fields, 0 ≤ f.offset ∧ f.offset + f.size ≤ l.size ∧
            ((max 1 (if d.isPacked then 1 else f.alignment) : Nat) : Int) ∣ f.offset := by
  have hlayout := (Schema.layout_eq_place hd hmembers hmeasured).trans (hkind.symm ▸
    place_struct_eq horigin hsized)
  refine ⟨_, _, _, isTight_tightOffsets d.isPacked ms, hlayout, ?_⟩
  intro l hl
  rw [hlayout] at hl
  simp only at hl
  split at hl
  next hlimits =>
    cases hl
    exact fields_structLayout d.isPacked (le_roundUp _ _)
  next hlimits => cases hl

/-- A struct with padding before its second member and an array of unknown length behind. -/
def recordSchema : Schema :=
  { declared := [⟨"Record", .struct, some
      { fields := [("flag", .scalar .bool), ("count", .scalar .usize),
          ("name", .array (.scalar .ubyte) none)] }⟩] }

/-- The members of `recordSchema`, measured. -/
def recordMembers : List MeasuredMember :=
  [⟨"flag", .scalar .bool, some 1, 1⟩, ⟨"count", .scalar .usize, some 8, 8⟩,
    ⟨"name", .array (.scalar .ubyte) none, none, 1⟩]

theorem layout_of_record :
    (∃ offsets alignment size, IsTight false recordMembers offsets alignment size) ∧
    ∃ l, recordSchema.layout .host (.declared 0) = .ok l ∧ l.fields.map (·.offset) = [0, 8, 16] ∧
      l.fields.Pairwise fun f g => f.offset + (f.size : Int) ≤ g.offset := by
  have hmembers : recordSchema.members (.declared 0) =
      .ok (recordMembers.map fun m => (m.name, m.field)) := by
    decide +kernel
  have hmeasured : (recordMembers.map fun m => (m.name, m.field)).mapM
      (measure recordSchema .host (recordSchema.layout .host)) = .ok recordMembers := by
    decide +kernel
  obtain ⟨offsets, alignment, size, htight, -, hfields⟩ :=
    layout_of_struct rfl rfl rfl hmembers hmeasured (by decide)
  have hoffsets : (recordSchema.layout .host (.declared 0)).map (·.fields.map (·.offset)) =
      .ok [0, 8, 16] := by
    decide +kernel
  obtain ⟨l, hl, hoffsets⟩ := map_eq_ok_iff.mp hoffsets
  exact ⟨⟨offsets, alignment, size, htight⟩, l, hl, hoffsets, (hfields l hl).1⟩

end TypedMemory
