import TypedMemory.Proofs.Layout.Derived
import TypedMemory.Proofs.Layout.Growth

/-!
# Structs with an origin field

A member of a struct can be the origin.  It is at offset zero; the members before it are
packed downwards from there, and the others are placed as in a struct that begins with
the origin (`Layout.AnchoredAt`).

* `packedBelow_placeBackward`: the members before the origin;
* `structPlacement_of_placeForward`: the others, as a struct of their own;
* `layout_of_origin`: the layout of the struct, and where there is none.
-/

namespace TypedMemory

variable {s : Schema} {p : Platform} {type : String} {packed : Bool} {ms : List MeasuredMember}

/-! ### The index of the origin -/

section Index

variable {origin : String} {index : Nat}

theorem originIndex_eq_ok_iff : originIndex type ms (some origin) = .ok index ↔
    ms.findIdx? (·.name == origin) = some index := by
  rw [originIndex]
  cases ms.findIdx? (·.name == origin) <;> simp

theorem lt_length_of_originIndex (h : originIndex type ms (some origin) = .ok index) :
    index < ms.length :=
  (List.findIdx?_eq_some_iff_getElem.mp (originIndex_eq_ok_iff.mp h)).1

theorem originIndex_of_nodup (hnodup : (ms.map (·.name)).Nodup)
    (h : (ms.map (·.name))[index]? = some origin) :
    originIndex type ms (some origin) = .ok index := by
  obtain ⟨hlt, hname⟩ := List.getElem?_eq_some_iff.mp h
  rw [List.getElem_map] at hname
  rw [originIndex_eq_ok_iff, List.findIdx?_eq_some_iff_getElem]
  refine ⟨by simpa using hlt, by simpa using hname, ?_⟩
  intro j hj hfirst
  have heq : (ms.map (·.name))[j] = (ms.map (·.name))[index] := by
    rw [List.getElem_map, List.getElem_map, hname]
    exact beq_iff_eq.mp hfirst
  exact absurd ((hnodup.getElem_inj_iff).mp heq) (by omega)

theorem originIndex_of_notMem (h : origin ∉ ms.map (·.name)) :
    originIndex type ms (some origin) = .error (.layout (.unknownOrigin type origin)) := by
  rw [originIndex]
  cases hfound : ms.findIdx? (·.name == origin) with
  | none => rfl
  | some index =>
    obtain ⟨hlt, hname, -⟩ := List.findIdx?_eq_some_iff_getElem.mp hfound
    exact absurd (List.mem_map.mpr ⟨_, List.getElem_mem hlt, beq_iff_eq.mp hname⟩) h

end Index

/-! ### Before the origin -/

/-- The fields end at `high`, and each of them ends where the next one starts. -/
def PackedBelow (high : Int) (fields : List PlacedField) : Prop :=
  ∀ (i : Nat) (f : PlacedField), fields[i]? = some f →
    f.offset = high - (((fields.drop i).map (·.size)).sum : Nat)

theorem PackedBelow.concat {fields : List PlacedField} {f : PlacedField} {high : Int}
    (h : PackedBelow f.offset fields) (hf : f.offset + (f.size : Int) = high) :
    PackedBelow high (fields ++ [f]) := by
  intro i g hg
  by_cases hi : i < fields.length
  · rw [List.getElem?_append_left hi] at hg
    rw [List.drop_append_of_le_length hi.le, List.map_append, List.sum_append, h i g hg]
    show f.offset - _ = high - ((_ + (f.size + 0) : Nat) : Int)
    omega
  · rw [List.getElem?_append_right (by omega)] at hg
    obtain ⟨hlast, rfl⟩ := List.getElem?_eq_some_iff.mp hg
    have hindex : i = fields.length := by
      rw [List.length_singleton] at hlast
      omega
    subst hindex
    rw [List.drop_left]
    simp only [Nat.sub_self, List.getElem_cons_zero]
    show f.offset = high - ((f.size + 0 : Nat) : Int)
    omega

theorem packedBelow_placeBackward {start lowest : Int} {offsets : List Int}
    (h : placeBackward type start ms = .ok (offsets, lowest)) :
    let fields := (List.zipWith MeasuredMember.placed ms offsets).reverse
    PackedBelow start fields ∧ lowest = start - ((fields.map (·.size)).sum : Nat) := by
  induction ms generalizing start offsets with
  | nil =>
    cases h
    exact ⟨nofun, (Int.sub_zero _).symm⟩
  | cons m rest ih =>
    obtain ⟨size, ⟨more, low⟩, hsize, -, hmore, hplaced⟩ := placeBackward_cons_eq_ok_iff.mp h
    obtain ⟨rfl, rfl⟩ := Prod.mk.inj hplaced
    obtain ⟨hbelow, hlowest⟩ := ih hmore
    have hm : (m.placed (start - size)).size = size := by
      rw [MeasuredMember.placed, hsize, Option.getD_some]
    simp only [List.zipWith_cons_cons, List.reverse_cons]
    refine ⟨hbelow.concat ?_, ?_⟩
    · rw [hm]
      exact Int.sub_add_cancel _ _
    · rw [hlowest, List.map_append, List.sum_append]
      show _ = _ - ((_ + ((m.placed _).size + 0) : Nat) : Int)
      rw [hm]
      omega

/-- Whatever else is wrong with the members, the failure is one of the layout. -/
theorem placeBackward_of_unsized (start : Int) (h : ∃ m ∈ ms, m.size = none) :
    ∃ fault, placeBackward type start ms = .error (.layout fault) := by
  induction ms generalizing start with
  | nil =>
    obtain ⟨m, hm, -⟩ := h
    cases hm
  | cons m rest ih =>
    rw [placeBackward]
    cases hsize : m.size with
    | none => exact ⟨_, rfl⟩
    | some size =>
      simp only
      split
      next =>
        obtain ⟨m', hm', hunsized⟩ := h
        rcases List.mem_cons.mp hm' with rfl | hm'
        · cases hsize.symm.trans hunsized
        · obtain ⟨fault, hfault⟩ := ih (start - size) ⟨m', hm', hunsized⟩
          exact ⟨fault, by rw [hfault]; rfl⟩
      next => exact ⟨_, rfl⟩

/-! ### From the origin on -/

/-- Members that have a place from offset zero on have one in a struct of their own. -/
theorem structPlacement_of_placeForward {above : List Int} {last : Nat}
    (h : placeForward s type packed 0 ms = .ok (above, last))
    (hsize : roundUp last (commonAlignment packed ms) < wordLimit) (s' : Schema) (other : String) :
    structPlacement s' other ms packed none =
      .ok ⟨above, roundUp last (commonAlignment packed ms), commonAlignment packed ms, 0⟩ := by
  have hsized := sized_of_placeForward h
  rw [placeForward_eq hsized (by decide)] at h
  split at h
  next hlimits =>
    cases h
    rw [structPlacement_eq hsized]
    exact if_pos ⟨hlimits.1, hlimits.2, hsize⟩
  next => cases h

/-! ### Both sides -/

/-- The members of a struct around its origin, which is the one at `index`.  The first part says
that the fields are the measured members, so that the sizes below are those of the members. -/
structure Layout.AnchoredAt (l : Layout) (packed : Bool) (ms : List MeasuredMember) (index : Nat) :
    Prop where
  fields_eq : ∃ offsets : List Int, offsets.length = ms.length ∧
    l.fields = List.zipWith MeasuredMember.placed ms offsets
  /-- Before the origin there is no padding. -/
  offset_before : ∀ (i : Nat) (f : PlacedField), i < index → l.fields[i]? = some f →
    f.offset = -((((l.fields.take index).drop i).map (·.size)).sum : Nat)
  offset_origin : ∀ f, l.fields[index]? = some f → f.offset = 0
  start_eq : l.start = -(((l.fields.take index).map (·.size)).sum : Nat)
  alignment_isGreatest :
    IsGreatest {x | x = 1 ∨ ∃ m ∈ ms, x = m.placedAlignment packed} l.alignment
  size_isLeast : ∀ f, l.fields.getLast? = some f →
    IsLeast {x : Nat | l.alignment ∣ x ∧ -l.start + (f.offset + f.size) ≤ x} l.size
  inOrder : l.InOrder

/-- The end of placed members is that of the last one. -/
theorem last_of_placeForward {cursor last : Nat} {offsets : List Int} {f : PlacedField}
    (h : placeForward s type packed cursor ms = .ok (offsets, last))
    (hf : (List.zipWith MeasuredMember.placed ms offsets).getLast? = some f) :
    (last : Int) = f.offset + f.size := by
  induction ms generalizing cursor offsets with
  | nil => cases hf
  | cons m rest ih =>
    obtain ⟨-, offset, ⟨more, last⟩, -, -, hmore, hplaced⟩ := placeForward_cons_eq_ok_iff.mp h
    cases hplaced
    cases rest with
    | nil =>
      cases hmore
      cases hf
      rfl
    | cons next rest =>
      have hlength := length_placeForward hmore
      cases more with
      | nil => cases hlength
      | cons offset' more => exact ih hmore hf

theorem offset_of_placeForward {last : Nat} {offsets : List Int} {f : PlacedField}
    (h : placeForward s type packed 0 ms = .ok (offsets, last))
    (hf : (List.zipWith MeasuredMember.placed ms offsets)[0]? = some f) : f.offset = 0 := by
  rw [placeForward_eq (sized_of_placeForward h) (by decide)] at h
  split at h
  next =>
    cases h
    cases ms with
    | nil => cases hf
    | cons m rest =>
      cases hf
      show ((roundUp 0 (m.placedAlignment packed) : Nat) : Int) = 0
      rw [roundUp_eq_self (Nat.dvd_zero _)]
      rfl
  next => cases h

section Place

variable {d : Definition} {l : Layout} {origin : String} {index : Nat}

/-- The fields of a struct, on the two sides of the origin. -/
theorem exists_sides_of_place (horigin : d.origin = some origin)
    (hindex : originIndex type ms (some origin) = .ok index)
    (h : place s p type .struct d ms = .ok l) :
    ∃ (low : List PlacedField) (above : List Int) (last : Nat),
      l.fields = low ++ List.zipWith MeasuredMember.placed (ms.drop index) above ∧
      low.length = index ∧ PackedBelow 0 low ∧ l.start = -((low.map (·.size)).sum : Nat) ∧
      placeForward s type d.isPacked 0 (ms.drop index) = .ok (above, last) ∧
      l.size = roundUp (last + l.start.natAbs) (commonAlignment d.isPacked ms) ∧
      l.size < wordLimit := by
  rw [place_struct, horigin] at h
  obtain ⟨placement, hplacement, rfl⟩ := map_eq_ok_iff.mp h
  obtain ⟨index', below, start, above, last, hindex', hbelow, habove, hsize, rfl⟩ :=
    exists_parts_of_structPlacement hplacement
  cases hindex.symm.trans hindex'
  have hlength := (runsFrom_placeBackward hbelow).2
  obtain ⟨hpacked, hstart⟩ := packedBelow_placeBackward hbelow
  refine ⟨_, above, last, zipWith_placed_append hlength, ?_, hpacked, ?_, habove, rfl, hsize⟩
  · have hlt := lt_length_of_originIndex hindex
    rw [List.length_reverse, List.length_zipWith, hlength, Nat.min_self, List.length_reverse,
      List.length_take, Nat.min_eq_left hlt.le]
  · exact hstart.trans (Int.zero_sub _)

theorem anchoredAt_of_place (horigin : d.origin = some origin)
    (hindex : originIndex type ms (some origin) = .ok index)
    (h : place s p type .struct d ms = .ok l) : l.AnchoredAt d.isPacked ms index := by
  have hlt := lt_length_of_originIndex hindex
  have halignment := alignment_of_place h
  have hgreatest := isGreatest_commonAlignment d.isPacked ms
  have hone : 1 ≤ commonAlignment d.isPacked ms := hgreatest.2 (Or.inl rfl)
  obtain ⟨low, above, last, hfields, hlength, hpacked, hstart, habove, hsize, -⟩ :=
    exists_sides_of_place horigin hindex h
  have htake : l.fields.take index = low := by rw [hfields, List.take_left' hlength]
  have hlengthAbove := length_placeForward habove
  rw [List.length_drop] at hlengthAbove
  refine ⟨exists_offsets_of_place h, ?_, ?_, ?_, halignment ▸ hgreatest, ?_, inOrder_of_place h⟩
  · intro i f hi hf
    rw [hfields, List.getElem?_append_left (by omega)] at hf
    rw [htake]
    exact (hpacked i f hf).trans (Int.zero_sub _)
  · intro f hf
    rw [hfields, List.getElem?_append_right (by omega), hlength, Nat.sub_self] at hf
    exact offset_of_placeForward habove hf
  · rw [htake]
    exact hstart
  · intro f hf
    have hne : List.zipWith MeasuredMember.placed (ms.drop index) above ≠ [] := by
      rw [← List.length_pos_iff, List.length_zipWith, List.length_drop]
      omega
    rw [hfields, List.getLast?_append_of_ne_nil _ hne] at hf
    have hlast := last_of_placeForward habove hf
    have hleast := isLeast_roundUp (last + l.start.natAbs) (commonAlignment d.isPacked ms)
    rw [← hsize, max_eq_right hone, ← halignment] at hleast
    have hextent : -l.start + (f.offset + f.size) = ((last + l.start.natAbs : Nat) : Int) := by
      omega
    simp only [hextent, Int.ofNat_le]
    exact hleast

/-- The fields from the origin on are those of a struct without the members before it. -/
theorem exists_place_of_origin (hpower : ∀ m ∈ ms, (max 1 m.alignment).isPowerOfTwo)
    (horigin : d.origin = some origin)
    (hindex : originIndex type ms (some origin) = .ok index)
    (h : place s p type .struct d ms = .ok l) {d' : Definition} (horigin' : d'.origin = none)
    (hpacked : d'.isPacked = d.isPacked) (s' : Schema) (other : String) :
    ∃ l', place s' p other .struct d' (ms.drop index) = .ok l' ∧
      l'.fields = l.fields.drop index := by
  obtain ⟨low, above, last, hfields, hlength, -, -, habove, hsize, hlimit⟩ :=
    exists_sides_of_place horigin hindex h
  have hsubset : ms.drop index ⊆ ms := (List.drop_sublist index ms).subset
  have hdvd := commonAlignment_dvd_of_subset d.isPacked hsubset hpower
  have hone : ∀ ms, 1 ≤ commonAlignment d.isPacked ms :=
    fun ms => (isGreatest_commonAlignment d.isPacked ms).2 (Or.inl rfl)
  -- the members before the origin add to the extent and to the alignment, so the limit holds
  have hsmaller : roundUp last (commonAlignment d.isPacked (ms.drop index)) ≤ l.size := by
    rw [hsize]
    apply roundUp_mono (Nat.le_add_right _ _)
    rwa [max_eq_right (hone _), max_eq_right (hone _)]
  rw [place_struct, horigin', hpacked,
    structPlacement_of_placeForward habove (hsmaller.trans_lt hlimit) s' other]
  refine ⟨_, rfl, ?_⟩
  rw [hfields, List.drop_left' hlength]
  rfl

/-- A member of unknown size before the origin is refused. -/
theorem place_of_unsized (horigin : d.origin = some origin)
    (hindex : originIndex type ms (some origin) = .ok index)
    (h : ∃ m ∈ ms.take index, m.size = none) :
    ∃ fault, place s p type .struct d ms = .error (.layout fault) := by
  obtain ⟨m, hm, hsize⟩ := h
  have hbelow : ∃ fault, placeBackward type 0 (ms.take index).reverse = .error (.layout fault) :=
    placeBackward_of_unsized 0 ⟨m, List.mem_reverse.mpr hm, hsize⟩
  obtain ⟨fault, hfault⟩ := hbelow
  refine ⟨fault, ?_⟩
  rw [place_struct, horigin, structPlacement, hindex]
  simp only [bind, Except.bind, hfault]
  rfl

/-- An origin that is none of the members is refused. -/
theorem place_of_notMem (horigin : d.origin = some origin) (h : origin ∉ ms.map (·.name)) :
    place s p type .struct d ms = .error (.layout (.unknownOrigin type origin)) := by
  rw [place_struct, horigin, structPlacement, originIndex_of_notMem h]
  rfl

end Place

/-! ### Structs -/

namespace Schema

variable {s s' : Schema} {id other : TypeId} {members : List Member}

/-- The type `id` is a struct with these members, and none of them is its origin. -/
structure IsFreeStruct (s : Schema) (id : TypeId) (packed : Bool) (members : List Member) :
    Prop where
  kind_eq : s.kind id = .struct
  exists_definition : ∃ d, s.definition id = .ok d ∧ d.origin = none ∧ d.isPacked = packed
  members_eq : s.members id = .ok members

/-- Members with different names can be declared as a struct. -/
theorem exists_isFreeStruct (s : Schema) (packed : Bool) (h : (memberNames members).Nodup) :
    ∃ s' id, Extends s s' ∧ s'.IsFreeStruct id packed members := by
  let d : Definition := { fields := members, isPacked := packed }
  let declared : Schema := (s.declare "" .struct).2
  have hentry : declared.entry? (.declared s.declared.length) = some ⟨"", .struct, none⟩ :=
    List.getElem?_concat_length
  obtain ⟨s', hs'⟩ : ∃ s', declared.define (.declared s.declared.length) d = .ok s' :=
    ⟨_, define_eq_ok_iff.mpr ⟨_, _, _, rfl, hentry, rfl⟩⟩
  have hd := definition_of_define hs'
  refine ⟨s', .declared s.declared.length,
    (extends_declare s "" .struct).trans (extends_define hs'), ?_, ⟨d, hd, rfl, rfl⟩, ?_⟩
  · obtain ⟨index, name, kind, hindex, he, rfl⟩ := define_eq_ok_iff.mp hs'
    cases hindex
    cases hentry.symm.trans he
    have hset : Schema.entry? { declared with
        declared := declared.declared.set s.declared.length ⟨"", .struct, some d⟩ }
        (.declared s.declared.length) = some ⟨"", .struct, some d⟩ :=
      List.getElem?_set_self (List.getElem?_eq_some_iff.mp he).1
    rw [kind, hset]
    rfl
  · have hfold : members.foldl putMember [] = members := foldl_putMember_of_nodup h
    have hmerge : mergeMembers [d] = members := by
      rw [mergeMembers_eq, if_neg (by simp [d])]
      show ([d].flatMap (·.fields)).foldl putMember [] = members
      rw [List.flatMap_singleton]
      exact hfold
    rw [members_of_root hd rfl, hmerge]

variable {p : Platform} {d : Definition} {origin : String}

/-- A member of unknown length before the origin has no size there. -/
theorem exists_unsized_of_measured {index : Nat} {ms : List MeasuredMember}
    (hmeasured : members.mapM (measure s p (s.layout p)) = .ok ms)
    (h : ∃ m ∈ members.take index, m.2.isUnsized = true) : ∃ m ∈ ms.take index, m.size = none := by
  obtain ⟨m, hm, hunsized⟩ := h
  obtain ⟨needs, hneeds, hmeasure⟩ := exists_mem_of_mapM (mapM_take_drop hmeasured index).1 hm
  refine ⟨needs, hneeds, ?_⟩
  unfold measure at hmeasure
  obtain ⟨alignment, -, hmeasure⟩ := bind_eq_ok_iff.mp hmeasure
  rw [if_pos hunsized] at hmeasure
  cases hmeasure
  rfl

/-- Members are measured alike where more types are defined. -/
theorem measured_mono {ms : List MeasuredMember} (hext : Extends s s')
    (h : members.mapM (measure s p (s.layout p)) = .ok ms) :
    members.mapM (measure s' p (s'.layout p)) = .ok ms := by
  refine mapM_mono (fun m hm needs hneeds => ?_) h
  have hpart : measure s p (s'.layout p) m = .ok needs := by
    rw [← hneeds]
    refine measure_congr fun part hpart => ?_
    obtain ⟨l, hl⟩ := exists_part_of_measure hneeds hpart
    rw [hl, layout_mono hl hext]
  exact measure_mono hpart

theorem nodup_names_drop (h : s.members id = .ok members) (index : Nat) :
    (memberNames (members.drop index)).Nodup := by
  rw [memberNames, List.map_drop]
  exact (List.drop_sublist _ _).nodup (nodup_names_of_members h)

/-- The layout of a struct around its origin.  From the origin on it is that of a struct
which has only these members, whatever it is called and wherever it is defined.  There is
no layout if a member of unknown size comes before the origin, or if the origin is none of
the members. -/
theorem layout_of_origin (hkind : s.kind id = .struct) (hd : s.definition id = .ok d)
    (horigin : d.origin = some origin) (hmembers : s.members id = .ok members) :
    (∀ index l, (memberNames members)[index]? = some origin → s.layout p id = .ok l →
      ∃ ms, members.mapM (measure s p (s.layout p)) = .ok ms ∧
        l.AnchoredAt d.isPacked ms index ∧
        (∃ s' other, Extends s s' ∧ s'.IsFreeStruct other d.isPacked (members.drop index)) ∧
        ∀ s' other, Extends s s' → s'.IsFreeStruct other d.isPacked (members.drop index) →
          ∃ l', s'.layout p other = .ok l' ∧ l'.fields = l.fields.drop index) ∧
    ∀ ms, members.mapM (measure s p (s.layout p)) = .ok ms →
      (∀ index, (memberNames members)[index]? = some origin →
        (∃ m ∈ members.take index, m.2.isUnsized = true) →
          ∃ fault, s.layout p id = .error (.layout fault)) ∧
      (origin ∉ memberNames members → ∃ fault, s.layout p id = .error (.layout fault)) := by
  have hnames : ∀ {ms}, members.mapM (measure s p (s.layout p)) = .ok ms →
      ms.map (·.name) = memberNames members := by
    intro ms hmeasured
    rw [← members_of_measured hmeasured, memberNames, List.map_map]
    rfl
  have hindexOf : ∀ {ms index}, members.mapM (measure s p (s.layout p)) = .ok ms →
      (memberNames members)[index]? = some origin →
        originIndex (s.name id) ms (some origin) = .ok index := by
    intro ms index hmeasured hindex
    have hnodup := nodup_names_of_members hmembers
    rw [← hnames hmeasured] at hindex hnodup
    exact originIndex_of_nodup hnodup hindex
  refine ⟨fun index l hindex hl => ?_, fun ms hmeasured => ?_⟩
  · obtain ⟨d', members', ms, hd', hmembers', hmeasured, hplace⟩ :=
      (layout_eq_ok_iff.mp hl).exists_place
    cases hd.symm.trans hd'
    cases hmembers.symm.trans hmembers'
    rw [hkind] at hplace
    have hfrom := hindexOf hmeasured hindex
    refine ⟨ms, hmeasured, anchoredAt_of_place horigin hfrom hplace,
      exists_isFreeStruct s _ (nodup_names_drop hmembers index), ?_⟩
    intro s' other hext hfree
    obtain ⟨d', hd', horigin', hpacked⟩ := hfree.exists_definition
    have hrest := (mapM_take_drop (measured_mono hext hmeasured) index).2
    rw [layout_eq_place hd' hfree.members_eq hrest, hfree.kind_eq]
    exact exists_place_of_origin (fun m => isPowerOfTwo_of_measured hmeasured) horigin hfrom hplace
      horigin' hpacked s' _
  · rw [layout_eq_place hd hmembers hmeasured, hkind]
    refine ⟨fun index hindex hunsized => ?_, fun hnone => ?_⟩
    · exact place_of_unsized horigin (hindexOf hmeasured hindex)
        (exists_unsized_of_measured hmeasured hunsized)
    · rw [← hnames hmeasured] at hnone
      exact ⟨_, place_of_notMem horigin hnone⟩

/-- A struct whose second member is its origin, one with a member of unknown length before
the origin, and one with an origin that it does not have. -/
def anchoredSchema : Schema :=
  { declared := [
      ⟨"Shifted", .struct, some
        { fields := [("before", .scalar .u8), ("anchor", .scalar .u8), ("after", .scalar .u32)]
          origin := some "anchor" }⟩,
      ⟨"UnsizedBefore", .struct, some
        { fields := [("data", .array (.scalar .u8) none), ("anchor", .scalar .u8)]
          origin := some "anchor" }⟩,
      ⟨"Unknown", .struct, some { fields := [("a", .scalar .u8)], origin := some "b" }⟩,
      ⟨"Anchor", .struct, some
        { fields := [("anchor", .scalar .u8), ("after", .scalar .u32)] }⟩] }

theorem layout_of_origin_shifted :
    (∃ l l', anchoredSchema.layout .host (.declared 0) = .ok l ∧
      anchoredSchema.layout .host (.declared 3) = .ok l' ∧ l'.fields = l.fields.drop 1 ∧
      l.fields.map (·.offset) = [-1, 0, 4] ∧ l.start = -1 ∧ l.size = 12 ∧
      ∃ ms, l.AnchoredAt false ms 1) ∧
    (∃ fault, anchoredSchema.layout .host (.declared 1) = .error (.layout fault)) ∧
    ∃ fault, anchoredSchema.layout .host (.declared 2) = .error (.layout fault) := by
  refine ⟨?_, ?_, ?_⟩
  · have hmembers : anchoredSchema.members (.declared 0) =
        .ok [("before", .scalar .u8), ("anchor", .scalar .u8), ("after", .scalar .u32)] := by
      decide +kernel
    have hnumbers : (anchoredSchema.layout .host (.declared 0)).map
        (fun l => (l.fields.map (·.offset), l.start, l.size)) = .ok ([-1, 0, 4], -1, 12) := by
      decide +kernel
    obtain ⟨l, hl, hnumbers⟩ := map_eq_ok_iff.mp hnumbers
    obtain ⟨ms, -, hanchored, -, hfree⟩ :=
      (layout_of_origin rfl rfl rfl hmembers).1 1 l rfl hl
    obtain ⟨l', hl', hfields⟩ := hfree anchoredSchema (.declared 3) (.refl _)
      ⟨rfl, ⟨_, rfl, rfl, rfl⟩, by decide +kernel⟩
    injection hnumbers with hoffsets hnumbers
    injection hnumbers with hstart hsize
    exact ⟨l, l', hl, hl', hfields, hoffsets, hstart, hsize, ms, hanchored⟩
  · have hmembers : anchoredSchema.members (.declared 1) =
        .ok [("data", .array (.scalar .u8) none), ("anchor", .scalar .u8)] := by
      decide +kernel
    have hmeasured : [("data", .array (.scalar .u8) none), ("anchor", Field.scalar .u8)].mapM
        (measure anchoredSchema .host (anchoredSchema.layout .host)) =
          .ok [⟨"data", .array (.scalar .u8) none, none, 1⟩,
            ⟨"anchor", .scalar .u8, some 1, 1⟩] := by
      decide +kernel
    exact ((layout_of_origin rfl rfl rfl hmembers).2 _ hmeasured).1 1 rfl
      ⟨_, List.mem_cons_self, rfl⟩
  · have hmembers : anchoredSchema.members (.declared 2) = .ok [("a", .scalar .u8)] := by
      decide +kernel
    have hmeasured : [("a", Field.scalar .u8)].mapM
        (measure anchoredSchema .host (anchoredSchema.layout .host)) =
          .ok [⟨"a", .scalar .u8, some 1, 1⟩] := by
      decide +kernel
    exact ((layout_of_origin rfl rfl rfl hmembers).2 _ hmeasured).2 (by decide)

end Schema

end TypedMemory
