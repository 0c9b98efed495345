import TypedMemory.Proofs.Schema.Members

/-!
# Inherited members keep their places

A type that declares names of its base again has the members of the base first, in their order,
and each with the last description that it was given (`map_redeclared_prefix_foldl`).

The pointer to a table of functions is the exception.  It leads the members where it is added, and
has the place of its declaration where a definition declares it.  So a type that declares it moves
it behind the members of a base to which it was added (`Schema.MovesTable`).  In all other types the
members of the base are where they were (`Schema.members_of_base_iff`).
-/

namespace TypedMemory

/-! ### Names that are declared again -/

/-- The member with the last description that `own` has for its name, if it has one. -/
def redeclared (own : List Member) (m : Member) : Member :=
  (m.1, (own.reverse.lookup m.1).getD m.2)

variable {ms more own : List Member} {m : Member} {name : String}

theorem redeclared_of_notMem (h : m.1 ∉ memberNames own) : redeclared own m = m := by
  have hnone : own.reverse.lookup m.1 = none := by
    apply List.lookup_eq_none_iff.mpr
    intro other hother
    rw [bne_iff_ne]
    intro heq
    rw [heq] at h
    exact h (List.mem_map_of_mem (List.mem_reverse.mp hother))
  rw [redeclared, hnone]
  rfl

/-- The first description gives way to the later ones. -/
theorem redeclared_cons (first : Member) (rest : List Member) (m : Member) :
    redeclared (first :: rest) m = redeclared rest (if m.1 == first.1 then first else m) := by
  obtain ⟨firstName, firstField⟩ := first
  obtain ⟨name, field⟩ := m
  unfold redeclared
  rw [List.reverse_cons, List.lookup_append]
  by_cases hname : name = firstName
  · subst hname
    rw [if_pos (beq_self_eq_true name), List.lookup_cons_self]
    cases rest.reverse.lookup name <;> rfl
  · have hne : (name == firstName) = false := beq_false_of_ne hname
    rw [hne, List.lookup_cons, hne]
    exact congrArg (fun found => (name, found.getD field)) Option.or_none

/-- What one more member does to those that are there. -/
theorem map_prefix_putMember (m : Member) (ms : List Member) :
    ms.map (fun other => if other.1 == m.1 then m else other) <+: putMember ms m := by
  by_cases hm : m.1 ∈ memberNames ms
  · exact ⟨[], (List.append_nil _).trans (if_pos (any_name_iff.mpr hm)).symm⟩
  · rw [map_put_of_notMem hm, putMember_of_notMem hm]
    exact List.prefix_append ms [m]

/-- The members stay where they are, with their last descriptions. -/
theorem map_redeclared_prefix_foldl (own ms : List Member) :
    ms.map (redeclared own) <+: own.foldl putMember ms := by
  induction own generalizing ms with
  | nil =>
    rw [show redeclared [] = id from rfl, List.map_id]
    exact List.prefix_refl ms
  | cons m rest ih =>
    have hmap : ms.map (redeclared (m :: rest)) =
        (ms.map fun other => if other.1 == m.1 then m else other).map (redeclared rest) := by
      rw [List.map_map]
      exact List.map_congr_left fun other _ => redeclared_cons m rest other
    rw [hmap, List.foldl_cons]
    exact ((map_prefix_putMember m ms).map (redeclared rest)).trans (ih _)

/-- The first member is the first of all that are put together. -/
theorem head?_memberNames_foldl (own ms : List Member) :
    (memberNames (own.foldl putMember ms)).head? = (memberNames (ms ++ own)).head? := by
  have hkept : ∀ (m : Member) (ms own : List Member),
      (memberNames (own.foldl putMember (m :: ms))).head? = some m.1 := by
    intro m ms own
    obtain ⟨behind, hbehind⟩ := map_redeclared_prefix_foldl own (m :: ms)
    rw [← hbehind]
    rfl
  cases ms with
  | cons m rest => exact hkept m rest own
  | nil =>
    cases own with
    | nil => rfl
    | cons m rest => exact hkept m [] rest

/-! ### The pointer to a table of functions -/

variable {d : Definition} {rest : List Definition}

/-- A pointer that was added leads the members of a definition that declares it only where it
would have led them anyway. -/
theorem map_redeclared_prefix_of_addsTable (hadds : AddsTable rest) :
    (mergeMembers rest).map (redeclared d.fields) <+: declaredMembers (d :: rest) ↔
      declaredMembers rest = [] ∧ (memberNames d.fields).head? = some vtableName := by
  rw [mergeMembers_of_addsTable hadds, declaredMembers_cons]
  have hhead := head?_memberNames_foldl d.fields (declaredMembers rest)
  constructor
  · rintro ⟨behind, hbehind⟩
    rw [← hbehind] at hhead
    cases hfirst : declaredMembers rest with
    | nil =>
      rw [hfirst] at hhead
      exact ⟨rfl, hhead.symm⟩
    | cons m more =>
      rw [hfirst] at hhead
      have hname : vtableName = m.1 := Option.some.inj hhead
      refine absurd ?_ hadds.2
      rw [hfirst, hname]
      exact List.mem_cons_self
  · rintro ⟨hnone, hfirst⟩
    rw [hnone]
    cases hfields : d.fields with
    | nil =>
      rw [hfields] at hfirst
      cases hfirst
    | cons m more =>
      rw [hfields] at hfirst
      have hname : m.1 = vtableName := Option.some.inj hfirst
      have hslot : redeclared (m :: more) (vtableName, .pointer .void) = redeclared more m := by
        rw [redeclared_cons, if_pos (beq_iff_eq.mpr hname.symm)]
      rw [List.map_singleton, hslot]
      exact map_redeclared_prefix_foldl more [m]

theorem map_redeclared_prefix_mergeMembers_iff
    (hvtable : d.hasVtable = true → vtableName ∈ memberNames (mergeMembers rest)) :
    (mergeMembers rest).map (redeclared d.fields) <+: mergeMembers (d :: rest) ↔
      (AddsTable rest → vtableName ∈ memberNames d.fields →
        declaredMembers rest = [] ∧ (memberNames d.fields).head? = some vtableName) := by
  have hdeclared := map_redeclared_prefix_foldl d.fields (declaredMembers rest)
  rw [← declaredMembers_cons] at hdeclared
  by_cases hadds : AddsTable rest
  · by_cases hown : vtableName ∈ memberNames d.fields
    · have hplain : ¬ AddsTable (d :: rest) := fun h => ((addsTable_cons hvtable).mp h).2 hown
      rw [mergeMembers_of_not_addsTable hplain, map_redeclared_prefix_of_addsTable hadds]
      exact ⟨fun h _ _ => h, fun h => h hadds hown⟩
    · refine iff_of_true ?_ fun _ h => absurd h hown
      have hkept : AddsTable (d :: rest) := (addsTable_cons hvtable).mpr ⟨hadds, hown⟩
      rw [mergeMembers_of_addsTable hadds, mergeMembers_of_addsTable hkept, List.map_cons,
        redeclared_of_notMem hown]
      exact (List.prefix_cons_inj _).mpr hdeclared
  · refine iff_of_true ?_ fun h => absurd h hadds
    have hplain : ¬ AddsTable (d :: rest) := fun h => hadds ((addsTable_cons hvtable).mp h).1
    rwa [mergeMembers_of_not_addsTable hadds, mergeMembers_of_not_addsTable hplain]

/-! ### Members of a base -/

namespace Schema

variable {s : Schema} {id base : TypeId} {inherited : List Member} {chain : List Definition}

/-- A type or one of its bases declares a member of the name. -/
def Declares (s : Schema) (id : TypeId) (name : String) : Prop :=
  ∃ t d, Relation.ReflTransGen (HasBase s) id t ∧ s.definition t = .ok d ∧
    name ∈ memberNames d.fields

theorem declares_iff (h : s.baseChain id = .ok chain) :
    s.Declares id name ↔ name ∈ memberNames (declaredMembers chain) := by
  have hwalk := walksBases_baseChain s id
  rw [h] at hwalk
  rw [mem_memberNames_declaredMembers]
  constructor
  · rintro ⟨t, d, hreach, hd, hname⟩
    exact ⟨d, hwalk.mem_iff.mpr ⟨t, hreach, hd⟩, hname⟩
  · rintro ⟨d, hd, hname⟩
    obtain ⟨t, hreach, ht⟩ := hwalk.mem_iff.mp hd
    exact ⟨t, d, hreach, ht, hname⟩

/-- The pointer to a table of functions leads the members of the base without being declared, and
the derived type declares it.  So it moves behind the members of the base. -/
structure MovesTable (s : Schema) (base : TypeId) (own inherited : List Member) : Prop where
  inherited_mem : vtableName ∈ memberNames inherited
  not_declares : ¬ s.Declares base vtableName
  own_mem : vtableName ∈ memberNames own
  /-- Where it is the only member of the base and the first of the derived type, it does not move. -/
  not_first : ¬ (memberNames inherited = [vtableName] ∧
    (memberNames own).head? = some vtableName)

/-- The members of the base come first, each with the last description of the derived type if there
is one, unless the pointer to the table of functions moves. -/
theorem members_of_base_iff (hms : s.members id = .ok ms) (hd : s.definition id = .ok d)
    (hbase : d.base = some base) (hinherited : s.members base = .ok inherited)
    (hvtable : d.hasVtable = true → vtableName ∈ memberNames inherited) :
    inherited.map (redeclared d.fields) <+: ms ↔ ¬ s.MovesTable base d.fields inherited := by
  obtain ⟨chain, hchain, rfl⟩ := map_eq_ok_iff.mp hms
  obtain ⟨rest, hrest, rfl⟩ := baseChain_of_base hchain hd hbase
  obtain ⟨rest', hrest', rfl⟩ := map_eq_ok_iff.mp hinherited
  cases hrest.symm.trans hrest'
  rw [map_redeclared_prefix_mergeMembers_iff hvtable]
  constructor
  · intro h hmoves
    have hnone := mt (declares_iff hrest).mpr hmoves.not_declares
    have hadds : AddsTable rest := addsTable_iff.mpr ⟨hmoves.inherited_mem, hnone⟩
    obtain ⟨hempty, hfirst⟩ := h hadds hmoves.own_mem
    refine hmoves.not_first ⟨?_, hfirst⟩
    rw [mergeMembers_of_addsTable hadds, hempty]
    rfl
  · intro h hadds hown
    obtain ⟨hmem, hnone⟩ := addsTable_iff.mp hadds
    by_contra hmoved
    refine h ⟨hmem, mt (declares_iff hrest).mp hnone, hown, ?_⟩
    rintro ⟨hnames, hfirst⟩
    rw [mergeMembers_of_addsTable hadds, memberNames_cons] at hnames
    exact hmoved ⟨List.map_eq_nil_iff.mp (List.cons.inj hnames).2, hfirst⟩

/-- A chain of three structs with names that are declared again, and a struct that declares the
pointer which is added to its base. -/
def layeredSchema : Schema :=
  { declared := [
      ⟨"Base", .struct, some { fields := [("id", .scalar .u32)], hasVtable := true }⟩,
      ⟨"Middle", .struct, some
        { base := some (.declared 0)
          fields := [("size", .scalar .u16), ("id", .scalar .u64)] }⟩,
      ⟨"Top", .struct, some
        { base := some (.declared 1)
          fields := [("size", .scalar .i8), ("live", .scalar .bool), ("size", .scalar .i16)]
          hasVtable := true }⟩,
      ⟨"Derived", .struct, some
        { base := some (.declared 0)
          fields := [(vtableName, .pointer (.scalar .u8))] }⟩] }

/-- The first struct describes `id`, the second gives it 64 bits, and the third leaves it so. -/
theorem members_of_base_layered :
    ∃ ms, layeredSchema.members (.declared 2) = .ok ms ∧
      [(vtableName, .pointer .void), ("id", .scalar .u64), ("size", .scalar .i16)] <+: ms := by
  have hmiddle : layeredSchema.members (.declared 1) =
      .ok [(vtableName, .pointer .void), ("id", .scalar .u64), ("size", .scalar .u16)] := by
    decide +kernel
  obtain ⟨ms, hms⟩ : ∃ ms, layeredSchema.members (.declared 2) = .ok ms := ⟨_, rfl⟩
  refine ⟨ms, hms, ?_⟩
  have hprefix := members_of_base_iff hms rfl rfl hmiddle (fun _ => by decide)
  refine hprefix.mpr ?_
  rintro ⟨-, -, hown, -⟩
  revert hown
  decide

/-- The pointer of the base is not the first member of a struct that declares it. -/
theorem not_members_of_base_layered :
    ¬ ∀ (s : Schema) (id base : TypeId) (d : Definition) (ms inherited : List Member),
      s.members id = .ok ms → s.definition id = .ok d → d.base = some base →
        s.members base = .ok inherited →
          (d.hasVtable = true → vtableName ∈ memberNames inherited) →
            inherited.map (redeclared d.fields) <+: ms := by
  intro h
  have hbase : layeredSchema.members (.declared 0) =
      .ok [(vtableName, .pointer .void), ("id", .scalar .u32)] := by
    decide +kernel
  have hderived : layeredSchema.members (.declared 3) =
      .ok [("id", .scalar .u32), (vtableName, .pointer (.scalar .u8))] := by
    decide +kernel
  have hprefix := h layeredSchema (.declared 3) (.declared 0) _ _ _ hderived rfl rfl hbase nofun
  revert hprefix
  decide

end Schema

end TypedMemory
