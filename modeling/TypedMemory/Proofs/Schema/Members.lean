import Mathlib.Data.List.Nodup
import TypedMemory.Proofs.Schema.Bases

/-!
# Members of derived types

Members are put together by their names.

* `nodup_names_of_members`: no two members of a type have the same name.
* `members_of_base`: a type that declares no name of its base has the members of the base,
  and its own ones behind them.
-/

namespace TypedMemory

/-! ### Putting members together -/

/-- The names of members, in their order. -/
def memberNames (members : List Member) : List String := members.map (·.1)

variable {ms more : List Member} {m : Member} {name : String}

@[simp] theorem memberNames_nil : memberNames [] = [] := rfl

@[simp] theorem memberNames_cons (m : Member) (ms : List Member) :
    memberNames (m :: ms) = m.1 :: memberNames ms := rfl

@[simp] theorem memberNames_append (ms more : List Member) :
    memberNames (ms ++ more) = memberNames ms ++ memberNames more := List.map_append

theorem any_name_iff : ms.any (·.1 == name) = true ↔ name ∈ memberNames ms := by
  simp [memberNames]

theorem putMember_of_notMem (h : m.1 ∉ memberNames ms) : putMember ms m = ms ++ [m] := by
  unfold putMember
  rw [if_neg (mt any_name_iff.mp h)]

theorem memberNames_putMember_of_mem (h : m.1 ∈ memberNames ms) :
    memberNames (putMember ms m) = memberNames ms := by
  unfold putMember memberNames
  rw [if_pos (any_name_iff.mpr h), List.map_map]
  apply List.map_congr_left
  intro other hother
  show (if other.1 == m.1 then m else other).1 = other.1
  split
  next heq => exact (beq_iff_eq.mp heq).symm
  next => rfl

/-- A name is not put in twice. -/
theorem nodup_putMember (h : (memberNames ms).Nodup) (m : Member) :
    (memberNames (putMember ms m)).Nodup := by
  by_cases hm : m.1 ∈ memberNames ms
  · rwa [memberNames_putMember_of_mem hm]
  · rw [putMember_of_notMem hm, memberNames_append]
    show (memberNames ms ++ [m.1]).Nodup
    rw [← List.concat_eq_append]
    exact h.concat hm

theorem nodup_foldl_putMember (h : (memberNames ms).Nodup) (more : List Member) :
    (memberNames (more.foldl putMember ms)).Nodup := by
  induction more generalizing ms with
  | nil => exact h
  | cons m rest ih => exact ih (nodup_putMember h m)

theorem mem_memberNames_putMember :
    name ∈ memberNames (putMember ms m) ↔ name ∈ memberNames ms ∨ name = m.1 := by
  by_cases hm : m.1 ∈ memberNames ms
  · rw [memberNames_putMember_of_mem hm]
    constructor
    · exact Or.inl
    · rintro (h | rfl)
      · exact h
      · exact hm
  · rw [putMember_of_notMem hm]
    simp

theorem mem_memberNames_foldl :
    name ∈ memberNames (more.foldl putMember ms) ↔
      name ∈ memberNames ms ∨ name ∈ memberNames more := by
  induction more generalizing ms with
  | nil => simp
  | cons m rest ih =>
    rw [List.foldl_cons, ih, mem_memberNames_putMember, memberNames_cons, List.mem_cons, or_assoc]

theorem map_put_of_notMem (h : m.1 ∉ memberNames ms) :
    ms.map (fun other => if other.1 == m.1 then m else other) = ms := by
  conv_rhs => rw [← List.map_id ms]
  apply List.map_congr_left
  intro other hother
  apply if_neg
  intro heq
  rw [← beq_iff_eq.mp heq] at h
  exact h (List.mem_map_of_mem hother)

/-- A member of another name leaves the first ones as they are. -/
theorem putMember_append (h : m.1 ∉ memberNames ms) (more : List Member) :
    putMember (ms ++ more) m = ms ++ putMember more m := by
  by_cases hm : m.1 ∈ memberNames more
  · have hall : m.1 ∈ memberNames (ms ++ more) := by simp [hm]
    unfold putMember
    rw [if_pos (any_name_iff.mpr hall), if_pos (any_name_iff.mpr hm), List.map_append,
      map_put_of_notMem h]
  · have hall : m.1 ∉ memberNames (ms ++ more) := by simp [h, hm]
    rw [putMember_of_notMem hall, putMember_of_notMem hm, List.append_assoc]

theorem foldl_putMember_append {extra : List Member} (h : ∀ m ∈ extra, m.1 ∉ memberNames ms)
    (more : List Member) :
    extra.foldl putMember (ms ++ more) = ms ++ extra.foldl putMember more := by
  induction extra generalizing more with
  | nil => rfl
  | cons m rest ih =>
    rw [List.foldl_cons, List.foldl_cons, putMember_append (h m List.mem_cons_self)]
    exact ih (fun other hother => h other (List.mem_cons_of_mem m hother)) _

/-- Members with different names are put behind each other. -/
theorem foldl_putMember_of_nodup (h : (memberNames (ms ++ more)).Nodup) :
    more.foldl putMember ms = ms ++ more := by
  induction more generalizing ms with
  | nil => exact (List.append_nil ms).symm
  | cons m rest ih =>
    have hm : m.1 ∉ memberNames ms := by
      rw [memberNames_append, memberNames_cons] at h
      intro hin
      exact (List.nodup_append.mp h).2.2 m.1 hin m.1 List.mem_cons_self rfl
    rw [List.append_cons] at h
    rw [List.foldl_cons, putMember_of_notMem hm, ih h, ← List.append_cons]

/-! ### Members of a chain -/

/-- The members that the definitions of a chain declare, of which the last is the first base. -/
def declaredMembers (chain : List Definition) : List Member :=
  (chain.reverse.flatMap (·.fields)).foldl putMember []

variable {d : Definition} {rest chain : List Definition}

/-- A pointer to a table of functions is added if there is one, and none is declared. -/
theorem mergeMembers_eq (chain : List Definition) :
    mergeMembers chain =
      if chain.any (·.hasVtable) = true ∧ vtableName ∉ memberNames (declaredMembers chain) then
        (vtableName, .pointer .void) :: declaredMembers chain
      else declaredMembers chain := by
  have hcond : (chain.any (·.hasVtable) &&
      !(declaredMembers chain).any (·.1 == vtableName)) = true ↔
      chain.any (·.hasVtable) = true ∧ vtableName ∉ memberNames (declaredMembers chain) := by
    rw [Bool.and_eq_true, Bool.not_eq_true', Bool.eq_false_iff, Ne, any_name_iff]
  show (if _ then _ else _) = _
  simp only [← hcond]
  rfl

/-- The pointer to a table of functions is asked for, and no definition declares it. -/
def AddsTable (chain : List Definition) : Prop :=
  chain.any (·.hasVtable) = true ∧ vtableName ∉ memberNames (declaredMembers chain)

theorem mergeMembers_of_addsTable (h : AddsTable chain) :
    mergeMembers chain = (vtableName, .pointer .void) :: declaredMembers chain := by
  rw [mergeMembers_eq]
  exact if_pos h

theorem mergeMembers_of_not_addsTable (h : ¬ AddsTable chain) :
    mergeMembers chain = declaredMembers chain := by
  rw [mergeMembers_eq]
  exact if_neg h

theorem addsTable_iff :
    AddsTable chain ↔ vtableName ∈ memberNames (mergeMembers chain) ∧
      vtableName ∉ memberNames (declaredMembers chain) := by
  constructor
  · intro h
    refine ⟨?_, h.2⟩
    rw [mergeMembers_of_addsTable h]
    exact List.mem_cons_self
  · rintro ⟨hmem, hnone⟩
    by_contra hadds
    rw [mergeMembers_of_not_addsTable hadds] at hmem
    exact hnone hmem

theorem declaredMembers_cons (d : Definition) (rest : List Definition) :
    declaredMembers (d :: rest) = d.fields.foldl putMember (declaredMembers rest) := by
  simp [declaredMembers]

theorem mem_memberNames_declaredMembers :
    name ∈ memberNames (declaredMembers chain) ↔ ∃ d ∈ chain, name ∈ memberNames d.fields := by
  rw [declaredMembers, mem_memberNames_foldl, memberNames_nil, or_iff_right List.not_mem_nil,
    memberNames, List.map_flatMap, List.mem_flatMap]
  simp only [List.mem_reverse, memberNames]

/-- A definition that asks for no pointer of its own adds none, and keeps the one that is added
unless it declares it. -/
theorem addsTable_cons
    (hvtable : d.hasVtable = true → vtableName ∈ memberNames (mergeMembers rest)) :
    AddsTable (d :: rest) ↔ AddsTable rest ∧ vtableName ∉ memberNames d.fields := by
  have hnames : vtableName ∈ memberNames (declaredMembers (d :: rest)) ↔
      vtableName ∈ memberNames (declaredMembers rest) ∨ vtableName ∈ memberNames d.fields := by
    rw [declaredMembers_cons, mem_memberNames_foldl]
  constructor
  · rintro ⟨hany, hnone⟩
    obtain ⟨hrest, hown⟩ := not_or.mp (mt hnames.mpr hnone)
    rw [List.any_cons, Bool.or_eq_true] at hany
    rcases hany with hd | hany
    · exact ⟨addsTable_iff.mpr ⟨hvtable hd, hrest⟩, hown⟩
    · exact ⟨⟨hany, hrest⟩, hown⟩
  · rintro ⟨⟨hany, hrest⟩, hown⟩
    refine ⟨?_, mt hnames.mp (not_or.mpr ⟨hrest, hown⟩)⟩
    rw [List.any_cons, hany, Bool.or_true]

theorem nodup_mergeMembers (chain : List Definition) :
    (memberNames (mergeMembers chain)).Nodup := by
  have hnil : (memberNames []).Nodup := List.nodup_nil
  have hdeclared : (memberNames (declaredMembers chain)).Nodup := nodup_foldl_putMember hnil _
  by_cases hadds : AddsTable chain
  · rw [mergeMembers_of_addsTable hadds]
    exact List.nodup_cons.mpr ⟨hadds.2, hdeclared⟩
  · rwa [mergeMembers_of_not_addsTable hadds]

theorem declaredMembers_subset (chain : List Definition) :
    declaredMembers chain ⊆ mergeMembers chain := by
  by_cases hadds : AddsTable chain
  · rw [mergeMembers_of_addsTable hadds]
    exact List.subset_cons_self _ _
  · rw [mergeMembers_of_not_addsTable hadds]
    exact List.Subset.refl _

/-- A definition with new names only adds its own members to those of its bases. -/
theorem mergeMembers_cons (hnames : ∀ m ∈ d.fields, m.1 ∉ memberNames (mergeMembers rest))
    (hvtable : d.hasVtable = true → vtableName ∈ memberNames (mergeMembers rest)) :
    mergeMembers (d :: rest) = mergeMembers rest ++ d.fields.foldl putMember [] := by
  have hdeclared : declaredMembers (d :: rest) =
      declaredMembers rest ++ d.fields.foldl putMember [] := by
    have hown : ∀ m ∈ d.fields, m.1 ∉ memberNames (declaredMembers rest) :=
      fun m hm hin => hnames m hm (List.map_subset _ (declaredMembers_subset rest) hin)
    rw [declaredMembers_cons, ← foldl_putMember_append hown [], List.append_nil]
  by_cases hadds : AddsTable rest
  · have hnew : vtableName ∉ memberNames d.fields := by
      intro h
      obtain ⟨m, hm, hname⟩ := List.mem_map.mp h
      apply hnames m hm
      rw [mergeMembers_of_addsTable hadds, hname]
      exact List.mem_cons_self
    have hkept : AddsTable (d :: rest) := (addsTable_cons hvtable).mpr ⟨hadds, hnew⟩
    rw [mergeMembers_of_addsTable hadds, mergeMembers_of_addsTable hkept, hdeclared]
    rfl
  · have hkept : ¬ AddsTable (d :: rest) := fun h => hadds ((addsTable_cons hvtable).mp h).1
    rw [mergeMembers_of_not_addsTable hadds, mergeMembers_of_not_addsTable hkept, hdeclared]

/-! ### Members of a type -/

namespace Schema

variable {s : Schema} {id base root other : TypeId} {seen less : List TypeId}

theorem nodup_names_of_members (h : s.members id = .ok ms) : (memberNames ms).Nodup := by
  obtain ⟨chain, -, rfl⟩ := map_eq_ok_iff.mp h
  exact nodup_mergeMembers chain

/-- A walk that ends is the same from any of its types on. -/
theorem WalksBases.restart (h : WalksBases s root seen id (.ok chain))
    (hless : ∀ t ∈ less, t ∈ seen) : WalksBases s other less id (.ok chain) := by
  generalize hresult : Except.ok chain = result at h
  induction h generalizing chain less with
  | loop | undefined => cases hresult
  | last hin hd hbase =>
    cases hresult
    exact .last (fun h => hin (hless _ h)) hd hbase
  | next hin hd hbase hrest ih =>
    obtain ⟨tail, rfl, rfl⟩ := map_eq_ok_iff.mp hresult.symm
    refine .next (fun h => hin (hless _ h)) hd hbase (ih (fun t ht => ?_) rfl)
    exact List.mem_cons.mpr ((List.mem_cons.mp ht).imp_right (hless t))

/-- A type without a base has its own members. -/
theorem members_of_root (hd : s.definition id = .ok d) (hbase : d.base = none) :
    s.members id = .ok (mergeMembers [d]) := by
  have hwalk : WalksBases s id [] id (.ok [d]) := .last List.not_mem_nil hd hbase
  rw [members, (walksBases_baseChain s id).unique hwalk]
  rfl

theorem baseChain_of_base (h : s.baseChain id = .ok chain) (hd : s.definition id = .ok d)
    (hbase : d.base = some base) :
    ∃ rest, s.baseChain base = .ok rest ∧ chain = d :: rest := by
  have hwalk := walksBases_baseChain s id
  rw [h] at hwalk
  generalize hresult : Except.ok chain = result at hwalk
  cases hwalk with
  | loop | undefined => cases hresult
  | last _ hd' hnone =>
    cases hd.symm.trans hd'
    cases hnone.symm.trans hbase
  | next _ hd' hbase' hrest =>
    cases hd.symm.trans hd'
    cases hbase.symm.trans hbase'
    obtain ⟨rest, rfl, hchain⟩ := map_eq_ok_iff.mp hresult.symm
    have hrest' : WalksBases s base [] base (.ok rest) := hrest.restart nofun
    exact ⟨rest, (walksBases_baseChain s base).unique hrest', hchain.symm⟩

/-- The members of a type that declares new names only are those of its base, and its own. -/
theorem members_of_base (hms : s.members id = .ok ms) (hd : s.definition id = .ok d)
    (hbase : d.base = some base) (hmore : s.members base = .ok more)
    (hnames : ∀ m ∈ d.fields, m.1 ∉ memberNames more)
    (hvtable : d.hasVtable = true → vtableName ∈ memberNames more) :
    ms = more ++ d.fields.foldl putMember [] := by
  obtain ⟨chain, hchain, rfl⟩ := map_eq_ok_iff.mp hms
  obtain ⟨rest, hrest, rfl⟩ := baseChain_of_base hchain hd hbase
  have hrest' : s.members base = .ok (mergeMembers rest) := by
    rw [members, hrest]
    rfl
  cases hmore.symm.trans hrest'
  exact mergeMembers_cons hnames hvtable

end Schema

end TypedMemory
