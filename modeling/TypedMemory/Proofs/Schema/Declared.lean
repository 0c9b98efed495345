import TypedMemory.Proofs.Schema.Members

/-!
# Members as they are declared

`CollectedFrom` says which members a chain of definitions gives a type, without putting them
together one by one: each name once, where it is declared first, and as it is declared last
(`MergedFrom`), behind the pointer to a table of functions where that is asked for and not
declared (`LacksTable`).  These are the members that the program puts together
(`collectedFrom_iff`).

* `Schema.exists_chain`: a type whose bases are defined and come to an end has a chain, and the
  members that are collected from it.
* `Schema.exists_fault_of_badBase`: every other type has a fault instead, which names a bad base.
-/

namespace TypedMemory

variable {declared ms ms' : List Member} {m m' : Member} {chain : List Definition}

/-! ### Declarations -/

/-- The declaration is the last one of its name. -/
def IsLast (declared : List Member) (m : Member) : Prop :=
  ∃ before after, declared = before ++ m :: after ∧ m.1 ∉ memberNames after

namespace IsLast

theorem concat_self (declared : List Member) (m : Member) : IsLast (declared ++ [m]) m :=
  ⟨declared, [], rfl, List.not_mem_nil⟩

theorem concat (h : IsLast declared m) (hne : m.1 ≠ m'.1) : IsLast (declared ++ [m']) m := by
  obtain ⟨before, after, rfl, hafter⟩ := h
  refine ⟨before, after ++ [m'], by simp, ?_⟩
  simp [hafter, hne]

/-- A name has one last declaration. -/
theorem unique (h : IsLast declared m) (h' : IsLast declared m') (hname : m.1 = m'.1) : m = m' := by
  obtain ⟨before, after, hsplit, hafter⟩ := h
  obtain ⟨before', after', hsplit', hafter'⟩ := h'
  rw [hsplit] at hsplit'
  rcases List.append_eq_append_iff.mp hsplit' with ⟨between, -, hrest⟩ | ⟨between, -, hrest⟩
  · cases between with
    | nil => exact (List.cons.inj hrest).1
    | cons first rest =>
      -- the second one is behind the first
      refine absurd ?_ hafter
      rw [(List.cons.inj hrest).2, hname]
      simp
  · cases between with
    | nil => exact (List.cons.inj hrest).1.symm
    | cons first rest =>
      refine absurd ?_ hafter'
      rw [(List.cons.inj hrest).2, ← hname]
      simp

end IsLast

/-- The declared names once each, in the order in which they come first, with their last
descriptions. -/
structure MergedFrom (declared ms : List Member) : Prop where
  names_eq : memberNames ms = (memberNames declared).eraseDups
  isLast : ∀ m ∈ ms, IsLast declared m

theorem mem_putMember (h : m' ∈ putMember ms m) : m' = m ∨ m' ∈ ms ∧ m'.1 ≠ m.1 := by
  unfold putMember at h
  split at h
  next hold =>
    obtain ⟨other, hother, rfl⟩ := List.mem_map.mp h
    by_cases hname : other.1 = m.1
    · simp [hname]
    · simp [hname, hother]
  next hnew =>
    rcases List.mem_append.mp h with hm' | hm'
    · refine Or.inr ⟨hm', fun hname => hnew (any_name_iff.mpr ?_)⟩
      rw [← hname]
      exact List.mem_map_of_mem hm'
    · exact Or.inl (List.mem_singleton.mp hm')

namespace MergedFrom

theorem nil : MergedFrom [] [] := ⟨rfl, nofun⟩

theorem mem_names_iff (h : MergedFrom declared ms) {name : String} :
    name ∈ memberNames ms ↔ name ∈ memberNames declared := by
  rw [h.names_eq, List.mem_eraseDups]

/-- One more declaration is put in, or takes the place of the one before it. -/
theorem put (h : MergedFrom declared ms) (m : Member) :
    MergedFrom (declared ++ [m]) (putMember ms m) := by
  constructor
  · rw [memberNames_append, List.eraseDups_append, ← h.names_eq]
    by_cases hm : m.1 ∈ memberNames declared
    · have hnone : (memberNames [m]).removeAll (memberNames declared) = [] := by
        simp [List.removeAll, hm]
      rw [memberNames_putMember_of_mem (h.mem_names_iff.mpr hm), hnone, List.eraseDups_nil,
        List.append_nil]
    · have hone : (memberNames [m]).removeAll (memberNames declared) = [m.1] := by
        simp [List.removeAll, hm]
      rw [putMember_of_notMem (mt h.mem_names_iff.mp hm), memberNames_append, hone]
      rfl
  · intro m' hm'
    rcases mem_putMember hm' with rfl | ⟨hold, hne⟩
    · exact .concat_self declared m'
    · exact (h.isLast m' hold).concat hne

theorem foldl (h : MergedFrom declared ms) (more : List Member) :
    MergedFrom (declared ++ more) (more.foldl putMember ms) := by
  induction more generalizing declared ms with
  | nil => rwa [List.append_nil]
  | cons m rest ih =>
    rw [List.append_cons]
    exact ih (h.put m)

theorem unique (h : MergedFrom declared ms) (h' : MergedFrom declared ms') : ms = ms' := by
  have hnames : memberNames ms = memberNames ms' := h.names_eq.trans h'.names_eq.symm
  have hlength : ms.length = ms'.length := by
    simpa [memberNames] using congrArg List.length hnames
  refine List.ext_getElem hlength fun i hi hi' => ?_
  have hname : ms[i].1 = ms'[i].1 := by
    have hget := congrArg (fun names => names[i]?) hnames
    simpa [memberNames, hi, hi'] using hget
  exact (h.isLast _ (List.getElem_mem hi)).unique (h'.isLast _ (List.getElem_mem hi')) hname

end MergedFrom

/-! ### Members of a chain -/

/-- What the definitions of a chain declare, of which the last is the first base. -/
def declaredIn (chain : List Definition) : List Member := chain.reverse.flatMap (·.fields)

theorem mergedFrom_declaredMembers (chain : List Definition) :
    MergedFrom (declaredIn chain) (declaredMembers chain) :=
  MergedFrom.nil.foldl (declaredIn chain)

/-- A pointer to a table of functions is asked for, and none is declared. -/
def LacksTable (chain : List Definition) : Prop :=
  (∃ d ∈ chain, d.hasVtable = true) ∧ ∀ d ∈ chain, vtableName ∉ memberNames d.fields

theorem addsTable_iff_lacksTable : AddsTable chain ↔ LacksTable chain := by
  unfold AddsTable LacksTable
  rw [List.any_eq_true, mem_memberNames_declaredMembers]
  simp only [not_exists, not_and]

/-- The members that a chain of definitions gives a type. -/
def CollectedFrom (chain : List Definition) (ms : List Member) : Prop :=
  ∃ own, MergedFrom (declaredIn chain) own ∧
    (LacksTable chain → ms = (vtableName, .pointer .void) :: own) ∧
    (¬ LacksTable chain → ms = own)

theorem collectedFrom_iff : CollectedFrom chain ms ↔ ms = mergeMembers chain := by
  have hmerged := mergedFrom_declaredMembers chain
  constructor
  · rintro ⟨own, hown, hadded, hplain⟩
    obtain rfl := hown.unique hmerged
    by_cases hlacks : LacksTable chain
    · rw [hadded hlacks, mergeMembers_of_addsTable (addsTable_iff_lacksTable.mpr hlacks)]
    · rw [hplain hlacks, mergeMembers_of_not_addsTable (mt addsTable_iff_lacksTable.mp hlacks)]
  · rintro rfl
    refine ⟨_, hmerged, fun hlacks => ?_, fun hlacks => ?_⟩
    · exact mergeMembers_of_addsTable (addsTable_iff_lacksTable.mpr hlacks)
    · exact mergeMembers_of_not_addsTable (mt addsTable_iff_lacksTable.mp hlacks)

/-! ### Members of a type -/

namespace Schema

variable {s : Schema} {id base root : TypeId} {seen : List TypeId}

/-- The definitions of a type and its bases in turn, of which the last has no base. -/
inductive HasChain (s : Schema) : TypeId → List Definition → Prop
  | last {id : TypeId} {d : Definition} (hd : s.definition id = .ok d) (hbase : d.base = none) :
    HasChain s id [d]
  | next {id base : TypeId} {d : Definition} {rest : List Definition}
      (hd : s.definition id = .ok d) (hbase : d.base = some base) (hrest : HasChain s base rest) :
    HasChain s id (d :: rest)

theorem WalksBases.hasChain (h : WalksBases s root seen id (.ok chain)) : HasChain s id chain := by
  generalize hresult : Except.ok chain = result at h
  induction h generalizing chain with
  | loop | undefined => cases hresult
  | last _ hd hbase =>
    cases hresult
    exact .last hd hbase
  | next _ hd hbase _ ih =>
    obtain ⟨rest, rfl, rfl⟩ := map_eq_ok_iff.mp hresult.symm
    exact .next hd hbase (ih rfl)

theorem exists_chain (hgood : ∀ base, ¬ BadBase s id base) :
    ∃ chain, HasChain s id chain ∧ s.members id = .ok (mergeMembers chain) := by
  obtain ⟨ms, hms⟩ := exists_members_iff.mpr hgood
  obtain ⟨chain, hchain, rfl⟩ := map_eq_ok_iff.mp hms
  have hwalk := walksBases_baseChain s id
  rw [hchain] at hwalk
  exact ⟨chain, hwalk.hasChain, hms⟩

theorem exists_fault_of_badBase (h : BadBase s id base) :
    ∃ bad fault, Relation.ReflTransGen (HasBase s) id bad ∧ BaseFault s id bad fault ∧
      s.members id = .error (.layout fault) := by
  have hwalk := walksBases_baseChain s id
  unfold members
  cases hchain : s.baseChain id with
  | ok chain =>
    rw [hchain] at hwalk
    exact absurd h (hwalk.not_badBase base)
  | error e =>
    rw [hchain] at hwalk
    obtain ⟨bad, fault, hreach, hfault, rfl⟩ := hwalk.exists_baseFault nofun
    exact ⟨bad, fault, hreach, hfault, rfl⟩

end Schema

end TypedMemory
