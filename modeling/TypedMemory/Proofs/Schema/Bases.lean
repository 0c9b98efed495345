import TypedMemory.Proofs.Layout.Resolve
import TypedMemory.Proofs.Schema

/-!
# Chains of bases

`Schema.chainFrom` follows the bases of a type with a bound on the length of the chain.
`Schema.WalksBases` is the same walk without a bound, and a derivation of it is a walk
that ends:

* `walksBases_baseChain`: every walk ends, with the chain that the bounded walk finds;
* `exists_members_iff`: a type has members exactly where all its bases are defined and
  none of them is a base of itself.
-/

namespace TypedMemory

namespace Schema

variable {s : Schema} {root id base : TypeId} {seen : List TypeId}
  {result : Except Error (List Definition)}

/-- The members of `base` come before those of `id`. -/
def HasBase (s : Schema) (id base : TypeId) : Prop :=
  ∃ d, s.definition id = .ok d ∧ d.base = some base

/-- The walk from `id` towards its bases, of which `seen` are the types derived from it. -/
inductive WalksBases (s : Schema) (root : TypeId) :
    List TypeId → TypeId → Except Error (List Definition) → Prop
  | loop {seen : List TypeId} {id : TypeId} (hin : id ∈ seen) :
      WalksBases s root seen id (.error (.layout (.baseLoop (s.name root) (s.name id))))
  | undefined {seen : List TypeId} {id : TypeId} {e : Error} (hin : id ∉ seen)
      (hd : s.definition id = .error e) : WalksBases s root seen id (.error e)
  | last {seen : List TypeId} {id : TypeId} {d : Definition} (hin : id ∉ seen)
      (hd : s.definition id = .ok d) (hbase : d.base = none) : WalksBases s root seen id (.ok [d])
  | next {seen : List TypeId} {id base : TypeId} {d : Definition}
      {rest : Except Error (List Definition)} (hin : id ∉ seen) (hd : s.definition id = .ok d)
      (hbase : d.base = some base) (hrest : WalksBases s root (id :: seen) base rest) :
      WalksBases s root seen id (rest.map (d :: ·))

/-- The bound of the walk is not reached. -/
theorem walksBases_chainFrom {fuel : Nat} (hnodup : seen.Nodup)
    (hdefined : ∀ t ∈ seen, ∃ d, s.definition t = .ok d) (hfuel : s.size < fuel + seen.length) :
    WalksBases s root seen id (s.chainFrom root fuel seen id) := by
  induction fuel generalizing seen id with
  | zero =>
    have hlength := length_le_size hnodup hdefined
    omega
  | succ fuel ih =>
    rw [chainFrom]
    by_cases hin : id ∈ seen
    · rw [if_pos hin]
      exact .loop hin
    · rw [if_neg hin]
      cases hd : s.definition id with
      | error e => exact .undefined hin hd
      | ok d =>
        simp only [bind, Except.bind]
        cases hbase : d.base with
        | none => exact .last hin hd hbase
        | some base =>
          have hrest : WalksBases s root (id :: seen) base
              (s.chainFrom root fuel (id :: seen) base) := by
            refine ih (List.nodup_cons.mpr ⟨hin, hnodup⟩) ?_ (by rw [List.length_cons]; omega)
            intro t ht
            rcases List.mem_cons.mp ht with rfl | ht
            · exact ⟨d, hd⟩
            · exact hdefined t ht
          have hnext := WalksBases.next hin hd hbase hrest
          cases hchain : s.chainFrom root fuel (id :: seen) base <;>
            simp only [hchain] at hnext ⊢ <;> exact hnext

theorem walksBases_baseChain (s : Schema) (id : TypeId) :
    WalksBases s id [] id (s.baseChain id) :=
  walksBases_chainFrom List.nodup_nil (fun _ h => absurd h List.not_mem_nil)
    (Nat.lt_succ_self s.size)

/-- A walk has one result. -/
theorem WalksBases.unique {other : Except Error (List Definition)}
    (h : WalksBases s root seen id result) (h' : WalksBases s root seen id other) :
    result = other := by
  induction h generalizing other with
  | loop hin =>
    cases h' with
    | loop => rfl
    | undefined hout | last hout | next hout => exact absurd hin hout
  | undefined hout hd =>
    cases h' with
    | loop hin => exact absurd hin hout
    | undefined _ hd' => exact congrArg Except.error (Except.error.inj (hd.symm.trans hd'))
    | last _ hd' | next _ hd' => cases hd.symm.trans hd'
  | last hout hd hbase =>
    cases h' with
    | loop hin => exact absurd hin hout
    | undefined _ hd' => cases hd.symm.trans hd'
    | last _ hd' => exact congrArg (fun d => Except.ok [d]) (Except.ok.inj (hd.symm.trans hd'))
    | next _ hd' hbase' =>
      cases hd.symm.trans hd'
      cases hbase.symm.trans hbase'
  | next hout hd hbase hrest ih =>
    cases h' with
    | loop hin => exact absurd hin hout
    | undefined _ hd' => cases hd.symm.trans hd'
    | last _ hd' hbase' =>
      cases hd.symm.trans hd'
      cases hbase.symm.trans hbase'
    | next _ hd' hbase' hrest' =>
      cases hd.symm.trans hd'
      cases hbase.symm.trans hbase'
      rw [ih hrest']

/-! ### Where a walk succeeds -/

/-- A base of `id` that is not defined, or that is a base of itself. -/
def BadBase (s : Schema) (id base : TypeId) : Prop :=
  Relation.ReflTransGen (HasBase s) id base ∧
    (s.isDefined base = false ∨ Relation.TransGen (HasBase s) base base)

theorem HasBase.unique {other : TypeId} (h : HasBase s id base) (h' : HasBase s id other) :
    base = other := by
  obtain ⟨d, hd, hbase⟩ := h
  obtain ⟨d', hd', hbase'⟩ := h'
  cases hd.symm.trans hd'
  exact Option.some.inj (hbase.symm.trans hbase')

theorem isDefined_of_definition {d : Definition} (h : s.definition id = .ok d) :
    s.isDefined id = true :=
  isDefined_iff.mpr ⟨d, h⟩

theorem not_hasBase {d : Definition} (hd : s.definition id = .ok d) (hbase : d.base = none)
    (other : TypeId) : ¬ HasBase s id other := by
  rintro ⟨d', hd', hbase'⟩
  cases hd.symm.trans hd'
  cases hbase.symm.trans hbase'

/-- The chain holds the definitions of the type and of its bases. -/
theorem WalksBases.mem_iff {chain : List Definition} {d : Definition}
    (h : WalksBases s root seen id (.ok chain)) :
    d ∈ chain ↔ ∃ t, Relation.ReflTransGen (HasBase s) id t ∧ s.definition t = .ok d := by
  generalize hresult : Except.ok chain = result at h
  induction h generalizing chain with
  | loop | undefined => cases hresult
  | @last seen id first hin hfirst hbase =>
    cases hresult
    rw [List.mem_singleton]
    constructor
    · rintro rfl
      exact ⟨id, .refl, hfirst⟩
    · rintro ⟨t, hreach, hd⟩
      rcases Relation.ReflTransGen.cases_head hreach with rfl | ⟨other, hother, -⟩
      · exact Except.ok.inj (hd.symm.trans hfirst)
      · exact absurd hother (not_hasBase hfirst hbase other)
  | @next seen id base first rest hin hfirst hbase hrest ih =>
    obtain ⟨tail, rfl, rfl⟩ := map_eq_ok_iff.mp hresult.symm
    rw [List.mem_cons, ih rfl]
    have hstep : HasBase s id base := ⟨first, hfirst, hbase⟩
    constructor
    · rintro (rfl | ⟨t, hreach, hd⟩)
      · exact ⟨id, .refl, hfirst⟩
      · exact ⟨t, .head hstep hreach, hd⟩
    · rintro ⟨t, hreach, hd⟩
      rcases Relation.ReflTransGen.cases_head hreach with rfl | ⟨other, hother, hreach⟩
      · exact Or.inl (Except.ok.inj (hd.symm.trans hfirst))
      · rw [hother.unique hstep] at hreach
        exact Or.inr ⟨t, hreach, hd⟩

/-- A walk that succeeds has met no bad base. -/
theorem WalksBases.not_badBase {chain : List Definition}
    (h : WalksBases s root seen id (.ok chain)) (base : TypeId) : ¬ BadBase s id base := by
  generalize hresult : Except.ok chain = result at h
  induction h generalizing chain with
  | loop | undefined => cases hresult
  | @last seen id d hin hd hbase =>
    have hnone := not_hasBase hd hbase
    rintro ⟨hreach, hbad⟩
    rcases Relation.ReflTransGen.cases_head hreach with rfl | ⟨other, hother, -⟩
    · rcases hbad with hundefined | hloop
      · rw [isDefined_of_definition hd] at hundefined
        cases hundefined
      · obtain ⟨other, hother, -⟩ := Relation.TransGen.head'_iff.mp hloop
        exact hnone other hother
    · exact hnone other hother
  | @next seen id next d rest hin hd hbase hrest ih =>
    obtain ⟨tail, hrest', -⟩ := map_eq_ok_iff.mp hresult.symm
    have hgood := ih hrest'.symm
    rintro ⟨hreach, hbad⟩
    rcases Relation.ReflTransGen.cases_head hreach with rfl | ⟨other, hother, hreach⟩
    · rcases hbad with hundefined | hloop
      · rw [isDefined_of_definition hd] at hundefined
        cases hundefined
      · -- a loop through the type is one through its base
        obtain ⟨other, hother, hback⟩ := Relation.TransGen.head'_iff.mp hloop
        rw [hother.unique ⟨d, hd, hbase⟩] at hback
        exact hgood ⟨hback, Or.inr hloop⟩
    · rw [hother.unique ⟨d, hd, hbase⟩] at hreach
      exact hgood ⟨hreach, hbad⟩

theorem definition_eq_error_iff {e : Error} :
    s.definition id = .error e ↔
      s.isDefined id = false ∧ e = .layout (.undefined (s.describe id)) := by
  unfold definition isDefined
  cases (s.entry? id).bind (·.definition) with
  | none =>
    constructor
    · intro h
      exact ⟨rfl, (Except.error.inj h).symm⟩
    · rintro ⟨-, rfl⟩
      rfl
  | some d =>
    constructor
    · intro h
      cases h
    · rintro ⟨h, -⟩
      cases h

/-- What is reported of a bad base of `root`. -/
inductive BaseFault (s : Schema) (root base : TypeId) : LayoutFault → Prop
  | undefined (h : s.isDefined base = false) : BaseFault s root base (.undefined (s.describe base))
  | loop (h : Relation.TransGen (HasBase s) base base) :
    BaseFault s root base (.baseLoop (s.name root) (s.name base))

theorem BaseFault.badBase {fault : LayoutFault} (h : BaseFault s root base fault)
    (hreach : Relation.ReflTransGen (HasBase s) id base) : BadBase s id base := by
  cases h with
  | undefined h => exact ⟨hreach, Or.inl h⟩
  | loop h => exact ⟨hreach, Or.inr h⟩

/-- A walk that fails has met a bad base, and reports it. -/
theorem WalksBases.exists_baseFault {e : Error} (h : WalksBases s root seen id (.error e))
    (hseen : ∀ t ∈ seen, Relation.TransGen (HasBase s) t id) :
    ∃ base fault, Relation.ReflTransGen (HasBase s) id base ∧ BaseFault s root base fault ∧
      e = .layout fault := by
  generalize hresult : Except.error e = result at h
  induction h generalizing e with
  | @loop seen id hin => exact ⟨id, _, .refl, .loop (hseen id hin), Except.error.inj hresult⟩
  | @undefined seen id e hin hd =>
    cases hresult
    obtain ⟨hundefined, rfl⟩ := definition_eq_error_iff.mp hd
    exact ⟨id, _, .refl, .undefined hundefined, rfl⟩
  | last => cases hresult
  | @next seen id next d rest hin hd hbase hrest ih =>
    have hstep : HasBase s id next := ⟨d, hd, hbase⟩
    cases rest with
    | ok chain => cases hresult
    | error e' =>
      have hseen' : ∀ t ∈ id :: seen, Relation.TransGen (HasBase s) t next := by
        intro t ht
        rcases List.mem_cons.mp ht with rfl | ht
        · exact .single hstep
        · exact (hseen t ht).tail hstep
      obtain ⟨base, fault, hreach, hfault, he⟩ := ih hseen' rfl
      exact ⟨base, fault, .head hstep hreach, hfault, (Except.error.inj hresult).trans he⟩

/-- A type has members exactly where its bases are defined and come to an end. -/
theorem exists_members_iff :
    (∃ ms, s.members id = .ok ms) ↔ ∀ base, ¬ BadBase s id base := by
  have hwalk := walksBases_baseChain s id
  constructor
  · rintro ⟨ms, hms⟩
    obtain ⟨chain, hchain, -⟩ := map_eq_ok_iff.mp hms
    rw [hchain] at hwalk
    exact hwalk.not_badBase
  · intro hgood
    cases hchain : s.baseChain id with
    | ok chain => exact ⟨mergeMembers chain, by rw [members, hchain]; rfl⟩
    | error e =>
      rw [hchain] at hwalk
      obtain ⟨base, fault, hreach, hfault, -⟩ :=
        hwalk.exists_baseFault fun _ h => absurd h List.not_mem_nil
      exact absurd (hfault.badBase hreach) (hgood base)

end Schema

end TypedMemory
