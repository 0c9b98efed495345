import TypedMemory.Proofs.Results
import TypedMemory.Schema.Members

/-!
# Schemas that grow

`Schema.Extends s s'`: the types that are defined in `s` are the same in `s'`.
Declaring and defining types leads to an extension (`extends_declare`,
`extends_define`), in which a defined type keeps its members (`Extends.members`).
No type is defined twice (`define_of_isDefined`).
-/

namespace TypedMemory

namespace Schema

variable {s s' : Schema}

/-- The schema `s'` keeps the defined types of `s`. -/
structure Extends (s s' : Schema) : Prop where
  size_le : s.size ≤ s'.size
  entry : ∀ {id e}, s.entry? id = some e → e.definition.isSome → s'.entry? id = some e

theorem Extends.refl (s : Schema) : Extends s s :=
  ⟨Nat.le_refl _, fun h _ => h⟩

theorem Extends.trans {t : Schema} (h : Extends s s') (h' : Extends s' t) : Extends s t :=
  ⟨Nat.le_trans h.size_le h'.size_le, fun he hd => h'.entry (h.entry he hd) hd⟩

theorem definition_eq_ok_iff {id : TypeId} {d : Definition} :
    s.definition id = .ok d ↔ ∃ e, s.entry? id = some e ∧ e.definition = some d := by
  unfold definition
  rw [← Option.bind_eq_some_iff]
  cases (s.entry? id).bind (·.definition) <;> simp

theorem isDefined_iff {id : TypeId} :
    s.isDefined id = true ↔ ∃ d, s.definition id = .ok d := by
  unfold isDefined definition
  cases (s.entry? id).bind (·.definition) <;> simp

namespace Extends

variable (h : Extends s s') {id : TypeId} {d : Definition}

include h

theorem definition (hd : s.definition id = .ok d) : s'.definition id = .ok d := by
  obtain ⟨e, he, hed⟩ := definition_eq_ok_iff.mp hd
  exact definition_eq_ok_iff.mpr ⟨e, h.entry he (hed ▸ rfl), hed⟩

theorem isDefined (hd : s.isDefined id = true) : s'.isDefined id = true := by
  obtain ⟨d, hd⟩ := isDefined_iff.mp hd
  exact isDefined_iff.mpr ⟨d, h.definition hd⟩

theorem name (hd : s.definition id = .ok d) : s'.name id = s.name id := by
  obtain ⟨e, he, hed⟩ := definition_eq_ok_iff.mp hd
  rw [Schema.name, Schema.name, he, h.entry he (hed ▸ rfl)]

theorem kind (hd : s.definition id = .ok d) : s'.kind id = s.kind id := by
  obtain ⟨e, he, hed⟩ := definition_eq_ok_iff.mp hd
  rw [Schema.kind, Schema.kind, he, h.entry he (hed ▸ rfl)]

/-- A chain of bases stays, also where more types are looked at. -/
theorem chainFrom {root : TypeId} {fuel fuel' : Nat} {seen : List TypeId}
    {chain : List Definition} (hfuel : fuel ≤ fuel')
    (hc : s.chainFrom root fuel seen id = .ok chain) :
    s'.chainFrom root fuel' seen id = .ok chain := by
  induction fuel generalizing fuel' seen id chain with
  | zero => cases hc
  | succ fuel ih =>
    obtain ⟨fuel', rfl⟩ : ∃ k, fuel' = k + 1 := ⟨fuel' - 1, by omega⟩
    rw [Schema.chainFrom] at hc ⊢
    by_cases hseen : id ∈ seen
    · rw [if_pos hseen] at hc
      cases hc
    · rw [if_neg hseen, bind_eq_ok_iff] at hc ⊢
      obtain ⟨d, hd, hc⟩ := hc
      refine ⟨d, h.definition hd, ?_⟩
      cases hbase : d.base with
      | none => rwa [hbase] at hc
      | some base =>
        rw [hbase] at hc
        obtain ⟨rest, hrest, hc⟩ := bind_eq_ok_iff.mp hc
        exact bind_eq_ok_iff.mpr ⟨rest, ih (by omega) hrest, hc⟩

theorem members {ms : List Member} (hms : s.members id = .ok ms) : s'.members id = .ok ms := by
  unfold Schema.members baseChain at hms ⊢
  cases hc : s.chainFrom id (s.size + 1) [] id with
  | error e =>
    rw [hc] at hms
    cases hms
  | ok chain =>
    rw [hc] at hms
    rw [h.chainFrom (Nat.succ_le_succ h.size_le) hc]
    exact hms

end Extends

/-! ### Declaring and defining -/

theorem extends_declare (s : Schema) (name : String) (kind : TypeKind) :
    Extends s (s.declare name kind).2 := by
  refine ⟨by simp [declare, size], fun {id e} he _ => ?_⟩
  cases id with
  | builtin type => exact he
  | declared index =>
    have hindex : index < s.declared.length := (List.getElem?_eq_some_iff.mp he).1
    exact (List.getElem?_append_left hindex).trans he

/-- What defining a type does, and when. -/
theorem define_eq_ok_iff {id : TypeId} {d : Definition} :
    s.define id d = .ok s' ↔ ∃ index name kind, id = .declared index ∧
      s.entry? id = some ⟨name, kind, none⟩ ∧
      s' = { s with declared := s.declared.set index ⟨name, kind, some d⟩ } := by
  constructor
  · intro h
    unfold define at h
    split at h
    next index name kind he =>
      cases h
      exact ⟨index, name, kind, rfl, he, rfl⟩
    next => cases h
  · rintro ⟨index, name, kind, rfl, he, rfl⟩
    unfold define
    rw [he]

theorem extends_define {id : TypeId} {d : Definition} (h : s.define id d = .ok s') :
    Extends s s' := by
  obtain ⟨index, name, kind, rfl, he, rfl⟩ := define_eq_ok_iff.mp h
  refine ⟨by simp [size], fun {other e} hother hdefined => ?_⟩
  cases other with
  | builtin type => exact hother
  | declared other =>
    have hne : index ≠ other := by
      rintro rfl
      rw [hother] at he
      cases he
      cases hdefined
    exact (List.getElem?_set_ne hne).trans hother

theorem definition_of_define {id : TypeId} {d : Definition} (h : s.define id d = .ok s') :
    s'.definition id = .ok d := by
  obtain ⟨index, name, kind, rfl, he, rfl⟩ := define_eq_ok_iff.mp h
  refine definition_eq_ok_iff.mpr ⟨⟨name, kind, some d⟩, ?_, rfl⟩
  exact List.getElem?_set_self (List.getElem?_eq_some_iff.mp he).1

/-- A defined type is not defined again. -/
theorem define_of_isDefined {id : TypeId} (h : s.isDefined id = true) (d : Definition) :
    s.define id d = .error (.layout (.redefined (s.describe id))) := by
  obtain ⟨old, hold⟩ := isDefined_iff.mp h
  obtain ⟨e, he, hed⟩ := definition_eq_ok_iff.mp hold
  unfold define
  split
  next index name kind hnone =>
    rw [he] at hnone
    cases hnone
    cases hed
  next => rfl

end Schema

end TypedMemory
