import TypedMemory.Proofs.Layout.Faults
import TypedMemory.Proofs.Layout.Needs

/-!
# The outcome of every layout

`Schema.Resolves` is the recursion from a type to the types that it holds by value,
where nothing bounds its depth and only a type that is entered again ends it.  A
derivation of it is a run that ends, and every type has exactly one
(`resolves_iff`): that of `Schema.layout`.

`layout_outcome` says how a run ends.  It fails, and with a fault of the schema,
where the type embeds a broken type.  It gives a layout, with the size that the type
takes in unbounded numbers, where that cannot be and everything in the type has a
size below the limit of an offset.
-/

namespace TypedMemory

namespace Schema

open Relation

variable {s : Schema} {p : Platform} {path : List TypeId} {id part : TypeId}

/-! ### Without a bound on the depth -/

/-- The layout of a type that the types of `path` hold by value, or the failure to find
it.  The bases are walked and the parts are resolved as deep as they go. -/
inductive Resolves (s : Schema) (p : Platform) :
    List TypeId → TypeId → Except Error Layout → Prop
  | again {path : List TypeId} {id : TypeId} (hin : id ∈ path) :
      Resolves s p path id (.error (s.cycle path id))
  | undefined {path : List TypeId} {id : TypeId} {e : Error} (hin : id ∉ path)
      (hd : s.definition id = .error e) : Resolves s p path id (.error e)
  | baseless {path : List TypeId} {id : TypeId} {d : Definition} {e : Error} (hin : id ∉ path)
      (hd : s.definition id = .ok d) (hwalk : WalksBases s id [] id (.error e)) :
      Resolves s p path id (.error e)
  | enter {path : List TypeId} {id : TypeId} {d : Definition} {chain : List Definition}
      (answer : TypeId → Except Error Layout) (hin : id ∉ path) (hd : s.definition id = .ok d)
      (hwalk : WalksBases s id [] id (.ok chain))
      (hparts : ∀ m ∈ mergeMembers chain, ∀ part, m.2.valueType? p = some part →
        Resolves s p (path ++ [id]) part (answer part)) :
      Resolves s p path id
        ((mergeMembers chain).mapM (measure s p answer) >>= place s p (s.name id) (s.kind id) d)

theorem resolves_layoutIn {fuel : Nat} (hpath : PathTo s p path id)
    (hfuel : s.size < fuel + path.length) :
    Resolves s p path id (s.layoutIn p fuel path id) := by
  induction fuel generalizing path id with
  | zero =>
    have := hpath.length_le
    omega
  | succ fuel ih =>
    rw [layoutIn]
    by_cases hin : id ∈ path
    · rw [if_pos hin]
      exact .again hin
    · rw [if_neg hin]
      have hwalk := walksBases_baseChain s id
      cases hd : s.definition id with
      | error e => exact .undefined hin hd
      | ok d =>
        cases hchain : s.baseChain id with
        | error e =>
          rw [hchain] at hwalk
          have hms : s.members id = .error e := by rw [members, hchain]; rfl
          rw [hms]
          exact .baseless hin hd hwalk
        | ok chain =>
          rw [hchain] at hwalk
          have hms : s.members id = .ok (mergeMembers chain) := by rw [members, hchain]; rfl
          rw [hms]
          refine .enter (s.layoutIn p fuel (path ++ [id])) hin hd hwalk fun m hm part hpart => ?_
          refine ih (hpath.concat hin hd ⟨_, hms, m, hm, hpart⟩) ?_
          rw [List.length_append, List.length_singleton]
          omega

/-- A type resolves in one way. -/
theorem Resolves.unique {r r' : Except Error Layout} (h : Resolves s p path id r)
    (h' : Resolves s p path id r') : r = r' := by
  induction h generalizing r' with
  | again hin =>
    cases h' with
    | again => rfl
    | undefined hout | baseless hout | enter _ hout => exact absurd hin hout
  | undefined hout hd =>
    cases h' with
    | again hin => exact absurd hin hout
    | undefined _ hd' => exact congrArg Except.error (Except.error.inj (hd.symm.trans hd'))
    | baseless _ hd' | enter _ _ hd' => cases hd.symm.trans hd'
  | baseless hout hd hwalk =>
    cases h' with
    | again hin => exact absurd hin hout
    | undefined _ hd' => cases hd.symm.trans hd'
    | baseless _ _ hwalk' => exact congrArg Except.error (Except.error.inj (hwalk.unique hwalk'))
    | enter _ _ _ hwalk' => cases hwalk.unique hwalk'
  | enter answer hout hd hwalk hparts ih =>
    cases h' with
    | again hin => exact absurd hin hout
    | undefined _ hd' => cases hd.symm.trans hd'
    | baseless _ _ hwalk' => cases hwalk.unique hwalk'
    | enter answer' _ hd' hwalk' hparts' =>
      cases hd.symm.trans hd'
      cases hwalk.unique hwalk'
      rw [mapM_congr fun m hm => measure_congr fun part hpart =>
        ih m hm part hpart (hparts' m hm part hpart)]

/-- The layout of a type is what the recursion without a bound comes to. -/
theorem resolves_iff {r : Except Error Layout} :
    Resolves s p [] id r ↔ r = s.layout p id := by
  have hresolves := resolves_layoutIn (PathTo.nil (p := p) id) (Nat.lt_succ_self s.size)
  rw [← layout_eq_layoutIn s p id (Nat.lt_succ_self s.size)] at hresolves
  constructor
  · exact fun h => h.unique hresolves
  · rintro rfl
    exact hresolves

/-! ### Failures -/

theorem layout_failsBySchema (s : Schema) (p : Platform) (id : TypeId) :
    FailsBySchema (s.layout p id) := by
  rw [layout_eq_layoutIn s p id (Nat.lt_succ_self s.size)]
  exact layoutIn_failsBySchema s p _ _ _

/-- A type that embeds a broken type has no layout. -/
theorem exists_fault_of_broken (hreach : ReflTransGen (Embeds s) id part)
    (hbroken : Broken s part) : ∃ e, s.layout p id = .error e ∧ e.concernsSchema = true := by
  cases hl : s.layout p id with
  | error e => exact ⟨e, rfl, layout_failsBySchema s p id e hl⟩
  | ok l =>
    obtain ⟨l', hl'⟩ := (layout_eq_ok_iff.mp hl).of_embeds hreach
    exact absurd hbroken hl'.not_broken

theorem not_broken_of_layout (h : (s.layout p id).toOption.isSome = true) : ¬ Broken s id := by
  cases hl : s.layout p id with
  | ok l => exact (layout_eq_ok_iff.mp hl).not_broken
  | error e =>
    rw [hl] at h
    cases h

/-! ### Layouts -/

/-- A type of known size, all of it below the limit of an offset. -/
structure Measurable (s : Schema) (p : Platform) (id : TypeId) : Prop where
  not_broken : ¬ Broken s id
  origin_eq : ∀ d, s.definition id = .ok d → d.origin = none
  sized : ∀ ms, s.members id = .ok ms → ∀ m ∈ ms, ∀ f ∈ m.2.layers, f.isUnsized = false
  size_lt : ∀ needs, Takes s p (.composite id) needs → needs.size < offsetLimit
  layer_lt : ∀ ms, s.members id = .ok ms → ∀ m ∈ ms, ∀ f ∈ m.2.layers, ∀ needs,
    Takes s p f needs → needs.size < offsetLimit

/-- The step from the parts of a type to the type. -/
theorem Measurable.exists_layout (h : Measurable s p id)
    (hparts : ∀ part, Embeds s id part → ∃ l, s.layout p part = .ok l ∧
      Takes s p (.composite part) ⟨l.size, l.alignment⟩) :
    ∃ l, s.layout p id = .ok l ∧ Takes s p (.composite id) ⟨l.size, l.alignment⟩ := by
  obtain ⟨d, hd⟩ := isDefined_iff.mp (isDefined_of_not_broken h.not_broken)
  obtain ⟨ms, hms⟩ := exists_members_of_not_broken h.not_broken
  have hmembers : ∀ m, ∃ needs, m ∈ ms → Takes s p m.2 needs ∧
      measure s p (s.layout p) m = .ok (needs.measured m) := by
    intro m
    by_cases hm : m ∈ ms
    · have hlimits : offsetLimit < wordLimit := by decide
      obtain ⟨needs, htakes, hsize, halignment⟩ := Field.exists_takes (h.sized ms hms m hm)
        (fun f hf needs hneeds => (h.layer_lt ms hms m hm f hf needs hneeds).trans hlimits)
        (fun part hcore => hparts part ⟨ms, hms, m, hm, hcore⟩)
      have hsized := h.sized ms hms m hm m.2 m.2.self_mem_layers
      exact ⟨needs, fun _ => ⟨htakes, measure_eq_measured hsized hsize halignment⟩⟩
    · exact ⟨default, fun h => absurd h hm⟩
  choose needs hneeds using hmembers
  exact exists_layout_takes hd hms (h.origin_eq d hd) (fun m hm => (hneeds m hm).1)
    (fun m hm => (hneeds m hm).2) h.size_lt

/-- Where all that a type embeds is measurable, the type has a layout. -/
theorem exists_layout_of_measurable
    (h : ∀ part, ReflTransGen (Embeds s) id part → Measurable s p part) :
    ∃ l, s.layout p id = .ok l ∧ Takes s p (.composite id) ⟨l.size, l.alignment⟩ := by
  have hacc := acc_of_not_broken fun part hpart => (h part hpart).not_broken
  induction hacc with
  | intro id _ ih =>
    refine (h id .refl).exists_layout fun part hpart => ih part hpart fun inner hinner => ?_
    exact h inner (.head hpart hinner)

/-- Every layout comes to an end.  It fails through the schema if the type embeds a
broken type, and it succeeds if all that the type embeds is measurable. -/
theorem layout_outcome (s : Schema) (p : Platform) (id : TypeId) :
    (∀ r, Resolves s p [] id r ↔ r = s.layout p id) ∧
    ((∃ part, ReflTransGen (Embeds s) id part ∧ Broken s part) →
      ∃ e, s.layout p id = .error e ∧ e.concernsSchema = true) ∧
    ((∀ part, ReflTransGen (Embeds s) id part → Measurable s p part) →
      ∃ l, s.layout p id = .ok l ∧
        ∀ needs, Takes s p (.composite id) needs ↔ needs = ⟨l.size, l.alignment⟩) := by
  refine ⟨fun r => resolves_iff, ?_, fun h => ?_⟩
  · rintro ⟨part, hreach, hbroken⟩
    exact exists_fault_of_broken hreach hbroken
  · obtain ⟨l, hl, htakes⟩ := exists_layout_of_measurable h
    refine ⟨l, hl, fun needs => ⟨fun hneeds => hneeds.unique htakes, ?_⟩⟩
    rintro rfl
    exact htakes

/-- A type that holds none of itself, and a type that holds another one in two ways and
points to itself. -/
def graphSchema : Schema :=
  { declared := [
      ⟨"Empty", .struct, some { fields := [("none", .array (.composite (.declared 0)) (some 0))] }⟩,
      ⟨"Leaf", .struct, some { fields := [("value", .scalar .u32)] }⟩,
      ⟨"Branch", .struct, some
        { fields := [("left", .composite (.declared 1)),
            ("right", .array (.composite (.declared 1)) (some 2)),
            ("up", .pointer (.composite (.declared 2)))] }⟩] }

namespace graphSchema

theorem takes_leaf : Takes graphSchema .host (.composite (.declared 1)) ⟨4, 4⟩ :=
  .struct (fun _ => ⟨4, 4⟩) rfl rfl rfl
    (fun m hm => by
      cases List.mem_singleton.mp hm
      exact .scalar .u32)
    (isTight_tightOffsets _ _)

theorem members_branch : graphSchema.members (.declared 2) =
    .ok [("left", .composite (.declared 1)), ("right", .array (.composite (.declared 1)) (some 2)),
      ("up", .pointer (.composite (.declared 2)))] := by
  decide +kernel

/-- What the members of a branch take. -/
def branchNeeds (m : Member) : Needs :=
  match m.2 with
  | .composite _ => ⟨4, 4⟩
  | .array _ _ => ⟨8, 4⟩
  | _ => ⟨8, 8⟩

theorem takes_branch : Takes graphSchema .host (.composite (.declared 2)) ⟨24, 8⟩ := by
  have htight : IsTight false
      [⟨"left", .composite (.declared 1), some 4, 4⟩,
        ⟨"right", .array (.composite (.declared 1)) (some 2), some 8, 4⟩,
        ⟨"up", .pointer (.composite (.declared 2)), some 8, 8⟩] [0, 4, 16] 8 24 :=
    isTight_tightOffsets _ _
  refine .struct branchNeeds rfl rfl members_branch (fun m hm => ?_) htight
  rcases List.mem_cons.mp hm with rfl | hm
  · exact takes_leaf
  rcases List.mem_cons.mp hm with rfl | hm
  · exact .array 2 takes_leaf
  cases List.mem_singleton.mp hm
  exact .pointer _

theorem measurable_leaf : Measurable graphSchema .host (.declared 1) where
  not_broken := not_broken_of_layout (p := .host) (by decide +kernel)
  origin_eq := by
    rintro d ⟨⟩
    rfl
  sized := by
    rintro ms ⟨⟩
    decide
  size_lt needs h := by
    rw [h.unique takes_leaf]
    decide
  layer_lt := by
    rintro ms ⟨⟩ m hm f hf needs h
    cases List.mem_singleton.mp hm
    cases List.mem_singleton.mp hf
    rw [h.unique (.scalar .u32)]
    decide

theorem measurable_branch : Measurable graphSchema .host (.declared 2) where
  not_broken := not_broken_of_layout (p := .host) (by decide +kernel)
  origin_eq := by
    rintro d ⟨⟩
    rfl
  sized := by
    intro ms hms
    cases members_branch.symm.trans hms
    decide
  size_lt needs h := by
    rw [h.unique takes_branch]
    decide
  layer_lt := by
    intro ms hms m hm f hf needs h
    cases members_branch.symm.trans hms
    rcases List.mem_cons.mp hm with rfl | hm
    · cases List.mem_singleton.mp hf
      rw [h.unique takes_leaf]
      decide
    rcases List.mem_cons.mp hm with rfl | hm
    · rcases List.mem_cons.mp hf with rfl | hf
      · rw [h.unique (.array 2 takes_leaf)]
        decide
      · cases List.mem_singleton.mp hf
        rw [h.unique takes_leaf]
        decide
    cases List.mem_singleton.mp hm
    cases List.mem_singleton.mp hf
    rw [h.unique (.pointer _)]
    decide

theorem measurable_of_reached (h : ReflTransGen (Embeds graphSchema) (.declared 2) part) :
    Measurable graphSchema .host part := by
  rcases ReflTransGen.cases_head h with rfl | ⟨inner, ⟨ms, hms, m, hm, hcore⟩, hreach⟩
  · exact measurable_branch
  · have hleaf : inner = .declared 1 := by
      cases members_branch.symm.trans hms
      rcases List.mem_cons.mp hm with rfl | hm
      · cases hcore
        rfl
      rcases List.mem_cons.mp hm with rfl | hm
      · cases hcore
        rfl
      cases List.mem_singleton.mp hm
      cases hcore
    subst hleaf
    rcases ReflTransGen.cases_head hreach with rfl | ⟨inner, ⟨ms, hms, m, hm, hcore⟩, -⟩
    · exact measurable_leaf
    · -- a leaf holds a number only
      cases hms
      cases List.mem_singleton.mp hm
      cases hcore

end graphSchema

theorem layout_outcome_of_graph :
    (∃ e, graphSchema.layout .host (.declared 0) = .error e ∧ e.concernsSchema = true) ∧
    ∃ l, graphSchema.layout .host (.declared 2) = .ok l ∧ l.size = 24 := by
  constructor
  · obtain ⟨-, hfault, -⟩ := layout_outcome graphSchema .host (.declared 0)
    refine hfault ⟨.declared 0, .refl, .cyclic (.single ?_)⟩
    exact ⟨_, rfl, _, List.mem_cons_self, rfl⟩
  · obtain ⟨-, -, hlayout⟩ := layout_outcome graphSchema .host (.declared 2)
    obtain ⟨l, hl, htakes⟩ := hlayout fun part => graphSchema.measurable_of_reached
    have hsize := (htakes ⟨24, 8⟩).mp graphSchema.takes_branch
    exact ⟨l, hl, (congrArg Needs.size hsize).symm⟩

end Schema

end TypedMemory
