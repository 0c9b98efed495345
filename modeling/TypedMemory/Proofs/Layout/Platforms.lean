import TypedMemory.Proofs.Layout.Embedding

/-!
# Layouts on several platforms

Of a platform, a layout depends on the width of a word and on whether the operating system is
Windows.  The byte order and the family of the system do not matter otherwise: nothing but the
number of the bytes in a padding field can tell such platforms apart.

* `Platform.Alike`: the platforms that are not told apart.
* `Schema.FillFree`: a type that holds no padding field by value.
* `Schema.layout_of_alike`: the layout of such a type, or the failure to find one, is the same
  on all platforms that are alike.
-/

namespace TypedMemory

/-- Platforms with words of one width, of which both or none are Windows. -/
structure Platform.Alike (p q : Platform) : Prop where
  bits_eq : p.bits = q.bits
  isWindows_eq : p.os.isWindows = q.os.isWindows

/-- The same layout, on another platform. -/
def Layout.on (q : Platform) (l : Layout) : Layout :=
  { l with platform := q }

namespace Platform.Alike

variable {p q : Platform} (h : p.Alike q)

include h

theorem pointerSize_eq : q.pointerSize = p.pointerSize := by
  rw [pointerSize, pointerSize, h.bits_eq]

theorem sizeOn_eq (kind : ScalarKind) : kind.sizeOn q = kind.sizeOn p := by
  have hint : q.intSize = p.intSize := by rw [intSize, intSize, h.bits_eq]
  have hlong : q.longSize = p.longSize := by rw [longSize, longSize, h.bits_eq, h.isWindows_eq]
  cases kind <;> simp only [ScalarKind.sizeOn, h.pointerSize_eq, hint, hlong]

theorem objectType_eq (abi : StringAbi) : abi.objectType q = abi.objectType p := by
  rw [StringAbi.objectType, StringAbi.objectType]
  cases abi <;> simp only [StringAbi.resolve, h.isWindows_eq]

end Platform.Alike

/-! ### Needs -/

section Needs

variable {s : Schema} {p q : Platform} {layout : TypeId → Except Error Layout}

theorem map_on_map {α : Type} {r : Except Error Layout} {f : Layout → α}
    (hf : ∀ l, f (l.on q) = f l) : (r.map (Layout.on q)).map f = r.map f := by
  cases r with
  | error e => rfl
  | ok l => exact congrArg Except.ok (hf l)

variable (h : p.Alike q)

include h

theorem alignmentBy_of_alike (field : Field) :
    field.alignmentBy q (fun id => (layout id).map (Layout.on q)) = field.alignmentBy p layout := by
  induction field with
  | array element length ih => exact ih
  | scalar kind => exact congrArg Except.ok (h.sizeOn_eq kind)
  | pointer target => exact congrArg Except.ok h.pointerSize_eq
  | composite type => exact map_on_map fun _ => rfl
  | string abi =>
    rw [Field.alignmentBy, Field.alignmentBy, h.objectType_eq]
    exact map_on_map fun _ => rfl
  | void | fill => rfl

theorem sizeBy_of_alike {field : Field} (hfill : ∀ counts, field.core ≠ .fill counts) :
    field.sizeBy s q (fun id => (layout id).map (Layout.on q)) = field.sizeBy s p layout := by
  induction field with
  | array element length ih =>
    cases length with
    | none => rfl
    | some n => rw [Field.sizeBy, Field.sizeBy, ih hfill]
  | scalar kind => exact congrArg Except.ok (h.sizeOn_eq kind)
  | pointer target => exact congrArg Except.ok h.pointerSize_eq
  | composite type => exact map_on_map fun _ => rfl
  | string abi =>
    rw [Field.sizeBy, Field.sizeBy, h.objectType_eq]
    exact map_on_map fun _ => rfl
  | fill counts => exact absurd rfl (hfill counts)
  | void => rfl

theorem measure_of_alike {m : Member} (hfill : ∀ counts, m.2.core ≠ .fill counts) :
    measure s q (fun id => (layout id).map (Layout.on q)) m = measure s p layout m := by
  rw [measure, measure, alignmentBy_of_alike h, sizeBy_of_alike h hfill]

end Needs

theorem place_on (s : Schema) (p q : Platform) (name : String) (kind : TypeKind) (d : Definition)
    (members : List MeasuredMember) :
    place s q name kind d members = (place s p name kind d members).map (Layout.on q) := by
  unfold place
  cases kind with
  | struct =>
    simp only
    cases structPlacement s name members d.isPacked d.origin with
    | error e => rfl
    | ok placement => rfl
  | union =>
    cases d.origin with
    | some origin => rfl
    | none =>
      simp only
      cases unionPlacement s name members d.isPacked with
      | error e => rfl
      | ok placement => rfl

/-! ### Types without padding fields -/

/-- A type that a field holds is embedded, or is that of the objects of a string. -/
theorem Field.core_of_valueType? {p : Platform} {field : Field} {part : TypeId}
    (h : field.valueType? p = some part) :
    field.core = .composite part ∨ ∃ abi, field.core = .string abi ∧ abi.objectType p = part := by
  induction field with
  | array element length ih => exact ih h
  | composite type => exact Or.inl (congrArg Field.composite (Option.some.inj h))
  | string abi => exact Or.inr ⟨abi, rfl, Option.some.inj h⟩
  | void | scalar | pointer | fill => cases h

namespace Schema

open Relation

variable {s : Schema} {p q : Platform} {id part : TypeId} {ms : List Member}

/-- Neither the type nor the types that it embeds, however deep, have a padding field, nor an array
of them. -/
def FillFree (s : Schema) (id : TypeId) : Prop :=
  ∀ part, ReflTransGen (Embeds s) id part → ∀ ms, s.members part = .ok ms → ∀ m ∈ ms,
    ∀ counts, m.2.core ≠ .fill counts

theorem FillFree.of_embeds (h : FillFree s id) (hpart : Embeds s id part) : FillFree s part :=
  fun _ hreach => h _ (.head hpart hreach)

theorem fillFree_of_members (hms : s.members id = .ok ms)
    (hfill : ∀ m ∈ ms, ∀ counts, m.2.core ≠ .fill counts)
    (hparts : ∀ m ∈ ms, ∀ part, m.2.core = .composite part → FillFree s part) : FillFree s id := by
  intro part hreach
  rcases hreach.cases_head with rfl | ⟨next, ⟨ms', hms', m, hm, hcore⟩, hreach⟩
  · intro ms' hms'
    cases hms.symm.trans hms'
    exact hfill
  · cases hms.symm.trans hms'
    exact hparts m hm next hcore part hreach

/-- The objects of strings have no padding fields. -/
theorem fillFree_objectType (s : Schema) (abi : StringAbi) (p : Platform) :
    FillFree s (abi.objectType p) := by
  have hcontent : FillFree s (.builtin .shortStringContent) := by
    have hms : s.members (.builtin .shortStringContent) =
        .ok [("inline", .array (.scalar .ubyte) (some 16)),
          ("pointer", .pointer (.array (.scalar .ubyte) none))] := rfl
    refine fillFree_of_members hms ?_ ?_ <;> simp [Field.core]
  unfold StringAbi.objectType
  cases abi.resolve p with
  | sso =>
    have hms : s.members (.builtin .shortString) =
        .ok [("content", .composite (.builtin .shortStringContent)), ("length", .scalar .usize),
          ("capacity", .scalar .usize)] := rfl
    refine fillFree_of_members hms (by simp [Field.core]) ?_
    simp only [List.forall_mem_cons]
    refine ⟨?_, nofun, nofun, nofun⟩
    rintro part ⟨⟩
    exact hcontent
  | refCounted | native =>
    have hms : s.members (.builtin .countedString) =
        .ok [("pointer", .pointer (.composite (.builtin .countedStringHeader)))] := rfl
    refine fillFree_of_members hms ?_ ?_ <;> simp [Field.core]

/-- What the type holds by value has no padding fields either. -/
theorem FillFree.of_valueType? (h : FillFree s id) (hms : s.members id = .ok ms) {m : Member}
    (hm : m ∈ ms) (hpart : m.2.valueType? p = some part) : FillFree s part := by
  rcases Field.core_of_valueType? hpart with hcore | ⟨abi, -, rfl⟩
  · exact h.of_embeds ⟨ms, hms, m, hm, hcore⟩
  · exact fillFree_objectType s abi p

/-! ### Layouts -/

theorem layoutIn_of_alike (h : p.Alike q) (hfree : FillFree s id) (fuel : Nat)
    (path : List TypeId) :
    s.layoutIn q fuel path id = (s.layoutIn p fuel path id).map (Layout.on q) := by
  induction fuel generalizing path id with
  | zero => rfl
  | succ fuel ih =>
    rw [layoutIn, layoutIn]
    by_cases hin : id ∈ path
    · rw [if_pos hin, if_pos hin]
      rfl
    · rw [if_neg hin, if_neg hin]
      cases hd : s.definition id with
      | error e => rfl
      | ok d =>
        cases hms : s.members id with
        | error e => rfl
        | ok ms =>
          have hmeasure : ∀ m ∈ ms, measure s q (s.layoutIn q fuel (path ++ [id])) m =
              measure s p (s.layoutIn p fuel (path ++ [id])) m := by
            intro m hm
            rw [← measure_of_alike h (hfree id .refl ms hms m hm)]
            refine measure_congr fun part hpart => ih ?_ _
            exact hfree.of_valueType? hms hm hpart
          simp only [bind, Except.bind, mapM_congr hmeasure]
          cases ms.mapM (measure s p (s.layoutIn p fuel (path ++ [id]))) with
          | error e => rfl
          | ok measured => exact place_on s p q _ _ d measured

/-- On platforms that are alike, a type without padding fields has the same layout, or the same
failure. -/
theorem layout_of_alike (h : p.Alike q) (hfree : FillFree s id) :
    s.layout q id = (s.layout p id).map (Layout.on q) := by
  rw [layout_eq_layoutIn s q id (Nat.lt_succ_self s.size),
    layout_eq_layoutIn s p id (Nat.lt_succ_self s.size), layoutIn_of_alike h hfree]

/-- Records with cells and a name in them, and a type that holds itself. -/
def labelSchema : Schema :=
  { declared := [
      ⟨"Cell", .struct, some { fields := [("flag", .scalar .bool), ("value", .scalar .long)] }⟩,
      ⟨"Label", .struct, some
        { fields := [("id", .scalar .ushort), ("name", .string .native),
            ("cells", .array (.composite (.declared 0)) (some 2))] }⟩,
      ⟨"Knot", .struct, some
        { fields := [("size", .scalar .size), ("inner", .composite (.declared 2))] }⟩] }

theorem fillFree_label : FillFree labelSchema (.declared 1) := by
  have hcell : FillFree labelSchema (.declared 0) := by
    have hms : labelSchema.members (.declared 0) =
        .ok [("flag", .scalar .bool), ("value", .scalar .long)] := by decide +kernel
    refine fillFree_of_members hms ?_ ?_ <;> simp [Field.core]
  have hms : labelSchema.members (.declared 1) =
      .ok [("id", .scalar .ushort), ("name", .string .native),
        ("cells", .array (.composite (.declared 0)) (some 2))] := by decide +kernel
  refine fillFree_of_members hms (by simp [Field.core]) ?_
  simp only [List.forall_mem_cons]
  refine ⟨nofun, nofun, ?_, nofun⟩
  rintro part ⟨⟩
  exact hcell

theorem fillFree_knot : FillFree labelSchema (.declared 2) := by
  have hms : labelSchema.members (.declared 2) =
      .ok [("size", .scalar .size), ("inner", .composite (.declared 2))] := by decide +kernel
  have hembeds : ∀ part, Embeds labelSchema (.declared 2) part → part = .declared 2 := by
    rintro part ⟨_, hms', m, hm, hcore⟩
    cases hms.symm.trans hms'
    rcases List.mem_pair.mp hm with rfl | rfl <;> cases hcore
    rfl
  intro part hreach
  have hpart : part = .declared 2 := by
    induction hreach with
    | refl => rfl
    | tail _ hstep ih => exact hembeds _ (ih ▸ hstep)
  subst hpart
  intro ms hms'
  cases hms.symm.trans hms'
  simp [Field.core]

/-- A little-endian Linux and a big-endian Android. -/
theorem layouts_label :
    (∃ l, labelSchema.layout ⟨.b64, .linux, .little⟩ (.declared 1) = .ok l ∧
      labelSchema.layout ⟨.b64, .android, .big⟩ (.declared 1) =
        .ok { l with platform := ⟨.b64, .android, .big⟩ }) ∧
    labelSchema.layout ⟨.b64, .android, .big⟩ (.declared 2) =
      .error (labelSchema.cycle [.declared 2] (.declared 2)) := by
  have halike : Platform.Alike ⟨.b64, .linux, .little⟩ ⟨.b64, .android, .big⟩ := ⟨rfl, rfl⟩
  constructor
  · have hsome : (labelSchema.layout ⟨.b64, .linux, .little⟩ (.declared 1)).toOption.isSome := by
      decide +kernel
    obtain ⟨l, hl⟩ := Option.isSome_iff_exists.mp hsome
    refine ⟨l, toOption_eq_some_iff.mp hl, ?_⟩
    rw [layout_of_alike halike fillFree_label, toOption_eq_some_iff.mp hl]
    rfl
  · have hknot : labelSchema.layout ⟨.b64, .linux, .little⟩ (.declared 2) =
        .error (labelSchema.cycle [.declared 2] (.declared 2)) := by decide +kernel
    rw [layout_of_alike halike fillFree_knot, hknot]
    rfl

end Schema

end TypedMemory
