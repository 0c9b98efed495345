import Mathlib.Data.Set.Finite.Basic
import TypedMemory.Proofs.Schema.Bases
import TypedMemory.Proofs.StringObject.Layouts

/-!
# Types within types

`Schema.Embeds s id part`: a member of the type `id` is of the type `part`, or an
array of it.  What a pointer leads to is no part.  `Schema.Broken` says what is
wrong with a type by itself.  A type with a layout embeds no broken type, however
deep (`LaysOut.not_broken`), and where no type is broken the embedding comes to an
end (`acc_of_not_broken`).
-/

namespace TypedMemory

namespace Field

/-- The field without the arrays around it. -/
def core : Field → Field
  | array element _ => core element
  | field => field

/-- The field, and where it is an array also its element, layer by layer. -/
def layers : Field → List Field
  | array element length => array element length :: layers element
  | field => [field]

theorem self_mem_layers (field : Field) : field ∈ field.layers := by
  cases field <;> exact List.mem_cons_self

/-- The type that a field holds is that of its core. -/
theorem valueType?_core (p : Platform) (field : Field) :
    field.core.valueType? p = field.valueType? p := by
  induction field with
  | array element length ih => exact ih
  | void | scalar | pointer | composite | string | fill => rfl

end Field

namespace Schema

open Relation

variable {s : Schema} {p : Platform} {id part : TypeId}

/-- A member of `id`, without the arrays around it, is of the type `part`. -/
def Embeds (s : Schema) (id part : TypeId) : Prop :=
  ∃ ms, s.members id = .ok ms ∧ ∃ m ∈ ms, m.2.core = .composite part

/-- A type that is not defined, that embeds itself, or with a base that is not defined
or comes back to itself. -/
inductive Broken (s : Schema) (id : TypeId) : Prop
  | undefined (h : s.isDefined id = false)
  | cyclic (h : TransGen (Embeds s) id id)
  | badBase (base : TypeId) (h : BadBase s id base)

theorem Embeds.hasPart (p : Platform) (h : Embeds s id part) : HasPart s p id part := by
  obtain ⟨ms, hms, m, hm, hcore⟩ := h
  exact ⟨ms, hms, m, hm, by rw [← Field.valueType?_core, hcore]; rfl⟩

/-! ### Parts of a type with a layout -/

theorem LaysOut.of_hasPart {l : Layout} (h : LaysOut s p id l) (hpart : HasPart s p id part) :
    ∃ l', LaysOut s p part l' := by
  obtain ⟨ms, hms, m, hm, hvalue⟩ := hpart
  cases h with
  | intro known hd hms' hparts hmeasured hplace =>
    cases hms.symm.trans hms'
    exact ⟨known part, hparts m hm part hvalue⟩

theorem LaysOut.of_embeds {l : Layout} (h : LaysOut s p id l)
    (hreach : ReflTransGen (Embeds s) id part) : ∃ l', LaysOut s p part l' := by
  induction hreach with
  | refl => exact ⟨l, h⟩
  | tail _ hstep ih =>
    obtain ⟨l', hl'⟩ := ih
    exact hl'.of_hasPart (hstep.hasPart p)

theorem LaysOut.not_broken {l : Layout} (h : LaysOut s p id l) : ¬ Broken s id := by
  intro hbroken
  cases hbroken with
  | undefined hundefined =>
    cases h with
    | intro known hd =>
      rw [isDefined_of_definition hd] at hundefined
      cases hundefined
  | cyclic hloop =>
    exact h.not_transGen_self (TransGen.mono (fun _ _ hstep => hstep.hasPart p) id id hloop)
  | badBase base hbad =>
    cases h with
    | intro known hd hms => exact exists_members_iff.mp ⟨_, hms⟩ base hbad

/-! ### The end of the embedding -/

theorem isDefined_of_not_broken (h : ¬ Broken s id) : s.isDefined id = true := by
  by_contra hundefined
  exact h (.undefined (Bool.eq_false_iff.mpr hundefined))

theorem exists_members_of_not_broken (h : ¬ Broken s id) : ∃ ms, s.members id = .ok ms :=
  exists_members_iff.mpr fun base hbad => h (.badBase base hbad)

/-- There are finitely many types, so parts of parts come to an end where none of them
is broken. -/
theorem acc_of_not_broken (h : ∀ u, ReflTransGen (Embeds s) id u → ¬ Broken s u) :
    Acc (fun part whole => Embeds s whole part) id := by
  let Reached := {u // ReflTransGen (Embeds s) id u}
  have hfinite : Finite Reached := by
    refine Set.Finite.subset s.allIds.toFinset.finite_toSet fun u hu => ?_
    obtain ⟨d, hd⟩ := isDefined_iff.mp (isDefined_of_not_broken (h u hu))
    exact List.mem_toFinset.mpr (mem_allIds_of_definition hd)
  let Within : Reached → Reached → Prop := fun part whole => TransGen (Embeds s) whole.1 part.1
  have htrans : IsTrans Reached Within := ⟨fun _ _ _ hab hbc => hbc.trans hab⟩
  have hirrefl : Std.Irrefl Within := ⟨fun u hu => h u.1 u.2 (.cyclic hu)⟩
  have hwf : WellFounded Within := Finite.wellFounded_of_trans_of_irrefl Within
  suffices ∀ u : Reached, Acc (fun part whole => Embeds s whole part) u.1 from
    this ⟨id, .refl⟩
  intro u
  induction hwf.apply u with
  | intro u _ ih => exact Acc.intro u.1 fun part hpart => ih ⟨part, u.2.tail hpart⟩ (.single hpart)

end Schema

end TypedMemory
