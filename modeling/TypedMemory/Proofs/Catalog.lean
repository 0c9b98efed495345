import TypedMemory.Catalog
import TypedMemory.Proofs.Layout.Growth

/-!
# What a catalog remembers makes no difference

A catalog is asked to declare types, to define them and to lay them out, in any
order, and a request may fail (`Catalog.Request`, `Catalog.after`).  The table of
known layouts stays sound in every such history (`sound_after`), so each answer is
the one of the schema alone, and the schema is the one that the declarations and
definitions make (`schema_after`).
-/

namespace TypedMemory

namespace Catalog

/-- What a catalog is asked for. -/
inductive Request
  | declare (name : String) (kind : TypeKind)
  | define (id : TypeId) (d : Definition)
  | layout (p : Platform) (id : TypeId)
  deriving DecidableEq, Repr

/-- The catalog after a request.  A definition that fails changes nothing. -/
def serve (c : Catalog) : Request → Catalog
  | .declare name kind => (c.declare name kind).2
  | .define id d => (c.define id d).toOption.getD c
  | .layout p id => (c.layout p id).2

/-- The catalog after all requests of a history. -/
def after (c : Catalog) (history : List Request) : Catalog :=
  history.foldl serve c

/-- The known layouts are those of their types. -/
def Sound (c : Catalog) : Prop := c.schema.TableSound c.known

end Catalog

/-- The schema after a request, for which nothing is laid out. -/
def Schema.serve (s : Schema) : Catalog.Request → Schema
  | .declare name kind => (s.declare name kind).2
  | .define id d => (s.define id d).toOption.getD s
  | .layout .. => s

/-- The schema that the declarations and definitions of a history make. -/
def Schema.after (s : Schema) (history : List Catalog.Request) : Schema :=
  history.foldl serve s

theorem Schema.extends_serve (s : Schema) (request : Catalog.Request) :
    s.Extends (s.serve request) := by
  cases request with
  | declare name kind => exact extends_declare s name kind
  | define id d =>
    rw [serve]
    cases h : s.define id d with
    | error e => exact Extends.refl s
    | ok s' => exact extends_define h
  | layout p id => exact Extends.refl s

theorem Schema.extends_after (s : Schema) (history : List Catalog.Request) :
    s.Extends (s.after history) := by
  induction history generalizing s with
  | nil => exact Extends.refl s
  | cons request rest ih => exact (extends_serve s request).trans (ih _)

namespace Catalog

variable {c : Catalog}

/-! ### One request -/

/-- A sound catalog answers like its schema, and stays sound. -/
theorem layout_of_sound (h : c.Sound) (p : Platform) (id : TypeId) :
    (c.layout p id).1 = c.schema.layout p id ∧ (c.layout p id).2.schema = c.schema ∧
      (c.layout p id).2.Sound := by
  obtain ⟨known, hknown, heval⟩ := Schema.eval_knownLayoutIn (Schema.PathTo.nil id)
    (Nat.lt_succ_self c.schema.size) h (p := p)
  have hrun : (c.schema.knownLayout p id).run c.known =
      (c.schema.layoutIn p (c.schema.size + 1) [] id, known) := heval
  rw [Schema.layout_eq_layoutIn c.schema p id (Nat.lt_succ_self _)]
  unfold layout
  rw [hrun]
  exact ⟨rfl, rfl, hknown⟩

theorem schema_serve (h : c.Sound) (request : Request) :
    (c.serve request).schema = c.schema.serve request := by
  cases request with
  | declare name kind => rfl
  | define id d =>
    rw [serve, Schema.serve, define]
    cases c.schema.define id d <;> rfl
  | layout p id => exact (layout_of_sound h p id).2.1

theorem sound_serve (h : c.Sound) (request : Request) : (c.serve request).Sound := by
  cases request with
  | declare name kind => exact h.mono (Schema.extends_declare c.schema name kind)
  | define id d =>
    rw [serve, define]
    cases hdefine : c.schema.define id d with
    | error e => exact h
    | ok s' => exact h.mono (Schema.extends_define hdefine)
  | layout p id => exact (layout_of_sound h p id).2.2

/-! ### Histories -/

theorem sound_empty : empty.Sound := Schema.tableSound_nil _

theorem sound_after (h : c.Sound) (history : List Request) : (c.after history).Sound := by
  induction history generalizing c with
  | nil => exact h
  | cons request rest ih => exact ih (sound_serve h request)

theorem schema_after (h : c.Sound) (history : List Request) :
    (c.after history).schema = c.schema.after history := by
  induction history generalizing c with
  | nil => rfl
  | cons request rest ih =>
    have hrest := ih (sound_serve h request)
    rwa [schema_serve h request] at hrest

/-- A layout that was given is given again after any further requests. -/
theorem layout_after_layout (h : c.Sound) {p : Platform} {id : TypeId} {l : Layout}
    (hl : (c.layout p id).1 = .ok l) (later : List Request) :
    (((c.layout p id).2.after later).layout p id).1 = .ok l := by
  obtain ⟨hfirst, hschema, hsound⟩ := layout_of_sound h p id
  rw [(layout_of_sound (sound_after hsound later) p id).1, schema_after hsound, hschema]
  exact Schema.layout_mono (hfirst.symm.trans hl) (Schema.extends_after c.schema later)

/-- A defined type can not be defined again after any further requests. -/
theorem define_after_of_isDefined (h : c.Sound) {id : TypeId} (hd : c.schema.isDefined id = true)
    (later : List Request) (d : Definition) :
    (c.after later).define id d =
      .error (.layout (.redefined ((c.after later).schema.describe id))) := by
  have hlater : (c.after later).schema.isDefined id = true := by
    rw [schema_after h]
    exact (Schema.extends_after _ later).isDefined hd
  rw [define, Schema.define_of_isDefined hlater]
  rfl

theorem isDefined_serve_define {id : TypeId} {d : Definition}
    (hd : (c.define id d).isOk ∨ c.schema.isDefined id = true) :
    (c.serve (.define id d)).schema.isDefined id = true := by
  rw [serve]
  cases hdefine : c.schema.define id d with
  | error e =>
    rw [define, hdefine] at hd ⊢
    rcases hd with hd | hd
    · cases hd
    · exact hd
  | ok s' =>
    rw [define, hdefine]
    exact Schema.isDefined_iff.mpr ⟨d, Schema.definition_of_define hdefine⟩

/-- In every history, each layout is the one that is worked out from the definitions
alone.  Once it is given it stays, and a type is defined once. -/
theorem answers_after_history (history : List Request) :
    (empty.after history).schema = Schema.empty.after history ∧
    (∀ p id fuel, (Schema.empty.after history).size < fuel →
      ((empty.after history).layout p id).1 =
        (Schema.empty.after history).layoutIn p fuel [] id) ∧
    (∀ p id l later, ((empty.after history).layout p id).1 = .ok l →
      ((((empty.after history).layout p id).2.after later).layout p id).1 = .ok l) ∧
    (∀ id d later d',
      ((empty.after history).define id d).isOk ∨ (empty.after history).schema.isDefined id = true →
      let c := ((empty.after history).serve (.define id d)).after later
      c.define id d' = .error (.layout (.redefined (c.schema.describe id))) ∧
        c.serve (.define id d') = c) := by
  have hsound := sound_after sound_empty history
  have hschema := schema_after sound_empty history
  refine ⟨hschema, ?_, ?_, ?_⟩
  · intro p id fuel hfuel
    rw [(layout_of_sound hsound p id).1, hschema]
    exact Schema.layout_eq_layoutIn _ p id hfuel
  · intro p id l later hl
    exact layout_after_layout hsound hl later
  · intro id d later d' hd
    have hagain := define_after_of_isDefined (sound_serve hsound (.define id d))
      (isDefined_serve_define hd) later d'
    refine ⟨hagain, ?_⟩
    rw [serve, hagain]
    rfl

/-- A type is laid out before and after the definition of its part. -/
def forwardHistory : List Request :=
  [.declare "Pair" .struct, .declare "Half" .struct,
    .define (.declared 0) { fields := [("low", .composite (.declared 1)),
      ("high", .composite (.declared 1))] },
    .layout .host (.declared 0),
    .define (.declared 1) { fields := [("value", .scalar .int)] }]

theorem answers_after_forwardHistory :
    ((empty.after forwardHistory).layout .host (.declared 0)).1 =
      (Schema.empty.after forwardHistory).layoutIn .host 16 [] (.declared 0) ∧
    ((((empty.after forwardHistory).layout .host (.declared 0)).2.after
      [.declare "Other" .union]).layout .host (.declared 0)).1.map (·.size) = .ok 8 ∧
    (((empty.after forwardHistory).serve (.define (.declared 1) {})).after
      [.declare "Other" .union]).define (.declared 1) {} =
        .error (.layout (.redefined "struct Half")) := by
  obtain ⟨-, hfresh, hstays, honce⟩ := answers_after_history forwardHistory
  have hsize :
      ((empty.after forwardHistory).layout .host (.declared 0)).1.map (·.size) = .ok 8 := by
    decide +kernel
  have hdefined : (empty.after forwardHistory).schema.isDefined (.declared 1) = true := by
    decide +kernel
  refine ⟨hfresh _ _ _ (by decide +kernel), ?_, ?_⟩
  · obtain ⟨l, hl, hsize⟩ := map_eq_ok_iff.mp hsize
    rw [hstays _ _ _ _ hl, ← hsize]
    rfl
  · rw [(honce (.declared 1) {} [.declare "Other" .union] {} (Or.inr hdefined)).1]
    decide +kernel

end Catalog

end TypedMemory
