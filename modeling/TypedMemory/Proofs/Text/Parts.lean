import Mathlib.Data.List.Infix
import Mathlib.Data.List.TakeWhile
import TypedMemory.Text.Blank
import TypedMemory.Text.Split

/-!
# Parts of texts

* `trims_iff`: trimming leaves what is between the blanks at both ends.
* `dropPrefix?_eq_some_iff`, `dropSuffix?_eq_some_iff`: a text is taken apart where it ends
  with the given part.
* `append_of_splitLast?`, `splitLast?_append`: a text is cut at a place of the separator behind
  which there is no other.
-/

namespace TypedMemory.Text

variable {text core lead trail : List Char}

/-! ### Blanks around a text -/

/-- The text is `core` with blanks around it, and none of them is left in `core`. -/
structure Trims (text core : List Char) : Prop where
  surrounded : ∃ lead trail, text = lead ++ core ++ trail ∧ (∀ c ∈ lead, isBlank c = true) ∧
    ∀ c ∈ trail, isBlank c = true
  head : ∀ c ∈ core.head?, isBlank c = false
  last : ∀ c ∈ core.getLast?, isBlank c = false

theorem dropWhile_isBlank_of_head (h : ∀ c ∈ core.head?, isBlank c = false) :
    core.dropWhile isBlank = core := by
  cases core with
  | nil => rfl
  | cons c rest => exact List.dropWhile_cons_of_neg (by simp [h c rfl])

theorem trimRight_append (htrail : ∀ c ∈ trail, isBlank c = true) :
    trimRight (core ++ trail) = trimRight core := by
  have hreverse : ∀ c ∈ trail.reverse, isBlank c = true :=
    fun c hc => htrail c (List.mem_reverse.mp hc)
  rw [trimRight, List.reverse_append, List.dropWhile_append_of_pos hreverse, trimRight]

theorem trimRight_eq_self (hlast : ∀ c ∈ core.getLast?, isBlank c = false) :
    trimRight core = core := by
  rw [← List.head?_reverse] at hlast
  rw [trimRight, dropWhile_isBlank_of_head hlast, List.reverse_reverse]

theorem Trims.trim_eq (h : Trims text core) : trim text = core := by
  obtain ⟨⟨lead, trail, rfl, hlead, htrail⟩, hhead, hlast⟩ := h
  rw [trim, List.append_assoc, List.dropWhile_append_of_pos hlead]
  by_cases hcore : core = []
  · rw [hcore, List.nil_append, List.dropWhile_eq_nil_iff.mpr htrail]
    rfl
  · have hstart : ∀ c ∈ (core ++ trail).head?, isBlank c = false := by
      rwa [List.head?_append_of_ne_nil core hcore]
    rw [dropWhile_isBlank_of_head hstart, trimRight_append htrail, trimRight_eq_self hlast]

/-- What `trimRight` takes away are blanks. -/
theorem exists_trimRight (text : List Char) :
    ∃ trail, text = trimRight text ++ trail ∧ ∀ c ∈ trail, isBlank c = true := by
  refine ⟨(text.reverse.takeWhile isBlank).reverse, ?_, fun c hc => ?_⟩
  · rw [trimRight, ← List.reverse_append, List.takeWhile_append_dropWhile, List.reverse_reverse]
  · exact List.mem_takeWhile_imp (List.mem_reverse.mp hc)

/-- A text without blanks is left as it is. -/
theorem trims_self (h : ∀ c ∈ text, isBlank c = false) : Trims text text :=
  ⟨⟨[], [], by simp, nofun, nofun⟩, fun c hc => h c (List.mem_of_mem_head? hc),
    fun c hc => h c (List.mem_of_getLast? hc)⟩

theorem isBlank_head_dropWhile (text : List Char) :
    ∀ c ∈ (text.dropWhile isBlank).head?, isBlank c = false := by
  intro c hc
  have hnot := List.head?_dropWhile_not isBlank text
  rwa [Option.mem_def.mp hc] at hnot

theorem trims_trim (text : List Char) : Trims text (trim text) := by
  obtain ⟨trail, htrail, hblank⟩ := exists_trimRight (text.dropWhile isBlank)
  refine ⟨⟨text.takeWhile isBlank, trail, ?_, ?_, hblank⟩, ?_, ?_⟩
  · rw [trim, List.append_assoc, ← htrail, List.takeWhile_append_dropWhile]
  · exact fun c hc => List.mem_takeWhile_imp hc
  · intro c hc
    refine isBlank_head_dropWhile text c ?_
    rw [htrail, List.head?_append]
    exact Option.or_eq_some_iff.mpr (Or.inl hc)
  · intro c hc
    rw [trim, trimRight, List.getLast?_reverse] at hc
    exact isBlank_head_dropWhile _ c hc

/-- Trimming gives the text without the blanks around it. -/
theorem trims_iff : Trims text core ↔ trim text = core :=
  ⟨Trims.trim_eq, fun h => h ▸ trims_trim text⟩

/-! ### Parts at the ends -/

theorem dropPrefix?_eq_some_iff {rest : List Char} :
    dropPrefix? lead text = some rest ↔ text = lead ++ rest := by
  induction lead generalizing text with
  | nil => rw [dropPrefix?, Option.some.injEq, List.nil_append]
  | cons c lead ih =>
    cases text with
    | nil => exact iff_of_false nofun nofun
    | cons d text =>
      rw [dropPrefix?, List.cons_append, List.cons.injEq]
      split
      next hcd => rw [ih, hcd, eq_self_iff_true, true_and]
      next hcd => exact iff_of_false nofun fun h => hcd h.1.symm

theorem dropSuffix?_eq_some_iff {rest : List Char} :
    dropSuffix? trail text = some rest ↔ text = rest ++ trail := by
  rw [dropSuffix?, Option.map_eq_some_iff]
  constructor
  · rintro ⟨front, hfront, rfl⟩
    have htext := congrArg List.reverse (dropPrefix?_eq_some_iff.mp hfront)
    rwa [List.reverse_append, List.reverse_reverse, List.reverse_reverse] at htext
  · rintro rfl
    refine ⟨rest.reverse, dropPrefix?_eq_some_iff.mpr ?_, List.reverse_reverse rest⟩
    rw [List.reverse_append]

theorem dropSuffix?_eq_none_of_ne (h : ∀ rest, text ≠ rest ++ trail) :
    dropSuffix? trail text = none := by
  cases hsuffix : dropSuffix? trail text with
  | none => rfl
  | some rest => exact absurd (dropSuffix?_eq_some_iff.mp hsuffix) (h rest)

/-! ### The last separator -/

variable {separator before after : List Char}

theorem append_of_splitLast? (h : splitLast? separator text = some (before, after)) :
    text = before ++ separator ++ after := by
  induction text generalizing before with
  | nil => cases h
  | cons c rest ih =>
    rw [splitLast?] at h
    split at h
    next front after' hfront =>
      cases h
      rw [List.cons_append, List.cons_append, ← ih hfront]
    next =>
      obtain ⟨after', hafter, ⟨⟩⟩ := Option.map_eq_some_iff.mp h
      exact dropPrefix?_eq_some_iff.mp hafter

theorem splitLast?_eq_none (h : ¬ separator <:+: text) : splitLast? separator text = none := by
  cases hsplit : splitLast? separator text with
  | none => rfl
  | some parts => exact absurd ⟨_, _, (append_of_splitLast? hsplit).symm⟩ h

/-- A separator is the last one if none starts behind the first character of it. -/
theorem splitLast?_append {c : Char} {rest : List Char}
    (h : ¬ c :: rest <:+: rest ++ after) :
    splitLast? (c :: rest) (before ++ c :: rest ++ after) = some (before, after) := by
  induction before with
  | nil =>
    have hprefix : dropPrefix? (c :: rest) (c :: (rest ++ after)) = some after :=
      dropPrefix?_eq_some_iff.mpr rfl
    rw [List.nil_append, List.cons_append, splitLast?, splitLast?_eq_none h, hprefix]
    rfl
  | cons d before ih => rw [List.cons_append, List.cons_append, splitLast?, ih]

end TypedMemory.Text
