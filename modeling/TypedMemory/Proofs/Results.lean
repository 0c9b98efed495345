import Mathlib.Data.List.Basic

/-!
# Results

A computation that may fail is opened by `bind_eq_ok_iff`, and a list of such
computations by the lemmas on `mapM`.
-/

namespace TypedMemory

variable {ε α β : Type}

theorem bind_eq_ok_iff {x : Except ε α} {f : α → Except ε β} {b : β} :
    (x >>= f) = .ok b ↔ ∃ a, x = .ok a ∧ f a = .ok b := by
  cases x with
  | error e =>
    constructor
    · intro h
      cases h
    · rintro ⟨a, h, -⟩
      cases h
  | ok a =>
    constructor
    · exact fun h => ⟨a, rfl, h⟩
    · rintro ⟨_, ⟨⟩, h⟩
      exact h

theorem map_eq_ok_iff {x : Except ε α} {f : α → β} {b : β} :
    x.map f = .ok b ↔ ∃ a, x = .ok a ∧ f a = b := by
  cases x with
  | error e =>
    constructor
    · intro h
      cases h
    · rintro ⟨a, h, -⟩
      cases h
  | ok a => simp [Except.map]

theorem toOption_eq_some_iff {x : Except ε α} {a : α} : x.toOption = some a ↔ x = .ok a := by
  cases x <;> simp [Except.toOption]

theorem mapM_congr {m : Type → Type} [Monad m] [LawfulMonad m] {f g : α → m β} {items : List α}
    (h : ∀ a ∈ items, f a = g a) : items.mapM f = items.mapM g := by
  induction items with
  | nil => rfl
  | cons a rest ih =>
    rw [List.mapM_cons, List.mapM_cons, h a List.mem_cons_self,
      ih fun x hx => h x (List.mem_cons_of_mem a hx)]

theorem mapM_cons_eq_ok_iff {f : α → Except ε β} {a : α} {rest : List α} {results : List β} :
    (a :: rest).mapM f = .ok results ↔
      ∃ b more, f a = .ok b ∧ rest.mapM f = .ok more ∧ results = b :: more := by
  rw [List.mapM_cons, bind_eq_ok_iff]
  constructor
  · rintro ⟨b, hb, h⟩
    obtain ⟨more, hmore, ⟨⟩⟩ := bind_eq_ok_iff.mp h
    exact ⟨b, more, hb, hmore, rfl⟩
  · rintro ⟨b, more, hb, hmore, rfl⟩
    exact ⟨b, hb, bind_eq_ok_iff.mpr ⟨more, hmore, rfl⟩⟩

theorem mapM_eq_map {f : α → Except ε β} {g : α → β} {items : List α}
    (h : ∀ a ∈ items, f a = .ok (g a)) : items.mapM f = .ok (items.map g) := by
  rw [mapM_congr h]
  exact List.mapM_pure

/-- Each item has its result among those of the list. -/
theorem exists_mem_of_mapM {f : α → Except ε β} {items : List α} {results : List β}
    (h : items.mapM f = .ok results) {a : α} (ha : a ∈ items) : ∃ b ∈ results, f a = .ok b := by
  induction items generalizing results with
  | nil => cases ha
  | cons x rest ih =>
    obtain ⟨b, more, hb, hmore, rfl⟩ := mapM_cons_eq_ok_iff.mp h
    rcases List.mem_cons.mp ha with rfl | hrest
    · exact ⟨b, List.mem_cons_self, hb⟩
    · obtain ⟨b', hb', hf⟩ := ih hmore hrest
      exact ⟨b', List.mem_cons_of_mem b hb', hf⟩

/-- All results are there if the list of them is. -/
theorem exists_ok_of_mapM {f : α → Except ε β} {items : List α} {results : List β}
    (h : items.mapM f = .ok results) {a : α} (ha : a ∈ items) : ∃ b, f a = .ok b := by
  obtain ⟨b, -, hb⟩ := exists_mem_of_mapM h ha
  exact ⟨b, hb⟩

/-- Each result is that of an item. -/
theorem exists_of_mem_mapM {f : α → Except ε β} {items : List α} {results : List β}
    (h : items.mapM f = .ok results) {b : β} (hb : b ∈ results) : ∃ a ∈ items, f a = .ok b := by
  induction items generalizing results with
  | nil =>
    cases h
    cases hb
  | cons a rest ih =>
    obtain ⟨first, more, hfirst, hmore, rfl⟩ := mapM_cons_eq_ok_iff.mp h
    rcases List.mem_cons.mp hb with rfl | hrest
    · exact ⟨a, List.mem_cons_self, hfirst⟩
    · obtain ⟨a', ha', hf⟩ := ih hmore hrest
      exact ⟨a', List.mem_cons_of_mem a ha', hf⟩

/-- The first results are those of the first items, and the others those of the others. -/
theorem mapM_take_drop {f : α → Except ε β} {items : List α} {results : List β}
    (h : items.mapM f = .ok results) (n : Nat) :
    (items.take n).mapM f = .ok (results.take n) ∧
      (items.drop n).mapM f = .ok (results.drop n) := by
  induction items generalizing results n with
  | nil =>
    cases h
    cases n <;> exact ⟨rfl, rfl⟩
  | cons a rest ih =>
    obtain ⟨b, more, hb, hmore, rfl⟩ := mapM_cons_eq_ok_iff.mp h
    cases n with
    | zero => exact ⟨rfl, h⟩
    | succ n =>
      obtain ⟨htake, hdrop⟩ := ih hmore n
      exact ⟨mapM_cons_eq_ok_iff.mpr ⟨b, _, hb, htake, rfl⟩, hdrop⟩

theorem mapM_mono {f g : α → Except ε β} {items : List α} {results : List β}
    (hfg : ∀ a ∈ items, ∀ b, f a = .ok b → g a = .ok b) (h : items.mapM f = .ok results) :
    items.mapM g = .ok results := by
  rw [← h]
  refine (mapM_congr fun a ha => ?_).symm
  obtain ⟨b, hb⟩ := exists_ok_of_mapM h ha
  rw [hb, hfg a ha b hb]

end TypedMemory
