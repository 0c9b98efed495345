import Mathlib.Data.List.Forall2
import Mathlib.Data.Nat.Digits.Defs
import Mathlib.Tactic.IntervalCases
import Mathlib.Tactic.Ring
import TypedMemory.Numeral

/-!
# Numerals and the numbers they denote

A text of digits denotes the number with these digits in positional notation
(`Numeral.Denotes`), and a plus sign may stand in front of it (`Numeral.Reads`).

* `parse_eq_ok_iff`: what is read is a numeral, and its number is below the limit.
* `denotes_digits`, `denotes_hexUpper`: what is written denotes the number.
-/

namespace TypedMemory.Numeral

/-- The digits up to base sixteen, each at the position of its value. -/
def lowerDigits : List Char :=
  ['0', '1', '2', '3', '4', '5', '6', '7', '8', '9', 'a', 'b', 'c', 'd', 'e', 'f']

def upperDigits : List Char :=
  ['0', '1', '2', '3', '4', '5', '6', '7', '8', '9', 'A', 'B', 'C', 'D', 'E', 'F']

/-- The character is a digit of the base, and stands for `d`. -/
def IsDigit (base : Nat) (c : Char) (d : Nat) : Prop :=
  d < base ∧ (lowerDigits[d]? = some c ∨ upperDigits[d]? = some c)

/-- The digits denote a number, the most significant digit first. -/
def Denotes (base : Nat) (text : List Char) (n : Nat) : Prop :=
  text ≠ [] ∧ ∃ ds, List.Forall₂ (IsDigit base) text ds ∧ Nat.ofDigits base ds.reverse = n

/-- The text is a numeral for the number, perhaps behind a plus sign. -/
def Reads (base : Nat) (text : List Char) (n : Nat) : Prop :=
  ∃ digits, (text = digits ∨ text = '+' :: digits) ∧ Denotes base digits n

variable {base limit acc n d : Nat} {c : Char} {text : List Char}

/-! ### Digits -/

/-- Characters with consecutive codes, which stand one behind the other in a table. -/
theorem getElem?_of_range {table : List Char} {first last : Char} (skip : Nat)
    (htable : ∀ i ≤ last.toNat - first.toNat,
      table[i + skip]?.map Char.toNat = some (first.toNat + i))
    (h : first ≤ c ∧ c ≤ last) : table[c.toNat - first.toNat + skip]? = some c := by
  have hfirst : first.toNat ≤ c.toNat := h.1
  have hlast : c.toNat ≤ last.toNat := h.2
  obtain ⟨x, hx, hcode⟩ := Option.map_eq_some_iff.mp (htable (c.toNat - first.toNat) (by omega))
  have hxc : x = c := Char.toNat_inj.mp (by omega)
  rwa [hxc] at hx

theorem digit?_sixteen_eq_some_iff :
    digit? 16 c = some d ↔ lowerDigits[d]? = some c ∨ upperDigits[d]? = some c := by
  constructor
  · intro h
    unfold digit? at h
    simp only [Option.filter_eq_some_iff] at h
    obtain ⟨h, -⟩ := h
    split_ifs at h with hdecimal hlower hupper <;> cases h
    · exact Or.inl (getElem?_of_range 0 (by decide) hdecimal)
    · exact Or.inl (getElem?_of_range 10 (by decide) hlower)
    · exact Or.inr (getElem?_of_range 10 (by decide) hupper)
  · intro h
    have hd : d < 16 := by
      rcases h with h | h <;> exact (List.getElem?_eq_some_iff.mp h).1
    interval_cases d <;> rcases h with h | h <;> cases h <;> decide

theorem digit?_eq_some_iff (hbase : base ≤ 16) : digit? base c = some d ↔ IsDigit base c d := by
  rw [IsDigit, ← digit?_sixteen_eq_some_iff]
  unfold digit?
  simp only [Option.filter_eq_some_iff, decide_eq_true_eq]
  constructor
  · rintro ⟨hvalue, hd⟩
    exact ⟨hd, hvalue, hd.trans_le hbase⟩
  · rintro ⟨hd, hvalue, -⟩
    exact ⟨hvalue, hd⟩

/-- What holds of the digits in the tables holds of every digit. -/
theorem IsDigit.of_forall {P : Char → Prop} (h : IsDigit base c d)
    (hP : (lowerDigits.take base ++ upperDigits.take base).Forall P) : P c := by
  obtain ⟨hd, hc⟩ := h
  have hall := List.forall_iff_forall_mem.mp hP
  have hmem : ∀ table : List Char, table[d]? = some c → c ∈ table.take base :=
    fun table hc => List.mem_of_getElem? ((List.getElem?_take_of_lt hd).trans hc)
  rcases hc with hlower | hupper
  · exact hall c (List.mem_append_left _ (hmem _ hlower))
  · exact hall c (List.mem_append_right _ (hmem _ hupper))

theorem isDigit_digitChar (hbase : base ≤ 16) (hd : d < base) :
    IsDigit base (Nat.digitChar d) d := by
  have hall : ∀ d < 16, lowerDigits[d]? = some (Nat.digitChar d) := by decide
  exact ⟨hd, Or.inl (hall d (hd.trans_le hbase))⟩

theorem isDigit_toUpper_digitChar (hbase : base ≤ 16) (hd : d < base) :
    IsDigit base (Nat.digitChar d).toUpper d := by
  have hall : ∀ d < 16, upperDigits[d]? = some (Nat.digitChar d).toUpper := by decide
  exact ⟨hd, Or.inr (hall d (hd.trans_le hbase))⟩

/-! ### Reading -/

/-- Digits are read onto a number as they are read onto zero, with the number in front. -/
theorem parseDigits_eq_ok_iff (hbase : base ≤ 16) (hpos : 0 < base) (hacc : acc < limit) :
    parseDigits base limit acc text = .ok n ↔
      n < limit ∧ ∃ ds, List.Forall₂ (IsDigit base) text ds ∧
        acc * base ^ ds.length + Nat.ofDigits base ds.reverse = n := by
  induction text generalizing acc with
  | nil =>
    simp only [parseDigits, Except.ok.injEq, List.forall₂_nil_left_iff, exists_eq_left]
    constructor
    · rintro rfl
      exact ⟨hacc, by simp⟩
    · rintro ⟨-, h⟩
      simpa using h
  | cons c rest ih =>
    have hshift : ∀ d (ds : List Nat), acc * base ^ (d :: ds).length +
        Nat.ofDigits base (d :: ds).reverse =
          (acc * base + d) * base ^ ds.length + Nat.ofDigits base ds.reverse := by
      intro d ds
      rw [Nat.ofDigits_reverse_cons, List.length_cons]
      ring
    rw [parseDigits]
    cases hdigit : digit? base c with
    | none =>
      refine iff_of_false nofun ?_
      rintro ⟨-, _, ⟨⟩ | ⟨hc, -⟩, -⟩
      cases hdigit.symm.trans ((digit?_eq_some_iff hbase).mpr hc)
    | some d =>
      have hc := (digit?_eq_some_iff hbase).mp hdigit
      by_cases hnext : acc * base + d < limit
      · simp only [if_pos hnext]
        rw [ih hnext]
        refine and_congr_right fun _ => ⟨?_, ?_⟩
        · rintro ⟨ds, hds, hn⟩
          exact ⟨d :: ds, .cons hc hds, (hshift d ds).trans hn⟩
        · rintro ⟨_, ⟨⟩ | ⟨hc', hds⟩, hn⟩
          cases hdigit.symm.trans ((digit?_eq_some_iff hbase).mpr hc')
          exact ⟨_, hds, (hshift d _).symm.trans hn⟩
      · simp only [if_neg hnext]
        refine iff_of_false nofun ?_
        rintro ⟨hn, _, ⟨⟩ | @⟨_, d', _, ds, hc', hds⟩, hvalue⟩
        cases hdigit.symm.trans ((digit?_eq_some_iff hbase).mpr hc')
        -- the number does not become smaller by further digits
        have hle := Nat.le_mul_of_pos_right (acc * base + d) (Nat.pow_pos (n := ds.length) hpos)
        rw [hshift] at hvalue
        omega

theorem not_isDigit_plus : ¬ IsDigit base '+' d := by
  rintro ⟨-, hlower | hupper⟩
  · exact absurd (List.mem_of_getElem? hlower) (by decide)
  · exact absurd (List.mem_of_getElem? hupper) (by decide)

theorem parseDigits_zero_eq_ok_iff (hbase : base ≤ 16) (hpos : 0 < base) (hlimit : 0 < limit)
    (hne : text ≠ []) :
    parseDigits base limit 0 text = .ok n ↔ n < limit ∧ Denotes base text n := by
  rw [parseDigits_eq_ok_iff hbase hpos hlimit, Denotes]
  simp [hne]

theorem parse_plus (hne : text ≠ []) :
    parse base limit ('+' :: text) = parseDigits base limit 0 text := by
  cases text with
  | nil => exact absurd rfl hne
  | cons c rest => rfl

theorem parse_of_head_ne (hne : text ≠ []) (hplus : ∀ rest, text ≠ '+' :: rest) :
    parse base limit text = parseDigits base limit 0 text := by
  unfold parse
  split
  · exact absurd rfl hne
  · exact absurd rfl (hplus [])
  · exact absurd rfl (hplus _)
  · rfl

theorem not_denotes_plus {rest : List Char} : ¬ Denotes base ('+' :: rest) n := by
  rintro ⟨-, _, ⟨⟩ | ⟨hplus, -⟩, -⟩
  exact not_isDigit_plus hplus

/-- Exactly the numerals below the limit are read, as the numbers that they denote. -/
theorem parse_eq_ok_iff (hbase : base ≤ 16) (hpos : 0 < base) (hlimit : 0 < limit) :
    parse base limit text = .ok n ↔ n < limit ∧ Reads base text n := by
  by_cases hplus : ∃ digits, text = '+' :: digits
  · obtain ⟨digits, rfl⟩ := hplus
    have hreads : Reads base ('+' :: digits) n ↔ Denotes base digits n := by
      constructor
      · rintro ⟨_, rfl | ⟨⟨⟩⟩, hn⟩
        · exact absurd hn not_denotes_plus
        · exact hn
      · exact fun hn => ⟨digits, Or.inr rfl, hn⟩
    rw [hreads]
    by_cases hne : digits = []
    · subst hne
      exact iff_of_false nofun fun h => h.2.1 rfl
    · rw [parse_plus hne, parseDigits_zero_eq_ok_iff hbase hpos hlimit hne]
  · have hreads : Reads base text n ↔ Denotes base text n := by
      constructor
      · rintro ⟨digits, rfl | rfl, hn⟩
        · exact hn
        · exact absurd ⟨digits, rfl⟩ hplus
      · exact fun hn => ⟨text, Or.inl rfl, hn⟩
    rw [hreads]
    by_cases hne : text = []
    · subst hne
      exact iff_of_false nofun fun h => h.2.1 rfl
    · rw [parse_of_head_ne hne (not_exists.mp hplus),
        parseDigits_zero_eq_ok_iff hbase hpos hlimit hne]

/-- What holds of the digits in the tables holds of all characters. -/
theorem Denotes.forall_mem {P : Char → Prop} (h : Denotes base text n)
    (hP : (lowerDigits.take base ++ upperDigits.take base).Forall P) : ∀ c ∈ text, P c := by
  obtain ⟨-, ds, hds, -⟩ := h
  induction hds with
  | nil => nofun
  | cons hc _ ih => exact List.forall_mem_cons.mpr ⟨hc.of_forall hP, ih⟩

theorem Reads.forall_mem {P : Char → Prop} (h : Reads base text n) (hplus : P '+')
    (hP : (lowerDigits.take base ++ upperDigits.take base).Forall P) : ∀ c ∈ text, P c := by
  obtain ⟨digits, rfl | rfl, hn⟩ := h
  · exact hn.forall_mem hP
  · exact List.forall_mem_cons.mpr ⟨hplus, hn.forall_mem hP⟩

theorem Reads.ne_nil (h : Reads base text n) : text ≠ [] := by
  obtain ⟨digits, rfl | rfl, hne, -⟩ := h
  · exact hne
  · exact List.cons_ne_nil _ _

/-! ### Writing -/

theorem Denotes.reads (h : Denotes base text n) : Reads base text n :=
  ⟨text, Or.inl rfl, h⟩

theorem denotes_singleton (h : IsDigit base c d) : Denotes base [c] d :=
  ⟨List.cons_ne_nil _ _, [d], .cons h .nil, by simp⟩

/-- One more digit at the end. -/
theorem Denotes.snoc (h : Denotes base text n) (hc : IsDigit base c d) :
    Denotes base (text ++ [c]) (d + base * n) := by
  obtain ⟨-, ds, hds, rfl⟩ := h
  refine ⟨by simp, ds ++ [d], List.rel_append hds (.cons hc .nil), ?_⟩
  rw [List.reverse_append, List.reverse_singleton, List.singleton_append, Nat.ofDigits_cons]

/-- Zeros in front do not change the number. -/
theorem Denotes.zeros (hpos : 0 < base) (h : Denotes base text n) (count : Nat) :
    Denotes base (List.replicate count '0' ++ text) n := by
  obtain ⟨hne, ds, hds, rfl⟩ := h
  have hzero : IsDigit base '0' 0 := ⟨hpos, Or.inl rfl⟩
  have hzeros : List.Forall₂ (IsDigit base) (List.replicate count '0')
      (List.replicate count 0) := by
    induction count with
    | zero => exact .nil
    | succ count ih => exact .cons hzero ih
  refine ⟨by simp [hne], List.replicate count 0 ++ ds, List.rel_append hzeros hds, ?_⟩
  rw [List.reverse_append, List.reverse_replicate, Nat.ofDigits_append_replicate_zero]

/-- The digits of a number, each written by `write`. -/
theorem denotes_map_digits (write : Char → Char) (hbase : 1 < base)
    (hwrite : ∀ d < base, IsDigit base (write (Nat.digitChar d)) d) (n : Nat) :
    Denotes base ((digits base n).map write) n := by
  induction n using Nat.strongRecOn with
  | ind n ih =>
    rw [digits, Nat.toDigits_eq_if hbase]
    split
    next hlt => exact denotes_singleton (hwrite n hlt)
    next hle =>
      have hrest := (ih (n / base) (Nat.div_lt_self (by omega) hbase)).snoc
        (hwrite (n % base) (Nat.mod_lt n (by omega)))
      rw [Nat.mod_add_div] at hrest
      rwa [List.map_append]

theorem denotes_digits (hbase : 1 < base) (hle : base ≤ 16) (n : Nat) :
    Denotes base (digits base n) n := by
  have h := denotes_map_digits id hbase (fun d hd => isDigit_digitChar hle hd) n
  rwa [List.map_id] at h

theorem denotes_decimal (n : Nat) : Denotes 10 (decimal n).toList n := by
  rw [decimal, String.toList_ofList]
  exact denotes_digits (by decide) (by decide) n

theorem denotes_hexUpper (n : Nat) : Denotes 16 (hexUpper n).toList n := by
  rw [hexUpper, String.toList_ofList]
  have hdigit : ∀ d < 16, IsDigit 16 (Nat.digitChar d).toUpper d :=
    fun d hd => isDigit_toUpper_digitChar le_rfl hd
  exact denotes_map_digits Char.toUpper (by decide) hdigit n

end TypedMemory.Numeral
