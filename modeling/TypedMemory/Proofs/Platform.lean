import TypedMemory.Platform
import TypedMemory.Proofs.Numeral
import TypedMemory.Proofs.Results
import TypedMemory.Proofs.Text.Parts

/-!
# Text forms of platforms

A text form is the name of a family in any case, `_x`, a numeral for the number of bits and
perhaps the mark of a byte order, all with blanks around it (`Platform.TextForm`).  Main
statement: `Platform.parse` accepts these texts where the number is a word width, and tells
the others apart (`Platform.reads_exactly_forms`).

The byte order comes off the end first and then the last `_x` is looked for.  No numeral ends
like a mark or has an underscore in it, so both find what the form has at these places, and a
text has at most one form.
-/

namespace TypedMemory

/-! ### Names and widths -/

namespace OsFamily

theorem map_toLower_name (os : OsFamily) : os.name.toList.map Char.toLower = os.name.toList := by
  cases os <;> decide

theorem eq_of_name_eq {os other : OsFamily} (h : os.name.toList = other.name.toList) :
    os = other := by
  revert h
  cases os <;> cases other <;> decide

theorem mem_all (os : OsFamily) : os ∈ all := by
  cases os <;> decide

theorem sameLetters_name_iff {os : OsFamily} {text : List Char} :
    Text.sameLetters os.name.toList text = true ↔ text.map Char.toLower = os.name.toList := by
  rw [Text.sameLetters, beq_iff_eq, map_toLower_name, eq_comm]

/-- A family is found by its name in any case. -/
theorem ofName?_eq_some_iff {os : OsFamily} {text : List Char} :
    ofName? text = some os ↔ text.map Char.toLower = os.name.toList := by
  have hfinds : ∀ other, ofName? text = some other →
      text.map Char.toLower = other.name.toList := by
    intro other hother
    have hsame := List.find?_some (p := fun os : OsFamily => Text.sameLetters os.name.toList text)
      hother
    exact sameLetters_name_iff.mp hsame
  refine ⟨hfinds os, fun h => ?_⟩
  cases hfound : ofName? text with
  | none =>
    have hnot := List.find?_eq_none.mp hfound os (mem_all os)
    exact absurd (sameLetters_name_iff.mpr h) hnot
  | some other => rw [eq_of_name_eq (h.symm.trans (hfinds other hfound))]

end OsFamily

namespace WordWidth

theorem ofNat?_toNat (bits : WordWidth) : ofNat? bits.toNat = .ok bits := by
  cases bits <;> rfl

theorem ofNat?_eq_error {n : Nat} (h : n ∉ [8, 16, 32, 64]) :
    ofNat? n = .error (.unsupportedBits n) := by
  have hnone : all.find? (·.toNat == n) = none := by
    refine List.find?_eq_none.mpr fun bits _ hbits => h ?_
    rw [← beq_iff_eq.mp hbits]
    cases bits <;> decide
  rw [ofNat?, hnone]

end WordWidth

namespace Platform

/-- The parts of a text form, and what they stand for. -/
structure TextForm where
  name : List Char
  os : OsFamily
  numeral : List Char
  bits : Nat
  order : ByteOrder
  deriving DecidableEq

/-- The text is in this form. -/
structure TextForm.Of (f : TextForm) (text : String) : Prop where
  trims : Text.Trims text.toList (f.name ++ ['_', 'x'] ++ f.numeral ++ (orderMark f.order).toList)
  name : f.name.map Char.toLower = f.os.name.toList
  numeral : Numeral.Reads 10 f.numeral f.bits
  bits_lt : f.bits < 2 ^ 32

variable {text : String} {f g : TextForm} {numeral : List Char} {n : Nat}

/-! ### Taking a text form apart -/

/-- The characters of a decimal numeral, which are not among those that the other parts end with. -/
theorem forall_mem_numeral (h : Numeral.Reads 10 numeral n) : ∀ c ∈ numeral, c ≠ '_' ∧ c ≠ 'e' :=
  h.forall_mem (by decide) (by decide)

theorem getLast?_append_numeral (h : Numeral.Reads 10 numeral n) (front : List Char) :
    (front ++ numeral).getLast? ≠ some 'e' := by
  rw [List.getLast?_append_of_ne_nil front h.ne_nil]
  intro he
  exact (forall_mem_numeral h 'e' (List.mem_of_getLast? he)).2 rfl

/-- Of a text that ends with a numeral, only the mark behind the numeral is taken off. -/
theorem splitOrder_append (h : Numeral.Reads 10 numeral n) (front : List Char)
    (order : ByteOrder) :
    splitOrder (front ++ numeral ++ (orderMark order).toList) = (front ++ numeral, order) := by
  have hnone : ∀ c, Text.dropSuffix? ['_', c, 'e'] (front ++ numeral) = none := by
    refine fun c => Text.dropSuffix?_eq_none_of_ne fun rest hrest => ?_
    apply getLast?_append_numeral h front
    rw [hrest, List.getLast?_append_of_ne_nil rest (List.cons_ne_nil _ _)]
    rfl
  have hlittle : (orderMark .little).toList = ['_', 'l', 'e'] := rfl
  have hbig : (orderMark .big).toList = ['_', 'b', 'e'] := rfl
  have hnative : (orderMark .native).toList = [] := rfl
  unfold splitOrder
  cases order with
  | little => rw [Text.dropSuffix?_eq_some_iff.mpr rfl]
  | big =>
    rw [Text.dropSuffix?_eq_none_of_ne, Text.dropSuffix?_eq_some_iff.mpr rfl]
    intro rest hrest
    rw [hlittle, hbig] at hrest
    cases (List.append_inj' hrest rfl).2
  | native => rw [hnative, List.append_nil, hlittle, hbig, hnone, hnone]

/-- The mark that is taken off a text, if there is one. -/
theorem append_of_splitOrder {core rest : List Char} {order : ByteOrder}
    (h : splitOrder core = (rest, order)) : core = rest ++ (orderMark order).toList := by
  unfold splitOrder at h
  split at h
  next rest' hlittle =>
    cases h
    exact Text.dropSuffix?_eq_some_iff.mp hlittle
  next =>
    split at h
    next rest' hbig =>
      cases h
      exact Text.dropSuffix?_eq_some_iff.mp hbig
    next =>
      cases h
      exact (List.append_nil core).symm

/-- The last `_x` is the one in front of the numeral. -/
theorem splitLast?_numeral (h : Numeral.Reads 10 numeral n) (name : List Char) :
    Text.splitLast? ['_', 'x'] (name ++ ['_', 'x'] ++ numeral) = some (name, numeral) := by
  refine Text.splitLast?_append fun hinfix => ?_
  have hmem : '_' ∈ ['x'] ++ numeral := hinfix.subset (by decide)
  rcases List.mem_append.mp hmem with hx | hnumeral
  · revert hx
    decide
  · exact (forall_mem_numeral h '_' hnumeral).1 rfl

/-! ### Reading -/

/-- The steps of reading a text take it apart into the parts of its form. -/
structure TextForm.FoundIn (f : TextForm) (text : String) : Prop where
  splitOrder_eq : splitOrder (Text.trim text.toList) = (f.name ++ ['_', 'x'] ++ f.numeral, f.order)
  splitLast?_eq : Text.splitLast? ['_', 'x'] (f.name ++ ['_', 'x'] ++ f.numeral) =
    some (f.name, f.numeral)
  ofName?_eq : OsFamily.ofName? f.name = some f.os
  parse_eq : Numeral.parse 10 IntType.u32.cardinality f.numeral = .ok f.bits

theorem parse_numeral_iff : Numeral.parse 10 IntType.u32.cardinality numeral = .ok n ↔
    n < 2 ^ 32 ∧ Numeral.Reads 10 numeral n :=
  Numeral.parse_eq_ok_iff (by decide) (by decide) (by decide)

theorem TextForm.Of.foundIn (h : f.Of text) : f.FoundIn text := by
  refine ⟨?_, splitLast?_numeral h.numeral f.name, OsFamily.ofName?_eq_some_iff.mpr h.name,
    parse_numeral_iff.mpr ⟨h.bits_lt, h.numeral⟩⟩
  rw [h.trims.trim_eq]
  exact splitOrder_append h.numeral _ f.order

theorem TextForm.Of.parse_eq (h : f.Of text) :
    parse text = (WordWidth.ofNat? f.bits).map fun bits => ⟨bits, f.os, f.order⟩ := by
  obtain ⟨horder, hlast, hname, hnumeral⟩ := h.foundIn
  simp only [parse, horder, hlast, hname, hnumeral]

/-- A text that is not refused as such has a form. -/
theorem exists_form (h : parse text ≠ .error (.invalidPlatform text)) :
    ∃ f : TextForm, f.Of text := by
  unfold parse at h
  rcases horder : splitOrder (Text.trim text.toList) with ⟨rest, order⟩
  simp only [horder] at h
  split at h
  next => exact absurd rfl h
  next name numeral hlast =>
    split at h
    next os bits hname hnumeral =>
      obtain ⟨hlt, hreads⟩ := parse_numeral_iff.mp hnumeral
      refine ⟨⟨name, os, numeral, bits, order⟩, ?_, OsFamily.ofName?_eq_some_iff.mp hname, hreads,
        hlt⟩
      rw [Text.trims_iff, append_of_splitOrder horder, Text.append_of_splitLast? hlast]
    next => exact absurd rfl h

theorem TextForm.Of.unique (h : f.Of text) (h' : g.Of text) : f = g := by
  obtain ⟨horder, hlast, hname, hnumeral⟩ := h.foundIn
  obtain ⟨horder', hlast', hname', hnumeral'⟩ := h'.foundIn
  obtain ⟨hrest, heq⟩ := Prod.mk.inj (horder.symm.trans horder')
  rw [hrest] at hlast
  obtain ⟨hn, hw⟩ := Prod.mk.inj (Option.some.inj (hlast.symm.trans hlast'))
  rw [hn] at hname
  rw [hw] at hnumeral
  obtain ⟨name, os, numeral, bits, order⟩ := f
  cases hn
  cases hw
  cases heq
  cases hname.symm.trans hname'
  cases hnumeral.symm.trans hnumeral'
  rfl

/-! ### Writing -/

/-- The form in which a platform is written. -/
def form (p : Platform) : TextForm :=
  ⟨p.os.name.toList, p.os, (Numeral.decimal p.bits.toNat).toList, p.bits.toNat, p.byteOrder⟩

theorem form_of_text (p : Platform) : p.form.Of p.text := by
  have hnumeral := Numeral.denotes_decimal p.bits.toNat
  refine ⟨?_, p.os.map_toLower_name, hnumeral.reads, ?_⟩
  · have htext : p.text.toList = p.form.name ++ ['_', 'x'] ++ p.form.numeral ++
        (orderMark p.form.order).toList := by
      simp only [text, String.toList_append]
      rfl
    have hname : p.form.name.Forall fun c => Text.isBlank c = false := by
      show p.os.name.toList.Forall fun c => Text.isBlank c = false
      cases p.os <;> decide
    have hmark : (orderMark p.form.order).toList.Forall fun c => Text.isBlank c = false := by
      show (orderMark p.byteOrder).toList.Forall fun c => Text.isBlank c = false
      cases p.byteOrder <;> decide
    have hsign : ['_', 'x'].Forall fun c => Text.isBlank c = false := by decide
    have hdigits : ∀ c ∈ p.form.numeral, Text.isBlank c = false := hnumeral.forall_mem (by decide)
    rw [← htext]
    refine Text.trims_self ?_
    rw [htext]
    simp only [List.forall_mem_append]
    rw [List.forall_iff_forall_mem] at hname hmark hsign
    exact ⟨⟨⟨hname, hsign⟩, hdigits⟩, hmark⟩
  · show p.bits.toNat < 2 ^ 32
    cases p.bits <;> decide

/-- A text in the form for a word width is read as that platform.  A text in the form for another
number is refused for the number, and a text in no form is refused as it stands.  No text has two
forms, and every platform is read back from the text that it is written as. -/
theorem reads_exactly_forms :
    (∀ (text : String) (f : TextForm), f.Of text →
      (∀ bits : WordWidth, bits.toNat = f.bits → parse text = .ok ⟨bits, f.os, f.order⟩) ∧
      (f.bits ∉ [8, 16, 32, 64] → parse text = .error (.unsupportedBits f.bits))) ∧
    (∀ text : String, (∀ f : TextForm, ¬ f.Of text) →
      parse text = .error (.invalidPlatform text)) ∧
    (∀ (text : String) (f g : TextForm), f.Of text → g.Of text → f = g) ∧
    ∀ p : Platform, parse p.text = .ok p := by
  refine ⟨fun text f hf => ⟨?_, ?_⟩, fun text hnone => ?_, fun text f g hf hg => hf.unique hg,
    fun p => ?_⟩
  · intro bits hbits
    rw [hf.parse_eq, ← hbits, WordWidth.ofNat?_toNat]
    rfl
  · intro hbits
    rw [hf.parse_eq, WordWidth.ofNat?_eq_error hbits]
    rfl
  · by_contra hne
    obtain ⟨f, hf⟩ := exists_form hne
    exact hnone f hf
  · rw [p.form_of_text.parse_eq]
    show (WordWidth.ofNat? p.bits.toNat).map _ = _
    rw [WordWidth.ofNat?_toNat]
    rfl

/-- A form with capital letters, a plus sign and zeros. -/
def looseForm : TextForm :=
  ⟨['M', 'a', 'c', '_', 'O', 'S'], .macOs, ['+', '0', '0', '6', '4'], 64, .big⟩

/-- A form for a number of bits that no word has. -/
def oddForm : TextForm :=
  ⟨['i', 'o', 's'], .ios, ['4', '8'], 48, .native⟩

theorem looseForm_of : looseForm.Of " Mac_OS_x+0064_be\n" where
  trims := Text.trims_iff.mpr (by decide +kernel)
  name := by decide
  numeral := (parse_numeral_iff.mp (by decide)).2
  bits_lt := by decide

theorem oddForm_of : oddForm.Of "ios_x48" where
  trims := Text.trims_iff.mpr (by decide +kernel)
  name := by decide
  numeral := (parse_numeral_iff.mp (by decide)).2
  bits_lt := by decide

/-- The mark of a byte order is not read in capital letters. -/
theorem not_of_capitalMark (f : TextForm) : ¬ f.Of "ios_x64_LE" := by
  intro hf
  obtain ⟨horder, hlast, -, hnumeral⟩ := hf.foundIn
  have hsplit : splitOrder (Text.trim "ios_x64_LE".toList) =
      (['i', 'o', 's', '_', 'x', '6', '4', '_', 'L', 'E'], .native) := by
    decide +kernel
  obtain ⟨hrest, -⟩ := Prod.mk.inj (horder.symm.trans hsplit)
  have hparts : Text.splitLast? ['_', 'x'] ['i', 'o', 's', '_', 'x', '6', '4', '_', 'L', 'E'] =
      some (['i', 'o', 's'], ['6', '4', '_', 'L', 'E']) := by
    decide
  rw [hrest, hparts, Option.some.injEq, Prod.mk.injEq] at hlast
  rw [← hlast.2] at hnumeral
  cases hnumeral

theorem reads_exactly_forms_loose :
    parse " Mac_OS_x+0064_be\n" = .ok ⟨.b64, .macOs, .big⟩ ∧
    (∀ f : TextForm, f.Of " Mac_OS_x+0064_be\n" → f = looseForm) ∧
    parse "ios_x48" = .error (.unsupportedBits 48) ∧
    parse "ios_x64_LE" = .error (.invalidPlatform "ios_x64_LE") := by
  obtain ⟨hform, hnone, hunique, -⟩ := reads_exactly_forms
  refine ⟨?_, ?_, ?_, ?_⟩
  · exact (hform _ looseForm looseForm_of).1 .b64 rfl
  · exact fun f hf => hunique _ f looseForm hf looseForm_of
  · exact (hform _ oddForm oddForm_of).2 (by decide)
  · exact hnone _ not_of_capitalMark

end Platform

end TypedMemory
