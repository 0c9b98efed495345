import TypedMemory.Proofs.View.Navigation

/-!
# Bounded arrays as vectors

An array of known length over integers or truth values is a vector of the values that its
elements hold (`ArrayView.IsVector`).  A write is made of the same steps on both sides: one
element is set (`IsVector.set_cases`), and a list of values is written one by one up to the first
that fails (`IsVector.setFrom`).  So the array follows the vector through any calls
(`IsVector.run`), and reading it gives the vector (`ArrayView.vector_after_calls`).
-/

namespace TypedMemory

open Access Buffer

namespace ScalarKind

/-- No value of the kind stands for `v`. -/
def refuses (kind : ScalarKind) (p : Platform) (v : Value) : Bool := !(kind.convert p v).isOk

/-- The first index of a value that is refused, or that reaches `room`.  If there is neither, it is
the number of the values. -/
def stop (kind : ScalarKind) (p : Platform) (room : Nat) (values : List Value) : Nat :=
  min room (values.findIdx (kind.refuses p))

/-- The values as the kind holds them, without those that it refuses. -/
def convertAll (kind : ScalarKind) (p : Platform) (values : List Value) : List Value :=
  values.filterMap fun v => (kind.convert p v).toOption

/-- The outcome of writing values from `index` on to `n` elements.  A value without an element is
not looked at. -/
def outcome (kind : ScalarKind) (p : Platform) (n index : Nat) (values : List Value) :
    Except Error Unit :=
  let k := kind.stop p (n - index) values
  match values[k]? with
  | none => .ok ()
  | some v => if index + k = n then .error (.bounds n n) else (kind.convert p v).map fun _ => ()

variable {kind : ScalarKind} {p : Platform} {room n index : Nat} {v w : Value} {e : Error}
  {values : List Value}

theorem refuses_of_ok (h : kind.convert p v = .ok w) : kind.refuses p v = false := by
  rw [refuses, h]
  rfl

theorem refuses_of_error (h : kind.convert p v = .error e) : kind.refuses p v = true := by
  rw [refuses, h]
  rfl

theorem stop_nil : kind.stop p room [] = 0 := Nat.min_zero room

theorem stop_zero : kind.stop p 0 values = 0 := Nat.zero_min _

theorem stop_cons_ok (h : kind.convert p v = .ok w) :
    kind.stop p (room + 1) (v :: values) = kind.stop p room values + 1 := by
  rw [stop, stop, List.findIdx_cons, refuses_of_ok h, cond_false, Nat.add_min_add_right]

theorem stop_cons_error (h : kind.convert p v = .error e) :
    kind.stop p room (v :: values) = 0 := by
  rw [stop, List.findIdx_cons, refuses_of_error h, cond_true, Nat.min_zero]

theorem stop_le_length : kind.stop p room values ≤ values.length :=
  (Nat.min_le_right ..).trans List.findIdx_le_length

/-- The values before the stop are held by the kind. -/
theorem exists_convert_of_lt_stop {j : Nat} (hj : j < kind.stop p room values)
    (hv : values[j]? = some v) : ∃ w, kind.convert p v = .ok w := by
  have hfind : j < values.findIdx (kind.refuses p) := hj.trans_le (Nat.min_le_right ..)
  obtain ⟨hlt, rfl⟩ := List.getElem?_eq_some_iff.mp hv
  have hkept : kind.refuses p values[j] = false := List.not_of_lt_findIdx hfind
  cases hconvert : kind.convert p values[j] with
  | ok w => exact ⟨w, rfl⟩
  | error e => cases hkept.symm.trans (refuses_of_error hconvert)

/-- A value at the stop is refused, unless the room ends there. -/
theorem exists_error_at_stop (hroom : kind.stop p room values ≠ room)
    (hv : values[kind.stop p room values]? = some v) : ∃ e, kind.convert p v = .error e := by
  have hstop : kind.stop p room values = values.findIdx (kind.refuses p) := by
    unfold stop at *
    omega
  rw [hstop] at hv
  obtain ⟨hlt, rfl⟩ := List.getElem?_eq_some_iff.mp hv
  have hrefuses : kind.refuses p values[values.findIdx (kind.refuses p)] = true :=
    List.findIdx_getElem
  cases hconvert : kind.convert p values[values.findIdx (kind.refuses p)] with
  | error e => exact ⟨e, rfl⟩
  | ok w => cases hrefuses.symm.trans (refuses_of_ok hconvert)

theorem convertAll_cons (h : kind.convert p v = .ok w) :
    kind.convertAll p (v :: values) = w :: kind.convertAll p values :=
  List.filterMap_cons_some (congrArg Except.toOption h)

/-- If all values before an index are held by the kind, so many are left, in their places. -/
theorem getElem?_convertAll {j : Nat} (hv : values[j]? = some v)
    (hall : ∀ i u, i ≤ j → values[i]? = some u → ∃ w, kind.convert p u = .ok w) :
    (kind.convertAll p values)[j]? = (kind.convert p v).toOption := by
  induction values generalizing j with
  | nil => cases hv
  | cons first rest ih =>
    obtain ⟨w, hw⟩ := hall 0 first (Nat.zero_le j) rfl
    rw [convertAll_cons hw]
    cases j with
    | zero =>
      cases hv
      rw [hw]
      rfl
    | succ j => exact ih hv fun i u hi hu => hall (i + 1) u (Nat.succ_le_succ hi) hu

theorem outcome_cons_ok (h : kind.convert p v = .ok w) (hindex : index < n) :
    kind.outcome p n index (v :: values) = kind.outcome p n (index + 1) values := by
  have hroom : n - index = n - (index + 1) + 1 := by omega
  simp only [outcome, hroom, stop_cons_ok h, List.getElem?_cons_succ, Nat.add_assoc, Nat.add_comm 1]

theorem outcome_cons_error (h : kind.convert p v = .error e) (hindex : index < n) :
    kind.outcome p n index (v :: values) = .error e := by
  have hne : ¬ index + 0 = n := by omega
  simp only [outcome, stop_cons_error h, List.getElem?_cons_zero, if_neg hne, h]
  rfl

theorem outcome_cons_end : kind.outcome p n n (v :: values) = .error (.bounds n n) := by
  simp [outcome, stop_zero]

/-- A value at the stop is the reason for an error. -/
theorem outcome_at_stop (hv : values[kind.stop p n values]? = some v) :
    ∃ e, kind.outcome p n 0 values = .error e ∧
      if kind.stop p n values = n then e = .bounds n n else kind.convert p v = .error e := by
  simp only [outcome, Nat.sub_zero, Nat.zero_add, hv]
  by_cases hend : kind.stop p n values = n
  · rw [if_pos hend]
    exact ⟨_, rfl, (if_pos hend).symm ▸ rfl⟩
  · obtain ⟨e, he⟩ := exists_error_at_stop hend hv
    rw [if_neg hend, he]
    exact ⟨e, rfl, (if_neg hend).symm ▸ rfl⟩

theorem outcome_eq_ok_iff :
    kind.outcome p n 0 values = .ok () ↔ kind.stop p n values = values.length := by
  constructor
  · intro hok
    by_contra hne
    have hlt : kind.stop p n values < values.length := Nat.lt_of_le_of_ne stop_le_length hne
    obtain ⟨e, he, -⟩ := outcome_at_stop (List.getElem?_eq_getElem hlt)
    cases hok.symm.trans he
  · intro hend
    have hnone : values[kind.stop p n values]? = none := List.getElem?_eq_none hend.ge
    simp only [outcome, Nat.sub_zero, hnone]

end ScalarKind

/-- A call that writes elements of an array. -/
inductive ArrayCall
  | set (index : Nat) (v : Value)
  | setAll (values : List Value)

namespace ArrayCall

def run {σ : Type} (m : Space σ) (a : ArrayView) : ArrayCall → Access σ Unit
  | set index v => a.set m index v
  | setAll values => a.setAll m values

/-- The vector after the call. -/
def apply (kind : ScalarKind) (p : Platform) (xs : List Value) : ArrayCall → List Value
  | set index v => (kind.convert p v).toOption.elim xs (xs.set index)
  | setAll values =>
    let k := kind.stop p xs.length values
    kind.convertAll p (values.take k) ++ xs.drop k

end ArrayCall

namespace ArrayView

/-- The elements of the array hold the values. -/
structure IsVector (p : Platform) (kind : ScalarKind) (a : ArrayView) (b : Buffer)
    (xs : List Value) : Prop where
  element_eq : a.element = .scalar kind
  length_eq : a.length = some xs.length
  limit_le : b.limit ≤ wordLimit
  holds : ∀ j (hj : j < xs.length), ∃ data : Bytes, data.length = kind.sizeOn p ∧
    b.Holds (a.address.toNat + j * kind.sizeOn p) data ∧ kind.decode p a.order data = xs[j]

variable {p : Platform} {s : Schema} {kind : ScalarKind} {a : ArrayView} {b b' : Buffer}
  {xs : List Value} {n j k index : Nat} {v w : Value} {values : List Value}

/-- The values of an array are those of its bytes. -/
theorem exists_isVector (helement : a.element = .scalar kind) (hlength : a.length = some n)
    (hlimit : b.limit ≤ wordLimit)
    (hmapped : ∀ j, j < n → b.Mapped (a.address.toNat + j * kind.sizeOn p) (kind.sizeOn p)) :
    ∃ xs : List Value, xs.length = n ∧ a.IsVector p kind b xs := by
  choose data hdata hholds using fun j : Fin n => (hmapped j j.isLt).exists_holds
  let xs := List.ofFn fun j => kind.decode p a.order (data j)
  have hxs : xs.length = n := List.length_ofFn
  refine ⟨xs, hxs, helement, by rwa [hxs], hlimit, fun j hj => ?_⟩
  have hjn : j < n := hxs ▸ hj
  exact ⟨data ⟨j, hjn⟩, hdata ⟨j, hjn⟩, hholds ⟨j, hjn⟩, (List.getElem_ofFn hj).symm⟩

/-- After one element was set, those behind it are replaced. -/
theorem take_append_drop_set {ys : List Value} (hindex : index < xs.length) :
    (xs.set index w).take (index + 1) ++ (ys ++ (xs.set index w).drop (index + 1 + k)) =
      xs.take index ++ (w :: ys ++ xs.drop (index + (k + 1))) := by
  have hlength : index < (xs.set index w).length := by rwa [List.length_set]
  rw [List.take_succ_eq_append_getElem hlength, List.getElem_set_self,
    List.take_set_of_le (Nat.le_refl index), List.drop_set_of_lt (by omega), List.append_assoc,
    Nat.add_assoc, Nat.add_comm 1 k]
  rfl

/-- Different elements do not share bytes. -/
theorem elements_apart {size x : Nat} (hne : index ≠ j) {address : Nat}
    (hx : Within (address + j * size) size x) : ¬ Within (address + index * size) size x := by
  have hend : ∀ i k : Nat, i < k → i * size + size ≤ k * size := by
    intro i k hlt
    rw [← Nat.succ_mul]
    exact Nat.mul_le_mul_right size hlt
  rintro ⟨hlow', hhigh'⟩
  obtain ⟨hlow, hhigh⟩ := hx
  rcases Nat.lt_or_gt_of_ne hne with hlt | hlt
  · have hle := hend index j hlt
    omega
  · have hle := hend j index hlt
    omega

theorem fieldSize_of_scalar (helement : a.element = .scalar kind) :
    (space p s).fieldSize a.element = .ok (kind.sizeOn p) := by
  rw [helement]
  rfl

namespace IsVector

/-! ### Elements -/

theorem exists_addressAt (h : a.IsVector p kind b xs) (hj : j < xs.length) :
    ∃ address, a.addressAt (space p s) j = .ok address ∧
      address.toNat = a.address.toNat + j * kind.sizeOn p := by
  obtain ⟨data, hlength, hholds, -⟩ := h.holds j hj
  have hpos := kind.sizeOn_pos p
  have hend := hholds.mapped.le_limit
  have hlimit := h.limit_le
  have hlt : a.address.toNat + j * kind.sizeOn p < wordLimit := by omega
  have hinside : ∀ n, a.length = some n → j < n := by
    intro n hn
    cases h.length_eq.symm.trans hn
    exact hj
  exact ⟨_, addressAt_eq hinside (fieldSize_of_scalar h.element_eq) hlt, toNat_ofNat_of_lt hlt⟩

theorem addressAt_of_le (h : a.IsVector p kind b xs) (hj : xs.length ≤ j) :
    a.addressAt (space p s) j = .error (.bounds j xs.length) := by
  have hcheck : a.checkIndex j = .error (.bounds j xs.length) := by
    rw [checkIndex, h.length_eq]
    exact if_neg (Nat.not_lt.mpr hj)
  rw [addressAt, hcheck]
  rfl

theorem get_yields (h : a.IsVector p kind b xs) (hj : j < xs.length) :
    (a.get (space p s) j).Yields b xs[j] b := by
  obtain ⟨address, haddress, htoNat⟩ := h.exists_addressAt (s := s) hj
  obtain ⟨data, hlength, hholds, hdecode⟩ := h.holds j hj
  rw [← htoNat] at hholds
  rw [get, haddress, liftM_ok_bind, h.element_eq, ← hdecode]
  exact ScalarKind.read_yields hlength hholds

theorem get_of_le (h : a.IsVector p kind b xs) (hj : xs.length ≤ j) :
    eval (a.get (space p s) j) b = (.error (.bounds j xs.length), b) := by
  rw [get, h.addressAt_of_le hj]
  rfl

/-- Storing an element changes the vector at its index, since the others lie apart. -/
theorem store (h : a.IsVector p kind b xs) (hindex : index < xs.length) {data : Bytes}
    (hdata : data.length = kind.sizeOn p) :
    b.Mapped (a.address.toNat + index * kind.sizeOn p) data.length ∧
    a.IsVector p kind (b.store (a.address.toNat + index * kind.sizeOn p) data)
      (xs.set index (kind.decode p a.order data)) := by
  obtain ⟨old, hold, hholds, -⟩ := h.holds index hindex
  have hmapped : b.Mapped (a.address.toNat + index * kind.sizeOn p) data.length := by
    have hmapped := hholds.mapped
    rw [hold] at hmapped
    rwa [hdata]
  refine ⟨hmapped, h.element_eq, by rw [List.length_set, h.length_eq],
    by rw [limit_store hmapped]; exact h.limit_le, fun j hj => ?_⟩
  rw [List.length_set] at hj
  by_cases hsame : index = j
  · subst hsame
    exact ⟨data, hdata, hmapped.holds_store, (List.getElem_set_self ..).symm⟩
  · obtain ⟨kept, hkept, hkeptholds, hdecode⟩ := h.holds j hj
    refine ⟨kept, hkept, ?_, by rw [List.getElem_set_ne hsame, hdecode]⟩
    refine (keeps_store hmapped fun _ hx => hx).holds hkeptholds fun x hx => ?_
    rw [hkept] at hx
    rw [hdata]
    exact elements_apart hsame hx

/-- A call of `set` is out of bounds, or its value is refused, or it is stored. -/
theorem set_cases (h : a.IsVector p kind b xs) (hkind : kind.isFloat = false) (index : Nat)
    (v : Value) :
    (xs.length ≤ index ∧
      eval (a.set (space p s) index v) b = (.error (.bounds index xs.length), b)) ∨
    (index < xs.length ∧ ∃ e, kind.convert p v = .error e ∧
      eval (a.set (space p s) index v) b = (.error e, b)) ∨
    (index < xs.length ∧ ∃ w b', kind.convert p v = .ok w ∧
      eval (a.set (space p s) index v) b = (.ok (), b') ∧ a.IsVector p kind b' (xs.set index w) ∧
      b'.limit = b.limit ∧
      b.Keeps b' (Within (a.address.toNat + index * kind.sizeOn p) (kind.sizeOn p))) := by
  by_cases hindex : index < xs.length
  · obtain ⟨address, haddress, htoNat⟩ := h.exists_addressAt (s := s) hindex
    have hset : a.set (space p s) index v =
        liftM (kind.encode p a.order v) >>= writeBytes address := by
      rw [set, assignFrom, haddress, liftM_ok_bind, h.element_eq]
      exact kind.write_eq (port p) address v a.order
    have hconvert : (kind.encode p a.order v).map (kind.decode p a.order) = kind.convert p v :=
      kind.map_decode_encode hkind
    rw [hset]
    cases hencode : kind.encode p a.order v with
    | error e =>
      rw [hencode] at hconvert
      exact Or.inr (Or.inl ⟨hindex, e, hconvert.symm, rfl⟩)
    | ok data =>
      rw [hencode] at hconvert
      have hdata := ScalarKind.length_encode hencode
      obtain ⟨hmapped, hvector⟩ := h.store hindex hdata
      refine Or.inr (Or.inr ⟨hindex, _, _, hconvert.symm, ?_, hvector, limit_store hmapped,
        keeps_store hmapped fun x hx => by rwa [hdata] at hx⟩)
      rw [liftM_ok_bind]
      rw [← htoNat] at hmapped ⊢
      exact writeBytes_yields_iff.mpr ⟨hmapped, rfl⟩
  · refine Or.inl ⟨Nat.not_lt.mp hindex, ?_⟩
    rw [set, assignFrom, h.addressAt_of_le (Nat.not_lt.mp hindex)]
    rfl

/-- The values are written from an index on, up to the first that is refused or has no element. -/
theorem setFrom (h : a.IsVector p kind b xs) (hkind : kind.isFloat = false)
    (hindex : index ≤ xs.length) (values : List Value) :
    let k := kind.stop p (xs.length - index) values
    ∃ b', eval (a.setFrom (space p s) index values) b =
        (kind.outcome p xs.length index values, b') ∧
      a.IsVector p kind b'
        (xs.take index ++ (kind.convertAll p (values.take k) ++ xs.drop (index + k))) ∧
      b'.limit = b.limit ∧
      b.Keeps b' (Within (a.address.toNat + index * kind.sizeOn p) (k * kind.sizeOn p)) := by
  have hnone : ∀ (xs : List Value) (index : Nat),
      xs.take index ++ (kind.convertAll p [] ++ xs.drop (index + 0)) = xs :=
    fun xs index => List.take_append_drop index xs
  induction values generalizing b xs index with
  | nil =>
    simp only [ScalarKind.stop_nil, List.take_nil]
    exact ⟨b, rfl, by rwa [hnone], rfl, .refl b _⟩
  | cons v rest ih =>
    have hfirst : a.setFrom (space p s) index (v :: rest) =
        a.set (space p s) index v >>= fun _ => a.setFrom (space p s) (index + 1) rest := rfl
    rw [hfirst, Access.eval_bind]
    rcases h.set_cases (s := s) hkind index v with ⟨hend, hset⟩ | ⟨hlt, e, hv, hset⟩ |
      ⟨hlt, w, b', hv, hset, hvector, hlimit, hkeeps⟩
    · obtain rfl : index = xs.length := by omega
      rw [hset]
      simp only [Nat.sub_self, ScalarKind.stop_zero, ScalarKind.outcome_cons_end, List.take_zero]
      exact ⟨b, rfl, by rwa [hnone], rfl, .refl b _⟩
    · rw [hset]
      simp only [ScalarKind.stop_cons_error hv, ScalarKind.outcome_cons_error hv hlt,
        List.take_zero]
      exact ⟨b, rfl, by rwa [hnone], rfl, .refl b _⟩
    · -- the rest is written to the vector that has the first value already
      have hnext : index + 1 ≤ (xs.set index w).length := by rwa [List.length_set]
      obtain ⟨b'', heval, hvector', hlimit', hkeeps'⟩ := ih hvector hnext
      have hroom : xs.length - index = xs.length - (index + 1) + 1 := by omega
      rw [hset]
      rw [List.length_set] at heval hvector' hkeeps'
      simp only [hroom, ScalarKind.stop_cons_ok hv, ScalarKind.outcome_cons_ok hv hlt,
        List.take_succ_cons, ScalarKind.convertAll_cons hv]
      generalize kind.stop p (xs.length - (index + 1)) rest = k at *
      rw [take_append_drop_set hlt] at hvector'
      refine ⟨b'', heval, hvector', hlimit'.trans hlimit, ?_⟩
      -- the first element and the range of the rest make one range
      have hwidth := Nat.add_one_mul k (kind.sizeOn p)
      have hfirstwidth := Nat.add_one_mul index (kind.sizeOn p)
      refine (hkeeps.mono ?_).trans (hkeeps'.mono ?_)
      · rintro x ⟨hlow, hhigh⟩
        exact ⟨hlow, by omega⟩
      · rintro x ⟨hlow, hhigh⟩
        exact ⟨by omega, by omega⟩

/-- All values are written from the first element on. -/
theorem setAll (h : a.IsVector p kind b xs) (hkind : kind.isFloat = false) (values : List Value) :
    ∃ b', eval (a.setAll (space p s) values) b = (kind.outcome p xs.length 0 values, b') ∧
      a.IsVector p kind b' (ArrayCall.apply kind p xs (.setAll values)) ∧ b'.limit = b.limit ∧
      b.Keeps b'
        (Within a.address.toNat (kind.stop p xs.length values * kind.sizeOn p)) := by
  obtain ⟨b', heval, hvector, hlimit, hkeeps⟩ :=
    h.setFrom (s := s) hkind (Nat.zero_le xs.length) values
  rw [Nat.sub_zero, List.take_zero, List.nil_append, Nat.zero_add] at hvector
  rw [Nat.sub_zero, Nat.zero_mul, Nat.add_zero] at hkeeps
  exact ⟨b', heval, hvector, hlimit, hkeeps⟩

/-! ### Calls -/

/-- The array follows the vector through a call, whatever comes out. -/
theorem run (h : a.IsVector p kind b xs) (hkind : kind.isFloat = false) (call : ArrayCall) :
    a.IsVector p kind (eval (call.run (space p s) a) b).2 (call.apply kind p xs) := by
  cases call with
  | setAll values =>
    obtain ⟨b', heval, hvector, -⟩ := h.setAll (s := s) hkind values
    rw [ArrayCall.run, heval]
    exact hvector
  | set index v =>
    rw [ArrayCall.run, ArrayCall.apply]
    rcases h.set_cases (s := s) hkind index v with ⟨hend, hset⟩ | ⟨-, e, hv, hset⟩ |
      ⟨-, w, b', hv, hset, hvector, -⟩
    · rw [hset]
      cases kind.convert p v with
      | error e => exact h
      | ok w =>
        show a.IsVector p kind b (xs.set index w)
        rwa [List.set_eq_of_length_le hend]
    · rw [hset, hv]
      exact h
    · rw [hset, hv]
      exact hvector

theorem runAll (h : a.IsVector p kind b xs) (hkind : kind.isFloat = false)
    (calls : List ArrayCall) :
    a.IsVector p kind (calls.foldl (fun c call => (eval (call.run (space p s) a) c).2) b)
      (calls.foldl (ArrayCall.apply kind p) xs) := by
  induction calls generalizing b xs with
  | nil => exact h
  | cons call rest ih => exact ih (h.run hkind call)

/-! ### All elements -/

theorem take (h : a.IsVector p kind b xs) (count : Nat) :
    (a.take count).IsVector p kind b (xs.take count) := by
  have htake : a.take count = { a with length := some (min xs.length count) } := by
    rw [ArrayView.take, h.length_eq]
  rw [htake]
  refine ⟨h.element_eq, by rw [List.length_take, Nat.min_comm], h.limit_le, fun j hj => ?_⟩
  rw [List.length_take] at hj
  rw [List.getElem_take]
  exact h.holds j (by omega)

theorem readAll_yields (h : a.IsVector p kind b xs) :
    (a.readAll (space p s)).Yields b (xs.map .ok) b := by
  have hread : a.readAll (space p s) =
      (List.range xs.length).mapM fun index => attempt (a.get (space p s) index) := by
    rw [readAll, h.length_eq]
  let get := fun index => (eval (a.get (space p s) index) b).1
  have hattempt : ∀ index ∈ List.range xs.length, ∀ c, c = b →
      ∃ t, t = b ∧ eval (attempt (a.get (space p s) index)) c = (.ok (get index), t) := by
    rintro index hindex c rfl
    have hleft : (eval (a.get (space p s) index) c).2 = c :=
      congrArg Prod.snd (h.get_yields (s := s) (List.mem_range.mp hindex))
    exact ⟨c, rfl, (eval_attempt _ c).trans (congrArg _ hleft)⟩
  have hmap : (List.range xs.length).map get = xs.map .ok := by
    refine List.ext_getElem (by simp) fun j hj hj' => ?_
    rw [List.length_map] at hj'
    rw [List.getElem_map, List.getElem_map, List.getElem_range]
    exact congrArg Prod.fst (h.get_yields (s := s) hj')
  obtain ⟨t, rfl, heval⟩ := eval_mapM (f := fun index => .ok (get index)) (· = b) hattempt b rfl
  rw [hread, Yields, heval, ← hmap]
  exact congrArg (·, t) (List.mapM_pure ..)

end IsVector

/-! ### The array and its vector -/

/-- All ways to read the array give the values, and it has no others. -/
structure ReadsAs (m : Space Buffer) (a : ArrayView) (b : Buffer) (xs : List Value) : Prop where
  get_of_lt : ∀ j (hj : j < xs.length), (a.get m j).Yields b xs[j] b
  get_of_le : ∀ j, xs.length ≤ j → eval (a.get m j) b = (.error (.bounds j xs.length), b)
  readAll : (a.readAll m).Yields b (xs.map .ok) b
  take : ∀ count, ((a.take count).readAll m).Yields b ((xs.take count).map .ok) b

/-- Of the values, the first `k` were written to `n` elements.  Nothing else is changed, and the
result tells why there were no more. -/
structure WritesFirst (m : Space Buffer) (kind : ScalarKind) (a : ArrayView) (n k : Nat)
    (values : List Value) (b b' : Buffer) (r : Except Error Unit) : Prop where
  stored : ∀ j v, j < k → values[j]? = some v → ∃ w, kind.convert m.platform v = .ok w ∧
    w.asInt? = v.asInt? ∧ w.asBool? = v.asBool? ∧ (a.get m j).Yields b' w b'
  keeps : b.Keeps b' (Within a.address.toNat (k * kind.sizeOn m.platform))
  limit_eq : b'.limit = b.limit
  eq_ok_iff : r = .ok () ↔ k = values.length
  eq_error : ∀ v, values[k]? = some v → ∃ e, r = .error e ∧
    eval (a.set m k v) b' = (.error e, b') ∧
    if k = n then e = .bounds n n else kind.convert m.platform v = .error e

theorem IsVector.readsAs (h : a.IsVector p kind b xs) : a.ReadsAs (space p s) b xs :=
  ⟨fun _ hj => h.get_yields hj, fun _ hj => h.get_of_le hj, h.readAll_yields,
    fun count => (h.take count).readAll_yields⟩

theorem IsVector.writesFirst (h : a.IsVector p kind b xs) (hkind : kind.isFloat = false)
    (values : List Value) :
    ∃ r b', eval (a.setAll (space p s) values) b = (r, b') ∧
      a.WritesFirst (space p s) kind xs.length (kind.stop p xs.length values) values b b' r := by
  obtain ⟨b', heval, hvector, hlimit, hkeeps⟩ := h.setAll (s := s) hkind values
  have hlength : (ArrayCall.apply kind p xs (.setAll values)).length = xs.length :=
    Option.some.inj (hvector.length_eq.symm.trans h.length_eq)
  refine ⟨_, b', heval, ?_, hkeeps, hlimit, ?_, ?_⟩
  · intro j v hj hv
    obtain ⟨w, hw⟩ := ScalarKind.exists_convert_of_lt_stop hj hv
    obtain ⟨hint, hbool⟩ := ScalarKind.sameNumber_convert hkind hw
    have htake : (values.take (kind.stop p xs.length values))[j]? = some v := by
      rwa [List.getElem?_take_of_lt hj]
    have hconverted : (kind.convertAll p (values.take (kind.stop p xs.length values)))[j]? =
        some w := by
      rw [ScalarKind.getElem?_convertAll htake, hw]
      · rfl
      · intro i u hi hu
        rw [List.getElem?_take_of_lt (hi.trans_lt hj)] at hu
        exact ScalarKind.exists_convert_of_lt_stop (hi.trans_lt hj) hu
    obtain ⟨hin, -⟩ := List.getElem?_eq_some_iff.mp hconverted
    have hat : (ArrayCall.apply kind p xs (.setAll values))[j]? = some w :=
      (List.getElem?_append_left hin).trans hconverted
    obtain ⟨hj', rfl⟩ := List.getElem?_eq_some_iff.mp hat
    exact ⟨_, hw, hint, hbool, hvector.get_yields hj'⟩
  · exact ScalarKind.outcome_eq_ok_iff
  · intro v hv
    obtain ⟨e, he, hreason⟩ := ScalarKind.outcome_at_stop hv
    refine ⟨e, he, ?_, hreason⟩
    have hle : kind.stop p xs.length values ≤ xs.length := Nat.min_le_left ..
    rcases hvector.set_cases (s := s) hkind (kind.stop p xs.length values) v with
      ⟨hend, hset⟩ | ⟨hlt, e', hv', hset⟩ | ⟨hlt, w, -, hv', -⟩ <;> rw [hlength] at *
    · have hstop : kind.stop p xs.length values = xs.length := Nat.le_antisymm hle hend
      rw [if_pos hstop] at hreason
      rw [hset, hreason, hstop]
    · rw [if_neg hlt.ne, hv'] at hreason
      cases hreason
      exact hset
    · rw [if_neg hlt.ne, hv'] at hreason
      cases hreason

/-- An array of known length over integers or truth values is a vector, if all its elements are
mapped.  After any calls it reads as the values that were stored last, or were there before.
Writing a list of values stores those before the first one that is refused or has no element, and
nothing else. -/
theorem vector_after_calls (hkind : kind.isFloat = false) (helement : a.element = .scalar kind)
    (hlength : a.length = some n) (hlimit : b.limit ≤ wordLimit)
    (hmapped : ∀ j, j < n → b.Mapped (a.address.toNat + j * kind.sizeOn p) (kind.sizeOn p)) :
    ∃ xs, a.ReadsAs (space p s) b xs ∧ ∀ calls : List ArrayCall,
      let after := calls.foldl (fun c call => (eval (call.run (space p s) a) c).2) b
      let ys := calls.foldl (ArrayCall.apply kind p) xs
      ys.length = n ∧ a.ReadsAs (space p s) after ys ∧
      ∀ values, ∃ r c, eval (a.setAll (space p s) values) after = (r, c) ∧
        a.WritesFirst (space p s) kind n (kind.stop p n values) values after c r := by
  obtain ⟨xs, hxs, hvector⟩ := exists_isVector helement hlength hlimit hmapped
  refine ⟨xs, hvector.readsAs, fun calls => ?_⟩
  have hafter := hvector.runAll (s := s) hkind calls
  have hys := Option.some.inj (hafter.length_eq.symm.trans hlength)
  refine ⟨hys, hafter.readsAs, fun values => ?_⟩
  have hwrites := hafter.writesFirst (s := s) hkind values
  rwa [hys] at hwrites

/-- Three integers of two bytes, big-endian. -/
def shortArray : ArrayView := ⟨4098, .scalar .u16, some 3, .big⟩

/-- The last two calls fail, the first of them after it has stored a value. -/
def shortCalls : List ArrayCall :=
  [.set 1 (.int (.wrap .i64 300)), .setAll [.int (.wrap .u8 5), .int (.wrap .u32 70000)],
    .set 3 (.word 1)]

theorem vector_after_shortCalls :
    let m := space .host {}
    let after := shortCalls.foldl (fun c call => (eval (call.run m shortArray) c).2) (.zeroed 4096 16)
    (shortArray.get m 1).Yields after (.int (.wrap .u16 300)) after ∧
    (shortArray.get m 0).Yields after (.int (.wrap .u16 5)) after ∧
    ∃ c, eval (shortArray.setAll m (List.replicate 4 (.word 7))) after =
      (.error (.bounds 3 3), c) := by
  intro m after
  have hmapped : ∀ j, j < 3 → (zeroed 4096 16).Mapped
      (shortArray.address.toNat + j * ScalarKind.u16.sizeOn .host) (ScalarKind.u16.sizeOn .host) := by
    intro j hj
    have haddress : shortArray.address.toNat = 4098 := rfl
    have hbase : (zeroed 4096 16).base.toNat = 4096 := rfl
    have hlimit : (zeroed 4096 16).limit = 4112 := rfl
    have hword : wordLimit = 0x10000000000000000 := rfl
    rw [show ScalarKind.u16.sizeOn .host = 2 from rfl]
    exact ⟨by omega, by omega, by omega⟩
  have hlength : shortArray.length = some 3 := rfl
  have hlimit : (zeroed 4096 16).limit ≤ wordLimit := by decide
  obtain ⟨xs, hbefore, hcalls⟩ := vector_after_calls rfl rfl hlength hlimit hmapped
  have hzeros : (shortArray.readAll m).Yields (.zeroed 4096 16)
      ((List.replicate 3 (Value.int (.wrap .u16 0))).map .ok) (.zeroed 4096 16) := by
    decide +kernel
  obtain rfl : xs = List.replicate 3 (.int (.wrap .u16 0)) :=
    List.map_injective_iff.mpr (fun _ _ => Except.ok.inj) (hbefore.readAll.unique hzeros).1
  obtain ⟨-, hreads, hwrites⟩ := hcalls shortCalls
  obtain ⟨r, c, heval, hfirst⟩ := hwrites (List.replicate 4 (.word 7))
  obtain ⟨e, he, -, hreason⟩ := hfirst.eq_error (.word 7) (by decide +kernel)
  refine ⟨hreads.get_of_lt 1 (by decide +kernel), hreads.get_of_lt 0 (by decide +kernel), c, ?_⟩
  rw [if_pos (by decide +kernel)] at hreason
  rw [heval, he, hreason]

end ArrayView

end TypedMemory
