import TypedMemory.Port
import TypedMemory.Proofs.Results

/-!
# Running accesses

`Access.eval` runs an access from a state.  `Access.Yields` says that it
succeeds, with which value, and in which state it ends.  Both are pushed through
the program by the lemmas below, so that no later proof opens the monad:

    (x >>= f).Yields s b u ↔ ∃ a t, x.Yields s a t ∧ (f a).Yields t b u.
-/

namespace TypedMemory

namespace Access

variable {σ α β : Type}

/-- The outcome of an access from a state, and the state that it leaves. -/
def eval (x : Access σ α) (s : σ) : Except Error α × σ := Id.run (StateT.run (ExceptT.run x) s)

@[simp] theorem eval_pure (a : α) (s : σ) : eval (pure a) s = (.ok a, s) := rfl

@[simp] theorem eval_throw (e : Error) (s : σ) : eval (throw e : Access σ α) s = (.error e, s) :=
  rfl

@[simp] theorem eval_get (s : σ) : eval (get : Access σ σ) s = (.ok s, s) := rfl

@[simp] theorem eval_set (s t : σ) : eval (set t : Access σ Unit) s = (.ok (), t) := rfl

@[simp] theorem eval_liftM (r : Except Error α) (s : σ) :
    eval (liftM r : Access σ α) s = (r, s) := rfl

theorem eval_bind (x : Access σ α) (f : α → Access σ β) (s : σ) :
    eval (x >>= f) s =
      match eval x s with
      | (.ok a, t) => eval (f a) t
      | (.error e, t) => (.error e, t) := by
  simp only [eval, ExceptT.run_bind, StateT.run_bind, Id.run_bind]
  rcases Id.run (StateT.run (ExceptT.run x) s) with ⟨_ | a, t⟩ <;> rfl

theorem liftM_ok_bind (a : α) (f : α → Access σ β) :
    (liftM (.ok a : Except Error α) : Access σ α) >>= f = f a := rfl

theorem eval_tryCatch (x : Access σ α) (f : Error → Access σ α) (s : σ) :
    eval (tryCatch x f) s =
      match eval x s with
      | (.ok a, t) => (.ok a, t)
      | (.error e, t) => eval (f e) t := by
  unfold eval ExceptT.run StateT.run Id.run
  simp only [tryCatch, tryCatchThe, MonadExceptOf.tryCatch, ExceptT.tryCatch, ExceptT.mk, bind,
    StateT.bind]
  rcases x s with ⟨_ | a, t⟩ <;> rfl

/-- A failure is a result of an attempt. -/
theorem eval_attempt (x : Access σ α) (s : σ) :
    eval (attempt x) s = (.ok (eval x s).1, (eval x s).2) := by
  rw [attempt, eval_tryCatch, ← bind_pure_comp, eval_bind]
  rcases eval x s with ⟨e | a, t⟩ <;> rfl

/-- A list of accesses that give the results of `f` and keep an invariant. -/
theorem eval_mapM {x : α → Access σ β} {f : α → Except Error β} (inv : σ → Prop)
    {items : List α}
    (h : ∀ a ∈ items, ∀ s, inv s → ∃ t, inv t ∧ eval (x a) s = (f a, t)) :
    ∀ s, inv s → ∃ t, inv t ∧ eval (items.mapM x) s = (items.mapM f, t) := by
  induction items with
  | nil => exact fun s hs => ⟨s, hs, rfl⟩
  | cons a rest ih =>
    intro s hs
    obtain ⟨t, ht, ha⟩ := h a List.mem_cons_self s hs
    rw [List.mapM_cons, List.mapM_cons, eval_bind, ha]
    cases f a with
    | error e => exact ⟨t, ht, rfl⟩
    | ok b =>
      obtain ⟨u, hu, hrest⟩ := ih (fun x hx => h x (List.mem_cons_of_mem a hx)) t ht
      refine ⟨u, hu, ?_⟩
      simp only [eval_bind, hrest]
      cases rest.mapM f <;> rfl

/-- The access succeeds from `s` with the value `a` and ends in `t`. -/
def Yields (x : Access σ α) (s : σ) (a : α) (t : σ) : Prop := eval x s = (.ok a, t)

instance [DecidableEq σ] [DecidableEq α] (x : Access σ α) (s : σ) (a : α) (t : σ) :
    Decidable (Yields x s a t) :=
  inferInstanceAs (Decidable (eval x s = (.ok a, t)))

theorem Yields.unique {x : Access σ α} {s t t' : σ} {a a' : α} (h : Yields x s a t)
    (h' : Yields x s a' t') : a = a' ∧ t = t' := by
  rw [Yields, h, Prod.mk.injEq, Except.ok.injEq] at h'
  exact h'

@[simp] theorem yields_pure {a b : α} {s t : σ} :
    Yields (pure a) s b t ↔ a = b ∧ s = t := by
  simp [Yields]

@[simp] theorem yields_throw {e : Error} {a : α} {s t : σ} :
    ¬ Yields (throw e) s a t := by
  simp [Yields]

@[simp] theorem yields_get {a s t : σ} : Yields get s a t ↔ s = a ∧ s = t := by
  simp [Yields]

@[simp] theorem yields_set {u s t : σ} {a : Unit} : Yields (set u) s a t ↔ u = t := by
  simp [Yields]

@[simp] theorem yields_liftM {r : Except Error α} {a : α} {s t : σ} :
    Yields (liftM r) s a t ↔ r = .ok a ∧ s = t := by
  simp [Yields]

@[simp] theorem yields_bind {x : Access σ α} {f : α → Access σ β} {s u : σ} {b : β} :
    Yields (x >>= f) s b u ↔ ∃ a t, Yields x s a t ∧ Yields (f a) t b u := by
  simp only [Yields, eval_bind]
  rcases eval x s with ⟨e | a, t⟩
  · simp
  · simp only [Prod.mk.injEq, Except.ok.injEq]
    exact ⟨fun h => ⟨a, t, ⟨rfl, rfl⟩, h⟩, by rintro ⟨_, _, ⟨rfl, rfl⟩, h⟩; exact h⟩

/-- A step that succeeds leads to the rest. -/
theorem Yields.eval_bind {x : Access σ α} {s t : σ} {a : α} (h : Yields x s a t)
    (f : α → Access σ β) : eval (x >>= f) s = eval (f a) t := by
  rw [Access.eval_bind, h]

/-- A step whose outcome is known can be left out. -/
theorem Yields.bind_iff {x : Access σ α} {s t : σ} {a : α} (h : Yields x s a t)
    {f : α → Access σ β} {b : β} {u : σ} : Yields (x >>= f) s b u ↔ Yields (f a) t b u := by
  rw [yields_bind]
  constructor
  · rintro ⟨a', t', hx, hf⟩
    obtain ⟨rfl, rfl⟩ := h.unique hx
    exact hf
  · exact fun hf => ⟨a, t, h, hf⟩

/-- An attempt succeeds, and its result says how the access ends. -/
theorem yields_attempt {x : Access σ α} {r : Except Error α} {s t : σ} :
    Yields (attempt x) s r t ↔ eval x s = (r, t) := by
  rw [Yields, eval_attempt, Prod.mk.injEq, Except.ok.injEq, Prod.ext_iff]

@[simp] theorem yields_map {x : Access σ α} {f : α → β} {s t : σ} {b : β} :
    Yields (f <$> x) s b t ↔ ∃ a, Yields x s a t ∧ f a = b := by
  rw [← bind_pure_comp, yields_bind]
  constructor
  · rintro ⟨a, u, hx, hp⟩
    obtain ⟨hb, rfl⟩ := yields_pure.mp hp
    exact ⟨a, hx, hb⟩
  · rintro ⟨a, hx, rfl⟩
    exact ⟨a, t, hx, yields_pure.mpr ⟨rfl, rfl⟩⟩

/-! ### Accesses that only read -/

/-- Whatever comes out, the state is the same. -/
def ReadOnly (x : Access σ α) : Prop := ∀ s, (eval x s).2 = s

theorem ReadOnly.pure (a : α) : ReadOnly (pure a : Access σ α) := fun _ => rfl

theorem ReadOnly.throw (e : Error) : ReadOnly (throw e : Access σ α) := fun _ => rfl

theorem ReadOnly.liftM (r : Except Error α) : ReadOnly (liftM r : Access σ α) := fun _ => rfl

theorem ReadOnly.eval_bind {x : Access σ α} (hx : ReadOnly x) (f : α → Access σ β) (s : σ) :
    eval (x >>= f) s =
      match (eval x s).1 with
      | .ok a => eval (f a) s
      | .error e => (.error e, s) := by
  have hs := hx s
  rw [Access.eval_bind]
  rcases hresult : eval x s with ⟨r, t⟩
  rw [hresult] at hs
  obtain rfl : t = s := hs
  cases r <;> rfl

theorem ReadOnly.bind {x : Access σ α} {f : α → Access σ β} (hx : ReadOnly x)
    (hf : ∀ a, ReadOnly (f a)) : ReadOnly (x >>= f) := by
  intro s
  rw [hx.eval_bind]
  cases (eval x s).1 with
  | ok a => exact hf a s
  | error e => rfl

theorem ReadOnly.map {x : Access σ α} {f : α → β} (hx : ReadOnly x) : ReadOnly (f <$> x) := by
  rw [← bind_pure_comp]
  exact hx.bind fun a => .pure (f a)

theorem ReadOnly.yields {x : Access σ α} (hx : ReadOnly x) {s : σ} {a : α}
    (h : (eval x s).1 = .ok a) : Yields x s a s :=
  Prod.ext h (hx s)

/-! ### Accesses that fail -/

/-- The access fails from `s` and leaves `t`. -/
def Fails (x : Access σ α) (s t : σ) : Prop := ∃ e, eval x s = (.error e, t)

theorem Yields.not_fails {x : Access σ α} {s t u : σ} {a : α} (h : Yields x s a t) :
    ¬ Fails x s u := by
  rintro ⟨e, he⟩
  cases he.symm.trans h

theorem yields_or_fails (x : Access σ α) (s : σ) :
    (∃ a t, Yields x s a t) ∨ ∃ t, Fails x s t := by
  rcases h : eval x s with ⟨e | a, t⟩
  · exact Or.inr ⟨t, e, h⟩
  · exact Or.inl ⟨a, t, h⟩

theorem not_fails_pure {a : α} {s t : σ} : ¬ Fails (pure a) s t := by
  rintro ⟨e, he⟩
  cases he

/-- One of the steps fails, after all steps before it. -/
theorem fails_bind {x : Access σ α} {f : α → Access σ β} {s u : σ} :
    Fails (x >>= f) s u ↔ Fails x s u ∨ ∃ a t, Yields x s a t ∧ Fails (f a) t u := by
  simp only [Fails, Yields, eval_bind]
  rcases eval x s with ⟨e | a, t⟩
  · simp
  · simp

@[simp] theorem fails_map {x : Access σ α} {f : α → β} {s t : σ} :
    Fails (f <$> x) s t ↔ Fails x s t := by
  rw [← bind_pure_comp, fails_bind, or_iff_left]
  rintro ⟨a, u, -, hpure⟩
  exact not_fails_pure hpure

/-- A step that succeeds can be left out. -/
theorem Yields.fails_bind_iff {x : Access σ α} {s t : σ} {a : α} (h : Yields x s a t)
    {f : α → Access σ β} {u : σ} : Fails (x >>= f) s u ↔ Fails (f a) t u := by
  rw [fails_bind, or_iff_right h.not_fails]
  constructor
  · rintro ⟨a', t', hx, hf⟩
    obtain ⟨rfl, rfl⟩ := h.unique hx
    exact hf
  · exact fun hf => ⟨a, t, h, hf⟩

theorem ReadOnly.eq_of_fails {x : Access σ α} (hx : ReadOnly x) {s t : σ} (h : Fails x s t) :
    t = s := by
  obtain ⟨e, he⟩ := h
  exact (congrArg Prod.snd he).symm.trans (hx s)

theorem ReadOnly.eq_of_yields {x : Access σ α} (hx : ReadOnly x) {s t : σ} {a : α}
    (h : Yields x s a t) : t = s :=
  (congrArg Prod.snd h).symm.trans (hx s)

/-- The outcome of an access that reads what `Shows` says unless `Broken`. -/
theorem outcome_of_cases {x : Access σ α} {s : σ} {Shows : α → Prop} {Broken : Prop}
    (hyields : ¬ Broken → ∃ a, x.Yields s a s ∧ Shows a)
    (hbroken : Broken → ∀ a t, ¬ x.Yields s a t)
    (hunique : ∀ a a', Shows a → Shows a' → a = a') (hshows : ∀ a, Shows a → ¬ Broken) :
    ((∃ t, x.Fails s t) ↔ Broken) ∧ ∀ a t, x.Yields s a t ↔ t = s ∧ Shows a := by
  refine ⟨⟨fun ⟨t, hfails⟩ => ?_, fun h => ?_⟩, fun a t => ⟨fun h => ?_, ?_⟩⟩
  · by_contra h
    obtain ⟨a, ha, -⟩ := hyields h
    exact ha.not_fails hfails
  · exact (yields_or_fails x s).resolve_left fun ⟨a, t, ha⟩ => hbroken h a t ha
  · obtain ⟨a', ha', hshown⟩ := hyields fun hb => hbroken hb a t h
    obtain ⟨rfl, rfl⟩ := h.unique ha'
    exact ⟨rfl, hshown⟩
  · rintro ⟨rfl, hshown⟩
    obtain ⟨a', ha', hshown'⟩ := hyields (hshows a hshown)
    rwa [hunique a a' hshown hshown']

/-! ### Invariants of all outcomes -/

/-- Whether it succeeds or fails, the access keeps an invariant. -/
def Preserves (inv : σ → Prop) (x : Access σ α) : Prop := ∀ s, inv s → inv (eval x s).2

variable {inv : σ → Prop}

theorem Preserves.bind {x : Access σ α} {f : α → Access σ β} (hx : Preserves inv x)
    (hf : ∀ a, Preserves inv (f a)) : Preserves inv (x >>= f) := by
  intro s hs
  have ht := hx s hs
  rw [eval_bind]
  rcases hresult : eval x s with ⟨e | a, t⟩
  · rwa [hresult] at ht
  · rw [hresult] at ht
    exact hf a t ht

theorem Preserves.of_fails {x : Access σ α} (hx : Preserves inv x) {s t : σ} (h : Fails x s t)
    (hs : inv s) : inv t := by
  obtain ⟨e, he⟩ := h
  have ht := hx s hs
  rwa [he] at ht

/-! ### Parts of the state -/

section Parts

variable {ι : Type} {part : σ → ι}

/-- Whatever comes out, this part of the state is the same. -/
def Leaves (part : σ → ι) (x : Access σ α) : Prop := ∀ s, part (eval x s).2 = part s

theorem ReadOnly.leaves {x : Access σ α} (hx : ReadOnly x) : Leaves part x :=
  fun s => congrArg part (hx s)

theorem Leaves.bind {x : Access σ α} {f : α → Access σ β} (hx : Leaves part x)
    (hf : ∀ a, Leaves part (f a)) : Leaves part (x >>= f) := by
  intro s
  have ht := hx s
  rw [eval_bind]
  rcases hresult : eval x s with ⟨e | a, t⟩
  · rwa [hresult] at ht
  · rw [hresult] at ht
    exact (hf a t).trans ht

theorem Leaves.map {x : Access σ α} (hx : Leaves part x) (f : α → β) : Leaves part (f <$> x) := by
  rw [← bind_pure_comp]
  exact hx.bind fun a => (ReadOnly.pure (f a)).leaves

theorem Leaves.of_yields {x : Access σ α} (hx : Leaves part x) {s t : σ} {a : α}
    (h : Yields x s a t) : part t = part s := by
  have ht := hx s
  rwa [h] at ht

theorem Leaves.of_fails {x : Access σ α} (hx : Leaves part x) {s t : σ} (h : Fails x s t) :
    part t = part s := by
  obtain ⟨e, he⟩ := h
  have ht := hx s
  rwa [he] at ht

end Parts

/-! ### Two states -/

section Pair

variable {τ : Type}

/-- Runs an access on the first of two states. -/
def onFirst (x : Access σ α) : Access (σ × τ) α := do
  let (s, t) ← get
  let (result, s') := eval x s
  set (s', t)
  liftM result

/-- Runs an access on the second of two states. -/
def onSecond (x : Access τ α) : Access (σ × τ) α := do
  let (s, t) ← get
  let (result, t') := eval x t
  set (s, t')
  liftM result

theorem eval_onFirst (x : Access σ α) (s : σ) (t : τ) :
    eval (onFirst x) (s, t) = ((eval x s).1, ((eval x s).2, t)) := rfl

theorem onFirst_bind (x : Access σ α) (f : α → Access σ β) :
    (onFirst (x >>= f) : Access (σ × τ) β) = onFirst x >>= fun a => onFirst (f a) := by
  funext w
  obtain ⟨s, t⟩ := w
  show eval (onFirst (x >>= f)) (s, t) = eval (onFirst x >>= fun a => onFirst (f a)) (s, t)
  rw [eval_onFirst, eval_bind, eval_bind, eval_onFirst]
  rcases eval x s with ⟨e | a, s'⟩ <;> rfl

theorem onFirst_map (f : α → β) (x : Access σ α) :
    (onFirst (f <$> x) : Access (σ × τ) β) = f <$> onFirst x := by
  rw [← bind_pure_comp, onFirst_bind, ← bind_pure_comp]
  rfl

theorem Yields.onFirst {x : Access σ α} {s s' : σ} {a : α} (h : Yields x s a s') (t : τ) :
    Yields (onFirst x) (s, t) a (s', t) := by
  rw [Yields, eval_onFirst, h]

theorem Yields.of_onFirst {x : Access σ α} {s : σ} {t : τ} {w : σ × τ} {a : α}
    (h : Yields (Access.onFirst x) (s, t) a w) : Yields x s a w.1 := by
  rw [Yields, eval_onFirst] at h
  obtain ⟨hresult, hstate⟩ := Prod.mk.inj h
  exact Prod.ext hresult (congrArg Prod.fst hstate)

theorem Fails.onFirst {x : Access σ α} {s s' : σ} (h : Fails x s s') (t : τ) :
    Fails (Access.onFirst x) (s, t) (s', t) := by
  obtain ⟨e, he⟩ := h
  exact ⟨e, by rw [eval_onFirst, he]⟩

theorem Fails.of_onFirst {x : Access σ α} {s : σ} {t : τ} {w : σ × τ}
    (h : Fails (Access.onFirst x) (s, t) w) : Fails x s w.1 := by
  obtain ⟨e, he⟩ := h
  rw [eval_onFirst] at he
  obtain ⟨hresult, hstate⟩ := Prod.mk.inj he
  exact ⟨e, Prod.ext hresult (congrArg Prod.fst hstate)⟩

theorem ReadOnly.leaves_onFirst {x : Access σ α} (hx : ReadOnly x) :
    Leaves (Prod.fst : σ × τ → σ) (onFirst x) :=
  fun w => hx w.1

theorem leaves_onSecond (x : Access τ α) : Leaves (Prod.fst : σ × τ → σ) (onSecond x) :=
  fun _ => rfl

end Pair

/-! ### Handlers -/

theorem Yields.tryCatch {x : Access σ α} {f : Error → Access σ α} {s t : σ} {a : α}
    (h : Yields x s a t) : Yields (tryCatch x f) s a t := by
  rw [Yields, eval_tryCatch, h]

theorem Fails.tryCatch {x : Access σ α} {f : Error → Access σ α} {s t u : σ} {a : α}
    (h : Fails x s t) (hf : ∀ e, Yields (f e) t a u) : Yields (tryCatch x f) s a u := by
  obtain ⟨e, he⟩ := h
  rw [Yields, eval_tryCatch, he]
  exact hf e

end Access

end TypedMemory
