import Mathlib

/-!
# Stateful computations that can fail

`Act σ ε α` is a computation over a mutable state `σ` that ends with a value or with an error.
-/

/-- A computation over the state `σ` that returns an `α` or fails with an `ε`. -/
def Act (σ ε α : Type) : Type := σ → Except ε α × σ

namespace Act

variable {σ τ ε ε' α β : Type}

instance : Monad (Act σ ε) where
  pure a := fun s => (.ok a, s)
  bind x f := fun s =>
    match x s with
    | (.ok a, s') => f a s'
    | (.error e, s') => (.error e, s')

def fail (e : ε) : Act σ ε α := fun s => (.error e, s)

/-- Read the state. -/
def get : Act σ ε σ := fun s => (.ok s, s)

/-- Change the state. -/
def modify (f : σ → σ) : Act σ ε Unit := fun s => (.ok (), f s)

/-- Return a value, or fail with the error it is. -/
def ofExcept (r : Except ε α) : Act σ ε α := fun s => (r, s)

/-- Hand the outcome over as a value: the caller looks at the error itself. -/
def attempt (x : Act σ ε α) : Act σ ε' (Except ε α) := fun s => (.ok (x s).1, (x s).2)

def mapError (f : ε → ε') (x : Act σ ε α) : Act σ ε' α := fun s => ((x s).1.mapError f, (x s).2)

/-- Run `y` after `x` however `x` ends, and end as `x` did. -/
def ensure (x : Act σ ε α) (y : Act σ ε' β) : Act σ ε α := fun s => ((x s).1, (y (x s).2).2)

/-- Run a computation on a component of the state. -/
def zoom (get : σ → τ) (set : σ → τ → σ) (x : Act τ ε α) : Act σ ε α :=
  fun s => ((x (get s)).1, set s (x (get s)).2)

@[simp] lemma pure_apply (a : α) (s : σ) : (pure a : Act σ ε α) s = (.ok a, s) := rfl

@[simp] lemma fail_apply (e : ε) (s : σ) : (fail e : Act σ ε α) s = (.error e, s) := rfl

@[simp] lemma get_apply (s : σ) : (get : Act σ ε σ) s = (.ok s, s) := rfl

@[simp] lemma modify_apply (f : σ → σ) (s : σ) : (modify f : Act σ ε Unit) s = (.ok (), f s) := rfl

@[simp] lemma ofExcept_apply (r : Except ε α) (s : σ) : (ofExcept r : Act σ ε α) s = (r, s) := rfl

@[simp] lemma attempt_apply (x : Act σ ε α) (s : σ) :
    (x.attempt : Act σ ε' _) s = (.ok (x s).1, (x s).2) := rfl

@[simp] lemma mapError_apply (f : ε → ε') (x : Act σ ε α) (s : σ) :
    x.mapError f s = ((x s).1.mapError f, (x s).2) := rfl

@[simp] lemma ensure_apply (x : Act σ ε α) (y : Act σ ε' β) (s : σ) :
    x.ensure y s = ((x s).1, (y (x s).2).2) := rfl

@[simp] lemma zoom_apply (get : σ → τ) (set : σ → τ → σ) (x : Act τ ε α) (s : σ) :
    x.zoom get set s = ((x (get s)).1, set s (x (get s)).2) := rfl

lemma bind_apply (x : Act σ ε α) (f : α → Act σ ε β) (s : σ) : (x >>= f) s =
      match x s with
      | (.ok a, s') => f a s'
      | (.error e, s') => (.error e, s') := rfl

variable {x : Act σ ε α} {f : α → Act σ ε β} {s s' : σ} {a : α}

lemma bind_of_ok (h : x s = (.ok a, s')) : (x >>= f) s = f a s' := by
  rw [bind_apply, h]

lemma bind_of_error {e : ε} (h : x s = (.error e, s')) : (x >>= f) s = (.error e, s') := by
  rw [bind_apply, h]

lemma fst_bind (x : Act σ ε α) (f : α → Act σ ε β) (s : σ) :
    ((x >>= f) s).1 = (x s).1 >>= fun a => (f a (x s).2).1 := by
  rcases hx : x s with ⟨e | a, s'⟩
  · rw [bind_of_error hx]
    rfl
  · rw [bind_of_ok hx]
    rfl

lemma mapError_of_ok {f : ε → ε'} (h : x s = (.ok a, s')) : x.mapError f s = (.ok a, s') := by
  rw [mapError_apply, h]
  rfl

lemma mapError_of_error {f : ε → ε'} {e : ε} (h : x s = (.error e, s')) :
    x.mapError f s = (.error (f e), s') := by
  rw [mapError_apply, h]
  rfl

lemma mapError_eq_ok {f : ε → ε'} (h : x.mapError f s = (.ok a, s')) : x s = (.ok a, s') := by
  rcases hx : x s with ⟨e | b, s''⟩ <;> grind [mapError_of_error, mapError_of_ok]

variable {r : Except ε α}

lemma ofExcept_of_ok (h : r = .ok a) (s : σ) : (ofExcept r : Act σ ε α) s = (.ok a, s) := by
  rw [ofExcept_apply, h]

lemma ofExcept_eq_ok (h : (ofExcept r : Act σ ε α) s = (.ok a, s')) : r = .ok a ∧ s' = s := by
  cases h
  exact ⟨rfl, rfl⟩

lemma exists_of_isOk (h : r.isOk = true) : ∃ a, r = .ok a := by
  rcases r with e | a
  · cases h
  · exact ⟨a, rfl⟩

lemma bind_eq_ok {s'' : σ} {b : β} (h : (x >>= f) s = (.ok b, s'')) :
    ∃ a s', x s = (.ok a, s') ∧ f a s' = (.ok b, s'') := by
  rcases hx : x s with ⟨e | a, s'⟩ <;> grind [bind_of_error, bind_of_ok]

lemma bind_eq_error {s'' : σ} {e : ε} (h : (x >>= f) s = (.error e, s'')) :
    x s = (.error e, s'') ∨ ∃ a s', x s = (.ok a, s') ∧ f a s' = (.error e, s'') := by
  rcases hx : x s with ⟨e' | a, s'⟩
  · grind [bind_of_error]
  · grind [bind_of_ok]

lemma bind_ne_error {e : ε} (hx : (x s).1 ≠ .error e)
    (hf : ∀ a s', x s = (.ok a, s') → (f a s').1 ≠ .error e) :
    ((x >>= f) s).1 ≠ .error e := by
  rcases h : x s with ⟨e' | a, s'⟩ <;> grind [bind_of_error, bind_of_ok]

/-- If `x` succeeds, the state that it leaves satisfies `P`. -/
def After (x : Act σ ε α) (P : σ → Prop) (s : σ) : Prop := (x s).1.isOk = true → P (x s).2

instance (x : Act σ ε α) (P : σ → Prop) [DecidablePred P] (s : σ) : Decidable (x.After P s) :=
  inferInstanceAs (Decidable (_ → _))

variable {P : σ → Prop}

lemma After.of_run (h : x.After P s) (hrun : x s = (.ok a, s')) : P s' := by
  unfold After at h
  rw [hrun] at h
  exact h rfl

lemma snd_bind (hx : P (x s).2) (hf : ∀ a s', x s = (.ok a, s') → P s' → P (f a s').2) :
    P ((x >>= f) s).2 := by
  rcases h : x s with ⟨e | a, s'⟩ <;> grind [bind_of_error, bind_of_ok]

lemma forM_cons (f : τ → Act σ ε Unit) (t : τ) (ts : List τ) :
    (t :: ts).forM f = f t >>= fun _ => ts.forM f := rfl

lemma snd_forM {f : τ → Act σ ε Unit} (hf : ∀ t {s}, P s → P (f t s).2) (ts : List τ) (hs : P s) :
    P (ts.forM f s).2 := by
  induction ts generalizing s with
  | nil => exact hs
  | cons t ts ih =>
    show P ((f t >>= fun _ => ts.forM f) s).2
    exact snd_bind (hf t hs) fun _ _ _ => ih

/-! ## Relations kept by a computation -/

/-- What held before holds after. -/
def Preserves (P : σ → Prop) (s s' : σ) : Prop := P s → P s'

instance (P : σ → Prop) : Std.Refl (Preserves P) := ⟨fun _ => id⟩

instance (P : σ → Prop) : IsTrans σ (Preserves P) := ⟨fun _ _ _ h h' => h' ∘ h⟩

/-- However `x` ends, the state it leaves is related to the state it started from. -/
def Keeps (R : σ → σ → Prop) (x : Act σ ε α) : Prop := ∀ s, R s (x s).2

namespace Keeps

variable {R : σ → σ → Prop}

lemma of_run (h : Keeps R x) (hrun : x s = (r, s')) : R s s' := by
  have hkeeps := h s
  rwa [hrun] at hkeeps

lemma pure [Std.Refl R] (a : α) : Keeps R (pure a : Act σ ε α) := fun s => Std.Refl.refl s

lemma fail [Std.Refl R] (e : ε) : Keeps R (fail e : Act σ ε α) := fun s => Std.Refl.refl s

lemma get [Std.Refl R] : Keeps R (get : Act σ ε σ) := fun s => Std.Refl.refl s

lemma ofExcept [Std.Refl R] (r : Except ε α) : Keeps R (ofExcept r : Act σ ε α) :=
  fun s => Std.Refl.refl s

lemma modify {f : σ → σ} (h : ∀ s, R s (f s)) : Keeps R (modify f : Act σ ε Unit) := h

lemma attempt (h : Keeps R x) : Keeps R (x.attempt : Act σ ε' _) := h

lemma mapError (f : ε → ε') (h : Keeps R x) : Keeps R (x.mapError f) := h

lemma bind_at [IsTrans σ R] (hx : R s (x s).2)
    (hf : ∀ a s', x s = (.ok a, s') → R s' (f a s').2) : R s ((x >>= f) s).2 := by
  rcases h : x s with ⟨e | a, s'⟩
  · rw [h] at hx
    rwa [bind_of_error h]
  · rw [h] at hx
    rw [bind_of_ok h]
    exact IsTrans.trans _ _ _ hx (hf a s' h)

lemma bind [IsTrans σ R] (hx : Keeps R x) (hf : ∀ a, Keeps R (f a)) : Keeps R (x >>= f) :=
  fun s => bind_at (hx s) fun a s' _ => hf a s'

lemma forM_mem [Std.Refl R] [IsTrans σ R] {f : τ → Act σ ε Unit} {ts : List τ}
    (hf : ∀ t ∈ ts, Keeps R (f t)) : Keeps R (ts.forM f) := by
  induction ts with
  | nil => exact Keeps.pure ()
  | cons t ts ih => simp_all [Keeps.bind]

lemma forM [Std.Refl R] [IsTrans σ R] {f : τ → Act σ ε Unit} (hf : ∀ t, Keeps R (f t))
    (ts : List τ) : Keeps R (ts.forM f) :=
  forM_mem fun t _ => hf t

lemma foldlM [Std.Refl R] [IsTrans σ R] {f : α → τ → Act σ ε α} (hf : ∀ a t, Keeps R (f a t))
    (a : α) (ts : List τ) : Keeps R (ts.foldlM f a) := by
  induction ts generalizing a with
  | nil => exact Keeps.pure a
  | cons t ts ih => grind [Keeps.bind]

lemma forM_each [Std.Refl R] [IsTrans σ R] {f : τ → Act σ ε Unit} {I : σ → Prop}
    {Q : τ → σ → Prop} (hf : ∀ t, Keeps R (f t)) (hI : ∀ {s s'}, R s s' → I s → I s')
    (hQ : ∀ {t s s'}, R s s' → Q t s → Q t s')
    (hstep : ∀ {t s s'}, I s → f t s = (.ok (), s') → Q t s') {ts : List τ} (hs : I s)
    (hrun : ts.forM f s = (.ok (), s')) : ∀ t ∈ ts, Q t s' := by
  induction ts generalizing s with
  | nil => exact nofun
  | cons t ts ih =>
    obtain ⟨_, s1, hone, hrest⟩ := bind_eq_ok hrun
    refine List.forall_mem_cons.mpr ⟨?_, ih (hI ((hf t).of_run hone) hs) hrest⟩
    exact hQ ((Keeps.forM hf ts).of_run hrest) (hstep hs hone)

lemma ite {c : Prop} [Decidable c] {y : Act σ ε α} (hx : c → Keeps R x) (hy : ¬c → Keeps R y) :
    Keeps R (if c then x else y) := by
  grind

end Keeps

end Act
