import Mathlib

/-!
# Checks

A check is an `Except ε Unit`, and a computation with checks in it is an `Except ε α`.
-/

namespace Check

variable {ε ε' α β : Type}

variable {f : α → Except ε β} {x : Except ε α}

lemma bind_eq_ok {b : β} : (x >>= f) = .ok b ↔ ∃ a, x = .ok a ∧ f a = .ok b := by
  cases x <;> simp [bind, Except.bind]

lemma bind_eq_error {e : ε} :
    (x >>= f) = .error e ↔ x = .error e ∨ ∃ a, x = .ok a ∧ f a = .error e := by
  cases x <;> simp [bind, Except.bind]

lemma mapError_eq_ok {f : ε → ε'} {a : α} : x.mapError f = .ok a ↔ x = .ok a := by
  rcases x with e | b
  · exact ⟨fun h => (by cases h), fun h => (by cases h)⟩
  · exact ⟨fun h => by cases h; rfl, fun h => by cases h; rfl⟩

lemma mapM_eq_ok {l : List α} {bs : List β} :
    l.mapM f = .ok bs ↔ List.Forall₂ (fun a b => f a = .ok b) l bs := by
  induction l generalizing bs with
  | nil => simp [pure, Except.pure, eq_comm]
  | cons a l ih =>
    rw [List.mapM_cons]
    simp [bind_eq_ok, ih, List.forall₂_cons_left_iff, pure, Except.pure, @eq_comm _ bs]

/-- A list of computations fails as the first one that does. -/
lemma mapM_eq_error {l : List α} {e : ε} :
    l.mapM f = .error e ↔ ∃ pre a post, l = pre ++ a :: post ∧
      (∀ x ∈ pre, ∃ b, f x = .ok b) ∧ f a = .error e := by
  induction l with
  | nil => simp [pure, Except.pure]
  | cons a l ih =>
    simp only [List.mapM_cons, bind_eq_error, ih]
    constructor
    · rintro (ha | ⟨b, hb, ⟨pre, x, post, rfl, hpre, hx⟩ | ⟨bs, -, h⟩⟩)
      · exact ⟨[], a, l, rfl, by simp, ha⟩
      · exact ⟨a :: pre, x, post, rfl, List.forall_mem_cons.mpr ⟨⟨b, hb⟩, hpre⟩, hx⟩
      · cases h
    · rintro ⟨_ | ⟨y, pre⟩, x, post, hl, hpre, hx⟩ <;> cases hl
      · exact .inl hx
      · obtain ⟨⟨b, hb⟩, hpre⟩ := List.forall_mem_cons.mp hpre
        exact .inr ⟨b, hb, .inl ⟨pre, x, post, rfl, hpre, hx⟩⟩

/-! Whether a computation succeeds, and with what, is decided by running it. -/

instance decidableOk (x : Except ε α) : Decidable (∃ a, x = .ok a) :=
  match x with
  | .ok a => isTrue ⟨a, rfl⟩
  | .error _ => isFalse nofun

instance decidableOkAnd (x : Except ε α) (p : α → Prop) [DecidablePred p] :
    Decidable (∃ a, x = .ok a ∧ p a) :=
  match x with
  | .ok a => decidable_of_iff (p a) ⟨fun h => ⟨a, rfl, h⟩, fun ⟨_, ha, h⟩ => Except.ok.inj ha ▸ h⟩
  | .error _ => isFalse nofun

instance decidableErrorAnd (x : Except ε α) (p : ε → Prop) [DecidablePred p] :
    Decidable (∃ e, x = .error e ∧ p e) :=
  match x with
  | .ok _ => isFalse nofun
  | .error e => decidable_of_iff (p e)
      ⟨fun h => ⟨e, rfl, h⟩, fun ⟨_, he, h⟩ => Except.error.inj he ▸ h⟩

instance decidableSomeAnd (x : Except ε (Option α)) (p : α → Prop) [DecidablePred p] :
    Decidable (∃ a, x = .ok (some a) ∧ p a) :=
  match x with
  | .ok (some a) => decidable_of_iff (p a)
      ⟨fun h => ⟨a, rfl, h⟩, fun ⟨_, ha, h⟩ => Option.some.inj (Except.ok.inj ha) ▸ h⟩
  | .ok none => isFalse nofun
  | .error _ => isFalse nofun

def require (c : Prop) [Decidable c] (err : ε) : Except ε Unit := if c then .ok () else .error err

lemma require_eq_ok {c : Prop} [Decidable c] {err : ε} {u : Unit} : require c err = .ok u ↔ c := by
  unfold require
  simp

/-- All the checks are made, and the errors are appended to `acc`. -/
def collect (append : ε → ε → ε) : Option ε → List (Except ε Unit) → Except ε Unit
  | none, [] => .ok ()
  | some errs, [] => .error errs
  | acc, .ok () :: checks => collect append acc checks
  | none, .error err :: checks => collect append (some err) checks
  | some errs, .error err :: checks => collect append (some (append errs err)) checks

lemma collect_some_ne_ok (append : ε → ε → ε) (errs : ε) (checks : List (Except ε Unit)) :
    collect append (some errs) checks ≠ .ok () := by
  induction checks generalizing errs with
  | nil => exact fun h => by cases h
  | cons c checks ih =>
    rcases c with err | u
    · exact ih _
    · exact ih errs

variable {checks : List (Except ε Unit)}

lemma collect_eq_ok {append : ε → ε → ε} :
    collect append none checks = .ok () ↔ ∀ c ∈ checks, c = .ok () := by
  induction checks with
  | nil => simp [collect]
  | cons c checks ih =>
    rcases c with err | u
    · simp [collect, collect_some_ne_ok]
    · simp [collect, ih]

lemma collect_error {append : ε → ε → ε} {P : ε → Prop}
    (happend : ∀ e e', P e → P e' → P (append e e'))
    (hchecks : ∀ c ∈ checks, ∀ e, c = .error e → P e) {acc : Option ε} (hacc : ∀ e ∈ acc, P e)
    {e : ε} (h : collect append acc checks = .error e) : P e := by
  induction checks generalizing acc with
  | nil => cases acc <;> simp_all [collect]
  | cons c checks ih =>
    obtain ⟨hc, hrest⟩ := List.forall_mem_cons.mp hchecks
    cases c <;> cases acc <;> refine ih hrest ?_ h <;> simp_all

end Check
