import Lotus.Lib.Check

/-!
# Computations in an environment that can fail

`Faulty Op ε α` is a computation that performs operations of its environment.
-/

/-- A computation over an environment with the operations `Op`, given the faults. -/
def Faulty (Op ε α : Type) : Type := (Op → Option ε) → Except ε α × List Op

namespace Faulty

variable {Op ε α β : Type}

instance : Monad (Faulty Op ε) where
  pure a := fun _ => (.ok a, [])
  bind x f := fun faults =>
    match x faults with
    | (.ok a, ops) => ((f a faults).1, ops ++ (f a faults).2)
    | (.error e, ops) => (.error e, ops)

/-- A computation that does not touch the environment. -/
def ofExcept (r : Except ε α) : Faulty Op ε α := fun _ => (r, [])

def mapError (f : ε → ε) (x : Faulty Op ε α) : Faulty Op ε α :=
  fun faults => ((x faults).1.mapError f, (x faults).2)

/-- Get the outcome of `x` by the operation `o`. -/
def await (o : Op) (x : Faulty Op ε α) : Faulty Op ε α := fun faults =>
  (match faults o with
    | some e => .error e
    | none => (x faults).1,
    (x faults).2 ++ [o])

def perform (o : Op) (r : Except ε α) : Faulty Op ε α := (ofExcept r).await o

def collect (append : ε → ε → ε) (xs : List (Faulty Op ε Unit)) : Faulty Op ε Unit := fun faults =>
  (Check.collect append none (xs.map fun x => (x faults).1), xs.flatMap fun x => (x faults).2)

def outcome (x : Faulty Op ε α) : Except ε α := (x fun _ => none).1

def operations (x : Faulty Op ε α) : List Op := (x fun _ => none).2

/-! ## Undisturbed runs -/

@[simp] lemma outcome_ofExcept (r : Except ε α) : (ofExcept r : Faulty Op ε α).outcome = r := rfl

@[simp] lemma outcome_mapError (f : ε → ε) (x : Faulty Op ε α) :
    (x.mapError f).outcome = x.outcome.mapError f := rfl

@[simp] lemma outcome_await (o : Op) (x : Faulty Op ε α) : (x.await o).outcome = x.outcome := rfl

@[simp] lemma outcome_perform (o : Op) (r : Except ε α) : (perform o r).outcome = r := rfl

@[simp] lemma outcome_collect (append : ε → ε → ε) (xs : List (Faulty Op ε Unit)) :
    (collect append xs).outcome = Check.collect append none (xs.map outcome) := rfl

variable {f : α → Faulty Op ε β} {faults : Op → Option ε}

lemma bind_of_ok {x : Faulty Op ε α} {a : α} {ops : List Op} (h : x faults = (.ok a, ops)) :
    (x >>= f) faults = ((f a faults).1, ops ++ (f a faults).2) := by
  show (match x faults with
    | (.ok a, ops) => ((f a faults).1, ops ++ (f a faults).2)
    | (.error e, ops) => (.error e, ops)) = _
  rw [h]

lemma bind_of_error {x : Faulty Op ε α} {e : ε} {ops : List Op} (h : x faults = (.error e, ops)) :
    (x >>= f) faults = (.error e, ops) := by
  show (match x faults with
    | (.ok a, ops) => ((f a faults).1, ops ++ (f a faults).2)
    | (.error e, ops) => (.error e, ops)) = _
  rw [h]

@[simp] lemma outcome_bind (x : Faulty Op ε α) (f : α → Faulty Op ε β) :
    (x >>= f).outcome = x.outcome >>= fun a => (f a).outcome := by
  unfold outcome
  rcases hx : x fun _ => none with ⟨e | a, ops⟩
  · rw [bind_of_error hx]
    rfl
  · rw [bind_of_ok hx]
    rfl

@[simp] lemma outcome_ite (c : Prop) [Decidable c] (x y : Faulty Op ε α) :
    (if c then x else y).outcome = if c then x.outcome else y.outcome := apply_ite outcome c x y

/-! ## Faults that show -/

/-- Faults in the operations of the undisturbed run end the computation with an error in `P`, and
no others change it. -/
structure Exposed (P : ε → Prop) (x : Faulty Op ε α) : Prop where
  eq_of_missed {faults : Op → Option ε} : (∀ o ∈ x.operations, faults o = none) →
    x faults = x fun _ => none
  error_of_hit {faults : Op → Option ε} : (∀ o, ∀ e ∈ faults o, P e) →
    (∃ o ∈ x.operations, faults o ≠ none) → ∃ e, (x faults).1 = .error e ∧ P e

namespace Exposed

variable {P : ε → Prop} {x : Faulty Op ε α}

lemma pure (a : α) : Exposed P (Pure.pure a : Faulty Op ε α) where
  eq_of_missed _ := rfl
  error_of_hit _ := fun ⟨_, ho, _⟩ => absurd ho List.not_mem_nil

lemma ofExcept (r : Except ε α) : Exposed P (Faulty.ofExcept r : Faulty Op ε α) where
  eq_of_missed _ := rfl
  error_of_hit _ := fun ⟨_, ho, _⟩ => absurd ho List.not_mem_nil

lemma mapError {f : ε → ε} (h : Exposed P x) (hf : ∀ e, P e → P (f e)) :
    Exposed P (x.mapError f) where
  eq_of_missed hmissed := by
    rw [Faulty.mapError, h.eq_of_missed hmissed]
    rfl
  error_of_hit hfaults hhit := by
    obtain ⟨e, he, hP⟩ := h.error_of_hit hfaults hhit
    refine ⟨f e, ?_, hf e hP⟩
    rw [Faulty.mapError, he]
    rfl

lemma await (h : Exposed P x) (o : Op) : Exposed P (x.await o) where
  eq_of_missed {faults} hmissed := by
    obtain ⟨hx, ho⟩ := List.forall_mem_append.mp hmissed
    rw [Faulty.await, ho o (List.mem_singleton_self o), h.eq_of_missed hx]
    rfl
  error_of_hit {faults} hfaults hhit := by
    unfold Faulty.await
    rcases ho : faults o with - | e
    · obtain ⟨o', ho', hne⟩ := hhit
      rcases List.mem_append.mp ho' with hmem | hmem
      · exact h.error_of_hit hfaults ⟨o', hmem, hne⟩
      · grind
    · exact ⟨e, rfl, hfaults o e ho⟩

lemma perform (o : Op) (r : Except ε α) : Exposed P (Faulty.perform o r) := (ofExcept r).await o

lemma bind (hx : Exposed P x) (hf : ∀ a, Exposed P (f a)) : Exposed P (x >>= f) := by
  have hfirst : ∀ {faults : Op → Option ε}, (∀ o, ∀ e ∈ faults o, P e) →
      (∃ o ∈ x.operations, faults o ≠ none) → ∃ e, ((x >>= f) faults).1 = .error e ∧ P e := by
    intro faults hfaults hhit
    obtain ⟨e, he, hP⟩ := hx.error_of_hit hfaults hhit
    exact ⟨e, congrArg Prod.fst (bind_of_error (Prod.ext he rfl)), hP⟩
  rcases hclean : x fun _ => none with ⟨e | a, ops⟩
  · have hops : (x >>= f).operations = x.operations := by
      rw [operations, operations, bind_of_error hclean, hclean]
    refine ⟨fun hmissed => ?_, fun hfaults hhit => hfirst hfaults (hops ▸ hhit)⟩
    rw [bind_of_error ((hx.eq_of_missed (hops ▸ hmissed)).trans hclean), bind_of_error hclean]
  · have hops : (x >>= f).operations = x.operations ++ (f a).operations := by
      rw [operations, operations, bind_of_ok hclean, hclean]
      rfl
    constructor
    · intro faults hmissed
      rw [hops] at hmissed
      obtain ⟨hmissed, hmissed'⟩ := List.forall_mem_append.mp hmissed
      rw [bind_of_ok ((hx.eq_of_missed hmissed).trans hclean), bind_of_ok hclean,
        (hf a).eq_of_missed hmissed']
    · intro faults hfaults hhit
      by_cases hhit' : ∃ o ∈ x.operations, faults o ≠ none
      · exact hfirst hfaults hhit'
      · -- the second step is reached as it is without the faults
        push Not at hhit'
        obtain ⟨o, ho, hne⟩ := hhit
        rw [hops] at ho
        have ho' : o ∈ (f a).operations :=
          (List.mem_append.mp ho).resolve_left fun h => hne (hhit' o h)
        rw [bind_of_ok ((hx.eq_of_missed hhit').trans hclean)]
        exact (hf a).error_of_hit hfaults ⟨o, ho', hne⟩

lemma ite {c : Prop} [Decidable c] {y : Faulty Op ε α} (hx : Exposed P x) (hy : Exposed P y) :
    Exposed P (if c then x else y) := by
  grind

lemma error (h : Exposed P x) (hx : ∀ e, x.outcome = .error e → P e)
    (hfaults : ∀ o, ∀ e ∈ faults o, P e) {e : ε} (he : (x faults).1 = .error e) : P e := by
  by_cases hhit : ∃ o ∈ x.operations, faults o ≠ none
  · obtain ⟨e', he', hP⟩ := h.error_of_hit hfaults hhit
    cases he.symm.trans he'
    exact hP
  · push Not at hhit
    rw [h.eq_of_missed hhit] at he
    exact hx e he

lemma collect {append : ε → ε → ε} (happend : ∀ e e', P e → P e' → P (append e e'))
    {xs : List (Faulty Op ε Unit)} (hxs : ∀ x ∈ xs, Exposed P x)
    (herrors : ∀ x ∈ xs, ∀ e, x.outcome = .error e → P e) :
    Exposed P (Faulty.collect append xs) where
  eq_of_missed {faults} hmissed := by
    have hx : ∀ x ∈ xs, x faults = x fun _ => none := fun x hx => (hxs x hx).eq_of_missed
      fun o ho => hmissed o (List.mem_flatMap.mpr ⟨x, hx, ho⟩)
    unfold Faulty.collect
    rw [List.map_congr_left fun x h => congrArg Prod.fst (hx x h),
      List.flatMap_congr fun x h => congrArg Prod.snd (hx x h)]
  error_of_hit {faults} hfaults hhit := by
    obtain ⟨o, ho, hne⟩ := hhit
    obtain ⟨x, hx, ho⟩ := List.mem_flatMap.mp ho
    obtain ⟨e, he, -⟩ := (hxs x hx).error_of_hit hfaults ⟨o, ho, hne⟩
    rcases hall : (Faulty.collect append xs faults).1 with e' | u
    · have hnone : ∀ e ∈ (none : Option ε), P e := fun e h => absurd h (Option.not_mem_none e)
      refine ⟨e', rfl, Check.collect_error happend ?_ hnone hall⟩
      intro c hc e hce
      obtain ⟨y, hy, rfl⟩ := List.mem_map.mp hc
      exact (hxs y hy).error (herrors y hy) hfaults hce
    · have hok := Check.collect_eq_ok.mp hall _ (List.mem_map_of_mem hx)
      cases he.symm.trans hok

end Exposed

end Faulty
