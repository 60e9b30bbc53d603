import Mathlib

/-!
# Runs

A machine goes from state to state by events.
-/

namespace Runs

variable {σ ε : Type} (step : σ → ε → Option σ)

/-- The state after the events, if each of them can happen. -/
def run (s : σ) (es : List ε) : Option σ := es.foldlM step s

/-- Each of the events happens under the condition `C`, on the event and the state it finds. -/
def Along (C : σ → ε → Prop) : σ → List ε → Prop
  | _, [] => True
  | s, e :: es => C s e ∧ ∀ s' ∈ step s e, Along C s' es

instance decidableAlong (C : σ → ε → Prop) [∀ s e, Decidable (C s e)] :
    ∀ s es, Decidable (Along step C s es)
  | _, [] => isTrue trivial
  | s, e :: es =>
    have := fun s' => decidableAlong C s' es
    inferInstanceAs (Decidable (C s e ∧ ∀ s' ∈ step s e, Along step C s' es))

variable {step} {C D : σ → ε → Prop} {s s' : σ} {e : ε} {es : List ε}

lemma run_cons : run step s (e :: es) = some s' ↔
    ∃ t, step s e = some t ∧ run step t es = some s' := by
  rw [run, List.foldlM_cons]
  exact Option.bind_eq_some_iff

lemma Along.mono (h : Along step C s es) (hCD : ∀ s e, C s e → D s e) : Along step D s es := by
  induction es generalizing s with
  | nil => trivial
  | cons e es ih => exact ⟨hCD s e h.1, fun t ht => ih (h.2 t ht)⟩

lemma invariant {Inv : σ → Prop}
    (hstep : ∀ {s e s'}, Inv s → C s e → step s e = some s' → Inv s') (hs : Inv s)
    (halong : Along step C s es) (hrun : run step s es = some s') : Inv s' := by
  induction es generalizing s with
  | nil =>
    cases hrun
    exact hs
  | cons e es ih =>
    obtain ⟨t, ht, hrest⟩ := run_cons.mp hrun
    exact ih (hstep hs halong.1 ht) (halong.2 t ht) hrest

lemma along_true : Along step (fun _ _ => True) s es := by
  induction es generalizing s with
  | nil => trivial
  | cons e es ih => exact ⟨trivial, fun t _ => ih⟩

lemma Along.of_append {es' : List ε} (h : Along step C s (es ++ es')) : Along step C s es := by
  induction es generalizing s with
  | nil => trivial
  | cons e es ih => exact ⟨h.1, fun t ht => ih (h.2 t ht)⟩

lemma Along.of_append_right {es' : List ε} (h : Along step C s (es ++ es'))
    (hrun : run step s es = some s') : Along step C s' es' := by
  induction es generalizing s with
  | nil =>
    cases hrun
    exact h
  | cons e es ih =>
    obtain ⟨t, ht, hrest⟩ := run_cons.mp hrun
    exact ih (h.2 t ht) hrest

lemma run_map {τ : Type} {step' : τ → ε → Option τ} {f : σ → τ}
    (hstep : ∀ s e, step' (f s) e = (step s e).map f) :
    run step' (f s) es = (run step s es).map f := by
  induction es generalizing s with
  | nil => rfl
  | cons e es ih =>
    rw [run, List.foldlM_cons, hstep, run, List.foldlM_cons]
    cases step s e with
    | none => rfl
    | some t => exact ih

lemma Along.and_mem {P : ε → Prop} (h : Along step C s es) (hP : ∀ e ∈ es, P e) :
    Along step (fun s e => C s e ∧ P e) s es := by
  induction es generalizing s with
  | nil => trivial
  | cons e es ih =>
    obtain ⟨he, hrest⟩ := List.forall_mem_cons.mp hP
    exact ⟨⟨h.1, he⟩, fun t ht => ih (h.2 t ht) hrest⟩

lemma forall_steps {Inv : σ → Prop} {Q : σ → σ → Prop}
    (hstep : ∀ {s e s'}, Inv s → C s e → step s e = some s' → Inv s' ∧ Q s s') (hs : Inv s)
    {pre post : List ε} (halong : Along step C s (pre ++ e :: post)) {t t' : σ}
    (hpre : run step s pre = some t) (ht : step t e = some t') : Q t t' := by
  have hinv : Inv t := invariant (fun hs hC ht => (hstep hs hC ht).1) hs halong.of_append hpre
  exact (hstep hinv (halong.of_append_right hpre).1 ht).2

lemma along_iff {Inv P : σ → Prop} (hP : ∀ {s}, Inv s → P s)
    (hstep : ∀ {s e s'}, Inv s → C s e → step s e = some s' → Inv s')
    (hbreaks : ∀ {s e s'}, Inv s → ¬C s e → step s e = some s' → ¬P s') (hs : Inv s)
    (hrun : run step s es = some s') :
    (∀ pre post t, es = pre ++ post → run step s pre = some t → P t) ↔ Along step C s es := by
  constructor
  · intro h
    induction es generalizing s with
    | nil => trivial
    | cons e es ih =>
      obtain ⟨t, ht, hrest⟩ := run_cons.mp hrun
      have hC : C s e := by
        by_contra hnot
        exact hbreaks hs hnot ht (h [e] es t rfl (run_cons.mpr ⟨t, ht, rfl⟩))
      refine ⟨hC, fun t' ht' => ?_⟩
      cases ht.symm.trans ht'
      refine ih (hstep hs hC ht) hrest fun pre post u heq hu => ?_
      exact h (e :: pre) post u (congrArg (e :: ·) heq) (run_cons.mpr ⟨t, ht, hu⟩)
  · rintro h pre post t rfl ht
    exact hP (invariant hstep hs h.of_append ht)

end Runs
