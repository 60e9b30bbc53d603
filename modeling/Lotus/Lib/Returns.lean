import Lotus.Lib.Act

/-!
# What computations do when they return

A relation between the states before and after a computation that may be broken where it fails.
-/

namespace Act

variable {σ ε ε' α β : Type} {R : σ → σ → Prop} {x : Act σ ε α} {f : α → Act σ ε β}

/-- If the computation returns, the state it leaves is related to the one it started with. -/
def Returns (R : σ → σ → Prop) (x : Act σ ε α) : Prop := ∀ s a s', x s = (.ok a, s') → R s s'

namespace Returns

lemma of_keeps (h : Keeps R x) : Returns R x := fun _ _ _ hrun => h.of_run hrun

lemma fail (e : ε) : Returns R (fail e : Act σ ε α) := fun _ _ _ hrun => by cases hrun

lemma mapError (g : ε → ε') (h : Returns R x) : Returns R (x.mapError g) :=
  fun _ _ _ hrun => h _ _ _ (mapError_eq_ok hrun)

lemma bind [IsTrans σ R] (hx : Returns R x) (hf : ∀ a, Returns R (f a)) : Returns R (x >>= f) := by
  intro s b s' hrun
  obtain ⟨a, s1, hfirst, hrest⟩ := bind_eq_ok hrun
  exact IsTrans.trans _ _ _ (hx s a s1 hfirst) (hf a s1 b s' hrest)

end Returns

end Act
