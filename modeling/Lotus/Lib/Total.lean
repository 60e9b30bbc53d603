import Mathlib

/-!
# Totals over finite maps

The sum of a quantity over the values of a map with finitely many entries, and how it changes when
one entry changes.
-/

namespace Total

variable {K V M : Type*} [AddCommGroup M]

/-- The sum of `f` over the values of `m`. -/
noncomputable def total (f : V → M) (m : K → Option V) : M := ∑ᶠ k, (m k).elim 0 f

variable [DecidableEq K]

lemma finite_update {m : K → Option V} (hm : {k | m k ≠ none}.Finite) (k : K) (w : Option V) :
    {j | Function.update m k w j ≠ none}.Finite := by
  refine (hm.insert k).subset fun j hj => ?_
  by_cases hjk : j = k
  · exact Or.inl hjk
  · grind

/-- Changing one entry changes the total by the difference of that entry. -/
lemma total_update (f : V → M) {m : K → Option V} (hm : {k | m k ≠ none}.Finite) (k : K)
    (w : Option V) :
    total f (Function.update m k w) = total f m - (m k).elim 0 f + w.elim 0 f := by
  set g : K → M := fun j => (m j).elim 0 f with hg
  have hupdate : (fun j => (Function.update m k w j).elim 0 f) =
      Function.update g k (w.elim 0 f) := by
    funext j
    by_cases hj : j = k <;> simp [hj, hg]
  -- both sums live on the old keys and `k`
  set s : Finset K := insert k hm.toFinset with hs
  have hk : k ∈ s := Finset.mem_insert_self _ _
  have hsupp : Function.support g ⊆ s := by
    intro j hj
    by_cases hnone : m j = none <;> simp_all
  have hsupp' : Function.support (Function.update g k (w.elim 0 f)) ⊆ s := by
    intro j hj
    by_cases hjk : j = k
    · rwa [hjk]
    · exact hsupp (by simpa [Function.update_of_ne hjk] using hj)
  have hold : total f m = g k + ∑ j ∈ s.erase k, g j := by
    rw [total, finsum_eq_sum_of_support_subset g hsupp, Finset.add_sum_erase s g hk]
  have hnew : total f (Function.update m k w) = w.elim 0 f + ∑ j ∈ s.erase k, g j := by
    rw [total, hupdate, finsum_eq_sum_of_support_subset _ hsupp', Finset.sum_update_of_mem hk,
      Finset.sdiff_singleton_eq_erase]
  rw [hold, hnew]
  simp only [hg]
  abel

end Total
