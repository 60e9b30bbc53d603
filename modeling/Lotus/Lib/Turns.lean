import Mathlib

/-!
# Calls in turn

Lists of calls of two kinds, where each call that opens something is followed by one that closes it.
-/

namespace Turns

variable {α : Type} (opens : α → Bool)

/-- The calls start with one that opens, and go on with the two kinds in turn. -/
def Alternates (cs : List α) : Prop :=
  (∀ c ∈ cs.head?, opens c = true) ∧ cs.IsChain fun c c' => opens c ≠ opens c'

def Active (cs : List α) : Bool := cs.getLast?.any opens

variable {opens} {cs : List α} {c : α}

@[simp] lemma active_concat : Active opens (cs ++ [c]) = opens c := by
  rw [Active, List.getLast?_concat]
  rfl

lemma alternates_nil : Alternates opens [] := ⟨by simp, List.IsChain.nil⟩

lemma Alternates.concat (h : Alternates opens cs) (hc : opens c = !Active opens cs) :
    Alternates opens (cs ++ [c]) := by
  rcases List.eq_nil_or_concat cs with rfl | ⟨init, last, rfl⟩
  · exact ⟨by simpa [Active] using hc, List.IsChain.singleton c⟩
  · rw [List.concat_eq_append, active_concat] at *
    refine ⟨fun c' hc' => h.1 c' ?_, ?_⟩
    · rwa [List.head?_append_of_ne_nil _ (by simp)] at hc'
    · exact List.isChain_append.mpr ⟨h.2, List.IsChain.singleton c, by simp [hc]⟩

end Turns
