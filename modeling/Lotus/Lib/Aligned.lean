import Mathlib

/-!
# Lists side by side

Two lists whose elements are related one by one, as `List.Forall₂` has it: what holds of all the
elements of one list is carried over to those of the other.
-/

namespace Aligned

variable {α β : Type} {R : α → β → Prop} {l : List α} {l' : List β}

lemma forall_mem_iff {P : α → Prop} {Q : β → Prop} (h : List.Forall₂ R l l')
    (hPQ : ∀ a b, R a b → (P a ↔ Q b)) : (∀ a ∈ l, P a) ↔ ∀ b ∈ l', Q b := by
  induction h with
  | nil => simp only [List.not_mem_nil, false_implies, implies_true]
  | cons hab _ ih => rw [List.forall_mem_cons, List.forall_mem_cons, ih, hPQ _ _ hab]

lemma exists_of_mem_right (h : List.Forall₂ R l l') {b : β} (hb : b ∈ l') : ∃ a ∈ l, R a b := by
  induction h with
  | nil => simp at hb
  | cons hab _ ih => grind

lemma exists_forall₂ (h : ∀ a ∈ l, ∃ b, R a b) : ∃ l', List.Forall₂ R l l' := by
  induction l with
  | nil => exact ⟨[], .nil⟩
  | cons a l ih =>
    obtain ⟨⟨b, hb⟩, hl⟩ := List.forall_mem_cons.mp h
    obtain ⟨l', hl'⟩ := ih hl
    exact ⟨b :: l', .cons hb hl'⟩

lemma mapM_eq_some {f : α → Option β} :
    l.mapM f = some l' ↔ List.Forall₂ (fun a b => f a = some b) l l' := by
  induction l generalizing l' with
  | nil => simp [eq_comm]
  | cons a l ih =>
    rw [List.mapM_cons]
    simp [Option.bind_eq_some_iff, ih, List.forall₂_cons_left_iff, @eq_comm _ l']

end Aligned
