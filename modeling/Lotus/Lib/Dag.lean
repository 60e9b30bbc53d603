import Mathlib

/-!
# Writing a directed acyclic graph children first

A traversal that writes the nodes of a graph one by one leaves, if it is cut off, the nodes of some
prefix of its writes.
-/

namespace Dag

variable {α : Type*}

/-- Every successor of a member is a member. -/
def Closed (R : α → α → Prop) (S : Set α) : Prop := ∀ x ∈ S, ∀ y, R x y → y ∈ S

/-! ## Stages of a list of writes -/

def Stages (l : List α) : Set (Set α) := {T | ∃ p, p <+: l ∧ T = {x | x ∈ p}}

lemma mem_stages_self (l : List α) : {x | x ∈ l} ∈ Stages l := ⟨l, List.prefix_rfl, rfl⟩

variable {l : List α}

lemma subset_of_mem_stages {T : Set α} (h : T ∈ Stages l) : T ⊆ {x | x ∈ l} := by
  obtain ⟨p, hp, rfl⟩ := h
  exact fun x hx => hp.subset hx

variable {m : List α}

lemma stages_mono (h : l <+: m) : Stages l ⊆ Stages m := by
  rintro T ⟨p, hp, rfl⟩
  exact ⟨p, hp.trans h, rfl⟩

lemma mem_iff_of_stages_eq (h : Stages l = Stages m) (x : α) : x ∈ l ↔ x ∈ m :=
  ⟨fun hx => subset_of_mem_stages (h ▸ mem_stages_self l) hx,
    fun hx => subset_of_mem_stages (h ▸ mem_stages_self m) hx⟩

lemma prefix_append_cases {p : List α} (h : p <+: l ++ m) :
    p <+: l ∨ ∃ q, p = l ++ q ∧ q <+: m := by
  rcases List.prefix_or_prefix_of_prefix h (List.prefix_append l m) with hp | ⟨q, rfl⟩ <;> simp_all

lemma mem_stages_append {T : Set α} :
    T ∈ Stages (l ++ m) ↔ T ∈ Stages l ∨ ∃ U ∈ Stages m, T = {x | x ∈ l} ∪ U := by
  constructor
  · rintro ⟨p, hp, rfl⟩
    rcases prefix_append_cases hp with h | ⟨q, rfl, hq⟩
    · exact Or.inl ⟨p, h, rfl⟩
    · exact Or.inr ⟨{x | x ∈ q}, ⟨q, hq, rfl⟩, by ext; simp⟩
  · rintro (h | ⟨U, ⟨q, hq, rfl⟩, rfl⟩)
    · exact stages_mono (List.prefix_append l m) h
    · exact ⟨l ++ q, List.prefix_append_right_inj l |>.mpr hq, by ext; simp⟩

lemma stages_append_congr {l' : List α} (h : Stages l = Stages l') (m : List α) :
    Stages (l ++ m) = Stages (l' ++ m) := by
  have hset : {x | x ∈ l} = {x | x ∈ l'} := Set.ext (mem_iff_of_stages_eq h)
  ext T
  rw [mem_stages_append, mem_stages_append, h, hset]

lemma stages_append_of_subset (h : ∀ x ∈ m, x ∈ l) : Stages (l ++ m) = Stages l := by
  ext T
  rw [mem_stages_append]
  refine ⟨?_, Or.inl⟩
  rintro (hT | ⟨U, hU, rfl⟩)
  · exact hT
  · have hsub : U ⊆ {x | x ∈ l} := (subset_of_mem_stages hU).trans h
    rw [Set.union_eq_self_of_subset_right hsub]
    exact mem_stages_self l

/-! ## Grounded lists -/

/-- Every node comes after its successors, except for those that are in `S`. -/
def Grounded (R : α → α → Prop) (S : Set α) (l : List α) : Prop :=
  ∀ p x, p ++ [x] <+: l → ∀ y, R x y → y ∈ S ∨ y ∈ p

variable {R : α → α → Prop} {S : Set α}

lemma Grounded.nil : Grounded R S [] := by
  intro p x h
  exact absurd (List.prefix_nil.mp h) (by simp)

lemma Grounded.append (hl : Grounded R S l) (hm : Grounded R S m) : Grounded R S (l ++ m) := by
  intro p x h y hy
  rcases prefix_append_cases h with h | ⟨q, hq, hqm⟩
  · exact hl p x h y hy
  rcases List.eq_nil_or_concat q with rfl | ⟨q', z, rfl⟩
  · exact hl p x (by rw [hq, List.append_nil]) y hy
  · rw [List.concat_eq_append, ← List.append_assoc] at hq
    obtain ⟨rfl, hz⟩ := List.append_inj' hq rfl
    cases hz
    exact (hm q' x (by rwa [List.concat_eq_append] at hqm) y hy).imp_right (List.mem_append_right l)

lemma Grounded.snoc {x : α} (hl : Grounded R S l) (hx : ∀ y, R x y → y ∈ S ∨ y ∈ l) :
    Grounded R S (l ++ [x]) := by
  intro p z h y hy
  rcases List.prefix_concat_iff.mp h with h | h
  · grind [List.append_inj']
  · exact hl p z h y hy

lemma Grounded.flatMap {β : Type*} {f : β → List α} {xs : List β}
    (h : ∀ b ∈ xs, Grounded R S (f b)) : Grounded R S (xs.flatMap f) := by
  induction xs with
  | nil => exact Grounded.nil
  | cons b xs ih =>
    rw [List.flatMap_cons]
    exact (h b (by simp)).append (ih fun c hc => h c (by simp [hc]))

lemma exists_prefix_of_mem {p : List α} {x : α} (hp : p <+: l) (hx : x ∈ p) :
    ∃ a, a ++ [x] <+: l ∧ a <+: p ∧ a.length < p.length := by
  obtain ⟨a, b, rfl⟩ := List.append_of_mem hx
  refine ⟨a, ?_, List.prefix_append a _, by simp⟩
  exact List.IsPrefix.trans (by simp) hp

lemma closed_stages_iff (hirr : ∀ x, ¬R x x) (hS : Closed R S) :
    (∀ T ∈ Stages l, Closed R (S ∪ T)) ↔ Grounded R S l := by
  constructor
  · intro h p x hp y hy
    have hmem := h _ ⟨p ++ [x], hp, rfl⟩ x (Or.inr (by simp)) y hy
    grind
  · rintro h T ⟨p, hp, rfl⟩ x (hx | hx) y hy
    · exact Or.inl (hS x hx y hy)
    · obtain ⟨a, ha, hap, -⟩ := exists_prefix_of_mem hp hx
      exact (h a x ha y hy).imp_right (hap.subset ·)

/-- The nodes below `x` and then `x` itself, depth first, at most `n` deep. -/
def postorder (next : α → List α) : Nat → α → List α
  | 0, _ => []
  | n + 1, x => (next x).flatMap (postorder next n) ++ [x]

variable {next : α → List α}

lemma mem_postorder_self {n : Nat} (x : α) (hn : 0 < n) : x ∈ postorder next n x := by
  obtain ⟨n, rfl⟩ := Nat.exists_eq_succ_of_ne_zero hn.ne'
  simp [postorder]

lemma postorder_subset {T : Set α} (hT : ∀ x ∈ T, ∀ y ∈ next x, y ∈ T) (n : Nat) :
    ∀ x ∈ T, ∀ y ∈ postorder next n x, y ∈ T := by
  induction n with
  | zero => exact fun x _ y hy => by cases hy
  | succ n ih =>
    grind [postorder, List.mem_singleton]

lemma postorder_grounded {rank : α → Nat} (hrank : ∀ x, ∀ y ∈ next x, rank y < rank x) (n : Nat) :
    ∀ x, rank x < n → Grounded (fun x y => y ∈ next x) S (postorder next n x) := by
  induction n with
  | zero => exact fun x hx => absurd hx (Nat.not_lt_zero _)
  | succ n ih =>
    intro x hx
    have hlt : ∀ y ∈ next x, rank y < n := fun y hy => by
      have := hrank x y hy
      omega
    refine Grounded.snoc (Grounded.flatMap fun y hy => ih y (hlt y hy)) fun y hy => Or.inr ?_
    exact List.mem_flatMap.mpr ⟨y, hy, mem_postorder_self y (Nat.zero_lt_of_lt (hlt y hy))⟩

end Dag
