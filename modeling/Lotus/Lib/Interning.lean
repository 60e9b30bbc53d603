import Lotus.Lib.Aligned

/-!
# Interning

Items that are met again and again are written down once, in a table, and are referred to by their
numbers in it.
-/

namespace Interning

variable {α κ : Type}

/-- The items that were met, and their numbers by key. -/
structure Table (α κ : Type) where
  items : List α
  index : κ → Option ℕ

def Table.empty : Table α κ := ⟨[], fun _ => none⟩

section

variable (key : α → κ)

def Table.Sound (t : Table α κ) : Prop :=
  ∀ k i, t.index k = some i ↔ ∃ a, t.items[i]? = some a ∧ key a = k

variable [DecidableEq κ]

def Table.intern (t : Table α κ) (a : α) : ℕ × Table α κ :=
  match t.index (key a) with
  | some i => (i, t)
  | none =>
    (t.items.length,
      ⟨t.items ++ [a], Function.update t.index (key a) (some t.items.length)⟩)

def Table.internAll (t : Table α κ) : List α → List ℕ × Table α κ
  | [] => ([], t)
  | a :: as =>
    ((t.intern key a).1 :: (Table.internAll (t.intern key a).2 as).1,
      (Table.internAll (t.intern key a).2 as).2)

def Table.internLists (t : Table α κ) : List (List α) → List (List ℕ) × Table α κ
  | [] => ([], t)
  | as :: ass =>
    ((t.internAll key as).1 :: (Table.internLists (t.internAll key as).2 ass).1,
      (Table.internLists (t.internAll key as).2 ass).2)

end

def getAll (items : List α) (is : List ℕ) : Option (List α) := is.mapM fun i => items[i]?

variable {key : α → κ} {t : Table α κ} {a : α}

lemma getElem?_of_initial {items items' : List α} (h : items <+: items') {i : ℕ}
    (hi : items[i]? = some a) : items'[i]? = some a := by
  obtain ⟨rest, rfl⟩ := h
  rw [List.getElem?_append_left (List.getElem?_eq_some_iff.mp hi).1, hi]

lemma Table.sound_empty : (Table.empty : Table α κ).Sound key :=
  fun k i => iff_of_false nofun fun ⟨_, ha, _⟩ => by cases ha

namespace Table.Sound

lemma nodup (h : t.Sound key) : (t.items.map key).Nodup := by
  rw [List.nodup_iff_injective_get]
  intro i j hij
  have hi := (h (key t.items[i.1]) i.1).mpr ⟨_, by grind, rfl⟩
  have hj := (h (key t.items[i.1]) j.1).mpr ⟨t.items[j.1], by grind, by simpa using hij.symm⟩
  exact Fin.ext (Option.some.inj (hi.symm.trans hj))

variable [DecidableEq κ]

lemma concat (h : t.Sound key) (hnew : t.index (key a) = none) :
    (⟨t.items ++ [a], Function.update t.index (key a) (some t.items.length)⟩ :
      Table α κ).Sound key := by
  intro k i
  have hk := h k i
  simp only [Function.update_apply]
  rcases Nat.lt_trichotomy i t.items.length with hi | rfl | hi
  · rw [List.getElem?_append_left hi]
    grind
  · grind
  · grind

lemma intern (h : t.Sound key) (a : α) :
    (t.intern key a).2.Sound key ∧ t.items <+: (t.intern key a).2.items ∧
      (∀ b ∈ (t.intern key a).2.items, b ∈ t.items ∨ b = a) ∧
        ∃ b, (t.intern key a).2.items[(t.intern key a).1]? = some b ∧ key b = key a := by
  unfold Table.intern
  rcases hindex : t.index (key a) with - | i
  · exact ⟨h.concat hindex, List.prefix_append .., by simp, a, by simp, rfl⟩
  · exact ⟨h, List.prefix_refl _, fun b hb => .inl hb, (h _ i).mp hindex⟩

lemma internAll (h : t.Sound key) (as : List α) :
    (t.internAll key as).2.Sound key ∧ t.items <+: (t.internAll key as).2.items ∧
      (∀ b ∈ (t.internAll key as).2.items, b ∈ t.items ∨ b ∈ as) ∧
        List.Forall₂ (fun i a => ∃ b, (t.internAll key as).2.items[i]? = some b ∧ key b = key a)
          (t.internAll key as).1 as := by
  induction as generalizing t with
  | nil => exact ⟨h, List.prefix_refl _, fun b hb => .inl hb, .nil⟩
  | cons a as ih =>
    obtain ⟨hsound, hgrows, hnew, b, hb, hkey⟩ := h.intern a
    obtain ⟨hsound', hgrows', hnew', hnumbers⟩ := ih hsound
    refine ⟨hsound', hgrows.trans hgrows', fun c hc => ?_, .cons ⟨b, ?_, hkey⟩ hnumbers⟩
    · have := hnew' c hc
      grind
    · -- the number of an item stays what it is when the table grows
      exact getElem?_of_initial hgrows' hb

lemma internLists (h : t.Sound key) (ass : List (List α)) :
    (t.internLists key ass).2.Sound key ∧ t.items <+: (t.internLists key ass).2.items ∧
      ∀ b ∈ (t.internLists key ass).2.items, b ∈ t.items ∨ ∃ as ∈ ass, b ∈ as := by
  induction ass generalizing t with
  | nil => exact ⟨h, List.prefix_refl _, fun b hb => .inl hb⟩
  | cons as ass ih =>
    obtain ⟨hsound, hgrows, hnew, -⟩ := h.internAll as
    obtain ⟨hsound', hgrows', hnew'⟩ := ih hsound
    refine ⟨hsound', hgrows.trans hgrows', fun c hc => ?_⟩
    have := hnew' c hc
    grind

end Table.Sound

lemma getAll_eq_some {items : List α} {is : List ℕ} {as : List α} :
    getAll items is = some as ↔ List.Forall₂ (fun i a => items[i]? = some a) is as :=
  Aligned.mapM_eq_some

variable [DecidableEq κ]

lemma getAll_internAll (h : t.Sound key) {as items : List α}
    (hitems : (t.internAll key as).2.items <+: items)
    (hkey : ∀ b ∈ items, ∀ a ∈ as, key b = key a → b = a) :
    getAll items (t.internAll key as).1 = some as := by
  obtain ⟨-, -, -, hnumbers⟩ := h.internAll as
  refine getAll_eq_some.mpr ?_
  rw [List.forall₂_iff_get] at hnumbers ⊢
  refine ⟨hnumbers.1, fun i hi hi' => ?_⟩
  obtain ⟨b, hb, hba⟩ := hnumbers.2 i hi hi'
  have hb' := getElem?_of_initial hitems hb
  rw [hb', hkey b (List.mem_of_getElem? hb') _ (List.get_mem ..) hba]

lemma getAll_internLists (h : t.Sound key) {ass : List (List α)} {items : List α}
    (hitems : (t.internLists key ass).2.items <+: items)
    (hkey : ∀ b ∈ items, ∀ as ∈ ass, ∀ a ∈ as, key b = key a → b = a) :
    List.Forall₂ (fun is as => getAll items is = some as) (t.internLists key ass).1 ass := by
  induction ass generalizing t with
  | nil => exact .nil
  | cons as ass ih =>
    obtain ⟨hsound, -⟩ := h.internAll as
    obtain ⟨-, hgrows, -⟩ := hsound.internLists ass
    refine .cons (getAll_internAll h (hgrows.trans hitems) fun b hb => ?_)
      (ih hsound hitems fun b hb bs hbs => hkey b hb bs (List.mem_cons_of_mem as hbs))
    exact hkey b hb as List.mem_cons_self

lemma internLists_empty {ass : List (List α)}
    (hkey : ∀ as ∈ ass, ∀ a ∈ as, ∀ bs ∈ ass, ∀ b ∈ bs, key b = key a → b = a) :
    (Table.empty.internLists key ass).2.items.Nodup ∧
      (∀ a ∈ (Table.empty.internLists key ass).2.items, ∃ as ∈ ass, a ∈ as) ∧
        List.Forall₂ (fun is as => getAll (Table.empty.internLists key ass).2.items is = some as)
          (Table.empty.internLists key ass).1 ass := by
  have hempty : (Table.empty : Table α κ).Sound key := Table.sound_empty
  obtain ⟨hsound, -, hnew⟩ := hempty.internLists ass
  have hmem : ∀ a ∈ (Table.empty.internLists key ass).2.items, ∃ as ∈ ass, a ∈ as :=
    fun a ha => (hnew a ha).resolve_left List.not_mem_nil
  refine ⟨hsound.nodup.of_map key, hmem, ?_⟩
  refine getAll_internLists hempty (List.prefix_refl _) fun b hb as has a ha => ?_
  obtain ⟨bs, hbs, hb⟩ := hmem b hb
  exact hkey as has a ha bs hbs b hb

end Interning
