import Mathlib

/-!
# Selecting items by key and budget

Two ways of going through a list of items. `firsts` keeps the first item of each key. `select` also
keeps a budget for each owner, and an item that its owner cannot pay for is left out.
-/

namespace Select

variable {α C K S : Type} [DecidableEq C] [DecidableEq K] [DecidableEq S]

def firsts (key : α → C) : List C → List α → List α
  | _, [] => []
  | seen, a :: as => if key a ∈ seen then firsts key seen as else a :: firsts key (key a :: seen) as

variable (key : α → K) (owner : α → S) (cost : α → ℤ)

def select : List K → (S → ℤ) → List α → List α
  | _, _, [] => []
  | seen, budget, a :: as =>
    if key a ∈ seen then select seen budget as
    else if budget (owner a) < cost a then select (key a :: seen) budget as
    else
      a :: select (key a :: seen)
        (Function.update budget (owner a) (budget (owner a) - cost a)) as

def takes (s : List K × (S → ℤ)) (a : α) : Bool := key a ∉ s.1 ∧ cost a ≤ s.2 (owner a)

/-- The keys seen and what is left of the budgets after an item. -/
def step (s : List K × (S → ℤ)) (a : α) : List K × (S → ℤ) :=
  if key a ∈ s.1 then s
  else if s.2 (owner a) < cost a then (key a :: s.1, s.2)
  else (key a :: s.1, Function.update s.2 (owner a) (s.2 (owner a) - cost a))

def spent (o : S) (as : List α) : ℤ := ((as.filter fun a => owner a = o).map cost).sum

variable {key owner cost}

/-! ## First occurrences -/

variable {cid : α → C}

lemma firsts_sublist (seen : List C) (as : List α) : (firsts cid seen as).Sublist as := by
  induction as generalizing seen with
  | nil => exact List.Sublist.slnil
  | cons a as ih =>
    unfold firsts
    split_ifs <;> simp_all

variable {as : List α} {a : α}

lemma not_mem_of_mem_firsts {seen : List C} (h : a ∈ firsts cid seen as) : cid a ∉ seen := by
  induction as generalizing seen with
  | nil => cases h
  | cons b as ih =>
    unfold firsts at h
    split_ifs at h <;> grind

lemma nodup_map_firsts (cid : α → C) (seen : List C) (as : List α) :
    ((firsts cid seen as).map cid).Nodup := by
  induction as generalizing seen with
  | nil => exact List.nodup_nil
  | cons a as ih =>
    unfold firsts
    split_ifs
    · exact ih seen
    · refine List.nodup_cons.mpr ⟨fun hmem => ?_, ih _⟩
      obtain ⟨b, hb, hkey⟩ := List.mem_map.mp hmem
      exact not_mem_of_mem_firsts hb (hkey ▸ List.mem_cons_self)

lemma nodup_firsts (cid : α → C) (seen : List C) (as : List α) : (firsts cid seen as).Nodup :=
  (nodup_map_firsts cid seen as).of_map

lemma mem_firsts_iff {seen : List C} : a ∈ firsts cid seen as ↔
      cid a ∉ seen ∧ ∃ pre post, as = pre ++ a :: post ∧ ∀ x ∈ pre, cid x ≠ cid a := by
  induction as generalizing seen with
  | nil => simp [firsts]
  | cons b as ih =>
    unfold firsts
    split_ifs with hseen
    · rw [ih]
      refine and_congr_right fun hnew => ⟨?_, ?_⟩
      · grind
      · rintro ⟨pre, post, heq, hfirst⟩
        cases pre <;> grind
    · rw [List.mem_cons, ih]
      constructor
      · rintro (rfl | ⟨hnew, pre, post, rfl, hfirst⟩)
        · exact ⟨hseen, [], as, rfl, nofun⟩
        · exact ⟨by grind, b :: pre, post, rfl, by grind⟩
      · rintro ⟨hnew, pre, post, heq, hfirst⟩
        cases pre <;> grind

lemma mem_firsts_filter_iff {seen : List C} {p : α → Bool} :
    a ∈ firsts cid seen (as.filter p) ↔ cid a ∉ seen ∧ p a = true ∧
      ∃ pre post, as = pre ++ a :: post ∧ ∀ x ∈ pre, cid x = cid a → p x = false := by
  rw [mem_firsts_iff]
  refine and_congr_right fun _ => ⟨?_, ?_⟩
  · rintro ⟨pre, post, heq, hfirst⟩
    obtain ⟨l1, l2, rfl, rfl, htail⟩ := List.filter_eq_append_iff.mp heq
    obtain ⟨l3, l4, rfl, hdropped, hpass, -⟩ := List.filter_eq_cons_iff.mp htail
    exact ⟨hpass, l1 ++ l3, l4, (List.append_assoc ..).symm, by grind⟩
  · grind

lemma exists_mem_firsts {seen : List C} (ha : a ∈ as) (hnew : cid a ∉ seen) :
    ∃ x ∈ firsts cid seen as, cid x = cid a := by
  induction as generalizing seen with
  | nil => cases ha
  | cons b as ih =>
    grind [firsts]

lemma firsts_append (seen : List C) (as bs : List α) : firsts cid seen (as ++ bs) =
      firsts cid seen as ++ firsts cid (((firsts cid seen as).map cid).reverse ++ seen) bs := by
  induction as generalizing seen with
  | nil => rfl
  | cons a as ih =>
    rw [List.cons_append, firsts, firsts]
    split_ifs <;> simp [ih]

variable {seen : List K}

lemma select_firsts (hkey : ∀ a ∈ as, ∀ b ∈ as, cid a = cid b → key a = key b) {seenC : List C}
    (hseen : ∀ a ∈ as, cid a ∈ seenC → key a ∈ seen) (budget : S → ℤ) :
    select key owner cost seen budget as =
      select key owner cost seen budget (firsts cid seenC as) := by
  induction as generalizing seenC seen budget with
  | nil => rfl
  | cons a as ih =>
    grind [firsts, select]

/-! ## Selection -/

lemma select_sublist (key : α → K) (owner : α → S) (cost : α → ℤ) (seen : List K)
    (budget : S → ℤ) (as : List α) : (select key owner cost seen budget as).Sublist as := by
  induction as generalizing seen budget with
  | nil => exact List.Sublist.slnil
  | cons a as ih =>
    unfold select
    grind

lemma select_cons (s : List K × (S → ℤ)) (a : α) (as : List α) :
    select key owner cost s.1 s.2 (a :: as) = (if takes key owner cost s a then [a] else []) ++
        select key owner cost (step key owner cost s a).1 (step key owner cost s a).2 as := by
  rw [select]
  by_cases hseen : key a ∈ s.1
  · simp [takes, step, hseen]
  · by_cases hbudget : s.2 (owner a) < cost a
    · simp [takes, step, hseen, hbudget]
    · simp [takes, step, hseen, hbudget, not_lt.mp hbudget]

lemma select_append (s : List K × (S → ℤ)) (as bs : List α) :
    select key owner cost s.1 s.2 (as ++ bs) = select key owner cost s.1 s.2 as ++
        select key owner cost (as.foldl (step key owner cost) s).1
          (as.foldl (step key owner cost) s).2 bs := by
  induction as generalizing s with
  | nil => rfl
  | cons a as ih =>
    rw [List.cons_append, select_cons, select_cons, ih, List.append_assoc, List.foldl_cons]

omit [DecidableEq K] in
lemma spent_cons (o : S) (a : α) (as : List α) :
    spent owner cost o (a :: as) = (if owner a = o then cost a else 0) + spent owner cost o as := by
  by_cases ho : owner a = o <;> simp [spent, ho]

omit [DecidableEq K] in
lemma spent_nonneg {as : List α} (h : ∀ a ∈ as, 0 ≤ cost a) (o : S) :
    0 ≤ spent owner cost o as := by
  apply List.sum_nonneg
  grind

variable {budget : S → ℤ}

/-- An item that leads a list that is kept whole is kept, and the rest is kept whole after it. -/
lemma select_cons_eq_self : select key owner cost seen budget (a :: as) = a :: as ↔
      key a ∉ seen ∧ cost a ≤ budget (owner a) ∧ select key owner cost (key a :: seen)
          (Function.update budget (owner a) (budget (owner a) - cost a)) as = as := by
  have hshort (seen : List K) (budget : S → ℤ) :
      select key owner cost seen budget as ≠ a :: as := by
    intro heq
    have hlen := (select_sublist key owner cost seen budget as).length_le
    rw [heq, List.length_cons] at hlen
    omega
  rw [select]
  split_ifs with hseen hbudget
  · simp [hshort, hseen]
  · simp [hshort, hseen, hbudget]
  · simp [hseen, not_lt.mp hbudget]

lemma select_eq_self_iff (hcost : ∀ a ∈ as, 0 ≤ cost a) :
    select key owner cost seen budget as = as ↔ (as.map key).Nodup ∧ (∀ a ∈ as, key a ∉ seen) ∧
        ∀ a ∈ as, spent owner cost (owner a) as ≤ budget (owner a) := by
  induction as generalizing seen budget with
  | nil => simp [select]
  | cons a as ih =>
    have hrest : ∀ b ∈ as, 0 ≤ cost b := fun b hb => hcost b (.tail _ hb)
    have hspent (o : S) : 0 ≤ spent owner cost o as := spent_nonneg hrest o
    rw [select_cons_eq_self, ih hrest]
    constructor
    · rintro ⟨hnew, hpaid, hnodup, hnews, hcovered⟩
      refine ⟨by simp_all, by grind, fun b hb => ?_⟩
      rw [spent_cons]
      grind [spent, List.filter_eq_nil_iff]
    · rintro ⟨hnodup, hnews, hcovered⟩
      have hfirst := hcovered a List.mem_cons_self
      rw [spent_cons, if_pos rfl] at hfirst
      have hpos := hspent (owner a)
      refine ⟨hnews a List.mem_cons_self, by omega, by simp_all, by simp_all, fun b hb => ?_⟩
      have hle := hcovered b (.tail _ hb)
      rw [spent_cons] at hle
      rw [Function.update_apply]
      grind

lemma select_eq_nil_iff : select key owner cost seen budget as = [] ↔
      ∀ pre a post, as = pre ++ a :: post →
        key a ∈ seen ∨ key a ∈ pre.map key ∨ budget (owner a) < cost a := by
  induction as generalizing seen with
  | nil => simp [select]
  | cons b as ih =>
    rw [select]
    split_ifs with hseen hbudget
    · rw [ih]
      constructor
      · intro h pre a post hsplit
        cases pre <;> grind
      · grind
    · rw [ih]
      constructor
      · intro h pre a post hsplit
        cases pre <;> grind
      · grind
    · -- the first item is kept
      refine ⟨fun h => h.elim, fun h => ?_⟩
      have := h [] b as rfl
      grind

lemma select_append_of_self {xs : List α} (h : select key owner cost seen budget xs = xs)
    (ys : List α) :
    select key owner cost seen budget (xs ++ ys) =
      xs ++ select key owner cost ((xs.map key).reverse ++ seen)
        (fun o => budget o - spent owner cost o xs) ys := by
  induction xs generalizing seen budget with
  | nil => simp [spent]
  | cons a xs ih =>
    grind [select_cons_eq_self, Function.update_apply, spent_cons, select]

variable (key owner cost) in
structure Cut (budget : S → ℤ) (xs ys : List α) : Prop where
  fresh : (xs.map key).Nodup
  covered : ∀ a ∈ xs, spent owner cost (owner a) xs ≤ budget (owner a)
  rest : ∀ pre a post, ys = pre ++ a :: post →
    key a ∈ (xs ++ pre).map key ∨
      budget (owner a) - spent owner cost (owner a) xs < cost a

lemma cut_iff {xs ys : List α} (hcost : ∀ a ∈ xs, 0 ≤ cost a) : Cut key owner cost budget xs ys ↔
      select key owner cost [] budget xs = xs ∧ select key owner cost ((xs.map key).reverse ++ [])
          (fun o => budget o - spent owner cost o xs) ys = [] := by
  rw [select_eq_self_iff hcost, select_eq_nil_iff]
  constructor
  · intro h
    refine ⟨⟨h.fresh, fun _ _ => List.not_mem_nil, h.covered⟩, fun pre a post hsplit => ?_⟩
    have := h.rest pre a post hsplit
    simp_all [or_assoc]
  · rintro ⟨⟨hfresh, -, hcovered⟩, hrest⟩
    refine ⟨hfresh, hcovered, fun pre a post hsplit => ?_⟩
    have := hrest pre a post hsplit
    simp_all [or_assoc]

lemma exists_split_of_initial (hnodup : as.Nodup)
    (h : select key owner cost seen budget as <+: as) :
    ∃ xs ys, as = xs ++ ys ∧ select key owner cost seen budget xs = xs ∧
      select key owner cost seen budget as = xs := by
  induction as generalizing seen budget with
  | nil => exact ⟨[], [], rfl, rfl, rfl⟩
  | cons a as ih =>
    rw [List.nodup_cons] at hnodup
    -- an item that is dropped cannot be followed by one that is kept
    have hdrop {seen' : List K} {budget' : S → ℤ}
        (hinit : select key owner cost seen' budget' as <+: a :: as) :
        select key owner cost seen' budget' as = [] := by
      have hsub := (select_sublist key owner cost seen' budget' as).subset
      rcases hsel : select key owner cost seen' budget' as with - | ⟨b, bs⟩
      · rfl
      · grind
    rw [select] at h ⊢
    split_ifs at h ⊢ with hseen hbudget
    · exact ⟨[], a :: as, rfl, rfl, hdrop h⟩
    · exact ⟨[], a :: as, rfl, rfl, hdrop h⟩
    · grind [select_cons_eq_self]

lemma select_prefix_iff (hnodup : as.Nodup) (hcost : ∀ a ∈ as, 0 ≤ cost a) :
    select key owner cost [] budget as <+: as ↔
      ∃ xs ys, as = xs ++ ys ∧ Cut key owner cost budget xs ys := by
  constructor
  · intro h
    obtain ⟨xs, ys, rfl, hself, hall⟩ := exists_split_of_initial hnodup h
    have hcost' : ∀ a ∈ xs, 0 ≤ cost a := fun a ha => hcost a (List.mem_append_left _ ha)
    refine ⟨xs, ys, rfl, (cut_iff hcost').mpr ⟨hself, ?_⟩⟩
    rw [select_append_of_self hself, List.append_right_eq_self] at hall
    exact hall
  · rintro ⟨xs, ys, rfl, hcut⟩
    have hcost' : ∀ a ∈ xs, 0 ≤ cost a := fun a ha => hcost a (List.mem_append_left _ ha)
    obtain ⟨hself, hnone⟩ := (cut_iff hcost').mp hcut
    rw [select_append_of_self hself, hnone, List.append_nil]
    exact List.prefix_append xs ys

end Select
