import Mathlib

/-!
# Lineages

Things that have at most one parent each, which is lower than they are.
-/

namespace Lineage

variable {α H : Type} [LinearOrder H] {parent : α → Option α} {height : α → H}

inductive Of (parent : α → Option α) (height : α → H) : α → List α → Prop where
  | root {a : α} : parent a = none → Of parent height a []
  | link {a b : α} {l : List α} : parent a = some b → height b < height a →
      Of parent height b l → Of parent height a (b :: l)

namespace Of

variable {a b : α} {l l' : List α}

lemma unique (h : Of parent height a l) (h' : Of parent height a l') : l = l' := by
  induction h generalizing l' with
  | root hnone => cases h' <;> simp_all
  | link hsome _ _ ih =>
    cases h' <;> grind

variable {x : α}

lemma height_lt (h : Of parent height a l) (hx : x ∈ l) : height x < height a := by
  induction h with
  | root _ => cases hx
  | link _ hlt _ ih => grind

lemma height_le (h : Of parent height a l) (hx : x ∈ a :: l) : height x ≤ height a := by
  rcases List.mem_cons.mp hx with rfl | hx
  · exact le_rfl
  · exact (h.height_lt hx).le

lemma eq_of_height_le (h : Of parent height a l) (hx : x ∈ a :: l) (hle : height a ≤ height x) :
    x = a := by
  rcases List.mem_cons.mp hx with rfl | hx
  · rfl
  · exact absurd (h.height_lt hx) hle.not_gt

variable {pre post : List α}

/-- The lineage of an ancestor is what comes after it. -/
lemma of_append (h : Of parent height a l) (heq : a :: l = pre ++ x :: post) :
    Of parent height x post := by
  induction h generalizing pre with
  | root hnone =>
    cases pre with
    | nil =>
      cases heq
      exact .root hnone
    | cons y pre => simp at heq
  | link hsome hlt hof ih =>
    cases pre with
    | nil =>
      cases heq
      exact .link hsome hlt hof
    | cons y pre => exact ih (List.cons.inj heq).2

lemma mem_of_height_lt {y : α} (h : Of parent height a l) (heq : a :: l = pre ++ x :: post)
    (hy : y ∈ a :: l) (hlt : height x < height y) : y ∈ pre := by
  rw [heq] at hy
  rcases List.mem_append.mp hy with hpre | hpost
  · exact hpre
  · exact absurd hlt ((h.of_append heq).height_le hpost).not_gt

lemma mem_of_lt_height {y : α} (h : Of parent height a l) (heq : a :: l = pre ++ x :: post)
    (hy : y ∈ a :: l) (hlt : height y < height x) : y ∈ post := by
  rw [heq] at hy
  rcases List.mem_append.mp hy with hpre | hpost
  · obtain ⟨before, between, rfl⟩ := List.append_of_mem hpre
    have hbefore : a :: l = before ++ y :: (between ++ x :: post) := by simp [heq]
    exact absurd ((h.of_append hbefore).height_lt (by simp)) hlt.not_gt
  · exact (List.mem_cons.mp hpost).resolve_left fun heq => hlt.ne (by rw [heq])

lemma of_mem (h : Of parent height a l) (hx : x ∈ a :: l) :
    ∃ pre post, a :: l = pre ++ x :: post ∧ Of parent height x post := by
  obtain ⟨pre, post, heq⟩ := List.append_of_mem hx
  exact ⟨pre, post, heq, h.of_append heq⟩

end Of

/-! ## The lowest one above a height -/

def lowest (height : α → H) (t : H) : α → List α → α
  | a, [] => a
  | a, b :: l => if t ≤ height b then lowest height t b l else a

variable {a : α} {l : List α} {t : H}

lemma lowest_mem (t : H) (a : α) (l : List α) : lowest height t a l ∈ a :: l := by
  induction l generalizing a with
  | nil => exact List.mem_singleton_self a
  | cons b l ih =>
    rw [lowest]
    split_ifs <;> simp_all

lemma le_height_lowest (h : t ≤ height a) : t ≤ height (lowest height t a l) := by
  induction l generalizing a with
  | nil => exact h
  | cons b l ih =>
    rw [lowest]
    split_ifs with hb
    exacts [ih hb, h]

/-- Going down to an ancestor at the height or above does not change what is the lowest. -/
lemma lowest_of_append (h : Of parent height a l) {pre post : List α} {x : α}
    (heq : a :: l = pre ++ x :: post) (hx : t ≤ height x) :
    lowest height t a l = lowest height t x post := by
  induction h generalizing pre with
  | root _ =>
    cases pre <;> simp_all
  | @link a b l _ _ hof ih =>
    cases pre with
    | nil =>
      cases heq
      rfl
    | cons y pre =>
      have hrest := (List.cons.inj heq).2
      rw [lowest, if_pos (hx.trans (hof.height_le (by simp [hrest])))]
      exact ih hrest

lemma height_lowest_le (h : Of parent height a l) {x : α} (hmem : x ∈ a :: l)
    (hx : t ≤ height x) : height (lowest height t a l) ≤ height x := by
  obtain ⟨pre, post, heq, hof⟩ := h.of_mem hmem
  rw [lowest_of_append h heq hx]
  exact hof.height_le (lowest_mem t x post)

lemma lowest_self (h : Of parent height a l) : lowest height (height a) a l = a :=
  h.eq_of_height_le (lowest_mem _ a l) (le_height_lowest le_rfl)

/-- Of the members of the list at `t` or above, `x` is the lowest. -/
structure IsLowest (height : α → H) (t : H) (l : List α) (x : α) : Prop where
  mem : x ∈ l
  le_height : t ≤ height x
  height_le : ∀ y ∈ l, t ≤ height y → height x ≤ height y

/-- Of the members of the list at `t` or below, `x` is the highest. -/
structure IsHighest (height : α → H) (t : H) (l : List α) (x : α) : Prop where
  mem : x ∈ l
  height_le : height x ≤ t
  le_height : ∀ y ∈ l, height y ≤ t → height y ≤ height x

lemma isLowest_lowest (h : Of parent height a l) (ht : t ≤ height a) :
    IsLowest height t (a :: l) (lowest height t a l) where
  mem := lowest_mem t a l
  le_height := le_height_lowest ht
  height_le _ hy hle := height_lowest_le h hy hle

lemma IsLowest.isHighest {x : α} (h : IsLowest height t l x) (hx : height x = t) :
    IsHighest height t l x where
  mem := h.mem
  height_le := hx.le
  le_height _ _ hle := hle.trans_eq hx.symm

lemma IsLowest.isHighest_parent {pre post : List α} {x y : α} (h : Of parent height a l)
    (hx : IsLowest height t (a :: l) x) (heq : a :: l = pre ++ x :: y :: post)
    (hne : height x ≠ t) : IsHighest height t (a :: l) y where
  mem := by simp [heq]
  height_le := by
    by_contra hlt
    have hle := hx.height_le y (by simp [heq]) (not_le.mp hlt).le
    exact absurd ((h.of_append heq).height_lt List.mem_cons_self) hle.not_gt
  le_height z hz hle := by
    have hlt : height z < height x := hle.trans_lt (lt_of_le_of_ne hx.le_height hne.symm)
    have hof : Of parent height y post := h.of_append (heq.trans (List.append_cons pre x _))
    exact hof.height_le (h.mem_of_lt_height heq hz hlt)

/-- Two lists are the same from `x` on, and have nothing in common before. -/
structure Fork (left right leftNew rightNew : List α) (x : α) (shared : List α) : Prop where
  left_eq : left = leftNew ++ x :: shared
  right_eq : right = rightNew ++ x :: shared
  leftNew_notMem : ∀ y ∈ leftNew, y ∉ right
  rightNew_notMem : ∀ y ∈ rightNew, y ∉ left

namespace Fork

variable {left right leftNew rightNew shared : List α} {x y : α}

lemma refl (x : α) (shared : List α) : Fork (x :: shared) (x :: shared) [] [] x shared :=
  ⟨rfl, rfl, nofun, nofun⟩

lemma cons_left (h : Fork left right leftNew rightNew x shared) (hy : y ∉ right) :
    Fork (y :: left) right (y :: leftNew) rightNew x shared where
  left_eq := by rw [h.left_eq, List.cons_append]
  right_eq := h.right_eq
  leftNew_notMem z hz := by
    have := h.leftNew_notMem z
    grind
  rightNew_notMem z hz hmem := by
    have := h.rightNew_notMem z hz
    have hz' : z ∈ right := h.right_eq ▸ List.mem_append_left _ hz
    grind

lemma symm (h : Fork left right leftNew rightNew x shared) :
    Fork right left rightNew leftNew x shared :=
  ⟨h.right_eq, h.left_eq, h.rightNew_notMem, h.leftNew_notMem⟩

lemma cons_right (h : Fork left right leftNew rightNew x shared) (hy : y ∉ left) :
    Fork left (y :: right) leftNew (y :: rightNew) x shared :=
  (h.symm.cons_left hy).symm

lemma mem_iff (h : Fork left right leftNew rightNew x shared) :
    y ∈ left ∧ y ∈ right ↔ y ∈ x :: shared := by
  grind [h.left_eq, h.right_eq, h.leftNew_notMem]

end Fork

/-! ## Following along

One who holds a lineage as a stack, with the top first, gets from one to another by taking off what
the first has for itself and putting on what the second has. -/

section Replay

variable [DecidableEq α]

def popAll : List α → List α → Option (List α)
  | [], stack => some stack
  | _ :: _, [] => none
  | a :: as, top :: stack => if top = a then popAll as stack else none

/-- Takes items off and puts others on, in the order of the lists. -/
def replay (revert apply stack : List α) : Option (List α) :=
  (popAll revert stack).map (apply.foldl fun stack a => a :: stack)

lemma popAll_append (as stack : List α) : popAll as (as ++ stack) = some stack := by
  induction as with
  | nil => rfl
  | cons a as ih => rw [List.cons_append, popAll, if_pos rfl, ih]

lemma Fork.replay_eq {left right leftNew rightNew shared : List α} {x : α}
    (h : Fork left right leftNew rightNew x shared) :
    replay leftNew rightNew.reverse left = some right := by
  rw [replay, h.left_eq, popAll_append, Option.map_some, List.foldl_flip_cons_eq_append',
    List.reverse_reverse, ← h.right_eq]

end Replay

end Lineage
