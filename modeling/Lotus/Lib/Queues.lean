import Mathlib

/-!
# Taking elements from the fronts of queues

The elements of a list carry a key, and there is a queue of elements for each key.
-/

namespace Queues

variable {α β κ : Type} [DecidableEq κ]

/-! ## Elements after the elements before them -/

/-- Every element stands in the relation `P` to the elements before it. -/
def EachAfter (P : List α → α → Prop) (l : List α) : Prop :=
  ∀ pre a post, l = pre ++ a :: post → P pre a

namespace EachAfter

variable {P : List α → α → Prop} {l : List α}

lemma nil (P : List α → α → Prop) : EachAfter P [] := by
  intro pre a post hsplit
  cases pre <;> cases hsplit

lemma concat (h : EachAfter P l) {a : α} (ha : P l a) : EachAfter P (l ++ [a]) := by
  intro pre b post hsplit
  rcases List.eq_nil_or_concat post with rfl | ⟨post, c, rfl⟩
  · grind [List.append_inj']
  · rw [List.concat_eq_append, ← List.cons_append, ← List.append_assoc] at hsplit
    obtain ⟨rfl, -⟩ := List.append_inj' hsplit rfl
    exact h pre b post rfl

lemma mono {Q : List α → α → Prop} (h : EachAfter P l) (hPQ : ∀ pre a, P pre a → Q pre a) :
    EachAfter Q l :=
  fun pre a post hsplit => hPQ pre a (h pre a post hsplit)

lemma map {f : α → β} {Q : List β → β → Prop}
    (h : EachAfter (fun pre a => Q (pre.map f) (f a)) l) : EachAfter Q (l.map f) := by
  intro pre b post hsplit
  obtain ⟨pre', rest, rfl, rfl, hrest⟩ := List.map_eq_append_iff.mp hsplit
  obtain ⟨a, post', rfl, rfl, -⟩ := List.map_eq_cons_iff.mp hrest
  exact h pre' a post' rfl

lemma of_front (h : EachAfter P l) {pre : List α} {a : α} (hpre : pre ++ [a] <+: l) : P pre a := by
  obtain ⟨post, rfl⟩ := hpre
  exact h pre a post (by rw [List.append_assoc, List.singleton_append])

lemma forall_mem {Q : α → Prop} (h : EachAfter (fun pre a => (∀ b ∈ pre, Q b) → Q a) l) :
    ∀ a ∈ l, Q a := by
  induction l using List.reverseRecOn with
  | nil => simp
  | append_singleton l c ih =>
    have hl : ∀ b ∈ l, Q b := ih fun pre a post hsplit => h pre a (post ++ [c]) (by simp [hsplit])
    intro a ha
    rcases List.mem_append.mp ha with ha | ha
    · exact hl a ha
    · rw [List.mem_singleton.mp ha]
      exact h l c [] rfl hl

lemma iff_get : EachAfter P l ↔ ∀ i : Fin l.length, P (l.take i) (l.get i) := by
  constructor
  · intro h i
    exact h (l.take i) (l.get i) (l.drop (i + 1)) (by simp)
  · rintro h pre a post rfl
    have hi : pre.length < (pre ++ a :: post).length := by simp
    simpa using h ⟨pre.length, hi⟩

instance [∀ pre a, Decidable (P pre a)] : Decidable (EachAfter P l) :=
  decidable_of_iff' _ iff_get

end EachAfter

/-! ## Lanes -/

variable (key : α → κ)

def lane (k : κ) (l : List α) : List α := l.filter fun a => key a = k

lemma lane_append (k : κ) (l l' : List α) : lane key k (l ++ l') = lane key k l ++ lane key k l' :=
  List.filter_append ..

variable {key}

lemma lane_eq_self {k : κ} {l : List α} (h : ∀ a ∈ l, key a = k) : lane key k l = l :=
  List.filter_eq_self.mpr fun a ha => decide_eq_true (h a ha)

lemma lane_eq_nil {k : κ} {l : List α} (h : ∀ a ∈ l, key a ≠ k) : lane key k l = [] :=
  List.filter_eq_nil_iff.mpr fun a ha hk => h a ha (of_decide_eq_true hk)

lemma lane_singleton_self (a : α) : lane key (key a) [a] = [a] :=
  lane_eq_self fun _ hb => by rw [List.mem_singleton.mp hb]

lemma lane_map {key' : β → κ} {f : α → β} (hf : ∀ a, key' (f a) = key a) (k : κ) (l : List α) :
    lane key' k (l.map f) = (lane key k l).map f := by
  rw [lane, List.filter_map, lane]
  congr 2
  funext a
  rw [Function.comp_apply, hf]

lemma lane_split {c : α → Bool} {l : List α}
    (hc : ∀ a ∈ l, ∀ b ∈ l, key a = key b → c a = c b) (k : κ) :
    lane key k (l.filter c ++ l.filter fun a => !c a) = lane key k l := by
  have hswap (p : α → Bool) : lane key k (l.filter p) = (lane key k l).filter p := by
    simp [lane, List.filter_filter, Bool.and_comm]
  rw [lane_append, hswap, hswap]
  grind [lane, List.filter_eq_nil_iff, List.filter_eq_self]

/-! ## Draining queues -/

variable (key)

def FromFronts (queue : κ → List α) (l : List α) : Prop := ∀ k, lane key k l <+: queue k

def Drains (queue rest : κ → List α) (out : List α) : Prop :=
  ∀ k, lane key k out ++ rest k = queue k

variable {key} {queue rest : κ → List α} {out l : List α}

lemma Drains.refl (queue : κ → List α) : Drains key queue queue [] := fun _ => rfl

lemma Drains.take (h : Drains key queue rest out) {k : κ} (hk : ∀ a ∈ rest k, key a = k) (n : ℕ) :
    Drains key queue (Function.update rest k ((rest k).drop n)) (out ++ (rest k).take n) := by
  intro k'
  rw [lane_append]
  by_cases hsame : k' = k
  · subst hsame
    rw [Function.update_self, lane_eq_self fun a ha => hk a (List.mem_of_mem_take ha),
      List.append_assoc, List.take_append_drop]
    exact h k'
  · have hother : lane key k' ((rest k).take n) = [] := lane_eq_nil fun a ha => by
      rw [hk a (List.mem_of_mem_take ha)]
      exact Ne.symm hsame
    rw [Function.update_of_ne hsame, hother, List.append_nil]
    exact h k'

lemma Drains.fromFronts (h : Drains key queue rest out) : FromFronts key queue out :=
  fun k => ⟨rest k, h k⟩

namespace FromFronts

lemma take (h : FromFronts key queue l) (n : ℕ) : FromFronts key queue (l.take n) :=
  fun k => List.IsPrefix.trans (List.IsPrefix.filter _ <| List.take_prefix n l) (h k)

lemma split (h : FromFronts key queue l) {c : α → Bool}
    (hc : ∀ a ∈ l, ∀ b ∈ l, key a = key b → c a = c b) :
    FromFronts key queue (l.filter c ++ l.filter fun a => !c a) := fun k => by
  rw [lane_split hc]
  exact h k

lemma map (h : FromFronts key queue l) {key' : β → κ} {f : α → β} (hf : ∀ a, key' (f a) = key a) :
    FromFronts key' (fun k => (queue k).map f) (l.map f) := fun k => by
  rw [lane_map hf]
  exact (h k).map f

lemma concat_front (h : FromFronts key queue l) {pre post : List α} {a : α}
    (hsplit : l = pre ++ a :: post) : lane key (key a) pre ++ [a] <+: queue (key a) := by
  have hlane : lane key (key a) l = (lane key (key a) pre ++ [a]) ++ lane key (key a) post := by
    rw [hsplit, List.append_cons, lane_append, lane_append, lane_singleton_self]
  exact (hlane ▸ List.prefix_append _ _).trans (h (key a))

lemma after (h : FromFronts key queue l) {P : κ → List α → α → Prop}
    (hP : ∀ k, EachAfter (P k) (queue k)) :
    EachAfter (fun pre a => P (key a) (lane key (key a) pre) a) l :=
  fun _ a _ hsplit => (hP (key a)).of_front (h.concat_front hsplit)

end FromFronts

end Queues
