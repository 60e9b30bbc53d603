import Mathlib

/-!
# Layered maps

A store with cheap snapshots keeps its pending writes in a stack of layers over a base map: a write
goes to the innermost layer, a read takes the first layer that has the key and falls back to the
base.
-/

namespace Layers

variable {K V β : Type*}

/-- A pending write: a new value, or a deletion mark that hides the base. -/
inductive Write (V : Type*) where
  | put (v : V)
  | del
deriving DecidableEq, Repr

def Write.read : Write V → Option V
  | put v => some v
  | del => none

@[simp] lemma Write.read_put (v : V) : (Write.put v).read = some v := rfl

@[simp] lemma Write.read_del : (Write.del : Write V).read = none := rfl

abbrev Layer (K β : Type*) := Finmap fun _ : K => β

section FirstHit

variable [DecidableEq K]

def firstHit : List (Layer K β) → K → Option β
  | [], _ => none
  | l :: ls, k => (l.lookup k).or (firstHit ls k)

@[simp] lemma firstHit_nil (k : K) : firstHit ([] : List (Layer K β)) k = none := rfl

@[simp] lemma firstHit_cons (l : Layer K β) (ls : List (Layer K β)) (k : K) :
    firstHit (l :: ls) k = (l.lookup k).or (firstHit ls k) := rfl

lemma firstHit_empty_cons (ls : List (Layer K β)) : firstHit (∅ :: ls) = firstHit ls := by
  funext k
  simp

lemma firstHit_insert_cons (l : Layer K β) (ls : List (Layer K β)) (k : K) (b : β) :
    firstHit (l.insert k b :: ls) = Function.update (firstHit (l :: ls)) k (some b) := by
  funext j
  by_cases hj : j = k <;> simp_all

lemma firstHit_union_cons (l1 l2 : Layer K β) (ls : List (Layer K β)) :
    firstHit ((l1 ∪ l2) :: ls) = firstHit (l1 :: l2 :: ls) := by
  funext k
  by_cases hk : k ∈ l1
  · obtain ⟨b, hb⟩ := Finmap.mem_iff.mp hk
    simp [Finmap.lookup_union_left hk, hb]
  · simp [Finmap.lookup_union_right hk, Finmap.lookup_eq_none.mpr hk]

end FirstHit

/-! ## The map a stack of layers stands for -/

section View

variable [DecidableEq K] (base : K → Option V)

/-- The map that reads through the layers `ls` over `base`. -/
def view (ls : List (Layer K (Write V))) (k : K) : Option V :=
  match firstHit ls k with
  | some w => w.read
  | none => base k

variable {ls : List (Layer K (Write V))}

lemma view_of_hit {k : K} {w : Write V} (h : firstHit ls k = some w) : view base ls k = w.read := by
  rw [view, h]

lemma view_of_miss {k : K} (h : firstHit ls k = none) : view base ls k = base k := by
  rw [view, h]

@[simp] lemma view_nil : view base ([] : List (Layer K (Write V))) = base := rfl

@[simp] lemma view_push (ls : List (Layer K (Write V))) : view base (∅ :: ls) = view base ls := by
  rfl

@[simp] lemma view_merge (l1 l2 : Layer K (Write V)) (ls : List (Layer K (Write V))) :
    view base ((l1 ∪ l2) :: ls) = view base (l1 :: l2 :: ls) := by
  funext k
  rw [view, view, firstHit_union_cons]

@[simp] lemma view_insert (l : Layer K (Write V)) (ls : List (Layer K (Write V))) (k : K)
    (w : Write V) :
    view base (l.insert k w :: ls) = Function.update (view base (l :: ls)) k w.read := by
  funext j
  by_cases hj : j = k <;> simp_all [view]

lemma view_finite (hbase : {k | base k ≠ none}.Finite) (ls : List (Layer K (Write V))) :
    {k | view base ls k ≠ none}.Finite := by
  induction ls with
  | nil => simpa using hbase
  | cons l ls ih =>
    refine (ih.union l.keys.finite_toSet).subset fun k hk => ?_
    by_cases hl : k ∈ l
    · exact Or.inr (by simpa using Finmap.mem_keys.mpr hl)
    · refine Or.inl ?_
      simpa [view, Finmap.lookup_eq_none.mpr hl] using hk

end View

/-! ## The reference machine -/

/-- A map with the whole copies that were taken of it at the open snapshots, latest first. -/
structure Stack (K V : Type*) where
  cur : K → Option V
  saved : List (K → Option V)

namespace Stack

section Ops

variable [DecidableEq K]

/-- Write a value. -/
def set (s : Stack K V) (k : K) (v : V) : Stack K V :=
  { s with cur := Function.update s.cur k (some v) }

/-- Remove a key. -/
def erase (s : Stack K V) (k : K) : Stack K V :=
  { s with cur := Function.update s.cur k none }

/-- Copy the whole map. -/
def snapshot (s : Stack K V) : Stack K V :=
  { s with saved := s.cur :: s.saved }

/-- Restore the latest copy, which stays open. -/
def revert (s : Stack K V) : Stack K V :=
  { s with cur := s.saved.headD s.cur }

/-- Drop the latest copy. -/
def clear (s : Stack K V) : Stack K V :=
  { s with saved := s.saved.tail }

end Ops

variable [DecidableEq K] (base : K → Option V)

def views : List (Layer K (Write V)) → List (K → Option V)
  | [] => []
  | l :: ls => view base (l :: ls) :: views ls

@[simp] lemma views_length (ls : List (Layer K (Write V))) :
    (views base ls).length = ls.length := by
  induction ls with
  | nil => rfl
  | cons l ls ih => simp [views, ih]

/-- The stack of maps that the layers `top :: below` over `base` stand for. -/
def ofLayers (top : Layer K (Write V)) (below : List (Layer K (Write V))) : Stack K V where
  cur := view base (top :: below)
  saved := views base below

@[simp] lemma ofLayers_cur (top : Layer K (Write V)) (below : List (Layer K (Write V))) :
    (ofLayers base top below).cur = view base (top :: below) := rfl

lemma ofLayers_put (top : Layer K (Write V)) (below : List (Layer K (Write V))) (k : K) (v : V) :
    ofLayers base (top.insert k (.put v)) below = (ofLayers base top below).set k v := by
  simp [ofLayers, set]

lemma ofLayers_del (top : Layer K (Write V)) (below : List (Layer K (Write V))) (k : K) :
    ofLayers base (top.insert k .del) below = (ofLayers base top below).erase k := by
  simp [ofLayers, erase]

lemma ofLayers_snapshot (top : Layer K (Write V)) (below : List (Layer K (Write V))) :
    ofLayers base ∅ (top :: below) = (ofLayers base top below).snapshot := by
  simp [ofLayers, snapshot, views]

lemma ofLayers_revert (top next : Layer K (Write V)) (below : List (Layer K (Write V))) :
    ofLayers base ∅ (next :: below) = (ofLayers base top (next :: below)).revert := by
  simp [ofLayers, revert, views]

lemma ofLayers_clear (top next : Layer K (Write V)) (below : List (Layer K (Write V))) :
    ofLayers base (top ∪ next) below = (ofLayers base top (next :: below)).clear := by
  simp [ofLayers, clear, views]

end Stack

end Layers
