import Lotus.State.StateTree

/-!
# What a state tree shows

`StateTree.view` is the map from ID addresses to actors that a tree stands for: the layers read
through to the HAMT.
-/

namespace Lotus

open Layers List Function

namespace StateTree

/-- The HAMT as a function. -/
def base (t : StateTree) (addr : Address) : Option Actor := t.root.lookup addr

def view (t : StateTree) : Address → Option Actor :=
  Layers.view t.base (t.layers.map (·.actors))

lemma view_finite (t : StateTree) : {a | t.view a ≠ none}.Finite := by
  refine Layers.view_finite _ (t.root.keys.finite_toSet.subset fun a ha => ?_) _
  simp_all [base, Set.mem_ofPred_eq, ne_eq, Finmap.lookup_eq_none, Finmap.mem_keys]

/-! ## Layer operations -/

@[simp] lemma view_snapsWrite (t : StateTree) (addr : Address) (op : StreeOp) :
    (t.snapsWrite addr op).view = update t.view addr op.read := by
  simp only [view, snapsWrite, layers, map_cons]
  exact Layers.view_insert _ _ _ _ _

@[simp] lemma view_cacheResolveAddress (t : StateTree) (addr : Address) (id : UInt64)
    (h : addr ≠ .undef) : (t.cacheResolveAddress addr id h).view = t.view := rfl

@[simp] lemma view_snapshot (t : StateTree) : t.snapshot.view = t.view := by
  rfl

lemma view_revert (t : StateTree) :
    t.revert.view = Layers.view t.base (t.below.map (·.actors)) := by
  rfl

@[simp] lemma resolveAddress_snapsWrite (t : StateTree) (addr : Address) (op : StreeOp) :
    (t.snapsWrite addr op).resolveAddress = t.resolveAddress := rfl

lemma resolveAddress_cacheResolveAddress (t : StateTree) (addr : Address) (id : UInt64)
    (h : addr ≠ .undef) :
    (t.cacheResolveAddress addr id h).resolveAddress = update t.resolveAddress addr (some id) := by
  funext a
  simp only [resolveAddress, cacheResolveAddress, layers, map_cons, StateSnapLayer.cache]
  rw [firstHit_insert_cons]
  rfl

lemma resolveAddress_undef (t : StateTree) : t.resolveAddress .undef = none := by
  rw [resolveAddress]
  induction t.layers with
  | nil => rfl
  | cons l ls ih => rw [map_cons, firstHit_cons, l.cache_undef, ih, Option.or_none]

@[simp] lemma resolveAddress_snapshot (t : StateTree) :
    t.snapshot.resolveAddress = t.resolveAddress := by
  rfl

variable {t : StateTree}

lemma clearSnapshot_spec {next : StateSnapLayer} {rest : List StateSnapLayer}
    (h : t.below = next :: rest) :
    ∃ t', t.clearSnapshot = some t' ∧ t'.root = t.root ∧ t'.below = rest ∧ t'.view = t.view ∧
      t'.resolveAddress = t.resolveAddress := by
  refine ⟨⟨t.root, t.top.merge next, rest⟩, by rw [clearSnapshot, mergeLastLayer, h], rfl, rfl,
    ?_, ?_⟩
  · simp only [view, layers, map_cons, h, StateSnapLayer.merge]
    exact Layers.view_merge _ _ _ _
  · funext a
    simp only [resolveAddress, layers, map_cons, h, StateSnapLayer.merge]
    rw [firstHit_union_cons]

/-! ## Reads -/

/-- What reading may change: nothing but the caches of the innermost layer, which only gain
entries. -/
structure Reads (t t' : StateTree) : Prop where
  root_eq : t'.root = t.root
  below_eq : t'.below = t.below
  view_eq : t'.view = t.view
  cache_mono : ∀ a r, t.resolveAddress a = some r → t'.resolveAddress a = some r

lemma Reads.refl (t : StateTree) : Reads t t := ⟨rfl, rfl, rfl, fun _ _ h => h⟩

lemma Reads.trans {t1 t2 t3 : StateTree} (h1 : Reads t1 t2) (h2 : Reads t2 t3) : Reads t1 t3 where
  root_eq := h2.root_eq.trans h1.root_eq
  below_eq := h2.below_eq.trans h1.below_eq
  view_eq := h2.view_eq.trans h1.view_eq
  cache_mono a r h := h2.cache_mono a r (h1.cache_mono a r h)

instance : IsPreorder StateTree Reads where
  refl := Reads.refl
  trans _ _ _ := Reads.trans

/-- The answer to `GetActor` for an address that `m` is asked for. -/
def lookupAnswer (m : Address → Option Actor) (addr : Address) : Except TreeErr Actor :=
  match m addr with
  | some act => .ok act
  | none => .error .actorNotFound

/-- `getActorAt` answers what the view holds, and only reads. -/
lemma getActorAt_spec (addr : Address) (t : StateTree) :
    ∃ t', Reads t t' ∧ getActorAt addr t = (lookupAnswer t.view addr, t') := by
  rcases hsnap : t.snapsGetActor addr with - | op
  · have hview : t.view addr = t.base addr := view_of_miss _ hsnap
    rcases hroot : t.root.lookup addr with - | act
    · refine ⟨t, Reads.refl t, ?_⟩
      simp only [getActorAt, hsnap, hroot, lookupAnswer, hview, base]
    · have hact : t.view addr = some act := hview.trans hroot
      refine ⟨t.snapsWrite addr (.put act), ⟨rfl, rfl, ?_, fun _ _ h => h⟩, ?_⟩ <;>
        grind [view_snapsWrite, Write.read_put, update_eq_self, getActorAt, lookupAnswer]
  · have hview : t.view addr = op.read := view_of_hit _ hsnap
    refine ⟨t, Reads.refl t, ?_⟩
    cases op <;> simp only [getActorAt, hsnap, lookupAnswer, hview, Write.read]

lemma getActorAt_cache (addr : Address) (t : StateTree) :
    (getActorAt addr t).2.resolveAddress = t.resolveAddress := by
  rw [getActorAt]
  rcases t.snapsGetActor addr with - | ⟨act⟩ | -
  · rcases t.root.lookup addr with - | act <;> rfl
  · rfl
  · rfl

variable (init : InitActor)

variable {addr : Address}

lemma lookupID_of_isID (h : addr.IsID) (t : StateTree) : lookupID init addr t = (.ok addr, t) := by
  rw [lookupID, if_pos h]

/-- `lookupID` only reads. When it answers, the answer is an ID address: the address itself, or an
ID that stays cached for it. -/
lemma lookupID_spec (addr : Address) (t : StateTree) : Reads t (lookupID init addr t).2 ∧
      ∀ r, (lookupID init addr t).1 = .ok r → (addr.IsID ∧ r = addr) ∨
          (¬addr.IsID ∧ ∃ id, r = .id id ∧
            (lookupID init addr t).2.resolveAddress addr = some id) := by
  by_cases hid : addr.IsID
  · rw [lookupID_of_isID init hid]
    refine ⟨Reads.refl t, fun r hr => Or.inl ⟨hid, ?_⟩⟩
    cases hr
    rfl
  rw [lookupID, if_neg hid]
  rcases hcache : t.resolveAddress addr with - | resa
  · obtain ⟨t', hreads, heq⟩ := getActorAt_spec initActorAddr t
    rcases hview : t.view initActorAddr with - | act
    · simp only [heq, lookupAnswer, hview]
      exact ⟨hreads, fun r hr => by cases hr⟩
    · simp only [heq, lookupAnswer, hview]
      rcases hres : init.resolveAddress act.head addr with err | ⟨a, ha⟩
      · exact ⟨hreads, fun r hr => by cases hr⟩
      · refine ⟨⟨hreads.root_eq, hreads.below_eq, hreads.view_eq, fun b r hb => ?_⟩,
          fun r hr => Or.inr ⟨hid, a, ?_, ?_⟩⟩
        · -- the new entry is for `addr`, which had none
          have hne : b ≠ addr := by grind
          rw [resolveAddress_cacheResolveAddress, update_of_ne hne]
          exact hreads.cache_mono b r hb
        · cases hr
          rfl
        · rw [resolveAddress_cacheResolveAddress, update_self]
  · simp only
    refine ⟨Reads.refl t, fun r hr => Or.inr ⟨hid, resa, ?_, hcache⟩⟩
    cases hr
    rfl

lemma lookupID_reads (addr : Address) (t : StateTree) : Reads t (lookupID init addr t).2 :=
  (lookupID_spec init addr t).1

lemma lookupID_isID {r : Address} (h : (lookupID init addr t).1 = .ok r) : r.IsID := by
  rcases (lookupID_spec init addr t).2 r h with ⟨hid, rfl⟩ | ⟨-, id, rfl, -⟩
  · exact hid
  · rfl

lemma lookupID_of_cached {id : UInt64} (hid : ¬addr.IsID) (h : t.resolveAddress addr = some id) :
    lookupID init addr t = (.ok (.id id), t) := by
  rw [lookupID, if_neg hid, h]

lemma lookupID_stable {r : Address} {t' : StateTree} (h : (lookupID init addr t).1 = .ok r)
    (hcache : ∀ a s, (lookupID init addr t).2.resolveAddress a = some s →
      t'.resolveAddress a = some s) : lookupID init addr t' = (.ok r, t') := by
  grind [lookupID_spec, lookupID_of_isID, lookupID_of_cached]

lemma lookupID_error_again {err : TreeErr} (h : (lookupID init addr t).1 = .error err) :
    (lookupID init addr (lookupID init addr t).2).1 = .error err := by
  have hid : ¬addr.IsID := by grind [lookupID_of_isID]
  rcases hcache : t.resolveAddress addr with - | resa
  swap
  · simp_all [lookupID_of_cached]
  obtain ⟨t', hreads, heq⟩ := getActorAt_spec initActorAddr t
  obtain ⟨t'', -, heq'⟩ := getActorAt_spec initActorAddr t'
  rw [hreads.view_eq] at heq'
  rcases hview : t.view initActorAddr with - | act
  · have hcache' : t'.resolveAddress addr = none := by
      have hread := getActorAt_cache initActorAddr t
      rw [heq] at hread
      rw [hread, hcache]
    grind [lookupID, lookupAnswer]
  · have hcache' : t'.resolveAddress addr = none := by
      have hread := getActorAt_cache initActorAddr t
      rw [heq] at hread
      rw [hread, hcache]
    simp only [lookupID, if_neg hid, hcache, heq, lookupAnswer, hview] at h ⊢
    rcases hres : init.resolveAddress act.head addr with err' | ⟨a, ha⟩
    · grind [lookupAnswer]
    · rw [hres] at h
      cases h

lemma lookupID_undef (t : StateTree) : ∃ err, (lookupID init .undef t).1 = .error err := by
  have hid : ¬Address.IsID .undef := by decide
  rw [lookupID, if_neg hid, resolveAddress_undef]
  obtain ⟨t', -, heq⟩ := getActorAt_spec initActorAddr t
  rcases hview : t.view initActorAddr with - | act
  · simp only [heq, lookupAnswer, hview]
    exact ⟨_, rfl⟩
  · simp only [heq, lookupAnswer, hview]
    rcases hres : init.resolveAddress act.head .undef with err | ⟨a, ha⟩ <;> grind

end StateTree

end Lotus
