import Lotus.State.Access

/-!
# Coherent address caches

A tree whose address caches only hold what the init actor answers now resolves every address as the
init actor does, whatever was looked up on it before.
-/

namespace Lotus

open Layers

namespace StateTree

variable (init : InitActor)

def Coherent (t : StateTree) : Prop :=
  ∀ addr id, t.resolveAddress addr = some id →
    ∃ act h, t.view initActorAddr = some act ∧ init.resolveAddress act.head addr = .ok ⟨id, h⟩

def resolveIn (v : Address → Option Actor) (addr : Address) : Except TreeErr Address :=
  if addr.IsID then .ok addr
  else
    match v initActorAddr with
    | none => .error (.wrap "getting init actor" .actorNotFound)
    | some act =>
      match init.resolveAddress act.head addr with
      | .error err => .error (.wrap "resolve address" err)
      | .ok ⟨a, _⟩ => .ok (.id a)

def actorIn (v : Address → Option Actor) (addr : Address) : Except TreeErr Actor :=
  if addr = .undef then .error (.other "GetActor called on undefined address")
  else
    match resolveIn init v addr with
    | .error err =>
      .error (if err.isNotFound then .wrap "resolution lookup failed" err
        else .wrap "address resolution" err)
    | .ok id => lookupAnswer v id

variable {init}

lemma actorIn_ok {v : Address → Option Actor} {addr : Address} {act : Actor}
    (h : actorIn init v addr = .ok act) :
    ∃ id, resolveIn init v addr = .ok id ∧ v id = some act := by
  grind [actorIn, lookupAnswer]

lemma coherent_loadStateTree (init : InitActor) (root : Hamt) :
    Coherent init (loadStateTree root) := by
  intro addr id h
  rw [resolveAddress, loadStateTree, layers, List.map_cons, List.map_nil, newStateSnapLayer,
    firstHit_empty_cons, firstHit_nil] at h
  cases h

/-- `LookupID` on a coherent tree. -/
lemma lookupID_of_coherent {t : StateTree} (h : Coherent init t) (addr : Address) :
    (lookupID init addr t).1 = resolveIn init t.view addr ∧
      Coherent init (lookupID init addr t).2 := by
  unfold resolveIn
  by_cases hid : addr.IsID
  · grind [lookupID_of_isID]
  rw [if_neg hid]
  rcases hcache : t.resolveAddress addr with - | resa
  · obtain ⟨t', hreads', heq⟩ := getActorAt_spec initActorAddr t
    have hcache' := getActorAt_cache initActorAddr t
    rw [heq] at hcache'
    have hcoherent : Coherent init t' := by
      intro a id ha
      rw [hcache'] at ha
      rw [hreads'.view_eq]
      exact h a id ha
    rcases hview : t.view initActorAddr with - | act
    · simp only [lookupID, if_neg hid, hcache, heq, lookupAnswer, hview]
      exact ⟨trivial, hcoherent⟩
    · rcases hres : init.resolveAddress act.head addr with err | ⟨a, ha⟩
      · simp only [lookupID, if_neg hid, hcache, heq, lookupAnswer, hview, hres]
        exact ⟨trivial, hcoherent⟩
      · simp only [lookupID, if_neg hid, hcache, heq, lookupAnswer, hview, hres]
        refine ⟨trivial, fun b id hb => ?_⟩
        rw [view_cacheResolveAddress, hreads'.view_eq, hview]
        rw [resolveAddress_cacheResolveAddress] at hb
        by_cases hba : b = addr
        · subst hba
          rw [Function.update_self] at hb
          cases hb
          exact ⟨act, ha, rfl, hres⟩
        · rw [Function.update_of_ne hba] at hb
          obtain ⟨act', h', hact', hb'⟩ := hcoherent b id hb
          rw [hreads'.view_eq, hview] at hact'
          cases hact'
          exact ⟨act, h', rfl, hb'⟩
  · rw [lookupID_of_cached init hid hcache]
    obtain ⟨act, ha, hview, hres⟩ := h addr resa hcache
    simp only [hview, hres]
    exact ⟨trivial, h⟩

/-- `GetActor` on a coherent tree. -/
lemma getActor_of_coherent {t : StateTree} (h : Coherent init t) (addr : Address) :
    (getActor init addr t).1 = actorIn init t.view addr ∧
      Coherent init (getActor init addr t).2 := by
  unfold actorIn
  by_cases hundef : addr = .undef
  · rw [getActor, if_pos hundef, if_pos hundef]
    exact ⟨rfl, h⟩
  rw [if_neg hundef]
  obtain ⟨hanswer, hcoherent⟩ := lookupID_of_coherent h addr
  have hreads := lookupID_reads init addr t
  rcases hlookup : lookupID init addr t with ⟨err | id, t'⟩
  · rw [hlookup] at hanswer hcoherent
    have hget : getActor init addr t = (.error (if err.isNotFound then
        .wrap "resolution lookup failed" err else .wrap "address resolution" err), t') := by
      rw [getActor, if_neg hundef]
      exact Act.bind_of_error (Act.mapError_of_error hlookup)
    rw [hget, ← hanswer]
    exact ⟨rfl, hcoherent⟩
  · rw [hlookup] at hanswer hcoherent hreads
    obtain ⟨t'', hreads', heq⟩ := getActorAt_spec id t'
    have hcache' := getActorAt_cache id t'
    rw [heq] at hcache'
    have hget : getActor init addr t = (lookupAnswer t'.view id, t'') := by
      rw [getActor, if_neg hundef, ← heq]
      exact Act.bind_of_ok (Act.mapError_of_ok hlookup)
    rw [hget, ← hanswer, hreads.view_eq]
    refine ⟨rfl, fun a i ha => ?_⟩
    rw [hcache'] at ha
    rw [hreads'.view_eq]
    exact hcoherent a i ha

end StateTree

end Lotus
