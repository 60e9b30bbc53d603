import Lotus.State.View

/-!
# Access through arbitrary addresses

What `GetActor`, `SetActor`, `DeleteActor`, `MutateActor` and `RegisterNewAddress` do for an address
of any protocol, in terms of the ID it resolves to.
-/

namespace Lotus

open Layers Act

namespace StateTree

variable (init : InitActor)

/-- The tree resolves `addr` to `id` and does not change in doing so. -/
def Resolves (t : StateTree) (addr id : Address) : Prop := lookupID init addr t = (.ok id, t)

variable {init}

variable {addr : Address}

lemma Resolves.of_isID (init : InitActor) (h : addr.IsID) (t : StateTree) :
    Resolves init t addr addr := lookupID_of_isID init h t

variable {t : StateTree} {id : Address}

lemma Resolves.isID (h : Resolves init t addr id) : id.IsID :=
  lookupID_isID init (congrArg Prod.fst h)

lemma Resolves.unique {id' : Address} (h : Resolves init t addr id)
    (h' : Resolves init t addr id') : id' = id := by
  rw [Resolves, show lookupID init addr t = (.ok id', t) from h'] at h
  cases h
  rfl

variable {t' : StateTree}

lemma Resolves.mono (h : Resolves init t addr id)
    (hcache : ∀ a s, t.resolveAddress a = some s → t'.resolveAddress a = some s) :
    Resolves init t' addr id := by
  refine lookupID_stable init (congrArg Prod.fst h) ?_
  rwa [show lookupID init addr t = (.ok id, t) from h]

lemma Resolves.snapsWrite (h : Resolves init t addr id) (a : Address) (op : StreeOp) :
    Resolves init (t.snapsWrite a op) addr id :=
  h.mono fun _ _ h => h

lemma Resolves.ne_undef (h : Resolves init t addr id) : addr ≠ .undef := by
  rintro rfl
  obtain ⟨err, herr⟩ := lookupID_undef init t
  rw [show lookupID init .undef t = (.ok id, t) from h] at herr
  cases herr

lemma lookupID_ok (h : lookupID init addr t = (.ok id, t')) :
    Reads t t' ∧ Resolves init t' addr id := by
  have hreads := lookupID_reads init addr t
  rw [h] at hreads
  refine ⟨hreads, lookupID_stable init (congrArg Prod.fst h) ?_⟩
  rw [h]
  exact fun _ _ hcache => hcache

/-! ## Reading -/

lemma getActor_of_resolves (h : Resolves init t addr id) :
    ∃ t', Reads t t' ∧ getActor init addr t = (lookupAnswer t.view id, t') := by
  obtain ⟨t', hreads, heq⟩ := getActorAt_spec id t
  refine ⟨t', hreads, ?_⟩
  rw [getActor, if_neg h.ne_undef, ← heq]
  exact bind_of_ok (mapError_of_ok h)

/-- `GetActor` splits into the lookup and the read at the ID. -/
lemma getActor_cases (init : InitActor) (addr : Address) (t : StateTree) :
    (∃ err t', getActor init addr t = (.error err, t') ∧ Reads t t' ∧
      ∃ err', (lookupID init addr t').1 = .error err') ∨
    (∃ id t' t'', lookupID init addr t = (.ok id, t') ∧ Resolves init t' addr id ∧ Reads t t'' ∧
      Reads t' t'' ∧ getActor init addr t = (lookupAnswer t.view id, t'')) := by
  by_cases hundef : addr = .undef
  · refine Or.inl ⟨_, t, by rw [getActor, if_pos hundef]; rfl, Reads.refl t, ?_⟩
    rw [hundef]
    exact lookupID_undef init t
  rcases hlookup : lookupID init addr t with ⟨err | id, t'⟩
  · have hreads := lookupID_reads init addr t
    rw [hlookup] at hreads
    refine Or.inl ⟨if err.isNotFound then .wrap "resolution lookup failed" err
      else .wrap "address resolution" err, t', ?_, hreads, err, ?_⟩
    · rw [getActor, if_neg hundef]
      exact bind_of_error (mapError_of_error hlookup)
    · -- a lookup that failed fails again
      have hagain := lookupID_error_again init (congrArg Prod.fst hlookup)
      rwa [hlookup] at hagain
  · obtain ⟨hreads, hres⟩ := lookupID_ok hlookup
    obtain ⟨t'', hreads', heq⟩ := getActorAt_spec id t'
    refine Or.inr ⟨id, t', t'', rfl, hres, hreads.trans hreads', hreads', ?_⟩
    rw [getActor, if_neg hundef, ← hreads.view_eq, ← heq]
    exact bind_of_ok (mapError_of_ok hlookup)

lemma getActor_of_lookupID (hundef : addr ≠ .undef) (h : (lookupID init addr t).1 = .ok id) :
    (getActor init addr t).1 = lookupAnswer t.view id := by
  have hlookup : lookupID init addr t = (.ok id, (lookupID init addr t).2) := Prod.ext h rfl
  obtain ⟨hreads, -⟩ := lookupID_ok hlookup
  obtain ⟨t', -, heq⟩ := getActorAt_spec id (lookupID init addr t).2
  have hget : getActor init addr t = (lookupAnswer t.view id, t') := by
    rw [getActor, if_neg hundef, ← hreads.view_eq, ← heq]
    exact bind_of_ok (mapError_of_ok hlookup)
  rw [hget]

lemma getActor_reads (init : InitActor) (addr : Address) (t : StateTree) :
    Reads t (getActor init addr t).2 := by
  rcases getActor_cases init addr t with
    ⟨err, t', heq, hreads, -⟩ | ⟨_, _, t'', -, -, hreads, -, heq⟩
  · rwa [heq]
  · rwa [heq]

/-- An actor that `GetActor` returns is the one in the view at the ID of the address. -/
lemma getActor_ok {act : Actor} (h : getActor init addr t = (.ok act, t')) :
    ∃ id, Reads t t' ∧ Resolves init t' addr id ∧ t.view id = some act := by
  rcases getActor_cases init addr t with
    ⟨err, t1, heq, -, -⟩ | ⟨id, t1, t2, -, hres, hreads, hreads', heq⟩
  · rw [heq] at h
    cases h
  · rw [heq, Prod.mk.injEq] at h
    obtain ⟨hans, rfl⟩ := h
    refine ⟨id, hreads, hres.mono hreads'.cache_mono, ?_⟩
    rw [lookupAnswer] at hans
    grind

lemma lookupID_of_getActor_ok {act : Actor} (h : getActor init addr t = (.ok act, t'))
    (hid : Resolves init t' addr id) :
    (lookupID init addr t).1 = .ok id := by
  rcases getActor_cases init addr t with
    ⟨err, t1, heq, -, -⟩ | ⟨id', t1, t2, hlookup, hres, -, hreads', heq⟩
  · rw [heq] at h
    cases h
  · rw [heq, Prod.mk.injEq] at h
    obtain ⟨-, rfl⟩ := h
    rw [hlookup, hid.unique (hres.mono hreads'.cache_mono)]

/-- When `GetActor` fails, there is no actor at the ID that a later lookup may find. -/
lemma getActor_error {err : TreeErr} (h : getActor init addr t = (.error err, t')) :
    Reads t t' ∧ ∀ id t'', lookupID init addr t' = (.ok id, t'') → t'.view id = none := by
  rcases getActor_cases init addr t with
    ⟨err', t1, heq, hreads, e, he⟩ | ⟨id, t1, t2, -, hres, hreads, hreads', heq⟩
  · grind
  · rw [heq, Prod.mk.injEq] at h
    obtain ⟨hans, rfl⟩ := h
    refine ⟨hreads, fun id' t'' hid' => ?_⟩
    have hsame : id' = id := by
      have hid := hres.mono hreads'.cache_mono
      rw [Resolves, hid'] at hid
      cases hid
      rfl
    subst hsame
    rw [lookupAnswer] at hans
    rcases hview : t.view id' with - | act <;> simp_all [hreads.view_eq]

lemma setActor_of_resolves (h : Resolves init t addr id) (act : Actor) :
    setActor init addr act t = (.ok (), t.snapsWrite id (.put act)) :=
  bind_of_ok (mapError_of_ok h)

lemma setActor_cases (init : InitActor) (addr : Address) (act : Actor) (t : StateTree) :
    (∃ err t', setActor init addr act t = (.error err, t') ∧ Reads t t') ∨
    (∃ id t', lookupID init addr t = (.ok id, t') ∧ Reads t t' ∧ Resolves init t' addr id ∧
      setActor init addr act t = (.ok (), t'.snapsWrite id (.put act))) := by
  rcases hlookup : lookupID init addr t with ⟨err | id, t'⟩
  · have hreads := lookupID_reads init addr t
    rw [hlookup] at hreads
    exact Or.inl ⟨.wrap "ID lookup failed" err, t',
      bind_of_error (mapError_of_error hlookup), hreads⟩
  · obtain ⟨hreads, hres⟩ := lookupID_ok hlookup
    exact Or.inr ⟨id, t', rfl, hreads, hres, bind_of_ok (mapError_of_ok hlookup)⟩

/-- `MutateActor` writes what the function makes of the actor at the ID of the address, or fails and
has only read. -/
lemma mutateActor_cases {β : Type} (init : InitActor) (addr : Address)
    (f : Actor → Except TreeErr (Actor × β)) (t : StateTree) :
    (∃ err t', mutateActor init addr f t = (.error err, t') ∧ Reads t t') ∨
    (∃ id t' act act' out, Reads t t' ∧ Resolves init t' addr id ∧ t.view id = some act ∧
      f act = .ok (act', out) ∧
      mutateActor init addr f t = (.ok out, t'.snapsWrite id (.put act'))) := by
  rcases hget : getActor init addr t with ⟨err | act, t'⟩
  · exact Or.inl ⟨err, t', bind_of_error hget, (getActor_error hget).1⟩
  · obtain ⟨id, hreads, hres, hview⟩ := getActor_ok hget
    rcases hf : f act with err | ⟨act', out⟩
    · refine Or.inl ⟨err, t', ?_, hreads⟩
      rw [mutateActor, bind_of_ok hget, hf]
      rfl
    · refine Or.inr ⟨id, t', act, act', out, hreads, hres, hview, hf, ?_⟩
      rw [mutateActor, bind_of_ok hget, hf]
      have hset := setActor_of_resolves hres act'
      exact bind_of_ok hset

lemma mutateActor_of_resolves {β : Type} (h : Resolves init t addr id)
    (f : Actor → Except TreeErr (Actor × β)) {act : Actor} (hview : t.view id = some act) :
    ∃ t', Reads t t' ∧ mutateActor init addr f t =
      match f act with
      | .ok (act', out) => (.ok out, t'.snapsWrite id (.put act'))
      | .error err => (.error err, t') := by
  obtain ⟨t', hreads, hget⟩ := getActor_of_resolves h
  rw [lookupAnswer, hview] at hget
  refine ⟨t', hreads, ?_⟩
  rw [mutateActor, bind_of_ok hget]
  rcases f act with err | ⟨act', out⟩
  · rfl
  · exact bind_of_ok (setActor_of_resolves (h.mono hreads.cache_mono) act')

/-- `RegisterNewAddress` gives an ID address and changes the head of the init actor, or fails and
has only read. -/
lemma registerNewAddress_cases (init : InitActor) (addr : Address) (t : StateTree) :
    (∃ err t', registerNewAddress init addr t = (.error err, t') ∧ Reads t t') ∨
    (∃ id ncid t' act, Reads t t' ∧ t.view initActorAddr = some act ∧
      init.mapAddressToNewID act.head addr = .ok (ncid, id) ∧
      registerNewAddress init addr t =
        (.ok (.id id), t'.snapsWrite initActorAddr (.put { act with head := ncid }))) := by
  rw [registerNewAddress]
  rcases mutateActor_cases init initActorAddr (fun initact => do
      let assigned ← init.mapAddressToNewID initact.head addr
      pure ({ initact with head := assigned.1 }, Address.id assigned.2)) t with
    ⟨err, t', hrun, hreads⟩ | ⟨iid, t', act, act', out, hreads, hres, hview, hf, hrun⟩
  · exact Or.inl ⟨err, t', hrun, hreads⟩
  · have hid : initActorAddr = iid := hres.unique (Resolves.of_isID init (Address.isID_id 1) t')
    subst hid
    rcases hmap : init.mapAddressToNewID act.head addr with err | ⟨ncid, id⟩
    · rw [hmap] at hf
      cases hf
    · rw [hmap] at hf
      cases hf
      exact Or.inr ⟨id, ncid, t', act, hreads, hview, hmap, hrun⟩

lemma deleteActor_cases (init : InitActor) (addr : Address) (t : StateTree) :
    (∃ err t', deleteActor init addr t = (.error err, t') ∧ Reads t t') ∨
    (∃ id t' act, Reads t t' ∧ Resolves init t' addr id ∧ t.view id = some act ∧
      deleteActor init addr t = (.ok (), t'.snapsWrite id .del)) := by
  by_cases hundef : addr = .undef
  · exact Or.inl ⟨_, t, by rw [deleteActor, if_pos hundef]; rfl, Reads.refl t⟩
  rcases hlookup : lookupID init addr t with ⟨err | id, t1⟩
  · have hreads := lookupID_reads init addr t
    rw [hlookup] at hreads
    refine Or.inl ⟨if err.isNotFound then .wrap "resolution lookup failed" err
      else .wrap "address resolution" err, t1, ?_, hreads⟩
    rw [deleteActor, if_neg hundef]
    exact bind_of_error (mapError_of_error hlookup)
  · obtain ⟨hreads, hres⟩ := lookupID_ok hlookup
    have hrun : deleteActor init addr t = (getActor init id >>= fun _ =>
        modify (·.snapsWrite id .del)) t1 := by
      rw [deleteActor, if_neg hundef]
      exact bind_of_ok (mapError_of_ok hlookup)
    rcases hget : getActor init id t1 with ⟨err | act, t2⟩
    · exact Or.inl ⟨err, t2, by rw [hrun, bind_of_error hget], hreads.trans (getActor_error hget).1⟩
    · obtain ⟨id', hreads', hres', hview⟩ := getActor_ok hget
      have hid : id' = id := by
        rw [Resolves, lookupID_of_isID init hres.isID] at hres'
        cases hres'
        rfl
      subst hid
      refine Or.inr ⟨id', t2, act, hreads.trans hreads', hres.mono hreads'.cache_mono, ?_, ?_⟩
      · rw [← hreads.view_eq, hview]
      · rw [hrun, bind_of_ok hget]
        rfl

end StateTree

end Lotus
