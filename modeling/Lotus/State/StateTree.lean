import Lotus.Lib.Act
import Lotus.Lib.Layers
import Lotus.Types.Actor
import Lotus.Types.Errors

/-!
# The state tree

`chain/state/statetree.go`: actors by ID in a HAMT, with the pending changes in a stack of layers.
-/

namespace Lotus

open Layers

/-- `init_.State` behind the head of the init actor: loading it and resolving an address, and
loading it, assigning the next ID to an address and storing it again. The undefined address has no
entry in its map. -/
structure InitActor where
  resolveAddress : Cid → (addr : Address) → Except TreeErr { _id : UInt64 // addr ≠ .undef }
  mapAddressToNewID : Cid → Address → Except TreeErr (Cid × UInt64)

def InitActor.closed : InitActor where
  resolveAddress _ _ := .error .actorNotFound
  mapAddressToNewID _ _ := .error (.other "no ID left")

abbrev StreeOp := Write Actor

/-- `stateSnapLayer`. The cache holds answers of the init actor: IDs of defined addresses. -/
structure StateSnapLayer where
  actors : Layer Address StreeOp
  resolveCache : Layer Address UInt64
  cache_undef : resolveCache.lookup .undef = none
deriving DecidableEq

def newStateSnapLayer : StateSnapLayer := ⟨∅, ∅, Finmap.lookup_empty _⟩

def StateSnapLayer.merge (last nextLast : StateSnapLayer) : StateSnapLayer where
  actors := last.actors ∪ nextLast.actors
  resolveCache := last.resolveCache ∪ nextLast.resolveCache
  cache_undef := by
    rw [Finmap.lookup_union_right (Finmap.lookup_eq_none.mp last.cache_undef)]
    exact nextLast.cache_undef

def StateSnapLayer.cache (l : StateSnapLayer) (addr : Address) (id : UInt64) (h : addr ≠ .undef) :
    StateSnapLayer where
  actors := l.actors
  resolveCache := l.resolveCache.insert addr id
  cache_undef := by rw [Finmap.lookup_insert_of_ne _ h.symm, l.cache_undef]

abbrev Hamt := Finmap fun _ : Address => Actor

structure StateTree where
  root : Hamt
  top : StateSnapLayer
  below : List StateSnapLayer
deriving DecidableEq

namespace StateTree

def layers (t : StateTree) : List StateSnapLayer := t.top :: t.below

def addLayer (t : StateTree) : StateTree :=
  { t with top := newStateSnapLayer, below := t.top :: t.below }

def mergeLastLayer (t : StateTree) : Option StateTree :=
  match t.below with
  | [] => none
  | nextLast :: rest =>
    some { t with top := t.top.merge nextLast, below := rest }

def resolveAddress (t : StateTree) (addr : Address) : Option UInt64 :=
  firstHit (t.layers.map (·.resolveCache)) addr

def cacheResolveAddress (t : StateTree) (addr : Address) (id : UInt64) (h : addr ≠ .undef) :
    StateTree :=
  { t with top := t.top.cache addr id h }

/-- `stateSnaps.getActor`: the operation the layers have pending for the address, if any. -/
def snapsGetActor (t : StateTree) (addr : Address) : Option StreeOp :=
  firstHit (t.layers.map (·.actors)) addr

/-- `stateSnaps.setActor` and `stateSnaps.deleteActor`: an operation for the innermost layer. -/
def snapsWrite (t : StateTree) (addr : Address) (op : StreeOp) : StateTree :=
  { t with top := { t.top with actors := t.top.actors.insert addr op } }

/-! ## `StateTree` -/

def newStateTree : StateTree := ⟨∅, newStateSnapLayer, []⟩

def loadStateTree (c : Hamt) : StateTree := ⟨c, newStateSnapLayer, []⟩

/-- `GetActor` from the point where the address has become an ID address. A value found in the HAMT
is cached in the innermost layer. -/
def getActorAt (addr : Address) : Act StateTree TreeErr Actor := fun t =>
  match t.snapsGetActor addr with
  | some .del => (.error .actorNotFound, t)
  | some (.put act) => (.ok act, t)
  | none =>
    match t.root.lookup addr with
    | none => (.error .actorNotFound, t)
    | some act => (.ok act, t.snapsWrite addr (.put act))

variable (init : InitActor)

/-- `LookupID`. The init actor has an ID address, so the `GetActor` it calls does not come back
here. -/
def lookupID (addr : Address) : Act StateTree TreeErr Address := fun t =>
  if addr.IsID then (.ok addr, t)
  else
    match t.resolveAddress addr with
    | some resa => (.ok (.id resa), t)
    | none =>
      match getActorAt initActorAddr t with
      | (.error err, t') => (.error (.wrap "getting init actor" err), t')
      | (.ok act, t') =>
        match init.resolveAddress act.head addr with
        | .error err => (.error (.wrap "resolve address" err), t')
        | .ok ⟨a, h⟩ => (.ok (.id a), t'.cacheResolveAddress addr a h)

def getActor (addr : Address) : Act StateTree TreeErr Actor := do
  if addr = .undef then
    Act.fail (.other "GetActor called on undefined address")
  let iaddr ← (lookupID init addr).mapError fun err =>
    if err.isNotFound then .wrap "resolution lookup failed" err else .wrap "address resolution" err
  getActorAt iaddr

def setActor (addr : Address) (act : Actor) : Act StateTree TreeErr Unit := do
  let iaddr ← (lookupID init addr).mapError (.wrap "ID lookup failed")
  Act.modify (·.snapsWrite iaddr (.put act))

def deleteActor (addr : Address) : Act StateTree TreeErr Unit := do
  if addr = .undef then
    Act.fail (.other "DeleteActor called on undefined address")
  let iaddr ← (lookupID init addr).mapError fun err =>
    if err.isNotFound then .wrap "resolution lookup failed" err else .wrap "address resolution" err
  let _ ← getActor init iaddr
  Act.modify (·.snapsWrite iaddr .del)

/-- `MutateActor`; what the Go closure writes to captured variables is the second component of
`f`. -/
def mutateActor {β : Type} (addr : Address) (f : Actor → Except TreeErr (Actor × β)) :
    Act StateTree TreeErr β := do
  let act ← getActor init addr
  let (act', out) ← Act.ofExcept (f act)
  setActor init addr act'
  pure out

def registerNewAddress (addr : Address) : Act StateTree TreeErr Address :=
  mutateActor init initActorAddr fun initact => do
    let (ncid, id) ← init.mapAddressToNewID initact.head addr
    pure ({ initact with head := ncid }, .id id)

def snapshot (t : StateTree) : StateTree := t.addLayer

/-- `Revert`: drop the innermost layer and start an empty one in its place. -/
def revert (t : StateTree) : StateTree := { t with top := newStateSnapLayer }

/-- `ClearSnapshot`; `none` when it would index past the only layer. -/
def clearSnapshot (t : StateTree) : Option StateTree := t.mergeLastLayer

/-- The loop of `Flush` over the pending operations, in the order `es` in which Go ranges over the
map. It stops at the first deletion of a key that the HAMT does not have. -/
def flushEntries : List (Σ _ : Address, StreeOp) → Hamt → Except TreeErr Unit × Hamt
  | [], root => (.ok (), root)
  | ⟨addr, .del⟩ :: es, root =>
    if addr ∈ root then flushEntries es (root.erase addr)
    else (.error (.other "hamt delete: not found"), root)
  | ⟨addr, .put act⟩ :: es, root => flushEntries es (root.insert addr act)

/-- `Flush`, ranging over the pending operations in the order `es`. The HAMT is updated in place. -/
def flush (es : List (Σ _ : Address, StreeOp)) : Act StateTree TreeErr Hamt := fun t =>
  if t.below ≠ [] then
    (.error (.other "tried to flush state tree with snapshots on the stack"), t)
  else
    let r := flushEntries es t.root
    (r.1.map fun _ => r.2, { t with root := r.2 })

/-- `es` is an order in which Go may range over the pending operations. -/
def IterationOrder (t : StateTree) (es : List (Σ _ : Address, StreeOp)) : Prop :=
  (es : Multiset (Σ _ : Address, StreeOp)) = t.top.actors.entries

end StateTree

end Lotus
