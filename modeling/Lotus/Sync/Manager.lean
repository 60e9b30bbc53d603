import Lotus.Chain.Reorg
import Lotus.Lib.Runs
import Lotus.Sub.Incoming

/-!
# The sync manager

`chain/sync_manager.go`: the heads that peers announce, the scheduler that decides which of them is
synced next, and the workers that sync them.
-/

namespace Lotus

/-! ## Buckets -/

def TipSet.parentWeight (ts : TipSet) : ℤ := ts.first.parentWeight

/-- `syncTargetBucket`: its tips, of which there is at least one. -/
structure SyncBucket where
  first : TipSet
  rest : List TipSet

def SyncBucket.tips (b : SyncBucket) : List TipSet := b.first :: b.rest

def SyncBucket.heaviestTipSet (b : SyncBucket) : TipSet :=
  b.rest.foldl (fun best ts => if ts.parentWeight > best.parentWeight then ts else best) b.first

section

variable (hashing : Hashing)

def SyncBucket.sameChainAs (b : SyncBucket) (ts : TipSet) : Bool :=
  b.tips.any fun t =>
    ts.equals hashing t || ts.cids hashing = t.parents || ts.parents = t.cids hashing

def SyncBucket.add (b : SyncBucket) (ts : TipSet) : SyncBucket :=
  if b.tips.any (·.equals hashing ts) then b else { b with rest := b.rest ++ [ts] }

abbrev SyncBuckets := List SyncBucket

namespace SyncBuckets

def relatedToAny (bs : SyncBuckets) (ts : TipSet) : Bool := bs.any (·.sameChainAs hashing ts)

def insert (ts : TipSet) : SyncBuckets → SyncBuckets
  | [] => [⟨ts, []⟩]
  | b :: bs => if b.sameChainAs hashing ts then b.add hashing ts :: bs else b :: insert ts bs

def popRelated (ts : TipSet) : SyncBuckets → Option (SyncBucket × SyncBuckets)
  | [] => none
  | b :: bs =>
    if b.sameChainAs hashing ts then some (b, bs)
    else (popRelated ts bs).map fun (r, bs') => (r, b :: bs')

/-- `Pop`, with the buckets that are left: the first one of those whose heaviest tipset weighs
most. -/
def pop : SyncBuckets → Option (SyncBucket × SyncBuckets)
  | [] => none
  | b :: bs =>
    match pop bs with
    | none => some (b, [])
    | some (best, bs') =>
      if b.heaviestTipSet.parentWeight < best.heaviestTipSet.parentWeight then some (best, b :: bs')
      else some (b, bs)

def heaviest (bs : SyncBuckets) : Option TipSet :=
  bs.foldl
    (fun bestTs b =>
      match bestTs with
      | none => some b.heaviestTipSet
      | some best =>
        if b.heaviestTipSet.parentWeight > best.parentWeight then some b.heaviestTipSet
        else some best)
    none

end SyncBuckets

end

/-! ## The manager -/

/-- The values of `bootstrapState`. -/
inductive BootstrapState where
  | init
  | selected
  | scheduled
  | complete
deriving DecidableEq

structure SyncManager where
  peerHeads : List (PeerID × TipSet)
  bootstrapState : BootstrapState
  /-- The map by keys -/
  activeSyncs : List TipSet
  syncQueue : SyncBuckets
  activeSyncTips : SyncBuckets
  nextSyncTarget : Option SyncBucket
  /-- What `SetPeerHead` waits to send to the scheduler -/
  incoming : Option TipSet
  /-- What workers are syncing, or have synced without the result being taken yet -/
  syncing : List TipSet

def newSyncManager : SyncManager := ⟨[], .init, [], [], [], none, none, []⟩

def syncWorkerCount : ℕ := 3

def bspThresh : ℕ := 1

def SyncManager.syncedPeerCount (sm : SyncManager) : ℕ :=
  (sm.peerHeads.filter fun p => 0 < p.2.height).length

section

variable (hashing : Hashing)

def selectSyncTarget (heads : List TipSet) : Option TipSet :=
  SyncBuckets.heaviest (heads.foldl (fun bs ts => bs.insert hashing ts) [])

/-- `SetPeerHead`, up to where it waits for the scheduler. Heads of the same height come in any
order in `heads`. -/
def setPeerHead (p : PeerID) (ts : TipSet) (heads : List TipSet) (sm : SyncManager) :
    Option SyncManager :=
  let sm' := { sm with peerHeads := (p, ts) :: sm.peerHeads.filter (·.1 ≠ p) }
  if sm.incoming.isSome then none
  else if sm.bootstrapState = .init then
    if bspThresh ≤ sm'.syncedPeerCount then
      if heads.Perm (sm'.peerHeads.map (·.2)) ∧ heads.Pairwise (·.height ≤ ·.height) then
        some { sm' with bootstrapState := .selected, incoming := selectSyncTarget hashing heads }
      else none
    else some sm'
  else some { sm' with incoming := some ts }

/-- The loop of `scheduleIncoming` over the active syncs. -/
def activeLoop (ts : TipSet) : List TipSet → Bool → Bool
  | [], related => related
  | acts :: order, related =>
    if ts.equals hashing acts then related
    else activeLoop ts order (related || ts.parents = acts.cids hashing)

/-- `relatedToActiveSync`, where the map of active syncs is gone through in the order `order`. -/
def relatedToActiveSync (order : List TipSet) (ts : TipSet) (sm : SyncManager) : Bool :=
  activeLoop hashing ts order false || sm.activeSyncTips.relatedToAny hashing ts

def SyncManager.popNext (sm : SyncManager) : SyncManager :=
  match sm.syncQueue.pop with
  | some (b, bs) => { sm with nextSyncTarget := some b, syncQueue := bs }
  | none => sm

def scheduleIncoming (order : List TipSet) (ts : TipSet) (sm : SyncManager) : SyncManager :=
  if sm.bootstrapState = .selected then
    { sm with bootstrapState := .scheduled, syncing := ts :: sm.syncing }
  else if relatedToActiveSync hashing order ts sm then
    { sm with activeSyncTips := sm.activeSyncTips.insert hashing ts }
  else if sm.bootstrapState = .scheduled then
    { sm with syncQueue := sm.syncQueue.insert hashing ts }
  else
    match sm.nextSyncTarget with
    | some b =>
      if b.sameChainAs hashing ts then { sm with nextSyncTarget := some (b.add hashing ts) }
      else { sm with syncQueue := sm.syncQueue.insert hashing ts }
    | none => { sm with syncQueue := sm.syncQueue.insert hashing ts }.popNext

/-- The end of `scheduleProcessResult`: a next target if there is none. -/
def SyncManager.refill (sm : SyncManager) : SyncManager :=
  match sm.nextSyncTarget with
  | some _ => sm
  | none => sm.popNext

def scheduleProcessResult (ts : TipSet) (success : Bool) (sm : SyncManager) : SyncManager :=
  let sm :=
    { sm with
      bootstrapState := if success then .complete else sm.bootstrapState
      activeSyncs := sm.activeSyncs.filter fun a => !a.equals hashing ts }
  match sm.activeSyncTips.popRelated hashing ts with
  | some (relbucket, bs) =>
    if success then
      match sm.nextSyncTarget with
      | none => { sm with activeSyncTips := bs, nextSyncTarget := some relbucket }
      | some _ => { sm with activeSyncTips := bs, syncQueue := sm.syncQueue ++ [relbucket] }
    else { sm with activeSyncTips := bs }.refill
  | none => sm.refill

/-- `scheduleWorkSent`, where the heaviest tipset of the next target is taken by a worker. -/
def scheduleWorkSent (next : SyncBucket) (sm : SyncManager) : SyncManager :=
  let hts := next.heaviestTipSet
  { sm with
    activeSyncs := hts :: sm.activeSyncs.filter fun a => !a.equals hashing hts
    syncing := hts :: sm.syncing
    nextSyncTarget := none }.popNext

/-- What happens to the manager. -/
inductive SyncEvent where
  | setPeerHead (p : PeerID) (ts : TipSet) (heads : List TipSet)
  | incoming (order : List TipSet)
  | workSent
  | result (ts : TipSet) (success : Bool)

def SyncManager.HasIdle (sm : SyncManager) : Prop := sm.syncing.length < syncWorkerCount

instance (sm : SyncManager) : Decidable sm.HasIdle := inferInstanceAs (Decidable (_ < _))

def handedBy (sm : SyncManager) : SyncEvent → Option TipSet
  | .incoming _ => if sm.bootstrapState = .selected then sm.incoming else none
  | .workSent => sm.nextSyncTarget.map (·.heaviestTipSet)
  | _ => none

def syncStep (sm : SyncManager) (e : SyncEvent) : Option SyncManager :=
  if (handedBy sm e).isSome ∧ ¬sm.HasIdle then none
  else
    match e with
    | .setPeerHead p ts heads => setPeerHead hashing p ts heads sm
    | .incoming order =>
      match sm.incoming with
      | some ts =>
        if order.Perm sm.activeSyncs then
          some (scheduleIncoming hashing order ts { sm with incoming := none })
        else none
      | none => none
    | .workSent => sm.nextSyncTarget.map fun next => scheduleWorkSent hashing next sm
    | .result ts success =>
      if ts ∈ sm.syncing then
        some (scheduleProcessResult hashing ts success { sm with syncing := sm.syncing.erase ts })
      else none

end

variable {hashing : Hashing} {sm sm' : SyncManager}

lemma setPeerHead_eq_some {p : PeerID} {ts : TipSet} {heads : List TipSet}
    (h : setPeerHead hashing p ts heads sm = some sm') :
    ∃ peerHeads bootstrapState incoming, sm' = { sm with peerHeads, bootstrapState, incoming } := by
  unfold setPeerHead at h
  dsimp only at h
  split_ifs at h <;> cases h <;> exact ⟨_, _, _, rfl⟩

lemma syncStep_cases {e : SyncEvent} (h : syncStep hashing sm e = some sm') :
    (∃ p ts heads, e = .setPeerHead p ts heads ∧ setPeerHead hashing p ts heads sm = some sm') ∨
    (∃ order ts, e = .incoming order ∧ sm.incoming = some ts ∧ order.Perm sm.activeSyncs ∧
      sm' = scheduleIncoming hashing order ts { sm with incoming := none }) ∨
    (∃ next, e = .workSent ∧ sm.nextSyncTarget = some next ∧
      sm' = scheduleWorkSent hashing next sm) ∨
    ∃ ts success, e = .result ts success ∧ ts ∈ sm.syncing ∧ sm' =
        scheduleProcessResult hashing ts success { sm with syncing := sm.syncing.erase ts } := by
  unfold syncStep at h
  split_ifs at h
  cases e with
  | setPeerHead p ts heads => exact .inl ⟨p, ts, heads, rfl, h⟩
  | incoming order => grind
  | workSent => grind [Option.map_eq_some_iff]
  | result ts success => grind

end Lotus
