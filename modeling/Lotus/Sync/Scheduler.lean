import Lotus.Sync.Duplicates

/-!
# The state of the scheduler

The sync manager as `chain/sync_manager.go` has it: buckets are slices of tips, and a variable
`workerChan` says whether the next target is offered to the workers.
-/

namespace Lotus

open List Option

/-! ## The source -/

abbrev TargetBucket := List TipSet

section

variable (hashing : Hashing)

namespace TargetBucket

def sameChainAs (stb : TargetBucket) (ts : TipSet) : Bool :=
  stb.any fun t =>
    ts.equals hashing t || ts.cids hashing = t.parents || ts.parents = t.cids hashing

def add (stb : TargetBucket) (ts : TipSet) : TargetBucket :=
  if stb.any (·.equals hashing ts) then stb else stb ++ [ts]

def heaviestTipSet (stb : TargetBucket) : Option TipSet :=
  stb.foldl
    (fun best ts =>
      match best with
      | none => some ts
      | some b => if ts.parentWeight > b.parentWeight then some ts else some b)
    none

def relatedToAny (sbs : List TargetBucket) (ts : TipSet) : Bool :=
  sbs.any (sameChainAs hashing · ts)

def insert (ts : TipSet) : List TargetBucket → List TargetBucket
  | [] => [add hashing [] ts]
  | b :: sbs => if sameChainAs hashing b ts then add hashing b ts :: sbs else b :: insert ts sbs

/-- The comparison of `Pop`. There is no weight of no tipset. -/
def lighter (bestTs hts : Option TipSet) : Option Bool := do
  let bestTs ← bestTs
  let hts ← hts
  pure (bestTs.parentWeight < hts.parentWeight)

/-- The loop of `Pop`: the best bucket, those before it, and those after it. -/
def popLoop (pre : List TargetBucket) (bestBuck : TargetBucket) (post : List TargetBucket) :
    List TargetBucket → Option (List TargetBucket × TargetBucket × List TargetBucket)
  | [] => some (pre, bestBuck, post)
  | b :: sbs => do
    if ← lighter (heaviestTipSet bestBuck) (heaviestTipSet b) then
      popLoop (pre ++ bestBuck :: post) b [] sbs
    else popLoop pre bestBuck (post ++ [b]) sbs

/-- `Pop`, with the buckets that are left. It panics if there are none, or if one is empty. -/
def pop : List TargetBucket → Option (TargetBucket × List TargetBucket)
  | [] => none
  | b :: sbs => (popLoop [] b [] sbs).map fun (pre, bestBuck, post) => (bestBuck, pre ++ post)

def popRelated (ts : TipSet) : List TargetBucket → Option TargetBucket × List TargetBucket
  | [] => (none, [])
  | b :: sbs =>
    if sameChainAs hashing b ts then (some b, sbs)
    else ((popRelated ts sbs).1, b :: (popRelated ts sbs).2)

end TargetBucket

/-- `SyncManager`, with what the workers are at. -/
structure Scheduler where
  peerHeads : List (PeerID × TipSet)
  bootstrapState : BootstrapState
  activeSyncs : List TipSet
  syncQueue : List TargetBucket
  activeSyncTips : List TargetBucket
  nextSyncTarget : Option TargetBucket
  workerChan : Bool
  incoming : Option TipSet
  syncing : List TipSet

namespace Scheduler

def new : Scheduler := ⟨[], .init, [], [], [], none, false, none, []⟩

variable (s : Scheduler)

def setPeerHead (p : PeerID) (ts : TipSet) (heads : List TipSet) : Option Scheduler :=
  let s' := { s with peerHeads := (p, ts) :: s.peerHeads.filter (·.1 ≠ p) }
  if s.incoming.isSome then none
  else if s.bootstrapState = .init then
    if bspThresh ≤ (s'.peerHeads.filter fun p => 0 < p.2.height).length then
      if heads.Perm (s'.peerHeads.map (·.2)) ∧ heads.Pairwise (·.height ≤ ·.height) then
        some { s' with bootstrapState := .selected, incoming := selectSyncTarget hashing heads }
      else none
    else some s'
  else some { s' with incoming := some ts }

def scheduleIncoming (order : List TipSet) (ts : TipSet) : Option Scheduler :=
  if s.bootstrapState = .selected then
    some { s with bootstrapState := .scheduled, syncing := ts :: s.syncing }
  else if activeLoop hashing ts order false ||
      TargetBucket.relatedToAny hashing s.activeSyncTips ts then
    some { s with activeSyncTips := TargetBucket.insert hashing ts s.activeSyncTips }
  else if s.bootstrapState = .scheduled then
    some { s with syncQueue := TargetBucket.insert hashing ts s.syncQueue }
  else
    match s.nextSyncTarget with
    | some b =>
      if TargetBucket.sameChainAs hashing b ts then
        some { s with nextSyncTarget := some (TargetBucket.add hashing b ts) }
      else some { s with syncQueue := TargetBucket.insert hashing ts s.syncQueue }
    | none => do
      let (next, syncQueue) ← TargetBucket.pop (TargetBucket.insert hashing ts s.syncQueue)
      pure { s with syncQueue, nextSyncTarget := some next, workerChan := true }

/-- The end of `scheduleProcessResult`. -/
def refill : Option Scheduler :=
  if s.nextSyncTarget.isNone ∧ ¬s.syncQueue.isEmpty then do
    let (next, syncQueue) ← TargetBucket.pop s.syncQueue
    pure { s with syncQueue, nextSyncTarget := some next, workerChan := true }
  else some s

def scheduleProcessResult (ts : TipSet) (success : Bool) : Option Scheduler :=
  let (relbucket, activeSyncTips) := TargetBucket.popRelated hashing ts s.activeSyncTips
  let s :=
    { s with
      bootstrapState :=
        if success ∧ s.bootstrapState ≠ BootstrapState.complete then .complete
        else s.bootstrapState
      activeSyncs := s.activeSyncs.filter fun a => !a.equals hashing ts
      activeSyncTips }
  match relbucket with
  | some relbucket =>
    if success then
      match s.nextSyncTarget with
      | none => some { s with nextSyncTarget := some relbucket, workerChan := true }
      | some _ => some { s with syncQueue := s.syncQueue ++ [relbucket] }
    else s.refill
  | none => s.refill

/-- `scheduleWorkSent`. It panics if there is no tipset to be sent. -/
def scheduleWorkSent : Option Scheduler := do
  let next ← s.nextSyncTarget
  let hts ← next.heaviestTipSet
  let s :=
    { s with
      activeSyncs := hts :: s.activeSyncs.filter fun a => !a.equals hashing hts
      syncing := hts :: s.syncing }
  if ¬s.syncQueue.isEmpty then
    let (next, syncQueue) ← TargetBucket.pop s.syncQueue
    pure { s with syncQueue, nextSyncTarget := some next }
  else pure { s with nextSyncTarget := none, workerChan := false }

/-- A step of the loop of `syncScheduler`, or a `SetPeerHead`. -/
def step (e : SyncEvent) : Option Scheduler :=
  match e with
  | .setPeerHead p ts heads => s.setPeerHead hashing p ts heads
  | .incoming order =>
    match s.incoming with
    | some ts =>
      if s.bootstrapState = .selected ∧ ¬s.syncing.length < syncWorkerCount then none
      else if order.Perm s.activeSyncs then
        { s with incoming := none }.scheduleIncoming hashing order ts
      else none
    | none => none
  | .workSent =>
    if s.workerChan ∧ s.syncing.length < syncWorkerCount then s.scheduleWorkSent hashing else none
  | .result ts success =>
    if ts ∈ s.syncing then
      { s with syncing := s.syncing.erase ts }.scheduleProcessResult hashing ts success
    else none

end Scheduler

end

variable {hashing : Hashing}

/-! ## The abstract machine -/

def SyncBuckets.toTargets (bs : SyncBuckets) : List TargetBucket := bs.map SyncBucket.tips

@[simps]
def SyncManager.toScheduler (sm : SyncManager) : Scheduler where
  peerHeads := sm.peerHeads
  bootstrapState := sm.bootstrapState
  activeSyncs := sm.activeSyncs
  syncQueue := sm.syncQueue.toTargets
  activeSyncTips := sm.activeSyncTips.toTargets
  nextSyncTarget := sm.nextSyncTarget.map SyncBucket.tips
  workerChan := sm.nextSyncTarget.isSome
  incoming := sm.incoming
  syncing := sm.syncing

namespace SyncBucket

lemma tips_add (b : SyncBucket) (ts : TipSet) :
    (b.add hashing ts).tips = TargetBucket.add hashing b.tips ts := by
  unfold add TargetBucket.add
  split_ifs
  · rfl
  · rfl

lemma heaviestTipSet_tips (b : SyncBucket) :
    TargetBucket.heaviestTipSet b.tips = some b.heaviestTipSet := by
  obtain ⟨first, rest⟩ := b
  rw [TargetBucket.heaviestTipSet, heaviestTipSet, tips, foldl_cons]
  induction rest generalizing first with
  | nil => rfl
  | cons ts rest ih => grind

end SyncBucket

namespace SyncBuckets

lemma toTargets_cons (b : SyncBucket) (bs : SyncBuckets) :
    toTargets (b :: bs) = b.tips :: toTargets bs := rfl

lemma toTargets_insert (bs : SyncBuckets) (ts : TipSet) :
    toTargets (insert hashing ts bs) = TargetBucket.insert hashing ts (toTargets bs) := by
  induction bs with
  | nil => rfl
  | cons b bs ih =>
    rw [toTargets_cons, insert, TargetBucket.insert]
    show _ = if b.sameChainAs hashing ts then _ else _
    grind [toTargets_cons, b.tips_add]

lemma relatedToAny_toTargets (bs : SyncBuckets) (ts : TipSet) :
    TargetBucket.relatedToAny hashing (toTargets bs) ts = relatedToAny hashing bs ts := any_map

lemma toTargets_popRelated (bs : SyncBuckets) (ts : TipSet) :
    TargetBucket.popRelated hashing ts (toTargets bs) =
      match popRelated hashing ts bs with
      | some (b, bs') => (some b.tips, toTargets bs')
      | none => (none, toTargets bs) := by
  induction bs with
  | nil => rfl
  | cons b bs ih =>
    rw [toTargets_cons, popRelated, TargetBucket.popRelated, ih]
    show (if b.sameChainAs hashing ts then _ else _) = _
    split_ifs
    · rfl
    · cases popRelated hashing ts bs with
      | none => rfl
      | some r => rfl

lemma lighter_tips (b b' : SyncBucket) : TargetBucket.lighter (TargetBucket.heaviestTipSet b.tips)
        (TargetBucket.heaviestTipSet b'.tips) =
      some (decide (b.heaviestTipSet.parentWeight < b'.heaviestTipSet.parentWeight)) := by
  rw [b.heaviestTipSet_tips, b'.heaviestTipSet_tips]
  rfl

lemma popLoop_toTargets_cons (pre : List TargetBucket) (best : SyncBucket)
    (post : List TargetBucket) (b : SyncBucket) (bs : SyncBuckets) :
    TargetBucket.popLoop pre best.tips post (toTargets (b :: bs)) =
      if best.heaviestTipSet.parentWeight < b.heaviestTipSet.parentWeight then
        TargetBucket.popLoop (pre ++ best.tips :: post) b.tips [] (toTargets bs)
      else TargetBucket.popLoop pre best.tips (post ++ [b.tips]) (toTargets bs) := by
  rw [toTargets_cons, TargetBucket.popLoop, lighter_tips]
  by_cases hlt : best.heaviestTipSet.parentWeight < b.heaviestTipSet.parentWeight
  · rw [if_pos hlt, decide_eq_true hlt]
    rfl
  · simp

/-- What is popped if `best` is the best bucket before `bs`: it or what is popped out of `bs`. -/
def popAfter (pre : List TargetBucket) (best : SyncBucket) (post : List TargetBucket)
    (bs : SyncBuckets) : SyncBucket × List TargetBucket :=
  match pop bs with
  | none => (best, pre ++ post)
  | some (m, rest) =>
    if best.heaviestTipSet.parentWeight < m.heaviestTipSet.parentWeight then
      (m, pre ++ best.tips :: post ++ toTargets rest)
    else (best, pre ++ post ++ toTargets bs)

lemma popAfter_cons (pre : List TargetBucket) (best : SyncBucket) (post : List TargetBucket)
    (b : SyncBucket) (bs : SyncBuckets) :
    popAfter pre best post (b :: bs) =
      if best.heaviestTipSet.parentWeight < b.heaviestTipSet.parentWeight then
        popAfter (pre ++ best.tips :: post) b [] bs
      else popAfter pre best (post ++ [b.tips]) bs := by
  unfold popAfter
  rw [pop]
  rcases hpop : pop bs with - | ⟨m, rest⟩
  · simp [pop_eq_none.mp hpop, toTargets]
  · dsimp only
    by_cases hm : b.heaviestTipSet.parentWeight < m.heaviestTipSet.parentWeight
    · grind [toTargets_cons]
    · grind [not_lt, toTargets_cons]

lemma popLoop_toTargets (pre : List TargetBucket) (best : SyncBucket) (post : List TargetBucket)
    (bs : SyncBuckets) :
    (TargetBucket.popLoop pre best.tips post (toTargets bs)).map
        (fun (pre, bestBuck, post) => (bestBuck, pre ++ post)) =
      some ((popAfter pre best post bs).1.tips, (popAfter pre best post bs).2) := by
  induction bs generalizing pre best post with
  | nil => rfl
  | cons b bs ih =>
    rw [popLoop_toTargets_cons, popAfter_cons]
    split_ifs <;> grind

lemma toTargets_pop (bs : SyncBuckets) : TargetBucket.pop (toTargets bs) =
      (pop bs).map fun (b, bs') => (b.tips, toTargets bs') := by
  rcases bs with - | ⟨b, bs⟩
  · rfl
  · refine (popLoop_toTargets [] b [] bs).trans ?_
    rw [pop, popAfter]
    rcases pop bs with - | ⟨m, rest⟩
    · rfl
    · dsimp only
      split_ifs
      · rfl
      · rfl

end SyncBuckets

/-! ## The machines go along -/

lemma SyncBuckets.exists_pop_insert (bs : SyncBuckets) (ts : TipSet) :
    ∃ b bs', pop (insert hashing ts bs) = some (b, bs') := by
  rcases hpop : pop (insert hashing ts bs) with - | ⟨b, bs'⟩
  · have hnil := pop_eq_none.mp hpop
    cases bs <;> grind [insert]
  · exact ⟨b, bs', rfl⟩

namespace SyncManager

variable (sm : SyncManager)

lemma toScheduler_setPeerHead (p : PeerID) (ts : TipSet) (heads : List TipSet) :
    sm.toScheduler.setPeerHead hashing p ts heads =
      (Lotus.setPeerHead hashing p ts heads sm).map toScheduler := by
  unfold Scheduler.setPeerHead Lotus.setPeerHead
  dsimp only
  simp only [apply_ite (Option.map toScheduler), map_none, map_some]
  rfl

lemma toScheduler_scheduleIncoming (order : List TipSet) (ts : TipSet) :
    sm.toScheduler.scheduleIncoming hashing order ts =
      some (Lotus.scheduleIncoming hashing order ts sm).toScheduler := by
  rw [Scheduler.scheduleIncoming, Lotus.scheduleIncoming, relatedToActiveSync,
    toScheduler_bootstrapState, toScheduler_activeSyncTips, toScheduler_syncQueue,
    SyncBuckets.relatedToAny_toTargets, ← SyncBuckets.toTargets_insert,
    ← SyncBuckets.toTargets_insert]
  split_ifs
  · rfl
  · rfl
  · rfl
  · rw [toScheduler_nextSyncTarget]
    rcases hnext : sm.nextSyncTarget with - | b
    · obtain ⟨b, bs, hpop⟩ : ∃ b bs, (sm.syncQueue.insert hashing ts).pop = some (b, bs) :=
        SyncBuckets.exists_pop_insert sm.syncQueue ts
      rw [SyncBuckets.toTargets_pop, popNext, hpop]
      rfl
    · show (if b.sameChainAs hashing ts then _ else _) = _
      dsimp only
      split_ifs
      · rw [← b.tips_add]
        simp only [toScheduler, hnext]
        rfl
      · simp only [toScheduler, hnext]

lemma exists_pop_of_not_isEmpty (h : ¬sm.toScheduler.syncQueue.isEmpty) :
    ∃ b bs, sm.syncQueue.pop = some (b, bs) ∧
      TargetBucket.pop sm.toScheduler.syncQueue = some (b.tips, bs.toTargets) := by
  rw [toScheduler_syncQueue, SyncBuckets.toTargets_pop]
  rcases hpop : sm.syncQueue.pop with - | ⟨b, bs⟩
  · rw [toScheduler_syncQueue, SyncBuckets.pop_eq_none.mp hpop] at h
    cases h rfl
  · exact ⟨b, bs, rfl, rfl⟩

lemma pop_eq_none_of_isEmpty (h : sm.toScheduler.syncQueue.isEmpty) : sm.syncQueue.pop = none := by
  rw [SyncBuckets.pop_eq_none, ← map_eq_nil_iff]
  exact isEmpty_iff.mp h

lemma toScheduler_refill : sm.toScheduler.refill = some sm.refill.toScheduler := by
  rw [Scheduler.refill, refill, toScheduler_nextSyncTarget]
  rcases hnext : sm.nextSyncTarget with - | b
  · by_cases hempty : sm.toScheduler.syncQueue.isEmpty
    · rw [if_neg fun h => h.2 hempty, popNext, sm.pop_eq_none_of_isEmpty hempty]
    · obtain ⟨b, bs, hpop, htargets⟩ := sm.exists_pop_of_not_isEmpty hempty
      rw [if_pos ⟨rfl, hempty⟩, htargets, popNext, hpop]
      rfl
  · rfl

lemma toScheduler_scheduleProcessResult (ts : TipSet) (success : Bool) :
    sm.toScheduler.scheduleProcessResult hashing ts success =
      some (Lotus.scheduleProcessResult hashing ts success sm).toScheduler := by
  obtain ⟨peerHeads, state, active, queue, tips, next, incoming, syncing⟩ := sm
  have hstate : (if success ∧ state ≠ BootstrapState.complete then .complete else state) =
      if success then BootstrapState.complete else state := by
    cases success <;> cases state <;> rfl
  rw [Scheduler.scheduleProcessResult, Lotus.scheduleProcessResult, toScheduler_activeSyncTips,
    SyncBuckets.toTargets_popRelated, toScheduler_bootstrapState, hstate]
  dsimp only
  rcases SyncBuckets.popRelated hashing ts tips with - | ⟨relbucket, bs⟩
  · exact toScheduler_refill ⟨peerHeads, _, _, queue, tips, next, incoming, syncing⟩
  · cases success with
    | true =>
      cases next with
      | none => rfl
      | some b =>
        have hqueue : SyncBuckets.toTargets (queue ++ [relbucket]) =
            SyncBuckets.toTargets queue ++ [relbucket.tips] := map_append
        exact congrArg (fun l => some (Scheduler.mk peerHeads _ _ l _ _ _ incoming syncing))
          hqueue.symm
    | false => exact toScheduler_refill ⟨peerHeads, _, _, queue, bs, next, incoming, syncing⟩

lemma toScheduler_popNext : sm.popNext.toScheduler =
    match sm.syncQueue.pop with
    | some (b, bs) =>
      { sm.toScheduler with
        syncQueue := bs.toTargets, nextSyncTarget := some b.tips, workerChan := true }
    | none => sm.toScheduler := by
  unfold popNext
  rcases sm.syncQueue.pop with - | ⟨b, bs⟩
  · rfl
  · rfl

lemma toScheduler_scheduleWorkSent {next : SyncBucket} (hnext : sm.nextSyncTarget = some next) :
    sm.toScheduler.scheduleWorkSent hashing =
      some (Lotus.scheduleWorkSent hashing next sm).toScheduler := by
  rw [Scheduler.scheduleWorkSent, toScheduler_nextSyncTarget, hnext, map_some,
    Lotus.scheduleWorkSent, toScheduler_popNext]
  simp only [bind_eq_bind, bind_some, next.heaviestTipSet_tips]
  by_cases hempty : sm.toScheduler.syncQueue.isEmpty
  · rw [if_neg (not_not.mpr hempty), sm.pop_eq_none_of_isEmpty hempty]
    rfl
  · obtain ⟨b, bs, hpop, htargets⟩ := sm.exists_pop_of_not_isEmpty hempty
    rw [if_pos hempty, htargets, hpop]
    simp only [toScheduler, hnext]
    rfl

lemma step_toScheduler (e : SyncEvent) :
    sm.toScheduler.step hashing e = (syncStep hashing sm e).map toScheduler := by
  cases e with
  | setPeerHead p ts heads =>
    rw [syncStep, if_neg fun h => Bool.false_ne_true h.1]
    exact sm.toScheduler_setPeerHead p ts heads
  | incoming order =>
    rw [Scheduler.step, syncStep, toScheduler_incoming]
    rcases hincoming : sm.incoming with - | ts
    · dsimp only
      split_ifs <;> rfl
    · have hhanded : (handedBy sm (.incoming order)).isSome ∧ ¬sm.HasIdle ↔
          sm.bootstrapState = .selected ∧ ¬sm.syncing.length < syncWorkerCount := by
        refine and_congr_left fun _ => ?_
        rw [handedBy, hincoming]
        split_ifs with hselected <;> simp [hselected]
      rw [toScheduler_bootstrapState, toScheduler_syncing, toScheduler_activeSyncs]
      simp only [hhanded]
      split_ifs
      · rfl
      · exact toScheduler_scheduleIncoming { sm with incoming := none } order ts
      · rfl
  | workSent =>
    rw [Scheduler.step, syncStep, toScheduler_workerChan, toScheduler_syncing]
    rcases hnext : sm.nextSyncTarget with - | next
    · simp
    · have hhanded : (handedBy sm .workSent).isSome := by
        rw [handedBy, hnext]
        rfl
      by_cases hidle : sm.HasIdle
      · rw [if_pos ⟨rfl, hidle⟩, if_neg fun h => h.2 hidle]
        exact sm.toScheduler_scheduleWorkSent hnext
      · rw [if_neg fun h => hidle h.2, if_pos ⟨hhanded, hidle⟩]
        rfl
  | result ts success =>
    have hnone : ¬((handedBy sm (.result ts success)).isSome ∧ ¬sm.HasIdle) :=
      fun h => Bool.false_ne_true h.1
    rw [Scheduler.step, syncStep, if_neg hnone, toScheduler_syncing]
    split_ifs
    · exact toScheduler_scheduleProcessResult { sm with syncing := sm.syncing.erase ts } ts success
    · rfl

end SyncManager

lemma toScheduler_new : newSyncManager.toScheduler = .new := rfl

/-! ## Buckets -/

section

variable {sm sm' : SyncManager}

variable (hashing) in
def WaitsOnce (sm : SyncManager) : SyncEvent → Prop
  | .incoming order => sm.bootstrapState ≠ .selected → ∀ ts ∈ sm.incoming,
      ts.cids hashing ∈ sm.waitingKeys hashing → HasTip hashing (bucketFor hashing order ts sm) ts
  | _ => True

instance (sm : SyncManager) : ∀ e, Decidable (WaitsOnce hashing sm e)
  | .incoming _ => inferInstanceAs (Decidable (sm.bootstrapState ≠ .selected → _))
  | .setPeerHead _ _ _ => inferInstanceAs (Decidable True)
  | .workSent => inferInstanceAs (Decidable True)
  | .result _ _ => inferInstanceAs (Decidable True)

variable (hashing) in
def NoneTwice (sm : SyncManager) : Prop := (sm.waitingKeys hashing).Nodup

lemma NoneTwice.step (h : NoneTwice hashing sm) {e : SyncEvent}
    (honce : WaitsOnce hashing sm e) (hstep : syncStep hashing sm e = some sm') :
    NoneTwice hashing sm' := by
  unfold NoneTwice at h ⊢
  rcases syncStep_cases hstep with ⟨p, ts, heads, rfl, hset⟩ |
    ⟨order, ts, rfl, hincoming, -, hsm'⟩ | ⟨next, rfl, hnext, rfl⟩ | ⟨ts, success, rfl, hts, hsm'⟩
  · obtain ⟨peerHeads, bootstrapState, incoming, rfl⟩ := setPeerHead_eq_some hset
    exact h
  · by_cases hselected : sm.bootstrapState = .selected
    · rwa [hsm', scheduleIncoming, if_pos hselected]
    · obtain ⟨-, -, hgains⟩ : sm'.syncing = sm.syncing ∧ sm'.bootstrapState = sm.bootstrapState ∧
          Gains hashing (bucketFor hashing order ts sm) ts (sm.waitingKeys hashing)
            (sm'.waitingKeys hashing) := by
        rw [hsm']
        exact scheduleIncoming_gains hselected
      rcases hgains with ⟨-, hkeys⟩ | ⟨hnot, hkeys⟩
      · rwa [hkeys]
      · rw [hkeys, Multiset.nodup_cons]
        exact ⟨fun hmem => hnot (honce hselected ts hincoming hmem), h⟩
  · grind [scheduleWorkSent_keys, Multiset.nodup_add]
  · obtain ⟨-, dropped, hkeys, -⟩ : sm'.syncing = sm.syncing.erase ts ∧
        ∃ dropped, sm.waitingKeys hashing = dropped + sm'.waitingKeys hashing ∧ _ := by
      rw [hsm']
      exact scheduleProcessResult_keys
    rw [hkeys] at h
    exact (Multiset.nodup_add.mp h).2.1

lemma SyncBuckets.mem_keys {bs : SyncBuckets} {b : SyncBucket} (hb : b ∈ bs) {ts : TipSet}
    (hts : ts ∈ b.tips) : ts.cids hashing ∈ keys hashing bs := by
  have hkey : ts.cids hashing ∈ b.keys hashing := Multiset.mem_coe.mpr (mem_map_of_mem hts)
  induction bs with
  | nil => cases hb
  | cons x bs ih => grind [keys_cons]

lemma SyncBuckets.pairwise_of_nodup {bs : SyncBuckets} (h : (keys hashing bs).Nodup) :
    (toTargets bs).Pairwise fun b b' => ∀ ts ∈ b, ∀ ts' ∈ b', ¬ts.equals hashing ts' = true := by
  induction bs with
  | nil => exact .nil
  | cons b bs ih =>
    rw [keys_cons] at h
    obtain ⟨-, hrest, hdisjoint⟩ := Multiset.nodup_add.mp h
    refine .cons (fun x hx ts hts ts' hts' hequals => ?_) (ih hrest)
    obtain ⟨b', hb', rfl⟩ := mem_map.mp hx
    have hkey : ts.cids hashing ∈ b.keys hashing := Multiset.mem_coe.mpr (mem_map_of_mem hts)
    rw [of_decide_eq_true hequals] at hkey
    exact Multiset.disjoint_left.mp hdisjoint hkey (mem_keys hb' hts')

/-- The next target is offered exactly if there is one, which has a tip, and no bucket is empty. If
a tipset that arrives while it waits is put where it is, then the buckets have no tip in common. -/
theorem scheduler_buckets {events : List SyncEvent} {s : Scheduler}
    (hrun : Runs.run (Scheduler.step hashing) .new events = some s) :
    (s.workerChan = true ↔ ∃ b, s.nextSyncTarget = some b ∧ b ≠ []) ∧
    (∀ b ∈ s.activeSyncTips ++ s.syncQueue ++ s.nextSyncTarget.toList, b ≠ []) ∧
    (Runs.Along (syncStep hashing) (WaitsOnce hashing) newSyncManager events →
      (s.syncQueue ++ s.nextSyncTarget.toList).Pairwise
        fun b b' => ∀ ts ∈ b, ∀ ts' ∈ b', ¬ts.equals hashing ts' = true) := by
  rw [← toScheduler_new, Runs.run_map SyncManager.step_toScheduler] at hrun
  obtain ⟨sm, hsm, rfl⟩ := map_eq_some_iff.mp hrun
  have htargets : sm.toScheduler.nextSyncTarget.toList =
      SyncBuckets.toTargets sm.nextSyncTarget.toList := by
    rw [SyncManager.toScheduler_nextSyncTarget]
    cases sm.nextSyncTarget with
    | none => rfl
    | some b => rfl
  have htips {bs : SyncBuckets} : ∀ b ∈ bs.toTargets, b ≠ [] := fun b hb => by
    obtain ⟨b, -, rfl⟩ := mem_map.mp hb
    exact cons_ne_nil _ _
  refine ⟨?_, ?_, fun honce => ?_⟩
  · rw [SyncManager.toScheduler_workerChan, SyncManager.toScheduler_nextSyncTarget]
    cases sm.nextSyncTarget with
    | none => exact iff_of_false Bool.false_ne_true fun ⟨_, h, _⟩ => (nomatch h)
    | some b => exact iff_of_true rfl ⟨b.tips, rfl, cons_ne_nil _ _⟩
  · rw [htargets]
    exact forall_mem_append.mpr ⟨forall_mem_append.mpr ⟨htips, htips⟩, htips⟩
  · have hnew : NoneTwice hashing newSyncManager := Multiset.nodup_zero
    have hnodup : NoneTwice hashing sm := Runs.invariant
      (fun hs honce hstep => hs.step honce hstep) hnew honce hsm
    rw [NoneTwice, SyncManager.waitingKeys, add_assoc, ← SyncBuckets.keys_append] at hnodup
    have hdisjoint := SyncBuckets.pairwise_of_nodup (Multiset.nodup_add.mp hnodup).2.1
    rw [htargets]
    rwa [SyncBuckets.toTargets, map_append] at hdisjoint

end

def sampleUpper : TipSet := sampleTip 3 (sampleMiddle.cids sampleHashing)

def sampleUppermost : TipSet := sampleTip 4 (sampleUpper.cids sampleHashing)

def sampleBridged : List SyncEvent :=
  sampleAnnounced ++ [.setPeerHead 2 sampleUppermost [], .incoming [],
    .setPeerHead 3 sampleUpper [], .incoming []]

theorem sampleBridged_buckets : ∃ s ∈ Runs.run (Scheduler.step sampleHashing) .new sampleBridged,
      s.syncQueue = [[sampleUppermost]] ∧ s.nextSyncTarget = some [sampleMiddle, sampleUpper] ∧
      (s.syncQueue ++ s.nextSyncTarget.toList).Pairwise
        fun b b' => ∀ ts ∈ b, ∀ ts' ∈ b', ¬ts.equals sampleHashing ts' = true := by
  have honce : Runs.Along (syncStep sampleHashing) (WaitsOnce sampleHashing) newSyncManager
      sampleBridged := by
    decide +kernel
  obtain ⟨s, hs, hqueue, hnext⟩ : ∃ s ∈ Runs.run (Scheduler.step sampleHashing) .new sampleBridged,
        s.syncQueue = [[sampleUppermost]] ∧
          s.nextSyncTarget = some [sampleMiddle, sampleUpper] := by
    decide +kernel
  exact ⟨s, hs, hqueue, hnext, (scheduler_buckets hs).2.2 honce⟩

theorem sampleBridged_twice : ∃ s ∈ Runs.run (Scheduler.step sampleHashing) .new
        (sampleBridged ++ [.setPeerHead 4 sampleUppermost [], .incoming []]),
      s.syncQueue = [[sampleUppermost]] ∧
        s.nextSyncTarget = some [sampleMiddle, sampleUpper, sampleUppermost] := by
  decide +kernel

end Lotus
