import Lotus.Sync.Manager

/-!
# What is synced twice

A tipset is handed to a worker while another one is at it if it arrives again in the meantime, or if
it waits in two buckets.
-/

namespace Lotus

open List

section

variable (hashing : Hashing)

def SyncBucket.keys (b : SyncBucket) : Multiset (List Cid) :=
  (b.tips.map (·.cids hashing) : List (List Cid))

def SyncBuckets.keys (bs : SyncBuckets) : Multiset (List Cid) := (bs.map (·.keys hashing)).sum

def SyncManager.waitingKeys (sm : SyncManager) : Multiset (List Cid) :=
  SyncBuckets.keys hashing sm.activeSyncTips + SyncBuckets.keys hashing sm.syncQueue +
    SyncBuckets.keys hashing sm.nextSyncTarget.toList

def SyncManager.syncingKeys (sm : SyncManager) : Multiset (List Cid) :=
  (sm.syncing.map (·.cids hashing) : List (List Cid))

def bucketFor (order : List TipSet) (ts : TipSet) (sm : SyncManager) : Option SyncBucket :=
  if relatedToActiveSync hashing order ts sm then
    sm.activeSyncTips.find? (·.sameChainAs hashing ts)
  else if sm.bootstrapState = .scheduled then sm.syncQueue.find? (·.sameChainAs hashing ts)
  else (sm.nextSyncTarget.filter (·.sameChainAs hashing ts)).or
    (sm.syncQueue.find? (·.sameChainAs hashing ts))

def HasTip (b : Option SyncBucket) (ts : TipSet) : Prop :=
  ∃ b' ∈ b, ts.cids hashing ∈ b'.keys hashing
deriving Decidable

/-- The keys `m'` are the keys `m` and that of a tipset that is put into the bucket `b`. -/
def Gains (b : Option SyncBucket) (ts : TipSet) (m m' : Multiset (List Cid)) : Prop :=
  HasTip hashing b ts ∧ m' = m ∨ ¬HasTip hashing b ts ∧ m' = ts.cids hashing ::ₘ m

def ArrivesOnce (sm : SyncManager) : SyncEvent → Prop
  | .incoming order => ∀ ts ∈ sm.incoming, ts.cids hashing ∉ sm.syncingKeys hashing ∧
      (ts.cids hashing ∈ sm.waitingKeys hashing →
        HasTip hashing (bucketFor hashing order ts sm) ts)
  | _ => True

instance (sm : SyncManager) : ∀ e, Decidable (ArrivesOnce hashing sm e)
  | .incoming _ => inferInstanceAs (Decidable (∀ ts ∈ sm.incoming, _))
  | .setPeerHead _ _ _ => inferInstanceAs (Decidable True)
  | .workSent => inferInstanceAs (Decidable True)
  | .result _ _ => inferInstanceAs (Decidable True)

end

variable {hashing : Hashing}

/-! ## Buckets -/

variable {ts : TipSet} {b : SyncBucket}

lemma SyncBucket.any_equals_iff :
    b.tips.any (·.equals hashing ts) = true ↔ ts.cids hashing ∈ b.keys hashing := by
  rw [any_eq_true, keys, Multiset.mem_coe, mem_map]
  simp only [TipSet.equals, decide_eq_true_eq]

lemma SyncBucket.gains_add (b : SyncBucket) (ts : TipSet) :
    Gains hashing (some b) ts (b.keys hashing) ((b.add hashing ts).keys hashing) := by
  have hhas : HasTip hashing (some b) ts ↔ b.tips.any (·.equals hashing ts) = true := by
    simp only [any_equals_iff, HasTip, Option.mem_some, exists_eq_left']
  rw [Gains, hhas, add]
  split_ifs with hany
  · exact .inl ⟨hany, rfl⟩
  · refine .inr ⟨hany, ?_⟩
    rw [keys, keys, tips, tips, ← cons_append, map_append, ← Multiset.coe_add,
      map_singleton, add_comm]
    rfl

lemma Gains.add_right {b : Option SyncBucket} {m m' : Multiset (List Cid)}
    (h : Gains hashing b ts m m') (n : Multiset (List Cid)) :
    Gains hashing b ts (m + n) (m' + n) := by
  rcases h with ⟨hhas, rfl⟩ | ⟨hnot, rfl⟩
  · exact .inl ⟨hhas, rfl⟩
  · exact .inr ⟨hnot, Multiset.cons_add _ _ _⟩

lemma Gains.add_left {b : Option SyncBucket} {m m' : Multiset (List Cid)}
    (h : Gains hashing b ts m m') (n : Multiset (List Cid)) :
    Gains hashing b ts (n + m) (n + m') := by
  rw [add_comm n, add_comm n]
  exact h.add_right n

namespace SyncBuckets

@[simp] lemma keys_nil : keys hashing [] = 0 := rfl

@[simp] lemma keys_cons (b : SyncBucket) (bs : SyncBuckets) :
    keys hashing (b :: bs) = b.keys hashing + keys hashing bs := by
  rw [keys, map_cons, sum_cons, keys]

lemma keys_append (bs bs' : SyncBuckets) :
    keys hashing (bs ++ bs') = keys hashing bs + keys hashing bs' := by
  rw [keys, map_append, sum_append, keys, keys]

lemma gains_insert (bs : SyncBuckets) (ts : TipSet) :
    Gains hashing (bs.find? (·.sameChainAs hashing ts)) ts (keys hashing bs)
      (keys hashing (bs.insert hashing ts)) := by
  induction bs with
  | nil => exact .inr ⟨fun ⟨_, h, _⟩ => (nomatch h), rfl⟩
  | cons b bs ih =>
    rw [insert, find?_cons]
    cases hsame : b.sameChainAs hashing ts with
    | true =>
      rw [if_pos rfl, keys_cons, keys_cons]
      exact (b.gains_add ts).add_right _
    | false =>
      rw [if_neg Bool.false_ne_true, keys_cons, keys_cons]
      exact ih.add_left _

variable {bs : SyncBuckets}

lemma keys_popRelated {bs' : SyncBuckets} (h : bs.popRelated hashing ts = some (b, bs')) :
    keys hashing bs = b.keys hashing + keys hashing bs' := by
  induction bs generalizing bs' with
  | nil => cases h
  | cons x bs ih =>
    rw [popRelated] at h
    split_ifs at h with hsame
    · cases h
      exact keys_cons _ _
    · grind [Option.map_eq_some_iff, keys_cons, add_left_comm]

lemma pop_eq_none : bs.pop = none ↔ bs = [] := by
  rcases bs with - | ⟨b, bs⟩
  · exact iff_of_true rfl rfl
  · refine iff_of_false ?_ (cons_ne_nil b bs)
    rw [pop]
    split <;> grind

lemma keys_pop {bs' : SyncBuckets} (h : bs.pop = some (b, bs')) :
    keys hashing bs = b.keys hashing + keys hashing bs' := by
  induction bs generalizing b bs' with
  | nil => cases h
  | cons x bs ih =>
    rw [pop] at h
    rcases hpop : pop bs with - | ⟨best, bs''⟩
    · grind [pop_eq_none, keys_cons]
    · rw [hpop] at h
      dsimp only at h
      split_ifs at h
      · grind [keys_cons, add_left_comm]
      · cases h
        exact keys_cons _ _

end SyncBuckets

/-! ## Steps -/

section

variable {sm sm' : SyncManager}

lemma SyncManager.popNext_keys (hnext : sm.nextSyncTarget = none) :
    sm.popNext.waitingKeys hashing = sm.waitingKeys hashing := by
  unfold popNext
  split
  next b bs hpop =>
    simp only [waitingKeys, hnext, SyncBuckets.keys_pop hpop, Option.toList_some,
      Option.toList_none, SyncBuckets.keys_cons, SyncBuckets.keys_nil, add_zero]
    rw [add_assoc, add_comm (b.keys hashing)]
  next => rfl

@[simp] lemma SyncManager.popNext_syncing : sm.popNext.syncing = sm.syncing := by
  unfold popNext
  split <;> rfl

@[simp] lemma SyncManager.popNext_bootstrapState :
    sm.popNext.bootstrapState = sm.bootstrapState := by
  unfold popNext
  split <;> rfl

lemma SyncManager.refill_keys : sm.refill.waitingKeys hashing = sm.waitingKeys hashing := by
  unfold refill
  split
  · rfl
  · exact popNext_keys ‹_›

@[simp] lemma SyncManager.refill_syncing : sm.refill.syncing = sm.syncing := by
  unfold refill
  split
  · rfl
  · exact popNext_syncing

@[simp] lemma SyncManager.refill_bootstrapState : sm.refill.bootstrapState = sm.bootstrapState := by
  unfold refill
  split <;> simp

/-- A tipset that is not handed to a worker at once is put into its bucket. -/
lemma scheduleIncoming_gains {order : List TipSet} (hstate : sm.bootstrapState ≠ .selected) :
    (scheduleIncoming hashing order ts sm).syncing = sm.syncing ∧
      (scheduleIncoming hashing order ts sm).bootstrapState = sm.bootstrapState ∧
      Gains hashing (bucketFor hashing order ts sm) ts (sm.waitingKeys hashing)
        ((scheduleIncoming hashing order ts sm).waitingKeys hashing) := by
  obtain ⟨peerHeads, state, active, queue, tips, next, incoming, syncing⟩ := sm
  have hqueue : Gains hashing (queue.find? (·.sameChainAs hashing ts)) ts
      (SyncBuckets.keys hashing tips + SyncBuckets.keys hashing queue +
        SyncBuckets.keys hashing next.toList)
      (SyncBuckets.keys hashing tips + SyncBuckets.keys hashing (queue.insert hashing ts) +
        SyncBuckets.keys hashing next.toList) :=
    ((SyncBuckets.gains_insert queue ts).add_left _).add_right _
  rw [scheduleIncoming, bucketFor, if_neg hstate]
  split_ifs with hrelated hscheduled
  · exact ⟨rfl, rfl, ((SyncBuckets.gains_insert tips ts).add_right _).add_right _⟩
  · exact ⟨rfl, rfl, hqueue⟩
  · cases next with
    | none =>
      refine ⟨SyncManager.popNext_syncing, SyncManager.popNext_bootstrapState, ?_⟩
      dsimp only
      rwa [SyncManager.popNext_keys rfl]
    | some b =>
      dsimp only
      rw [Option.filter_some]
      split_ifs with hsame
      · refine ⟨rfl, rfl, ?_⟩
        have hadd : Gains hashing (some b) ts
            (SyncBuckets.keys hashing tips + SyncBuckets.keys hashing queue + b.keys hashing)
            (SyncBuckets.keys hashing tips + SyncBuckets.keys hashing queue +
              (b.add hashing ts).keys hashing) := (b.gains_add ts).add_left _
        simpa only [SyncManager.waitingKeys, Option.toList_some, SyncBuckets.keys_cons,
          SyncBuckets.keys_nil, add_zero, Option.some_or] using hadd
      · exact ⟨rfl, rfl, hqueue⟩

variable {success : Bool}

/-- A result takes no tipset out of the buckets, unless the sync has failed. -/
lemma scheduleProcessResult_keys :
    (scheduleProcessResult hashing ts success sm).syncing = sm.syncing ∧
      ∃ dropped, sm.waitingKeys hashing =
          dropped + (scheduleProcessResult hashing ts success sm).waitingKeys hashing ∧
        (success = true → dropped = 0) := by
  obtain ⟨peerHeads, state, active, queue, tips, next, incoming, syncing⟩ := sm
  unfold scheduleProcessResult
  dsimp only
  split
  next relbucket bs hpop =>
    cases success with
    | true =>
      refine ⟨by cases next <;> rfl, 0, ?_, fun _ => rfl⟩
      rw [if_pos rfl, zero_add]
      cases next with
      | none =>
        simp only [SyncManager.waitingKeys, SyncBuckets.keys_popRelated hpop, Option.toList_none,
          Option.toList_some, SyncBuckets.keys_nil, SyncBuckets.keys_cons, add_zero]
        ac_rfl
      | some b =>
        simp only [SyncManager.waitingKeys, SyncBuckets.keys_popRelated hpop,
          SyncBuckets.keys_append, SyncBuckets.keys_nil, SyncBuckets.keys_cons, add_zero]
        ac_rfl
    | false =>
      refine ⟨SyncManager.refill_syncing, relbucket.keys hashing, ?_, nofun⟩
      grind [SyncManager.refill_keys, SyncManager.waitingKeys, SyncBuckets.keys_popRelated,
        add_assoc]
  next =>
    refine ⟨SyncManager.refill_syncing, 0, ?_, fun _ => rfl⟩
    rw [SyncManager.refill_keys, zero_add]
    rfl

lemma scheduleProcessResult_bootstrapState :
    (scheduleProcessResult hashing ts success sm).bootstrapState =
      if success then .complete else sm.bootstrapState := by
  unfold scheduleProcessResult
  dsimp only
  split
  · grind [SyncManager.refill_bootstrapState]
  · exact SyncManager.refill_bootstrapState

lemma scheduleWorkSent_keys {next : SyncBucket} (hnext : sm.nextSyncTarget = some next) :
    (scheduleWorkSent hashing next sm).syncing = next.heaviestTipSet :: sm.syncing ∧
      sm.waitingKeys hashing =
        next.keys hashing + (scheduleWorkSent hashing next sm).waitingKeys hashing := by
  refine ⟨SyncManager.popNext_syncing, ?_⟩
  rw [scheduleWorkSent, SyncManager.popNext_keys rfl]
  simp only [SyncManager.waitingKeys, hnext, Option.toList_some, Option.toList_none,
    SyncBuckets.keys_nil, SyncBuckets.keys_cons, add_zero]
  exact add_comm _ _

lemma SyncBucket.heaviestTipSet_mem (b : SyncBucket) : b.heaviestTipSet ∈ b.tips := by
  obtain ⟨first, rest⟩ := b
  unfold heaviestTipSet tips
  dsimp only
  induction rest generalizing first with
  | nil => exact .head _
  | cons ts rest ih => grind

lemma SyncBucket.heaviestTipSet_mem_keys (b : SyncBucket) :
    b.heaviestTipSet.cids hashing ∈ b.keys hashing :=
  Multiset.mem_coe.mpr (mem_map_of_mem b.heaviestTipSet_mem)

/-! ## Runs -/

variable (hashing) in
structure OnceEach (sm : SyncManager) : Prop where
  nodup : (sm.syncingKeys hashing + sm.waitingKeys hashing).Nodup
  idle : sm.bootstrapState = .init ∨ sm.bootstrapState = .selected →
    sm.syncing = [] ∧ sm.waitingKeys hashing = 0
  announced : sm.bootstrapState = .init → sm.incoming = none

lemma onceEach_new : OnceEach hashing newSyncManager :=
  ⟨Multiset.nodup_zero, fun _ => ⟨rfl, rfl⟩, fun _ => rfl⟩

lemma OnceEach.setPeerHead (h : OnceEach hashing sm) {p : PeerID} {heads : List TipSet}
    (hset : setPeerHead hashing p ts heads sm = some sm') :
    OnceEach hashing sm' := by
  unfold Lotus.setPeerHead at hset
  dsimp only at hset
  split_ifs at hset with hlock hstate hthresh hheads
  · cases hset
    exact ⟨h.nodup, fun _ => h.idle (.inl hstate), nofun⟩
  · cases hset
    exact ⟨h.nodup, h.idle, h.announced⟩
  · cases hset
    exact ⟨h.nodup, h.idle, fun hinit => absurd hinit hstate⟩

lemma OnceEach.incoming (h : OnceEach hashing sm) {order : List TipSet}
    (hincoming : sm.incoming = some ts) (honce : ArrivesOnce hashing sm (.incoming order))
    (hsm' : sm' = scheduleIncoming hashing order ts { sm with incoming := none }) :
    OnceEach hashing sm' := by
  obtain ⟨hnew, hwaiting⟩ := honce ts hincoming
  by_cases hstate : sm.bootstrapState = .selected
  · obtain ⟨hsyncing, hzero⟩ := h.idle (.inr hstate)
    rw [scheduleIncoming, if_pos hstate] at hsm'
    rw [hsm']
    refine ⟨?_, fun hs => hs.elim nofun nofun, nofun⟩
    show ((ts.cids hashing ::ₘ sm.syncingKeys hashing) + sm.waitingKeys hashing).Nodup
    rw [Multiset.cons_add, Multiset.nodup_cons, Multiset.mem_add, hzero]
    refine ⟨fun hmem => hmem.elim hnew (Multiset.notMem_zero _), ?_⟩
    rw [← hzero]
    exact h.nodup
  · have hinit : sm.bootstrapState ≠ .init := fun hinit => by
      rw [h.announced hinit] at hincoming
      cases hincoming
    obtain ⟨hsyncing, hboot, hgains⟩ : sm'.syncing = sm.syncing ∧
        sm'.bootstrapState = sm.bootstrapState ∧
        Gains hashing (bucketFor hashing order ts sm) ts (sm.waitingKeys hashing)
          (sm'.waitingKeys hashing) := by
      rw [hsm']
      exact scheduleIncoming_gains hstate
    refine ⟨?_, fun hs => ?_, fun hs => ?_⟩
    · rw [SyncManager.syncingKeys, hsyncing]
      rcases hgains with ⟨-, hkeys⟩ | ⟨hnot, hkeys⟩
      · rw [hkeys]
        exact h.nodup
      · rw [hkeys, Multiset.add_cons, Multiset.nodup_cons, Multiset.mem_add]
        exact ⟨fun hmem => hmem.elim hnew fun hmem => hnot (hwaiting hmem), h.nodup⟩
    · grind
    · grind

lemma OnceEach.workSent (h : OnceEach hashing sm) {next : SyncBucket}
    (hnext : sm.nextSyncTarget = some next) :
    OnceEach hashing (scheduleWorkSent hashing next sm) := by
  obtain ⟨hsyncing, hkeys⟩ : (scheduleWorkSent hashing next sm).syncing = _ ∧
      sm.waitingKeys hashing = _ := scheduleWorkSent_keys hnext
  have hmem : next.heaviestTipSet.cids hashing ∈ sm.waitingKeys hashing := by
    rw [hkeys]
    exact Multiset.mem_add.mpr (.inl next.heaviestTipSet_mem_keys)
  refine ⟨?_, fun hs => ?_, fun hs => ?_⟩
  · refine Multiset.nodup_of_le ?_ h.nodup
    rw [SyncManager.syncingKeys, hsyncing, hkeys, map_cons, ← Multiset.cons_coe,
      ← Multiset.singleton_add, add_comm {_}, add_assoc]
    exact add_le_add_right
      (add_le_add_left (Multiset.singleton_le.mpr next.heaviestTipSet_mem_keys) _) _
  · rw [scheduleWorkSent, SyncManager.popNext_bootstrapState] at hs
    rw [(h.idle hs).2] at hmem
    exact absurd hmem (Multiset.notMem_zero _)
  · rw [scheduleWorkSent, SyncManager.popNext_bootstrapState] at hs
    rw [(h.idle (.inl hs)).2] at hmem
    exact absurd hmem (Multiset.notMem_zero _)

lemma OnceEach.result (h : OnceEach hashing sm) (hts : ts ∈ sm.syncing)
    (hsm' : sm' = scheduleProcessResult hashing ts success
      { sm with syncing := sm.syncing.erase ts }) :
    OnceEach hashing sm' := by
  have hstate : ¬(sm.bootstrapState = .init ∨ sm.bootstrapState = .selected) := fun hs => by
    rw [(h.idle hs).1] at hts
    cases hts
  obtain ⟨hsyncing, dropped, hkeys, -⟩ : sm'.syncing = sm.syncing.erase ts ∧
      ∃ dropped, sm.waitingKeys hashing = dropped + sm'.waitingKeys hashing ∧ _ := by
    rw [hsm']
    exact scheduleProcessResult_keys
  have hboot : ¬(sm'.bootstrapState = .init ∨ sm'.bootstrapState = .selected) := by
    grind [scheduleProcessResult_bootstrapState]
  refine ⟨?_, fun hs => absurd hs hboot, fun hs => absurd (.inl hs) hboot⟩
  refine Multiset.nodup_of_le ?_ h.nodup
  rw [SyncManager.syncingKeys, hsyncing, hkeys]
  refine add_le_add ?_ (Multiset.le_add_left _ _)
  exact Multiset.coe_le.mpr ((erase_sublist ..).map _).subperm

lemma OnceEach.step (h : OnceEach hashing sm) {e : SyncEvent} (honce : ArrivesOnce hashing sm e)
    (hstep : syncStep hashing sm e = some sm') : OnceEach hashing sm' := by
  rcases syncStep_cases hstep with ⟨p, ts, heads, rfl, hset⟩ |
    ⟨order, ts, rfl, hincoming, -, hsm'⟩ | ⟨next, rfl, hnext, rfl⟩ | ⟨ts, success, rfl, hts, hsm'⟩
  · exact h.setPeerHead hset
  · exact h.incoming hincoming honce hsm'
  · exact h.workSent hnext
  · exact h.result hts hsm'

/-- In a run in which no tipset arrives while it is being synced or waits in another bucket, what is
handed to a worker is not being synced. -/
theorem scheduler_hands_new {events : List SyncEvent}
    (honce : Runs.Along (syncStep hashing) (ArrivesOnce hashing) newSyncManager events)
    (hrun : Runs.run (syncStep hashing) newSyncManager events = some sm) (e : SyncEvent) :
    ∀ ts ∈ handedBy sm e, ∀ x ∈ sm.syncing, ¬ts.equals hashing x = true := by
  have h : OnceEach hashing sm := Runs.invariant (fun hs honce hstep => hs.step honce hstep)
    onceEach_new honce hrun
  intro ts hts x hx hequals
  cases e with
  | setPeerHead p ts' heads => cases hts
  | incoming order =>
    unfold handedBy at hts
    grind [h.idle]
  | workSent =>
    obtain ⟨next, hnext, rfl⟩ := Option.map_eq_some_iff.mp hts
    have hwaiting : next.heaviestTipSet.cids hashing ∈ sm.waitingKeys hashing := by
      simp_all [scheduleWorkSent_keys, Multiset.mem_add, next.heaviestTipSet_mem_keys]
    have hsyncing : next.heaviestTipSet.cids hashing ∈ sm.syncingKeys hashing := by
      rw [of_decide_eq_true hequals]
      exact Multiset.mem_coe.mpr (mem_map_of_mem hx)
    exact Multiset.disjoint_left.mp (Multiset.nodup_add.mp h.nodup).2.2 hsyncing hwaiting
  | result ts' success => cases hts

end

def sampleTip (height : Int64) (parents : List Cid) : TipSet :=
  .single { sampleHeader (.id 1000) [] with height, parents, parentWeight := height.toInt }

def sampleBottom : TipSet := sampleTip 1 [sampleHashing.headerCid sampleGenesis]

def sampleMiddle : TipSet := sampleTip 2 (sampleBottom.cids sampleHashing)

def sampleAnnounced : List SyncEvent :=
  [.setPeerHead 1 sampleBottom [sampleBottom], .incoming [], .result sampleBottom true,
    .setPeerHead 1 sampleMiddle [], .incoming []]

theorem sampleAnnounced_new :
    ∃ sm ∈ Runs.run (syncStep sampleHashing) newSyncManager sampleAnnounced,
      handedBy sm .workSent = some sampleMiddle ∧
      ∀ x ∈ sm.syncing, ¬sampleMiddle.equals sampleHashing x = true := by
  have honce : Runs.Along (syncStep sampleHashing) (ArrivesOnce sampleHashing) newSyncManager
      sampleAnnounced := by
    decide +kernel
  obtain ⟨sm, hsm, hhanded⟩ :
      ∃ sm ∈ Runs.run (syncStep sampleHashing) newSyncManager sampleAnnounced,
        handedBy sm .workSent = some sampleMiddle := by
    decide +kernel
  exact ⟨sm, hsm, hhanded, scheduler_hands_new honce hsm .workSent sampleMiddle hhanded⟩

/-- The second tipset is announced by another peer while it is synced, and another worker gets
it. -/
theorem sampleAnnounced_twice : ∃ sm ∈ Runs.run (syncStep sampleHashing) newSyncManager
        (sampleAnnounced ++ [.workSent, .setPeerHead 2 sampleMiddle [], .incoming [sampleMiddle]]),
      sampleMiddle ∈ sm.syncing ∧ handedBy sm .workSent = some sampleMiddle ∧
        (syncStep sampleHashing sm .workSent).isSome := by
  decide +kernel

end Lotus
