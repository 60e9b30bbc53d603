import Lotus.Sync.Duplicates

/-!
# What is never synced

A tipset over one that is being synced waits in a bucket of `activeSyncTips` for the result.
-/

namespace Lotus

open List Option

section

variable (hashing : Hashing)

structure SyncHistory where
  sm : SyncManager
  received : List TipSet
  handed : List TipSet

def receivedBy (sm : SyncManager) : SyncEvent → Option TipSet
  | .incoming _ => sm.incoming
  | _ => none

def historyStep (h : SyncHistory) (e : SyncEvent) : Option SyncHistory :=
  (syncStep hashing h.sm e).map fun sm =>
    ⟨sm, h.received ++ (receivedBy h.sm e).toList, h.handed ++ (handedBy h.sm e).toList⟩

def SyncManager.waiting (sm : SyncManager) : List TipSet :=
  (sm.activeSyncTips ++ sm.syncQueue ++ sm.nextSyncTarget.toList).flatMap (·.tips)

def ParentKey (received : List TipSet) (parent key : List Cid) : Prop :=
  ∃ ts ∈ received, ts.parents = parent ∧ ts.cids hashing = key
deriving Decidable

def AncestorOrSelf (received : List TipSet) (ts ts' : TipSet) : Prop :=
  Relation.ReflTransGen (ParentKey hashing received) (ts.cids hashing) (ts'.cids hashing)

structure SyncManager.Idle (sm : SyncManager) : Prop where
  syncing : sm.syncing = []
  syncQueue : sm.syncQueue = []
  nextSyncTarget : sm.nextSyncTarget = none

instance (sm : SyncManager) : Decidable sm.Idle :=
  decidable_of_iff (sm.syncing = [] ∧ sm.syncQueue = [] ∧ sm.nextSyncTarget = none)
    ⟨fun h => ⟨h.1, h.2.1, h.2.2⟩, fun h => ⟨h.1, h.2, h.3⟩⟩

def OneRelated (sm : SyncManager) : SyncEvent → Prop
  | .result ts _ => (sm.activeSyncTips.filter (·.sameChainAs hashing ts)).length ≤ 1
  | _ => True

instance (sm : SyncManager) : ∀ e, Decidable (OneRelated hashing sm e)
  | .result _ _ => inferInstanceAs (Decidable (_ ≤ _))
  | .setPeerHead _ _ _ => inferInstanceAs (Decidable True)
  | .incoming _ => inferInstanceAs (Decidable True)
  | .workSent => inferInstanceAs (Decidable True)

def SentWhole (h : SyncHistory) : SyncEvent → Prop
  | .workSent => ∀ b ∈ h.sm.nextSyncTarget, ∀ t ∈ b.tips,
      AncestorOrSelf hashing h.received t b.heaviestTipSet
  | _ => True

def SyncEvent.Succeeds : SyncEvent → Prop
  | .result _ success => success = true
  | _ => True

instance : ∀ e : SyncEvent, Decidable e.Succeeds
  | .result _ success => inferInstanceAs (Decidable (success = true))
  | .setPeerHead _ _ _ => inferInstanceAs (Decidable True)
  | .incoming _ => inferInstanceAs (Decidable True)
  | .workSent => inferInstanceAs (Decidable True)

end

variable {hashing : Hashing} {sm sm' : SyncManager}

/-! ## Buckets wait for active syncs -/

variable (hashing) in
structure WaitsForActive (sm : SyncManager) : Prop where
  waits : ∀ b ∈ sm.activeSyncTips, ∃ t ∈ b.tips, ∃ a ∈ sm.activeSyncs, t.parents = a.cids hashing
  active : ∀ a ∈ sm.activeSyncs, a ∈ sm.syncing

lemma waitsForActive_new : WaitsForActive hashing newSyncManager :=
  ⟨fun _ hb => absurd hb not_mem_nil, fun _ ha => absurd ha not_mem_nil⟩

variable {ts : TipSet} {order : List TipSet}

lemma activeLoop_eq_true {related : Bool} (h : activeLoop hashing ts order related = true) :
    related = true ∨ ∃ a ∈ order, ts.parents = a.cids hashing := by
  induction order generalizing related with
  | nil => exact .inl h
  | cons acts order ih =>
    rw [activeLoop] at h
    split_ifs at h
    · exact .inl h
    · grind

lemma SyncBucket.tips_subset_add (b : SyncBucket) (ts : TipSet) :
    b.tips ⊆ (b.add hashing ts).tips := by
  unfold add
  split_ifs
  · exact List.Subset.refl _
  · exact cons_subset_cons _ (subset_append_left ..)

variable {bs : SyncBuckets}

lemma SyncBuckets.mem_insert {b' : SyncBucket} (h : b' ∈ bs.insert hashing ts) :
    (∃ b ∈ bs, b.tips ⊆ b'.tips) ∨ b' = ⟨ts, []⟩ ∧ bs.relatedToAny hashing ts = false := by
  induction bs with
  | nil => exact .inr ⟨mem_singleton.mp h, rfl⟩
  | cons b bs ih =>
    rw [insert] at h
    split_ifs at h with hsame
    · rcases mem_cons.mp h with rfl | hmem
      · exact .inl ⟨b, .head _, b.tips_subset_add ts⟩
      · exact .inl ⟨b', mem_cons_of_mem b hmem, List.Subset.refl _⟩
    · rcases mem_cons.mp h with rfl | hmem
      · exact .inl ⟨b', .head _, List.Subset.refl _⟩
      · rcases ih hmem with ⟨x, hx, hsub⟩ | ⟨rfl, hnone⟩
        · exact .inl ⟨x, mem_cons_of_mem b hx, hsub⟩
        · refine .inr ⟨rfl, ?_⟩
          rwa [relatedToAny, any_cons, Bool.eq_false_iff.mpr hsame, Bool.false_or]

variable {b : SyncBucket}

lemma SyncBuckets.popRelated_perm {bs' : SyncBuckets}
    (h : bs.popRelated hashing ts = some (b, bs')) :
    bs.Perm (b :: bs') ∧ b.sameChainAs hashing ts = true := by
  induction bs generalizing bs' with
  | nil => cases h
  | cons x bs ih =>
    rw [popRelated] at h
    split_ifs at h with hsame
    · cases h
      exact ⟨.refl _, hsame⟩
    · obtain ⟨⟨r, bs''⟩, hr, heq⟩ := map_eq_some_iff.mp h
      cases heq
      obtain ⟨hperm, hrelated⟩ := ih hr
      exact ⟨(hperm.cons x).trans (.swap b x bs''), hrelated⟩

lemma SyncBuckets.popRelated_eq_none (h : bs.popRelated hashing ts = none) :
    ∀ b ∈ bs, ¬b.sameChainAs hashing ts = true := by
  induction bs with
  | nil => exact forall_mem_nil _
  | cons x bs ih =>
    rw [popRelated] at h
    split_ifs at h with hsame
    exact forall_mem_cons.mpr ⟨hsame, ih (map_eq_none_iff.mp h)⟩

lemma SyncBucket.sameChainAs_of_parents {t : TipSet} (ht : t ∈ b.tips)
    (hparents : t.parents = ts.cids hashing) : b.sameChainAs hashing ts = true := by
  refine any_eq_true.mpr ⟨t, ht, ?_⟩
  grind

@[simp] lemma SyncManager.popNext_activeSyncs : sm.popNext.activeSyncs = sm.activeSyncs := by
  unfold popNext
  split <;> rfl

@[simp] lemma SyncManager.popNext_activeSyncTips :
    sm.popNext.activeSyncTips = sm.activeSyncTips := by
  unfold popNext
  split <;> rfl

lemma SyncManager.refill_active : sm.refill.activeSyncs = sm.activeSyncs ∧
    sm.refill.activeSyncTips = sm.activeSyncTips := by
  unfold refill
  grind [popNext_activeSyncs, popNext_activeSyncTips]

lemma scheduleIncoming_active :
    (scheduleIncoming hashing order ts sm).activeSyncs = sm.activeSyncs ∧
      sm.syncing ⊆ (scheduleIncoming hashing order ts sm).syncing ∧
      ((scheduleIncoming hashing order ts sm).activeSyncTips = sm.activeSyncTips ∨
        relatedToActiveSync hashing order ts sm = true ∧
          (scheduleIncoming hashing order ts sm).activeSyncTips =
            sm.activeSyncTips.insert hashing ts) := by
  unfold scheduleIncoming
  split
  · exact ⟨rfl, subset_cons_self .., .inl rfl⟩
  split
  next hrelated => exact ⟨rfl, List.Subset.refl _, .inr ⟨hrelated, rfl⟩⟩
  split
  · exact ⟨rfl, List.Subset.refl _, .inl rfl⟩
  split
  · split_ifs <;> exact ⟨rfl, List.Subset.refl _, .inl rfl⟩
  · simp

lemma WaitsForActive.incoming (h : WaitsForActive hashing sm) (horder : order.Perm sm.activeSyncs)
    (hsm' : sm' = scheduleIncoming hashing order ts { sm with incoming := none }) :
    WaitsForActive hashing sm' := by
  obtain ⟨hactive, hsyncing, htips⟩ : sm'.activeSyncs = sm.activeSyncs ∧ sm.syncing ⊆ sm'.syncing ∧
      (sm'.activeSyncTips = sm.activeSyncTips ∨ relatedToActiveSync hashing order ts sm = true ∧
          sm'.activeSyncTips = sm.activeSyncTips.insert hashing ts) := by
    rw [hsm']
    exact scheduleIncoming_active
  refine ⟨fun b hb => ?_, fun a ha => hsyncing (h.active a (hactive ▸ ha))⟩
  rw [hactive]
  rcases htips with htips | ⟨hrelated, htips⟩
  · exact h.waits b (htips ▸ hb)
  · rw [htips] at hb
    rcases SyncBuckets.mem_insert hb with ⟨b', hb', hsub⟩ | ⟨rfl, hnone⟩
    · grind [h.waits]
    · -- a new bucket is only made for a tipset that is over an active one
      rw [relatedToActiveSync, hnone, Bool.or_false] at hrelated
      rcases activeLoop_eq_true hrelated with hfalse | ⟨a, ha, hparents⟩
      · cases hfalse
      · exact ⟨ts, .head _, a, horder.mem_iff.mp ha, hparents⟩

lemma WaitsForActive.workSent (h : WaitsForActive hashing sm) (next : SyncBucket) :
    WaitsForActive hashing (scheduleWorkSent hashing next sm) := by
  unfold scheduleWorkSent
  refine ⟨fun b hb => ?_, fun a ha => ?_⟩
  · rw [SyncManager.popNext_activeSyncTips] at hb
    obtain ⟨t, ht, a, ha, hparents⟩ := h.waits b hb
    rw [SyncManager.popNext_activeSyncs]
    by_cases hequals : a.equals hashing next.heaviestTipSet = true
    · refine ⟨t, ht, next.heaviestTipSet, .head _, ?_⟩
      rw [hparents, of_decide_eq_true hequals]
    · grind
  · rw [SyncManager.popNext_activeSyncs] at ha
    rw [SyncManager.popNext_syncing]
    rcases mem_cons.mp ha with rfl | ha
    · exact .head _
    · exact .tail _ (h.active a (mem_filter.mp ha).1)

lemma scheduleProcessResult_active {success : Bool} :
    (scheduleProcessResult hashing ts success sm).activeSyncs =
        sm.activeSyncs.filter (fun a => !a.equals hashing ts) ∧
      ((scheduleProcessResult hashing ts success sm).activeSyncTips = sm.activeSyncTips ∧
          sm.activeSyncTips.popRelated hashing ts = none ∨
        ∃ b, sm.activeSyncTips.popRelated hashing ts =
          some (b, (scheduleProcessResult hashing ts success sm).activeSyncTips)) := by
  unfold scheduleProcessResult
  dsimp only
  split
  next relbucket bs hpop =>
    rw [hpop]
    split_ifs
    · split <;> exact ⟨rfl, .inr ⟨relbucket, rfl⟩⟩
    · refine ⟨SyncManager.refill_active.1, .inr ⟨relbucket, ?_⟩⟩
      rw [SyncManager.refill_active.2]
  next hpop =>
    rw [hpop]
    exact ⟨SyncManager.refill_active.1, .inl ⟨SyncManager.refill_active.2, rfl⟩⟩

lemma WaitsForActive.result (h : WaitsForActive hashing sm) {success : Bool}
    (hone : OneRelated hashing sm (.result ts success))
    (hsm' : sm' = scheduleProcessResult hashing ts success
      { sm with syncing := sm.syncing.erase ts }) :
    WaitsForActive hashing sm' := by
  obtain ⟨hactive, htips⟩ :
      sm'.activeSyncs = sm.activeSyncs.filter (fun a => !a.equals hashing ts) ∧
      (sm'.activeSyncTips = sm.activeSyncTips ∧ sm.activeSyncTips.popRelated hashing ts = none ∨
        ∃ b, sm.activeSyncTips.popRelated hashing ts = some (b, sm'.activeSyncTips)) := by
    rw [hsm']
    exact scheduleProcessResult_active
  obtain ⟨hsyncing, -⟩ : sm'.syncing = sm.syncing.erase ts ∧ ∃ dropped,
      sm.waitingKeys hashing = dropped + sm'.waitingKeys hashing ∧
        (success = true → dropped = 0) := by
    rw [hsm']
    exact scheduleProcessResult_keys
  -- what is left does not wait for the tipset of the result
  have hleft : ∀ b ∈ sm'.activeSyncTips, b ∈ sm.activeSyncTips ∧
      ¬b.sameChainAs hashing ts = true := by
    rcases htips with ⟨heq, hnone⟩ | ⟨x, hpop⟩
    · rw [heq]
      exact fun b hb => ⟨hb, SyncBuckets.popRelated_eq_none hnone b hb⟩
    · intro b hb
      obtain ⟨hperm, hrelated⟩ := SyncBuckets.popRelated_perm hpop
      refine ⟨hperm.mem_iff.mpr (mem_cons_of_mem x hb), fun hsame => ?_⟩
      have hlength := (hperm.filter (·.sameChainAs hashing ts)).length_eq
      rw [filter_cons, if_pos hrelated, length_cons] at hlength
      have hmem : b ∈ sm'.activeSyncTips.filter (·.sameChainAs hashing ts) :=
        mem_filter.mpr ⟨hb, hsame⟩
      have hpos := length_pos_of_mem hmem
      have hle : (sm.activeSyncTips.filter (·.sameChainAs hashing ts)).length ≤ 1 := hone
      omega
  refine ⟨fun b hb => ?_, fun a ha => ?_⟩
  · obtain ⟨hmem, hnot⟩ := hleft b hb
    obtain ⟨t, ht, a, ha, hparents⟩ := h.waits b hmem
    refine ⟨t, ht, a, ?_, hparents⟩
    rw [hactive]
    refine mem_filter.mpr ⟨ha, ?_⟩
    rw [Bool.not_eq_true', Bool.eq_false_iff]
    intro hequals
    exact hnot (SyncBucket.sameChainAs_of_parents ht (hparents.trans (of_decide_eq_true hequals)))
  · rw [hactive] at ha
    obtain ⟨ha, hnot⟩ := mem_filter.mp ha
    rw [hsyncing]
    refine (mem_erase_of_ne fun heq => ?_).mpr (h.active a ha)
    rw [heq, TipSet.equals_self] at hnot
    cases hnot

variable {e : SyncEvent}

lemma WaitsForActive.step (h : WaitsForActive hashing sm) (hone : OneRelated hashing sm e)
    (hstep : syncStep hashing sm e = some sm') :
    WaitsForActive hashing sm' := by
  rcases syncStep_cases hstep with ⟨p, ts, heads, rfl, hset⟩ |
    ⟨order, ts, rfl, -, horder, hsm'⟩ | ⟨next, rfl, -, rfl⟩ | ⟨ts, success, rfl, -, hsm'⟩
  · obtain ⟨_, _, _, rfl⟩ := setPeerHead_eq_some hset
    exact ⟨h.waits, h.active⟩
  · exact h.incoming horder hsm'
  · exact h.workSent next
  · exact h.result hone hsm'

/-! ## What was received is under what is handed out -/

section

variable (hashing) {h h' : SyncHistory}

def Reaches (h : SyncHistory) (ts : TipSet) : Prop :=
  ts ∈ h.handed ∨ ts.cids hashing ∈ h.sm.waitingKeys hashing

def Covered (h : SyncHistory) : Prop :=
  ∀ ts ∈ h.received, ∃ u, Reaches hashing h u ∧ AncestorOrSelf hashing h.received ts u

variable {hashing}

lemma AncestorOrSelf.refl (received : List TipSet) (ts : TipSet) :
    AncestorOrSelf hashing received ts ts := Relation.ReflTransGen.refl

lemma AncestorOrSelf.mono {received received' : List TipSet} {ts' : TipSet}
    (h : AncestorOrSelf hashing received ts ts') (hsub : received ⊆ received') :
    AncestorOrSelf hashing received' ts ts' :=
  Relation.ReflTransGen.mono (fun _ _ ⟨x, hx, hkeys⟩ => ⟨x, hsub hx, hkeys⟩) _ _ h

lemma Covered.trans (hcovered : Covered hashing h) (hsub : h.received ⊆ h'.received)
    (hold : ∀ u, Reaches hashing h u →
      ∃ u', Reaches hashing h' u' ∧ AncestorOrSelf hashing h'.received u u')
    (hnew : ∀ ts ∈ h'.received, ts ∈ h.received ∨ Reaches hashing h' ts) :
    Covered hashing h' := by
  intro ts hts
  rcases hnew ts hts with hts | hts
  · obtain ⟨u, hu, hanc⟩ := hcovered ts hts
    obtain ⟨u', hu', hanc'⟩ := hold u hu
    exact ⟨u', hu', Relation.ReflTransGen.trans (hanc.mono hsub) hanc'⟩
  · exact ⟨ts, hts, .refl _ ts⟩

lemma SyncBuckets.keys_le_of_mem (hb : b ∈ bs) : b.keys hashing ≤ keys hashing bs := by
  obtain ⟨pre, post, rfl⟩ := append_of_mem hb
  rw [keys_append, keys_cons]
  exact (Multiset.le_add_right _ _).trans (Multiset.le_add_left _ _)

lemma keys_le_of_bucketFor (h : bucketFor hashing order ts sm = some b) :
    b.keys hashing ≤ sm.waitingKeys hashing := by
  have hqueue (hb : sm.syncQueue.find? (·.sameChainAs hashing ts) = some b) :
      b.keys hashing ≤ sm.waitingKeys hashing :=
    (SyncBuckets.keys_le_of_mem (mem_of_find?_eq_some hb)).trans
      ((Multiset.le_add_left _ _).trans (Multiset.le_add_right _ _))
  unfold bucketFor at h
  split_ifs at h
  · exact (SyncBuckets.keys_le_of_mem (mem_of_find?_eq_some h)).trans
      ((Multiset.le_add_right _ _).trans (Multiset.le_add_right _ _))
  · exact hqueue h
  · rcases or_eq_some_iff.mp h with h | ⟨-, h⟩
    · obtain ⟨hnext, -⟩ := filter_eq_some_iff.mp h
      have hmem : b ∈ sm.nextSyncTarget.toList := mem_toList.mpr hnext
      exact (SyncBuckets.keys_le_of_mem hmem).trans (Multiset.le_add_left _ _)
    · exact hqueue h

lemma mem_waitingKeys_of_gains {m : Multiset (List Cid)}
    (h : Gains hashing (bucketFor hashing order ts sm) ts (sm.waitingKeys hashing) m) :
    ts.cids hashing ∈ m ∧ sm.waitingKeys hashing ≤ m := by
  rcases h with ⟨⟨b, hb, hmem⟩, rfl⟩ | ⟨-, rfl⟩
  · exact ⟨Multiset.mem_of_le (keys_le_of_bucketFor hb) hmem, le_rfl⟩
  · exact ⟨Multiset.mem_cons_self _ _, Multiset.le_cons_self _ _⟩

lemma mem_waitingKeys_of_waiting (h : ts ∈ sm.waiting) :
    ts.cids hashing ∈ sm.waitingKeys hashing := by
  obtain ⟨b, hb, hts⟩ := mem_flatMap.mp h
  have hkey : ts.cids hashing ∈ b.keys hashing := Multiset.mem_coe.mpr (mem_map_of_mem hts)
  have hmem := Multiset.mem_of_le (SyncBuckets.keys_le_of_mem hb) hkey
  rwa [SyncBuckets.keys_append, SyncBuckets.keys_append] at hmem

lemma Covered.incoming (hcovered : Covered hashing h) (hincoming : h.sm.incoming = some ts)
    (hsm' : sm' = scheduleIncoming hashing order ts { h.sm with incoming := none }) :
    Covered hashing ⟨sm', h.received ++ (receivedBy h.sm (.incoming order)).toList,
      h.handed ++ (handedBy h.sm (.incoming order)).toList⟩ := by
  have hreceived : receivedBy h.sm (.incoming order) = some ts := hincoming
  rw [hreceived]
  -- the tipset goes to a worker or into a bucket, and nothing is taken out of one
  have hreaches : Reaches hashing ⟨sm', h.received ++ [ts],
      h.handed ++ (handedBy h.sm (.incoming order)).toList⟩ ts ∧
      h.sm.waitingKeys hashing ≤ sm'.waitingKeys hashing := by
    by_cases hstate : h.sm.bootstrapState = .selected
    · rw [handedBy, if_pos hstate, hincoming]
      refine ⟨.inl (mem_append_right _ mem_cons_self), ?_⟩
      rw [hsm', scheduleIncoming, if_pos hstate]
      exact le_rfl
    · obtain ⟨-, -, hgains⟩ : sm'.syncing = h.sm.syncing ∧
          sm'.bootstrapState = h.sm.bootstrapState ∧
          Gains hashing (bucketFor hashing order ts h.sm) ts (h.sm.waitingKeys hashing)
            (sm'.waitingKeys hashing) := by
        rw [hsm']
        exact scheduleIncoming_gains hstate
      obtain ⟨hmem, hle⟩ := mem_waitingKeys_of_gains hgains
      exact ⟨.inr hmem, hle⟩
  refine hcovered.trans (subset_append_left ..) (fun u hu => ⟨u, ?_, .refl _ u⟩) fun x hx => ?_
  · exact hu.imp (mem_append_left _) (Multiset.mem_of_le hreaches.2)
  · grind

lemma Covered.workSent (hcovered : Covered hashing h) {next : SyncBucket}
    (hnext : h.sm.nextSyncTarget = some next) (hwhole : SentWhole hashing h .workSent) :
    Covered hashing ⟨scheduleWorkSent hashing next h.sm,
      h.received ++ (receivedBy h.sm .workSent).toList,
      h.handed ++ (handedBy h.sm .workSent).toList⟩ := by
  have hreceived : receivedBy h.sm .workSent = none := rfl
  have hhanded : handedBy h.sm .workSent = some next.heaviestTipSet := by
    rw [handedBy, hnext]
    rfl
  obtain ⟨-, hkeys⟩ : (scheduleWorkSent hashing next h.sm).syncing = _ ∧
      h.sm.waitingKeys hashing = _ := scheduleWorkSent_keys hnext
  rw [hreceived, hhanded, toList_none, append_nil]
  refine hcovered.trans (List.Subset.refl _) (fun u hu => ?_) fun x hx => .inl hx
  rcases hu with hu | hu
  · exact ⟨u, .inl (mem_append_left _ hu), .refl _ u⟩
  rw [hkeys, Multiset.mem_add] at hu
  rcases hu with hu | hu
  · -- a tipset of the bucket is under the one that is sent
    obtain ⟨t, ht, heq⟩ := mem_map.mp (Multiset.mem_coe.mp hu)
    refine ⟨next.heaviestTipSet, .inl (mem_append_right _ mem_cons_self), ?_⟩
    have hanc := hwhole next hnext t ht
    unfold AncestorOrSelf at hanc ⊢
    rwa [heq] at hanc
  · exact ⟨u, .inr hu, .refl _ u⟩

lemma Covered.step (hcovered : Covered hashing h) (hwhole : SentWhole hashing h e)
    (hsucceeds : e.Succeeds) (hstep : historyStep hashing h e = some h') : Covered hashing h' := by
  obtain ⟨sm', hsm', rfl⟩ := map_eq_some_iff.mp hstep
  rcases syncStep_cases hsm' with ⟨p, ts, heads, rfl, hset⟩ | ⟨order, ts, rfl, hincoming, -, hsm'⟩ |
    ⟨next, rfl, hnext, rfl⟩ | ⟨ts, success, rfl, -, hsm'⟩
  · obtain ⟨_, _, _, rfl⟩ := setPeerHead_eq_some hset
    refine hcovered.trans (subset_append_left ..) (fun u hu => ⟨u, ?_, .refl _ u⟩)
      fun x hx => .inl ?_
    · exact hu.imp_left (mem_append_left _)
    · exact (mem_append.mp hx).resolve_right not_mem_nil
  · exact hcovered.incoming hincoming hsm'
  · exact hcovered.workSent hnext hwhole
  · obtain ⟨-, dropped, hkeys, hdropped⟩ : sm'.syncing = h.sm.syncing.erase ts ∧ ∃ dropped,
        h.sm.waitingKeys hashing = dropped + sm'.waitingKeys hashing ∧
          (success = true → dropped = 0) := by
      rw [hsm']
      exact scheduleProcessResult_keys
    rw [hdropped hsucceeds, zero_add] at hkeys
    refine hcovered.trans (subset_append_left ..) (fun u hu => ⟨u, ?_, .refl _ u⟩)
      fun x hx => .inl ?_
    · refine hu.imp (mem_append_left _) fun hu => ?_
      rwa [hkeys] at hu
    · exact (mem_append.mp hx).resolve_right not_mem_nil

variable (hashing) in
structure LeavesNone (h : SyncHistory) : Prop where
  waits : WaitsForActive hashing h.sm
  covered : Covered hashing h

lemma LeavesNone.step (hs : LeavesNone hashing h) (hone : OneRelated hashing h.sm e)
    (hwhole : SentWhole hashing h e) (hsucceeds : e.Succeeds)
    (hstep : historyStep hashing h e = some h') : LeavesNone hashing h' := by
  refine ⟨?_, hs.covered.step hwhole hsucceeds hstep⟩
  obtain ⟨sm', hsm', rfl⟩ := map_eq_some_iff.mp hstep
  exact hs.waits.step hone hsm'

/-- After any run in which a result is related to one bucket, let the syncs succeed. Once nothing is
synced, queued or next, nothing waits, and every tipset that waited or was received is, or is an
ancestor of, one that was handed to a worker. -/
theorem scheduler_leaves_none {start : SyncManager} {pre post : List SyncEvent}
    (hpre : Runs.Along (syncStep hashing) (OneRelated hashing) newSyncManager pre)
    (hstart : Runs.run (syncStep hashing) newSyncManager pre = some start)
    (hpost : Runs.Along (historyStep hashing)
      (fun h e => OneRelated hashing h.sm e ∧ SentWhole hashing h e ∧ e.Succeeds)
      ⟨start, start.waiting, start.syncing⟩ post)
    (hrun : Runs.run (historyStep hashing) ⟨start, start.waiting, start.syncing⟩ post = some h)
    (hidle : h.sm.Idle) :
    h.sm.activeSyncTips = [] ∧
      ∀ ts ∈ h.received, ∃ u ∈ h.handed, AncestorOrSelf hashing h.received ts u := by
  have hwaits : WaitsForActive hashing start :=
    Runs.invariant (fun hs hone hstep => hs.step hone hstep) waitsForActive_new hpre hstart
  have hcovered : Covered hashing ⟨start, start.waiting, start.syncing⟩ := fun ts hts =>
    ⟨ts, .inr (mem_waitingKeys_of_waiting hts), .refl _ ts⟩
  have hinv : LeavesNone hashing h :=
    Runs.invariant (fun hs hc hstep => hs.step hc.1 hc.2.1 hc.2.2 hstep) ⟨hwaits, hcovered⟩ hpost
      hrun
  have htips : h.sm.activeSyncTips = [] := by
    refine eq_nil_iff_forall_not_mem.mpr fun b hb => ?_
    obtain ⟨t, -, a, ha, -⟩ := hinv.waits.waits b hb
    have hsyncing := hinv.waits.active a ha
    rw [hidle.syncing] at hsyncing
    cases hsyncing
  refine ⟨htips, fun ts hts => ?_⟩
  obtain ⟨u, hu, hanc⟩ := hinv.covered ts hts
  refine ⟨u, hu.resolve_right fun hwaiting => ?_, hanc⟩
  rw [SyncManager.waitingKeys, htips, hidle.syncQueue, hidle.nextSyncTarget] at hwaiting
  exact absurd hwaiting (Multiset.notMem_zero _)

end

def sampleTop : TipSet := sampleTip 3 (sampleMiddle.cids sampleHashing)

def sampleBootstrap : List SyncEvent :=
  [.setPeerHead 1 sampleBottom [sampleBottom], .incoming [], .result sampleBottom true]

def sampleBootstrapped : SyncManager :=
  { newSyncManager with peerHeads := [(1, sampleBottom)], bootstrapState := .complete }

lemma sentWhole_of_parents {h : SyncHistory}
    (hb : ∀ b ∈ h.sm.nextSyncTarget, ∀ t ∈ b.tips, t = b.heaviestTipSet ∨
      ParentKey hashing h.received (t.cids hashing) (b.heaviestTipSet.cids hashing))
    (e : SyncEvent) : SentWhole hashing h e := by
  cases e with
  | workSent =>
    intro b hnext t ht
    rcases hb b hnext t ht with heq | hparent
    · rw [← heq]
      exact .refl _ t
    · exact Relation.ReflTransGen.single hparent
  | setPeerHead p ts heads => trivial
  | incoming order => trivial
  | result ts success => trivial

def sampleTwo : List SyncEvent :=
  [.setPeerHead 1 sampleMiddle [], .incoming [], .setPeerHead 1 sampleTop [], .incoming [],
    .workSent, .result sampleTop true]

theorem sampleTwo_leaves_none :
    ∃ h ∈ Runs.run (historyStep sampleHashing) ⟨sampleBootstrapped, [], []⟩ sampleTwo,
      h.received = [sampleMiddle, sampleTop] ∧ h.handed = [sampleTop] ∧
      h.sm.activeSyncTips = [] ∧
      ∀ ts ∈ h.received, ∃ u ∈ h.handed, AncestorOrSelf sampleHashing h.received ts u := by
  have hstart : Runs.run (syncStep sampleHashing) newSyncManager sampleBootstrap =
      some sampleBootstrapped := rfl
  have hpre : Runs.Along (syncStep sampleHashing) (OneRelated sampleHashing) newSyncManager
      sampleBootstrap := by
    decide +kernel
  have hpost : Runs.Along (historyStep sampleHashing) (fun h e => OneRelated sampleHashing h.sm e ∧
        (∀ b ∈ h.sm.nextSyncTarget, ∀ t ∈ b.tips, t = b.heaviestTipSet ∨
          ParentKey sampleHashing h.received (t.cids sampleHashing)
            (b.heaviestTipSet.cids sampleHashing)) ∧ e.Succeeds)
      ⟨sampleBootstrapped, [], []⟩ sampleTwo := by
    decide +kernel
  obtain ⟨h, hrun, hreceived, hhanded, hidle⟩ :
      ∃ h ∈ Runs.run (historyStep sampleHashing) ⟨sampleBootstrapped, [], []⟩ sampleTwo,
        h.received = [sampleMiddle, sampleTop] ∧ h.handed = [sampleTop] ∧ h.sm.Idle := by
    decide +kernel
  exact ⟨h, hrun, hreceived, hhanded, scheduler_leaves_none hpre hstart
    (hpost.mono fun h e hc => ⟨hc.1, sentWhole_of_parents hc.2.1 e, hc.2.2⟩) hrun hidle⟩

def sampleFork : TipSet := sampleTip 4 (sampleMiddle.cids sampleHashing)

theorem sampleFork_stranded :
    (∀ e ∈ ([.setPeerHead 1 sampleMiddle [], .incoming [], .workSent, .setPeerHead 1 sampleTop [],
      .incoming [sampleMiddle], .setPeerHead 2 sampleFork [], .incoming [sampleMiddle],
      .result sampleMiddle true, .workSent, .result sampleTop true] : List SyncEvent),
      e.Succeeds) ∧
    ∃ h ∈ Runs.run (historyStep sampleHashing) ⟨sampleBootstrapped, [], []⟩
        [.setPeerHead 1 sampleMiddle [], .incoming [], .workSent, .setPeerHead 1 sampleTop [],
          .incoming [sampleMiddle], .setPeerHead 2 sampleFork [], .incoming [sampleMiddle],
          .result sampleMiddle true, .workSent, .result sampleTop true],
      h.sm.Idle ∧ h.sm.activeSyncTips ≠ [] ∧ sampleFork ∈ h.received ∧
        h.handed = [sampleMiddle, sampleTop] := by
  decide +kernel

end Lotus
