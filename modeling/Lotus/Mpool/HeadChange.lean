import Lotus.Chain.Mining
import Lotus.Chain.Receipts
import Lotus.Mpool.SigCache

/-!
# The message pool across reorgs

`HeadChange`, `MessagesForBlocks` and `remove` of `chain/messagepool/messagepool.go`.
-/

namespace Lotus

open StateTree List Function Act

/-! ## The model -/

/-- `Provider`, without the storing of messages. -/
structure Provider where
  /-- The parent state of a tipset, or of the head. -/
  stateGetActor : Address → Option TipSet → Except NodeErr Actor
  stateAccountKey : Address → Option TipSet → Except NodeErr Address
  messagesForBlock : BlockHeader → Except NodeErr (List Message × List SignedMessage)
  messagesForTipset : TipSet → Except NodeErr (List ChainMsg)
  loadTipSet : List Cid → Except NodeErr TipSet

def mpoolProvider (syncer : Syncer) (head : TipSet) : Provider where
  stateGetActor addr ts :=
    (getActor syncer.sm.env.init addr
      (loadStateTree (ts.getD head).parentState)).1.mapError .tree
  stateAccountKey addr ts := resolveToKeyAddressAt syncer (ts.getD head) addr
  messagesForBlock := syncer.sm.cs.messagesForBlock
  messagesForTipset := messagesForTipset syncer.sm
  loadTipSet := loadTipSet syncer.sm.cs

/-- The pool with its current tipset. -/
structure MpoolState where
  pool : MessagePool
  curTs : Option TipSet

def Message.slot (m : Message) : Address × UInt64 := (m.fromAddr, m.nonce)

abbrev RevertedMsgs : Type := AList fun _ : Address × UInt64 => SignedMessage

section Model

variable (mpe : MpoolEnv) (api : Provider)

def MsgSet.without (mset : MsgSet) (nonce : UInt64) : Option MsgSet :=
  let msgs := mset.msgs.erase nonce
  if msgs = ∅ then none
  else
    let maxNonce := max (msgs.keys.sup UInt64.toNat) nonce.toNat
    some ⟨msgs, UInt64.ofNat maxNonce + 1⟩

def remove (k : Address × UInt64) (mp : MessagePool) : MessagePool :=
  match mp.pending.lookup k.1 with
  | none => mp
  | some mset =>
    { mp with
      currentSize := if k.2 ∈ mset.msgs then mp.currentSize - 1 else mp.currentSize
      pending :=
        match mset.without k.2 with
        | none => mp.pending.erase k.1
        | some mset => mp.pending.insert k.1 mset }

def messagesForBlocks (mp : MessagePool) : List BlockHeader → Except NodeErr (List SignedMessage)
  | [] => .ok []
  | b :: blks => do
    let (bmsgs, smsgs) ← (api.messagesForBlock b).mapError
      (.wrap "failed to get messages for apply block %s(height %d) (msgroot = %s)")
    let out ← messagesForBlocks mp blks
    pure (smsgs ++ bmsgs.filterMap (recoverSig mpe mp) ++ out)

def addReverted (rmsgs : RevertedMsgs) (m : SignedMessage) : RevertedMsgs :=
  rmsgs.insert m.message.slot m

def rm (s : RevertedMsgs × MessagePool) (k : Address × UInt64) : RevertedMsgs × MessagePool :=
  if k ∈ s.1 then (s.1.erase k, s.2) else (s.1, remove k s.2)

def revertLoop : List TipSet → RevertedMsgs → Act MpoolState NodeErr RevertedMsgs
  | [], rmsgs => pure rmsgs
  | ts :: revert, rmsgs => do
    let pts ← ofExcept (api.loadTipSet ts.parents)
    let s ← get
    let msgs ← ofExcept (messagesForBlocks mpe api s.pool ts.blocks)
    modify fun s => { s with curTs := some pts }
    revertLoop revert (msgs.foldl addReverted rmsgs)

def applyBlocksLoop : List BlockHeader → RevertedMsgs → Act MpoolState NodeErr RevertedMsgs
  | [], rmsgs => pure rmsgs
  | b :: blks, rmsgs => do
    let (bmsgs, smsgs) ← ofExcept ((api.messagesForBlock b).mapError
      (.wrap "failed to get messages for apply block %s(height %d) (msgroot = %s)"))
    let s ← get
    let removed := ((smsgs.map (·.message) ++ bmsgs).map Message.slot).foldl rm (rmsgs, s.pool)
    modify fun s => { s with pool := removed.2 }
    applyBlocksLoop blks removed.1

def applyLoop : List TipSet → RevertedMsgs → Act MpoolState NodeErr RevertedMsgs
  | [], rmsgs => pure rmsgs
  | ts :: apply, rmsgs => do
    let rmsgs ← applyBlocksLoop api ts.blocks rmsgs
    modify fun s => { s with curTs := some ts }
    applyLoop apply rmsgs

/-- `addSkipChecks`. `HeadChange` only logs an error. -/
def readd (mp : MessagePool) (m : SignedMessage) : MessagePool := (addLocked mpe m mp).2

/-- `HeadChange`. The messages that are left are added in the order in which the map is gone
through. -/
def headChange (order : List SignedMessage → List SignedMessage) (revert apply : List TipSet) :
    Act MpoolState NodeErr Unit := do
  let rmsgs ← revertLoop mpe api revert ∅
  let rmsgs ← applyLoop api apply rmsgs
  modify fun s =>
    { s with pool := (order (rmsgs.entries.map (·.2))).foldl (readd mpe) s.pool }

end Model

/-! ## Slots -/

def MessagePool.slotAt (mp : MessagePool) (k : Address × UInt64) : Option SignedMessage :=
  (mp.pending.lookup k.1).bind fun mset => mset.msgs.lookup k.2

section Slots

variable {mpe : MpoolEnv} {mp : MessagePool} {k : Address × UInt64} {m : SignedMessage}

variable {mset : MsgSet}

lemma slotAt_of_lookup (hmset : mp.pending.lookup k.1 = some mset) (nonce : UInt64) :
    mp.slotAt (k.1, nonce) = mset.msgs.lookup nonce := by
  rw [MessagePool.slotAt, hmset, Option.bind_some]

/-- A sender gets a set that differs in one slot. -/
lemma slotAt_insert {mp' : MessagePool} {v : Option SignedMessage}
    (hpending : mp'.pending = mp.pending.insert k.1 mset) (hsame : mset.msgs.lookup k.2 = v)
    (hother : ∀ nonce, nonce ≠ k.2 → mset.msgs.lookup nonce = mp.slotAt (k.1, nonce)) :
    mp'.slotAt = update mp.slotAt k v := by
  funext k'
  obtain ⟨a, nonce⟩ := k'
  by_cases ha : a = k.1
  · have hlookup : mp'.slotAt (a, nonce) = mset.msgs.lookup nonce := by
      rw [MessagePool.slotAt, hpending, ha, Finmap.lookup_insert, Option.bind_some]
    grind
  · rw [update_of_ne fun h => ha (congrArg Prod.fst h), MessagePool.slotAt, hpending,
      Finmap.lookup_insert_of_ne _ ha]
    rfl

lemma slotAt_erase {mp' : MessagePool} (hpending : mp'.pending = mp.pending.erase k.1)
    (hother : ∀ nonce, nonce ≠ k.2 → mp.slotAt (k.1, nonce) = none) :
    mp'.slotAt = update mp.slotAt k none := by
  funext k'
  obtain ⟨a, nonce⟩ := k'
  by_cases ha : a = k.1
  · have hnone : update mp.slotAt k none (a, nonce) = none := by
      grind
    rw [hnone, MessagePool.slotAt, hpending, ha, Finmap.lookup_erase, Option.bind_none]
  · rw [update_of_ne fun h => ha (congrArg Prod.fst h), MessagePool.slotAt, hpending,
      Finmap.lookup_erase_ne ha]
    rfl

lemma remove_pending (hmset : mp.pending.lookup k.1 = some mset) : (remove k mp).pending =
      match mset.without k.2 with
      | none => mp.pending.erase k.1
      | some mset => mp.pending.insert k.1 mset := by
  rw [remove, hmset]

lemma slotAt_remove (k : Address × UInt64) (mp : MessagePool) :
    (remove k mp).slotAt = update mp.slotAt k none := by
  rcases hmset : mp.pending.lookup k.1 with - | mset
  · have hnone : mp.slotAt k = none := by
      rw [MessagePool.slotAt, hmset, Option.bind_none]
    rw [remove, hmset, ← hnone, update_eq_self]
  have hother (nonce : UInt64) (hne : nonce ≠ k.2) :
      (mset.msgs.erase k.2).lookup nonce = mp.slotAt (k.1, nonce) := by
    rw [Finmap.lookup_erase_ne hne, slotAt_of_lookup hmset]
  have hpending := remove_pending hmset
  by_cases hempty : mset.msgs.erase k.2 = ∅
  · have hwithout : mset.without k.2 = none := if_pos hempty
    rw [hwithout] at hpending
    refine slotAt_erase hpending fun nonce hne => ?_
    rw [← hother nonce hne, hempty, Finmap.lookup_empty]
  · have hwithout : mset.without k.2 = some _ := if_neg hempty
    rw [hwithout] at hpending
    exact slotAt_insert hpending (Finmap.lookup_erase _ _) hother

lemma MsgSet.add_of_none (hnone : mset.msgs.lookup m.message.nonce = none) :
    ∃ nextNonce, MsgSet.add mpe m mset =
      (.ok true, ⟨mset.msgs.insert m.message.nonce m, nextNonce⟩) := by
  have hrun : MsgSet.add mpe m mset = _ := bind_of_ok (modify_apply _ mset)
  rw [hrun, bind_of_ok (get_apply _)]
  split_ifs
  · simp only [hnone]
    exact ⟨_, rfl⟩
  · simp only [hnone]
    exact ⟨_, rfl⟩

variable (mpe m) in
def Storable : Prop :=
  m.message.gasLimit ≤ blockGasLimit ∧ mpe.putMessage (m.toChainMsg mpe.codec) = .ok () ∧
    mpe.putMessage (m.message.toChainMsg mpe.codec) = .ok ()

def MessagePool.msgSet (mp : MessagePool) (a : Address) : MsgSet :=
  (mp.pending.lookup a).getD newMsgSet

lemma lookup_msgSet (a : Address) (nonce : UInt64) :
    (mp.msgSet a).msgs.lookup nonce = mp.slotAt (a, nonce) := by
  rw [MessagePool.msgSet, MessagePool.slotAt]
  rcases mp.pending.lookup a with - | mset
  · exact Finmap.lookup_empty nonce
  · rfl

variable (mpe) in
lemma cacheBlsSig_pending (m : SignedMessage) (mp : MessagePool) :
    (cacheBlsSig mpe m mp).pending = mp.pending := by
  rw [cacheBlsSig]
  split_ifs <;> rfl

lemma addLocked_pending (h : Storable mpe m) (mp : MessagePool) :
    (addLocked mpe m mp).2.pending = mp.pending.insert m.message.fromAddr
      (MsgSet.add mpe m (mp.msgSet m.message.fromAddr)).2 := by
  obtain ⟨hgas, hsigned, hmessage⟩ := h
  rw [MessagePool.msgSet, ← cacheBlsSig_pending mpe m mp, addLocked, bind_of_ok (modify_apply _ mp)]
  generalize cacheBlsSig mpe m mp = mp
  rw [addPending, if_neg (Int64.not_lt.mpr hgas),
    bind_of_ok (ofExcept_of_ok hsigned mp), bind_of_ok (ofExcept_of_ok hmessage mp)]
  rcases hadd : MsgSet.add mpe m ((mp.pending.lookup m.message.fromAddr).getD newMsgSet) with
    ⟨err | incr, mset⟩
  · simp only [bind_apply, zoom_apply, hadd]
  · simp only [bind_apply, zoom_apply, hadd]
    split_ifs <;> rfl

lemma addLocked_pending_of_not (h : ¬ Storable mpe m) (mp : MessagePool) :
    (addLocked mpe m mp).2.pending = mp.pending := by
  rw [← cacheBlsSig_pending mpe m mp, addLocked, bind_of_ok (modify_apply _ mp)]
  generalize cacheBlsSig mpe m mp = mp
  rw [addPending]
  split_ifs with hgas
  · rfl
  rcases hsigned : mpe.putMessage (m.toChainMsg mpe.codec) with err | _
  · rfl
  rw [bind_of_ok (ofExcept_apply _ mp)]
  rcases hmessage : mpe.putMessage (m.message.toChainMsg mpe.codec) with err | _
  · rfl
  · exact absurd ⟨Int64.not_lt.mp hgas, hsigned, hmessage⟩ h

lemma slotAt_addLocked (h : Storable mpe m) (hfree : mp.slotAt m.message.slot = none) :
    (addLocked mpe m mp).2.slotAt = update mp.slotAt m.message.slot (some m) := by
  obtain ⟨nextNonce, hadd⟩ : ∃ nextNonce, MsgSet.add mpe m (mp.msgSet m.message.fromAddr) = _ :=
    MsgSet.add_of_none ((lookup_msgSet _ _).trans hfree)
  have hpending := addLocked_pending h mp
  rw [hadd] at hpending
  refine slotAt_insert (k := m.message.slot) hpending (Finmap.lookup_insert _) fun nonce hne => ?_
  exact (Finmap.lookup_insert_of_ne _ hne).trans (lookup_msgSet _ _)

end Slots

/-! ## Collecting the reverted messages -/

section Reverted

variable {mpe : MpoolEnv} {api : Provider} {mp : MessagePool} {rmsgs : RevertedMsgs}
  {msgs : List SignedMessage}

def Provider.blockMsgs (api : Provider) (b : BlockHeader) : List Message × List SignedMessage :=
  (api.messagesForBlock b).toOption.getD ([], [])

def Provider.included (api : Provider) (tss : List TipSet) : List Message :=
  tss.flatMap fun ts => ts.blocks.flatMap fun b =>
    (api.blockMsgs b).2.map (·.message) ++ (api.blockMsgs b).1

variable (mpe api mp) in
def recoverable (tss : List TipSet) : List SignedMessage :=
  tss.flatMap fun ts => ts.blocks.flatMap fun b =>
    (api.blockMsgs b).2 ++ (api.blockMsgs b).1.filterMap (recoverSig mpe mp)

/-- The loads that `HeadChange` makes succeed. -/
structure Provider.Loads (api : Provider) (revert apply : List TipSet) : Prop where
  parents : ∀ ts ∈ revert, ∃ pts, api.loadTipSet ts.parents = .ok pts
  reverted : ∀ ts ∈ revert, ∀ b ∈ ts.blocks, ∃ msgs, api.messagesForBlock b = .ok msgs
  applied : ∀ ts ∈ apply, ∀ b ∈ ts.blocks, ∃ msgs, api.messagesForBlock b = .ok msgs

structure Collects (rmsgs : RevertedMsgs) (msgs : List SignedMessage) : Prop where
  mem : ∀ k m, rmsgs.lookup k = some m → m ∈ msgs ∧ m.message.slot = k
  exists_lookup : ∀ m ∈ msgs, ∃ m', rmsgs.lookup m.message.slot = some m'

lemma collects_empty : Collects ∅ [] := ⟨fun _ m h => absurd h (Option.some_ne_none m).symm,
  forall_mem_nil _⟩

lemma Collects.addReverted (h : Collects rmsgs msgs) (m : SignedMessage) :
    Collects (addReverted rmsgs m) (msgs ++ [m]) where
  mem k m' hlookup := by
    unfold Lotus.addReverted at hlookup
    by_cases hk : k = m.message.slot
    · rw [hk, AList.lookup_insert, Option.some.injEq] at hlookup
      grind
    · rw [AList.lookup_insert_ne hk] at hlookup
      obtain ⟨hmem, hslot⟩ := h.mem k m' hlookup
      exact ⟨mem_append_left _ hmem, hslot⟩
  exists_lookup m' hm' := by
    unfold Lotus.addReverted
    by_cases hk : m'.message.slot = m.message.slot
    · exact ⟨m, by rw [hk, AList.lookup_insert]⟩
    · grind [AList.lookup_insert_ne, h.exists_lookup, mem_singleton]

lemma Collects.foldl (h : Collects rmsgs msgs) (msgs' : List SignedMessage) :
    Collects (msgs'.foldl Lotus.addReverted rmsgs) (msgs ++ msgs') := by
  induction msgs' generalizing rmsgs msgs with
  | nil => rwa [append_nil]
  | cons m msgs' ih =>
    have hnext := ih (h.addReverted m)
    rwa [append_assoc, singleton_append] at hnext

lemma blockMsgs_eq {b : BlockHeader} {r : List Message × List SignedMessage}
    (h : api.messagesForBlock b = .ok r) : api.blockMsgs b = r := by
  rw [Provider.blockMsgs, h]
  rfl

variable (mpe mp) in
lemma messagesForBlocks_eq {blks : List BlockHeader}
    (h : ∀ b ∈ blks, ∃ msgs, api.messagesForBlock b = .ok msgs) :
    messagesForBlocks mpe api mp blks = .ok (blks.flatMap fun b =>
      (api.blockMsgs b).2 ++ (api.blockMsgs b).1.filterMap (recoverSig mpe mp)) := by
  induction blks with
  | nil => rfl
  | cons b blks ih =>
    obtain ⟨r, hr⟩ := h b mem_cons_self
    rw [messagesForBlocks, ih fun b' hb' => h b' (mem_cons_of_mem b hb'),
      flatMap_cons, blockMsgs_eq hr, hr]
    rfl

lemma revertLoop_eq {revert : List TipSet} {s : MpoolState}
    (hparents : ∀ ts ∈ revert, ∃ pts, api.loadTipSet ts.parents = .ok pts)
    (hloads : ∀ ts ∈ revert, ∀ b ∈ ts.blocks, ∃ msgs, api.messagesForBlock b = .ok msgs) :
    ∃ curTs, revertLoop mpe api revert rmsgs s =
      (.ok ((recoverable mpe api s.pool revert).foldl addReverted rmsgs), ⟨s.pool, curTs⟩) := by
  induction revert generalizing rmsgs s with
  | nil => exact ⟨s.curTs, rfl⟩
  | cons ts revert ih =>
    obtain ⟨pts, hpts⟩ := hparents ts mem_cons_self
    have hmsgs := messagesForBlocks_eq mpe s.pool (hloads ts mem_cons_self)
    rw [revertLoop, bind_of_ok (ofExcept_of_ok hpts s), bind_of_ok (get_apply s),
      bind_of_ok (ofExcept_of_ok hmsgs s), bind_of_ok (modify_apply _ s)]
    obtain ⟨curTs, hrest⟩ := ih (s := ⟨s.pool, some pts⟩)
      (fun ts' hts' => hparents ts' (mem_cons_of_mem ts hts'))
      (fun ts' hts' => hloads ts' (mem_cons_of_mem ts hts'))
    refine ⟨curTs, hrest.trans ?_⟩
    rw [recoverable, recoverable, flatMap_cons, foldl_append]

end Reverted

/-! ## Emptying the slots of the applied messages -/

section Applied

variable {api : Provider} {rmsgs : RevertedMsgs} {mp : MessagePool}

def SlotsApart (s : RevertedMsgs × MessagePool) : Prop :=
  ∀ k m, s.1.lookup k = some m → s.2.slotAt k = none

/-- The slots `ks` are empty in the collection and in the pool, and the others are as they were. -/
def Emptied (ks : List (Address × UInt64)) (s s' : RevertedMsgs × MessagePool) : Prop :=
  ∀ k, s'.1.lookup k = (if k ∈ ks then none else s.1.lookup k) ∧
    s'.2.slotAt k = (if k ∈ ks then none else s.2.slotAt k)

variable {s s' : RevertedMsgs × MessagePool} {ks : List (Address × UInt64)}

lemma Emptied.apart (h : Emptied ks s s') (hs : SlotsApart s) : SlotsApart s' := by
  intro k m hlookup
  obtain ⟨hcollected, hpending⟩ := h k
  rw [hcollected] at hlookup
  rw [hpending]
  split_ifs at hlookup ⊢
  exact hs k m hlookup

lemma Emptied.append {ks' : List (Address × UInt64)} {s'' : RevertedMsgs × MessagePool}
    (h : Emptied ks s s') (h' : Emptied ks' s' s'') : Emptied (ks ++ ks') s s'' := by
  intro k
  obtain ⟨hcollected, hpending⟩ := h k
  obtain ⟨hcollected', hpending'⟩ := h' k
  grind

lemma emptied_nil (s : RevertedMsgs × MessagePool) : Emptied [] s s :=
  fun _ => ⟨(if_neg not_mem_nil).symm, (if_neg not_mem_nil).symm⟩

lemma rm_emptied (hs : SlotsApart s) (k : Address × UInt64) : Emptied [k] s (rm s k) := by
  intro k'
  rw [rm]
  by_cases hk : k' = k
  · rw [if_pos (mem_singleton.mpr hk), if_pos (mem_singleton.mpr hk), hk]
    split_ifs with hmem
    · obtain ⟨m, hm⟩ := Option.isSome_iff_exists.mp (AList.lookup_isSome.mpr hmem)
      exact ⟨AList.lookup_erase k s.1, hs k m hm⟩
    · refine ⟨AList.lookup_eq_none.mpr hmem, ?_⟩
      rw [slotAt_remove, update_self]
  · have hnot : k' ∉ [k] := fun h => hk (mem_singleton.mp h)
    rw [if_neg hnot, if_neg hnot]
    split_ifs with hmem
    · exact ⟨AList.lookup_erase_ne hk, rfl⟩
    · refine ⟨rfl, ?_⟩
      rw [slotAt_remove, update_of_ne hk]

lemma foldl_rm_emptied (hs : SlotsApart s) (ks : List (Address × UInt64)) :
    Emptied ks s (ks.foldl rm s) := by
  induction ks generalizing s with
  | nil => exact emptied_nil s
  | cons k ks ih =>
    have hk := rm_emptied hs k
    exact hk.append (ih (hk.apart hs))

lemma applyBlocksLoop_emptied {blks : List BlockHeader} {s : MpoolState}
    (hs : SlotsApart (rmsgs, s.pool))
    (hloads : ∀ b ∈ blks, ∃ msgs, api.messagesForBlock b = .ok msgs) :
    ∃ rmsgs' pool, applyBlocksLoop api blks rmsgs s = (.ok rmsgs', ⟨pool, s.curTs⟩) ∧
      Emptied ((blks.flatMap fun b => (api.blockMsgs b).2.map (·.message) ++
        (api.blockMsgs b).1).map Message.slot) (rmsgs, s.pool) (rmsgs', pool) := by
  induction blks generalizing rmsgs s with
  | nil => exact ⟨rmsgs, s.pool, rfl, emptied_nil _⟩
  | cons b blks ih =>
    obtain ⟨⟨bmsgs, smsgs⟩, hr⟩ := hloads b mem_cons_self
    have hremoved := foldl_rm_emptied hs ((smsgs.map (·.message) ++ bmsgs).map Message.slot)
    rw [applyBlocksLoop, hr]
    obtain ⟨rmsgs', pool, hrest, hemptied⟩ := ih
      (s := { s with pool := (((smsgs.map (·.message) ++ bmsgs).map Message.slot).foldl rm
        (rmsgs, s.pool)).2 }) (hremoved.apart hs)
      fun b' hb' => hloads b' (mem_cons_of_mem b hb')
    refine ⟨rmsgs', pool, hrest, ?_⟩
    rw [flatMap_cons, map_append, blockMsgs_eq hr]
    exact hremoved.append hemptied

lemma applyLoop_emptied {apply : List TipSet} {s : MpoolState} (hs : SlotsApart (rmsgs, s.pool))
    (hloads : ∀ ts ∈ apply, ∀ b ∈ ts.blocks, ∃ msgs, api.messagesForBlock b = .ok msgs) :
    ∃ rmsgs' s', applyLoop api apply rmsgs s = (.ok rmsgs', s') ∧
      Emptied ((api.included apply).map Message.slot) (rmsgs, s.pool) (rmsgs', s'.pool) := by
  induction apply generalizing rmsgs s with
  | nil => exact ⟨rmsgs, s, rfl, emptied_nil _⟩
  | cons ts apply ih =>
    obtain ⟨rmsgs1, pool, hblocks, hemptied⟩ := applyBlocksLoop_emptied hs (hloads ts mem_cons_self)
    rw [applyLoop, bind_of_ok hblocks, bind_of_ok (modify_apply _ _)]
    obtain ⟨rmsgs', s', hrest, hemptied'⟩ := ih (s := ⟨pool, some ts⟩) (hemptied.apart hs)
      fun ts' hts' => hloads ts' (mem_cons_of_mem ts hts')
    refine ⟨rmsgs', s', hrest, ?_⟩
    rw [Provider.included, flatMap_cons, map_append]
    exact hemptied.append hemptied'

end Applied

section Readded

variable {mpe : MpoolEnv} {mp : MessagePool}

lemma foldl_readd_slotAt {msgs : List SignedMessage}
    (hstorable : ∀ m ∈ msgs, Storable mpe m) (hfree : ∀ m ∈ msgs, mp.slotAt m.message.slot = none)
    (hnodup : (msgs.map (·.message.slot)).Nodup) :
    (∀ m ∈ msgs, (msgs.foldl (readd mpe) mp).slotAt m.message.slot = some m) ∧
      ∀ k ∉ msgs.map (·.message.slot), (msgs.foldl (readd mpe) mp).slotAt k = mp.slotAt k := by
  induction msgs generalizing mp with
  | nil => exact ⟨forall_mem_nil _, fun _ _ => rfl⟩
  | cons m msgs ih =>
    have hslot := slotAt_addLocked (hstorable m mem_cons_self) (hfree m mem_cons_self)
    obtain ⟨hnot, hnodup⟩ := nodup_cons.mp hnodup
    have hne {m' : SignedMessage} (hm' : m' ∈ msgs) : m'.message.slot ≠ m.message.slot :=
      fun h => hnot (mem_map.mpr ⟨m', hm', h⟩)
    have hfree' (m' : SignedMessage) (hm' : m' ∈ msgs) :
        (readd mpe mp m).slotAt m'.message.slot = none := by
      rw [readd, hslot, update_of_ne (hne hm')]
      exact hfree m' (mem_cons_of_mem m hm')
    obtain ⟨hadded, hkept⟩ := ih (fun m' hm' => hstorable m' (mem_cons_of_mem m hm')) hfree' hnodup
    refine ⟨fun m' hm' => ?_, fun k hk => ?_⟩
    · rcases mem_cons.mp hm' with rfl | hm'
      · refine (hkept _ hnot).trans ?_
        rw [readd, hslot, update_self]
      · exact hadded m' hm'
    · rw [map_cons, mem_cons, not_or] at hk
      refine (hkept k hk.2).trans ?_
      rw [readd, hslot, update_of_ne hk.1]

lemma foldl_readd_collected {rmsgs : RevertedMsgs} {msgs : List SignedMessage}
    (hfiled : ∀ k m, rmsgs.lookup k = some m → m.message.slot = k)
    (hstorable : ∀ k m, rmsgs.lookup k = some m → Storable mpe m)
    (hapart : SlotsApart (rmsgs, mp)) (horder : msgs.Perm (rmsgs.entries.map (·.2)))
    (k : Address × UInt64) :
    (msgs.foldl (readd mpe) mp).slotAt k = (rmsgs.lookup k).or (mp.slotAt k) := by
  have hmem {m : SignedMessage} : m ∈ msgs ↔ ∃ k, rmsgs.lookup k = some m := by
    rw [horder.mem_iff, mem_map]
    constructor
    · rintro ⟨⟨k, m⟩, hentry, rfl⟩
      exact ⟨k, AList.mem_lookup_iff.mpr hentry⟩
    · rintro ⟨k, hk⟩
      exact ⟨⟨k, m⟩, AList.mem_lookup_iff.mp hk, rfl⟩
  have hlookup {m : SignedMessage} (hm : m ∈ msgs) : rmsgs.lookup m.message.slot = some m := by
    grind
  have hkeys : (rmsgs.entries.map (·.2)).map (·.message.slot) = rmsgs.keys := by
    rw [map_map]
    refine map_congr_left fun e he => ?_
    exact hfiled e.1 e.2 (AList.mem_lookup_iff.mpr he)
  have hnodup : (msgs.map (·.message.slot)).Nodup :=
    (horder.map _).nodup_iff.mpr (hkeys.symm ▸ rmsgs.keys_nodup)
  obtain ⟨hadded, hkept⟩ := foldl_readd_slotAt
    (fun m hm => hstorable _ m (hlookup hm)) (fun m hm => hapart _ m (hlookup hm)) hnodup
  rcases hk : rmsgs.lookup k with - | m
  · grind
  · grind

end Readded

section HeadChange

variable {mpe : MpoolEnv} {api : Provider} {s : MpoolState} {revert apply : List TipSet}
  {order : List SignedMessage → List SignedMessage}

variable (mpe api) in
def collected (mp : MessagePool) (revert : List TipSet) : RevertedMsgs :=
  (recoverable mpe api mp revert).foldl addReverted ∅

variable (mpe api) in
lemma collected_collects (mp : MessagePool) (revert : List TipSet) :
    Collects (collected mpe api mp revert) (recoverable mpe api mp revert) :=
  collects_empty.foldl _

lemma headChange_slotAt (hloads : api.Loads revert apply)
    (hstorable : ∀ m ∈ recoverable mpe api s.pool revert, Storable mpe m)
    (hfree : ∀ m ∈ recoverable mpe api s.pool revert, s.pool.slotAt m.message.slot = none)
    (horder : ∀ msgs, (order msgs).Perm msgs) :
    (headChange mpe api order revert apply s).1 = .ok () ∧
    ∀ k, (headChange mpe api order revert apply s).2.pool.slotAt k =
      if k ∈ (api.included apply).map Message.slot then none
      else ((collected mpe api s.pool revert).lookup k).or (s.pool.slotAt k) := by
  have hcollects := collected_collects mpe api s.pool revert
  have hapart : SlotsApart (collected mpe api s.pool revert, s.pool) := by
    intro k m hk
    obtain ⟨hm, rfl⟩ := hcollects.mem k m hk
    exact hfree m hm
  obtain ⟨curTs, hrevert⟩ : ∃ curTs, revertLoop mpe api revert ∅ s =
      (.ok (collected mpe api s.pool revert), ⟨s.pool, curTs⟩) :=
    revertLoop_eq hloads.parents hloads.reverted
  obtain ⟨rmsgs, s', happly, hemptied⟩ :=
    applyLoop_emptied (s := ⟨s.pool, curTs⟩) hapart hloads.applied
  have hleft (k : Address × UInt64) (m : SignedMessage) (hk : rmsgs.lookup k = some m) :
      (collected mpe api s.pool revert).lookup k = some m := by
    rw [(hemptied k).1] at hk
    split_ifs at hk
    exact hk
  rw [headChange, bind_of_ok hrevert, bind_of_ok happly]
  refine ⟨rfl, fun k => ?_⟩
  refine (foldl_readd_collected (fun k m hk => (hcollects.mem k m (hleft k m hk)).2)
    (fun k m hk => hstorable m (hcollects.mem k m (hleft k m hk)).1) (hemptied.apart hapart)
    (horder _) k).trans ?_
  obtain ⟨hcollected, hpending⟩ := hemptied k
  rw [hcollected, hpending]
  split_ifs
  · rfl
  · rfl

/-! ### Accounts -/

variable {ι : Type} (account : Address → ι)

def Covers (msgs : List Message) (k : Address × UInt64) : Prop :=
  ∃ m ∈ msgs, account m.fromAddr = account k.1 ∧ m.nonce = k.2

instance [DecidableEq ι] (msgs : List Message) (k : Address × UInt64) :
    Decidable (Covers account msgs k) :=
  inferInstanceAs (Decidable (∃ m ∈ msgs, _))

def pendingPairs (mp : MessagePool) : Set (ι × UInt64) :=
  {p | ∃ k m, mp.slotAt k = some m ∧ p = (account k.1, k.2)}

/-- The pool `mp'` is what a reorg should make of `mp`. -/
structure Reorged (reverted : List SignedMessage) (applied : List Message)
    (mp mp' : MessagePool) : Prop where
  not_applied : ∀ k m, mp'.slotAt k = some m → ¬ Covers account applied k
  readded : ∀ r ∈ reverted, ¬ Covers account applied r.message.slot →
    ∃ r' ∈ reverted, account r'.message.fromAddr = account r.message.fromAddr ∧
      r'.message.nonce = r.message.nonce ∧ mp'.slotAt r'.message.slot = some r'
  kept : ∀ k m, mp.slotAt k = some m → ¬ Covers account applied k → mp'.slotAt k = some m

def FormsAgree (reverted : List SignedMessage) (applied : List Message) (mp : MessagePool) : Prop :=
  ∀ k, (∃ m, mp.slotAt k = some m) ∨ (∃ r ∈ reverted, r.message.slot = k) →
    Covers account applied k → k ∈ applied.map Message.slot

variable {account}

lemma covers_of_mem {msgs : List Message} {k : Address × UInt64}
    (h : k ∈ msgs.map Message.slot) : Covers account msgs k := by
  obtain ⟨m, hm, rfl⟩ := mem_map.mp h
  exact ⟨m, hm, rfl, rfl⟩

lemma mem_included_of_mem_recoverable {mp : MessagePool} {m : SignedMessage}
    (h : m ∈ recoverable mpe api mp revert) : m.message ∈ api.included revert := by
  obtain ⟨ts, hts, h⟩ := mem_flatMap.mp h
  obtain ⟨b, hb, h⟩ := mem_flatMap.mp h
  refine mem_flatMap.mpr ⟨ts, hts, mem_flatMap.mpr ⟨b, hb, ?_⟩⟩
  rcases mem_append.mp h with hsigned | hrecovered
  · exact mem_append_left _ (mem_map_of_mem hsigned)
  · obtain ⟨msg, hmsg, hrecover⟩ := mem_filterMap.mp hrecovered
    obtain ⟨sig, -, rfl⟩ := Option.map_eq_some_iff.mp hrecover
    exact mem_append_right _ hmsg

variable (account) in
/-- After a head change, no pending message has the account and the nonce of an applied one, the
reverted messages are pending again and the others still are, exactly if the applied blocks use the
addresses that are used in the pool and in the reverted blocks. -/
theorem headChange_reorged_iff (hloads : api.Loads revert apply)
    (hvalid : ∀ m ∈ api.included revert, ∃ minGas, m.validForBlockInclusion minGas = .ok ())
    (hput : ∀ cm, mpe.putMessage cm = .ok ())
    (hchain : ∀ k m, s.pool.slotAt k = some m → ¬ Covers account (api.included revert) k)
    (horder : ∀ msgs, (order msgs).Perm msgs) :
    ((headChange mpe api order revert apply s).1 = .ok () ∧
      Reorged account (recoverable mpe api s.pool revert) (api.included apply) s.pool
        (headChange mpe api order revert apply s).2.pool ∧
      ∀ order' : List SignedMessage → List SignedMessage, (∀ msgs, (order' msgs).Perm msgs) →
        pendingPairs account (headChange mpe api order' revert apply s).2.pool =
          pendingPairs account (headChange mpe api order revert apply s).2.pool) ↔
    FormsAgree account (recoverable mpe api s.pool revert) (api.included apply) s.pool := by
  have hstorable (m : SignedMessage) (hm : m ∈ recoverable mpe api s.pool revert) :
      Storable mpe m := by
    obtain ⟨minGas, hvalid⟩ := hvalid _ (mem_included_of_mem_recoverable hm)
    obtain ⟨-, -, -, hgas, -⟩ := Message.validForBlockInclusion_ok hvalid
    exact ⟨hgas, hput _, hput _⟩
  have hfree (m : SignedMessage) (hm : m ∈ recoverable mpe api s.pool revert) :
      s.pool.slotAt m.message.slot = none := by
    rw [Option.eq_none_iff_forall_ne_some]
    intro p hp
    exact hchain _ p hp ⟨m.message, mem_included_of_mem_recoverable hm, rfl, rfl⟩
  have hcollects := collected_collects mpe api s.pool revert
  obtain ⟨hok, hslots⟩ := headChange_slotAt hloads hstorable hfree horder
  constructor
  · rintro ⟨-, hreorged, -⟩ k hk hcovers
    by_contra hnot
    have hslot := hslots k
    rw [if_neg hnot] at hslot
    -- the slot is not emptied, so what was there or what was reverted is pending
    rcases hk with ⟨m, hm⟩ | ⟨r, hr, rfl⟩
    · rw [hm] at hslot
      rcases hcollected : (collected mpe api s.pool revert).lookup k with - | r <;>
        grind [hreorged.not_applied]
    · obtain ⟨r', hr'⟩ := hcollects.exists_lookup r hr
      rw [hr'] at hslot
      exact hreorged.not_applied _ r' hslot hcovers
  · intro hforms
    refine ⟨hok, ⟨fun k m hk hcovers => ?_, fun r hr hnot => ?_, fun k m hk hnot => ?_⟩,
      fun order' horder' => ?_⟩
    · rw [hslots] at hk
      split_ifs at hk with happlied
      refine happlied (hforms k ?_ hcovers)
      rcases Option.or_eq_some_iff.mp hk with hcollected | ⟨-, hpending⟩
      · obtain ⟨hr, hslot⟩ := hcollects.mem k m hcollected
        exact .inr ⟨m, hr, hslot⟩
      · exact .inl ⟨m, hpending⟩
    · obtain ⟨r', hr'⟩ := hcollects.exists_lookup r hr
      obtain ⟨hmem, hslot⟩ := hcollects.mem _ r' hr'
      refine ⟨r', hmem, congrArg account (congrArg Prod.fst hslot), congrArg Prod.snd hslot, ?_⟩
      rw [hslots, hslot, if_neg fun h => hnot (covers_of_mem h), hr', Option.some_or]
    · have hnone : (collected mpe api s.pool revert).lookup k = none := by
        rw [Option.eq_none_iff_forall_ne_some]
        intro r hr
        obtain ⟨hmem, rfl⟩ := hcollects.mem k r hr
        exact absurd (hk.symm.trans (hfree r hmem)) (Option.some_ne_none m)
      rw [hslots, if_neg fun h => hnot (covers_of_mem h), hnone, Option.none_or, hk]
    · obtain ⟨-, hslots'⟩ := headChange_slotAt hloads hstorable hfree horder'
      grind [pendingPairs]

end HeadChange

/-! ### Address forms -/

def sampleAccount (a : Address) : Address := if a = .bls [1] then .id 100 else a

def samplePooled (source : Address) (nonce : UInt64) : SignedMessage :=
  ⟨{ sampleTransfer source (.id 101) 1 with nonce }, ⟨.secp256k1, []⟩⟩

def samplePooledBlock (miner source : Address) (nonce : UInt64) : FullBlock :=
  ⟨sampleHeader miner [], [], [samplePooled source nonce], by
    rw [length_nil, length_singleton]
    decide⟩

def samplePool (msgs : List SignedMessage) : MpoolState :=
  ⟨msgs.foldl (readd sampleMpoolEnv) sampleEmptyPool, none⟩

def sampleProvider (old new : FullBlock) : Provider :=
  mpoolProvider (sampleSyncer [old, new]) (.single old.header)

def sampleSwitch (pending : List SignedMessage) (old new : FullBlock) :
    Except NodeErr Unit × MpoolState :=
  headChange sampleMpoolEnv (sampleProvider old new) id [.single old.header] [.single new.header]
    (samplePool pending)

lemma samplePool_slot {msgs : List SignedMessage}
    (hstorable : ∀ m ∈ msgs, Storable sampleMpoolEnv m)
    (hnodup : (msgs.map (·.message.slot)).Nodup) {k : Address × UInt64} {m : SignedMessage}
    (h : (samplePool msgs).pool.slotAt k = some m) : k ∈ msgs.map (·.message.slot) := by
  by_contra hnot
  have hempty (k : Address × UInt64) : sampleEmptyPool.slotAt k = none := by
    rw [MessagePool.slotAt, sampleEmptyPool, Finmap.lookup_empty, Option.bind_none]
  obtain ⟨-, hkept⟩ := foldl_readd_slotAt hstorable (fun m _ => hempty m.message.slot) hnodup
  exact absurd (h.symm.trans ((hkept k hnot).trans (hempty k))) (Option.some_ne_none m)

def samplePending : List SignedMessage := [samplePooled (.bls [1]) 0, samplePooled (.bls [1]) 1]

def sampleOldBlock : FullBlock := samplePooledBlock (.id 1001) (.id 102) 7

def sampleNewBlock : FullBlock := samplePooledBlock (.id 1000) (.bls [1]) 0

theorem sampleSwitch_reorged :
    (sampleSwitch samplePending sampleOldBlock sampleNewBlock).1 = .ok () ∧
    Reorged sampleAccount [samplePooled (.id 102) 7] [(samplePooled (.bls [1]) 0).message]
      (samplePool samplePending).pool
      (sampleSwitch samplePending sampleOldBlock sampleNewBlock).2.pool := by
  have hreverted : (sampleProvider sampleOldBlock sampleNewBlock).included
      [.single sampleOldBlock.header] = [(samplePooled (.id 102) 7).message] := by
    decide +kernel
  have happlied : (sampleProvider sampleOldBlock sampleNewBlock).included
      [.single sampleNewBlock.header] = [(samplePooled (.bls [1]) 0).message] := by
    decide +kernel
  have hrecoverable : recoverable sampleMpoolEnv (sampleProvider sampleOldBlock sampleNewBlock)
      (samplePool samplePending).pool [.single sampleOldBlock.header] =
        [samplePooled (.id 102) 7] := by
    decide +kernel
  have hslot {k : Address × UInt64} {m : SignedMessage}
      (h : (samplePool samplePending).pool.slotAt k = some m) : k.1 = .bls [1] := by
    have hmem : k ∈ [(Address.bls [1], (0 : UInt64)), (.bls [1], 1)] := by
      refine samplePool_slot (fun m hm => ?_) (by decide) h
      simp only [samplePending, mem_cons, not_mem_nil, or_false] at hm
      rcases hm with rfl | rfl <;> exact ⟨by decide, rfl, rfl⟩
    simp only [mem_cons, not_mem_nil, or_false] at hmem
    rcases hmem with rfl | rfl <;> rfl
  have hloads : (sampleProvider sampleOldBlock sampleNewBlock).Loads
      [.single sampleOldBlock.header] [.single sampleNewBlock.header] := by
    refine ⟨fun ts hts => ⟨.single sampleGenesis, ?_⟩,
      fun ts hts b hb => ⟨([], [samplePooled (.id 102) 7]), ?_⟩,
      fun ts hts b hb => ⟨([], [samplePooled (.bls [1]) 0]), ?_⟩⟩ <;>
      rw [mem_singleton.mp hts] at *
    · decide +kernel
    · rw [mem_singleton.mp hb]
      decide +kernel
    · rw [mem_singleton.mp hb]
      decide +kernel
  have hput : ∀ cm, sampleMpoolEnv.putMessage cm = .ok () := fun _ => rfl
  have hreorged := headChange_reorged_iff (s := samplePool samplePending) sampleAccount hloads
    (fun m hm => ?_) hput (fun k m hk hcovers => ?_) (fun msgs => .refl (id msgs))
  · rw [happlied, hrecoverable] at hreorged
    have hforms : FormsAgree sampleAccount [samplePooled (.id 102) 7]
        [(samplePooled (.bls [1]) 0).message] (samplePool samplePending).pool := by
      rintro k hk ⟨m, hm, haccount, hnonce⟩
      rw [mem_singleton.mp hm] at haccount hnonce
      rcases hk with ⟨m', hm'⟩ | ⟨r, hr, rfl⟩
      · exact mem_singleton.mpr (Prod.ext (hslot hm') hnonce.symm)
      · rw [mem_singleton.mp hr] at haccount
        exact absurd haccount (by decide)
    obtain ⟨hok, hpool, -⟩ := hreorged.mpr hforms
    exact ⟨hok, hpool⟩
  · rw [hreverted] at hm
    rw [mem_singleton.mp hm]
    exact ⟨0, by decide⟩
  · rw [hreverted] at hcovers
    obtain ⟨m', hm', haccount, -⟩ := hcovers
    rw [mem_singleton.mp hm', hslot hk] at haccount
    exact absurd haccount (by decide)

theorem sampleSwitch_stays :
    ((sampleSwitch [samplePooled (.bls [1]) 0] (samplePooledBlock (.id 1001) (.id 102) 7)
          (samplePooledBlock (.id 1000) (.id 100) 0)).2.pool.slotAt (.bls [1], 0) =
        some (samplePooled (.bls [1]) 0) ∧
      Covers sampleAccount [(samplePooled (.id 100) 0).message] (.bls [1], 0)) ∧
    ((sampleSwitch [] (samplePooledBlock (.id 1001) (.id 100) 0)
          (samplePooledBlock (.id 1000) (.bls [1]) 0)).2.pool.slotAt (.id 100, 0) =
        some (samplePooled (.id 100) 0) ∧
      Covers sampleAccount [(samplePooled (.bls [1]) 0).message] (.id 100, 0)) := by
  refine ⟨⟨?_, ?_⟩, ?_, ?_⟩ <;> decide +kernel

end Lotus
