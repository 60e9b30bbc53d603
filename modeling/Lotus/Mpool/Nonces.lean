import Lotus.Mpool.HeadChange

/-!
# The nonces that the message pool gives out

`Add`, `Push`, `PushWithNonce` and `GetNonce` of `chain/messagepool/messagepool.go`, with the
pruning of `chain/messagepool/pruning.go`, over any sequence of calls.
-/

namespace Lotus

open List Function Act

/-! ## The model -/

structure Publisher where
  serialize : SignedMessage → Except NodeErr Bytes
  putLocal : SignedMessage → Bytes → Except NodeErr Unit
  publish : Bytes → Except NodeErr Unit

/-- What a call to the pool finds around it. -/
structure MpoolNode where
  mpe : MpoolEnv
  api : Provider
  pub : Publisher

namespace Mpool

section Model

/-- The loop of `getStateNonce`. -/
def countNonces (addr : Address) : UInt64 → List ChainMsg → Except NodeErr UInt64
  | baseNonce, [] => .ok baseNonce
  | baseNonce, m :: msgs =>
    if m.vmMessage.fromAddr = addr then
      if m.vmMessage.nonce ≠ baseNonce then
        .error (.new "tipset %s has bad nonce ordering (%d != %d)")
      else countNonces addr (baseNonce + 1) msgs
    else countNonces addr baseNonce msgs

def getStateNonce (api : Provider) (addr : Address) (curTs : Option TipSet) :
    Except NodeErr UInt64 := do
  let act ← api.stateGetActor addr curTs
  match curTs with
  | none => pure act.nonce
  | some ts => do
    let msgs ← (api.messagesForTipset ts).mapError (.wrap "failed to check messages for tipset")
    countNonces addr act.nonce msgs

def getStateBalance (api : Provider) (addr : Address) (ts : Option TipSet) : Except NodeErr ℤ := do
  let act ← api.stateGetActor addr ts
  pure act.balance

def getNonceLocked (api : Provider) (addr : Address) (s : MpoolState) : Except NodeErr UInt64 := do
  let stateNonce ← getStateNonce api addr s.curTs
  match s.pool.pending.lookup addr with
  | some mset => if stateNonce > mset.nextNonce then pure stateNonce else pure mset.nextNonce
  | none => pure stateNonce

def getNonce (api : Provider) (addr : Address) (s : MpoolState) : Except NodeErr UInt64 :=
  getNonceLocked api addr s

variable (node : MpoolNode)

def onPool {α : Type} (x : Act MessagePool NodeErr α) : Act MpoolState NodeErr α :=
  x.zoom (·.pool) fun s pool => { s with pool }

def verifyMsgBeforePush (m : SignedMessage) (epoch : Int64) : Except NodeErr Unit :=
  let minGas := (pricelistByEpoch epoch).onChainMessage (m.toChainMsg node.mpe.codec).chainLength
  (m.message.validForBlockInclusion minGas.total).mapError fun err =>
    .wrap "message will not be included in a block" (.new err)

def addTs (m : SignedMessage) (curTs : Option TipSet) : Act MpoolState NodeErr Unit := do
  let snonce ← ofExcept ((getStateNonce node.api m.message.fromAddr curTs).mapError fun _ =>
    .wrap "failed to look up actor state nonce: %s"
      (.new "broadcasting message despite validation fail"))
  if snonce > m.message.nonce then
    fail (.wrap "minimum expected nonce is %d" (.new "message nonce too low"))
  else
    let balance ← ofExcept
      ((getStateBalance node.api m.message.fromAddr curTs).mapError fun _ =>
        .wrap "failed to check sender balance: %s"
          (.new "broadcasting message despite validation fail"))
    if m.message.gasPrice = none then fail (.new "panic")
    else if balance < m.message.requiredFunds then
      fail (.wrap "not enough funds (required: %s, balance: %s)"
        (.new "not enough funds to execute transaction"))
    else onPool (addLocked node.mpe m)

def add (m : SignedMessage) : Act MpoolState NodeErr Unit := do
  if node.mpe.codec.signedLength m > 32 * 1024 then
    fail (.wrap "mpool message too large (%dB)" (.new "message too big"))
  else if m.message.toAddr = .undef then fail (.new "message had invalid to address")
  else
    match m.message.value with
    | none => fail (.new "panic")
    | some value =>
      if ¬ value < totalFilecoinInt then
        fail (.new "cannot send more filecoin than will ever exist")
      else
        onPool (verifyMsgSig node.mpe m)
        let s ← get
        addTs node m s.curTs

def push (m : SignedMessage) : Act MpoolState NodeErr Unit := do
  let s ← get
  match s.curTs with
  | none => fail (.new "panic")
  | some ts =>
    ofExcept (verifyMsgBeforePush node m ts.height)
    let msgb ← ofExcept (node.pub.serialize m)
    add node m
    ofExcept ((node.pub.putLocal m msgb).mapError (.wrap "persisting local message"))
    ofExcept (node.pub.publish msgb)

/-- The key address of the sender that `PushWithNonce` is called with. -/
def senderKey (api : Provider) (addr : Address) (s : MpoolState) : Except NodeErr Address :=
  if addr.protocol = .id then
    (api.stateAccountKey addr s.curTs).mapError (.wrap "resolving sender key")
  else .ok addr

/-- `PushWithNonce`. It only logs that the message is not persisted. -/
def pushWithNonce (addr : Address) (cb : Address → UInt64 → Except NodeErr SignedMessage) :
    Act MpoolState NodeErr SignedMessage := do
  let s ← get
  let fromKey ← ofExcept (senderKey node.api addr s)
  let nonce ← ofExcept
    ((getNonceLocked node.api fromKey s).mapError (.wrap "get nonce locked failed"))
  let msg ← ofExcept (cb fromKey nonce)
  match s.curTs with
  | none => fail (.new "panic")
  | some ts =>
    ofExcept (verifyMsgBeforePush node msg ts.height)
    let msgb ← ofExcept (node.pub.serialize msg)
    (onPool (addLocked node.mpe msg)).mapError (.wrap "add locked failed")
    ofExcept (node.pub.publish msgb)
    pure msg

/-- The end of `pruneMessages`: the pending messages, in some order, that were not selected are
removed. Which ones are selected is left open. -/
def pruneMessages (msgs : List SignedMessage) (good : Cid → Bool) (mp : MessagePool) :
    MessagePool :=
  (msgs.filter fun m => !good (m.cid node.mpe.codec)).foldl
    (fun mp m => remove m.message.slot mp) mp

def pruneExcessMessages (msgs : List SignedMessage) (good : Cid → Bool) (mp : MessagePool) :
    MessagePool :=
  if mp.currentSize < node.mpe.maxTxPoolSizeHi then mp else pruneMessages node msgs good mp

end Model

end Mpool

/-! ## Message sets -/

def NotLast (nonce : UInt64) : Prop := nonce.toNat + 1 < 2 ^ 64
deriving Decidable

def MsgSet.Below (mset : MsgSet) : Prop :=
  ∀ nonce m, mset.msgs.lookup nonce = some m → nonce < mset.nextNonce

section Sets

variable {mpe : MpoolEnv} {m : SignedMessage} {mset : MsgSet} {nonce : UInt64}

lemma NotLast.lt_succ (h : NotLast nonce) : nonce < nonce + 1 := by
  have h : nonce.toNat + 1 < 2 ^ 64 := h
  rw [UInt64.lt_iff_toNat_lt, UInt64.toNat_add, UInt64.toNat_one, Nat.mod_eq_of_lt h]
  exact Nat.lt_succ_self _

lemma notLast_of_lt {next : UInt64} (h : nonce < next) : NotLast nonce := by
  have hlt : nonce.toNat < next.toNat := UInt64.lt_iff_toNat_lt.mp h
  have hnext : next.toNat < 2 ^ 64 := next.toNat_lt
  unfold NotLast
  omega

/-- The next nonce that `msgSet.add` leaves. -/
def MsgSet.raised (mset : MsgSet) (nonce : UInt64) : UInt64 :=
  if mset.msgs = ∅ ∨ nonce ≥ mset.nextNonce then nonce + 1 else mset.nextNonce

variable (mpe) in
/-- What `msgSet.add` does: the next nonce is raised even where the message is refused. -/
lemma MsgSet.add_snd (mset : MsgSet) (m : SignedMessage) :
    (MsgSet.add mpe m mset).2 = ⟨mset.msgs, mset.raised m.message.nonce⟩ ∨
      (MsgSet.add mpe m mset).2 =
        ⟨mset.msgs.insert m.message.nonce m, mset.raised m.message.nonce⟩ := by
  have hrun : MsgSet.add mpe m mset = _ := bind_of_ok (modify_apply _ mset)
  have hraised : (if mset.msgs = ∅ ∨ m.message.nonce ≥ mset.nextNonce then
      { mset with nextNonce := m.message.nonce + 1 } else mset) =
        ⟨mset.msgs, mset.raised m.message.nonce⟩ := by
    unfold MsgSet.raised
    split_ifs <;> rfl
  rw [hrun, hraised, bind_of_ok (get_apply _)]
  rcases hlookup : mset.msgs.lookup m.message.nonce with - | exms
  · exact .inr rfl
  · simp only
    rcases checkReplace mpe exms m with err | _
    · exact .inl rfl
    · exact .inr rfl

lemma MsgSet.Below.lt_raised (h : mset.Below) (hlast : NotLast nonce) {nonce' : UInt64}
    {m' : SignedMessage} (hlookup : mset.msgs.lookup nonce' = some m') :
    nonce' < mset.raised nonce := by
  unfold MsgSet.raised
  split_ifs with hraise
  · rcases hraise with hempty | hle
    · grind [Finmap.lookup_empty]
    · exact UInt64.lt_trans (UInt64.lt_of_lt_of_le (h nonce' m' hlookup) hle) hlast.lt_succ
  · exact h nonce' m' hlookup

lemma NotLast.lt_raised (hlast : NotLast nonce) : nonce < mset.raised nonce := by
  grind [MsgSet.raised, hlast.lt_succ]

lemma MsgSet.Below.add (h : mset.Below) (hlast : NotLast m.message.nonce) :
    (MsgSet.add mpe m mset).2.Below := by
  rcases MsgSet.add_snd mpe mset m with hadd | hadd <;> rw [hadd]
  · exact fun nonce' m' hlookup => h.lt_raised hlast hlookup
  · intro nonce' m' hlookup
    by_cases hsame : nonce' = m.message.nonce
    · rw [hsame]
      exact hlast.lt_raised
    · exact h.lt_raised hlast ((Finmap.lookup_insert_of_ne _ hsame).symm.trans hlookup)

lemma MsgSet.Below.without (h : mset.Below) (hlast : NotLast nonce) {mset' : MsgSet}
    (hwithout : mset.without nonce = some mset') :
    mset'.msgs = mset.msgs.erase nonce ∧ mset'.Below := by
  unfold MsgSet.without at hwithout
  simp only at hwithout
  split_ifs at hwithout
  rw [← Option.some.inj hwithout]
  refine ⟨rfl, fun nonce' m' hlookup => ?_⟩
  set largest := max ((mset.msgs.erase nonce).keys.sup UInt64.toNat) nonce.toNat with hlargest
  have hkeys : (mset.msgs.erase nonce).keys.sup UInt64.toNat < 2 ^ 64 - 1 := by
    refine (Finset.sup_lt_iff (by decide)).mpr fun n hn => ?_
    rw [Finmap.mem_keys, Finmap.mem_erase] at hn
    obtain ⟨m, hm⟩ := Option.isSome_iff_exists.mp (Finmap.lookup_isSome.mpr hn.2)
    have hn' : n.toNat + 1 < 2 ^ 64 := notLast_of_lt (h n m hm)
    omega
  have hnonce : nonce.toNat + 1 < 2 ^ 64 := hlast
  have hbound : largest + 1 < 2 ^ 64 := by omega
  have hle : nonce'.toNat ≤ largest := by
    refine le_trans ?_ (le_max_left _ _)
    refine Finset.le_sup (f := UInt64.toNat) (Finmap.mem_keys.mpr ?_)
    exact Finmap.lookup_isSome.mp (Option.isSome_iff_exists.mpr ⟨m', hlookup⟩)
  rw [UInt64.lt_iff_toNat_lt, UInt64.toNat_add, UInt64.toNat_one, UInt64.toNat_ofNat',
    Nat.mod_eq_of_lt (by omega : largest < 2 ^ 64), Nat.mod_eq_of_lt hbound]
  omega

end Sets

/-! ## The pool -/

lemma slotAt_addLocked_cases {mpe : MpoolEnv} {m : SignedMessage} (h : Storable mpe m)
    (mp : MessagePool) :
    (addLocked mpe m mp).2.slotAt = mp.slotAt ∨
      (addLocked mpe m mp).2.slotAt = update mp.slotAt m.message.slot (some m) := by
  have hpending := addLocked_pending h mp
  rcases MsgSet.add_snd mpe (mp.msgSet m.message.fromAddr) m with hadd | hadd
  · left
    rw [hadd] at hpending
    rw [← update_eq_self m.message.slot mp.slotAt]
    exact slotAt_insert (k := m.message.slot) hpending (lookup_msgSet _ _)
      fun nonce _ => lookup_msgSet _ nonce
  · right
    rw [hadd] at hpending
    refine slotAt_insert (k := m.message.slot) hpending (Finmap.lookup_insert _) ?_
    exact fun nonce hne => (Finmap.lookup_insert_of_ne _ hne).trans (lookup_msgSet _ nonce)

/-- What holds of the pool as long as no nonce was the last one: the next nonces are above the
pending ones, and every message is in its slot. The senders are named by addresses in `forms`. -/
structure PoolInv (forms : Set Address) (mp : MessagePool) : Prop where
  below : ∀ a mset, mp.pending.lookup a = some mset → mset.Below
  slot : ∀ k m, mp.slotAt k = some m → m.message.slot = k ∧ k.1 ∈ forms

namespace PoolInv

variable {forms : Set Address} {mpe : MpoolEnv} {mp : MessagePool} {m : SignedMessage}
  {k : Address × UInt64}

lemma of_pending {mp' : MessagePool} (h : PoolInv forms mp)
    (hpending : mp'.pending = mp.pending) : PoolInv forms mp' := by
  refine ⟨fun a mset hmset => h.below a mset (hpending ▸ hmset), fun k m hk => h.slot k m ?_⟩
  rwa [MessagePool.slotAt, hpending] at hk

lemma notLast (h : PoolInv forms mp) (hk : mp.slotAt k = some m) : NotLast k.2 := by
  obtain ⟨mset, hmset, hlookup⟩ := Option.bind_eq_some_iff.mp hk
  exact notLast_of_lt (h.below k.1 mset hmset k.2 m hlookup)

lemma below_msgSet (h : PoolInv forms mp) (a : Address) : (mp.msgSet a).Below := by
  rcases hmset : mp.pending.lookup a with - | mset
  · intro nonce m hlookup
    grind [MessagePool.msgSet, newMsgSet, Finmap.lookup_empty]
  · grind [MessagePool.msgSet, h.below]

lemma remove (h : PoolInv forms mp) (hlast : NotLast k.2) : PoolInv forms (remove k mp) := by
  refine ⟨fun a mset hlookup => ?_, fun k' m hk' => ?_⟩
  · rcases hmset : mp.pending.lookup k.1 with - | mset0
    · grind [Lotus.remove, h.below]
    rw [remove_pending hmset] at hlookup
    rcases hwithout : mset0.without k.2 with - | mset'
    · rw [hwithout] at hlookup
      have hlookup : (mp.pending.erase k.1).lookup a = some mset := hlookup
      grind [Finmap.lookup_erase, Finmap.lookup_erase_ne, h.below]
    · rw [hwithout] at hlookup
      have hlookup : (mp.pending.insert k.1 mset').lookup a = some mset := hlookup
      by_cases ha : a = k.1
      · rw [ha, Finmap.lookup_insert] at hlookup
        rw [← Option.some.inj hlookup]
        exact ((h.below k.1 mset0 hmset).without hlast hwithout).2
      · rw [Finmap.lookup_insert_of_ne _ ha] at hlookup
        exact h.below a mset hlookup
  · rw [slotAt_remove] at hk'
    by_cases hsame : k' = k
    · grind
    · grind [update_of_ne, h.slot]

lemma addLocked (h : PoolInv forms mp) (hlast : NotLast m.message.nonce)
    (hform : m.message.fromAddr ∈ forms) : PoolInv forms (addLocked mpe m mp).2 := by
  by_cases hstorable : Storable mpe m
  swap
  · exact h.of_pending (addLocked_pending_of_not hstorable mp)
  refine ⟨fun a mset hlookup => ?_, fun k hk => ?_⟩
  · rw [addLocked_pending hstorable] at hlookup
    by_cases ha : a = m.message.fromAddr
    · rw [ha, Finmap.lookup_insert] at hlookup
      rw [← Option.some.inj hlookup]
      exact (h.below_msgSet _).add hlast
    · rw [Finmap.lookup_insert_of_ne _ ha] at hlookup
      exact h.below a mset hlookup
  · rcases slotAt_addLocked_cases hstorable mp with hsame | hfiled
    · rw [hsame]
      exact h.slot k hk
    · rw [hfiled]
      by_cases hslot : k = m.message.slot
      · rw [hslot, update_self]
        intro heq
        rw [← Option.some.inj heq]
        exact ⟨rfl, hform⟩
      · rw [update_of_ne hslot]
        exact h.slot k hk

end PoolInv

/-! ## Calls -/

/-- The invariant is kept. -/
def KeepsNonces (forms : Set Address) (s s' : MpoolState) : Prop :=
  PoolInv forms s.pool → PoolInv forms s'.pool

instance (forms : Set Address) : Std.Refl (KeepsNonces forms) := ⟨fun _ h => h⟩

instance (forms : Set Address) : IsTrans MpoolState (KeepsNonces forms) :=
  ⟨fun _ _ _ h h' hinv => h' (h hinv)⟩

def Ordinary (forms : Set Address) (m : Message) : Prop := NotLast m.nonce ∧ m.fromAddr ∈ forms

section Calls

variable {forms : Set Address} {node : MpoolNode} {m : SignedMessage} {s : MpoolState}

lemma onPool_keeps {α : Type} {x : Act MessagePool NodeErr α}
    (h : ∀ mp, PoolInv forms mp → PoolInv forms (x mp).2) :
    (Mpool.onPool x).Keeps (KeepsNonces forms) :=
  fun s => h s.pool

lemma addLocked_keeps (hm : Ordinary forms m.message) :
    (Mpool.onPool (addLocked node.mpe m)).Keeps (KeepsNonces forms) :=
  onPool_keeps fun _ h => h.addLocked hm.1 hm.2

lemma verifyMsgSig_pending (mpe : MpoolEnv) (m : SignedMessage) (mp : MessagePool) :
    (verifyMsgSig mpe m mp).2.pending = mp.pending := by
  rcases hkey : sigCacheKey mpe m with err | sck
  · rw [verifyMsgSig, hkey]
    rfl
  · have hrun : verifyMsgSig mpe m mp = _ := bind_of_ok (ofExcept_of_ok hkey mp)
    rw [hrun, bind_of_ok (get_apply mp)]
    split_ifs <;> rfl

lemma add_keeps (hm : Ordinary forms m.message) : (Mpool.add node m).Keeps (KeepsNonces forms) := by
  have hverify : (Mpool.onPool (verifyMsgSig node.mpe m)).Keeps (KeepsNonces forms) :=
    onPool_keeps fun mp h => h.of_pending (verifyMsgSig_pending node.mpe m mp)
  have haddTs (curTs : Option TipSet) : (Mpool.addTs node m curTs).Keeps (KeepsNonces forms) := by
    refine .bind (.ofExcept _) fun snonce => .ite (fun _ => .fail _) fun _ => ?_
    refine .bind (.ofExcept _) fun balance => .ite (fun _ => .fail _) fun _ => ?_
    exact .ite (fun _ => .fail _) fun _ => addLocked_keeps hm
  refine .ite (fun _ => .fail _) fun _ => .ite (fun _ => .fail _) fun _ => ?_
  rcases m.message.value with - | value
  · exact .fail _
  · exact .ite (fun _ => .fail _) fun _ => .bind hverify fun _ => .bind .get fun s => haddTs s.curTs

lemma push_keeps (hm : Ordinary forms m.message) :
    (Mpool.push node m).Keeps (KeepsNonces forms) := by
  refine .bind .get fun s => ?_
  rcases s.curTs with - | ts
  · exact .fail _
  · refine .bind (.ofExcept _) fun _ => .bind (.ofExcept _) fun msgb => ?_
    exact .bind (add_keeps hm) fun _ => .bind (.ofExcept _) fun _ => .ofExcept _

lemma pushWithNonce_pool (node : MpoolNode) (addr : Address)
    (cb : Address → UInt64 → Except NodeErr SignedMessage) (s : MpoolState) :
    (Mpool.pushWithNonce node addr cb s).2.pool = s.pool ∨
      ∃ fromKey nonce msg, Mpool.senderKey node.api addr s = .ok fromKey ∧
        Mpool.getNonceLocked node.api fromKey s = .ok nonce ∧ cb fromKey nonce = .ok msg ∧
        (Mpool.pushWithNonce node addr cb s).2.pool = (addLocked node.mpe msg s.pool).2 := by
  rw [Mpool.pushWithNonce, bind_of_ok (get_apply s)]
  rcases hkey : Mpool.senderKey node.api addr s with err | fromKey
  · exact .inl rfl
  rw [bind_of_ok (ofExcept_apply _ s)]
  rcases hnonce : Mpool.getNonceLocked node.api fromKey s with err | nonce
  · exact .inl rfl
  have hmapped : (Except.ok nonce : Except NodeErr UInt64).mapError
      (NodeErr.wrap "get nonce locked failed") = .ok nonce := rfl
  rw [hmapped, bind_of_ok (ofExcept_apply _ s)]
  rcases hmsg : cb fromKey nonce with err | msg
  · exact .inl rfl
  rw [bind_of_ok (ofExcept_apply _ s)]
  rcases s.curTs with - | ts
  · exact .inl rfl
  simp only
  rcases Mpool.verifyMsgBeforePush node msg ts.height with err | _
  · exact .inl rfl
  rw [bind_of_ok (ofExcept_apply _ s)]
  rcases node.pub.serialize msg with err | msgb
  · exact .inl rfl
  rw [bind_of_ok (ofExcept_apply _ s)]
  refine .inr ⟨fromKey, nonce, msg, rfl, hnonce, hmsg, ?_⟩
  rcases hadd : addLocked node.mpe msg s.pool with ⟨err | _, pool⟩
  · simp only [bind_apply, mapError_apply, Mpool.onPool, zoom_apply, hadd]
    rfl
  · simp only [bind_apply, mapError_apply, Mpool.onPool, zoom_apply, hadd]
    rcases node.pub.publish msgb with err | _ <;> rfl

lemma pruneMessages_inv {msgs : List SignedMessage} {good : Cid → Bool}
    (h : PoolInv forms s.pool) (hmsgs : ∀ m ∈ msgs, NotLast m.message.nonce) :
    PoolInv forms (Mpool.pruneExcessMessages node msgs good s.pool) := by
  have hfold (msgs : List SignedMessage) (hmsgs : ∀ m ∈ msgs, NotLast m.message.nonce)
      (mp : MessagePool) (h : PoolInv forms mp) :
      PoolInv forms (msgs.foldl (fun mp m => remove m.message.slot mp) mp) := by
    induction msgs generalizing mp with
    | nil => exact h
    | cons m msgs ih =>
      exact ih (fun m' hm' => hmsgs m' (mem_cons_of_mem m hm')) _ (h.remove (hmsgs m mem_cons_self))
  unfold Mpool.pruneExcessMessages
  split_ifs
  · exact h
  · exact hfold _ (fun m hm => hmsgs m (mem_filter.mp hm).1) _ h

end Calls

/-! ### Head changes -/

section HeadChanges

variable {forms : Set Address} {mpe : MpoolEnv} {api : Provider} {rmsgs : RevertedMsgs}

def OrdinaryMsgs (forms : Set Address) (rmsgs : RevertedMsgs) : Prop :=
  ∀ k m, rmsgs.lookup k = some m → Ordinary forms m.message

variable {msgs : List SignedMessage}

lemma messagesForBlocks_mem {mp : MessagePool} {blks : List BlockHeader}
    (h : messagesForBlocks mpe api mp blks = .ok msgs) {m : SignedMessage} (hm : m ∈ msgs) :
    ∃ b ∈ blks, m.message ∈ (api.blockMsgs b).2.map (·.message) ++ (api.blockMsgs b).1 := by
  induction blks generalizing msgs with
  | nil =>
    cases h
    cases hm
  | cons b blks ih =>
    obtain ⟨⟨bmsgs, smsgs⟩, hload, h⟩ := Check.bind_eq_ok.mp h
    obtain ⟨out, hout, h⟩ := Check.bind_eq_ok.mp h
    cases h
    rcases mem_append.mp hm with hm | hm
    · refine ⟨b, .head _, ?_⟩
      rw [blockMsgs_eq (Check.mapError_eq_ok.mp hload)]
      rcases mem_append.mp hm with hsigned | hrecovered
      · exact mem_append_left _ (mem_map_of_mem hsigned)
      · obtain ⟨msg, hmsg, hrecover⟩ := mem_filterMap.mp hrecovered
        obtain ⟨sig, -, rfl⟩ := Option.map_eq_some_iff.mp hrecover
        exact mem_append_right _ hmsg
    · grind

lemma OrdinaryMsgs.foldl (h : OrdinaryMsgs forms rmsgs)
    (hmsgs : ∀ m ∈ msgs, Ordinary forms m.message) :
    OrdinaryMsgs forms (msgs.foldl addReverted rmsgs) := by
  induction msgs generalizing rmsgs with
  | nil => exact h
  | cons m msgs ih =>
    refine ih (fun k m' hlookup => ?_) fun m' hm' => hmsgs m' (mem_cons_of_mem m hm')
    by_cases hk : k = m.message.slot
    · grind [addReverted, AList.lookup_insert, mem_cons_self]
    · rw [addReverted, AList.lookup_insert_ne hk] at hlookup
      exact h k m' hlookup

lemma included_cons (ts : TipSet) (tss : List TipSet) :
    api.included (ts :: tss) = api.included [ts] ++ api.included tss := by
  simp [Provider.included]

variable (mpe) in
/-- However the loop over the reverted tipsets ends, the pool is as it was. -/
lemma revertLoop_ordinary {revert : List TipSet} (h : OrdinaryMsgs forms rmsgs)
    (hmsgs : ∀ m ∈ api.included revert, Ordinary forms m) (s : MpoolState) :
    (revertLoop mpe api revert rmsgs s).2.pool = s.pool ∧
      ∀ rmsgs', (revertLoop mpe api revert rmsgs s).1 = .ok rmsgs' → OrdinaryMsgs forms rmsgs' := by
  induction revert generalizing rmsgs s with
  | nil => exact ⟨rfl, fun rmsgs' hok => Except.ok.inj hok ▸ h⟩
  | cons ts revert ih =>
    rw [included_cons] at hmsgs
    rw [revertLoop]
    rcases api.loadTipSet ts.parents with err | pts
    · exact ⟨rfl, fun rmsgs' hok => by cases hok⟩
    rw [bind_of_ok (ofExcept_apply _ s), bind_of_ok (get_apply s)]
    rcases hload : messagesForBlocks mpe api s.pool ts.blocks with err | msgs
    · exact ⟨rfl, fun rmsgs' hok => by cases hok⟩
    rw [bind_of_ok (ofExcept_apply _ s), bind_of_ok (modify_apply _ s)]
    refine ih (h.foldl fun m hm => hmsgs _ (mem_append_left _ ?_))
      (fun m hm => hmsgs m (mem_append_right _ hm)) _
    obtain ⟨b, hb, hmsg⟩ := messagesForBlocks_mem hload hm
    refine mem_flatMap.mpr ⟨ts, mem_singleton_self ts, ?_⟩
    exact mem_flatMap.mpr ⟨b, hb, hmsg⟩

lemma foldl_rm_ordinary {ks : List (Address × UInt64)} (hks : ∀ k ∈ ks, NotLast k.2)
    {x : RevertedMsgs × MessagePool} (h : OrdinaryMsgs forms x.1 ∧ PoolInv forms x.2) :
    OrdinaryMsgs forms (ks.foldl rm x).1 ∧ PoolInv forms (ks.foldl rm x).2 := by
  induction ks generalizing x with
  | nil => exact h
  | cons k ks ih =>
    refine ih (fun k' hk' => hks k' (mem_cons_of_mem k hk')) ?_
    unfold rm
    split_ifs with hmem
    · refine ⟨fun k' m hlookup => ?_, h.2⟩
      have hlookup : (x.1.erase k).lookup k' = some m := hlookup
      by_cases hk : k' = k
      · grind [AList.lookup_erase]
      · exact h.1 k' m ((AList.lookup_erase_ne hk).symm.trans hlookup)
    · exact ⟨h.1, h.2.remove (hks k mem_cons_self)⟩

variable {s : MpoolState}

lemma applyBlocksLoop_ordinary {blks : List BlockHeader}
    (h : OrdinaryMsgs forms rmsgs ∧ PoolInv forms s.pool)
    (hmsgs : ∀ b ∈ blks, ∀ m ∈ (api.blockMsgs b).2.map (·.message) ++ (api.blockMsgs b).1,
      NotLast m.nonce) :
    PoolInv forms (applyBlocksLoop api blks rmsgs s).2.pool ∧
      ∀ rmsgs', (applyBlocksLoop api blks rmsgs s).1 = .ok rmsgs' → OrdinaryMsgs forms rmsgs' := by
  induction blks generalizing rmsgs s with
  | nil => exact ⟨h.2, fun rmsgs' hok => Except.ok.inj hok ▸ h.1⟩
  | cons b blks ih =>
    rw [applyBlocksLoop]
    rcases hload : api.messagesForBlock b with err | ⟨bmsgs, smsgs⟩
    · exact ⟨h.2, fun rmsgs' hok => by cases hok⟩
    have hb := hmsgs b mem_cons_self
    rw [blockMsgs_eq hload] at hb
    have hslots : ∀ k ∈ (smsgs.map (·.message) ++ bmsgs).map Message.slot, NotLast k.2 := by
      intro k hk
      obtain ⟨m, hm, rfl⟩ := mem_map.mp hk
      exact hb m hm
    exact ih (s := ⟨_, s.curTs⟩) (foldl_rm_ordinary hslots (x := (rmsgs, s.pool)) h)
      fun b' hb' => hmsgs b' (mem_cons_of_mem b hb')

lemma applyLoop_ordinary {apply : List TipSet} (h : OrdinaryMsgs forms rmsgs ∧ PoolInv forms s.pool)
    (hmsgs : ∀ m ∈ api.included apply, NotLast m.nonce) :
    PoolInv forms (applyLoop api apply rmsgs s).2.pool ∧
      ∀ rmsgs', (applyLoop api apply rmsgs s).1 = .ok rmsgs' → OrdinaryMsgs forms rmsgs' := by
  induction apply generalizing rmsgs s with
  | nil => exact ⟨h.2, fun rmsgs' hok => Except.ok.inj hok ▸ h.1⟩
  | cons ts apply ih =>
    rw [included_cons] at hmsgs
    have hblks : ∀ b ∈ ts.blocks,
        ∀ m ∈ (api.blockMsgs b).2.map (·.message) ++ (api.blockMsgs b).1, NotLast m.nonce := by
      intro b hb m hm
      refine hmsgs m (mem_append_left _ (mem_flatMap.mpr ⟨ts, ?_, ?_⟩))
      · exact mem_singleton_self ts
      · exact mem_flatMap.mpr ⟨b, hb, hm⟩
    obtain ⟨hinv, hordinary⟩ := applyBlocksLoop_ordinary h hblks
    rw [applyLoop]
    rcases hblocks : applyBlocksLoop api ts.blocks rmsgs s with ⟨err | rmsgs1, s1⟩
    · grind [bind_of_error]
    · rw [hblocks] at hinv hordinary
      rw [bind_of_ok hblocks, bind_of_ok (modify_apply _ s1)]
      exact ih (s := ⟨s1.pool, some ts⟩) ⟨hordinary rmsgs1 rfl, hinv⟩
        fun m hm => hmsgs m (mem_append_right _ hm)

lemma foldl_readd_inv (hmsgs : ∀ m ∈ msgs, Ordinary forms m.message) {mp : MessagePool}
    (h : PoolInv forms mp) : PoolInv forms (msgs.foldl (readd mpe) mp) := by
  induction msgs generalizing mp with
  | nil => exact h
  | cons m msgs ih =>
    obtain ⟨hlast, hform⟩ := hmsgs m mem_cons_self
    exact ih (fun m' hm' => hmsgs m' (mem_cons_of_mem m hm')) (h.addLocked hlast hform)

lemma headChange_inv {order : List SignedMessage → List SignedMessage}
    {revert apply : List TipSet} (h : PoolInv forms s.pool)
    (horder : ∀ msgs, (order msgs).Perm msgs)
    (hreverted : ∀ m ∈ api.included revert, Ordinary forms m)
    (happlied : ∀ m ∈ api.included apply, NotLast m.nonce) :
    PoolInv forms (headChange mpe api order revert apply s).2.pool := by
  have hempty : OrdinaryMsgs forms ∅ :=
    fun _ m hlookup => absurd hlookup (Option.some_ne_none m).symm
  obtain ⟨hpool, hordinary⟩ := revertLoop_ordinary mpe hempty hreverted s
  rw [headChange]
  rcases hrevert : revertLoop mpe api revert ∅ s with ⟨err | rmsgs, s1⟩ <;>
    rw [hrevert] at hpool hordinary
  · grind [bind_of_error]
  rw [bind_of_ok hrevert]
  obtain ⟨hinv, hordinary'⟩ :=
    applyLoop_ordinary (s := s1) ⟨hordinary rmsgs rfl, hpool ▸ h⟩ happlied
  rcases happly : applyLoop api apply rmsgs s1 with ⟨err | rmsgs', s2⟩ <;>
    rw [happly] at hinv hordinary'
  · rwa [bind_of_error happly]
  rw [bind_of_ok happly]
  refine foldl_readd_inv (fun m hm => ?_) hinv
  obtain ⟨⟨k, m⟩, hentry, rfl⟩ := mem_map.mp ((horder _).mem_iff.mp hm)
  exact hordinary' rmsgs' rfl k m (AList.mem_lookup_iff.mpr hentry)

end HeadChanges

inductive MpoolCall where
  | add (m : SignedMessage)
  | push (m : SignedMessage)
  | pushWithNonce (addr : Address) (cb : Address → UInt64 → Except NodeErr SignedMessage)
  | remove (k : Address × UInt64)
  | headChange (order : List SignedMessage → List SignedMessage) (revert apply : List TipSet)
  | prune (msgs : List SignedMessage) (good : Cid → Bool)
  | evict (keepKey : Bytes → Bool) (keepSig : Cid → Bool)

def MpoolCall.run (node : MpoolNode) (s : MpoolState) : MpoolCall → MpoolState
  | .add m => (Mpool.add node m s).2
  | .push m => (Mpool.push node m s).2
  | .pushWithNonce addr cb => (Mpool.pushWithNonce node addr cb s).2
  | .remove k => { s with pool := Lotus.remove k s.pool }
  | .headChange order revert apply => (Lotus.headChange node.mpe node.api order revert apply s).2
  | .prune msgs good => { s with pool := Mpool.pruneExcessMessages node msgs good s.pool }
  | .evict keepKey keepSig => { s with pool := s.pool.evict keepKey keepSig }

/-- A call that adds or removes no message with the last nonce, and only adds messages of senders
that are named by `forms`. What is pruned is pending. -/
def MpoolCall.Ordinary (forms : Set Address) (node : MpoolNode) (s : MpoolState) : MpoolCall → Prop
  | .add m | .push m => Lotus.Ordinary forms m.message
  | .pushWithNonce addr cb => ∀ fromKey nonce msg, Mpool.senderKey node.api addr s = .ok fromKey →
      Mpool.getNonceLocked node.api fromKey s = .ok nonce → cb fromKey nonce = .ok msg →
      Lotus.Ordinary forms msg.message
  | .remove k => NotLast k.2
  | .headChange order revert apply => (∀ msgs, (order msgs).Perm msgs) ∧
      (∀ m ∈ node.api.included revert, Lotus.Ordinary forms m) ∧
      ∀ m ∈ node.api.included apply, NotLast m.nonce
  | .prune msgs _ => ∀ m ∈ msgs, ∃ k, s.pool.slotAt k = some m
  | .evict _ _ => True

inductive MpoolState.Reached (forms : Set Address) : MpoolState → Prop where
  | start {s : MpoolState} : s.pool.pending = ∅ → Reached forms s
  | call {s : MpoolState} (node : MpoolNode) (call : MpoolCall) :
      Reached forms s → call.Ordinary forms node s → Reached forms (call.run node s)

lemma MpoolCall.Ordinary.inv {forms : Set Address} {node : MpoolNode} {s : MpoolState}
    {call : MpoolCall} (hcall : call.Ordinary forms node s) (h : PoolInv forms s.pool) :
    PoolInv forms (call.run node s).pool := by
  cases call with
  | add m => exact add_keeps hcall s h
  | push m => exact push_keeps hcall s h
  | pushWithNonce addr cb =>
    rcases pushWithNonce_pool node addr cb s with hsame | ⟨fromKey, nonce, msg, hkey, hnonce, hmsg,
      hadded⟩
    · exact hsame.symm ▸ h
    · obtain ⟨hlast, hform⟩ := hcall fromKey nonce msg hkey hnonce hmsg
      exact hadded.symm ▸ h.addLocked hlast hform
  | remove k => exact h.remove hcall
  | headChange order revert apply => exact headChange_inv h hcall.1 hcall.2.1 hcall.2.2
  | prune msgs good =>
    refine pruneMessages_inv h fun m hm => ?_
    obtain ⟨k, hk⟩ := hcall m hm
    rw [show m.message.nonce = k.2 from congrArg Prod.snd (h.slot k m hk).1]
    exact h.notLast hk
  | evict keepKey keepSig => exact h.of_pending rfl

lemma MpoolState.Reached.inv {forms : Set Address} {s : MpoolState} (h : s.Reached forms) :
    PoolInv forms s.pool := by
  induction h with
  | start hempty =>
    refine ⟨fun a mset hmset => ?_, fun k m hk => ?_⟩ <;>
      simp_all [Finmap.lookup_empty, MessagePool.slotAt]
  | call node call _ hcall ih => exact hcall.inv ih

/-! ## Fresh nonces -/

structure FreshNonce {ι : Type} (account : Address → ι) (api : Provider) (s : MpoolState)
    (addr : Address) (nonce : UInt64) : Prop where
  stateNonce_le : ∃ stateNonce, Mpool.getStateNonce api addr s.curTs = .ok stateNonce ∧
    stateNonce ≤ nonce
  not_pending : ∀ k m, s.pool.slotAt k = some m → account k.1 = account addr → k.2 ≠ nonce

section Fresh

variable {ι : Type} {account : Address → ι} {forms : Set Address} {api : Provider} {s : MpoolState}
  {addr : Address} {nonce : UInt64}

lemma getNonceLocked_ok (h : Mpool.getNonceLocked api addr s = .ok nonce) :
    (∃ stateNonce, Mpool.getStateNonce api addr s.curTs = .ok stateNonce ∧ stateNonce ≤ nonce) ∧
      ∀ mset, s.pool.pending.lookup addr = some mset → mset.nextNonce ≤ nonce := by
  obtain ⟨stateNonce, hstate, h⟩ := Check.bind_eq_ok.mp h
  rcases hmset : s.pool.pending.lookup addr with - | mset
  · rw [hmset] at h
    cases h
    refine ⟨⟨nonce, hstate, UInt64.le_refl nonce⟩, fun mset h => ?_⟩
    exact absurd h (Option.some_ne_none mset).symm
  · rw [hmset] at h
    simp only at h
    split_ifs at h with hlarger
    · cases h
      refine ⟨⟨nonce, hstate, UInt64.le_refl nonce⟩, fun mset' h => ?_⟩
      rw [← Option.some.inj h]
      exact UInt64.le_of_lt hlarger
    · cases h
      refine ⟨⟨stateNonce, hstate, UInt64.not_lt.mp hlarger⟩, fun mset' h => ?_⟩
      rw [← Option.some.inj h]
      exact UInt64.le_refl _

lemma PoolInv.slotAt_getNonce (h : PoolInv forms s.pool)
    (hnonce : Mpool.getNonceLocked api addr s = .ok nonce) :
    s.pool.slotAt (addr, nonce) = none := by
  rw [Option.eq_none_iff_forall_ne_some]
  intro m hm
  obtain ⟨mset, hmset, hlookup⟩ := Option.bind_eq_some_iff.mp hm
  have hlt := h.below addr mset hmset nonce m hlookup
  exact UInt64.not_le.mpr hlt ((getNonceLocked_ok hnonce).2 mset hmset)

/-- In every state that is reached with ordinary calls, `GetNonce` gives out a fresh nonce, and
`PushWithNonce` with a callback that keeps to its sender and nonce finds its slot empty and leaves
every pending message where it is. -/
theorem getNonce_fresh (hforms : Set.InjOn account forms) (hreached : s.Reached forms) :
    (∀ api addr nonce, addr ∈ forms → Mpool.getNonce api addr s = .ok nonce →
      FreshNonce account api s addr nonce) ∧
    ∀ node addr cb, (∀ key nonce msg, cb key nonce = .ok msg → msg.message.slot = (key, nonce)) →
      (∀ key nonce, Mpool.senderKey node.api addr s = .ok key →
        Mpool.getNonceLocked node.api key s = .ok nonce → s.pool.slotAt (key, nonce) = none) ∧
      ∀ k m, s.pool.slotAt k = some m →
        (Mpool.pushWithNonce node addr cb s).2.pool.slotAt k = some m := by
  have hinv := hreached.inv
  refine ⟨fun api addr nonce haddr hnonce => ?_, fun node addr cb hcb => ⟨?_, ?_⟩⟩
  · refine ⟨(getNonceLocked_ok hnonce).1, fun k m hk haccount hsame => ?_⟩
    have hslot : k = (addr, nonce) := Prod.ext (hforms (hinv.slot k m hk).2 haddr haccount) hsame
    rw [hslot, hinv.slotAt_getNonce hnonce] at hk
    cases hk
  · exact fun key nonce _ hnonce => hinv.slotAt_getNonce hnonce
  · intro k m hk
    rcases pushWithNonce_pool node addr cb s with hsame | ⟨key, nonce, msg, hkey, hnonce, hmsg,
      hadded⟩
    · rwa [hsame]
    rw [hadded]
    by_cases hstorable : Storable node.mpe msg
    · rcases slotAt_addLocked_cases hstorable s.pool with hsame | hfiled
      · rwa [hsame]
      · rw [hfiled, update_of_ne]
        · exact hk
        · grind [hinv.slotAt_getNonce]
    · rwa [MessagePool.slotAt, addLocked_pending_of_not hstorable]

def sampleNonceNode : MpoolNode where
  mpe := sampleMpoolEnv
  api := { mpoolProvider (sampleSyncer []) (.single sampleGenesis) with
    stateGetActor := fun _ _ => .ok ⟨⟨[1]⟩, ⟨[]⟩, 0, 10000000⟩
    messagesForTipset := fun _ => .ok [] }
  pub := ⟨fun _ => .ok [], fun _ _ => .ok (), fun _ => .ok ()⟩

def sampleNumbered (nonce : UInt64) (price : ℤ) : SignedMessage :=
  ⟨{ (sampleBlsMessage 1).message with nonce, gasPrice := some price },
    (sampleBlsMessage 1).signature⟩

def sampleCalled (calls : List MpoolCall) : MpoolState :=
  calls.foldl (fun s call => call.run sampleNonceNode s)
    ⟨sampleEmptyPool, some (.single sampleGenesis)⟩

def sampleNonceCalls : List MpoolCall :=
  [.add (sampleNumbered 0 1), .pushWithNonce (.bls [1]) fun _ nonce => .ok (sampleNumbered nonce 1)]

theorem sampleNonceCalls_fresh :
    Mpool.getNonce sampleNonceNode.api (.bls [1]) (sampleCalled sampleNonceCalls) = .ok 2 ∧
    FreshNonce sampleAccount sampleNonceNode.api (sampleCalled sampleNonceCalls) (.bls [1]) 2 := by
  have hnonce : Mpool.getNonce sampleNonceNode.api (.bls [1]) (sampleCalled sampleNonceCalls) =
      .ok 2 := by decide +kernel
  have hfirst : Mpool.getNonceLocked sampleNonceNode.api (.bls [1])
      (sampleCalled [.add (sampleNumbered 0 1)]) = .ok 1 := by decide +kernel
  have hadded : (sampleCalled [.add (sampleNumbered 0 1)]).Reached {.bls [1]} :=
    .call sampleNonceNode (.add (sampleNumbered 0 1)) (s := sampleCalled []) (.start rfl)
      ⟨by decide, rfl⟩
  have hreached : (sampleCalled sampleNonceCalls).Reached {.bls [1]} := by
    refine .call sampleNonceNode
      (.pushWithNonce (.bls [1]) fun _ nonce => .ok (sampleNumbered nonce 1)) hadded ?_
    intro key nonce msg hkey hlocked hmsg
    have hkey : (.ok (.bls [1]) : Except NodeErr Address) = .ok key := hkey
    rw [← Except.ok.inj hkey] at hlocked
    have hone : nonce = 1 := Except.ok.inj (hlocked.symm.trans hfirst)
    rw [← Except.ok.inj hmsg, hone]
    exact ⟨by decide, rfl⟩
  exact ⟨hnonce, (getNonce_fresh (Set.injOn_singleton _ _) hreached).1 _ _ _ rfl hnonce⟩

/-- With the last nonce pending, the next one is 0, which is pending too, and `PushWithNonce`
replaces the message. With the ID address of the sender, `GetNonce` does not see its messages. -/
theorem sampleLastNonce_collides : (Mpool.getNonce sampleNonceNode.api (.bls [1])
        (sampleCalled [.add (sampleNumbered 0 1), .add (sampleNumbered (2 ^ 64 - 1) 1)]) = .ok 0 ∧
      (sampleCalled [.add (sampleNumbered 0 1), .add (sampleNumbered (2 ^ 64 - 1) 1)]).pool.slotAt
        (.bls [1], 0) = some (sampleNumbered 0 1) ∧
      (sampleCalled [.add (sampleNumbered 0 1), .add (sampleNumbered (2 ^ 64 - 1) 1),
        .pushWithNonce (.bls [1]) fun _ nonce => .ok (sampleNumbered nonce 3)]).pool.slotAt
          (.bls [1], 0) = some (sampleNumbered 0 3)) ∧
    (Mpool.getNonce sampleNonceNode.api (.id 100) (sampleCalled [.add (sampleNumbered 0 1)]) =
        .ok 0 ∧
      (sampleCalled [.add (sampleNumbered 0 1)]).pool.slotAt (.bls [1], 0) =
        some (sampleNumbered 0 1) ∧
      sampleAccount (.bls [1]) = sampleAccount (.id 100)) := by
  refine ⟨⟨?_, ?_, ?_⟩, ?_, ?_, ?_⟩ <;> decide +kernel

end Fresh

end Lotus
