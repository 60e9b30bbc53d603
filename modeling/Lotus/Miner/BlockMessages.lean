import Lotus.Chain.MinerKeys
import Lotus.Miner.Select

/-!
# The messages of a mined block

`createBlock` puts the messages that `SelectMessages` chooses into a block, those with a BLS
signature before the others, and `checkBlockMessages` goes through them in that order.
-/

namespace Lotus

open StateTree Queues Check List

def actorLookup (env : Env) (root : Hamt) : ActorLookup := fun addr =>
  ((getActor env.init addr (loadStateTree root)).1).mapError .tree

variable (syncer : Syncer)

def getTipSetFromKey (head : TipSet) (tsk : List Cid) : Except NodeErr TipSet :=
  if tsk = [] then .ok head else loadTipSet syncer.sm.cs tsk

def stateGetActor (head : TipSet) (tsk : List Cid) : ActorLookup := fun addr => do
  let ts ← (getTipSetFromKey syncer head tsk).mapError (.wrap "loading tipset %s")
  let (st, _) ← (tipSetState syncer.sm ts).mapError (.wrap "computing tipset state failed")
  actorLookup syncer.sm.env st addr

/-- The miner with the pending messages `pending`, connected to a node with the head `head`. -/
def Miner.choosing {ρ : Type} (m : Miner) (senv : SelectEnv ρ) (head : TipSet)
    (pending : List SignedMessage) : Miner :=
  { m with
    selectMessages := fun ts => .ok (Lotus.selectMessages { senv with codec := syncer.sm.codec }
      (stateGetActor syncer head (ts.cids syncer.sm.cs.hashing)) ts.height pending) }

variable {syncer}

lemma stateGetActor_eq {head ts : TipSet} {root : Hamt} {receipts : List MessageReceipt}
    (hload : loadTipSet syncer.sm.cs (ts.cids syncer.sm.cs.hashing) = .ok ts)
    (hstate : tipSetState syncer.sm ts = .ok (root, receipts)) :
    stateGetActor syncer head (ts.cids syncer.sm.cs.hashing) = actorLookup syncer.sm.env root := by
  funext addr
  have hne : ts.cids syncer.sm.cs.hashing ≠ [] := cons_ne_nil _ _
  rw [stateGetActor, getTipSetFromKey, if_neg hne, hload]
  show ((tipSetState syncer.sm ts).mapError _ >>= _) = _
  rw [hstate]
  rfl

lemma actorLookup_ok {env : Env} {root : Hamt} {addr : Address} {act : Actor}
    (h : actorLookup env root addr = .ok act) :
    actorIn env.init (loadStateTree root).view addr = .ok act := by
  rw [← (getActor_of_coherent (coherent_loadStateTree env.init root) addr).1]
  exact mapError_eq_ok.mp h

/-! ## Messages in a block -/

def SignedMessage.stored (codec : Codec) (m : SignedMessage) : ChainMsg :=
  if m.signature.type = .bls then m.message.toChainMsg codec else m.toChainMsg codec

@[simp] lemma SignedMessage.stored_vmMessage (codec : Codec) (m : SignedMessage) :
    (m.stored codec).vmMessage = m.message := by
  rw [stored]
  split_ifs <;> rfl

def blsFirst (ms : List SignedMessage) : List SignedMessage :=
  (ms.filter fun m => m.signature.type = .bls) ++
    ms.filter fun m => ! decide (m.signature.type = .bls)

lemma blsFirst_perm (ms : List SignedMessage) : (blsFirst ms).Perm ms :=
  filter_append_perm (fun m : SignedMessage => decide (m.signature.type = .bls)) ms

lemma BlockTemplate.chainMsgs_eq (bt : BlockTemplate) (codec : Codec) :
    (bt.bls.map (·.message)).map (·.toChainMsg codec) ++ bt.secpk.map (·.toChainMsg codec) =
      (blsFirst bt.messages).map (·.stored codec) := by
  rw [blsFirst, map_append, map_map]
  congr 1
  · refine map_congr_left fun m hm => ?_
    have hbls := of_decide_eq_true (mem_filter.mp hm).2
    rw [SignedMessage.stored, if_pos hbls]
    rfl
  · refine map_congr_left fun m hm => ?_
    have hbls := (mem_filter.mp hm).2
    rw [Bool.not_eq_true', decide_eq_false_iff_not] at hbls
    rw [SignedMessage.stored, if_neg hbls]

lemma countFrom_stored (codec : Codec) (addr : Address) (ms : List SignedMessage) :
    countFrom addr (ms.map (·.stored codec)) = (lane SignedMessage.sender addr ms).length := by
  rw [countFrom, countP_map, countP_eq_length_filter, lane]
  congr 2
  funext m
  rw [Function.comp_apply, SignedMessage.stored_vmMessage]
  rfl

lemma chainGasLimits_stored (codec : Codec) (ms : List SignedMessage) :
    chainGasLimits (ms.map (·.stored codec)) = gasLimits ms := by
  rw [chainGasLimits, map_map, gasLimits]
  congr 2
  funext m
  rw [Function.comp_apply, SignedMessage.stored_vmMessage]

lemma Message.validForBlockInclusion_mono {m : Message} {minGas minGas' : Int64}
    (hle : minGas' ≤ minGas) (h : m.validForBlockInclusion minGas = .ok ()) :
    m.validForBlockInclusion minGas' = .ok () := by
  obtain ⟨-, -, -, -, hmin⟩ := Message.validForBlockInclusion_ok h
  have hlow : ¬m.gasLimit < minGas := Int64.not_lt.mpr hmin
  have hlow' : ¬m.gasLimit < minGas' := Int64.not_lt.mpr (Int64.le_trans hle hmin)
  unfold Message.validForBlockInclusion at h ⊢
  simp only [if_neg hlow] at h
  simp only [if_neg hlow']
  exact h

lemma onChainMessage_mono {n k : ℕ} (hle : n ≤ k) (hk : k < 2 ^ 30) :
    (pricelistV0.onChainMessage n).total ≤ (pricelistV0.onChainMessage k).total := by
  grind [Int64.le_iff_toInt_le, onChainMessage_total, lt_of_le_of_lt]

lemma valid_stored {codec : Codec} {m : SignedMessage} (henc : codec.Encodes m) {height : Int64}
    (h : m.message.validForBlockInclusion
      ((pricelistByEpoch height).onChainMessage (codec.signedLength m)).total = .ok ()) :
    (m.stored codec).vmMessage.validForBlockInclusion
      ((pricelistByEpoch height).onChainMessage (m.stored codec).chainLength).total = .ok () := by
  rw [pricelistByEpoch_eq] at h ⊢
  rw [SignedMessage.stored_vmMessage, SignedMessage.stored]
  split_ifs
  · exact Message.validForBlockInclusion_mono (onChainMessage_mono henc.message_le henc.signed_lt) h
  · exact h

/-! ## The checks -/

/-- A signature that verifies is of the scheme of the key: a BLS key has the length of a point, and
a secp256k1 signature gives the address of the key it was made with. -/
def Crypto.MatchesSchemes (crypto : Crypto) : Prop :=
  ∀ sig addr c, crypto.verify sig addr c = true → (sig.type = .bls ↔ addr.protocol = .bls)

def KeysAreAccounts (env : Env) (root : Hamt) : Prop :=
  ∀ addr act, addr.protocol = .bls ∨ addr.protocol = .secp256k1 →
    actorLookup env root addr = .ok act → act.code = env.accountActorCodeID

structure SignedByKey (crypto : Crypto) (codec : Codec) (m : SignedMessage) : Prop where
  isKey : m.sender.protocol = .bls ∨ m.sender.protocol = .secp256k1
  verified : crypto.verify m.signature m.sender (codec.messageCid m.message) = true

lemma resolveToKeyAddress_of_key {env : Env} {root : Hamt} {addr : Address}
    (h : addr.protocol = .bls ∨ addr.protocol = .secp256k1) :
    resolveToKeyAddress env root addr = .ok addr := by
  rcases h with h | h <;> rw [resolveToKeyAddress, h]

section Passing

variable {ρ : Type} {senv : SelectEnv ρ} {env : Env} {root : Hamt} {height : Int64}
  {pending out : List SignedMessage} {queue : Address → List SignedMessage}

lemma Chosen.checked (h : Chosen senv (actorLookup env root) height pending queue out)
    (henc : ∀ m ∈ pending, senv.codec.Encodes m)
    (haccounts : ∀ m ∈ pending, ∀ act, actorLookup env root m.sender = .ok act →
      act.code = env.accountActorCodeID) :
    Checked env (loadStateTree root).view (pricelistByEpoch height)
      (out.map (·.stored senv.codec)) := by
  refine EachAfter.map fun pre m post hsplit => ?_
  obtain ⟨hmem, -, act, hact, hfits⟩ := h.after pre m post hsplit
  refine ⟨act, valid_stored (henc m hmem) hfits.valid, ?_, haccounts m hmem act hact, ?_⟩
  · rw [SignedMessage.stored_vmMessage]
    exact actorLookup_ok hact
  · rw [SignedMessage.stored_vmMessage, hfits.nonce_eq, ← countFrom_stored senv.codec]
    rfl

end Passing

section CreateBlock

variable {ρ : Type} {senv : SelectEnv ρ} {m : Miner} {head : TipSet} {base : MiningBase}
  {pending : List SignedMessage} {root : Hamt} {receipts : List MessageReceipt} {ticket : Bytes}
  {eproof : ElectionProof} {bvals : List BeaconEntry} {wpostProof : List Bytes} {b : FullBlock}

lemma createBlock_chosen
    (hload : loadTipSet syncer.sm.cs (base.tipSet.cids syncer.sm.cs.hashing) = .ok base.tipSet)
    (hstate : tipSetState syncer.sm base.tipSet = .ok (root, receipts))
    (henc : ∀ msg ∈ pending, syncer.sm.codec.Encodes msg)
    (hkinds : ∀ msg ∈ pending, ∀ msg' ∈ pending, msg.sender = msg'.sender →
      (msg.signature.type = .bls ↔ msg'.signature.type = .bls))
    (hblock : createBlock syncer (m.choosing syncer senv head pending) base ticket eproof bvals
      wpostProof = .ok b) :
    ∃ queue out, Chosen { senv with codec := syncer.sm.codec } (actorLookup syncer.sm.env root)
        base.tipSet.height pending queue (blsFirst out) ∧
      b.blsMessages = (out.filter fun msg => msg.signature.type = .bls).map (·.message) ∧
      b.secpkMessages = (out.filter fun msg => ! decide (msg.signature.type = .bls)) ∧
      b.chainMsgs syncer.sm.codec = (blsFirst out).map (·.stored syncer.sm.codec) ∧
      b.header.messages = ⟨b.blsMessages.map syncer.sm.codec.messageCid,
        b.secpkMessages.map (·.cid syncer.sm.codec)⟩ := by
  obtain ⟨msgs, hmsgs, hcreate⟩ := bind_eq_ok.mp hblock
  cases mapError_eq_ok.mp hmsgs
  rw [stateGetActor_eq hload hstate] at hcreate
  set senv' : SelectEnv ρ := { senv with codec := syncer.sm.codec }
  set chosen := selectMessages senv' (actorLookup syncer.sm.env root) base.tipSet.height pending
  obtain ⟨queue, hchosen⟩ : ∃ queue, Chosen senv' (actorLookup syncer.sm.env root)
      base.tipSet.height pending queue chosen := selectMessages_chosen henc
  have htaken := hchosen.take henc blockMessageLimit
  obtain ⟨-, -, -, -, -, -, -, -, -, -, -, hbls, hsecpk, hroot⟩ := minerCreateBlock_ok hcreate
  refine ⟨queue, chosen.take blockMessageLimit, htaken.split fun msg hmsg msg' hmsg' hsender => ?_,
    hbls, hsecpk, ?_, hroot⟩
  · exact decide_eq_decide.mpr
      (hkinds msg (htaken.mem_pending hmsg) msg' (htaken.mem_pending hmsg') hsender)
  · rw [FullBlock.chainMsgs, hbls, hsecpk]
    exact BlockTemplate.chainMsgs_eq _ _

/-- The messages that `createBlock` puts into a block pass every check of `checkBlockMessages`
against the base, on the messages and on their root; only the aggregate of the signatures is left to
be checked. -/
theorem createBlock_passes
    (hload : loadTipSet syncer.sm.cs (base.tipSet.cids syncer.sm.cs.hashing) = .ok base.tipSet)
    (hstate : tipSetState syncer.sm base.tipSet = .ok (root, receipts))
    (hschemes : syncer.crypto.MatchesSchemes) (haccounts : KeysAreAccounts syncer.sm.env root)
    (henc : ∀ msg ∈ pending, syncer.sm.codec.Encodes msg)
    (hpending : ∀ msg ∈ pending, SignedByKey syncer.crypto syncer.sm.codec msg)
    (hblock : createBlock syncer (m.choosing syncer senv head pending) base ticket eproof bvals
      wpostProof = .ok b) :
    (checkMessages syncer.sm.env syncer.crypto syncer.sm.codec
        (pricelistByEpoch base.tipSet.height) root b
        ⟨fun _ => none, 0, loadStateTree root⟩).1 = .ok () ∧
      b.header.messages = ⟨b.blsMessages.map syncer.sm.codec.messageCid,
        b.secpkMessages.map (·.cid syncer.sm.codec)⟩ ∧
      (∃ pubks, b.blsMessages.mapM
        (fun msg => getBlsPublicKey syncer.sm.env root msg.fromAddr) = .ok pubks) ∧
      checkBlockMessages syncer.sm.env syncer.crypto syncer.sm.codec base.tipSet.height root b =
        checkBlsAggregate syncer.sm.env syncer.crypto syncer.sm.codec root b := by
  have hscheme : ∀ msg ∈ pending, msg.signature.type = .bls ↔ msg.sender.protocol = .bls :=
    fun msg hmsg => hschemes _ _ _ (hpending msg hmsg).verified
  obtain ⟨queue, out, hchosen, hbls, hsecpk, hmsgs, hroot⟩ := createBlock_chosen hload hstate henc
    (fun msg hmsg msg' hmsg' hsender => by rw [hscheme msg hmsg, hscheme msg' hmsg', hsender])
    hblock
  have hout : ∀ msg ∈ out, msg ∈ pending :=
    fun msg hmsg => hchosen.mem_pending ((blsFirst_perm out).mem_iff.mpr hmsg)
  have hchecked : Checked syncer.sm.env (loadStateTree root).view
      (pricelistByEpoch base.tipSet.height) (b.chainMsgs syncer.sm.codec) := by
    rw [hmsgs]
    exact hchosen.checked henc fun msg hmsg act hact =>
      haccounts msg.sender act (hpending msg hmsg).isKey hact
  have hlimits : ∀ cmsg ∈ b.chainMsgs syncer.sm.codec, 0 ≤ cmsg.vmMessage.gasLimit.toInt := by
    intro cmsg hcmsg
    rw [hmsgs] at hcmsg
    obtain ⟨msg, hmsg, rfl⟩ := mem_map.mp hcmsg
    rw [SignedMessage.stored_vmMessage]
    exact le_of_lt (hchosen.gasBounded henc hmsg).1
  have hgas : chainGasLimits (b.chainMsgs syncer.sm.codec) ≤ blockGasLimit.toInt := by
    rw [hmsgs, chainGasLimits_stored]
    exact hchosen.gas_le
  have hsigs : ∀ msg ∈ b.secpkMessages, ∃ kaddr,
      resolveToKeyAddress syncer.sm.env root msg.message.fromAddr = .ok kaddr ∧
        syncer.crypto.verify msg.signature kaddr
          (syncer.sm.codec.messageCid msg.message) = true := by
    intro msg hmsg
    rw [hsecpk] at hmsg
    have hkey := hpending msg (hout msg (mem_of_mem_filter hmsg))
    exact ⟨msg.sender, resolveToKeyAddress_of_key hkey.isKey, hkey.verified⟩
  have hpass := checkMessages_of_checked hchecked hlimits hgas hsigs
  have hpubks : ∀ msg ∈ b.blsMessages,
      getBlsPublicKey syncer.sm.env root msg.fromAddr = .ok msg.fromAddr.payload := by
    intro msg hmsg
    rw [hbls] at hmsg
    obtain ⟨smsg, hsmsg, rfl⟩ := mem_map.mp hmsg
    obtain ⟨hmem, htype⟩ := mem_filter.mp hsmsg
    have hprotocol : smsg.message.fromAddr.protocol = .bls :=
      (hscheme smsg (hout smsg hmem)).mp (of_decide_eq_true htype)
    rw [getBlsPublicKey, resolveToKeyAddress_of_key (Or.inl hprotocol)]
    exact if_neg (not_not.mpr hprotocol)
  refine ⟨hpass, hroot, ⟨b.blsMessages.map (·.fromAddr.payload), ?_⟩, ?_⟩
  · rwa [mapM_eq_ok, forall₂_map_right_iff, forall₂_same]
  · rw [checkBlockMessages, hpass]
    rcases checkBlsAggregate syncer.sm.env syncer.crypto syncer.sm.codec root b with err | -
    · rfl
    · exact if_neg (not_not.mpr hroot)

end CreateBlock

/-! ### Two senders

Account 100 signs with the key `.bls [1]` and account 101 with the key `.secp256k1 [2]`. A signature
verifies if it is of the scheme of the key. -/

def sampleKeysInit : InitActor where
  resolveAddress _ addr :=
    match addr with
    | .bls [1] => .ok ⟨100, sampleKey_ne_undef⟩
    | .secp256k1 [2] => .ok ⟨101, fun h => by cases h⟩
    | _ => .error .actorNotFound
  mapAddressToNewID _ _ := .error (.other "no ID left")

def sampleSigningSyncer : Syncer :=
  let syncer := sampleKeyedSyncer sampleIdleBlock
  { syncer with
    sm := { syncer.sm with env := { syncer.sm.env with init := sampleKeysInit } }
    crypto := ⟨fun sig addr _ => sig.type = .bls ↔ addr.protocol = .bls, fun _ _ _ => true⟩ }

def sampleSelectEnv : SelectEnv ℤ where
  codes := ⟨⟨[20]⟩, ⟨[21]⟩, ⟨[22]⟩, ⟨[23]⟩⟩
  codec := sampleCodec
  bytesLess a b := a.payload < b.payload
  gasToReward reward gas := reward * 1000 / gas.toInt
  zero := 0
  ge r r' := r' ≤ r

def sampleSigned (source : Address) (nonce : UInt64) (value : ℤ) : SignedMessage :=
  ⟨⟨0, .id 101, source, nonce, some value, some 1, 3000000, 0, []⟩,
    ⟨if source.protocol = .bls then .bls else .secp256k1, []⟩⟩

def sampleAggregating : Miner :=
  { sampleMiner with
    wallet := ⟨fun addr _ => .ok ⟨.bls, addr.payload⟩, fun _ => some (some []), []⟩ }

def sampleBase : MiningBase := ⟨.single sampleKeyedGenesis, 0⟩

def sampleCreate (pending : List SignedMessage) : Except NodeErr FullBlock :=
  createBlock sampleSigningSyncer
    (sampleAggregating.choosing sampleSigningSyncer sampleSelectEnv (.single sampleKeyedGenesis)
      pending)
    sampleBase [] ⟨1, []⟩ [] []

lemma sampleKeys_accounts : KeysAreAccounts sampleSigningSyncer.sm.env sampleKeyedState := by
  intro addr act hkey hact
  obtain ⟨id, hid, hview⟩ := actorIn_ok (actorLookup_ok hact)
  have hcodes : ∀ a ∈ [Address.id 100, .id 101], ((loadStateTree sampleKeyedState).view a).all
      (fun act => act.code = ⟨[1]⟩) = true := by decide +kernel
  have hids : id ∈ [Address.id 100, .id 101] := by
    have hnotID : ¬addr.IsID := by
      rcases hkey with h | h <;> rw [Address.IsID, h] <;> decide
    rw [resolveIn, if_neg hnotID] at hid
    split at hid
    · cases hid
    split at hid
    · cases hid
    rename_i a hne hresolve
    cases hid
    have hresolve : sampleKeysInit.resolveAddress _ addr = .ok ⟨a, hne⟩ := hresolve
    unfold sampleKeysInit at hresolve
    simp only at hresolve
    split at hresolve <;> cases hresolve <;> decide
  have hcode := hcodes id hids
  rw [hview, Option.all_some] at hcode
  exact of_decide_eq_true hcode

theorem sampleCreate_passes :
    ∃ b, sampleCreate [sampleSigned (.bls [1]) 1 5, sampleSigned (.secp256k1 [2]) 0 5,
        sampleSigned (.bls [1]) 0 5, sampleSigned (.bls [1]) 5 5] = .ok b ∧
      b.blsMessages.map (·.nonce) = [0, 1] ∧ b.secpkMessages.map (·.message.nonce) = [0] ∧
      (checkMessages sampleSigningSyncer.sm.env sampleSigningSyncer.crypto sampleCodec
        (pricelistByEpoch 0) sampleKeyedState b
        ⟨fun _ => none, 0, loadStateTree sampleKeyedState⟩).1 = .ok () ∧
      b.header.messages = ⟨b.blsMessages.map sampleCodec.messageCid,
        b.secpkMessages.map (·.cid sampleCodec)⟩ := by
  set pending := [sampleSigned (.bls [1]) 1 5, sampleSigned (.secp256k1 [2]) 0 5,
    sampleSigned (.bls [1]) 0 5, sampleSigned (.bls [1]) 5 5] with hpending
  have hcreate : (sampleCreate pending).map
      (fun b => (b.blsMessages.map (·.nonce), b.secpkMessages.map (·.message.nonce))) =
        .ok ([0, 1], [0]) := by decide +kernel
  rcases hblock : sampleCreate pending with err | b
  · rw [hblock] at hcreate
    cases hcreate
  rw [hblock] at hcreate
  obtain ⟨hbls, hsecpk⟩ := Prod.mk.inj (Except.ok.inj hcreate)
  have hload : loadTipSet sampleSigningSyncer.sm.cs
      (sampleBase.tipSet.cids sampleSigningSyncer.sm.cs.hashing) = .ok sampleBase.tipSet := by
    decide +kernel
  have hstate : tipSetState sampleSigningSyncer.sm sampleBase.tipSet = .ok (sampleKeyedState, []) :=
    rfl
  have hschemes : sampleSigningSyncer.crypto.MatchesSchemes :=
    fun _ _ _ hverify => of_decide_eq_true hverify
  have hkeys : ∀ msg ∈ pending, (msg.sender.protocol = .bls ∨ msg.sender.protocol = .secp256k1) ∧
        sampleSigningSyncer.crypto.verify msg.signature msg.sender
          (sampleCodec.messageCid msg.message) = true := by decide +kernel
  have hlengths : 100 ≤ 200 ∧ 200 < 2 ^ 30 := by decide
  obtain ⟨hpass, hroot, -⟩ := createBlock_passes hload hstate hschemes sampleKeys_accounts
    (fun _ _ => ⟨hlengths.1, hlengths.2⟩) (fun msg hmsg => ⟨(hkeys msg hmsg).1, (hkeys msg hmsg).2⟩)
    hblock
  exact ⟨b, rfl, hbls, hsecpk, hpass, hroot⟩

end Lotus
