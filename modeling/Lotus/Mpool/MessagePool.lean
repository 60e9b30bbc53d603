import Lotus.Chain.CheckMessages

/-!
# The message pool

`chain/messagepool/messagepool.go`: the message sets of the senders, `addLocked`, and the two
signature caches with `VerifyMsgSig` and `RecoverSig`.
-/

namespace Lotus

open Act

/-- `msgSet`: the pending messages of a sender by their nonces. -/
structure MsgSet where
  msgs : Finmap fun _ : UInt64 => SignedMessage
  nextNonce : UInt64

def newMsgSet : MsgSet := ⟨∅, 0⟩

/-- `MessagePool`, without what only other parts of it use. -/
structure MessagePool where
  pending : Finmap fun _ : Address => MsgSet
  currentSize : ℤ
  pruneTrigger : Bool
  /-- The signatures of BLS messages by the CIDs of the messages. -/
  blsSigCache : Cid → Option Signature
  /-- The keys of the signatures that were verified. -/
  sigValCache : List Bytes

/-- What the pool is configured with, and what it calls. -/
structure MpoolEnv where
  codec : Codec
  crypto : Crypto
  maxTxPoolSizeHi : ℤ
  putMessage : ChainMsg → Except NodeErr Unit

variable (mpe : MpoolEnv)

/-! ## Message sets -/

def rbfNum : ℤ := 64

def rbfDenom : ℤ := 256

/-- The gas price that a message needs to replace one with the gas price `price`. -/
def rbfMinPrice (price : ℤ) : ℤ := price + price * rbfNum / rbfDenom + 1

/-- Whether the message `m` may take the place of `exms`. Arithmetic on an empty `BigInt` panics. -/
def checkReplace (exms m : SignedMessage) : Except NodeErr Unit :=
  if m.cid mpe.codec = exms.cid mpe.codec then .ok ()
  else
    match exms.message.gasPrice, m.message.gasPrice with
    | some exPrice, some price =>
      if price ≥ rbfMinPrice exPrice then .ok ()
      else .error (.new ("message from %s with nonce %d already in mpool," ++
        " increase GasPrice to %s from %s to trigger replace by fee"))
    | _, _ => .error (.new "panic")

def MsgSet.add (m : SignedMessage) : Act MsgSet NodeErr Bool := do
  let nonce := m.message.nonce
  modify fun ms =>
    if ms.msgs = ∅ ∨ nonce ≥ ms.nextNonce then { ms with nextNonce := nonce + 1 } else ms
  let ms ← get
  match ms.msgs.lookup nonce with
  | none => pure ()
  | some exms => ofExcept (checkReplace mpe exms m)
  modify fun ms => { ms with msgs := ms.msgs.insert nonce m }
  pure (ms.msgs.lookup nonce).isNone

def cacheBlsSig (m : SignedMessage) (mp : MessagePool) : MessagePool :=
  if m.signature.type = .bls then
    { mp with blsSigCache :=
        Function.update mp.blsSigCache (m.cid mpe.codec) (some m.signature) }
  else mp

def MessagePool.grow (mp : MessagePool) : MessagePool :=
  { mp with
    currentSize := mp.currentSize + 1
    pruneTrigger := mp.pruneTrigger || decide (mp.currentSize + 1 > mpe.maxTxPoolSizeHi) }

/-- The part of `addLocked` after the caching of the signature. -/
def addPending (m : SignedMessage) : Act MessagePool NodeErr Unit := do
  if m.message.gasLimit > blockGasLimit then
    fail (.new "given message has too high of a gas limit")
  else
    ofExcept (mpe.putMessage (m.toChainMsg mpe.codec))
    ofExcept (mpe.putMessage (m.message.toChainMsg mpe.codec))
    -- the set is in the map, if as an empty one, before the message is added to it
    let incr ← (MsgSet.add mpe m).zoom
      (fun mp => (mp.pending.lookup m.message.fromAddr).getD newMsgSet)
      fun mp mset => { mp with pending := mp.pending.insert m.message.fromAddr mset }
    if incr then modify (·.grow mpe) else pure ()

def addLocked (m : SignedMessage) : Act MessagePool NodeErr Unit := do
  modify (cacheBlsSig mpe m)
  addPending mpe m

def sigCacheKey (m : SignedMessage) : Except NodeErr Bytes :=
  match m.signature.type with
  | .bls =>
    if m.signature.data.length < 90 then .error (.new "bls signature too short")
    else .ok ((m.cid mpe.codec).bytes ++ m.signature.data.drop 64)
  | .secp256k1 => .ok (m.cid mpe.codec).bytes
  | .unknown _ => .error (.new "unrecognized signature type: %d")

def Verifies (m : SignedMessage) : Prop :=
  mpe.crypto.verify m.signature m.message.fromAddr (mpe.codec.messageCid m.message) = true
deriving Decidable

def verifyMsgSig (m : SignedMessage) : Act MessagePool NodeErr Unit := do
  let sck ← ofExcept (sigCacheKey mpe m)
  let mp ← get
  if sck ∈ mp.sigValCache then pure ()
  else if Verifies mpe m then
    modify fun mp => { mp with sigValCache := sck :: mp.sigValCache }
  else fail (.new "invalid signature")

def recoverSig (mp : MessagePool) (msg : Message) : Option SignedMessage :=
  (mp.blsSigCache (mpe.codec.messageCid msg)).map fun sig => ⟨msg, sig⟩

/-! ## What the functions do to the caches -/

variable {mpe}

def SameCaches (mp mp' : MessagePool) : Prop :=
  mp'.blsSigCache = mp.blsSigCache ∧ mp'.sigValCache = mp.sigValCache

instance : Std.Refl SameCaches := ⟨fun _ => ⟨rfl, rfl⟩⟩

instance : IsTrans MessagePool SameCaches :=
  ⟨fun _ _ _ h h' => ⟨h'.1.trans h.1, h'.2.trans h.2⟩⟩

lemma addPending_sameCaches (m : SignedMessage) : (addPending mpe m).Keeps SameCaches := by
  unfold addPending
  refine .ite (fun _ => .fail _) fun _ => ?_
  refine .bind (.ofExcept _) fun _ => .bind (.ofExcept _) fun _ => ?_
  have hset : ((MsgSet.add mpe m).zoom
      (fun mp : MessagePool => (mp.pending.lookup m.message.fromAddr).getD newMsgSet)
      fun mp mset => { mp with pending := mp.pending.insert m.message.fromAddr mset }).Keeps
        SameCaches := fun _ => ⟨rfl, rfl⟩
  refine .bind hset fun incr => .ite (fun _ => .modify fun _ => ⟨rfl, rfl⟩) fun _ => .pure _

lemma addLocked_sameCaches (m : SignedMessage) (mp : MessagePool) :
    SameCaches (cacheBlsSig mpe m mp) (addLocked mpe m mp).2 := by
  rw [addLocked, bind_of_ok (modify_apply _ mp)]
  exact addPending_sameCaches m (cacheBlsSig mpe m mp)

lemma verifyMsgSig_ok {m : SignedMessage} {mp : MessagePool}
    (h : (verifyMsgSig mpe m mp).1 = .ok ()) :
    ∃ sck, sigCacheKey mpe m = .ok sck ∧ (sck ∈ mp.sigValCache ∨ Verifies mpe m) := by
  obtain ⟨mp1, hrun⟩ : ∃ mp1, verifyMsgSig mpe m mp = (.ok (), mp1) := ⟨_, Prod.ext h rfl⟩
  obtain ⟨sck, mp', hkey, h1⟩ := bind_eq_ok hrun
  obtain ⟨hsck, rfl⟩ := ofExcept_eq_ok hkey
  rw [bind_of_ok (get_apply mp')] at h1
  refine ⟨sck, hsck, ?_⟩
  split_ifs at h1 with hcached hverifies <;> simp_all

lemma verifyMsgSig_caches (m : SignedMessage) (mp : MessagePool) :
    (verifyMsgSig mpe m mp).2.blsSigCache = mp.blsSigCache ∧
      ∀ key ∈ (verifyMsgSig mpe m mp).2.sigValCache,
        key ∈ mp.sigValCache ∨ sigCacheKey mpe m = .ok key ∧ Verifies mpe m := by
  rcases hkey : sigCacheKey mpe m with err | sck
  · have hrun : verifyMsgSig mpe m mp = (.error err, mp) := by
      rw [verifyMsgSig, hkey]
      rfl
    rw [hrun]
    exact ⟨rfl, fun key hmem => Or.inl hmem⟩
  · have hrun : verifyMsgSig mpe m mp = _ := bind_of_ok (ofExcept_of_ok hkey mp)
    rw [hrun, bind_of_ok (get_apply mp)]
    split_ifs with hcached hverifies
    · exact ⟨rfl, fun key hmem => Or.inl hmem⟩
    · refine ⟨rfl, fun key hmem => ?_⟩
      rcases List.mem_cons.mp hmem with rfl | hold
      · exact Or.inr ⟨rfl, hverifies⟩
      · exact Or.inl hold
    · exact ⟨rfl, fun key hmem => Or.inl hmem⟩

end Lotus
