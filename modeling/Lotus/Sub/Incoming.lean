import Lotus.Chain.Mining

/-!
# Blocks from gossip

`BlockValidator` of `chain/sub/incoming.go`, and `CheckBlockSignature` of `lib/sigs/sigs.go` with
the flag that it sets on a header.
-/

namespace Lotus

open StateTree Check Act Function

/-- A `BlockHeader` in memory. -/
structure HeaderObject where
  header : BlockHeader
  /-- true if the signature has been validated -/
  validated : Bool
deriving DecidableEq

def HeaderObject.decoded (h : BlockHeader) : HeaderObject := ⟨h, false⟩

/-- `Verify`, of a signature over the signing bytes of a header under an address. -/
abbrev SigVerifier := Signature → Address → BlockHeader → Bool

def SigVerifies (verify : SigVerifier) (h : BlockHeader) (worker : Address) : Prop :=
  ∃ sig, h.blockSig = some sig ∧ verify sig worker h = true

def checkBlockSignature (verify : SigVerifier) (worker : Address) :
    Act HeaderObject NodeErr Unit := do
  let blk ← get
  if blk.validated then pure ()
  else
    match blk.header.blockSig with
    | none => fail (.new "block signature not present")
    | some sig =>
      if verify sig worker blk.header then
        modify fun blk => { blk with validated := true }
      else fail (.new "signature did not verify")

/-! ## `BlockValidator` -/

structure BlockMsg where
  header : BlockHeader
  blsMessages : List Cid
  secpkMessages : List Cid

/-- `pubsub.ValidationResult`, with the data that a message is handed on with if it is accepted. -/
inductive ValidationResult where
  | accept (blk : HeaderObject) (blsMessages secpkMessages : List Cid)
  | reject
  | ignore
deriving DecidableEq

abbrev PeerID := ℕ

structure BlockValidator where
  peers : PeerID → Option ℕ
  blacklisted : List PeerID
  recvBlocks : Cid → Option ℕ
  keycache : Address → Option Address

def newBlockValidator : BlockValidator := ⟨fun _ => none, [], fun _ => none, fun _ => none⟩

/-- The validator and what it reads: the heaviest tipset and the skip cache of the chain store. -/
structure GossipState where
  bv : BlockValidator
  head : TipSet
  skipCache : SkipCache

def startGossip (head : TipSet) (skipCache : SkipCache) : GossipState :=
  ⟨newBlockValidator, head, skipCache⟩

namespace BlockValidator

def killThresh : ℕ := 10

def flagPeer (p : PeerID) (bv : BlockValidator) : BlockValidator :=
  match bv.peers p with
  | none => { bv with peers := update bv.peers p (some 1) }
  | some v =>
    if v ≥ killThresh then { bv with blacklisted := bv.blacklisted ++ [p] }
    else { bv with peers := update bv.peers p (some (v + 1)) }

def addReceipt (c : Cid) : Act BlockValidator NodeErr ℕ := do
  let bv ← get
  let n := (bv.recvBlocks c).getD 0
  modify fun bv => { bv with recvBlocks := update bv.recvBlocks c (some (n + 1)) }
  pure n

end BlockValidator

open BlockValidator

def GossipState.onValidator {α : Type} (x : Act BlockValidator NodeErr α) :
    Act GossipState NodeErr α :=
  x.zoom GossipState.bv fun s bv => { s with bv }

open GossipState

variable (syncer : Syncer)

/-- The worker of a miner in the state of a tipset, as a key: what `checkPowerAndGetWorkerKey` looks
up when it has no key cached. -/
def freshWorkerKey (ts : TipSet) (maddr : Address) : Except NodeErr Address := do
  let (st, _) ← tipSetState syncer.sm ts
  match (getActor syncer.sm.env.init maddr (loadStateTree st)).1 with
  | .error err => .error (.tree err)
  | .ok act =>
    match syncer.states.minerWorker act.head with
    | none => .error (.new "failed to decode miner state")
    | some worker => resolveToKeyAddressAt syncer ts worker

/-- The cached key of a miner, or the one that is looked up and cached. -/
def getWorkerKey (maddr : Address) : Act GossipState NodeErr Address := do
  let s ← get
  match s.bv.keycache maddr with
  | some key => pure key
  | none =>
    let key ← ofExcept (freshWorkerKey syncer s.head maddr)
    modify fun s =>
      { s with bv := { s.bv with keycache := update s.bv.keycache maddr (some key) } }
    pure key

def checkPowerAndGetWorkerKey (bh : BlockHeader) : Act GossipState NodeErr Address := do
  let key ← getWorkerKey syncer bh.miner
  let s ← get
  let lbts ← (getLookbackTipSetForRound syncer.sm.cs s.head bh.height).zoom GossipState.skipCache
    fun s skipCache => { s with skipCache }
  let hmp ← ofExcept (minerHasMinPower syncer bh.miner lbts)
  if !hmp then fail (.new "incoming block's miner does not have minimum power")
  else pure key

/-- `isChainNearSynced`, at a time in nanoseconds. The timestamp it is compared with is in
seconds. -/
def isChainNearSynced (ts : TipSet) (nowNano : UInt64) : Bool :=
  ts.minTimestamp > nowNano - 21600000000000

def validateMsgMeta (msg : BlockMsg) : Except NodeErr Unit :=
  require (msg.header.messages = ⟨msg.blsMessages, msg.secpkMessages⟩)
    (.new "messages didn't match root cid in header")

def recordFailure (pid : PeerID) : Act GossipState NodeErr ValidationResult := do
  modify fun s => { s with bv := s.bv.flagPeer pid }
  pure .reject

/-- `Validate` from the check of the signature on. Reading the win count of a missing election proof
panics. -/
def validateSigned (pid : PeerID) (msg : BlockMsg) (key : Address) :
    Act GossipState NodeErr ValidationResult :=
  match checkBlockSignature syncer.proofs.verifyBlockSig key (.decoded msg.header) with
  | (.error _, _) => recordFailure pid
  | (.ok (), blk) =>
    match blk.header.electionProof with
    | none => fail (.new "panic")
    | some proof =>
      if proof.winCount < 1 then recordFailure pid
      else do
        let n ← onValidator (addReceipt (syncer.sm.cs.hashing.headerCid blk.header))
        if n > 0 then pure .ignore else pure (.accept blk msg.blsMessages msg.secpkMessages)

/-- `Validate`, of a message from a peer; `none` is a message that does not decode. -/
def validate (nowNano : UInt64) (pid : PeerID) :
    Option BlockMsg → Act GossipState NodeErr ValidationResult
  | none => recordFailure pid
  | some msg =>
    if msg.blsMessages.length + msg.secpkMessages.length > blockMessageLimit then recordFailure pid
    else if msg.header.blockSig = none then recordFailure pid
    else
      match validateMsgMeta msg with
      | .error _ => recordFailure pid
      | .ok () => do
        match ← (checkPowerAndGetWorkerKey syncer msg.header).attempt with
        | .error _ =>
          let s ← get
          if isChainNearSynced s.head nowNano then recordFailure pid else pure .ignore
        | .ok key => validateSigned syncer pid msg key

end Lotus
