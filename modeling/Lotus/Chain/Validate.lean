import Lotus.Chain.ApplyBlocks
import Lotus.Chain.CheckMessages
import Lotus.Lib.Check

/-!
# Validation of blocks

`ValidateBlock` of `chain/sync.go`, with `ValidateBlockValues` of `chain/beacon/beacon.go` and the
state queries of `chain/stmgr/utils.go` it makes.
-/

namespace Lotus

open StateTree Check Act

structure RandomBeacon where
  verifyEntry : BeaconEntry → BeaconEntry → Except NodeErr Unit
  maxBeaconRoundForEpoch : Int64 → BeaconEntry → UInt64

structure DrandBeacon where
  interval : UInt64
  drandGenTime : UInt64
  filGenTime : UInt64
  filRoundTime : UInt64
  verifyBeacon : Bytes → BeaconEntry → Bool

/-- The methods of `DrandBeacon`. -/
def DrandBeacon.toRandomBeacon (db : DrandBeacon) : RandomBeacon where
  verifyEntry curr prev :=
    if prev.round = 0 then .ok ()
    else if db.verifyBeacon prev.data curr then .ok ()
    else .error (.new "invalid beacon entry")
  maxBeaconRoundForEpoch filEpoch _ :=
    (filEpoch.toUInt64 * db.filRoundTime + db.filGenTime - db.filRoundTime - db.drandGenTime) /
      db.interval

structure PowerState where
  /-- The quality adjusted power in the claim of a miner. -/
  claims : Address → Option ℤ
  totalQualityAdjPower : ℤ
  minerNominalPowerMeetsConsensusMinimum : Address → Except NodeErr Bool

structure ActorStates where
  powerState : Cid → Option PowerState
  /-- The worker address in the `MinerInfo` of a `miner.State`. -/
  minerWorker : Cid → Option Address

inductive DomainSeparationTag where
  | ticketProduction
  | electionProofProduction
  | winningPoStChallengeSeed
deriving DecidableEq, Repr

structure Proofs where
  /-- `address.IDFromAddress`; `none` is its error -/
  idFromAddress : Address → Option UInt64
  /-- `Address.MarshalCBOR` of a defined address -/
  marshalAddress : Address → Bytes
  drawRandomness : Bytes → DomainSeparationTag → Int64 → Bytes → Bytes
  verifyVRF : Address → Bytes → Bytes → Bool
  verifyBlockSig : Signature → Address → BlockHeader → Bool
  computeWinCount : Bytes → ℤ → ℤ → Int64
  sectorsForWinningPoSt : Hamt → Address → Bytes → Except NodeErr (List Bytes)
  verifyWinningPoSt : Bytes → List Bytes → List Bytes → UInt64 → Except NodeErr Bool

structure Syncer where
  sm : StateManager
  crypto : Crypto
  proofs : Proofs
  beacon : RandomBeacon
  states : ActorStates
  now : UInt64

/-- What validation changes: the blocks that were validated, and the skip cache. -/
structure SyncState where
  validated : List Cid
  skipCache : SkipCache

variable (syncer : Syncer)

/-! ## State queries -/

def loadActorStateRaw {α : Type} (decode : Cid → Option α) (addr : Address) (st : Hamt) :
    Except NodeErr α :=
  match (getActor syncer.sm.env.init addr (loadStateTree st)).1 with
  | .error err => .error (.wrap "get actor" (.tree err))
  | .ok act =>
    match decode act.head with
    | none => .error (.new "read actor head")
    | some state => .ok state

def loadPowerState (st : Hamt) : Except NodeErr PowerState :=
  loadActorStateRaw syncer syncer.states.powerState storagePowerActorAddr st

def minerIsValid (maddr : Address) (baseTs : TipSet) : Except NodeErr Unit := do
  let spast ← loadPowerState syncer baseTs.parentState
  require ((spast.claims maddr).isSome) (.new "miner isn't valid")

def resolveToKeyAddr (st : Hamt) (addr : Address) : Except NodeErr Address :=
  if addr.protocol = .bls ∨ addr.protocol = .secp256k1 then .ok addr
  else
    match (getActor syncer.sm.env.init addr (loadStateTree st)).1 with
    | .error _ => .error (.new "failed to find actor: %s")
    | .ok act =>
      if act.code ≠ syncer.sm.env.accountActorCodeID then
        .error (.new "address %s was not for an account actor")
      else
        match syncer.sm.env.accountState act.head with
        | none => .error (.new "failed to get account actor state for %s")
        | some key => .ok key

def getMinerWorkerRaw (st : Hamt) (maddr : Address) : Except NodeErr Address := do
  let worker ← (loadActorStateRaw syncer syncer.states.minerWorker maddr st).mapError
    (.wrap "(get sset) failed to load miner actor state")
  resolveToKeyAddr syncer st worker

def getPowerRaw (st : Hamt) (maddr : Address) : Except NodeErr (ℤ × ℤ) := do
  let ps ← (loadPowerState syncer st).mapError (.wrap "(get sset) failed to load power actor state")
  pure ((ps.claims maddr).getD 0, ps.totalQualityAdjPower)

def getMinerSlashed (ts : TipSet) (maddr : Address) : Except NodeErr Bool := do
  let _ ← (loadActorStateRaw syncer syncer.states.minerWorker maddr ts.parentState).mapError
    fun _ => NodeErr.new "(get miner slashed) failed to load miner actor state"
  let spas ← (loadPowerState syncer ts.parentState).mapError fun _ =>
    NodeErr.new "(get miner slashed) failed to load power actor state"
  pure (spas.claims maddr).isNone

def minerHasMinPower (addr : Address) (ts : TipSet) : Except NodeErr Bool := do
  let ps ← (loadPowerState syncer ts.parentState).mapError (.wrap "loading power actor state")
  ps.minerNominalPowerMeetsConsensusMinimum addr

/-! ## The checks -/

def blockSanityChecks (h : BlockHeader) : Except NodeErr Unit := do
  require (h.electionProof ≠ none) (.new "block cannot have nil election proof")
  require (h.ticket ≠ none) (.new "block cannot have nil ticket")
  require (h.blockSig ≠ none) (.new "block had nil signature")
  require (h.blsAggregate ≠ none) (.new "block had nil bls aggregate signature")

def allowableClockDriftSecs : UInt64 := 1

def ticketRandomnessLookback : Int64 := 1

def earliestTimestamp (baseTs : TipSet) (height : Int64) : UInt64 :=
  baseTs.minTimestamp +
    syncer.sm.cs.config.blockDelaySecs * (height - baseTs.height).toUInt64

def checkTimestamp (baseTs : TipSet) (h : BlockHeader) : Except NodeErr Unit := do
  require (h.timestamp ≤ syncer.now + allowableClockDriftSecs)
    (.wrap "block was from the future (now=%d, blk=%d)" (.new "temporal error"))
  require (earliestTimestamp syncer baseTs h.height ≤ h.timestamp)
    (.new ("block was generated too soon " ++
      "(h.ts:%d < base.mints:%d + BLOCK_DELAY:%d * deltaH:%d; diff %d)"))

/-- `Address.MarshalCBOR` -/
def marshalMiner (maddr : Address) : Except NodeErr Bytes :=
  if maddr = .undef then
    .error (.wrap "failed to marshal miner address to cbor"
      (.new "cannot marshal undefined address"))
  else .ok (syncer.proofs.marshalAddress maddr)

def beaconBase (h : BlockHeader) (prevBeacon : BeaconEntry) : BeaconEntry :=
  h.beaconEntries.getLast?.getD prevBeacon

def verifyElectionPoStVRF (worker : Address) (rand evrf : Bytes) : Except NodeErr Unit :=
  require (syncer.sm.cs.config.insecurePoStValidation ∨ syncer.proofs.verifyVRF worker rand evrf)
    (.new "vrf was invalid")

def tktsCheck (baseTs : TipSet) (h : BlockHeader) (prevBeacon : BeaconEntry) (waddr : Address)
    (ticket : Bytes) : Except NodeErr Unit := do
  let buf ← marshalMiner syncer h.miner
  let entropy :=
    if h.beaconEntries = [] then buf ++ (baseTs.minTicket syncer.sm.cs.hashing).getD [] else buf
  let vrfBase := syncer.proofs.drawRandomness (beaconBase h prevBeacon).data .ticketProduction
    (h.height - ticketRandomnessLookback) entropy
  (verifyElectionPoStVRF syncer waddr vrfBase ticket).mapError
    (.wrap "validating block tickets failed")

def blockSigCheck (h : BlockHeader) (waddr : Address) (sig : Signature) : Except NodeErr Unit :=
  require (syncer.proofs.verifyBlockSig sig waddr h) (.new "check block signature failed")

/-- The loop of `ValidateBlockValues` over the entries. -/
def verifyEntries (beacon : RandomBeacon) : List BeaconEntry → BeaconEntry → Except NodeErr Unit
  | [], _ => .ok ()
  | e :: es, prevEntry => do
    (beacon.verifyEntry e prevEntry).mapError (.wrap "beacon entry %d (%d - %x (%d)) was invalid")
    verifyEntries beacon es e

/-- `ValidateBlockValues`. The last of no entries is an index out of range. -/
def validateBlockValues (beacon : RandomBeacon) (height : Int64) (entries : List BeaconEntry)
    (prevEntry : BeaconEntry) : Except NodeErr Unit :=
  if beacon.maxBeaconRoundForEpoch height prevEntry = prevEntry.round then
    require (entries = []) (.new "expected not to have any beacon entries in this block, got %d")
  else
    match entries.getLast? with
    | none => .error (.new "panic")
    | some last => do
      require (last.round = beacon.maxBeaconRoundForEpoch height prevEntry)
        (.new "expected final beacon entry in block to be at round %d, got %d")
      verifyEntries beacon entries prevEntry

def beaconValuesCheck (h : BlockHeader) (prevBeacon : BeaconEntry) : Except NodeErr Unit :=
  if syncer.sm.cs.config.ignoreDrand then .ok ()
  else (validateBlockValues syncer.beacon h.height h.beaconEntries prevBeacon).mapError
    (.wrap "failed to validate blocks random beacon values")

def idFromAddress (addr : Address) : Except NodeErr UInt64 :=
  (syncer.proofs.idFromAddress addr).elim (.error (.new "cannot get id from non id address")) .ok

def verifyWinningPoStProof (h : BlockHeader) (prevBeacon : BeaconEntry) (lbst : Hamt) :
    Except NodeErr Unit :=
  if syncer.sm.cs.config.insecurePoStValidation then do
    require (h.winPoStProof ≠ []) (.new "[INSECURE-POST-VALIDATION] No winning post proof given")
    require (h.winPoStProof.head? = some "valid proof".toUTF8.toList)
      (.new "[INSECURE-POST-VALIDATION] winning post was invalid")
  else do
    let buf ← marshalMiner syncer h.miner
    let rand := syncer.proofs.drawRandomness (beaconBase h prevBeacon).data
      .winningPoStChallengeSeed h.height buf
    let mid ← (idFromAddress syncer h.miner).mapError
      (.wrap "failed to get ID from miner address %s")
    let sectors ← (syncer.proofs.sectorsForWinningPoSt lbst h.miner rand).mapError
      (.wrap "getting winning post sector set")
    let ok ← (syncer.proofs.verifyWinningPoSt rand h.winPoStProof sectors mid).mapError
      (.wrap "failed to verify election post")
    require (ok = true) (.new "winning post was invalid")

def winnerCheck (baseTs lbts : TipSet) (lbst : Hamt) (h : BlockHeader) (prevBeacon : BeaconEntry)
    (waddr : Address) (proof : ElectionProof) : Except NodeErr Unit := do
  require (1 ≤ proof.winCount) (.new "block is not claiming to be a winner")
  let hp ← (minerHasMinPower syncer h.miner lbts).mapError
    (.wrap "determining if miner has min power failed")
  require (hp = true) (.new "block's miner does not meet minimum power threshold")
  let buf ← marshalMiner syncer h.miner
  let vrfBase := syncer.proofs.drawRandomness (beaconBase h prevBeacon).data
    .electionProofProduction h.height buf
  (verifyElectionPoStVRF syncer waddr vrfBase proof.vrfProof).mapError
    (.wrap "validating block election proof failed")
  let slashed ← (getMinerSlashed syncer baseTs h.miner).mapError
    (.wrap "failed to check if block miner was slashed")
  require (slashed = false) (.new "received block was from slashed or invalid miner")
  let (mpow, tpow) ← (getPowerRaw syncer lbst h.miner).mapError (.wrap "failed getting power")
  require (proof.winCount = syncer.proofs.computeWinCount proof.vrfProof mpow tpow)
    (.new "miner claims wrong number of wins: miner: %d, computed: %d")

def msgsCheck (baseTs : TipSet) (stateroot : Hamt) (b : FullBlock) : Except NodeErr Unit :=
  (checkBlockMessages syncer.sm.env syncer.crypto syncer.sm.codec baseTs.height stateroot
    b).mapError (.wrap "block had invalid messages")

/-- The checks that are awaited. A header that passed `blockSanityChecks` has the parts that they
dereference. -/
def awaitedChecks (baseTs lbts : TipSet) (lbst stateroot : Hamt) (prevBeacon : BeaconEntry)
    (waddr : Address) (b : FullBlock) : List (Except NodeErr Unit) :=
  let h := b.header
  [minerIsValid syncer h.miner baseTs |>.mapError (.wrap "minerIsValid failed"),
    tktsCheck syncer baseTs h prevBeacon waddr (h.ticket.getD []),
    blockSigCheck syncer h waddr (h.blockSig.getD ⟨.unknown 0, []⟩),
    beaconValuesCheck syncer h prevBeacon,
    (verifyWinningPoStProof syncer h prevBeacon lbst).mapError (.wrap "invalid election post"),
    winnerCheck syncer baseTs lbts lbst h prevBeacon waddr (h.electionProof.getD ⟨0, []⟩),
    msgsCheck syncer baseTs stateroot b]

/-- `ValidateBlock`, once the parent and the lookback tipset are found. -/
def validateOver (baseTs lbts : TipSet) (b : FullBlock) : Except NodeErr Unit := do
  let h := b.header
  let (lbst, _) ← (tipSetState syncer.sm lbts).mapError
    (.wrap "failed to compute lookback tipset state")
  let prevBeacon ← (getLatestBeaconEntry syncer.sm.cs baseTs).mapError
    (.wrap "failed to get latest beacon entry")
  checkTimestamp syncer baseTs h
  let (stateroot, precp) ← (tipSetState syncer.sm baseTs).mapError
    (.wrap "get tipsetstate(%d, %s) failed")
  require (stateroot = h.parentStateRoot)
    (.new "parent state root did not match computed state (%s != %s)")
  require (precp = h.parentMessageReceipts)
    (.new "parent receipts root did not match computed value (%s != %s)")
  let waddr ← (getMinerWorkerRaw syncer lbst h.miner).mapError (.wrap "GetMinerWorkerRaw failed")
  collect .append none (awaitedChecks syncer baseTs lbts lbst stateroot prevBeacon waddr b)

def validateBlock (b : FullBlock) : Act SyncState NodeErr Unit := do
  let s ← get
  if syncer.sm.cs.hashing.headerCid b.header ∈ s.validated then pure ()
  else
    let h := b.header
    ofExcept ((blockSanityChecks h).mapError
      (.wrap "incoming header failed basic sanity checks"))
    let baseTs ← ofExcept ((loadTipSet syncer.sm.cs h.parents).mapError
      (.wrap "load parent tipset failed (%s)"))
    let lbts ← ((getLookbackTipSetForRound syncer.sm.cs baseTs h.height).zoom SyncState.skipCache
      fun s skipCache => { s with skipCache }).mapError
        (.wrap "failed to get lookback tipset for block")
    ofExcept (validateOver syncer baseTs lbts b)
    modify fun s => { s with validated := syncer.sm.cs.hashing.headerCid h :: s.validated }

variable {syncer}

/-- Given the parent and the lookback tipset, a block is accepted exactly if both states can be
computed, the header names the parent's, and every check passes. -/
lemma validateOver_ok_iff {baseTs lbts : TipSet} {b : FullBlock} :
    validateOver syncer baseTs lbts b = .ok () ↔ ∃ lbst lbrec prevBeacon waddr,
        tipSetState syncer.sm lbts = .ok (lbst, lbrec) ∧
        getLatestBeaconEntry syncer.sm.cs baseTs = .ok prevBeacon ∧
        checkTimestamp syncer baseTs b.header = .ok () ∧
        tipSetState syncer.sm baseTs =
          .ok (b.header.parentStateRoot, b.header.parentMessageReceipts) ∧
        getMinerWorkerRaw syncer lbst b.header.miner = .ok waddr ∧
        ∀ c ∈ awaitedChecks syncer baseTs lbts lbst b.header.parentStateRoot prevBeacon waddr b,
          c = .ok () := by
  unfold validateOver
  constructor
  · intro h
    obtain ⟨⟨lbst, lbrec⟩, hlbst, h1⟩ := bind_eq_ok.mp h
    obtain ⟨prevBeacon, hprev, h2⟩ := bind_eq_ok.mp h1
    obtain ⟨_, htime, h3⟩ := bind_eq_ok.mp h2
    obtain ⟨⟨stateroot, precp⟩, hstate, h4⟩ := bind_eq_ok.mp h3
    obtain ⟨_, hroot, h5⟩ := bind_eq_ok.mp h4
    obtain ⟨_, hprecp, h6⟩ := bind_eq_ok.mp h5
    obtain ⟨waddr, hworker, hchecks⟩ := bind_eq_ok.mp h6
    obtain rfl := require_eq_ok.mp hroot
    obtain rfl := require_eq_ok.mp hprecp
    exact ⟨lbst, lbrec, prevBeacon, waddr, mapError_eq_ok.mp hlbst, mapError_eq_ok.mp hprev, htime,
      mapError_eq_ok.mp hstate, mapError_eq_ok.mp hworker, collect_eq_ok.mp hchecks⟩
  · rintro ⟨lbst, lbrec, prevBeacon, waddr, hlbst, hprev, htime, hstate, hworker, hchecks⟩
    refine bind_eq_ok.mpr ⟨_, mapError_eq_ok.mpr hlbst, ?_⟩
    refine bind_eq_ok.mpr ⟨_, mapError_eq_ok.mpr hprev, ?_⟩
    refine bind_eq_ok.mpr ⟨_, htime, ?_⟩
    refine bind_eq_ok.mpr ⟨_, mapError_eq_ok.mpr hstate, ?_⟩
    refine bind_eq_ok.mpr ⟨(), require_eq_ok.mpr rfl, ?_⟩
    refine bind_eq_ok.mpr ⟨(), require_eq_ok.mpr rfl, ?_⟩
    refine bind_eq_ok.mpr ⟨_, mapError_eq_ok.mpr hworker, ?_⟩
    exact collect_eq_ok.mpr hchecks

/-- A block that was not validated before is accepted exactly if its parent and its lookback
tipset are found and the checks over them pass. -/
lemma validateBlock_ok_iff {b : FullBlock} {s : SyncState}
    (hnew : syncer.sm.cs.hashing.headerCid b.header ∉ s.validated) :
    (validateBlock syncer b s).1 = .ok () ↔ blockSanityChecks b.header = .ok () ∧ ∃ baseTs lbts,
        loadTipSet syncer.sm.cs b.header.parents = .ok baseTs ∧
        (getLookbackTipSetForRound syncer.sm.cs baseTs b.header.height s.skipCache).1 = .ok lbts ∧
        validateOver syncer baseTs lbts b = .ok () := by
  have hstart : validateBlock syncer b s = _ := bind_of_ok (get_apply s)
  rw [hstart, if_neg hnew]
  constructor
  · intro h
    obtain ⟨_, s1, hsanity, h1⟩ := bind_eq_ok (Prod.ext h rfl)
    obtain ⟨hsane, rfl⟩ := ofExcept_eq_ok hsanity
    obtain ⟨baseTs, s2, hload, h2⟩ := bind_eq_ok h1
    obtain ⟨hbase, rfl⟩ := ofExcept_eq_ok hload
    obtain ⟨lbts, s3, hlookback, h3⟩ := bind_eq_ok h2
    obtain ⟨_, s4, hover, -⟩ := bind_eq_ok h3
    have hfound := congrArg Prod.fst (mapError_eq_ok hlookback)
    exact ⟨mapError_eq_ok.mp hsane, baseTs, lbts, mapError_eq_ok.mp hbase, hfound,
      (ofExcept_eq_ok hover).1⟩
  · rintro ⟨hsanity, baseTs, lbts, hbase, hlookback, hover⟩
    have hfound : ((getLookbackTipSetForRound syncer.sm.cs baseTs b.header.height).zoom
        SyncState.skipCache fun s skipCache => { s with skipCache }) s =
          (.ok lbts, { s with skipCache := (getLookbackTipSetForRound syncer.sm.cs baseTs
            b.header.height s.skipCache).2 }) := Prod.ext hlookback rfl
    rw [bind_of_ok (ofExcept_of_ok (mapError_eq_ok.mpr hsanity) s),
      bind_of_ok (ofExcept_of_ok (mapError_eq_ok.mpr hbase) s),
      bind_of_ok (mapError_of_ok hfound), bind_of_ok (ofExcept_of_ok hover _)]
    rfl

def Accepted (syncer : Syncer) (b : FullBlock) : Prop :=
  ∃ s : SyncState, syncer.sm.cs.hashing.headerCid b.header ∉ s.validated ∧
    (validateBlock syncer b s).1 = .ok ()

lemma Accepted.messages {b : FullBlock} (h : Accepted syncer b) :
    ∃ baseTs, loadTipSet syncer.sm.cs b.header.parents = .ok baseTs ∧ tipSetState syncer.sm baseTs =
        .ok (b.header.parentStateRoot, b.header.parentMessageReceipts) ∧
      checkBlockMessages syncer.sm.env syncer.crypto syncer.sm.codec baseTs.height
        b.header.parentStateRoot b = .ok () := by
  obtain ⟨s, hnew, hvalid⟩ := h
  obtain ⟨-, baseTs, lbts, hbase, -, hover⟩ := (validateBlock_ok_iff hnew).mp hvalid
  obtain ⟨lbst, lbrec, prevBeacon, waddr, -, -, -, hstate, -, hchecks⟩ :=
    validateOver_ok_iff.mp hover
  refine ⟨baseTs, hbase, hstate, mapError_eq_ok.mp (hchecks (msgsCheck syncer baseTs _ b) ?_)⟩
  simp [awaitedChecks]

/-! ### A sample node

Two accounts, at 100 and 101, and two miners, at 1000 and 1001, over a genesis at time 1000. The
init actor knows a key of the first account. Every signature, VRF and proof is accepted. -/

lemma sampleKey_ne_undef : Address.bls [1] ≠ .undef := Address.bls_ne_undef [1]

def sampleInit : InitActor where
  resolveAddress _ addr :=
    match addr with
    | .bls [1] => .ok ⟨100, sampleKey_ne_undef⟩
    | _ => .error .actorNotFound
  mapAddressToNewID _ _ := .error (.other "no ID left")

def sampleChainEnv : Env where
  init := sampleInit
  accountActorCodeID := ⟨[1]⟩
  emptyObjectCid := ⟨[0]⟩
  isBuiltinActor _ := true
  isSingletonActor _ := false
  builtInCode code := if code = ⟨[2]⟩ then some [none, none, some fun _ => true] else none
  accountState _ := some (.bls [1])
  newActorAddress _ _ _ := .undef
  serializeAddress _ := []

def sampleState : Hamt :=
  [systemActorAddr, initActorAddr, rewardActorAddr, cronActorAddr, storagePowerActorAddr, .id 1000,
      .id 1001].foldl
    (fun root addr => root.insert addr ⟨⟨[2]⟩, ⟨[]⟩, 0, 0⟩)
    (((∅ : Hamt).insert (.id 100) ⟨⟨[1]⟩, ⟨[]⟩, 0, 10000000⟩).insert (.id 101)
      ⟨⟨[1]⟩, ⟨[]⟩, 0, 10000000⟩)

def sampleCodec : Codec where
  messageCid m := ⟨[(m.fromAddr = .id 100 : Bool).toUInt8, m.nonce.toUInt8,
    UInt8.ofNat ((m.value.getD 0).toNat)]⟩
  messageLength _ := 100
  signedCid sm := ⟨[sm.message.nonce.toUInt8]⟩
  signedLength _ := 200

def sampleHashing : Hashing where
  headerCid h := ⟨[h.height.toUInt64.toUInt8, (h.miner = .id 1000 : Bool).toUInt8,
    UInt8.ofNat h.parentWeight.toNat]⟩
  sum256 b := b

def sampleGenesis : BlockHeader where
  miner := systemActorAddr
  ticket := some [0]
  electionProof := some ⟨1, []⟩
  beaconEntries := [⟨32, []⟩]
  winPoStProof := []
  parents := []
  parentWeight := 0
  height := 0
  parentStateRoot := sampleState
  parentMessageReceipts := []
  messages := ⟨[], []⟩
  blsAggregate := none
  timestamp := 1000
  blockSig := none
  forkSignaling := 0

def TipSet.single (h : BlockHeader) : TipSet := ⟨h, [], by simp, by simp⟩

def sampleHeader (miner : Address) (msgs : List Message) : BlockHeader where
  miner := miner
  ticket := some [(miner = .id 1000 : Bool).toUInt8]
  electionProof := some ⟨1, []⟩
  beaconEntries := [⟨33, []⟩]
  winPoStProof := []
  parents := [sampleHashing.headerCid sampleGenesis]
  parentWeight := 0
  height := 1
  parentStateRoot := sampleState
  parentMessageReceipts := []
  messages := ⟨msgs.map sampleCodec.messageCid, []⟩
  blsAggregate := some ⟨.bls, []⟩
  timestamp := 1030
  blockSig := some ⟨.bls, []⟩
  forkSignaling := 0

def sampleEmpty (height : Int64) (parent : Cid) : FullBlock :=
  ⟨{ sampleHeader (.id 1000) [] with height, parents := [parent] }, [], [],
    FullBlock.no_messages_lt⟩

def sampleStore (blks : List FullBlock) : ChainStore where
  config := ⟨30, 5, false, false⟩
  hashing := sampleHashing
  getBlock c :=
    match (sampleGenesis :: blks.map (·.header)).find? (sampleHashing.headerCid · = c) with
    | some h => .ok h
    | none => .error (.new "block not found")
  messagesForBlock h :=
    match blks.find? (·.header = h) with
    | some b => .ok (b.blsMessages, b.secpkMessages)
    | none => .error (.new "messages not found")
  depth := 100

def sampleActors : List Address :=
  [systemActorAddr, initActorAddr, rewardActorAddr, cronActorAddr, storagePowerActorAddr, .id 100,
    .id 101, .id 1000, .id 1001]

def sampleStateManager (blks : List FullBlock) : StateManager where
  cs := sampleStore blks
  env := sampleChainEnv
  codec := sampleCodec
  behaviour _ _ _ := ⟨.abort .other, .validateImmediateCallerAcceptAny (.ret (.bytes []))⟩
  forksAtHeight _ := none
  serializeAward _ _ _ _ := .ok []
  flushOrder t := sampleActors.filterMap fun a => (t.top.actors.lookup a).map fun op => ⟨a, op⟩

def sampleDrand : DrandBeacon := ⟨30, 0, 1000, 30, fun _ _ => true⟩

def sampleProofs : Proofs where
  idFromAddress
    | .id n => some n
    | _ => none
  marshalAddress _ := []
  drawRandomness _ _ _ _ := []
  verifyVRF _ _ _ := true
  verifyBlockSig _ _ _ := true
  computeWinCount _ _ _ := 1
  sectorsForWinningPoSt _ _ _ := .ok []
  verifyWinningPoSt _ _ _ _ := .ok true

def sampleSyncer (blks : List FullBlock) : Syncer where
  sm := sampleStateManager blks
  crypto := ⟨fun _ _ _ => true, fun _ _ _ => true⟩
  proofs := sampleProofs
  beacon := sampleDrand.toRandomBeacon
  states := ⟨fun _ => some ⟨fun _ => some 1, 2, fun _ => .ok true⟩, fun _ => some (.bls [1])⟩
  now := 2000

def freshState : SyncState := ⟨[], fun _ => none⟩

end Lotus
