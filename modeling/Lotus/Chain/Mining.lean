import Lotus.Chain.Height
import Lotus.Chain.Weight

/-!
# Mining a block

`mineOne`, `computeTicket` and `createBlock` of `miner/miner.go`, `MinerGetBaseInfo` of
`chain/stmgr/utils.go`, `IsRoundWinner` and `ComputeVRF` of `chain/gen/gen.go`, and
`BeaconEntriesForBlock` of `chain/beacon/beacon.go`, over the node that the miner is connected to.
-/

namespace Lotus

open StateTree Check Act

structure MiningBaseInfo where
  minerPower : ℤ
  networkPower : ℤ
  sectors : List Bytes
  workerKey : Address
  prevBeaconEntry : BeaconEntry
  beaconEntries : List BeaconEntry
  hasMinPower : Bool

structure MiningBase where
  tipSet : TipSet
  nullRounds : Int64

/-- `Miner`, with what it calls that is defined elsewhere. -/
structure Miner where
  address : Address
  wallet : Wallet
  walletSign : Address → Bytes → Except NodeErr Signature
  beaconEntry : UInt64 → Except NodeErr BeaconEntry
  computeProof : List Bytes → Bytes → Except NodeErr (List Bytes)
  selectMessages : TipSet → Except NodeErr (List SignedMessage)

def blockMessageLimit : ℕ := 512

variable (syncer : Syncer) (m : Miner)

/-- The loop of `BeaconEntriesForBlock`, down to the round `prevRound`. It asks for no more than `n`
entries: a beacon answers with the round it is asked for. -/
def fetchEntries (prevRound : UInt64) :
    ℕ → UInt64 → List BeaconEntry → Except NodeErr (List BeaconEntry)
  | n, cur, out =>
    if cur > prevRound then
      match n with
      | 0 => .error (.new "beacon entry for another round")
      | n + 1 => do
        let entry ← (m.beaconEntry cur).mapError
          (.wrap "beacon entry request returned error")
        fetchEntries prevRound n (entry.round - 1) (entry :: out)
    else .ok out

def beaconEntriesForBlock (round : Int64) (prev : BeaconEntry) :
    Except NodeErr (List BeaconEntry) :=
  let maxRound := syncer.beacon.maxBeaconRoundForEpoch round prev
  if maxRound = prev.round then .ok []
  else
    let prevRound := if prev.round = 0 then maxRound - 1 else prev.round
    fetchEntries m prevRound (maxRound - prevRound).toNat maxRound []

def resolveToKeyAddressAt (ts : TipSet) (addr : Address) : Except NodeErr Address :=
  match addr.protocol with
  | .bls | .secp256k1 => .ok addr
  | .actor => .error (.new "cannot resolve actor address to key address")
  | .id | .unknown => do
    let (st, _) ← (tipSetState syncer.sm ts).mapError
      (.wrap "resolve address failed to get tipset state")
    resolveToKeyAddr syncer st addr

/-- `GetLatestBeaconEntry`, with the empty entry where drand is ignored. -/
def prevBeaconEntry (ts : TipSet) : Except NodeErr BeaconEntry :=
  match getLatestBeaconEntry syncer.sm.cs ts with
  | .ok prev => .ok prev
  | .error err =>
    if syncer.sm.cs.config.ignoreDrand then .ok ⟨0, []⟩
    else .error (.wrap "failed to get latest beacon entry" err)

/-- `MinerGetBaseInfo`, once the tipset, the beacon entries and the lookback tipset are found. -/
def baseInfoOver (ts lbts : TipSet) (round : Int64) (maddr : Address) (prev : BeaconEntry)
    (entries : List BeaconEntry) : Except NodeErr (Option MiningBaseInfo) := do
  let rbase := entries.getLast?.getD prev
  let (lbst, _) ← tipSetState syncer.sm lbts
  let infoWorker ← loadActorStateRaw syncer syncer.states.minerWorker maddr lbst
  let buf ← marshalMiner syncer maddr
  let prand := syncer.proofs.drawRandomness rbase.data .winningPoStChallengeSeed round buf
  let sectors ← (syncer.proofs.sectorsForWinningPoSt lbst maddr prand).mapError
    (.wrap "getting wpost proving set")
  if sectors = [] then pure none
  else
    let (mpow, tpow) ← (getPowerRaw syncer lbst maddr).mapError (.wrap "failed to get power")
    let worker ← (resolveToKeyAddressAt syncer ts infoWorker).mapError
      (.wrap "resolving worker address")
    let hmp ← (minerHasMinPower syncer maddr lbts).mapError
      (.wrap "determining if miner has min power failed")
    pure (some
      { minerPower := mpow
        networkPower := tpow
        sectors
        workerKey := worker
        prevBeaconEntry := prev
        beaconEntries := entries
        hasMinPower := hmp })

def minerGetBaseInfo (tsk : List Cid) (round : Int64) (maddr : Address) :
    Act SkipCache NodeErr (Option MiningBaseInfo) := do
  let ts ← ofExcept ((loadTipSet syncer.sm.cs tsk).mapError
    (.wrap "failed to load tipset for mining base"))
  let prev ← ofExcept (prevBeaconEntry syncer ts)
  let entries ← ofExcept (beaconEntriesForBlock syncer m round prev)
  let lbts ← (getLookbackTipSetForRound syncer.sm.cs ts round).mapError
    (.wrap "getting lookback miner actor state")
  ofExcept (baseInfoOver syncer ts lbts round maddr prev entries)

/-! ## The ticket and the election -/

def computeVRF (worker : Address) (sigInput : Bytes) : Except NodeErr Bytes := do
  let sig ← m.walletSign worker sigInput
  if sig.type ≠ .bls then .error (.new "miner worker address was not a BLS key")
  else pure sig.data

def stateMinerInfo (ts : TipSet) (maddr : Address) : Except NodeErr Address :=
  (loadActorStateRaw syncer syncer.states.minerWorker maddr ts.parentState).mapError
    (.wrap "(get ssize) failed to load miner actor state")

def computeTicket (head : TipSet) (brand : BeaconEntry) (base : MiningBase)
    (haveNewEntries : Bool) : Except NodeErr Bytes := do
  let infoWorker ← stateMinerInfo syncer head m.address
  let worker ← resolveToKeyAddressAt syncer head infoWorker
  let buf ← marshalMiner syncer m.address
  let entropy :=
    if !haveNewEntries then buf ++ (base.tipSet.minTicket syncer.sm.cs.hashing).getD [] else buf
  let input := syncer.proofs.drawRandomness brand.data .ticketProduction
    (base.tipSet.height + base.nullRounds + 1 - ticketRandomnessLookback) entropy
  computeVRF m worker input

def isRoundWinner (round : Int64) (brand : BeaconEntry) (mbi : MiningBaseInfo) :
    Except NodeErr (Option ElectionProof) := do
  let buf ← marshalMiner syncer m.address
  let electionRand := syncer.proofs.drawRandomness brand.data .electionProofProduction round buf
  let vrfout ← (computeVRF m mbi.workerKey electionRand).mapError (.wrap "failed to compute VRF")
  let j := syncer.proofs.computeWinCount vrfout mbi.minerPower mbi.networkPower
  if j < 1 then pure none else pure (some ⟨j, vrfout⟩)

def createBlock (base : MiningBase) (ticket : Bytes) (eproof : ElectionProof)
    (bvals : List BeaconEntry) (wpostProof : List Bytes) : Except NodeErr FullBlock := do
  let msgs ← (m.selectMessages base.tipSet).mapError (.wrap "message filtering failed")
  minerCreateBlock syncer m.wallet
    { miner := m.address
      parents := base.tipSet.cids syncer.sm.cs.hashing
      ticket := some ticket
      eproof := some eproof
      beaconValues := bvals
      messages := msgs.take blockMessageLimit
      epoch := base.tipSet.height + base.nullRounds + 1
      timestamp := base.tipSet.minTimestamp +
        syncer.sm.cs.config.blockDelaySecs * (base.nullRounds.toUInt64 + 1)
      winningPoStProof := wpostProof
      length_lt := by
        have hlimit : blockMessageLimit < 2 ^ 63 := by decide
        exact lt_of_le_of_lt (List.length_take_le _ _) hlimit }

/-- `mineOne`, once the base info is there. -/
def mineOver (head : TipSet) (base : MiningBase) (mbi : MiningBaseInfo) :
    Except NodeErr (Option FullBlock) := do
  let round := base.tipSet.height + base.nullRounds + 1
  let rbase := mbi.beaconEntries.getLast?.getD mbi.prevBeaconEntry
  let ticket ← (computeTicket syncer m head rbase base (mbi.beaconEntries ≠ [])).mapError
    (.wrap "scratching ticket failed")
  match ← (isRoundWinner syncer m round rbase mbi).mapError
    (.wrap "failed to check if we win next round") with
  | none => pure none
  | some winner =>
    let buf ← marshalMiner syncer m.address
    let prand := syncer.proofs.drawRandomness rbase.data .winningPoStChallengeSeed round buf
    let postProof ← (m.computeProof mbi.sectors prand).mapError
      (.wrap "failed to compute winning post proof")
    let b ← (createBlock syncer m base ticket winner mbi.beaconEntries postProof).mapError
      (.wrap "failed to create block")
    pure (some b)

def mineOne (head : TipSet) (base : MiningBase) : Act SkipCache NodeErr (Option FullBlock) := do
  let round := base.tipSet.height + base.nullRounds + 1
  match ← (minerGetBaseInfo syncer m (base.tipSet.cids syncer.sm.cs.hashing) round
    m.address).mapError (.wrap "failed to get mining base info") with
  | none => pure none
  | some mbi =>
    if !mbi.hasMinPower then pure none else ofExcept (mineOver syncer m head base mbi)

/-! ## What a mined block is made of -/

structure BlockKeys where
  ticket : Address
  election : Address
  block : Address

/-- The input of the VRF for the ticket, as `tktsCheck` draws it. -/
def ticketInput (baseTs : TipSet) (h : BlockHeader) (prevBeacon : BeaconEntry) : Bytes :=
  syncer.proofs.drawRandomness (beaconBase h prevBeacon).data .ticketProduction
    (h.height - ticketRandomnessLookback)
    (if h.beaconEntries = [] then
      syncer.proofs.marshalAddress h.miner ++ (baseTs.minTicket syncer.sm.cs.hashing).getD []
    else syncer.proofs.marshalAddress h.miner)

/-- The input of the VRF for the election proof, as `winnerCheck` draws it. -/
def electionInput (h : BlockHeader) (prevBeacon : BeaconEntry) : Bytes :=
  syncer.proofs.drawRandomness (beaconBase h prevBeacon).data .electionProofProduction h.height
    (syncer.proofs.marshalAddress h.miner)

/-- The wallet of the miner made the ticket, the election proof and the signature of the block with
these keys, over what `ValidateBlock` verifies them over. -/
structure MadeWith (baseTs : TipSet) (prevBeacon : BeaconEntry) (h : BlockHeader)
    (k : BlockKeys) : Prop where
  ticket : ∃ vrf, computeVRF m k.ticket (ticketInput syncer baseTs h prevBeacon) = .ok vrf ∧
    h.ticket = some vrf
  election : ∃ proof, computeVRF m k.election (electionInput syncer h prevBeacon) =
    .ok proof.vrfProof ∧ h.electionProof = some proof
  block : ∃ sig, m.wallet.sign k.block { h with blockSig := none } = .ok sig ∧
    h.blockSig = some sig

/-- The worker address in the `MinerInfo` of a miner. -/
def infoWorker (st : Hamt) (maddr : Address) : Except NodeErr Address :=
  loadActorStateRaw syncer syncer.states.minerWorker maddr st

structure FindsKeys (head base : TipSet) (st lbst : Hamt) (k : BlockKeys) : Prop where
  ticket : ∃ w, infoWorker syncer head.parentState m.address = .ok w ∧
    resolveToKeyAddressAt syncer head w = .ok k.ticket
  election : ∃ w, infoWorker syncer lbst m.address = .ok w ∧
    resolveToKeyAddressAt syncer base w = .ok k.election
  block : ∃ worker, getMinerWorkerRaw syncer st m.address = .ok worker ∧
    resolveToKeyAddr syncer st worker = .ok k.block

variable {syncer m}

variable {b : FullBlock}

variable {base : MiningBase} {head : TipSet}

lemma computeTicket_ok {brand : BeaconEntry} {new : Bool} {ticket : Bytes}
    (h : computeTicket syncer m head brand base new = .ok ticket) :
    ∃ w k, infoWorker syncer head.parentState m.address = .ok w ∧
      resolveToKeyAddressAt syncer head w = .ok k ∧
      computeVRF m k (syncer.proofs.drawRandomness brand.data .ticketProduction
        (base.tipSet.height + base.nullRounds + 1 - ticketRandomnessLookback)
        (if !new then syncer.proofs.marshalAddress m.address ++
          (base.tipSet.minTicket syncer.sm.cs.hashing).getD []
        else syncer.proofs.marshalAddress m.address)) = .ok ticket := by
  obtain ⟨w, hw, h1⟩ := bind_eq_ok.mp h
  obtain ⟨k, hk, h2⟩ := bind_eq_ok.mp h1
  obtain ⟨buf, hbuf, h3⟩ := bind_eq_ok.mp h2
  obtain ⟨-, rfl⟩ := marshalMiner_ok_iff.mp hbuf
  exact ⟨w, k, mapError_eq_ok.mp hw, hk, h3⟩

variable {mbi : MiningBaseInfo}

lemma isRoundWinner_ok {round : Int64} {brand : BeaconEntry} {winner : ElectionProof}
    (h : isRoundWinner syncer m round brand mbi = .ok (some winner)) :
    computeVRF m mbi.workerKey (syncer.proofs.drawRandomness brand.data .electionProofProduction
      round (syncer.proofs.marshalAddress m.address)) = .ok winner.vrfProof := by
  obtain ⟨buf, hbuf, h1⟩ := bind_eq_ok.mp h
  obtain ⟨-, rfl⟩ := marshalMiner_ok_iff.mp hbuf
  obtain ⟨vrfout, hvrf, h2⟩ := bind_eq_ok.mp h1
  simp only at h2
  split_ifs at h2
  · cases h2
  · cases h2
    exact mapError_eq_ok.mp hvrf

lemma baseInfoOver_ok {ts lbts : TipSet} {round : Int64} {maddr : Address} {prev : BeaconEntry}
    {entries : List BeaconEntry}
    (h : baseInfoOver syncer ts lbts round maddr prev entries = .ok (some mbi)) :
    ∃ lbst lbrec w, tipSetState syncer.sm lbts = .ok (lbst, lbrec) ∧
      infoWorker syncer lbst maddr = .ok w ∧
      resolveToKeyAddressAt syncer ts w = .ok mbi.workerKey ∧
      mbi.prevBeaconEntry = prev ∧ mbi.beaconEntries = entries := by
  obtain ⟨⟨lbst, lbrec⟩, hlbst, h1⟩ := bind_eq_ok.mp h
  obtain ⟨w, hw, h2⟩ := bind_eq_ok.mp h1
  obtain ⟨buf, -, h3⟩ := bind_eq_ok.mp h2
  obtain ⟨sectors, -, h4⟩ := bind_eq_ok.mp h3
  split_ifs at h4
  · cases h4
  obtain ⟨⟨mpow, tpow⟩, -, h5⟩ := bind_eq_ok.mp h4
  obtain ⟨worker, hworker, h6⟩ := bind_eq_ok.mp h5
  obtain ⟨hmp, -, h7⟩ := bind_eq_ok.mp h6
  cases h7
  exact ⟨lbst, lbrec, w, hlbst, hw, mapError_eq_ok.mp hworker, rfl, rfl⟩

lemma mineOver_ok (h : mineOver syncer m head base mbi = .ok (some b)) : ∃ ticket winner postProof,
      computeTicket syncer m head (mbi.beaconEntries.getLast?.getD mbi.prevBeaconEntry) base
        (mbi.beaconEntries ≠ []) = .ok ticket ∧
      isRoundWinner syncer m (base.tipSet.height + base.nullRounds + 1)
        (mbi.beaconEntries.getLast?.getD mbi.prevBeaconEntry) mbi = .ok (some winner) ∧
      createBlock syncer m base ticket winner mbi.beaconEntries postProof = .ok b := by
  obtain ⟨ticket, hticket, h1⟩ := bind_eq_ok.mp h
  obtain ⟨winner, hwinner, h2⟩ := bind_eq_ok.mp h1
  cases winner with
  | none => cases h2
  | some winner =>
    obtain ⟨buf, -, h3⟩ := bind_eq_ok.mp h2
    obtain ⟨postProof, -, h4⟩ := bind_eq_ok.mp h3
    obtain ⟨b', hb', h5⟩ := bind_eq_ok.mp h4
    cases h5
    exact ⟨ticket, winner, postProof, mapError_eq_ok.mp hticket, mapError_eq_ok.mp hwinner,
      mapError_eq_ok.mp hb'⟩

lemma mineOne_ok {cache cache' : SkipCache}
    (h : mineOne syncer m head base cache = (.ok (some b), cache')) :
    ∃ ts prev entries lbts mbi,
      loadTipSet syncer.sm.cs (base.tipSet.cids syncer.sm.cs.hashing) = .ok ts ∧
      prevBeaconEntry syncer ts = .ok prev ∧
      (getLookbackTipSetForRound syncer.sm.cs ts (base.tipSet.height + base.nullRounds + 1)
        cache).1 = .ok lbts ∧
      baseInfoOver syncer ts lbts (base.tipSet.height + base.nullRounds + 1) m.address prev
        entries = .ok (some mbi) ∧
      mineOver syncer m head base mbi = .ok (some b) := by
  obtain ⟨mbi, c1, hinfo, h1⟩ := bind_eq_ok h
  cases mbi with
  | none => cases h1
  | some mbi =>
    have hmine : mineOver syncer m head base mbi = .ok (some b) := by
      simp only at h1
      split_ifs at h1 <;> simp_all
    obtain ⟨ts, c2, hts, h2⟩ := bind_eq_ok (mapError_eq_ok hinfo)
    obtain ⟨hload, rfl⟩ := ofExcept_eq_ok hts
    obtain ⟨prev, c3, hentry, h3⟩ := bind_eq_ok h2
    obtain ⟨hprev, rfl⟩ := ofExcept_eq_ok hentry
    obtain ⟨entries, c4, hentries, h4⟩ := bind_eq_ok h3
    obtain ⟨-, rfl⟩ := ofExcept_eq_ok hentries
    obtain ⟨lbts, c5, hlookback, h5⟩ := bind_eq_ok h4
    exact ⟨ts, prev, entries, lbts, mbi, mapError_eq_ok.mp hload, hprev,
      congrArg Prod.fst (mapError_eq_ok hlookback), (ofExcept_eq_ok h5).1, hmine⟩

lemma mineOne_keys {cache cache' : SkipCache}
    (hstored : loadTipSet syncer.sm.cs (base.tipSet.cids syncer.sm.cs.hashing) = .ok base.tipSet)
    (h : mineOne syncer m head base cache = (.ok (some b), cache')) :
    ∃ prev lbts lbst lbrec k, prevBeaconEntry syncer base.tipSet = .ok prev ∧
      (getLookbackTipSetForRound syncer.sm.cs base.tipSet b.header.height cache).1 = .ok lbts ∧
      tipSetState syncer.sm lbts = .ok (lbst, lbrec) ∧
      tipSetState syncer.sm base.tipSet =
        .ok (b.header.parentStateRoot, b.header.parentMessageReceipts) ∧
      b.header.miner = m.address ∧ b.header.parents = base.tipSet.cids syncer.sm.cs.hashing ∧
      FindsKeys syncer m head base.tipSet b.header.parentStateRoot lbst k ∧
      MadeWith syncer m base.tipSet prev b.header k := by
  obtain ⟨ts, prev, entries, lbts, mbi, hload, hprev, hlookback, hinfo, hmine⟩ := mineOne_ok h
  rw [hstored] at hload
  cases hload
  obtain ⟨lbst, lbrec, w, hlbst, hw, hkey, rfl, rfl⟩ := baseInfoOver_ok hinfo
  obtain ⟨ticket, winner, postProof, hticket, hwinner, hcreate⟩ := mineOver_ok hmine
  obtain ⟨msgs, -, hblock⟩ := bind_eq_ok.mp hcreate
  obtain ⟨pts, hpts, hstate, ⟨worker, waddr, sig, hworker, hwaddr, hsig, hblockSig⟩, hminer,
    hparents, hbticket, hbproof, hbeacon, hheight, -⟩ := minerCreateBlock_ok hblock
  obtain ⟨wt, kt, hwt, hkt, hvrf⟩ := computeTicket_ok hticket
  have hbase : beaconBase b.header mbi.prevBeaconEntry =
      mbi.beaconEntries.getLast?.getD mbi.prevBeaconEntry := by
    rw [beaconBase, hbeacon]
  simp only at hpts hworker hminer hparents hbticket hbproof hbeacon hheight
  rw [hstored] at hpts
  cases hpts
  refine ⟨mbi.prevBeaconEntry, lbts, lbst, lbrec, ⟨kt, mbi.workerKey, waddr⟩, hprev, ?_, hlbst,
    hstate, hminer, hparents, ⟨⟨wt, hwt, hkt⟩, ⟨w, hw, hkey⟩, ⟨worker, hworker, hwaddr⟩⟩, ?_⟩
  · rw [hheight]
    exact hlookback
  refine ⟨⟨ticket, ?_, hbticket⟩, ⟨winner, ?_, hbproof⟩, ⟨sig, hsig, hblockSig⟩⟩
  · -- the miner has new entries exactly if its block has some
    rw [ticketInput, hbase, hheight, hminer, hbeacon]
    by_cases hnone : mbi.beaconEntries = []
    · simpa [hnone] using hvrf
    · simpa [hnone] using hvrf
  · rw [electionInput, hbase, hheight, hminer]
    exact isRoundWinner_ok hwinner

end Lotus
