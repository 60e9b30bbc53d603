import Lotus.Chain.Validate

/-!
# The heights that validation lets through

`ValidateBlock` never compares the height of a block with that of its parent.
-/

namespace Lotus

open StateTree Check List

variable (syncer : Syncer)

structure ProofsAccepted : Prop where
  verifyVRF : ∀ worker rand evrf, syncer.proofs.verifyVRF worker rand evrf = true
  verifyBlockSig : ∀ sig addr h, syncer.proofs.verifyBlockSig sig addr h = true
  verifyWinningPoSt : ∀ rand proofs sectors mid,
    syncer.proofs.verifyWinningPoSt rand proofs sectors mid = .ok true
  verifyBlsAggregate : ∀ sig cids pubks, syncer.crypto.verifyBlsAggregate sig cids pubks = true

/-- The randomness of the winning PoSt of `miner` at an epoch, from the beacon entry `base`. -/
def winningPoStRand (base : BeaconEntry) (e : Int64) (miner : Address) : Bytes :=
  syncer.proofs.drawRandomness base.data .winningPoStChallengeSeed e
    (syncer.proofs.marshalAddress miner)

/-- The miner can win a block at the epoch `e` over the tipset `ts`: it has a worker and power in
the lookback state, a claim over `ts`, some VRF output wins for its power, and there are sectors
for its winning PoSt. -/
structure CanWin (ts lbts : TipSet) (lbst : Hamt) (base : BeaconEntry) (e : Int64)
    (miner : Address) : Prop where
  defined : miner ≠ .undef
  worker : ∃ waddr, getMinerWorkerRaw syncer lbst miner = .ok waddr
  valid : minerIsValid syncer miner ts = .ok ()
  minPower : minerHasMinPower syncer miner lbts = .ok true
  not_slashed : getMinerSlashed syncer ts miner = .ok false
  wins : ∃ mpow tpow vrfProof, getPowerRaw syncer lbst miner = .ok (mpow, tpow) ∧
    1 ≤ syncer.proofs.computeWinCount vrfProof mpow tpow
  post : syncer.sm.cs.config.insecurePoStValidation = true ∨
    ∃ id sectors, syncer.proofs.idFromAddress miner = some id ∧
      syncer.proofs.sectorsForWinningPoSt lbst miner (winningPoStRand syncer base e miner) =
        .ok sectors

/-- The epoch `e` is open over the tipset `ts`: its earliest timestamp is not in the future, there
are beacon entries for its round, and a miner can win at its lookback tipset. -/
def EpochOpen (cache : SkipCache) (ts : TipSet) (e : Int64) : Prop :=
  earliestTimestamp syncer ts e ≤ syncer.now + allowableClockDriftSecs ∧
  (∃ st, tipSetState syncer.sm ts = .ok st) ∧
  ∃ prevBeacon entries lbts lbst lbrec miner,
    getLatestBeaconEntry syncer.sm.cs ts = .ok prevBeacon ∧
    (syncer.sm.cs.config.ignoreDrand = true ∨
      validateBlockValues syncer.beacon e entries prevBeacon = .ok ()) ∧
    (getLookbackTipSetForRound syncer.sm.cs ts e cache).1 = .ok lbts ∧
    tipSetState syncer.sm lbts = .ok (lbst, lbrec) ∧
    CanWin syncer ts lbts lbst (entries.getLast?.getD prevBeacon) e miner

/-- The block over the parents `tsk` is accepted in a state with the skip cache `cache` that has not
validated it before. -/
def AcceptedOver (cache : SkipCache) (tsk : List Cid) (b : FullBlock) : Prop :=
  b.header.parents = tsk ∧ ∃ validated, syncer.sm.cs.hashing.headerCid b.header ∉ validated ∧
    (validateBlock syncer b ⟨validated, cache⟩).1 = .ok ()

/-! ## The checks, one by one -/

variable {syncer}

variable {h : BlockHeader} {ts : TipSet}

lemma checkTimestamp_ok_iff : checkTimestamp syncer ts h = .ok () ↔
      h.timestamp ≤ syncer.now + allowableClockDriftSecs ∧
        earliestTimestamp syncer ts h.height ≤ h.timestamp := by
  rw [checkTimestamp, bind_eq_ok]
  simp only [require_eq_ok, exists_const]

variable {prevBeacon : BeaconEntry}

lemma beaconValuesCheck_ok_iff : beaconValuesCheck syncer h prevBeacon = .ok () ↔
      syncer.sm.cs.config.ignoreDrand = true ∨
        validateBlockValues syncer.beacon h.height h.beaconEntries prevBeacon = .ok () := by
  unfold beaconValuesCheck
  split_ifs with hignore
  · simp [hignore]
  · simp [hignore, mapError_eq_ok]

lemma marshalMiner_ok_iff {miner : Address} {buf : Bytes} : marshalMiner syncer miner = .ok buf ↔
      miner ≠ .undef ∧ syncer.proofs.marshalAddress miner = buf := by
  unfold marshalMiner
  split_ifs with hundef
  · simp [hundef]
  · simp [hundef]

lemma idFromAddress_ok_iff {addr : Address} {n : UInt64} :
    idFromAddress syncer addr = .ok n ↔ syncer.proofs.idFromAddress addr = some n := by
  unfold idFromAddress
  cases syncer.proofs.idFromAddress addr <;> simp

lemma winnerCheck_ok_iff {lbts : TipSet} {lbst : Hamt} {waddr : Address} {proof : ElectionProof} :
    winnerCheck syncer ts lbts lbst h prevBeacon waddr proof = .ok () ↔
      1 ≤ proof.winCount ∧ minerHasMinPower syncer h.miner lbts = .ok true ∧ h.miner ≠ .undef ∧
      verifyElectionPoStVRF syncer waddr
        (syncer.proofs.drawRandomness (beaconBase h prevBeacon).data .electionProofProduction
          h.height (syncer.proofs.marshalAddress h.miner)) proof.vrfProof = .ok () ∧
      getMinerSlashed syncer ts h.miner = .ok false ∧
      ∃ mpow tpow, getPowerRaw syncer lbst h.miner = .ok (mpow, tpow) ∧
        proof.winCount = syncer.proofs.computeWinCount proof.vrfProof mpow tpow := by
  unfold winnerCheck
  simp only [bind_eq_ok, mapError_eq_ok, require_eq_ok, marshalMiner_ok_iff, exists_const]
  constructor
  · grind
  · grind

lemma verifyWinningPoStProof_ok {lbst : Hamt}
    (hok : verifyWinningPoStProof syncer h prevBeacon lbst = .ok ()) :
    syncer.sm.cs.config.insecurePoStValidation = true ∨ ∃ id sectors,
        syncer.proofs.idFromAddress h.miner = some id ∧
        syncer.proofs.sectorsForWinningPoSt lbst h.miner
          (winningPoStRand syncer (beaconBase h prevBeacon) h.height h.miner) = .ok sectors := by
  unfold verifyWinningPoStProof at hok
  split_ifs at hok with hinsecure
  · exact Or.inl hinsecure
  · simp only [bind_eq_ok, mapError_eq_ok, marshalMiner_ok_iff, idFromAddress_ok_iff] at hok
    obtain ⟨buf, ⟨-, rfl⟩, id, hid, sectors, hsectors, -⟩ := hok
    exact Or.inr ⟨id, sectors, hid, hsectors⟩

variable {cache : SkipCache} {tsk : List Cid}

lemma AcceptedOver.epochOpen {b : FullBlock} (hload : loadTipSet syncer.sm.cs tsk = .ok ts)
    (h : AcceptedOver syncer cache tsk b) :
    EpochOpen syncer cache ts b.header.height := by
  obtain ⟨rfl, validated, hnew, hvalid⟩ := h
  obtain ⟨-, baseTs, lbts, hbase, hlookback, hover⟩ := (validateBlock_ok_iff hnew).mp hvalid
  rw [hload] at hbase
  cases hbase
  obtain ⟨lbst, lbrec, prevBeacon, waddr, hlbst, hprev, htime, hstate, hworker, hchecks⟩ :=
    validateOver_ok_iff.mp hover
  simp only [awaitedChecks, forall_mem_cons] at hchecks
  obtain ⟨hminer, -, -, hbeacon, hpost, hwinner, -⟩ := hchecks
  obtain ⟨hnow, hearliest⟩ := checkTimestamp_ok_iff.mp htime
  obtain ⟨hclaim, hmin, hundef, -, hslashed, mpow, tpow, hpower, hwins⟩ :=
    winnerCheck_ok_iff.mp hwinner
  refine ⟨UInt64.le_trans hearliest hnow, ⟨_, hstate⟩, prevBeacon, b.header.beaconEntries, lbts,
    lbst, lbrec, b.header.miner, hprev, beaconValuesCheck_ok_iff.mp hbeacon, hlookback, hlbst, ?_⟩
  exact
    { defined := hundef
      worker := ⟨waddr, hworker⟩
      valid := mapError_eq_ok.mp hminer
      minPower := hmin
      not_slashed := hslashed
      wins := ⟨mpow, tpow, _, hpower, hwins ▸ hclaim⟩
      post := verifyWinningPoStProof_ok (mapError_eq_ok.mp hpost) }

/-! ## Every open epoch has a block -/

/-- A block without messages at the epoch `e`, with the earliest timestamp. -/
def openBlock (syncer : Syncer) (tsk : List Cid) (ts : TipSet) (e : Int64) (stateroot : Hamt)
    (receipts : List MessageReceipt) (entries : List BeaconEntry) (miner : Address)
    (proof : ElectionProof) : FullBlock where
  header :=
    { miner := miner
      ticket := some []
      electionProof := some proof
      beaconEntries := entries
      winPoStProof := ["valid proof".toUTF8.toList]
      parents := tsk
      parentWeight := 0
      height := e
      parentStateRoot := stateroot
      parentMessageReceipts := receipts
      messages := ⟨[], []⟩
      blsAggregate := some ⟨.bls, []⟩
      timestamp := earliestTimestamp syncer ts e
      blockSig := some ⟨.bls, []⟩
      forkSignaling := 0 }
  blsMessages := []
  secpkMessages := []
  length_lt := FullBlock.no_messages_lt

lemma verifyElectionPoStVRF_ok (hall : ProofsAccepted syncer) (worker : Address)
    (rand evrf : Bytes) : verifyElectionPoStVRF syncer worker rand evrf = .ok () :=
  require_eq_ok.mpr (Or.inr (hall.verifyVRF worker rand evrf))

lemma CanWin.verifyWinningPoStProof_ok {lbts : TipSet} {lbst : Hamt} (hall : ProofsAccepted syncer)
    (hwin : CanWin syncer ts lbts lbst (beaconBase h prevBeacon) h.height h.miner)
    (hproof : h.winPoStProof = ["valid proof".toUTF8.toList]) :
    verifyWinningPoStProof syncer h prevBeacon lbst = .ok () := by
  unfold verifyWinningPoStProof
  split_ifs with hinsecure
  · rw [hproof]
    exact bind_eq_ok.mpr ⟨(), require_eq_ok.mpr (cons_ne_nil _ _), require_eq_ok.mpr rfl⟩
  · obtain ⟨id, sectors, hid, hsectors⟩ := hwin.post.resolve_left hinsecure
    refine bind_eq_ok.mpr ⟨_, marshalMiner_ok_iff.mpr ⟨hwin.defined, rfl⟩, ?_⟩
    refine bind_eq_ok.mpr ⟨id, mapError_eq_ok.mpr (idFromAddress_ok_iff.mpr hid), ?_⟩
    refine bind_eq_ok.mpr ⟨sectors, mapError_eq_ok.mpr hsectors, ?_⟩
    refine bind_eq_ok.mpr ⟨true, mapError_eq_ok.mpr (hall.verifyWinningPoSt _ _ _ _), ?_⟩
    exact require_eq_ok.mpr rfl

lemma msgsCheck_of_no_messages (hall : ProofsAccepted syncer) (ts : TipSet) (stateroot : Hamt)
    {b : FullBlock} (hbls : b.blsMessages = []) (hsecpk : b.secpkMessages = [])
    (hroot : b.header.messages = ⟨[], []⟩) : msgsCheck syncer ts stateroot b = .ok () := by
  apply mapError_eq_ok.mpr
  unfold checkBlockMessages
  refine bind_eq_ok.mpr ⟨(), ?_, ?_⟩
  · rw [checkBlsAggregate, hbls]
    refine bind_eq_ok.mpr ⟨[], rfl, ?_⟩
    rw [hall.verifyBlsAggregate]
    rfl
  · rw [checkMessages, hbls, hsecpk, hroot]
    rfl

lemma EpochOpen.exists_accepted (hall : ProofsAccepted syncer) {e : Int64}
    (hload : loadTipSet syncer.sm.cs tsk = .ok ts) (h : EpochOpen syncer cache ts e) :
    ∃ b, AcceptedOver syncer cache tsk b ∧ b.header.height = e := by
  obtain ⟨htime, ⟨⟨stateroot, receipts⟩, hstate⟩, prevBeacon, entries, lbts, lbst, lbrec, miner,
    hprev, hbeacon, hlookback, hlbst, hwin⟩ := h
  obtain ⟨waddr, hworker⟩ := hwin.worker
  obtain ⟨mpow, tpow, vrfProof, hpower, hwins⟩ := hwin.wins
  let proof : ElectionProof := ⟨syncer.proofs.computeWinCount vrfProof mpow tpow, vrfProof⟩
  let b := openBlock syncer tsk ts e stateroot receipts entries miner proof
  have hchecks : ∀ c ∈ awaitedChecks syncer ts lbts lbst stateroot prevBeacon waddr b,
      c = .ok () := by
    have htkts : tktsCheck syncer ts b.header prevBeacon waddr [] = .ok () :=
      bind_eq_ok.mpr ⟨_, marshalMiner_ok_iff.mpr ⟨hwin.defined, rfl⟩,
        mapError_eq_ok.mpr (verifyElectionPoStVRF_ok hall _ _ _)⟩
    have hwinner : winnerCheck syncer ts lbts lbst b.header prevBeacon waddr proof = .ok () :=
      winnerCheck_ok_iff.mpr ⟨hwins, hwin.minPower, hwin.defined,
        verifyElectionPoStVRF_ok hall _ _ _, hwin.not_slashed, mpow, tpow, hpower, rfl⟩
    simp only [awaitedChecks, forall_mem_cons]
    exact ⟨mapError_eq_ok.mpr hwin.valid, htkts, require_eq_ok.mpr (hall.verifyBlockSig _ _ _),
      beaconValuesCheck_ok_iff.mpr hbeacon,
      mapError_eq_ok.mpr (hwin.verifyWinningPoStProof_ok hall rfl), hwinner,
      msgsCheck_of_no_messages hall ts stateroot rfl rfl rfl, forall_mem_nil _⟩
  have hover : validateOver syncer ts lbts b = .ok () :=
    validateOver_ok_iff.mpr ⟨lbst, lbrec, prevBeacon, waddr, hlbst, hprev,
      checkTimestamp_ok_iff.mpr ⟨htime, UInt64.le_refl _⟩, hstate, hworker, hchecks⟩
  exact ⟨b, ⟨rfl, [], not_mem_nil, (validateBlock_ok_iff not_mem_nil).mpr
    ⟨rfl, ts, lbts, hload, hlookback, hover⟩⟩, rfl⟩

lemma exists_acceptedOver_iff (hall : ProofsAccepted syncer) {e : Int64}
    (hload : loadTipSet syncer.sm.cs tsk = .ok ts) :
    (∃ b, AcceptedOver syncer cache tsk b ∧ b.header.height = e) ↔ EpochOpen syncer cache ts e := by
  constructor
  · rintro ⟨b, haccepted, rfl⟩
    exact haccepted.epochOpen hload
  · exact EpochOpen.exists_accepted hall hload

/-- Every accepted block is above its parent exactly if no epoch up to the parent's is open. -/
theorem heights_increase_iff (hall : ProofsAccepted syncer) {tsk : List Cid} {ts : TipSet}
    (hload : loadTipSet syncer.sm.cs tsk = .ok ts) (cache : SkipCache) :
    (∀ b, AcceptedOver syncer cache tsk b → ts.height < b.header.height) ↔
      ∀ e ≤ ts.height, ¬ EpochOpen syncer cache ts e := by
  constructor
  · grind [exists_acceptedOver_iff]
  · intro hclosed b haccepted
    by_contra hle
    exact hclosed _ (Int64.not_lt.mp hle) (haccepted.epochOpen hload)

lemma maxBeaconRound_of_no_entry {beacon : RandomBeacon} {height : Int64}
    {entries : List BeaconEntry} {prevEntry : BeaconEntry}
    (hno : ∀ curr, beacon.verifyEntry curr prevEntry ≠ .ok ())
    (h : validateBlockValues beacon height entries prevEntry = .ok ()) :
    beacon.maxBeaconRoundForEpoch height prevEntry = prevEntry.round := by
  by_contra hne
  rw [validateBlockValues, if_neg hne] at h
  rcases entries with - | ⟨curr, entries⟩
  · cases h
  · rw [getLast?_cons] at h
    obtain ⟨-, -, hentries⟩ := bind_eq_ok.mp h
    obtain ⟨_, hcurr, -⟩ := bind_eq_ok.mp hentries
    exact hno curr (mapError_eq_ok.mp hcurr)

def sampleStrictSyncer : Syncer :=
  { sampleSyncer [] with
    beacon := (⟨1, 968, 1000, 31, fun _ _ => false⟩ : DrandBeacon).toRandomBeacon }

def sampleGenesisKey : List Cid := [sampleHashing.headerCid sampleGenesis]

lemma sampleStrict_epoch {e : Int64}
    (h : sampleStrictSyncer.beacon.maxBeaconRoundForEpoch e ⟨32, []⟩ = 32) : e = 1 := by
  have hround : (e.toUInt64 * 31 + 1000 - 31 - 968) / 1 = 32 := h
  rw [UInt64.div_one] at hround
  have hmul : e.toUInt64 * 31 = 31 := by grind
  have hword : e.toUInt64 = (1 : Int64).toUInt64 := by
    -- by the inverse of 31 modulo `2 ^ 64`
    calc e.toUInt64 = e.toUInt64 * 31 * 17256631552825064415 := by
          rw [UInt64.mul_assoc]
          exact (UInt64.mul_one _).symm
      _ = (1 : Int64).toUInt64 := by
          rw [hmul]
          rfl
  rw [← Int64.toBitVec_inj]
  exact congrArg UInt64.toBitVec hword

theorem sampleStrict_heights_increase :
    (∀ b, AcceptedOver sampleStrictSyncer (fun _ => none) sampleGenesisKey b →
      (TipSet.single sampleGenesis).height < b.header.height) ∧
    AcceptedOver sampleStrictSyncer (fun _ => none) sampleGenesisKey
      ⟨{ sampleHeader (.id 1000) [] with beaconEntries := [] }, [], [], by decide⟩ := by
  have hall : ProofsAccepted sampleStrictSyncer :=
    ⟨fun _ _ _ => rfl, fun _ _ _ => rfl, fun _ _ _ _ => rfl, fun _ _ _ => rfl⟩
  have hload : loadTipSet sampleStrictSyncer.sm.cs sampleGenesisKey =
      .ok (.single sampleGenesis) := by decide +kernel
  refine ⟨(heights_increase_iff hall hload _).mpr ?_, rfl, [], by decide, by decide +kernel⟩
  rintro e hle ⟨-, -, prevBeacon, entries, lbts, lbst, lbrec, miner, hprev, hbeacon, -⟩
  have hentry : getLatestBeaconEntry sampleStrictSyncer.sm.cs (.single sampleGenesis) =
      .ok ⟨32, []⟩ := by decide +kernel
  rw [hentry] at hprev
  cases hprev
  have hvalues := hbeacon.resolve_left (by decide)
  have hround := maxBeaconRound_of_no_entry (fun curr hcurr => by cases hcurr) hvalues
  rw [sampleStrict_epoch hround] at hle
  exact absurd hle (by decide)

/-- A block at the height of the genesis is accepted over the genesis. -/
theorem accepted_at_parent_height :
    loadTipSet (sampleSyncer []).sm.cs sampleGenesisKey = .ok (.single sampleGenesis) ∧
      AcceptedOver (sampleSyncer []) (fun _ => none) sampleGenesisKey
        ⟨{ sampleHeader (.id 1000) [] with height := 0, beaconEntries := [], timestamp := 1000 },
          [], [], by decide⟩ ∧
      (TipSet.single sampleGenesis).height = 0 :=
  ⟨by decide +kernel, ⟨rfl, [], by decide, by decide +kernel⟩, rfl⟩

end Lotus
