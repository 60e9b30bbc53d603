import Lotus.Chain.Validate

/-!
# The weight of a chain

`Weight` of `chain/store/weight.go`, `MaybeTakeHeavierTipSet` of `chain/store/store.go`, and
`MinerCreateBlock` of `chain/gen/mining.go`, which is where an honest block gets its parent weight
from.
-/

namespace Lotus

open StateTree Check List Act

def wRatioNum : Int64 := 1

def wRatioDen : UInt64 := 2

variable (syncer : Syncer)

/-! ## Weights -/

/-- The total power that `Weight` reads from the parent state. -/
def totalPower (ts : TipSet) : Except NodeErr ℤ :=
  match (getActor syncer.sm.env.init storagePowerActorAddr (loadStateTree ts.parentState)).1 with
  | .error err => .error (.wrap "get power actor" (.tree err))
  | .ok act =>
    match syncer.states.powerState act.head with
    | none => .error (.new "get power actor head")
    | some st => .ok st.totalQualityAdjPower

/-- The sum of the win counts, an `int64`. Reading the one of a missing election proof panics. -/
def totalWins (blks : List BlockHeader) : Except NodeErr Int64 :=
  blks.foldlM
    (fun totalJ b =>
      match b.electionProof with
      | none => .error (.new "panic")
      | some proof => .ok (totalJ + proof.winCount))
    0

def log2Power (tpow : ℤ) : Except NodeErr Int64 :=
  if 0 < tpow then .ok (Int64.ofNat tpow.toNat.log2)
  else .error (.new
    "All power in the net is gone. You network might be disconnected, or the net is dead!")

/-- The weight for the wins of the election. The division of a `big.Int` by zero panics. -/
def electionWeight (log2P totalJ : Int64) : Except NodeErr ℤ := do
  let den := (syncer.sm.cs.config.blocksPerEpoch * wRatioDen).toInt64.toInt
  require (den ≠ 0) (.new "panic")
  pure ((log2P * wRatioNum).toInt * 2 ^ 8 * totalJ.toInt / den)

def weight : Option TipSet → Except NodeErr ℤ
  | none => .ok 0
  | some ts => do
    let tpow ← totalPower syncer ts
    let log2P ← log2Power tpow
    let out := ts.first.parentWeight + (log2P <<< 8).toInt
    let totalJ ← totalWins ts.blocks
    let eWeight ← electionWeight syncer log2P totalJ
    pure (out + eWeight)

def weightGain (ts : TipSet) : Except NodeErr ℤ := do
  let tpow ← totalPower syncer ts
  let log2P ← log2Power tpow
  let totalJ ← totalWins ts.blocks
  let eWeight ← electionWeight syncer log2P totalJ
  pure ((log2P <<< 8).toInt + eWeight)

def accumulatedWeight : List TipSet → Except NodeErr ℤ
  | [] => .ok 0
  | ts :: chain => do
    let w ← accumulatedWeight chain
    let gain ← weightGain syncer ts
    pure (w + gain)

def maybeTakeHeavierTipSet (ts : TipSet) : Act (Option TipSet) NodeErr Unit := do
  let w ← ofExcept (weight syncer (some ts))
  let heaviest ← get
  let heaviestW ← ofExcept (weight syncer heaviest)
  if w > heaviestW then modify fun _ => some ts else pure ()

/-! ## Making a block -/

structure BlockTemplate where
  miner : Address
  parents : List Cid
  ticket : Option Bytes
  eproof : Option ElectionProof
  beaconValues : List BeaconEntry
  messages : List SignedMessage
  epoch : Int64
  timestamp : UInt64
  winningPoStProof : List Bytes
  length_lt : messages.length < 2 ^ 63

structure Wallet where
  sign : Address → BlockHeader → Except NodeErr Signature
  /-- `AggregateCompressed`: no aggregate, or its affine form, if it has one, in compressed form -/
  aggregateCompressed : List Bytes → Option (Option Bytes)
  emptySignature : Bytes

def aggregateSignatures (w : Wallet) (sigs : List Signature) : Except NodeErr Signature :=
  match w.aggregateCompressed (sigs.map (·.data)) with
  | none =>
    if sigs.length > 0 then .error (.new "bls.Aggregate returned nil with %d signatures")
    else .ok ⟨.bls, w.emptySignature⟩
  | some none => .ok ⟨.bls, w.emptySignature⟩
  | some (some aggSig) => .ok ⟨.bls, aggSig⟩

namespace BlockTemplate

def bls (bt : BlockTemplate) : List SignedMessage :=
  bt.messages.filter (·.signature.type = .bls)

def secpk (bt : BlockTemplate) : List SignedMessage :=
  bt.messages.filter fun m => ! decide (m.signature.type = .bls)

lemma length_bls_add_secpk (bt : BlockTemplate) :
    (bt.bls.map (·.message)).length + bt.secpk.length < 2 ^ 63 := by
  have hlt := bt.length_lt
  have hsplit := length_eq_length_filter_add (l := bt.messages)
    fun m => decide (m.signature.type = .bls)
  rw [length_map, bls, secpk]
  omega

end BlockTemplate

/-- `MinerCreateBlock`. What it writes to the block store is left out. -/
def minerCreateBlock (w : Wallet) (bt : BlockTemplate) : Except NodeErr FullBlock := do
  let pts ← (loadTipSet syncer.sm.cs bt.parents).mapError (.wrap "failed to load parent tipset")
  let (st, recpts) ← (tipSetState syncer.sm pts).mapError (.wrap "failed to load tipset state")
  let worker ← (getMinerWorkerRaw syncer st bt.miner).mapError (.wrap "failed to get miner worker")
  let aggSig ← aggregateSignatures w (bt.bls.map (·.signature))
  let pweight ← weight syncer (some pts)
  let waddr ← (resolveToKeyAddr syncer st worker).mapError
    (.wrap "failed to resolve miner address to key address")
  let next : BlockHeader :=
    { miner := bt.miner
      ticket := bt.ticket
      electionProof := bt.eproof
      beaconEntries := bt.beaconValues
      winPoStProof := bt.winningPoStProof
      parents := bt.parents
      parentWeight := pweight
      height := bt.epoch
      parentStateRoot := st
      parentMessageReceipts := recpts
      messages := ⟨bt.bls.map fun m => syncer.sm.codec.messageCid m.message,
        bt.secpk.map (·.cid syncer.sm.codec)⟩
      blsAggregate := some aggSig
      timestamp := bt.timestamp
      blockSig := none
      forkSignaling := 0 }
  let sig ← (w.sign waddr next).mapError (.wrap "failed to sign new block")
  pure ⟨{ next with blockSig := some sig }, bt.bls.map (·.message), bt.secpk,
    bt.length_bls_add_secpk⟩

/-- The block is one that `MinerCreateBlock` makes. -/
def MadeByMiner (b : FullBlock) : Prop := ∃ w bt, minerCreateBlock syncer w bt = .ok b

/-! ## Chains of accepted blocks -/

/-- A chain, with the head first, of tipsets over a genesis of weight 0. Each tipset is over the one
before it in the chain, and its blocks are accepted and satisfy `P`. -/
inductive AcceptedChain (P : FullBlock → Prop) : List TipSet → Prop
  | genesis {g : TipSet} (hzero : g.first.parentWeight = 0) : AcceptedChain P [g]
  | extend {ts parent : TipSet} {chain : List TipSet}
      (hchain : AcceptedChain P (parent :: chain))
      (hparent : loadTipSet syncer.sm.cs ts.parents = .ok parent)
      (hblocks : ∀ h ∈ ts.blocks, ∃ b : FullBlock, b.header = h ∧ Accepted syncer b ∧ P b) :
      AcceptedChain P (ts :: parent :: chain)

variable {syncer}

lemma weight_some (ts : TipSet) : weight syncer (some ts) =
      weightGain syncer ts >>= fun gain => pure (ts.first.parentWeight + gain) := by
  simp only [weight, weightGain, bind_assoc, pure_bind, add_assoc]

lemma minerCreateBlock_ok {w : Wallet} {bt : BlockTemplate} {b : FullBlock}
    (h : minerCreateBlock syncer w bt = .ok b) :
    ∃ pts, loadTipSet syncer.sm.cs bt.parents = .ok pts ∧ tipSetState syncer.sm pts =
        .ok (b.header.parentStateRoot, b.header.parentMessageReceipts) ∧
      (∃ worker waddr sig, getMinerWorkerRaw syncer b.header.parentStateRoot bt.miner = .ok worker ∧
        resolveToKeyAddr syncer b.header.parentStateRoot worker = .ok waddr ∧
        w.sign waddr { b.header with blockSig := none } = .ok sig ∧
        b.header.blockSig = some sig) ∧
      b.header.miner = bt.miner ∧ b.header.parents = bt.parents ∧ b.header.ticket = bt.ticket ∧
      b.header.electionProof = bt.eproof ∧ b.header.beaconEntries = bt.beaconValues ∧
      b.header.height = bt.epoch ∧ weight syncer (some pts) = .ok b.header.parentWeight ∧
      b.blsMessages = bt.bls.map (·.message) ∧ b.secpkMessages = bt.secpk ∧
      b.header.messages = ⟨b.blsMessages.map syncer.sm.codec.messageCid,
        b.secpkMessages.map (·.cid syncer.sm.codec)⟩ := by
  obtain ⟨pts, hpts, h1⟩ := bind_eq_ok.mp h
  obtain ⟨⟨st, recpts⟩, hstate, h2⟩ := bind_eq_ok.mp h1
  obtain ⟨worker, hworker, h3⟩ := bind_eq_ok.mp h2
  obtain ⟨aggSig, -, h4⟩ := bind_eq_ok.mp h3
  obtain ⟨pweight, hweight, h5⟩ := bind_eq_ok.mp h4
  obtain ⟨waddr, hwaddr, h6⟩ := bind_eq_ok.mp h5
  obtain ⟨sig, hsig, h7⟩ := bind_eq_ok.mp h6
  cases h7
  exact ⟨pts, mapError_eq_ok.mp hpts, mapError_eq_ok.mp hstate,
    ⟨worker, waddr, sig, mapError_eq_ok.mp hworker, mapError_eq_ok.mp hwaddr,
      mapError_eq_ok.mp hsig, rfl⟩, rfl, rfl, rfl, rfl, rfl, rfl, hweight, rfl, rfl,
    by rw [List.map_map]; rfl⟩

namespace AcceptedChain

variable {ts parent : TipSet} {chain : List TipSet}

lemma parentWeight_eq (hparent : loadTipSet syncer.sm.cs ts.parents = .ok parent)
    (hblocks : ∀ h ∈ ts.blocks, ∃ b : FullBlock, b.header = h ∧ Accepted syncer b ∧
      MadeByMiner syncer b) {h : BlockHeader} (hmem : h ∈ ts.blocks) :
    weight syncer (some parent) = .ok h.parentWeight := by
  obtain ⟨b, rfl, -, w, bt, hmade⟩ := hblocks h hmem
  grind [minerCreateBlock_ok, ts.parents_of_mem]

lemma weight_eq (h : AcceptedChain syncer (MadeByMiner syncer) (ts :: chain)) :
    weight syncer (some ts) = accumulatedWeight syncer (ts :: chain) := by
  -- by induction along the chain, whose head the first block of the next tipset names the weight of
  induction chain generalizing ts with
  | nil =>
    obtain ⟨hzero⟩ := h
    rw [weight_some, hzero]
    rfl
  | cons parent chain ih =>
    obtain - | ⟨hchain, hparent, hblocks⟩ := h
    have hfirst : weight syncer (some parent) = .ok ts.first.parentWeight :=
      parentWeight_eq hparent hblocks mem_cons_self
    rw [accumulatedWeight, ← ih hchain, hfirst, weight_some]
    rfl

lemma of_append {P : FullBlock → Prop} {newer : List TipSet}
    (h : AcceptedChain syncer P (newer ++ ts :: chain)) : AcceptedChain syncer P (ts :: chain) := by
  induction newer with
  | nil => exact h
  | cons t newer ih =>
    apply ih
    rcases hrest : newer ++ ts :: chain with - | ⟨parent, rest⟩
    · simp at hrest
    · rw [cons_append, hrest] at h
      obtain - | ⟨hchain, -, -⟩ := h
      exact hchain

end AcceptedChain

lemma maybeTakeHeavierTipSet_eq {ts : TipSet} {heaviest : Option TipSet} {w heaviestW : ℤ}
    (hw : weight syncer (some ts) = .ok w) (hheaviest : weight syncer heaviest = .ok heaviestW) :
    maybeTakeHeavierTipSet syncer ts heaviest =
      (.ok (), if w > heaviestW then some ts else heaviest) := by
  have hstart : maybeTakeHeavierTipSet syncer ts heaviest = _ :=
    bind_of_ok (ofExcept_of_ok hw heaviest)
  rw [hstart, bind_of_ok (get_apply heaviest), bind_of_ok (ofExcept_of_ok hheaviest heaviest)]
  split_ifs <;> rfl

lemma Accepted.withParentWeight {b : FullBlock} (h : Accepted syncer b)
    (hsig : ∀ sig addr hdr, syncer.proofs.verifyBlockSig sig addr hdr = true) (w : ℤ) :
    Accepted syncer { b with header := { b.header with parentWeight := w } } := by
  obtain ⟨s, hnew, hvalid⟩ := h
  obtain ⟨hsanity, baseTs, lbts, hbase, hlookback, hover⟩ := (validateBlock_ok_iff hnew).mp hvalid
  obtain ⟨lbst, lbrec, prevBeacon, waddr, hlbst, hprev, htime, hstate, hworker, hchecks⟩ :=
    validateOver_ok_iff.mp hover
  refine ⟨⟨[], s.skipCache⟩, not_mem_nil, (validateBlock_ok_iff not_mem_nil).mpr
    ⟨hsanity, baseTs, lbts, hbase, hlookback, validateOver_ok_iff.mpr
      ⟨lbst, lbrec, prevBeacon, waddr, hlbst, hprev, htime, hstate, hworker, ?_⟩⟩⟩
  -- only the check of the signature reads the whole header
  simp only [awaitedChecks, forall_mem_cons] at hchecks ⊢
  obtain ⟨hminer, htkts, -, hrest⟩ := hchecks
  exact ⟨hminer, htkts, require_eq_ok.mpr (hsig _ _ _), hrest⟩

/-! ## Fork choice -/

structure HonestWeights (syncer : Syncer) (chain : List TipSet) : Prop where
  parentWeight : ∀ newer ts parent older, chain = newer ++ ts :: parent :: older →
    ∀ h ∈ ts.blocks, weight syncer (some parent) = .ok h.parentWeight
  weight : ∀ newer ts older, chain = newer ++ ts :: older →
    weight syncer (some ts) = accumulatedWeight syncer (ts :: older)

lemma AcceptedChain.honestWeights {chain : List TipSet}
    (h : AcceptedChain syncer (MadeByMiner syncer) chain) : HonestWeights syncer chain where
  parentWeight := by
    rintro newer ts parent older rfl hdr hmem
    obtain - | ⟨-, hparent, hblocks⟩ := of_append h
    exact parentWeight_eq hparent hblocks hmem
  weight := by
    rintro newer ts older rfl
    exact weight_eq (of_append h)

/-- On chains of accepted blocks that `MinerCreateBlock` made, parent weights are honest, and the
head is chosen by the weights that the two chains accumulate from their genesis. -/
theorem weights_honest_of_made {ts heaviest : TipSet} {chain other : List TipSet}
    (hchain : AcceptedChain syncer (MadeByMiner syncer) (ts :: chain))
    (hother : AcceptedChain syncer (MadeByMiner syncer) (heaviest :: other)) :
    HonestWeights syncer (ts :: chain) ∧
      ∀ w heaviestW, accumulatedWeight syncer (ts :: chain) = .ok w →
        accumulatedWeight syncer (heaviest :: other) = .ok heaviestW →
        maybeTakeHeavierTipSet syncer ts (some heaviest) =
          (.ok (), if w > heaviestW then some ts else some heaviest) := by
  refine ⟨hchain.honestWeights, fun w heaviestW hw hheaviestW => ?_⟩
  rw [← hchain.weight_eq] at hw
  rw [← hother.weight_eq] at hheaviestW
  exact maybeTakeHeavierTipSet_eq hw hheaviestW

def sampleHonest : FullBlock :=
  ⟨{ sampleHeader (.id 1000) [] with parentWeight := 281 }, [], [], FullBlock.no_messages_lt⟩

def sampleForged : FullBlock :=
  { sampleHonest with header := { sampleHonest.header with parentWeight := 1000 } }

def sampleWeightSyncer : Syncer := sampleSyncer [sampleHonest, sampleForged]

def sampleWallet : Wallet := ⟨fun _ _ => .ok ⟨.bls, []⟩, fun _ => none, []⟩

def sampleTemplate : BlockTemplate where
  miner := .id 1000
  parents := [sampleHashing.headerCid sampleGenesis]
  ticket := some [1]
  eproof := some ⟨1, []⟩
  beaconValues := [⟨33, []⟩]
  messages := []
  epoch := 1
  timestamp := 1030
  winningPoStProof := []
  length_lt := by decide

lemma AcceptedChain.over_genesis {P : FullBlock → Prop} {g : BlockHeader} {b : FullBlock}
    (hzero : g.parentWeight = 0)
    (hparent : loadTipSet syncer.sm.cs b.header.parents = .ok (.single g))
    (haccepted : Accepted syncer b) (hb : P b) :
    AcceptedChain syncer P [.single b.header, .single g] := by
  refine .extend (.genesis hzero) hparent fun h hmem => ⟨b, ?_, haccepted, hb⟩
  exact (mem_singleton.mp hmem).symm

lemma sampleHonest_accepted : Accepted sampleWeightSyncer sampleHonest :=
  ⟨freshState, by decide, by decide +kernel⟩

/-- The honest block is heavier than the genesis by what its tipset adds, and it becomes the
head. -/
theorem sampleHonest_chain_honest :
    HonestWeights sampleWeightSyncer [.single sampleHonest.header, .single sampleGenesis] ∧
      maybeTakeHeavierTipSet sampleWeightSyncer (.single sampleHonest.header)
        (some (.single sampleGenesis)) = (.ok (), some (.single sampleHonest.header)) := by
  have hgenesis : AcceptedChain sampleWeightSyncer (MadeByMiner sampleWeightSyncer)
      [.single sampleGenesis] := .genesis (by decide)
  have hchain : AcceptedChain sampleWeightSyncer (MadeByMiner sampleWeightSyncer)
      [.single sampleHonest.header, .single sampleGenesis] :=
    .over_genesis (by decide) (by decide +kernel) sampleHonest_accepted
      ⟨sampleWallet, sampleTemplate, by decide +kernel⟩
  obtain ⟨hweights, hhead⟩ := weights_honest_of_made hchain hgenesis
  exact ⟨hweights, hhead 562 281 (by decide +kernel) (by decide +kernel)⟩

/-- The forged block is accepted, its parent does not have the weight that it names, and it
becomes the head although both chains accumulate the same weight. -/
theorem forged_weight_takes_head : AcceptedChain sampleWeightSyncer (fun _ => True)
        [.single sampleForged.header, .single sampleGenesis] ∧
      AcceptedChain sampleWeightSyncer (fun _ => True)
        [.single sampleHonest.header, .single sampleGenesis] ∧
      weight sampleWeightSyncer (some (.single sampleGenesis)) = .ok 281 ∧
      sampleForged.header.parentWeight = 1000 ∧
      accumulatedWeight sampleWeightSyncer [.single sampleForged.header, .single sampleGenesis] =
        accumulatedWeight sampleWeightSyncer [.single sampleHonest.header, .single sampleGenesis] ∧
      maybeTakeHeavierTipSet sampleWeightSyncer (.single sampleForged.header)
          (some (.single sampleHonest.header)) = (.ok (), some (.single sampleForged.header)) := by
  have haccepted : Accepted sampleWeightSyncer sampleForged :=
    sampleHonest_accepted.withParentWeight (fun _ _ _ => rfl) 1000
  exact ⟨.over_genesis (by decide) (by decide +kernel) haccepted trivial,
    .over_genesis (by decide) (by decide +kernel) sampleHonest_accepted trivial,
    by decide +kernel, by decide, by decide +kernel, by decide +kernel⟩

end Lotus
