import Lotus.Chain.Store

/-!
# Executing a tipset

`ApplyBlocks`, `computeTipSetState` and `TipSetState` of `chain/stmgr/stmgr.go`, and
`chain/stmgr/forks.go`.
-/

namespace Lotus

open VM StateTree Act

structure BlockMessages where
  miner : Address
  blsMessages : List ChainMsg
  secpkMessages : List ChainMsg
  winCount : Int64

def BlockMessages.msgs (b : BlockMessages) : List ChainMsg := b.blsMessages ++ b.secpkMessages

/-- `chainRand`: where the randomness of a tipset is drawn from. -/
structure ChainRand where
  blks : List Cid
  bheight : Int64

/-- `StateManager`, with what it calls that is defined elsewhere. -/
structure StateManager where
  cs : ChainStore
  env : Env
  codec : Codec
  /-- What actor code does for a message in a state. -/
  behaviour : ChainRand → Message → VM → Behaviour
  forksAtHeight : Int64 → Option (Act StateTree TreeErr Unit)
  /-- `actors.SerializeParams` of the parameters of `AwardBlockReward` -/
  serializeAward : Address → ℤ → ℤ → Int64 → Except NodeErr Bytes
  flushOrder : StateTree → List (Σ _ : Address, StreeOp)

def methodsCronEpochTick : UInt64 := 2

def methodsRewardAwardBlockReward : UInt64 := 2

variable (sm : StateManager) (r : ChainRand)

/-- A call to `ApplyImplicitMessage` that is given up when it comes back with an error. -/
def implicitMessage (msg : Message) : Act VM NodeErr ApplyRet := do
  let vm ← get
  let ret ← (applyImplicitMessage sm.env (sm.behaviour r msg vm) msg).mapError fun _ =>
    NodeErr.new "panic"
  match ret.actorErr with
  | some err => fail (.actor err)
  | none => pure ret

def handleStateForks (height : Int64) : Act VM TreeErr Unit :=
  match sm.forksAtHeight height with
  | none => pure ()
  | some f => do
    emit (.round (.upgrade height.toInt))
    onTree f

def runCron : Act VM NodeErr Unit := do
  let ca ← (onTree (getActor sm.env.init systemActorAddr)).mapError .tree
  let vm ← get
  emit (.round (.cronTick vm.blockHeight.toInt))
  let ret ← implicitMessage sm r
    { version := 0
      toAddr := cronActorAddr
      fromAddr := systemActorAddr
      nonce := ca.nonce
      value := some 0
      gasPrice := some 0
      gasLimit := blockGasLimit * 10000
      method := methodsCronEpochTick
      params := [] }
  if ret.receipt.exitCode ≠ 0 then
    fail (.new "CheckProofSubmissions exit was non-zero: %d")
  else pure ()

def cronIfNull (parentEpoch i : Int64) : Act VM NodeErr Unit :=
  if i > parentEpoch then runCron sm r else pure ()

def nullRounds (parentEpoch : Int64) : ℕ → Int64 → Act VM NodeErr Unit
  | 0, _ => pure ()
  | n + 1, i => do
    (handleStateForks sm i).mapError fun err =>
      .wrap "error handling state forks" (.tree err)
    cronIfNull sm r parentEpoch i
    modify fun vm => { vm with blockHeight := i + 1 }
    nullRounds parentEpoch n (i + 1)

structure BlockLoop where
  processedMsgs : List Cid
  executed : List (ChainMsg × ApplyRet)
  penalty : ℤ
  gasReward : ℤ

def applyBlockMessages : List ChainMsg → BlockLoop → Act VM NodeErr BlockLoop
  | [], s => pure s
  | cm :: cms, s =>
    let m := cm.vmMessage
    if sm.codec.messageCid m ∈ s.processedMsgs then applyBlockMessages cms s
    else do
      let vm ← get
      let ret ← (applyMessage sm.env (sm.behaviour r m vm) cm).mapError .apply
      applyBlockMessages cms
        { processedMsgs := sm.codec.messageCid m :: s.processedMsgs
          executed := s.executed ++ [(cm, ret)]
          penalty := s.penalty + ret.penalty
          gasReward := s.gasReward + price m * ret.receipt.gasUsed.toInt }

def awardBlock (b : BlockMessages) (s : BlockLoop) : Act VM NodeErr Unit := do
  let params ← ofExcept ((sm.serializeAward b.miner s.penalty s.gasReward b.winCount).mapError
    (.wrap "failed to serialize award params"))
  let sysAct ← (onTree (getActor sm.env.init systemActorAddr)).mapError fun err =>
    .wrap "failed to get system actor" (.tree err)
  let ret ← (implicitMessage sm r
    { version := 0
      toAddr := rewardActorAddr
      fromAddr := systemActorAddr
      nonce := sysAct.nonce
      value := some 0
      gasPrice := some 0
      gasLimit := 1073741824
      method := methodsRewardAwardBlockReward
      params }).mapError (.wrap "failed to apply reward message for miner %s")
  if ret.receipt.exitCode ≠ 0 then
    fail (.new "reward application message failed (exit %d): %s")
  else pure ()

def applyEachBlock : List BlockMessages → BlockLoop → Act VM NodeErr BlockLoop
  | [], s => pure s
  | b :: bs, s => do
    let s' ← applyBlockMessages sm r b.msgs { s with penalty := 0, gasReward := 0 }
    awardBlock sm r b s'
    applyEachBlock bs s'

/-- What `ApplyBlocks` gives: the state root, and the executed messages with their results. -/
structure TipSetResult where
  stateRoot : Hamt
  executed : List (ChainMsg × ApplyRet)

/-- The array of receipts whose root `ApplyBlocks` returns. -/
def TipSetResult.receipts (res : TipSetResult) : List MessageReceipt :=
  res.executed.map (·.2.receipt)

def applyBlocksOn (parentEpoch epoch : Int64) (bms : List BlockMessages) :
    Act VM NodeErr TipSetResult := do
  nullRounds sm r parentEpoch (epoch.toInt - parentEpoch.toInt).toNat parentEpoch
  let s ← applyEachBlock sm r bms ⟨[], [], 0, 0⟩
  runCron sm r
  let vm ← get
  let root ← (onTree (flush (sm.flushOrder vm.cstate))).mapError fun err =>
    NodeErr.wrap "vm flush failed" (.tree err)
  pure ⟨root, s.executed⟩

def applyBlocks (parentEpoch : Int64) (pstate : Hamt) (bms : List BlockMessages) (epoch : Int64) :
    Except NodeErr TipSetResult :=
  (applyBlocksOn sm r parentEpoch epoch bms ⟨loadStateTree pstate, epoch, []⟩).1

def hasDuplicateMiner (blks : List BlockHeader) : Bool := !decide (blks.map (·.miner)).Nodup

def parentEpochOf (first : BlockHeader) : Except NodeErr Int64 :=
  match first.parents with
  | [] => .ok 0
  | c :: _ => do
    let parent ← (sm.cs.getBlock c).mapError (.wrap "getting parent block")
    pure parent.height

/-- The messages of a block for `ApplyBlocks`. Reading the win count of a missing election proof
panics. -/
def loadBlockMessages (b : BlockHeader) : Except NodeErr BlockMessages := do
  let (bms, sms) ← (sm.cs.messagesForBlock b).mapError (.wrap "failed to get messages for block")
  match b.electionProof with
  | none => .error (.new "panic")
  | some proof =>
    pure ⟨b.miner, bms.map (·.toChainMsg sm.codec), sms.map (·.toChainMsg sm.codec), proof.winCount⟩

def computeTipSetState (ts : TipSet) : Except NodeErr TipSetResult :=
  if hasDuplicateMiner ts.blocks then .error (.new "duplicate miner in a tipset (%s %s)")
  else do
    let parentEpoch ← parentEpochOf sm ts.first
    let blkmsgs ← ts.blocks.mapM (loadBlockMessages sm)
    applyBlocks sm ⟨ts.cids sm.cs.hashing, ts.height⟩ parentEpoch ts.parentState blkmsgs ts.height

def tipSetState (ts : TipSet) : Except NodeErr (Hamt × List MessageReceipt) :=
  if ts.height = 0 then .ok (ts.first.parentStateRoot, ts.first.parentMessageReceipts)
  else do
    let res ← computeTipSetState sm ts
    pure (res.stateRoot, res.receipts)

end Lotus
