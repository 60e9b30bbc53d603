import Lotus.Chain.Block

/-!
# The chain store

How tipsets are loaded, found by height with and without the skip index, and looked up for the
lookback and the latest beacon entry.
-/

namespace Lotus

open Act

/-- The parameters of the build and of the process. -/
structure Config where
  blockDelaySecs : UInt64
  blocksPerEpoch : UInt64
  insecurePoStValidation : Bool
  ignoreDrand : Bool

structure ChainStore where
  config : Config
  hashing : Hashing
  getBlock : Cid → Except NodeErr BlockHeader
  messagesForBlock : BlockHeader → Except NodeErr (List Message × List SignedMessage)
  depth : ℕ

variable (cs : ChainStore)

def loadTipSet (tsk : List Cid) : Except NodeErr TipSet := do
  let blks ← tsk.mapM fun c => (cs.getBlock c).mapError (.wrap "get block %s")
  newTipSet cs.hashing blks

def searchBeaconEntry : ℕ → TipSet → Except NodeErr BeaconEntry
  | 0, _ =>
    if cs.config.ignoreDrand then .ok ⟨0, List.replicate 16 9⟩
    else .error (.new "found NO beacon entries in the 20 blocks prior to given tipset")
  | n + 1, cur =>
    match cur.first.beaconEntries.getLast? with
    | some entry => .ok entry
    | none =>
      if cur.height = 0 then
        .error (.new "made it back to genesis block without finding beacon entry")
      else do
        let next ← (loadTipSet cs cur.parents).mapError
          (.wrap "failed to load parents when searching back for latest beacon entry")
        searchBeaconEntry n next

def getLatestBeaconEntry (ts : TipSet) : Except NodeErr BeaconEntry := searchBeaconEntry cs 20 ts

/-! ## The skip index -/

structure LbEntry where
  ts : TipSet
  parentHeight : Int64
  targetHeight : Int64
  target : List Cid

abbrev SkipCache := List Cid → Option LbEntry

def skipLength : Int64 := 20

def walkBackLoop (target : Int64) : ℕ → TipSet → Except NodeErr TipSet
  | 0, _ => .error (.new "chain is longer than the store")
  | n + 1, ts => do
    let pts ← loadTipSet cs ts.parents
    if target > pts.height then .ok ts
    else if target = pts.height then .ok pts
    else walkBackLoop target n pts

def walkBack (source : TipSet) (target : Int64) : Except NodeErr TipSet :=
  if target > source.height then
    .error (.new "looking for tipset with height greater than start point")
  else if target = source.height then .ok source
  else walkBackLoop cs target cs.depth source

def roundHeight (h : Int64) : Int64 := h / skipLength * skipLength

/-- What `fillCache` computes for a tipset above the genesis. -/
def lbEntryOf (ts : TipSet) : Except NodeErr LbEntry := do
  let parent ← loadTipSet cs ts.parents
  let rheight := roundHeight ts.height - skipLength
  let skipTarget ←
    if parent.height < rheight then .ok parent
    else (walkBack cs parent rheight).mapError (.wrap "fillCache walkback")
  pure ⟨ts, parent.height, skipTarget.height, skipTarget.cids cs.hashing⟩

def fillCache (tsk : List Cid) : Act SkipCache NodeErr LbEntry := do
  let ts ← ofExcept (loadTipSet cs tsk)
  if ts.height = 0 then pure ⟨ts, 0, 0, []⟩
  else
    let lbe ← ofExcept (lbEntryOf cs ts)
    modify fun cache => Function.update cache tsk (some lbe)
    pure lbe

def lbEntryFor (cur : List Cid) : Act SkipCache NodeErr LbEntry := do
  let cache ← get
  match cache cur with
  | some lbe => pure lbe
  | none => fillCache cs cur

/-- The loop of `ChainIndex.GetTipsetByHeight`. -/
def skipLoop (target : Int64) : ℕ → List Cid → Act SkipCache NodeErr TipSet
  | 0, _ => fail (.new "chain is longer than the store")
  | n + 1, cur => do
    let lbe ← lbEntryFor cs cur
    if lbe.ts.height = target ∨ lbe.parentHeight < target then pure lbe.ts
    else if target > lbe.targetHeight then ofExcept (walkBack cs lbe.ts target)
    else skipLoop target n lbe.target

def indexGetTipsetByHeight (source : TipSet) (target : Int64) : Act SkipCache NodeErr TipSet :=
  if source.height - target ≤ skipLength then ofExcept (walkBack cs source target)
  else do
    let rounded ← ofExcept (walkBack cs source (roundHeight source.height))
    skipLoop cs target cs.depth (rounded.cids cs.hashing)

def indexOrWalkBack (ts : TipSet) (h : Int64) : Act SkipCache NodeErr TipSet := do
  let lbts ← indexGetTipsetByHeight cs ts h
  if lbts.height < h then ofExcept (walkBack cs ts h) else pure lbts

def getTipsetByHeight (h : Int64) (ts : TipSet) (prev : Bool) : Act SkipCache NodeErr TipSet :=
  if h > ts.height then
    fail (.new "looking for tipset with height greater than start point")
  else if h = ts.height then pure ts
  else do
    let lbts ← indexOrWalkBack cs ts h
    if lbts.height = h ∨ !prev then pure lbts
    else ofExcept (loadTipSet cs lbts.parents)

def winningPoStSectorSetLookback : Int64 := 10

def lookbackRound (round : Int64) : Int64 :=
  if round > winningPoStSectorSetLookback then round - winningPoStSectorSetLookback else 0

def getLookbackTipSetForRound (ts : TipSet) (round : Int64) : Act SkipCache NodeErr TipSet :=
  if lookbackRound round > ts.height then pure ts
  else (getTipsetByHeight cs (lookbackRound round) ts true).mapError
    (.wrap "failed to get lookback tipset")

end Lotus
