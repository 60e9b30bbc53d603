import Lotus.Sync.BadBlocks
import Lotus.Sync.Faults

/-!
# The sync of a chain

`Sync`, `collectChain` and `iterFullTipsets` of `chain/sync.go`, with `TryFillTipSet` of
`chain/store/store.go` and `GetChainMessages` of the client.
-/

namespace Lotus

open Check

/-! ## The parts -/

/-- `TryFillTipSet` of a block. No slice is longer than a Go `int`. -/
def fillBlock (ms : MessageStore) (b : BlockHeader) : Option FullBlock :=
  match ms.messagesForBlock b with
  | .error _ => none
  | .ok (bmsgs, smsgs) =>
    if h : bmsgs.length + smsgs.length < 2 ^ 63 then some ⟨b, bmsgs, smsgs, h⟩ else none

def tryFillTipSet (ms : MessageStore) (ts : TipSet) : Option (List FullBlock) :=
  ts.blocks.mapM (fillBlock ms)

def getChainMessagesLoop : List PeerAnswer → Option NodeErr → Except NodeErr (List BSTipSet)
  | [], none => .error (.new "GetChainMessages failed, no peers connected")
  | [], some err => .error (.wrap "GetChainMessages failed with all peers(%d)" err)
  | .done rerr :: peers, _ | .failed rerr :: peers, _ => getChainMessagesLoop peers (some rerr)
  | .response res :: peers, _ =>
    if res.status = statusOK ∨ res.status = statusPartial then .ok res.chain
    else getChainMessagesLoop peers (some (processStatus res))

def getChainMessages (hashing : Hashing) (peers : BlockSyncRequest → List PeerAnswer) (h : TipSet)
    (count : UInt64) : Except NodeErr (List BSTipSet) :=
  getChainMessagesLoop (peers ⟨h.cids hashing, count, bsOptMessages⟩) none

def BSTipSet.storageBlocks (bst : BSTipSet) : List MessageBlob :=
  bst.blsMessages.map Message.toStorageBlock ++ bst.secpkMessages.map SignedMessage.toStorageBlock

def persistMessages (bst : BSTipSet) : Except NodeErr (List MessageBlob) :=
  if bst.secpkMessages.any (·.signature.type ≠ .secp256k1) then
    .error (.new "unknown signature type on message %s: %q")
  else .ok bst.storageBlocks

def copyBlockstore (codec : Codec) (blobs : List MessageBlob) (roots : List MsgMeta)
    (ms : MessageStore) : MessageStore :=
  { blobs.foldl (fun ms blob => ms.putMessage codec blob) ms with roots := roots ++ ms.roots }

structure CopyFailure where
  copies : MessageBlob → Bool
  copiesRoot : MsgMeta → Bool

/-! ## A call of `Sync` -/

/-- Where a call is. `i` is the number of headers to go, and `bsi` that of the tipsets of the window
that are done. -/
inductive SyncPlace where
  | collecting
  | persisting
  | iterating (i : ℕ)
  | fetching (i : ℕ) (bstout : List BSTipSet)
  | zipping (i : ℕ) (bstout : List BSTipSet) (bsi : ℕ)
  | storing (i : ℕ) (bstout : List BSTipSet) (bsi : ℕ) (this : TipSet) (bstip : BSTipSet)
  | putting

structure SyncCall where
  maybeHead : TipSet
  headers : List TipSet
  place : SyncPlace

/-- The node, the blocks that were validated, and the call of `Sync` that runs. -/
structure SyncSystem where
  node : SyncNode
  validated : List Cid
  call : Option SyncCall

/-- What happens in a step of a call. -/
structure SyncTape where
  /-- The rounds of the loops of `collectHeaders` -/
  fuel : ℕ
  headerPeers : ℕ → BlockSyncRequest → List PeerAnswer
  /-- The number of headers that are stored before `PersistBlockHeaders` fails -/
  headerFailure : Option ℕ
  messagePeers : BlockSyncRequest → List PeerAnswer
  skipCache : SkipCache
  faults : FullBlock → EnvOp → Option Failure
  cancelled : FullBlock → Option Failure
  /-- The order in which goroutines finish -/
  finished : (vs : List Validation) → { l : List Validation // l.Perm vs }
  copyFailure : Option CopyFailure

def SyncTape.validation (tape : SyncTape) (validated : List Cid) (fts : List FullBlock) :
    TipSetValidation :=
  let vs := fts.map fun b => ⟨b, ⟨validated, tape.skipCache⟩, tape.faults b, tape.cancelled b⟩
  ⟨vs, tape.finished vs, (tape.finished vs).2⟩

def Syncer.over (syncer : Syncer) (s : SyncNode) : Syncer :=
  { syncer with
    sm := { syncer.sm with
      cs := { s.chain.store syncer with messagesForBlock := s.messages.messagesForBlock } } }

section

variable (syncer : Syncer) (errorText : NodeErr → String) (genesis : TipSet)
  (forkLengthThreshold : Int64)

namespace SyncSystem

variable (tape : SyncTape) (s : SyncSystem)

def goto (c : SyncCall) (place : SyncPlace) : SyncSystem :=
  { s with call := some { c with place } }

def return_ : SyncSystem := { s with call := none }

def validations (fts : List FullBlock) : List Validation :=
  (tape.validation s.validated fts).started (syncer.over s.node) genesis

def validate (fts : List FullBlock) : Except NodeErr Unit × SyncSystem :=
  let (res, node) := validateTipSet (syncer.over s.node) errorText genesis
    (tape.validation s.validated fts) s.node
  let marked := (s.validations syncer genesis tape fts).filter
    fun v => v.result (syncer.over s.node) = .ok ()
  (res, { s with node, validated := marked.map (·.cid syncer) ++ s.validated })

/-- `collectHeaders` in `collectChain`. A call whose rounds do not suffice does not return. -/
def collect (c : SyncCall) : SyncSystem :=
  match s.node.chain.heaviest with
  | none => s.return_
  | some known =>
    let (headers, bad) := collectHeaders ⟨s.node.chain.store syncer, genesis, forkLengthThreshold,
      tape.headerPeers⟩ tape.fuel c.maybeHead known s.node.bad
    let s := { s with node := { s.node with bad } }
    match headers with
    | .ok (some headers) => s.goto { c with headers } .persisting
    | .ok none | .error _ => s.return_

def persist (c : SyncCall) : SyncSystem :=
  let toPersist := c.headers.flatMap TipSet.blocks
  let store (bs : List BlockHeader) : SyncSystem :=
    { s with node := { s.node with chain := s.node.chain.persist syncer bs } }
  match tape.headerFailure with
  | none => (store toPersist).goto c (.iterating c.headers.length)
  | some n => (store (toPersist.take n)).return_

/-- The loop of `iterFullTipsets`, up to the window. -/
def iterate (c : SyncCall) : ℕ → SyncSystem
  | 0 => s.goto c .putting
  | i + 1 =>
    match c.headers[i]? with
    | none => s.return_
    | some ts =>
      match tryFillTipSet s.node.messages ts with
      | none => s.goto c (.fetching (i + 1) [])
      | some fts =>
        match s.validate syncer errorText genesis tape fts with
        | (.ok (), s) => s.goto c (.iterating i)
        | (.error _, s) => s.return_

def batchSize (i : ℕ) : ℕ := min 200 (i - 1)

/-- The loop of `iterFullTipsets` that asks for the window. -/
def fetch (c : SyncCall) (i : ℕ) (bstout : List BSTipSet) : SyncSystem :=
  if bstout.length < batchSize i then
    match c.headers[i - batchSize i + bstout.length]? with
    | none => s.return_
    | some next =>
      match getChainMessages syncer.sm.cs.hashing tape.messagePeers next
          (UInt64.ofNat (batchSize i - bstout.length)) with
      | .error _ => s.return_
      | .ok bstips => s.goto c (.fetching i (bstout ++ bstips))
  else s.goto c (.zipping i bstout 0)

def zipWindow (c : SyncCall) (i : ℕ) (bstout : List BSTipSet) (bsi : ℕ) :
    Except NodeErr (TipSet × BSTipSet × List FullBlock) :=
  if i - 1 < bsi then .error (.new "panic")
  else
    match c.headers[i - 1 - bsi]?, bstout[bstout.length - (bsi + 1)]? with
    | some this, some bstip => do
      let fts ← zipTipSetAndMessages syncer.sm.codec bstip.blsMessages bstip.secpkMessages this
        bstip.blsMsgIncludes bstip.secpkMsgIncludes
      pure (this, bstip, fts)
    | _, _ => .error (.new "panic")

/-- The loop of `iterFullTipsets` over the window, up to the callback. -/
def zip (c : SyncCall) (i : ℕ) (bstout : List BSTipSet) (bsi : ℕ) : SyncSystem :=
  if bsi < bstout.length then
    match zipWindow syncer c i bstout bsi with
    | .error _ => s.return_
    | .ok (this, bstip, fts) =>
      match s.validate syncer errorText genesis tape fts with
      | (.ok (), s) => s.goto c (.storing i bstout bsi this bstip)
      | (.error _, s) => s.return_
  else s.goto c (.iterating (i - batchSize i))

/-- The rest of the loop over the window: `persistMessages` and `copyBlockstore`. The temporary
store has the roots that `zipTipSetAndMessages` has computed. -/
def store (c : SyncCall) (i : ℕ) (bstout : List BSTipSet) (bsi : ℕ) (this : TipSet)
    (bstip : BSTipSet) : SyncSystem :=
  let roots := this.blocks.map (·.messages)
  let copy (blobs : List MessageBlob) (roots : List MsgMeta) : SyncSystem :=
    { s with node := { s.node with
        messages := copyBlockstore syncer.sm.codec blobs roots s.node.messages } }
  match persistMessages bstip, tape.copyFailure with
  | .error _, _ => s.return_
  | .ok blobs, none => (copy blobs roots).goto c (.zipping i bstout (bsi + 1))
  | .ok blobs, some failure =>
    (copy (blobs.filter failure.copies) (roots.filter failure.copiesRoot)).return_

def put (c : SyncCall) : SyncSystem :=
  let chain := (putTipSet (syncer.over s.node) c.maybeHead s.node.chain).2
  { s with node := { s.node with chain }, call := none }

def advance (c : SyncCall) : SyncSystem :=
  match c.place with
  | .collecting => s.collect syncer genesis forkLengthThreshold tape c
  | .persisting => s.persist syncer tape c
  | .iterating i => s.iterate syncer errorText genesis tape c i
  | .fetching i bstout => s.fetch syncer tape c i bstout
  | .zipping i bstout bsi => s.zip syncer errorText genesis tape c i bstout bsi
  | .storing i bstout bsi this bstip => s.store syncer tape c i bstout bsi this bstip
  | .putting => s.put syncer c

def sync (maybeHead : TipSet) : SyncSystem :=
  match s.node.chain.heaviest with
  | none => s
  | some head =>
    if head.first.parentWeight > maybeHead.first.parentWeight then s
    else if genesis.equals syncer.sm.cs.hashing maybeHead ∨
        head.equals syncer.sm.cs.hashing maybeHead then s
    else { s with call := some ⟨maybeHead, [], .collecting⟩ }

end SyncSystem

inductive NodeEvent where
  | inform (genesisBlock : Except NodeErr BlockHeader) (self source : PeerID)
      (fts : List FullBlock)
  | sync (maybeHead : TipSet)
  | advance (tape : SyncTape)

/-- The system after an event. There is one call of `Sync` after another. -/
def SyncSystem.step (s : SyncSystem) : NodeEvent → Option SyncSystem
  | .inform genesisBlock self source fts =>
    some { s with
      node := (informNewHead syncer genesisBlock self (fun _ => pure ()) source fts s.node).2 }
  | .sync maybeHead =>
    if s.call.isSome then none else some (s.sync syncer genesis maybeHead)
  | .advance tape =>
    s.call.map (s.advance syncer errorText genesis forkLengthThreshold tape)

end

end Lotus
