import Lotus.Chain.HeadChanges
import Lotus.Chain.MessageStore
import Lotus.Sub.Incoming

/-!
# New heads

`InformNewHead` and `ValidateMsgMeta` of `chain/sync.go`, which a full tipset from a peer is handed
to, and the cache of bad blocks of `chain/badtscache.go`.
-/

namespace Lotus

open Act

inductive BadBlockReason where
  | mk (reason : String) (tipSet : List Cid) (originalReason : Option BadBlockReason)

def newBadBlockReason (cids : List Cid) (reason : String) : BadBlockReason := .mk reason cids none

def BadBlockReason.linked (bbr : BadBlockReason) (reason : String) : BadBlockReason :=
  match bbr with
  | .mk _ _ (some original) => .mk reason [] (some original)
  | .mk _ _ none => .mk reason [] (some bbr)

abbrev BadBlockCache := Cid → Option BadBlockReason

/-- What the syncer reads and writes: the chain store, the stored messages, the bad blocks, and the
tipsets that the sync manager was given. -/
structure SyncNode where
  chain : HeadState
  messages : MessageStore
  bad : BadBlockCache
  peerHeads : List (PeerID × TipSet)

def SyncNode.onChain {α : Type} (x : Act HeadState NodeErr α) : Act SyncNode NodeErr α :=
  x.zoom SyncNode.chain fun s chain => { s with chain }

/-! ## `InformNewHead` -/

section

variable (syncer : Syncer)

def maxHeightDrift : Int64 := 5

def isEpochBeyondCurrMax (genesis : Except NodeErr BlockHeader) (epoch : Int64) : Bool :=
  match genesis with
  | .error _ => false
  | .ok g =>
    epoch > ((syncer.now - g.timestamp) / syncer.sm.cs.config.blockDelaySecs).toInt64 +
      maxHeightDrift

def FullBlock.storageBlocks (b : FullBlock) : List MessageBlob :=
  b.blsMessages.map Message.toStorageBlock ++ b.secpkMessages.map SignedMessage.toStorageBlock

/-- `ValidateMsgMeta`. The arrays of CIDs are stored when their root is computed, before it is
compared. -/
def Syncer.validateMsgMeta (fblk : FullBlock) : Act SyncNode NodeErr Unit :=
  if fblk.blsMessages.length + fblk.secpkMessages.length > blockMessageLimit then
    fail (.new "block %s has too many messages (%d)")
  else do
    let smroot : MsgMeta := ⟨fblk.blsMessages.map syncer.sm.codec.messageCid,
      fblk.secpkMessages.map (·.cid syncer.sm.codec)⟩
    modify fun s =>
      { s with messages := { s.messages with roots := smroot :: s.messages.roots } }
    if fblk.header.messages ≠ smroot then
      fail (.new "messages in full block did not match msgmeta root in header (%s != %s)")
    else modify fun s =>
      { s with
        messages := fblk.storageBlocks.foldl (fun ms blob => ms.putMessage syncer.sm.codec blob)
          s.messages }

/-- The loop of `InformNewHead` over the blocks: whether all of them are fine. -/
def informLoop : List FullBlock → Act SyncNode NodeErr Bool
  | [] => pure true
  | b :: blks => do
    let s ← get
    match s.bad (syncer.sm.cs.hashing.headerCid b.header) with
    | some _ => pure false
    | none =>
      match ← (syncer.validateMsgMeta b).attempt with
      | .error _ => pure false
      | .ok () => informLoop blks

/-- The end of `InformNewHead`: a tipset that may be better than the head is handed to the sync
manager. -/
def takePeerHead (source : PeerID) (ts : TipSet) : Act SyncNode NodeErr Bool := do
  SyncNode.onChain (persistBlockHeaders syncer ts.blocks)
  let s ← get
  match s.chain.heaviest with
  | none => fail (.new "panic")
  | some best =>
    if ts.first.parentWeight < best.first.parentWeight then pure false
    else
      modify fun s => { s with peerHeads := s.peerHeads ++ [(source, ts)] }
      pure true

/-- `InformNewHead` of blocks that make the tipset `ts`, with `Sync` for those of the node
itself. -/
def informTipSet (genesis : Except NodeErr BlockHeader) (self : PeerID)
    (sync : TipSet → Act SyncNode NodeErr Unit) (source : PeerID) (fts : List FullBlock)
    (ts : TipSet) : Act SyncNode NodeErr Bool :=
  if isEpochBeyondCurrMax syncer genesis ts.height then pure false
  else do
    if !(← informLoop syncer fts) then pure false
    else if source = self then
      match ← (sync ts).attempt with
      | .error _ => pure false
      | .ok () => pure true
    else takePeerHead syncer source ts

/-- `InformNewHead`. `fts.TipSet` panics if the blocks do not make a tipset. -/
def informNewHead (genesis : Except NodeErr BlockHeader) (self : PeerID)
    (sync : TipSet → Act SyncNode NodeErr Unit) (source : PeerID) (fts : List FullBlock) :
    Act SyncNode NodeErr Bool :=
  match newTipSet syncer.sm.cs.hashing (fts.map (·.header)) with
  | .error _ => fail (.new "panic")
  | .ok ts => informTipSet syncer genesis self sync source fts ts

end

/-! ## What it returns -/

variable {syncer : Syncer}

def SyncNode.SameChain (s s' : SyncNode) : Prop := s'.chain = s.chain

instance : Std.Refl SyncNode.SameChain := ⟨fun _ => rfl⟩

instance : IsTrans SyncNode SyncNode.SameChain := ⟨fun _ _ _ h h' => h'.trans h⟩

lemma Syncer.keeps_validateMsgMeta (fblk : FullBlock) :
    Keeps SyncNode.SameChain (syncer.validateMsgMeta fblk) :=
  .ite (fun _ => .fail _) fun _ => .bind (.modify fun _ => rfl) fun _ =>
    .ite (fun _ => .fail _) fun _ => .modify fun _ => rfl

lemma informLoop_ok (blks : List FullBlock) (s : SyncNode) :
    ∃ b s', informLoop syncer blks s = (.ok b, s') ∧ s'.chain = s.chain := by
  induction blks generalizing s with
  | nil => exact ⟨true, s, rfl, rfl⟩
  | cons b blks ih =>
    rw [informLoop, bind_of_ok (get_apply s)]
    rcases s.bad (syncer.sm.cs.hashing.headerCid b.header) with - | reason
    · dsimp only
      rw [bind_of_ok (attempt_apply _ s)]
      have hchain : (syncer.validateMsgMeta b s).2.chain = s.chain :=
        Syncer.keeps_validateMsgMeta b s
      rcases (syncer.validateMsgMeta b s).1 with err | ⟨⟩
      · exact ⟨false, _, rfl, hchain⟩
      · obtain ⟨ok, s', hrun, hs'⟩ := ih (syncer.validateMsgMeta b s).2
        exact ⟨ok, s', hrun, hs'.trans hchain⟩
    · exact ⟨false, s, rfl, rfl⟩

lemma takePeerHead_ne_panic {source : PeerID} {ts : TipSet} {s : SyncNode}
    (hhead : s.chain.heaviest.isSome) :
    (takePeerHead syncer source ts s).1 ≠ .error (.new "panic") := by
  obtain ⟨best, hbest⟩ := Option.isSome_iff_exists.mp hhead
  have hpersist : SyncNode.onChain (persistBlockHeaders syncer ts.blocks) s =
      (.ok (), { s with chain := s.chain.persist syncer ts.blocks }) := rfl
  rw [takePeerHead, bind_of_ok hpersist, bind_of_ok (get_apply _)]
  rw [show (s.chain.persist syncer ts.blocks).heaviest = some best from hbest]
  dsimp only
  split_ifs <;> nofun

variable {genesis : Except NodeErr BlockHeader} {self source : PeerID}
  {sync : TipSet → Act SyncNode NodeErr Unit} {fts : List FullBlock} {s : SyncNode}

lemma informTipSet_ne_panic {ts : TipSet} (hhead : s.chain.heaviest.isSome) :
    (informTipSet syncer genesis self sync source fts ts s).1 ≠ .error (.new "panic") := by
  unfold informTipSet
  split
  · nofun
  obtain ⟨ok, s', hloop, hchain⟩ : ∃ ok s', informLoop syncer fts s = (.ok ok, s') ∧
      s'.chain = s.chain := informLoop_ok fts s
  rw [bind_of_ok hloop]
  split_ifs
  · nofun
  · rw [bind_of_ok (attempt_apply _ s')]
    rcases (sync ts s').1 with err | ⟨⟩ <;> nofun
  · refine takePeerHead_ne_panic ?_
    rwa [hchain]

lemma informNewHead_ne_panic_iff (hhead : s.chain.heaviest.isSome) :
    (informNewHead syncer genesis self sync source fts s).1 ≠ .error (.new "panic") ↔
      ∃ ts, newTipSet syncer.sm.cs.hashing (fts.map (·.header)) = .ok ts := by
  rw [informNewHead]
  generalize newTipSet syncer.sm.cs.hashing (fts.map (·.header)) = r
  rcases r with err | ts
  · exact iff_of_false (fun h => h rfl) fun ⟨_, h⟩ => nomatch h
  · exact iff_of_true (informTipSet_ne_panic hhead) ⟨ts, rfl⟩

end Lotus
