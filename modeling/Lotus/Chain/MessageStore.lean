import Lotus.Chain.Ancestry
import Lotus.Lib.Aligned

/-!
# Stored messages

How the messages of a block are stored under their CIDs and found again from its header.
-/

namespace Lotus

open Check List

inductive MessageBlob where
  | message (m : Message)
  | signed (sm : SignedMessage)
deriving DecidableEq

def MessageBlob.cid (codec : Codec) : MessageBlob → Cid
  | message m => codec.messageCid m
  | signed sm => codec.signedCid sm

def Message.toStorageBlock (m : Message) : MessageBlob := .message m

def SignedMessage.toStorageBlock (sm : SignedMessage) : MessageBlob :=
  if sm.signature.type = .bls then sm.message.toStorageBlock else .signed sm

/-- What `ToStorageBlock` gives: not a signed message with a BLS signature. -/
def MessageBlob.IsStorageBlock (blob : MessageBlob) : Prop :=
  ∀ sm, blob = .signed sm → sm.signature.type ≠ .bls

lemma Message.isStorageBlock (m : Message) : m.toStorageBlock.IsStorageBlock := by
  intro sm h
  cases h

lemma SignedMessage.isStorageBlock (sm : SignedMessage) : sm.toStorageBlock.IsStorageBlock := by
  unfold toStorageBlock
  split_ifs with htype
  · exact sm.message.isStorageBlock
  · rintro _ ⟨⟩
    exact htype

/-- The part of a block store that has messages and the arrays of their CIDs. -/
structure MessageStore where
  blobs : Cid → Option MessageBlob
  /-- The message roots that are stored with their arrays. -/
  roots : List MsgMeta

namespace MessageStore

variable (codec : Codec) (ms : MessageStore)

def getMessage (c : Cid) : Except NodeErr Message :=
  match ms.blobs c with
  | none => .error (.new "blockstore: block not found")
  | some (.signed _) => .error (.new "cbor input had wrong number of fields")
  | some (.message m) =>
    if m.version ≠ 0 then .error (.new "decoded message had incorrect version (%d)") else .ok m

def getSignedMessage (c : Cid) : Except NodeErr SignedMessage :=
  match ms.blobs c with
  | none => .error (.new "blockstore: block not found")
  | some (.message _) => .error (.new "cbor input had wrong number of fields")
  | some (.signed sm) => .ok sm

def loadMessagesFromCids (cids : List Cid) : Except NodeErr (List Message) :=
  cids.mapM fun c =>
    (ms.getMessage c).mapError fun _ => .new "failed to get message: (%s):%d: %w"

def loadSignedMessagesFromCids (cids : List Cid) : Except NodeErr (List SignedMessage) :=
  cids.mapM fun c =>
    (ms.getSignedMessage c).mapError fun _ => .new "failed to get message: (%s):%d: %w"

def readMsgMetaCids (root : MsgMeta) : Except NodeErr (List Cid × List Cid) :=
  if root ∈ ms.roots then .ok (root.blsMessages, root.secpkMessages)
  else .error (.wrap "failed to load msgmeta (%s)" (.new "blockstore: block not found"))

def messagesForBlock (b : BlockHeader) :
    Except NodeErr (List Message × List SignedMessage) := do
  let (blscids, secpkcids) ← ms.readMsgMetaCids b.messages
  let blsmsgs ← (ms.loadMessagesFromCids blscids).mapError
    (.wrap "loading bls messages for block")
  let secpkmsgs ← (ms.loadSignedMessagesFromCids secpkcids).mapError
    (.wrap "loading secpk messages for block")
  pure (blsmsgs, secpkmsgs)

def putMessage (blob : MessageBlob) : MessageStore :=
  { ms with blobs := Function.update ms.blobs (blob.cid codec) (some blob) }

variable {codec ms}

lemma getMessage_eq_ok {c : Cid} {m : Message} :
    ms.getMessage c = .ok m ↔ ms.blobs c = some (.message m) ∧ m.version = 0 := by
  unfold getMessage
  grind

lemma getSignedMessage_eq_ok {c : Cid} {sm : SignedMessage} :
    ms.getSignedMessage c = .ok sm ↔ ms.blobs c = some (.signed sm) := by
  unfold getSignedMessage
  grind

variable {secpk : List SignedMessage} {b : BlockHeader} {bls : List Message}

/-- The messages of a block are found exactly if its root is stored, with a message under each of
the CIDs. -/
lemma messagesForBlock_eq_ok : ms.messagesForBlock b = .ok (bls, secpk) ↔ b.messages ∈ ms.roots ∧
      List.Forall₂ (fun c m => ms.blobs c = some (.message m) ∧ m.version = 0)
        b.messages.blsMessages bls ∧
      List.Forall₂ (fun c sm => ms.blobs c = some (.signed sm)) b.messages.secpkMessages secpk := by
  unfold messagesForBlock readMsgMetaCids loadMessagesFromCids loadSignedMessagesFromCids
  split_ifs with hroot
  · simp only [bind_eq_ok, mapError_eq_ok, mapM_eq_ok, getMessage_eq_ok, getSignedMessage_eq_ok]
    constructor
    · rintro ⟨_, hcids, bls', hbls, secpk', hsecpk, hpair⟩
      cases hcids
      cases hpair
      exact ⟨hroot, hbls, hsecpk⟩
    · rintro ⟨-, hbls, hsecpk⟩
      exact ⟨_, rfl, bls, hbls, secpk, hsecpk, rfl⟩
  · exact iff_of_false nofun fun h => hroot h.1

lemma putMessage_blobs (blob : MessageBlob) (c : Cid) :
    (ms.putMessage codec blob).blobs c = if c = blob.cid codec then some blob else ms.blobs c :=
  Function.update_apply ..

variable (codec ms) in
/-- Each message is stored under its CID, and as `ToStorageBlock` encodes it. -/
def Addressed : Prop :=
  ∀ c blob, ms.blobs c = some blob → blob.IsStorageBlock ∧ blob.cid codec = c

namespace Addressed

lemma putMessage (h : ms.Addressed codec) {blob : MessageBlob} (hblob : blob.IsStorageBlock) :
    (ms.putMessage codec blob).Addressed codec := by
  intro c x hx
  rw [putMessage_blobs] at hx
  split_ifs at hx with hc
  · cases hx
    exact ⟨hblob, hc.symm⟩
  · exact h c x hx

lemma signedMessage_cid (h : ms.Addressed codec) {c : Cid} {sm : SignedMessage}
    (hsm : ms.blobs c = some (.signed sm)) : sm.cid codec = c := by
  obtain ⟨htype, hcid⟩ := h c _ hsm
  rwa [SignedMessage.cid, if_neg (htype sm rfl)]

lemma messages_eq (h : ms.Addressed codec) (hb : ms.messagesForBlock b = .ok (bls, secpk)) :
    b.messages = ⟨bls.map codec.messageCid, secpk.map (·.cid codec)⟩ := by
  obtain ⟨-, hbls, hsecpk⟩ := messagesForBlock_eq_ok.mp hb
  have hblsCids : b.messages.blsMessages = bls.map codec.messageCid := by
    rw [← forall₂_eq_eq_eq, forall₂_map_right_iff]
    exact hbls.imp fun c m hm => (h c _ hm.1).2.symm
  have hsecpkCids : b.messages.secpkMessages = secpk.map (·.cid codec) := by
    rw [← forall₂_eq_eq_eq, forall₂_map_right_iff]
    exact hsecpk.imp fun c sm hsm => (h.signedMessage_cid hsm).symm
  rw [← hblsCids, ← hsecpkCids]

lemma blobs_messageCid (h : ms.Addressed codec) (hb : ms.messagesForBlock b = .ok (bls, secpk)) :
    (∀ m ∈ bls, ms.blobs (codec.messageCid m) = some (.message m)) ∧
      ∀ sm ∈ secpk, ms.blobs (sm.cid codec) = some (.signed sm) := by
  obtain ⟨-, hbls, hsecpk⟩ := messagesForBlock_eq_ok.mp hb
  constructor
  · intro m hm
    obtain ⟨c, -, hc, -⟩ := Aligned.exists_of_mem_right hbls hm
    rwa [show codec.messageCid m = c from (h c _ hc).2]
  · intro sm hsm
    obtain ⟨c, -, hc⟩ := Aligned.exists_of_mem_right hsecpk hsm
    rwa [h.signedMessage_cid hc]

end Addressed

/-! ## Stores that grow -/

def Loads (ms : MessageStore) (b : BlockHeader) : Prop := ∃ msgs, ms.messagesForBlock b = .ok msgs
deriving Decidable

lemma loads_of_blobs (hroot : b.messages ∈ ms.roots)
    (hmsgs : b.messages = ⟨bls.map codec.messageCid, secpk.map (·.cid codec)⟩)
    (hbls : ∀ m ∈ bls, ms.blobs (codec.messageCid m) = some (.message m) ∧ m.version = 0)
    (hsecpk : ∀ sm ∈ secpk, ms.blobs (sm.cid codec) = some (.signed sm)) : ms.Loads b := by
  refine ⟨(bls, secpk), messagesForBlock_eq_ok.mpr ⟨hroot, ?_, ?_⟩⟩ <;> simp_all

structure Extends (ms ms' : MessageStore) : Prop where
  blobs : ∀ c blob, ms.blobs c = some blob → ms'.blobs c = some blob
  roots : ∀ root ∈ ms.roots, root ∈ ms'.roots

namespace Extends

variable {ms' ms'' : MessageStore}

lemma refl (ms : MessageStore) : ms.Extends ms := ⟨fun _ _ h => h, fun _ h => h⟩

lemma trans (h : ms.Extends ms') (h' : ms'.Extends ms'') : ms.Extends ms'' :=
  ⟨fun c blob hblob => h'.blobs c blob (h.blobs c blob hblob),
    fun root hroot => h'.roots root (h.roots root hroot)⟩

lemma loads (h : ms.Extends ms') (hb : ms.Loads b) : ms'.Loads b := by
  obtain ⟨⟨bls, secpk⟩, hmsgs⟩ := hb
  obtain ⟨hroot, hbls, hsecpk⟩ := messagesForBlock_eq_ok.mp hmsgs
  exact ⟨(bls, secpk), messagesForBlock_eq_ok.mpr ⟨h.roots _ hroot,
    hbls.imp fun c m hm => ⟨h.blobs c _ hm.1, hm.2⟩, hsecpk.imp fun c sm hsm => h.blobs c _ hsm⟩⟩

end Extends

variable (codec) in
/-- The store has messages of the set `U`, each under its CID. -/
structure HoldsOf (U : Set MessageBlob) (ms : MessageStore) : Prop where
  addressed : ms.Addressed codec
  mem : ∀ c blob, ms.blobs c = some blob → blob ∈ U

section

variable {U : Set MessageBlob}

lemma HoldsOf.putMessage (hinj : Set.InjOn (MessageBlob.cid codec) U) (h : ms.HoldsOf codec U)
    {blob : MessageBlob} (hblob : blob ∈ U) (hstorage : blob.IsStorageBlock) :
    (ms.putMessage codec blob).HoldsOf codec U ∧ ms.Extends (ms.putMessage codec blob) := by
  refine ⟨⟨h.addressed.putMessage hstorage, fun c x hx => ?_⟩, ⟨fun c x hx => ?_, fun _ h => h⟩⟩
  · grind [putMessage_blobs, h.mem]
  · rw [putMessage_blobs]
    split_ifs with hc
    · rw [hinj hblob (h.mem c x hx) (hc.symm.trans (h.addressed c x hx).2.symm)]
    · exact hx

lemma HoldsOf.putMessages (hinj : Set.InjOn (MessageBlob.cid codec) U)
    {blobs : List MessageBlob} (hblobs : ∀ blob ∈ blobs, blob ∈ U ∧ blob.IsStorageBlock)
    (h : ms.HoldsOf codec U) :
    let ms' := blobs.foldl (fun ms blob => ms.putMessage codec blob) ms
    ms'.HoldsOf codec U ∧ ms.Extends ms' ∧
      ∀ blob ∈ blobs, ms'.blobs (blob.cid codec) = some blob := by
  induction blobs generalizing ms with
  | nil => exact ⟨h, .refl ms, forall_mem_nil _⟩
  | cons blob blobs ih =>
    obtain ⟨hblob, hrest⟩ := forall_mem_cons.mp hblobs
    obtain ⟨hput, hext⟩ := h.putMessage hinj hblob.1 hblob.2
    obtain ⟨hall, hext', hfound⟩ := ih hrest hput
    refine ⟨hall, hext.trans hext', forall_mem_cons.mpr ⟨?_, hfound⟩⟩
    exact hext'.blobs _ _ ((putMessage_blobs blob _).trans (if_pos rfl))

lemma HoldsOf.withRoots (h : ms.HoldsOf codec U) (roots : List MsgMeta) :
    HoldsOf codec U { ms with roots } := ⟨h.addressed, h.mem⟩

end

end MessageStore

end Lotus
