import Lotus.Blocksync.Server
import Lotus.Sub.BlockSignature
import Lotus.Sync.Incoming

/-!
# What a peer can make panic

The functions that take blocks, tipsets and responses as they come off the wire, and when they
panic.
-/

namespace Lotus

open Check Interning List Option

/-! ## Values off the wire -/

def maxLength : ℕ := 8192

/-- A `BSTipSet` that was decoded. -/
structure WireTipSet extends BSTipSet where
  blsIncludes_le : ∀ is ∈ blsMsgIncludes, is.length ≤ maxLength
  secpkIncludes_le : ∀ is ∈ secpkMsgIncludes, is.length ≤ maxLength

namespace BSTipSet

variable (bts : BSTipSet)

/-- The BLS messages that the block at `i` includes. -/
def blsMessagesOf (i : ℕ) : Option (List Message) :=
  bts.blsMsgIncludes[i]?.bind (getAll bts.blsMessages)

/-- The secp messages that the block at `i` includes. -/
def secpkMessagesOf (i : ℕ) : Option (List SignedMessage) :=
  bts.secpkMsgIncludes[i]?.bind (getAll bts.secpkMessages)

end BSTipSet

lemma length_le_of_bind_getAll {α : Type} {n i : ℕ} {includes : List (List ℕ)} {items as : List α}
    (hle : ∀ is ∈ includes, is.length ≤ n) (h : includes[i]?.bind (getAll items) = some as) :
    as.length ≤ n := by
  obtain ⟨is, his, has⟩ := bind_eq_some_iff.mp h
  rw [getAll_length has]
  exact hle is (mem_of_getElem? his)

def WireTipSet.fullBlock (bts : WireTipSet) (p : BlockHeader × ℕ) : Except NodeErr FullBlock :=
  match hbls : bts.blsMessagesOf p.2, hsecpk : bts.secpkMessagesOf p.2 with
  | some blsMessages, some secpkMessages =>
    .ok ⟨p.1, blsMessages, secpkMessages, by
      have hbls := length_le_of_bind_getAll bts.blsIncludes_le hbls
      have hsecpk := length_le_of_bind_getAll bts.secpkIncludes_le hsecpk
      rw [maxLength] at hbls hsecpk
      omega⟩
  | _, _ => .error (.new "panic")

def bstsToFullTipSet (bts : WireTipSet) : Except NodeErr (List FullBlock) :=
  bts.blocks.zipIdx.mapM bts.fullBlock

/-- What is done with a tipset that a peer has sent: `bstsToFullTipSet`, and `InformNewHead` of what
it returns. -/
def informFromPeer (syncer : Syncer) (genesis : Except NodeErr BlockHeader) (self : PeerID)
    (sync : TipSet → Act SyncNode NodeErr Unit) (source : PeerID) (bts : WireTipSet) :
    Act SyncNode NodeErr Bool := do
  let fts ← Act.ofExcept (bstsToFullTipSet bts)
  informNewHead syncer genesis self sync source fts

structure WireBlockMsg where
  header : Option BlockHeader
  blsMessages : List Cid
  secpkMessages : List Cid

/-- `Validate` of a message as it is decoded. The header is looked at after the number of messages,
and reading a missing one panics. -/
def validateWire (syncer : Syncer) (nowNano : UInt64) (pid : PeerID) :
    Option WireBlockMsg → Act GossipState NodeErr ValidationResult
  | none => validate syncer nowNano pid none
  | some msg =>
    if msg.blsMessages.length + msg.secpkMessages.length > blockMessageLimit then recordFailure pid
    else
      match msg.header with
      | none => Act.fail (.new "panic")
      | some header =>
        validate syncer nowNano pid (some ⟨header, msg.blsMessages, msg.secpkMessages⟩)

/-! ## What is relied on -/

def InRange {α : Type} (items : List α) (is : List ℕ) : Prop := ∀ i ∈ is, i < items.length

lemma getAll_ne_none_iff {α : Type} {items : List α} {is : List ℕ} :
    getAll items is ≠ none ↔ InRange items is := by
  constructor
  · intro h i hi
    obtain ⟨as, has⟩ := ne_none_iff_exists'.mp h
    obtain ⟨a, -, ha⟩ := Aligned.exists_of_mem_right (getAll_eq_some.mp has).flip hi
    exact (List.getElem?_eq_some_iff.mp ha).1
  · intro h
    obtain ⟨as, has⟩ : ∃ as, List.Forall₂ (fun i a => items[i]? = some a) is as :=
      Aligned.exists_forall₂ fun i hi => ⟨items.get ⟨i, h i hi⟩, getElem?_eq_getElem (h i hi)⟩
    rw [getAll_eq_some.mpr has]
    exact some_ne_none as

def ZipInRange (codec : Codec) (bst : BSTipSet) (ts : TipSet) : Prop :=
  ts.blocks.length = bst.secpkMsgIncludes.length ∧ ts.blocks.length = bst.blsMsgIncludes.length →
    ∀ pre p post, ts.blocks.zip (bst.blsMsgIncludes.zip bst.secpkMsgIncludes) = pre ++ p :: post →
      (∀ q ∈ pre, ∃ fb,
        zipBlock codec bst.blsMessages bst.secpkMessages q.1 q.2.1 q.2.2 = .ok fb) →
      p.2.1.length + p.2.2.length ≤ blockMessageLimit →
        InRange bst.blsMessages p.2.1 ∧ InRange bst.secpkMessages p.2.2

def BSTipSet.Complete (bst : BSTipSet) : Prop :=
  ∀ i < bst.blocks.length,
    (∃ is, bst.blsMsgIncludes[i]? = some is ∧ InRange bst.blsMessages is) ∧
      ∃ is, bst.secpkMsgIncludes[i]? = some is ∧ InRange bst.secpkMessages is

def Sortable (blks : List BlockHeader) : Prop :=
  2 ≤ blks.length → ∀ b ∈ blks, b.ticket.isSome

structure MakesTipSet (blks : List BlockHeader) : Prop where
  ne_nil : blks ≠ []
  sortable : Sortable blks
  same : ∀ b ∈ blks, ∀ x ∈ blks, x.height = b.height ∧ x.parents = b.parents

/-- A tipset of the response whose predecessors are accepted has tickets to sort it by. -/
def ResponseSortable (hashing : Hashing) (res : BlockSyncResponse) : Prop :=
  ∀ pre bst post, res.chain = pre ++ bst :: post →
    (pre = [] ∨ ∃ out, processBlocksResponse hashing { res with chain := pre } = .ok out) →
      Sortable bst.blocks

def GossipComplete (syncer : Syncer) (s : GossipState) (msg : WireBlockMsg) : Prop :=
  msg.blsMessages.length + msg.secpkMessages.length ≤ blockMessageLimit →
    ∃ header, msg.header = some header ∧
      (header.messages = ⟨msg.blsMessages, msg.secpkMessages⟩ → ∀ key s',
        checkPowerAndGetWorkerKey syncer header s = (.ok key, s') →
          SigVerifies syncer.proofs.verifyBlockSig header key → header.electionProof.isSome)

/-! ## What panics -/

section

variable {codec : Codec} {bst : BSTipSet} {ts : TipSet} {bts : WireTipSet}

lemma zipBlock_ne_panic_iff {b : BlockHeader} {bmi smi : List ℕ} :
    zipBlock codec bst.blsMessages bst.secpkMessages b bmi smi ≠ .error (.new "panic") ↔
      (bmi.length + smi.length ≤ blockMessageLimit →
        InRange bst.blsMessages bmi ∧ InRange bst.secpkMessages smi) := by
  rw [← getAll_ne_none_iff, ← getAll_ne_none_iff]
  unfold zipBlock
  split_ifs with hlimit
  · exact iff_of_true (by decide) fun h => absurd h hlimit.not_ge
  have hle := not_lt.mp hlimit
  split
  next hsmsgs => exact iff_of_false (fun h => h rfl) fun h => (h hle).2 hsmsgs
  next smsgs hsmsgs =>
    split
    next hbmsgs => exact iff_of_false (fun h => h rfl) fun h => (h hle).1 hbmsgs
    next bmsgs hbmsgs =>
      refine iff_of_true ?_ fun _ => ?_
      · grind
      · grind

lemma zipTipSetAndMessages_ne_panic_iff :
    zipTipSetAndMessages codec bst.blsMessages bst.secpkMessages ts bst.blsMsgIncludes
      bst.secpkMsgIncludes ≠ .error (.new "panic") ↔ ZipInRange codec bst ts := by
  unfold zipTipSetAndMessages ZipInRange
  split_ifs with hlength
  · grind
  · obtain ⟨hsecpk, hbls⟩ := not_or.mp hlength
    rw [Ne, mapM_eq_error]
    constructor
    · grind [zipBlock_ne_panic_iff]
    · grind [zipBlock_ne_panic_iff]

lemma exists_bind_getAll_iff {α : Type} {o : Option (List ℕ)} {items : List α} :
    (∃ as, o.bind (getAll items) = some as) ↔ ∃ is, o = some is ∧ InRange items is := by
  simp only [bind_eq_some_iff]
  constructor
  · rintro ⟨as, is, his, has⟩
    refine ⟨is, his, getAll_ne_none_iff.mp ?_⟩
    rw [has]
    exact some_ne_none as
  · rintro ⟨is, his, hrange⟩
    obtain ⟨as, has⟩ := ne_none_iff_exists'.mp (getAll_ne_none_iff.mpr hrange)
    exact ⟨as, is, his, has⟩

lemma fullBlock_cases (bts : WireTipSet) (p : BlockHeader × ℕ) :
    ((∃ as, bts.blsMessagesOf p.2 = some as) ∧ (∃ as, bts.secpkMessagesOf p.2 = some as) ∧
      ∃ fb, bts.fullBlock p = .ok fb ∧ fb.header = p.1) ∨
    (¬((∃ as, bts.blsMessagesOf p.2 = some as) ∧ ∃ as, bts.secpkMessagesOf p.2 = some as) ∧
      bts.fullBlock p = .error (.new "panic")) := by
  unfold WireTipSet.fullBlock
  split
  next bls secpk hbls hsecpk => exact .inl ⟨⟨bls, hbls⟩, ⟨secpk, hsecpk⟩, _, rfl, rfl⟩
  next hnot =>
    refine .inr ⟨?_, rfl⟩
    rintro ⟨⟨bls, hbls⟩, secpk, hsecpk⟩
    exact hnot bls secpk hbls hsecpk

lemma fullBlock_eq_ok {p : BlockHeader × ℕ} {fb : FullBlock} (h : bts.fullBlock p = .ok fb) :
    (∃ as, bts.blsMessagesOf p.2 = some as) ∧ (∃ as, bts.secpkMessagesOf p.2 = some as) ∧
      fb.header = p.1 := by
  grind [fullBlock_cases]

lemma fullBlock_eq_error {p : BlockHeader × ℕ} {err : NodeErr}
    (h : bts.fullBlock p = .error err) : err = .new "panic" ∧
      ¬((∃ as, bts.blsMessagesOf p.2 = some as) ∧ ∃ as, bts.secpkMessagesOf p.2 = some as) := by
  grind [fullBlock_cases]

lemma complete_iff : bts.Complete ↔ ∀ i < bts.blocks.length,
    (∃ as, bts.blsMessagesOf i = some as) ∧ ∃ as, bts.secpkMessagesOf i = some as := by
  simp only [BSTipSet.Complete, BSTipSet.blsMessagesOf, BSTipSet.secpkMessagesOf,
    exists_bind_getAll_iff]

lemma bstsToFullTipSet_cases (bts : WireTipSet) :
    (bts.Complete ∧ ∃ fts, bstsToFullTipSet bts = .ok fts ∧ fts.map (·.header) = bts.blocks) ∨
      (¬bts.Complete ∧ bstsToFullTipSet bts = .error (.new "panic")) := by
  unfold bstsToFullTipSet
  rcases hrun : bts.blocks.zipIdx.mapM bts.fullBlock with err | fts
  · obtain ⟨pre, p, post, hzip, -, herr⟩ := mapM_eq_error.mp hrun
    obtain ⟨rfl, hnot⟩ := fullBlock_eq_error herr
    refine .inr ⟨fun hcomplete => hnot (complete_iff.mp hcomplete p.2 ?_), rfl⟩
    have hmem : p ∈ bts.blocks.zipIdx := by grind
    exact (List.getElem?_eq_some_iff.mp (List.mem_zipIdx_iff_getElem?.mp hmem)).1
  · have hall := mapM_eq_ok.mp hrun
    refine .inl ⟨complete_iff.mpr fun i hi => ?_, fts, rfl, ?_⟩
    · have hmem : (bts.blocks[i], i) ∈ bts.blocks.zipIdx :=
        mem_zipIdx_iff_getElem?.mpr (getElem?_eq_getElem hi)
      obtain ⟨fb, -, hfb⟩ := Aligned.exists_of_mem_right hall.flip hmem
      obtain ⟨hbls, hsecpk, -⟩ := fullBlock_eq_ok hfb
      exact ⟨hbls, hsecpk⟩
    · rw [← zipIdx_map_fst 0 bts.blocks, ← forall₂_eq_eq_eq, forall₂_map_left_iff,
        forall₂_map_right_iff]
      exact hall.flip.imp fun fb p hfb => (fullBlock_eq_ok hfb).2.2

end

section

variable {hashing : Hashing}

lemma tipsetMismatch_ne_panic {first b : BlockHeader} :
    tipsetMismatch first b ≠ some (.new "panic") := by
  unfold tipsetMismatch
  split_ifs <;> decide

lemma newTipSet_ne_panic_iff {blks : List BlockHeader} :
    newTipSet hashing blks ≠ .error (.new "panic") ↔ Sortable blks := by
  unfold newTipSet Sortable
  split_ifs with hpanic
  · obtain ⟨hlength, hany⟩ := hpanic
    obtain ⟨b, hb, hnone⟩ := any_eq_true.mp hany
    refine iff_of_false (fun h => h rfl) fun h => ?_
    grind [isNone_iff_eq_none]
  · refine iff_of_true ?_ fun hlength b hb => ?_
    · grind [exists_of_findSome?_eq_some, tipsetMismatch_ne_panic]
    · by_contra hnone
      refine hpanic ⟨hlength, any_eq_true.mpr ⟨b, hb, ?_⟩⟩
      simpa using hnone

lemma exists_newTipSet_iff_makes {blks : List BlockHeader} :
    (∃ ts, newTipSet hashing blks = .ok ts) ↔ MakesTipSet blks := by
  rcases blks with - | ⟨b, blks⟩
  · exact iff_of_false (fun ⟨_, h⟩ => nomatch h) fun h => h.ne_nil rfl
  constructor
  · intro h
    refine ⟨cons_ne_nil b blks, ((exists_newTipSet_iff mem_cons_self).mp h).1, ?_⟩
    exact fun x hx => ((exists_newTipSet_iff hx).mp h).2
  · intro h
    exact (exists_newTipSet_iff mem_cons_self).mpr ⟨h.sortable, h.same b mem_cons_self⟩

lemma linkLoop_eq_panic_iff {cur : TipSet} {chain : List BSTipSet} {out : List TipSet} :
    linkLoop hashing cur chain out = .error (.new "panic") ↔
      ∃ pre bst post, chain = pre ++ bst :: post ∧
        (∃ out', linkLoop hashing cur pre out = .ok out') ∧ ¬Sortable bst.blocks := by
  induction chain generalizing cur out with
  | nil =>
    exact iff_of_false nofun fun ⟨pre, bst, post, h, _⟩ =>
      append_ne_nil_of_right_ne_nil pre (cons_ne_nil bst post) h.symm
  | cons bst chain ih =>
    simp only [linkLoop, bind_eq_error]
    constructor
    · rintro (hpanic | ⟨nts, hnts, h⟩)
      · exact ⟨[], bst, chain, rfl, ⟨out, rfl⟩,
          fun hsortable => newTipSet_ne_panic_iff.mpr hsortable hpanic⟩
      · split_ifs at h with hequal
        · obtain ⟨pre, bst', post, rfl, ⟨out', hout'⟩, hnot⟩ := ih.mp h
          refine ⟨bst :: pre, bst', post, rfl, ⟨out', bind_eq_ok.mpr ⟨nts, hnts, ?_⟩⟩, hnot⟩
          rw [if_pos hequal, hout']
        · exact absurd h (by decide)
    · rintro ⟨pre, bst', post, hchain, ⟨out', hout'⟩, hnot⟩
      rcases pre with - | ⟨x, pre⟩
      · grind [newTipSet_ne_panic_iff]
      · cases hchain
        obtain ⟨nts, hnts, hout'⟩ := bind_eq_ok.mp hout'
        split_ifs at hout' with hequal
        refine .inr ⟨nts, hnts, ?_⟩
        rw [if_pos hequal]
        exact ih.mpr ⟨pre, bst', post, rfl, ⟨out', hout'⟩, hnot⟩

lemma processBlocksResponse_ne_panic_iff {res : BlockSyncResponse} :
    processBlocksResponse hashing res ≠ .error (.new "panic") ↔ ResponseSortable hashing res := by
  unfold ResponseSortable
  rcases hchain : res.chain with - | ⟨bst, chain⟩
  · rw [processBlocksResponse, hchain]
    simp
  have hrun : processBlocksResponse hashing res = .error (.new "panic") ↔
      newTipSet hashing bst.blocks = .error (.new "panic") ∨
        ∃ cur, newTipSet hashing bst.blocks = .ok cur ∧
          linkLoop hashing cur chain [cur] = .error (.new "panic") := by
    rw [processBlocksResponse, hchain]
    exact bind_eq_error
  rw [Ne, hrun]
  constructor
  · intro h pre bst' post heq hpre
    refine not_not.mp fun hnot => h ?_
    rcases pre with - | ⟨x, pre⟩
    · grind [newTipSet_ne_panic_iff]
    · cases heq
      obtain ⟨out, hout⟩ := hpre.resolve_left (cons_ne_nil bst pre)
      obtain ⟨cur, hcur, hout⟩ := bind_eq_ok.mp hout
      exact .inr ⟨cur, hcur, linkLoop_eq_panic_iff.mpr ⟨pre, bst', post, rfl, ⟨out, hout⟩, hnot⟩⟩
  · rintro h (hpanic | ⟨cur, hcur, hpanic⟩)
    · exact newTipSet_ne_panic_iff.mpr (h [] bst chain rfl (.inl rfl)) hpanic
    · obtain ⟨pre, bst', post, rfl, ⟨out, hout⟩, hnot⟩ := linkLoop_eq_panic_iff.mp hpanic
      exact hnot (h (bst :: pre) bst' post rfl (.inr ⟨out, bind_eq_ok.mpr ⟨cur, hcur, hout⟩⟩))

end

section

variable {syncer : Syncer} {nowNano : UInt64} {pid : PeerID} {s : GossipState}

lemma recordFailure_ne_panic : (recordFailure pid s).1 ≠ .error (.new "panic") := nofun

lemma validateSigned_ne_panic_iff {msg : BlockMsg} {key : Address} :
    (validateSigned syncer pid msg key s).1 ≠ .error (.new "panic") ↔
      (SigVerifies syncer.proofs.verifyBlockSig msg.header key →
        msg.header.electionProof.isSome) := by
  unfold validateSigned
  by_cases hverifies : SigVerifies syncer.proofs.verifyBlockSig msg.header key
  · have hcheck : checkBlockSignature syncer.proofs.verifyBlockSig key (.decoded msg.header) =
        (.ok (), ⟨msg.header, true⟩) := checkBlockSignature_of_verifies (.inr hverifies)
    rw [hcheck]
    dsimp only
    rcases msg.header.electionProof with - | proof
    · exact iff_of_false (fun h => h rfl) fun h => nomatch h hverifies
    · refine iff_of_true ?_ fun _ => rfl
      dsimp only
      split_ifs with hwin
      · exact recordFailure_ne_panic
      · refine Act.bind_ne_error nofun fun n s' _ => ?_
        split_ifs <;> nofun
  · have hnot : ¬((HeaderObject.decoded msg.header).validated = true ∨
        SigVerifies syncer.proofs.verifyBlockSig msg.header key) :=
      not_or.mpr ⟨Bool.false_ne_true, hverifies⟩
    obtain ⟨err, herr⟩ := checkBlockSignature_of_not hnot
    rw [herr]
    exact iff_of_true recordFailure_ne_panic fun h => absurd h hverifies

lemma validate_ne_panic_iff {msg : BlockMsg}
    (hlimit : msg.blsMessages.length + msg.secpkMessages.length ≤ blockMessageLimit) :
    (validate syncer nowNano pid (some msg) s).1 ≠ .error (.new "panic") ↔
      (msg.header.messages = ⟨msg.blsMessages, msg.secpkMessages⟩ → ∀ key s',
        checkPowerAndGetWorkerKey syncer msg.header s = (.ok key, s') →
          SigVerifies syncer.proofs.verifyBlockSig msg.header key →
            msg.header.electionProof.isSome) := by
  rw [validate, if_neg hlimit.not_gt]
  split_ifs with hsig
  · refine iff_of_true recordFailure_ne_panic fun _ key s' _ hverifies => ?_
    obtain ⟨sig, hsome, -⟩ := hverifies
    rw [hsig] at hsome
    cases hsome
  rcases hmeta : validateMsgMeta msg with err | ⟨⟩
  · refine iff_of_true recordFailure_ne_panic fun hmessages => ?_
    rw [validateMsgMeta, require, if_pos hmessages] at hmeta
    cases hmeta
  have hmessages : msg.header.messages = ⟨msg.blsMessages, msg.secpkMessages⟩ :=
    require_eq_ok.mp hmeta
  dsimp only
  rw [Act.bind_of_ok (Act.attempt_apply _ s)]
  rcases hcheck : checkPowerAndGetWorkerKey syncer msg.header s with ⟨err | key, s'⟩
  · refine iff_of_true ?_ fun _ key s'' h => nomatch h
    refine Act.bind_ne_error nofun fun s1 s2 _ => ?_
    split_ifs
    · exact recordFailure_ne_panic
    · nofun
  · grind [validateSigned_ne_panic_iff]

lemma validateWire_ne_panic_iff {msg : WireBlockMsg} :
    (validateWire syncer nowNano pid (some msg) s).1 ≠ .error (.new "panic") ↔
      GossipComplete syncer s msg := by
  unfold validateWire GossipComplete
  dsimp only
  split_ifs with hlimit
  · exact iff_of_true recordFailure_ne_panic fun h => absurd h hlimit.not_ge
  have hle := not_lt.mp hlimit
  rcases msg.header with - | header
  · refine iff_of_false (fun h => h rfl) fun h => ?_
    obtain ⟨header, hheader, -⟩ := h hle
    cases hheader
  · grind [validate_ne_panic_iff]

end

lemma informFromPeer_ne_panic_iff {syncer : Syncer} {genesis : Except NodeErr BlockHeader}
    {self source : PeerID} {sync : TipSet → Act SyncNode NodeErr Unit} {node : SyncNode}
    (hhead : node.chain.heaviest.isSome) {bts : WireTipSet} :
    (informFromPeer syncer genesis self sync source bts node).1 ≠ .error (.new "panic") ↔
      bts.Complete ∧ MakesTipSet bts.blocks := by
  unfold informFromPeer
  rcases bstsToFullTipSet_cases bts with ⟨hcomplete, fts, hfts, hheaders⟩ | ⟨hnot, hpanic⟩
  · rw [hfts, Act.bind_of_ok (Act.ofExcept_apply _ node), informNewHead_ne_panic_iff hhead,
      hheaders, exists_newTipSet_iff_makes]
    exact (and_iff_right hcomplete).symm
  · rw [hpanic, Act.bind_of_error (Act.ofExcept_apply _ node)]
    exact iff_of_false (fun h => h rfl) fun h => hnot h.1

/-- What a peer sends makes the node panic exactly if a number of a message is out of range, a list
of messages is missing, the blocks of a tipset are none or do not agree, blocks to be sorted have no
tickets, or a block message has no header or no election proof. -/
theorem wire_ne_panic_iff (syncer : Syncer) (genesis : Except NodeErr BlockHeader)
    (self source : PeerID) (sync : TipSet → Act SyncNode NodeErr Unit) (node : SyncNode)
    (hhead : node.chain.heaviest.isSome) (codec : Codec) (bst : BSTipSet) (ts : TipSet)
    (bts : WireTipSet) (hashing : Hashing) (res : BlockSyncResponse) (nowNano : UInt64)
    (pid : PeerID) (msg : Option WireBlockMsg) (gossip : GossipState) :
    (zipTipSetAndMessages codec bst.blsMessages bst.secpkMessages ts bst.blsMsgIncludes
      bst.secpkMsgIncludes ≠ .error (.new "panic") ↔ ZipInRange codec bst ts) ∧
    ((informFromPeer syncer genesis self sync source bts node).1 ≠ .error (.new "panic") ↔
      bts.Complete ∧ MakesTipSet bts.blocks) ∧
    (processBlocksResponse hashing res ≠ .error (.new "panic") ↔ ResponseSortable hashing res) ∧
    ((validateWire syncer nowNano pid msg gossip).1 ≠ .error (.new "panic") ↔
      ∀ m ∈ msg, GossipComplete syncer gossip m) := by
  refine ⟨zipTipSetAndMessages_ne_panic_iff, informFromPeer_ne_panic_iff hhead,
    processBlocksResponse_ne_panic_iff, ?_⟩
  rcases msg with - | m
  · exact iff_of_true recordFailure_ne_panic fun m hm => nomatch hm
  · simp [validateWire_ne_panic_iff]

def sampleWire (blocks : List BlockHeader) (includes : List (List ℕ))
    (h : ∀ is ∈ includes, is.length ≤ maxLength) : WireTipSet :=
  ⟨⟨blocks, [], includes, [], includes⟩, h, h⟩

def sampleNode : SyncNode :=
  ⟨⟨fun _ => none, fun _ => [], some (.single sampleGenesis), []⟩, ⟨fun _ => none, []⟩,
    fun _ => none, []⟩

def sampleGossip : GossipState := startGossip (.single sampleGenesis) fun _ => none

theorem sampleWire_ne_panic :
    zipTipSetAndMessages sampleCodec [] [] (.single sampleGenesis) [[]] [[]] ≠
      .error (.new "panic") ∧
    (informFromPeer (sampleSyncer []) (.ok sampleGenesis) 0 (fun _ => pure ()) 1
      (sampleWire [sampleGenesis] [[]] (by decide)) sampleNode).1 ≠ .error (.new "panic") ∧
    processBlocksResponse sampleHashing ⟨[⟨[sampleGenesis], [], [], [], []⟩], statusOK, ""⟩ ≠
      .error (.new "panic") ∧
    (validateWire (sampleSyncer []) 0 1 (some ⟨some (sampleHeader (.id 1000) []), [], []⟩)
      sampleGossip).1 ≠ .error (.new "panic") := by
  obtain ⟨hzip, hinform, hresponse, hvalidate⟩ := wire_ne_panic_iff (sampleSyncer [])
    (.ok sampleGenesis) 0 1 (fun _ => pure ()) sampleNode rfl sampleCodec
    ⟨[], [], [[]], [], [[]]⟩ (.single sampleGenesis)
    (sampleWire [sampleGenesis] [[]] (by decide)) sampleHashing
    ⟨[⟨[sampleGenesis], [], [], [], []⟩], statusOK, ""⟩ 0 1
    (some ⟨some (sampleHeader (.id 1000) []), [], []⟩) sampleGossip
  refine ⟨hzip.mpr ?_, hinform.mpr ⟨?_, ?_, ?_, ?_⟩, hresponse.mpr ?_, hvalidate.mpr ?_⟩
  · intro _ pre p post heq _ _
    have hp : p ∈ [(sampleGenesis, ([] : List ℕ), ([] : List ℕ))] := by
      rw [show [(sampleGenesis, ([] : List ℕ), ([] : List ℕ))] = pre ++ p :: post from heq]
      exact mem_append_right pre mem_cons_self
    rw [mem_singleton.mp hp]
    exact ⟨nofun, nofun⟩
  · intro i hi
    obtain rfl : i = 0 := Nat.lt_one_iff.mp hi
    exact ⟨⟨[], rfl, nofun⟩, [], rfl, nofun⟩
  · exact cons_ne_nil _ _
  · exact fun hlength => absurd hlength (by decide)
  · intro b hb x hx
    rw [mem_singleton.mp hb, mem_singleton.mp hx]
    exact ⟨rfl, rfl⟩
  · intro pre bst post heq _ hlength
    have hbst : bst ∈ [(⟨[sampleGenesis], [], [], [], []⟩ : BSTipSet)] := by grind
    rw [mem_singleton.mp hbst] at hlength
    exact absurd hlength (by decide)
  · intro m hm _
    rw [← Option.some.inj hm]
    exact ⟨_, rfl, fun _ _ _ _ _ => rfl⟩

theorem sampleWire_panics :
    zipTipSetAndMessages sampleCodec [] [] (.single sampleGenesis) [[7]] [[]] =
      .error (.new "panic") ∧
    (informFromPeer (sampleSyncer []) (.ok sampleGenesis) 0 (fun _ => pure ()) 1
      (sampleWire [sampleGenesis] [] (by decide)) sampleNode).1 = .error (.new "panic") ∧
    (informFromPeer (sampleSyncer []) (.ok sampleGenesis) 0 (fun _ => pure ()) 1
      (sampleWire [] [] (by decide)) sampleNode).1 = .error (.new "panic") ∧
    processBlocksResponse sampleHashing ⟨[⟨[{ sampleGenesis with ticket := none },
      { sampleGenesis with ticket := none }], [], [], [], []⟩], statusOK, ""⟩ =
      .error (.new "panic") ∧
    (validateWire (sampleSyncer []) 0 1 (some ⟨none, [], []⟩) sampleGossip).1 =
      .error (.new "panic") ∧
    (validateWire (sampleSyncer []) 0 1
      (some ⟨some { sampleHeader (.id 1000) [] with electionProof := none }, [], []⟩)
      sampleGossip).1 = .error (.new "panic") := by
  decide +kernel

end Lotus
