import Lotus.Chain.Expand
import Lotus.Lib.Aligned

/-!
# Headers from the network

`GetBlocks` and `processBlocksResponse` of `chain/blocksync/blocksync_client.go`.
-/

namespace Lotus

open Check List

/-! ## Requests and responses -/

structure BlockSyncRequest where
  start : List Cid
  requestLength : UInt64
  options : UInt64

/-- `BSTipSet`. An index is a number, since no slice is as long as the largest `uint64`. -/
structure BSTipSet where
  blocks : List BlockHeader
  blsMessages : List Message
  blsMsgIncludes : List (List ℕ)
  secpkMessages : List SignedMessage
  secpkMsgIncludes : List (List ℕ)
deriving DecidableEq

structure BlockSyncResponse where
  chain : List BSTipSet
  status : UInt64
  message : String

def bsOptBlocks : UInt64 := 1
def bsOptMessages : UInt64 := 2

def statusOK : UInt64 := 0
def statusPartial : UInt64 := 101
def statusNotFound : UInt64 := 201
def statusGoAway : UInt64 := 202
def statusInternalError : UInt64 := 203
def statusBadRequest : UInt64 := 204

def processStatus (res : BlockSyncResponse) : NodeErr :=
  if res.status = statusPartial then .new "not handling partial blocksync responses yet"
  else if res.status = statusNotFound then .new "not found"
  else if res.status = statusGoAway then .new "not handling 'go away' blocksync responses yet"
  else if res.status = statusInternalError then .new ("block sync peer errored: " ++ res.message)
  else if res.status = statusBadRequest then .new ("block sync request invalid: " ++ res.message)
  else .new "unrecognized response code: %d"

section

variable (hashing : Hashing)

/-- The loop of `processBlocksResponse`. -/
def linkLoop (cur : TipSet) : List BSTipSet → List TipSet → Except NodeErr (List TipSet)
  | [], out => .ok out
  | bst :: chain, out => do
    let nts ← newTipSet hashing bst.blocks
    if cidArrsEqual cur.parents (nts.cids hashing) then linkLoop nts chain (out ++ [nts])
    else .error (.new "parents of tipset[%d] were not tipset[%d]")

def processBlocksResponse (res : BlockSyncResponse) : Except NodeErr (List TipSet) :=
  match res.chain with
  | [] => .error (.new "got no blocks in successful blocksync response")
  | bst :: chain => do
    let cur ← newTipSet hashing bst.blocks
    linkLoop hashing cur chain [cur]

/-- What comes of turning to a peer. -/
inductive PeerAnswer where
  /-- The context is done before the peer is asked. -/
  | done (err : NodeErr)
  /-- `sendRequestToPeer` fails. -/
  | failed (err : NodeErr)
  | response (res : BlockSyncResponse)

def getBlocksLoop : List PeerAnswer → Option NodeErr → Except NodeErr (List TipSet)
  | [], none => .error (.new "GetBlocks failed with all peers: %!w(<nil>)")
  | [], some oerr => .error (.wrap "GetBlocks failed with all peers" oerr)
  | .done err :: _, _ => .error (.wrap "blocksync getblocks failed" err)
  | .failed err :: peers, _ => getBlocksLoop peers (some err)
  | .response res :: peers, _ =>
    if res.status = statusOK ∨ res.status = statusPartial then
      (processBlocksResponse hashing res).mapError
        (.wrap "success response from peer failed to process")
    else getBlocksLoop peers (some (processStatus res))

def getBlocks (peers : BlockSyncRequest → List PeerAnswer) (tsk : List Cid) (count : Int64) :
    Except NodeErr (List TipSet) :=
  getBlocksLoop hashing (peers ⟨tsk, count.toUInt64, bsOptBlocks⟩) none

end

/-! ## What was asked for -/

section

variable (hashing : Hashing)

def TipSet.NamedBy (ts : TipSet) (key : List Cid) : Prop := (ts.cids hashing).Perm key

instance (ts : TipSet) (key : List Cid) : Decidable (ts.NamedBy hashing key) :=
  inferInstanceAs (Decidable (List.Perm _ _))

structure TipSet.Is (ts : TipSet) (key : List Cid) : Prop where
  named : ts.NamedBy hashing key
  nodup : (ts.cids hashing).Nodup

instance (ts : TipSet) (key : List Cid) : Decidable (ts.Is hashing key) :=
  decidable_of_iff (ts.NamedBy hashing key ∧ (ts.cids hashing).Nodup)
    ⟨fun h => ⟨h.1, h.2⟩, fun h => ⟨h.1, h.2⟩⟩

/-- The tipsets are those of the key and of its ancestors, and not more than were asked for. -/
structure Authentic (tsk : List Cid) (count : Int64) (out : List TipSet) : Prop where
  first : ∃ ts ∈ out.head?, ts.Is hashing tsk
  linked : out.IsChain fun ts pts => pts.Is hashing ts.parents
  length_le : out.length ≤ count.toUInt64.toNat

instance (tsk : List Cid) (count : Int64) (out : List TipSet) :
    Decidable (Authentic hashing tsk count out) :=
  decidable_of_iff ((∃ ts ∈ out.head?, ts.Is hashing tsk) ∧
      (out.IsChain fun ts pts => pts.Is hashing ts.parents) ∧
        out.length ≤ count.toUInt64.toNat)
    ⟨fun h => ⟨h.1, h.2.1, h.2.2⟩, fun h => ⟨h.1, h.2, h.3⟩⟩

structure AsRequested (req : BlockSyncRequest) (chain : List BSTipSet) : Prop where
  first : ∀ bst ∈ chain.head?, (bst.blocks.map hashing.headerCid).Perm req.start
  nodup : ∀ bst ∈ chain, (bst.blocks.map hashing.headerCid).Nodup
  length_le : chain.length ≤ req.requestLength.toNat

end

/-- The response that `GetBlocks` takes: the first one that is not an error. -/
def takenResponse : List PeerAnswer → Option BlockSyncResponse
  | [] => none
  | .done _ :: _ => none
  | .failed _ :: peers => takenResponse peers
  | .response res :: peers =>
    if res.status = statusOK ∨ res.status = statusPartial then some res else takenResponse peers

/-! ## What is checked -/

variable {hashing : Hashing}

lemma cids_perm_of_newTipSet {blks : List BlockHeader} {ts : TipSet}
    (h : newTipSet hashing blks = .ok ts) :
    (ts.cids hashing).Perm (blks.map hashing.headerCid) := by
  rw [TipSet.cids, newTipSet_blocks h]
  exact (perm_insertionSort _ blks).map _

def ChainStore.Addressed (cs : ChainStore) : Prop :=
  ∀ c b, cs.getBlock c = .ok b → cs.hashing.headerCid b = c

lemma sampleStore_addressed (blks : List FullBlock) : (sampleStore blks).Addressed := by
  intro c b hb
  unfold sampleStore at hb ⊢
  grind

lemma namedBy_of_loadTipSet {cs : ChainStore} (haddr : cs.Addressed) {tsk : List Cid}
    {ts : TipSet} (h : loadTipSet cs tsk = .ok ts) : ts.NamedBy cs.hashing tsk := by
  obtain ⟨blks, hblks, hts⟩ := loadTipSet_eq_ok.mp h
  have htsk : tsk = blks.map cs.hashing.headerCid := by
    rw [← forall₂_eq_eq_eq, forall₂_map_right_iff]
    exact hblks.imp fun c b hb => (haddr c b hb).symm
  rw [htsk]
  exact cids_perm_of_newTipSet hts

lemma is_iff_of_cidArrsEqual {ts : TipSet} {key : List Cid}
    (h : cidArrsEqual key (ts.cids hashing) = true) :
    ts.Is hashing key ↔ (ts.cids hashing).Nodup := by
  obtain ⟨hlength, hmem⟩ := of_decide_eq_true h
  refine ⟨fun hts => hts.nodup, fun hnodup => ⟨?_, hnodup⟩⟩
  exact (hnodup.subperm hmem).perm_of_length_le hlength.le

lemma TipSet.NamedBy.cidArrsEqual {ts : TipSet} {key : List Cid} (h : ts.NamedBy hashing key) :
    cidArrsEqual key (ts.cids hashing) = true :=
  decide_eq_true ⟨h.length_eq.symm, fun _ hc => h.mem_iff.mp hc⟩

lemma isChain_is_iff {cur : TipSet} {tss : List TipSet}
    (h : (cur :: tss).IsChain fun ts pts => cidArrsEqual ts.parents (pts.cids hashing) = true) :
    ((cur :: tss).IsChain fun ts pts => pts.Is hashing ts.parents) ↔
      ∀ ts ∈ tss, (ts.cids hashing).Nodup := by
  induction tss generalizing cur with
  | nil => exact iff_of_true (.singleton cur) (forall_mem_nil _)
  | cons nts tss ih => simp_all [isChain_cons_cons, is_iff_of_cidArrsEqual]

lemma linkLoop_eq_ok {cur : TipSet} {chain : List BSTipSet} {out out' : List TipSet} :
    linkLoop hashing cur chain out = .ok out' ↔ ∃ tss, out' = out ++ tss ∧
        List.Forall₂ (fun bst ts => newTipSet hashing bst.blocks = .ok ts) chain tss ∧
          (cur :: tss).IsChain fun ts pts => cidArrsEqual ts.parents (pts.cids hashing) = true := by
  induction chain generalizing cur out with
  | nil =>
    rw [linkLoop]
    constructor <;> simp_all
  | cons bst chain ih =>
    rw [linkLoop, bind_eq_ok]
    constructor
    · rintro ⟨nts, hnts, h⟩
      split_ifs at h with hequal
      obtain ⟨tss, rfl, htss, hchain⟩ := ih.mp h
      simp_all [append_assoc]
    · rintro ⟨tss, rfl, htss, hchain⟩
      obtain _ | ⟨hnts, htss⟩ := htss
      grind

/-- The tipsets of a response that is accepted: each list of blocks makes one, and each is over the
next one as far as `CidArrsEqual` sees. -/
lemma processBlocksResponse_eq_ok {res : BlockSyncResponse} {out : List TipSet} :
    processBlocksResponse hashing res = .ok out ↔ res.chain ≠ [] ∧
      List.Forall₂ (fun bst ts => newTipSet hashing bst.blocks = .ok ts) res.chain out ∧
        out.IsChain fun ts pts => cidArrsEqual ts.parents (pts.cids hashing) = true := by
  unfold processBlocksResponse
  rcases res.chain with - | ⟨bst, chain⟩
  · exact iff_of_false nofun fun h => h.1 rfl
  simp only [bind_eq_ok, linkLoop_eq_ok]
  constructor
  · rintro ⟨cur, hcur, tss, rfl, htss, hchain⟩
    exact ⟨cons_ne_nil _ _, .cons hcur htss, hchain⟩
  · rintro ⟨-, htss, hchain⟩
    obtain _ | ⟨hcur, htss⟩ := htss
    exact ⟨_, hcur, _, rfl, htss, hchain⟩

lemma getBlocksLoop_eq_ok {peers : List PeerAnswer} {oerr : Option NodeErr} {out : List TipSet}
    (h : getBlocksLoop hashing peers oerr = .ok out) :
    ∃ res, takenResponse peers = some res ∧ processBlocksResponse hashing res = .ok out := by
  induction peers generalizing oerr with
  | nil => cases oerr <;> cases h
  | cons answer peers ih =>
    cases answer <;> grind [getBlocksLoop, takenResponse, mapError_eq_ok]

/-- `GetBlocks` returns the tipset that was asked for and its ancestors, each as it is named and not
more than were asked for, exactly if the response that it takes is as requested. -/
theorem getBlocks_authentic_iff {peers : BlockSyncRequest → List PeerAnswer} {tsk : List Cid}
    {count : Int64} {out : List TipSet} (h : getBlocks hashing peers tsk count = .ok out) :
    ∃ res, takenResponse (peers ⟨tsk, count.toUInt64, bsOptBlocks⟩) = some res ∧
      (Authentic hashing tsk count out ↔
        AsRequested hashing ⟨tsk, count.toUInt64, bsOptBlocks⟩ res.chain) := by
  obtain ⟨res, hres, hout⟩ := getBlocksLoop_eq_ok h
  refine ⟨res, hres, ?_⟩
  obtain ⟨hne, htss, hchain⟩ := processBlocksResponse_eq_ok.mp hout
  have hlength : res.chain.length = out.length := htss.length_eq
  have hnodup : (∀ bst ∈ res.chain, (bst.blocks.map hashing.headerCid).Nodup) ↔
      ∀ ts ∈ out, (ts.cids hashing).Nodup := by
    refine Aligned.forall_mem_iff htss fun bst ts hts => ?_
    exact (cids_perm_of_newTipSet hts).nodup_iff.symm
  rcases hresChain : res.chain with - | ⟨bst, chain⟩
  · exact absurd hresChain hne
  rw [hresChain] at htss hlength hnodup
  rcases out with - | ⟨cur, tss⟩
  · cases htss
  have hcur := (forall₂_cons.mp htss).1
  have hfirst : cur.NamedBy hashing tsk ↔ (bst.blocks.map hashing.headerCid).Perm tsk :=
    (cids_perm_of_newTipSet hcur).congr_left tsk
  constructor
  · rintro ⟨⟨ts, hts, his⟩, hlinked, hle⟩
    cases hts
    refine ⟨fun bst' hbst' => ?_, hnodup.mpr (forall_mem_cons.mpr ⟨his.nodup, ?_⟩), ?_⟩
    · grind [his.named]
    · exact (isChain_is_iff hchain).mp hlinked
    · exact hlength.trans_le hle
  · rintro ⟨hperm, hblocks, hle⟩
    obtain ⟨hhead, htail⟩ := forall_mem_cons.mp (hnodup.mp hblocks)
    exact ⟨⟨cur, rfl, hfirst.mpr (hperm bst rfl), hhead⟩, (isChain_is_iff hchain).mpr htail,
      hlength.symm.trans_le hle⟩

def samplePeers (chain : List (List BlockHeader)) (_ : BlockSyncRequest) : List PeerAnswer :=
  [.response ⟨chain.map fun blocks => ⟨blocks, [], [], [], []⟩, statusOK, ""⟩]

theorem samplePeers_authentic : ∃ out,
    getBlocks sampleHashing (samplePeers [[sampleHeader (.id 1000) []], [sampleGenesis]])
      [sampleHashing.headerCid (sampleHeader (.id 1000) [])] 2 = .ok out ∧
    Authentic sampleHashing [sampleHashing.headerCid (sampleHeader (.id 1000) [])] 2 out := by
  obtain ⟨out, hout⟩ : ∃ out, getBlocks sampleHashing
      (samplePeers [[sampleHeader (.id 1000) []], [sampleGenesis]])
      [sampleHashing.headerCid (sampleHeader (.id 1000) [])] 2 = .ok out := by decide +kernel
  obtain ⟨res, hres, hiff⟩ := getBlocks_authentic_iff hout
  cases hres
  exact ⟨out, hout, hiff.mpr ⟨by decide +kernel, by decide +kernel, by decide⟩⟩

/-- The answer to a request for one tipset is another tipset, or two of them, or a tipset over two
blocks is followed by one that has the first of them twice. -/
theorem samplePeers_not_authentic :
    (∃ out, getBlocks sampleHashing (samplePeers [[sampleHeader (.id 1001) []]])
        [sampleHashing.headerCid (sampleHeader (.id 1000) [])] 1 = .ok out ∧
      ¬Authentic sampleHashing [sampleHashing.headerCid (sampleHeader (.id 1000) [])] 1 out) ∧
    (∃ out, getBlocks sampleHashing (samplePeers [[sampleHeader (.id 1000) []], [sampleGenesis]])
        [sampleHashing.headerCid (sampleHeader (.id 1000) [])] 1 = .ok out ∧
      ¬Authentic sampleHashing [sampleHashing.headerCid (sampleHeader (.id 1000) [])] 1 out) ∧
    ∃ out, getBlocks sampleHashing (samplePeers [[(sampleOver (.id 1000) sampleKey).header],
          [sampleHeader (.id 1000) [], sampleHeader (.id 1000) []]])
        [sampleHashing.headerCid (sampleOver (.id 1000) sampleKey).header] 2 = .ok out ∧
      ¬Authentic sampleHashing [sampleHashing.headerCid (sampleOver (.id 1000) sampleKey).header] 2
        out := by
  decide +kernel

end Lotus
