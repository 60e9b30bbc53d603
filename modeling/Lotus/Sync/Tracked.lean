import Lotus.Sync.Chain

/-!
# Tracked blocks and their messages

The state of a syncing node, as far as it says where the messages of the tracked blocks are.
-/

namespace Lotus

open Check List

/-! ## The headers and the messages that there are -/

section

variable (H : Set BlockHeader) (U : Set MessageBlob)

structure FullBlock.Within (fb : FullBlock) : Prop where
  header : fb.header ∈ H
  messages : ∀ blob ∈ fb.storageBlocks, blob ∈ U

structure BSTipSet.Within (bst : BSTipSet) : Prop where
  blocks : ∀ b ∈ bst.blocks, b ∈ H
  messages : ∀ blob ∈ bst.storageBlocks, blob ∈ U

def PeerAnswer.Within (answer : PeerAnswer) : Prop :=
  ∀ res, answer = .response res → ∀ bst ∈ res.chain, bst.Within H U

/-- What happens on the node is about headers of `H` and messages of `U`. -/
def NodeEvent.Within : NodeEvent → Prop
  | .inform _ _ _ fts => ∀ fb ∈ fts, fb.Within H U
  | .sync maybeHead => maybeHead.Within H
  | .advance tape =>
    (∀ n req, ∀ answer ∈ tape.headerPeers n req, answer.Within H U) ∧
      ∀ req, ∀ answer ∈ tape.messagePeers req, answer.Within H U

end

variable {H : Set BlockHeader} {U : Set MessageBlob}

lemma response_mem_of_takenResponse {peers : List PeerAnswer} {res : BlockSyncResponse}
    (h : takenResponse peers = some res) : .response res ∈ peers := by
  induction peers with
  | nil => cases h
  | cons answer peers ih =>
    cases answer with
    | done err => cases h
    | failed err => exact .tail _ (ih h)
    | response res' =>
      rw [takenResponse] at h
      grind

lemma within_of_getBlocks {hashing : Hashing} {peers : BlockSyncRequest → List PeerAnswer}
    (hpeers : ∀ req, ∀ answer ∈ peers req, answer.Within H U) {tsk : List Cid} {count : Int64}
    {out : List TipSet} (h : getBlocks hashing peers tsk count = .ok out) :
    ∀ ts ∈ out, ts.Within H := by
  obtain ⟨res, hres, hout⟩ := getBlocksLoop_eq_ok h
  obtain ⟨-, hchain, -⟩ := processBlocksResponse_eq_ok.mp hout
  intro ts hts
  obtain ⟨bst, hbst, hnew⟩ := Aligned.exists_of_mem_right hchain hts
  exact .of_newTipSet hnew (hpeers _ _ (response_mem_of_takenResponse hres) res rfl bst hbst).blocks

lemma within_of_getChainMessagesLoop {peers : List PeerAnswer}
    (hpeers : ∀ answer ∈ peers, answer.Within H U) {err : Option NodeErr} {out : List BSTipSet}
    (h : getChainMessagesLoop peers err = .ok out) : ∀ bst ∈ out, bst.Within H U := by
  induction peers generalizing err with
  | nil => cases err <;> cases h
  | cons answer peers ih =>
    obtain ⟨hanswer, hrest⟩ := forall_mem_cons.mp hpeers
    cases answer with
    | done rerr => exact ih hrest h
    | failed rerr => exact ih hrest h
    | response res =>
      rw [getChainMessagesLoop] at h
      split_ifs at h
      · cases h
        exact hanswer res rfl
      · exact ih hrest h

lemma collectHeaders_within {src : HeaderSource}
    (hstored : ∀ c b, src.cs.getBlock c = .ok b → b ∈ H)
    (hpeers : ∀ n req, ∀ answer ∈ src.peers n req, answer.Within H U) {fuel : ℕ}
    {incoming known : TipSet} {bad bad' : BadBlockCache} {headers : List TipSet}
    (hincoming : incoming.Within H)
    (h : collectHeaders src fuel incoming known bad = (.ok (some headers), bad')) :
    (∀ ts ∈ headers, ts.Within H) ∧ headers.head? = some incoming := by
  let Inv (l : List TipSet) : Prop := (∀ ts ∈ l, ts.Within H) ∧ l.head? = some incoming
  have happend {c : Collected} {l : List TipSet} (hc : Inv c.blockSet)
      (hl : ∀ ts ∈ l, ts.Within H) : Inv (c.blockSet ++ l) :=
    ⟨forall_mem_append.mpr ⟨hc.1, hl⟩, Collected.head?_blockSet_append.trans hc.2⟩
  have hanswered {n : ℕ} {tsk : List Cid} {count : Int64} {out : List TipSet}
      (hget : src.getBlocks n tsk count = .ok out) : ∀ ts ∈ out, ts.Within H :=
    within_of_getBlocks (hpeers n) hget
  obtain ⟨-, bad1, -, hrest⟩ := Act.bind_eq_ok h
  obtain ⟨c, bad2, hloop, hlink⟩ := Act.bind_eq_ok hrest
  cases c with
  | none => cases hlink
  | some c =>
    have hstart : Inv (⟨[], incoming, [], 0⟩ : Collected).blockSet :=
      ⟨fun ts hts => mem_singleton.mp hts ▸ hincoming, rfl⟩
    have hround : ∀ {c c' : Collected} {ended : Bool}, Inv c.blockSet →
        CollectOutcome src (known.height + 1) c bad1 (.ok (c', ended), bad1) → Inv c'.blockSet := by
      intro c c' ended hc houtcome
      have hset (l : List TipSet) :
          (Collected.appendAll { c with calls := c.calls + 1 } l).blockSet = c.blockSet ++ l :=
        Collected.blockSet_appendAll
      cases houtcome with
      | @loaded ts hload =>
        exact happend hc fun x hx => mem_singleton.mp hx ▸ within_of_loadTipSet hstored hload
      | @taken blks hget =>
        show Inv (Collected.appendAll _ blks).blockSet
        rw [hset]
        exact happend hc (hanswered hget)
      | @ended blks pre post b hget hblks hheight =>
        rw [hset]
        refine happend hc fun ts hts => hanswered hget ts ?_
        rw [hblks]
        exact mem_append_left _ hts
    rcases collectHeadersLoop_cases (fun c => Inv c.blockSet) (fun hc _ ho => hround hc ho) fuel
        hstart with ⟨c', hc', -, hloop'⟩ | hloop' | ⟨c', err, bad', -, -, hloop'⟩
    · cases hloop.symm.trans hloop'
      rcases linkHeaders_cases hlink with ⟨rfl, -⟩ | ⟨pre, tip, post, -, hget, rfl, -, -⟩
      · exact hc'
      · rw [append_cons] at hget
        exact happend hc' fun ts hts => hanswered hget ts (mem_append_left _ hts)
    · cases hloop.symm.trans hloop'
    · cases hloop.symm.trans hloop'

/-! ## The invariant -/

section

variable (syncer : Syncer) (H : Set BlockHeader) (U : Set MessageBlob)

def BlsDecodable (b : BlockHeader) : Prop :=
  ∀ m, MessageBlob.message m ∈ U → syncer.sm.codec.messageCid m ∈ b.messages.blsMessages →
    m.version = 0

def SyncCall.pending (c : SyncCall) : List BlockHeader :=
  match c.place with
  | .storing _ _ _ this _ => this.blocks
  | _ => []

def SyncSystem.pending (s : SyncSystem) : List BlockHeader := (s.call.map SyncCall.pending).getD []

structure DownFrom (maybeHead : TipSet) (headers : List TipSet) : Prop where
  within : ∀ ts ∈ headers, ts.Within H
  head : headers.head? = some maybeHead

def SyncPlace.Sound (ms : MessageStore) (c : SyncCall) : SyncPlace → Prop
  | .collecting => True
  | .persisting => DownFrom H c.maybeHead c.headers
  | .iterating i =>
    DownFrom H c.maybeHead c.headers ∧ (i = 0 → ∀ b ∈ c.maybeHead.blocks, ms.Loads b)
  | .fetching i bstout | .zipping i bstout _ =>
    DownFrom H c.maybeHead c.headers ∧ 0 < i ∧ ∀ bst ∈ bstout, bst.Within H U
  | .storing i bstout _ this bstip =>
    DownFrom H c.maybeHead c.headers ∧ 0 < i ∧ (∀ bst ∈ bstout, bst.Within H U) ∧ bstip.Within H U ∧
      ∃ fts, zipTipSetAndMessages syncer.sm.codec bstip.blsMessages bstip.secpkMessages this
        bstip.blsMsgIncludes bstip.secpkMsgIncludes = .ok fts
  | .putting => ∀ b ∈ c.maybeHead.blocks, ms.Loads b

structure SyncCall.Sound (ms : MessageStore) (c : SyncCall) : Prop where
  maybeHead : c.maybeHead.Within H
  place : c.place.Sound syncer H U ms c

structure SyncSystem.Sound (s : SyncSystem) : Prop where
  headers : ∀ c b, s.node.chain.blocks c = some b → b ∈ H ∧ syncer.sm.cs.hashing.headerCid b = c
  messages : s.node.messages.HoldsOf syncer.sm.codec U
  decodable : ∀ b ∈ H, syncer.sm.cs.hashing.headerCid b ∈ s.validated → BlsDecodable syncer U b
  validated : ∀ h, ∀ c ∈ s.node.chain.tipsets h, c ∈ s.validated
  loads : ∀ h, ∀ b ∈ H, syncer.sm.cs.hashing.headerCid b ∈ s.node.chain.tipsets h →
    s.node.messages.Loads b ∨ b ∈ s.pending
  call : ∀ c ∈ s.call, c.Sound syncer H U s.node.messages

end

section

variable {syncer : Syncer} {s s' : SyncSystem} {c : SyncCall}

lemma SyncCall.Sound.mono {ms ms' : MessageStore} (h : c.Sound syncer H U ms)
    (hext : ms.Extends ms') : c.Sound syncer H U ms' := by
  obtain ⟨maybeHead, headers, place⟩ := c
  refine ⟨h.maybeHead, ?_⟩
  have hplace := h.place
  cases place with
  | collecting => trivial
  | persisting => exact hplace
  | iterating i => exact ⟨hplace.1, fun hi b hb => hext.loads (hplace.2 hi b hb)⟩
  | fetching i bstout => exact hplace
  | zipping i bstout bsi => exact hplace
  | storing i bstout bsi this bstip => exact hplace
  | putting => exact fun b hb => hext.loads (hplace b hb)

structure SyncNode.Grows (syncer : Syncer) (H : Set BlockHeader) (U : Set MessageBlob)
    (n n' : SyncNode) : Prop where
  headers : (∀ c b, n.chain.blocks c = some b → b ∈ H ∧ syncer.sm.cs.hashing.headerCid b = c) →
    ∀ c b, n'.chain.blocks c = some b → b ∈ H ∧ syncer.sm.cs.hashing.headerCid b = c
  messages : n.messages.HoldsOf syncer.sm.codec U →
    n'.messages.HoldsOf syncer.sm.codec U ∧ n.messages.Extends n'.messages
  tipsets : n'.chain.tipsets = n.chain.tipsets
  heaviest : n'.chain.heaviest = n.chain.heaviest

instance : Std.Refl (SyncNode.Grows syncer H U) :=
  ⟨fun n => ⟨fun h => h, fun h => ⟨h, .refl n.messages⟩, rfl, rfl⟩⟩

instance : IsTrans SyncNode (SyncNode.Grows syncer H U) :=
  ⟨fun _ _ _ h h' => ⟨fun hn => h'.headers (h.headers hn), fun hn =>
    have hfirst := h.messages hn
    have hsecond := h'.messages hfirst.1
    ⟨hsecond.1, hfirst.2.trans hsecond.2⟩, h'.tipsets.trans h.tipsets,
      h'.heaviest.trans h.heaviest⟩⟩

namespace SyncSystem.Sound

lemma grow (h : s.Sound syncer H U) {node : SyncNode} (hnode : s.node.Grows syncer H U node) :
    SyncSystem.Sound syncer H U { s with node } := by
  obtain ⟨hmessages, hext⟩ := hnode.messages h.messages
  refine ⟨hnode.headers h.headers, hmessages, h.decodable, ?_, ?_,
    fun c hc => (h.call c hc).mono hext⟩
  · show ∀ n, ∀ c ∈ node.chain.tipsets n, c ∈ s.validated
    rw [hnode.tipsets]
    exact h.validated
  · show ∀ n, ∀ b ∈ H, _ ∈ node.chain.tipsets n → _
    rw [hnode.tipsets]
    exact fun n b hb htracked => (h.loads n b hb htracked).imp_left hext.loads

lemma withCall (h : s.Sound syncer H U) {call : Option SyncCall}
    (hpending : ∀ b ∈ s.pending, b ∈ H → syncer.sm.cs.hashing.headerCid b ∈ s.validated →
      s.node.messages.Loads b)
    (hcall : ∀ c ∈ call, c.Sound syncer H U s.node.messages) :
    SyncSystem.Sound syncer H U { s with call } :=
  ⟨h.headers, h.messages, h.decodable, h.validated, fun n b hb htracked =>
    .inl ((h.loads n b hb htracked).elim id fun hmem =>
      hpending b hmem hb (h.validated n _ htracked)), hcall⟩

lemma return_ (h : s.Sound syncer H U) (hpending : s.pending = []) :
    s.return_.Sound syncer H U := by
  refine h.withCall (fun b hb => ?_) fun c hc => absurd hc (Option.not_mem_none c)
  rw [hpending] at hb
  cases hb

lemma goto (h : s.Sound syncer H U) (hpending : s.pending = []) (hc : c.maybeHead.Within H)
    {place : SyncPlace} (hplace : place.Sound syncer H U s.node.messages { c with place }) :
    (s.goto c place).Sound syncer H U := by
  refine h.withCall (fun b hb => ?_) fun c' hc' => ?_
  · rw [hpending] at hb
    cases hb
  · cases hc'
    exact ⟨hc, hplace⟩

end SyncSystem.Sound

/-! ## What is stored -/

lemma isStorageBlock_of_mem {bls : List Message} {secpk : List SignedMessage} {blob : MessageBlob}
    (h : blob ∈ bls.map Message.toStorageBlock ++ secpk.map SignedMessage.toStorageBlock) :
    blob.IsStorageBlock := by
  rcases mem_append.mp h with h | h
  · obtain ⟨m, -, rfl⟩ := mem_map.mp h
    exact m.isStorageBlock
  · obtain ⟨sm, -, rfl⟩ := mem_map.mp h
    exact sm.isStorageBlock

namespace SyncNode.Grows

variable {n : SyncNode}

lemma persist {bs : List BlockHeader} (hbs : ∀ b ∈ bs, b ∈ H) :
    n.Grows syncer H U { n with chain := n.chain.persist syncer bs } := by
  refine ⟨fun hn => ?_, fun hn => ⟨hn, .refl _⟩, rfl, rfl⟩
  show ∀ c b, bs.foldl _ n.chain.blocks c = some b → _
  generalize n.chain.blocks = blocks at hn
  induction bs generalizing blocks with
  | nil => exact hn
  | cons b bs ih =>
    obtain ⟨hb, hrest⟩ := forall_mem_cons.mp hbs
    refine ih hrest _ fun c x hx => ?_
    grind

lemma addRoots (roots : List MsgMeta) : n.Grows syncer H U
      { n with messages := { n.messages with roots := roots ++ n.messages.roots } } :=
  ⟨fun h => h, fun h => ⟨h.withRoots _, fun _ _ hx => hx,
    fun _ hroot => mem_append_right _ hroot⟩, rfl, rfl⟩

lemma putMessages (hinj : Set.InjOn (MessageBlob.cid syncer.sm.codec) U)
    {blobs : List MessageBlob} (hblobs : ∀ blob ∈ blobs, blob ∈ U ∧ blob.IsStorageBlock) :
    n.Grows syncer H U { n with
        messages := blobs.foldl (fun ms blob => ms.putMessage syncer.sm.codec blob) n.messages } :=
  ⟨fun h => h, fun h => by
    obtain ⟨hholds, hext, -⟩ := h.putMessages hinj hblobs
    exact ⟨hholds, hext⟩, rfl, rfl⟩

lemma of_eq {n' : SyncNode} (hchain : n'.chain = n.chain) (hmessages : n'.messages = n.messages) :
    n.Grows syncer H U n' := by
  obtain ⟨chain, messages, bad, peerHeads⟩ := n'
  cases hchain
  cases hmessages
  exact ⟨fun h => h, fun h => ⟨h, .refl _⟩, rfl, rfl⟩

end SyncNode.Grows

open Act in
lemma Syncer.validateMsgMeta_grows (hinj : Set.InjOn (MessageBlob.cid syncer.sm.codec) U)
    {fb : FullBlock} (hfb : fb.Within H U) :
    Keeps (SyncNode.Grows syncer H U) (syncer.validateMsgMeta fb) := by
  refine .ite (fun _ => .fail _) fun _ => .bind (.modify fun n => .addRoots [_]) fun _ => ?_
  refine .ite (fun _ => .fail _) fun _ => .modify fun n => .putMessages hinj fun blob hblob => ?_
  exact ⟨hfb.messages blob hblob, isStorageBlock_of_mem hblob⟩

open Act in
lemma informLoop_grows (hinj : Set.InjOn (MessageBlob.cid syncer.sm.codec) U)
    {fts : List FullBlock} (hfts : ∀ fb ∈ fts, fb.Within H U) :
    Keeps (SyncNode.Grows syncer H U) (informLoop syncer fts) := by
  induction fts with
  | nil => exact .pure true
  | cons fb fts ih =>
    obtain ⟨hfb, hrest⟩ := forall_mem_cons.mp hfts
    refine .bind .get fun n => ?_
    split
    · exact .pure false
    · refine .bind (Syncer.validateMsgMeta_grows hinj hfb).attempt fun res => ?_
      split
      · exact .pure false
      · exact ih hrest

open Act in
/-- `InformNewHead` stores headers and messages, and changes nothing else of the chain. -/
lemma informNewHead_grows (hinj : Set.InjOn (MessageBlob.cid syncer.sm.codec) U)
    {genesisBlock : Except NodeErr BlockHeader} {self source : PeerID} {fts : List FullBlock}
    (hfts : ∀ fb ∈ fts, fb.Within H U) :
    Keeps (SyncNode.Grows syncer H U)
      (informNewHead syncer genesisBlock self (fun _ => pure ()) source fts) := by
  unfold informNewHead
  split
  · exact .fail _
  · next ts hts =>
    have hwithin : ts.Within H := .of_newTipSet hts fun b hb => by
      obtain ⟨fb, hfb, rfl⟩ := mem_map.mp hb
      exact (hfts fb hfb).header
    refine .ite (fun _ => .pure false) fun _ => .bind (informLoop_grows hinj hfts) fun ok => ?_
    refine .ite (fun _ => .pure false) fun _ => .ite (fun _ => ?_) fun _ => ?_
    · refine .bind (Keeps.pure ()).attempt fun res => ?_
      split
      · exact .pure false
      · exact .pure true
    · refine .bind (fun n => .persist hwithin) fun _ => .bind .get fun n => ?_
      split
      · exact .fail _
      · refine .ite (fun _ => .pure false) fun _ => ?_
        exact .bind (.modify fun n => .of_eq rfl rfl) fun _ => .pure true

/-! ## What is validated -/

lemma mem_of_addToTipSetTracker {hashing : Hashing} {b : BlockHeader} {tipsets : TipSetTracker}
    {n : Int64} {x : Cid} (h : x ∈ addToTipSetTracker hashing b tipsets n) :
    x ∈ tipsets n ∨ x = hashing.headerCid b := by
  unfold addToTipSetTracker at h
  split_ifs at h
  · exact .inl h
  · grind

/-- What goroutines of `ValidateTipSet` do to the chain and the messages: they track the blocks that
they accept. -/
structure SyncNode.Tracked (syncer : Syncer) (vs : List Validation) (n n' : SyncNode) : Prop where
  blocks : n'.chain.blocks = n.chain.blocks
  heaviest : n'.chain.heaviest = n.chain.heaviest
  messages : n'.messages = n.messages
  tipsets : ∀ h, ∀ c ∈ n'.chain.tipsets h,
    c ∈ n.chain.tipsets h ∨ ∃ v ∈ vs, v.result syncer = .ok () ∧ v.cid syncer = c

lemma Validation.finish_tracked (errorText : NodeErr → String) (v : Validation) (n : SyncNode) :
    n.Tracked syncer [v] (v.finish syncer errorText n) := by
  unfold finish
  rcases hresult : v.result syncer with err | u
  · dsimp only
    split_ifs
    · exact ⟨rfl, rfl, rfl, fun h c hc => .inl hc⟩
    · exact ⟨rfl, rfl, rfl, fun h c hc => .inl hc⟩
  · refine ⟨rfl, rfl, rfl, fun h c hc => (mem_of_addToTipSetTracker hc).imp_right fun hcid => ?_⟩
    exact ⟨v, mem_singleton_self v, hresult, hcid.symm⟩

lemma foldl_finish_tracked (errorText : NodeErr → String) (vs : List Validation) (n : SyncNode) :
    n.Tracked syncer vs (vs.foldl (fun n v => v.finish syncer errorText n) n) := by
  induction vs generalizing n with
  | nil => exact ⟨rfl, rfl, rfl, fun h c hc => .inl hc⟩
  | cons v vs ih =>
    have hfirst : n.Tracked syncer [v] _ := v.finish_tracked errorText n
    have hrest := ih (v.finish syncer errorText n)
    refine ⟨hrest.blocks.trans hfirst.blocks, hrest.heaviest.trans hfirst.heaviest,
      hrest.messages.trans hfirst.messages, fun h c hc => ?_⟩
    rcases hrest.tipsets h c hc with hc | ⟨w, hw, hok⟩
    · refine (hfirst.tipsets h c hc).imp_right fun ⟨w, hw, hok⟩ => ⟨w, ?_, hok⟩
      rw [mem_singleton.mp hw]
      exact .head _
    · exact .inr ⟨w, mem_cons_of_mem v hw, hok⟩

/-- The block has the messages that its header names, and they are among those of `U`. -/
structure FullBlock.Filled (syncer : Syncer) (H : Set BlockHeader) (U : Set MessageBlob)
    (fb : FullBlock) : Prop where
  header : fb.header ∈ H
  messages : fb.header.messages.blsMessages = fb.blsMessages.map syncer.sm.codec.messageCid
  mem : ∀ m ∈ fb.blsMessages, .message m ∈ U

lemma version_of_checkBlockMessages {env : Env} {crypto : Crypto} {codec : Codec}
    {baseHeight : Int64} {root : Hamt} {b : FullBlock}
    (h : checkBlockMessages env crypto codec baseHeight root b = .ok ()) :
    ∀ m ∈ b.blsMessages, m.version = 0 := by
  intro m hm
  have hchain : m.toChainMsg codec ∈ b.chainMsgs codec := mem_append_left _ (mem_map_of_mem hm)
  obtain ⟨pre, post, hsplit⟩ := append_of_mem hchain
  obtain ⟨act, horder⟩ := checkBlockMessages_ok h pre _ post hsplit
  have hvalid : m.validForBlockInclusion _ = .ok () := horder.valid
  grind [Message.validForBlockInclusion]

lemma Validation.blsDecodable {v : Validation} {n : SyncNode}
    (hinj : Set.InjOn (MessageBlob.cid syncer.sm.codec) U)
    (hfilled : v.block.Filled syncer H U)
    (hnew : v.cid (syncer.over n) ∉ v.state.validated)
    (h : v.result (syncer.over n) = .ok ()) : BlsDecodable syncer U v.block.header := by
  have haccepted : Accepted (syncer.over n) v.block := ⟨v.state, hnew, validateBlock_of_result h⟩
  obtain ⟨baseTs, -, -, hcheck⟩ := haccepted.messages
  intro m hm hcid
  rw [hfilled.messages] at hcid
  obtain ⟨m', hm', heq⟩ := mem_map.mp hcid
  have hsame : MessageBlob.message m' = .message m := hinj (hfilled.mem m' hm') hm heq
  cases hsame
  exact version_of_checkBlockMessages hcheck m hm'

variable {errorText : NodeErr → String} {genesis : TipSet} {tape : SyncTape} {fts : List FullBlock}

lemma SyncSystem.mem_validations {v : Validation} (hv : v ∈ s.validations syncer genesis tape fts) :
    v.block ∈ fts ∧ v.state.validated = s.validated := by
  obtain ⟨fb, hfb, rfl⟩ := mem_map.mp (TipSetValidation.mem_of_started hv)
  exact ⟨hfb, rfl⟩

/-- The invariant holds, and the head is the one that was. -/
def SyncSystem.SoundStep (syncer : Syncer) (H : Set BlockHeader) (U : Set MessageBlob)
    (s s' : SyncSystem) : Prop :=
  s'.Sound syncer H U ∧ s'.node.chain.heaviest = s.node.chain.heaviest

lemma SyncSystem.Sound.validate (hcids : Set.InjOn syncer.sm.cs.hashing.headerCid H)
    (hinj : Set.InjOn (MessageBlob.cid syncer.sm.codec) U) (h : s.Sound syncer H U)
    (hpending : s.pending = []) (hfts : ∀ fb ∈ fts, fb.Filled syncer H U) {call : Option SyncCall}
    (hloads : ∀ v ∈ s.validations syncer genesis tape fts, v.result (syncer.over s.node) = .ok () →
      s.node.messages.Loads v.block.header ∨ v.block.header ∈ SyncSystem.pending { s with call })
    (hcall : ∀ c ∈ call, c.Sound syncer H U s.node.messages) :
    s.SoundStep syncer H U { (s.validate syncer errorText genesis tape fts).2 with call } := by
  obtain ⟨hblocks, hheaviest, hmessages, htipsets⟩ :
      s.node.Tracked (syncer.over s.node) (s.validations syncer genesis tape fts)
        (s.validate syncer errorText genesis tape fts).2.node := by
    show s.node.Tracked _ _ (validateTipSet (syncer.over s.node) errorText genesis
      (tape.validation s.validated fts) s.node).2
    rw [validateTipSet_snd]
    exact foldl_finish_tracked errorText _ _
  have hmarked : ∀ v ∈ s.validations syncer genesis tape fts,
      v.result (syncer.over s.node) = .ok () →
        v.cid syncer ∈ (s.validate syncer errorText genesis tape fts).2.validated := fun v hv hok =>
    mem_append_left _ (mem_map_of_mem (mem_filter.mpr ⟨hv, decide_eq_true hok⟩))
  have heq : ∀ v ∈ s.validations syncer genesis tape fts, ∀ b ∈ H,
      v.cid syncer = syncer.sm.cs.hashing.headerCid b → v.block.header = b := fun v hv b hb =>
    hcids (hfts _ (mem_validations hv).1).header hb
  refine ⟨⟨?_, ?_, fun b hb hcid => ?_, fun n x hx => ?_, fun n b hb htracked => ?_, ?_⟩, hheaviest⟩
  · show ∀ c b, (s.validate syncer errorText genesis tape fts).2.node.chain.blocks c = some b → _
    rw [hblocks]
    exact h.headers
  · show (s.validate syncer errorText genesis tape fts).2.node.messages.HoldsOf _ _
    rw [hmessages]
    exact h.messages
  · rcases mem_append.mp hcid with hnew | hold
    · obtain ⟨v, hv, hvcid⟩ := mem_map.mp hnew
      obtain ⟨hv, hok⟩ := mem_filter.mp hv
      obtain ⟨hfb, hstate⟩ := mem_validations hv
      obtain rfl := heq v hv b hb hvcid
      by_cases hold : syncer.sm.cs.hashing.headerCid v.block.header ∈ s.validated
      · exact h.decodable _ hb hold
      · refine Validation.blsDecodable hinj (hfts _ hfb) (fun hmem => hold ?_)
          (of_decide_eq_true hok)
        rwa [hstate] at hmem
    · exact h.decodable b hb hold
  · rcases htipsets n x hx with hold | ⟨v, hv, hok, rfl⟩
    · exact mem_append_right _ (h.validated n x hold)
    · exact hmarked v hv hok
  · show (s.validate syncer errorText genesis tape fts).2.node.messages.Loads b ∨
      b ∈ SyncSystem.pending { s with call }
    rw [hmessages]
    rcases htipsets n _ htracked with hold | ⟨v, hv, hok, hvcid⟩
    · refine .inl ((h.loads n b hb hold).resolve_right fun hmem => ?_)
      rw [hpending] at hmem
      cases hmem
    · obtain rfl := heq v hv b hb hvcid
      exact hloads v hv hok
  · grind

end

end Lotus
