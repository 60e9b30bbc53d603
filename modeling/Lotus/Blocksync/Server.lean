import Lotus.Blocksync.Client
import Lotus.Chain.MessageStore
import Lotus.Chain.Mining
import Lotus.Lib.Interning

/-!
# Block sync

The server of `chain/blocksync/blocksync.go`, and `zipTipSetAndMessages` of `chain/sync.go`, which
puts the messages of a response together with the blocks that they are for.
-/

namespace Lotus

open Check Interning List

/-! ## The server -/

structure BSOptions where
  includeBlocks : Bool
  includeMessages : Bool

def parseBSOptions (optfield : UInt64) : BSOptions :=
  ⟨optfield &&& bsOptBlocks ≠ 0, optfield &&& bsOptMessages ≠ 0⟩

def blockSyncMaxRequestLength : UInt64 := 800

structure BlockSyncService where
  cs : ChainStore
  codec : Codec
  errorText : NodeErr → String

/-- What `gatherMessages` has put together: the messages with the map of their numbers, and the
numbers of those of each block. -/
structure Gathered where
  bls : Table Message Cid
  blsIncl : List (List ℕ)
  secpk : Table SignedMessage Cid
  secpkIncl : List (List ℕ)

section

variable (bss : BlockSyncService)

/-- The loop of `gatherMessages` over the blocks. -/
def gatherLoop : List BlockHeader → Gathered → Except NodeErr Gathered
  | [], g => .ok g
  | b :: blocks, g => do
    let (bmsgs, smsgs) ← bss.cs.messagesForBlock b
    let (bmi, bls) := g.bls.internAll bss.codec.messageCid bmsgs
    let (smi, secpk) := g.secpk.internAll (·.cid bss.codec) smsgs
    gatherLoop blocks ⟨bls, g.blsIncl ++ [bmi], secpk, g.secpkIncl ++ [smi]⟩

def gatherMessages (ts : TipSet) : Except NodeErr Gathered :=
  gatherLoop bss ts.blocks ⟨.empty, [], .empty, []⟩

/-- A tipset with what is asked for of it. -/
def bsTipSet (opts : BSOptions) (ts : TipSet) : Except NodeErr BSTipSet := do
  let g ← if opts.includeMessages then
      (gatherMessages bss ts).mapError (.wrap "gather messages failed")
    else pure ⟨.empty, [], .empty, []⟩
  pure ⟨if opts.includeBlocks then ts.blocks else [], g.bls.items, g.blsIncl, g.secpk.items,
    g.secpkIncl⟩

/-- The loop of `collectChainSegment`. Each iteration appends a tipset, and the loop ends when there
are `length` of them, so that many iterations are enough. -/
def collectLoop (length : UInt64) (opts : BSOptions) :
    ℕ → List Cid → List BSTipSet → Except NodeErr (List BSTipSet)
  | 0, _, _ => .error (.new "more tipsets than were asked for")
  | n + 1, cur, bstips => do
    let ts ← (loadTipSet bss.cs cur).mapError (.wrap "failed loading tipset %s")
    let bst ← bsTipSet bss opts ts
    if length.toNat ≤ (bstips ++ [bst]).length ∨ ts.height = 0 then .ok (bstips ++ [bst])
    else collectLoop length opts n ts.parents (bstips ++ [bst])

def collectChainSegment (start : List Cid) (length : UInt64) (opts : BSOptions) :
    Except NodeErr (List BSTipSet) :=
  collectLoop bss length opts (length.toNat + 1) start []

def processRequest (req : BlockSyncRequest) : BlockSyncResponse :=
  if req.start = [] then ⟨[], statusBadRequest, "no cids given in blocksync request"⟩
  else
    let reqlen := if req.requestLength > blockSyncMaxRequestLength then blockSyncMaxRequestLength
      else req.requestLength
    match collectChainSegment bss req.start reqlen (parseBSOptions req.options) with
    | .error err => ⟨[], statusInternalError, bss.errorText err⟩
    | .ok chain =>
      ⟨chain, if reqlen < req.requestLength then statusPartial else statusOK, ""⟩

end

lemma getAll_length {α : Type} {items : List α} {is : List ℕ} {as : List α}
    (h : getAll items is = some as) : as.length = is.length :=
  (getAll_eq_some.mp h).length_eq.symm

section

variable (codec : Codec) (allbmsgs : List Message) (allsmsgs : List SignedMessage)

/-- A block with its messages, in `zipTipSetAndMessages`. An index that is out of range panics. -/
def zipBlock (b : BlockHeader) (bmi smi : List ℕ) : Except NodeErr FullBlock :=
  if hlimit : bmi.length + smi.length > blockMessageLimit then
    .error (.new "block %q has too many messages (%d)")
  else
    match hsmsgs : getAll allsmsgs smi with
    | none => .error (.new "panic")
    | some smsgs =>
      match hbmsgs : getAll allbmsgs bmi with
      | none => .error (.new "panic")
      | some bmsgs =>
        if b.messages ≠ ⟨bmsgs.map codec.messageCid, smsgs.map (·.cid codec)⟩ then
          .error (.new "messages didnt match message root in header for ts %s")
        else .ok ⟨b, bmsgs, smsgs, by
          rw [getAll_length hsmsgs, getAll_length hbmsgs]
          exact (not_lt.mp hlimit).trans_lt (by decide)⟩

def zipTipSetAndMessages (ts : TipSet) (bmi smi : List (List ℕ)) :
    Except NodeErr (List FullBlock) :=
  if ts.blocks.length ≠ smi.length ∨ ts.blocks.length ≠ bmi.length then
    .error (.new "msgincl length didnt match tipset size")
  else (ts.blocks.zip (bmi.zip smi)).mapM fun (b, bmi, smi) =>
    zipBlock codec allbmsgs allsmsgs b bmi smi

end

/-! ## What the server sends -/

variable {bss : BlockSyncService}

variable {msgs : List (List Message × List SignedMessage)}

lemma gatherLoop_eq {blocks : List BlockHeader}
    (h : List.Forall₂ (fun b ms => bss.cs.messagesForBlock b = .ok ms) blocks msgs) (g : Gathered) :
    gatherLoop bss blocks g = .ok ⟨(g.bls.internLists bss.codec.messageCid (msgs.map Prod.fst)).2,
        g.blsIncl ++ (g.bls.internLists bss.codec.messageCid (msgs.map Prod.fst)).1,
        (g.secpk.internLists (·.cid bss.codec) (msgs.map Prod.snd)).2,
        g.secpkIncl ++ (g.secpk.internLists (·.cid bss.codec) (msgs.map Prod.snd)).1⟩ := by
  induction h generalizing g with
  | nil =>
    rw [gatherLoop]
    simp only [map_nil, Table.internLists, append_nil]
  | cons hb _ ih =>
    rw [gatherLoop, hb]
    refine (ih _).trans ?_
    simp only [map_cons, Table.internLists, append_assoc, singleton_append]

def MessagesStored (ms : MessageStore) (ts : TipSet) : Prop :=
  ∀ b ∈ ts.blocks, ∃ msgs, ms.messagesForBlock b = .ok msgs ∧
    msgs.1.length + msgs.2.length ≤ blockMessageLimit
deriving Decidable

variable (bss) in
structure GivesBack (ts : TipSet) (bst : BSTipSet) : Prop where
  zipped : ∃ fts, zipTipSetAndMessages bss.codec bst.blsMessages bst.secpkMessages ts
      bst.blsMsgIncludes bst.secpkMsgIncludes = .ok fts ∧
    List.Forall₂ (fun b fb => fb.header = b ∧
      bss.cs.messagesForBlock b = .ok (fb.blsMessages, fb.secpkMessages)) ts.blocks fts
  bls_nodup : bst.blsMessages.Nodup
  secpk_nodup : bst.secpkMessages.Nodup
  mem_bls : ∀ m ∈ bst.blsMessages, ∃ b ∈ ts.blocks, ∃ bls secpk,
    bss.cs.messagesForBlock b = .ok (bls, secpk) ∧ m ∈ bls
  mem_secpk : ∀ sm ∈ bst.secpkMessages, ∃ b ∈ ts.blocks, ∃ bls secpk,
    bss.cs.messagesForBlock b = .ok (bls, secpk) ∧ sm ∈ secpk

section

variable {codec : Codec} {allbmsgs : List Message} {allsmsgs : List SignedMessage}

lemma zipBlock_eq_ok {b : BlockHeader} {bmi smi : List ℕ} {fb : FullBlock} :
    zipBlock codec allbmsgs allsmsgs b bmi smi = .ok fb ↔ fb.header = b ∧
      bmi.length + smi.length ≤ blockMessageLimit ∧ getAll allbmsgs bmi = some fb.blsMessages ∧
        getAll allsmsgs smi = some fb.secpkMessages ∧
          b.messages = ⟨fb.blsMessages.map codec.messageCid,
            fb.secpkMessages.map (·.cid codec)⟩ := by
  unfold zipBlock
  split_ifs with hlimit
  · exact iff_of_false (fun h => by cases h) fun h => hlimit.not_ge h.2.1
  split
  next hsmsgs => exact iff_of_false (fun h => by cases h) fun h => by grind
  next smsgs hsmsgs =>
    split
    next hbmsgs => exact iff_of_false (fun h => by cases h) fun h => by grind
    next bmsgs hbmsgs =>
      constructor
      · grind
      · rintro ⟨rfl, -, hbls, hsecpk, hroot⟩
        cases hbmsgs.symm.trans hbls
        cases hsmsgs.symm.trans hsecpk
        rw [if_neg (not_not.mpr hroot)]

variable {bmi smi : List (List ℕ)}

lemma mem_of_zipTipSetAndMessages {ts : TipSet} {fts : List FullBlock}
    (h : zipTipSetAndMessages codec allbmsgs allsmsgs ts bmi smi = .ok fts) :
    List.Forall₂ (fun b fb => fb.header = b ∧ (∀ m ∈ fb.blsMessages, m ∈ allbmsgs) ∧
      (∀ sm ∈ fb.secpkMessages, sm ∈ allsmsgs) ∧
        b.messages = ⟨fb.blsMessages.map codec.messageCid, fb.secpkMessages.map (·.cid codec)⟩)
      ts.blocks fts := by
  have hmem {α : Type} {items as : List α} {is : List ℕ} (hget : getAll items is = some as) :
      ∀ a ∈ as, a ∈ items := by
    intro a ha
    obtain ⟨i, -, hi⟩ := Aligned.exists_of_mem_right (getAll_eq_some.mp hget) ha
    exact mem_of_getElem? hi
  unfold zipTipSetAndMessages at h
  split_ifs at h with hlength
  obtain ⟨hsmi, hbmi⟩ := not_or.mp hlength
  have hblocks : (ts.blocks.zip (bmi.zip smi)).map Prod.fst = ts.blocks := by
    refine map_fst_zip ?_
    rw [length_zip, ← not_not.mp hsmi, ← not_not.mp hbmi, min_self]
  rw [← hblocks, forall₂_map_left_iff]
  refine (mapM_eq_ok.mp h).imp fun p fb hfb => ?_
  obtain ⟨hheader, -, hbls, hsecpk, hroot⟩ := zipBlock_eq_ok.mp hfb
  exact ⟨hheader, hmem hbls, hmem hsecpk, hroot⟩

variable {R : BlockHeader → List Message × List SignedMessage → Prop}

lemma exists_zip {blocks : List BlockHeader} (h : List.Forall₂ R blocks msgs)
    (hR : ∀ b ms, R b ms → ms.1.length + ms.2.length ≤ blockMessageLimit ∧
      b.messages = ⟨ms.1.map codec.messageCid, ms.2.map (·.cid codec)⟩)
    (hbmi : List.Forall₂ (fun is as => getAll allbmsgs is = some as) bmi (msgs.map Prod.fst))
    (hsmi : List.Forall₂ (fun is as => getAll allsmsgs is = some as) smi (msgs.map Prod.snd)) :
    ∃ fts, List.Forall₂ (fun p fb => zipBlock codec allbmsgs allsmsgs p.1 p.2.1 p.2.2 = .ok fb)
        (blocks.zip (bmi.zip smi)) fts ∧
      List.Forall₂ (fun b fb => fb.header = b ∧ R b (fb.blsMessages, fb.secpkMessages))
        blocks fts := by
  induction h generalizing bmi smi with
  | nil => exact ⟨[], .nil, .nil⟩
  | @cons b ms blocks msgs hb _ ih =>
    obtain ⟨is, bmi', his, hbmi', rfl⟩ := forall₂_cons_right_iff.mp hbmi
    obtain ⟨js, smi', hjs, hsmi', rfl⟩ := forall₂_cons_right_iff.mp hsmi
    obtain ⟨fts, hfts, hblocks⟩ := ih hbmi' hsmi'
    obtain ⟨hlimit, hroot⟩ := hR b ms hb
    refine ⟨⟨b, ms.1, ms.2, hlimit.trans_lt (by decide)⟩ :: fts, .cons ?_ hfts,
      .cons ⟨rfl, hb⟩ hblocks⟩
    refine zipBlock_eq_ok.mpr ⟨rfl, ?_, his, hjs, hroot⟩
    rwa [← getAll_length his, ← getAll_length hjs]

lemma exists_zipTipSetAndMessages {ts : TipSet} (h : List.Forall₂ R ts.blocks msgs)
    (hR : ∀ b ms, R b ms → ms.1.length + ms.2.length ≤ blockMessageLimit ∧
      b.messages = ⟨ms.1.map codec.messageCid, ms.2.map (·.cid codec)⟩)
    (hbmi : List.Forall₂ (fun is as => getAll allbmsgs is = some as) bmi (msgs.map Prod.fst))
    (hsmi : List.Forall₂ (fun is as => getAll allsmsgs is = some as) smi (msgs.map Prod.snd)) :
    ∃ fts, zipTipSetAndMessages codec allbmsgs allsmsgs ts bmi smi = .ok fts ∧
      List.Forall₂ (fun b fb => fb.header = b ∧ R b (fb.blsMessages, fb.secpkMessages))
        ts.blocks fts := by
  obtain ⟨fts, hfts, hblocks⟩ := exists_zip h hR hbmi hsmi
  have hlength : ts.blocks.length = smi.length ∧ ts.blocks.length = bmi.length := by
    simp [hbmi.length_eq, hsmi.length_eq, length_map, h.length_eq]
  refine ⟨fts, ?_, hblocks⟩
  rw [zipTipSetAndMessages, if_neg (not_or.mpr ⟨not_not.mpr hlength.1, not_not.mpr hlength.2⟩)]
  exact mapM_eq_ok.mpr hfts

end

/-- What the server sends of a tipset with stored messages. -/
lemma givesBack_of_gatherMessages {ms : MessageStore} (haddr : ms.Addressed bss.codec)
    (hms : bss.cs.messagesForBlock = ms.messagesForBlock) {ts : TipSet} (h : MessagesStored ms ts)
    (blocks : List BlockHeader) :
    ∃ g, gatherMessages bss ts = .ok g ∧
      GivesBack bss ts ⟨blocks, g.bls.items, g.blsIncl, g.secpk.items, g.secpkIncl⟩ := by
  obtain ⟨msgs, hmsgs⟩ : ∃ msgs, List.Forall₂ (fun b m => ms.messagesForBlock b = .ok m ∧
      m.1.length + m.2.length ≤ blockMessageLimit) ts.blocks msgs := Aligned.exists_forall₂ h
  have hload : List.Forall₂ (fun b m => bss.cs.messagesForBlock b = .ok m) ts.blocks msgs := by
    rw [hms]
    exact hmsgs.imp fun b m h => h.1
  have hblock : ∀ m ∈ msgs, ∃ b ∈ ts.blocks, ms.messagesForBlock b = .ok (m.1, m.2) := by
    intro m hm
    obtain ⟨b, hb, hm, -⟩ := Aligned.exists_of_mem_right hmsgs hm
    exact ⟨b, hb, hm⟩
  -- a message is the one that is stored under its CID
  have hbls : ∀ as ∈ msgs.map Prod.fst, ∀ a ∈ as,
      ms.blobs (bss.codec.messageCid a) = some (.message a) := by
    refine forall_mem_map.mpr fun m hm => ?_
    obtain ⟨b, -, hb⟩ := hblock m hm
    exact (haddr.blobs_messageCid hb).1
  have hsecpk : ∀ as ∈ msgs.map Prod.snd, ∀ a ∈ as,
      ms.blobs (a.cid bss.codec) = some (.signed a) := by
    refine forall_mem_map.mpr fun m hm => ?_
    obtain ⟨b, -, hb⟩ := hblock m hm
    exact (haddr.blobs_messageCid hb).2
  have hblsKey : ∀ as ∈ msgs.map Prod.fst, ∀ a ∈ as, ∀ bs ∈ msgs.map Prod.fst, ∀ b ∈ bs,
      bss.codec.messageCid b = bss.codec.messageCid a → b = a := by
    intro as has a ha bs hbs b hb hcid
    have heq := (hbls bs hbs b hb).symm.trans (hcid ▸ hbls as has a ha)
    exact MessageBlob.message.inj (Option.some.inj heq)
  have hsecpkKey : ∀ as ∈ msgs.map Prod.snd, ∀ a ∈ as, ∀ bs ∈ msgs.map Prod.snd, ∀ b ∈ bs,
      b.cid bss.codec = a.cid bss.codec → b = a := fun as has a ha bs hbs b hb hcid => by
    have heq := (hsecpk bs hbs b hb).symm.trans (hcid ▸ hsecpk as has a ha)
    exact MessageBlob.signed.inj (Option.some.inj heq)
  obtain ⟨hblsNodup, hblsMem, hbmi⟩ := internLists_empty hblsKey
  obtain ⟨hsecpkNodup, hsecpkMem, hsmi⟩ := internLists_empty hsecpkKey
  obtain ⟨fts, hzip, hblocks⟩ := exists_zipTipSetAndMessages hmsgs
    (fun b m hm => ⟨hm.2, haddr.messages_eq hm.1⟩) hbmi hsmi
  refine ⟨_, gatherLoop_eq hload _, ⟨fts, hzip, ?_⟩, hblsNodup, hsecpkNodup, ?_, ?_⟩
  · rw [hms]
    exact hblocks.imp fun b fb hb => ⟨hb.1, hb.2.1⟩
  · intro m hm
    obtain ⟨as, has, hm⟩ := hblsMem m hm
    obtain ⟨x, hx, rfl⟩ := mem_map.mp has
    obtain ⟨b, hb, hload⟩ := hblock x hx
    exact ⟨b, hb, x.1, x.2, hms ▸ hload, hm⟩
  · intro sm hsm
    obtain ⟨as, has, hsm⟩ := hsecpkMem sm hsm
    obtain ⟨x, hx, rfl⟩ := mem_map.mp has
    obtain ⟨b, hb, hload⟩ := hblock x hx
    exact ⟨b, hb, x.1, x.2, hms ▸ hload, hsm⟩

/-! ## The chain -/

lemma bsTipSet_spec {ms : MessageStore} (haddr : ms.Addressed bss.codec)
    (hms : bss.cs.messagesForBlock = ms.messagesForBlock) {ts : TipSet} (h : MessagesStored ms ts)
    (opts : BSOptions) :
    ∃ bst, bsTipSet bss opts ts = .ok bst ∧ (opts.includeBlocks = true → bst.blocks = ts.blocks) ∧
        (opts.includeMessages = true → GivesBack bss ts bst) := by
  cases hmessages : opts.includeMessages with
  | false =>
    rw [bsTipSet, hmessages]
    exact ⟨_, rfl, fun hblocks => if_pos hblocks, nofun⟩
  | true =>
    obtain ⟨g, hg, hgives⟩ := givesBack_of_gatherMessages haddr hms h
      (if opts.includeBlocks then ts.blocks else [])
    rw [bsTipSet, hmessages, if_pos rfl, hg]
    exact ⟨_, rfl, fun hblocks => if_pos hblocks, fun _ => hgives⟩

section

variable {g ts : TipSet} {l : List TipSet}

variable {cs : ChainStore}

lemma ChainOf.isChain (h : ChainOf cs g ts l) :
    (ts :: l).IsChain fun x y => loadTipSet cs x.parents = .ok y := by
  induction l generalizing ts with
  | nil => exact .singleton ts
  | cons pts l ih => grind [h.tail]

lemma ChainOf.height_eq_zero_iff (h : ChainOf cs g ts l) : ts.height = 0 ↔ l = [] := by
  cases l with
  | nil =>
    rw [h.eq_genesis]
    exact iff_of_true h.height_zero rfl
  | cons pts l =>
    obtain ⟨-, hlt, hchain⟩ := h.tail
    refine iff_of_false (fun hzero => ?_) (cons_ne_nil pts l)
    have hlevel : ts.level = 0 := by rw [TipSet.level, hzero]; rfl
    exact absurd hchain.level_nonneg (not_le.mpr (hlevel ▸ hlt))

variable {P : TipSet → BSTipSet → Prop}

lemma collectLoop_spec {opts : BSOptions} {length : UInt64} (h : ChainOf bss.cs g ts l)
    (hbst : ∀ x ∈ ts :: l, ∃ bst, bsTipSet bss opts x = .ok bst ∧ P x bst) {cur : List Cid}
    (hload : loadTipSet bss.cs cur = .ok ts) {n : ℕ} {bstips : List BSTipSet}
    (hn : length.toNat ≤ n + bstips.length) :
    ∃ sent, collectLoop bss length opts (n + 1) cur bstips = .ok (bstips ++ sent) ∧
      List.Forall₂ P ((ts :: l).take (max 1 (length.toNat - bstips.length))) sent := by
  induction l generalizing ts cur n bstips with
  | nil =>
    obtain ⟨bst, hbst, hP⟩ := hbst ts mem_cons_self
    have hzero : ts.height = 0 := h.height_eq_zero_iff.mpr rfl
    refine ⟨[bst], ?_, ?_⟩
    · rw [collectLoop, hload]
      show bsTipSet bss opts ts >>= _ = _
      rw [hbst]
      exact if_pos (.inr hzero)
    · rw [take_of_length_le (length_singleton.trans_le (le_max_left _ _))]
      exact .cons hP .nil
  | cons pts l ih =>
    obtain ⟨hparent, -, hchain⟩ := h.tail
    obtain ⟨⟨bst, hts, hP⟩, hrest⟩ := forall_mem_cons.mp hbst
    have hheight : ts.height ≠ 0 := fun hzero =>
      cons_ne_nil pts l (h.height_eq_zero_iff.mp hzero)
    have hlength : (bstips ++ [bst]).length = bstips.length + 1 := length_append
    have hstep : collectLoop bss length opts (n + 1) cur bstips =
        if length.toNat ≤ (bstips ++ [bst]).length ∨ ts.height = 0 then .ok (bstips ++ [bst])
        else collectLoop bss length opts n ts.parents (bstips ++ [bst]) := by
      rw [collectLoop, hload]
      show bsTipSet bss opts ts >>= _ = _
      rw [hts]
      rfl
    rw [hstep]
    by_cases hdone : length.toNat ≤ (bstips ++ [bst]).length
    · refine ⟨[bst], if_pos (.inl hdone), ?_⟩
      rw [max_eq_left (by omega)]
      exact .cons hP .nil
    · obtain ⟨m, rfl⟩ := Nat.exists_eq_succ_of_ne_zero (show n ≠ 0 by omega)
      have hm : length.toNat ≤ m + (bstips ++ [bst]).length := by omega
      obtain ⟨sent, hsent, hforall⟩ := ih hchain hrest hparent hm
      rw [if_neg (not_or.mpr ⟨hdone, hheight⟩), hsent]
      refine ⟨bst :: sent, by rw [append_assoc, singleton_append], ?_⟩
      rw [hlength, max_eq_right (by omega)] at hforall
      rw [max_eq_right (by omega), show length.toNat - bstips.length =
        length.toNat - (bstips.length + 1) + 1 by omega, take_succ_cons]
      exact .cons hP hforall

lemma Stored.newTipSet_blocks_self (h : Stored cs ts)
    (hsum : Function.Injective cs.hashing.sum256) : newTipSet cs.hashing ts.blocks = .ok ts := by
  obtain ⟨blks, -, hblks⟩ := loadTipSet_eq_ok.mp h
  exact Lotus.newTipSet_blocks_self hsum hblks

/-- How many tipsets are asked for, and at most so many are sent. -/
def sentLength (requestLength : UInt64) : ℕ :=
  max 1 (min requestLength.toNat blockSyncMaxRequestLength.toNat)

lemma processRequest_chain (hchain : ChainOf bss.cs g ts l) {req : BlockSyncRequest}
    (hstart : loadTipSet bss.cs req.start = .ok ts)
    (hbst : ∀ x ∈ ts :: l, ∃ bst, bsTipSet bss (parseBSOptions req.options) x = .ok bst ∧ P x bst) :
    List.Forall₂ P ((ts :: l).take (sentLength req.requestLength))
      (processRequest bss req).chain := by
  have hne : req.start ≠ [] := fun hnil => by
    rw [hnil, loadTipSet_nil] at hstart
    cases hstart
  generalize hreqlen : (if req.requestLength > blockSyncMaxRequestLength then
    blockSyncMaxRequestLength else req.requestLength) = reqlen
  obtain ⟨sent, hsent, hforall⟩ := collectLoop_spec hchain hbst hstart
    (Nat.le_add_right reqlen.toNat ([] : List BSTipSet).length)
  have hlength : sentLength req.requestLength = max 1 reqlen.toNat := by
    rw [sentLength, ← hreqlen]
    grind [min_eq_right, UInt64.lt_iff_toNat_lt, min_eq_left, UInt64.le_iff_toNat_le]
  have hres : (processRequest bss req).chain = sent := by
    grind [processRequest, collectChainSegment]
  rwa [hres, hlength]

/-- The response to a request that starts at a stored tipset has the tipsets from there downwards,
as many as were asked for. The client accepts their blocks and gets the tipsets, and of the messages
it gets each block with what is stored for it. -/
theorem processRequest_roundTrip {ms : MessageStore}
    (hsum : Function.Injective bss.cs.hashing.sum256) (hheaders : bss.cs.Addressed)
    (hmsgs : ms.Addressed bss.codec) (hms : bss.cs.messagesForBlock = ms.messagesForBlock)
    (hchain : ChainOf bss.cs g ts l) (hstored : ∀ x ∈ ts :: l, MessagesStored ms x)
    {req : BlockSyncRequest} (hstart : loadTipSet bss.cs req.start = .ok ts) :
    ((parseBSOptions req.options).includeBlocks = true →
      processBlocksResponse bss.cs.hashing (processRequest bss req) =
        .ok ((ts :: l).take (sentLength req.requestLength))) ∧
    ((parseBSOptions req.options).includeMessages = true →
      List.Forall₂ (GivesBack bss) ((ts :: l).take (sentLength req.requestLength))
        (processRequest bss req).chain) := by
  have hsent : List.Forall₂ (fun x bst =>
      ((parseBSOptions req.options).includeBlocks = true →
        newTipSet bss.cs.hashing bst.blocks = .ok x) ∧
      ((parseBSOptions req.options).includeMessages = true → GivesBack bss x bst))
      ((ts :: l).take (sentLength req.requestLength)) (processRequest bss req).chain := by
    refine processRequest_chain hchain hstart fun x hx => ?_
    obtain ⟨bst, hbst, hx', hgives⟩ := bsTipSet_spec hmsgs hms (hstored x hx)
      (parseBSOptions req.options)
    refine ⟨bst, hbst, fun hblocks => ?_, hgives⟩
    rw [hx' hblocks]
    exact (hchain.stored x hx).newTipSet_blocks_self hsum
  refine ⟨fun hblocks => ?_, fun hmessages => hsent.imp fun x bst h => h.2 hmessages⟩
  refine processBlocksResponse_eq_ok.mpr ⟨fun hnil => ?_,
    hsent.flip.imp fun bst x h => h.1 hblocks, ?_⟩
  · rw [hnil, forall₂_nil_right_iff, take_eq_nil_iff] at hsent
    have hpos : 1 ≤ sentLength req.requestLength := le_max_left _ _
    exact hsent.elim (fun h => by omega) (cons_ne_nil ts l)
  · refine (hchain.isChain.take _).imp fun x y hxy => ?_
    exact (namedBy_of_loadTipSet hheaders hxy).cidArrsEqual

end

def sampleWithNonce (nonce : UInt64) : Message :=
  ⟨0, .id 101, .id 100, nonce, some 0, some 1, 3000000, 0, []⟩

def sampleSent : SignedMessage := ⟨sampleWithNonce 3, ⟨.secp256k1, []⟩⟩

def sampleServed (miner : Address) (nonce : UInt64) : FullBlock where
  header :=
    { sampleHeader miner [] with
      messages := ⟨[sampleWithNonce 0, sampleWithNonce nonce].map sampleCodec.messageCid,
        [sampleSent.cid sampleCodec]⟩ }
  blsMessages := [sampleWithNonce 0, sampleWithNonce nonce]
  secpkMessages := [sampleSent]
  length_lt := by simp

def sampleServedTipSet : TipSet :=
  ⟨(sampleServed (.id 1001) 2).header, [(sampleServed (.id 1000) 1).header], by decide, by decide⟩

def sampleMessageStore : MessageStore :=
  ((((⟨fun _ => none, sampleGenesis.messages :: sampleServedTipSet.blocks.map (·.messages)⟩ :
    MessageStore).putMessage sampleCodec (sampleWithNonce 0).toStorageBlock).putMessage sampleCodec
    (sampleWithNonce 1).toStorageBlock).putMessage sampleCodec
    (sampleWithNonce 2).toStorageBlock).putMessage sampleCodec sampleSent.toStorageBlock

def sampleService : BlockSyncService where
  cs :=
    { sampleStore [sampleServed (.id 1000) 1, sampleServed (.id 1001) 2] with
      messagesForBlock := sampleMessageStore.messagesForBlock }
  codec := sampleCodec
  errorText _ := "error"

theorem sampleService_roundTrip : processBlocksResponse sampleHashing
        (processRequest sampleService ⟨sampleServedTipSet.cids sampleHashing, 5, 3⟩) =
      .ok [sampleServedTipSet, .single sampleGenesis] ∧
    List.Forall₂ (GivesBack sampleService) [sampleServedTipSet, .single sampleGenesis]
      (processRequest sampleService ⟨sampleServedTipSet.cids sampleHashing, 5, 3⟩).chain := by
  have hheaders : sampleService.cs.Addressed := sampleStore_addressed _
  have hmsgs : sampleMessageStore.Addressed sampleCodec := by
    have hempty : MessageStore.Addressed sampleCodec
        ⟨fun _ => none, sampleGenesis.messages :: sampleServedTipSet.blocks.map (·.messages)⟩ := by
      intro c blob h
      cases h
    exact (((hempty.putMessage (Message.isStorageBlock _)).putMessage
      (Message.isStorageBlock _)).putMessage (Message.isStorageBlock _)).putMessage
      (SignedMessage.isStorageBlock _)
  have hchain : ChainOf sampleService.cs (.single sampleGenesis) sampleServedTipSet
      [.single sampleGenesis] := by
    refine .link (.genesis ?_ ?_ ?_) ?_ ?_ ?_ <;> decide +kernel
  have hstored : ∀ x ∈ [sampleServedTipSet, .single sampleGenesis],
      MessagesStored sampleMessageStore x := by
    decide +kernel
  have hstart : loadTipSet sampleService.cs
      (⟨sampleServedTipSet.cids sampleHashing, 5, 3⟩ : BlockSyncRequest).start =
        .ok sampleServedTipSet := by
    decide +kernel
  obtain ⟨hblocks, hmessages⟩ := processRequest_roundTrip Function.injective_id hheaders hmsgs rfl
    hchain hstored hstart
  exact ⟨hblocks (by decide), hmessages (by decide)⟩

end Lotus
