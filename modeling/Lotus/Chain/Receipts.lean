import Lotus.Chain.TipsetMessages
import Lotus.Chain.Validate

/-!
# Receipts

`tipsetExecutedMessage` of `chain/stmgr/stmgr.go` and `GetParentReceipt` of `chain/store/store.go`.
-/

namespace Lotus

open StateTree Check List

def getParentReceipt (receipts : List MessageReceipt) (i : ℕ) : Except NodeErr MessageReceipt :=
  match receipts[i]? with
  | some r => .ok r
  | none => .error (.new "failed to find receipt %d")

/-- The loop of `tipsetExecutedMessage` over the messages with their indices, last one first. -/
def findReceipt (receipts : List MessageReceipt) (msg : Cid) (vmm : Message) :
    List (ChainMsg × ℕ) → Except NodeErr (Option MessageReceipt)
  | [] => .ok none
  | (m, i) :: ms =>
    if m.vmMessage.fromAddr = vmm.fromAddr then
      if m.vmMessage.nonce = vmm.nonce then
        if m.cid = msg then (getParentReceipt receipts i).map some
        else .error (.new "found message with equal nonce as the one we are looking for")
      else if m.vmMessage.nonce < vmm.nonce then .ok none
      else findReceipt receipts msg vmm ms
    else findReceipt receipts msg vmm ms

def tipsetExecutedMessage (sm : StateManager) (ts : TipSet) (msg : Cid) (vmm : Message) :
    Except NodeErr (Option MessageReceipt) :=
  if ts.height = 0 then .ok none
  else do
    let pts ← loadTipSet sm.cs ts.parents
    let cm ← messagesForTipset sm pts
    findReceipt ts.first.parentMessageReceipts msg vmm cm.zipIdx.reverse

lemma findReceipt_some {receipts : List MessageReceipt} {msg : Cid} {vmm : Message}
    {ms : List (ChainMsg × ℕ)} {rc : MessageReceipt}
    (h : findReceipt receipts msg vmm ms = .ok (some rc)) :
    ∃ m i, (m, i) ∈ ms ∧ m.cid = msg ∧ receipts[i]? = some rc := by
  induction ms with
  | nil => cases h
  | cons p ms ih =>
    obtain ⟨m, i⟩ := p
    have hlater (hms : findReceipt receipts msg vmm ms = .ok (some rc)) :
        ∃ m' i', (m', i') ∈ (m, i) :: ms ∧ m'.cid = msg ∧ receipts[i']? = some rc := by
      obtain ⟨m', i', hmem, hfound⟩ := ih hms
      exact ⟨m', i', .tail _ hmem, hfound⟩
    rw [findReceipt] at h
    split_ifs at h with hfrom hnonce hcid hless
    · refine ⟨m, i, .head _, hcid, ?_⟩
      unfold getParentReceipt at h
      rcases hget : receipts[i]? with - | r
      · rw [hget] at h
        cases h
      · rw [hget] at h
        cases h
        rfl
    · cases h
    · exact hlater h
    · exact hlater h

section Executed

variable (sm : StateManager) {r : ChainRand}

def execCid (cm : ChainMsg) : Cid := sm.codec.messageCid cm.vmMessage

variable {sm}

lemma applyBlockMessages_executed {cms : List ChainMsg} {s s' : BlockLoop} {vm vm' : VM}
    (h : applyBlockMessages sm r cms s vm = (.ok s', vm')) :
    s'.executed.map Prod.fst =
        s.executed.map Prod.fst ++ Select.firsts (execCid sm) s.processedMsgs cms ∧
      s'.processedMsgs =
        ((Select.firsts (execCid sm) s.processedMsgs cms).map (execCid sm)).reverse ++
        s.processedMsgs := by
  induction cms generalizing s vm with
  | nil =>
    cases h
    exact ⟨(append_nil _).symm, rfl⟩
  | cons cm cms ih =>
    rw [applyBlockMessages] at h
    rw [Select.firsts]
    by_cases hseen : sm.codec.messageCid cm.vmMessage ∈ s.processedMsgs
    · have hold : execCid sm cm ∈ s.processedMsgs := hseen
      rw [if_pos hseen] at h
      rw [if_pos hold]
      exact ih h
    · have hnew : execCid sm cm ∉ s.processedMsgs := hseen
      rw [if_neg hseen] at h
      obtain ⟨_, vm1, hget, hrun⟩ := Act.bind_eq_ok h
      cases hget
      obtain ⟨ret, vm2, -, hrest⟩ := Act.bind_eq_ok hrun
      obtain ⟨hexecuted, hprocessed⟩ := ih hrest
      rw [if_neg hnew]
      constructor
      · rw [hexecuted, map_append, append_assoc]
        rfl
      · rw [hprocessed, map_cons, reverse_cons, append_assoc]
        rfl

variable {bms : List BlockMessages}

lemma applyEachBlock_executed {s s' : BlockLoop} {vm vm' : VM}
    (h : applyEachBlock sm r bms s vm = (.ok s', vm')) :
    s'.executed.map Prod.fst = s.executed.map Prod.fst ++
        Select.firsts (execCid sm) s.processedMsgs (bms.flatMap (·.msgs)) := by
  induction bms generalizing s vm with
  | nil =>
    cases h
    exact (append_nil _).symm
  | cons b bms ih =>
    obtain ⟨s1, vm1, hblock, hrest⟩ := Act.bind_eq_ok h
    obtain ⟨_, vm2, -, hrest'⟩ := Act.bind_eq_ok hrest
    obtain ⟨hexecuted, hprocessed⟩ := applyBlockMessages_executed hblock
    grind [Select.firsts_append, append_assoc]

lemma applyBlocks_executed {parentEpoch epoch : Int64} {pstate : Hamt} {res : TipSetResult}
    (h : applyBlocks sm r parentEpoch pstate bms epoch = .ok res) :
    res.executed.map Prod.fst = Select.firsts (execCid sm) [] (bms.flatMap (·.msgs)) := by
  obtain ⟨_, vm1, -, h1⟩ := Act.bind_eq_ok (Prod.ext h rfl)
  obtain ⟨s, vm2, hblocks, h2⟩ := Act.bind_eq_ok h1
  obtain ⟨_, vm3, -, h3⟩ := Act.bind_eq_ok h2
  obtain ⟨_, vm4, -, h4⟩ := Act.bind_eq_ok h3
  obtain ⟨root, vm5, -, h5⟩ := Act.bind_eq_ok h4
  cases h5
  exact applyEachBlock_executed hblocks

lemma loadBlockMessages_msgs {fbs : List FullBlock}
    (hstored : ∀ b ∈ fbs, sm.cs.messagesForBlock b.header = .ok (b.blsMessages, b.secpkMessages))
    (h : (fbs.map (·.header)).mapM (loadBlockMessages sm) = .ok bms) :
    bms.flatMap (·.msgs) = fbs.flatMap (·.chainMsgs sm.codec) := by
  induction fbs generalizing bms with
  | nil =>
    cases h
    rfl
  | cons b fbs ih =>
    rw [map_cons, mapM_cons] at h
    obtain ⟨bm, hbm, h1⟩ := bind_eq_ok.mp h
    obtain ⟨bms', hbms, h2⟩ := bind_eq_ok.mp h1
    cases h2
    rw [flatMap_cons, flatMap_cons, ih (fun c hc => hstored c (.tail _ hc)) hbms]
    congr 1
    obtain ⟨⟨bls, secpk⟩, hload, hproof⟩ := bind_eq_ok.mp hbm
    rw [mapError_eq_ok, hstored b mem_cons_self] at hload
    cases hload
    rcases helection : b.header.electionProof with - | proof
    · grind
    · simp only [helection] at hproof
      cases hproof
      rfl

lemma computeTipSetState_executed {ts : TipSet} {fbs : List FullBlock} {res : TipSetResult}
    (hheaders : fbs.map (·.header) = ts.blocks)
    (hstored : ∀ b ∈ fbs, sm.cs.messagesForBlock b.header = .ok (b.blsMessages, b.secpkMessages))
    (h : computeTipSetState sm ts = .ok res) :
    res.executed.map Prod.fst =
      Select.firsts (execCid sm) [] (fbs.flatMap (·.chainMsgs sm.codec)) := by
  unfold computeTipSetState at h
  split_ifs at h with hminers
  obtain ⟨parentEpoch, -, h1⟩ := bind_eq_ok.mp h
  obtain ⟨bms, hbms, h2⟩ := bind_eq_ok.mp h1
  rw [← hheaders] at hbms
  rw [applyBlocks_executed h2, loadBlockMessages_msgs hstored hbms]

end Executed

/-! ## Alignment -/

/-- The `i`-th message is the one whose receipt is the `i`-th. -/
def Aligned (msgs : List ChainMsg) (res : TipSetResult) : Prop :=
  ∀ (i : ℕ) (cm : ChainMsg), msgs[i]? = some cm → (res.executed.map Prod.fst)[i]? = some cm

/-- Every receipt that is looked up in a tipset on top of `pts` is the one that executing the
message gave. -/
def LookupsSound (sm : StateManager) (pts : TipSet) (res : TipSetResult) : Prop :=
  ∀ ts msg vmm rc, loadTipSet sm.cs ts.parents = .ok pts →
    ts.first.parentMessageReceipts = res.receipts →
    tipsetExecutedMessage sm ts msg vmm = .ok (some rc) →
    ∃ cm ret, (cm, ret) ∈ res.executed ∧ cm.cid = msg ∧ ret.receipt = rc

variable {msgs : List ChainMsg}

lemma aligned_iff {res : TipSetResult} : Aligned msgs res ↔ msgs <+: res.executed.map Prod.fst := by
  rw [prefix_iff_getElem?]
  constructor
  · intro h i hi
    exact h i _ (getElem?_eq_getElem hi)
  · intro h i cm hcm
    obtain ⟨hi, rfl⟩ := List.getElem?_eq_some_iff.mp hcm
    exact h i hi

lemma Aligned.lookupsSound {sm : StateManager} {pts : TipSet} {res : TipSetResult}
    (hmsgs : messagesForTipset sm pts = .ok msgs) (h : Aligned msgs res) :
    LookupsSound sm pts res := by
  intro ts msg vmm rc hparents hreceipts hlookup
  unfold tipsetExecutedMessage at hlookup
  split_ifs at hlookup with hheight
  · cases hlookup
  obtain ⟨pts', hload, h1⟩ := bind_eq_ok.mp hlookup
  rw [hparents] at hload
  cases hload
  obtain ⟨cms, hcms, h2⟩ := bind_eq_ok.mp h1
  rw [hmsgs] at hcms
  cases hcms
  obtain ⟨m, i, hmem, hcid, hrc⟩ := findReceipt_some h2
  have hm : msgs[i]? = some m := mem_zipIdx_iff_getElem?.mp (mem_reverse.mp hmem)
  have hexecuted := h i m hm
  rw [hreceipts, TipSetResult.receipts, getElem?_map] at hrc
  grind

lemma Checked.gasFunds_nonneg {env : Env} {v : Address → Option Actor} {pl : PricelistV0}
    (h : Checked env v pl msgs) {cm : ChainMsg} (hcm : cm ∈ msgs) :
    0 ≤ gasFunds cm := by
  obtain ⟨pre, post, rfl⟩ := append_of_mem hcm
  obtain ⟨act, horder⟩ := h pre cm post rfl
  obtain ⟨-, -, ⟨price, hprice, hnonneg⟩, -, -⟩ := Message.validForBlockInclusion_ok horder.valid
  rw [gasFunds, Message.requiredFunds, hprice]
  exact mul_nonneg hnonneg (Word.u64_nonneg _)

lemma checked_of_accepted {syncer : Syncer} {pts : TipSet} {fbs : List FullBlock}
    (hheaders : fbs.map (·.header) = pts.blocks) (haccepted : ∀ b ∈ fbs, Accepted syncer b) :
    ∃ pl, ∀ b ∈ fbs, Checked syncer.sm.env (loadStateTree pts.parentState).view pl
      (b.chainMsgs syncer.sm.codec) := by
  have hblock {b : FullBlock} (hb : b ∈ fbs) : b.header ∈ pts.blocks := by grind
  -- the parent tipset is the same for all of them
  have hfirst : pts.first ∈ fbs.map (·.header) := by
    rw [hheaders]
    exact .head _
  obtain ⟨b0, hb0, hb₀header⟩ := mem_map.mp hfirst
  obtain ⟨baseTs, hbase, hstate, -⟩ := (haccepted b0 hb0).messages
  refine ⟨pricelistByEpoch baseTs.height, fun b hb => ?_⟩
  obtain ⟨baseTs', hbase', hstate', hcheck⟩ := (haccepted b hb).messages
  rw [pts.parents_of_mem (hblock hb), ← pts.parents_of_mem (hblock hb0), hbase] at hbase'
  cases hbase'
  have hroot : pts.parentState = b.header.parentStateRoot := by
    simp_all [TipSet.parentState]
  rw [hroot]
  exact checkBlockMessages_ok hcheck

def HasCut (sm : StateManager) (pts : TipSet) (fbs : List FullBlock) : Prop :=
  ∃ xs ys, Select.firsts (execCid sm) [] (fbs.flatMap (·.chainMsgs sm.codec)) = xs ++ ys ∧
    Select.Cut slot sender gasFunds
      (balanceIn sm.env.init (loadStateTree pts.parentState).view) xs ys

/-- In a tipset of accepted blocks, every message of `MessagesForTipset` stands at the index of its
own receipt, and every lookup gives the receipt of the message it is for, exactly if the executed
messages have a cut. -/
theorem receipts_aligned_iff (syncer : Syncer) (pts : TipSet) (fbs : List FullBlock)
    (hcids : ∀ a ∈ fbs.flatMap (·.chainMsgs syncer.sm.codec),
      ∀ b ∈ fbs.flatMap (·.chainMsgs syncer.sm.codec),
        execCid syncer.sm a = execCid syncer.sm b → a.vmMessage = b.vmMessage)
    (hheaders : fbs.map (·.header) = pts.blocks) (haccepted : ∀ b ∈ fbs, Accepted syncer b)
    (hstored : ∀ b ∈ fbs,
      syncer.sm.cs.messagesForBlock b.header = .ok (b.blsMessages, b.secpkMessages))
    (res : TipSetResult) (hres : computeTipSetState syncer.sm pts = .ok res) :
    ∃ msgs, messagesForTipset syncer.sm pts = .ok msgs ∧
      (Aligned msgs res ∧ LookupsSound syncer.sm pts res ↔ HasCut syncer.sm pts fbs) := by
  obtain ⟨pl, hchecked⟩ := checked_of_accepted hheaders haccepted
  have hmsgs := messagesForTipset_eq syncer.sm hheaders hstored hchecked
  have hexecuted := computeTipSetState_executed hheaders hstored hres
  set sent := fbs.flatMap (·.chainMsgs syncer.sm.codec)
  set budget := balanceIn syncer.sm.env.init (loadStateTree pts.parentState).view
  -- what is dropped as a repetition at execution has the sender and nonce of what is executed
  have hslot : ∀ a ∈ sent, ∀ b ∈ sent,
      execCid syncer.sm a = execCid syncer.sm b → slot a = slot b := by
    intro a ha b hb hab
    rw [slot, slot, hcids a ha b hb hab]
  have hselect : Select.select slot sender gasFunds [] budget sent =
      Select.select slot sender gasFunds [] budget (res.executed.map Prod.fst) := by
    rw [hexecuted]
    exact Select.select_firsts hslot (fun a _ hnil => absurd hnil not_mem_nil) budget
  have hfunds : ∀ cm ∈ res.executed.map Prod.fst, 0 ≤ gasFunds cm := by
    intro cm hcm
    rw [hexecuted] at hcm
    have hsent : cm ∈ sent := (Select.firsts_sublist [] sent).subset hcm
    obtain ⟨b, hb, hcmb⟩ := mem_flatMap.mp hsent
    exact (hchecked b hb).gasFunds_nonneg hcmb
  have hnodup : (res.executed.map Prod.fst).Nodup := by
    rw [hexecuted]
    exact Select.nodup_firsts _ _ _
  refine ⟨_, hmsgs, ?_⟩
  rw [HasCut, ← hexecuted, ← Select.select_prefix_iff hnodup hfunds, ← hselect, ← aligned_iff]
  exact ⟨fun h => h.1, fun h => ⟨h, h.lookupsSound hmsgs⟩⟩

/-! ### Overlapping and conflicting blocks -/

def sampleTransfer (source target : Address) (value : ℤ) : Message :=
  ⟨0, target, source, 0, some value, some 2, 3000000, 0, []⟩

def sampleFirst : FullBlock :=
  ⟨sampleHeader (.id 1001) [sampleTransfer (.id 100) (.id 101) 1],
    [sampleTransfer (.id 100) (.id 101) 1], [], by decide⟩

def sampleSecond (value : ℤ) : FullBlock :=
  ⟨sampleHeader (.id 1000)
      [sampleTransfer (.id 100) (.id 101) value, sampleTransfer (.id 101) (.id 100) 3],
    [sampleTransfer (.id 100) (.id 101) value, sampleTransfer (.id 101) (.id 100) 3], [], by
      rw [length_cons, length_singleton, length_nil]
      omega⟩

def samplePair (value : ℤ) : TipSet where
  first := sampleFirst.header
  rest := [(sampleSecond value).header]
  height_eq b hb := by
    rw [mem_singleton] at hb
    rw [hb]
    rfl
  parents_eq b hb := by
    rw [mem_singleton] at hb
    rw [hb]
    rfl

def samplePairSyncer (value : ℤ) : Syncer := sampleSyncer [sampleFirst, sampleSecond value]

/-- The two blocks share the transfer of 1, so it is executed once and taken once. -/
theorem overlapping_blocks_aligned :
    ∃ res msgs, computeTipSetState (samplePairSyncer 1).sm (samplePair 1) = .ok res ∧
      messagesForTipset (samplePairSyncer 1).sm (samplePair 1) = .ok msgs ∧
      msgs = [(sampleTransfer (.id 100) (.id 101) 1).toChainMsg sampleCodec,
        (sampleTransfer (.id 101) (.id 100) 3).toChainMsg sampleCodec] ∧
      Aligned msgs res ∧ LookupsSound (samplePairSyncer 1).sm (samplePair 1) res := by
  have haccepted : ∀ b ∈ [sampleFirst, sampleSecond 1], Accepted (samplePairSyncer 1) b := by
    intro b hb
    rw [mem_pair] at hb
    rcases hb with rfl | rfl
    · exact ⟨freshState, not_mem_nil, by decide +kernel⟩
    · exact ⟨freshState, not_mem_nil, by decide +kernel⟩
  obtain ⟨res, hres⟩ : ∃ res, computeTipSetState (samplePairSyncer 1).sm (samplePair 1) =
      .ok res := by decide +kernel
  obtain ⟨msgs, hmsgs, hiff⟩ := receipts_aligned_iff (samplePairSyncer 1) (samplePair 1)
    [sampleFirst, sampleSecond 1] (by decide +kernel) rfl haccepted (by decide +kernel) res hres
  have htaken : messagesForTipset (samplePairSyncer 1).sm (samplePair 1) =
      .ok [(sampleTransfer (.id 100) (.id 101) 1).toChainMsg sampleCodec,
        (sampleTransfer (.id 101) (.id 100) 3).toChainMsg sampleCodec] := by decide +kernel
  have hcut : HasCut (samplePairSyncer 1).sm (samplePair 1) [sampleFirst, sampleSecond 1] := by
    refine ⟨[(sampleTransfer (.id 100) (.id 101) 1).toChainMsg sampleCodec,
      (sampleTransfer (.id 101) (.id 100) 3).toChainMsg sampleCodec], [], by decide +kernel,
      by decide +kernel, by decide +kernel, fun pre a post hnil => ?_⟩
    exact absurd hnil.symm (append_ne_nil_of_right_ne_nil _ (cons_ne_nil _ _))
  rw [htaken] at hmsgs
  cases hmsgs
  exact ⟨res, _, hres, htaken, rfl, hiff.mpr hcut⟩

def sampleChild (receipts : List MessageReceipt) : TipSet where
  first := { sampleHeader (.id 1000) [] with
    height := 2
    parents := (samplePair 2).cids sampleHashing
    parentMessageReceipts := receipts }
  rest := []
  height_eq _ hb := absurd hb not_mem_nil
  parents_eq _ hb := absurd hb not_mem_nil

/-- With another transfer of the same nonce in the second block, each block is accepted, but the
transfer back of 3, which is executed with exit code 0, is looked up with the receipt of the
transfer that failed for its nonce. -/
theorem conflicting_blocks_misaligned :
    (∀ b ∈ [sampleFirst, sampleSecond 2], Accepted (samplePairSyncer 2) b) ∧
    ∃ res msgs, computeTipSetState (samplePairSyncer 2).sm (samplePair 2) = .ok res ∧
      messagesForTipset (samplePairSyncer 2).sm (samplePair 2) = .ok msgs ∧
      ¬Aligned msgs res ∧ ¬LookupsSound (samplePairSyncer 2).sm (samplePair 2) res := by
  refine ⟨fun b hb => ?_, ?_⟩
  · rw [mem_pair] at hb
    rcases hb with rfl | rfl
    · exact ⟨freshState, not_mem_nil, by decide +kernel⟩
    · exact ⟨freshState, not_mem_nil, by decide +kernel⟩
  obtain ⟨res, hres, hexecuted⟩ : ∃ res,
      computeTipSetState (samplePairSyncer 2).sm (samplePair 2) = .ok res ∧
      (res.executed.map fun p => (p.1, p.2.receipt)) =
        [((sampleTransfer (.id 100) (.id 101) 1).toChainMsg sampleCodec, ⟨0, [], 814991⟩),
          ((sampleTransfer (.id 100) (.id 101) 2).toChainMsg sampleCodec, ⟨2, [], 0⟩),
          ((sampleTransfer (.id 101) (.id 100) 3).toChainMsg sampleCodec, ⟨0, [], 814991⟩)] := by
    decide +kernel
  have htaken : messagesForTipset (samplePairSyncer 2).sm (samplePair 2) =
      .ok [(sampleTransfer (.id 100) (.id 101) 1).toChainMsg sampleCodec,
        (sampleTransfer (.id 101) (.id 100) 3).toChainMsg sampleCodec] := by decide +kernel
  have hlookup : tipsetExecutedMessage (samplePairSyncer 2).sm
      (sampleChild [⟨0, [], 814991⟩, ⟨2, [], 0⟩, ⟨0, [], 814991⟩])
      (sampleCodec.messageCid (sampleTransfer (.id 101) (.id 100) 3))
      (sampleTransfer (.id 101) (.id 100) 3) = .ok (some ⟨2, [], 0⟩) := by decide +kernel
  refine ⟨res, _, hres, htaken, fun haligned => ?_, fun hsound => ?_⟩
  · have hsecond := haligned 1 _ rfl
    have hmap := congrArg (List.map Prod.fst) hexecuted
    rw [map_map] at hmap
    change res.executed.map Prod.fst = _ at hmap
    rw [hmap] at hsecond
    revert hsecond
    decide
  · have hreceipts : res.receipts = [⟨0, [], 814991⟩, ⟨2, [], 0⟩, ⟨0, [], 814991⟩] := by
      have hmap := congrArg (List.map Prod.snd) hexecuted
      rwa [map_map] at hmap
    have hload : loadTipSet (samplePairSyncer 2).sm.cs
        (sampleChild [⟨0, [], 814991⟩, ⟨2, [], 0⟩, ⟨0, [], 814991⟩]).parents =
          .ok (samplePair 2) := by
      decide +kernel
    obtain ⟨cm, ret, hmem, hcid, hreceipt⟩ := hsound _ _ _ _ hload hreceipts.symm hlookup
    have hentry : (cm, ret.receipt) ∈ res.executed.map fun p => (p.1, p.2.receipt) :=
      mem_map_of_mem hmem
    rw [hexecuted, hreceipt] at hentry
    simp only [mem_cons, Prod.mk.injEq, not_mem_nil, or_false] at hentry
    rcases hentry with ⟨-, hfirst⟩ | ⟨rfl, -⟩ | ⟨-, hthird⟩
    · revert hfirst
      decide
    · revert hcid
      decide
    · revert hthird
      decide

end Lotus
