import Lotus.Chain.Lookback
import Lotus.Chain.Mining

/-!
# The keys of miners and validators

`ValidateBlock` verifies the ticket, the election proof and the signature of a block against the key
of the worker in the lookback state.
-/

namespace Lotus

open StateTree Check

variable {syncer : Syncer} {m : Miner}

/-- `ValidateBlock`, in the state `s`, verifies the ticket, the election proof and the signature of
the block against `waddr`, the worker's key in the state `lbst` of the lookback tipset. -/
structure ChecksWith (syncer : Syncer) (s : SyncState) (h : BlockHeader) (baseTs : TipSet)
    (lbst : Hamt) (prevBeacon : BeaconEntry) (waddr : Address) : Prop where
  base : loadTipSet syncer.sm.cs h.parents = .ok baseTs
  lookback : ∃ lbts lbrec,
    (getLookbackTipSetForRound syncer.sm.cs baseTs h.height s.skipCache).1 = .ok lbts ∧
      tipSetState syncer.sm lbts = .ok (lbst, lbrec)
  beacon : getLatestBeaconEntry syncer.sm.cs baseTs = .ok prevBeacon
  worker : getMinerWorkerRaw syncer lbst h.miner = .ok waddr

/-- What the miner, account and init actors keep to over the states `sts`: a worker is an ID
address, the key of an account is a BLS or secp256k1 address, it never changes, and no two IDs have
the same key. -/
structure AccountKeys (syncer : Syncer) (sts : List Hamt) : Prop where
  worker_isID : ∀ head w, syncer.states.minerWorker head = some w → w.IsID
  key_protocol : ∀ head k, syncer.sm.env.accountState head = some k →
    k.protocol = .bls ∨ k.protocol = .secp256k1
  key_eq_iff : ∀ st ∈ sts, ∀ st' ∈ sts, ∀ w w' k k', w.IsID → w'.IsID →
    resolveToKeyAddr syncer st w = .ok k → resolveToKeyAddr syncer st' w' = .ok k' →
    (k = k' ↔ w = w')

lemma infoWorker_isID {sts : List Hamt} (hkeys : AccountKeys syncer sts) {st : Hamt}
    {maddr w : Address} (h : infoWorker syncer st maddr = .ok w) : w.IsID := by
  unfold infoWorker loadActorStateRaw at h
  split at h
  · cases h
  · split at h
    · cases h
    · rename_i hdecode
      cases h
      exact hkeys.worker_isID _ _ hdecode

lemma resolveToKeyAddr_protocol {sts : List Hamt} (hkeys : AccountKeys syncer sts) {st : Hamt}
    {w k : Address} (h : resolveToKeyAddr syncer st w = .ok k) :
    k.protocol = .bls ∨ k.protocol = .secp256k1 := by
  unfold resolveToKeyAddr at h
  split_ifs at h with hkey
  · cases h
    exact hkey
  · split at h
    · cases h
    · split_ifs at h
      split at h
      · cases h
      · rename_i hstate
        cases h
        exact hkeys.key_protocol _ _ hstate

lemma resolveToKeyAddressAt_of_isID {ts : TipSet} {st : Hamt} {recpts : List MessageReceipt}
    {w k : Address} (hid : w.IsID) (hstate : tipSetState syncer.sm ts = .ok (st, recpts))
    (h : resolveToKeyAddressAt syncer ts w = .ok k) : resolveToKeyAddr syncer st w = .ok k := by
  have hprotocol : w.protocol = .id := hid
  rw [resolveToKeyAddressAt, hprotocol, hstate] at h
  exact h

section Agreement

variable {head : TipSet} {base : MiningBase} {b : FullBlock} {cache cache' : SkipCache}
  {s : SyncState} {baseTs : TipSet} {lbst baseSt headSt : Hamt}
  {baseRec headRec : List MessageReceipt} {prevBeacon : BeaconEntry} {waddr : Address}

lemma mineOne_agrees
    (hstored : loadTipSet syncer.sm.cs (base.tipSet.cids syncer.sm.cs.hashing) = .ok base.tipSet)
    (hcache : cache.Sound syncer.sm.cs) (hs : s.skipCache.Sound syncer.sm.cs)
    (hbaseSt : tipSetState syncer.sm base.tipSet = .ok (baseSt, baseRec))
    (hheadSt : tipSetState syncer.sm head = .ok (headSt, headRec))
    (hmined : mineOne syncer m head base cache = (.ok (some b), cache'))
    (hchecks : ChecksWith syncer s b.header baseTs lbst prevBeacon waddr)
    (hkeys : AccountKeys syncer [lbst, baseSt, headSt]) :
    ∃ k, FindsKeys syncer m head baseTs baseSt lbst k ∧
      MadeWith syncer m baseTs prevBeacon b.header k ∧
      (k.ticket = waddr ↔
        infoWorker syncer head.parentState m.address = infoWorker syncer lbst m.address) ∧
      k.election = waddr ∧
      (k.block = waddr ↔
        infoWorker syncer baseSt m.address = infoWorker syncer lbst m.address) := by
  obtain ⟨prev, lbts, lbst', lbrec, k, hprev, hlookback, hlbst, hstate, hminer, hparents, hfinds,
    hmade⟩ := mineOne_keys hstored hmined
  obtain ⟨hbase, ⟨lbts', lbrec', hlookback', hlbst'⟩, hbeacon, hworker⟩ := hchecks
  -- the validator comes to the same tipsets, states and beacon entry
  rw [hparents, hstored] at hbase
  cases hbase
  have hblind := (getLookbackTipSetForRound_cacheBlind base.tipSet b.header.height _ _ hcache hs).1
  rw [hlookback, hlookback'] at hblind
  cases hblind
  rw [hlbst'] at hlbst
  cases hlbst
  rw [hbaseSt] at hstate
  have hroot : baseSt = b.header.parentStateRoot := congrArg Prod.fst (Except.ok.inj hstate)
  rw [← hroot] at hfinds
  rw [prevBeaconEntry, hbeacon] at hprev
  cases hprev
  rw [hminer] at hworker
  obtain ⟨w, hload, hwaddr⟩ := bind_eq_ok.mp hworker
  have hw : infoWorker syncer lbst m.address = .ok w := mapError_eq_ok.mp hload
  have hid := infoWorker_isID hkeys hw
  refine ⟨k, hfinds, hmade, ?_, ?_, ?_⟩
  · obtain ⟨wt, hwt, hkt⟩ := hfinds.ticket
    have hidt := infoWorker_isID hkeys hwt
    rw [hwt, hw, Except.ok.injEq]
    exact hkeys.key_eq_iff headSt (by simp) lbst (by simp) wt w _ _ hidt hid
      (resolveToKeyAddressAt_of_isID hidt hheadSt hkt) hwaddr
  · obtain ⟨we, hwe, hke⟩ := hfinds.election
    rw [hw] at hwe
    cases hwe
    exact (hkeys.key_eq_iff _ (by simp) lbst (by simp) w w _ _ hid hid
      (resolveToKeyAddressAt_of_isID hid hbaseSt hke) hwaddr).mpr rfl
  · obtain ⟨worker, hraw, hself⟩ := hfinds.block
    obtain ⟨wb, hload', hkb⟩ := bind_eq_ok.mp hraw
    have hwb : infoWorker syncer baseSt m.address = .ok wb := mapError_eq_ok.mp hload'
    -- a key address resolves to itself
    rw [resolveToKeyAddr, if_pos (resolveToKeyAddr_protocol hkeys hkb)] at hself
    rw [hwb, hw, Except.ok.injEq, ← Except.ok.inj hself]
    exact hkeys.key_eq_iff _ (by simp) lbst (by simp) wb w _ _ (infoWorker_isID hkeys hwb) hid hkb
      hwaddr

/-- The keys of an honest miner agree with the key of the validator exactly if its `MinerInfo`
names the same worker in three states: the parent state of the head, the state of the parent tipset,
and the lookback state. The election proof is always made with the key it is verified with. -/
theorem mined_keys_agree_iff
    (hstored : loadTipSet syncer.sm.cs (base.tipSet.cids syncer.sm.cs.hashing) = .ok base.tipSet)
    (hcache : cache.Sound syncer.sm.cs) (hs : s.skipCache.Sound syncer.sm.cs)
    (hbaseSt : tipSetState syncer.sm base.tipSet = .ok (baseSt, baseRec))
    (hheadSt : tipSetState syncer.sm head = .ok (headSt, headRec))
    (hmined : mineOne syncer m head base cache = (.ok (some b), cache'))
    (hchecks : ChecksWith syncer s b.header baseTs lbst prevBeacon waddr)
    (hkeys : AccountKeys syncer [lbst, baseSt, headSt]) :
    ∃ k, FindsKeys syncer m head baseTs baseSt lbst k ∧
      MadeWith syncer m baseTs prevBeacon b.header k ∧ k.election = waddr ∧
      (k.ticket = waddr ∧ k.election = waddr ∧ k.block = waddr ↔
        infoWorker syncer head.parentState m.address = infoWorker syncer lbst m.address ∧
        infoWorker syncer baseSt m.address = infoWorker syncer lbst m.address) := by
  obtain ⟨k, hfinds, hmade, hticket, helection, hblock⟩ :=
    mineOne_agrees hstored hcache hs hbaseSt hheadSt hmined hchecks hkeys
  refine ⟨k, hfinds, hmade, helection, ?_⟩
  rw [hticket, hblock]
  exact ⟨fun hall => ⟨hall.1, hall.2.2⟩, fun hboth => ⟨hboth.1, helection, hboth.2⟩⟩

end Agreement

/-! ### A worker that changes

Account 100 has the key `.bls [1]` and is the worker of miner 1000. A message to the miner makes
account 101, which has the key `.bls [2]`, the worker. A signature is the key it is made with. -/

def sampleKeyedState : Hamt := sampleState.insert (.id 101) ⟨⟨[1]⟩, ⟨[101]⟩, 0, 10000000⟩

def sampleKeyedGenesis : BlockHeader := { sampleGenesis with parentStateRoot := sampleKeyedState }

def sampleKeyedStore (blk : FullBlock) : ChainStore :=
  { sampleStore [blk] with
    getBlock := fun c =>
      match [sampleKeyedGenesis, blk.header].find? (sampleHashing.headerCid · = c) with
      | some h => .ok h
      | none => .error (.new "block not found") }

def sampleKeyedSyncer (blk : FullBlock) : Syncer where
  sm :=
    { sampleStateManager [blk] with
      cs := sampleKeyedStore blk
      env := { sampleChainEnv with
        accountState := fun c => some (if c = ⟨[101]⟩ then .bls [2] else .bls [1]) }
      behaviour := fun _ msg _ =>
        ⟨.abort .other, .validateImmediateCallerAcceptAny
          (if msg.toAddr = .id 1000 then
            .transaction (some .found) (.ret (.block ⟨[9]⟩ 1)) (.ret (.bytes []))
          else .ret (.bytes []))⟩ }
  crypto := ⟨fun _ _ _ => true, fun _ _ _ => true⟩
  proofs :=
    { sampleProofs with
      verifyVRF := fun worker _ evrf => evrf = worker.payload
      verifyBlockSig := fun sig addr _ => sig.data = addr.payload
      sectorsForWinningPoSt := fun _ _ _ => .ok [[1]] }
  beacon := sampleDrand.toRandomBeacon
  states := ⟨fun _ => some ⟨fun _ => some 1, 2, fun _ => .ok true⟩,
    fun c => some (if c = ⟨[9]⟩ then .id 101 else .id 100)⟩
  now := 2000

def sampleMiner : Miner where
  address := .id 1000
  wallet := ⟨fun addr _ => .ok ⟨.bls, addr.payload⟩, fun _ => none, []⟩
  walletSign addr _ := .ok ⟨.bls, addr.payload⟩
  beaconEntry round := .ok ⟨round, []⟩
  computeProof _ _ := .ok [[]]
  selectMessages _ := .ok []

def sampleIdleBlock : FullBlock :=
  ⟨{ sampleHeader (.id 1001) [] with parentStateRoot := sampleKeyedState }, [], [],
    FullBlock.no_messages_lt⟩

def sampleChange : Message := ⟨0, .id 1000, .id 100, 0, some 0, some 2, 3000000, 2, []⟩

def sampleChangeBlock : FullBlock :=
  ⟨{ sampleHeader (.id 1001) [sampleChange] with parentStateRoot := sampleKeyedState },
    [sampleChange], [], by decide⟩

def sampleMine (blk : FullBlock) : Act SkipCache NodeErr (Option FullBlock) :=
  mineOne (sampleKeyedSyncer blk) sampleMiner (.single blk.header) ⟨.single blk.header, 0⟩

def SampleAccounts (st : Hamt) : Prop :=
  ∀ w ∈ st.keys, (st.lookup w).all (fun act => act.code = ⟨[1]⟩ →
    (w = .id 100 ∧ act.head ≠ ⟨[101]⟩) ∨ (w = .id 101 ∧ act.head = ⟨[101]⟩)) = true
deriving Decidable

lemma resolveToKeyAddr_of_isID {st : Hamt} {w k : Address} (hid : w.IsID)
    (h : resolveToKeyAddr syncer st w = .ok k) :
    ∃ act, st.lookup w = some act ∧ act.code = syncer.sm.env.accountActorCodeID ∧
      syncer.sm.env.accountState act.head = some k := by
  have hprotocol : w.protocol = .id := hid
  obtain ⟨t, -, hget⟩ := getActor_of_resolves (Resolves.of_isID syncer.sm.env.init hid
    (loadStateTree st))
  have hview : (loadStateTree st).view w = st.lookup w :=
    congrFun (Layers.view_push (loadStateTree st).base []) w
  rw [resolveToKeyAddr, hprotocol, if_neg (by decide), hget, lookupAnswer, hview] at h
  rcases hact : st.lookup w with - | act
  · rw [hact] at h
    cases h
  · grind

lemma sampleAccounts_keys {blk : FullBlock} {sts : List Hamt}
    (h : ∀ st ∈ sts, SampleAccounts st) : AccountKeys (sampleKeyedSyncer blk) sts := by
  have hkey : ∀ st ∈ sts, ∀ w k, w.IsID → resolveToKeyAddr (sampleKeyedSyncer blk) st w = .ok k →
      (w = .id 100 ∧ k = .bls [1]) ∨ (w = .id 101 ∧ k = .bls [2]) := by
    intro st hst w k hid hk
    obtain ⟨act, hact, hcode, hstate⟩ := resolveToKeyAddr_of_isID hid hk
    have hmem : w ∈ st.keys := Finmap.mem_keys.mpr (Finmap.mem_of_lookup_eq_some hact)
    have haccount := h st hst w hmem
    rw [hact, Option.all_some, decide_eq_true_eq] at haccount
    have hstate : some (if act.head = ⟨[101]⟩ then Address.bls [2] else .bls [1]) = some k := hstate
    rcases haccount hcode with ⟨rfl, hhead⟩ | ⟨rfl, hhead⟩
    · grind
    · grind
  refine ⟨?_, ?_, ?_⟩
  · intro head w hw
    have hw : some (if head = ⟨[9]⟩ then Address.id 101 else .id 100) = some w := hw
    rw [← Option.some.inj hw]
    split_ifs <;> rfl
  · intro head k hk
    have hk : some (if head = ⟨[101]⟩ then Address.bls [2] else .bls [1]) = some k := hk
    rw [← Option.some.inj hk]
    left
    split_ifs <;> rfl
  · grind

lemma sampleMine_checks {blk b : FullBlock} (hparents : b.header.parents =
      [sampleHashing.headerCid blk.header]) (hheight : b.header.height = 2)
    (hminer : b.header.miner = .id 1000)
    (hload : loadTipSet (sampleKeyedSyncer blk).sm.cs [sampleHashing.headerCid blk.header] =
      .ok (.single blk.header))
    (hlookback : (getLookbackTipSetForRound (sampleKeyedSyncer blk).sm.cs (.single blk.header) 2
      fun _ => none).1 = .ok (.single sampleKeyedGenesis))
    (hbeacon : getLatestBeaconEntry (sampleKeyedSyncer blk).sm.cs (.single blk.header) =
      .ok ⟨33, []⟩)
    (hworker : getMinerWorkerRaw (sampleKeyedSyncer blk) sampleKeyedState (.id 1000) =
      .ok (.bls [1])) :
    ChecksWith (sampleKeyedSyncer blk) freshState b.header (.single blk.header) sampleKeyedState
      ⟨33, []⟩ (.bls [1]) where
  base := by rw [hparents, hload]
  lookback := ⟨_, _, by rw [hheight]; exact hlookback, rfl⟩
  beacon := hbeacon
  worker := by rw [hminer, hworker]

/-- The worker does not change, and the three items are made with its key. -/
theorem sampleIdle_keys_agree :
    ∃ b cache' k, sampleMine sampleIdleBlock (fun _ => none) = (.ok (some b), cache') ∧
      MadeWith (sampleKeyedSyncer sampleIdleBlock) sampleMiner (.single sampleIdleBlock.header)
        ⟨33, []⟩ b.header k ∧
      k.ticket = .bls [1] ∧ k.election = .bls [1] ∧ k.block = .bls [1] := by
  set syncer := sampleKeyedSyncer sampleIdleBlock with hsyncer
  set base := TipSet.single sampleIdleBlock.header with hbase
  have hrun : (sampleMine sampleIdleBlock fun _ => none).1.map (fun b => b.map fun b =>
      (b.header.parents, b.header.height, b.header.miner)) =
        .ok (some ([sampleHashing.headerCid sampleIdleBlock.header], 2, .id 1000)) := by
    decide +kernel
  have hstate : (tipSetState syncer.sm base).map (fun p => (decide (SampleAccounts p.1),
      infoWorker syncer p.1 (.id 1000))) = .ok (true, .ok (.id 100)) := by decide +kernel
  rcases hmine : sampleMine sampleIdleBlock fun _ => none with ⟨e | b, cache'⟩
  · rw [hmine] at hrun
    cases hrun
  rcases hbaseSt : tipSetState syncer.sm base with e | ⟨baseSt, baseRec⟩
  · rw [hbaseSt] at hstate
    cases hstate
  rw [hmine] at hrun
  rw [hbaseSt] at hstate
  cases b with
  | none => cases hrun
  | some b =>
    simp only [Except.map, Option.map_some, Except.ok.injEq, Option.some.injEq, Prod.mk.injEq,
      decide_eq_true_eq] at hrun hstate
    obtain ⟨hparents, hheight, hminer⟩ := hrun
    obtain ⟨haccounts, hworker⟩ := hstate
    have hchecks := sampleMine_checks hparents hheight hminer
      (by decide +kernel) (by decide +kernel) (by decide +kernel) (by decide +kernel)
    have hkeys : AccountKeys syncer [sampleKeyedState, baseSt, baseSt] := by
      refine sampleAccounts_keys fun st hst => ?_
      simp only [List.mem_cons, List.not_mem_nil, or_false] at hst
      rcases hst with rfl | rfl | rfl
      · decide +kernel
      · exact haccounts
      · exact haccounts
    obtain ⟨k, -, hmade, -, hiff⟩ := mined_keys_agree_iff (s := freshState) (by decide +kernel)
      sound_empty sound_empty hbaseSt hbaseSt hmine hchecks hkeys
    have hgenesis : infoWorker syncer sampleKeyedState (.id 1000) = .ok (.id 100) := by
      decide +kernel
    exact ⟨b, cache', k, rfl, hmade, hiff.mpr ⟨rfl, hworker.trans hgenesis.symm⟩⟩

theorem sampleChange_keys_differ :
    ∃ b cache' k, sampleMine sampleChangeBlock (fun _ => none) = (.ok (some b), cache') ∧
      MadeWith (sampleKeyedSyncer sampleChangeBlock) sampleMiner
        (.single sampleChangeBlock.header) ⟨33, []⟩ b.header k ∧
      ChecksWith (sampleKeyedSyncer sampleChangeBlock) freshState b.header
        (.single sampleChangeBlock.header) sampleKeyedState ⟨33, []⟩ (.bls [1]) ∧
      k.block = .bls [2] ∧
      (validateBlock (sampleKeyedSyncer sampleChangeBlock) b freshState).1 ≠ .ok () := by
  set syncer := sampleKeyedSyncer sampleChangeBlock with hsyncer
  have hrun : (sampleMine sampleChangeBlock fun _ => none).1.map (fun b => b.map fun b =>
      (b.header.parents, b.header.height, b.header.miner)) =
        .ok (some ([sampleHashing.headerCid sampleChangeBlock.header], 2, .id 1000)) := by
    decide +kernel
  have hkeyed : (sampleMine sampleChangeBlock fun _ => none).1.map (fun b => b.map fun b =>
      (getMinerWorkerRaw syncer b.header.parentStateRoot (.id 1000) >>=
          resolveToKeyAddr syncer b.header.parentStateRoot,
        decide ((validateBlock syncer b freshState).1 = .ok ()))) =
      .ok (some (.ok (.bls [2]), false)) := by
    decide +kernel
  rcases hmine : sampleMine sampleChangeBlock fun _ => none with ⟨e | b, cache'⟩
  · rw [hmine] at hrun
    cases hrun
  rw [hmine] at hrun hkeyed
  cases b with
  | none => cases hrun
  | some b =>
    simp only [Except.map, Option.map_some, Except.ok.injEq, Option.some.injEq, Prod.mk.injEq,
      decide_eq_false_iff_not] at hrun hkeyed
    obtain ⟨hparents, hheight, hminer⟩ := hrun
    obtain ⟨hkey, hinvalid⟩ := hkeyed
    have hchecks := sampleMine_checks hparents hheight hminer
      (by decide +kernel) (by decide +kernel) (by decide +kernel) (by decide +kernel)
    obtain ⟨prev, lbts, lbst, lbrec, k, hprev, -, -, -, -, -, hfinds, hmade⟩ :=
      mineOne_keys (by decide +kernel) hmine
    have hbeacon : prevBeaconEntry syncer (.single sampleChangeBlock.header) = .ok ⟨33, []⟩ := by
      decide +kernel
    cases hprev.symm.trans hbeacon
    obtain ⟨worker, hworker, hblock⟩ := hfinds.block
    have hpair := bind_eq_ok.mpr ⟨worker, hworker, hblock⟩
    exact ⟨b, cache', k, rfl, hmade, hchecks, Except.ok.inj (hpair.symm.trans hkey), hinvalid⟩

end Lotus
