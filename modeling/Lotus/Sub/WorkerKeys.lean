import Lotus.Chain.MinerKeys
import Lotus.Sub.Incoming

/-!
# The worker keys of the block validator

Any sequence of head changes and blocks from gossip, on a node that starts with an empty key cache.
-/

namespace Lotus

open StateTree Check Act GossipState BlockValidator List Function

/-! ## Runs -/

inductive GossipOp where
  | headChange (ts : TipSet)
  | incoming (nowNano : UInt64) (pid : PeerID) (msg : Option BlockMsg)
  | evict (keepPeer : PeerID → Bool) (keepBlock : Cid → Bool)

def BlockValidator.evict (keepPeer : PeerID → Bool) (keepBlock : Cid → Bool)
    (bv : BlockValidator) : BlockValidator :=
  { bv with
    peers := fun p => if keepPeer p then bv.peers p else none
    recvBlocks := fun c => if keepBlock c then bv.recvBlocks c else none }

variable (syncer : Syncer)

def GossipOp.run : GossipOp → GossipState → GossipState
  | headChange ts, s => { s with head := ts }
  | incoming nowNano pid msg, s => (validate syncer nowNano pid msg s).2
  | evict keepPeer keepBlock, s => { s with bv := s.bv.evict keepPeer keepBlock }

def gossipRun (ops : List GossipOp) (s : GossipState) : GossipState :=
  ops.foldl (fun s op => op.run syncer s) s

def GossipReaches (ops : List GossipOp) (s0 s : GossipState) : Prop :=
  ∃ pre post, ops = pre ++ post ∧ s = gossipRun syncer pre s0

def KeysFresh (s : GossipState) : Prop :=
  ∀ maddr key, s.bv.keycache maddr = some key → freshWorkerKey syncer s.head maddr = .ok key

def KeysKept (ops : List GossipOp) (s : GossipState) : Prop :=
  ∀ pre ts post, ops = pre ++ .headChange ts :: post →
    ∀ maddr, (gossipRun syncer pre s).bv.keycache maddr ≠ none →
      freshWorkerKey syncer ts maddr = freshWorkerKey syncer (gossipRun syncer pre s).head maddr

variable {syncer}

/-! ## Blocks -/

structure Caches (syncer : Syncer) (maddr : Address) (s s' : GossipState) : Prop where
  head : s'.head = s.head
  keycache : s'.bv.keycache = s.bv.keycache ∨
    ∃ key, freshWorkerKey syncer s.head maddr = .ok key ∧
      s'.bv.keycache = update s.bv.keycache maddr (some key)

variable {maddr : Address}

instance : Std.Refl (Caches syncer maddr) := ⟨fun _ => ⟨rfl, .inl rfl⟩⟩

instance : IsTrans GossipState (Caches syncer maddr) where
  trans s s1 s2 h h' := by
    refine ⟨h'.head.trans h.head, ?_⟩
    rcases h'.keycache with hsame | ⟨key, hfresh, hkey⟩
    · rw [hsame]
      exact h.keycache
    · refine .inr ⟨key, h.head ▸ hfresh, ?_⟩
      rcases h.keycache with hsame | ⟨key', -, hkey'⟩
      · rw [hkey, hsame]
      · rw [hkey, hkey', update_idem]

lemma Caches.of_eq {s s' : GossipState} (hhead : s'.head = s.head)
    (hkeys : s'.bv.keycache = s.bv.keycache) : Caches syncer maddr s s' :=
  ⟨hhead, .inl hkeys⟩

lemma getWorkerKey_caches : Keeps (Caches syncer maddr) (getWorkerKey syncer maddr) := by
  intro s
  rw [getWorkerKey, bind_of_ok (get_apply s)]
  rcases s.bv.keycache maddr with - | key
  · rcases hfresh : freshWorkerKey syncer s.head maddr with e | key
    · exact Std.Refl.refl s
    · exact ⟨rfl, .inr ⟨key, hfresh, rfl⟩⟩
  · exact Std.Refl.refl s

lemma checkPowerAndGetWorkerKey_caches (bh : BlockHeader) :
    Keeps (Caches syncer bh.miner) (checkPowerAndGetWorkerKey syncer bh) :=
  .bind getWorkerKey_caches fun key => .bind .get fun _ =>
    .bind (fun _ => .of_eq rfl rfl) fun _ => .bind (.ofExcept _) fun _ =>
      .ite (fun _ => .fail _) fun _ => .pure key

lemma flagPeer_keycache (pid : PeerID) (bv : BlockValidator) :
    (bv.flagPeer pid).keycache = bv.keycache := by
  unfold flagPeer
  split
  · rfl
  · split_ifs <;> rfl

lemma recordFailure_caches (pid : PeerID) : Keeps (Caches syncer maddr) (recordFailure pid) :=
  .bind (.modify fun s => .of_eq rfl (flagPeer_keycache pid s.bv)) fun _ => .pure _

lemma validateSigned_caches (pid : PeerID) (msg : BlockMsg) (key : Address) :
    Keeps (Caches syncer maddr) (validateSigned syncer pid msg key) := by
  unfold validateSigned
  split
  · exact recordFailure_caches pid
  · split
    · exact .fail _
    · exact .ite (fun _ => recordFailure_caches pid) fun _ =>
        .bind (fun _ => .of_eq rfl rfl) fun _ => .ite (fun _ => .pure _) fun _ => .pure _

lemma validate_caches (nowNano : UInt64) (pid : PeerID) (msg : BlockMsg) :
    Keeps (Caches syncer msg.header.miner) (validate syncer nowNano pid (some msg)) := by
  refine .ite (fun _ => recordFailure_caches pid) fun _ =>
    .ite (fun _ => recordFailure_caches pid) fun _ => ?_
  split
  · exact recordFailure_caches pid
  · refine .bind (.attempt (checkPowerAndGetWorkerKey_caches msg.header)) fun found => ?_
    cases found with
    | error e =>
      exact .bind .get fun s => .ite (fun _ => recordFailure_caches pid) fun _ => .pure _
    | ok key => exact validateSigned_caches pid msg key

/-! ## Keys that stay fresh -/

lemma Caches.keysFresh {s s' : GossipState} (h : Caches syncer maddr s s')
    (hs : KeysFresh syncer s) : KeysFresh syncer s' := by
  intro maddr' key' hkey'
  rw [h.head]
  rcases h.keycache with hsame | ⟨key, hfresh, hkey⟩
  · exact hs maddr' key' (hsame ▸ hkey')
  · rw [hkey] at hkey'
    rcases eq_or_ne maddr' maddr with rfl | hne
    · grind
    · rw [update_of_ne hne] at hkey'
      exact hs maddr' key' hkey'

lemma GossipOp.run_keysFresh {s : GossipState} {op : GossipOp} (hs : KeysFresh syncer s)
    (hkept : ∀ ts, op = .headChange ts → ∀ maddr, s.bv.keycache maddr ≠ none →
      freshWorkerKey syncer ts maddr = freshWorkerKey syncer s.head maddr) :
    KeysFresh syncer (op.run syncer s) := by
  cases op with
  | headChange ts =>
    intro maddr key hkey
    have hcached : s.bv.keycache maddr = some key := hkey
    have hsame := hkept ts rfl maddr (by rw [hcached]; exact Option.some_ne_none key)
    exact hsame.trans (hs maddr key hcached)
  | incoming nowNano pid msg =>
    cases msg with
    | none =>
      have hcaches : Caches syncer (.id 0) s (recordFailure pid s).2 := recordFailure_caches pid s
      exact hcaches.keysFresh hs
    | some msg => exact (validate_caches nowNano pid msg s).keysFresh hs
  | evict keepPeer keepBlock => exact hs

lemma gossipRun_append (pre post : List GossipOp) (s : GossipState) :
    gossipRun syncer (pre ++ post) s = gossipRun syncer post (gossipRun syncer pre s) :=
  foldl_append

lemma GossipReaches.keysFresh {s0 s : GossipState} {ops : List GossipOp}
    (h : GossipReaches syncer ops s0 s) (hs0 : KeysFresh syncer s0)
    (hkept : KeysKept syncer ops s0) : KeysFresh syncer s := by
  obtain ⟨pre, post, hops, rfl⟩ := h
  induction pre using List.reverseRecOn generalizing post with
  | nil => exact hs0
  | append_singleton pre op ih =>
    rw [append_assoc, singleton_append] at hops
    rw [gossipRun_append]
    refine GossipOp.run_keysFresh (ih _ hops) fun ts hop => ?_
    exact hkept pre ts post (hop ▸ hops)

lemma getWorkerKey_run (s : GossipState) : (getWorkerKey syncer maddr s).1 =
    match s.bv.keycache maddr with
    | some key => .ok key
    | none => freshWorkerKey syncer s.head maddr := by
  rw [getWorkerKey, bind_of_ok (get_apply s)]
  rcases s.bv.keycache maddr with - | cached
  · rcases hfresh : freshWorkerKey syncer s.head maddr with e | key
    · rfl
    · rfl
  · rfl

lemma keysFresh_iff {s : GossipState} : KeysFresh syncer s ↔
    ∀ maddr key, (getWorkerKey syncer maddr s).1 = .ok key →
      freshWorkerKey syncer s.head maddr = .ok key := by
  refine forall₂_congr fun maddr key => ?_
  rw [getWorkerKey_run]
  rcases s.bv.keycache maddr with - | cached
  · exact iff_of_true nofun id
  · simp only [Option.some.injEq, Except.ok.injEq]

lemma checkPowerAndGetWorkerKey_eq_ok {bh : BlockHeader} {s : GossipState} {key : Address}
    (h : (checkPowerAndGetWorkerKey syncer bh s).1 = .ok key) :
    (getWorkerKey syncer bh.miner s).1 = .ok key := by
  have hrun : checkPowerAndGetWorkerKey syncer bh s = (.ok key, _) := Prod.ext h rfl
  obtain ⟨key', s1, hget, hrun⟩ := bind_eq_ok hrun
  obtain ⟨s2, s3, -, hrun⟩ := bind_eq_ok hrun
  obtain ⟨lbts, s4, -, hrun⟩ := bind_eq_ok hrun
  obtain ⟨hmp, s5, -, hrun⟩ := bind_eq_ok hrun
  split_ifs at hrun with hpower
  · cases hrun
  · rw [hget]
    exact congrArg Prod.fst hrun

/-- The keys that the validator gets in the states of a run are those that a lookup in the state of
the heaviest tipset gives if and only if no head change changes the key of a miner in the cache. The
keys that blocks are checked with are then fresh. -/
theorem workerKeys_fresh_iff (syncer : Syncer) (head : TipSet) (skipCache : SkipCache)
    (ops : List GossipOp) :
    ((∀ s, GossipReaches syncer ops (startGossip head skipCache) s → ∀ maddr key,
        (getWorkerKey syncer maddr s).1 = .ok key → freshWorkerKey syncer s.head maddr = .ok key) ↔
      KeysKept syncer ops (startGossip head skipCache)) ∧
    (KeysKept syncer ops (startGossip head skipCache) →
      ∀ s, GossipReaches syncer ops (startGossip head skipCache) s → ∀ bh key,
        (checkPowerAndGetWorkerKey syncer bh s).1 = .ok key →
          freshWorkerKey syncer s.head bh.miner = .ok key) := by
  have hstart : KeysFresh syncer (startGossip head skipCache) := nofun
  refine ⟨⟨fun hfresh pre ts post hops maddr hcached => ?_, ?_⟩, ?_⟩
  · -- the key is cached before and after the change, and fresh both times
    obtain ⟨key, hkey⟩ := Option.ne_none_iff_exists'.mp hcached
    have hbefore := keysFresh_iff.mpr (hfresh _ ⟨pre, _, hops, rfl⟩) maddr key hkey
    have hops' : ops = (pre ++ [.headChange ts]) ++ post := by
      rw [hops, append_assoc, singleton_append]
    have hafter := keysFresh_iff.mpr (hfresh _ ⟨_, post, hops', rfl⟩) maddr key
    rw [gossipRun_append] at hafter
    exact (hafter hkey).trans hbefore.symm
  · intro hkept s hs
    exact keysFresh_iff.mp (hs.keysFresh hstart hkept)
  · intro hkept s hs bh key hkey
    exact keysFresh_iff.mp (hs.keysFresh hstart hkept) bh.miner key
      (checkPowerAndGetWorkerKey_eq_ok hkey)

def sampleFirstMsg : BlockMsg :=
  ⟨{ sampleHeader (.id 1000) [] with blockSig := some ⟨.bls, [1]⟩ }, [], []⟩

def sampleGossipOps (blk : FullBlock) : List GossipOp :=
  [.incoming 2000000000000 0 (some sampleFirstMsg), .headChange (.single blk.header)]

theorem sampleIdle_key_fresh :
    ∃ s, GossipReaches (sampleKeyedSyncer sampleIdleBlock) (sampleGossipOps sampleIdleBlock)
        (startGossip (.single sampleKeyedGenesis) fun _ => none) s ∧
      s.head = .single sampleIdleBlock.header ∧ s.bv.keycache (.id 1000) = some (.bls [1]) ∧
      (checkPowerAndGetWorkerKey (sampleKeyedSyncer sampleIdleBlock)
        { sampleFirstMsg.header with height := 2 } s).1 = .ok (.bls [1]) ∧
      freshWorkerKey (sampleKeyedSyncer sampleIdleBlock) s.head (.id 1000) = .ok (.bls [1]) := by
  set syncer := sampleKeyedSyncer sampleIdleBlock with hsyncer
  set s0 := startGossip (.single sampleKeyedGenesis) fun _ => none with hs0
  have hkept : KeysKept syncer (sampleGossipOps sampleIdleBlock) s0 := by
    rintro (- | ⟨op, - | ⟨op', pre⟩⟩) ts post hops maddr hcached
    · cases hops
    · cases hops
      have hcaches : Caches syncer (.id 1000) s0 (validate syncer 2000000000000 0
        (some sampleFirstMsg) s0).2 := validate_caches 2000000000000 0 sampleFirstMsg s0
      have hcached : (validate syncer 2000000000000 0
        (some sampleFirstMsg) s0).2.bv.keycache maddr ≠ none := hcached
      rcases hcaches.keycache with hsame | ⟨key, -, hkey⟩
      · rw [hsame] at hcached
        cases hcached rfl
      · rw [hkey] at hcached
        rcases eq_or_ne maddr (.id 1000) with rfl | hne
        · have hhead : (gossipRun syncer [.incoming 2000000000000 0 (some sampleFirstMsg)]
            s0).head = .single sampleKeyedGenesis := hcaches.head
          rw [hhead]
          decide +kernel
        · rw [update_of_ne hne] at hcached
          cases hcached rfl
    · simp_all [sampleGossipOps]
  refine ⟨_, ⟨_, [], (append_nil _).symm, rfl⟩, rfl, ?_, ?_, ?_⟩
  · decide +kernel
  · decide +kernel
  · exact (workerKeys_fresh_iff syncer _ _ _).2 hkept _ ⟨_, [], (append_nil _).symm, rfl⟩
      { sampleFirstMsg.header with height := 2 } (.bls [1]) (by decide +kernel)

theorem sampleChange_key_stale :
    ∃ s b, GossipReaches (sampleKeyedSyncer sampleChangeBlock) (sampleGossipOps sampleChangeBlock)
        (startGossip (.single sampleKeyedGenesis) fun _ => none) s ∧
      (sampleMine sampleChangeBlock fun _ => none).1 = .ok (some b) ∧ b.header.miner = .id 1000 ∧
      (checkPowerAndGetWorkerKey (sampleKeyedSyncer sampleChangeBlock) b.header s).1 =
        .ok (.bls [1]) ∧
      freshWorkerKey (sampleKeyedSyncer sampleChangeBlock) s.head (.id 1000) = .ok (.bls [2]) ∧
      (validate (sampleKeyedSyncer sampleChangeBlock) 2000000000000 0 (some ⟨b.header, [], []⟩)
        s).1 = .ok .reject := by
  set syncer := sampleKeyedSyncer sampleChangeBlock with hsyncer
  set s := gossipRun syncer (sampleGossipOps sampleChangeBlock)
    (startGossip (.single sampleKeyedGenesis) fun _ => none) with hs
  have hfresh : freshWorkerKey syncer (.single sampleChangeBlock.header) (.id 1000) =
      .ok (.bls [2]) := by decide +kernel
  obtain ⟨b, hmine, hminer, hkey, ⟨r, hreject, rfl⟩⟩ : ∃ b,
      (sampleMine sampleChangeBlock fun _ => none).1 = .ok (some b) ∧ b.header.miner = .id 1000 ∧
      (checkPowerAndGetWorkerKey syncer b.header s).1 = .ok (.bls [1]) ∧
      (∃ r, (validate syncer 2000000000000 0 (some ⟨b.header, [], []⟩) s).1 = .ok r ∧
        r = .reject) := by decide +kernel
  exact ⟨s, b, ⟨_, [], (append_nil _).symm, rfl⟩, hmine, hminer, hkey, hfresh, hreject⟩

end Lotus
