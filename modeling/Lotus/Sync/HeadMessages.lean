import Lotus.Sync.Tracked

/-!
# The messages of the head

A block is tracked as soon as `ValidateTipSet` has accepted it, and `expandTipset` puts tracked
blocks into the head.
-/

namespace Lotus

open Check List Option

variable {H : Set BlockHeader} {U : Set MessageBlob} {syncer : Syncer} {s s' : SyncSystem}
  {c : SyncCall} {errorText : NodeErr → String} {genesis : TipSet} {tape : SyncTape}
  {fts : List FullBlock}

def SyncSystem.HeadLoads (s : SyncSystem) : Prop :=
  ∀ ts ∈ s.node.chain.heaviest, ∀ b ∈ ts.blocks, s.node.messages.Loads b

def SyncCall.window (syncer : Syncer) (c : SyncCall) : Option (List FullBlock) :=
  match c.place with
  | .zipping i bstout bsi =>
    if bsi < bstout.length then
      (SyncSystem.zipWindow syncer c i bstout bsi).toOption.map fun w => w.2.2
    else none
  | _ => none

def SyncCall.toStore (c : SyncCall) : Option (TipSet × BSTipSet) :=
  match c.place with
  | .storing _ _ _ this bstip => some (this, bstip)
  | _ => none

@[mk_iff]
structure SyncSystem.CallCompletes (syncer : Syncer) (errorText : NodeErr → String)
    (genesis : TipSet) (s : SyncSystem) (tape : SyncTape) (c : SyncCall) : Prop where
  validated : ∀ fts ∈ c.window syncer,
    (s.validate syncer errorText genesis tape fts).1 = .ok () ∨
      ∀ v ∈ s.validations syncer genesis tape fts, v.result (syncer.over s.node) = .ok () →
        s.node.messages.Loads v.block.header
  stored : ∀ w ∈ c.toStore, (∃ blobs, persistMessages w.2 = .ok blobs) ∧ tape.copyFailure = none ∨
    ∀ b ∈ w.1.blocks, s.node.messages.Loads b

def SyncSystem.Completes (syncer : Syncer) (errorText : NodeErr → String) (genesis : TipSet)
    (s : SyncSystem) : NodeEvent → Prop
  | .inform .. | .sync _ => True
  | .advance tape => ∀ c ∈ s.call, s.CallCompletes syncer errorText genesis tape c

instance (syncer : Syncer) (errorText : NodeErr → String) (genesis : TipSet) (s : SyncSystem) :
    DecidablePred (s.Completes syncer errorText genesis)
  | .inform .. | .sync _ => isTrue trivial
  | .advance tape =>
    have (c : SyncCall) : Decidable (s.CallCompletes syncer errorText genesis tape c) :=
      decidable_of_iff' _ (SyncSystem.callCompletes_iff ..)
    inferInstanceAs (Decidable (∀ c ∈ s.call, s.CallCompletes syncer errorText genesis tape c))

/-! ## The steps -/

variable {i bsi : ℕ} {bstout : List BSTipSet} {this ts : TipSet} {bstip : BSTipSet}

lemma SyncSystem.pending_eq_nil (hc : s.call = some c) (hpending : c.pending = []) :
    s.pending = [] := by
  rwa [SyncSystem.pending, hc]

variable {ms : MessageStore}

lemma tryFillTipSet_eq_some (hms : ms.HoldsOf syncer.sm.codec U) (hts : ts.Within H)
    (h : tryFillTipSet ms ts = some fts) :
    (∀ b ∈ ts.blocks, ms.Loads b) ∧ ∀ fb ∈ fts, fb.Filled syncer H U ∧ ms.Loads fb.header := by
  have hfill : ∀ {b : BlockHeader} {fb : FullBlock}, fillBlock ms b = some fb →
      fb.header = b ∧ ms.messagesForBlock b = .ok (fb.blsMessages, fb.secpkMessages) := by
    intro b fb hfb
    unfold fillBlock at hfb
    split at hfb
    · cases hfb
    · grind
  have hall := Aligned.mapM_eq_some.mp h
  constructor
  · intro b hb
    obtain ⟨fb, -, hfb⟩ := Aligned.exists_of_mem_right hall.flip hb
    exact ⟨_, (hfill hfb).2⟩
  · intro fb hfb
    obtain ⟨b, hb, hfb⟩ := Aligned.exists_of_mem_right hall hfb
    obtain ⟨rfl, hmsgs⟩ := hfill hfb
    refine ⟨⟨hts _ hb, congrArg MsgMeta.blsMessages (hms.addressed.messages_eq hmsgs), ?_⟩,
      _, hmsgs⟩
    exact fun m hm => hms.mem _ _ ((hms.addressed.blobs_messageCid hmsgs).1 m hm)

lemma zipWindow_eq_ok (h : SyncSystem.zipWindow syncer c i bstout bsi = .ok (this, bstip, fts)) :
    this ∈ c.headers ∧ bstip ∈ bstout ∧
      zipTipSetAndMessages syncer.sm.codec bstip.blsMessages bstip.secpkMessages this
        bstip.blsMsgIncludes bstip.secpkMsgIncludes = .ok fts := by
  unfold SyncSystem.zipWindow at h
  split_ifs at h
  split at h
  · next hthis hbstip =>
    obtain ⟨fts', hzip, hpure⟩ := bind_eq_ok.mp h
    cases hpure
    exact ⟨mem_of_getElem? hthis, mem_of_getElem? hbstip, hzip⟩
  · cases h

lemma filled_of_zip (hthis : this.Within H) (hbstip : bstip.Within H U)
    (h : zipTipSetAndMessages syncer.sm.codec bstip.blsMessages bstip.secpkMessages this
      bstip.blsMsgIncludes bstip.secpkMsgIncludes = .ok fts) :
    ∀ fb ∈ fts, fb.header ∈ this.blocks ∧ fb.Filled syncer H U := by
  intro fb hfb
  obtain ⟨b, hb, rfl, hbls, -, hroot⟩ :=
    Aligned.exists_of_mem_right (mem_of_zipTipSetAndMessages h) hfb
  refine ⟨hb, hthis _ hb, congrArg MsgMeta.blsMessages hroot, fun m hm => ?_⟩
  exact hbstip.messages _ (mem_append_left _ (mem_map_of_mem (hbls m hm)))

variable {blobs : List MessageBlob}

lemma copyBlockstore_spec (hms : ms.HoldsOf syncer.sm.codec U)
    (hinj : Set.InjOn (MessageBlob.cid syncer.sm.codec) U)
    (hblobs : ∀ blob ∈ blobs, blob ∈ U ∧ blob.IsStorageBlock) (roots : List MsgMeta) :
    let ms' := copyBlockstore syncer.sm.codec blobs roots ms
    (ms'.HoldsOf syncer.sm.codec U ∧ ms.Extends ms') ∧
      (∀ blob ∈ blobs, ms'.blobs (blob.cid syncer.sm.codec) = some blob) ∧
        ∀ root ∈ roots, root ∈ ms'.roots := by
  obtain ⟨hholds, hext, hfound⟩ := hms.putMessages hinj hblobs
  exact ⟨⟨hholds.withRoots _, hext.blobs, fun root hroot => mem_append_right _ hroot⟩,
    hfound, fun root hroot => mem_append_left _ hroot⟩

lemma persistMessages_eq_ok (codec : Codec) (h : persistMessages bstip = .ok blobs) :
    blobs = bstip.storageBlocks ∧ ∀ sm ∈ bstip.secpkMessages, sm.toStorageBlock = .signed sm ∧
        sm.cid codec = codec.signedCid sm := by
  unfold persistMessages at h
  split_ifs at h with htypes
  cases h
  refine ⟨rfl, fun sm hsm => ?_⟩
  have htype : sm.signature.type ≠ .bls := fun hbls =>
    htypes (any_eq_true.mpr ⟨sm, hsm, by rw [hbls]; rfl⟩)
  exact ⟨if_neg htype, if_neg htype⟩

lemma loads_of_copyBlockstore (hms : ms.HoldsOf syncer.sm.codec U)
    (hinj : Set.InjOn (MessageBlob.cid syncer.sm.codec) U) (hbstip : bstip.Within H U)
    (hzip : zipTipSetAndMessages syncer.sm.codec bstip.blsMessages bstip.secpkMessages this
      bstip.blsMsgIncludes bstip.secpkMsgIncludes = .ok fts)
    (hpersist : persistMessages bstip = .ok blobs) {b : BlockHeader} (hb : b ∈ this.blocks)
    (hdecodable : BlsDecodable syncer U b) :
    (copyBlockstore syncer.sm.codec blobs (this.blocks.map (·.messages)) ms).Loads b := by
  obtain ⟨rfl, hsigned⟩ := persistMessages_eq_ok syncer.sm.codec hpersist
  obtain ⟨-, hfound, hroots⟩ := copyBlockstore_spec hms hinj
    (fun blob hblob => ⟨hbstip.messages blob hblob, isStorageBlock_of_mem hblob⟩)
    (this.blocks.map (·.messages))
  obtain ⟨fb, -, rfl, hbls, hsecpk, hroot⟩ :=
    Aligned.exists_of_mem_right (mem_of_zipTipSetAndMessages hzip).flip hb
  refine MessageStore.loads_of_blobs (hroots _ (mem_map_of_mem hb)) hroot
    (fun m hm => ?_) fun sm hsm => ?_
  · have hmem : .message m ∈ bstip.storageBlocks := mem_append_left _ (mem_map_of_mem (hbls m hm))
    refine ⟨hfound _ hmem, hdecodable m (hbstip.messages _ hmem) ?_⟩
    rw [hroot]
    exact mem_map_of_mem hm
  · obtain ⟨hblob, hcid⟩ := hsigned sm (hsecpk sm hsm)
    have hmem : .signed sm ∈ bstip.storageBlocks :=
      hblob ▸ mem_append_right _ (mem_map_of_mem (hsecpk sm hsm))
    rw [hcid]
    exact hfound _ hmem

section

variable (hcids : Set.InjOn syncer.sm.cs.hashing.headerCid H)
  (hinj : Set.InjOn (MessageBlob.cid syncer.sm.codec) U) (h : s.Sound syncer H U)
  (hc : s.call = some c)

include h hc

lemma collect_sound {forkLengthThreshold : Int64} (hplace : c.place = .collecting)
    (htape : NodeEvent.Within H U (.advance tape)) :
    s.SoundStep syncer H U (s.collect syncer genesis forkLengthThreshold tape c) := by
  have hpending := SyncSystem.pending_eq_nil hc (by rw [SyncCall.pending, hplace])
  have hwithin := (h.call c hc).maybeHead
  unfold SyncSystem.collect
  split
  · exact ⟨h.return_ hpending, rfl⟩
  · next known hknown =>
    have hgrow (bad : BadBlockCache) : s.node.Grows syncer H U { s.node with bad } := .of_eq rfl rfl
    rcases hcollect : collectHeaders ⟨s.node.chain.store syncer, genesis, forkLengthThreshold,
      tape.headerPeers⟩ tape.fuel c.maybeHead known s.node.bad with ⟨err | - | headers, bad⟩
    · exact ⟨(h.grow (hgrow bad)).return_ hpending, rfl⟩
    · exact ⟨(h.grow (hgrow bad)).return_ hpending, rfl⟩
    · have hstored : ∀ x b, (s.node.chain.store syncer).getBlock x = .ok b → b ∈ H :=
        fun x b hb => (h.headers x b (getBlock_store_eq_ok.mp hb)).1
      obtain ⟨hheaders, hhead⟩ := collectHeaders_within hstored htape.1 hwithin hcollect
      have hcollected : DownFrom H c.maybeHead headers := ⟨hheaders, hhead⟩
      exact ⟨(h.grow (hgrow bad)).goto (c := { c with headers }) hpending hwithin hcollected, rfl⟩

lemma persist_sound (hplace : c.place = .persisting) :
    s.SoundStep syncer H U (s.persist syncer tape c) := by
  have hpending := SyncSystem.pending_eq_nil hc (by rw [SyncCall.pending, hplace])
  obtain ⟨hwithin, hheaders⟩ := h.call c hc
  rw [hplace] at hheaders
  have hall : ∀ b ∈ c.headers.flatMap TipSet.blocks, b ∈ H := fun b hb => by
    obtain ⟨ts, hts, hb⟩ := mem_flatMap.mp hb
    exact hheaders.within ts hts b hb
  unfold SyncSystem.persist
  split
  · refine ⟨(h.grow (.persist hall)).goto hpending hwithin ⟨hheaders, fun hzero => ?_⟩, rfl⟩
    have hne : c.headers ≠ [] := fun hnil => by
      have hhead := hheaders.head
      rw [hnil] at hhead
      cases hhead
    exact absurd (length_eq_zero_iff.mp hzero) hne
  · exact ⟨(h.grow (.persist fun b hb => hall b (mem_of_mem_take hb))).return_ hpending, rfl⟩

lemma fetch_sound (hplace : c.place = .fetching i bstout)
    (htape : NodeEvent.Within H U (.advance tape)) :
    s.SoundStep syncer H U (s.fetch syncer tape c i bstout) := by
  have hpending := SyncSystem.pending_eq_nil hc (by rw [SyncCall.pending, hplace])
  obtain ⟨hwithin, hsound⟩ := h.call c hc
  rw [hplace] at hsound
  obtain ⟨hheaders, hi, hbstout⟩ := hsound
  unfold SyncSystem.fetch
  split_ifs
  · split
    · exact ⟨h.return_ hpending, rfl⟩
    · split
      · exact ⟨h.return_ hpending, rfl⟩
      · next bstips hbstips =>
        have hbstips := within_of_getChainMessagesLoop (htape.2 _) hbstips
        exact ⟨h.goto hpending hwithin ⟨hheaders, hi,
          forall_mem_append.mpr ⟨hbstout, hbstips⟩⟩, rfl⟩
  · exact ⟨h.goto hpending hwithin ⟨hheaders, hi, hbstout⟩, rfl⟩

include hcids hinj

lemma iterate_sound (hplace : c.place = .iterating i) :
    s.SoundStep syncer H U (s.iterate syncer errorText genesis tape c i) := by
  have hpending := SyncSystem.pending_eq_nil hc (by rw [SyncCall.pending, hplace])
  obtain ⟨hwithin, hsound⟩ := h.call c hc
  rw [hplace] at hsound
  obtain ⟨hheaders, hzero⟩ := hsound
  cases i with
  | zero => exact ⟨h.goto hpending hwithin (hzero rfl), rfl⟩
  | succ i =>
    rw [SyncSystem.iterate]
    split
    · exact ⟨h.return_ hpending, rfl⟩
    · next ts hts =>
      split
      · exact ⟨h.goto hpending hwithin ⟨hheaders, Nat.succ_pos i,
          forall_mem_nil _⟩, rfl⟩
      · next fts hfts =>
        obtain ⟨hloads, hfilled⟩ := tryFillTipSet_eq_some h.messages
          (hheaders.within ts (mem_of_getElem? hts)) hfts
        have hstep (call : Option SyncCall)
            (hcall : ∀ c ∈ call, c.Sound syncer H U s.node.messages) : s.SoundStep syncer H U
              { (s.validate syncer errorText genesis tape fts).2 with call } :=
          h.validate hcids hinj hpending (fun fb hfb => (hfilled fb hfb).1)
            (fun v hv _ => .inl (hfilled _ (SyncSystem.mem_validations hv).1).2) hcall
        rcases hvalidate : s.validate syncer errorText genesis tape fts with ⟨err | u, s1⟩
        · rw [hvalidate] at hstep
          exact hstep none fun c hc => absurd hc (not_mem_none c)
        · rw [hvalidate] at hstep
          refine hstep (some { c with place := .iterating i }) fun c' hc' => ?_
          cases hc'
          refine ⟨hwithin, hheaders, fun hi => ?_⟩
          -- the last of the headers to be taken is the tipset that is synced to
          have hlast : c.maybeHead = ts := by grind [head?_eq_getElem?, hheaders.head]
          rwa [hlast]

lemma zip_sound (hplace : c.place = .zipping i bstout bsi)
    (hcompletes : s.CallCompletes syncer errorText genesis tape c) :
    s.SoundStep syncer H U (s.zip syncer errorText genesis tape c i bstout bsi) := by
  have hpending := SyncSystem.pending_eq_nil hc (by rw [SyncCall.pending, hplace])
  obtain ⟨hwithin, hsound⟩ := h.call c hc
  rw [hplace] at hsound
  obtain ⟨hheaders, hi, hbstout⟩ := hsound
  unfold SyncSystem.zip
  split_ifs with hbsi
  · rcases hwindow : SyncSystem.zipWindow syncer c i bstout bsi with err | ⟨this, bstip, fts⟩
    · exact ⟨h.return_ hpending, rfl⟩
    obtain ⟨hthis, hbstip, hzip⟩ := zipWindow_eq_ok hwindow
    have hfilled := filled_of_zip (hheaders.within this hthis) (hbstout bstip hbstip) hzip
    have hstep (call : Option SyncCall) (hloads : ∀ v ∈ s.validations syncer genesis tape fts,
          v.result (syncer.over s.node) = .ok () → s.node.messages.Loads v.block.header ∨
            v.block.header ∈ SyncSystem.pending { s with call })
        (hcall : ∀ c ∈ call, c.Sound syncer H U s.node.messages) : s.SoundStep syncer H U
          { (s.validate syncer errorText genesis tape fts).2 with call } :=
      h.validate hcids hinj hpending (fun fb hfb => (hfilled fb hfb).2) hloads hcall
    have hcomplete := hcompletes.validated fts
    rw [SyncCall.window, hplace] at hcomplete
    dsimp only at hcomplete
    rw [if_pos hbsi, hwindow] at hcomplete
    dsimp only
    rcases hvalidate : s.validate syncer errorText genesis tape fts with ⟨err | u, s1⟩
    · rw [hvalidate] at hstep hcomplete
      refine hstep none (fun v hv hok => .inl ?_) fun c hc => absurd hc (not_mem_none c)
      exact (hcomplete rfl).resolve_left nofun v hv hok
    · rw [hvalidate] at hstep
      refine hstep (some { c with place := .storing i bstout bsi this bstip })
        (fun v hv _ => .inr (hfilled _ (SyncSystem.mem_validations hv).1).1) fun c' hc' => ?_
      cases hc'
      exact ⟨hwithin, hheaders, hi, hbstout, hbstout bstip hbstip, fts, hzip⟩
  · -- the window is not all of the headers that are left
    refine ⟨h.goto hpending hwithin ⟨hheaders, fun hzero => ?_⟩, rfl⟩
    have hbatch : SyncSystem.batchSize i ≤ i - 1 := min_le_right _ _
    omega

omit hcids in
lemma store_sound (hplace : c.place = .storing i bstout bsi this bstip)
    (hcompletes : s.CallCompletes syncer errorText genesis tape c) :
    s.SoundStep syncer H U (s.store syncer tape c i bstout bsi this bstip) := by
  have hpending : s.pending = this.blocks := by
    rw [SyncSystem.pending, hc]
    show c.pending = _
    rw [SyncCall.pending, hplace]
  obtain ⟨hwithin, hsound⟩ := h.call c hc
  rw [hplace] at hsound
  obtain ⟨hheaders, hi, hbstout, hbstip, fts, hzip⟩ := hsound
  have hcomplete := hcompletes.stored (this, bstip) (by rw [SyncCall.toStore, hplace]; rfl)
  have hreturn {ms : MessageStore} (hms : ms.HoldsOf syncer.sm.codec U ∧ s.node.messages.Extends ms)
      (hloads : ∀ b ∈ this.blocks, s.node.messages.Loads b) :
      s.SoundStep syncer H U { s with node := { s.node with messages := ms }, call := none } := by
    have hgrow : s.node.Grows syncer H U { s.node with messages := ms } :=
      ⟨fun hn => hn, fun _ => hms, rfl, rfl⟩
    refine ⟨(h.grow hgrow).withCall (fun b hb _ _ => ?_)
      fun c hc => absurd hc (not_mem_none c), rfl⟩
    exact hms.2.loads (hloads b (hpending ▸ hb))
  unfold SyncSystem.store
  rcases hpersist : persistMessages bstip with err | blobs
  · refine hreturn ⟨h.messages, .refl _⟩ (hcomplete.resolve_left ?_)
    rintro ⟨⟨blobs, hblobs⟩, -⟩
    cases hpersist.symm.trans hblobs
  have hblobs : ∀ blob ∈ blobs, blob ∈ U ∧ blob.IsStorageBlock := by
    obtain ⟨rfl, -⟩ := persistMessages_eq_ok syncer.sm.codec hpersist
    exact fun blob hblob => ⟨hbstip.messages blob hblob, isStorageBlock_of_mem hblob⟩
  rcases hfailure : tape.copyFailure with - | failure
  · obtain ⟨hms, -, -⟩ := copyBlockstore_spec h.messages hinj hblobs (this.blocks.map (·.messages))
    have hgrow : s.node.Grows syncer H U { s.node with
        messages := copyBlockstore syncer.sm.codec blobs (this.blocks.map (·.messages))
          s.node.messages } := ⟨fun hn => hn, fun _ => hms, rfl, rfl⟩
    refine ⟨(h.grow hgrow).withCall (fun b hb hbH hvalid => ?_) fun c' hc' => ?_, rfl⟩
    · exact loads_of_copyBlockstore h.messages hinj hbstip hzip hpersist (hpending ▸ hb)
        (h.decodable b hbH hvalid)
    · cases hc'
      exact ⟨hwithin, hheaders, hi, hbstout⟩
  · refine hreturn (copyBlockstore_spec h.messages hinj (fun blob hblob => ?_) _).1
      (hcomplete.resolve_left ?_) <;> simp_all

omit hinj hcids in
lemma put_sound (hplace : c.place = .putting) : (s.put syncer c).Sound syncer H U ∧
      ((s.put syncer c).node.chain.heaviest = s.node.chain.heaviest ∨
        (s.put syncer c).HeadLoads) := by
  have hpending := SyncSystem.pending_eq_nil hc (by rw [SyncCall.pending, hplace])
  obtain ⟨hwithin, hloads⟩ := h.call c hc
  rw [hplace] at hloads
  have hpersisted := (h.grow (.persist hwithin)).return_ hpending
  obtain ⟨heaviest, reorgCh, hput, hhead⟩ :=
    putTipSet_cases (syncer.over s.node) c.maybeHead s.node.chain
  rw [SyncSystem.put, hput]
  refine ⟨⟨hpersisted.headers, hpersisted.messages, hpersisted.decodable, hpersisted.validated,
    hpersisted.loads, hpersisted.call⟩, hhead.imp_right ?_⟩
  rintro ⟨expanded, rfl, hexpand⟩ ts hts b hb
  cases hts
  obtain ⟨all, hall, hnew⟩ := bind_eq_ok.mp hexpand
  have hmem : b ∈ all := TipSet.Within.of_newTipSet (H := {x | x ∈ all}) hnew (fun _ hx => hx) b hb
  rcases mem_of_expandLoop hall hmem with hfirst | ⟨x, htracked, hget⟩
  · rw [mem_singleton.mp hfirst]
    exact hloads _ mem_cons_self
  · obtain ⟨hbH, rfl⟩ := hpersisted.headers x b (getBlock_store_eq_ok.mp hget)
    exact (hpersisted.loads _ b hbH htracked).resolve_right not_mem_nil

end

variable {forkLengthThreshold : Int64}

lemma SyncSystem.Sound.step (hcids : Set.InjOn syncer.sm.cs.hashing.headerCid H)
    (hinj : Set.InjOn (MessageBlob.cid syncer.sm.codec) U) (h : s.Sound syncer H U) {e : NodeEvent}
    (hevent : e.Within H U) (hcompletes : s.Completes syncer errorText genesis e)
    (hstep : s.step syncer errorText genesis forkLengthThreshold e = some s') :
    s'.Sound syncer H U ∧ (s'.node.chain.heaviest = s.node.chain.heaviest ∨ s'.HeadLoads) := by
  cases e with
  | inform genesisBlock self source fts =>
    cases hstep
    have hgrow : s.node.Grows syncer H U
        (informNewHead syncer genesisBlock self (fun _ => pure ()) source fts s.node).2 :=
      informNewHead_grows hinj hevent s.node
    exact ⟨h.grow hgrow, .inl hgrow.heaviest⟩
  | sync maybeHead =>
    rw [SyncSystem.step] at hstep
    split_ifs at hstep with hcall
    cases hstep
    have hpending : s.pending = [] := by
      rw [SyncSystem.pending, not_isSome_iff_eq_none.mp hcall]
      rfl
    have hstart : ({ s with call := some ⟨maybeHead, [], .collecting⟩ } : SyncSystem).Sound
        syncer H U := h.goto (c := ⟨maybeHead, [], .collecting⟩) hpending hevent trivial
    grind [SyncSystem.sync]
  | advance tape =>
    obtain ⟨c, hc, rfl⟩ := map_eq_some_iff.mp hstep
    have hcall := hcompletes c hc
    have hkept {s' : SyncSystem} (hs : s.SoundStep syncer H U s') : s'.Sound syncer H U ∧
        (s'.node.chain.heaviest = s.node.chain.heaviest ∨ s'.HeadLoads) := ⟨hs.1, .inl hs.2⟩
    unfold SyncSystem.advance
    split
    · next hplace => exact hkept (collect_sound h hc hplace hevent)
    · next hplace => exact hkept (persist_sound h hc hplace)
    · next hplace => exact hkept (iterate_sound hcids hinj h hc hplace)
    · next hplace => exact hkept (fetch_sound h hc hplace hevent)
    · next hplace => exact hkept (zip_sound hcids hinj h hc hplace hcall)
    · next hplace => exact hkept (store_sound hinj h hc hplace hcall)
    · next hplace => exact put_sound h hc hplace

/-- A node that has just started: it tracks no block, and no call runs. What it has stored are
headers and messages under their CIDs. The BLS messages of the blocks that it has validated before
are of the version that is decoded, which `ValidateBlock` has checked. -/
structure SyncSystem.Started (syncer : Syncer) (H : Set BlockHeader) (U : Set MessageBlob)
    (s : SyncSystem) : Prop where
  headers : ∀ c b, s.node.chain.blocks c = some b → b ∈ H ∧ syncer.sm.cs.hashing.headerCid b = c
  messages : s.node.messages.HoldsOf syncer.sm.codec U
  decodable : ∀ b ∈ H, syncer.sm.cs.hashing.headerCid b ∈ s.validated → BlsDecodable syncer U b
  tipsets : ∀ h, s.node.chain.tipsets h = []
  call : s.call = none

lemma SyncSystem.Started.sound (h : s.Started syncer H U) : s.Sound syncer H U := by
  refine ⟨h.headers, h.messages, h.decodable, fun n c hc => ?_, fun n b _ hb => ?_,
    fun c hc => ?_⟩ <;> simp_all [h.tipsets, h.call]

/-- If the CIDs of headers and of messages differ, and no call fails between the tracking of a block
and the storing of its messages, then the messages of every head that the node takes can be
loaded. -/
theorem headLoads_of_completes (hcids : Set.InjOn syncer.sm.cs.hashing.headerCid H)
    (hinj : Set.InjOn (MessageBlob.cid syncer.sm.codec) U) {s0 : SyncSystem}
    (hstart : s0.Started syncer H U) {events pre post : List NodeEvent} {e : NodeEvent}
    (hevents : ∀ e ∈ events, e.Within H U)
    (hcompletes : Runs.Along (SyncSystem.step syncer errorText genesis forkLengthThreshold)
      (SyncSystem.Completes syncer errorText genesis) s0 events)
    (hsplit : events = pre ++ e :: post)
    (hrun : Runs.run (SyncSystem.step syncer errorText genesis forkLengthThreshold) s0 pre = some s)
    (hstep : s.step syncer errorText genesis forkLengthThreshold e = some s')
    (hhead : s'.node.chain.heaviest ≠ s.node.chain.heaviest) : s'.HeadLoads := by
  have halong := hcompletes.and_mem hevents
  rw [hsplit] at halong
  have hmoved := Runs.forall_steps (Q := fun s s' : SyncSystem =>
      s'.node.chain.heaviest = s.node.chain.heaviest ∨ s'.HeadLoads)
    (fun h hC ht => h.step hcids hinj hC.2 hC.1 ht) hstart.sound halong hrun hstep
  exact hmoved.resolve_left hhead

/-! ## A sample run -/

def sampleTypedSyncer : Syncer :=
  { sampleSyncer [] with
    crypto := ⟨fun sig addr _ => sig.type = .bls ↔ addr.protocol = .bls, fun _ _ _ => true⟩ }

def sampleTape (chain : List BSTipSet) : SyncTape where
  fuel := 5
  headerPeers _ _ := [.response ⟨chain, statusOK, ""⟩]
  headerFailure := none
  messagePeers _ := [.response ⟨chain, statusOK, ""⟩]
  skipCache _ := none
  faults _ _ := none
  cancelled _ := none
  finished vs := ⟨vs, .refl vs⟩
  copyFailure := none

def sampleStarted : SyncSystem where
  node :=
    { sampleNode with
      chain := { sampleNode.chain with
        blocks := fun c =>
          if c = sampleHashing.headerCid sampleGenesis then some sampleGenesis else none } }
  validated := []
  call := none

def sampleStep : SyncSystem → NodeEvent → Option SyncSystem :=
  SyncSystem.step sampleTypedSyncer (fun _ => "") (.single sampleGenesis) 500

def sampleSync (fb : FullBlock) (chain : List BSTipSet) (n : ℕ) : List NodeEvent :=
  .inform (.ok sampleGenesis) 0 1 [fb] :: .sync (.single fb.header) ::
    List.replicate n (.advance (sampleTape chain))

theorem sampleHonest_headLoads : ∃ s s', Runs.run sampleStep sampleStarted
      (sampleSync sampleHonest [] 4) = some s ∧
    sampleStep s (.advance (sampleTape [])) = some s' ∧
      s'.node.chain.heaviest = some (.single sampleHonest.header) ∧ s'.HeadLoads := by
  have hsteps : ((Runs.run sampleStep sampleStarted (sampleSync sampleHonest [] 4)).bind
      fun s => (sampleStep s (.advance (sampleTape []))).map
        fun s' => (s.node.chain.heaviest, s'.node.chain.heaviest)) =
          some (some (.single sampleGenesis), some (.single sampleHonest.header)) := by
    decide +kernel
  obtain ⟨s, hrun, hstep⟩ := bind_eq_some_iff.mp hsteps
  obtain ⟨s', hstep, hheads⟩ := map_eq_some_iff.mp hstep
  obtain ⟨hold, hnew⟩ := Prod.mk.inj hheads
  refine ⟨s, s', hrun, hstep, hnew, ?_⟩
  let H : Set BlockHeader := {b | b ∈ [sampleGenesis, sampleHonest.header]}
  have hcids : Set.InjOn sampleTypedSyncer.sm.cs.hashing.headerCid H := by
    intro b hb b' hb' heq
    have hdistinct : ∀ b ∈ [sampleGenesis, sampleHonest.header],
        ∀ b' ∈ [sampleGenesis, sampleHonest.header],
          sampleHashing.headerCid b = sampleHashing.headerCid b' → b = b' := by decide
    exact hdistinct b hb b' hb' heq
  have hstart : sampleStarted.Started sampleTypedSyncer H ∅ := by
    refine ⟨fun c b hb => ?_, ⟨fun c blob hblob => ?_, fun c blob hblob => ?_⟩, fun b _ hb => ?_,
      fun _ => rfl, rfl⟩
    · have hb : (if c = sampleHashing.headerCid sampleGenesis then some sampleGenesis else none) =
        some b := hb
      split_ifs at hb with hc
      cases hb
      exact ⟨.head _, hc.symm⟩
    · cases hblob
    · cases hblob
    · cases hb
  have hhonest : sampleHonest.Within H ∅ := ⟨.tail _ mem_cons_self, forall_mem_nil _⟩
  have hevents : ∀ e ∈ sampleSync sampleHonest [] 5, e.Within H ∅ := by
    intro e he
    rcases mem_cons.mp he with rfl | he
    · intro fb hfb
      rwa [mem_singleton.mp hfb]
    rcases mem_cons.mp he with rfl | he
    · intro b hb
      rw [mem_singleton.mp hb]
      exact hhonest.header
    · rw [eq_of_mem_replicate he]
      have hanswer : ∀ answer ∈ [PeerAnswer.response ⟨[], statusOK, ""⟩], answer.Within H ∅ := by
        rintro _ hanswer res rfl
        cases mem_singleton.mp hanswer
        exact forall_mem_nil _
      exact ⟨fun _ _ => hanswer, fun _ => hanswer⟩
  have hcompletes : Runs.Along sampleStep
      (SyncSystem.Completes sampleTypedSyncer (fun _ => "") (.single sampleGenesis)) sampleStarted
      (sampleSync sampleHonest [] 5) := by decide +kernel
  refine headLoads_of_completes hcids (fun _ hm => absurd hm (Set.notMem_empty _)) hstart hevents
    hcompletes rfl hrun hstep ?_
  rw [hold, hnew]
  decide

def sampleBlsSigned : SignedMessage :=
  ⟨⟨0, .id 101, .id 100, 0, some 1, some 1, 3000000, 0, []⟩, ⟨.bls, []⟩⟩

def sampleUnstored : FullBlock :=
  ⟨{ sampleHeader (.id 1001) [] with
    parentWeight := 281, messages := ⟨[], [sampleBlsSigned.cid sampleCodec]⟩ },
    [], [sampleBlsSigned], by decide⟩

def sampleAbove : FullBlock :=
  ⟨{ sampleHeader (.id 1000) [] with
    height := 2, parents := [sampleHashing.headerCid sampleUnstored.header], parentWeight := 562 },
    [], [], FullBlock.no_messages_lt⟩

theorem sampleUnstored_takes_head : ∃ s s',
    Runs.run sampleStep sampleStarted (sampleSync sampleAbove
      [⟨[sampleUnstored.header], [], [[]], [sampleBlsSigned], [[0]]⟩] 7 ++
        sampleSync sampleHonest [] 4) = some s ∧
    sampleStep s (.advance (sampleTape [])) = some s' ∧
    s.node.chain.heaviest = some (.single sampleGenesis) ∧
    s'.node.chain.heaviest.map TipSet.blocks = some [sampleUnstored.header, sampleHonest.header] ∧
    ¬s'.node.messages.Loads sampleUnstored.header := by
  have hsteps : ((Runs.run sampleStep sampleStarted (sampleSync sampleAbove
      [⟨[sampleUnstored.header], [], [[]], [sampleBlsSigned], [[0]]⟩] 7 ++
        sampleSync sampleHonest [] 4)).bind
      fun s => (sampleStep s (.advance (sampleTape []))).map
        fun s' => (s.node.chain.heaviest, s'.node.chain.heaviest.map TipSet.blocks,
          decide (s'.node.messages.Loads sampleUnstored.header))) =
          some (some (.single sampleGenesis),
            some [sampleUnstored.header, sampleHonest.header], false) := by
    decide +kernel
  grind [bind_eq_some_iff, map_eq_some_iff]

end Lotus
