import Lotus.Chain.MinerKeys
import Lotus.Sub.Incoming

/-!
# The flag of a verified signature

`CheckBlockSignature` sets a flag on a header whose signature verified, and returns nil for a header
with the flag.
-/

namespace Lotus

open StateTree Check Act List Function

variable {verify : SigVerifier}

variable {blk : HeaderObject} {worker : Address}

lemma checkBlockSignature_of_verifies
    (h : blk.validated = true ∨ SigVerifies verify blk.header worker) :
    checkBlockSignature verify worker blk = (.ok (), { blk with validated := true }) := by
  obtain ⟨header, validated⟩ := blk
  rw [checkBlockSignature, bind_of_ok (get_apply _)]
  cases validated with
  | true => rfl
  | false =>
    obtain ⟨sig, hsig, hverify⟩ := h.resolve_left Bool.false_ne_true
    simp_all [Bool.false_eq_true, modify_apply]

lemma checkBlockSignature_of_not
    (h : ¬(blk.validated = true ∨ SigVerifies verify blk.header worker)) :
    ∃ e, checkBlockSignature verify worker blk = (.error e, blk) := by
  obtain ⟨hvalidated, hverify⟩ := not_or.mp h
  rw [checkBlockSignature, bind_of_ok (get_apply _), if_neg hvalidated]
  rcases hsig : blk.header.blockSig with - | sig
  · exact ⟨_, rfl⟩
  · simp only
    rw [if_neg fun hok => hverify ⟨sig, hsig, hok⟩]
    exact ⟨_, rfl⟩

lemma checkBlockSignature_eq_ok_iff : (checkBlockSignature verify worker blk).1 = .ok () ↔
      blk.validated = true ∨ SigVerifies verify blk.header worker := by
  by_cases h : blk.validated = true ∨ SigVerifies verify blk.header worker
  · grind [checkBlockSignature_of_verifies]
  · grind [checkBlockSignature_of_not]

lemma checkBlockSignature_validated : (checkBlockSignature verify worker blk).2.validated = true ↔
      blk.validated = true ∨ SigVerifies verify blk.header worker := by
  by_cases h : blk.validated = true ∨ SigVerifies verify blk.header worker
  · grind [checkBlockSignature_of_verifies]
  · grind [checkBlockSignature_of_not]

@[simp] lemma checkBlockSignature_header (worker : Address) (blk : HeaderObject) :
    (checkBlockSignature verify worker blk).2.header = blk.header := by
  by_cases h : blk.validated = true ∨ SigVerifies verify blk.header worker <;>
    grind [checkBlockSignature_of_verifies, checkBlockSignature_of_not]

/-! ## Sequences of calls -/

section Calls

variable {ι : Type}

/-- A call of `CheckBlockSignature`: the header object and the worker it is given. -/
structure SigCall (ι : Type) where
  object : ι
  worker : Address

def SigCall.Agree (headers : ι → BlockHeader) (call call' : SigCall ι) : Prop :=
  call.object = call'.object → (headers call.object).blockSig ≠ none → call.worker = call'.worker

instance (headers : ι → BlockHeader) : Std.Symm (SigCall.Agree headers) :=
  ⟨fun _ _ h hobject hsigned => (h hobject.symm (hobject ▸ hsigned)).symm⟩

def OneWorker (headers : ι → BlockHeader) (calls : List (SigCall ι)) : Prop :=
  ∀ call ∈ calls, ∀ call' ∈ calls, call.Agree headers call'

/-- The header objects after the calls `pre`. -/
structure MemoInv (verify : SigVerifier) (headers : ι → BlockHeader) (pre : List (SigCall ι))
    (objects : ι → HeaderObject) : Prop where
  header : ∀ i, (objects i).header = headers i
  validated : ∀ i, (objects i).validated = true →
    ∃ call ∈ pre, call.object = i ∧ SigVerifies verify (headers i) call.worker

variable {headers : ι → BlockHeader} {objects : ι → HeaderObject}

lemma memoInv_decoded : MemoInv verify headers [] fun i => .decoded (headers i) where
  header _ := rfl
  validated _ h := absurd h Bool.false_ne_true

variable [DecidableEq ι]

def SigCall.run (verify : SigVerifier) (call : SigCall ι) : Act (ι → HeaderObject) NodeErr Unit :=
  (checkBlockSignature verify call.worker).zoom (fun objects => objects call.object)
    fun objects blk => update objects call.object blk

def sigHistory (verify : SigVerifier) :
    List (SigCall ι) → (ι → HeaderObject) → List (SigCall ι × Except NodeErr Unit)
  | [], _ => []
  | call :: calls, objects =>
    (call, (call.run verify objects).1) :: sigHistory verify calls (call.run verify objects).2

lemma SigCall.run_memoInv {pre : List (SigCall ι)} (h : MemoInv verify headers pre objects)
    (call : SigCall ι) : MemoInv verify headers (pre ++ [call]) (call.run verify objects).2 := by
  have hold : ∀ i, (objects i).validated = true → ∃ call' ∈ pre ++ [call],
      call'.object = i ∧ SigVerifies verify (headers i) call'.worker := by
    intro i hi
    obtain ⟨call', hmem, hcall'⟩ := h.validated i hi
    exact ⟨call', mem_append_left _ hmem, hcall'⟩
  constructor
  · intro i
    rcases eq_or_ne i call.object with rfl | hne
    · simpa [SigCall.run] using h.header call.object
    · simpa [SigCall.run, hne] using h.header i
  · intro i hi
    rcases eq_or_ne i call.object with rfl | hne
    · simp only [SigCall.run, zoom_apply, update_self, checkBlockSignature_validated] at hi
      rcases hi with hvalidated | hverifies
      · exact hold _ hvalidated
      · rw [h.header] at hverifies
        exact ⟨call, mem_append_right _ (mem_singleton_self call), rfl, hverifies⟩
    · simp_all [SigCall.run, zoom_apply, update_of_ne]

lemma SigCall.run_eq_ok_iff (hheader : ∀ i, (objects i).header = headers i) (call : SigCall ι) :
    (call.run verify objects).1 = .ok () ↔ (objects call.object).validated = true ∨
      SigVerifies verify (headers call.object) call.worker := by
  rw [← hheader call.object]
  exact checkBlockSignature_eq_ok_iff

lemma sigHistory_sound {pre suf : List (SigCall ι)} (h : MemoInv verify headers pre objects)
    (hone : OneWorker headers (pre ++ suf)) :
    ∀ p ∈ sigHistory verify suf objects, p.2 = .ok () →
      SigVerifies verify (headers p.1.object) p.1.worker := by
  induction suf generalizing pre objects with
  | nil => nofun
  | cons call suf ih =>
    intro p hp hok
    rcases mem_cons.mp hp with rfl | hp
    · rcases (call.run_eq_ok_iff h.header).mp hok with hvalidated | hverifies
      · -- the worker under which the signature verified is that of this call
        obtain ⟨call', hmem, hobject, hverifies⟩ := h.validated call.object hvalidated
        obtain ⟨sig, hsig, -⟩ := id hverifies
        have hworker := hone call' (mem_append_left _ hmem) call (by simp) hobject
          (by rw [hobject, hsig]; exact Option.some_ne_none sig)
        exact hworker ▸ hverifies
      · exact hverifies
    · refine ih (call.run_memoInv h) ?_ p hp hok
      rwa [append_assoc, singleton_append]

lemma SigCall.run_validated (call : SigCall ι) {i : ι} (h : (objects i).validated = true) :
    ((call.run verify objects).2 i).validated = true := by
  rcases eq_or_ne i call.object with rfl | hne <;>
    simp_all [SigCall.run, zoom_apply, update_self, checkBlockSignature_validated]

lemma sigHistory_of_validated {calls : List (SigCall ι)} {call : SigCall ι} (hmem : call ∈ calls)
    (h : (objects call.object).validated = true) :
    (call, .ok ()) ∈ sigHistory verify calls objects := by
  induction calls generalizing objects with
  | nil => cases hmem
  | cons call' calls ih =>
    rcases mem_cons.mp hmem with rfl | hmem
    · have hok : (call.run verify objects).1 = .ok () := checkBlockSignature_eq_ok_iff.mpr (.inl h)
      rw [sigHistory, hok]
      exact .head _
    · exact .tail _ (ih hmem (call'.run_validated h))

lemma sigHistory_of_sublist {calls : List (SigCall ι)} {call call' : SigCall ι}
    (hheader : ∀ i, (objects i).header = headers i) (hsub : [call, call'].Sublist calls)
    (hobject : call.object = call'.object)
    (hverifies : SigVerifies verify (headers call.object) call.worker) :
    (call', .ok ()) ∈ sigHistory verify calls objects := by
  induction calls generalizing objects with
  | nil => cases hsub
  | cons first calls ih =>
    cases hsub with
    | cons _ hsub =>
      refine .tail _ (ih (fun i => ?_) hsub)
      rcases eq_or_ne i first.object with rfl | hne
      · simpa [SigCall.run] using hheader first.object
      · simpa [SigCall.run, hne] using hheader i
    | cons_cons _ hsub =>
      have hmem : call' ∈ calls := singleton_sublist.mp hsub
      refine .tail _ (sigHistory_of_validated hmem ?_)
      simp_all [SigCall.run, zoom_apply, update_self, checkBlockSignature_validated]

/-- On headers that were just decoded, every call that returns nil is given a worker under which
the signature verifies, whatever verification does, if and only if no header is checked with two
workers. -/
theorem checkBlockSignature_sound_iff (headers : ι → BlockHeader) (calls : List (SigCall ι)) :
    (∀ verify, ∀ p ∈ sigHistory verify calls fun i => .decoded (headers i), p.2 = .ok () →
      SigVerifies verify (headers p.1.object) p.1.worker) ↔ OneWorker headers calls := by
  constructor
  · intro hsound
    have hpairs : calls.Pairwise (SigCall.Agree headers) := by
      refine pairwise_iff_forall_sublist.mpr fun {call call'} hsub hobject hsigned => ?_
      obtain ⟨sig, hsig⟩ := Option.ne_none_iff_exists'.mp hsigned
      -- signatures that verify under the worker of the first call only
      let verify : SigVerifier := fun _ addr _ => addr = call.worker
      have hok : (call', .ok ()) ∈ sigHistory verify calls fun i => .decoded (headers i) :=
        sigHistory_of_sublist (fun _ => rfl) hsub hobject ⟨sig, hsig, decide_eq_true rfl⟩
      obtain ⟨_, _, hverify⟩ := hsound verify _ hok rfl
      exact (of_decide_eq_true hverify).symm
    intro call hcall call' hcall'
    exact hpairs.forall_of_forall (fun _ _ _ _ => rfl) hcall hcall'
  · intro hone verify
    exact sigHistory_sound memoInv_decoded hone

end Calls

section Received

variable {syncer : Syncer}

/-- The syncer, when it validates a block with a header object: `CheckBlockSignature` is what reads
the flag. -/
def Syncer.received (syncer : Syncer) (blk : HeaderObject) : Syncer :=
  { syncer with
    proofs := { syncer.proofs with
      verifyBlockSig := fun sig waddr h =>
        blk.validated || syncer.proofs.verifyBlockSig sig waddr h } }

end Received

/-! ### A block that is checked with two keys

Miner 1000 mines over the block that changes its worker from the account with key `.bls [1]` to that
with key `.bls [2]`. The head has the new worker, the lookback tipset the old one. -/

/-- Both checks are made with one key, and the signature verifies under it. -/
theorem sampleOneWorker_sound :
    ∀ p ∈ sigHistory (sampleKeyedSyncer sampleIdleBlock).proofs.verifyBlockSig
        [⟨(), .bls [1]⟩, ⟨(), .bls [1]⟩]
        fun _ => .decoded { sampleIdleBlock.header with blockSig := some ⟨.bls, [1]⟩ },
      p.2 = .ok () ∧ SigVerifies (sampleKeyedSyncer sampleIdleBlock).proofs.verifyBlockSig
        { sampleIdleBlock.header with blockSig := some ⟨.bls, [1]⟩ } p.1.worker := by
  intro p hp
  have hok : p.2 = .ok () := by
    simp only [sigHistory, mem_cons, not_mem_nil, or_false] at hp
    rcases hp with rfl | rfl
    · decide +kernel
    · decide +kernel
  refine ⟨hok, (checkBlockSignature_sound_iff _ _).mpr ?_ _ p hp hok⟩
  intro call hcall call' hcall' _ _
  simp only [mem_cons, not_mem_nil, or_false, or_self] at hcall hcall'
  rw [hcall, hcall']

/-- `Validate` accepts the block with the key of the new worker. `ValidateBlock` then checks it with
the key of the old one, under which its signature does not verify, and accepts it for the flag. The
same block is not valid if it is decoded again. -/
theorem sampleChange_flag_unsound :
    ∃ b blk s', (sampleMine sampleChangeBlock fun _ => none).1 = .ok (some b) ∧
      validate (sampleKeyedSyncer sampleChangeBlock) 2000000000000 0 (some ⟨b.header, [], []⟩)
        (startGossip (.single sampleChangeBlock.header) fun _ => none) =
          (.ok (.accept blk [] []), s') ∧
      ChecksWith (sampleKeyedSyncer sampleChangeBlock) freshState b.header
        (.single sampleChangeBlock.header) sampleKeyedState ⟨33, []⟩ (.bls [1]) ∧
      (checkBlockSignature (sampleKeyedSyncer sampleChangeBlock).proofs.verifyBlockSig (.bls [1])
        blk).1 = .ok () ∧
      ¬SigVerifies (sampleKeyedSyncer sampleChangeBlock).proofs.verifyBlockSig blk.header
        (.bls [1]) ∧
      (validateBlock ((sampleKeyedSyncer sampleChangeBlock).received blk) b freshState).1 = .ok () ∧
      (validateBlock (sampleKeyedSyncer sampleChangeBlock) b freshState).1 ≠ .ok () := by
  set syncer := sampleKeyedSyncer sampleChangeBlock with hsyncer
  obtain ⟨b, hmine, ⟨hparents, hheight, hminer, hsig⟩, ⟨r, haccept, rfl⟩, hreceived, hinvalid⟩ :
      ∃ b,
      (sampleMine sampleChangeBlock fun _ => none).1 = .ok (some b) ∧
      (b.header.parents = [sampleHashing.headerCid sampleChangeBlock.header] ∧
        b.header.height = 2 ∧ b.header.miner = .id 1000 ∧
        b.header.blockSig = some ⟨.bls, [2]⟩) ∧
      (∃ r, (validate syncer 2000000000000 0 (some ⟨b.header, [], []⟩)
        (startGossip (.single sampleChangeBlock.header) fun _ => none)).1 = .ok r ∧
        r = .accept ⟨b.header, true⟩ [] []) ∧
      (validateBlock (syncer.received ⟨b.header, true⟩) b freshState).1 = .ok () ∧
      (validateBlock syncer b freshState).1 ≠ .ok () := by decide +kernel
  have hchecks := sampleMine_checks hparents hheight hminer
    (by decide +kernel) (by decide +kernel) (by decide +kernel) (by decide +kernel)
  refine ⟨b, ⟨b.header, true⟩, _, hmine, Prod.ext haccept rfl, hchecks,
    checkBlockSignature_eq_ok_iff.mpr (.inl rfl), ?_, hreceived, hinvalid⟩
  rintro ⟨sig, hsome, hverify⟩
  cases hsome.symm.trans hsig
  have hdata : ([2] : Bytes) = [1] := of_decide_eq_true hverify
  exact absurd hdata (by decide)

end Lotus
