import Lotus.Lib.Faulty
import Lotus.Sync.Panics
import Lotus.Sync.Permanent

/-!
# Validation in an environment that fails

`ValidateTipSet` and `ValidateBlock` of `chain/sync.go` on a node whose context is cancelled, whose
store does not answer, or that cannot compute a state.
-/

namespace Lotus

open Check List Function Act

/-- The futures that `ValidateBlock` awaits. -/
inductive CheckFuture where
  | minerCheck
  | tktsCheck
  | blockSigCheck
  | beaconValuesCheck
  | wproofCheck
  | winnerCheck
  | msgsCheck
deriving DecidableEq, Repr

/-- The operations of the environment in `ValidateBlock`: those on the store, on computed states
and on the context. -/
inductive EnvOp where
  | isBlockValidated
  | loadTipSet
  | getLookbackTipSetForRound
  /-- `TipSetState` of the lookback tipset -/
  | lookbackState
  | getLatestBeaconEntry
  | tipSetState
  | getMinerWorkerRaw
  | minerIsValid
  | getSectorsForWinningPoSt
  | verifyWinningPoSt
  | minerHasMinPower
  | getMinerSlashed
  | getPowerRaw
  | checkBlockMessages
  | awaitContext (fut : CheckFuture)
  | markBlockAsValidated
deriving DecidableEq, Repr

/-- The error of an operation that failed. -/
abbrev Failure := { err : NodeErr // isPermanent err }

namespace Disturbed

variable (syncer : Syncer)

def verifyWinningPoStProof (h : BlockHeader) (prevBeacon : BeaconEntry) (lbst : Hamt) :
    Faulty EnvOp NodeErr Unit :=
  if syncer.sm.cs.config.insecurePoStValidation then .ofExcept do
    require (h.winPoStProof ≠ []) (.new "[INSECURE-POST-VALIDATION] No winning post proof given")
    require (h.winPoStProof.head? = some "valid proof".toUTF8.toList)
      (.new "[INSECURE-POST-VALIDATION] winning post was invalid")
  else do
    let buf ← .ofExcept (marshalMiner syncer h.miner)
    let rand := syncer.proofs.drawRandomness (beaconBase h prevBeacon).data
      .winningPoStChallengeSeed h.height buf
    let mid ← .ofExcept ((idFromAddress syncer h.miner).mapError
      (.wrap "failed to get ID from miner address %s"))
    let sectors ← (Faulty.perform .getSectorsForWinningPoSt
      (syncer.proofs.sectorsForWinningPoSt lbst h.miner rand)).mapError
        (.wrap "getting winning post sector set")
    let ok ← (Faulty.perform .verifyWinningPoSt
      (syncer.proofs.verifyWinningPoSt rand h.winPoStProof sectors mid)).mapError
        (.wrap "failed to verify election post")
    .ofExcept (require (ok = true) (.new "winning post was invalid"))

def winnerCheck (baseTs lbts : TipSet) (lbst : Hamt) (h : BlockHeader) (prevBeacon : BeaconEntry)
    (waddr : Address) (proof : ElectionProof) : Faulty EnvOp NodeErr Unit := do
  .ofExcept (require (1 ≤ proof.winCount) (.new "block is not claiming to be a winner"))
  let hp ← (Faulty.perform .minerHasMinPower (minerHasMinPower syncer h.miner lbts)).mapError
    (.wrap "determining if miner has min power failed")
  .ofExcept (require (hp = true) (.new "block's miner does not meet minimum power threshold"))
  let buf ← .ofExcept (marshalMiner syncer h.miner)
  let vrfBase := syncer.proofs.drawRandomness (beaconBase h prevBeacon).data
    .electionProofProduction h.height buf
  .ofExcept ((verifyElectionPoStVRF syncer waddr vrfBase proof.vrfProof).mapError
    (.wrap "validating block election proof failed"))
  let slashed ← (Faulty.perform .getMinerSlashed (getMinerSlashed syncer baseTs h.miner)).mapError
    (.wrap "failed to check if block miner was slashed")
  .ofExcept (require (slashed = false) (.new "received block was from slashed or invalid miner"))
  let (mpow, tpow) ← (Faulty.perform .getPowerRaw (getPowerRaw syncer lbst h.miner)).mapError
    (.wrap "failed getting power")
  .ofExcept (require (proof.winCount = syncer.proofs.computeWinCount proof.vrfProof mpow tpow)
    (.new "miner claims wrong number of wins: miner: %d, computed: %d"))

def awaitedChecks (baseTs lbts : TipSet) (lbst stateroot : Hamt) (prevBeacon : BeaconEntry)
    (waddr : Address) (b : FullBlock) : List (Faulty EnvOp NodeErr Unit) :=
  let h := b.header
  [((Faulty.perform .minerIsValid (minerIsValid syncer h.miner baseTs)).mapError
      (.wrap "minerIsValid failed")).await (.awaitContext .minerCheck),
    (Faulty.ofExcept (tktsCheck syncer baseTs h prevBeacon waddr (h.ticket.getD []))).await
      (.awaitContext .tktsCheck),
    (Faulty.ofExcept (blockSigCheck syncer h waddr (h.blockSig.getD ⟨.unknown 0, []⟩))).await
      (.awaitContext .blockSigCheck),
    (Faulty.ofExcept (beaconValuesCheck syncer h prevBeacon)).await
      (.awaitContext .beaconValuesCheck),
    ((verifyWinningPoStProof syncer h prevBeacon lbst).mapError
      (.wrap "invalid election post")).await (.awaitContext .wproofCheck),
    (winnerCheck syncer baseTs lbts lbst h prevBeacon waddr (h.electionProof.getD ⟨0, []⟩)).await
      (.awaitContext .winnerCheck),
    ((Faulty.perform .checkBlockMessages (checkBlockMessages syncer.sm.env syncer.crypto
      syncer.sm.codec baseTs.height stateroot b)).mapError
        (.wrap "block had invalid messages")).await (.awaitContext .msgsCheck)]

/-- `ValidateBlock`, once the parent and the lookback tipset are found. -/
def validateOver (baseTs lbts : TipSet) (b : FullBlock) : Faulty EnvOp NodeErr Unit := do
  let h := b.header
  let (lbst, _) ← (Faulty.perform .lookbackState (tipSetState syncer.sm lbts)).mapError
    (.wrap "failed to compute lookback tipset state")
  let prevBeacon ← (Faulty.perform .getLatestBeaconEntry
    (getLatestBeaconEntry syncer.sm.cs baseTs)).mapError (.wrap "failed to get latest beacon entry")
  .ofExcept (checkTimestamp syncer baseTs h)
  let (stateroot, precp) ← (Faulty.perform .tipSetState (tipSetState syncer.sm baseTs)).mapError
    (.wrap "get tipsetstate(%d, %s) failed")
  .ofExcept (require (stateroot = h.parentStateRoot)
    (.new "parent state root did not match computed state (%s != %s)"))
  .ofExcept (require (precp = h.parentMessageReceipts)
    (.new "parent receipts root did not match computed value (%s != %s)"))
  let waddr ← (Faulty.perform .getMinerWorkerRaw
    (getMinerWorkerRaw syncer lbst h.miner)).mapError (.wrap "GetMinerWorkerRaw failed")
  .collect .append (awaitedChecks syncer baseTs lbts lbst stateroot prevBeacon waddr b)

def validateBlock (b : FullBlock) (s : SyncState) : Faulty EnvOp NodeErr Unit := do
  let isValidated ← (Faulty.perform .isBlockValidated
    (.ok (decide (syncer.sm.cs.hashing.headerCid b.header ∈ s.validated)))).mapError
      (.wrap "check block validation cache %s")
  if isValidated then pure ()
  else
    let h := b.header
    .ofExcept ((blockSanityChecks h).mapError (.wrap "incoming header failed basic sanity checks"))
    let baseTs ← (Faulty.perform .loadTipSet (loadTipSet syncer.sm.cs h.parents)).mapError
      (.wrap "load parent tipset failed (%s)")
    let lbts ← (Faulty.perform .getLookbackTipSetForRound
      (getLookbackTipSetForRound syncer.sm.cs baseTs h.height s.skipCache).1).mapError
        (.wrap "failed to get lookback tipset for block")
    validateOver syncer baseTs lbts b
    (Faulty.perform .markBlockAsValidated (.ok ())).mapError (.wrap "caching block validation %s")

variable {syncer}

lemma outcome_verifyWinningPoStProof (h : BlockHeader) (prevBeacon : BeaconEntry) (lbst : Hamt) :
    (verifyWinningPoStProof syncer h prevBeacon lbst).outcome =
      Lotus.verifyWinningPoStProof syncer h prevBeacon lbst := by
  simp only [verifyWinningPoStProof, Faulty.outcome_ite, Faulty.outcome_bind,
    Faulty.outcome_ofExcept, Faulty.outcome_mapError, Faulty.outcome_perform]
  rfl

lemma outcome_winnerCheck (baseTs lbts : TipSet) (lbst : Hamt) (h : BlockHeader)
    (prevBeacon : BeaconEntry) (waddr : Address) (proof : ElectionProof) :
    (winnerCheck syncer baseTs lbts lbst h prevBeacon waddr proof).outcome =
      Lotus.winnerCheck syncer baseTs lbts lbst h prevBeacon waddr proof := by
  simp only [winnerCheck, Faulty.outcome_bind, Faulty.outcome_ofExcept, Faulty.outcome_mapError,
    Faulty.outcome_perform]
  rfl

lemma outcome_awaitedChecks (baseTs lbts : TipSet) (lbst stateroot : Hamt)
    (prevBeacon : BeaconEntry) (waddr : Address) (b : FullBlock) :
    (awaitedChecks syncer baseTs lbts lbst stateroot prevBeacon waddr b).map Faulty.outcome =
      Lotus.awaitedChecks syncer baseTs lbts lbst stateroot prevBeacon waddr b := by
  simp only [awaitedChecks, map_cons, map_nil, Faulty.outcome_await,
    Faulty.outcome_mapError, Faulty.outcome_perform, Faulty.outcome_ofExcept,
    outcome_verifyWinningPoStProof, outcome_winnerCheck]
  rfl

lemma outcome_validateOver (baseTs lbts : TipSet) (b : FullBlock) :
    (validateOver syncer baseTs lbts b).outcome = Lotus.validateOver syncer baseTs lbts b := by
  simp only [validateOver, Faulty.outcome_bind, Faulty.outcome_ofExcept, Faulty.outcome_mapError,
    Faulty.outcome_perform, Faulty.outcome_collect, outcome_awaitedChecks]
  rfl

lemma outcome_validateBlock (b : FullBlock) (s : SyncState) :
    (validateBlock syncer b s).outcome = (Lotus.validateBlock syncer b s).1 := by
  have hstart : Lotus.validateBlock syncer b s = _ := bind_of_ok (get_apply s)
  rw [hstart]
  rw [validateBlock, Faulty.outcome_bind, Faulty.outcome_mapError, Faulty.outcome_perform]
  by_cases hmem : syncer.sm.cs.hashing.headerCid b.header ∈ s.validated
  · rw [if_pos hmem, decide_eq_true hmem]
    rfl
  · rw [if_neg hmem, decide_eq_false hmem]
    simp only [fst_bind, ofExcept_apply, mapError_apply, zoom_apply, modify_apply]
    show Faulty.outcome (_ >>= _) = _
    simp only [Faulty.outcome_bind, Faulty.outcome_ofExcept, Faulty.outcome_mapError,
      Faulty.outcome_perform, outcome_validateOver]
    rfl

/-! ### Something fails -/

variable (syncer) in
structure ErrorClass (P : NodeErr → Prop) : Prop where
  wrap : ∀ msg err, P err → P (.wrap msg err)
  append : ∀ errs err, P errs → P err → P (.append errs err)
  awaited : ∀ baseTs lbts lbst stateroot prevBeacon waddr b,
    ∀ c ∈ Lotus.awaitedChecks syncer baseTs lbts lbst stateroot prevBeacon waddr b,
      ∀ err, c = .error err → P err

lemma ErrorClass.permanent (hforeign : ForeignErrors syncer) :
    ErrorClass syncer fun err => isPermanent err where
  wrap _ _ h := h
  append _ _ := isPermanent_append
  awaited := awaitedChecks_onlyPermanent hforeign

lemma ErrorClass.all : ErrorClass syncer fun _ => True where
  wrap _ _ _ := trivial
  append _ _ _ _ := trivial
  awaited _ _ _ _ _ _ _ _ _ _ _ := trivial

variable {P : NodeErr → Prop}

lemma perform_exposed (hP : ErrorClass syncer P) {α : Type} (o : EnvOp) (r : Except NodeErr α)
    (msg : String) : ((Faulty.perform o r).mapError (.wrap msg)).Exposed P :=
  (Faulty.Exposed.perform o r).mapError (hP.wrap msg)

lemma verifyWinningPoStProof_exposed (hP : ErrorClass syncer P) (h : BlockHeader)
    (prevBeacon : BeaconEntry) (lbst : Hamt) :
    (verifyWinningPoStProof syncer h prevBeacon lbst).Exposed P := by
  refine .ite (.ofExcept _) (.bind (.ofExcept _) fun buf => .bind (.ofExcept _) fun mid => ?_)
  refine .bind (perform_exposed hP ..) fun sectors => .bind (perform_exposed hP ..) fun ok => ?_
  exact .ofExcept _

lemma winnerCheck_exposed (hP : ErrorClass syncer P) (baseTs lbts : TipSet) (lbst : Hamt)
    (h : BlockHeader) (prevBeacon : BeaconEntry) (waddr : Address) (proof : ElectionProof) :
    (winnerCheck syncer baseTs lbts lbst h prevBeacon waddr proof).Exposed P := by
  refine .bind (.ofExcept _) fun _ => .bind (perform_exposed hP ..) fun hp => ?_
  refine .bind (.ofExcept _) fun _ => .bind (.ofExcept _) fun buf => .bind (.ofExcept _) fun _ => ?_
  refine .bind (perform_exposed hP ..) fun slashed => .bind (.ofExcept _) fun _ => ?_
  exact .bind (perform_exposed hP ..) fun _ => .ofExcept _

lemma awaitedChecks_exposed (hP : ErrorClass syncer P) (baseTs lbts : TipSet)
    (lbst stateroot : Hamt) (prevBeacon : BeaconEntry) (waddr : Address) (b : FullBlock) :
    ∀ x ∈ awaitedChecks syncer baseTs lbts lbst stateroot prevBeacon waddr b, x.Exposed P := by
  unfold awaitedChecks
  simp only [forall_mem_cons]
  refine ⟨(perform_exposed hP ..).await _, (Faulty.Exposed.ofExcept _).await _,
    (Faulty.Exposed.ofExcept _).await _, (Faulty.Exposed.ofExcept _).await _,
    ((verifyWinningPoStProof_exposed hP ..).mapError (hP.wrap _)).await _,
    (winnerCheck_exposed hP ..).await _, (perform_exposed hP ..).await _, fun x hx => ?_⟩
  cases hx

lemma validateOver_exposed (hP : ErrorClass syncer P) (baseTs lbts : TipSet) (b : FullBlock) :
    (validateOver syncer baseTs lbts b).Exposed P := by
  refine .bind (perform_exposed hP ..) fun ⟨lbst, _⟩ => ?_
  refine .bind (perform_exposed hP ..) fun prevBeacon => .bind (.ofExcept _) fun _ => ?_
  refine .bind (perform_exposed hP ..) fun ⟨stateroot, precp⟩ => ?_
  refine .bind (.ofExcept _) fun _ => .bind (.ofExcept _) fun _ => ?_
  refine .bind (perform_exposed hP ..) fun waddr => .collect hP.append
    (awaitedChecks_exposed hP _ _ _ _ _ _ _) fun x hx err herr => ?_
  have hmem := mem_map_of_mem (f := Faulty.outcome) hx
  rw [outcome_awaitedChecks] at hmem
  exact hP.awaited _ _ _ _ _ _ _ _ hmem err herr

lemma validateBlock_exposed (hP : ErrorClass syncer P) (b : FullBlock) (s : SyncState) :
    (validateBlock syncer b s).Exposed P := by
  refine .bind (perform_exposed hP ..) fun isValidated => .ite (.pure ()) ?_
  refine .bind (.ofExcept _) fun _ => .bind (perform_exposed hP ..) fun baseTs => ?_
  refine .bind (perform_exposed hP ..) fun lbts => ?_
  exact .bind (validateOver_exposed hP baseTs lbts b) fun _ => perform_exposed hP ..

end Disturbed

/-! ## `ValidateTipSet` -/

/-- A goroutine of `ValidateTipSet`: its block, the validated blocks and the skip cache that it
finds, and what fails while it runs. -/
structure Validation where
  block : FullBlock
  state : SyncState
  faults : EnvOp → Option Failure
  /-- The error of the context, if it is done before the goroutine is awaited -/
  cancelled : Option Failure

/-- The goroutines of `ValidateTipSet`, in the order of the blocks and in the order in which they
finish. -/
structure TipSetValidation where
  futures : List Validation
  finished : List Validation
  perm : finished.Perm futures

section

variable (syncer : Syncer) (errorText : NodeErr → String)

def Validation.cid (v : Validation) : Cid := syncer.sm.cs.hashing.headerCid v.block.header

/-- What `ValidateBlock` returns. -/
def Validation.result (v : Validation) : Except NodeErr Unit :=
  (Disturbed.validateBlock syncer v.block v.state fun o => (v.faults o).map Subtype.val).1

def Validation.finish (v : Validation) (s : SyncNode) : SyncNode :=
  match v.result syncer with
  | .error err =>
    if isPermanent err then
      { s with
        bad := update s.bad (v.cid syncer)
          (some (newBadBlockReason [v.cid syncer] (errorText err))) }
    else s
  | .ok () =>
    { s with
      chain := { s.chain with
        tipsets := addToTipSetTracker syncer.sm.cs.hashing v.block.header s.chain.tipsets } }

/-- The loop of `ValidateTipSet` that awaits the goroutines. -/
def awaitFutures : List Validation → Except NodeErr Unit
  | [] => .ok ()
  | v :: vs =>
    match v.cancelled with
    | some failure => .error failure
    | none => do
      (v.result syncer).mapError (.wrap "validating block %s")
      awaitFutures vs

def TipSetValidation.started (genesis : TipSet) (run : TipSetValidation) : List Validation :=
  match newTipSet syncer.sm.cs.hashing (run.futures.map (·.block.header)) with
  | .error _ => []
  | .ok ts => if ts.equals syncer.sm.cs.hashing genesis then [] else run.finished

/-- `ValidateTipSet`. `fts.TipSet` panics if the blocks do not make a tipset. -/
def validateTipSet (genesis : TipSet) (run : TipSetValidation) : Act SyncNode NodeErr Unit :=
  match newTipSet syncer.sm.cs.hashing (run.futures.map (·.block.header)) with
  | .error _ => fail (.new "panic")
  | .ok ts =>
    if ts.equals syncer.sm.cs.hashing genesis then pure ()
    else do
      modify fun s => run.finished.foldl (fun s v => v.finish syncer errorText s) s
      ofExcept (awaitFutures syncer run.futures)

/-- Without the failures, `ValidateBlock` rejects the block, and not for the time. -/
def Validation.Rejected (v : Validation) : Prop :=
  ∃ err, (validateBlock syncer v.block v.state).1 = .error err ∧ isPermanent err

/-- An operation fails that `ValidateBlock` performs. -/
def Validation.Disturbed (v : Validation) : Prop :=
  ∃ o ∈ (Disturbed.validateBlock syncer v.block v.state).operations, v.faults o ≠ none

/-- The block is taken for a bad one. -/
def Validation.Blamed (v : Validation) : Prop :=
  ∃ err, v.result syncer = .error err ∧ isPermanent err

end

variable {syncer : Syncer} {errorText : NodeErr → String}

namespace Validation

variable {v : Validation} {s : SyncNode}

lemma result_of_disturbed {P : NodeErr → Prop} (hP : Disturbed.ErrorClass syncer P)
    (hfailure : ∀ failure : Failure, P failure) (h : v.Disturbed syncer) :
    ∃ err, v.result syncer = .error err ∧ P err := by
  obtain ⟨o, ho, hne⟩ := h
  refine (Disturbed.validateBlock_exposed hP v.block v.state).error_of_hit ?_
    ⟨o, ho, fun hnone => hne (Option.map_eq_none_iff.mp hnone)⟩
  intro o err herr
  obtain ⟨failure, -, rfl⟩ := Option.mem_map.mp herr
  exact hfailure failure

lemma result_of_not_disturbed (h : ¬v.Disturbed syncer) :
    v.result syncer = (validateBlock syncer v.block v.state).1 := by
  rw [← Disturbed.outcome_validateBlock]
  refine congrArg Prod.fst ((Disturbed.validateBlock_exposed .all v.block v.state).eq_of_missed ?_)
  intro o ho
  by_contra hne
  exact h ⟨o, ho, fun hnone => hne (Option.map_eq_none_iff.mpr hnone)⟩

lemma validateBlock_of_result (h : v.result syncer = .ok ()) :
    (validateBlock syncer v.block v.state).1 = .ok () := by
  by_cases hdisturbed : v.Disturbed syncer
  · obtain ⟨err, herr, -⟩ := result_of_disturbed .all (fun _ => trivial) hdisturbed
    rw [herr] at h
    cases h
  · rwa [← result_of_not_disturbed hdisturbed]

lemma blamed_iff (hforeign : ForeignErrors syncer) :
    v.Blamed syncer ↔ v.Disturbed syncer ∨ v.Rejected syncer := by
  by_cases hdisturbed : v.Disturbed syncer
  · exact iff_of_true (result_of_disturbed (.permanent hforeign) Subtype.prop hdisturbed)
      (.inl hdisturbed)
  · rw [Blamed, result_of_not_disturbed hdisturbed]
    exact (or_iff_right hdisturbed).symm

lemma finish_bad (v : Validation) (s : SyncNode) :
    (v.Blamed syncer ∧ ∃ reason, (v.finish syncer errorText s).bad =
      update s.bad (v.cid syncer) (some reason)) ∨
    (¬v.Blamed syncer ∧ (v.finish syncer errorText s).bad = s.bad) := by
  unfold finish Blamed
  rcases v.result syncer with err | u
  · grind
  · simp

end Validation

lemma exists_blamed_of_bad_ne {vs : List Validation} {s : SyncNode} {c : Cid}
    (h : (vs.foldl (fun s v => v.finish syncer errorText s) s).bad c ≠ s.bad c) :
    ∃ v ∈ vs, v.cid syncer = c ∧ v.Blamed syncer := by
  induction vs generalizing s with
  | nil => cases h rfl
  | cons v vs ih =>
    by_cases hfirst : (v.finish syncer errorText s).bad c = s.bad c
    · grind
    · rcases v.finish_bad s with ⟨hblamed, reason, hbad⟩ | ⟨-, hbad⟩
      · refine ⟨v, .head _, ?_, hblamed⟩
        by_contra hne
        exact hfirst (hbad ▸ update_of_ne (Ne.symm hne) ..)
      · exact absurd (congrFun hbad c) hfirst

lemma bad_ne_none_of_foldl {vs : List Validation} {s : SyncNode} {c : Cid} (h : s.bad c ≠ none) :
    (vs.foldl (fun s v => v.finish syncer errorText s) s).bad c ≠ none := by
  induction vs generalizing s with
  | nil => exact h
  | cons v vs ih =>
    refine ih ?_
    rcases v.finish_bad s with ⟨-, reason, hbad⟩ | ⟨-, hbad⟩
    · rw [hbad, update_apply]
      split_ifs <;> simp_all
    · rwa [hbad]

lemma bad_ne_none_of_blamed {vs : List Validation} {s : SyncNode} {v : Validation} (hv : v ∈ vs)
    (h : v.Blamed syncer) :
    (vs.foldl (fun s v => v.finish syncer errorText s) s).bad (v.cid syncer) ≠ none := by
  obtain ⟨pre, post, rfl⟩ := append_of_mem hv
  rw [foldl_append, foldl_cons]
  refine bad_ne_none_of_foldl ?_
  rcases v.finish_bad (pre.foldl (fun s v => v.finish syncer errorText s) s) with
    ⟨-, reason, hbad⟩ | ⟨hnot, -⟩
  · rw [hbad, update_self]
    exact Option.some_ne_none reason
  · exact absurd h hnot

lemma validateTipSet_snd (genesis : TipSet) (run : TipSetValidation) (s : SyncNode) :
    (validateTipSet syncer errorText genesis run s).2 =
      (run.started syncer genesis).foldl (fun s v => v.finish syncer errorText s) s := by
  unfold validateTipSet TipSetValidation.started
  rcases hts : newTipSet syncer.sm.cs.hashing (run.futures.map (·.block.header)) with err | ts
  · rw [hts]
    rfl
  · rw [hts]
    dsimp only
    split_ifs
    · rfl
    · rfl

lemma TipSetValidation.mem_of_started {genesis : TipSet} {run : TipSetValidation}
    {v : Validation} (h : v ∈ run.started syncer genesis) : v ∈ run.futures := by
  unfold started at h
  split at h
  · cases h
  · grind [run.perm.mem_iff]

/-- `ValidateTipSet` marks only blocks that `ValidateBlock` would reject without the failures as
well, exactly if no operation fails in the validation of any other block. -/
theorem validateTipSet_blames_iff (hforeign : ForeignErrors syncer) (genesis : TipSet)
    (run : TipSetValidation) :
    (∀ s c, (validateTipSet syncer errorText genesis run s).2.bad c ≠ s.bad c →
      ∃ v ∈ run.futures, v.cid syncer = c ∧ v.Rejected syncer) ↔
    ∀ v ∈ run.started syncer genesis, v.Disturbed syncer →
      ∃ w ∈ run.futures, w.cid syncer = v.cid syncer ∧ w.Rejected syncer := by
  constructor
  · intro h v hv hdisturbed
    -- the block gets an entry on a node that has none yet
    let s : SyncNode := ⟨⟨fun _ => none, fun _ => [], none, []⟩, ⟨fun _ => none, []⟩,
      fun _ => none, []⟩
    refine h s (v.cid syncer) ?_
    rw [validateTipSet_snd]
    exact bad_ne_none_of_blamed hv ((Validation.blamed_iff hforeign).mpr (.inl hdisturbed))
  · intro h s c hc
    rw [validateTipSet_snd] at hc
    obtain ⟨v, hv, rfl, hblamed⟩ := exists_blamed_of_bad_ne hc
    rcases (Validation.blamed_iff hforeign).mp hblamed with hdisturbed | hrejected
    · exact h v hv hdisturbed
    · exact ⟨v, TipSetValidation.mem_of_started hv, rfl, hrejected⟩

/-! ### A cancelled context -/

lemma sampleForeignErrors (blks : List FullBlock) : ForeignErrors (sampleSyncer blks) where
  verifyEntry curr prev := by
    show OnlyPermanent (sampleDrand.toRandomBeacon.verifyEntry curr prev)
    unfold DrandBeacon.toRandomBeacon
    dsimp only
    split_ifs
    · exact .ok ()
    · exact .ok ()
    · exact .error (by decide)
  meetsMinimum head ps addr hps := by
    cases hps
    exact .ok true
  sectorsForWinningPoSt st maddr rand := .ok []
  verifyWinningPoSt rand proof sectors mid := .ok true

def sampleEarly : FullBlock :=
  ⟨{ sampleHeader (.id 1001) [] with parentWeight := 281, timestamp := 1029 }, [], [],
    FullBlock.no_messages_lt⟩

def sampleCanceled : Failure := ⟨.new "context canceled", by decide⟩

def sampleValidation (b : FullBlock) (ops : List EnvOp) : Validation :=
  ⟨b, freshState, fun o => if o ∈ ops then some sampleCanceled else none, none⟩

def sampleValidations (vs : List Validation) : TipSetValidation := ⟨vs, vs, .refl vs⟩

/-- The early block is rejected whatever fails, and nothing fails in the validation of the other
one. -/
theorem sampleEarly_blamed :
    let vs := [sampleValidation sampleHonest [], sampleValidation sampleEarly [.loadTipSet]]
    ∀ s c, (validateTipSet sampleWeightSyncer (fun _ => "") (.single sampleGenesis)
        (sampleValidations vs) s).2.bad c ≠ s.bad c →
      ∃ v ∈ vs, v.cid sampleWeightSyncer = c ∧ v.Rejected sampleWeightSyncer := by
  refine (validateTipSet_blames_iff (sampleForeignErrors _) (.single sampleGenesis)
    (sampleValidations _)).mpr fun v hv hdisturbed => ?_
  rcases mem_pair.mp (TipSetValidation.mem_of_started hv) with rfl | rfl
  · obtain ⟨o, -, hne⟩ := hdisturbed
    cases hne rfl
  · have hrejected : ∃ err, (validateBlock sampleWeightSyncer sampleEarly freshState).1 =
        .error err ∧ isPermanent err := by decide +kernel
    exact ⟨_, hv, rfl, hrejected⟩

theorem sampleHonest_blamed :
    (validateBlock sampleWeightSyncer sampleHonest freshState).1 = .ok () ∧
    ∀ o ∈ [EnvOp.awaitContext .blockSigCheck, .loadTipSet, .getLookbackTipSetForRound,
        .tipSetState],
      ((validateTipSet sampleWeightSyncer (fun _ => "") (.single sampleGenesis)
        (sampleValidations [sampleValidation sampleHonest [o]]) sampleNode).2.bad
          (sampleHashing.headerCid sampleHonest.header)).isSome := by
  decide +kernel

end Lotus
