import Lotus.Chain.Validate

/-!
# The errors of validation

`ErrTemporal` and `isPermanent` of `chain/sync.go`: which errors of `ValidateBlock` are taken for
errors of the block.
-/

namespace Lotus

open Check

/-! ## Errors -/

/-- `errors.Is(err, ErrTemporal)` -/
def NodeErr.isTemporal : NodeErr → Bool
  | .new msg => msg = "temporal error"
  | .tree _ | .apply _ | .actor _ => false
  | .wrap _ err => err.isTemporal
  | .append errs err => errs.isTemporal || err.isTemporal

def isPermanent (err : NodeErr) : Bool := !err.isTemporal

lemma isPermanent_append {errs err : NodeErr} (h : isPermanent errs) (h' : isPermanent err) :
    isPermanent (.append errs err) := by
  unfold isPermanent at *
  rw [NodeErr.isTemporal, Bool.not_or, h, h']
  rfl

/-- A computation that ends with no error that wraps `ErrTemporal`. -/
def OnlyPermanent {α : Type} (x : Except NodeErr α) : Prop :=
  ∀ err, x = .error err → isPermanent err

namespace OnlyPermanent

variable {α β : Type} {x : Except NodeErr α}

lemma ok (a : α) : OnlyPermanent (.ok a) := by
  intro err h
  cases h

lemma error {err : NodeErr} (h : isPermanent err) : OnlyPermanent (.error err : Except _ α) := by
  intro err' h'
  cases h'
  exact h

lemma bind {f : α → Except NodeErr β} (hx : OnlyPermanent x) (hf : ∀ a, OnlyPermanent (f a)) :
    OnlyPermanent (x >>= f) := by
  intro err h
  rcases bind_eq_error.mp h with h | ⟨a, -, h⟩
  · exact hx err h
  · exact hf a err h

lemma wrap (hx : OnlyPermanent x) (msg : String) : OnlyPermanent (x.mapError (.wrap msg)) := by
  rcases x with err | a
  · exact error (hx err rfl)
  · exact ok a

lemma replace {err : NodeErr} (h : isPermanent err) : OnlyPermanent (x.mapError fun _ => err) := by
  rcases x with err | a
  · exact error h
  · exact ok a

lemma require {c : Prop} [Decidable c] {err : NodeErr} (h : isPermanent err) :
    OnlyPermanent (Check.require c err) := by
  unfold Check.require
  split_ifs
  · exact ok ()
  · exact error h

lemma mapM {f : β → Except NodeErr α} {l : List β} (hf : ∀ b, OnlyPermanent (f b)) :
    OnlyPermanent (l.mapM f) := by
  intro err h
  obtain ⟨-, b, -, -, -, hb⟩ := mapM_eq_error.mp h
  exact hf b err hb

end OnlyPermanent

/-- The same of a computation over a state. -/
def ActOnlyPermanent {σ α : Type} (x : Act σ NodeErr α) : Prop := ∀ s, OnlyPermanent (x s).1

namespace ActOnlyPermanent

variable {σ α β : Type} {x : Act σ NodeErr α}

lemma bind {f : α → Act σ NodeErr β} (hx : ActOnlyPermanent x)
    (hf : ∀ a, ActOnlyPermanent (f a)) : ActOnlyPermanent (x >>= f) := by
  intro s err h
  rcases Act.bind_eq_error (Prod.ext h rfl) with h | ⟨a, s', -, h⟩
  · exact hx s err (congrArg Prod.fst h)
  · exact hf a s' err (congrArg Prod.fst h)

lemma pure (a : α) : ActOnlyPermanent (Pure.pure a : Act σ NodeErr α) := fun _ => .ok a

lemma get : ActOnlyPermanent (Act.get : Act σ NodeErr σ) := fun s => .ok s

lemma modify (f : σ → σ) : ActOnlyPermanent (Act.modify f : Act σ NodeErr Unit) := fun _ => .ok ()

lemma fail {err : NodeErr} (h : isPermanent err) :
    ActOnlyPermanent (Act.fail err : Act σ NodeErr α) := fun _ => .error h

lemma ofExcept {r : Except NodeErr α} (h : OnlyPermanent r) :
    ActOnlyPermanent (Act.ofExcept r : Act σ NodeErr α) := fun _ => h

lemma wrap (hx : ActOnlyPermanent x) (msg : String) :
    ActOnlyPermanent (x.mapError (.wrap msg)) := fun s => (hx s).wrap msg

lemma ite {c : Prop} [Decidable c] {y : Act σ NodeErr α} (hx : ActOnlyPermanent x)
    (hy : ActOnlyPermanent y) : ActOnlyPermanent (if c then x else y) := by
  grind

end ActOnlyPermanent

/-! ### The checks of messages -/

section Messages

variable (env : Env)

lemma validForBlockInclusion_onlyPermanent (m : Message) (minGas : Int64) :
    OnlyPermanent ((m.validForBlockInclusion minGas).mapError .new) := by
  have hmsg : ∀ msg, m.validForBlockInclusion minGas = .error msg → isPermanent (.new msg) := by
    intro msg h
    rcases hvalue : m.value with - | value <;> rcases hprice : m.gasPrice with - | price <;>
      simp only [Message.validForBlockInclusion, hvalue, hprice] at h <;> split_ifs at h <;>
      (cases h; decide)
  rcases hx : m.validForBlockInclusion minGas with msg | u
  · exact .error (hmsg msg hx)
  · exact .ok u

lemma resolveToKeyAddress_onlyPermanent (root : Hamt) (addr : Address) :
    OnlyPermanent (resolveToKeyAddress env root addr) := by
  unfold resolveToKeyAddress
  repeat' split
  all_goals first
    | exact .ok _
    | exact .error (by decide)

lemma getBlsPublicKey_onlyPermanent (root : Hamt) (addr : Address) :
    OnlyPermanent (getBlsPublicKey env root addr) := by
  unfold getBlsPublicKey
  split
  · next err herr => exact .error (resolveToKeyAddress_onlyPermanent env root addr err herr)
  · split_ifs
    · exact .error (by decide)
    · exact .ok _

lemma expectedNonce_onlyPermanent (addr : Address) : ActOnlyPermanent (expectedNonce env addr) := by
  intro s
  unfold expectedNonce
  repeat' split
  all_goals first
    | exact .ok _
    | exact .error (by rfl)

lemma checkMsg_onlyPermanent (pl : PricelistV0) (msg : ChainMsg) :
    ActOnlyPermanent (checkMsg env pl msg) := by
  refine .bind (.ofExcept (validForBlockInclusion_onlyPermanent _ _)) fun _ => ?_
  refine .bind (.modify _) fun _ => .bind .get fun s => ?_
  refine .ite (.fail (by decide)) (.bind (expectedNonce_onlyPermanent env _) fun nonce => ?_)
  exact .ite (.fail (by decide)) (.modify _)

lemma checkBlsMessages_onlyPermanent (codec : Codec) (pl : PricelistV0) (ms : List Message) :
    ActOnlyPermanent (checkBlsMessages env codec pl ms) := by
  induction ms with
  | nil => exact .pure ()
  | cons m ms ih => exact .bind ((checkMsg_onlyPermanent env pl _).wrap _) fun _ => ih

lemma checkSecpkMessages_onlyPermanent (crypto : Crypto) (codec : Codec) (pl : PricelistV0)
    (root : Hamt) (ms : List SignedMessage) :
    ActOnlyPermanent (checkSecpkMessages env crypto codec pl root ms) := by
  induction ms with
  | nil => exact .pure ()
  | cons m ms ih =>
    refine .bind ((checkMsg_onlyPermanent env pl _).wrap _) fun _ => ?_
    refine .bind (.ofExcept ((resolveToKeyAddress_onlyPermanent env root _).wrap _)) fun kaddr => ?_
    exact .ite (.fail (by decide)) ih

lemma checkBlockMessages_onlyPermanent (crypto : Crypto) (codec : Codec) (baseHeight : Int64)
    (root : Hamt) (b : FullBlock) :
    OnlyPermanent (checkBlockMessages env crypto codec baseHeight root b) := by
  have haggregate : OnlyPermanent (checkBlsAggregate env crypto codec root b) := by
    refine .bind ((OnlyPermanent.mapM fun m => getBlsPublicKey_onlyPermanent env root _).wrap _)
      fun pubks => ?_
    split_ifs
    · exact .error (by decide)
    · exact .ok ()
  have hmessages : ActOnlyPermanent (checkMessages env crypto codec (pricelistByEpoch baseHeight)
      root b) :=
    .bind (checkBlsMessages_onlyPermanent env codec _ _) fun _ =>
      checkSecpkMessages_onlyPermanent env crypto codec _ root _
  refine .bind haggregate fun _ => .bind (hmessages _) fun _ => ?_
  split_ifs
  · exact .error (by decide)
  · exact .ok ()

end Messages

/-! ### The other checks -/

/-- The errors of the code that the node calls. `ErrTemporal` is a variable of `chain`, and no other
package wraps it. -/
structure ForeignErrors (syncer : Syncer) : Prop where
  verifyEntry : ∀ curr prev, OnlyPermanent (syncer.beacon.verifyEntry curr prev)
  meetsMinimum : ∀ head ps addr, syncer.states.powerState head = some ps →
    OnlyPermanent (ps.minerNominalPowerMeetsConsensusMinimum addr)
  sectorsForWinningPoSt : ∀ st maddr rand,
    OnlyPermanent (syncer.proofs.sectorsForWinningPoSt st maddr rand)
  verifyWinningPoSt : ∀ rand proof sectors mid,
    OnlyPermanent (syncer.proofs.verifyWinningPoSt rand proof sectors mid)

section Checks

variable {syncer : Syncer}

lemma loadActorStateRaw_onlyPermanent {α : Type} (decode : Cid → Option α) (addr : Address)
    (st : Hamt) : OnlyPermanent (loadActorStateRaw syncer decode addr st) := by
  unfold loadActorStateRaw
  split
  · exact .error rfl
  · split
    · exact .error (by decide)
    · exact .ok _

lemma minerIsValid_onlyPermanent (maddr : Address) (baseTs : TipSet) :
    OnlyPermanent (minerIsValid syncer maddr baseTs) :=
  .bind (loadActorStateRaw_onlyPermanent _ _ _) fun _ => .require (by decide)

lemma getPowerRaw_onlyPermanent (st : Hamt) (maddr : Address) :
    OnlyPermanent (getPowerRaw syncer st maddr) :=
  .bind ((loadActorStateRaw_onlyPermanent _ _ _).wrap _) fun _ => .ok _

lemma getMinerSlashed_onlyPermanent (ts : TipSet) (maddr : Address) :
    OnlyPermanent (getMinerSlashed syncer ts maddr) :=
  .bind (.replace (by decide)) fun _ => .bind (.replace (by decide)) fun _ => .ok _

lemma loadPowerState_eq_ok {st : Hamt} {ps : PowerState}
    (h : loadPowerState syncer st = .ok ps) : ∃ head, syncer.states.powerState head = some ps := by
  grind [loadPowerState, loadActorStateRaw]

lemma minerHasMinPower_onlyPermanent (hforeign : ForeignErrors syncer) (addr : Address)
    (ts : TipSet) : OnlyPermanent (minerHasMinPower syncer addr ts) := by
  intro err h
  rcases bind_eq_error.mp h with h | ⟨ps, hps, h⟩
  · exact (loadActorStateRaw_onlyPermanent _ _ _).wrap _ err h
  · obtain ⟨head, hhead⟩ := loadPowerState_eq_ok (mapError_eq_ok.mp hps)
    exact hforeign.meetsMinimum head ps addr hhead err h

lemma marshalMiner_onlyPermanent (maddr : Address) : OnlyPermanent (marshalMiner syncer maddr) := by
  unfold marshalMiner
  split_ifs
  · exact .error (by decide)
  · exact .ok _

lemma tktsCheck_onlyPermanent (baseTs : TipSet) (h : BlockHeader) (prevBeacon : BeaconEntry)
    (waddr : Address) (ticket : Bytes) :
    OnlyPermanent (tktsCheck syncer baseTs h prevBeacon waddr ticket) :=
  .bind (marshalMiner_onlyPermanent _) fun _ => (OnlyPermanent.require (by decide)).wrap _

lemma verifyEntries_onlyPermanent (hforeign : ForeignErrors syncer) (es : List BeaconEntry)
    (prevEntry : BeaconEntry) : OnlyPermanent (verifyEntries syncer.beacon es prevEntry) := by
  induction es generalizing prevEntry with
  | nil => exact .ok ()
  | cons e es ih => exact .bind ((hforeign.verifyEntry e prevEntry).wrap _) fun _ => ih e

lemma beaconValuesCheck_onlyPermanent (hforeign : ForeignErrors syncer) (h : BlockHeader)
    (prevBeacon : BeaconEntry) : OnlyPermanent (beaconValuesCheck syncer h prevBeacon) := by
  unfold beaconValuesCheck
  split_ifs
  · exact .ok ()
  · refine OnlyPermanent.wrap ?_ _
    unfold validateBlockValues
    split_ifs
    · exact .require (by decide)
    · split
      · exact .error (by decide)
      · exact .bind (.require (by decide)) fun _ => verifyEntries_onlyPermanent hforeign _ _

lemma verifyWinningPoStProof_onlyPermanent (hforeign : ForeignErrors syncer) (h : BlockHeader)
    (prevBeacon : BeaconEntry) (lbst : Hamt) :
    OnlyPermanent (verifyWinningPoStProof syncer h prevBeacon lbst) := by
  unfold verifyWinningPoStProof
  split_ifs
  · exact .bind (.require (by decide)) fun _ => .require (by decide)
  · have hid : OnlyPermanent (idFromAddress syncer h.miner) := by
      unfold idFromAddress
      cases syncer.proofs.idFromAddress h.miner with
      | none => exact .error (by decide)
      | some id => exact .ok _
    refine .bind (marshalMiner_onlyPermanent _) fun buf => .bind (hid.wrap _) fun mid => ?_
    refine .bind ((hforeign.sectorsForWinningPoSt _ _ _).wrap _) fun sectors => ?_
    exact .bind ((hforeign.verifyWinningPoSt _ _ _ _).wrap _) fun ok => .require (by decide)

lemma winnerCheck_onlyPermanent (hforeign : ForeignErrors syncer) (baseTs lbts : TipSet)
    (lbst : Hamt) (h : BlockHeader) (prevBeacon : BeaconEntry) (waddr : Address)
    (proof : ElectionProof) :
    OnlyPermanent (winnerCheck syncer baseTs lbts lbst h prevBeacon waddr proof) := by
  refine .bind (.require (by decide)) fun _ => ?_
  refine .bind ((minerHasMinPower_onlyPermanent hforeign _ _).wrap _) fun hp => ?_
  refine .bind (.require (by decide)) fun _ => .bind (marshalMiner_onlyPermanent _) fun buf => ?_
  refine .bind ((OnlyPermanent.require (by decide)).wrap _) fun _ => ?_
  refine .bind ((getMinerSlashed_onlyPermanent _ _).wrap _) fun slashed => ?_
  refine .bind (.require (by decide)) fun _ => ?_
  exact .bind ((getPowerRaw_onlyPermanent _ _).wrap _) fun _ => .require (by decide)

lemma awaitedChecks_onlyPermanent (hforeign : ForeignErrors syncer) (baseTs lbts : TipSet)
    (lbst stateroot : Hamt) (prevBeacon : BeaconEntry) (waddr : Address) (b : FullBlock) :
    ∀ c ∈ awaitedChecks syncer baseTs lbts lbst stateroot prevBeacon waddr b, OnlyPermanent c := by
  unfold awaitedChecks
  simp only [List.forall_mem_cons]
  refine ⟨(minerIsValid_onlyPermanent _ _).wrap _, tktsCheck_onlyPermanent _ _ _ _ _,
    .require (by decide), beaconValuesCheck_onlyPermanent hforeign _ _,
    (verifyWinningPoStProof_onlyPermanent hforeign _ _ _).wrap _,
    winnerCheck_onlyPermanent hforeign _ _ _ _ _ _ _,
    (checkBlockMessages_onlyPermanent _ _ _ _ _ _).wrap _, fun c hc => ?_⟩
  cases hc

end Checks

end Lotus
