import Lotus.Vm.Metering
import Lotus.Vm.Outcome

/-!
# The bound on gas

The gas that `ApplyMessage` reports lies between zero and the gas limit, and the refund and the
reward then always go through.
-/

namespace Lotus

open VM StateTree Ledger

/-! ## The price list -/

lemma pricelistByEpoch_eq (epoch : Int64) : pricelistByEpoch epoch = pricelistV0 := by
  simp [pricelistByEpoch, prices]

lemma total_newGasCharge (name : String) {computeGas storageGas : Int64} {c s : ℤ}
    (hc : computeGas.toInt = c) (hs : storageGas.toInt = s) (hc0 : -2 ^ 50 ≤ c) (hc1 : c ≤ 2 ^ 50)
    (hs0 : -2 ^ 50 ≤ s) (hs1 : s ≤ 2 ^ 50) :
    (newGasCharge name computeGas storageGas).total.toInt = c + s * 1000 := by
  have hcompute : (computeGas * gasComputeMulti).toInt = c := by
    have hmulti : gasComputeMulti.toInt = 1 := by decide
    rw [Word.toInt_mul_of_mem] <;> rw [hmulti, hc] <;> omega
  have hstorage : (storageGas * gasStorageMulti).toInt = s * 1000 := by
    have hmulti : gasStorageMulti.toInt = 1000 := by decide
    rw [Word.toInt_mul_of_mem] <;> rw [hmulti, hs] <;> omega
  rw [newGasCharge, GasCharge.total, Word.toInt_add_of_mem] <;> rw [hcompute, hstorage] <;> omega

/-- The price of a message does not wrap. -/
lemma onChainMessage_total {n : ℕ} (hn : n < 2 ^ 40) :
    (pricelistV0.onChainMessage n).total.toInt = 137137 + (36 + 1 * (n : ℤ)) * 1000 := by
  have hbase : pricelistV0.onChainMessageComputeBase.toInt = 137137 := by decide
  have hstorage : pricelistV0.onChainMessageStorageBase.toInt = 36 := by decide
  have hbyte : pricelistV0.onChainMessageStoragePerByte.toInt = 1 := by decide
  have hlength : (Int64.ofNat n).toInt = n := Word.toInt_ofNat_of_lt (by omega)
  have hmul : (pricelistV0.onChainMessageStoragePerByte * Int64.ofNat n).toInt = 1 * n := by
    rw [Word.toInt_mul_of_mem] <;> rw [hlength, hbyte] <;> omega
  have hsize : (pricelistV0.onChainMessageStorageBase +
      pricelistV0.onChainMessageStoragePerByte * Int64.ofNat n).toInt = 36 + 1 * n := by
    rw [Word.toInt_add_of_mem] <;> rw [hstorage, hmul] <;> omega
  exact total_newGasCharge "OnChainMessage" hbase hsize (by omega) (by omega) (by omega) (by omega)

/-! ## In budget

Actor code may leave the meter anywhere, for its charges can wrap. A charge of zero or more brings
the gas used back under what is available, and every frame ends with one. -/

section Budget

open Machine Act Lotus.Runtime

lemma meter_le {limit used toUse : Int64} (hlimit : 0 ≤ limit.toInt) (htoUse : 0 ≤ toUse.toInt) :
    (meter limit used toUse).toInt ≤ limit.toInt := by
  have hlow := used.le_toInt
  have hhigh := limit.toInt_lt
  have hcharge := toUse.toInt_lt
  have hsub : (limit - toUse).toInt = limit.toInt - toUse.toInt := by
    rw [Word.toInt_sub_of_mem] <;> omega
  unfold meter
  split_ifs with hout
  · exact le_rfl
  · rw [OutOfGas, gt_iff_lt, Int64.lt_iff_toInt_lt, hsub, not_lt] at hout
    rw [Word.toInt_add_of_mem] <;> omega

/-- The limit is kept, and a machine in budget stays so. -/
structure Capped (m m' : Machine) : Prop where
  available : m'.rt.gasAvailable = m.rt.gasAvailable
  inBudget : 0 ≤ m.rt.gasAvailable.toInt → InBudget m → InBudget m'

instance : Std.Refl Capped := ⟨fun _ => ⟨rfl, fun _ h => h⟩⟩

instance : IsTrans Machine Capped :=
  ⟨fun _ _ _ h h' => ⟨h'.available.trans h.available,
    fun hlimit hin => h'.inBudget (h.available ▸ hlimit) (h.inBudget hlimit hin)⟩⟩

/-- The computation ends in budget, wherever it starts. -/
def Caps {ε α : Type} (x : Act Machine ε α) : Prop :=
  ∀ m, (x m).2.rt.gasAvailable = m.rt.gasAvailable ∧
    (0 ≤ m.rt.gasAvailable.toInt → InBudget (x m).2)

variable {ε α β : Type} {env : Env}

lemma Caps.capped {x : Act Machine ε α} (h : Caps x) : Keeps Capped x :=
  fun m => ⟨(h m).1, fun hlimit _ => (h m).2 hlimit⟩

lemma Caps.bind {x : Act Machine ε α} {k : α → Act Machine ε β} (hx : Caps x)
    (hk : ∀ a, Keeps Capped (k a)) : Caps (x >>= k) := by
  intro m
  obtain ⟨havailable, hin⟩ := hx m
  rcases hrun : x m with ⟨e | a, m1⟩
  · rw [hrun] at havailable hin
    rw [bind_of_error hrun]
    exact ⟨havailable, hin⟩
  · rw [hrun] at havailable hin
    rw [bind_of_ok hrun]
    obtain ⟨havailable', hin'⟩ := hk a m1
    exact ⟨havailable'.trans havailable,
      fun hlimit => hin' (havailable ▸ hlimit) (hin hlimit)⟩

lemma chargeGasInternal_snd (gas : GasCharge) (m : Machine) :
    (chargeGasInternal gas m : Except ε _ × Machine).2 = m.charge gas := by
  rw [chargeGasInternal]
  split_ifs <;> rfl

lemma chargeGasInternal_caps {gas : GasCharge} (hgas : 0 ≤ gas.total.toInt) :
    Caps (chargeGasInternal gas : Act Machine ε _) := fun m => by
  rw [chargeGasInternal_snd]
  exact ⟨rfl, fun hlimit => Int64.le_iff_toInt_le.mpr (meter_le hlimit hgas)⟩

lemma chargeGasIgnored_caps {gas : GasCharge} (hgas : 0 ≤ gas.total.toInt) :
    Caps (chargeGasIgnored gas : Act Machine ε Unit) :=
  (chargeGasInternal_caps hgas).bind fun _ => Keeps.pure ()

lemma chargeGasSafe_caps {gas : GasCharge} (hgas : 0 ≤ gas.total.toInt) (msg : Option String) :
    Caps (chargeGasSafe gas msg) := by
  refine (chargeGasInternal_caps hgas).bind fun r => ?_
  cases r with
  | none => exact Keeps.pure ()
  | some err => exact Keeps.fail _

/-- The charge for the message is refused, which uses up what is available, or goes on with `k`. -/
lemma chargeInitial_bind_caps {k : Unit → Act Machine Fault β} (gas : Option GasCharge)
    (hk : ∀ u, Caps (k u)) : Caps (chargeInitial gas >>= k) := by
  cases gas with
  | none => exact hk ()
  | some gas =>
    intro m
    rcases hrun : chargeInitial (some gas) m with ⟨err | u, m1⟩
    · have hrun' := hrun
      rw [chargeInitial, chargeGasSafe, bind_apply, chargeGasInternal] at hrun'
      split_ifs at hrun' with hout
      · obtain ⟨-, rfl⟩ := Prod.mk.inj hrun'
        rw [bind_of_error hrun]
        refine ⟨rfl, fun _ => ?_⟩
        show meter _ _ _ ≤ m.rt.gasAvailable
        rw [meter, if_pos hout]
        exact Int64.le_refl _
      · cases hrun'
    · have hrun' := hrun
      rw [chargeInitial, chargeGasSafe, bind_apply, chargeGasInternal] at hrun'
      split_ifs at hrun' with hout
      · cases hrun'
      · obtain ⟨-, rfl⟩ := Prod.mk.inj hrun'
        rw [bind_of_ok hrun]
        exact hk u _

lemma onVM_capped (x : Act VM ε α) : Keeps Capped (onVM x) := fun _ => ⟨rfl, fun _ h => h⟩

lemma pricelist_bind (k : PricelistV0 → Act Machine ε α) :
    (pricelist >>= k) = k pricelistV0 := by
  funext m
  show k (pricelistByEpoch m.rt.height) m = k pricelistV0 m
  rw [pricelistByEpoch_eq]

lemma onMethodInvocation_nonneg (value : ℤ) (methodNum : UInt64) :
    0 ≤ (pricelistV0.onMethodInvocation value methodNum).total.toInt := by
  unfold PricelistV0.onMethodInvocation
  dsimp only
  split_ifs <;> decide

variable {create : Address → Act Machine Fault Actor} {N : Prop} {c : Bool} {body : Body}

lemma transferAndInvoke_available (hbody : Traced env N .code c Panic.fatal body) (msg : Message)
    (value : ℤ) (toActor : Actor) (m : Machine) :
    (transferAndInvoke env msg value toActor body m).2.rt.gasAvailable = m.rt.gasAvailable := by
  obtain ⟨hok, herr, hpanic⟩ := transferAndInvoke_framed env msg value toActor hbody m
  rcases hrun : transferAndInvoke env msg value toActor body m with ⟨(e | p) | ret, m'⟩
  · exact (herr e m' hrun).evolves.frame.gasAvailable_eq
  · exact (hpanic p m' hrun).evolves.frame.gasAvailable_eq
  · exact (hok ret m' hrun).evolves.frame.gasAvailable_eq

/-- A frame ends in budget: the charge for its end is deferred, and before the method runs there are
only charges of zero or more. -/
lemma sendBody_caps (hcreate : ∀ a, Keeps Capped (create a))
    (hbody : Traced env N .code c Panic.fatal body) (msg : Message) (gas : Option GasCharge) :
    Caps (sendBody env msg gas create body) := by
  refine chargeInitial_bind_caps gas fun _ => (chargeGasIgnored_caps (by decide)).bind fun _ => ?_
  refine Keeps.bind ?_ fun toActor => ?_
  · refine Keeps.bind (Keeps.attempt (onVM_capped _)) fun r => ?_
    rcases r with err | act
    · exact Keeps.ite (fun _ => Keeps.mapError _ (hcreate _)) fun _ => onVM_capped _
    · exact Keeps.pure _
  rcases msg.value with - | value
  · exact Keeps.fail _
  · dsimp only
    rw [pricelist_bind]
    refine Keeps.bind (chargeGasSafe_caps (onMethodInvocation_nonneg _ _) _).capped fun _ m => ?_
    have hcaps : Caps (ε := Fault) (chargeGasIgnored (newGasCharge "OnMethodInvocationDone" 0 0)) :=
      chargeGasIgnored_caps (by decide)
    have hdone := hcaps (transferAndInvoke env msg value toActor body m).2
    have havailable := transferAndInvoke_available hbody msg value toActor m
    exact ⟨hdone.1.trans havailable, fun hlimit _ => hdone.2 (havailable ▸ hlimit)⟩

lemma internalSend_capped (hcreate : ∀ a, Keeps Capped (create a))
    (hbody : Traced env N .code c Panic.fatal body) (fromAddr toAddr : Address) (method : UInt64)
    (value : Option ℤ) (params : Bytes) :
    Keeps Capped (internalSend env fromAddr toAddr method value params create body) := fun m => by
  rw [internalSend]
  set msg : Message := ⟨0, toAddr, fromAddr, 0, value, none, m.rt.gasAvailable, method, params⟩
  rcases makeRuntime_does env msg m.rt.origin m.rt.originNonce m.rt.gasUsed m.rt.numActorsCreated
      m.vm.snapshot with ⟨p, es, vm, hmake, -, -⟩ | ⟨resF, vm, -, hmake⟩
  · simp only [send, Option.map_some, Option.getD_some, hmake]
    exact ⟨rfl, fun _ h => h⟩
  · simp only [send, Option.map_some, Option.getD_some, hmake]
    set sub : Machine := ⟨vm, ⟨{ msg with fromAddr := resF }, m.vm.snapshot.blockHeight,
      msg.gasLimit, m.rt.gasUsed, m.rt.origin, m.rt.originNonce, m.rt.numActorsCreated, true,
      false, 0⟩⟩
    obtain ⟨havailable, hin⟩ := sendBody_caps hcreate hbody msg none sub
    rcases hrun : sendBody env msg none create body sub with ⟨(e | p) | ret, sub'⟩
    all_goals
      rw [hrun] at havailable hin
      refine ⟨rfl, fun hlimit _ => ?_⟩
      have hused : sub'.rt.gasUsed ≤ sub'.rt.gasAvailable := hin hlimit
      rw [havailable] at hused
      exact hused

lemma tryCreateAccountActor_capped {ctor : Body} (hctor : Traced env N .code true Panic.fatal ctor)
    (addr : Address) : Keeps Capped (tryCreateAccountActor env ctor addr) := by
  rw [tryCreateAccountActor, pricelist_bind]
  refine Keeps.bind (chargeGasSafe_caps (by decide) none).capped fun _ => ?_
  refine Keeps.bind (onVM_capped _) fun addrID => ?_
  rcases makeActor env addr with err | act
  · exact Keeps.fail _
  refine Keeps.bind Keeps.get fun m => Keeps.bind (onVM_capped _) fun _ => ?_
  refine Keeps.bind (onVM_capped _) fun _ => Keeps.bind (Keeps.mapError _ ?_) fun _ => onVM_capped _
  exact internalSend_capped (fun _ => Keeps.fail _) hctor _ _ _ _ _

/-- The outermost frame ends in budget. -/
lemma send_inBudget {b : Behaviour} {msg : Message} {gas : Option GasCharge} {vm : VM}
    {r : Except ActorError Bytes} {rt : Runtime} (hlimit : 0 ≤ msg.gasLimit.toInt)
    (h : (send env msg none gas (tryCreateAccountActor env (exec env b.ctor)) (exec env b.method)
      vm).result = .ok (r, rt)) :
    rt.gasAvailable = msg.gasLimit ∧ rt.gasUsed ≤ msg.gasLimit := by
  have hcaps := sendBody_caps (N := True) (c := false)
    (tryCreateAccountActor_capped (N := True) (exec_does env b.ctor (absurd trivial)))
    (exec_does env b.method (absurd trivial)) msg gas
  rcases makeRuntime_does env msg msg.fromAddr msg.nonce 0 0 vm with
    ⟨p, es, vm', hmake, -, -⟩ | ⟨resF, vm', -, hmake⟩
  · simp only [send, Option.map_none, Option.getD_none, hmake] at h
    cases h
  · simp only [send, Option.map_none, Option.getD_none, hmake] at h
    set sub : Machine := ⟨vm', ⟨{ msg with fromAddr := resF }, vm.blockHeight, msg.gasLimit, 0,
      msg.fromAddr, msg.nonce, 0, true, false, 0⟩⟩
    obtain ⟨havailable, hin⟩ := hcaps sub
    have hused : _ ≤ _ := hin hlimit
    rw [havailable] at hused
    rcases hrun : sendBody env msg gas (tryCreateAccountActor env (exec env b.ctor))
      (exec env b.method) sub with ⟨(e | p) | ret, sub'⟩ <;> rw [hrun] at h havailable hused
    · cases h
      exact ⟨havailable, hused⟩
    · cases h
    · cases h
      exact ⟨havailable, hused⟩

end Budget

/-- The charge for the return value, if there is one, does not wrap below zero. -/
def ReturnCharged (es : List Event) : Prop :=
  ∀ n, .charged (pricelistV0.onChainReturnValue n) ∈ es →
    0 ≤ (pricelistV0.onChainReturnValue n).total

lemma execute_inBudget {env : Env} {b : Behaviour} {cmsg : ChainMsg} {vm vm' : VM} {x : Executed}
    {es : List Event} (hlimit : 0 ≤ cmsg.vmMessage.gasLimit.toInt)
    (h : execute env b cmsg vm = (.ok x, vm')) (hlog : vm'.log = vm.log ++ es)
    (hreturned : ReturnCharged es) : x.gasUsed ≤ cmsg.vmMessage.gasLimit := by
  obtain ⟨es', hgrows, -⟩ := send_grows env b cmsg.vmMessage
    (some ((pricelistByEpoch vm.blockHeight).onChainMessage cmsg.chainLength)) vm rfl
  unfold execute at h
  dsimp only at h
  set out := Runtime.send env cmsg.vmMessage none _ _ _ vm with hout
  rcases hresult : out.result with p | ⟨e | ret, rt⟩ <;> rw [hresult] at h
  · cases h
  · obtain ⟨-, hused⟩ := send_inBudget hlimit (hout ▸ hresult)
    dsimp only at h
    split_ifs at h
    · cases h
    · cases h
      exact hused
  · obtain ⟨havailable, hused⟩ := send_inBudget hlimit (hout ▸ hresult)
    dsimp only at h
    split_ifs at h with hret
    · cases h
      exact hused
    · -- the last event is the charge for the return value
      rw [pricelistByEpoch_eq] at h
      set charge := pricelistV0.onChainReturnValue ret.length
      have hend : x.gasUsed = meter cmsg.vmMessage.gasLimit rt.gasUsed charge.total ∧
          vm'.log = out.vm.log ++ [.charged charge] := by
        rw [← havailable]
        simp only [Runtime.chargeGasInternal] at h
        split_ifs at h <;> cases h <;> exact ⟨rfl, rfl⟩
      have hmem : .charged charge ∈ es := by
        have hes : es = es' ++ [.charged charge] := by
          have hall := hlog.symm.trans (hend.2.trans (congrArg (· ++ _) hgrows.log_eq))
          rw [List.append_assoc] at hall
          exact List.append_cancel_left hall
        simp [hes]
      rw [hend.1, Int64.le_iff_toInt_le]
      exact meter_le hlimit (Int64.le_iff_toInt_le.mp (hreturned _ hmem))

/-! ## The settlement -/

lemma price_nonneg {msg : Message} (hlimit : 0 < msg.gasLimit.toInt) (hcost : 0 ≤ gasCost msg) :
    0 ≤ price msg := by
  rw [gasCost, Word.u64_of_nonneg (by omega)] at hcost
  exact nonneg_of_mul_nonneg_right hcost hlimit

/-- The refund is the price of the gas that is left. -/
lemma refund_eq {msg : Message} {gasUsed : Int64} (hlow : 0 ≤ gasUsed.toInt)
    (hhigh : gasUsed.toInt ≤ msg.gasLimit.toInt) :
    refund msg gasUsed = (msg.gasLimit.toInt - gasUsed.toInt) * price msg := by
  have hmax := msg.gasLimit.toInt_lt
  have hrest : (msg.gasLimit - gasUsed).toInt = msg.gasLimit.toInt - gasUsed.toInt := by
    rw [Word.toInt_sub_of_mem] <;> omega
  rw [refund, Word.u64_of_nonneg (by omega), hrest]

lemma gasReward_eq (msg : Message) {gasUsed : Int64} (hlow : 0 ≤ gasUsed.toInt) :
    gasReward msg gasUsed = gasUsed.toInt * price msg := by
  rw [gasReward, Word.u64_of_nonneg hlow, mul_comm]

lemma settles_of_bounds {v : Ledger} {msg : Message} {id : Address} {gasUsed : Int64}
    (hlimit : 0 < msg.gasLimit.toInt) (hcost : 0 ≤ gasCost msg) (hlow : 0 ≤ gasUsed.toInt)
    (hhigh : gasUsed.toInt ≤ msg.gasLimit.toInt) (hsender : (v id).isSome)
    (hreward : (v rewardActorAddr).isSome) : Settles v msg id gasUsed (gasCost msg) := by
  have hprice := price_nonneg hlimit hcost
  refine ⟨hsender, hreward, ?_, ?_, ?_⟩
  · rw [refund_eq hlow hhigh]
    exact mul_nonneg (by omega) hprice
  · rw [gasReward_eq msg hlow]
    exact mul_nonneg hlow hprice
  · rw [refund_eq hlow hhigh, gasReward_eq msg hlow, gasCost, Word.u64_of_nonneg (by omega)]
    ring

lemma clampGas_bounds {limit used : Int64} (hlimit : 0 ≤ limit.toInt)
    (hused : used.toInt ≤ limit.toInt) :
    0 ≤ (clampGas used).toInt ∧ (clampGas used).toInt ≤ limit.toInt := by
  refine ⟨clampGas_nonneg used, ?_⟩
  unfold clampGas
  split_ifs
  · exact hlimit
  · exact hused

/-! ## The bound -/

/-- What the bound assumes of a message, and of the events `es` of its application: the gas limit is
within that of a block, the charge for the return value does not wrap, there is a reward actor, and
neither it nor the sender is deleted. -/
structure GasAssumptions (env : Env) (cmsg : ChainMsg) (vm : VM) (es : List Event) : Prop where
  limit_pos : 0 < cmsg.vmMessage.gasLimit
  limit_le : cmsg.vmMessage.gasLimit ≤ blockGasLimit
  returned : ReturnCharged es
  reward_isSome : (vm.cstate.view rewardActorAddr).isSome
  reward_kept : .deleted rewardActorAddr ∉ es
  sender_kept : ∀ id, (lookupID env.init cmsg.vmMessage.fromAddr vm.cstate).1 = .ok id →
    .deleted id ∉ es

variable {env : Env} {b : Behaviour} {cmsg : ChainMsg} {vm vm' start : VM} {es : List Event}

lemma GasAssumptions.limit_toInt_pos (h : GasAssumptions env cmsg vm es) :
    0 < cmsg.vmMessage.gasLimit.toInt :=
  Int64.lt_iff_toInt_lt.mp h.limit_pos

lemma Started.settles {id : Address} {act : Actor} {v : Ledger} {gasUsed : Int64}
    (hstarted : Started env cmsg vm id act start) (h : GasAssumptions env cmsg vm es)
    (hrun : Run start.cstate.view es v) (hused : gasUsed.toInt ≤ cmsg.vmMessage.gasLimit.toInt) :
    Settles v cmsg.vmMessage id (clampGas gasUsed) (gasCost cmsg.vmMessage) := by
  have hpos := h.limit_toInt_pos
  obtain ⟨hlow, hhigh⟩ := clampGas_bounds (by omega) hused
  have hsender : (start.cstate.view id).isSome := by
    rw [hstarted.view_eq, Function.update_self]
    rfl
  have hreward : (start.cstate.view rewardActorAddr).isSome := by
    rw [hstarted.view_eq, Function.update_apply]
    split
    · rfl
    · exact h.reward_isSome
  exact settles_of_bounds hpos hstarted.cost_nonneg hlow hhigh
    (hrun.isSome hsender (h.sender_kept id hstarted.lookupID_eq))
    (hrun.isSome hreward h.reward_kept)

lemma applyMessage_gas_of_starts {r : Except ApplyErr ApplyRet} (hstarts : Starts env cmsg vm)
    (h : applyMessage env b cmsg vm = (r, vm')) (hlog : vm'.log = vm.log ++ es)
    (hgas : GasAssumptions env cmsg vm es) :
    (∃ ret, r = .ok ret ∧ ret.receipt.gasUsed = clampGas (meterAll cmsg.vmMessage.gasLimit 0 es) ∧
      ret.receipt.gasUsed ≤ cmsg.vmMessage.gasLimit) ∨
    ∃ err, r = .error err ∧ err.isSettlement = false := by
  have hpos := hgas.limit_toInt_pos
  obtain ⟨id, act, start, gasHolder, hstarted, hheld, happly⟩ := applyMessage_of_starts hstarts b
  rw [happly, Prod.mk.injEq] at h
  obtain ⟨rfl, rfl⟩ := h
  rcases hexec : execute env b cmsg start.snapshot with ⟨err | x, vm1⟩
  · obtain ⟨-, hfault⟩ := execute_error hexec
    refine Or.inr ⟨err, ?_, ?_⟩
    · rw [executeAndSettle, Act.bind_of_error hexec]
    · rcases hfault with ⟨e, rfl⟩ | ⟨p, rfl⟩ <;> rfl
  · obtain ⟨es', hext, hrun, -, hused⟩ := execute_ok hexec
    -- whichever way the settlement ends, the log holds the events of the execution
    obtain rfl : es' = es := by
      have hfinal : (executeAndSettle env b cmsg gasHolder start.snapshot).2.log = vm1.log := by
        have hsettle := settle_log env cmsg.vmMessage gasHolder (clampGas x.gasUsed) vm1
        rw [executeAndSettle, Act.bind_of_ok hexec]
        rcases hs : settle env cmsg.vmMessage gasHolder (clampGas x.gasUsed) vm1 with ⟨e | u, vm2⟩
        · grind [Act.bind_of_error]
        · rw [hs] at hsettle
          rwa [Act.bind_of_ok hs]
      have hbefore : start.snapshot.log = vm.log := by
        have hstart := hstarted.log_eq
        rwa [List.append_nil] at hstart
      have hafter : vm1.log = vm.log ++ es := by
        rw [← hlog, ← hfinal]
        rfl
      grind [hext.log_eq, List.append_cancel_left]
    have hlimit : x.gasUsed.toInt ≤ cmsg.vmMessage.gasLimit.toInt :=
      Int64.le_iff_toInt_le.mp (execute_inBudget (by omega) hexec hext.log_eq hgas.returned)
    have hsettles := hstarted.settles hgas hrun hlimit
    rw [← hheld] at hsettles
    obtain ⟨vm2, -, -, hsettle⟩ :=
      settle_of_settles (hext.resolves hstarted.resolves_snapshot) hsettles
    refine Or.inl ⟨⟨⟨retCode x.actorErr, x.ret, clampGas x.gasUsed⟩, x.actorErr, 0⟩, ?_, ?_, ?_⟩
    · rw [executeAndSettle, Act.bind_of_ok hexec, Act.bind_of_ok hsettle]
      rfl
    · rw [hused]
    · exact Int64.le_iff_toInt_le.mpr (clampGas_bounds (by omega) hlimit).2

/-- What the refund and the reward come to. -/
lemma settled_eq_credits {v : Ledger} {msg : Message} {id : Address} {gasUsed : Int64}
    (hlow : 0 ≤ gasUsed.toInt) (hhigh : gasUsed.toInt ≤ msg.gasLimit.toInt) :
    settled v msg id gasUsed =
      (v.credit id ((msg.gasLimit.toInt - gasUsed.toInt) * price msg)).credit rewardActorAddr
        (gasUsed.toInt * price msg) := by
  rw [settled, refund_eq hlow hhigh, gasReward_eq msg hlow]

/-- The gas that `ApplyMessage` reports lies between zero and the gas limit. It is what the meter
makes of all charges of the call tree in their order, those of reverted sub-calls included. The
refund and the reward never fail, and they leave the gas holder empty: the sender gets back the
price of the gas that is left, and the reward actor gets that of the gas used. -/
theorem applyMessage_gas_bound {r : Except ApplyErr ApplyRet}
    (h : applyMessage env b cmsg vm = (r, vm')) (hlog : vm'.log = vm.log ++ es)
    (hgas : GasAssumptions env cmsg vm es) :
    (∀ ret, r = .ok ret → 0 ≤ ret.receipt.gasUsed ∧ ret.receipt.gasUsed ≤ cmsg.vmMessage.gasLimit ∧
        ret.receipt.gasUsed = clampGas (meterAll cmsg.vmMessage.gasLimit 0 es)) ∧
    (∀ (ctor callee : Prog .method) (fromAddr toAddr : Address) (method : UInt64) (value : Option ℤ)
      (params : Bytes) (m : Machine),
      let m' := (Runtime.internalSend env fromAddr toAddr method value params
        (Runtime.tryCreateAccountActor env (exec env ctor)) (exec env callee) m).2
      ∃ sub, m'.vm.log = m.vm.log ++ sub ∧
        m'.rt.gasUsed = meterAll m.rt.gasAvailable m.rt.gasUsed sub) ∧
    r ≠ .error .refund ∧ (∀ err, r ≠ .error (.reward err)) ∧ r ≠ .error .gasMath ∧
    ∀ ret, r = .ok ret → Starts env cmsg vm → ∃ id act start v,
      Started env cmsg vm id act start ∧ Run start.cstate.view es v ∧
      (ret.receipt.exitCode ≠ 0 → v = start.cstate.view) ∧
      vm'.cstate.view = (v.credit id ((cmsg.vmMessage.gasLimit.toInt - ret.receipt.gasUsed.toInt) *
        price cmsg.vmMessage)).credit rewardActorAddr
          (ret.receipt.gasUsed.toInt * price cmsg.vmMessage) := by
  have hcases : (∃ ret, r = .ok ret ∧
        ret.receipt.gasUsed = clampGas (meterAll cmsg.vmMessage.gasLimit 0 es) ∧
        ret.receipt.gasUsed ≤ cmsg.vmMessage.gasLimit) ∨
      ∃ err, r = .error err ∧ err.isSettlement = false := by
    by_cases hstarts : Starts env cmsg vm
    · exact applyMessage_gas_of_starts hstarts h hlog hgas
    · obtain ⟨r', t, hreads, hrun, hreject, herror⟩ := applyMessage_of_not_starts (b := b) hstarts
      rw [hrun, Prod.mk.injEq] at h
      obtain ⟨rfl, rfl⟩ := h
      -- a message that does not start is charged nothing
      obtain rfl : es = [] := List.append_right_eq_self.mp hlog.symm
      cases r' with
      | ok ret =>
        have hzero : ret.receipt.gasUsed = 0 := (hreject ret rfl).2
        exact Or.inl ⟨ret, rfl, hzero, hzero ▸ Int64.le_of_lt hgas.limit_pos⟩
      | error err => exact Or.inr ⟨err, rfl, herror err rfl⟩
  have hbounds : ∀ ret, r = .ok ret → 0 ≤ ret.receipt.gasUsed ∧
      ret.receipt.gasUsed ≤ cmsg.vmMessage.gasLimit ∧
      ret.receipt.gasUsed = clampGas (meterAll cmsg.vmMessage.gasLimit 0 es) := by
    rintro ret rfl
    obtain ⟨_, hret, hused, hle⟩ | ⟨err, herr, -⟩ := hcases
    · cases hret
      have hnonneg := clampGas_nonneg (meterAll cmsg.vmMessage.gasLimit 0 es)
      rw [← hused] at hnonneg
      exact ⟨Int64.le_iff_toInt_le.mpr hnonneg, hle, hused⟩
    · cases herr
  refine ⟨hbounds, ?_, ?_⟩
  · intro ctor callee fromAddr toAddr method value params m
    have hcreate := tryCreateAccountActor_traced env (N := True) (c := true)
      (exec_does env ctor (absurd trivial))
    have hstarts : CallStarts .preamble true m true m := .ctor nofun
    obtain ⟨-, sub, hgrows, hused⟩ := (internalSend_does env hstarts hcreate
      (exec_does env callee (absurd trivial)) fromAddr toAddr method value params).evolves
    exact ⟨sub, hgrows.log_eq, hused⟩
  have hsettled : ∀ err, r = .error err → err.isSettlement = false := by
    rintro err rfl
    obtain ⟨_, hret, -⟩ | ⟨_, herr, hsettlement⟩ := hcases
    · cases hret
    · cases herr
      exact hsettlement
  refine ⟨fun herr => ?_, fun e herr => ?_, fun herr => ?_, ?_⟩
  · cases hsettled _ herr
  · cases hsettled _ herr
  · cases hsettled _ herr
  · rintro ret rfl hstarts
    obtain ⟨id, act, start, es', v, happlied⟩ := applyMessage_ok_of_starts hstarts h
    obtain rfl : es' = es := List.append_cancel_left (happlied.log_eq.symm.trans hlog)
    obtain ⟨hlow, hhigh, -⟩ := hbounds ret rfl
    refine ⟨id, act, start, v, happlied.started, happlied.run, happlied.undone, ?_⟩
    rw [happlied.view_eq]
    exact settled_eq_credits (Int64.le_iff_toInt_le.mp hlow) (Int64.le_iff_toInt_le.mp hhigh)

/-- The event is no deletion, and no charge below zero. -/
def Event.mild : Event → Bool
  | .deleted _ => false
  | .charged gas => 0 ≤ gas.total
  | _ => true

/-- The sample message whose call is reverted pays for all of it. -/
theorem sampleMsg_gas_bound :
    ∃ ret vm', applyMessage sampleEnv sampleAbort sampleMsg sampleVM = (.ok ret, vm') ∧
      GasAssumptions sampleEnv sampleMsg sampleVM vm'.log ∧ ret.receipt.exitCode = 17 ∧
      0 ≤ ret.receipt.gasUsed ∧ ret.receipt.gasUsed ≤ 3000000 ∧
      ret.receipt.gasUsed = clampGas (meterAll 3000000 0 vm'.log) := by
  set out := applyMessage sampleEnv sampleAbort sampleMsg sampleVM
  have hret : out.1 = .ok ⟨⟨17, [], 1005929⟩, some (.newf 17 "refused"), 0⟩ := by decide +kernel
  have hok : out = (.ok ⟨⟨17, [], 1005929⟩, some (.newf 17 "refused"), 0⟩, out.2) :=
    Prod.ext hret rfl
  have hmild : ∀ e ∈ out.2.log, e.mild = true := by decide +kernel
  have hgas : GasAssumptions sampleEnv sampleMsg sampleVM out.2.log :=
    { limit_pos := by decide
      limit_le := by decide
      returned := fun n hmem => of_decide_eq_true (hmild _ hmem)
      reward_isSome := by decide +kernel
      reward_kept := fun hmem => Bool.false_ne_true (hmild _ hmem)
      sender_kept := fun id _ hmem => Bool.false_ne_true (hmild _ hmem) }
  obtain ⟨hbound, -⟩ := applyMessage_gas_bound hok rfl hgas
  exact ⟨_, _, hok, hgas, rfl, hbound _ rfl⟩

end Lotus
