import Lotus.Vm.Apply
import Lotus.Vm.Frames

/-!
# The phases of `ApplyMessage`

What each phase of `ApplyMessage` leaves, in terms of the view of the state tree.
-/

namespace Lotus

open VM Machine StateTree Act Total List Function Option

/-! ## Payments from the gas holder -/

/-- The ledger after `amt` was paid to the actor at `a`. -/
def Ledger.credit (v : Ledger) (a : Address) (amt : ℤ) : Ledger :=
  update v a ((v a).map fun act => depositFunds act amt)

namespace Ledger

variable {v : Ledger} {a : Address} {amt : ℤ}

lemma isSome_credit (v : Ledger) (a : Address) (amt : ℤ) (b : Address) :
    (v.credit a amt b).isSome = (v b).isSome := by
  unfold credit
  grind

lemma finite_credit (hv : {b | v b ≠ none}.Finite) : {b | v.credit a amt b ≠ none}.Finite :=
  finite_update hv _ _

lemma supply_credit (hv : {b | v b ≠ none}.Finite) (ha : (v a).isSome) :
    Run.supply (v.credit a amt) = Run.supply v + amt := by
  obtain ⟨act, hact⟩ := isSome_iff_exists.mp ha
  rw [credit, Run.supply, Run.supply, total_update _ hv, hact]
  simp only [map_some, elim_some, depositFunds]
  omega

lemma solvent_credit (hv : Run.Solvent v) (hamt : 0 ≤ amt) : Run.Solvent (v.credit a amt) := by
  unfold credit
  cases hact : v a with
  | none =>
    rwa [map_none, ← hact, update_eq_self]
  | some act =>
    have hpos := hv a act hact
    apply hv.update
    simp only [depositFunds]
    omega

def SameNonces (v v' : Ledger) : Prop :=
  ∀ a act, v a = some act → ∃ act', v' a = some act' ∧ act'.nonce = act.nonce ∧ act'.code = act.code

lemma SameNonces.refl (v : Ledger) : SameNonces v v := fun _ act ha => ⟨act, ha, rfl, rfl⟩

lemma SameNonces.trans {v1 v2 v3 : Ledger} (h1 : SameNonces v1 v2) (h2 : SameNonces v2 v3) :
    SameNonces v1 v3 := by
  intro a act ha
  obtain ⟨act2, ha2, hnonce2, hcode2⟩ := h1 a act ha
  obtain ⟨act3, ha3, hnonce3, hcode3⟩ := h2 a act2 ha2
  exact ⟨act3, ha3, hnonce3.trans hnonce2, hcode3.trans hcode2⟩

lemma sameNonces_credit (v : Ledger) (a : Address) (amt : ℤ) : SameNonces v (v.credit a amt) := by
  intro b act hb
  unfold credit
  by_cases hba : b = a
  · subst hba
    rw [update_self, hb]
    exact ⟨_, rfl, rfl, rfl⟩
  · grind

end Ledger

open Ledger

variable {env : Env}

variable {id : Address} {vm : VM} {gasHolder : Actor}

lemma transferFromGasHolder_of_le {addr : Address} {amt : ℤ}
    (hres : Resolves env.init vm.cstate addr id) (hact : (vm.cstate.view id).isSome)
    (hamt : 0 ≤ amt) (hle : amt ≤ gasHolder.balance) :
    ∃ vm', Extends vm [] vm' ∧ vm'.cstate.view = credit vm.cstate.view id amt ∧
      transferFromGasHolder env addr gasHolder amt vm =
        (.ok { gasHolder with balance := gasHolder.balance - amt }, vm') := by
  obtain ⟨act, hview⟩ := isSome_iff_exists.mp hact
  obtain ⟨t, hreads, hrun⟩ := mutateActor_of_resolves hres (fun a => do
    let gasHolder' ← deductFunds gasHolder amt
    pure (depositFunds a amt, gasHolder')) hview
  have hdeduct : deductFunds gasHolder amt =
      .ok { gasHolder with balance := gasHolder.balance - amt } := by
    rw [deductFunds, if_neg (by omega)]
  refine ⟨{ vm with cstate := t.snapsWrite id (.put (depositFunds act amt)) }, .of_write hreads _ _,
    ?_, ?_⟩
  · rw [view_snapsWrite, hreads.view_eq, Ledger.credit, hview]
    rfl
  · rw [transferFromGasHolder, if_neg (by omega), onTree, zoom_apply, hrun, hdeduct]
    rfl

variable {vm' : VM}

lemma transferFromGasHolder_ok {addr : Address} {gasHolder' : Actor} {amt : ℤ}
    (hres : Resolves env.init vm.cstate addr id)
    (h : transferFromGasHolder env addr gasHolder amt vm = (.ok gasHolder', vm')) :
    (vm.cstate.view id).isSome ∧ 0 ≤ amt ∧ amt ≤ gasHolder.balance := by
  have hamt : 0 ≤ amt := by
    by_contra hneg
    rw [transferFromGasHolder, if_pos (by omega)] at h
    cases h
  rw [transferFromGasHolder, if_neg (by omega), onTree, zoom_apply] at h
  rcases mutateActor_cases env.init addr (fun a => do
      let gasHolder' ← deductFunds gasHolder amt
      pure (depositFunds a amt, gasHolder')) vm.cstate with
    ⟨err, t, hrun, -⟩ | ⟨id', t, act, act', out, hreads, hres', hview, hf, -⟩
  · rw [hrun] at h
    cases h
  · have hid : id = id' := hres'.unique (hres.mono hreads.cache_mono)
    subst hid
    refine ⟨by rw [hview]; rfl, hamt, ?_⟩
    by_contra hlt
    rw [deductFunds, if_pos (by omega)] at hf
    cases hf

/-! ## The settlement -/

/-- The ledger after the settlement of a message of the account at `id`. -/
def Ledger.settled (v : Ledger) (msg : Message) (id : Address) (gasUsed : Int64) : Ledger :=
  credit (credit v id (refund msg gasUsed)) rewardActorAddr (gasReward msg gasUsed)

lemma resolves_rewardActorAddr (init : InitActor) (t : StateTree) :
    Resolves init t rewardActorAddr rewardActorAddr := .of_isID init (Address.isID_id 2) t

structure Settles (v : Ledger) (msg : Message) (id : Address) (gasUsed : Int64) (held : ℤ) :
    Prop where
  sender : (v id).isSome
  reward : (v rewardActorAddr).isSome
  refund_nonneg : 0 ≤ refund msg gasUsed
  gasReward_nonneg : 0 ≤ gasReward msg gasUsed
  sum_eq : refund msg gasUsed + gasReward msg gasUsed = held

variable {msg : Message}

lemma settle_of_settles {gasUsed : Int64} (hres : Resolves env.init vm.cstate msg.fromAddr id)
    (h : Settles vm.cstate.view msg id gasUsed gasHolder.balance) :
    ∃ vm', Extends vm [] vm' ∧ vm'.cstate.view = settled vm.cstate.view msg id gasUsed ∧
      settle env msg gasHolder gasUsed vm = (.ok (), vm') := by
  obtain ⟨hsender, hreward, hrefund, hpaid, hsum⟩ := h
  have hcovered : refund msg gasUsed ≤ gasHolder.balance := by omega
  obtain ⟨vm1, hext1, hview1, hrun1⟩ := transferFromGasHolder_of_le hres hsender hrefund hcovered
  have hreward1 : (vm1.cstate.view rewardActorAddr).isSome := by
    rwa [hview1, isSome_credit]
  set left : Actor :=
    { gasHolder with balance := gasHolder.balance - refund msg gasUsed } with hleft
  have hle : gasReward msg gasUsed ≤ left.balance := by
    simp only [hleft]
    omega
  obtain ⟨vm2, hext2, hview2, hrun2⟩ :=
    transferFromGasHolder_of_le (resolves_rewardActorAddr env.init _) hreward1 hpaid hle
  refine ⟨vm2, hext1.trans hext2, ?_, ?_⟩
  · rw [hview2, hview1]
    rfl
  · have hempty : ¬left.balance - gasReward msg gasUsed ≠ 0 := by
      simp only [hleft]
      omega
    rw [settle, bind_of_ok (mapError_of_ok hrun1), bind_of_ok (mapError_of_ok hrun2), if_neg hempty]
    rfl

lemma settle_ok {gasUsed : Int64} (hres : Resolves env.init vm.cstate msg.fromAddr id)
    (h : settle env msg gasHolder gasUsed vm = (.ok (), vm')) :
    Settles vm.cstate.view msg id gasUsed gasHolder.balance := by
  obtain ⟨holder1, vm1, hrun1, h⟩ := bind_eq_ok h
  obtain ⟨holder2, vm2, hrun2, h⟩ := bind_eq_ok h
  have hpay1 := mapError_eq_ok hrun1
  have hpay2 := mapError_eq_ok hrun2
  have hres1 := resolves_rewardActorAddr env.init vm1.cstate
  obtain ⟨hsender, hrefund, hle1⟩ := transferFromGasHolder_ok hres hpay1
  obtain ⟨hreward, hpaid, hle2⟩ := transferFromGasHolder_ok hres1 hpay2
  -- both payments are determined, so the two gas holders are known
  obtain ⟨_, -, hview1, hsame1⟩ := transferFromGasHolder_of_le hres hsender hrefund hle1
  obtain ⟨_, -, -, hsame2⟩ := transferFromGasHolder_of_le hres1 hreward hpaid hle2
  rw [hpay1] at hsame1
  rw [hpay2] at hsame2
  cases hsame1
  cases hsame2
  have hempty : gasHolder.balance - refund msg gasUsed - gasReward msg gasUsed = 0 := by
    by_contra hne
    rw [if_pos hne] at h
    cases h
  rw [hview1, isSome_credit] at hreward
  exact ⟨hsender, hreward, hrefund, hpaid, by omega⟩

/-- What a payment does to a VM, whether it goes through or not: nothing but balances change. -/
structure PaysOut (vm vm' : VM) : Prop extends Extends vm [] vm' where
  nonces : SameNonces vm.cstate.view vm'.cstate.view

instance : IsPreorder VM PaysOut where
  refl vm := ⟨.refl vm, .refl _⟩
  trans _ _ _ h1 h2 := ⟨h1.toExtends.trans h2.toExtends, h1.nonces.trans h2.nonces⟩

lemma transferFromGasHolder_paysOut (env : Env) (addr : Address) (gasHolder : Actor) (amt : ℤ) :
    Keeps PaysOut (transferFromGasHolder env addr gasHolder amt) := by
  refine Keeps.ite (fun _ => Keeps.fail _) fun _ vm => ?_
  rw [onTree, zoom_apply]
  rcases mutateActor_cases env.init addr (fun a => do
      let gasHolder' ← deductFunds gasHolder amt
      pure (depositFunds a amt, gasHolder')) vm.cstate with
    ⟨err, t, hrun, hreads⟩ | ⟨id, t, act, act', out, hreads, -, hview, hf, hrun⟩
  · rw [hrun]
    refine ⟨.of_reads hreads, ?_⟩
    rw [hreads.view_eq]
    exact .refl _
  · obtain rfl : act' = depositFunds act amt := by
      rcases hdeduct : deductFunds gasHolder amt with e | holder <;> simp_all
    rw [hrun]
    refine ⟨.of_write hreads _ _, ?_⟩
    have hcredit : (t.snapsWrite id (.put (depositFunds act amt))).view =
        credit vm.cstate.view id amt := by
      rw [view_snapsWrite, hreads.view_eq, credit, hview]
      rfl
    show SameNonces _ (t.snapsWrite id (.put (depositFunds act amt))).view
    rw [hcredit]
    exact sameNonces_credit _ id amt

lemma settle_paysOut (env : Env) (msg : Message) (gasHolder : Actor) (gasUsed : Int64) :
    Keeps PaysOut (settle env msg gasHolder gasUsed) := by
  refine Keeps.bind (Keeps.mapError _ (transferFromGasHolder_paysOut env _ _ _)) fun holder => ?_
  simp [Keeps.bind, Keeps.mapError, transferFromGasHolder_paysOut, Keeps.ite, Keeps.fail,
    Keeps.pure]

lemma settle_log (env : Env) (msg : Message) (gasHolder : Actor) (gasUsed : Int64) (vm : VM) :
    (settle env msg gasHolder gasUsed vm).2.log = vm.log :=
  (settle_paysOut env msg gasHolder gasUsed vm).log_eq.trans (append_nil _)

/-- How the execution of a message ends: with a Go error, with a return value, or with an actor
error that undoes it. The gas used is the meter run over every charge that was recorded. -/
lemma execute_cases (env : Env) (b : Behaviour) (cmsg : ChainMsg) (vm : VM) :
    ∃ es vm', Grows vm es vm' ∧ ((∃ e, execute env b cmsg vm = (.error (.fatal e), vm')) ∨
        (∃ p, execute env b cmsg vm = (.error (.panic p), vm')) ∨
        (∃ ret, execute env b cmsg vm =
          (.ok ⟨none, ret, meterAll cmsg.vmMessage.gasLimit 0 es⟩, vm')) ∨
        (∃ e, execute env b cmsg vm =
          (.ok ⟨some e, [], meterAll cmsg.vmMessage.gasLimit 0 es⟩, vm'.revert))) := by
  obtain ⟨es, hgrows, hrt⟩ := send_grows env b cmsg.vmMessage
    (some ((pricelistByEpoch vm.blockHeight).onChainMessage cmsg.chainLength)) vm rfl
  unfold execute
  simp only
  set out := Runtime.send env cmsg.vmMessage none _ _ _ vm
  rcases hout : out.result with p | ⟨e | ret, rt⟩
  · exact ⟨es, out.vm, hgrows, Or.inr (Or.inl ⟨p, rfl⟩)⟩
  · obtain ⟨hgas, -⟩ := hrt _ _ hout
    refine ⟨es, out.vm, hgrows, ?_⟩
    simp only
    by_cases hfatal : e.fatal
    · exact Or.inl ⟨e, by rw [if_pos hfatal]⟩
    · exact Or.inr (Or.inr (Or.inr ⟨e, by rw [if_neg hfatal, hgas]⟩))
  · obtain ⟨hgas, havail⟩ := hrt _ _ hout
    simp only
    by_cases hret : ret = []
    · refine ⟨es, out.vm, hgrows, Or.inr (Or.inr (Or.inl ⟨ret, ?_⟩))⟩
      rw [if_pos hret, hgas]
    · -- the charge for the return value is one more event of the frame
      rw [if_neg hret]
      set charge := (pricelistByEpoch rt.height).onChainReturnValue ret.length
      have hmeter : meter rt.gasAvailable rt.gasUsed charge.total =
          meterAll cmsg.vmMessage.gasLimit 0 (es ++ [.charged charge]) := by
        rw [meterAll_append, hgas, havail]
        rfl
      refine ⟨es ++ [.charged charge], { out.vm with log := out.vm.log ++ [.charged charge] },
        hgrows.trans (.of_note out.vm (e := .charged charge) trivial), ?_⟩
      by_cases hout : OutOfGas rt.gasAvailable rt.gasUsed charge.total
      · refine Or.inr (Or.inr (Or.inr
          ⟨.newf ExitCode.sysErrOutOfGas "not enough gas: used=%d, available=%d", ?_⟩))
        rw [Runtime.chargeGasInternal, if_pos hout, ← hmeter]
      · refine Or.inr (Or.inr (Or.inl ⟨ret, ?_⟩))
        rw [Runtime.chargeGasInternal, if_neg hout, ← hmeter]

variable {cmsg : ChainMsg} {b : Behaviour}

/-- An execution under a snapshot that comes back with a result: the ledger went along a run, which
is undone if there was an actor error. -/
lemma execute_ok {start : VM} {r : Executed}
    (h : execute env b cmsg start.snapshot = (.ok r, vm')) :
    ∃ es, Extends start.snapshot es vm' ∧ Run start.cstate.view es vm'.cstate.view ∧
      (r.actorErr ≠ none → vm'.cstate.view = start.cstate.view) ∧
      r.gasUsed = meterAll cmsg.vmMessage.gasLimit 0 es := by
  obtain ⟨es, vm1, hgrows, hcases⟩ := execute_cases env b cmsg start.snapshot
  have hrun := hgrows.run
  rw [VM.snapshot, view_snapshot] at hrun
  rcases hcases with ⟨e, heq⟩ | ⟨p, heq⟩ | ⟨ret, heq⟩ | ⟨e, heq⟩
  · rw [heq] at h
    cases h
  · rw [heq] at h
    cases h
  · grind [hgrows.toExtends]
  · grind [hgrows.toExtends.view_revert, hgrows.toExtends.revert, hrun.revert]

lemma execute_error {err : ApplyErr} (h : execute env b cmsg vm = (.error err, vm')) :
    (∃ es, Extends vm es vm') ∧ ((∃ e, err = .fatal e) ∨ ∃ p, err = .panic p) := by
  obtain ⟨es, vm1, hgrows, hcases⟩ := execute_cases env b cmsg vm
  grind [hgrows.toExtends]

/-! ## The checks and the withdrawal -/

/-- The message passes every check of `ApplyMessage` before its execution. -/
def Starts (env : Env) (cmsg : ChainMsg) (vm : VM) : Prop :=
  checkMessage cmsg.vmMessage = .ok () ∧ (precheck env cmsg vm).1 = .ok none ∧
    0 ≤ gasCost cmsg.vmMessage
deriving Decidable

def ApplyErr.isSettlement : ApplyErr → Bool
  | refund | reward _ | gasMath => true
  | checkMessage _ | lookUpFrom _ | withdraw _ | incrementNonce _ | fatal _ | panic _ => false

lemma checkMessage_error {err : ApplyErr} (h : checkMessage msg = .error err) :
    err.isSettlement = false := by
  unfold checkMessage at h
  split_ifs at h <;> cases h <;> rfl

def Rejection (ret : ApplyRet) : Prop := ret.receipt.exitCode ≠ 0 ∧ ret.receipt.gasUsed = 0

variable {act : Actor}

lemma checkSender_eq_none_iff {penalty : ℤ} : checkSender env msg penalty act = none ↔
      act.code = env.accountActorCodeID ∧ msg.nonce = act.nonce ∧ gasCost msg ≤ act.balance := by
  unfold checkSender
  split_ifs with hcode hnonce hbalance
  · exact ⟨nofun, fun h => absurd h.1 hcode⟩
  · exact ⟨nofun, fun h => absurd h.2.1 hnonce⟩
  · refine ⟨nofun, fun h => ?_⟩
    omega
  · exact ⟨fun _ => ⟨not_not.mp hcode, not_not.mp hnonce, by omega⟩, fun _ => rfl⟩

variable {ret : ApplyRet}

lemma checkSender_some {penalty : ℤ} (h : checkSender env msg penalty act = some ret) :
    Rejection ret := by
  unfold checkSender at h
  have hinvalid : ExitCode.sysErrSenderInvalid ≠ 0 := by decide
  have hstate : ExitCode.sysErrSenderStateInvalid ≠ 0 := by decide
  split_ifs at h
  · cases h
    exact ⟨hinvalid, rfl⟩
  · cases h
    exact ⟨hstate, rfl⟩
  · cases h
    exact ⟨hstate, rfl⟩

lemma precheck_of_gt (h : msgGasCost cmsg vm > cmsg.vmMessage.gasLimit) : precheck env cmsg vm =
      (.ok (some (rejected ExitCode.sysErrOutOfGas none (minerPenaltyAmount cmsg vm))), vm) := by
  rw [precheck, bind_of_ok (show (get : Act VM ApplyErr VM) vm = (.ok vm, vm) from rfl), if_pos h]
  rfl

/-- Where the message can pay for being on chain, the checks look the sender up. -/
lemma precheck_of_le (h : ¬msgGasCost cmsg vm > cmsg.vmMessage.gasLimit)
    {r : Except TreeErr Actor} {t : StateTree}
    (hget : getActor env.init cmsg.vmMessage.fromAddr vm.cstate = (r, t)) :
    precheck env cmsg vm = (match r with
        | .error err =>
          if err.isNotFound then
            .ok (some (rejected ExitCode.sysErrSenderInvalid
              (some (.newf ExitCode.sysErrSenderInvalid "actor not found: %s"))
              (minerPenaltyAmount cmsg vm)))
          else .error (.lookUpFrom err)
        | .ok act => .ok (checkSender env cmsg.vmMessage (minerPenaltyAmount cmsg vm) act),
        { vm with cstate := t }) := by
  have hrun : (onTree (getActor env.init cmsg.vmMessage.fromAddr)).attempt vm =
      ((.ok r : Except ApplyErr _), { vm with cstate := t }) := by
    rw [attempt_apply, onTree, zoom_apply, hget]
  rw [precheck, bind_of_ok (show (get : Act VM ApplyErr VM) vm = (.ok vm, vm) from rfl),
    if_neg h, bind_of_ok hrun]
  cases r with
  | error err =>
    simp only
    split <;> rfl
  | ok act => rfl

/-- The checks only read. When they let a message pass, its sender is an account with its nonce that
can pay for its gas. -/
lemma precheck_cases (env : Env) (cmsg : ChainMsg) (vm : VM) :
    ∃ t, Reads vm.cstate t ∧ (precheck env cmsg vm).2 = { vm with cstate := t } ∧
      ((precheck env cmsg vm).1 = .ok none → ∃ id act,
        (lookupID env.init cmsg.vmMessage.fromAddr vm.cstate).1 = .ok id ∧
        Resolves env.init t cmsg.vmMessage.fromAddr id ∧ vm.cstate.view id = some act ∧
        act.code = env.accountActorCodeID ∧ cmsg.vmMessage.nonce = act.nonce ∧
        gasCost cmsg.vmMessage ≤ act.balance) ∧
      (∀ ret, (precheck env cmsg vm).1 = .ok (some ret) → Rejection ret) ∧
      ∀ err, (precheck env cmsg vm).1 = .error err → err.isSettlement = false := by
  by_cases hgas : msgGasCost cmsg vm > cmsg.vmMessage.gasLimit
  · rw [precheck_of_gt hgas]
    refine ⟨vm.cstate, .refl _, rfl, nofun, fun ret hret => ?_, nofun⟩
    cases hret
    have hcode : ExitCode.sysErrOutOfGas ≠ 0 := by decide
    exact ⟨hcode, rfl⟩
  rcases hget : getActor env.init cmsg.vmMessage.fromAddr vm.cstate with ⟨err | act, t⟩
  · rw [precheck_of_le hgas hget]
    refine ⟨t, (getActor_error hget).1, rfl, ?_⟩
    simp only
    split_ifs
    · refine ⟨nofun, fun ret hret => ?_, nofun⟩
      cases hret
      have hcode : ExitCode.sysErrSenderInvalid ≠ 0 := by decide
      exact ⟨hcode, rfl⟩
    · refine ⟨nofun, nofun, fun err herr => ?_⟩
      cases herr
      rfl
  · obtain ⟨id, hreads, hres, hview⟩ := getActor_ok hget
    rw [precheck_of_le hgas hget]
    refine ⟨t, hreads, rfl, fun hnone => ?_, fun ret hret => checkSender_some (Except.ok.inj hret),
      nofun⟩
    exact ⟨id, act, lookupID_of_getActor_ok hget hres, hres, hview,
      checkSender_eq_none_iff.mp (Except.ok.inj hnone)⟩

/-- A message that does not start changes nothing. If it gets a receipt, it is a rejection. -/
lemma applyMessage_of_not_starts (h : ¬Starts env cmsg vm) :
    ∃ r t, Reads vm.cstate t ∧ applyMessage env b cmsg vm = (r, { vm with cstate := t }) ∧
      (∀ ret, r = .ok ret → Rejection ret) ∧ ∀ err, r = .error err → err.isSettlement = false := by
  unfold applyMessage
  rcases hcheck : checkMessage cmsg.vmMessage with err | u
  · refine ⟨.error err, vm.cstate, .refl _, bind_of_error rfl, nofun, fun err' herr => ?_⟩
    cases herr
    exact checkMessage_error hcheck
  rw [bind_of_ok (show (ofExcept (.ok u) : Act VM ApplyErr Unit) vm = (.ok u, vm) from rfl)]
  obtain ⟨t, hreads, hstate, hpass, hreject, herror⟩ := precheck_cases env cmsg vm
  rcases hpre : precheck env cmsg vm with ⟨err | r, vm1⟩
  · rw [hpre] at hstate herror
    refine ⟨.error err, t, hreads, by rw [bind_of_error hpre, ← hstate], nofun, fun err' h' => ?_⟩
    cases h'
    exact herror err rfl
  rw [hpre] at hstate hreject
  obtain rfl : vm1 = { vm with cstate := t } := hstate
  rw [bind_of_ok hpre]
  cases r with
  | some ret =>
    refine ⟨.ok ret, t, hreads, rfl, fun ret' hret => ?_, nofun⟩
    cases hret
    exact hreject ret rfl
  | none =>
    -- only a negative gas price is left, and the withdrawal refuses it
    have hneg : gasCost cmsg.vmMessage < 0 := by
      by_contra hpos
      exact h ⟨hcheck, by rw [hpre], by omega⟩
    refine ⟨.error (.withdraw (.other "attempted to transfer negative value to gas holder")), t,
      hreads, ?_, nofun, fun err herr => ?_⟩
    · apply bind_of_error
      apply mapError_of_error
      rw [transferToGasHolder, if_pos hneg]
      rfl
    · cases herr
      rfl

/-- The state in which the execution of a message starts: the gas is withdrawn from the sender's
account, at `id`, and its nonce is incremented. -/
structure Started (env : Env) (cmsg : ChainMsg) (vm : VM) (id : Address) (act : Actor)
    (start : VM) :
    Prop extends Extends vm [] start where
  lookupID_eq : (lookupID env.init cmsg.vmMessage.fromAddr vm.cstate).1 = .ok id
  resolves : Resolves env.init start.cstate cmsg.vmMessage.fromAddr id
  sender_eq : vm.cstate.view id = some act
  nonce_eq : cmsg.vmMessage.nonce = act.nonce
  cost_nonneg : 0 ≤ gasCost cmsg.vmMessage
  cost_le : gasCost cmsg.vmMessage ≤ act.balance
  view_eq : start.cstate.view = update vm.cstate.view id (some
    { act with nonce := act.nonce + 1, balance := act.balance - gasCost cmsg.vmMessage })

lemma applyMessage_of_starts (h : Starts env cmsg vm) (b : Behaviour) :
    ∃ id act start gasHolder, Started env cmsg vm id act start ∧
      gasHolder.balance = gasCost cmsg.vmMessage ∧
      applyMessage env b cmsg vm = ((executeAndSettle env b cmsg gasHolder start.snapshot).1,
          (executeAndSettle env b cmsg gasHolder start.snapshot).2.clearSnapshot) := by
  obtain ⟨hcheck, hpass, hcost⟩ := h
  obtain ⟨t, hreads, hstate, hsender, -, -⟩ := precheck_cases env cmsg vm
  obtain ⟨id, act, hlookup, hres, hview, -, hnonce, hle⟩ := hsender hpass
  have hpre : precheck env cmsg vm = (.ok none, { vm with cstate := t }) := Prod.ext hpass hstate
  set msg := cmsg.vmMessage with hmsg
  have hview0 : t.view id = some act := by rw [hreads.view_eq, hview]
  -- the withdrawal
  set act1 : Actor := { act with balance := act.balance - gasCost msg } with hact1
  have hdeduct : deductFunds act (gasCost msg) = .ok act1 := by
    rw [deductFunds, if_neg (by omega)]
  obtain ⟨t1, hreads1, hrun1⟩ := mutateActor_of_resolves hres (fun a => do
    let a' ← deductFunds a (gasCost msg)
    pure (a', depositFunds emptyGasHolder (gasCost msg))) hview0
  rw [hdeduct] at hrun1
  have hwithdraw : transferToGasHolder env msg.fromAddr emptyGasHolder (gasCost msg)
      { vm with cstate := t } = (.ok (depositFunds emptyGasHolder (gasCost msg)),
        { vm with cstate := t1.snapsWrite id (.put act1) }) := by
    rw [transferToGasHolder, if_neg (by omega), onTree, zoom_apply, hrun1]
    rfl
  -- the nonce
  have hres1 : Resolves env.init (t1.snapsWrite id (.put act1)) msg.fromAddr id :=
    (hres.mono hreads1.cache_mono).snapsWrite _ _
  have hview1 : (t1.snapsWrite id (.put act1)).view id = some act1 := by simp
  obtain ⟨t2, hreads2, hrun2⟩ := mutateActor_of_resolves hres1
    (fun a => pure ({ a with nonce := a.nonce + 1 }, ())) hview1
  set act2 : Actor := { act1 with nonce := act1.nonce + 1 } with hact2
  set start : VM := { vm with cstate := t2.snapsWrite id (.put act2) } with hstart
  have hincrement : incrementNonce env msg.fromAddr
      { vm with cstate := t1.snapsWrite id (.put act1) } = (.ok (), start) := by
    rw [incrementNonce, onTree, zoom_apply, hrun2]
    rfl
  have hext1 : Extends { vm with cstate := t } []
      { vm with cstate := t1.snapsWrite id (.put act1) } := .of_write hreads1 id _
  have hext2 : Extends { vm with cstate := t1.snapsWrite id (.put act1) } [] start :=
    .of_write hreads2 id _
  have hext : Extends vm [] start := ((Extends.of_reads hreads).trans hext1).trans hext2
  refine ⟨id, act, start, depositFunds emptyGasHolder (gasCost msg),
    ⟨hext, hlookup, (hres1.mono hreads2.cache_mono).snapsWrite _ _, hview, hnonce, hcost, hle, ?_⟩,
      ?_, ?_⟩
  · simp_all [view_snapsWrite, hreads2.view_eq, hreads1.view_eq, hreads.view_eq, update_idem]
  · show 0 + gasCost msg = gasCost msg
    omega
  · have hchecked : (ofExcept (.ok ()) : Act VM ApplyErr Unit) vm = (.ok (), vm) := rfl
    rw [applyMessage, hcheck, bind_of_ok hchecked, bind_of_ok hpre]
    simp only
    rw [bind_of_ok (mapError_of_ok hwithdraw), bind_of_ok (mapError_of_ok hincrement)]
    rfl

lemma Started.resolves_snapshot {start : VM} (h : Started env cmsg vm id act start) :
    Resolves env.init start.snapshot.cstate cmsg.vmMessage.fromAddr id := by
  refine h.resolves.mono fun a s hs => ?_
  rwa [VM.snapshot, resolveAddress_snapshot]

/-- The course of a message that started and came back with a receipt: actor code took the ledger to
`v`, or was undone, and the gas was settled there. -/
structure Applied (env : Env) (cmsg : ChainMsg) (vm : VM) (ret : ApplyRet) (vm' : VM) (id : Address)
    (act : Actor) (start : VM) (es : List Event) (v : Ledger) : Prop extends Extends vm es vm' where
  started : Started env cmsg vm id act start
  run : Run start.cstate.view es v
  undone : ret.receipt.exitCode ≠ 0 → v = start.cstate.view
  settles : Settles v cmsg.vmMessage id ret.receipt.gasUsed (gasCost cmsg.vmMessage)
  view_eq : vm'.cstate.view = settled v cmsg.vmMessage id ret.receipt.gasUsed
  gasUsed_eq : ret.receipt.gasUsed = clampGas (meterAll cmsg.vmMessage.gasLimit 0 es)

lemma applyMessage_ok_of_starts (hstarts : Starts env cmsg vm)
    (h : applyMessage env b cmsg vm = (.ok ret, vm')) :
    ∃ id act start es v, Applied env cmsg vm ret vm' id act start es v := by
  obtain ⟨id, act, start, gasHolder, hstarted, hheld, happly⟩ := applyMessage_of_starts hstarts b
  rw [happly, Prod.mk.injEq] at h
  obtain ⟨hret, rfl⟩ := h
  rcases hrun : executeAndSettle env b cmsg gasHolder start.snapshot with ⟨r, vm2⟩
  rw [hrun] at hret
  obtain rfl : r = .ok ret := hret
  obtain ⟨x, vm1, hexec, hrest⟩ := bind_eq_ok hrun
  obtain ⟨_, vm3, hsettle, hpure⟩ := bind_eq_ok hrest
  cases hpure
  obtain ⟨es, hext, hledger, hundone, hgas⟩ := execute_ok hexec
  have hres := hext.resolves hstarted.resolves_snapshot
  have hsettles := settle_ok hres hsettle
  obtain ⟨vm4, hext4, hview, hsame⟩ := settle_of_settles hres hsettles
  rw [hsettle] at hsame
  cases hsame
  have hall : Extends start.snapshot es vm2 := by
    have htrans := hext.trans hext4
    rwa [append_nil] at htrans
  obtain ⟨hclear, hclosed⟩ := hall.close
  refine ⟨id, act, start, es, vm1.cstate.view, hstarted.toExtends.trans hclosed, hstarted, hledger,
    fun hcode => ?_, ?_, ?_, ?_⟩
  · apply hundone
    rintro hnone
    apply hcode
    simp only [hnone]
    rfl
  · rwa [← hheld]
  · rwa [hclear]
  · simp only [clampGas, ← hgas]

lemma executeAndSettle_run (env : Env) (b : Behaviour) (cmsg : ChainMsg) (gasHolder : Actor)
    (start : VM) :
    ∃ es v, Extends start.snapshot es (executeAndSettle env b cmsg gasHolder start.snapshot).2 ∧
      Run start.cstate.view es v ∧
      SameNonces v (executeAndSettle env b cmsg gasHolder start.snapshot).2.cstate.view := by
  rcases hexec : execute env b cmsg start.snapshot with ⟨err | r, vm1⟩
  · obtain ⟨es, vm', hgrows, hcases⟩ := execute_cases env b cmsg start.snapshot
    have hvm' : vm' = vm1 := by grind
    subst hvm'
    have hrun := hgrows.run
    rw [VM.snapshot, view_snapshot] at hrun
    rw [executeAndSettle, bind_of_error hexec]
    exact ⟨es, _, hgrows.toExtends, hrun, .refl _⟩
  · obtain ⟨es, hext, hrun, -, -⟩ := execute_ok hexec
    have hsettle : PaysOut vm1 (executeAndSettle env b cmsg gasHolder start.snapshot).2 := by
      rw [executeAndSettle, bind_of_ok hexec]
      exact Keeps.bind (settle_paysOut env _ _ _) (fun _ => Keeps.pure _) vm1
    have hall := hext.trans hsettle.toExtends
    rw [append_nil] at hall
    exact ⟨es, vm1.cstate.view, hall, hrun, hsettle.nonces⟩

lemma applyMessage_nonces {es : List Event}
    (hlog : (applyMessage env b cmsg vm).2.log = vm.log ++ es) {a : Address}
    (ha : vm.cstate.view a = some act) (hdel : .deleted a ∉ es) (hfresh : Run.FreshIDs es) :
    ∃ act', (applyMessage env b cmsg vm).2.cstate.view a = some act' ∧ act'.code = act.code ∧
      act'.nonce = act.nonce + UInt64.ofNat
        (if Starts env cmsg vm ∧ (lookupID env.init cmsg.vmMessage.fromAddr vm.cstate).1 = .ok a
          then 1 else 0) := by
  by_cases hstarts : Starts env cmsg vm
  · obtain ⟨id, sender, start, gasHolder, hstarted, -, happly⟩ := applyMessage_of_starts hstarts b
    obtain ⟨es', v, hext, hrun, hnonces⟩ := executeAndSettle_run env b cmsg gasHolder start
    obtain ⟨hclear, hclosed⟩ := hext.close
    obtain rfl : es' = es := by
      rw [happly] at hlog
      have hlog' := (hstarted.toExtends.trans hclosed).log_eq
      exact append_cancel_left (hlog'.symm.trans hlog)
    -- the actor when execution starts
    obtain ⟨act0, hact0, hcode0, hnonce0⟩ : ∃ act0, start.cstate.view a = some act0 ∧
        act0.code = act.code ∧ act0.nonce = act.nonce + UInt64.ofNat (if a = id then 1 else 0) := by
      rw [hstarted.view_eq]
      by_cases hid : a = id
      · subst hid
        rw [hstarted.sender_eq] at ha
        cases ha
        rw [update_self, if_pos rfl]
        exact ⟨_, rfl, rfl, rfl⟩
      · rw [update_of_ne hid, if_neg hid]
        exact ⟨act, ha, rfl, (UInt64.add_zero _).symm⟩
    obtain ⟨act1, hact1, hnonce1, hcode1⟩ := hrun.nonce_eq hact0 hdel hfresh
    obtain ⟨act2, hact2, hnonce2, hcode2⟩ := hnonces a act1 hact1
    rw [happly]
    refine ⟨act2, by rw [hclear]; exact hact2, hcode2.trans (hcode1.trans hcode0), ?_⟩
    have hsame : (Starts env cmsg vm ∧
        (lookupID env.init cmsg.vmMessage.fromAddr vm.cstate).1 = .ok a) ↔ a = id := by
      rw [hstarted.lookupID_eq, Except.ok.injEq]
      exact ⟨fun hboth => hboth.2.symm, fun heq => ⟨hstarts, heq.symm⟩⟩
    simp only [hsame]
    rw [hnonce2, hnonce1, hnonce0]
  · obtain ⟨r, t, hreads, hrun, -, -⟩ := applyMessage_of_not_starts (b := b) hstarts
    rw [hrun]
    refine ⟨act, by rw [← ha]; exact congrFun hreads.view_eq a, rfl, ?_⟩
    rw [if_neg fun hboth => hstarts hboth.1]
    exact (UInt64.add_zero _).symm

lemma applyMessage_extends (env : Env) (b : Behaviour) (cmsg : ChainMsg) (vm : VM) :
    ∃ es v v', Extends vm es (applyMessage env b cmsg vm).2 ∧ Run v es v' := by
  by_cases hstarts : Starts env cmsg vm
  · obtain ⟨id, sender, start, gasHolder, hstarted, -, happly⟩ := applyMessage_of_starts hstarts b
    obtain ⟨es, v, hext, hrun, -⟩ := executeAndSettle_run env b cmsg gasHolder start
    rw [happly]
    exact ⟨es, _, v, hstarted.toExtends.trans hext.close.2, hrun⟩
  · obtain ⟨r, t, hreads, hrun, -, -⟩ := applyMessage_of_not_starts (b := b) hstarts
    rw [hrun]
    exact ⟨[], _, _, .of_reads hreads, .refl vm.cstate.view⟩

def messageEvents (env : Env) (b : Behaviour) (cmsg : ChainMsg) (vm : VM) : List Event :=
  (applyMessage env b cmsg vm).2.log.drop vm.log.length

lemma applyMessage_log_eq (env : Env) (b : Behaviour) (cmsg : ChainMsg) (vm : VM) :
    (applyMessage env b cmsg vm).2.log = vm.log ++ messageEvents env b cmsg vm := by
  obtain ⟨es, -, -, hext, -⟩ := applyMessage_extends env b cmsg vm
  rw [messageEvents, hext.log_eq, drop_left]

lemma applyMessage_nonce (h : applyMessage env b cmsg vm = (.ok ret, vm')) {a : Address}
    (ha : vm.cstate.view a = some act) (hdel : .deleted a ∉ vm'.log)
    (hfresh : Run.FreshIDs vm'.log) :
    ∃ act', vm'.cstate.view a = some act' ∧ act'.code = act.code ∧
      act'.nonce = act.nonce + UInt64.ofNat
        (if Starts env cmsg vm ∧ (lookupID env.init cmsg.vmMessage.fromAddr vm.cstate).1 = .ok a
          then 1 else 0) := by
  have hlog := applyMessage_log_eq env b cmsg vm
  have hlog' := hlog
  rw [h] at hlog'
  rw [hlog'] at hdel hfresh
  have hnonces := applyMessage_nonces hlog ha (fun hmem => hdel (mem_append_right _ hmem))
    hfresh.right
  rw [h] at hnonces
  exact hnonces

end Lotus
