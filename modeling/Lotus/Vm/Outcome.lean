import Lotus.Vm.Phases

/-!
# Conservation of tokens and the effect of a failed message

Results about `ApplyMessage` as a whole.
-/

namespace Lotus

open VM StateTree Total Ledger

variable {env : Env} {b : Behaviour} {cmsg : ChainMsg} {vm vm' start : VM} {id : Address}
    {act : Actor}

lemma Started.supply_eq (h : Started env cmsg vm id act start) :
    Run.supply start.cstate.view = Run.supply vm.cstate.view - gasCost cmsg.vmMessage := by
  rw [h.view_eq, Run.supply, Run.supply, total_update _ (view_finite vm.cstate), h.sender_eq]
  simp only [Option.elim_some]
  omega

lemma Started.solvent (h : Started env cmsg vm id act start) (hv : Run.Solvent vm.cstate.view) :
    Run.Solvent start.cstate.view := by
  simp [h.view_eq, hv.update, h.cost_le]

variable {gasUsed : Int64}

lemma Settles.supply_settled {v : Ledger} {msg : Message} {held : ℤ}
    (h : Settles v msg id gasUsed held) (hv : {a | v a ≠ none}.Finite) :
    Run.supply (settled v msg id gasUsed) = Run.supply v + held := by
  have hreward : (credit v id (refund msg gasUsed) rewardActorAddr).isSome := by
    rw [isSome_credit]
    exact h.reward
  rw [settled, supply_credit (finite_credit hv) hreward, supply_credit hv h.sender, ← h.sum_eq]
  omega

lemma Settles.solvent_settled {v : Ledger} {msg : Message} {held : ℤ}
    (h : Settles v msg id gasUsed held) (hv : Run.Solvent v) :
    Run.Solvent (settled v msg id gasUsed) :=
  solvent_credit (solvent_credit hv h.refund_nonneg) h.gasReward_nonneg

/-- Whenever `ApplyMessage` returns without a Go error, the sum of all balances is what it was,
and no balance has become negative. The log tells what is assumed of actor code: the init actor
handed out free IDs, and the burnt-funds actor did not delete itself. -/
theorem applyMessage_conserves {ret : ApplyRet} {es : List Event}
    (h : applyMessage env b cmsg vm = (.ok ret, vm')) (hlog : vm'.log = vm.log ++ es)
    (hfresh : Run.FreshIDs es) (hburnt : .deleted burntFundsActorAddr ∉ es) :
    Run.supply vm'.cstate.view = Run.supply vm.cstate.view ∧
      (Run.Solvent vm.cstate.view → Run.Solvent vm'.cstate.view) := by
  by_cases hstarts : Starts env cmsg vm
  · obtain ⟨id, act, start, es', v, happ⟩ := applyMessage_ok_of_starts hstarts h
    -- the events of the message are those of its run
    obtain rfl : es' = es := by grind [happ.log_eq, List.append_cancel_left]
    have hfinite := view_finite start.cstate
    constructor
    · simp_all [happ.run.supply_eq, happ.settles.supply_settled, happ.run.finite,
        happ.started.supply_eq, happ.view_eq]
    · grind [happ.view_eq, happ.settles.solvent_settled, happ.run.solvent, happ.started.solvent]
  · obtain ⟨r, t, hreads, hrun, -, -⟩ := applyMessage_of_not_starts (b := b) hstarts
    rw [hrun] at h
    cases h
    refine ⟨congrArg Run.supply hreads.view_eq, fun hsolvent => ?_⟩
    rwa [hreads.view_eq]

/-! ### A sample network

Two accounts and the reward actor. The account at 101 exports a method 2. -/

def sampleCode : Cid := ⟨[1]⟩

def sampleEnv : Env where
  init := .closed
  accountActorCodeID := sampleCode
  emptyObjectCid := ⟨[0]⟩
  isBuiltinActor code := code = sampleCode
  isSingletonActor _ := false
  builtInCode code := if code = sampleCode then some [none, none, some fun _ => true] else none
  accountState _ := none
  newActorAddress _ _ _ := .undef
  serializeAddress _ := []

def sampleRoot : Hamt :=
  (((∅ : Hamt).insert rewardActorAddr ⟨⟨[2]⟩, ⟨[]⟩, 0, 0⟩).insert (.id 100)
    ⟨sampleCode, ⟨[]⟩, 0, 10000000⟩).insert (.id 101) ⟨sampleCode, ⟨[]⟩, 0, 7⟩

def sampleVM : VM := ⟨{ newStateTree with root := sampleRoot }, 1, []⟩

def sampleMsg : ChainMsg := ⟨⟨0, .id 101, .id 100, 0, some 5, some 2, 3000000, 2, []⟩, ⟨[]⟩, 100⟩

def sampleBehaviour (k : Prog .method) : Behaviour where
  ctor := .abort .other
  method := .validateImmediateCallerAcceptAny
    (.send (.id 100) 0 (some []) (some 3) (.abort .other) (.abort .other) fun _ => k)

theorem sampleMsg_conserves :
    ∃ ret vm', applyMessage sampleEnv (sampleBehaviour (.ret (.bytes []))) sampleMsg sampleVM =
        (.ok ret, vm') ∧ ret.receipt.exitCode = 0 ∧
      Run.supply vm'.cstate.view = Run.supply sampleVM.cstate.view ∧
      (Run.Solvent sampleVM.cstate.view → Run.Solvent vm'.cstate.view) := by
  set out := applyMessage sampleEnv (sampleBehaviour (.ret (.bytes []))) sampleMsg sampleVM
  have hret : out.1 = .ok ⟨⟨0, [], 1005929⟩, none, 0⟩ := by decide +kernel
  have hok : out = (.ok ⟨⟨0, [], 1005929⟩, none, 0⟩, out.2) := Prod.ext hret rfl
  have hfresh : Run.FreshIDs out.2.log := by decide +kernel
  have hburnt : Event.deleted burntFundsActorAddr ∉ out.2.log := by decide +kernel
  exact ⟨_, _, hok, rfl, applyMessage_conserves hok rfl hfresh hburnt⟩

/-! ## Failed messages -/

/-- What a failed message leaves of the prior state: the sender, at `id`, has paid `paid` to the
reward actor and its nonce is one higher. -/
def Ledger.charged (v : Ledger) (id : Address) (act : Actor) (paid : ℤ) : Ledger :=
  credit (Function.update v id
    (some { act with nonce := act.nonce + 1, balance := act.balance - paid }))
    rewardActorAddr paid

lemma Started.settled_eq (h : Started env cmsg vm id act start)
    (hsettles : Settles start.cstate.view cmsg.vmMessage id gasUsed (gasCost cmsg.vmMessage)) :
    settled start.cstate.view cmsg.vmMessage id gasUsed =
      Ledger.charged vm.cstate.view id act (gasReward cmsg.vmMessage gasUsed) := by
  have hbalance : act.balance - gasCost cmsg.vmMessage + refund cmsg.vmMessage gasUsed =
      act.balance - gasReward cmsg.vmMessage gasUsed := by
    have hsum := hsettles.sum_eq
    omega
  unfold settled Ledger.charged
  congr 1
  rw [h.view_eq, credit, Function.update_self, Function.update_idem, Option.map_some, depositFunds]
  simp only [hbalance]

lemma clampGas_nonneg (gasUsed : Int64) : 0 ≤ (clampGas gasUsed).toInt := by
  unfold clampGas
  split_ifs with hneg <;> simp_all [Int64.le_iff_toInt_le]

/-- A message that comes back with a non-zero exit code after its execution leaves the prior state
with the sender's nonce one higher and the gas paid to the reward actor. One that does not pass the
checks before execution leaves the prior state. -/
theorem applyMessage_failure {r : Except ApplyErr ApplyRet}
    (h : applyMessage env b cmsg vm = (r, vm')) :
    (∀ ret, Starts env cmsg vm → r = .ok ret → ret.receipt.exitCode ≠ 0 →
      ∃ id act, (lookupID env.init cmsg.vmMessage.fromAddr vm.cstate).1 = .ok id ∧
        vm.cstate.view id = some act ∧
        vm'.cstate.view = Ledger.charged vm.cstate.view id act
          (ret.receipt.gasUsed.toInt * price cmsg.vmMessage)) ∧
    (¬Starts env cmsg vm → vm'.cstate.view = vm.cstate.view) := by
  constructor
  · rintro ret hstarts rfl hcode
    obtain ⟨id, act, start, es, v, happ⟩ := applyMessage_ok_of_starts hstarts h
    obtain rfl := happ.undone hcode
    have hgas : Word.u64 ret.receipt.gasUsed = ret.receipt.gasUsed.toInt := by
      apply Word.u64_of_nonneg
      rw [happ.gasUsed_eq]
      exact clampGas_nonneg _
    refine ⟨id, act, happ.started.lookupID_eq, happ.started.sender_eq, ?_⟩
    rw [happ.view_eq, happ.started.settled_eq happ.settles, gasReward, hgas, mul_comm]
  · intro hstarts
    obtain ⟨r', t, hreads, hrun, -, -⟩ := applyMessage_of_not_starts (b := b) hstarts
    rw [hrun] at h
    cases h
    exact hreads.view_eq

def sampleAbort : Behaviour := sampleBehaviour (.abort (.actorErr (.newf 17 "refused")))

def sampleWrongNonce : ChainMsg := ⟨{ sampleMsg.vmMessage with nonce := 1 }, ⟨[]⟩, 100⟩

theorem sampleMsg_failure :
    (∃ ret vm', applyMessage sampleEnv sampleAbort sampleMsg sampleVM = (.ok ret, vm') ∧
      ret.receipt.exitCode = 17 ∧
      ∃ id act, (lookupID sampleEnv.init (.id 100) sampleVM.cstate).1 = .ok id ∧
        sampleVM.cstate.view id = some act ∧
        vm'.cstate.view = Ledger.charged sampleVM.cstate.view id act
          (ret.receipt.gasUsed.toInt * 2)) ∧
    ¬Starts sampleEnv sampleWrongNonce sampleVM ∧
      (applyMessage sampleEnv sampleAbort sampleWrongNonce sampleVM).2.cstate.view =
        sampleVM.cstate.view := by
  set out := applyMessage sampleEnv sampleAbort sampleMsg sampleVM
  have hret : out.1 = .ok ⟨⟨17, [], 1005929⟩, some (.newf 17 "refused"), 0⟩ := by decide +kernel
  have hok : out = (.ok ⟨⟨17, [], 1005929⟩, some (.newf 17 "refused"), 0⟩, out.2) :=
    Prod.ext hret rfl
  have hstarts : Starts sampleEnv sampleMsg sampleVM := by decide +kernel
  have hnot : ¬Starts sampleEnv sampleWrongNonce sampleVM := by decide +kernel
  exact ⟨⟨_, _, hok, rfl, (applyMessage_failure hok).1 _ hstarts rfl (by decide)⟩, hnot,
    (applyMessage_failure Prod.mk.eta.symm).2 hnot⟩

section Course

open Act

variable {N : Prop} (env)

lemma execute_does (b : Behaviour) (cmsg : ChainMsg) (vm : VM)
    (hplain : ¬N → b.ctor.Plain true ∧ b.method.Plain false) :
    (∃ p es, (execute env b cmsg vm).1 = .error (.panic p) ∧
      Extends vm es (execute env b cmsg vm).2 ∧ (es = [] ∨ es = [.fatal])) ∨
    ∃ sub e sub' cs, TopFrame cmsg.vmMessage vm sub ∧ Does env N .frame false sub e sub' ∧
      OnlyCharges cs ∧ (execute env b cmsg vm).2.log = sub'.vm.log ++ cs ∧
      (e = .failed true → ∃ err, (execute env b cmsg vm).1 = .error err) := by
  have hcreate := tryCreateAccountActor_traced env (N := N) (c := false)
    (exec_does env b.ctor fun hN => (hplain hN).1)
  have hbody := exec_does env b.method fun hN => (hplain hN).2
  unfold execute
  simp only
  rcases send_cases env hcreate hbody cmsg.vmMessage
    (some ((pricelistByEpoch vm.blockHeight).onChainMessage cmsg.chainLength)) vm rfl with
    ⟨p, es, hresult, hgrows, hes⟩ | ⟨sub, sub', htop, hvm, ⟨p, hresult, hdoes⟩ |
      ⟨e, hresult, hdoes⟩ | ⟨ret, hresult, hdoes⟩⟩ <;> simp only [hresult]
  · exact Or.inl ⟨p, es, rfl, hgrows.toExtends, hes⟩
  · exact Or.inr ⟨sub, .failed p.fatal, sub', [], htop, .preamble hdoes, .nil, by simp [hvm],
      fun _ => ⟨.panic p, rfl⟩⟩
  · refine Or.inr ⟨sub, .failed e.fatal, sub', [], htop, hdoes, .nil, ?_, fun hend => ?_⟩
    · by_cases hfatal : e.fatal = true <;> simp [hfatal, hvm, VM.revert]
    · have hfatal : e.fatal = true := by injection hend
      exact ⟨.fatal e, by simp [hfatal]⟩
  · by_cases hret : ret = []
    · exact Or.inr ⟨sub, .done, sub', [], htop, hdoes, .nil, by simp [hret, hvm],
        fun h => by cases h⟩
    · refine Or.inr ⟨sub, .done, sub',
        [.charged ((pricelistByEpoch sub'.rt.height).onChainReturnValue ret.length)], htop, hdoes,
        OnlyCharges.nil.cons _, ?_, fun h => by cases h⟩
      simp only [if_neg hret, Runtime.chargeGasInternal, hvm]
      split_ifs <;> rfl

def NoFrame (r : Except ApplyErr ApplyRet) (es : List Event) : Prop :=
  es = [] ∨ es = [.fatal] ∧ ∃ err, r = .error err

/-- The course of a message as far as the log tells it: no frame ran, or the message started and the
log is that of the execution of its frame. -/
lemma applyMessage_does (b : Behaviour) (cmsg : ChainMsg) (vm : VM)
    (hplain : ¬N → b.ctor.Plain true ∧ b.method.Plain false) :
    (∃ es, (applyMessage env b cmsg vm).2.log = vm.log ++ es ∧
      NoFrame (applyMessage env b cmsg vm).1 es) ∨
    ∃ id act start sub e sub' cs, Starts env cmsg vm ∧ Started env cmsg vm id act start ∧
      TopFrame cmsg.vmMessage start.snapshot sub ∧ Does env N .frame false sub e sub' ∧
      OnlyCharges cs ∧ (applyMessage env b cmsg vm).2.log = sub'.vm.log ++ cs ∧
      (e = .failed true → ∃ err, (applyMessage env b cmsg vm).1 = .error err) := by
  by_cases hstarts : Starts env cmsg vm
  swap
  · obtain ⟨r, t, -, hrun, -, -⟩ := applyMessage_of_not_starts (b := b) hstarts
    rw [hrun]
    exact Or.inl ⟨[], (List.append_nil _).symm, Or.inl rfl⟩
  obtain ⟨id, act, start, gasHolder, hstarted, -, hrun⟩ := applyMessage_of_starts hstarts b
  -- the settlement adds nothing to the log, and an execution that fails is not settled
  have hlog : (executeAndSettle env b cmsg gasHolder start.snapshot).2.log =
      (execute env b cmsg start.snapshot).2.log := by
    rcases hexec : execute env b cmsg start.snapshot with ⟨err | r, vm1⟩
    · rw [executeAndSettle, bind_of_error hexec]
    · rw [executeAndSettle, bind_of_ok hexec]
      have hsettle := settle_log env cmsg.vmMessage gasHolder (clampGas r.gasUsed) vm1
      rcases hs : settle env cmsg.vmMessage gasHolder (clampGas r.gasUsed) vm1 with ⟨err | u, vm2⟩
      · grind [bind_of_error]
      · rw [hs] at hsettle
        rwa [bind_of_ok hs]
  have herror : ∀ err, (execute env b cmsg start.snapshot).1 = .error err →
      ∃ err, (executeAndSettle env b cmsg gasHolder start.snapshot).1 = .error err := by
    intro err hexec
    refine ⟨err, ?_⟩
    rw [executeAndSettle, bind_of_error (Prod.ext hexec rfl)]
  rw [hrun]
  rcases execute_does env b cmsg start.snapshot hplain with
    ⟨p, es, hpanic, hext, hes⟩ | ⟨sub, e, sub', cs, htop, hdoes, hcs, hend, hfatal⟩
  · refine Or.inl ⟨es, ?_, hes.imp_right fun h => ⟨h, herror _ hpanic⟩⟩
    have hstart := hstarted.log_eq
    rw [List.append_nil] at hstart
    exact hlog.trans (hext.log_eq.trans (congrArg (· ++ es) hstart))
  · refine Or.inr ⟨id, act, start, sub, e, sub', cs, hstarts, hstarted, htop, hdoes, hcs,
      hlog.trans hend, fun he => ?_⟩
    obtain ⟨err, herr⟩ := hfatal he
    exact herror err herr

variable {env} in
/-- The frame of a message starts with the log that `ApplyMessage` was given. -/
lemma TopFrame.log_eq {sub : Machine} (h : TopFrame cmsg.vmMessage start.snapshot sub)
    (hstarted : Started env cmsg vm id act start) : sub.vm.log = vm.log := by
  have hstart := hstarted.log_eq
  have hframe := h.grows.log_eq
  rw [List.append_nil] at hstart hframe
  exact hframe.trans hstart

end Course

end Lotus
