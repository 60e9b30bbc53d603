import Lotus.Vm.Phases

/-!
# Fatal errors and exit codes

The functions of `chain/actors/aerrors/wrap.go` on any Go error.
-/

namespace Lotus

open VM Machine Lotus.Runtime StateTree Act

/-- A Go `error`: nil, an actor error, or an error of other code, which may be one of
`cbor.SerializationError`. -/
inductive GoErr where
  | nil
  | actor (err : ActorError)
  | external (serialization : Bool) (msg : String)

namespace GoErr

def fatal : GoErr → Bool
  | actor err => err.fatal
  | nil | external .. => false

def msgs : GoErr → List String
  | nil => []
  | actor err => err.msgs
  | external _ msg => [msg]

end GoErr

namespace ActorError

lemma fatal_zero : true = false → (0 : ExitCode) ≠ 0 := by
  intro h
  cases h

lemma nonfatal_ne {code : ExitCode} (h : code ≠ 0) : false = false → code ≠ 0 := fun _ => h

def absorbAny (err : GoErr) (retCode : ExitCode) (msg : String) : Option ActorError :=
  match err with
  | .nil => none
  | err => some <|
    if err.fatal then
      ⟨true, 0, "tried absorbing an error that is already a fatal error" :: err.msgs, fatal_zero⟩
    else if h : retCode = 0 then
      ⟨true, 0, "tried absorbing an error and setting RetCode to 0" :: err.msgs, fatal_zero⟩
    else ⟨false, retCode, msg :: err.msgs, nonfatal_ne h⟩

def escalateAny (err : GoErr) (msg : String) : Option ActorError :=
  match err with
  | .nil => none
  | err => some ⟨true, 0, msg :: err.msgs, fatal_zero⟩

def handleExternalError (err : GoErr) (msg : String) : Option ActorError :=
  match err with
  | .nil => none
  | .actor aerr => some (aerr.wrap msg)
  | .external true text => some ⟨false, 253, [msg, text], nonfatal_ne (by decide)⟩
  | .external false text => some ⟨false, 219, [msg, text], nonfatal_ne (by decide)⟩

inductive Composed : Option ActorError → Prop
  | nil : Composed none
  | new (retCode : ExitCode) (msg : String) : Composed (some (.newf retCode msg))
  | fatal (msg : String) : Composed (some (.fatalf msg))
  | wrap {err} (h : Composed err) (msg : String) : Composed (err.map (·.wrap msg))
  | absorb {err : GoErr} (h : ∀ aerr, err = .actor aerr → Composed (some aerr))
      (retCode : ExitCode) (msg : String) : Composed (absorbAny err retCode msg)
  | escalate {err : GoErr} (h : ∀ aerr, err = .actor aerr → Composed (some aerr)) (msg : String) :
    Composed (escalateAny err msg)
  | handle {err : GoErr} (h : ∀ aerr, err = .actor aerr → Composed (some aerr)) (msg : String) :
    Composed (handleExternalError err msg)

/-- One function is given the first error and returns the second. -/
inductive Becomes : ActorError → ActorError → Prop
  | wrap (err : ActorError) (msg : String) : Becomes err (err.wrap msg)
  | absorb {err err' : ActorError} (retCode : ExitCode) (msg : String)
      (h : absorbAny (.actor err) retCode msg = some err') : Becomes err err'
  | escalate {err err' : ActorError} (msg : String)
      (h : escalateAny (.actor err) msg = some err') : Becomes err err'
  | handle {err err' : ActorError} (msg : String)
      (h : handleExternalError (.actor err) msg = some err') : Becomes err err'

lemma Composed.retCode_eq {o : Option ActorError} (h : Composed o) :
    ∀ err ∈ o, err.fatal = true → err.retCode = 0 := by
  induction h with
  | nil =>
    intro err herr
    cases herr
  | new retCode msg =>
    rintro - ⟨⟩
    unfold newf
    split_ifs <;> simp
  | fatal msg =>
    rintro - ⟨⟩ -
    rfl
  | wrap h msg ih =>
    intro err herr
    obtain ⟨err', herr', rfl⟩ := Option.mem_map.mp herr
    exact ih err' herr'
  | @absorb err h retCode msg ih =>
    cases err <;> simp only [absorbAny] <;> grind
  | @escalate err h msg ih =>
    cases err <;> simp only [escalateAny] <;> grind
  | @handle err h msg ih =>
    cases err with
    | nil =>
      intro err herr
      cases herr
    | actor aerr =>
      rintro - ⟨⟩
      exact ih aerr rfl aerr rfl
    | external ser text => cases ser <;> rintro - ⟨⟩ ⟨⟩

lemma Becomes.fatal {err err' : ActorError} (h : Becomes err err') (hfatal : err.fatal = true) :
    err'.fatal = true := by
  cases h with
  | wrap => exact hfatal
  | absorb retCode msg h =>
    have hactor : (GoErr.actor err).fatal = true := hfatal
    simp only [absorbAny, hactor, if_true] at h
    cases h
    rfl
  | escalate msg h =>
    cases h
    rfl
  | handle msg h =>
    cases h
    exact hfatal

end ActorError

variable {env : Env} {b : Behaviour} {cmsg : ChainMsg} {vm vm' : VM}

def sendMessage (env : Env) (b : Behaviour) (cmsg : ChainMsg) (vm : VM) :=
  send env cmsg.vmMessage none
    (some ((pricelistByEpoch vm.blockHeight).onChainMessage cmsg.chainLength))
    (tryCreateAccountActor env (exec env b.ctor)) (exec env b.method) vm

/-- The execution from `start` leaves `kept` to settle the gas on: what the send has left if the
exit code is zero, which it is only without an error, and what was there before it otherwise. -/
structure KeptByCode (env : Env) (b : Behaviour) (cmsg : ChainMsg) (start kept : VM)
    (code : ExitCode) : Prop where
  at_zero : code = 0 → kept.cstate = (sendMessage env b cmsg start.snapshot).vm.cstate
  reverted : code ≠ 0 → kept.cstate = (sendMessage env b cmsg start.snapshot).vm.cstate.revert
  undone : code ≠ 0 → kept.cstate.view = start.cstate.view
  no_error : code = 0 → ∃ ret rt,
    (sendMessage env b cmsg start.snapshot).result = .ok (.ok ret, rt)

lemma execute_keptByCode {r : Executed} (h : execute env b cmsg vm.snapshot = (.ok r, vm')) :
    KeptByCode env b cmsg vm vm' (retCode r.actorErr) := by
  obtain ⟨es, -, -, hundone, -⟩ := execute_ok h
  have hview (hcode : retCode r.actorErr ≠ 0) : vm'.cstate.view = vm.cstate.view := by
    refine hundone fun hnone => hcode ?_
    rw [hnone]
    rfl
  unfold execute at h
  dsimp only at h
  split at h
  · cases h
  next e rt hresult =>
    split_ifs at h with hfatal
    · cases h
    · cases h
      have hne : e.retCode ≠ 0 := e.retCode_ne (Bool.eq_false_iff.mpr hfatal)
      exact ⟨fun hzero => absurd hzero hne, fun _ => rfl, hview, fun hzero => absurd hzero hne⟩
  next ret rt hresult =>
    split_ifs at h with hret
    · cases h
      exact ⟨fun _ => rfl, fun hne => absurd rfl hne, hview, fun _ => ⟨ret, rt, hresult⟩⟩
    · by_cases hout : OutOfGas rt.gasAvailable rt.gasUsed
        ((pricelistByEpoch rt.height).onChainReturnValue ret.length).total
      · simp only [chargeGasInternal, if_pos hout] at h
        cases h
        have hne : retCode (some (.newf ExitCode.sysErrOutOfGas
          "not enough gas: used=%d, available=%d")) ≠ 0 := by decide
        exact ⟨fun hzero => absurd hzero hne, fun _ => rfl, hview, fun hzero => absurd hzero hne⟩
      · simp only [chargeGasInternal, if_neg hout] at h
        cases h
        exact ⟨fun _ => rfl, fun hne => absurd rfl hne, hview, fun _ => ⟨ret, rt, hresult⟩⟩

lemma applyMessage_keptByCode {ret : ApplyRet} (hstarts : Starts env cmsg vm)
    (h : applyMessage env b cmsg vm = (.ok ret, vm')) :
    ∃ id act start holder kept, Started env cmsg vm id act start ∧
      holder.balance = gasCost cmsg.vmMessage ∧
      KeptByCode env b cmsg start kept ret.receipt.exitCode ∧
      vm' = (settle env cmsg.vmMessage holder ret.receipt.gasUsed kept).2.clearSnapshot := by
  obtain ⟨id, act, start, holder, hstarted, hheld, happly⟩ := applyMessage_of_starts hstarts b
  rw [happly, Prod.mk.injEq] at h
  obtain ⟨hret, rfl⟩ := h
  rcases hrun : executeAndSettle env b cmsg holder start.snapshot with ⟨r, vm2⟩
  rw [hrun] at hret
  obtain rfl : r = .ok ret := hret
  obtain ⟨x, kept, hexec, hrest⟩ := bind_eq_ok hrun
  obtain ⟨_, vm3, hsettle, hpure⟩ := bind_eq_ok hrest
  cases hpure
  refine ⟨id, act, start, holder, kept, hstarted, hheld, execute_keptByCode hexec, ?_⟩
  rw [hsettle]

/-- An error that the functions make is fatal if and only if its exit code is zero, and stays fatal.
`ApplyMessage` settles the gas on the state that the execution left if the exit code is zero, and on
the state before it otherwise; a message that it rejects changes nothing. -/
theorem actorError_classes :
    (∀ err, ActorError.Composed (some err) → (err.fatal = true ↔ err.retCode = 0)) ∧
    (∀ err err', Relation.ReflTransGen ActorError.Becomes err err' → err.fatal = true →
      err'.fatal = true) ∧
    ∀ env b cmsg vm ret vm', applyMessage env b cmsg vm = (.ok ret, vm') →
      (Starts env cmsg vm → ∃ id act start holder kept, Started env cmsg vm id act start ∧
        holder.balance = gasCost cmsg.vmMessage ∧
        KeptByCode env b cmsg start kept ret.receipt.exitCode ∧
        vm' = (settle env cmsg.vmMessage holder ret.receipt.gasUsed kept).2.clearSnapshot) ∧
      (¬Starts env cmsg vm → ret.receipt.exitCode ≠ 0 ∧ vm'.cstate.view = vm.cstate.view) := by
  refine ⟨fun err h => ⟨h.retCode_eq err rfl, fun hzero => ?_⟩, fun err err' h hfatal => ?_,
    fun env b cmsg vm ret vm' h => ⟨fun hstarts => ?_, fun hnot => ?_⟩⟩
  · by_contra hfatal
    exact err.retCode_ne (Bool.eq_false_iff.mpr hfatal) hzero
  · induction h with
    | refl => exact hfatal
    | tail _ hstep ih => exact hstep.fatal ih
  · exact applyMessage_keptByCode hstarts h
  · obtain ⟨r, t, hreads, hrun, hrejected, -⟩ := applyMessage_of_not_starts (b := b) hnot
    rw [hrun] at h
    cases h
    exact ⟨(hrejected ret rfl).1, hreads.view_eq⟩

end Lotus
