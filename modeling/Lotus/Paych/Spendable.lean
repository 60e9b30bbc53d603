import Lotus.Chain.Validate
import Lotus.Paych.Manager

/-!
# Calls without a block

`Call` and `CallRaw` of `chain/stmgr/call.go`, and `CheckVoucherSpendable` of `paychmgr/paych.go`
over them.
-/

namespace Lotus

open VM StateTree Act

structure InvocResult where
  msg : Message
  msgRct : MessageReceipt
  error : Option ActorError

variable (sm : StateManager) (r : ChainRand)

/-- The message with the defaults of `CallRaw`. -/
def callDefaults (msg : Message) : Message :=
  { msg with
    gasLimit := if msg.gasLimit = 0 then blockGasLimit else msg.gasLimit
    gasPrice := some (msg.gasPrice.getD 0)
    value := some (msg.value.getD 0) }

def callerOf (msg : Message) : Act VM NodeErr Actor :=
  (onTree (getActor sm.env.init msg.fromAddr)).mapError fun _ => .new "call raw get actor: %s"

def callRaw (msg : Message) (bstate : Hamt) (bheight : Int64) : Except NodeErr InvocResult :=
  ((do
    let fromActor ← callerOf sm msg
    let msg := { callDefaults msg with nonce := fromActor.nonce }
    let ret ← (implicitMessage sm r msg).mapError (.wrap "apply message failed")
    return ⟨msg, ret.receipt, ret.actorErr⟩ : Act VM NodeErr InvocResult)
      ⟨loadStateTree bstate, bheight, []⟩).1

def call (msg : Message) (ts : TipSet) : Except NodeErr InvocResult :=
  callRaw sm ⟨ts.cids sm.cs.hashing, ts.height⟩ msg ts.parentState ts.height

def callError (msg : Message) (ts : TipSet) : Option ActorError :=
  match callerOf sm msg ⟨loadStateTree ts.parentState, ts.height, []⟩ with
  | (.error _, _) => none
  | (.ok fromActor, vm) =>
    let msg := { callDefaults msg with nonce := fromActor.nonce }
    match (applyImplicitMessage sm.env
      (sm.behaviour ⟨ts.cids sm.cs.hashing, ts.height⟩ msg vm) msg vm).1 with
    | .error _ => none
    | .ok ret => ret.actorErr

def methodsPaychUpdateChannelState : UInt64 := 2

namespace PaychManager

variable (pm : PaychManager)

def storedProof (sv : SignedVoucher) : List VoucherInfo → Except NodeErr Bytes
  | [] => .ok []
  | v :: vs => do
    if (← pm.equals v.voucher sv) ∧ v.proof ≠ [] then return v.proof else storedProof sv vs

/-- `CheckVoucherSpendable` up to its call; `serialize` is `actors.SerializeParams`. -/
def spendMessage (serialize : SignedVoucher → Bytes → Bytes → Except NodeErr Bytes)
    (s : PaychStore) (ch : Address) (sv : SignedVoucher) (secret proof : Bytes) :
    Except NodeErr Message := do
  let (_, st) ← pm.loadPaychState ch
  let proof ← if sv.extra.isSome ∧ proof = [] then do
      pm.storedProof sv (← getChannelInfo s ch).vouchers
    else pure proof
  let enc ← serialize sv secret proof
  return ⟨0, ch, st.toAddr, 0, none, none, 0, methodsPaychUpdateChannelState, enc⟩

def checkVoucherSpendable (serialize : SignedVoucher → Bytes → Bytes → Except NodeErr Bytes)
    (head : TipSet) (s : PaychStore) (ch : Address) (sv : SignedVoucher) (secret proof : Bytes) :
    Except NodeErr Bool := do
  let ret ← call sm (← pm.spendMessage serialize s ch sv secret proof) head
  return ret.msgRct.exitCode = 0

end PaychManager

variable {sm} {msg : Message} {ts : TipSet} {e : ActorError}

lemma call_of_callError (h : callError sm msg ts = some e) :
    call sm msg ts = .error (.wrap "apply message failed" (.actor e)) := by
  unfold callError at h
  split at h
  · cases h
  next act vm hcaller =>
    dsimp only at h
    set msg' : Message := { callDefaults msg with nonce := act.nonce }
    rcases happ : applyImplicitMessage sm.env
      (sm.behaviour ⟨ts.cids sm.cs.hashing, ts.height⟩ msg' vm) msg' vm with ⟨err | ret, vm'⟩
    · rw [happ] at h
      cases h
    · rw [happ] at h
      have himplicit : implicitMessage sm ⟨ts.cids sm.cs.hashing, ts.height⟩ msg' vm =
          (.error (.actor e), vm') := by
        rw [implicitMessage, bind_of_ok (get_apply vm), bind_of_ok (mapError_of_ok happ),
          show ret.actorErr = some e from h]
        rfl
      rw [call, callRaw, bind_of_ok hcaller, bind_of_error (mapError_of_error himplicit)]

structure CallReported (sm : StateManager) (msg : Message) (ts : TipSet) : Prop where
  failed : ∀ e, callError sm msg ts = some e → e.fatal = false →
    ∃ ret, call sm msg ts = .ok ret ∧ ret.msgRct.exitCode = e.retCode
  fatal : ∀ e, callError sm msg ts = some e → e.fatal = true → ∃ err, call sm msg ts = .error err

/-- A call is reported as it should be if and only if it does not end in an error that is not fatal,
and so is the call for a voucher. -/
theorem call_reported_iff (sm : StateManager) :
    (∀ msg ts, CallReported sm msg ts ↔ ∀ e, callError sm msg ts = some e → e.fatal = true) ∧
    ∀ (pm : PaychManager) serialize ts s ch sv secret proof msg,
      pm.spendMessage serialize s ch sv secret proof = .ok msg →
        ((∀ e, callError sm msg ts = some e → e.fatal = false →
          pm.checkVoucherSpendable sm serialize ts s ch sv secret proof = .ok false) ↔
            ∀ e, callError sm msg ts = some e → e.fatal = true) := by
  refine ⟨fun msg ts => ⟨fun h e hends => ?_, fun h => ⟨fun e hends hfatal => ?_, fun e hends _ =>
    ⟨_, call_of_callError hends⟩⟩⟩, fun pm serialize ts s ch sv secret proof msg hmsg =>
    ⟨fun h e hends => ?_, fun h e hends hfatal => ?_⟩⟩
  · by_contra hfatal
    obtain ⟨ret, hok, -⟩ := h.failed e hends (Bool.eq_false_iff.mpr hfatal)
    cases (call_of_callError hends).symm.trans hok
  · cases hfatal.symm.trans (h e hends)
  · by_contra hfatal
    have hfalse := h e hends (Bool.eq_false_iff.mpr hfatal)
    rw [PaychManager.checkVoucherSpendable, hmsg] at hfalse
    change (call sm msg ts >>= _) = _ at hfalse
    obtain ⟨ret, hok, -⟩ := Check.bind_eq_ok.mp hfalse
    cases (call_of_callError hends).symm.trans hok
  · cases hfatal.symm.trans (h e hends)

def sampleRejecting : StateManager :=
  { sampleStateManager [] with
    behaviour := fun _ _ _ => ⟨.abort .other,
      .validateImmediateCallerAcceptAny (.abort (.actorErr (.newf 17 "rejected")))⟩ }

def sampleUpdate : Message :=
  ⟨0, .id 1000, .id 100, 0, none, none, 0, methodsPaychUpdateChannelState, []⟩

def samplePayee : PaychManager where
  loadPaychState _ := .ok (⟨⟨[]⟩, ⟨[]⟩, 0, 20⟩, ⟨.id 101, .id 100, 0, []⟩)
  loadAccount _ := .ok (.bls [1])
  signingBytes _ := .ok []
  verify _ _ _ := .ok ()
  dump _ := .error (.new "too long")
  dump_inj h := by cases h
  write _ := .ok ()

/-- The voucher's call ends in exit code 17, and both functions give an error instead. -/
theorem sampleRejecting_call :
    callError sampleRejecting sampleUpdate (.single (sampleHeader (.id 1000) [])) =
        some (.newf 17 "rejected") ∧
      call sampleRejecting sampleUpdate (.single (sampleHeader (.id 1000) [])) =
        .error (.wrap "apply message failed" (.actor (.newf 17 "rejected"))) ∧
      ∀ s sv, sv.extra = none → samplePayee.checkVoucherSpendable sampleRejecting
        (fun _ _ _ => .ok []) (.single (sampleHeader (.id 1000) [])) s (.id 1000) sv [] [] =
          .error (.wrap "apply message failed" (.actor (.newf 17 "rejected"))) := by
  have hends : callError sampleRejecting sampleUpdate (.single (sampleHeader (.id 1000) [])) =
      some (.newf 17 "rejected") := by
    decide +kernel
  refine ⟨hends, call_of_callError hends, fun s sv hextra => ?_⟩
  have hmsg : samplePayee.spendMessage (fun _ _ _ => .ok []) s (.id 1000) sv [] [] =
      .ok sampleUpdate := by
    rw [PaychManager.spendMessage, hextra]
    rfl
  rw [PaychManager.checkVoucherSpendable, hmsg]
  exact congrArg (· >>= fun ret : InvocResult => Except.ok (decide (ret.msgRct.exitCode = 0)))
    (call_of_callError hends)

end Lotus
