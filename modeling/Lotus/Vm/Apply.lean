import Lotus.Vm.Send

/-!
# Applying a message

`ApplyMessage` and `ApplyImplicitMessage` of `chain/vm/vm.go`.
-/

namespace Lotus

open VM Machine Lotus.Runtime Act

/-- The Go errors that `ApplyMessage` returns, by where they come up. -/
inductive ApplyErr where
  | checkMessage (msg : String)
  | lookUpFrom (err : TreeErr)
  | withdraw (err : TreeErr)
  | incrementNonce (err : TreeErr)
  | fatal (err : ActorError)
  /-- a panic that reached `ApplyMessage` -/
  | panic (p : Panic)
  | refund
  | reward (err : TreeErr)
  | gasMath
deriving DecidableEq

namespace VM

variable (env : Env)

def checkMessage (msg : Message) : Except ApplyErr Unit :=
  if msg.gasLimit = 0 then .error (.checkMessage "message has no gas limit set")
  else if msg.gasLimit < 0 then .error (.checkMessage "message has negative gas limit")
  else if msg.gasPrice = none then .error (.checkMessage "message gas no gas price set")
  else if msg.value = none then .error (.checkMessage "message no value set")
  else .ok ()

/-- The gas price of a message that passed `checkMessage`. -/
def price (msg : Message) : ℤ := msg.gasPrice.getD 0

def rejected (code : ExitCode) (err : Option ActorError) (penalty : ℤ) : ApplyRet :=
  ⟨⟨code, [], 0⟩, err, penalty⟩

def incrementNonce (addr : Address) : Act VM TreeErr Unit :=
  onTree (StateTree.mutateActor env.init addr fun a => pure ({ a with nonce := a.nonce + 1 }, ()))

def transferToGasHolder (addr : Address) (gasHolder : Actor) (amt : ℤ) : Act VM TreeErr Actor :=
  if amt < 0 then fail (.other "attempted to transfer negative value to gas holder")
  else
    onTree (StateTree.mutateActor env.init addr fun a => do
      let a' ← deductFunds a amt
      pure (a', depositFunds gasHolder amt))

def transferFromGasHolder (addr : Address) (gasHolder : Actor) (amt : ℤ) : Act VM TreeErr Actor :=
  if amt < 0 then fail (.other "attempted to transfer negative value from gas holder")
  else
    onTree (StateTree.mutateActor env.init addr fun a => do
      let gasHolder' ← deductFunds gasHolder amt
      pure (depositFunds a amt, gasHolder'))

/-- `&types.Actor{Balance: types.NewInt(0)}` -/
def emptyGasHolder : Actor := ⟨⟨[]⟩, ⟨[]⟩, 0, 0⟩

def gasCost (msg : Message) : ℤ := Word.u64 msg.gasLimit * price msg

def checkSender (msg : Message) (penalty : ℤ) (fromActor : Actor) : Option ApplyRet :=
  if fromActor.code ≠ env.accountActorCodeID then
    some (rejected ExitCode.sysErrSenderInvalid
      (some (.newf ExitCode.sysErrSenderInvalid "send from not account actor: %s")) penalty)
  else if msg.nonce ≠ fromActor.nonce then
    some (rejected ExitCode.sysErrSenderStateInvalid
      (some (.newf ExitCode.sysErrSenderStateInvalid
        "actor nonce invalid: msg:%d != state:%d")) penalty)
  else if fromActor.balance < gasCost msg then
    some (rejected ExitCode.sysErrSenderStateInvalid
      (some (.newf ExitCode.sysErrSenderStateInvalid
        "actor balance less than needed: %s < %s")) penalty)
  else none

def msgGasCost (cmsg : ChainMsg) (vm : VM) : Int64 :=
  ((pricelistByEpoch vm.blockHeight).onChainMessage cmsg.chainLength).total

def minerPenaltyAmount (cmsg : ChainMsg) (vm : VM) : ℤ :=
  price cmsg.vmMessage * Word.u64 (msgGasCost cmsg vm)

def precheck (cmsg : ChainMsg) : Act VM ApplyErr (Option ApplyRet) := do
  let vm ← get
  let penalty := minerPenaltyAmount cmsg vm
  if msgGasCost cmsg vm > cmsg.vmMessage.gasLimit then
    pure (some (rejected ExitCode.sysErrOutOfGas none penalty))
  else
    match ← (onTree (StateTree.getActor env.init cmsg.vmMessage.fromAddr)).attempt with
    | .error err =>
      if err.isNotFound then
        pure (some (rejected ExitCode.sysErrSenderInvalid
          (some (.newf ExitCode.sysErrSenderInvalid "actor not found: %s")) penalty))
      else fail (.lookUpFrom err)
    | .ok fromActor => pure (checkSender env cmsg.vmMessage penalty fromActor)

structure Executed where
  actorErr : Option ActorError
  ret : Bytes
  gasUsed : Int64

/-- The call to `send`, the charge for the return value, and the revert when the message failed. The
source also tests for an error that comes with a return value, which `send` does not give. -/
def execute (b : Behaviour) (cmsg : ChainMsg) : Act VM ApplyErr Executed := fun vm =>
  let pl := pricelistByEpoch vm.blockHeight
  let out := send env cmsg.vmMessage none (some (pl.onChainMessage cmsg.chainLength))
    (tryCreateAccountActor env (exec env b.ctor)) (exec env b.method) vm
  match out.result with
  | .error p => (.error (.panic p), out.vm)
  | .ok (.error e, rt) =>
    if e.fatal then (.error (.fatal e), out.vm)
    else (.ok ⟨some e, [], rt.gasUsed⟩, out.vm.revert)
  | .ok (.ok ret, rt) =>
    if ret = [] then (.ok ⟨none, ret, rt.gasUsed⟩, out.vm)
    else
      let charge := (pricelistByEpoch rt.height).onChainReturnValue ret.length
      match (chargeGasInternal charge : Act Machine Fault _) ⟨out.vm, rt⟩ with
      | (.ok (some e), m) => (.ok ⟨some e, [], m.rt.gasUsed⟩, m.vm.revert)
      | (_, m) => (.ok ⟨none, ret, m.rt.gasUsed⟩, m.vm)

def refund (msg : Message) (gasUsed : Int64) : ℤ := Word.u64 (msg.gasLimit - gasUsed) * price msg

def gasReward (msg : Message) (gasUsed : Int64) : ℤ := price msg * Word.u64 gasUsed

def settle (msg : Message) (gasHolder : Actor) (gasUsed : Int64) : Act VM ApplyErr Unit := do
  let gasHolder ← (transferFromGasHolder env msg.fromAddr gasHolder (refund msg gasUsed)).mapError
    fun _ => .refund
  let gasHolder ← (transferFromGasHolder env rewardActorAddr gasHolder
    (gasReward msg gasUsed)).mapError .reward
  if gasHolder.balance ≠ 0 then fail .gasMath
  else pure ()

def clampGas (gasUsed : Int64) : Int64 := if gasUsed < 0 then 0 else gasUsed

/-- `ApplyMessage` from the point where the snapshot is open. -/
def executeAndSettle (b : Behaviour) (cmsg : ChainMsg) (gasHolder : Actor) :
    Act VM ApplyErr ApplyRet := do
  let r ← execute env b cmsg
  settle env cmsg.vmMessage gasHolder (clampGas r.gasUsed)
  pure ⟨⟨retCode r.actorErr, r.ret, clampGas r.gasUsed⟩, r.actorErr, 0⟩

def applyMessage (b : Behaviour) (cmsg : ChainMsg) : Act VM ApplyErr ApplyRet := do
  let msg := cmsg.vmMessage
  ofExcept (checkMessage msg)
  match ← precheck env cmsg with
  | some ret => pure ret
  | none =>
    let gasHolder ← (transferToGasHolder env msg.fromAddr emptyGasHolder (gasCost msg)).mapError
      .withdraw
    (incrementNonce env msg.fromAddr).mapError .incrementNonce
    modify VM.snapshot
    (executeAndSettle env b cmsg gasHolder).ensure
      (modify VM.clearSnapshot : Act VM ApplyErr Unit)

/-- `ApplyImplicitMessage`. The Go error it returns is the actor error of the result. -/
def applyImplicitMessage (b : Behaviour) (msg : Message) : Act VM Panic ApplyRet := fun vm =>
  let out := send env msg none none (tryCreateAccountActor env (exec env b.ctor))
    (exec env b.method) vm
  match out.result with
  | .error p => (.error p, out.vm)
  | .ok (.error e, _) => (.ok ⟨⟨e.retCode, [], 0⟩, some e, 0⟩, out.vm)
  | .ok (.ok ret, _) => (.ok ⟨⟨0, ret, 0⟩, none, 0⟩, out.vm)

end VM

end Lotus
