import Lotus.State.View
import Lotus.Vm.Gas

/-!
# The runtime of an actor method

`chain/vm/runtime.go`, except for sending, and the value transfer of `chain/vm/vm.go`.
-/

namespace Lotus

open Act

structure Env where
  init : InitActor
  accountActorCodeID : Cid
  emptyObjectCid : Cid
  isBuiltinActor : Cid → Bool
  isSingletonActor : Cid → Bool
  /-- `Invoker.builtInCode`: the methods by number, each with the test whether it decodes its
  parameters; `none` is a `nil` export. -/
  builtInCode : Cid → Option (List (Option (Bytes → Bool)))
  accountState : Cid → Option Address
  newActorAddress : Address → UInt64 → UInt64 → Address
  /-- `actors.SerializeParams` of an address -/
  serializeAddress : Address → Bytes

/-- What is noted about a moment of the execution, for statements that are about its order. -/
inductive Mark where
  /-- the state handle is about to commit: the receiver's head, if it has one, and the head that
  the commit expects -/
  | commit (found : Option Cid) (expected : Cid)
  /-- the store failed on a read of `TotalFilCircSupply` or of a system call -/
  | readFailed
  /-- `Create`, `Transaction` or `DeleteActor` is called in a frame with this many open
  transactions -/
  | stateCall (openTxs : ℕ)
  /-- a `Send` runs in a frame with this many open transactions -/
  | sent (openTxs : ℕ)
  /-- a `Transaction` returns: the receiver's head, and the CID of the object -/
  | transacted (head : Option Cid) (c : Cid)
deriving DecidableEq

/-- What `ApplyBlocks` runs between the messages of its blocks. -/
inductive Round where
  /-- the upgrade that is registered for an epoch -/
  | upgrade (epoch : ℤ)
  /-- the cron tick, on a VM at this height -/
  | cronTick (height : ℤ)
deriving DecidableEq, Repr

/-- What the log records. -/
inductive Event where
  /-- a gas charge, paid or refused -/
  | charged (gas : GasCharge)
  /-- `CreateActor` wrote an actor -/
  | created (id : Address)
  /-- an account actor was written at the ID that the init actor assigned to `addr`, which was
  free or not -/
  | registered (addr id : Address) (fresh : Bool)
  /-- `DeleteActor` removed the actor -/
  | deleted (id : Address)
  /-- a fatal error came up -/
  | fatal
  /-- `NewActorAddress` hashed this key address, nonce and counter -/
  | newAddress (key : Address) (nonce count : UInt64)
  /-- a note without effect -/
  | mark (m : Mark)
  /-- `ApplyBlocks` ran an upgrade or the cron tick -/
  | round (r : Round)
deriving DecidableEq

structure VM where
  cstate : StateTree
  blockHeight : Int64
  log : List Event

/-- `Runtime`; of its message it keeps `vmsg`, with the sender resolved to an ID. The last field
counts the transactions of the frame between their load and their commit. -/
structure Runtime where
  vmsg : Message
  height : Int64
  gasAvailable : Int64
  gasUsed : Int64
  origin : Address
  originNonce : UInt64
  numActorsCreated : UInt64
  allowInternal : Bool
  callerValidated : Bool
  openTxs : ℕ
deriving DecidableEq

structure Machine where
  vm : VM
  rt : Runtime

variable {ε α : Type}

def VM.onTree (x : Act StateTree ε α) : Act VM ε α :=
  x.zoom VM.cstate fun vm t => { vm with cstate := t }

def Machine.onVM (x : Act VM ε α) : Act Machine ε α :=
  x.zoom Machine.vm fun m vm => { m with vm := vm }

open VM Machine

namespace VM

def emit (e : Event) : Act VM ε Unit := modify fun vm => { vm with log := vm.log ++ [e] }

def note (err : ActorError) : Act VM ε Unit := if err.fatal then emit .fatal else pure ()

def raise (err : ActorError) : Act VM Fault α := do
  note err
  fail (.err err)

def panicWith (err : ActorError) : Act VM Panic α := do
  note err
  fail (.actorErr err)

def abortf (code : ExitCode) (msg : String) : Act VM Panic α := panicWith (.newf code msg)

def resolved (init : InitActor) (vm : VM) (addr : Address) : Address :=
  match (StateTree.lookupID init addr vm.cstate).1 with
  | .ok id => id
  | .error _ => addr

def headOf (init : InitActor) (vm : VM) (addr : Address) : Option Cid :=
  match (StateTree.getActor init addr vm.cstate).1 with
  | .ok act => some act.head
  | .error _ => none

variable (init : InitActor)

def deductFunds (act : Actor) (amt : ℤ) : Except TreeErr Actor :=
  if act.balance < amt then .error (.other "not enough funds")
  else .ok { act with balance := act.balance - amt }

def depositFunds (act : Actor) (amt : ℤ) : Actor := { act with balance := act.balance + amt }

/-- Run on the state tree and turn an error into the actor error `err`. -/
def orRaise (x : Act StateTree TreeErr α) (err : ActorError) : Act VM Fault α := do
  match ← (onTree x).attempt with
  | .ok a => pure a
  | .error _ => raise err

def transfer (fromAddr toAddr : Address) (amt : ℤ) : Act VM Fault Unit := do
  if fromAddr = toAddr then pure ()
  else
    let fromID ← orRaise (StateTree.lookupID init fromAddr)
      (.fatalf "transfer failed when resolving sender address: %s")
    let toID ← orRaise (StateTree.lookupID init toAddr)
      (.fatalf "transfer failed when resolving receiver address: %s")
    if fromID = toID then pure ()
    else if amt < 0 then
      raise (.newf ExitCode.sysErrForbidden "attempted to transfer negative value: %s")
    else
      let f ← orRaise (StateTree.getActor init fromID)
        (.fatalf "transfer failed when retrieving sender actor: %s")
      let t ← orRaise (StateTree.getActor init toID)
        (.fatalf "transfer failed when retrieving receiver actor: %s")
      match deductFunds f amt with
      | .error _ => raise (.newf ExitCode.sysErrInsufficientFunds
          "transfer failed when deducting funds (%s): %s")
      | .ok f' =>
        orRaise (StateTree.setActor init fromID f')
          (.fatalf "transfer failed when setting receiver actor: %s")
        orRaise (StateTree.setActor init toID (depositFunds t amt))
          (.fatalf "transfer failed when setting sender actor: %s")

end VM

namespace Runtime

/-! ## Gas -/

/-- `chargeGasInternal`: what it returns is an error or nothing, and never a panic. -/
def chargeGasInternal (gas : GasCharge) : Act Machine ε (Option ActorError) := fun m =>
  let used := meter m.rt.gasAvailable m.rt.gasUsed gas.total
  let m' : Machine :=
    { vm := { m.vm with log := m.vm.log ++ [.charged gas] }, rt := { m.rt with gasUsed := used } }
  if OutOfGas m.rt.gasAvailable m.rt.gasUsed gas.total then
    (.ok (some (.newf ExitCode.sysErrOutOfGas "not enough gas: used=%d, available=%d")), m')
  else (.ok none, m')

/-- `chargeGasSafe` with its result ignored. -/
def chargeGasIgnored (gas : GasCharge) : Act Machine ε Unit := do
  let _ ← chargeGasInternal gas

def chargeGasSafe (gas : GasCharge) (msg : Option String) : Act Machine Fault Unit := do
  match ← chargeGasInternal gas with
  | none => pure ()
  | some err => fail (.err (match msg with | some msg => err.wrap msg | none => err))

def chargeGas (gas : GasCharge) : Act Machine Panic Unit := do
  match ← chargeGasInternal gas with
  | none => pure ()
  | some err => fail (.actorErr err)

def chargeGasActor (name : String) (compute : Int64) : Act Machine Panic Unit :=
  chargeGas (newGasCharge name compute 0)

def pricelist : Act Machine ε PricelistV0 := do
  let m ← get
  pure (pricelistByEpoch m.rt.height)

/-- `Message().Receiver()`: the address the message was sent to, as it was written. -/
def receiver : Act Machine ε Address := do
  let m ← get
  pure m.rt.vmsg.toAddr

def caller : Act Machine ε Address := do
  let m ← get
  pure m.rt.vmsg.fromAddr

def abortIfAlreadyValidated : Act Machine Panic Unit := do
  let m ← get
  if m.rt.callerValidated then
    onVM (abortf ExitCode.sysErrorIllegalActor
      "Method must validate caller identity exactly once")
  else modify fun m => { m with rt := { m.rt with callerValidated := true } }

def validateImmediateCallerAcceptAny : Act Machine Panic Unit := abortIfAlreadyValidated

def validateImmediateCallerIs (addrs : List Address) : Act Machine Panic Unit := do
  abortIfAlreadyValidated
  let imm ← caller
  if imm ∈ addrs then pure ()
  else onVM (abortf ExitCode.sysErrForbidden "caller %s is not one of %s")

variable (env : Env)

/-! ## Reading the state tree -/

def resolveAddress (addr : Address) : Act VM Panic (Option Address) := do
  match ← (onTree (StateTree.lookupID env.init addr)).attempt with
  | .ok r => pure (some r)
  | .error err =>
    if err.isNotFound then pure none
    else panicWith (.fatalf "failed to resolve address %s: %s")

def getActorCodeCID (addr : Address) : Act VM Panic (Option Cid) := do
  match ← (onTree (StateTree.getActor env.init addr)).attempt with
  | .ok act => pure (some act.code)
  | .error err =>
    if err.isNotFound then pure none
    else panicWith (.fatalf "failed to get actor: %s")

def validateImmediateCallerType (ts : List Cid) : Act Machine Panic Unit := do
  abortIfAlreadyValidated
  let imm ← caller
  match ← onVM (getActorCodeCID env imm) with
  | none => onVM (panicWith (.fatalf "failed to lookup code cid for caller"))
  | some code =>
    if code ∈ ts then pure ()
    else onVM (abortf ExitCode.sysErrForbidden "caller cid type %q was not one of %v")

/-- `GetBalance`. It compares the error with `ErrActorNotFound` itself, so an address that could not
be resolved counts as a failure. -/
def getBalance (addr : Address) : Act VM Fault ℤ := do
  match ← (onTree (StateTree.getActor env.init addr)).attempt with
  | .ok act => pure act.balance
  | .error .actorNotFound => pure 0
  | .error _ => raise (.escalate "failed to look up actor balance")

/-- `CurrentBalance`. The exit code of the error is 0, so the abort is fatal. -/
def currentBalance : Act Machine Panic ℤ := do
  let self ← receiver
  match ← (onVM (getBalance env self)).attempt with
  | .ok b => pure b
  | .error (.err err) => onVM (abortf err.retCode "get current balance: %v")
  | .error (.panic p) => fail p

/-- `ResolveToKeyAddr`, as `NewActorAddress` uses it: its error is dropped and leaves the undefined
address. -/
def resolveToKeyAddr (addr : Address) : Act VM ε Address := do
  if addr.protocol = .bls ∨ addr.protocol = .secp256k1 then pure addr
  else
    match ← (onTree (StateTree.getActor env.init addr)).attempt with
    | .error _ => pure .undef
    | .ok act =>
      if act.code ≠ env.accountActorCodeID then pure .undef
      else pure ((env.accountState act.head).getD .undef)

def newActorAddress : Act Machine Panic Address := do
  let m ← get
  let key ← onVM (resolveToKeyAddr env m.rt.origin)
  if key = .undef then onVM (panicWith (.fatalf "writing caller address into a buffer: %v"))
  else
    onVM (emit (.newAddress key m.rt.originNonce m.rt.numActorsCreated))
    modify fun m => { m with rt := { m.rt with numActorsCreated := m.rt.numActorsCreated + 1 } }
    pure (env.newActorAddress key m.rt.originNonce m.rt.numActorsCreated)

end Runtime

end Lotus
