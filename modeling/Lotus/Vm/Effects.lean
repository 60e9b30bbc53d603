import Lotus.Vm.Runtime

/-!
# Runtime operations that write

The rest of the runtime of `chain/vm/runtime.go` but sending: creating and deleting actors, the
object store, the state handle, and `shimCall`, which runs a method and turns its panics into
errors.
-/

namespace Lotus

open VM Machine Act

namespace Runtime

variable {α : Type} (env : Env)

/-- Note a call of `Create`, `Transaction` or `DeleteActor`. -/
def noteStateCall : Act Machine Panic Unit := do
  let m ← get
  onVM (emit (.mark (.stateCall m.rt.openTxs)))

def createActor (codeID : Cid) (addr : Address) : Act Machine Panic Unit := do
  if !env.isBuiltinActor codeID then
    onVM (abortf ExitCode.sysErrorIllegalArgument "Can only create built-in actors.")
  else if env.isSingletonActor codeID then
    onVM (abortf ExitCode.sysErrorIllegalArgument "Can only have one instance of singleton actors.")
  else
    match ← (onVM (onTree (StateTree.getActor env.init addr))).attempt with
    | .ok _ => onVM (abortf ExitCode.sysErrorIllegalArgument "Actor address already exists")
    | .error _ =>
      chargeGas (← pricelist).onCreateActor
      match ← (onVM (onTree (StateTree.setActor env.init addr
          ⟨codeID, env.emptyObjectCid, 0, 0⟩))).attempt with
      | .error _ => onVM (panicWith (.fatalf "creating actor entry: %v"))
      | .ok _ =>
        let m ← get
        onVM (emit (.created (m.vm.resolved env.init addr)))
        chargeGasIgnored gasOnActorExec

/-- The part of `DeleteActor` that sends the balance to the burnt-funds actor. -/
def burnBalance (self : Address) (balance : ℤ) : Act Machine Panic Unit := do
  if balance = 0 then pure ()
  else
    match ← (onVM (transfer env.init self burntFundsActorAddr balance)).attempt with
    | .ok _ => pure ()
    | .error _ => onVM (panicWith (.fatalf "failed to transfer balance to burnt funds actor: %s"))

/-- The part of `DeleteActor` that removes the actor. -/
def removeActor (self : Address) : Act Machine Panic Unit := do
  match ← (onVM (onTree (StateTree.deleteActor env.init self))).attempt with
  | .error _ => onVM (panicWith (.fatalf "failed to delete actor: %s"))
  | .ok _ =>
    let m ← get
    onVM (emit (.deleted (m.vm.resolved env.init self)))
    chargeGasIgnored gasOnActorExec

/-- `DeleteActor`. It deletes the receiver, whatever address it is given. -/
def deleteActor (_addr : Address) : Act Machine Panic Unit := do
  noteStateCall
  chargeGas (← pricelist).onDeleteActor
  let self ← receiver
  match ← (onVM (onTree (StateTree.getActor env.init self))).attempt with
  | .error err =>
    if err.isNotFound then
      onVM (abortf ExitCode.sysErrorIllegalActor "failed to load actor in delete actor: %s")
    else onVM (panicWith (.fatalf "failed to get actor: %s"))
  | .ok act =>
    burnBalance env self act.balance
    removeActor env self

/-- What a read from the object store finds: an object, bytes that do not decode, nothing, nothing
under an error that is also one of serialization, or a store that fails. -/
inductive StoreRead where
  | found
  | undecodable
  | notFound
  | malformed
  | failed
deriving DecidableEq

/-- An object to be stored: it has a CID and a size, or does not serialize, or the store fails on
it. -/
inductive Object where
  | block (c : Cid) (size : ℕ)
  | unserializable
  | unstorable (size : ℕ)
deriving DecidableEq

def chargeIpldGetEnd : Act Machine Panic Unit := do
  chargeGas (newGasCharge "OnIpldGetEnd" 0 0)
  chargeGas gasOnActorExec

def storeGet (read : StoreRead) : Act Machine Panic Bool := do
  chargeGas (← pricelist).onIpldGet
  match read with
  | .found =>
    chargeIpldGetEnd
    pure true
  | .undecodable =>
    chargeIpldGetEnd
    onVM (panicWith (.fatalf "failed to get cbor object %s: %s"))
  | .notFound => pure false
  | .malformed =>
    onVM (panicWith (.newf ExitCode.errSerialization "failed to unmarshal cbor object %s"))
  | .failed => onVM (panicWith (.fatalf "failed to get cbor object %s: %s"))

def storePut (obj : Object) : Act Machine Panic Cid := do
  match obj with
  | .unserializable =>
    onVM (panicWith (.newf ExitCode.errSerialization "failed to marshal cbor object %s"))
  | .unstorable size =>
    chargeGas ((← pricelist).onIpldPut size)
    onVM (panicWith (.fatalf "failed to put cbor object: %s"))
  | .block c size =>
    chargeGas ((← pricelist).onIpldPut size)
    chargeGas gasOnActorExec
    pure c

/-! ## System calls -/

/-- `cst.Get` in a system call, which hands an error on to actor code as an ordinary one: the answer
is whether there was none. An error of the store is escalated to a fatal one by
`gasChargingBlocks.Get`. -/
def syscallRead (read : StoreRead) : Act Machine Panic Bool := do
  chargeGas (← pricelist).onIpldGet
  match read with
  | .found =>
    chargeIpldGetEnd
    pure true
  | .undecodable =>
    chargeIpldGetEnd
    pure false
  | .notFound | .malformed | .failed =>
    onVM (emit (.mark .readFailed))
    onVM (emit .fatal)
    pure false

/-- `ResolveToKeyAddr` with the store of the runtime. `Absorb` keeps a fatal error fatal. -/
def syscallKeyAddr (addr : Address) (account : StoreRead) : Act Machine Panic Bool := do
  if addr.protocol = .bls ∨ addr.protocol = .secp256k1 then pure true
  else
    match ← (onVM (onTree (StateTree.getActor env.init addr))).attempt with
    | .error _ => pure false
    | .ok act => if act.code ≠ env.accountActorCodeID then pure false else syscallRead account

/-- What `VerifyBlockSig` looks up for a block, with the answers of the store. -/
structure BlockSigReads where
  miner : Address
  state : StoreRead
  info : StoreRead
  worker : Address
  account : StoreRead

/-- `VerifyBlockSig` up to the check of the signature. -/
def verifyBlockSig (r : BlockSigReads) : Act Machine Panic Bool := do
  match ← (onVM (onTree (StateTree.getActor env.init r.miner))).attempt with
  | .error _ => pure false
  | .ok _ =>
    if !(← syscallRead r.state) then pure false
    else if !(← syscallRead r.info) then pure false
    else syscallKeyAddr env r.worker r.account

/-- The signatures that `VerifyConsensusFault` comes to. -/
def verifyBlockSigs : List BlockSigReads → Act Machine Panic Bool
  | [] => pure true
  | r :: rs => do if ← verifyBlockSig env r then verifyBlockSigs rs else pure false

/-- What a system call reads: `VerifySignature` the account of the signer, and
`VerifyConsensusFault` the miners of its blocks. -/
inductive SyscallReads where
  | nothing
  | signer (addr : Address) (account : StoreRead)
  | blockSigs (sigs : List BlockSigReads)

def syscallReads (call : Syscall) (reads : SyscallReads) : Act Machine Panic Bool :=
  match call, reads with
  | .verifySignature _, .signer addr account => syscallKeyAddr env addr account
  | .verifyConsensusFault, .blockSigs sigs => verifyBlockSigs env sigs
  | _, _ => pure true

/-- A system call; the answer is whether it got past its reads. The charge at its end is deferred,
and after a panic, which left no gas, it is always paid. -/
def syscall (call : Syscall) (reads : SyscallReads) : Act Machine Panic Bool := do
  match call.price (← pricelist) with
  | none => pure false
  | some gas =>
    chargeGas gas
    match ← (syscallReads env call reads).attempt with
    | .ok answered =>
      chargeGas gasOnActorExec
      pure answered
    | .error p =>
      chargeGasIgnored gasOnActorExec
      fail p

/-! ## The state handle -/

def stateCommit (self : Address) (oldh newh : Cid) : Act VM Fault Unit := do
  let act ← orRaise (StateTree.getActor env.init self)
    (.escalate "failed to get actor to commit state")
  if act.head ≠ oldh then raise (.fatalf "failed to update, inconsistent base reference")
  else
    orRaise (StateTree.setActor env.init self { act with head := newh })
      (.fatalf "failed to set actor in commit state: %s")

/-- `stateCommit` as the state handle calls it: its error is dropped. -/
def stateCommitIgnored (oldh newh : Cid) : Act Machine Panic Unit := do
  let self ← receiver
  let m ← get
  onVM (emit (.mark (.commit (m.vm.headOf env.init self) oldh)))
  let _ ← (onVM (stateCommit env self oldh newh)).attempt

def stateCreate (obj : Object) : Act Machine Panic Unit := do
  noteStateCall
  let c ← storePut obj
  stateCommitIgnored env env.emptyObjectCid c

def stateReadonly (read : StoreRead) : Act Machine Panic Unit := do
  let self ← receiver
  match ← (onVM (onTree (StateTree.getActor env.init self))).attempt with
  | .error _ =>
    onVM (abortf ExitCode.sysErrorIllegalArgument "failed to get actor for Readonly state: %s")
  | .ok _ =>
    let _ ← storeGet read

def setAllowInternal (b : Bool) : Act Machine Panic Unit :=
  modify fun m => { m with rt := { m.rt with allowInternal := b } }

/-- Count the transaction of the frame as open while `x` runs. -/
def whileOpen (x : Act Machine Panic α) : Act Machine Panic α :=
  ((Act.modify fun m => { m with rt := { m.rt with openTxs := m.rt.openTxs + 1 } }) >>=
    fun _ => x).ensure
      (modify fun m => { m with rt := { m.rt with openTxs := m.rt.openTxs - 1 } } :
        Act Machine Panic Unit)

/-- `State().Transaction`; `f` gives the object as it is when the closure returns. -/
def transaction (read : Option StoreRead) (f : Act Machine Panic Object) :
    Act Machine Panic Unit := do
  noteStateCall
  match read with
  | none => onVM (abortf ExitCode.sysErrorIllegalActor "Must not pass nil to Transaction()")
  | some read =>
    let self ← receiver
    match ← (onVM (onTree (StateTree.getActor env.init self))).attempt with
    | .error _ =>
      onVM (abortf ExitCode.sysErrorIllegalActor "failed to get actor for Transaction: %s")
    | .ok act =>
      let c ← whileOpen do
        let _ ← storeGet read
        setAllowInternal false
        let obj ← f
        setAllowInternal true
        let c ← storePut obj
        stateCommitIgnored env act.head c
        pure c
      let m ← get
      onVM (emit (.mark (.transacted (m.vm.headOf env.init self) c)))

/-! ## The circulating supply -/

/-- `rt.cst.Get` as `TotalFilCircSupply` calls it. An error of the store is escalated to a fatal one
by `gasChargingBlocks.Get`; here it aborts like any other. -/
def supplyRead (read : StoreRead) (msg : String) : Act Machine Panic Unit := do
  chargeGas (← pricelist).onIpldGet
  match read with
  | .found => chargeIpldGetEnd
  | .undecodable =>
    chargeIpldGetEnd
    onVM (abortf ExitCode.errIllegalState msg)
  | .notFound | .malformed | .failed =>
    onVM (emit (.mark .readFailed))
    onVM (emit .fatal)
    onVM (abortf ExitCode.errIllegalState msg)

/-- The balance of one of the actors that `TotalFilCircSupply` looks up. -/
def supplyActor (addr : Address) : Act Machine Panic ℤ := do
  match ← (onVM (onTree (StateTree.getActor env.init addr))).attempt with
  | .ok act => pure act.balance
  | .error _ => onVM (abortf ExitCode.errIllegalState
      "failed to get reward actor for computing total supply: %s")

def filAllocStorageMining : ℤ := 1100000000 * 10 ^ 18

/-- `TotalFilCircSupply`. The funds vested (`none` if they are not known), what is locked in the
market and the pledge come from other packages. -/
def totalFilCircSupply (vested : Option ℤ) (market : StoreRead) (locked : ℤ) (power : StoreRead)
    (pledge : ℤ) : Act Machine Panic ℤ := do
  match vested with
  | none => onVM (abortf ExitCode.errIllegalState
      "failed to get vested funds for computing total supply: %s")
  | some vested =>
    let rew ← supplyActor env rewardActorAddr
    let burnt ← supplyActor env burntFundsActorAddr
    let _ ← supplyActor env storageMarketActorAddr
    supplyRead market "failed to get market state: %s"
    let _ ← supplyActor env storagePowerActorAddr
    supplyRead power "failed to get storage power state: %s"
    pure (max 0 (vested + max 0 (filAllocStorageMining - rew) - burnt - (locked + pledge)))

/-- `GetRandomness`, which gets it or not; what it gets is not modelled. -/
def getRandomness (available : Bool) : Act Machine Panic Unit :=
  if available then pure () else onVM (panicWith (.fatalf "could not get randomness: %s"))

/-- The value a method returns, by the cases that `shimCall` tells apart. -/
inductive RetVal where
  | bytes (b : Bytes)
  | emptyValue
  /-- a value with `MarshalCBOR`, and its bytes if it marshals -/
  | marshaler (b : Option Bytes)
  | nil
  | other

def recoverPanic : Panic → ActorError
  | .actorErr err => err
  | .other => .newf 1 "spec actors failure: %s"

def shimCall (f : Act Machine Panic RetVal) : Act Machine Fault Bytes :=
  ((do
    let ret ← f
    let m ← get
    if !m.rt.callerValidated then
      onVM (abortf ExitCode.sysErrorIllegalActor "Caller MUST be validated during method execution")
    else pure ret) : Act Machine Panic RetVal).mapError (fun p => Fault.err (recoverPanic p)) >>=
  fun
    | .bytes b => pure b
    | .emptyValue => pure []
    | .marshaler (some b) => pure b
    | .marshaler none => fail (.err (.absorb 2 "failed to marshal response to cbor"))
    | .nil => pure []
    | .other => fail (.err (.newf 3 "could not determine type for response from call"))

/-- `Invoker.Invoke`, with the body that the behaviour under study gives the method. A `nil` export
has been registered like any other, and calling it panics outside of `shimCall`. -/
def invoke (code : Cid) (method : UInt64) (params : Bytes) (body : Act Machine Panic RetVal) :
    Act Machine Fault Bytes :=
  match env.builtInCode code with
  | none => fail (.err (.newf ExitCode.sysErrorIllegalActor "no code for actor %s(%d)(%s)"))
  | some methods =>
    match methods[method.toNat]? with
    | none => fail (.err (.newf ExitCode.sysErrInvalidMethod "no method %d on actor"))
    | some none => fail (.panic .other)
    | some (some decodes) =>
      if decodes params then shimCall body
      else fail (.err (.absorb 1 "failed to decode parameters"))

end Runtime

end Lotus
