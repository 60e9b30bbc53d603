import Lotus.Vm.Effects

/-!
# Sending messages between actors

`send` and `makeRuntime` of `chain/vm/vm.go`, `Send` and `internalSend` of `chain/vm/runtime.go`,
and `chain/vm/mkactor.go`.
-/

namespace Lotus

open VM Machine Act

namespace VM

def snapshot (vm : VM) : VM := { vm with cstate := vm.cstate.snapshot }

def revert (vm : VM) : VM := { vm with cstate := vm.cstate.revert }

/-- `ClearSnapshot`, where a snapshot is open: with a single layer it would panic. -/
def clearSnapshot (vm : VM) : VM :=
  { vm with cstate := vm.cstate.clearSnapshot.getD vm.cstate }

end VM

namespace Runtime

variable (env : Env)

abbrev Body := Act Machine Panic RetVal

/-- `makeRuntime`. It panics when the sender's address does not resolve. -/
def makeRuntime (msg : Message) (origin : Address) (originNonce : UInt64) (usedGas : Int64)
    (nac : UInt64) : Act VM Panic Runtime := do
  let vm ← get
  match ← resolveAddress env msg.fromAddr with
  | none => abortf ExitCode.sysErrInvalidReceiver "resolve msg.From address failed"
  | some resF =>
    pure
      { vmsg := { msg with fromAddr := resF }
        height := vm.blockHeight
        gasAvailable := msg.gasLimit
        gasUsed := usedGas
        origin
        originNonce
        numActorsCreated := nac
        allowInternal := true
        callerValidated := false
        openTxs := 0 }

/-- The actor that `send` calls: the receiver, or what `create` makes of it if there is none. -/
def targetActor (toAddr : Address) (create : Address → Act Machine Fault Actor) :
    Act Machine Fault Actor := do
  match ← (onVM (onTree (StateTree.getActor env.init toAddr))).attempt with
  | .ok act => pure act
  | .error err =>
    if err.isNotFound then
      (create toAddr).mapError fun
        | .err e => .err (e.wrap "could not create account")
        | .panic p => .panic p
    else onVM (raise (.escalate "getting actor"))

def transferValue (msg : Message) (value : ℤ) : Act Machine Fault Unit :=
  if value = 0 then pure ()
  else
    (onVM (transfer env.init msg.fromAddr msg.toAddr value)).mapError fun
      | .err e => .err (e.wrap "failed to transfer funds")
      | .panic p => .panic p

/-- The last part of the closure in `send`: transfer the value and invoke the method. -/
def transferAndInvoke (msg : Message) (value : ℤ) (toActor : Actor) (body : Body) :
    Act Machine Fault Bytes := do
  transferValue env msg value
  if msg.method ≠ 0 then
    chargeGasIgnored gasOnActorExec
    invoke env toActor.code msg.method msg.params body
  else pure []

/-- The charge for the message itself, which only the outermost `send` makes. -/
def chargeInitial : Option GasCharge → Act Machine Fault Unit
  | none => pure ()
  | some gas => chargeGasSafe gas
      (some "not enough gas for initial message charge, this should not happen")

/-- `send` from the point where its runtime is made. A missing value panics in the price list. -/
def sendBody (msg : Message) (gasCharge : Option GasCharge)
    (create : Address → Act Machine Fault Actor) (body : Body) : Act Machine Fault Bytes := do
  chargeInitial gasCharge
  chargeGasIgnored (newGasCharge "OnGetActor" 0 0)
  let toActor ← targetActor env msg.toAddr create
  match msg.value with
  | none => fail (.panic .other)
  | some value =>
    chargeGasSafe ((← pricelist).onMethodInvocation value msg.method)
      (some "not enough gas for method invocation")
    (transferAndInvoke env msg value toActor body).ensure
      (chargeGasIgnored (newGasCharge "OnMethodInvocationDone" 0 0) : Act Machine Fault Unit)

/-- What `send` leaves: the VM, the runtime of its parent, and its result with its own runtime
unless it panicked. -/
structure SendOut where
  vm : VM
  parent : Option Runtime
  result : Except Panic (Except ActorError Bytes × Runtime)

/-- `send`. The gas its runtime has used is handed to the parent however it ends. When it returns an
error it returns no bytes with it. -/
def send (msg : Message) (parent : Option Runtime) (gasCharge : Option GasCharge)
    (create : Address → Act Machine Fault Actor) (body : Body) (vm : VM) : SendOut :=
  let origin := (parent.map (·.origin)).getD msg.fromAddr
  let originNonce := (parent.map (·.originNonce)).getD msg.nonce
  let nac := (parent.map (·.numActorsCreated)).getD 0
  let gasUsed := (parent.map (·.gasUsed)).getD 0
  match makeRuntime env msg origin originNonce gasUsed nac vm with
  | (.error p, vm') => ⟨vm', parent, .error p⟩
  | (.ok rt, vm') =>
    let (r, m) := sendBody env msg gasCharge create body ⟨vm', rt⟩
    { vm := m.vm
      parent := parent.map fun p => { p with gasUsed := m.rt.gasUsed }
      result :=
        match r with
        | .ok ret => .ok (.ok ret, m.rt)
        | .error (.err e) => .ok (.error e, m.rt)
        | .error (.panic p) => .error p }

def internalSend (fromAddr toAddr : Address) (method : UInt64) (value : Option ℤ) (params : Bytes)
    (create : Address → Act Machine Fault Actor) (body : Body) : Act Machine Fault Bytes := fun m =>
  let msg : Message :=
    { version := 0
      toAddr
      fromAddr
      nonce := 0
      value
      gasPrice := none
      gasLimit := m.rt.gasAvailable
      method
      params }
  let out := send env msg (some m.rt) none create body m.vm.snapshot
  let rt := out.parent.getD m.rt
  match out.result with
  | .error p => (.error (.panic p), ⟨out.vm.clearSnapshot, rt⟩)
  | .ok (r, subrt) =>
    let rt := { rt with numActorsCreated := subrt.numActorsCreated }
    match r with
    | .ok ret => (.ok ret, ⟨out.vm.clearSnapshot, rt⟩)
    | .error e => (.error (.err e), ⟨out.vm.revert.clearSnapshot, rt⟩)

def makeActor (addr : Address) : Except ActorError Actor :=
  match addr.protocol with
  | .bls | .secp256k1 => .ok ⟨env.accountActorCodeID, env.emptyObjectCid, 0, 0⟩
  | .id => .error (.newf ExitCode.sysErrInvalidReceiver "no actor with given ID: %s")
  | .actor => .error (.newf ExitCode.sysErrInvalidReceiver "no such actor: %s")
  | .unknown =>
    .error (.newf ExitCode.sysErrInvalidReceiver "address has unsupported protocol: %d")

def methodsAccountConstructor : UInt64 := 1

/-- The creation of the receiver of a constructor call. `send` and `TryCreateAccountActor` call each
other in the source, but the receiver of this call has just been written, so it is not created
again. -/
def noCreate (_addr : Address) : Act Machine Fault Actor := fail (.panic .other)

def tryCreateAccountActor (ctor : Body) (addr : Address) : Act Machine Fault Actor := do
  chargeGasSafe (← pricelist).onCreateActor none
  let addrID ← onVM (orRaise (StateTree.registerNewAddress env.init addr)
    (.escalate "registering actor address"))
  match makeActor env addr with
  | .error e => fail (.err e)
  | .ok act =>
    let m ← get
    onVM (orRaise (StateTree.setActor env.init addrID act) (.escalate "creating new actor failed"))
    onVM (emit (.registered addr addrID (m.vm.cstate.view addrID).isNone))
    let _ ← (internalSend env systemActorAddr addrID methodsAccountConstructor (some 0)
      (env.serializeAddress addr) noCreate ctor).mapError fun
        | .err e => .err (e.wrap "failed to invoke account constructor")
        | .panic p => .panic p
    onVM (orRaise (StateTree.getActor env.init addrID)
      (.escalate "loading newly created actor failed"))

/-- What `Send` hands to the actor code: the bytes returned and the exit code. -/
structure SendReturn where
  ret : Bytes
  code : ExitCode

def sendOp (toAddr : Address) (method : UInt64) (params : Option Bytes) (value : Option ℤ)
    (create : Address → Act Machine Fault Actor) (body : Body) : Act Machine Panic SendReturn := do
  let m ← get
  if !m.rt.allowInternal then
    onVM (abortf ExitCode.sysErrorIllegalActor "runtime.Send() is currently disallowed")
  else
    match params with
    | none => onVM (abortf ExitCode.sysErrInvalidParameters
        "failed to marshal input parameters: %s")
    | some params =>
      onVM (emit (.mark (.sent m.rt.openTxs)))
      let self ← receiver
      match ← (internalSend env self toAddr method value params create body).attempt with
      | .error (.panic p) => fail p
      | .error (.err e) => if e.fatal then fail (.actorErr e) else pure ⟨[], e.retCode⟩
      | .ok ret =>
        chargeGasIgnored gasOnActorExec
        pure ⟨ret, 0⟩

end Runtime

open Lotus.Runtime

/-- Where a tree of operations stands: in a method, or in the closure of a transaction. -/
inductive Kind where
  | method
  | closure

/-- What the tree ends with. -/
abbrev Kind.Result : Kind → Type
  | method => RetVal
  | closure => Object

/-- Actor code as a finite tree over the operations of the runtime. -/
inductive Prog : Kind → Type where
  | ret {κ : Kind} (r : κ.Result) : Prog κ
  | abort {κ : Kind} (p : Panic) : Prog κ
  | chargeGas {κ : Kind} (name : String) (compute : Int64) (k : Prog κ) : Prog κ
  | syscall {κ : Kind} (call : Syscall) (reads : SyscallReads) (k : Bool → Prog κ) : Prog κ
  | validateImmediateCallerAcceptAny {κ : Kind} (k : Prog κ) : Prog κ
  | validateImmediateCallerIs {κ : Kind} (addrs : List Address) (k : Prog κ) : Prog κ
  | validateImmediateCallerType {κ : Kind} (ts : List Cid) (k : Prog κ) : Prog κ
  | resolveAddress {κ : Kind} (addr : Address) (k : Option Address → Prog κ) : Prog κ
  | getActorCodeCID {κ : Kind} (addr : Address) (k : Option Cid → Prog κ) : Prog κ
  | currentBalance {κ : Kind} (k : ℤ → Prog κ) : Prog κ
  | newActorAddress {κ : Kind} (k : Address → Prog κ) : Prog κ
  | createActor {κ : Kind} (codeID : Cid) (addr : Address) (k : Prog κ) : Prog κ
  | deleteActor {κ : Kind} (addr : Address) (k : Prog κ) : Prog κ
  | storeGet {κ : Kind} (read : StoreRead) (k : Bool → Prog κ) : Prog κ
  | storePut {κ : Kind} (obj : Object) (k : Cid → Prog κ) : Prog κ
  | stateCreate {κ : Kind} (obj : Object) (k : Prog κ) : Prog κ
  | stateReadonly {κ : Kind} (read : StoreRead) (k : Prog κ) : Prog κ
  | transaction {κ : Kind} (read : Option StoreRead) (f : Prog .closure) (k : Prog κ) : Prog κ
  | totalFilCircSupply {κ : Kind} (vested : Option ℤ) (market : StoreRead) (locked : ℤ)
      (power : StoreRead) (pledge : ℤ) (k : ℤ → Prog κ) : Prog κ
  | getRandomness {κ : Kind} (available : Bool) (k : Prog κ) : Prog κ
  | send {κ : Kind} (toAddr : Address) (method : UInt64) (params : Option Bytes) (value : Option ℤ)
      (ctor callee : Prog .method) (k : SendReturn → Prog κ) : Prog κ

def exec (env : Env) {κ : Kind} : Prog κ → Act Machine Panic κ.Result
  | .ret r => pure r
  | .abort p => fail p
  | .chargeGas name compute k => chargeGasActor name compute >>= fun _ => exec env k
  | .syscall call reads k => Runtime.syscall env call reads >>= fun b => exec env (k b)
  | .validateImmediateCallerAcceptAny k =>
    Runtime.validateImmediateCallerAcceptAny >>= fun _ => exec env k
  | .validateImmediateCallerIs addrs k =>
    Runtime.validateImmediateCallerIs addrs >>= fun _ => exec env k
  | .validateImmediateCallerType ts k =>
    Runtime.validateImmediateCallerType env ts >>= fun _ => exec env k
  | .resolveAddress addr k => onVM (Runtime.resolveAddress env addr) >>= fun r => exec env (k r)
  | .getActorCodeCID addr k => onVM (Runtime.getActorCodeCID env addr) >>= fun r => exec env (k r)
  | .currentBalance k => Runtime.currentBalance env >>= fun b => exec env (k b)
  | .newActorAddress k => Runtime.newActorAddress env >>= fun a => exec env (k a)
  | .createActor codeID addr k => Runtime.createActor env codeID addr >>= fun _ => exec env k
  | .deleteActor addr k => Runtime.deleteActor env addr >>= fun _ => exec env k
  | .storeGet read k => Runtime.storeGet read >>= fun b => exec env (k b)
  | .storePut obj k => Runtime.storePut obj >>= fun c => exec env (k c)
  | .stateCreate obj k => Runtime.stateCreate env obj >>= fun _ => exec env k
  | .stateReadonly read k => Runtime.stateReadonly env read >>= fun _ => exec env k
  | .transaction read f k => Runtime.transaction env read (exec env f) >>= fun _ => exec env k
  | .totalFilCircSupply vested market locked power pledge k =>
    Runtime.totalFilCircSupply env vested market locked power pledge >>= fun s => exec env (k s)
  | .getRandomness available k => Runtime.getRandomness available >>= fun _ => exec env k
  | .send toAddr method params value ctor callee k =>
    sendOp env toAddr method params value (tryCreateAccountActor env (exec env ctor))
      (exec env callee) >>= fun r => exec env (k r)

/-- How the actors involved in a message behave: the constructor of the receiver's account, if it is
created, and the method that the message calls. -/
structure Behaviour where
  ctor : Prog .method
  method : Prog .method

end Lotus
