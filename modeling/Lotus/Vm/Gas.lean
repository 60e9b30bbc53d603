import Lotus.Types.Message

/-!
# Gas prices

`chain/vm/gas.go` and `chain/vm/gas_v0.go`.
-/

namespace Lotus

def gasStorageMulti : Int64 := 1000
def gasComputeMulti : Int64 := 1

structure GasCharge where
  name : String
  computeGas : Int64
  storageGas : Int64
deriving DecidableEq, Repr

def GasCharge.total (g : GasCharge) : Int64 :=
  g.computeGas * gasComputeMulti + g.storageGas * gasStorageMulti

def newGasCharge (name : String) (computeGas storageGas : Int64) : GasCharge :=
  ⟨name, computeGas, storageGas⟩

def gasOnActorExec : GasCharge := newGasCharge "OnActorExec" 0 0

/-- `abi.RegisteredPoStProof`, as far as the price list tells its values apart. -/
inductive RegisteredPoStProof where
  | stackedDrgWindow512MiBV1
  | stackedDrgWindow32GiBV1
  | stackedDrgWindow64GiBV1
  | other (n : ℤ)
deriving DecidableEq, Repr

structure ScalingCost where
  flat : Int64
  scale : Int64

structure PricelistV0 where
  onChainMessageComputeBase : Int64
  onChainMessageStorageBase : Int64
  onChainMessageStoragePerByte : Int64
  onChainReturnValuePerByte : Int64
  sendBase : Int64
  sendTransferFunds : Int64
  sendTransferOnlyPremium : Int64
  sendInvokeMethod : Int64
  ipldGetBase : Int64
  ipldPutBase : Int64
  ipldPutPerByte : Int64
  createActorCompute : Int64
  createActorStorage : Int64
  deleteActor : Int64
  verifySignature : SigType → Option Int64
  hashingBase : Int64
  computeUnsealedSectorCidBase : Int64
  verifySealBase : Int64
  verifyPostLookup : RegisteredPoStProof → Option ScalingCost
  verifyConsensusFault : Int64

/-- The entry of `prices` for epoch 0. -/
def pricelistV0 : PricelistV0 where
  onChainMessageComputeBase := 137137
  onChainMessageStorageBase := 36
  onChainMessageStoragePerByte := 1
  onChainReturnValuePerByte := 1
  sendBase := 97236
  sendTransferFunds := 96812
  sendTransferOnlyPremium := 347806
  sendInvokeMethod := -3110
  ipldGetBase := 417230
  ipldPutBase := 396100
  ipldPutPerByte := 1
  createActorCompute := 750011
  createActorStorage := 36 + 40
  deleteActor := -(36 + 40)
  verifySignature
    | .bls => some 219946580
    | .secp256k1 => some 6726720
    | .unknown _ => none
  hashingBase := 110685
  computeUnsealedSectorCidBase := 431890
  verifySealBase := 2000
  verifyPostLookup
    | .stackedDrgWindow512MiBV1 => some ⟨106102820, 10238878⟩
    | .stackedDrgWindow32GiBV1 => some ⟨1165718059, 166657⟩
    | .stackedDrgWindow64GiBV1 => some ⟨1165718059, 166657⟩
    | .other _ => none
  verifyConsensusFault := 495422

def prices : List (Int64 × PricelistV0) := [(0, pricelistV0)]

/-- `PricelistByEpoch`: the entry with the highest epoch that is not above `epoch`. -/
def pricelistByEpoch (epoch : Int64) : PricelistV0 :=
  (prices.foldl
    (fun best entry => if entry.1 > best.1 ∧ entry.1 ≤ epoch then entry else best)
    ((0 : Int64), pricelistV0)).2

namespace PricelistV0

variable (pl : PricelistV0)

def onChainMessage (msgSize : ℕ) : GasCharge :=
  newGasCharge "OnChainMessage" pl.onChainMessageComputeBase
    (pl.onChainMessageStorageBase + pl.onChainMessageStoragePerByte * Int64.ofNat msgSize)

def onChainReturnValue (dataSize : ℕ) : GasCharge :=
  newGasCharge "OnChainReturnValue" 0 (Int64.ofNat dataSize * pl.onChainReturnValuePerByte)

def onMethodInvocation (value : ℤ) (methodNum : UInt64) : GasCharge :=
  let transfer :=
    if value ≠ 0 then
      pl.sendTransferFunds + (if methodNum = 0 then pl.sendTransferOnlyPremium else 0)
    else 0
  let invoke := if methodNum ≠ 0 then pl.sendInvokeMethod else 0
  newGasCharge "OnMethodInvocation" (pl.sendBase + transfer + invoke) 0

def onIpldGet : GasCharge := newGasCharge "OnIpldGet" pl.ipldGetBase 0

def onIpldPut (dataSize : ℕ) : GasCharge :=
  newGasCharge "OnIpldPut" pl.ipldPutBase (Int64.ofNat dataSize * pl.ipldPutPerByte)

def onCreateActor : GasCharge :=
  newGasCharge "OnCreateActor" pl.createActorCompute pl.createActorStorage

def onDeleteActor : GasCharge := newGasCharge "OnDeleteActor" 0 pl.deleteActor

/-- `OnVerifySignature`; there is no price for an unknown signature type. -/
def onVerifySignature (sigType : SigType) : Option GasCharge :=
  (pl.verifySignature sigType).map fun cost => newGasCharge "OnVerifySignature" cost 0

def onHashing : GasCharge := newGasCharge "OnHashing" pl.hashingBase 0

def onComputeUnsealedSectorCid : GasCharge :=
  newGasCharge "OnComputeUnsealedSectorCid" pl.computeUnsealedSectorCidBase 0

def onVerifySeal : GasCharge := newGasCharge "OnVerifySeal" pl.verifySealBase 0

/-- The scaling cost that `OnVerifyPost` finds for a list of proofs. -/
def verifyPostCost (proofs : List RegisteredPoStProof) : ScalingCost :=
  ((pl.verifyPostLookup (proofs.headD (.other 0))).or
    (pl.verifyPostLookup .stackedDrgWindow512MiBV1)).getD ⟨0, 0⟩

def onVerifyPost (proofs : List RegisteredPoStProof) (n : ℕ) : GasCharge :=
  let cost := pl.verifyPostCost proofs
  newGasCharge "OnVerifyPost" ((cost.flat + Int64.ofNat n * cost.scale) / 2) 0

def onVerifyConsensusFault : GasCharge :=
  newGasCharge "OnVerifyConsensusFault" pl.verifyConsensusFault 0

end PricelistV0

inductive Syscall where
  | verifySignature (sigType : SigType)
  | hashBlake2b
  | computeUnsealedSectorCID
  | verifySeal
  | verifyPoSt (proofs : List RegisteredPoStProof) (challengedSectors : ℕ)
  | verifyConsensusFault
  | batchVerifySeals

/-- What a system call charges before it runs; `none` when it returns before charging. -/
def Syscall.price (pl : PricelistV0) : Syscall → Option GasCharge
  | verifySignature t => pl.onVerifySignature t
  | hashBlake2b => some pl.onHashing
  | computeUnsealedSectorCID => some pl.onComputeUnsealedSectorCid
  | verifySeal => some pl.onVerifySeal
  | verifyPoSt proofs n => some (pl.onVerifyPost proofs n)
  | verifyConsensusFault => some pl.onVerifyConsensusFault
  | batchVerifySeals => some (newGasCharge "BatchVerifySeals" 0 0)

/-- The charge of `toUse` is refused (`chargeGasInternal`). -/
def OutOfGas (gasAvailable gasUsed toUse : Int64) : Prop := gasUsed > gasAvailable - toUse
deriving Decidable

/-- The gas used after a charge of `toUse` (`chargeGasInternal`). -/
def meter (gasAvailable gasUsed toUse : Int64) : Int64 :=
  if OutOfGas gasAvailable gasUsed toUse then gasAvailable else gasUsed + toUse

end Lotus
