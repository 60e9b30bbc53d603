import Lotus.Types.Actor
import Lotus.Types.Errors
import Lotus.Lib.Word

/-!
# Messages and receipts

`chain/types/message.go`, `chain/types/signedmessage.go` and what `ApplyMessage` reports about a
message.
-/

namespace Lotus

structure Message where
  version : ℤ
  toAddr : Address
  fromAddr : Address
  nonce : UInt64
  value : Option ℤ
  gasPrice : Option ℤ
  gasLimit : Int64
  method : UInt64
  params : Bytes
deriving DecidableEq, Repr

/-- `types.ChainMsg`: a message as it is stored on chain, with or without its signature. -/
structure ChainMsg where
  vmMessage : Message
  cid : Cid
  chainLength : ℕ
deriving DecidableEq, Repr

inductive SigType where
  | secp256k1
  | bls
  | unknown (n : UInt8)
deriving DecidableEq, Repr

structure Signature where
  type : SigType
  data : Bytes
deriving DecidableEq, Repr

structure SignedMessage where
  message : Message
  signature : Signature
deriving DecidableEq, Repr

/-- The encoding of messages: the CIDs and the lengths of what `Message.Serialize` and
`SignedMessage.Serialize` give. -/
structure Codec where
  messageCid : Message → Cid
  messageLength : Message → ℕ
  signedCid : SignedMessage → Cid
  signedLength : SignedMessage → ℕ

def SignedMessage.cid (codec : Codec) (sm : SignedMessage) : Cid :=
  if sm.signature.type = .bls then codec.messageCid sm.message else codec.signedCid sm

def Message.toChainMsg (codec : Codec) (m : Message) : ChainMsg :=
  ⟨m, codec.messageCid m, codec.messageLength m⟩

def SignedMessage.toChainMsg (codec : Codec) (sm : SignedMessage) : ChainMsg :=
  ⟨sm.message, sm.cid codec, codec.signedLength sm⟩

def totalFilecoinInt : ℤ := 2000000000 * 1000000000000000000

def Message.requiredFunds (m : Message) : ℤ := m.gasPrice.getD 0 * Word.u64 m.gasLimit

def blockGasLimit : Int64 := 7500000000

/-- `Message.ValidForBlockInclusion`. Comparing an empty `BigInt` panics, which its caller recovers
from with an error. -/
def Message.validForBlockInclusion (m : Message) (minGas : Int64) : Except String Unit :=
  if m.version ≠ 0 then .error "'Version' unsupported"
  else if m.toAddr = .undef then .error "'To' address cannot be empty"
  else if m.fromAddr = .undef then .error "'From' address cannot be empty"
  else
    match m.value with
    | none => .error "validate block panic: nil Value"
    | some value =>
      if value < 0 then .error "'Value' field cannot be negative"
      else if value > totalFilecoinInt then
        .error "'Value' field cannot be greater than total filecoin supply"
      else
        match m.gasPrice with
        | none => .error "validate block panic: nil GasPrice"
        | some gasPrice =>
          if gasPrice < 0 then .error "'GasPrice' field cannot be negative"
          else if m.gasLimit > blockGasLimit then
            .error "'GasLimit' field cannot be greater than a block's gas limit"
          else if m.gasLimit < minGas then
            .error "'GasLimit' field cannot be less than the cost of storing a message on chain"
          else .ok ()

/-- What `ValidForBlockInclusion` makes sure of. -/
lemma Message.validForBlockInclusion_ok {m : Message} {minGas : Int64}
    (h : m.validForBlockInclusion minGas = .ok ()) :
    m.fromAddr ≠ .undef ∧ m.value ≠ none ∧ (∃ price, m.gasPrice = some price ∧ 0 ≤ price) ∧
      m.gasLimit ≤ blockGasLimit ∧ minGas ≤ m.gasLimit := by
  rcases hvalue : m.value with - | value
  · simp only [validForBlockInclusion, hvalue] at h
    split_ifs at h
  rcases hprice : m.gasPrice with - | price
  · simp only [validForBlockInclusion, hvalue, hprice] at h
    split_ifs at h
  · simp only [validForBlockInclusion, hvalue, hprice] at h
    split_ifs at h with hversion hto hfrom hneg htotal hprice' hlimit hmin
    exact ⟨hfrom, Option.some_ne_none value, ⟨price, rfl, by omega⟩, Int64.not_lt.mp hlimit,
      Int64.not_lt.mp hmin⟩

structure MessageReceipt where
  exitCode : ExitCode
  return_ : Bytes
  gasUsed : Int64
deriving DecidableEq, Repr

structure ApplyRet where
  receipt : MessageReceipt
  actorErr : Option ActorError
  penalty : ℤ
deriving DecidableEq

end Lotus
