import Lotus.Chain.Nonces
import Lotus.Chain.Receipts

/-!
# Accepted blocks execute

The Go errors that `ApplyMessage` returns, one by one, for a message that `checkMsg` let into a
block.
-/

namespace Lotus

open VM StateTree Act List

variable {init : InitActor}

variable {t t' : StateTree} {addr : Address}

variable {env : Env} {b : Behaviour} {cmsg : ChainMsg} {vm : VM}

variable {ret : ApplyRet}

lemma precheck_penalty (h : (precheck env cmsg vm).1 = .ok (some ret)) :
    ret.penalty = minerPenaltyAmount cmsg vm := by
  by_cases hgas : msgGasCost cmsg vm > cmsg.vmMessage.gasLimit
  · rw [precheck_of_gt hgas] at h
    cases h
    rfl
  rcases hget : getActor env.init cmsg.vmMessage.fromAddr vm.cstate with ⟨err | act, t⟩
  · rw [precheck_of_le hgas hget] at h
    simp only at h
    split_ifs at h
    cases h
    rfl
  · rw [precheck_of_le hgas hget] at h
    have hsender : checkSender env cmsg.vmMessage (minerPenaltyAmount cmsg vm) act = some ret :=
      Except.ok.inj h
    unfold checkSender at hsender
    split_ifs at hsender <;> cases hsender <;> rfl

lemma applyMessage_of_rejected (hcheck : checkMessage cmsg.vmMessage = .ok ())
    (h : (precheck env cmsg vm).1 = .ok (some ret)) : (applyMessage env b cmsg vm).1 = .ok ret := by
  have hchecked : (Act.ofExcept (.ok ()) : Act VM ApplyErr Unit) vm = (.ok (), vm) := rfl
  have hpre : precheck env cmsg vm = (.ok (some ret), (precheck env cmsg vm).2) := Prod.ext h rfl
  rw [applyMessage, hcheck, bind_of_ok hchecked, bind_of_ok hpre]
  rfl

variable {err : ApplyErr}

lemma applyMessage_penalty_of_starts (hstarts : Starts env cmsg vm)
    (h : (applyMessage env b cmsg vm).1 = .ok ret) : ret.penalty = 0 := by
  obtain ⟨id, act, start, gasHolder, -, -, happly⟩ := applyMessage_of_starts hstarts b
  rw [happly] at h
  obtain ⟨x, vm1, -, hrest⟩ := bind_eq_ok (Prod.ext h rfl)
  obtain ⟨_, vm2, -, hpure⟩ := bind_eq_ok hrest
  cases hpure
  rfl

section Valid

variable (hlength : cmsg.chainLength < 2 ^ 40)
  (hvalid : cmsg.vmMessage.validForBlockInclusion
    (pricelistV0.onChainMessage cmsg.chainLength).total = .ok ())

include hlength hvalid

lemma gasLimit_pos_of_valid : 0 < cmsg.vmMessage.gasLimit := by
  obtain ⟨-, -, -, -, hmin⟩ := Message.validForBlockInclusion_ok hvalid
  grind [onChainMessage_total, Int64.le_iff_toInt_le, Int64.lt_iff_toInt_lt]

lemma checkMessage_of_valid : checkMessage cmsg.vmMessage = .ok () := by
  have hpos := gasLimit_pos_of_valid hlength hvalid
  obtain ⟨-, hvalue, ⟨price, hprice, -⟩, -, -⟩ := Message.validForBlockInclusion_ok hvalid
  have hne : cmsg.vmMessage.gasLimit ≠ 0 := by grind
  grind [checkMessage, Int64.le_of_lt]

end Valid

section TipSet

variable (sm : StateManager) (r : ChainRand)

variable {sm r}

variable {bms : List BlockMessages} {s : BlockLoop}

variable {parentEpoch : Int64}

end TipSet

end Lotus
