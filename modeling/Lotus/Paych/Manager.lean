import Lotus.Chain.Block
import Lotus.Lib.Check

/-!
# The payment channel manager

`Manager` and `Store` of `paychmgr`: vouchers, lanes and the channels that are tracked.
-/

namespace Lotus

open Check Act Function

structure LaneState where
  id : UInt64
  redeemed : ℤ
  nonce : UInt64
deriving DecidableEq, Repr

/-- The fields of `paych.State` that the manager reads. -/
structure PaychState where
  fromAddr : Address
  toAddr : Address
  toSend : ℤ
  laneStates : List LaneState
deriving DecidableEq, Repr

structure Merge where
  lane : UInt64
  nonce : UInt64
deriving DecidableEq, Repr

structure ModVerifyParams where
  actor : Address
  method : UInt64
  data : Bytes
deriving DecidableEq, Repr

structure SignedVoucher where
  channelAddr : Address
  timeLockMin : Int64
  timeLockMax : Int64
  secretPreimage : Bytes
  extra : Option ModVerifyParams
  lane : UInt64
  nonce : UInt64
  amount : ℤ
  minSettleHeight : Int64
  merges : List Merge
  signature : Option Signature
deriving DecidableEq, Repr

structure VoucherInfo where
  voucher : SignedVoucher
  proof : Bytes
deriving DecidableEq, Repr

/-- `DirInbound` and `DirOutbound` -/
inductive Direction where
  | inbound
  | outbound
deriving DecidableEq, Repr

structure ChannelInfo where
  channel : Address
  control : Address
  target : Address
  direction : Direction
  vouchers : List VoucherInfo
  nextLane : UInt64
deriving DecidableEq, Repr

/-- `Store`, with the channel infos by their keys in the datastore. -/
@[ext] structure PaychStore where
  channels : Address → Option ChannelInfo
  channel_eq : ∀ {ch ci}, channels ch = some ci → ci.channel = ch

namespace PaychStore

def empty : PaychStore := ⟨fun _ => none, nofun⟩

def put (s : PaychStore) (ci : ChannelInfo) : PaychStore where
  channels := update s.channels ci.channel (some ci)
  channel_eq {ch ci'} h := by
    by_cases hch : ch = ci.channel
    · subst hch
      rw [update_self] at h
      exact congrArg ChannelInfo.channel (Option.some.inj h.symm)
    · rw [update_of_ne hch] at h
      exact s.channel_eq h

@[simp] lemma put_self (s : PaychStore) (ci : ChannelInfo) :
    (s.put ci).channels ci.channel = some ci := update_self ..

lemma put_of_ne (s : PaychStore) {ci : ChannelInfo} {ch : Address} (h : ch ≠ ci.channel) :
    (s.put ci).channels ch = s.channels ch := update_of_ne h _ _

end PaychStore

/-- `Manager`, with what it calls that is defined elsewhere. The chain does not change. -/
structure PaychManager where
  loadPaychState : Address → Except NodeErr (Actor × PaychState)
  /-- `LoadActorState` of an `account.State`, for its address -/
  loadAccount : Address → Except NodeErr Address
  signingBytes : SignedVoucher → Except NodeErr Bytes
  verify : Option Signature → Address → Bytes → Except NodeErr Unit
  dump : SignedVoucher → Except NodeErr Bytes
  dump_inj : ∀ {sv sv' b}, dump sv = .ok b → dump sv' = .ok b → sv = sv'
  /-- The outcome of `cborrpc.Dump` and `ds.Put` of a channel info. -/
  write : ChannelInfo → Except NodeErr Unit

abbrev LaneStates := Finmap fun _ : UInt64 => LaneState

def chainLaneStates (st : PaychState) : LaneStates :=
  st.laneStates.foldl (fun lanes ls => lanes.insert ls.id ls) ∅

def laneOrNew (lanes : LaneStates) (lane : UInt64) : LaneState × LaneStates :=
  match lanes.lookup lane with
  | some ls => (ls, lanes)
  | none => (⟨lane, 0, 0⟩, lanes.insert lane ⟨lane, 0, 0⟩)

/-- The body of the second loop of `laneState`. -/
def applyStored (lanes : LaneStates) (sv : SignedVoucher) : Except NodeErr LaneStates := do
  require (sv.merges = []) (.new "paych merges not handled yet")
  let (ls, lanes) := laneOrNew lanes sv.lane
  if sv.nonce < ls.nonce then .ok lanes
  else .ok (lanes.insert sv.lane { ls with nonce := sv.nonce, redeemed := sv.amount })

def laneState (st : PaychState) (vouchers : List VoucherInfo) : Except NodeErr LaneStates :=
  (vouchers.map VoucherInfo.voucher).foldlM applyStored (chainLaneStates st)

def totalRedeemedWithVoucher (lanes : LaneStates) (sv : SignedVoucher) : Except NodeErr ℤ := do
  require (sv.merges = []) (.new "dont currently support paych lane merges")
  let total := lanes.keys.sum fun lane => (lanes.lookup lane).elim 0 LaneState.redeemed
  match lanes.lookup sv.lane with
  | some ls => if sv.nonce > ls.nonce then .ok (total + (sv.amount - ls.redeemed)) else .ok total
  | none => .ok (total + sv.amount)

def checkAgainstLanes (act : Actor) (st : PaychState) (lanes : LaneStates) (sv : SignedVoucher) :
    Except NodeErr Unit := do
  require (∀ ls ∈ lanes.lookup sv.lane, ¬sv.nonce ≤ ls.nonce) (.new "nonce too low")
  require (∀ ls ∈ lanes.lookup sv.lane, ¬sv.amount ≤ ls.redeemed)
    (.new "voucher amount is lower than amount for voucher with lower nonce")
  let totalRedeemed ← totalRedeemedWithVoucher lanes sv
  require (¬act.balance < totalRedeemed + st.toSend)
    (.new "not enough funds in channel to cover voucher")
  require (sv.merges = []) (.new "dont currently support paych lane merges")

namespace PaychManager

variable (pm : PaychManager)

/-- `VouchersForPaych`, with no vouchers for a channel that is not tracked. -/
def vouchersForPaych (s : PaychStore) (ch : Address) : List VoucherInfo :=
  ((s.channels ch).map ChannelInfo.vouchers).getD []

def checkVoucherValid (ch : Address) (sv : SignedVoucher) (s : PaychStore) :
    Except NodeErr LaneStates := do
  require (sv.channelAddr = ch)
    (.new "voucher ChannelAddr doesn't match channel address, got %s, expected %s")
  let (act, st) ← pm.loadPaychState ch
  let fromAddr ← pm.loadAccount st.fromAddr
  let vb ← pm.signingBytes sv
  pm.verify sv.signature fromAddr vb
  let lanes ← laneState st (vouchersForPaych s ch)
  checkAgainstLanes act st lanes sv
  return lanes

def getChannelInfo (s : PaychStore) (ch : Address) : Except NodeErr ChannelInfo :=
  match s.channels ch with
  | none => .error (.new "channel not tracked")
  | some ci => .ok ci

def putChannelInfo (ci : ChannelInfo) : Act PaychStore NodeErr Unit := do
  ofExcept (pm.write ci)
  modify (·.put ci)

def equals (sv sv' : SignedVoucher) : Except NodeErr Bool := do
  let b ← pm.dump sv
  let b' ← pm.dump sv'
  return b = b'

/-- The loop of `AddVoucher` over the stored vouchers: the first one that is the same. -/
def findStored (sv : SignedVoucher) : List VoucherInfo → Except NodeErr (Option (ℕ × VoucherInfo))
  | [] => .ok none
  | v :: vs => do
    if ← pm.equals sv v.voucher then return some (0, v)
    else
      let found ← findStored sv vs
      return found.map fun (i, v) => (i + 1, v)

/-- The end of `AddVoucher` for a voucher that is stored at `i`. -/
def addProof (ci : ChannelInfo) (i : ℕ) (v : VoucherInfo) (proof : Bytes) :
    Act PaychStore (ℤ × NodeErr) ℤ :=
  if proof ≠ [] ∧ v.proof ≠ proof then do
    (pm.putChannelInfo { ci with vouchers := ci.vouchers.set i ⟨v.voucher, proof⟩ }).mapError
      (0, ·)
    return 0
  else return 0

/-- The end of `AddVoucher` for a voucher that is valid over the lane states. -/
def addNew (ci : ChannelInfo) (lanes : LaneStates) (sv : SignedVoucher) (proof : Bytes)
    (minDelta : ℤ) : Act PaychStore (ℤ × NodeErr) ℤ :=
  let redeemed := (lanes.lookup sv.lane).elim 0 LaneState.redeemed
  let delta := sv.amount - redeemed
  if minDelta > delta then
    fail (delta, .new
      "addVoucher: supplied token amount too low; minD=%s, D=%s; laneAmt=%s; v.Amt=%s")
  else do
    (pm.putChannelInfo { ci with
      vouchers := ci.vouchers ++ [⟨sv, proof⟩]
      nextLane := if ci.nextLane ≤ sv.lane then sv.lane + 1 else ci.nextLane }).mapError
      (delta, ·)
    return delta

/-- `AddVoucher`. An error comes with a token amount, which is the delta if it was too low or could
not be written. -/
def addVoucher (ch : Address) (sv : SignedVoucher) (proof : Bytes) (minDelta : ℤ) :
    Act PaychStore (ℤ × NodeErr) ℤ := do
  let s ← get
  let ci ← ofExcept ((getChannelInfo s ch).mapError (0, ·))
  match ← ofExcept ((pm.findStored sv ci.vouchers).mapError (0, ·)) with
  | some (i, v) => pm.addProof ci i v proof
  | none =>
    let lanes ← ofExcept ((pm.checkVoucherValid ch sv s).mapError (0, ·))
    pm.addNew ci lanes sv proof minDelta

def nextLaneFromState (st : PaychState) : UInt64 :=
  match st.laneStates with
  | [] => 0
  | ls :: _ =>
    (st.laneStates.foldl (fun maxLane ls => if ls.id > maxLane then ls.id else maxLane) ls.id) + 1

def loadStateChannelInfo (ch : Address) (dir : Direction) : Except NodeErr ChannelInfo := do
  let (_, st) ← pm.loadPaychState ch
  let fromAddr ← pm.loadAccount st.fromAddr
  let toAddr ← pm.loadAccount st.toAddr
  return match dir with
  | .outbound => ⟨ch, fromAddr, toAddr, dir, [], nextLaneFromState st⟩
  | .inbound => ⟨ch, toAddr, fromAddr, dir, [], nextLaneFromState st⟩

def trackChannel (ch : Address) (dir : Direction) : Act PaychStore NodeErr Unit := do
  let ci ← ofExcept (pm.loadStateChannelInfo ch dir)
  match (← get).channels ci.channel with
  | some _ => fail (.new "already tracking channel: %s")
  | none => pm.putChannelInfo ci

def allocateLane (ch : Address) : Act PaychStore NodeErr UInt64 := do
  let ci ← ofExcept (getChannelInfo (← get) ch)
  pm.putChannelInfo { ci with nextLane := ci.nextLane + 1 }
  return ci.nextLane

end PaychManager

inductive PaychCall where
  | track (ch : Address) (dir : Direction)
  | allocateLane (ch : Address)
  | addVoucher (ch : Address) (sv : SignedVoucher) (proof : Bytes) (minDelta : ℤ)

def PaychManager.step (pm : PaychManager) (s : PaychStore) : PaychCall → PaychStore
  | .track ch dir => (pm.trackChannel ch dir s).2
  | .allocateLane ch => (pm.allocateLane ch s).2
  | .addVoucher ch sv proof minDelta => (pm.addVoucher ch sv proof minDelta s).2

end Lotus
