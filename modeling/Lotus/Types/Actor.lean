import Mathlib

/-!
# Addresses, CIDs and actors

The data the state tree is made of.
-/

namespace Lotus

/-- A byte string. -/
abbrev Bytes := List UInt8

/-- A content identifier. -/
structure Cid where
  bytes : Bytes
deriving DecidableEq, Repr

inductive Protocol where
  | unknown
  | id
  | secp256k1
  | actor
  | bls
deriving DecidableEq, Repr

inductive Address where
  | undef
  | id (n : UInt64)
  | secp256k1 (payload : Bytes)
  | actor (payload : Bytes)
  | bls (payload : Bytes)
deriving DecidableEq, Repr

lemma Address.bls_ne_undef (payload : Bytes) : Address.bls payload ≠ .undef := by
  intro h
  cases h

def Address.protocol : Address → Protocol
  | undef => .unknown
  | id _ => .id
  | secp256k1 _ => .secp256k1
  | actor _ => .actor
  | bls _ => .bls

def Address.IsID (a : Address) : Prop := a.protocol = .id

instance (a : Address) : Decidable a.IsID := inferInstanceAs (Decidable (_ = _))

@[simp] lemma Address.isID_id (n : UInt64) : (Address.id n).IsID := rfl

/-! ## The builtin singletons (`builtin.*ActorAddr`) -/

def systemActorAddr : Address := .id 0
def initActorAddr : Address := .id 1
def rewardActorAddr : Address := .id 2
def cronActorAddr : Address := .id 3
def storagePowerActorAddr : Address := .id 4
def storageMarketActorAddr : Address := .id 5
def burntFundsActorAddr : Address := .id 99

structure Actor where
  code : Cid
  head : Cid
  nonce : UInt64
  balance : ℤ
deriving DecidableEq, Repr

end Lotus
