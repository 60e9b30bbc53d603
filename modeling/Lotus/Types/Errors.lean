import Mathlib

/-!
# Exit codes and errors

Go functions of the VM report failure in two ways: an `error` of the state tree, or an `ActorError`,
which carries the exit code a receipt shows and says whether the failure is fatal for the node.
-/

namespace Lotus

/-- The `error` values that the state tree returns. -/
inductive TreeErr where
  | actorNotFound
  | other (msg : String)
  /-- `xerrors.Errorf("…: %w", err)` -/
  | wrap (msg : String) (err : TreeErr)
deriving DecidableEq, Repr

/-- `xerrors.Is(err, types.ErrActorNotFound)` -/
def TreeErr.isNotFound : TreeErr → Bool
  | actorNotFound => true
  | other _ => false
  | wrap _ err => err.isNotFound

/-! ## Actor errors (`chain/actors/aerrors`) -/

abbrev ExitCode := ℤ

namespace ExitCode

def ok : ExitCode := 0
def sysErrSenderInvalid : ExitCode := 1
def sysErrSenderStateInvalid : ExitCode := 2
def sysErrInvalidMethod : ExitCode := 3
def sysErrInvalidParameters : ExitCode := 4
def sysErrInvalidReceiver : ExitCode := 5
def sysErrInsufficientFunds : ExitCode := 6
def sysErrOutOfGas : ExitCode := 7
def sysErrForbidden : ExitCode := 8
def sysErrorIllegalActor : ExitCode := 9
def sysErrorIllegalArgument : ExitCode := 10
def errIllegalState : ExitCode := 20
def errSerialization : ExitCode := 21

end ExitCode

structure ActorError where
  fatal : Bool
  retCode : ExitCode
  msgs : List String
  retCode_ne : fatal = false → retCode ≠ 0
deriving DecidableEq

namespace ActorError

def fatalf (msg : String) : ActorError := ⟨true, 0, [msg], by simp⟩

def newf (retCode : ExitCode) (msg : String) : ActorError :=
  if h : retCode = 0 then
    ⟨true, 0, ["tried creating an error and setting RetCode to 0", msg], by simp⟩
  else ⟨false, retCode, [msg], fun _ => h⟩

def wrap (err : ActorError) (msg : String) : ActorError :=
  { err with msgs := msg :: err.msgs }

def absorb (retCode : ExitCode) (msg : String) : ActorError :=
  if h : retCode = 0 then
    ⟨true, 0, ["tried absorbing an error and setting RetCode to 0"], by simp⟩
  else ⟨false, retCode, [msg], fun _ => h⟩

def escalate (msg : String) : ActorError := ⟨true, 0, [msg], by simp⟩

end ActorError

def retCode : Option ActorError → ExitCode
  | none => ExitCode.ok
  | some err => err.retCode

def isFatal : Option ActorError → Bool
  | none => false
  | some err => err.fatal

/-- What a Go panic in the VM carries: an `ActorError`, or any other value (a runtime error, or a
value some actor code panics with). -/
inductive Panic where
  | actorErr (err : ActorError)
  | other
deriving DecidableEq

/-- How a VM function that returns `(…, aerrors.ActorError)` can fail: with that error, or by a
panic that no frame below it recovered. -/
inductive Fault where
  | err (e : ActorError)
  | panic (p : Panic)
deriving DecidableEq

end Lotus
