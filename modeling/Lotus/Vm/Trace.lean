import Lotus.Vm.Steps

/-!
# What actor code can do, step by step

`Evolves` says what execution may do to the ledger and to the gas; it forgets in which order things
happen and how they end.
-/

namespace Lotus

open VM Machine StateTree Act

def Panic.fatal : Panic → Bool
  | .actorErr e => e.fatal
  | .other => false

def Fault.fatal : Fault → Bool
  | .err e => e.fatal
  | .panic p => p.fatal

inductive Ending where
  | done
  | failed (fatal : Bool)
deriving DecidableEq

def ending {ε α : Type} (fatal : ε → Bool) : Except ε α → Ending
  | .ok _ => .done
  | .error e => .failed (fatal e)

/-- Where in a frame the execution is; a `frame` is a preamble followed by code. -/
inductive Place where
  | code
  | preamble
  | frame
deriving DecidableEq

namespace Machine

def charge (m : Machine) (gas : GasCharge) : Machine where
  vm := { m.vm with log := m.vm.log ++ [.charged gas] }
  rt := { m.rt with gasUsed := meter m.rt.gasAvailable m.rt.gasUsed gas.total }

/-- The note of a call of `Create`, `Transaction` or `DeleteActor`. -/
def noteStateCall (m : Machine) : Machine := m.record (.mark (.stateCall m.rt.openTxs))

/-- The note of a `Send`. -/
def noteSent (m : Machine) : Machine := m.record (.mark (.sent m.rt.openTxs))

/-- The note of a `Transaction` that returns. -/
def noteTransacted (m : Machine) (init : InitActor) (c : Cid) : Machine :=
  m.record (.mark (.transacted (m.vm.headOf init m.rt.vmsg.toAddr) c))

def openTx (m : Machine) : Machine := { m with rt := { m.rt with openTxs := m.rt.openTxs + 1 } }

def closeTx (m : Machine) : Machine := { m with rt := { m.rt with openTxs := m.rt.openTxs - 1 } }

def allow (m : Machine) (b : Bool) : Machine := { m with rt := { m.rt with allowInternal := b } }

end Machine

inductive Pays : Machine → Machine → Prop where
  | refl (m : Machine) : Pays m m
  | step {m m' : Machine} (gas : GasCharge) : Pays (m.charge gas) m' → Pays m m'

lemma Pays.trans {m1 m2 m3 : Machine} (h1 : Pays m1 m2) (h2 : Pays m2 m3) : Pays m1 m3 := by
  induction h1 with
  | refl => exact h2
  | step gas _ ih => exact .step gas (ih h2)

lemma Pays.charge (m : Machine) (gas : GasCharge) : Pays m (m.charge gas) := .step gas (.refl _)

def OnlyCharges (es : List Event) : Prop := ∀ e ∈ es, ∃ gas, e = .charged gas

lemma OnlyCharges.nil : OnlyCharges [] := nofun

lemma OnlyCharges.cons {es : List Event} (gas : GasCharge) (h : OnlyCharges es) :
    OnlyCharges (.charged gas :: es) := by
  intro e he
  rcases List.mem_cons.mp he with rfl | he
  · exact ⟨gas, rfl⟩
  · exact h e he

variable {m m' : Machine}

lemma Pays.log_eq (h : Pays m m') : ∃ es, OnlyCharges es ∧ m'.vm.log = m.vm.log ++ es := by
  induction h with
  | refl m => exact ⟨[], .nil, (List.append_nil _).symm⟩
  | step gas _ ih =>
    obtain ⟨es, hes, hlog⟩ := ih
    exact ⟨.charged gas :: es, hes.cons gas, hlog.trans (List.append_assoc ..)⟩

lemma Pays.kept (h : Pays m m') : m'.vm.cstate = m.vm.cstate ∧
    m'.rt.openTxs = m.rt.openTxs ∧ m'.rt.allowInternal = m.rt.allowInternal := by
  induction h with
  | refl m => exact ⟨rfl, rfl, rfl⟩
  | step gas _ ih => exact ih

/-- Steps that keep every actor and its head: reads, transfers and new actors. -/
structure Mild (vm : VM) (es : List Event) (vm' : VM) : Prop extends Grows vm es vm' where
  created : ∀ e ∈ es, ∃ id, e = .created id
  heads : ∀ id act, vm.cstate.view id = some act →
    ∃ act', vm'.cstate.view id = some act' ∧ act'.head = act.head

lemma Mild.of_reads {vm : VM} {t : StateTree} (h : Reads vm.cstate t) :
    Mild vm [] { vm with cstate := t } :=
  ⟨.of_reads h, nofun, fun id act hact => ⟨act, (congrFun h.view_eq id).trans hact, rfl⟩⟩

/-- The failure `b` at `m`, with the record that a fatal one makes where it comes up. -/
def FailsAt (m : Machine) (b : Bool) (m' : Machine) : Prop :=
  m' = m ∨ b = true ∧ m' = m.record .fatal

/-- Where a call is made from: a `Send`, or the preamble, which calls the constructor of an account.
The second flag and machine are what the call starts with. -/
inductive CallStarts : Place → Bool → Machine → Bool → Machine → Prop where
  | send {c : Bool} {m : Machine} :
      m.rt.allowInternal = true → CallStarts .code c m c m.noteSent
  | ctor {pl : Place} {c : Bool} {m : Machine} : pl ≠ .code → CallStarts pl c m true m

/-- `sub` is the machine of a frame called from `m`. -/
structure Enters (m sub : Machine) : Prop where
  grows : Grows m.vm.snapshot [] sub.vm
  gasAvailable_eq : sub.rt.gasAvailable = m.rt.gasAvailable
  gasUsed_eq : sub.rt.gasUsed = m.rt.gasUsed
  origin_eq : sub.rt.origin = m.rt.origin
  originNonce_eq : sub.rt.originNonce = m.rt.originNonce
  count_eq : sub.rt.numActorsCreated = m.rt.numActorsCreated
  openTxs_eq : sub.rt.openTxs = 0

/-- The executions of actor code: from one machine to another, with the ending. `N` says whether
account constructors may create addresses. -/
inductive Does (env : Env) (N : Prop) : Place → Bool → Machine → Ending → Machine → Prop where
  | done {pl : Place} {c : Bool} (m : Machine) : Does env N pl c m .done m
  | seq {pl : Place} {c : Bool} {m m1 m2 : Machine} {e : Ending} :
      Does env N pl c m .done m1 → Does env N pl c m1 e m2 → Does env N pl c m e m2
  /-- a failure, or one that is passed on -/
  | fails {pl : Place} {c : Bool} (m : Machine) (b : Bool) : Does env N pl c m (.failed b) m
  /-- a fatal error of the runtime comes up -/
  | fatal {pl : Place} {c : Bool} (m : Machine) : Does env N pl c m (.failed true) (m.record .fatal)
  /-- an ordinary failure that the caller looks at and goes on -/
  | caught {pl : Place} {c : Bool} {m m1 : Machine} :
      Does env N pl c m (.failed false) m1 → Does env N pl c m .done m1
  /-- a fatal failure that the caller turns into another one -/
  | reraise {pl : Place} {c : Bool} {m m1 m2 : Machine} :
      Does env N pl c m (.failed true) m1 → Does env N pl c m1 (.failed true) m2 →
      Does env N pl c m (.failed true) m2
  /-- a deferred charge -/
  | deferred {pl : Place} {c : Bool} {m m1 : Machine} {e : Ending} (gas : GasCharge) :
      Does env N pl c m e m1 → Does env N pl c m e (m1.charge gas)
  | charge {pl : Place} {c : Bool} (m : Machine) (gas : GasCharge) :
      Does env N pl c m .done (m.charge gas)
  | mild {pl : Place} {c : Bool} {m : Machine} {es : List Event} {vm : VM} :
      Mild m.vm es vm → Does env N pl c m .done ⟨vm, m.rt⟩
  | validate {pl : Place} {c : Bool} (m : Machine) :
      Does env N pl c m .done { m with rt := { m.rt with callerValidated := true } }
  /-- the store fails on a read of `TotalFilCircSupply` or of a system call -/
  | readFails {pl : Place} {c : Bool} (m : Machine) :
      Does env N pl c m (.failed false) ((m.record (.mark .readFailed)).record .fatal)
  | newAddress {c : Bool} (m : Machine) (key : Address) : (c = true → N) →
      Does env N .code c m .done
        ⟨(m.record (.newAddress key m.rt.originNonce m.rt.numActorsCreated)).vm,
          { m.rt with numActorsCreated := m.rt.numActorsCreated + 1 }⟩
  /-- `Create`, `Transaction` or `DeleteActor` begins -/
  | stateCall {pl : Place} {c : Bool} (m : Machine) : Does env N pl c m .done m.noteStateCall
  | delete {pl : Place} {c : Bool} {m m1 : Machine} {id : Address} {vm : VM} :
      Does env N pl c m.noteStateCall .done m1 → Grows m1.vm [.deleted id] vm →
      Does env N pl c m .done ⟨vm, m1.rt⟩
  | create {pl : Place} {c : Bool} {m m1 : Machine} (newh : Cid) : Pays m.noteStateCall m1 →
      Does env N pl c m .done (Runtime.stateCommitIgnored env env.emptyObjectCid newh m1).2
  | transaction {c : Bool} {m m1 m2 m3 : Machine} {act : Actor} {t : StateTree}
      (newh : Cid) :
      StateTree.getActor env.init m.rt.vmsg.toAddr m.vm.cstate = (.ok act, t) →
      Pays (m.noteStateCall.setTree t).openTx m1 → Does env N .code c (m1.allow false) .done m2 →
      Pays (m2.allow true) m3 →
      Does env N .code c m .done
        ((Runtime.stateCommitIgnored env act.head newh m3).2.closeTx.noteTransacted env.init newh)
  | transactionLoadFails {c : Bool} {m m1 m2 : Machine} {act : Actor} {t : StateTree}
      {b : Bool} :
      StateTree.getActor env.init m.rt.vmsg.toAddr m.vm.cstate = (.ok act, t) →
      Pays (m.noteStateCall.setTree t).openTx m1 → FailsAt m1 b m2 →
      Does env N .code c m (.failed b) m2.closeTx
  | transactionFails {c : Bool} {m m1 m2 : Machine} {act : Actor} {t : StateTree}
      {b : Bool} :
      StateTree.getActor env.init m.rt.vmsg.toAddr m.vm.cstate = (.ok act, t) →
      Pays (m.noteStateCall.setTree t).openTx m1 →
      Does env N .code c (m1.allow false) (.failed b) m2 →
      Does env N .code c m (.failed b) m2.closeTx
  | transactionPutFails {c : Bool} {m m1 m2 m3 m4 : Machine} {act : Actor}
      {t : StateTree} {b : Bool} :
      StateTree.getActor env.init m.rt.vmsg.toAddr m.vm.cstate = (.ok act, t) →
      Pays (m.noteStateCall.setTree t).openTx m1 → Does env N .code c (m1.allow false) .done m2 →
      Pays (m2.allow true) m3 → FailsAt m3 b m4 → Does env N .code c m (.failed b) m4.closeTx
  /-- the account at the address of a receiver is registered and written -/
  | register {pl : Place} {c : Bool} {m : Machine} {es : List Event} {vm : VM} : pl ≠ .code →
      Grows m.vm es vm → (∀ e ∈ es, ∃ addr id fresh, e = .registered addr id fresh) →
      Does env N pl c m .done ⟨vm, m.rt⟩
  /-- a call that returns -/
  | call {pl : Place} {c c' : Bool} {m m0 sub sub' : Machine} : CallStarts pl c m c' m0 →
      Enters m0 sub → Does env N .frame c' sub .done sub' →
      Does env N pl c m .done ⟨sub'.vm.clearSnapshot,
        { m0.rt with gasUsed := sub'.rt.gasUsed, numActorsCreated := sub'.rt.numActorsCreated }⟩
  /-- a call that returns an error -/
  | callErrs {pl : Place} {c c' : Bool} {m m0 sub sub' : Machine} {b : Bool} :
      CallStarts pl c m c' m0 → Enters m0 sub → Does env N .frame c' sub (.failed b) sub' →
      Does env N pl c m (.failed b) ⟨sub'.vm.revert.clearSnapshot,
        { m0.rt with gasUsed := sub'.rt.gasUsed, numActorsCreated := sub'.rt.numActorsCreated }⟩
  /-- a call that panics, which it can only do outside of the code of the method -/
  | callPanics {pl : Place} {c c' : Bool} {m m0 sub sub' : Machine} {b : Bool} :
      CallStarts pl c m c' m0 → Enters m0 sub → Does env N .preamble c' sub (.failed b) sub' →
      Does env N pl c m (.failed b)
        ⟨sub'.vm.clearSnapshot, { m0.rt with gasUsed := sub'.rt.gasUsed }⟩
  /-- a call whose sender does not resolve, for which there is no frame -/
  | callDies {pl : Place} {c c' : Bool} {m m0 : Machine} {vm : VM} {es : List Event} {b : Bool} :
      CallStarts pl c m c' m0 → Grows m0.vm.snapshot es vm → es = [] ∨ b = true ∧ es = [.fatal] →
      Does env N pl c m (.failed b) ⟨vm.clearSnapshot, m0.rt⟩
  | code {c : Bool} {m m' : Machine} {e : Ending} :
      Does env N .code c m e m' → Does env N .frame c m e m'
  | preamble {c : Bool} {m m' : Machine} {e : Ending} :
      Does env N .preamble c m e m' → Does env N .frame c m e m'

def Runtime.identity (rt : Runtime) : Message × Address × UInt64 :=
  (rt.vmsg, rt.origin, rt.originNonce)

lemma Pays.identity_eq (h : Pays m m') : m'.rt.identity = m.rt.identity := by
  induction h with
  | refl m => rfl
  | step gas _ ih => exact ih

lemma FailsAt.identity_eq {b : Bool} (h : FailsAt m b m') : m'.rt.identity = m.rt.identity := by
  rcases h with rfl | ⟨-, rfl⟩ <;> rfl

lemma CallStarts.identity_eq {pl : Place} {c c' : Bool} {m0 : Machine}
    (h : CallStarts pl c m c' m0) : m0.rt.identity = m.rt.identity := by
  cases h <;> rfl

lemma Does.identity_eq {env : Env} {N : Prop} {pl : Place} {c : Bool} {e : Ending}
    (h : Does env N pl c m e m') : m'.rt.identity = m.rt.identity := by
  induction h with
  | done | fails | fatal | charge | mild | validate | readFails | newAddress | stateCall
  | register => rfl
  | seq _ _ ih1 ih2 | reraise _ _ ih1 ih2 => exact ih2.trans ih1
  | caught _ ih | code _ ih | preamble _ ih | delete _ _ ih | deferred _ _ ih => exact ih
  | create _ hpays => exact hpays.identity_eq
  | transaction _ _ hpays _ hpays' ih => exact hpays'.identity_eq.trans (ih.trans hpays.identity_eq)
  | transactionLoadFails _ hpays hfails => exact hfails.identity_eq.trans hpays.identity_eq
  | transactionFails _ hpays _ ih => exact ih.trans hpays.identity_eq
  | transactionPutFails _ hpays _ hpays' hfails ih =>
    exact hfails.identity_eq.trans (hpays'.identity_eq.trans (ih.trans hpays.identity_eq))
  | call hstarts | callErrs hstarts | callPanics hstarts | callDies hstarts =>
    exact hstarts.identity_eq

/-! ## The rules -/

variable {ε ε' α β : Type}

/-- Every run of `x` is an execution. -/
def Traced (env : Env) (N : Prop) (pl : Place) (c : Bool) (fatal : ε → Bool) (x : Act Machine ε α) :
    Prop :=
  ∀ m, Does env N pl c m (ending fatal (x m).1) (x m).2

namespace Traced

variable {env : Env} {N : Prop} {pl : Place} {c : Bool} {f : ε → Bool}

lemma pure (a : α) : Traced env N pl c f (pure a : Act Machine ε α) := fun m => .done m

lemma get : Traced env N pl c f (get : Act Machine ε Machine) := fun m => .done m

lemma fail (e : ε) : Traced env N pl c f (fail e : Act Machine ε α) := fun m => .fails m _

variable {x : Act Machine ε α} {k : α → Act Machine ε β}

lemma bind_at (hx : Does env N pl c m (ending f (x m).1) (x m).2)
    (hk : ∀ a m', x m = (.ok a, m') → Does env N pl c m' (ending f (k a m').1) (k a m').2) :
    Does env N pl c m (ending f ((x >>= k) m).1) ((x >>= k) m).2 := by
  rcases h : x m with ⟨e | a, m'⟩
  · rw [h] at hx
    rwa [bind_of_error h]
  · rw [h] at hx
    rw [bind_of_ok h]
    exact .seq hx (hk a m' h)

lemma bind (hx : Traced env N pl c f x) (hk : ∀ a, Traced env N pl c f (k a)) :
    Traced env N pl c f (x >>= k) :=
  fun m => bind_at (hx m) fun a m' _ => hk a m'

lemma ite {p : Prop} [Decidable p] {y : Act Machine ε α} (hx : p → Traced env N pl c f x)
    (hy : ¬p → Traced env N pl c f y) : Traced env N pl c f (if p then x else y) := by
  grind

lemma mapError {g : ε → ε'} {f' : ε' → Bool} (hg : ∀ e, f' (g e) = f e)
    (hx : Traced env N pl c f x) : Traced env N pl c f' (x.mapError g) := by
  intro m
  have h := hx m
  rw [mapError_apply]
  rcases hr : (x m).1 with e | a
  · rw [hr] at h
    rw [show ending f' ((Except.error e : Except ε α).mapError g) = .failed (f e) from
      congrArg Ending.failed (hg e)]
    exact h
  · rw [hr] at h
    exact h

/-- The outcome of a step is looked at: after an ordinary failure anything may follow, and after a
fatal one a fatal one. -/
lemma attempt_bind_at {x : Act Machine ε' α} {f' : ε' → Bool} {k : Except ε' α → Act Machine ε β}
    (hx : Does env N pl c m (ending f' (x m).1) (x m).2)
    (hok : ∀ a, Traced env N pl c f (k (.ok a)))
    (herr : ∀ e, (x m).1 = .error e → f' e = false → Traced env N pl c f (k (.error e)))
    (hfatal : ∀ e, (x m).1 = .error e → f' e = true → ∀ m1, ∃ e' m',
      k (.error e) m1 = (.error e', m') ∧ f e' = true ∧ Does env N pl c m1 (.failed true) m') :
    Does env N pl c m (ending f ((x.attempt >>= k) m).1) ((x.attempt >>= k) m).2 := by
  rw [bind_of_ok (attempt_apply x m)]
  rcases hr : (x m).1 with e | a
  · rw [hr] at hx
    cases he : f' e with
    | false =>
      rw [show ending f' (Except.error e : Except ε' α) = .failed false from
        congrArg Ending.failed he] at hx
      exact .seq (.caught hx) (herr e hr he _)
    | true =>
      rw [show ending f' (Except.error e : Except ε' α) = .failed true from
        congrArg Ending.failed he] at hx
      obtain ⟨e', m', hk, he', hdoes⟩ := hfatal e hr he (x m).2
      rw [hk, show ending f (Except.error e' : Except ε β) = .failed true from
        congrArg Ending.failed he']
      exact .reraise hx hdoes
  · rw [hr] at hx
    exact .seq hx (hok a _)

lemma tree_bind {x : Act StateTree TreeErr α} {k : Except TreeErr α → Act Machine ε β}
    (hx : Keeps Reads x) (hk : ∀ r, Traced env N pl c f (k r)) :
    Traced env N pl c f ((onVM (onTree x)).attempt >>= k) := by
  intro m
  rw [bind_of_ok (attempt_apply _ m)]
  exact .seq (.mild (Mild.of_reads (hx m.vm.cstate))) (hk _ _)

/-- A panic with an actor error, which is recorded if it is fatal. -/
lemma panicWith (err : ActorError) :
    Traced env N pl c Panic.fatal (onVM (panicWith err) : Act Machine Panic α) := by
  intro m
  rw [onVM, zoom_apply, VM.panicWith, note]
  cases herr : err.fatal with
  | false =>
    rw [if_neg (by simp)]
    exact .fails m _
  | true =>
    rw [if_pos rfl]
    rw [show ending Panic.fatal (((do emit .fatal; Act.fail (.actorErr err)) :
      Act VM Panic α) m.vm).1 = .failed true from congrArg Ending.failed herr]
    exact .fatal m

lemma abortf (code : ExitCode) (msg : String) :
    Traced env N pl c Panic.fatal (onVM (abortf code msg) : Act Machine Panic α) := panicWith _

lemma raise (err : ActorError) :
    Traced env N pl c Fault.fatal (onVM (raise err) : Act Machine Fault α) := by
  intro m
  rw [onVM, zoom_apply, VM.raise, note]
  cases herr : err.fatal with
  | false =>
    rw [if_neg (by simp)]
    exact .fails m _
  | true =>
    rw [if_pos rfl]
    rw [show ending Fault.fatal (((do emit .fatal; Act.fail (.err err)) :
      Act VM Fault α) m.vm).1 = .failed true from congrArg Ending.failed herr]
    exact .fatal m

end Traced

end Lotus
