import Lotus.Vm.Executions

/-!
# Running actor code is an execution

A call is the execution of a frame as its caller sees it, so a tree of operations is an execution by
induction on the tree (`exec_does`).
-/

namespace Lotus

open VM Machine StateTree Act

variable {α β : Type} {N : Prop} {pl : Place} {c : Bool} (env : Env)

/-! ## Running a method -/

/-- Every run of `x` is the execution of a frame, and one that panics has not reached the code. -/
def Framed (env : Env) (N : Prop) (c : Bool) (x : Act Machine Fault α) : Prop :=
  ∀ m, (∀ a m', x m = (.ok a, m') → Does env N .frame c m .done m') ∧
    (∀ e m', x m = (.error (.err e), m') → Does env N .frame c m (.failed e.fatal) m') ∧
    ∀ p m', x m = (.error (.panic p), m') → Does env N .preamble c m (.failed p.fatal) m'

namespace Framed

variable {env}

variable {x : Act Machine Fault α}

lemma of_preamble (h : Traced env N .preamble c Fault.fatal x) : Framed env N c x := by
  intro m
  have hdoes := h m
  refine ⟨fun a m' hx => ?_, fun e m' hx => ?_, fun p m' hx => ?_⟩
  all_goals rw [hx] at hdoes
  · exact .preamble hdoes
  · exact .preamble hdoes
  · exact hdoes

lemma of_code (h : Traced env N .code c Fault.fatal x)
    (hpanic : ∀ m p, (x m).1 ≠ .error (.panic p)) : Framed env N c x := by
  intro m
  have hdoes := h m
  refine ⟨fun a m' hx => ?_, fun e m' hx => ?_, fun p m' hx => absurd (by rw [hx]) (hpanic m p)⟩
  all_goals
    rw [hx] at hdoes
    exact .code hdoes

/-- A step of the preamble comes first. -/
lemma bind {k : α → Act Machine Fault β} (hx : Traced env N .preamble c Fault.fatal x)
    (hk : ∀ a, Framed env N c (k a)) :
    Framed env N c (x >>= k) := by
  intro m
  have hdoes := hx m
  rcases h : x m with ⟨e | a, m1⟩
  · rw [h] at hdoes
    rw [bind_of_error h]
    refine ⟨fun a m' hrun => ?_, fun e m' hrun => ?_, fun p m' hrun => ?_⟩
    all_goals cases hrun
    · exact .preamble hdoes
    · exact hdoes
  · rw [h] at hdoes
    rw [bind_of_ok h]
    obtain ⟨hok, herr, hpanic⟩ := hk a m1
    exact ⟨fun b m' hrun => .seq (.preamble hdoes) (hok b m' hrun),
      fun e m' hrun => .seq (.preamble hdoes) (herr e m' hrun),
      fun p m' hrun => .seq hdoes (hpanic p m' hrun)⟩

lemma deferred (hx : Framed env N c x) (gas : GasCharge) :
    Framed env N c (x.ensure (Runtime.chargeGasIgnored gas : Act Machine Fault Unit)) := by
  have hrun : ∀ m, x.ensure (Runtime.chargeGasIgnored gas : Act Machine Fault Unit) m =
      ((x m).1, (x m).2.charge gas) := by
    intro m
    rw [ensure_apply]
    simp only [Runtime.chargeGasIgnored, Runtime.chargeGasInternal, bind_apply]
    split_ifs <;> rfl
  intro m
  rw [hrun m]
  obtain ⟨hok, herr, hpanic⟩ := hx m
  refine ⟨fun a m' h => ?_, fun e m' h => ?_, fun p m' h => ?_⟩
  all_goals obtain ⟨hr, rfl⟩ := Prod.mk.injEq .. ▸ h
  · exact .deferred gas (hok a _ (Prod.ext hr rfl))
  · exact .deferred gas (herr e _ (Prod.ext hr rfl))
  · exact .deferred gas (hpanic p _ (Prod.ext hr rfl))

end Framed

lemma recoverPanic_fatal (p : Panic) : Fault.fatal (.err (Runtime.recoverPanic p)) = p.fatal := by
  cases p <;> rfl

lemma shimCall_framed {f : Runtime.Body} (hf : Traced env N .code c Panic.fatal f) :
    Framed env N c (Runtime.shimCall f) := by
  refine Framed.of_code ?_ ?_
  · refine Traced.bind (Traced.mapError recoverPanic_fatal ?_) fun ret => ?_
    · refine Traced.bind hf fun ret => Traced.bind Traced.get fun m => ?_
      exact Traced.ite (fun _ => Traced.abortf _ _) fun _ => Traced.pure _
    · grind [Traced.pure, Traced.fail]
  · intro m p h
    rcases bind_eq_error (Prod.ext h rfl) with herr | ⟨ret, m1, -, hret⟩
    · rw [mapError_apply, Prod.mk.injEq] at herr
      obtain ⟨herr, -⟩ := herr
      generalize (((do
        let ret ← f
        let m ← Act.get
        if !m.rt.callerValidated then
          onVM (VM.abortf ExitCode.sysErrorIllegalActor
            "Caller MUST be validated during method execution")
        else pure ret) : Act Machine Panic Runtime.RetVal) m).1 = r at herr
      cases r <;> cases herr
    · rcases ret with b | _ | (_ | b) | _ | _ <;> cases hret

lemma invoke_framed {body : Runtime.Body} (hbody : Traced env N .code c Panic.fatal body)
    (code : Cid) (method : UInt64) (params : Bytes) :
    Framed env N c (Runtime.invoke env code method params body) := by
  rw [Runtime.invoke]
  rcases env.builtInCode code with _ | methods
  · exact Framed.of_preamble (Traced.fail _)
  simp only
  rcases methods[method.toNat]? with _ | _ | decodes
  · exact Framed.of_preamble (Traced.fail _)
  · exact Framed.of_preamble (Traced.fail _)
  · simp only
    by_cases h : decodes params = true
    · simp_all [shimCall_framed]
    · rw [if_neg h]
      exact Framed.of_preamble (Traced.fail _)

/-! ## Sending -/

section Send

variable {create : Address → Act Machine Fault Actor} {body : Runtime.Body}

lemma targetActor_traced (toAddr : Address)
    (hcreate : ∀ a, Traced env N .preamble c Fault.fatal (create a)) :
    Traced env N .preamble c Fault.fatal (Runtime.targetActor env toAddr create) := by
  refine Traced.tree_bind (keeps_getActor env.init toAddr) fun r => ?_
  cases r with
  | ok act => exact Traced.pure act
  | error err =>
    refine Traced.ite (fun _ => Traced.mapError ?_ (hcreate toAddr)) fun _ => Traced.raise _
    rintro (e | p) <;> rfl

lemma transferAndInvoke_framed (msg : Message) (value : ℤ) (toActor : Actor)
    (hbody : Traced env N .code c Panic.fatal body) :
    Framed env N c (Runtime.transferAndInvoke env msg value toActor body) := by
  refine Framed.bind ?_ fun _ => ?_
  · refine Traced.ite (fun _ => Traced.pure ()) fun _ => ?_
    refine Traced.mapError ?_ (transfer_traced env _ _ _)
    rintro (e | p) <;> rfl
  · by_cases h : msg.method ≠ 0
    · grind [Framed.bind, chargeGasIgnored_traced, invoke_framed]
    · rw [if_neg h]
      exact Framed.of_preamble (Traced.pure _)

lemma sendBody_framed (msg : Message) (gasCharge : Option GasCharge)
    (hcreate : ∀ a, Traced env N .preamble c Fault.fatal (create a))
    (hbody : Traced env N .code c Panic.fatal body) :
    Framed env N c (Runtime.sendBody env msg gasCharge create body) := by
  refine Framed.bind ?_ fun _ => Framed.bind (chargeGasIgnored_traced env _) fun _ => ?_
  · cases gasCharge with
    | none => exact Traced.pure ()
    | some gas => exact chargeGasSafe_traced env gas _
  refine Framed.bind (targetActor_traced env _ hcreate) fun toActor => ?_
  cases msg.value with
  | none => exact Framed.of_preamble (Traced.fail _)
  | some value =>
    refine Framed.bind (pricelist_traced env) fun pl => ?_
    refine Framed.bind (chargeGasSafe_traced env _ _) fun _ => ?_
    exact (transferAndInvoke_framed env msg value toActor hbody).deferred _

lemma resolveAddress_cases (addr : Address) (vm : VM) :
    (∃ r vm', Runtime.resolveAddress env addr vm = (.ok r, vm') ∧ Grows vm [] vm') ∨
    ∃ p vm', Runtime.resolveAddress env addr vm = (.error p, vm') ∧ p.fatal = true ∧
      Grows vm [.fatal] vm' := by
  have hreads := lookupID_reads env.init addr vm.cstate
  rcases hlookup : StateTree.lookupID env.init addr vm.cstate with ⟨err | id, t⟩
  · rw [hlookup] at hreads
    have hrun : (onTree (StateTree.lookupID env.init addr)).attempt vm =
        ((.ok (.error err) : Except Panic _), { vm with cstate := t }) := by
      rw [attempt_apply, onTree, zoom_apply, hlookup]
    rw [Runtime.resolveAddress, bind_of_ok hrun]
    by_cases hfound : err.isNotFound = true
    · simp only [hfound, if_true]
      exact Or.inl ⟨none, { vm with cstate := t }, rfl, .of_reads hreads⟩
    · simp only [hfound]
      refine Or.inr ⟨_, _, rfl, rfl, ?_⟩
      exact (Grows.of_reads hreads).trans (.of_note _ (e := .fatal) trivial)
  · rw [hlookup] at hreads
    have hrun : (onTree (StateTree.lookupID env.init addr)).attempt vm =
        ((.ok (.ok id) : Except Panic _), { vm with cstate := t }) := by
      rw [attempt_apply, onTree, zoom_apply, hlookup]
    rw [Runtime.resolveAddress, bind_of_ok hrun]
    exact Or.inl ⟨some id, { vm with cstate := t }, rfl, .of_reads hreads⟩

lemma makeRuntime_does (msg : Message) (origin : Address) (originNonce : UInt64)
    (usedGas : Int64) (nac : UInt64) (vm : VM) :
    (∃ p es vm', Runtime.makeRuntime env msg origin originNonce usedGas nac vm = (.error p, vm') ∧
      Grows vm es vm' ∧ (es = [] ∨ p.fatal = true ∧ es = [.fatal])) ∨
    ∃ resF vm', Grows vm [] vm' ∧
      Runtime.makeRuntime env msg origin originNonce usedGas nac vm = (.ok
        { vmsg := { msg with fromAddr := resF }
          height := vm.blockHeight
          gasAvailable := msg.gasLimit
          gasUsed := usedGas
          origin
          originNonce
          numActorsCreated := nac
          allowInternal := true
          callerValidated := false
          openTxs := 0 }, vm') := by
  rw [Runtime.makeRuntime, bind_of_ok (get_apply vm)]
  rcases resolveAddress_cases env msg.fromAddr vm with
    ⟨_ | resF, vm', hrun, hext⟩ | ⟨p, vm', hrun, hfatal, hext⟩
  · rw [bind_of_ok hrun]
    exact Or.inl ⟨_, [], vm', rfl, hext, Or.inl rfl⟩
  · rw [bind_of_ok hrun]
    exact Or.inr ⟨resF, vm', hext, rfl⟩
  · grind [bind_of_error]

variable {m m0 : Machine} {c' : Bool}

/-- A call as its caller sees it. -/
lemma internalSend_does (hstarts : CallStarts pl c m c' m0)
    (hcreate : ∀ a, Traced env N .preamble c' Fault.fatal (create a))
    (hbody : Traced env N .code c' Panic.fatal body) (fromAddr toAddr : Address) (method : UInt64)
    (value : Option ℤ) (params : Bytes) :
    Does env N pl c m (ending Fault.fatal
        (Runtime.internalSend env fromAddr toAddr method value params create body m0).1)
      (Runtime.internalSend env fromAddr toAddr method value params create body m0).2 := by
  rw [Runtime.internalSend]
  set msg : Message := ⟨0, toAddr, fromAddr, 0, value, none, m0.rt.gasAvailable, method, params⟩
    with hmsg
  rcases makeRuntime_does env msg m0.rt.origin m0.rt.originNonce m0.rt.gasUsed
      m0.rt.numActorsCreated m0.vm.snapshot with
    ⟨p, es, vm, hmake, hext, hes⟩ | ⟨resF, vm, hext, hmake⟩
  · simp only [Runtime.send, Option.map_some, Option.getD_some, hmake]
    exact .callDies hstarts hext hes
  · simp only [Runtime.send, Option.map_some, Option.getD_some, hmake]
    set sub : Machine := ⟨vm, ⟨{ msg with fromAddr := resF }, m0.vm.snapshot.blockHeight,
      msg.gasLimit, m0.rt.gasUsed, m0.rt.origin, m0.rt.originNonce, m0.rt.numActorsCreated, true,
      false, 0⟩⟩ with hsub
    have henters : Enters m0 sub := ⟨hext, rfl, rfl, rfl, rfl, rfl, rfl⟩
    obtain ⟨hok, herr, hpanic⟩ := sendBody_framed env msg none hcreate hbody sub
    rcases hrun : Runtime.sendBody env msg none create body sub with ⟨(e | p) | ret, sub'⟩
    · exact .callErrs hstarts henters (herr e sub' hrun)
    · exact .callPanics hstarts henters (hpanic p sub' hrun)
    · exact .call hstarts henters (hok ret sub' hrun)

def sendOutcome : Except Fault Bytes → Act Machine Panic Runtime.SendReturn
  | .error (.panic p) => Act.fail p
  | .error (.err e) => if e.fatal then Act.fail (.actorErr e) else pure ⟨[], e.retCode⟩
  | .ok ret => do
    Runtime.chargeGasIgnored gasOnActorExec
    pure ⟨ret, 0⟩

lemma sendOp_of_allowed (hallow : m.rt.allowInternal = true) (toAddr : Address)
    (method : UInt64) (params : Bytes) (value : Option ℤ) :
    Runtime.sendOp env toAddr method (some params) value create body m =
      (Act.attempt (fun m : Machine => Runtime.internalSend env m.rt.vmsg.toAddr toAddr method value
        params create body m.noteSent) >>= sendOutcome) m := by
  rw [Runtime.sendOp, bind_of_ok (get_apply m), hallow, if_neg (by simp)]
  simp only [bind_apply, attempt_apply]
  rcases Runtime.internalSend env m.rt.vmsg.toAddr toAddr method value params create body
    m.noteSent with ⟨(e | p) | ret, m'⟩ <;> rfl

lemma sendOp_traced (toAddr : Address) (method : UInt64) (params : Option Bytes)
    (value : Option ℤ) (hcreate : ∀ a, Traced env N .preamble c Fault.fatal (create a))
    (hbody : Traced env N .code c Panic.fatal body) :
    Traced env N .code c Panic.fatal
      (Runtime.sendOp env toAddr method params value create body) := by
  intro m
  cases hallow : m.rt.allowInternal with
  | false =>
    rw [Runtime.sendOp, bind_of_ok (get_apply m), hallow]
    exact Traced.abortf _ _ m
  | true =>
    cases params with
    | none =>
      rw [Runtime.sendOp, bind_of_ok (get_apply m), hallow]
      exact Traced.abortf _ _ m
    | some params =>
      rw [sendOp_of_allowed env hallow]
      -- the note of the call is part of the step that makes it
      refine Traced.attempt_bind_at
        (internalSend_does env (.send hallow) hcreate hbody _ _ _ _ _) ?_ ?_ ?_
      · exact fun ret => Traced.bind (chargeGasIgnored_traced env _) fun _ => Traced.pure _
      · rintro (e | p) - hordinary
        · have he : e.fatal = false := hordinary
          rw [sendOutcome, he]
          exact Traced.pure _
        · exact Traced.fail p
      · rintro (e | p) - hfatal m1
        · have he : e.fatal = true := hfatal
          exact ⟨.actorErr e, m1, by rw [sendOutcome, he]; rfl, he, .fails m1 true⟩
        · exact ⟨p, m1, rfl, hfatal, .fails m1 true⟩

lemma noCreate_traced (addr : Address) :
    Traced env N pl c Fault.fatal (Runtime.noCreate addr) := Traced.fail _

lemma registerNewAddress_traced (addr : Address) (err : ActorError) :
    Traced env N .preamble c Fault.fatal
      (onVM (orRaise (StateTree.registerNewAddress env.init addr) err)) := by
  intro m
  rcases registerNewAddress_cases env.init addr m.vm.cstate with
    ⟨e, t, hrun, hreads⟩ | ⟨id, ncid, t, act, hreads, hview, -, hrun⟩
  · have hfail : (onVM (orRaise (StateTree.registerNewAddress env.init addr) err) :
        Act Machine Fault Address) m = onVM (raise err) (m.setTree t) := by
      rw [onVM, zoom_apply, orRaise_of_error err hrun]
      rfl
    rw [hfail]
    exact .seq (.read env hreads) (Traced.raise err _)
  · rw [onVM, zoom_apply, orRaise_of_ok err hrun]
    exact .register (by decide) (.of_write hreads (.touch ncid hview)) fun _ he =>
      absurd he List.not_mem_nil

lemma registerNewAddress_isID {init : InitActor} {addr id : Address} {t t' : StateTree}
    (h : StateTree.registerNewAddress init addr t = (.ok id, t')) : id.IsID := by
  rcases registerNewAddress_cases init addr t with
    ⟨e, t1, hrun, -⟩ | ⟨n, ncid, t1, act, -, -, -, hrun⟩
  · rw [hrun] at h
    cases h
  · rw [hrun] at h
    cases h
    rfl

lemma tryCreateAccountActor_traced {ctor : Runtime.Body}
    (hctor : Traced env N .code true Panic.fatal ctor) (addr : Address) :
    Traced env N .preamble c Fault.fatal (Runtime.tryCreateAccountActor env ctor addr) := by
  refine Traced.bind (pricelist_traced env) fun pl => ?_
  refine Traced.bind (chargeGasSafe_traced env _ _) fun _ m => ?_
  refine Traced.bind_at (registerNewAddress_traced env addr _ m) fun addrID m1 h1 => ?_
  have hid : addrID.IsID := by
    simp only [onVM, zoom_apply, Prod.mk.injEq] at h1
    grind [orRaise_eq_ok, Prod.ext, registerNewAddress_isID]
  rcases hact : Runtime.makeActor env addr with e | act
  · exact .fails m1 _
  have hnew : act = ⟨env.accountActorCodeID, env.emptyObjectCid, 0, 0⟩ := by
    grind [Runtime.makeActor]
  simp only
  have hset := setActor_of_resolves (Resolves.of_isID env.init hid m1.vm.cstate) act
  set m2 := (m1.setTree (m1.vm.cstate.snapsWrite addrID (.put act))).record
    (.registered addr addrID (m1.vm.cstate.view addrID).isNone) with hm2
  have hgrows : Grows m1.vm [.registered addr addrID (m1.vm.cstate.view addrID).isNone] m2.vm :=
    .of_write_event (Reads.refl _) (by rw [hnew]; exact .register _ addr addrID _ _)
  have hstep : Does env N .preamble c m1 .done m2 :=
    .register (by decide) hgrows fun e he => ⟨_, _, _, List.mem_singleton.mp he⟩
  have hsetVM : (onVM (orRaise (StateTree.setActor env.init addrID act)
      (.escalate "creating new actor failed")) : Act Machine Fault Unit) m1 =
      (.ok (), m1.setTree (m1.vm.cstate.snapsWrite addrID (.put act))) := by
    rw [onVM, zoom_apply, orRaise_of_ok _ hset]
    rfl
  rw [bind_of_ok (get_apply m1), bind_of_ok hsetVM]
  refine .seq hstep ?_
  refine Traced.bind_at (x := (Runtime.internalSend env systemActorAddr addrID
    Runtime.methodsAccountConstructor (some 0) (env.serializeAddress addr) Runtime.noCreate
      ctor).mapError _) (m := m2) ?_ fun _ m3 _ => ?_
  · have hcall : Traced env N .preamble c Fault.fatal (Runtime.internalSend env systemActorAddr
        addrID Runtime.methodsAccountConstructor (some 0) (env.serializeAddress addr)
        Runtime.noCreate ctor) := fun m =>
      internalSend_does env (.ctor (by decide)) (noCreate_traced env) hctor _ _ _ _ _
    refine Traced.mapError ?_ hcall m2
    rintro (e | p) <;> rfl
  · exact orRaise_traced env (keeps_getActor env.init addrID) _ m3

end Send

/-- No constructor of an account creates an address; `c` says whether the tree runs in one. -/
def Prog.Plain {κ : Kind} : Prog κ → Bool → Prop
  | .ret _, _ => True
  | .abort _, _ => True
  | .chargeGas _ _ k, c => k.Plain c
  | .syscall _ _ k, c => ∀ b, (k b).Plain c
  | .validateImmediateCallerAcceptAny k, c => k.Plain c
  | .validateImmediateCallerIs _ k, c => k.Plain c
  | .validateImmediateCallerType _ k, c => k.Plain c
  | .resolveAddress _ k, c => ∀ r, (k r).Plain c
  | .getActorCodeCID _ k, c => ∀ r, (k r).Plain c
  | .currentBalance k, c => ∀ b, (k b).Plain c
  | .newActorAddress k, c => c = false ∧ ∀ a, (k a).Plain c
  | .createActor _ _ k, c => k.Plain c
  | .deleteActor _ k, c => k.Plain c
  | .storeGet _ k, c => ∀ b, (k b).Plain c
  | .storePut _ k, c => ∀ h, (k h).Plain c
  | .stateCreate _ k, c => k.Plain c
  | .stateReadonly _ k, c => k.Plain c
  | .transaction _ f k, c => f.Plain c ∧ k.Plain c
  | .totalFilCircSupply _ _ _ _ _ k, c => ∀ s, (k s).Plain c
  | .getRandomness _ k, c => k.Plain c
  | .send _ _ _ _ ctor callee k, c => ctor.Plain true ∧ callee.Plain c ∧ ∀ r, (k r).Plain c

/-- Running actor code is an execution. -/
lemma exec_does {κ : Kind} (p : Prog κ) (h : ¬N → p.Plain c) :
    Traced env N .code c Panic.fatal (exec env p) := by
  induction p generalizing c with
  | ret r => exact Traced.pure r
  | abort p => exact Traced.fail p
  | chargeGas name compute k ih =>
    exact Traced.bind ((Paying.chargeGas _).traced env) fun _ => ih h
  | syscall call reads k ih =>
    exact Traced.bind (syscall_traced env call reads) fun b => ih b fun hN => h hN b
  | validateImmediateCallerAcceptAny k ih =>
    exact Traced.bind (abortIfAlreadyValidated_traced env) fun _ => ih h
  | validateImmediateCallerIs addrs k ih =>
    exact Traced.bind (validateImmediateCallerIs_traced env addrs) fun _ => ih h
  | validateImmediateCallerType ts k ih =>
    exact Traced.bind (validateImmediateCallerType_traced env ts) fun _ => ih h
  | resolveAddress addr k ih =>
    exact Traced.bind (resolveAddress_traced env addr) fun r => ih r fun hN => h hN r
  | getActorCodeCID addr k ih =>
    exact Traced.bind (getActorCodeCID_traced env addr) fun r => ih r fun hN => h hN r
  | currentBalance k ih =>
    exact Traced.bind (currentBalance_traced env) fun b => ih b fun hN => h hN b
  | newActorAddress k ih =>
    have hplain : c = true → N := by
      intro hc
      by_contra hN
      exact absurd ((h hN).1.symm.trans hc) (by decide)
    exact Traced.bind (newActorAddress_traced env hplain) fun a => ih a fun hN => (h hN).2 a
  | createActor codeID addr k ih =>
    exact Traced.bind (createActor_traced env codeID addr) fun _ => ih h
  | deleteActor addr k ih => exact Traced.bind (deleteActor_traced env addr) fun _ => ih h
  | storeGet read k ih =>
    exact Traced.bind ((storeGet_paying read).traced env) fun b => ih b fun hN => h hN b
  | storePut obj k ih =>
    exact Traced.bind ((storePut_paying obj).traced env) fun cid => ih cid fun hN => h hN cid
  | stateCreate obj k ih => exact Traced.bind (stateCreate_traced env obj) fun _ => ih h
  | stateReadonly read k ih => exact Traced.bind (stateReadonly_traced env read) fun _ => ih h
  | transaction read f k ihf ihk =>
    exact Traced.bind (transaction_traced env (ihf fun hN => (h hN).1) read)
      fun _ => ihk fun hN => (h hN).2
  | totalFilCircSupply vested market locked power pledge k ih =>
    exact Traced.bind (totalFilCircSupply_traced env vested market locked power pledge)
      fun s => ih s fun hN => h hN s
  | getRandomness available k ih =>
    exact Traced.bind (getRandomness_traced env available) fun _ => ih h
  | send toAddr method params value ctor callee k ihctor ihcallee ihk =>
    have hcreate := tryCreateAccountActor_traced env (c := c) (ihctor fun hN => (h hN).1)
    exact Traced.bind (sendOp_traced env toAddr method params value hcreate
      (ihcallee fun hN => (h hN).2.1)) fun r => ihk r fun hN => (h hN).2.2 r

/-! ## Executions evolve the machine -/

section Evolves

variable {env} {m m' m0 sub sub' : Machine} {b : Bool}

lemma Evolves.charge (m : Machine) (gas : GasCharge) : Evolves m (m.charge gas) :=
  ⟨⟨rfl, rfl, rfl, rfl, rfl⟩, [.charged gas], .of_note m.vm trivial, rfl⟩

lemma Evolves.mark (m : Machine) (mark : Mark) : Evolves m (m.record (.mark mark)) :=
  .record m trivial (by simp [Silent])

lemma Evolves.fatal (m : Machine) : Evolves m (m.record .fatal) :=
  .record m trivial (by simp [Silent])

lemma Pays.evolves (h : Pays m m') : Evolves m m' := by
  induction h with
  | refl m => exact Std.Refl.refl m
  | step gas _ ih => exact (Evolves.charge _ gas).trans ih

lemma FailsAt.evolves (h : FailsAt m b m') : Evolves m m' := by
  rcases h with rfl | ⟨-, rfl⟩
  · exact Std.Refl.refl _
  · exact .fatal m

lemma CallStarts.evolves {c' : Bool} (h : CallStarts pl c m c' m0) : Evolves m m0 := by
  cases h with
  | send _ => exact .mark m _
  | ctor _ => exact Std.Refl.refl _

lemma Enters.grows_frame (h : Enters m sub) (hsub : Evolves sub sub') :
    ∃ es, Grows m.vm.snapshot es sub'.vm ∧
      sub'.rt.gasUsed = meterAll m.rt.gasAvailable m.rt.gasUsed es := by
  obtain ⟨-, es, hgrows, hgas⟩ := hsub
  rw [h.gasAvailable_eq, h.gasUsed_eq] at hgas
  exact ⟨es, h.grows.trans hgrows, hgas⟩

lemma Evolves.openTx (m : Machine) : Evolves m m.openTx := .of_frame ⟨rfl, rfl, rfl, rfl, rfl⟩ rfl

lemma Evolves.closeTx (m : Machine) : Evolves m m.closeTx := .of_frame ⟨rfl, rfl, rfl, rfl, rfl⟩ rfl

lemma Evolves.allow (m : Machine) (b : Bool) : Evolves m (m.allow b) :=
  .of_frame ⟨rfl, rfl, rfl, rfl, rfl⟩ rfl

lemma Evolves.load {act : Actor} {t : StateTree}
    (h : StateTree.getActor env.init m.rt.vmsg.toAddr m.vm.cstate = (.ok act, t))
    (hpays : Pays (m.noteStateCall.setTree t).openTx m') : Evolves m m' := by
  have hreads : Reads m.vm.cstate t := (keeps_getActor env.init _).of_run h
  have hcall : Evolves m m.noteStateCall := .mark m _
  refine hcall.trans ((Evolves.setTree_of_reads (m := m.noteStateCall) hreads).trans ?_)
  exact (Evolves.openTx _).trans hpays.evolves

variable (env) in
lemma stateCommitIgnored_evolves (oldh newh : Cid) (m : Machine) :
    Evolves m (Runtime.stateCommitIgnored env oldh newh m).2 := by
  set m1 := m.record (.mark (.commit (m.vm.headOf env.init m.rt.vmsg.toAddr) oldh)) with hm1
  have hmark : Evolves m m1 := .mark m _
  rcases stateCommitIgnored_cases env oldh newh m with
    ⟨-, t, hreads, hrun⟩ | ⟨-, t, id, act, hreads, -, hview, hrun⟩
  · rw [hrun]
    exact hmark.trans ((Evolves.setTree_of_reads (m := m1) hreads).trans (.fatal _))
  · rw [hrun]
    exact hmark.trans ⟨.refl _, [], .of_write (show Reads m1.vm.cstate t from hreads)
      (.touch newh hview), rfl⟩

/-- Every execution evolves the machine. -/
lemma Does.evolves {e : Ending} (h : Does env N pl c m e m') : Evolves m m' := by
  induction h with
  | done | fails => exact Std.Refl.refl _
  | seq _ _ ih1 ih2 | reraise _ _ ih1 ih2 => exact ih1.trans ih2
  | caught _ ih | code _ ih | preamble _ ih => exact ih
  | fatal m => exact .fatal m
  | deferred gas _ ih => exact ih.trans (.charge _ gas)
  | charge m gas => exact .charge m gas
  | mild hmild =>
    have hsilent : Silent _ := fun gas hgas => nomatch (hmild.created _ hgas).choose_spec
    exact ⟨.refl _, _, hmild.toGrows, (hsilent.meterAll_eq _ _).symm⟩
  | validate m => exact .of_frame ⟨rfl, rfl, rfl, rfl, rfl⟩ rfl
  | readFails m => exact (Evolves.mark m _).trans (.fatal _)
  | newAddress m key _ =>
    exact ⟨⟨rfl, rfl, rfl, rfl, rfl⟩, [.newAddress key _ _], .of_note m.vm trivial, rfl⟩
  | stateCall m => exact .mark m _
  | delete _ hgrows ih => exact (Evolves.mark _ _).trans (ih.trans ⟨.refl _, _, hgrows, rfl⟩)
  | create newh hpays =>
    exact (Evolves.mark _ _).trans (hpays.evolves.trans (stateCommitIgnored_evolves env _ newh _))
  | @transaction _ m m1 m2 m3 act t newh hget hpays _ hpays' ih =>
    refine (Evolves.load hget hpays).trans ((Evolves.allow m1 false).trans (ih.trans ?_))
    refine (Evolves.allow m2 true).trans ?_
    refine hpays'.evolves.trans ((stateCommitIgnored_evolves env act.head newh m3).trans ?_)
    exact (Evolves.closeTx _).trans (.mark _ _)
  | transactionLoadFails hget hpays hfails =>
    exact (Evolves.load hget hpays).trans (hfails.evolves.trans (.closeTx _))
  | transactionFails hget hpays _ ih =>
    exact (Evolves.load hget hpays).trans ((Evolves.allow _ false).trans (ih.trans (.closeTx _)))
  | transactionPutFails hget hpays _ hpays' hfails ih =>
    refine (Evolves.load hget hpays).trans ((Evolves.allow _ false).trans (ih.trans ?_))
    refine (Evolves.allow _ true).trans ?_
    exact hpays'.evolves.trans (hfails.evolves.trans (.closeTx _))
  | @register _ _ m es vm _ hgrows hes =>
    have hsilent : Silent es := fun gas hgas => by
      obtain ⟨_, _, _, h⟩ := hes _ hgas
      cases h
    exact ⟨.refl _, _, hgrows, (hsilent.meterAll_eq _ _).symm⟩
  | call hstarts henters _ ih =>
    obtain ⟨es, hgrows, hgas⟩ := henters.grows_frame ih
    exact hstarts.evolves.trans ⟨⟨rfl, rfl, rfl, rfl, rfl⟩, es, hgrows.close, hgas⟩
  | callErrs hstarts henters _ ih =>
    obtain ⟨es, hgrows, hgas⟩ := henters.grows_frame ih
    exact hstarts.evolves.trans ⟨⟨rfl, rfl, rfl, rfl, rfl⟩, es, hgrows.undo, hgas⟩
  | callPanics hstarts henters _ ih =>
    obtain ⟨es, hgrows, hgas⟩ := henters.grows_frame ih
    exact hstarts.evolves.trans ⟨⟨rfl, rfl, rfl, rfl, rfl⟩, es, hgrows.close, hgas⟩
  | @callDies _ _ _ m m0 vm es b hstarts hgrows hes =>
    have hsilent : Silent es := by
      rcases hes with rfl | ⟨-, rfl⟩ <;> simp [Silent]
    exact hstarts.evolves.trans ⟨.refl _, _, hgrows.close, (hsilent.meterAll_eq _ _).symm⟩

end Evolves

/-- `sub` is the machine of the frame that runs the message. -/
structure TopFrame (msg : Message) (vm : VM) (sub : Machine) : Prop where
  grows : Grows vm [] sub.vm
  gasAvailable_eq : sub.rt.gasAvailable = msg.gasLimit
  gasUsed_eq : sub.rt.gasUsed = 0
  origin_eq : sub.rt.origin = msg.fromAddr
  originNonce_eq : sub.rt.originNonce = msg.nonce
  count_eq : sub.rt.numActorsCreated = 0
  openTxs_eq : sub.rt.openTxs = 0

lemma send_cases {create : Address → Act Machine Fault Actor} {body : Runtime.Body}
    (hcreate : ∀ a, Traced env N .preamble false Fault.fatal (create a))
    (hbody : Traced env N .code false Panic.fatal body) (msg : Message)
    (gasCharge : Option GasCharge) (vm : VM) {out : Runtime.SendOut}
    (hout : out = Runtime.send env msg none gasCharge create body vm) :
    (∃ p es, out.result = .error p ∧ Grows vm es out.vm ∧ (es = [] ∨ es = [.fatal])) ∨
    ∃ sub sub', TopFrame msg vm sub ∧ out.vm = sub'.vm ∧
      ((∃ p, out.result = .error p ∧ Does env N .preamble false sub (.failed p.fatal) sub') ∨
        (∃ e, out.result = .ok (.error e, sub'.rt) ∧
          Does env N .frame false sub (.failed e.fatal) sub') ∨
        ∃ ret, out.result = .ok (.ok ret, sub'.rt) ∧ Does env N .frame false sub .done sub') := by
  subst hout
  rcases makeRuntime_does env msg msg.fromAddr msg.nonce 0 0 vm with
    ⟨p, es, vm', hmake, hext, hes⟩ | ⟨resF, vm', hext, hmake⟩
  · simp only [Runtime.send, Option.map_none, Option.getD_none, hmake]
    exact .inl ⟨p, es, rfl, hext, hes.imp id And.right⟩
  · simp only [Runtime.send, Option.map_none, Option.getD_none, hmake]
    set sub : Machine := ⟨vm', ⟨{ msg with fromAddr := resF }, vm.blockHeight, msg.gasLimit, 0,
      msg.fromAddr, msg.nonce, 0, true, false, 0⟩⟩ with hsub
    obtain ⟨hok, herr, hpanic⟩ := sendBody_framed env msg gasCharge hcreate hbody sub
    refine .inr ⟨sub, (Runtime.sendBody env msg gasCharge create body sub).2,
      ⟨hext, rfl, rfl, rfl, rfl, rfl, rfl⟩, rfl, ?_⟩
    rcases hrun : Runtime.sendBody env msg gasCharge create body sub with ⟨(e | p) | ret, sub'⟩
    · exact .inr (.inl ⟨e, rfl, herr e sub' hrun⟩)
    · exact .inl ⟨p, rfl, hpanic p sub' hrun⟩
    · exact .inr (.inr ⟨ret, rfl, hok ret sub' hrun⟩)

lemma TopFrame.grows_frame {msg : Message} {vm : VM} {sub sub' : Machine}
    (h : TopFrame msg vm sub) (hsub : Evolves sub sub') :
    ∃ es, Grows vm es sub'.vm ∧ sub'.rt.gasUsed = meterAll msg.gasLimit 0 es ∧
      sub'.rt.gasAvailable = msg.gasLimit := by
  obtain ⟨hframe, es, hgrows, hgas⟩ := hsub
  rw [h.gasAvailable_eq, h.gasUsed_eq] at hgas
  exact ⟨es, h.grows.trans hgrows, hgas, hframe.gasAvailable_eq.trans h.gasAvailable_eq⟩

/-- What `send` leaves: the VM has grown by some events, and the gas of its runtime is the meter run
over their charges. -/
lemma send_grows (b : Behaviour) (msg : Message) (gasCharge : Option GasCharge) (vm : VM)
    {out : Runtime.SendOut}
    (hout : out = Runtime.send env msg none gasCharge
      (Runtime.tryCreateAccountActor env (exec env b.ctor)) (exec env b.method) vm) :
    ∃ es, Grows vm es out.vm ∧ ∀ r rt, out.result = .ok (r, rt) →
      rt.gasUsed = meterAll msg.gasLimit 0 es ∧ rt.gasAvailable = msg.gasLimit := by
  have hcreate := tryCreateAccountActor_traced env (N := True) (c := false)
    (exec_does env b.ctor (absurd trivial))
  rcases send_cases env hcreate (exec_does env b.method (absurd trivial)) msg gasCharge vm hout with
    ⟨p, es, hresult, hgrows, -⟩ | ⟨sub, sub', htop, hvm, hcases⟩
  · exact ⟨es, hgrows, fun r rt h => by simp [hresult] at h⟩
  · have hevolves : Evolves sub sub' := by
      rcases hcases with ⟨_, -, h⟩ | ⟨_, -, h⟩ | ⟨_, -, h⟩ <;> exact h.evolves
    obtain ⟨es, hgrows, hgas⟩ := htop.grows_frame hevolves
    refine ⟨es, hvm ▸ hgrows, fun r rt h => ?_⟩
    rcases hcases with ⟨_, hresult, -⟩ | ⟨_, hresult, -⟩ | ⟨_, hresult, -⟩
    all_goals
      rw [hresult] at h
      cases h
    all_goals exact hgas

end Lotus
