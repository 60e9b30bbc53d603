import Lotus.Vm.Trace

/-!
# Runtime operations are executions

One lemma for each operation of the runtime but sending: whatever it does on a machine is an
execution in the sense of `Does`.
-/

namespace Lotus

open VM Machine StateTree Act Function

variable {ε α β : Type} {N : Prop} {pl : Place} {c : Bool} {f : ε → Bool} (env : Env)

lemma chargeGasInternal_traced (gas : GasCharge) :
    Traced env N pl c f (Runtime.chargeGasInternal gas : Act Machine ε _) := by
  intro m
  simp only [Runtime.chargeGasInternal]
  split <;> exact .charge m gas

lemma chargeGasIgnored_traced (gas : GasCharge) :
    Traced env N pl c f (Runtime.chargeGasIgnored gas : Act Machine ε Unit) :=
  Traced.bind (chargeGasInternal_traced env gas) fun _ => Traced.pure ()

lemma chargeGasSafe_traced (gas : GasCharge) (msg : Option String) :
    Traced env N pl c Fault.fatal (Runtime.chargeGasSafe gas msg) := by
  refine Traced.bind (chargeGasInternal_traced env gas) fun r => ?_
  cases r with
  | none => exact Traced.pure ()
  | some err => exact Traced.fail _

lemma pricelist_traced : Traced env N pl c f (Runtime.pricelist : Act Machine ε _) :=
  Traced.bind Traced.get fun _ => Traced.pure _

lemma receiver_traced : Traced env N pl c f (Runtime.receiver : Act Machine ε _) :=
  Traced.bind Traced.get fun _ => Traced.pure _

lemma caller_traced : Traced env N pl c f (Runtime.caller : Act Machine ε _) :=
  Traced.bind Traced.get fun _ => Traced.pure _

/-! ## Steps that only pay -/

/-- The computation makes charges, and fails at most at its end. -/
def Paying (x : Act Machine Panic α) : Prop :=
  ∀ m, (∀ a m', x m = (.ok a, m') → Pays m m') ∧
    ∀ p m', x m = (.error p, m') → ∃ m1, Pays m m1 ∧ FailsAt m1 p.fatal m'

namespace Paying

lemma pure (a : α) : Paying (pure a : Act Machine Panic α) := by
  refine fun m => ⟨fun _ _ h => ?_, fun _ _ h => by cases h⟩
  cases h
  exact .refl m

lemma get : Paying (get : Act Machine Panic Machine) := by
  refine fun m => ⟨fun _ _ h => ?_, fun _ _ h => by cases h⟩
  cases h
  exact .refl m

lemma bind {x : Act Machine Panic α} {k : α → Act Machine Panic β} (hx : Paying x)
    (hk : ∀ a, Paying (k a)) : Paying (x >>= k) := by
  refine fun m => ⟨fun b m' h => ?_, fun p m' h => ?_⟩
  · obtain ⟨a, m1, h1, h2⟩ := bind_eq_ok h
    exact ((hx m).1 a m1 h1).trans ((hk a m1).1 b m' h2)
  · rcases bind_eq_error h with h1 | ⟨a, m1, h1, h2⟩
    · exact (hx m).2 p m' h1
    · obtain ⟨m2, hpays, hfails⟩ := (hk a m1).2 p m' h2
      exact ⟨m2, ((hx m).1 a m1 h1).trans hpays, hfails⟩

lemma panicWith (err : ActorError) : Paying (onVM (panicWith err) : Act Machine Panic α) := by
  intro m
  have hrun : (onVM (VM.panicWith err) : Act Machine Panic α) m =
      (.error (.actorErr err), if err.fatal then m.record .fatal else m) := by
    rw [onVM, zoom_apply, VM.panicWith, note]
    cases err.fatal <;> rfl
  refine ⟨fun a m' h => ?_, fun p m' h => ⟨m, .refl m, ?_⟩⟩
  · rw [hrun] at h
    cases h
  · rw [hrun] at h
    cases h
    cases hfatal : err.fatal with
    | false => exact Or.inl rfl
    | true => exact Or.inr ⟨hfatal, rfl⟩

lemma chargeGas (gas : GasCharge) : Paying (Runtime.chargeGas gas) := by
  have hrun : ∀ m, (Runtime.chargeGas gas m).2 = m.charge gas := by
    intro m
    simp only [Runtime.chargeGas, Runtime.chargeGasInternal, bind_apply]
    split_ifs <;> rfl
  refine fun m => ⟨fun a m' h => ?_, fun p m' h => ⟨m', ?_, Or.inl rfl⟩⟩
  all_goals
    have hm' := hrun m
    rw [h] at hm'
    rw [show m' = m.charge gas from hm']
    exact .charge m gas

lemma pricelist : Paying (Runtime.pricelist : Act Machine Panic _) :=
  Paying.bind Paying.get fun _ => Paying.pure _

end Paying

lemma Pays.does {m m' : Machine} (h : Pays m m') : Does env N pl c m .done m' := by
  induction h with
  | refl m => exact .done m
  | step gas _ ih => exact .seq (.charge _ gas) ih

lemma FailsAt.does {m m' : Machine} {b : Bool} (h : FailsAt m b m') :
    Does env N pl c m (.failed b) m' := by
  rcases h with rfl | ⟨rfl, rfl⟩
  · exact .fails _ b
  · exact .fatal m

lemma Paying.traced {x : Act Machine Panic α} (h : Paying x) : Traced env N pl c Panic.fatal x := by
  intro m
  rcases hx : x m with ⟨p | a, m'⟩
  · obtain ⟨m1, hpays, hfails⟩ := (h m).2 p m' hx
    exact .seq (hpays.does env) (hfails.does env)
  · exact ((h m).1 a m' hx).does env

lemma chargeIpldGetEnd_paying : Paying Runtime.chargeIpldGetEnd :=
  Paying.bind (Paying.chargeGas _) fun _ => Paying.chargeGas _

lemma storeGet_paying (read : Runtime.StoreRead) : Paying (Runtime.storeGet read) := by
  refine Paying.bind Paying.pricelist fun pl => Paying.bind (Paying.chargeGas _) fun _ => ?_
  grind [Paying.bind, chargeIpldGetEnd_paying, Paying.pure, Paying.panicWith]

lemma storePut_paying (obj : Runtime.Object) : Paying (Runtime.storePut obj) := by
  cases obj with
  | unserializable => exact Paying.panicWith _
  | unstorable size =>
    refine Paying.bind Paying.pricelist fun pl => ?_
    exact Paying.bind (Paying.chargeGas _) fun _ => Paying.panicWith _
  | block cid size =>
    refine Paying.bind Paying.pricelist fun pl => Paying.bind (Paying.chargeGas _) fun _ => ?_
    exact Paying.bind (Paying.chargeGas _) fun _ => Paying.pure _

/-! ## Reading -/

lemma abortIfAlreadyValidated_traced :
    Traced env N pl c Panic.fatal Runtime.abortIfAlreadyValidated := by
  refine Traced.bind Traced.get fun m => Traced.ite (fun _ => Traced.abortf _ _) fun _ => ?_
  exact fun m => .validate m

lemma validateImmediateCallerIs_traced (addrs : List Address) :
    Traced env N pl c Panic.fatal (Runtime.validateImmediateCallerIs addrs) := by
  refine Traced.bind (abortIfAlreadyValidated_traced env) fun _ => ?_
  simp [Traced.bind, caller_traced, Traced.ite, Traced.pure, Traced.abortf]

lemma onVM_tree_traced {x : Act StateTree TreeErr α}
    {k : Except TreeErr α → Act VM ε β} (hx : Keeps Reads x)
    (hk : ∀ r, Traced env N pl c f (onVM (k r))) :
    Traced env N pl c f (onVM ((onTree x).attempt >>= k)) := by
  intro m
  have hrun : (onVM ((onTree x).attempt >>= k) : Act Machine ε β) m =
      ((onVM (onTree x)).attempt >>= fun r => onVM (k r)) m := by
    rw [bind_of_ok (attempt_apply _ m), onVM, zoom_apply, bind_of_ok (attempt_apply _ m.vm)]
    rfl
  rw [hrun]
  exact Traced.tree_bind hx hk m

lemma onVM_pure_traced (a : α) :
    Traced env N pl c f (onVM (pure a : Act VM ε α)) := fun m => .done m

lemma resolveAddress_traced (addr : Address) :
    Traced env N pl c Panic.fatal (onVM (Runtime.resolveAddress env addr)) := by
  refine onVM_tree_traced env (keeps_lookupID env.init addr) fun r => ?_
  cases r with
  | ok id => exact onVM_pure_traced env _
  | error err =>
    simp only
    split_ifs
    · exact onVM_pure_traced env _
    · exact Traced.panicWith _

lemma getActorCodeCID_traced (addr : Address) :
    Traced env N pl c Panic.fatal (onVM (Runtime.getActorCodeCID env addr)) := by
  refine onVM_tree_traced env (keeps_getActor env.init addr) fun r => ?_
  cases r with
  | ok id => exact onVM_pure_traced env _
  | error err =>
    simp only
    split_ifs
    · exact onVM_pure_traced env _
    · exact Traced.panicWith _

lemma validateImmediateCallerType_traced (ts : List Cid) :
    Traced env N pl c Panic.fatal (Runtime.validateImmediateCallerType env ts) := by
  refine Traced.bind (abortIfAlreadyValidated_traced env) fun _ => ?_
  refine Traced.bind (caller_traced env) fun imm => ?_
  refine Traced.bind (getActorCodeCID_traced env imm) fun r => ?_
  cases r <;> simp [Traced.panicWith, Traced.ite, Traced.pure, Traced.abortf]

lemma getBalance_traced (addr : Address) :
    Traced env N pl c Fault.fatal (onVM (Runtime.getBalance env addr)) := by
  refine onVM_tree_traced env (keeps_getActor env.init addr) fun r => ?_
  rcases r with err | act
  · cases err with
    | actorNotFound => exact onVM_pure_traced env _
    | other | wrap => exact Traced.raise _
  · exact onVM_pure_traced env _

lemma panicWith_fatal {err : ActorError} (h : err.fatal = true) (m : Machine) :
    ∃ e' m', (onVM (panicWith err) : Act Machine Panic α) m = (.error e', m') ∧ e'.fatal = true ∧
      Does env N pl c m (.failed true) m' := by
  refine ⟨.actorErr err, m.record .fatal, ?_, h, .fatal m⟩
  rw [onVM, zoom_apply, VM.panicWith, note, if_pos h]
  rfl

lemma getBalance_error {addr : Address} {vm : VM} {e : Fault}
    (h : (Runtime.getBalance env addr vm).1 = .error e) :
    e = .err (.escalate "failed to look up actor balance") := by
  rw [Runtime.getBalance, bind_of_ok (attempt_apply _ vm)] at h
  generalize (onTree (StateTree.getActor env.init addr) vm).1 = r at h
  rcases r with (_ | _ | _) | act <;> cases h <;> rfl

lemma currentBalance_traced : Traced env N pl c Panic.fatal (Runtime.currentBalance env) := by
  refine Traced.bind (receiver_traced env) fun self m => ?_
  refine Traced.attempt_bind_at (getBalance_traced env self m) (fun b => Traced.pure b) ?_ ?_
  · intro e he hordinary
    rw [getBalance_error env he] at hordinary
    cases hordinary
  · intro e he _ m1
    rw [getBalance_error env he]
    exact panicWith_fatal env rfl m1

lemma resolveToKeyAddr_traced (addr : Address) :
    Traced env N pl c f (onVM (Runtime.resolveToKeyAddr env addr)) := by
  rw [Runtime.resolveToKeyAddr]
  split_ifs
  · exact onVM_pure_traced env _
  · refine onVM_tree_traced env (keeps_getActor env.init addr) fun r => ?_
    cases r with
    | error err => exact onVM_pure_traced env _
    | ok act =>
      simp only
      split_ifs
      · exact onVM_pure_traced env _
      · exact onVM_pure_traced env _

lemma newActorAddress_traced (hN : c = true → N) :
    Traced env N .code c Panic.fatal (Runtime.newActorAddress env) := by
  intro m
  rw [Runtime.newActorAddress, bind_of_ok (get_apply m)]
  have hruntime : ∀ a m', (onVM (Runtime.resolveToKeyAddr env m.rt.origin) :
      Act Machine Panic Address) m = (.ok a, m') → m'.rt = m.rt := by
    intro a m' h
    rw [onVM, zoom_apply, Prod.mk.injEq] at h
    rw [← h.2]
  refine Traced.bind_at (resolveToKeyAddr_traced env _ m) fun key m1 h1 => ?_
  have hrt := hruntime key m1 h1
  by_cases hkey : key = .undef
  · rw [if_pos hkey]
    exact Traced.panicWith _ m1
  · rw [if_neg hkey, ← hrt]
    exact .newAddress m1 key hN

lemma stateReadonly_traced (read : Runtime.StoreRead) :
    Traced env N pl c Panic.fatal (Runtime.stateReadonly env read) := by
  refine Traced.bind (receiver_traced env) fun self => ?_
  refine Traced.tree_bind (keeps_getActor env.init self) fun r => ?_
  cases r with
  | error err => exact Traced.abortf _ _
  | ok act => exact Traced.bind ((storeGet_paying read).traced env) fun _ => Traced.pure _

lemma supplyRead_traced (read : Runtime.StoreRead) (msg : String) :
    Traced env N pl c Panic.fatal (Runtime.supplyRead read msg) := by
  refine Traced.bind (pricelist_traced env) fun pl => ?_
  refine Traced.bind ((Paying.chargeGas _).traced env) fun _ => ?_
  cases read with
  | found => exact chargeIpldGetEnd_paying.traced env
  | undecodable =>
    exact Traced.bind (chargeIpldGetEnd_paying.traced env) fun _ => Traced.abortf _ _
  | notFound | malformed | failed => exact fun m => .readFails m

/-! ### System calls -/

lemma syscallRead_traced (read : Runtime.StoreRead) :
    Traced env N pl c Panic.fatal (Runtime.syscallRead read) := by
  refine Traced.bind (pricelist_traced env) fun pl => ?_
  refine Traced.bind ((Paying.chargeGas _).traced env) fun _ => ?_
  cases read with
  | found | undecodable =>
    exact Traced.bind (chargeIpldGetEnd_paying.traced env) fun _ => Traced.pure _
  | notFound | malformed | failed => exact fun m => .caught (.readFails m)

lemma syscallKeyAddr_traced (addr : Address) (account : Runtime.StoreRead) :
    Traced env N pl c Panic.fatal (Runtime.syscallKeyAddr env addr account) := by
  refine Traced.ite (fun _ => Traced.pure _) fun _ => ?_
  refine Traced.tree_bind (keeps_getActor env.init addr) fun r => ?_
  cases r with
  | error err => exact Traced.pure _
  | ok act => exact Traced.ite (fun _ => Traced.pure _) fun _ => syscallRead_traced env account

lemma verifyBlockSig_traced (r : Runtime.BlockSigReads) :
    Traced env N pl c Panic.fatal (Runtime.verifyBlockSig env r) := by
  refine Traced.tree_bind (keeps_getActor env.init r.miner) fun act => ?_
  cases act with
  | error err => exact Traced.pure _
  | ok act =>
    refine Traced.bind (syscallRead_traced env r.state) fun _ => ?_
    refine Traced.ite (fun _ => Traced.pure _) fun _ => ?_
    refine Traced.bind (syscallRead_traced env r.info) fun _ => ?_
    exact Traced.ite (fun _ => Traced.pure _) fun _ => syscallKeyAddr_traced env _ _

lemma verifyBlockSigs_traced (rs : List Runtime.BlockSigReads) :
    Traced env N pl c Panic.fatal (Runtime.verifyBlockSigs env rs) := by
  induction rs with
  | nil => exact Traced.pure _
  | cons r rs ih =>
    refine Traced.bind (verifyBlockSig_traced env r) fun _ => ?_
    exact Traced.ite (fun _ => ih) fun _ => Traced.pure _

lemma syscallReads_traced (call : Syscall) (reads : Runtime.SyscallReads) :
    Traced env N pl c Panic.fatal (Runtime.syscallReads env call reads) := by
  unfold Runtime.syscallReads
  split
  · exact syscallKeyAddr_traced env _ _
  · exact verifyBlockSigs_traced env _
  · exact Traced.pure _

lemma syscall_traced (call : Syscall) (reads : Runtime.SyscallReads) :
    Traced env N pl c Panic.fatal (Runtime.syscall env call reads) := by
  refine Traced.bind (pricelist_traced env) fun pl => ?_
  cases call.price pl with
  | none => exact Traced.pure _
  | some gas =>
    refine Traced.bind ((Paying.chargeGas gas).traced env) fun _ m => ?_
    refine Traced.attempt_bind_at (syscallReads_traced env call reads m) ?_ ?_ ?_
    · exact fun b => Traced.bind ((Paying.chargeGas _).traced env) fun _ => Traced.pure b
    · exact fun p _ _ => Traced.bind (chargeGasIgnored_traced env _) fun _ => Traced.fail p
    · intro p _ hfatal m1
      have hcharge : (Runtime.chargeGasIgnored gasOnActorExec : Act Machine Panic Unit) m1 =
          (.ok (), m1.charge gasOnActorExec) := by
        rw [Runtime.chargeGasIgnored, bind_apply, Runtime.chargeGasInternal]
        split_ifs <;> rfl
      exact ⟨p, _, bind_of_ok hcharge, hfatal, .deferred gasOnActorExec (.fails m1 true)⟩

lemma supplyActor_traced (addr : Address) :
    Traced env N pl c Panic.fatal (Runtime.supplyActor env addr) := by
  refine Traced.tree_bind (keeps_getActor env.init addr) fun r => ?_
  cases r with
  | ok act => exact Traced.pure _
  | error err => exact Traced.abortf _ _

lemma totalFilCircSupply_traced (vested : Option ℤ) (market : Runtime.StoreRead) (locked : ℤ)
    (power : Runtime.StoreRead) (pledge : ℤ) :
    Traced env N pl c Panic.fatal
      (Runtime.totalFilCircSupply env vested market locked power pledge) := by
  cases vested with
  | none => exact Traced.abortf _ _
  | some vested =>
    refine Traced.bind (supplyActor_traced env _) fun rew => ?_
    grind [Traced.bind, supplyActor_traced, supplyRead_traced, Traced.pure]

lemma getRandomness_traced (available : Bool) :
    Traced env N pl c Panic.fatal (Runtime.getRandomness available) :=
  Traced.ite (fun _ => Traced.pure ()) fun _ => Traced.panicWith _

lemma orRaise_traced {x : Act StateTree TreeErr α} (hx : Keeps Reads x) (err : ActorError) :
    Traced env N pl c Fault.fatal (onVM (orRaise x err)) := by
  refine onVM_tree_traced env hx fun r => ?_
  grind [onVM_pure_traced, Traced.raise]

lemma Mild.of_transfer {vm : VM} {t : StateTree} {a b : Address} {f g : Actor} {amt : ℤ}
    (h : Reads vm.cstate t) (hne : a ≠ b) (hf : vm.cstate.view a = some f)
    (hg : vm.cstate.view b = some g) (hpos : 0 ≤ amt) (hle : amt ≤ f.balance) :
    Mild vm [] { vm with
        cstate := (t.snapsWrite a (.put { f with balance := f.balance - amt })).snapsWrite b
          (.put { g with balance := g.balance + amt }) } := by
  refine ⟨⟨⟨(List.append_nil _).symm, rfl, h.root_eq, h.below_eq, h.cache_mono⟩, ?_⟩,
    nofun, fun id act hact => ?_⟩
  all_goals simp only [view_snapsWrite, Layers.Write.read_put, h.view_eq]
  · exact .transfer hne hf hg hpos hle
  · grind

lemma transfer_traced (fromAddr toAddr : Address) (amt : ℤ) :
    Traced env N pl c Fault.fatal (onVM (transfer env.init fromAddr toAddr amt)) := by
  intro m
  rw [onVM, zoom_apply]
  rcases transfer_cases env.init fromAddr toAddr amt m.vm with ⟨err, t, hreads, hrun⟩ |
    ⟨t, hreads, hrun, -⟩ | ⟨_, _, _, _, _, hreads, -, -, hne, hf, hg, hpos, hle, hrun⟩
  · rw [hrun]
    exact .seq (.mild (Mild.of_reads hreads)) (Traced.raise err (m.setTree t))
  · rw [hrun]
    exact .mild (Mild.of_reads hreads)
  · rw [hrun]
    exact .mild (Mild.of_transfer hreads hne hf hg hpos hle)

/-! ## Creating and deleting actors -/

lemma Does.read {m : Machine} {t : StateTree} (h : Reads m.vm.cstate t) :
    Does env N pl c m .done (m.setTree t) := .mild (Mild.of_reads h)

lemma Mild.of_create {vm : VM} {t : StateTree} {id : Address} (code head : Cid)
    (h : Reads vm.cstate t) (hnone : vm.cstate.view id = none) :
    Mild vm [.created id] { vm with
      cstate := t.snapsWrite id (.put ⟨code, head, 0, 0⟩), log := vm.log ++ [.created id] } := by
  refine ⟨.of_write_event h (.create code head hnone),
    fun e he => ⟨id, List.mem_singleton.mp he⟩, fun id' act' hact' => ⟨act', ?_, rfl⟩⟩
  have hne : id' ≠ id := by grind
  simp only [view_snapsWrite, h.view_eq]
  rw [update_of_ne hne, hact']

lemma createActor_traced (codeID : Cid) (addr : Address) :
    Traced env N pl c Panic.fatal (Runtime.createActor env codeID addr) := by
  refine Traced.ite (fun _ => Traced.abortf _ _) fun _ => ?_
  refine Traced.ite (fun _ => Traced.abortf _ _) fun _ m => ?_
  rcases hget : StateTree.getActor env.init addr m.vm.cstate with ⟨err | act, t1⟩
  swap
  · obtain ⟨id, hreads, -, -⟩ := getActor_ok hget
    rw [Act.bind_of_ok (attempt_tree_ok hget)]
    exact .seq (.read env hreads) (Traced.abortf _ _ _)
  obtain ⟨hreads1, hfree⟩ := getActor_error hget
  rw [Act.bind_of_ok (attempt_tree_error hget)]
  refine .seq (.read env hreads1) ?_
  refine Traced.bind_at (pricelist_traced env _) fun pl m2 h2 => ?_
  cases h2
  refine Traced.bind_at ((Paying.chargeGas _).traced env _) fun _ m3 h3 => ?_
  have hcstate : m3.vm.cstate = t1 := ((Paying.chargeGas _ _).1 _ _ h3).kept.1
  rcases setActor_cases env.init addr ⟨codeID, env.emptyObjectCid, 0, 0⟩ m3.vm.cstate with
    ⟨err', t, hset, hreads⟩ | ⟨id, t, hlookup, hreads, hres, hset⟩
  · rw [Act.bind_of_ok (attempt_tree_error hset)]
    exact .seq (.read env hreads) (Traced.panicWith _ _)
  · rw [Act.bind_of_ok (attempt_tree_ok hset)]
    have hnone : m3.vm.cstate.view id = none := by grind
    set m4 := m3.setTree (t.snapsWrite id (.put ⟨codeID, env.emptyObjectCid, 0, 0⟩)) with hm4
    have hid : m4.vm.resolved env.init addr = id := resolved_of_resolves (hres.snapsWrite id _)
    have hstep : Does env N pl c m3 .done (m4.record (.created id)) :=
      .mild (Mild.of_create codeID _ hreads hnone)
    refine .seq hstep ?_
    rw [← hid]
    exact chargeGasIgnored_traced env gasOnActorExec _

lemma burnBalance_traced (self : Address) (balance : ℤ) :
    Traced env N pl c Panic.fatal (Runtime.burnBalance env self balance) := by
  refine Traced.ite (fun _ => Traced.pure ()) fun _ m => ?_
  refine Traced.attempt_bind_at (transfer_traced env _ _ _ m) (fun _ => Traced.pure ()) ?_ ?_
  · exact fun e _ _ => Traced.panicWith _
  · exact fun e _ _ m1 => panicWith_fatal env rfl m1

/-- Steps from `m` that end with the removal of an actor and a charge, unless they fail. -/
def Removing (env : Env) (N : Prop) (pl : Place) (c : Bool) (x : Act Machine Panic Unit)
    (m : Machine) : Prop :=
  Does env N pl c m (ending Panic.fatal (x m).1) (x m).2 ∨
    ∃ m1 id vm, Does env N pl c m .done m1 ∧ Grows m1.vm [.deleted id] vm ∧
      x m = Runtime.chargeGasIgnored gasOnActorExec ⟨vm, m1.rt⟩

lemma Removing.bind {x : Act Machine Panic α} {k : α → Act Machine Panic Unit} {m : Machine}
    (hx : Traced env N pl c Panic.fatal x)
    (hk : ∀ a m', x m = (.ok a, m') → Removing env N pl c (k a) m') :
    Removing env N pl c (x >>= k) m := by
  have hdoes := hx m
  unfold Removing
  rcases h : x m with ⟨p | a, m'⟩
  · rw [h] at hdoes
    rw [bind_of_error h]
    exact Or.inl hdoes
  · rw [h] at hdoes
    rw [bind_of_ok h]
    rcases hk a m' h with hrest | ⟨m1, id, vm, hrest, hdel, hrun⟩
    · exact Or.inl (.seq hdoes hrest)
    · exact Or.inr ⟨m1, id, vm, .seq hdoes hrest, hdel, hrun⟩

/-- The removal of an actor that has no balance left, or is the burnt-funds actor. -/
lemma removeActor_removing {self id : Address} {m : Machine}
    (hres : Resolves env.init m.vm.cstate self id)
    (hzero : id = burntFundsActorAddr ∨ ∀ act, m.vm.cstate.view id = some act → act.balance = 0) :
    Removing env N pl c (Runtime.removeActor env self) m := by
  rw [Removing, Runtime.removeActor]
  rcases deleteActor_cases env.init self m.vm.cstate with
    ⟨err, t, hdel, hreads⟩ | ⟨id', t, act, hreads, hres', hview, hdel⟩
  · rw [Act.bind_of_ok (attempt_tree_error hdel)]
    exact Or.inl (.seq (.read env hreads) (Traced.panicWith _ _))
  · obtain rfl := hres'.unique (hres.mono hreads.cache_mono)
    rw [Act.bind_of_ok (attempt_tree_ok hdel)]
    set m1 := m.setTree (t.snapsWrite id .del) with hm1
    have hid : m1.vm.resolved env.init self = id := resolved_of_resolves (hres'.snapsWrite id _)
    refine Or.inr ⟨m, id, (m1.record (.deleted id)).vm, .done m, .of_write_event hreads
      (.delete hview (hzero.symm.imp_left fun h => h act hview)), ?_⟩
    rw [← hid]
    rfl

lemma Traced.of_removing {body : Act Machine Panic Unit} (h : ∀ m, Removing env N pl c body m) :
    Traced env N pl c Panic.fatal (Runtime.noteStateCall >>= fun _ => body) := by
  intro m
  rcases h m.noteStateCall with hdoes | ⟨m1, id, vm, hdoes, hdel, hrun⟩
  · exact .seq (.stateCall m) hdoes
  · have hall : (Runtime.noteStateCall >>= fun _ => body) m =
        Runtime.chargeGasIgnored gasOnActorExec ⟨vm, m1.rt⟩ := hrun
    rw [hall]
    exact .seq (.delete hdoes hdel) (chargeGasIgnored_traced env gasOnActorExec _)

lemma deleteActor_traced (addr : Address) :
    Traced env N pl c Panic.fatal (Runtime.deleteActor env addr) := by
  unfold Runtime.deleteActor
  refine .of_removing env fun m => ?_
  refine .bind env (pricelist_traced env) fun pl m1 _ => ?_
  refine .bind env ((Paying.chargeGas _).traced env) fun _ m2 _ => ?_
  refine .bind env (receiver_traced env) fun self m3 _ => ?_
  refine .bind env (fun m => .read env (keeps_getActor env.init self m.vm.cstate)) fun r m4 h => ?_
  rcases hget : StateTree.getActor env.init self m3.vm.cstate with ⟨err | act, t⟩
  · rw [attempt_tree_error hget] at h
    cases h
    exact Or.inl (Traced.ite (fun _ => Traced.abortf _ _) (fun _ => Traced.panicWith _) _)
  · rw [attempt_tree_ok hget] at h
    cases h
    obtain ⟨id, hreads, hres, hview⟩ := getActor_ok hget
    refine .bind env (burnBalance_traced env self _) fun _ m5 hburn => ?_
    obtain ⟨hres', hzero⟩ :=
      burnBalance_ok env hburn hres ((congrFun hreads.view_eq id).trans hview)
    exact removeActor_removing env hres' hzero

/-! ## The state handle -/

lemma stateCommitIgnored_run (oldh newh : Cid) (m : Machine) :
    Runtime.stateCommitIgnored env oldh newh m =
      (.ok (), (Runtime.stateCommitIgnored env oldh newh m).2) := rfl

/-- What a commit does: it fails if the head is not the one it expects, which nobody sees, and
otherwise it sets the head. -/
lemma stateCommitIgnored_cases (oldh newh : Cid) (m : Machine) :
    (m.vm.headOf env.init m.rt.vmsg.toAddr ≠ some oldh ∧ ∃ t, Reads m.vm.cstate t ∧
      (Runtime.stateCommitIgnored env oldh newh m).2 = ((m.record (.mark
        (.commit (m.vm.headOf env.init m.rt.vmsg.toAddr) oldh))).setTree t).record .fatal) ∨
    (m.vm.headOf env.init m.rt.vmsg.toAddr = some oldh ∧ ∃ t id act, Reads m.vm.cstate t ∧
      Resolves env.init t m.rt.vmsg.toAddr id ∧ m.vm.cstate.view id = some act ∧
      (Runtime.stateCommitIgnored env oldh newh m).2 = (m.record (.mark
        (.commit (m.vm.headOf env.init m.rt.vmsg.toAddr) oldh))).setTree
          (t.snapsWrite id (.put { act with head := newh }))) := by
  set self := m.rt.vmsg.toAddr with hself
  set m1 := m.record (.mark (.commit (m.vm.headOf env.init self) oldh)) with hm1
  have hrun : (Runtime.stateCommitIgnored env oldh newh m).2 =
      ⟨(Runtime.stateCommit env self oldh newh m1.vm).2, m.rt⟩ := rfl
  rw [hrun, Runtime.stateCommit]
  rcases hget : StateTree.getActor env.init self m1.vm.cstate with ⟨err | act, t⟩
  · have hhead : m.vm.headOf env.init self = none := by
      rw [VM.headOf, show StateTree.getActor env.init self m.vm.cstate = _ from hget]
    refine Or.inl ⟨by rw [hhead]; nofun, t, (getActor_error hget).1, ?_⟩
    rw [bind_of_error (orRaise_of_error _ hget)]
    rfl
  · have hhead : m.vm.headOf env.init self = some act.head := by
      rw [VM.headOf, show StateTree.getActor env.init self m.vm.cstate = _ from hget]
    obtain ⟨id, hreads, hres, hview⟩ := getActor_ok hget
    rw [bind_of_ok (orRaise_of_ok _ hget)]
    by_cases heq : act.head = oldh
    · refine Or.inr ⟨by rw [hhead, heq], t, id, act, hreads, hres, hview, ?_⟩
      rw [if_neg (not_not.mpr heq), orRaise_of_ok _ (setActor_of_resolves hres _)]
      rfl
    · refine Or.inl ⟨by rw [hhead]; exact fun h => heq (Option.some.inj h), t, hreads, ?_⟩
      rw [if_pos heq]
      rfl

lemma stateCreate_traced (obj : Runtime.Object) :
    Traced env N pl c Panic.fatal (Runtime.stateCreate env obj) := by
  intro m
  have hrun : Runtime.stateCreate env obj m = (Runtime.storePut obj >>= fun newh =>
      Runtime.stateCommitIgnored env env.emptyObjectCid newh) m.noteStateCall := rfl
  rw [hrun]
  rcases hput : Runtime.storePut obj m.noteStateCall with ⟨p | newh, m1⟩
  · have hdoes : Does env N pl c _ _ _ := (storePut_paying obj).traced env m.noteStateCall
    rw [hput] at hdoes
    rw [bind_of_error hput]
    exact .seq (.stateCall m) hdoes
  · rw [bind_of_ok hput]
    exact .create newh ((storePut_paying obj m.noteStateCall).1 newh m1 hput)

def transactionOpen (read : Runtime.StoreRead) (oldh : Cid) (f : Act Machine Panic Runtime.Object) :
    Act Machine Panic Cid := do
  let _ ← Runtime.storeGet read
  Runtime.setAllowInternal false
  let obj ← f
  Runtime.setAllowInternal true
  let newh ← Runtime.storePut obj
  Runtime.stateCommitIgnored env oldh newh
  pure newh

section Transaction

variable {env} {f : Act Machine Panic Runtime.Object} {read : Runtime.StoreRead} {m m' : Machine}
  {act : Actor} {t : StateTree}

lemma transaction_some (env : Env) (read : Runtime.StoreRead)
    (f : Act Machine Panic Runtime.Object) (m : Machine) :
    Runtime.transaction env (some read) f m =
      ((onVM (onTree (StateTree.getActor env.init m.rt.vmsg.toAddr))).attempt >>= fun
        | .error _ => onVM (VM.abortf ExitCode.sysErrorIllegalActor
            "failed to get actor for Transaction: %s")
        | .ok act => Runtime.whileOpen (transactionOpen env read act.head f) >>= fun newh =>
            Act.get >>= fun m' =>
            onVM (emit (.mark (.transacted (m'.vm.headOf env.init m.rt.vmsg.toAddr) newh))) :
        Act Machine Panic Unit) m.noteStateCall := rfl

lemma whileOpen_run {x : Act Machine Panic α} {r : Except Panic α} (h : x m.openTx = (r, m')) :
    Runtime.whileOpen x m = (r, m'.closeTx) := by
  have hrun : Runtime.whileOpen x m = ((x m.openTx).1, (x m.openTx).2.closeTx) := rfl
  rw [hrun, h]

lemma transaction_of_getActor_error {err : TreeErr}
    (h : StateTree.getActor env.init m.rt.vmsg.toAddr m.noteStateCall.vm.cstate = (.error err, t)) :
    Runtime.transaction env (some read) f m =
      onVM (VM.abortf ExitCode.sysErrorIllegalActor "failed to get actor for Transaction: %s")
        (m.noteStateCall.setTree t) := by
  rw [transaction_some, bind_of_ok (attempt_tree_error h)]

lemma transaction_of_error {p : Panic}
    (h : StateTree.getActor env.init m.rt.vmsg.toAddr m.noteStateCall.vm.cstate = (.ok act, t))
    (hrun : transactionOpen env read act.head f (m.noteStateCall.setTree t).openTx =
      (.error p, m')) :
    Runtime.transaction env (some read) f m = (.error p, m'.closeTx) := by
  rw [transaction_some, bind_of_ok (attempt_tree_ok h)]
  exact bind_of_error (whileOpen_run hrun)

lemma transaction_of_ok {newh : Cid}
    (h : StateTree.getActor env.init m.rt.vmsg.toAddr m.noteStateCall.vm.cstate = (.ok act, t))
    (hrun : transactionOpen env read act.head f (m.noteStateCall.setTree t).openTx =
      (.ok newh, m')) (hself : m'.rt.vmsg.toAddr = m.rt.vmsg.toAddr) :
    Runtime.transaction env (some read) f m =
      (.ok (), m'.closeTx.noteTransacted env.init newh) := by
  rw [transaction_some, bind_of_ok (attempt_tree_ok h)]
  refine (bind_of_ok (whileOpen_run hrun)).trans ?_
  rw [← hself]
  rfl

end Transaction

lemma transaction_traced {f : Act Machine Panic Runtime.Object}
    (hf : Traced env N .code c Panic.fatal f) (read : Option Runtime.StoreRead) :
    Traced env N .code c Panic.fatal (Runtime.transaction env read f) := by
  intro m
  cases read with
  | none => exact .seq (.stateCall m) (Traced.abortf _ _ m.noteStateCall)
  | some read =>
    rcases hget : StateTree.getActor env.init m.rt.vmsg.toAddr m.vm.cstate with ⟨err | act, t⟩
    · have hreads : Reads m.noteStateCall.vm.cstate t := (getActor_error hget).1
      rw [transaction_of_getActor_error hget]
      exact .seq (.stateCall m) (.seq (.read env hreads) (Traced.abortf _ _ _))
    set m0 := (m.noteStateCall.setTree t).openTx with hm0
    rcases hload : Runtime.storeGet read m0 with ⟨p | found, m1⟩
    · obtain ⟨m2, hpays, hfails⟩ := (storeGet_paying read m0).2 p m1 hload
      rw [transaction_of_error hget (by rw [transactionOpen, bind_of_error hload])]
      exact .transactionLoadFails hget hpays hfails
    have hpays := (storeGet_paying read m0).1 found m1 hload
    have hallow : ∀ b m, Runtime.setAllowInternal b m = (.ok (), m.allow b) := fun _ _ => rfl
    have hclosure := hf (m1.allow false)
    rcases hrun : f (m1.allow false) with ⟨p | obj, m2⟩
    · rw [hrun] at hclosure
      rw [transaction_of_error hget (by
        rw [transactionOpen, bind_of_ok hload, bind_of_ok (hallow _ _), bind_of_error hrun])]
      exact .transactionFails hget hpays hclosure
    rw [hrun] at hclosure
    rcases hput : Runtime.storePut obj (m2.allow true) with ⟨p | newh, m3⟩
    · obtain ⟨m4, hpays', hfails⟩ := (storePut_paying obj (m2.allow true)).2 p m3 hput
      rw [transaction_of_error hget (by
        rw [transactionOpen, bind_of_ok hload, bind_of_ok (hallow _ _), bind_of_ok hrun,
          bind_of_ok (hallow _ _), bind_of_error hput])]
      exact .transactionPutFails hget hpays hclosure hpays' hfails
    have hpays' := (storePut_paying obj (m2.allow true)).1 newh m3 hput
    have hself : m3.rt.vmsg.toAddr = m.rt.vmsg.toAddr := congrArg (fun i => i.1.toAddr)
      (hpays'.identity_eq.trans (hclosure.identity_eq.trans hpays.identity_eq))
    have hopen : transactionOpen env read act.head f m0 =
        (.ok newh, (Runtime.stateCommitIgnored env act.head newh m3).2) := by
      rw [transactionOpen, bind_of_ok hload, bind_of_ok (hallow _ _), bind_of_ok hrun,
        bind_of_ok (hallow _ _), bind_of_ok hput,
        bind_of_ok (stateCommitIgnored_run env act.head newh m3)]
      rfl
    rw [transaction_of_ok hget hopen hself]
    exact .transaction newh hget hpays hclosure hpays'

end Lotus
