import Lotus.Vm.Fatal

/-!
# Isolation of transactions

While the closure of a `Transaction` runs, `allowInternal` is false, and `Send` refuses to run.
-/

namespace Lotus

open VM Machine StateTree Act List

/-- `Create`, `Transaction` or `DeleteActor` was called while the frame had an open transaction. -/
def Event.Nested : Event → Prop
  | .mark (.stateCall openTxs) => openTxs ≠ 0
  | _ => False

/-- A `Send` runs outside of the transactions of its frame, and a transaction that returns leaves
the head it committed. -/
def Event.Isolated : Event → Prop
  | .mark (.sent openTxs) => openTxs = 0
  | .mark (.transacted head c) => head = some c
  | _ => True

instance : DecidablePred Event.Nested := fun e =>
  match e with
  | .mark (.stateCall openTxs) => inferInstanceAs (Decidable (openTxs ≠ 0))
  | .mark (.commit _ _) | .mark .readFailed | .mark (.sent _) | .mark (.transacted _ _)
  | .charged _ | .created _ | .registered _ _ _ | .deleted _ | .fatal | .newAddress _ _ _
  | .round _ => isFalse id

structure Steady (vm vm' : VM) : Prop where
  cache_mono : ∀ a id, vm.cstate.resolveAddress a = some id → vm'.cstate.resolveAddress a = some id
  heads : ∀ id act, vm.cstate.view id = some act →
    ∃ act', vm'.cstate.view id = some act' ∧ act'.head = act.head

namespace Steady

lemma of_cstate_eq {vm vm' : VM} (h : vm'.cstate = vm.cstate) : Steady vm vm' where
  cache_mono a id hres := by rwa [h]
  heads id act hact := ⟨act, by rwa [h], rfl⟩

lemma trans {vm1 vm2 vm3 : VM} (h1 : Steady vm1 vm2) (h2 : Steady vm2 vm3) : Steady vm1 vm3 where
  cache_mono a id hres := h2.cache_mono a id (h1.cache_mono a id hres)
  heads id act hact := by
    grind [h1.heads, h2.heads]

end Steady

def Harmless (m m' : Machine) : Prop :=
  ∃ es, m'.vm.log = m.vm.log ++ es ∧ ∀ e ∈ es, e.Isolated

namespace Harmless

lemma refl (m : Machine) : Harmless m m := ⟨[], (append_nil _).symm, nofun⟩

lemma trans {m1 m2 m3 : Machine} (h1 : Harmless m1 m2) (h2 : Harmless m2 m3) : Harmless m1 m3 := by
  obtain ⟨es1, hlog1, hes1⟩ := h1
  obtain ⟨es2, hlog2, hes2⟩ := h2
  refine ⟨es1 ++ es2, by rw [hlog2, hlog1, append_assoc], fun e he => ?_⟩
  exact (mem_append.mp he).elim (hes1 e) (hes2 e)

end Harmless

def Isolates (pl : Place) (m m' : Machine) : Prop :=
  ∃ es, m'.vm.log = m.vm.log ++ es ∧ m'.rt.openTxs = m.rt.openTxs ∧
    ((∀ e ∈ es, ¬e.Nested) → (0 < m.rt.openTxs → pl = .code ∧ m.rt.allowInternal = false) →
      (∀ e ∈ es, e.Isolated) ∧
      (0 < m.rt.openTxs → m'.rt.allowInternal = false ∧ Steady m.vm m'.vm))

namespace Isolates

variable {pl : Place} {m m' m1 m2 m3 : Machine}

lemma of_steady (es : List Event) (hlog : m'.vm.log = m.vm.log ++ es)
    (hes : ∀ e ∈ es, e.Isolated) (hopen : m'.rt.openTxs = m.rt.openTxs)
    (hallow : m'.rt.allowInternal = m.rt.allowInternal) (hsteady : Steady m.vm m'.vm) :
    Isolates pl m m' :=
  ⟨es, hlog, hopen, fun _ hcode => ⟨hes, fun hpos => ⟨hallow.trans (hcode hpos).2, hsteady⟩⟩⟩

lemma refl (pl : Place) (m : Machine) : Isolates pl m m :=
  of_steady [] (append_nil _).symm (fun _ he => absurd he not_mem_nil) rfl rfl (.of_cstate_eq rfl)

lemma record (pl : Place) (m : Machine) {e : Event} (he : e.Isolated) :
    Isolates pl m (m.record e) :=
  of_steady [e] rfl (fun _ he' => mem_singleton.mp he' ▸ he) rfl rfl (.of_cstate_eq rfl)

lemma trans (h1 : Isolates pl m1 m2) (h2 : Isolates pl m2 m3) : Isolates pl m1 m3 := by
  obtain ⟨es1, hlog1, hopen1, hiso1⟩ := h1
  obtain ⟨es2, hlog2, hopen2, hiso2⟩ := h2
  refine ⟨es1 ++ es2, by rw [hlog2, hlog1, append_assoc], hopen2.trans hopen1,
    fun hflat hcode => ?_⟩
  obtain ⟨hes1, hopened1⟩ := hiso1 (fun e he => hflat e (mem_append_left _ he)) hcode
  obtain ⟨hes2, hopened2⟩ := hiso2 (fun e he => hflat e (mem_append_right _ he)) fun hpos => by
    rw [hopen1] at hpos
    exact ⟨(hcode hpos).1, (hopened1 hpos).1⟩
  refine ⟨fun e he => (mem_append.mp he).elim (hes1 e) (hes2 e), fun hpos => ?_⟩
  obtain ⟨hallow, hsteady⟩ := hopened2 (by rwa [hopen1])
  exact ⟨hallow, (hopened1 hpos).2.trans hsteady⟩

lemma of_stateCall (es : List Event) (hlog : m'.vm.log = m.noteStateCall.vm.log ++ es)
    (hopen : m'.rt.openTxs = m.rt.openTxs)
    (hes : (∀ e ∈ es, ¬e.Nested) → m.rt.openTxs = 0 → ∀ e ∈ es, e.Isolated) :
    Isolates pl m m' := by
  refine ⟨.mark (.stateCall m.rt.openTxs) :: es, ?_, hopen, fun hflat _ => ?_⟩
  · rw [hlog]
    exact append_assoc ..
  · have hzero : m.rt.openTxs = 0 := not_not.mp (hflat _ mem_cons_self)
    refine ⟨fun e he => ?_, fun hpos => absurd hzero (by omega)⟩
    rcases mem_cons.mp he with rfl | he
    · trivial
    · exact hes (fun e he => hflat e (.tail _ he)) hzero e he

lemma of_stateCall_then (es : List Event) (hlog : m1.vm.log = m.noteStateCall.vm.log ++ es)
    (hopen : m'.rt.openTxs = m.rt.openTxs)
    (hes : (∀ e ∈ es, ¬e.Nested) → m.rt.openTxs = 0 → ∀ e ∈ es, e.Isolated)
    (hrest : Harmless m1 m') : Isolates pl m m' := by
  obtain ⟨es', hlog', hes'⟩ := hrest
  refine of_stateCall (es ++ es') ?_ hopen fun hflat hzero e he => ?_ <;> grind

lemma of_closed (es : List Event) (hlog : m'.vm.log = m.vm.log ++ es)
    (hopen : m'.rt.openTxs = m.rt.openTxs)
    (hclosed : (0 < m.rt.openTxs → pl = .code ∧ m.rt.allowInternal = false) → m.rt.openTxs = 0)
    (hes : (∀ e ∈ es, ¬e.Nested) → m.rt.openTxs = 0 → ∀ e ∈ es, e.Isolated) :
    Isolates pl m m' :=
  ⟨es, hlog, hopen, fun hflat hcode => ⟨hes hflat (hclosed hcode),
    fun hpos => absurd (hclosed hcode) (by omega)⟩⟩

end Isolates

/-! ## Heads and commits -/

variable {env : Env}

lemma headOf_of_resolves {vm : VM} {addr id : Address} {act : Actor}
    (hres : Resolves env.init vm.cstate addr id) (hview : vm.cstate.view id = some act) :
    vm.headOf env.init addr = some act.head := by
  grind [getActor_of_resolves, VM.headOf, lookupAnswer]

lemma stateCommitIgnored_headOf {oldh newh : Cid} {m : Machine}
    (h : m.vm.headOf env.init m.rt.vmsg.toAddr = some oldh) :
    (Runtime.stateCommitIgnored env oldh newh m).2.vm.headOf env.init m.rt.vmsg.toAddr =
      some newh := by
  rcases stateCommitIgnored_cases env oldh newh m with
    ⟨hne, -⟩ | ⟨-, t, id, act, -, hres, -, hrun⟩
  · exact absurd h hne
  · set m' := (Runtime.stateCommitIgnored env oldh newh m).2 with hm'
    have hview : m'.vm.cstate.view id = some { act with head := newh } := by
      rw [hrun]
      exact (congrFun (view_snapsWrite ..) id).trans (Function.update_self ..)
    have hres' : Resolves env.init m'.vm.cstate m.rt.vmsg.toAddr id := by
      rw [hrun]
      exact hres.snapsWrite _ _
    exact headOf_of_resolves hres' hview

lemma stateCommitIgnored_harmless (env : Env) (oldh newh : Cid) (m : Machine) :
    Harmless m (Runtime.stateCommitIgnored env oldh newh m).2 := by
  set found := m.vm.headOf env.init m.rt.vmsg.toAddr with hfound
  rcases stateCommitIgnored_cases env oldh newh m with
    ⟨-, t, -, hrun⟩ | ⟨-, t, id, act, -, -, -, hrun⟩
  · refine ⟨[.mark (.commit found oldh), .fatal], ?_, by simp [Event.Isolated]⟩
    rw [hrun]
    exact append_assoc ..
  · exact ⟨[.mark (.commit found oldh)], by rw [hrun]; rfl, by simp [Event.Isolated]⟩

lemma OnlyCharges.isolated {es : List Event} (h : OnlyCharges es) : ∀ e ∈ es, e.Isolated := by
  intro e he
  obtain ⟨gas, rfl⟩ := h e he
  trivial

variable {m m' : Machine}

lemma Pays.isolates (h : Pays m m') (pl : Place) : Isolates pl m m' := by
  obtain ⟨es, hes, hlog⟩ := h.log_eq
  obtain ⟨hcstate, hopen, hallow⟩ := h.kept
  exact .of_steady es hlog hes.isolated hopen hallow (.of_cstate_eq hcstate)

lemma Pays.harmless (h : Pays m m') : Harmless m m' := by
  obtain ⟨es, hes, hlog⟩ := h.log_eq
  exact ⟨es, hlog, hes.isolated⟩

lemma FailsAt.harmless {b : Bool} (h : FailsAt m b m') : Harmless m m' := by
  rcases h with rfl | ⟨-, rfl⟩
  · exact .refl m'
  · exact ⟨[.fatal], rfl, by simp [Event.Isolated]⟩

lemma FailsAt.openTxs_eq {b : Bool} (h : FailsAt m b m') :
    m'.rt.openTxs = m.rt.openTxs := by
  rcases h with rfl | ⟨-, rfl⟩ <;> rfl

section Transaction

variable {m m1 m2 m3 : Machine} {act : Actor} {t : StateTree}

lemma transaction_closure
    (hget : StateTree.getActor env.init m.rt.vmsg.toAddr m.vm.cstate = (.ok act, t))
    (hpays : Pays (m.noteStateCall.setTree t).openTx m1)
    (hclosure : Isolates .code (m1.allow false) m2) :
    ∃ es, m2.vm.log = m.noteStateCall.vm.log ++ es ∧ m2.rt.openTxs = m.rt.openTxs + 1 ∧
      ((∀ e ∈ es, ¬e.Nested) → (∀ e ∈ es, e.Isolated) ∧
        m2.vm.headOf env.init m.rt.vmsg.toAddr = some act.head) := by
  obtain ⟨es1, hes1, hlog1⟩ := hpays.log_eq
  obtain ⟨hcstate1, hopen1, -⟩ := hpays.kept
  obtain ⟨es2, hlog2, hopen2, hiso2⟩ := hclosure
  refine ⟨es1 ++ es2, ?_, hopen2.trans hopen1, fun hflat => ?_⟩
  · rw [hlog2, ← append_assoc]
    exact congrArg (· ++ es2) hlog1
  · obtain ⟨hes2, hopened⟩ := hiso2 (fun e he => hflat e (mem_append_right _ he))
      fun _ => ⟨rfl, rfl⟩
    refine ⟨fun e he => (mem_append.mp he).elim (hes1.isolated e) (hes2 e), ?_⟩
    have hpos : 0 < (m1.allow false).rt.openTxs := by
      rw [show (m1.allow false).rt.openTxs = m.rt.openTxs + 1 from hopen1]
      omega
    obtain ⟨-, hsteady⟩ := hopened hpos
    obtain ⟨id, hreads, hres, hview⟩ := getActor_ok hget
    have hview1 : (m1.allow false).vm.cstate.view id = some act := by
      rw [show (m1.allow false).vm.cstate = t from hcstate1, hreads.view_eq, hview]
    have hres1 : Resolves env.init (m1.allow false).vm.cstate m.rt.vmsg.toAddr id := by
      rwa [show (m1.allow false).vm.cstate = t from hcstate1]
    obtain ⟨act', hview2, hhead⟩ := hsteady.heads id act hview1
    rw [headOf_of_resolves (hres1.mono hsteady.cache_mono) hview2, hhead]

lemma transaction_headOf {newh : Cid} (hself : m3.rt.vmsg.toAddr = m.rt.vmsg.toAddr)
    (hhead : m2.vm.headOf env.init m.rt.vmsg.toAddr = some act.head)
    (hpays : Pays (m2.allow true) m3) :
    (Runtime.stateCommitIgnored env act.head newh m3).2.vm.headOf env.init m.rt.vmsg.toAddr =
      some newh := by
  have hcstate : m3.vm.cstate = m2.vm.cstate := hpays.kept.1
  have hhead3 : m3.vm.headOf env.init m3.rt.vmsg.toAddr = some act.head := by
    rw [hself, ← hhead, VM.headOf, VM.headOf, hcstate]
  rw [← hself]
  exact stateCommitIgnored_headOf hhead3

end Transaction

section Calls

variable {pl pl' : Place} {c c' : Bool} {m m0 m' sub sub' : Machine}

lemma CallStarts.closed (h : CallStarts pl c m c' m0)
    (hcode : 0 < m.rt.openTxs → pl = .code ∧ m.rt.allowInternal = false) : m.rt.openTxs = 0 := by
  by_contra hne
  obtain ⟨hpl, hallow⟩ := hcode (by omega)
  cases h <;> simp_all

lemma CallStarts.isolated (h : CallStarts pl c m c' m0) : m0.rt.openTxs = m.rt.openTxs ∧
    ∃ es, m0.vm.log = m.vm.log ++ es ∧ (m.rt.openTxs = 0 → ∀ e ∈ es, e.Isolated) := by
  cases h with
  | send _ =>
    refine ⟨rfl, [.mark (.sent m.rt.openTxs)], rfl, fun hzero e he => ?_⟩
    rwa [mem_singleton.mp he]
  | ctor _ => exact ⟨rfl, [], (append_nil _).symm, nofun⟩

lemma Isolates.of_call (hstarts : CallStarts pl c m c' m0) (henters : Enters m0 sub)
    (hsub : Isolates pl' sub sub') (hlog : m'.vm.log = sub'.vm.log)
    (hopen : m'.rt.openTxs = m0.rt.openTxs) : Isolates pl m m' := by
  obtain ⟨hopen0, es0, hlog0, hes0⟩ := hstarts.isolated
  obtain ⟨es, hlog', -, hiso⟩ := hsub
  refine .of_closed (es0 ++ es) ?_ (hopen.trans hopen0) hstarts.closed fun hflat hzero e he => ?_
  · rw [hlog, hlog', henters.log_eq, hlog0, append_assoc]
  · rcases mem_append.mp he with he | he
    · exact hes0 hzero e he
    · have hnew : ¬0 < sub.rt.openTxs := by
        rw [henters.openTxs_eq]
        omega
      exact (hiso (fun e he => hflat e (mem_append_right _ he)) fun h => absurd h hnew).1 e he

end Calls

/-- Executions keep transactions isolated where no closure calls the state handle. -/
lemma Does.isolates {N : Prop} {pl : Place} {c : Bool} {e : Ending}
    (h : Does env N pl c m e m') : Isolates pl m m' := by
  induction h with
  | done | fails => exact .refl _ _
  | fatal m => exact .record _ m trivial
  | seq _ _ ih1 ih2 | reraise _ _ ih1 ih2 => exact ih1.trans ih2
  | caught _ ih => exact ih
  | @deferred pl _ _ m1 _ gas _ ih =>
    exact ih.trans ((Pays.charge m1 gas).isolates pl)
  | @charge pl _ m gas => exact (Pays.charge m gas).isolates pl
  | @mild pl _ m es vm hmild =>
    refine .of_steady es hmild.log_eq (fun e he => ?_) rfl rfl ⟨hmild.cache_mono, hmild.heads⟩
    obtain ⟨id, rfl⟩ := hmild.created e he
    trivial
  | validate m =>
    exact .of_steady [] (append_nil _).symm (fun _ he => absurd he not_mem_nil) rfl rfl
      (.of_cstate_eq rfl)
  | readFails m =>
    have hmark : (Event.mark .readFailed).Isolated := trivial
    have hfatal : Event.fatal.Isolated := trivial
    exact (Isolates.record _ m hmark).trans (.record _ _ hfatal)
  | newAddress m key _ =>
    exact .of_steady [.newAddress key m.rt.originNonce m.rt.numActorsCreated] rfl
      (by simp [Event.Isolated]) rfl rfl (.of_cstate_eq rfl)
  | stateCall m =>
    exact .of_stateCall [] (append_nil _).symm rfl fun _ _ _ he => absurd he not_mem_nil
  | @delete pl _ m m1 id vm _ hext ih =>
    obtain ⟨es, hlog, hopen, hiso⟩ := ih
    refine .of_stateCall_then es hlog hopen (fun hflat hzero => ?_)
      ⟨[.deleted id], hext.log_eq, by simp [Event.Isolated]⟩
    exact (hiso hflat fun hpos => absurd (show m.noteStateCall.rt.openTxs = 0 from hzero)
      (by omega)).1
  | @create pl _ m m1 newh hpays =>
    exact .of_stateCall_then [] (append_nil _).symm hpays.kept.2.1
      (fun _ _ _ he => absurd he not_mem_nil)
      (hpays.harmless.trans (stateCommitIgnored_harmless env env.emptyObjectCid newh m1))
  | @transaction _ m m1 m2 m3 act t newh hget hpays hdoes hpays' ih =>
    obtain ⟨es, hlog, hopen, hiso⟩ := transaction_closure hget hpays ih
    obtain ⟨es', hlog', hes'⟩ : Harmless m2 (Runtime.stateCommitIgnored env act.head newh m3).2 :=
      hpays'.harmless.trans (stateCommitIgnored_harmless env act.head newh m3)
    have hself : m3.rt.vmsg.toAddr = m.rt.vmsg.toAddr := congrArg (fun i => i.1.toAddr)
      (hpays'.identity_eq.trans (hdoes.identity_eq.trans hpays.identity_eq))
    set m4 := (Runtime.stateCommitIgnored env act.head newh m3).2 with hm4
    refine .of_stateCall (es ++ (es' ++
      [.mark (.transacted (m4.vm.headOf env.init m3.rt.vmsg.toAddr) newh)])) ?_
      (congrArg (· - 1) (hpays'.kept.2.1.trans hopen)) fun hflat _ e he => ?_
    · rw [← append_assoc, ← append_assoc, ← hlog, ← hlog']
      rfl
    · obtain ⟨hes, hhead⟩ := hiso fun e he => hflat e (mem_append_left _ he)
      simp only [mem_append, mem_singleton] at he
      rcases he with he | he | rfl
      · exact hes e he
      · exact hes' e he
      · rw [hself]
        exact transaction_headOf hself hhead hpays'
  | @transactionLoadFails _ m m1 m2 act t b hget hpays hfails =>
    have hrest : Harmless m.noteStateCall m2 := Harmless.trans hpays.harmless hfails.harmless
    exact .of_stateCall_then [] (append_nil _).symm
      (congrArg (· - 1) (hfails.openTxs_eq.trans hpays.kept.2.1))
      (fun _ _ _ he => absurd he not_mem_nil) hrest
  | @transactionFails _ m m1 m2 act t b hget hpays _ ih =>
    obtain ⟨es, hlog, hopen, hiso⟩ := transaction_closure hget hpays ih
    exact .of_stateCall es hlog (congrArg (· - 1) hopen) fun hflat _ => (hiso hflat).1
  | @transactionPutFails _ m m1 m2 m3 m4 act t b hget hpays _ hpays' hfails ih =>
    obtain ⟨es, hlog, hopen, hiso⟩ := transaction_closure hget hpays ih
    have hrest : Harmless m2 m4 := Harmless.trans hpays'.harmless hfails.harmless
    exact .of_stateCall_then es hlog
      (congrArg (· - 1) (hfails.openTxs_eq.trans (hpays'.kept.2.1.trans hopen)))
      (fun hflat _ => (hiso hflat).1) hrest
  | @register pl _ m es vm hpl hext hes =>
    refine .of_closed es hext.log_eq rfl (fun hcode => ?_) fun _ _ e he => ?_
    · grind
    · obtain ⟨addr, id, fresh, rfl⟩ := hes e he
      trivial
  | call hstarts henters _ ih | callErrs hstarts henters _ ih | callPanics hstarts henters _ ih =>
    exact .of_call hstarts henters ih rfl rfl
  | @callDies pl _ _ m m0 vm es b hstarts hext hes =>
    obtain ⟨hopen0, es0, hlog0, hes0⟩ := hstarts.isolated
    refine .of_closed (es0 ++ es) ?_ hopen0 hstarts.closed fun _ hzero e he => ?_
    · rw [← append_assoc, ← hlog0]
      exact hext.log_eq
    · rcases mem_append.mp he with he | he
      · exact hes0 hzero e he
      · rcases hes with rfl | ⟨-, rfl⟩
        · exact absurd he not_mem_nil
        · rw [mem_singleton.mp he]
          trivial
  | code _ ih | preamble _ ih =>
    obtain ⟨es, hlog, hopen, hiso⟩ := ih
    refine .of_closed es hlog hopen (fun hcode => ?_) fun hflat hzero => ?_ <;> simp_all

/-- In a message during which no transaction's closure calls `Create`, `Transaction` or
`DeleteActor`, at any depth, no `Send` runs between the load and the commit of a transaction of its
frame, and whenever a transaction returns, the receiver's head is what its closure left. -/
theorem applyMessage_isolates {b : Behaviour} {cmsg : ChainMsg} {vm : VM} {es : List Event}
    (hlog : (applyMessage env b cmsg vm).2.log = vm.log ++ es) (hflat : ∀ e ∈ es, ¬e.Nested) :
    ∀ e ∈ es, e.Isolated := by
  rcases applyMessage_does (N := True) env b cmsg vm (absurd trivial) with
    ⟨es', hlog', hes'⟩ | ⟨id, act, start, sub, e, sub', cs, -, hstarted, htop, hdoes, hcs, hlog', -⟩
  · obtain rfl : es' = es := append_cancel_left (hlog'.symm.trans hlog)
    rcases hes' with rfl | ⟨rfl, -⟩
    · exact nofun
    · simp [Event.Isolated]
  · obtain ⟨es1, hlog1, -, hiso⟩ := hdoes.isolates
    obtain rfl : es1 ++ cs = es := by grind [htop.log_eq, append_assoc, append_cancel_left]
    have hclosed : ¬0 < sub.rt.openTxs := by
      rw [htop.openTxs_eq]
      omega
    obtain ⟨hes1, -⟩ := hiso (fun e he => hflat e (mem_append_left _ he)) fun h => absurd h hclosed
    exact fun e he => (mem_append.mp he).elim (hes1 e) (hcs.isolated e)

def sampleSequenced : Behaviour where
  ctor := .abort .other
  method := .validateImmediateCallerAcceptAny
    (.transaction (some .found) (.ret (.block ⟨[9]⟩ 1))
      (.send (.id 100) 0 (some []) (some 3) (.abort .other) (.abort .other)
        fun _ => .ret (.bytes [])))

def sampleNested : Behaviour where
  ctor := .abort .other
  method := .validateImmediateCallerAcceptAny
    (.transaction (some .found)
      (.transaction (some .found) (.ret (.block ⟨[8]⟩ 1))
        (.send (.id 100) 0 (some []) (some 3) (.abort .other) (.abort .other)
          fun _ => .ret (.block ⟨[9]⟩ 1)))
      (.ret (.bytes [])))

theorem sampleSequenced_isolated :
    (∀ e ∈ (applyMessage sampleEnv sampleSequenced sampleMsg sampleVM).2.log, ¬e.Nested) ∧
    .mark (.transacted (some ⟨[9]⟩) ⟨[9]⟩) ∈
      (applyMessage sampleEnv sampleSequenced sampleMsg sampleVM).2.log ∧
    ∀ e ∈ (applyMessage sampleEnv sampleSequenced sampleMsg sampleVM).2.log, e.Isolated := by
  set out := applyMessage sampleEnv sampleSequenced sampleMsg sampleVM
  have hflat : ∀ e ∈ out.2.log, ¬e.Nested := by decide +kernel
  have hreturns : .mark (.transacted (some ⟨[9]⟩) ⟨[9]⟩) ∈ out.2.log := by decide +kernel
  have hlog : out.2.log = sampleVM.log ++ out.2.log := (nil_append out.2.log).symm
  exact ⟨hflat, hreturns, applyMessage_isolates hlog hflat⟩

/-- The outer transaction is open when the `Send` runs, and when it returns the head is what the
inner one committed. The message succeeds. -/
theorem sampleNested_not_isolated :
    ∃ ret vm', applyMessage sampleEnv sampleNested sampleMsg sampleVM = (.ok ret, vm') ∧
      ret.receipt.exitCode = 0 ∧ .mark (.sent 1) ∈ vm'.log ∧
      .mark (.transacted (some ⟨[8]⟩) ⟨[9]⟩) ∈ vm'.log := by
  set out := applyMessage sampleEnv sampleNested sampleMsg sampleVM
  have hret : out.1 = .ok ⟨⟨0, [], 2634589⟩, none, 0⟩ := by decide +kernel
  have hok : out = (.ok ⟨⟨0, [], 2634589⟩, none, 0⟩, out.2) := Prod.ext hret rfl
  have hsent : .mark (.sent 1) ∈ out.2.log := by decide +kernel
  have hhead : .mark (.transacted (some ⟨[8]⟩) ⟨[9]⟩) ∈ out.2.log := by decide +kernel
  exact ⟨_, _, hok, rfl, hsent, hhead⟩

end Lotus
