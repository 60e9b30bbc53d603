import Lotus.Vm.Evolution

/-!
# What the operations of the VM do

One lemma for each function that moves funds or removes an actor, with all the ways in which it can
go.
-/

namespace Lotus

open VM Machine StateTree Act

variable {α β : Type} (env : Env)

lemma deductFunds_eq_ok {act act' : Actor} {amt : ℤ} (h : deductFunds act amt = .ok act') :
    amt ≤ act.balance ∧ act' = { act with balance := act.balance - amt } := by
  rw [deductFunds] at h
  split at h
  · cases h
  · grind

lemma bind_of_raise {x : Act VM Fault α} {k : α → Act VM Fault β} {err : ActorError}
    {vm vm' : VM} (h : x vm = raise err vm') : (x >>= k) vm = raise err vm' := by
  rw [bind_apply, h]
  unfold raise note
  cases err.fatal <;> rfl

lemma orRaise_cases {x : Act StateTree TreeErr α} (hx : Keeps Reads x) (err : ActorError)
    (vm : VM) :
    (∃ t, Reads vm.cstate t ∧ orRaise x err vm = raise err { vm with cstate := t }) ∨
      ∃ a t, Reads vm.cstate t ∧ x vm.cstate = (.ok a, t) ∧
        orRaise x err vm = (.ok a, { vm with cstate := t }) := by
  rcases hrun : x vm.cstate with ⟨e | a, t⟩
  · exact .inl ⟨t, hx.of_run hrun, orRaise_of_error err hrun⟩
  · exact .inr ⟨a, t, hx.of_run hrun, rfl, orRaise_of_ok err hrun⟩

lemma view_of_getActor_id {init : InitActor} {id : Address} (hid : id.IsID) {t t' : StateTree}
    {act : Actor} (h : StateTree.getActor init id t = (.ok act, t')) : t.view id = some act := by
  obtain ⟨id', -, hres, hview⟩ := getActor_ok h
  obtain rfl := hres.unique (.of_isID init hid t')
  exact hview

/-- A transfer fails and has only read, or has one account on both ends, or moves the amount. -/
lemma transfer_cases (init : InitActor) (fromAddr toAddr : Address) (amt : ℤ) (vm : VM) :
    (∃ err t, Reads vm.cstate t ∧
      transfer init fromAddr toAddr amt vm = raise err { vm with cstate := t }) ∨
    (∃ t, Reads vm.cstate t ∧
      transfer init fromAddr toAddr amt vm = (.ok (), { vm with cstate := t }) ∧
      (fromAddr = toAddr ∨ ∃ id, Resolves init t fromAddr id ∧ Resolves init t toAddr id)) ∨
    ∃ fromID toID f g t, Reads vm.cstate t ∧ Resolves init t fromAddr fromID ∧
      Resolves init t toAddr toID ∧ fromID ≠ toID ∧ vm.cstate.view fromID = some f ∧
      vm.cstate.view toID = some g ∧ 0 ≤ amt ∧ amt ≤ f.balance ∧
      transfer init fromAddr toAddr amt vm = (.ok (), { vm with
        cstate := (t.snapsWrite fromID (.put { f with balance := f.balance - amt })).snapsWrite toID
          (.put { g with balance := g.balance + amt }) }) := by
  rw [transfer]
  by_cases haddr : fromAddr = toAddr
  · rw [if_pos haddr]
    exact .inr (.inl ⟨vm.cstate, Reads.refl _, rfl, .inl haddr⟩)
  rw [if_neg haddr]
  rcases orRaise_cases (keeps_lookupID init fromAddr) _ vm with
    ⟨t1, h1, hrun1⟩ | ⟨fromID, t1, h1, hfrom, hrun1⟩
  · exact .inl ⟨_, t1, h1, bind_of_raise hrun1⟩
  rw [bind_of_ok hrun1]
  rcases orRaise_cases (keeps_lookupID init toAddr) _ { vm with cstate := t1 } with
    ⟨t2, h2, hrun2⟩ | ⟨toID, t2, h2, hto, hrun2⟩
  · exact .inl ⟨_, t2, h1.trans h2, bind_of_raise hrun2⟩
  rw [bind_of_ok hrun2]
  have hfrom2 := (lookupID_ok hfrom).2.mono h2.cache_mono
  have hto2 := (lookupID_ok hto).2
  by_cases hsame : fromID = toID
  · rw [if_pos hsame]
    exact .inr (.inl ⟨t2, h1.trans h2, rfl, .inr ⟨toID, hsame ▸ hfrom2, hto2⟩⟩)
  rw [if_neg hsame]
  by_cases hneg : amt < 0
  · rw [if_pos hneg]
    exact .inl ⟨_, t2, h1.trans h2, rfl⟩
  rw [if_neg hneg]
  rcases orRaise_cases (keeps_getActor init fromID) _ { vm with cstate := t2 } with
    ⟨t3, h3, hrun3⟩ | ⟨f, t3, h3, hf, hrun3⟩
  · exact .inl ⟨_, t3, (h1.trans h2).trans h3, bind_of_raise hrun3⟩
  rw [bind_of_ok hrun3]
  rcases orRaise_cases (keeps_getActor init toID) _ { vm with cstate := t3 } with
    ⟨t4, h4, hrun4⟩ | ⟨g, t4, h4, hg, hrun4⟩
  · exact .inl ⟨_, t4, ((h1.trans h2).trans h3).trans h4, bind_of_raise hrun4⟩
  rw [bind_of_ok hrun4]
  have hreads := ((h1.trans h2).trans h3).trans h4
  rcases hdeduct : deductFunds f amt with e | f'
  · exact .inl ⟨_, t4, hreads, rfl⟩
  obtain ⟨hle, rfl⟩ := deductFunds_eq_ok hdeduct
  -- Both writes go through.
  have hset1 := setActor_of_resolves (Resolves.of_isID init hfrom2.isID t4)
    { f with balance := f.balance - amt }
  have hset2 := setActor_of_resolves (Resolves.of_isID init hto2.isID
    (t4.snapsWrite fromID (.put { f with balance := f.balance - amt }))) (depositFunds g amt)
  refine .inr (.inr ⟨fromID, toID, f, g, t4, hreads, hfrom2.mono (h3.trans h4).cache_mono,
    hto2.mono (h3.trans h4).cache_mono, hsame, ?_, ?_, not_lt.mp hneg, hle, ?_⟩)
  · rw [← (h1.trans h2).view_eq]
    exact view_of_getActor_id hfrom2.isID hf
  · rw [← ((h1.trans h2).trans h3).view_eq]
    exact view_of_getActor_id hto2.isID hg
  · dsimp only
    rw [bind_of_ok (orRaise_of_ok _ hset1), orRaise_of_ok _ hset2]
    rfl

lemma resolved_of_resolves {init : InitActor} {vm : VM} {addr id : Address}
    (h : Resolves init vm.cstate addr id) : vm.resolved init addr = id := by
  rw [VM.resolved, show lookupID init addr vm.cstate = (.ok id, vm.cstate) from h]

lemma burnBalance_ok {self id : Address} {act : Actor} {m m' : Machine}
    (h : Runtime.burnBalance env self act.balance m = (.ok (), m'))
    (hres : Resolves env.init m.vm.cstate self id) (hview : m.vm.cstate.view id = some act) :
    Resolves env.init m'.vm.cstate self id ∧
      (id = burntFundsActorAddr ∨ ∀ act', m'.vm.cstate.view id = some act' → act'.balance = 0) := by
  rw [Runtime.burnBalance] at h
  by_cases hzero : act.balance = 0
  · simp_all
  rw [if_neg hzero] at h
  have hburnt : ∀ t, Resolves env.init t burntFundsActorAddr burntFundsActorAddr :=
    Resolves.of_isID env.init rfl
  rcases transfer_cases env.init self burntFundsActorAddr act.balance m.vm with
    ⟨err, t, -, hrun⟩ | ⟨t, hreads, hrun, hsame⟩ |
    ⟨fromID, toID, f, g, t, hreads, hfrom, hto, hne, hf, -, -, -, hrun⟩
  · obtain ⟨_, _, h1, h2⟩ := bind_eq_ok h
    simp only [attempt_apply, onVM, zoom_apply, hrun, raise, note] at h1
    cases hfatal : err.fatal <;> simp only [hfatal] at h1 <;> cases h1 <;> cases h2
  · simp only [bind_apply, attempt_apply, onVM, zoom_apply, hrun] at h
    cases h
    refine ⟨hres.mono hreads.cache_mono, .inl ?_⟩
    rcases hsame with rfl | ⟨id', hself, hid'⟩
    · exact (hburnt _).unique hres
    · rw [← (hburnt t).unique hid', ← hself.unique (hres.mono hreads.cache_mono)]
  · simp only [bind_apply, attempt_apply, onVM, zoom_apply, hrun] at h
    cases h
    obtain rfl := hfrom.unique (hres.mono hreads.cache_mono)
    refine ⟨hfrom.mono fun _ _ h => h, .inr fun act' hact' => ?_⟩
    cases hview.symm.trans hf
    simp only [view_snapsWrite, Layers.Write.read_put, Function.update_of_ne hne,
      Function.update_self, Option.some.injEq] at hact'
    simp [← hact']

end Lotus
