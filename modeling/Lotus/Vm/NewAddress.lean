import Lotus.Vm.Outcome

/-!
# The addresses of new actors

`NewActorAddress` hashes the key address of the origin, the nonce of the origin's message and a
counter, which is copied into the runtime of every call and back.
-/

namespace Lotus

open VM Machine StateTree Act List

/-- What a call of `NewActorAddress` hashed. -/
def Event.preimage : Event → Option (Address × UInt64 × UInt64)
  | .newAddress key nonce count => some (key, nonce, count)
  | _ => none

/-- The pre-images that `NewActorAddress` hashed along the events. -/
def preimages (es : List Event) : List (Address × UInt64 × UInt64) := es.filterMap Event.preimage

lemma preimages_append (es1 es2 : List Event) :
    preimages (es1 ++ es2) = preimages es1 ++ preimages es2 := filterMap_append ..

/-- The addresses along the events are made for the nonce, with the counters from `count` on. -/
def Numbered (nonce count : UInt64) (es : List Event) : Prop :=
  (preimages es).map Prod.snd =
    (List.range (preimages es).length).map fun i => (nonce, count + UInt64.ofNat i)

namespace Numbered

variable {nonce count : UInt64} {es es1 es2 : List Event}

lemma of_nil (h : preimages es = []) : Numbered nonce count es := by
  rw [Numbered, h]
  rfl

lemma append (h1 : Numbered nonce count es1)
    (h2 : Numbered nonce (count + UInt64.ofNat (preimages es1).length) es2) :
    Numbered nonce count (es1 ++ es2) := by
  unfold Numbered at *
  rw [preimages_append, map_append, h1, h2, length_append, range_add, map_append, map_map]
  simp [Function.comp_apply, UInt64.ofNat_add, UInt64.add_assoc]

lemma nodup (h : Numbered nonce count es) (hlen : (preimages es).length ≤ 2 ^ 64) :
    (preimages es).Nodup := by
  apply List.Nodup.of_map Prod.snd
  rw [h]
  refine nodup_range.map_on fun i hi j hj heq => ?_
  grind [UInt64.toNat, UInt64.toNat_ofNat', Nat.mod_eq_of_lt]

lemma nonce_eq (h : Numbered nonce count es) {p : Address × UInt64 × UInt64}
    (hp : p ∈ preimages es) : p.2.1 = nonce := by
  have hmem : p.2 ∈ (preimages es).map Prod.snd := mem_map_of_mem hp
  rw [h] at hmem
  obtain ⟨i, -, hi⟩ := mem_map.mp hmem
  exact congrArg Prod.fst hi.symm

end Numbered

/-! ## Within a message -/

/-- A stretch of an execution as far as new addresses go; `Q` says that it makes none. -/
def Counts (Q : Prop) (m m' : Machine) : Prop :=
  ∃ es, m'.vm.log = m.vm.log ++ es ∧ m'.rt.originNonce = m.rt.originNonce ∧
    Numbered m.rt.originNonce m.rt.numActorsCreated es ∧
    m'.rt.numActorsCreated = m.rt.numActorsCreated + UInt64.ofNat (preimages es).length ∧
    (Q → preimages es = [])

namespace Counts

variable {Q Q' : Prop} {m m' m1 m2 m3 : Machine}

lemma of_nil (es : List Event) (hlog : m'.vm.log = m.vm.log ++ es) (hes : preimages es = [])
    (hnonce : m'.rt.originNonce = m.rt.originNonce)
    (hcount : m'.rt.numActorsCreated = m.rt.numActorsCreated) : Counts Q m m' := by
  refine ⟨es, hlog, hnonce, .of_nil hes, ?_, fun _ => hes⟩
  rw [hes, hcount]
  exact (UInt64.add_zero _).symm

lemma refl (Q : Prop) (m : Machine) : Counts Q m m := of_nil [] (append_nil _).symm rfl rfl rfl

lemma record (Q : Prop) (m : Machine) {e : Event} (he : e.preimage = none) :
    Counts Q m (m.record e) :=
  of_nil [e] rfl (by rw [preimages, filterMap_cons_none he]; rfl) rfl rfl

lemma trans (h1 : Counts Q m1 m2) (h2 : Counts Q m2 m3) : Counts Q m1 m3 := by
  obtain ⟨es1, hlog1, hnonce1, hnum1, hcount1, hnone1⟩ := h1
  obtain ⟨es2, hlog2, hnonce2, hnum2, hcount2, hnone2⟩ := h2
  refine ⟨es1 ++ es2, by rw [hlog2, hlog1, append_assoc], hnonce2.trans hnonce1, ?_, ?_, ?_⟩ <;>
    simp_all [hnum1.append, preimages_append, length_append, UInt64.ofNat_add, UInt64.add_assoc]

lemma congr (h : Counts Q m m1) (hlog : m2.vm.log = m1.vm.log)
    (hnonce : m2.rt.originNonce = m.rt.originNonce)
    (hcount : m2.rt.numActorsCreated = m1.rt.numActorsCreated) : Counts Q m m2 := by
  obtain ⟨es, hlog1, -, hnum, hcount1, hnone⟩ := h
  exact ⟨es, hlog.trans hlog1, hnonce, hnum, hcount.trans hcount1, hnone⟩

lemma mono (h : Counts Q m m') (hQ : Q' → Q) : Counts Q' m m' := by
  obtain ⟨es, hlog, hnonce, hnum, hcount, hnone⟩ := h
  exact ⟨es, hlog, hnonce, hnum, hcount, fun hQ' => hnone (hQ hQ')⟩

end Counts

lemma OnlyCharges.preimages_eq {es : List Event} (h : OnlyCharges es) : preimages es = [] := by
  refine filterMap_eq_nil_iff.mpr fun e he => ?_
  obtain ⟨gas, rfl⟩ := h e he
  rfl

variable {Q : Prop} {m : Machine}

lemma Pays.counts {m' : Machine} (h : Pays m m') : Counts Q m m' := by
  induction h with
  | refl m => exact .refl Q m
  | @step m m' gas _ ih =>
    have hstep : Counts Q m (m.charge gas) := .of_nil [.charged gas] rfl rfl rfl rfl
    exact hstep.trans ih

lemma FailsAt.counts {m' : Machine} {b : Bool} (h : FailsAt m b m') : Counts Q m m' := by
  rcases h with rfl | ⟨-, rfl⟩
  · exact .refl Q _
  · exact .record Q m rfl

lemma Pays.counts_load {m1 : Machine} {t : StateTree}
    (h : Pays (m.noteStateCall.setTree t).openTx m1) : Counts Q m m1 :=
  (Counts.record Q m rfl).trans h.counts

variable {env : Env}

lemma stateCommitIgnored_counts (oldh newh : Cid) (m : Machine) :
    Counts Q m (Runtime.stateCommitIgnored env oldh newh m).2 := by
  rcases stateCommitIgnored_cases env oldh newh m with
    ⟨-, t, -, hrun⟩ | ⟨-, t, id, act, -, -, -, hrun⟩
  · rw [hrun]
    exact (Counts.record Q m rfl).trans (.record Q _ rfl)
  · rw [hrun]
    exact .record Q m rfl

variable {m0 : Machine} {pl : Place} {c : Bool}

lemma CallStarts.counts {c' : Bool} (h : CallStarts pl c m c' m0) : Counts Q m m0 := by
  cases h with
  | send _ => exact .record Q _ rfl
  | ctor _ => exact .refl Q _

lemma Enters.counts {sub : Machine} (h : Enters m sub) : Counts Q m sub :=
  .of_nil [] h.grows.log_eq rfl h.originNonce_eq h.count_eq

lemma CallStarts.quiet {c' : Bool} (h : CallStarts pl c m c' m0)
    (hQ : c = true ∨ pl = .preamble) : c' = true := by
  cases h <;> simp_all

lemma CallStarts.originNonce_eq {c' : Bool} (h : CallStarts pl c m c' m0) :
    m0.rt.originNonce = m.rt.originNonce :=
  congrArg (fun i => i.2.2) h.identity_eq

/-- Every execution numbers its addresses. An account constructor makes none, and neither does the
preamble of a frame. -/
lemma Does.counts {m m' : Machine} {e : Ending} (h : Does env False pl c m e m') :
    Counts (c = true ∨ pl = .preamble) m m' := by
  induction h with
  | done | fails => exact .refl _ _
  | fatal m | stateCall m => exact .record _ m rfl
  | seq _ _ ih1 ih2 | reraise _ _ ih1 ih2 => exact ih1.trans ih2
  | caught _ ih => exact ih
  | @deferred _ _ _ m1 _ gas _ ih => exact ih.trans (Pays.charge m1 gas).counts
  | charge m gas => exact (Pays.charge m gas).counts
  | @mild _ _ m es vm hmild =>
    refine .of_nil es hmild.log_eq (filterMap_eq_nil_iff.mpr fun e he => ?_) rfl rfl
    obtain ⟨id, rfl⟩ := hmild.created e he
    rfl
  | validate m => exact .of_nil [] (append_nil _).symm rfl rfl rfl
  | readFails m => exact (Counts.record _ m rfl).trans (.record _ _ rfl)
  | newAddress m key hctor =>
    refine ⟨[.newAddress key m.rt.originNonce m.rt.numActorsCreated], rfl, rfl, ?_, rfl, ?_⟩
    · have hcount : m.rt.numActorsCreated = m.rt.numActorsCreated + UInt64.ofNat 0 :=
        (UInt64.add_zero _).symm
      exact congrArg (fun n => [(m.rt.originNonce, n)]) hcount
    · exact fun hQ => (hctor (hQ.resolve_right (by decide))).elim
  | @delete pl _ m m1 id vm _ hext ih =>
    have hstart : Counts _ m m1 := (Counts.record _ m rfl).trans ih
    exact hstart.trans (.of_nil [.deleted id] hext.log_eq rfl rfl rfl)
  | @create pl _ m m1 newh hpays =>
    exact (Counts.record _ m rfl).trans
      (hpays.counts.trans (stateCommitIgnored_counts env.emptyObjectCid newh m1))
  | @transaction _ m m1 m2 m3 act t newh hget hpays hdoes hpays' ih =>
    have hclosure : Counts _ m m2 := hpays.counts_load.trans ih
    have hcommit : Counts _ m (Runtime.stateCommitIgnored env act.head newh m3).2 :=
      hclosure.trans (hpays'.counts.trans (stateCommitIgnored_counts act.head newh m3))
    exact hcommit.trans (.record _ _ rfl)
  | @transactionLoadFails _ m m1 m2 act t b hget hpays hfails =>
    exact hpays.counts_load.trans hfails.counts
  | @transactionFails _ m m1 m2 act t b hget hpays _ ih =>
    exact hpays.counts_load.trans ih
  | @transactionPutFails _ m m1 m2 m3 m4 act t b hget hpays _ hpays' hfails ih =>
    have hclosure : Counts _ m m2 := hpays.counts_load.trans ih
    exact hclosure.trans (hpays'.counts.trans hfails.counts)
  | @register pl _ m es vm hpl hext hes =>
    refine .of_nil es hext.log_eq (filterMap_eq_nil_iff.mpr fun e he => ?_) rfl rfl
    obtain ⟨addr, id, fresh, rfl⟩ := hes e he
    rfl
  | call hstarts henters _ ih | callErrs hstarts henters _ ih =>
    have hsub := hstarts.counts.trans
      (henters.counts.trans (ih.mono fun hQ => Or.inl (hstarts.quiet hQ)))
    exact hsub.congr rfl hstarts.originNonce_eq rfl
  | @callPanics pl c _ m m0 sub sub' b hstarts henters _ ih =>
    -- the counter of the callee is lost, but no address was made
    obtain ⟨es, hlog, hnonce, -, hcount, hnone⟩ := ih
    have hes := hnone (Or.inr rfl)
    rw [hes] at hcount
    have hsub : Counts (c = true ∨ pl = .preamble) m sub' := hstarts.counts.trans
      (henters.counts.trans (.of_nil es hlog hes hnonce (hcount.trans (UInt64.add_zero _))))
    refine hsub.congr rfl hstarts.originNonce_eq ?_
    exact (henters.count_eq.symm.trans (UInt64.add_zero _).symm).trans hcount.symm
  | @callDies pl _ _ m m0 vm es b hstarts hext hes =>
    refine hstarts.counts.trans (.of_nil es hext.log_eq ?_ rfl rfl)
    rcases hes with rfl | ⟨-, rfl⟩ <;> rfl
  | code _ ih => exact ih.mono fun hQ => hQ.imp_right (by decide)
  | preamble _ ih => exact ih.mono fun _ => Or.inr rfl

lemma applyMessage_numbered {b : Behaviour} {cmsg : ChainMsg} {vm : VM} {es : List Event}
    (hplain : b.ctor.Plain true ∧ b.method.Plain false)
    (hlog : (applyMessage env b cmsg vm).2.log = vm.log ++ es) :
    Numbered cmsg.vmMessage.nonce 0 es ∧ (preimages es ≠ [] → Starts env cmsg vm) := by
  rcases applyMessage_does (N := False) env b cmsg vm (fun _ => hplain) with
    ⟨es', hlog', hes'⟩ |
    ⟨id, act, start, sub, e, sub', cs, hstarts, hstarted, htop, hdoes, hcs, hlog', -⟩
  · obtain rfl : es' = es := append_cancel_left (hlog'.symm.trans hlog)
    have hnil : preimages es' = [] := by rcases hes' with rfl | ⟨rfl, -⟩ <;> rfl
    exact ⟨.of_nil hnil, fun hne => absurd hnil hne⟩
  · obtain ⟨es1, hlog1, -, hnum, -, -⟩ := hdoes.counts
    obtain rfl : es1 ++ cs = es := by grind [htop.log_eq, append_assoc, append_cancel_left]
    rw [htop.originNonce_eq, htop.count_eq] at hnum
    exact ⟨hnum.append (.of_nil hcs.preimages_eq), fun _ => hstarts⟩

/-! ## Across messages -/

def runEvents (env : Env) : List (Behaviour × ChainMsg) → VM → List Event
  | [], _ => []
  | (b, cmsg) :: msgs, vm =>
    messageEvents env b cmsg vm ++ runEvents env msgs (applyMessage env b cmsg vm).2

/-- What is assumed of a message that is applied to `vm`: no account constructor makes an address,
the key address that is hashed is one of the sender's account by the map `owner` of the init actor,
and neither of the two words wraps around. -/
structure Regular (env : Env) (owner : Address → Address) (b : Behaviour) (cmsg : ChainMsg)
    (vm : VM) : Prop where
  plain : b.ctor.Plain true ∧ b.method.Plain false
  owned : ∀ p ∈ preimages (messageEvents env b cmsg vm),
    (lookupID env.init cmsg.vmMessage.fromAddr vm.cstate).1 = .ok (owner p.1)
  bounded : (preimages (messageEvents env b cmsg vm)).length ≤ 2 ^ 64
  nonce_lt : cmsg.vmMessage.nonce.toNat + 1 < 2 ^ 64

def RegularRun (env : Env) (owner : Address → Address) : List (Behaviour × ChainMsg) → VM → Prop
  | [], _ => True
  | (b, cmsg) :: msgs, vm => Regular env owner b cmsg vm ∧
    RegularRun env owner msgs (applyMessage env b cmsg vm).2

variable {owner : Address → Address} {b : Behaviour} {cmsg : ChainMsg} {vm : VM}

variable {p : Address × UInt64 × UInt64}

lemma Regular.sender_eq (h : Regular env owner b cmsg vm)
    (hp : p ∈ preimages (messageEvents env b cmsg vm)) :
    Starts env cmsg vm ∧ ∃ act, vm.cstate.view (owner p.1) = some act ∧ p.2.1 = act.nonce := by
  obtain ⟨hnum, hstarts⟩ := applyMessage_numbered h.plain (applyMessage_log_eq env b cmsg vm)
  have hstart := hstarts (ne_nil_of_mem hp)
  obtain ⟨id, act, start, -, hstarted, -, -⟩ := applyMessage_of_starts hstart b
  obtain rfl : id = owner p.1 := by
    have hid := hstarted.lookupID_eq.symm.trans (h.owned p hp)
    exact Except.ok.inj hid
  exact ⟨hstart, act, hstarted.sender_eq, (hnum.nonce_eq hp).trans hstarted.nonce_eq⟩

lemma Regular.nonce_le (h : Regular env owner b cmsg vm) {id : Address} {act : Actor}
    (hact : vm.cstate.view id = some act) (hdel : .deleted id ∉ messageEvents env b cmsg vm)
    (hfresh : Run.FreshIDs (messageEvents env b cmsg vm)) :
    ∃ act', (applyMessage env b cmsg vm).2.cstate.view id = some act' ∧
      act.nonce.toNat + (if Starts env cmsg vm ∧
        (lookupID env.init cmsg.vmMessage.fromAddr vm.cstate).1 = .ok id then 1 else 0) ≤
      act'.nonce.toNat := by
  obtain ⟨act', hact', -, hnonce⟩ :=
    applyMessage_nonces (applyMessage_log_eq env b cmsg vm) hact hdel hfresh
  refine ⟨act', hact', ?_⟩
  rw [hnonce]
  by_cases hsender : Starts env cmsg vm ∧
      (lookupID env.init cmsg.vmMessage.fromAddr vm.cstate).1 = .ok id
  · obtain ⟨id', sender, start, -, hstarted, -, -⟩ := applyMessage_of_starts hsender.1 b
    cases hstarted.lookupID_eq.symm.trans hsender.2
    rw [hstarted.sender_eq] at hact
    cases hact
    have hlt := h.nonce_lt
    rw [hstarted.nonce_eq] at hlt
    rw [if_pos hsender, UInt64.toNat_add, show (UInt64.ofNat 1).toNat = 1 from rfl]
    omega
  · rw [if_neg hsender, UInt64.toNat_add, show (UInt64.ofNat 0).toNat = 0 from rfl]
    exact Nat.le_of_eq (Nat.mod_eq_of_lt act.nonce.toNat_lt).symm

lemma nonce_le_of_mem_preimages {msgs : List (Behaviour × ChainMsg)} {id : Address} {act : Actor}
    (h : RegularRun env owner msgs vm) (hact : vm.cstate.view id = some act)
    (hdel : .deleted id ∉ runEvents env msgs vm) (hfresh : Run.FreshIDs (runEvents env msgs vm))
    (hp : p ∈ preimages (runEvents env msgs vm)) (howner : owner p.1 = id) :
    act.nonce.toNat ≤ p.2.1.toNat := by
  induction msgs generalizing vm act with
  | nil => cases hp
  | cons bm msgs ih =>
    obtain ⟨b, cmsg⟩ := bm
    obtain ⟨hregular, hrest⟩ := h
    rw [runEvents] at hdel hfresh hp
    rw [mem_append, not_or] at hdel
    rw [preimages_append, mem_append] at hp
    grind [hregular.sender_eq, Nat.le_of_eq, UInt64.toNat, hregular.nonce_le, hfresh.left,
      hfresh.right]

/-- Over a sequence of messages that are regular where they are applied, and that delete no account
that made an address and register no account over another actor, `NewActorAddress` hashes no
pre-image twice. -/
theorem newActorAddress_preimages_nodup {msgs : List (Behaviour × ChainMsg)}
    (h : RegularRun env owner msgs vm)
    (hkept : ∀ p ∈ preimages (runEvents env msgs vm), .deleted (owner p.1) ∉ runEvents env msgs vm)
    (hfresh : Run.FreshIDs (runEvents env msgs vm)) :
    (preimages (runEvents env msgs vm)).Nodup := by
  induction msgs generalizing vm with
  | nil => exact nodup_nil
  | cons bm msgs ih =>
    obtain ⟨b, cmsg⟩ := bm
    obtain ⟨hregular, hrest⟩ := h
    rw [runEvents] at hkept hfresh ⊢
    rw [preimages_append] at hkept ⊢
    simp only [mem_append, not_or] at hkept
    obtain ⟨hnum, -⟩ := applyMessage_numbered hregular.plain (applyMessage_log_eq env b cmsg vm)
    refine nodup_append.mpr ⟨hnum.nodup hregular.bounded,
      ih hrest (fun p hp => (hkept p (Or.inr hp)).2) hfresh.right, ?_⟩
    -- an address of a later message of the same account has a higher nonce
    rintro p hp _ hp' rfl
    obtain ⟨hstarts, act, hact, hnonce⟩ := hregular.sender_eq hp
    obtain ⟨hdel, hdel'⟩ := hkept p (Or.inl hp)
    obtain ⟨act', hact', hle⟩ := hregular.nonce_le hact hdel hfresh.left
    rw [if_pos ⟨hstarts, hregular.owned p hp⟩] at hle
    have hlater := nonce_le_of_mem_preimages hrest hact' hdel' hfresh.right hp' rfl
    rw [hnonce] at hlater
    omega

lemma sampleOwner_ne_undef : Address.bls [1] ≠ .undef := Address.bls_ne_undef [1]

def sampleKeyEnv : Env :=
  { sampleEnv with
    init :=
      { resolveAddress := fun _ addr =>
          match addr with
          | .bls [1] => .ok ⟨100, sampleOwner_ne_undef⟩
          | _ => .error .actorNotFound
        mapAddressToNewID := fun _ _ => .error (.other "no ID left") }
    accountState := fun _ => some (.bls [1]) }

def sampleKeyVM : VM :=
  ⟨{ newStateTree with root := sampleRoot.insert initActorAddr ⟨⟨[3]⟩, ⟨[]⟩, 0, 0⟩ }, 1, []⟩

def sampleKeyMsg (source : Address) (nonce : UInt64) : ChainMsg :=
  ⟨{ sampleMsg.vmMessage with fromAddr := source, nonce }, ⟨[]⟩, 100⟩

def createMany : ℕ → Prog .method
  | 0 => .ret (.bytes [])
  | n + 1 => .newActorAddress fun _ => createMany n

def sampleMany (n : ℕ) : Behaviour where
  ctor := .abort .other
  method := .validateImmediateCallerAcceptAny (createMany n)

lemma createMany_plain (n : ℕ) : (createMany n).Plain false := by
  induction n with
  | zero => trivial
  | succ n ih => exact ⟨rfl, fun _ => ih⟩

def sampleKeyMsgs : List (Behaviour × ChainMsg) :=
  [(sampleMany 2, sampleKeyMsg (.id 100) 0), (sampleMany 1, sampleKeyMsg (.bls [1]) 1)]

theorem sampleKeyMsgs_preimages_nodup :
    RegularRun sampleKeyEnv (fun _ => .id 100) sampleKeyMsgs sampleKeyVM ∧
    preimages (runEvents sampleKeyEnv sampleKeyMsgs sampleKeyVM) =
      [(.bls [1], 0, 0), (.bls [1], 0, 1), (.bls [1], 1, 0)] ∧
    (preimages (runEvents sampleKeyEnv sampleKeyMsgs sampleKeyVM)).Nodup := by
  have hregular : RegularRun sampleKeyEnv (fun _ => .id 100) sampleKeyMsgs sampleKeyVM := by
    refine ⟨⟨⟨trivial, createMany_plain 2⟩, ?_, ?_, by decide⟩,
      ⟨⟨trivial, createMany_plain 1⟩, ?_, ?_, by decide⟩, trivial⟩
    all_goals decide +kernel
  have hpre : preimages (runEvents sampleKeyEnv sampleKeyMsgs sampleKeyVM) =
      [(.bls [1], 0, 0), (.bls [1], 0, 1), (.bls [1], 1, 0)] := by decide +kernel
  have hkept : ∀ p ∈ preimages (runEvents sampleKeyEnv sampleKeyMsgs sampleKeyVM),
      .deleted (.id 100) ∉ runEvents sampleKeyEnv sampleKeyMsgs sampleKeyVM := by decide +kernel
  have hfresh : Run.FreshIDs (runEvents sampleKeyEnv sampleKeyMsgs sampleKeyVM) := by decide +kernel
  exact ⟨hregular, hpre, newActorAddress_preimages_nodup hregular hkept hfresh⟩

/-! ### The counter wraps around -/

lemma newActorAddress_of_key {payload : Bytes} (h : m.rt.origin = .bls payload) :
    Runtime.newActorAddress env m =
      (.ok (env.newActorAddress m.rt.origin m.rt.originNonce m.rt.numActorsCreated),
        ⟨(m.record (.newAddress m.rt.origin m.rt.originNonce m.rt.numActorsCreated)).vm,
          { m.rt with numActorsCreated := m.rt.numActorsCreated + 1 }⟩) := by
  have hkey : (onVM (Runtime.resolveToKeyAddr env m.rt.origin) : Act Machine Panic Address) m =
      (.ok m.rt.origin, m) := by
    rw [Runtime.resolveToKeyAddr, if_pos (Or.inl (by rw [h]; rfl))]
    rfl
  rw [Runtime.newActorAddress, bind_of_ok (get_apply m), bind_of_ok hkey,
    if_neg (by simp [h])]
  rfl

lemma exec_createMany_log (n : ℕ) {payload : Bytes} (h : m.rt.origin = .bls payload) :
    (exec env (createMany n) m).2.vm.log = m.vm.log ++ (List.range n).map fun i =>
      .newAddress m.rt.origin m.rt.originNonce (m.rt.numActorsCreated + UInt64.ofNat i) := by
  induction n generalizing m with
  | zero => exact (append_nil _).symm
  | succ n ih =>
    have hstep : exec env (createMany (n + 1)) m =
        (Runtime.newActorAddress env >>= fun _ => exec env (createMany n)) m := rfl
    set m1 : Machine :=
      ⟨(m.record (.newAddress m.rt.origin m.rt.originNonce m.rt.numActorsCreated)).vm,
        { m.rt with numActorsCreated := m.rt.numActorsCreated + 1 }⟩ with hm1
    rw [hstep, bind_of_ok (newActorAddress_of_key h)]
    refine (ih (m := m1) h).trans ?_
    have hcount : ∀ i, m.rt.numActorsCreated + 1 + UInt64.ofNat i =
        m.rt.numActorsCreated + UInt64.ofNat (i + 1) := by
      intro i
      rw [Nat.add_comm, UInt64.ofNat_add, UInt64.add_assoc]
      rfl
    have hfirst : m.rt.numActorsCreated + UInt64.ofNat 0 = m.rt.numActorsCreated :=
      UInt64.add_zero _
    simp only [hm1, hcount, range_succ_eq_map, map_cons, map_map, hfirst]
    exact append_assoc ..

lemma shimCall_log (body : Runtime.Body) (m : Machine) :
    (Runtime.shimCall body m).2.vm.log = (body m).2.vm.log := by
  rcases hbody : body m with ⟨p | ret, m1⟩
  · rw [Runtime.shimCall, bind_of_error (mapError_of_error (bind_of_error hbody))]
  · cases hvalidated : m1.rt.callerValidated with
    | false =>
      have habort : ∃ p, (do
          let ret ← body
          let m ← Act.get
          if !m.rt.callerValidated then
            onVM (VM.abortf ExitCode.sysErrorIllegalActor
              "Caller MUST be validated during method execution")
          else pure ret : Act Machine Panic Runtime.RetVal) m = (.error p, m1) := by
        rw [bind_of_ok hbody, bind_of_ok (get_apply m1), hvalidated]
        exact ⟨_, rfl⟩
      obtain ⟨p, hp⟩ := habort
      rw [Runtime.shimCall, bind_of_error (mapError_of_error hp)]
    | true =>
      have hret : (do
          let ret ← body
          let m ← Act.get
          if !m.rt.callerValidated then
            onVM (VM.abortf ExitCode.sysErrorIllegalActor
              "Caller MUST be validated during method execution")
          else pure ret : Act Machine Panic Runtime.RetVal) m = (.ok ret, m1) := by
        rw [bind_of_ok hbody, bind_of_ok (get_apply m1), hvalidated]
        rfl
      rw [Runtime.shimCall, bind_of_ok (mapError_of_ok hret)]
      rcases ret with b | _ | (_ | b) | _ | _ <;> rfl

variable {create : Address → Act Machine Fault Actor}

lemma sendBody_log {msg : Message} {gasCharge : Option GasCharge} {b : Runtime.Body}
    {sub m1 : Machine} {toActor : Actor} {value : ℤ} (htarget : (do
      Runtime.chargeInitial gasCharge
      Runtime.chargeGasIgnored (newGasCharge "OnGetActor" 0 0)
      Runtime.targetActor env msg.toAddr create) sub = (.ok toActor, m1))
    (hvalue : msg.value = some value) (htransfer : (do
      Runtime.chargeGasSafe ((← Runtime.pricelist).onMethodInvocation value msg.method)
        (some "not enough gas for method invocation")
      Runtime.transferValue env msg value
      Runtime.chargeGasIgnored gasOnActorExec : Act Machine Fault Unit) m1 = (.ok (), m0))
    (hmethod : msg.method ≠ 0)
    (hinvoke : Runtime.invoke env toActor.code msg.method msg.params b = Runtime.shimCall b) :
    ∃ cs, OnlyCharges cs ∧ (Runtime.sendBody env msg gasCharge create b sub).2.vm.log =
      (b m0).2.vm.log ++ cs := by
  obtain ⟨_, s1, hs1, htarget⟩ := bind_eq_ok htarget
  obtain ⟨_, s2, hs2, htarget⟩ := bind_eq_ok htarget
  obtain ⟨pl, s3, hs3, htransfer⟩ := bind_eq_ok htransfer
  obtain ⟨_, s4, hs4, htransfer⟩ := bind_eq_ok htransfer
  obtain ⟨_, s5, hs5, hs6⟩ := bind_eq_ok htransfer
  rw [Runtime.sendBody, bind_of_ok hs1, bind_of_ok hs2, bind_of_ok htarget, hvalue]
  simp only
  rw [bind_of_ok hs3, bind_of_ok hs4, ensure_apply, Runtime.transferAndInvoke, bind_of_ok hs5,
    if_pos hmethod, bind_of_ok hs6, hinvoke]
  refine ⟨[.charged (newGasCharge "OnMethodInvocationDone" 0 0)], OnlyCharges.nil.cons _, ?_⟩
  rw [← shimCall_log b m0]
  simp only [Runtime.chargeGasIgnored, Runtime.chargeGasInternal, bind_apply]
  split_ifs <;> rfl

lemma execute_log {vm' : VM} {rt : Runtime}
    (hmake : Runtime.makeRuntime env cmsg.vmMessage cmsg.vmMessage.fromAddr cmsg.vmMessage.nonce 0 0
      vm = (.ok rt, vm')) : ∃ cs,
    (execute env b cmsg vm).2.log = (Runtime.sendBody env cmsg.vmMessage
      (some ((pricelistByEpoch vm.blockHeight).onChainMessage cmsg.chainLength))
      (Runtime.tryCreateAccountActor env (exec env b.ctor)) (exec env b.method)
        ⟨vm', rt⟩).2.vm.log ++ cs := by
  simp only [execute, Runtime.send, Option.map_none, Option.getD_none, hmake]
  rcases Runtime.sendBody env cmsg.vmMessage
    (some ((pricelistByEpoch vm.blockHeight).onChainMessage cmsg.chainLength))
    (Runtime.tryCreateAccountActor env (exec env b.ctor)) (exec env b.method) ⟨vm', rt⟩
    with ⟨(e | p) | ret, m⟩
  · simp only
    split_ifs <;> exact ⟨[], (append_nil _).symm⟩
  · exact ⟨[], (append_nil _).symm⟩
  · simp only [Runtime.chargeGasInternal]
    split_ifs
    · exact ⟨[], (append_nil _).symm⟩
    · exact ⟨[_], rfl⟩
    · exact ⟨[_], rfl⟩

lemma executeAndSettle_log (b : Behaviour) (cmsg : ChainMsg) (gasHolder : Actor) (vm : VM) :
    ((executeAndSettle env b cmsg gasHolder).ensure
      (Act.modify VM.clearSnapshot : Act VM ApplyErr Unit) vm).2.log =
        (execute env b cmsg vm).2.log := by
  rcases hexec : execute env b cmsg vm with ⟨err | r, vm1⟩
  · rw [ensure_apply, executeAndSettle, bind_of_error hexec]
    rfl
  · have hsettle : (executeAndSettle env b cmsg gasHolder vm).2 =
        (settle env cmsg.vmMessage gasHolder (clampGas r.gasUsed) vm1).2 := by
      rw [executeAndSettle, bind_of_ok hexec, bind_apply]
      split <;> simp_all
    rw [ensure_apply, ← settle_log env cmsg.vmMessage gasHolder (clampGas r.gasUsed) vm1, ← hsettle]
    rfl

lemma targetActor_of_ok {toAddr : Address} {act : Actor} {vm' : VM}
    (h : (onTree (StateTree.getActor env.init toAddr) : Act VM TreeErr Actor) m.vm =
      (.ok act, vm')) :
    Runtime.targetActor env toAddr create m = (.ok act, ⟨vm', m.rt⟩) := by
  have hattempt : (onVM
      (onTree (StateTree.getActor env.init toAddr) : Act VM TreeErr Actor)).attempt m =
        ((.ok (.ok act), ⟨vm', m.rt⟩) : Except Fault _ × Machine) := by
    have hrun : (onVM (onTree (StateTree.getActor env.init toAddr) : Act VM TreeErr Actor)) m =
        (.ok act, ⟨vm', m.rt⟩) := congrArg (fun out => (out.1, (⟨out.2, m.rt⟩ : Machine))) h
    rw [attempt_apply, hrun]
  rw [Runtime.targetActor, bind_of_ok hattempt]
  rfl

lemma run_eq {σ ε α : Type} {x : Act σ ε α} {s : σ} {r : Except ε α} (h : (x s).1 = r) :
    x s = (r, (x s).2) :=
  Prod.ext h rfl

/-- The message reaches its method on a machine that does not depend on what the method does. -/
lemma sampleKeyMsg_reaches : ∃ m0 : Machine, m0.rt.origin = .bls [1] ∧ m0.rt.originNonce = 0 ∧
    m0.rt.numActorsCreated = 0 ∧ m0.rt.callerValidated = false ∧ ∀ b : Behaviour, ∃ cs,
      (applyMessage sampleKeyEnv b (sampleKeyMsg (.bls [1]) 0) sampleKeyVM).2.log =
        (exec sampleKeyEnv b.method m0).2.vm.log ++ cs := by
  set cmsg := sampleKeyMsg (.bls [1]) 0 with hcmsg
  set msg := cmsg.vmMessage with hmsg
  -- the checks, the withdrawal and the nonce
  set pre := precheck sampleKeyEnv cmsg sampleKeyVM with hpre
  set paid := transferToGasHolder sampleKeyEnv msg.fromAddr emptyGasHolder (gasCost msg) pre.2
    with hpaid
  set start := incrementNonce sampleKeyEnv msg.fromAddr paid.2 with hstart
  set gasHolder : Actor := ⟨⟨[]⟩, ⟨[]⟩, 0, 6000000⟩
  have hpre1 : precheck sampleKeyEnv cmsg sampleKeyVM = (.ok none, pre.2) :=
    run_eq (by decide +kernel)
  have hpaid1 : transferToGasHolder sampleKeyEnv msg.fromAddr emptyGasHolder (gasCost msg) pre.2 =
      (.ok gasHolder, paid.2) := run_eq (by decide +kernel)
  have hstart1 : incrementNonce sampleKeyEnv msg.fromAddr paid.2 = (.ok (), start.2) :=
    run_eq (by decide +kernel)
  have happly : ∀ b, applyMessage sampleKeyEnv b cmsg sampleKeyVM =
      (executeAndSettle sampleKeyEnv b cmsg gasHolder).ensure
        (Act.modify VM.clearSnapshot : Act VM ApplyErr Unit) start.2.snapshot := by
    intro b
    have hcheck : (Act.ofExcept (checkMessage msg) : Act VM ApplyErr Unit) sampleKeyVM =
      (.ok (), sampleKeyVM) := rfl
    rw [applyMessage, bind_of_ok hcheck, bind_of_ok hpre1]
    simp only
    rw [bind_of_ok (mapError_of_ok hpaid1), bind_of_ok (mapError_of_ok hstart1)]
    rfl
  -- the frame and its preamble
  set made := Runtime.makeRuntime sampleKeyEnv msg msg.fromAddr msg.nonce 0 0 start.2.snapshot
    with hmade
  set rt : Runtime := ⟨{ msg with fromAddr := .id 100 }, 1, 3000000, 0, .bls [1], 0, 0, true, false,
    0⟩ with hrt
  have hmade1 : Runtime.makeRuntime sampleKeyEnv msg msg.fromAddr msg.nonce 0 0 start.2.snapshot =
      (.ok rt, made.2) := run_eq (by decide +kernel)
  set gas := (pricelistByEpoch start.2.snapshot.blockHeight).onChainMessage cmsg.chainLength
  set got := (do
    Runtime.chargeInitial (some gas)
    Runtime.chargeGasIgnored (newGasCharge "OnGetActor" 0 0) : Act Machine Fault Unit)
      ⟨made.2, rt⟩ with hgot
  set found := (onTree (StateTree.getActor sampleKeyEnv.init msg.toAddr) : Act VM TreeErr Actor)
    got.2.vm with hfound
  set toActor : Actor := ⟨sampleCode, ⟨[]⟩, 0, 7⟩
  have hgot1 : (do
      Runtime.chargeInitial (some gas)
      Runtime.chargeGasIgnored (newGasCharge "OnGetActor" 0 0) : Act Machine Fault Unit)
        ⟨made.2, rt⟩ = (.ok (), got.2) := run_eq (by decide +kernel)
  have hfound1 : (onTree (StateTree.getActor sampleKeyEnv.init msg.toAddr) : Act VM TreeErr Actor)
      got.2.vm = (.ok toActor, found.2) := run_eq (by decide +kernel)
  set called := (do
    Runtime.chargeGasSafe ((← Runtime.pricelist).onMethodInvocation 5 msg.method)
      (some "not enough gas for method invocation")
    Runtime.transferValue sampleKeyEnv msg 5
    Runtime.chargeGasIgnored gasOnActorExec : Act Machine Fault Unit) ⟨found.2, got.2.rt⟩
  have hcalled1 : (do
      Runtime.chargeGasSafe ((← Runtime.pricelist).onMethodInvocation 5 msg.method)
        (some "not enough gas for method invocation")
      Runtime.transferValue sampleKeyEnv msg 5
      Runtime.chargeGasIgnored gasOnActorExec : Act Machine Fault Unit) ⟨found.2, got.2.rt⟩ =
        (.ok (), called.2) := run_eq (by decide +kernel)
  refine ⟨called.2, by decide +kernel, by decide +kernel, by decide +kernel, by decide +kernel,
    fun b => ?_⟩
  have htarget : ∀ create, (do
      Runtime.chargeInitial (some gas)
      Runtime.chargeGasIgnored (newGasCharge "OnGetActor" 0 0)
      Runtime.targetActor sampleKeyEnv msg.toAddr create) ⟨made.2, rt⟩ =
        (.ok toActor, ⟨found.2, got.2.rt⟩) := by
    intro create
    obtain ⟨_, s1, hs1, hs2⟩ := bind_eq_ok hgot1
    rw [bind_of_ok hs1, bind_of_ok hs2, targetActor_of_ok hfound1]
  obtain ⟨cs, hexec⟩ := execute_log (b := b) hmade1
  obtain ⟨cs', -, hbody⟩ := sendBody_log (b := exec sampleKeyEnv b.method)
    (htarget (Runtime.tryCreateAccountActor sampleKeyEnv (exec sampleKeyEnv b.ctor))) rfl hcalled1
    (by decide) rfl
  refine ⟨cs' ++ cs, ?_⟩
  rw [happly b, executeAndSettle_log, hexec, ← append_assoc, ← hbody]

lemma sampleMany_preimages (n : ℕ) :
    List.Sublist ((List.range n).map fun i => (Address.bls [1], 0, UInt64.ofNat i))
      (preimages (runEvents sampleKeyEnv [(sampleMany n, sampleKeyMsg (.bls [1]) 0)]
        sampleKeyVM)) := by
  obtain ⟨m0, horigin, hnonce, hcount, hvalidated, hlog⟩ := sampleKeyMsg_reaches
  obtain ⟨cs, hlog⟩ := hlog (sampleMany n)
  set m1 : Machine := ⟨m0.vm, { m0.rt with callerValidated := true }⟩ with hm1
  have hvalidate : Runtime.validateImmediateCallerAcceptAny m0 = (.ok (), m1) := by
    rw [Runtime.validateImmediateCallerAcceptAny, Runtime.abortIfAlreadyValidated,
      bind_of_ok (get_apply m0), hvalidated]
    rfl
  have hexec : exec sampleKeyEnv (sampleMany n).method m0 =
      exec sampleKeyEnv (createMany n) m1 := bind_of_ok hvalidate
  rw [hexec, exec_createMany_log n (m := m1) horigin] at hlog
  have hevents : runEvents sampleKeyEnv [(sampleMany n, sampleKeyMsg (.bls [1]) 0)] sampleKeyVM =
      (applyMessage sampleKeyEnv (sampleMany n) (sampleKeyMsg (.bls [1]) 0) sampleKeyVM).2.log := by
    rw [runEvents, runEvents, append_nil, messageEvents]
    exact drop_zero
  have hmap : preimages ((List.range n).map fun i =>
      .newAddress m1.rt.origin m1.rt.originNonce (m1.rt.numActorsCreated + UInt64.ofNat i)) =
      (List.range n).map fun i => (Address.bls [1], 0, UInt64.ofNat i) := by
    have hzero : ∀ i, m1.rt.numActorsCreated + UInt64.ofNat i = UInt64.ofNat i := by grind
    simp only [preimages, filterMap_map, hzero]
    rw [← filterMap_eq_map]
    refine congrArg (List.filterMap · _) (funext fun i => ?_)
    exact congrArg some (Prod.ext horigin (Prod.ext hnonce rfl))
  rw [hevents, hlog, preimages_append, preimages_append, hmap]
  exact (sublist_append_right _ _).trans (sublist_append_left _ _)

/-- A method that makes one address more than the counter has values hashes one pre-image twice. -/
theorem sampleMany_repeats :
    ¬(preimages (runEvents sampleKeyEnv [(sampleMany (2 ^ 64 + 1), sampleKeyMsg (.bls [1]) 0)]
      sampleKeyVM)).Nodup := by
  intro hnodup
  have hmap := hnodup.sublist (sampleMany_preimages (2 ^ 64 + 1))
  have hinj := inj_on_of_nodup_map hmap (x := 0) (by rw [mem_range]; decide)
    (y := 2 ^ 64) (by rw [mem_range]; decide)
  have hwrap : (Address.bls [1], (0 : UInt64), UInt64.ofNat 0) =
      (Address.bls [1], (0 : UInt64), UInt64.ofNat (2 ^ 64)) := by decide
  exact absurd (hinj hwrap) (by decide)

end Lotus
