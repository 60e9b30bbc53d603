import Lotus.Chain.Block
import Lotus.State.Coherent

/-!
# Validation of the messages of a block

`checkBlockMessages` of `chain/sync.go`, with `ResolveToKeyAddress` and `GetBlsPublicKey` of
`chain/stmgr/stmgr.go`.
-/

namespace Lotus

open StateTree List Function Act

structure Crypto where
  verify : Signature → Address → Cid → Bool
  verifyBlsAggregate : Option Signature → List Cid → List Bytes → Bool

def Address.payload : Address → Bytes
  | secp256k1 p | actor p | bls p => p
  | undef | id _ => []

variable (env : Env)

def resolveToKeyAddress (root : Hamt) (addr : Address) : Except NodeErr Address :=
  match addr.protocol with
  | .bls | .secp256k1 => .ok addr
  | .actor => .error (.new "cannot resolve actor address to key address")
  | .id | .unknown =>
    match (getActor env.init addr (loadStateTree root)).1 with
    | .error _ => .error (.new "failed to find actor: %s")
    | .ok act =>
      if act.code ≠ env.accountActorCodeID then
        .error (.new "address %s was not for an account actor")
      else
        match env.accountState act.head with
        | none => .error (.new "failed to get account actor state for %s")
        | some key => .ok key

def getBlsPublicKey (root : Hamt) (addr : Address) : Except NodeErr Bytes :=
  match resolveToKeyAddress env root addr with
  | .error err => .error (.wrap "failed to resolve address to key address" err)
  | .ok kaddr =>
    if kaddr.protocol ≠ .bls then
      .error (.new "address must be BLS address to load bls public key")
    else .ok kaddr.payload

/-- The variables of `checkMsg`: the nonces map, the gas limits so far, and the base state tree. -/
structure CheckState where
  nonces : Address → Option UInt64
  sumGasLimit : Int64
  st : StateTree

def expectedNonce (addr : Address) : Act CheckState NodeErr UInt64 := fun s =>
  match s.nonces addr with
  | some nonce => (.ok nonce, s)
  | none =>
    match getActor env.init addr s.st with
    | (.error err, st) => (.error (.wrap "failed to get actor" (.tree err)), { s with st })
    | (.ok act, st) =>
      if act.code ≠ env.accountActorCodeID then
        (.error (.new "Sender must be an account actor"), { s with st })
      else
        (.ok act.nonce, { s with st, nonces := update s.nonces addr (some act.nonce) })

def checkMsg (pl : PricelistV0) (msg : ChainMsg) : Act CheckState NodeErr Unit := do
  let m := msg.vmMessage
  ofExcept ((m.validForBlockInclusion (pl.onChainMessage msg.chainLength).total).mapError .new)
  modify fun s => { s with sumGasLimit := s.sumGasLimit + m.gasLimit }
  let s ← get
  if s.sumGasLimit > blockGasLimit then fail (.new "block gas limit exceeded")
  else
    let nonce ← expectedNonce env m.fromAddr
    if nonce ≠ m.nonce then fail (.new "wrong nonce (exp: %d, got: %d)")
    else
      modify fun s =>
        { s with nonces := update s.nonces m.fromAddr (some (nonce + 1)) }

def checkBlsMessages (codec : Codec) (pl : PricelistV0) : List Message → Act CheckState NodeErr Unit
  | [] => pure ()
  | m :: ms => do
    (checkMsg env pl (m.toChainMsg codec)).mapError
      (.wrap "block had invalid bls message at index %d")
    checkBlsMessages codec pl ms

def checkSecpkMessages (crypto : Crypto) (codec : Codec) (pl : PricelistV0) (root : Hamt) :
    List SignedMessage → Act CheckState NodeErr Unit
  | [] => pure ()
  | m :: ms => do
    (checkMsg env pl (m.toChainMsg codec)).mapError
      (.wrap "block had invalid secpk message at index %d")
    let kaddr ← ofExcept ((resolveToKeyAddress env root m.message.fromAddr).mapError
      (.wrap "failed to resolve key addr"))
    if !crypto.verify m.signature kaddr (codec.messageCid m.message) then
      fail (.new "secpk message %s has invalid signature")
    else checkSecpkMessages crypto codec pl root ms

def checkBlsAggregate (crypto : Crypto) (codec : Codec) (root : Hamt) (b : FullBlock) :
    Except NodeErr Unit := do
  let pubks ← (b.blsMessages.mapM fun m => getBlsPublicKey env root m.fromAddr).mapError
    (.wrap "failed to load bls public to validate block")
  if !crypto.verifyBlsAggregate b.header.blsAggregate
      (b.blsMessages.map codec.messageCid) pubks then
    .error (.new "bls aggregate signature was invalid")
  else .ok ()

/-- The checks of `checkBlockMessages` on the base state. -/
def checkMessages (crypto : Crypto) (codec : Codec) (pl : PricelistV0) (root : Hamt)
    (b : FullBlock) :
    Act CheckState NodeErr Unit := do
  checkBlsMessages env codec pl b.blsMessages
  checkSecpkMessages env crypto codec pl root b.secpkMessages

def checkBlockMessages (crypto : Crypto) (codec : Codec) (baseHeight : Int64) (root : Hamt)
    (b : FullBlock) : Except NodeErr Unit := do
  checkBlsAggregate env crypto codec root b
  (checkMessages env crypto codec (pricelistByEpoch baseHeight) root b
    ⟨fun _ => none, 0, loadStateTree root⟩).1
  if b.header.messages ≠
      ⟨b.blsMessages.map codec.messageCid, b.secpkMessages.map (·.cid codec)⟩ then
    .error (.new "messages didnt match message root in header")
  else .ok ()

/-! ## What is checked -/

/-- The number of messages that name `addr` as their sender. -/
def countFrom (addr : Address) (msgs : List ChainMsg) : ℕ :=
  msgs.countP fun m => m.vmMessage.fromAddr = addr

lemma countFrom_append (addr : Address) (msgs msgs' : List ChainMsg) :
    countFrom addr (msgs ++ msgs') = countFrom addr msgs + countFrom addr msgs' :=
  countP_append

lemma countFrom_singleton_self (m : ChainMsg) : countFrom m.vmMessage.fromAddr [m] = 1 := by
  simp [countFrom]

variable {m : ChainMsg} {addr : Address}

lemma countFrom_singleton_of_ne (h : addr ≠ m.vmMessage.fromAddr) : countFrom addr [m] = 0 := by
  simp [countFrom, h.symm]

/-- The message `m` is in order after the messages `pre` of its block, on the base state `v`: its
sender is an account, and its nonce is the account's, counted up by the messages of `pre` that name
the same sender. -/
structure InOrder (v : Address → Option Actor) (pl : PricelistV0) (pre : List ChainMsg)
    (m : ChainMsg)
    (act : Actor) : Prop where
  valid : m.vmMessage.validForBlockInclusion (pl.onChainMessage m.chainLength).total = .ok ()
  actorIn_eq : actorIn env.init v m.vmMessage.fromAddr = .ok act
  code_eq : act.code = env.accountActorCodeID
  nonce_eq : m.vmMessage.nonce = act.nonce + UInt64.ofNat (countFrom m.vmMessage.fromAddr pre)

def Checked (v : Address → Option Actor) (pl : PricelistV0) (msgs : List ChainMsg) : Prop :=
  ∀ pre m post, msgs = pre ++ m :: post → ∃ act, InOrder env v pl pre m act

/-- The variables of `checkMsg` after the messages `pre`. -/
structure CheckInv (v : Address → Option Actor) (pre : List ChainMsg) (s : CheckState) : Prop where
  coherent : Coherent env.init s.st
  view_eq : s.st.view = v
  nonces_none : ∀ addr, s.nonces addr = none → countFrom addr pre = 0
  nonces_some : ∀ addr nonce, s.nonces addr = some nonce →
    ∃ act, actorIn env.init v addr = .ok act ∧ act.code = env.accountActorCodeID ∧
      nonce = act.nonce + UInt64.ofNat (countFrom addr pre)

variable {env}

variable {v : Address → Option Actor} {s s' : CheckState} {pre : List ChainMsg}

lemma expectedNonce_ok {nonce : UInt64} (h : CheckInv env v pre s)
    (hrun : expectedNonce env addr s = (.ok nonce, s')) :
    CheckInv env v pre s' ∧ ∃ act, actorIn env.init v addr = .ok act ∧
      act.code = env.accountActorCodeID ∧
        nonce = act.nonce + UInt64.ofNat (countFrom addr pre) := by
  unfold expectedNonce at hrun
  rcases hnonces : s.nonces addr with - | n
  · obtain ⟨hanswer, hcoherent⟩ := getActor_of_coherent h.coherent addr
    have hreads := getActor_reads env.init addr s.st
    rw [hnonces] at hrun
    rcases hget : getActor env.init addr s.st with ⟨err | act, st⟩
    · simp only [hget] at hrun
      cases hrun
    rw [hget] at hanswer hcoherent hreads
    simp only [hget] at hrun
    rw [h.view_eq] at hanswer
    have hcount : countFrom addr pre = 0 := h.nonces_none addr hnonces
    have hnonce : act.nonce = act.nonce + UInt64.ofNat (countFrom addr pre) := by
      rw [hcount]
      exact (UInt64.add_zero _).symm
    split_ifs at hrun with hcode
    · cases hrun
    rw [Prod.mk.injEq] at hrun
    obtain ⟨hn, rfl⟩ := hrun
    cases hn
    refine ⟨⟨hcoherent, hreads.view_eq.trans h.view_eq, fun a ha => ?_, fun a n ha => ?_⟩,
      act, hanswer.symm, not_not.mp hcode, hnonce⟩
    · grind [update_of_ne, h.nonces_none]
    · grind [update_self, update_of_ne, h.nonces_some]
  · grind [h.nonces_some]

variable {pl : PricelistV0}

/-- A message that passes `checkMsg` is in order, and is counted. -/
lemma checkMsg_ok (h : CheckInv env v pre s) (hrun : checkMsg env pl m s = (.ok (), s')) :
    CheckInv env v (pre ++ [m]) s' ∧ ∃ act, InOrder env v pl pre m act := by
  obtain ⟨_, s1, hinclusion, hrest⟩ := bind_eq_ok hrun
  obtain ⟨hmapped, rfl⟩ := ofExcept_eq_ok hinclusion
  have hvalid : m.vmMessage.validForBlockInclusion (pl.onChainMessage m.chainLength).total =
      .ok () := by
    rcases hv : m.vmMessage.validForBlockInclusion (pl.onChainMessage m.chainLength).total with
      e | x
    · rw [hv] at hmapped
      cases hmapped
    · rfl
  obtain ⟨_, s2, hsum, hrest⟩ := bind_eq_ok hrest
  cases hsum
  obtain ⟨_, s3, hget, hrest⟩ := bind_eq_ok hrest
  cases hget
  split_ifs at hrest with hlimit
  · cases hrest
  obtain ⟨nonce, s4, hexpected, hrest⟩ := bind_eq_ok hrest
  have hinv : CheckInv env v pre { s1 with sumGasLimit := s1.sumGasLimit + m.vmMessage.gasLimit } :=
    ⟨h.coherent, h.view_eq, h.nonces_none, h.nonces_some⟩
  obtain ⟨hinv', act, hact, hcode, hnonce⟩ := expectedNonce_ok hinv hexpected
  split_ifs at hrest with hne
  · cases hrest
  have hsame : nonce = m.vmMessage.nonce := not_not.mp hne
  cases hrest
  refine ⟨⟨hinv'.coherent, hinv'.view_eq, fun a ha => ?_, fun a n ha => ?_⟩, act,
    hvalid, hact, hcode, hsame ▸ hnonce⟩
  · by_cases haddr : a = m.vmMessage.fromAddr
    · grind
    · grind [update_of_ne, countFrom_append, hinv'.nonces_none, countFrom_singleton_of_ne]
  · by_cases haddr : a = m.vmMessage.fromAddr
    · subst haddr
      simp only [update_self] at ha
      cases ha
      refine ⟨act, hact, hcode, ?_⟩
      rw [countFrom_append, countFrom_singleton_self, hnonce, UInt64.ofNat_add, UInt64.add_assoc]
      rfl
    · grind [update_of_ne, countFrom_append, countFrom_singleton_of_ne, hinv'.nonces_some]

variable {done msgs : List ChainMsg}

lemma inOrder_cons (hm : ∃ act, InOrder env v pl done m act)
    (hms : ∀ pre m' post, msgs = pre ++ m' :: post →
      ∃ act, InOrder env v pl ((done ++ [m]) ++ pre) m' act) :
    ∀ pre m' post, m :: msgs = pre ++ m' :: post →
      ∃ act, InOrder env v pl (done ++ pre) m' act := by
  intro pre m' post hsplit
  cases pre with
  | nil => grind
  | cons p pre => simp_all [cons_append, List.cons.injEq, append_assoc]

variable {codec : Codec}

lemma checkBlsMessages_ok {ms : List Message} (h : CheckInv env v done s)
    (hrun : checkBlsMessages env codec pl ms s = (.ok (), s')) :
    CheckInv env v (done ++ ms.map (·.toChainMsg codec)) s' ∧
      ∀ pre m post, ms.map (·.toChainMsg codec) = pre ++ m :: post →
        ∃ act, InOrder env v pl (done ++ pre) m act := by
  induction ms generalizing done s with
  | nil =>
    cases hrun
    refine ⟨?_, fun pre m post hsplit => ?_⟩ <;> simp_all
  | cons m ms ih =>
    obtain ⟨_, s1, hcheck, hrest⟩ := bind_eq_ok hrun
    obtain ⟨hinv, hm⟩ := checkMsg_ok h (mapError_eq_ok hcheck)
    obtain ⟨hinv', hms⟩ := ih hinv hrest
    rw [append_assoc] at hinv'
    exact ⟨hinv', inOrder_cons hm hms⟩

variable {crypto : Crypto} {root : Hamt}

lemma checkSecpkMessages_ok {ms : List SignedMessage} (h : CheckInv env v done s)
    (hrun : checkSecpkMessages env crypto codec pl root ms s = (.ok (), s')) :
    CheckInv env v (done ++ ms.map (·.toChainMsg codec)) s' ∧
      ∀ pre m post, ms.map (·.toChainMsg codec) = pre ++ m :: post →
        ∃ act, InOrder env v pl (done ++ pre) m act := by
  induction ms generalizing done s with
  | nil =>
    cases hrun
    refine ⟨?_, fun pre m post hsplit => ?_⟩ <;> simp_all
  | cons m ms ih =>
    obtain ⟨_, s1, hcheck, hrest⟩ := bind_eq_ok hrun
    obtain ⟨kaddr, s2, hkey, hverify⟩ := bind_eq_ok hrest
    obtain ⟨-, rfl⟩ := ofExcept_eq_ok hkey
    split_ifs at hverify with hsig
    · cases hverify
    obtain ⟨hinv, hm⟩ := checkMsg_ok h (mapError_eq_ok hcheck)
    obtain ⟨hinv', hms⟩ := ih hinv hverify
    rw [append_assoc] at hinv'
    exact ⟨hinv', inOrder_cons hm hms⟩

/-- The messages of a block that `checkBlockMessages` accepts are in order on the base state. -/
lemma checkBlockMessages_ok {baseHeight : Int64} {b : FullBlock}
    (h : checkBlockMessages env crypto codec baseHeight root b = .ok ()) :
    Checked env (loadStateTree root).view (pricelistByEpoch baseHeight) (b.chainMsgs codec) := by
  set v := (loadStateTree root).view
  set pl := pricelistByEpoch baseHeight
  unfold checkBlockMessages at h
  rcases haggregate : checkBlsAggregate env crypto codec root b with e | u
  · rw [haggregate] at h
    cases h
  rw [haggregate] at h
  rcases hcheck : checkMessages env crypto codec pl root b
      ⟨fun _ => none, 0, loadStateTree root⟩ with
    ⟨e | u, s'⟩
  · rw [hcheck] at h
    cases h
  have hstart : CheckInv env v [] ⟨fun _ => none, 0, loadStateTree root⟩ :=
    ⟨coherent_loadStateTree _ _, rfl, fun _ _ => rfl, fun _ _ hnone => by cases hnone⟩
  obtain ⟨_, s1, hbls, hsecpk⟩ := bind_eq_ok hcheck
  obtain ⟨hinv, hblsOrder⟩ := checkBlsMessages_ok hstart hbls
  obtain ⟨-, hsecpkOrder⟩ := checkSecpkMessages_ok hinv hsecpk
  intro pre m post hsplit
  rw [FullBlock.chainMsgs, append_eq_append_iff] at hsplit
  -- the message is in the second loop or in the first
  rcases hsplit with ⟨as, rfl, hpost⟩ | ⟨cs, hbls', hcs⟩
  · exact hsecpkOrder as m post hpost
  · cases cs <;> grind

/-! ## What passes -/

lemma expectedNonce_of_account {act : Actor} (h : CheckInv env v pre s)
    (hact : actorIn env.init v addr = .ok act) (hcode : act.code = env.accountActorCodeID) :
    ∃ s', expectedNonce env addr s = (.ok (act.nonce + UInt64.ofNat (countFrom addr pre)), s') ∧
      s'.sumGasLimit = s.sumGasLimit := by
  unfold expectedNonce
  rcases hnonces : s.nonces addr with - | n
  · obtain ⟨hanswer, -⟩ := getActor_of_coherent h.coherent addr
    rw [h.view_eq, hact] at hanswer
    rcases hget : getActor env.init addr s.st with ⟨r, st⟩
    rw [hget] at hanswer
    cases hanswer
    rw [h.nonces_none addr hnonces]
    simp only
    rw [if_neg (not_not.mpr hcode)]
    exact ⟨_, Prod.ext (congrArg Except.ok (UInt64.add_zero _).symm) rfl, rfl⟩
  · grind [h.nonces_some]

lemma checkMsg_of_inOrder {act : Actor} (h : CheckInv env v pre s)
    (hm : InOrder env v pl pre m act)
    (hgas : s.sumGasLimit + m.vmMessage.gasLimit ≤ blockGasLimit) :
    ∃ s', checkMsg env pl m s = (.ok (), s') ∧
      s'.sumGasLimit = s.sumGasLimit + m.vmMessage.gasLimit := by
  have hinv : CheckInv env v pre { s with sumGasLimit := s.sumGasLimit + m.vmMessage.gasLimit } :=
    ⟨h.coherent, h.view_eq, h.nonces_none, h.nonces_some⟩
  obtain ⟨s1, hexpected, hsum⟩ := expectedNonce_of_account hinv hm.actorIn_eq hm.code_eq
  rw [← hm.nonce_eq] at hexpected
  have hvalid : (ofExcept ((m.vmMessage.validForBlockInclusion
      (pl.onChainMessage m.chainLength).total).mapError NodeErr.new) : Act CheckState NodeErr Unit)
        s = (.ok (), s) := by
    rw [hm.valid]
    rfl
  refine ⟨{ s1 with
    nonces := update s1.nonces m.vmMessage.fromAddr (some (m.vmMessage.nonce + 1)) },
    ?_, hsum⟩
  rw [checkMsg, bind_of_ok hvalid, bind_of_ok (modify_apply _ _),
    bind_of_ok (get_apply _), if_neg (Int64.not_lt.mpr hgas), bind_of_ok hexpected,
    if_neg (not_not.mpr rfl), modify_apply]

def chainGasLimits (msgs : List ChainMsg) : ℤ :=
  (msgs.map fun m => m.vmMessage.gasLimit.toInt).sum

lemma chainGasLimits_cons (m : ChainMsg) (msgs : List ChainMsg) :
    chainGasLimits (m :: msgs) = m.vmMessage.gasLimit.toInt + chainGasLimits msgs := rfl

/-- The messages pass the checks after the messages `done`: they are in order, and their gas limits,
none of which is negative, fit into what the sum has left. -/
structure Passing (env : Env) (v : Address → Option Actor) (pl : PricelistV0)
    (done msgs : List ChainMsg) (s : CheckState) : Prop where
  inv : CheckInv env v done s
  inOrder : ∀ pre m post, msgs = pre ++ m :: post → ∃ act, InOrder env v pl (done ++ pre) m act
  limits_nonneg : ∀ m ∈ msgs, 0 ≤ m.vmMessage.gasLimit.toInt
  sum_nonneg : 0 ≤ s.sumGasLimit.toInt
  sum_le : s.sumGasLimit.toInt + chainGasLimits msgs ≤ blockGasLimit.toInt

lemma chainGasLimits_nonneg (h : ∀ m ∈ msgs, 0 ≤ m.vmMessage.gasLimit.toInt) :
    0 ≤ chainGasLimits msgs := by
  apply sum_nonneg
  intro x hx
  obtain ⟨m, hm, rfl⟩ := mem_map.mp hx
  exact h m hm

lemma Passing.step (h : Passing env v pl done (m :: msgs) s) :
    ∃ s', checkMsg env pl m s = (.ok (), s') ∧ Passing env v pl (done ++ [m]) msgs s' := by
  obtain ⟨act, hm⟩ := h.inOrder [] m msgs rfl
  rw [append_nil] at hm
  have hlimit : blockGasLimit.toInt = 7500000000 := by decide
  have hpos := h.limits_nonneg m mem_cons_self
  have hrest : ∀ m' ∈ msgs, 0 ≤ m'.vmMessage.gasLimit.toInt :=
    fun m' hm' => h.limits_nonneg m' (mem_cons_of_mem m hm')
  have hnonneg := chainGasLimits_nonneg hrest
  have hsum := h.sum_nonneg
  have hle := h.sum_le
  rw [chainGasLimits_cons, hlimit] at hle
  have hadd : (s.sumGasLimit + m.vmMessage.gasLimit).toInt =
      s.sumGasLimit.toInt + m.vmMessage.gasLimit.toInt :=
    Word.toInt_add_of_mem (by omega) (by omega)
  obtain ⟨s', hrun, hsum'⟩ := checkMsg_of_inOrder h.inv hm
    (Int64.le_iff_toInt_le.mpr (by rw [hadd, hlimit]; omega))
  refine ⟨s', hrun, (checkMsg_ok h.inv hrun).1, fun pre m' post hsplit => ?_, hrest, ?_, ?_⟩
  · simp_all [append_assoc, h.inOrder]
  · rw [hsum', hadd]
    omega
  · rw [hsum', hadd, hlimit]
    omega

lemma checkBlsMessages_of_passing {ms : List Message} {rest : List ChainMsg}
    (h : Passing env v pl done (ms.map (·.toChainMsg codec) ++ rest) s) :
    ∃ s', checkBlsMessages env codec pl ms s = (.ok (), s') ∧
      Passing env v pl (done ++ ms.map (·.toChainMsg codec)) rest s' := by
  induction ms generalizing done s with
  | nil => exact ⟨s, rfl, by rwa [map_nil, append_nil]⟩
  | cons m ms ih =>
    obtain ⟨s1, hrun, hpass⟩ := h.step
    obtain ⟨s', hrest, hpass'⟩ := ih hpass
    refine ⟨s', ?_, by rwa [append_assoc] at hpass'⟩
    rwa [checkBlsMessages, bind_of_ok (mapError_of_ok hrun)]

lemma checkSecpkMessages_of_passing {ms : List SignedMessage}
    (h : Passing env v pl done (ms.map (·.toChainMsg codec)) s)
    (hsigs : ∀ m ∈ ms, ∃ kaddr, resolveToKeyAddress env root m.message.fromAddr = .ok kaddr ∧
      crypto.verify m.signature kaddr (codec.messageCid m.message) = true) :
    (checkSecpkMessages env crypto codec pl root ms s).1 = .ok () := by
  induction ms generalizing done s with
  | nil => rfl
  | cons m ms ih =>
    obtain ⟨s1, hrun, hpass⟩ := h.step
    obtain ⟨kaddr, hkey, hverify⟩ := hsigs m mem_cons_self
    have hresolved : (ofExcept ((resolveToKeyAddress env root m.message.fromAddr).mapError
        (NodeErr.wrap "failed to resolve key addr")) : Act CheckState NodeErr Address) s1 =
          (.ok kaddr, s1) := by
      rw [hkey]
      rfl
    rw [checkSecpkMessages, bind_of_ok (mapError_of_ok hrun), bind_of_ok hresolved,
      hverify, if_neg (by decide)]
    exact ih hpass fun m' hm' => hsigs m' (mem_cons_of_mem m hm')

lemma checkMessages_of_checked {b : FullBlock}
    (hchecked : Checked env (loadStateTree root).view pl (b.chainMsgs codec))
    (hlimits : ∀ m ∈ b.chainMsgs codec, 0 ≤ m.vmMessage.gasLimit.toInt)
    (hgas : chainGasLimits (b.chainMsgs codec) ≤ blockGasLimit.toInt)
    (hsigs : ∀ m ∈ b.secpkMessages, ∃ kaddr,
      resolveToKeyAddress env root m.message.fromAddr = .ok kaddr ∧
        crypto.verify m.signature kaddr (codec.messageCid m.message) = true) :
    (checkMessages env crypto codec pl root b ⟨fun _ => none, 0, loadStateTree root⟩).1 =
      .ok () := by
  have hstart : Passing env (loadStateTree root).view pl [] (b.chainMsgs codec)
      ⟨fun _ => none, 0, loadStateTree root⟩ := by
    refine ⟨⟨coherent_loadStateTree _ _, rfl, fun _ _ => rfl, fun _ _ hnone => by cases hnone⟩,
      hchecked, hlimits, le_refl _, ?_⟩
    have hzero : (0 : Int64).toInt = 0 := by decide
    simp only
    omega
  obtain ⟨s1, hbls, hpass⟩ := checkBlsMessages_of_passing hstart
  rw [checkMessages, bind_of_ok hbls]
  exact checkSecpkMessages_of_passing hpass hsigs

end Lotus
