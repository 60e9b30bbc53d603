import Lotus.Chain.Validate
import Lotus.Vm.GasBound

/-!
# The nonces of a block's messages

`checkBlockMessages` counts nonces by the sender address that each message names, starting from the
account's nonce in the base state.
-/

namespace Lotus

open VM StateTree List

/-- A message with the state that it is applied to. -/
abbrev Turn := ChainMsg × VM

def replay (env : Env) (behaviour : Message → VM → Behaviour) : List ChainMsg → VM → List Turn
  | [], _ => []
  | m :: ms, vm =>
    (m, vm) ::
      match applyMessage env (behaviour m.vmMessage vm) m vm with
      | (.ok _, vm') => replay env behaviour ms vm'
      | (.error _, _) => []

def NonceOk (env : Env) (t : Turn) : Prop :=
  ((getActor env.init t.1.vmMessage.fromAddr t.2.cstate).1.map Actor.nonce) =
    .ok t.1.vmMessage.nonce
deriving Decidable

def PenalisedForNonce (env : Env) (t : Turn) : Prop :=
  (precheck env t.1 t.2).1 = .ok (some (rejected ExitCode.sysErrSenderStateInvalid
    (some (.newf ExitCode.sysErrSenderStateInvalid "actor nonce invalid: msg:%d != state:%d"))
    (minerPenaltyAmount t.1 t.2)))
deriving Decidable

def canPay (env : Env) (t : Turn) : Bool :=
  match (getActor env.init t.1.vmMessage.fromAddr t.2.cstate).1 with
  | .ok act => gasCost t.1.vmMessage ≤ act.balance
  | .error _ => false

section

variable (env : Env) (v : Ledger)

/-- The sender of a message, by its ID in the ledger `v`. -/
def senderID (m : ChainMsg) : Except TreeErr Address := resolveIn env.init v m.vmMessage.fromAddr

def payable (id : Address) (turns : List Turn) : ℕ :=
  turns.countP fun t => senderID env v t.1 = .ok id ∧ canPay env t

def started (id : Address) (turns : List Turn) : ℕ :=
  turns.countP fun t => senderID env v t.1 = .ok id ∧ Starts env t.1 t.2

/-- The turns do not disturb the senders: their addresses mean what they mean in the ledger `v`, and
their accounts are not deleted and no account is registered over another actor. -/
structure Undisturbed (turns : List Turn) : Prop where
  resolve_eq : ∀ t ∈ turns,
    (lookupID env.init t.1.vmMessage.fromAddr t.2.cstate).1 = senderID env v t.1
  fresh : ∀ t ∈ turns, Run.FreshIDs t.2.log
  kept : ∀ t ∈ turns, ∀ t' ∈ turns, ∀ id, senderID env v t'.1 = .ok id → .deleted id ∉ t.2.log

/-- The account of every sender in `senders` has the code it has in `v`, and the nonce it has there
plus the number of its messages that started. -/
def NonceInv (senders : Address → Prop) (turns : List Turn) (vm : VM) : Prop :=
  ∀ id act, senders id → v id = some act → ∃ act', vm.cstate.view id = some act' ∧
    act'.code = act.code ∧ act'.nonce = act.nonce + UInt64.ofNat (started env v id turns)

end

variable {env : Env} {v : Ledger} {behaviour : Message → VM → Behaviour}

lemma started_append_singleton (id : Address) (turns : List Turn) (t : Turn) :
    started env v id (turns ++ [t]) = started env v id turns +
        if Starts env t.1 t.2 ∧ senderID env v t.1 = .ok id then 1 else 0 := by
  rw [started, countP_append, started, countP_singleton]
  congr 1
  by_cases hsender : senderID env v t.1 = .ok id <;> by_cases hstarts : Starts env t.1 t.2 <;>
    simp [hsender, hstarts]

lemma NonceInv.step {senders : Address → Prop} {turns : List Turn} {t : Turn} {vm' : VM}
    {ret : ApplyRet} (h : NonceInv env v senders turns t.2)
    (hrun : applyMessage env (behaviour t.1.vmMessage t.2) t.1 t.2 = (.ok ret, vm'))
    (hresolve : (lookupID env.init t.1.vmMessage.fromAddr t.2.cstate).1 = senderID env v t.1)
    (hfresh : Run.FreshIDs vm'.log) (hkept : ∀ id, senders id → .deleted id ∉ vm'.log) :
    NonceInv env v senders (turns ++ [t]) vm' := by
  intro id act hsender hact
  obtain ⟨act1, hview1, hcode1, hnonce1⟩ := h id act hsender hact
  obtain ⟨act2, hview2, hcode2, hnonce2⟩ := applyMessage_nonce hrun hview1 (hkept id hsender) hfresh
  refine ⟨act2, hview2, hcode2.trans hcode1, ?_⟩
  rw [hnonce2, hnonce1, hresolve, started_append_singleton, UInt64.ofNat_add, UInt64.add_assoc]

variable {msgs : List ChainMsg} {pre post : List Turn} {t : Turn} {vm : VM}

/-- The first of several turns, which is followed by those of the state it leaves. -/
lemma replay_cons_append {t0 : Turn}
    (hsplit : replay env behaviour msgs vm = t0 :: pre ++ t :: post) :
    ∃ ms ret vm', msgs = t0.1 :: ms ∧ vm = t0.2 ∧
      applyMessage env (behaviour t0.1.vmMessage t0.2) t0.1 t0.2 = (.ok ret, vm') ∧
      replay env behaviour ms vm' = pre ++ t :: post := by
  cases msgs with
  | nil => cases hsplit
  | cons m ms =>
    rw [replay, cons_append, List.cons.injEq] at hsplit
    obtain ⟨rfl, hrest⟩ := hsplit
    rcases hrun : applyMessage env (behaviour m.vmMessage vm) m vm with ⟨err | ret, vm'⟩
    · rw [hrun] at hrest
      cases pre <;> cases hrest
    · rw [hrun] at hrest
      exact ⟨ms, ret, vm', rfl, rfl, rfl, hrest⟩

lemma nonceInv_replay {senders : Address → Prop} {done : List Turn}
    (hsplit : replay env behaviour msgs vm = pre ++ t :: post)
    (hinv : NonceInv env v senders done vm) (hresolve : ∀ t' ∈ replay env behaviour msgs vm,
      (lookupID env.init t'.1.vmMessage.fromAddr t'.2.cstate).1 = senderID env v t'.1)
    (hfresh : ∀ t' ∈ replay env behaviour msgs vm, Run.FreshIDs t'.2.log)
    (hkept : ∀ t' ∈ replay env behaviour msgs vm, ∀ id, senders id → .deleted id ∉ t'.2.log) :
    NonceInv env v senders (done ++ pre) t.2 := by
  induction pre generalizing msgs vm done with
  | nil =>
    cases msgs with
    | nil => cases hsplit
    | cons m ms =>
      grind [replay, List.cons.injEq]
  | cons t0 pre ih =>
    obtain ⟨ms, ret, vm', rfl, rfl, hrun, hnext⟩ := replay_cons_append hsplit
    have hmem : ∀ t' ∈ replay env behaviour ms vm',
        t' ∈ replay env behaviour (t0.1 :: ms) t0.2 := by
      intro t' ht'
      rw [replay, hrun]
      exact .tail _ ht'
    -- the state after the message is the one of the next turn
    obtain ⟨t', ht', hvm'⟩ : ∃ t' ∈ replay env behaviour ms vm', t'.2 = vm' := by
      cases ms with
      | nil => cases pre <;> cases hnext
      | cons m' ms => exact ⟨_, .head _, rfl⟩
    have hfirst : t0 ∈ replay env behaviour (t0.1 :: ms) t0.2 := mem_cons_self
    have hstep : NonceInv env v senders (done ++ [t0]) vm' := by
      refine NonceInv.step hinv hrun (hresolve _ hfirst) ?_ fun id hid => ?_
      · grind
      · grind
    grind

/-! ## The turns of a block -/

/-- The turns are those of the first messages. -/
lemma replay_msgs (hsplit : replay env behaviour msgs vm = pre ++ t :: post) :
    ∃ rest, msgs = pre.map Prod.fst ++ t.1 :: rest := by
  induction pre generalizing msgs vm with
  | nil =>
    cases msgs with
    | nil => cases hsplit
    | cons m ms =>
      grind [replay, List.cons.injEq]
  | cons t0 pre ih =>
    obtain ⟨ms, ret, vm', rfl, -, -, hrest⟩ := replay_cons_append hsplit
    obtain ⟨rest, rfl⟩ := ih hrest
    exact ⟨rest, rfl⟩

lemma replay_applied {t' : Turn} (hsplit : replay env behaviour msgs vm = pre ++ t :: t' :: post) :
    ∃ ret vm', applyMessage env (behaviour t.1.vmMessage t.2) t.1 t.2 = (.ok ret, vm') := by
  induction pre generalizing msgs vm with
  | nil =>
    cases msgs <;> grind [replay, List.cons.injEq]
  | cons t0 pre ih =>
    obtain ⟨ms, ret, vm', rfl, -, -, hrest⟩ := replay_cons_append hsplit
    exact ih hrest

lemma Undisturbed.sender_at {id : Address} {base : Actor}
    (hquiet : Undisturbed env v (replay env behaviour msgs vm)) (hview : vm.cstate.view = v)
    (hsplit : replay env behaviour msgs vm = pre ++ t :: post) (hid : senderID env v t.1 = .ok id)
    (hbase : v id = some base) (hundef : t.1.vmMessage.fromAddr ≠ .undef) :
    ∃ act, t.2.cstate.view id = some act ∧
      (getActor env.init t.1.vmMessage.fromAddr t.2.cstate).1 = .ok act ∧ act.code = base.code ∧
        act.nonce = base.nonce + UInt64.ofNat (started env v id pre) := by
  have ht : t ∈ replay env behaviour msgs vm := by grind
  have hstart : NonceInv env v (fun a => ∃ t' ∈ replay env behaviour msgs vm,
      senderID env v t'.1 = .ok a) [] vm := by
    intro a act _ hact
    rw [← hview] at hact
    exact ⟨act, hact, rfl, (UInt64.add_zero _).symm⟩
  have hinv := nonceInv_replay hsplit hstart hquiet.resolve_eq hquiet.fresh
    fun t' ht' a ⟨t'', ht'', ha⟩ => hquiet.kept t' ht' t'' ht'' a ha
  rw [nil_append] at hinv
  obtain ⟨act, hact, hcode, hnonce⟩ := hinv id base ⟨t, ht, hid⟩ hbase
  refine ⟨act, hact, ?_, hcode, hnonce⟩
  rw [getActor_of_lookupID hundef ((hquiet.resolve_eq t ht).trans hid), lookupAnswer, hact]

lemma precheck_of_valid {cmsg : ChainMsg} {act : Actor}
    (hvalid : cmsg.vmMessage.validForBlockInclusion
      (pricelistV0.onChainMessage cmsg.chainLength).total = .ok ())
    (hact : (getActor env.init cmsg.vmMessage.fromAddr vm.cstate).1 = .ok act) :
    (precheck env cmsg vm).1 =
      .ok (checkSender env cmsg.vmMessage (minerPenaltyAmount cmsg vm) act) := by
  obtain ⟨-, -, -, -, hlimit⟩ := Message.validForBlockInclusion_ok hvalid
  have hgas : ¬msgGasCost cmsg vm > cmsg.vmMessage.gasLimit := by
    rw [msgGasCost, pricelistByEpoch_eq]
    exact Int64.not_lt.mpr hlimit
  rw [precheck_of_le hgas (Prod.ext hact rfl)]

lemma gasCost_nonneg_of_valid {msg : Message} {minGas : Int64}
    (hvalid : msg.validForBlockInclusion minGas = .ok ()) : 0 ≤ gasCost msg := by
  obtain ⟨-, -, ⟨price, hprice, hnonneg⟩, -, -⟩ := Message.validForBlockInclusion_ok hvalid
  rw [gasCost, VM.price, hprice]
  exact mul_nonneg (Word.u64_nonneg _) hnonneg

lemma canPay_iff {act : Actor}
    (hact : (getActor env.init t.1.vmMessage.fromAddr t.2.cstate).1 = .ok act) :
    canPay env t ↔ gasCost t.1.vmMessage ≤ act.balance := by
  rw [canPay, hact, decide_eq_true_eq]

/-- What is known at a turn of a message that is in order: its sender is the account at `id`, with
the nonce that the messages of the account that started have left. -/
structure AtTurn (env : Env) (v : Ledger) (pre : List Turn) (t : Turn) (id : Address)
    (base act : Actor) :
    Prop where
  senderID_eq : senderID env v t.1 = .ok id
  getActor_eq : (getActor env.init t.1.vmMessage.fromAddr t.2.cstate).1 = .ok act
  code_eq : act.code = env.accountActorCodeID
  actNonce_eq : act.nonce = base.nonce + UInt64.ofNat (started env v id pre)
  msgNonce_eq : t.1.vmMessage.nonce =
    base.nonce + UInt64.ofNat (countFrom t.1.vmMessage.fromAddr (pre.map Prod.fst))
  valid : t.1.vmMessage.validForBlockInclusion (pricelistV0.onChainMessage t.1.chainLength).total =
    .ok ()

lemma atTurn_of_checked {pl : PricelistV0}
    (hview : vm.cstate.view = v) (hpl : pl = pricelistV0) (hchecked : Checked env v pl msgs)
    (hquiet : Undisturbed env v (replay env behaviour msgs vm))
    (hsplit : replay env behaviour msgs vm = pre ++ t :: post) :
    ∃ id base act, AtTurn env v pre t id base act := by
  obtain ⟨rest, hmsgs⟩ := replay_msgs hsplit
  obtain ⟨base, horder⟩ := hchecked _ _ _ hmsgs
  obtain ⟨id, hid, hbase⟩ := actorIn_ok horder.actorIn_eq
  obtain ⟨hundef, -⟩ := Message.validForBlockInclusion_ok horder.valid
  obtain ⟨act, -, hact, hcode, hnonce⟩ := hquiet.sender_at hview hsplit hid hbase hundef
  exact ⟨id, base, act, hid, hact, hcode.trans horder.code_eq, hnonce, horder.nonce_eq,
    hpl ▸ horder.valid⟩

variable {id : Address} {base act : Actor}

lemma AtTurn.nonceOk_iff_eq (h : AtTurn env v pre t id base act) :
    NonceOk env t ↔ t.1.vmMessage.nonce = act.nonce := by
  rw [NonceOk, h.getActor_eq]
  exact ⟨fun heq => (Except.ok.inj heq).symm, fun heq => by rw [heq]; rfl⟩

lemma AtTurn.nonceOk_iff (h : AtTurn env v pre t id base act) (hlen : pre.length < 2 ^ 63) :
    NonceOk env t ↔ started env v id pre = countFrom t.1.vmMessage.fromAddr (pre.map Prod.fst) := by
  have hstarted : started env v id pre ≤ pre.length := countP_le_length
  have hcount : countFrom t.1.vmMessage.fromAddr (pre.map Prod.fst) ≤ (pre.map Prod.fst).length :=
    countP_le_length
  rw [length_map] at hcount
  have hinj := Word.add_ofNat_inj (a := base.nonce) (c := started env v id pre)
    (k := countFrom t.1.vmMessage.fromAddr (pre.map Prod.fst)) (by omega) (by omega)
  rw [← hinj, ← h.actNonce_eq, ← h.msgNonce_eq, h.nonceOk_iff_eq]
  exact eq_comm

lemma AtTurn.starts_iff (h : AtTurn env v pre t id base act) {b : Behaviour} {ret : ApplyRet}
    {vm' : VM} (hrun : applyMessage env b t.1 t.2 = (.ok ret, vm')) :
    Starts env t.1 t.2 ↔ NonceOk env t ∧ canPay env t := by
  have hcheck : checkMessage t.1.vmMessage = .ok () := by
    obtain ⟨_, s, hchecked, -⟩ := Act.bind_eq_ok hrun
    exact (Act.ofExcept_eq_ok hchecked).1
  have hcost := gasCost_nonneg_of_valid h.valid
  rw [Starts, precheck_of_valid h.valid h.getActor_eq, canPay_iff h.getActor_eq, h.nonceOk_iff_eq,
    Except.ok.injEq, checkSender_eq_none_iff]
  constructor
  · grind
  · grind [h.code_eq]

lemma AtTurn.not_penalised (h : AtTurn env v pre t id base act) (hnonce : NonceOk env t) :
    ¬PenalisedForNonce env t := by
  rw [h.nonceOk_iff_eq] at hnonce
  rw [PenalisedForNonce, precheck_of_valid h.valid h.getActor_eq, checkSender,
    if_neg (not_not.mpr h.code_eq), if_neg (not_not.mpr hnonce)]
  have htexts : ActorError.newf ExitCode.sysErrSenderStateInvalid
      "actor balance less than needed: %s < %s" ≠
      ActorError.newf ExitCode.sysErrSenderStateInvalid
        "actor nonce invalid: msg:%d != state:%d" := by decide
  split_ifs
  · intro heq
    have herr := congrArg ApplyRet.actorErr (Option.some.inj (Except.ok.inj heq))
    exact htexts (Option.some.inj herr)
  · exact nofun

lemma started_eq_payable {pl : PricelistV0} (hview : vm.cstate.view = v) (hpl : pl = pricelistV0)
    (hchecked : Checked env v pl msgs) (hquiet : Undisturbed env v (replay env behaviour msgs vm))
    (hsplit : replay env behaviour msgs vm = pre ++ t :: post)
    (hnonces : ∀ t' ∈ pre, NonceOk env t') (id : Address) :
    started env v id pre = payable env v id pre := by
  apply countP_congr
  intro t' ht'
  -- the turn is followed by another one
  obtain ⟨before, after, rfl⟩ := append_of_mem ht'
  obtain ⟨t'', rest, hnext⟩ : ∃ t'' rest, after ++ t :: post = t'' :: rest := by
    cases after <;> simp
  rw [append_assoc, cons_append, hnext] at hsplit
  obtain ⟨ret, vm', hrun⟩ := replay_applied hsplit
  obtain ⟨id', base, act, hturn⟩ := atTurn_of_checked hview hpl hchecked hquiet hsplit
  have hiff := hturn.starts_iff hrun
  grind

/-- When the messages of an accepted block are applied to the base state, each has the nonce of its
sender's account at its turn, and none is penalised for it, exactly if at every turn the earlier
messages of the account that could be paid are as many as those that name the same address. -/
theorem nonces_match_iff {crypto : Crypto} {codec : Codec} {baseHeight : Int64} {root : Hamt}
    {b : FullBlock} (haccepted : checkBlockMessages env crypto codec baseHeight root b = .ok ())
    (behaviour : Message → VM → Behaviour) (height : Int64) {turns : List Turn}
    (hturns : replay env behaviour (b.chainMsgs codec) ⟨loadStateTree root, height, []⟩ = turns)
    (hquiet : Undisturbed env (loadStateTree root).view turns) :
    (∀ t ∈ turns, NonceOk env t ∧ ¬PenalisedForNonce env t) ↔
      ∀ pre t post, turns = pre ++ t :: post →
        ∀ id, senderID env (loadStateTree root).view t.1 = .ok id →
          payable env (loadStateTree root).view id pre =
            countFrom t.1.vmMessage.fromAddr (pre.map Prod.fst) := by
  subst hturns
  set msgs := b.chainMsgs codec
  set vm : VM := ⟨loadStateTree root, height, []⟩
  set v := (loadStateTree root).view
  have hchecked : Checked env v (pricelistByEpoch baseHeight) msgs :=
    checkBlockMessages_ok haccepted
  have hpl := pricelistByEpoch_eq baseHeight
  have hshort {pre post : List Turn} {t : Turn}
      (hsplit : replay env behaviour msgs vm = pre ++ t :: post) : pre.length < 2 ^ 63 := by
    obtain ⟨rest, hmsgs⟩ := replay_msgs hsplit
    have hlen : msgs.length < 2 ^ 63 := b.chainMsgs_length_lt codec
    rw [hmsgs, length_append, length_map] at hlen
    omega
  constructor
  · intro hok pre t post hsplit id hid
    obtain ⟨id', base, act, hturn⟩ := atTurn_of_checked rfl hpl hchecked hquiet hsplit
    have hsame : id' = id := Except.ok.inj (hturn.senderID_eq.symm.trans hid)
    subst hsame
    have hmem : ∀ t' ∈ pre ++ [t], t' ∈ replay env behaviour msgs vm := by grind
    rw [← started_eq_payable rfl hpl hchecked hquiet hsplit fun t' ht' =>
      (hok t' (hmem t' (mem_append_left _ ht'))).1]
    exact (hturn.nonceOk_iff (hshort hsplit)).mp
      (hok t (hmem t (mem_append_right _ (mem_singleton_self t)))).1
  · intro hcounts
    -- by induction on the number of turns before
    have hall : ∀ n pre t post, pre.length = n → replay env behaviour msgs vm = pre ++ t :: post →
        NonceOk env t := by
      intro n
      induction n using Nat.strong_induction_on with
      | _ n ih =>
        intro pre t post hlen hsplit
        obtain ⟨id, base, act, hturn⟩ := atTurn_of_checked rfl hpl hchecked hquiet hsplit
        have hbefore : ∀ t' ∈ pre, NonceOk env t' := by
          intro t' ht'
          obtain ⟨before, after, rfl⟩ := append_of_mem ht'
          grind
        rw [hturn.nonceOk_iff (hshort hsplit),
          started_eq_payable rfl hpl hchecked hquiet hsplit hbefore]
        exact hcounts pre t post hsplit id hturn.senderID_eq
    intro t ht
    obtain ⟨pre, post, hsplit⟩ := append_of_mem ht
    obtain ⟨id, base, act, hturn⟩ := atTurn_of_checked rfl hpl hchecked hquiet hsplit
    have hnonce := hall _ pre t post rfl hsplit
    exact ⟨hnonce, hturn.not_penalised hnonce⟩

def sampleTwoMessages (gasLimit : Int64) (source : Address) (nonce : UInt64) : FullBlock :=
  let msgs : List Message :=
    [⟨0, .id 101, .id 100, 0, some 1, some 1, gasLimit, 0, []⟩,
      ⟨0, .id 101, source, nonce, some 1, some 1, 3000000, 0, []⟩]
  ⟨sampleHeader (.id 1000) msgs, msgs, [], by
    rw [length_cons, length_singleton, length_nil]
    decide⟩

def sampleCheck (b : FullBlock) : Except NodeErr Unit :=
  checkBlockMessages sampleChainEnv ⟨fun _ _ _ => true, fun _ _ _ => true⟩ sampleCodec 0
    sampleState b

def sampleTurns (b : FullBlock) : List Turn :=
  replay sampleChainEnv (fun _ _ => ⟨.abort .other, .ret (.bytes [])⟩) (b.chainMsgs sampleCodec)
    ⟨loadStateTree sampleState, 1, []⟩

theorem sampleTwoMessages_nonces_match :
    sampleCheck (sampleTwoMessages 3000000 (.id 100) 1) = .ok () ∧
    (sampleTurns (sampleTwoMessages 3000000 (.id 100) 1)).length = 2 ∧
    ∀ t ∈ sampleTurns (sampleTwoMessages 3000000 (.id 100) 1),
      NonceOk sampleChainEnv t ∧ ¬PenalisedForNonce sampleChainEnv t := by
  set turns := sampleTurns (sampleTwoMessages 3000000 (.id 100) 1)
  have haccepted : sampleCheck (sampleTwoMessages 3000000 (.id 100) 1) = .ok () := by decide +kernel
  have hlength : turns.length = 2 := by decide +kernel
  have hsenders : ∀ t ∈ turns,
      senderID sampleChainEnv (loadStateTree sampleState).view t.1 = .ok (.id 100) := by
    decide +kernel
  have hpaid : ∀ t ∈ turns, canPay sampleChainEnv t = true := by decide +kernel
  have hfrom : ∀ t ∈ turns, t.1.vmMessage.fromAddr = .id 100 := by decide +kernel
  have hquiet : Undisturbed sampleChainEnv (loadStateTree sampleState).view turns := by
    refine ⟨by decide +kernel, by decide +kernel, fun t ht t' ht' id hid => ?_⟩
    cases (hsenders t' ht').symm.trans hid
    revert t
    decide +kernel
  refine ⟨haccepted, hlength, (nonces_match_iff haccepted _ 1 rfl hquiet).mpr ?_⟩
  intro pre t post hsplit id hid
  have hmem : ∀ t' ∈ pre ++ [t], t' ∈ turns := by
    intro t' ht'
    have hturns : turns = pre ++ t :: post := hsplit
    rw [hturns, append_cons]
    exact mem_append_left _ ht'
  have ht : t ∈ turns := hmem t (mem_append_right _ (mem_singleton_self t))
  cases (hsenders t ht).symm.trans hid
  -- every message before names the same account by the same address and could be paid
  have hpayable : payable sampleChainEnv (loadStateTree sampleState).view (.id 100) pre =
      pre.length := by
    apply countP_eq_length.mpr
    intro t' ht'
    have ht'' := hmem t' (mem_append_left _ ht')
    rw [decide_eq_true_eq]
    exact ⟨hsenders t' ht'', hpaid t' ht''⟩
  have hcount : countFrom t.1.vmMessage.fromAddr (pre.map Prod.fst) =
      (pre.map Prod.fst).length := by
    apply countP_eq_length.mpr
    intro m hm
    obtain ⟨t', ht', rfl⟩ := mem_map.mp hm
    rw [decide_eq_true_eq, hfrom t ht, hfrom t' (hmem t' (mem_append_left _ ht'))]
  rw [hpayable, hcount, length_map]

/-- The account names itself by its ID and then by its key, both times with nonce 0; or it names
itself by its ID both times and cannot pay for its first message. Both blocks are accepted, and
the second message is penalised for its nonce. -/
theorem accepted_block_penalised : (sampleCheck (sampleTwoMessages 3000000 (.bls [1]) 0) = .ok () ∧
      ∃ t ∈ sampleTurns (sampleTwoMessages 3000000 (.bls [1]) 0),
        ¬NonceOk sampleChainEnv t ∧ PenalisedForNonce sampleChainEnv t) ∧
    (sampleCheck (sampleTwoMessages 20000000 (.id 100) 1) = .ok () ∧
      ∃ t ∈ sampleTurns (sampleTwoMessages 20000000 (.id 100) 1),
        ¬NonceOk sampleChainEnv t ∧ PenalisedForNonce sampleChainEnv t) := by
  decide +kernel

end Lotus
