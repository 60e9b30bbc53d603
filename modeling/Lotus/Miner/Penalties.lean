import Lotus.Miner.BlockMessages

/-!
# Penalties for chosen messages

The miner of a block pays for every message that `ApplyMessage` rejects before it runs.
-/

namespace Lotus

open VM StateTree Queues List

section

variable (env : Env) (v : Ledger)

def Unpenalised (behaviour : Message → VM → Behaviour) (t : Turn) : Prop :=
  ∀ ret, (applyMessage env (behaviour t.1.vmMessage t.2) t.1 t.2).1 = .ok ret → ret.penalty = 0

instance (behaviour : Message → VM → Behaviour) (t : Turn) :
    Decidable (Unpenalised env behaviour t) :=
  match h : (applyMessage env (behaviour t.1.vmMessage t.2) t.1 t.2).1 with
  | .ok ret =>
    decidable_of_iff (ret.penalty = 0)
      ⟨fun hret _ h' => Except.ok.inj (h.symm.trans h') ▸ hret, fun hret => hret ret h⟩
  | .error _ => isTrue fun _ h' => nomatch h.symm.trans h'

/-- After the turns `pre`, it is the turn of this message: its sender is an account, its nonce
counts up from the one in the ledger `v` by the messages of the account that started, and the
account can pay for the gas limit. -/
def ItsTurn (pre : List Turn) (t : Turn) : Prop :=
  ∃ id base, senderID env v t.1 = .ok id ∧ v id = some base ∧
    base.code = env.accountActorCodeID ∧
    t.1.vmMessage.nonce = base.nonce + UInt64.ofNat (started env v id pre) ∧ canPay env t

def gasCosts (id : Address) (turns : List Turn) : ℤ :=
  ((turns.filter fun t => senderID env v t.1 = .ok id).map fun t => gasCost t.1.vmMessage).sum

/-- After the turns `pre`, the sender of the message has not lost more than the gas limits of its
messages among them cost. -/
def PaidOnlyGas (pre : List Turn) (t : Turn) : Prop :=
  ∀ id base act, senderID env v t.1 = .ok id → v id = some base →
    t.2.cstate.view id = some act → base.balance - gasCosts env v id pre ≤ act.balance

instance (pre : List Turn) (t : Turn) : Decidable (PaidOnlyGas env v pre t) :=
  decidable_of_iff ((senderID env v t.1).toOption.all fun id => (v id).all fun base =>
      (t.2.cstate.view id).all fun act => base.balance - gasCosts env v id pre ≤ act.balance) <| by
    rw [PaidOnlyGas]
    rcases senderID env v t.1 with err | id
    · simp [Except.toOption]
    · simp only [Except.toOption, Option.all_some, Option.all_eq_true, decide_eq_true_eq]
      constructor
      · rintro h id' base act ⟨⟩ hbase hact
        exact h base hbase act hact
      · exact fun h base hbase act hact => h id base act rfl hbase hact

structure SeparateSenders (pending : List SignedMessage) : Prop where
  account : ∀ m ∈ pending, ∀ act, actorIn env.init v m.sender = .ok act →
    act.code = env.accountActorCodeID
  oneName : ∀ m ∈ pending, ∀ m' ∈ pending, ∀ id, resolveIn env.init v m.sender = .ok id →
    resolveIn env.init v m'.sender = .ok id → m.sender = m'.sender
  oneScheme : ∀ m ∈ pending, ∀ m' ∈ pending, m.sender = m'.sender →
    (m.signature.type = .bls ↔ m'.signature.type = .bls)

/-- What a message finds at its turn: its sender is the actor at `id`, with the code that it has in
the ledger `v`, and with the nonce that the messages that started have left. -/
structure Finds (pre : List Turn) (t : Turn) (id : Address) (base act : Actor) : Prop where
  senderID_eq : senderID env v t.1 = .ok id
  base_eq : v id = some base
  view_eq : t.2.cstate.view id = some act
  getActor_eq : (getActor env.init t.1.vmMessage.fromAddr t.2.cstate).1 = .ok act
  code_eq : act.code = base.code
  nonce_eq : act.nonce = base.nonce + UInt64.ofNat (started env v id pre)
  length_lt : t.1.chainLength < 2 ^ 30
  valid : t.1.vmMessage.validForBlockInclusion (pricelistV0.onChainMessage t.1.chainLength).total =
    .ok ()

end

variable {env : Env} {v : Ledger} {behaviour : Message → VM → Behaviour}
  {pre : List Turn} {t : Turn} {id : Address} {base act : Actor}

lemma Finds.starts_iff (h : Finds env v pre t id base act) :
    Starts env t.1 t.2 ↔ base.code = env.accountActorCodeID ∧
      t.1.vmMessage.nonce = base.nonce + UInt64.ofNat (started env v id pre) ∧
      gasCost t.1.vmMessage ≤ act.balance := by
  have hcost := gasCost_nonneg_of_valid h.valid
  have hcheck := checkMessage_of_valid (h.length_lt.trans (by decide)) h.valid
  rw [Starts, precheck_of_valid h.valid h.getActor_eq, Except.ok.injEq, checkSender_eq_none_iff,
    h.code_eq, h.nonce_eq]
  exact ⟨fun hstarts => hstarts.2.1, fun hready => ⟨hcheck, hready, hcost⟩⟩

lemma Finds.itsTurn_iff (h : Finds env v pre t id base act) :
    ItsTurn env v pre t ↔ Starts env t.1 t.2 := by
  have hpay := canPay_iff h.getActor_eq
  rw [h.starts_iff]
  constructor
  · rintro ⟨id', base', hid, hbase, hcode, hnonce, hcanPay⟩
    grind [h.senderID_eq, h.base_eq]
  · rintro ⟨hcode, hnonce, hbalance⟩
    exact ⟨id, base, h.senderID_eq, h.base_eq, hcode, hnonce, hpay.mpr hbalance⟩

lemma Finds.msgGasCost_pos (h : Finds env v pre t id base act) :
    0 < Word.u64 (msgGasCost t.1 t.2) := by
  grind [onChainMessage_total, h.length_lt, msgGasCost, pricelistByEpoch_eq, Word.u64_of_nonneg]

lemma Finds.penalty_of_not_starts (h : Finds env v pre t id base act)
    (hstarts : ¬Starts env t.1 t.2) (b : Behaviour) :
    ∃ ret, (applyMessage env b t.1 t.2).1 = .ok ret ∧
      ret.penalty = price t.1.vmMessage * Word.u64 (msgGasCost t.1 t.2) := by
  rcases hsender : checkSender env t.1.vmMessage (minerPenaltyAmount t.1 t.2) act with - | ret
  · refine absurd (h.starts_iff.mpr ?_) hstarts
    obtain ⟨hcode, hnonce, hbalance⟩ := checkSender_eq_none_iff.mp hsender
    exact ⟨h.code_eq ▸ hcode, h.nonce_eq ▸ hnonce, hbalance⟩
  · have hpre : (precheck env t.1 t.2).1 = .ok (some ret) := by
      rw [precheck_of_valid h.valid h.getActor_eq, hsender]
    have hcheck := checkMessage_of_valid (h.length_lt.trans (by decide)) h.valid
    exact ⟨ret, applyMessage_of_rejected hcheck hpre, precheck_penalty hpre⟩

lemma Finds.unpenalised_iff (h : Finds env v pre t id base act) :
    Unpenalised env behaviour t ↔ price t.1.vmMessage = 0 ∨ Starts env t.1 t.2 := by
  by_cases hstarts : Starts env t.1 t.2
  · exact ⟨fun _ => Or.inr hstarts, fun _ ret hret => applyMessage_penalty_of_starts hstarts hret⟩
  obtain ⟨ret, hret, hpenalty⟩ := h.penalty_of_not_starts hstarts (behaviour t.1.vmMessage t.2)
  constructor
  · intro hunpenalised
    rw [hunpenalised ret hret, eq_comm, mul_eq_zero] at hpenalty
    exact Or.inl (hpenalty.resolve_right (ne_of_gt h.msgGasCost_pos))
  · intro hor ret' hret'
    grind

/-! ## The turns of chosen messages -/

section Turns

variable {ρ : Type} {senv : SelectEnv ρ} {root : Hamt} {height : Int64}
  {pending out : List SignedMessage} {queue : Address → List SignedMessage} {vm : VM}

variable {ms : List SignedMessage} {codec : Codec}

lemma replay_stored {post : List Turn}
    (hsplit : replay env behaviour (ms.map (·.stored codec)) vm = pre ++ t :: post) :
    ∃ before m after, ms = before ++ m :: after ∧
      pre.map Prod.fst = before.map (·.stored codec) ∧ t.1 = m.stored codec := by
  obtain ⟨rest, hmsgs⟩ := replay_msgs hsplit
  obtain ⟨before, l, rfl, hbefore, hl⟩ := map_eq_append_iff.mp hmsgs
  obtain ⟨m, after, rfl, hm, -⟩ := map_eq_cons_iff.mp hl
  exact ⟨before, m, after, rfl, hbefore.symm, hm.symm⟩

lemma finds_of_chosen (hchosen : Chosen senv (actorLookup env root) height pending queue out)
    (henc : ∀ m ∈ pending, senv.codec.Encodes m) (hms : ∀ m ∈ ms, m ∈ out)
    (hview : vm.cstate.view = (loadStateTree root).view)
    (hquiet : Undisturbed env (loadStateTree root).view
      (replay env behaviour (ms.map (·.stored senv.codec)) vm)) {post : List Turn}
    (hsplit : replay env behaviour (ms.map (·.stored senv.codec)) vm = pre ++ t :: post) :
    ∃ id base act, Finds env (loadStateTree root).view pre t id base act := by
  set v := (loadStateTree root).view
  obtain ⟨before, m, after, hbefore, -, hm⟩ := replay_stored hsplit
  obtain ⟨l, l', hl⟩ := append_of_mem (hms m (by rw [hbefore]; simp))
  obtain ⟨hmem, -, base, hbase, hfits⟩ := hchosen.after l m l' hl
  have hmessage : t.1.vmMessage = m.message := by rw [hm, SignedMessage.stored_vmMessage]
  have hvalid := valid_stored (henc m hmem) hfits.valid
  rw [← hm, pricelistByEpoch_eq] at hvalid
  have hlength : t.1.chainLength < 2 ^ 30 := by
    have hsigned := (henc m hmem).signed_lt
    have hle := (henc m hmem).message_le
    rw [hm, SignedMessage.stored]
    split_ifs
    · exact lt_of_le_of_lt hle hsigned
    · exact hsigned
  obtain ⟨id, hid, hbase⟩ := actorIn_ok (actorLookup_ok hbase)
  have hsender : senderID env v t.1 = .ok id := by
    rwa [senderID, hmessage]
  obtain ⟨hundef, -⟩ := Message.validForBlockInclusion_ok hvalid
  obtain ⟨act, hact, hget, hcode, hnonce⟩ := hquiet.sender_at hview hsplit hsender hbase hundef
  exact ⟨id, base, act, hsender, hbase, hact, hget, hcode, hnonce, hlength, hvalid⟩

lemma SeparateSenders.turns_eq (h : SeparateSenders env v pending) {before : List SignedMessage}
    {m : SignedMessage} (hbefore : pre.map Prod.fst = before.map (·.stored codec))
    (hmem : ∀ m' ∈ before, m' ∈ pending) (hm : m ∈ pending)
    (hid : resolveIn env.init v m.sender = .ok id) :
    (pre.filter fun t => senderID env v t.1 = .ok id).map Prod.fst =
      (lane SignedMessage.sender m.sender before).map (·.stored codec) := by
  have hfilter : (pre.filter fun t => senderID env v t.1 = .ok id).map Prod.fst =
      (pre.map Prod.fst).filter fun cm => senderID env v cm = .ok id := by
    rw [filter_map]
    rfl
  rw [hfilter, hbefore, filter_map, lane]
  congr 1
  refine filter_congr fun m' hm' => decide_eq_decide.mpr ?_
  rw [senderID, SignedMessage.stored_vmMessage]
  constructor
  · intro hid'
    exact h.oneName m' (hmem m' hm') m hm id hid' hid
  · grind [SignedMessage.sender]

lemma started_of_all (h : ∀ t' ∈ pre, Starts env t'.1 t'.2) (id : Address) : started env v id pre =
      ((pre.filter fun t => senderID env v t.1 = .ok id).map Prod.fst).length := by
  rw [started, length_map, ← countP_eq_length_filter]
  refine countP_congr fun t' ht' => ?_
  rw [decide_eq_true_eq, decide_eq_true_eq, and_iff_left (h t' ht')]

lemma gasCost_eq_requiredFunds (msg : Message) : gasCost msg = msg.requiredFunds := by
  rw [gasCost, Message.requiredFunds, mul_comm]
  rfl

lemma gasCosts_of_turns (h : (pre.filter fun t => senderID env v t.1 = .ok id).map Prod.fst =
      ms.map (·.stored codec)) : gasCosts env v id pre = fundsRequired ms := by
  have hmap : (pre.filter fun t => senderID env v t.1 = .ok id).map
      (fun t => gasCost t.1.vmMessage) =
        (ms.map (·.stored codec)).map fun cm => gasCost cm.vmMessage := by
    rw [← h, map_map]
    rfl
  rw [gasCosts, hmap, map_map, fundsRequired]
  congr 2
  funext m
  rw [Function.comp_apply, SignedMessage.stored_vmMessage, gasCost_eq_requiredFunds]

lemma starts_of_separate
    (hchosen : Chosen senv (actorLookup env root) height pending queue (blsFirst out))
    (henc : ∀ m ∈ pending, senv.codec.Encodes m)
    (hview : vm.cstate.view = (loadStateTree root).view) {turns : List Turn}
    (hturns : replay env behaviour ((blsFirst out).map (·.stored senv.codec)) vm = turns)
    (hquiet : Undisturbed env (loadStateTree root).view turns)
    (hseparate : SeparateSenders env (loadStateTree root).view pending)
    (hpaid : EachAfter (PaidOnlyGas env (loadStateTree root).view) turns) :
    ∀ t ∈ turns, Starts env t.1 t.2 := by
  -- turn by turn: all the turns before have started
  refine EachAfter.forall_mem fun pre t post hsplit hstarted => ?_
  have hpay := hpaid pre t post hsplit
  subst hturns
  obtain ⟨id, base, act, hfinds⟩ :=
    finds_of_chosen hchosen henc (fun m hm => hm) hview hquiet hsplit
  obtain ⟨before, m, after, hms, hbefore, hm⟩ := replay_stored hsplit
  obtain ⟨hmem, -, base', hbase', hfits⟩ := hchosen.after before m after hms
  have hmessage : t.1.vmMessage = m.message := by rw [hm, SignedMessage.stored_vmMessage]
  have hid : resolveIn env.init (loadStateTree root).view m.sender = .ok id := by
    have hsender := hfinds.senderID_eq
    rwa [senderID, hmessage] at hsender
  -- the actor that the selection looked up is the one in the ledger
  obtain ⟨id', hid', hbaseAt⟩ := actorIn_ok (actorLookup_ok hbase')
  cases hid.symm.trans hid'
  cases hfinds.base_eq.symm.trans hbaseAt
  have hmems : ∀ m' ∈ before, m' ∈ pending := by
    intro m' hm'
    refine hchosen.mem_pending ?_
    rw [hms]
    exact mem_append_left _ hm'
  have hsame := hseparate.turns_eq hbefore hmems hmem hid
  refine hfinds.starts_iff.mpr ⟨hseparate.account m hmem base (actorLookup_ok hbase'), ?_, ?_⟩
  · grind [started_of_all, length_map, hfits.nonce_eq]
  · have hleft := hpay id base act hfinds.senderID_eq hfinds.base_eq hfinds.view_eq
    rw [gasCosts_of_turns hsame] at hleft
    have hfunds := hfits.funds_le
    have hcost : gasCost t.1.vmMessage = m.message.requiredFunds := by
      rw [hmessage, gasCost_eq_requiredFunds]
    rw [hcost]
    omega

end Turns

/-- Executed on the state they were chosen for, in the order in which a block stores them, the
messages of `SelectMessages` cost no penalty exactly if each of them offers nothing for its gas or
comes when it is its turn. No sender may have lost more than the gas of its earlier messages. -/
theorem chosen_unpenalised_iff {ρ : Type} {senv : SelectEnv ρ} {root : Hamt}
    {pending : List SignedMessage} (henc : ∀ m ∈ pending, senv.codec.Encodes m)
    (behaviour : Message → VM → Behaviour) (height vmHeight : Int64) (n : ℕ) {turns : List Turn}
    (hturns : replay env behaviour
      ((blsFirst ((selectMessages senv (actorLookup env root) height pending).take n)).map
        (·.stored senv.codec)) ⟨loadStateTree root, vmHeight, []⟩ = turns)
    (hquiet : Undisturbed env (loadStateTree root).view turns) :
    ((∀ t ∈ turns, Unpenalised env behaviour t) ↔ EachAfter (fun pre t =>
        price t.1.vmMessage = 0 ∨ ItsTurn env (loadStateTree root).view pre t) turns) ∧
    (SeparateSenders env (loadStateTree root).view pending →
      EachAfter (PaidOnlyGas env (loadStateTree root).view) turns →
        ∀ t ∈ turns, Unpenalised env behaviour t) := by
  obtain ⟨queue, hall⟩ : ∃ queue, Chosen senv (actorLookup env root) height pending queue
      (selectMessages senv (actorLookup env root) height pending) := selectMessages_chosen henc
  have hchosen := hall.take henc n
  set out := (selectMessages senv (actorLookup env root) height pending).take n
  have hexact : EachAfter (fun pre t => Unpenalised env behaviour t ↔
      price t.1.vmMessage = 0 ∨ ItsTurn env (loadStateTree root).view pre t) turns := by
    subst hturns
    intro pre t post hsplit
    obtain ⟨id, base, act, hfinds⟩ := finds_of_chosen hchosen henc
      (fun m hm => (blsFirst_perm out).mem_iff.mp hm) rfl hquiet hsplit
    rw [hfinds.itsTurn_iff]
    exact hfinds.unpenalised_iff
  refine ⟨⟨fun hunpenalised pre t post hsplit => ?_, fun hturn t ht => ?_⟩,
    fun hseparate hpaid t ht => ?_⟩
  · refine (hexact pre t post hsplit).mp (hunpenalised t ?_)
    rw [hsplit]
    exact mem_append_right _ mem_cons_self
  · obtain ⟨pre, post, hsplit⟩ := append_of_mem ht
    exact (hexact pre t post hsplit).mpr (hturn pre t post hsplit)
  · -- messages of one sender are on the same side of the block
    have hside : ∀ m ∈ out, ∀ m' ∈ out, m.sender = m'.sender →
        decide (m.signature.type = .bls) = decide (m'.signature.type = .bls) :=
      fun m hm m' hm' hsender => decide_eq_decide.mpr
        (hseparate.oneScheme m (hchosen.mem_pending hm) m' (hchosen.mem_pending hm') hsender)
    have hsplitChosen : Chosen senv (actorLookup env root) height pending queue (blsFirst out) :=
      hchosen.split hside
    have hstarts := starts_of_separate hsplitChosen henc rfl hturns hquiet hseparate hpaid t ht
    exact fun ret hret => applyMessage_penalty_of_starts hstarts hret

def sampleChosenTurns (pending : List SignedMessage) : List Turn :=
  replay sampleSigningSyncer.sm.env (fun _ _ => ⟨.abort .other, .ret (.bytes [])⟩)
    ((blsFirst ((selectMessages sampleSelectEnv
      (actorLookup sampleSigningSyncer.sm.env sampleKeyedState) 0 pending).take 512)).map
        (·.stored sampleSelectEnv.codec))
    ⟨loadStateTree sampleKeyedState, 1, []⟩

/-- The messages of two accounts that send little cost no penalty. -/
theorem sampleChosen_unpenalised :
    (sampleChosenTurns [sampleSigned (.bls [1]) 0 5, sampleSigned (.secp256k1 [2]) 0 5,
      sampleSigned (.bls [1]) 1 5]).length = 3 ∧
    ∀ t ∈ sampleChosenTurns [sampleSigned (.bls [1]) 0 5, sampleSigned (.secp256k1 [2]) 0 5,
        sampleSigned (.bls [1]) 1 5],
      Unpenalised sampleSigningSyncer.sm.env (fun _ _ => ⟨.abort .other, .ret (.bytes [])⟩) t := by
  set pending := [sampleSigned (.bls [1]) 0 5, sampleSigned (.secp256k1 [2]) 0 5,
    sampleSigned (.bls [1]) 1 5]
  set turns := sampleChosenTurns pending with hturns
  have hlength : turns.length = 3 := by decide +kernel
  have hlengths : 100 ≤ 200 ∧ 200 < 2 ^ 30 := by decide
  have henc : ∀ m ∈ pending, sampleSelectEnv.codec.Encodes m := fun _ _ => ⟨hlengths.1, hlengths.2⟩
  have hquiet : Undisturbed sampleSigningSyncer.sm.env (loadStateTree sampleKeyedState).view
      turns := by
    refine ⟨by decide +kernel, by decide +kernel, fun t ht t' ht' id hid => ?_⟩
    have hnone : ∀ t ∈ turns, ∀ id ∈ [Address.id 100, .id 101], .deleted id ∉ t.2.log := by
      decide +kernel
    have hids : ∀ t' ∈ turns, (senderID sampleSigningSyncer.sm.env
        (loadStateTree sampleKeyedState).view t'.1).toOption.all
          (· ∈ [Address.id 100, .id 101]) = true := by decide +kernel
    have hmem := hids t' ht'
    rw [hid] at hmem
    exact hnone t ht id (of_decide_eq_true hmem)
  have hseparate : SeparateSenders sampleSigningSyncer.sm.env (loadStateTree sampleKeyedState).view
      pending := by
    refine ⟨fun m hm act hact => ?_, fun m hm m' hm' id hid hid' => ?_, by decide +kernel⟩
    · have haccount : ∀ m ∈ pending, (actorIn sampleSigningSyncer.sm.env.init
          (loadStateTree sampleKeyedState).view m.sender).toOption.all
            (fun act => act.code = sampleSigningSyncer.sm.env.accountActorCodeID) = true := by
        decide +kernel
      have hcode := haccount m hm
      rw [hact] at hcode
      exact of_decide_eq_true hcode
    · have honeName : ∀ m ∈ pending, ∀ m' ∈ pending,
          resolveIn sampleSigningSyncer.sm.env.init (loadStateTree sampleKeyedState).view m.sender =
            resolveIn sampleSigningSyncer.sm.env.init (loadStateTree sampleKeyedState).view
              m'.sender → m.sender = m'.sender := by decide +kernel
      exact honeName m hm m' hm' (hid.trans hid'.symm)
  have hpaid : EachAfter (PaidOnlyGas sampleSigningSyncer.sm.env
      (loadStateTree sampleKeyedState).view) turns := by decide +kernel
  rw [sampleChosenTurns] at hturns
  obtain ⟨-, hunpenalised⟩ := chosen_unpenalised_iff henc _ 0 1 512 hturns.symm hquiet
  exact ⟨hlength, hunpenalised hseparate hpaid⟩

/-- Account 100 has 10000000 and sends 7000000 of it with its first message. Its second message is
chosen as well, but the gas limit of 3000000 can no longer be paid, and that costs a penalty. -/
theorem value_penalised : (sampleChosenTurns
      [sampleSigned (.bls [1]) 0 7000000, sampleSigned (.bls [1]) 1 5]).length = 2 ∧
    ∃ t ∈ sampleChosenTurns [sampleSigned (.bls [1]) 0 7000000, sampleSigned (.bls [1]) 1 5],
      ¬Unpenalised sampleSigningSyncer.sm.env (fun _ _ => ⟨.abort .other, .ret (.bytes [])⟩) t := by
  decide +kernel

end Lotus
