import Lotus.Chain.Mining
import Lotus.Chain.Execution
import Lotus.Lib.Queues

/-!
# Selecting messages for a block

`SelectMessages` of `miner/selectmessages.go` and `GuessGasUsed` of
`chain/messagepool/gasguess/guessgas.go`.
-/

namespace Lotus

open Queues List Function

/-- `gasguess.ActorLookup`, over the tipset that the selection is for. The answers are cached, so
there is one for each address. -/
abbrev ActorLookup := Address → Except NodeErr Actor

structure BuiltinCodes where
  initActor : Cid
  storageMarket : Cid
  storageMiner : Cid
  storagePower : Cid

def BuiltinCodes.costs (codes : BuiltinCodes) : List ((Cid × UInt64) × Int64) :=
  [((codes.initActor, 2), 8916753),
    ((codes.storageMarket, 2), 6955002),
    ((codes.storageMarket, 4), 245436108),
    ((codes.storageMiner, 4), 2315133),
    ((codes.storageMiner, 5), 1600271356),
    ((codes.storageMiner, 6), 22864493),
    ((codes.storageMiner, 7), 142002419),
    ((codes.storageMiner, 10), 23008274),
    ((codes.storageMiner, 11), 19303178),
    ((codes.storageMiner, 14), 566356835),
    ((codes.storageMiner, 16), 5325185),
    ((codes.storageMiner, 18), 2328637),
    ((codes.storagePower, 2), 23600956)]

def failedGasGuessMax : Int64 := 25000000

/-- `failedGuess`: half of the gas limit, which is small enough for a `float64` to be exact. -/
def failedGuess (msg : SignedMessage) : Int64 :=
  let guess := msg.message.gasLimit / 2
  if guess > failedGasGuessMax then failedGasGuessMax else guess

def guessGasUsed (codes : BuiltinCodes) (al : ActorLookup) (msg : SignedMessage) :
    Int64 × Option NodeErr :=
  if msg.message.method = 0 then
    match msg.message.fromAddr.protocol with
    | .bls => (1298450, none)
    | .secp256k1 => (1385999, none)
    | .id | .actor | .unknown => (1298450, none)
  else
    match al msg.message.toAddr with
    | .error err => (failedGuess msg, some (.wrap "could not lookup actor" err))
    | .ok toActor =>
      match codes.costs.lookup (toActor.code, msg.message.method) with
      | none => (failedGuess msg, some (.new "unknown code-method combo"))
      | some guess =>
        (if guess > msg.message.gasLimit then msg.message.gasLimit else guess, none)

/-! ## Queues by sender -/

/-- What `SelectMessages` uses that is defined elsewhere: the codes of the built-in actors, the
encoding of messages, the order of addresses by their bytes, and the ratios of reward to gas. -/
structure SelectEnv (ρ : Type) where
  codes : BuiltinCodes
  codec : Codec
  /-- `bytes.Compare` of two addresses gives -1. -/
  bytesLess : Address → Address → Bool
  /-- A reward, as a `float64`, divided by a gas limit. -/
  gasToReward : ℤ → Int64 → ρ
  zero : ρ
  ge : ρ → ρ → Bool

/-- An entry of the slices `msgs`, `gasLimit` and `gasReward` of a `senderMeta`. The last two are
summed up from the sender's first message on. -/
structure QueuedMsg where
  msg : SignedMessage
  gasLimit : Int64
  gasReward : ℤ

structure SenderMeta where
  lastReward : ℤ
  lastGasLimit : Int64
  msgs : List QueuedMsg

/-- `&senderMeta{lastReward: big.Zero()}` -/
def SenderMeta.empty : SenderMeta := ⟨0, 0, []⟩

def SenderMeta.append (sm : SenderMeta) (msg : SignedMessage) (guessedGas : Int64) : SenderMeta :=
  let gasLimit := sm.lastGasLimit + msg.message.gasLimit
  let gasReward := sm.lastReward + Word.u64 guessedGas * msg.message.gasPrice.getD 0
  ⟨gasReward, gasLimit, sm.msgs ++ [⟨msg, gasLimit, gasReward⟩]⟩

abbrev OutBySender := AList fun _ : Address => SenderMeta

def OutBySender.find (out : OutBySender) (sender : Address) : SenderMeta :=
  (out.lookup sender).getD .empty

/-- The entries of `inclNonces` and `inclBalances` for a sender, which are made together. -/
structure Included where
  nonce : UInt64
  balance : ℤ

def SignedMessage.sender (m : SignedMessage) : Address := m.message.fromAddr

/-- The variables of the first loop. -/
structure SelectState where
  incl : Address → Option Included
  outBySender : OutBySender

variable {ρ : Type} (senv : SelectEnv ρ) (al : ActorLookup) (height : Int64)

def queueMsg (s : SelectState) (msg : SignedMessage) (incl : Included) : SelectState :=
  if incl.balance < msg.message.requiredFunds then s
  else if msg.message.nonce > incl.nonce then s
  else if msg.message.nonce < incl.nonce then s
  else
    let sm := s.outBySender.find msg.sender
    { incl := update s.incl msg.sender
        (some ⟨msg.message.nonce + 1, incl.balance - msg.message.requiredFunds⟩)
      outBySender := s.outBySender.insert msg.sender
        (sm.append msg (guessGasUsed senv.codes al msg).1) }

/-- One turn of the first loop. The source panics on a message without a value or a gas price, which
is passed over here. -/
def considerMsg (s : SelectState) (msg : SignedMessage) : SelectState :=
  match msg.message.validForBlockInclusion
      ((pricelistByEpoch height).onChainMessage (senv.codec.signedLength msg)).total with
  | .error _ => s
  | .ok _ =>
    if msg.message.gasLimit > blockGasLimit then s
    else if msg.message.toAddr = .undef then s
    else
      match s.incl msg.sender with
      | some incl => queueMsg senv al s msg incl
      | none =>
        match al msg.sender with
        | .error _ => s
        | .ok act =>
          queueMsg senv al
            { s with incl := update s.incl msg.sender (some ⟨act.nonce, act.balance⟩) }
            msg ⟨act.nonce, act.balance⟩

def queueMessages (msgs : List SignedMessage) : SelectState :=
  (msgs.insertionSort fun a b => a.message.nonce ≤ b.message.nonce).foldl
    (considerMsg senv al height) ⟨fun _ => none, ∅⟩

/-! ## Rounds -/

structure SelectLoop where
  out : List SignedMessage
  gasLimitLeft : Int64
  outBySender : OutBySender

structure Best (ρ : Type) where
  sender : Address
  nBest : ℕ
  gasToReward : ρ

def bestOfSender (gasLimitLeft : Int64) (taken : ℕ) (sender : Address) :
    ℕ → List QueuedMsg → Best ρ → Best ρ
  | _, [], best => best
  | n, q :: qs, best =>
    if q.gasLimit > gasLimitLeft then best
    else if n + taken > blockMessageLimit then best
    else
      let ratio := senv.gasToReward q.gasReward q.gasLimit
      bestOfSender gasLimitLeft taken sender (n + 1) qs
        (if senv.ge ratio best.gasToReward then ⟨sender, n + 1, ratio⟩ else best)

def bestOfSenders (s : SelectLoop) (orderedSenders : List Address) : Best ρ :=
  orderedSenders.foldl
    (fun best sender =>
      match s.outBySender.lookup sender with
      | none => best
      | some sm => bestOfSender senv s.gasLimitLeft s.out.length sender 0 sm.msgs best)
    ⟨.undef, 0, senv.zero⟩

/-- The messages that won the round are taken. -/
def takeBest (s : SelectLoop) (sender : Address) (nBest : ℕ) : SelectLoop :=
  let sm := s.outBySender.find sender
  let rest := sm.msgs.drop nBest
  { out := s.out ++ (sm.msgs.take nBest).map (·.msg)
    gasLimitLeft := s.gasLimitLeft - ((sm.msgs[nBest - 1]?).map (·.gasLimit)).getD 0
    outBySender :=
      if rest.length = 0 then s.outBySender.erase sender
      else s.outBySender.insert sender { sm with msgs := rest } }

def selectLoop (orderedSenders : List Address) : ℕ → SelectLoop → List SignedMessage
  | 0, s => s.out
  | n + 1, s =>
    let best := bestOfSenders senv s orderedSenders
    if best.nBest = 0 then s.out
    else
      let s' := takeBest s best.sender best.nBest
      if s'.out.length ≥ blockMessageLimit then s'.out else selectLoop orderedSenders n s'

/-- `SelectMessages`. The sort by nonces is not stable in the source: of messages with one nonce,
any may come first. The model takes them in the order of the list, and the list is arbitrary. -/
def selectMessages (msgs : List SignedMessage) : List SignedMessage :=
  let outBySender := (queueMessages senv al height msgs).outBySender
  let orderedSenders := outBySender.keys.insertionSort fun a b => senv.bytesLess b a = false
  selectLoop senv orderedSenders blockMessageLimit ⟨[], blockGasLimit, outBySender⟩

/-! ## What is queued -/

def gasLimits (ms : List SignedMessage) : ℤ := (ms.map fun m => m.message.gasLimit.toInt).sum

def fundsRequired (ms : List SignedMessage) : ℤ := (ms.map fun m => m.message.requiredFunds).sum

lemma gasLimits_append (ms ms' : List SignedMessage) :
    gasLimits (ms ++ ms') = gasLimits ms + gasLimits ms' := by
  rw [gasLimits, map_append, sum_append, gasLimits, gasLimits]

lemma gasLimits_singleton (m : SignedMessage) : gasLimits [m] = m.message.gasLimit.toInt := by
  rw [gasLimits, map_singleton, sum_singleton]

lemma fundsRequired_concat (ms : List SignedMessage) (m : SignedMessage) :
    fundsRequired (ms ++ [m]) = fundsRequired ms + m.message.requiredFunds := by
  rw [fundsRequired, map_append, sum_append, map_singleton, sum_singleton, fundsRequired]

structure Codec.Encodes (codec : Codec) (m : SignedMessage) : Prop where
  message_le : codec.messageLength m.message ≤ codec.signedLength m
  signed_lt : codec.signedLength m < 2 ^ 30

/-- The message `m` is valid for inclusion and comes next after the messages `pre` of the sender
with the actor `act`, which can pay for the gas of all of them. -/
structure Fits (codec : Codec) (height : Int64) (act : Actor) (pre : List SignedMessage)
    (m : SignedMessage) : Prop where
  valid : m.message.validForBlockInclusion
    ((pricelistByEpoch height).onChainMessage (codec.signedLength m)).total = .ok ()
  nonce_eq : m.message.nonce = act.nonce + UInt64.ofNat pre.length
  funds_le : fundsRequired pre + m.message.requiredFunds ≤ act.balance

/-- A pending message of `sender` that fits after the messages `pre`. -/
def Fitting (pending : List SignedMessage) (sender : Address) (pre : List SignedMessage)
    (m : SignedMessage) : Prop :=
  m ∈ pending ∧ m.sender = sender ∧
    ∃ act, al sender = .ok act ∧ Fits senv.codec height act pre m

def GasBounded (m : SignedMessage) : Prop :=
  0 < m.message.gasLimit.toInt ∧ m.message.gasLimit.toInt ≤ 7500000000

lemma gasLimits_bounds {ms : List SignedMessage} (h : ∀ m ∈ ms, GasBounded m) :
    0 ≤ gasLimits ms ∧ gasLimits ms ≤ ms.length * 7500000000 := by
  induction ms with
  | nil => exact ⟨le_refl _, le_refl _⟩
  | cons m ms ih =>
    obtain ⟨hpos, hle⟩ := h m mem_cons_self
    obtain ⟨hpos', hle'⟩ := ih fun m' hm' => h m' (mem_cons_of_mem m hm')
    have hcons : gasLimits (m :: ms) = m.message.gasLimit.toInt + gasLimits ms := rfl
    rw [hcons, length_cons]
    omega

namespace OutBySender

lemma find_insert_self (out : OutBySender) (a : Address) (sm : SenderMeta) :
    OutBySender.find (out.insert a sm) a = sm := by
  rw [find, AList.lookup_insert]
  rfl

lemma find_insert_of_ne (out : OutBySender) {a a' : Address} (sm : SenderMeta) (h : a' ≠ a) :
    OutBySender.find (out.insert a sm) a' = out.find a' := by
  rw [find, AList.lookup_insert_ne h, find]

lemma find_erase_self (out : OutBySender) (a : Address) :
    OutBySender.find (out.erase a) a = .empty := by
  rw [find, AList.lookup_erase]
  rfl

lemma find_erase_of_ne (out : OutBySender) {a a' : Address} (h : a' ≠ a) :
    OutBySender.find (out.erase a) a' = out.find a' := by
  rw [find, AList.lookup_erase_ne h, find]

end OutBySender

/-- A pending message that fits after the entries `pre`, with the sum of the gas limits. The sum is
right as long as it cannot wrap around. -/
def QueuedAfter (pending : List SignedMessage) (sender : Address) (pre : List QueuedMsg)
    (q : QueuedMsg) : Prop :=
  Fitting senv al height pending sender (pre.map (·.msg)) q.msg ∧
    (pre.length < 2 ^ 20 → q.gasLimit.toInt = gasLimits (pre.map (·.msg) ++ [q.msg]))

structure QueueInv (pending : List SignedMessage) (sender : Address) (incl : Option Included)
    (sm : SenderMeta) : Prop where
  each : EachAfter (QueuedAfter senv al height pending sender) sm.msgs
  last_eq : sm.msgs.length ≤ 2 ^ 20 → sm.lastGasLimit.toInt = gasLimits (sm.msgs.map (·.msg))
  incl_none : incl = none → sm.msgs = []
  incl_some : ∀ i, incl = some i → ∃ act, al sender = .ok act ∧
    i.nonce = act.nonce + UInt64.ofNat sm.msgs.length ∧
    i.balance = act.balance - fundsRequired (sm.msgs.map (·.msg))

variable {senv al height} {pending : List SignedMessage}

section Queueing

variable (henc : ∀ m ∈ pending, senv.codec.Encodes m)

include henc

lemma Fitting.gasBounded {sender : Address} {pre : List SignedMessage} {m : SignedMessage}
    (h : Fitting senv al height pending sender pre m) : GasBounded m := by
  obtain ⟨hmem, -, act, -, hfits⟩ := h
  have hvalid := hfits.valid
  rw [pricelistByEpoch_eq] at hvalid
  have hpos : 0 < (m.toChainMsg senv.codec).vmMessage.gasLimit :=
    gasLimit_pos_of_valid ((henc m hmem).signed_lt.trans (by decide)) hvalid
  obtain ⟨-, -, -, hle, -⟩ := Message.validForBlockInclusion_ok hvalid
  exact ⟨Int64.lt_iff_toInt_lt.mp hpos, Int64.le_iff_toInt_le.mp hle⟩

lemma gasBounded_of_each {sender : Address} {l : List QueuedMsg}
    (h : EachAfter (QueuedAfter senv al height pending sender) l) :
    ∀ m ∈ l.map (·.msg), GasBounded m := by
  intro m hm
  obtain ⟨q, hq, rfl⟩ := mem_map.mp hm
  obtain ⟨pre, post, hsplit⟩ := append_of_mem hq
  exact (h pre q post hsplit).1.gasBounded henc

variable {msg : SignedMessage}

lemma QueueInv.append {sm : SenderMeta} {incl : Included}
    (h : QueueInv senv al height pending msg.sender (some incl) sm) (hmem : msg ∈ pending)
    (hvalid : msg.message.validForBlockInclusion
      ((pricelistByEpoch height).onChainMessage (senv.codec.signedLength msg)).total = .ok ())
    (hfunds : msg.message.requiredFunds ≤ incl.balance) (hnonce : msg.message.nonce = incl.nonce)
    (guessedGas : Int64) :
    QueueInv senv al height pending msg.sender
      (some ⟨msg.message.nonce + 1, incl.balance - msg.message.requiredFunds⟩)
      (sm.append msg guessedGas) := by
  obtain ⟨act, hact, hincl, hbalance⟩ := h.incl_some incl rfl
  have hfits : Fitting senv al height pending msg.sender (sm.msgs.map (·.msg)) msg := by
    refine ⟨hmem, rfl, act, hact, hvalid, ?_, by omega⟩
    rw [hnonce, hincl, length_map]
  have hgas : sm.msgs.length < 2 ^ 20 → (sm.lastGasLimit + msg.message.gasLimit).toInt =
      gasLimits (sm.msgs.map (·.msg) ++ [msg]) := by
    intro hlen
    obtain ⟨hpos, hle⟩ := hfits.gasBounded henc
    obtain ⟨hpos', hle'⟩ := gasLimits_bounds (gasBounded_of_each henc h.each)
    rw [length_map] at hle'
    have hlast := h.last_eq (by omega)
    rw [gasLimits_append, gasLimits_singleton, Word.toInt_add_of_mem (by omega) (by omega), hlast]
  have hmsgs : (sm.append msg guessedGas).msgs.map (·.msg) = sm.msgs.map (·.msg) ++ [msg] := by
    rw [SenderMeta.append, map_append, map_singleton]
  have hlength : (sm.append msg guessedGas).msgs.length = sm.msgs.length + 1 := by
    rw [SenderMeta.append, length_append, length_singleton]
  refine ⟨h.each.concat ⟨hfits, hgas⟩, fun hlen => ?_, nofun, fun i hi => ⟨act, hact, ?_, ?_⟩⟩
  · rw [hmsgs]
    exact hgas (by omega)
  · grind [UInt64.ofNat_add, UInt64.add_assoc]
  · grind [fundsRequired_concat]

lemma queueMsg_inv {s : SelectState} {incl : Included}
    (h : ∀ a, QueueInv senv al height pending a (s.incl a) (s.outBySender.find a))
    (hincl : s.incl msg.sender = some incl) (hmem : msg ∈ pending)
    (hvalid : msg.message.validForBlockInclusion
      ((pricelistByEpoch height).onChainMessage (senv.codec.signedLength msg)).total = .ok ())
    (a : Address) :
    QueueInv senv al height pending a ((queueMsg senv al s msg incl).incl a)
      ((queueMsg senv al s msg incl).outBySender.find a) := by
  unfold queueMsg
  split_ifs with hfunds hhigh hlow
  · exact h a
  · exact h a
  · exact h a
  have hnonce : msg.message.nonce = incl.nonce :=
    UInt64.le_antisymm (UInt64.not_lt.mp hhigh) (UInt64.not_lt.mp hlow)
  simp only
  by_cases hsender : a = msg.sender
  · subst hsender
    have hown := h msg.sender
    rw [hincl] at hown
    rw [update_self, OutBySender.find_insert_self]
    exact hown.append henc hmem hvalid (not_lt.mp hfunds) hnonce _
  · rw [update_of_ne hsender, OutBySender.find_insert_of_ne _ _ hsender]
    exact h a

lemma considerMsg_inv {s : SelectState}
    (h : ∀ a, QueueInv senv al height pending a (s.incl a) (s.outBySender.find a))
    (hmem : msg ∈ pending) (a : Address) :
    QueueInv senv al height pending a ((considerMsg senv al height s msg).incl a)
      ((considerMsg senv al height s msg).outBySender.find a) := by
  unfold considerMsg
  split
  · exact h a
  rename_i hvalid
  split_ifs
  · exact h a
  · exact h a
  split
  · grind [queueMsg_inv]
  rename_i hincl
  split
  · exact h a
  rename_i act hact
  refine queueMsg_inv henc (fun a' => ?_) (update_self ..) hmem hvalid a
  by_cases hsender : a' = msg.sender
  · subst hsender
    -- the sender has no queue yet
    have hown := h msg.sender
    have hempty := hown.incl_none hincl
    simp only [update_self]
    refine ⟨hown.each, hown.last_eq, nofun, fun i hi => ⟨act, hact, ?_, ?_⟩⟩
    · cases hi
      rw [hempty]
      exact (UInt64.add_zero _).symm
    · cases hi
      rw [hempty]
      exact (sub_zero _).symm
  · grind

lemma queueMessages_inv (a : Address) :
    QueueInv senv al height pending a ((queueMessages senv al height pending).incl a)
      ((queueMessages senv al height pending).outBySender.find a) := by
  have hall : ∀ a, QueueInv senv al height pending a ((queueMessages senv al height pending).incl a)
      ((queueMessages senv al height pending).outBySender.find a) := by
    refine List.foldlRecOn (motive := fun s : SelectState =>
      ∀ a, QueueInv senv al height pending a (s.incl a) (s.outBySender.find a)) _ _ ?_ ?_
    · exact fun a => ⟨EachAfter.nil _, fun _ => rfl, fun _ => rfl, nofun⟩
    · exact fun s h m hm => considerMsg_inv henc h ((perm_insertionSort _ _).mem_iff.mp hm)
  exact hall a

end Queueing

/-! ## What is taken -/

/-- The front of a queue, up to the message with index `n`, can be taken in a round. -/
def Candidate (s : SelectLoop) (sender : Address) (n : ℕ) : Prop :=
  ∃ q, (s.outBySender.find sender).msgs[n]? = some q ∧ q.gasLimit ≤ s.gasLimitLeft ∧
    n + s.out.length ≤ blockMessageLimit

def Best.Takes (s : SelectLoop) (best : Best ρ) : Prop :=
  best.nBest = 0 ∨ ∃ n, best.nBest = n + 1 ∧ Candidate s best.sender n

variable {s : SelectLoop} {sender : Address}

lemma bestOfSender_takes (qs : List QueuedMsg) {n : ℕ} {best : Best ρ}
    (hqs : (s.outBySender.find sender).msgs.drop n = qs) (h : best.Takes s) :
    (bestOfSender senv s.gasLimitLeft s.out.length sender n qs best).Takes s := by
  induction qs generalizing n best with
  | nil => exact h
  | cons q qs ih =>
    have hq : (s.outBySender.find sender).msgs[n]? = some q := by
      rw [← head?_drop, hqs, head?_cons]
    have hrest : (s.outBySender.find sender).msgs.drop (n + 1) = qs := by
      rw [← tail_drop, hqs, tail_cons]
    unfold bestOfSender
    split_ifs with hgas hcount
    · exact h
    · exact h
    refine ih hrest ?_
    split_ifs
    · exact Or.inr ⟨n, rfl, q, hq, Int64.not_lt.mp hgas, not_lt.mp hcount⟩
    · exact h

lemma bestOfSenders_takes (s : SelectLoop) (senders : List Address) :
    (bestOfSenders senv s senders).Takes s := by
  refine List.foldlRecOn senders _ (Or.inl rfl) fun best h sender _ => ?_
  rcases hsm : s.outBySender.lookup sender with - | sm
  · exact h
  · refine bestOfSender_takes _ ?_ h
    rw [OutBySender.find, hsm]
    rfl

lemma takeBest_msgs (s : SelectLoop) (sender : Address) (nBest : ℕ) :
    (fun a => ((takeBest s sender nBest).outBySender.find a).msgs) =
      update (fun a => (s.outBySender.find a).msgs) sender
        ((s.outBySender.find sender).msgs.drop nBest) := by
  funext a
  unfold takeBest
  by_cases ha : a = sender
  · subst ha
    rw [update_self]
    simp only
    split_ifs with hrest
    · rw [OutBySender.find_erase_self, length_eq_zero_iff.mp hrest]
      rfl
    · rw [OutBySender.find_insert_self]
  · rw [update_of_ne ha]
    simp only
    split_ifs
    · rw [OutBySender.find_erase_of_ne _ ha]
    · rw [OutBySender.find_insert_of_ne _ _ ha]

/-- The variables of the second loop once the entries `taken` were taken out of the queues. -/
structure LoopInv (queues : Address → List QueuedMsg) (s : SelectLoop) (taken : List QueuedMsg) :
    Prop where
  out_eq : s.out = taken.map (·.msg)
  drains : Drains (·.msg.sender) queues (fun a => (s.outBySender.find a).msgs) taken
  left_nonneg : 0 ≤ s.gasLimitLeft.toInt
  gas_le : gasLimits s.out + s.gasLimitLeft.toInt ≤ 7500000000

section Rounds

variable (henc : ∀ m ∈ pending, senv.codec.Encodes m) {queues : Address → List QueuedMsg}
  (hqueues : ∀ a, EachAfter (QueuedAfter senv al height pending a) (queues a))

include henc hqueues

variable {taken : List QueuedMsg}

lemma LoopInv.gasLimit_eq {n : ℕ} {q : QueuedMsg} (h : LoopInv queues s taken)
    (hq : (s.outBySender.find sender).msgs[n]? = some q) (hlen : s.out.length + n < 2 ^ 20) :
    ∃ before, 0 ≤ before ∧ q.gasLimit.toInt =
      before + gasLimits (((s.outBySender.find sender).msgs.take (n + 1)).map (·.msg)) := by
  set rest := (s.outBySender.find sender).msgs
  set before := lane (fun q : QueuedMsg => q.msg.sender) sender taken
  have hqueue : queues sender = before ++ rest := (h.drains sender).symm
  have htake : rest.take (n + 1) = rest.take n ++ [q] := by
    rw [take_add_one, hq]
    rfl
  have hfront : (before ++ rest.take n) ++ [q] <+: queues sender := by
    rw [hqueue, append_assoc, ← htake]
    exact (prefix_append_right_inj _).mpr <| take_prefix _ _
  have hshort : (before ++ rest.take n).length < 2 ^ 20 := by
    have hbefore : before.length ≤ taken.length := length_filter_le _ _
    rw [h.out_eq, length_map] at hlen
    rw [length_append, length_take]
    omega
  have hgas := ((hqueues sender).of_front hfront).2 hshort
  rw [map_append, append_assoc, gasLimits_append] at hgas
  refine ⟨gasLimits (before.map (·.msg)), ?_, ?_⟩
  · refine (gasLimits_bounds fun m hm => gasBounded_of_each henc (hqueues sender) m ?_).1
    rw [hqueue, map_append]
    exact mem_append_left _ hm
  · rw [hgas, htake, map_append, map_singleton]

lemma takeBest_inv {n : ℕ} (h : LoopInv queues s taken) (hcand : Candidate s sender n) :
    (∃ taken', LoopInv queues (takeBest s sender (n + 1)) taken') ∧
      s.out.length < (takeBest s sender (n + 1)).out.length := by
  obtain ⟨q, hq, hgas, hcount⟩ := hcand
  have hlimit : blockMessageLimit < 2 ^ 20 := by decide
  obtain ⟨before, hbefore, hsum⟩ := h.gasLimit_eq henc hqueues hq (by omega)
  set rest := (s.outBySender.find sender).msgs with hrest
  obtain ⟨hn, -⟩ := List.getElem?_eq_some_iff.mp hq
  have hfront : ∀ q' ∈ rest, q' ∈ queues sender := by
    intro q' hq'
    rw [← h.drains sender]
    exact mem_append_right _ hq'
  have hkeys : ∀ q' ∈ rest, q'.msg.sender = sender := by
    intro q' hq'
    obtain ⟨pre, post, hsplit⟩ := append_of_mem (hfront q' hq')
    exact (hqueues sender pre q' post hsplit).1.2.1
  have htaken : 0 ≤ gasLimits ((rest.take (n + 1)).map (·.msg)) := by
    refine (gasLimits_bounds fun m hm => ?_).1
    obtain ⟨q', hq', rfl⟩ := mem_map.mp hm
    exact gasBounded_of_each henc (hqueues sender) _
      (mem_map_of_mem (hfront q' (mem_of_mem_take hq')))
  have hleft : (takeBest s sender (n + 1)).gasLimitLeft.toInt =
      s.gasLimitLeft.toInt - q.gasLimit.toInt := by
    have hle := Int64.le_iff_toInt_le.mp hgas
    have hhi := Int64.toInt_lt s.gasLimitLeft
    show (s.gasLimitLeft - ((rest[n + 1 - 1]?).map (·.gasLimit)).getD 0).toInt = _
    rw [Nat.add_sub_cancel, hq, Option.map_some, Option.getD_some,
      Word.toInt_sub_of_mem (by omega) (by omega)]
  have hout : (takeBest s sender (n + 1)).out = s.out ++ (rest.take (n + 1)).map (·.msg) := rfl
  refine ⟨⟨taken ++ rest.take (n + 1), ?_, ?_, ?_, ?_⟩, ?_⟩
  · rw [hout, h.out_eq, map_append]
  · rw [takeBest_msgs]
    exact h.drains.take hkeys (n + 1)
  · have hle := Int64.le_iff_toInt_le.mp hgas
    omega
  · grind [h.gas_le, gasLimits_append]
  · grind

lemma selectLoop_spec (senders : List Address) (n : ℕ) (h : LoopInv queues s taken) :
    ∃ taken', selectLoop senv senders n s = taken'.map (·.msg) ∧
      FromFronts (·.msg.sender) queues taken' ∧
      gasLimits (selectLoop senv senders n s) ≤ 7500000000 := by
  have hstop : ∀ {s : SelectLoop} {taken : List QueuedMsg}, LoopInv queues s taken →
      ∃ taken', s.out = taken'.map (·.msg) ∧ FromFronts (·.msg.sender) queues taken' ∧
        gasLimits s.out ≤ 7500000000 := by
    intro s taken h
    have hle := h.gas_le
    have hleft := h.left_nonneg
    exact ⟨taken, h.out_eq, h.drains.fromFronts, by omega⟩
  induction n generalizing s taken with
  | zero => exact hstop h
  | succ n ih =>
    unfold selectLoop
    by_cases hbest : (bestOfSenders senv s senders).nBest = 0
    · rw [if_pos hbest]
      exact hstop h
    · rw [if_neg hbest]
      obtain ⟨k, hk, hcand⟩ := (bestOfSenders_takes s senders).resolve_left hbest
      rw [hk]
      obtain ⟨⟨taken', h'⟩, -⟩ := takeBest_inv henc hqueues h hcand
      dsimp only
      split_ifs <;> grind

end Rounds

/-- Messages that `SelectMessages` may choose: the messages of each sender are the first ones of a
queue of pending messages that fit one after another, and all of them fit into a block. -/
structure Chosen (senv : SelectEnv ρ) (al : ActorLookup) (height : Int64)
    (pending : List SignedMessage) (queue : Address → List SignedMessage)
    (out : List SignedMessage) : Prop where
  fits : ∀ a, EachAfter (Fitting senv al height pending a) (queue a)
  fronts : FromFronts SignedMessage.sender queue out
  gas_le : gasLimits out ≤ 7500000000

namespace Chosen

variable {queue : Address → List SignedMessage} {out : List SignedMessage}

lemma after (h : Chosen senv al height pending queue out) :
    EachAfter (fun pre m => Fitting senv al height pending m.sender
      (lane SignedMessage.sender m.sender pre) m) out :=
  h.fronts.after h.fits

lemma mem_pending (h : Chosen senv al height pending queue out) {m : SignedMessage}
    (hm : m ∈ out) : m ∈ pending := by
  obtain ⟨pre, post, hsplit⟩ := append_of_mem hm
  exact (h.after pre m post hsplit).1

lemma gasBounded (henc : ∀ m ∈ pending, senv.codec.Encodes m)
    (h : Chosen senv al height pending queue out) {m : SignedMessage} (hm : m ∈ out) :
    GasBounded m := by
  obtain ⟨pre, post, hsplit⟩ := append_of_mem hm
  exact (h.after pre m post hsplit).gasBounded henc

lemma take (henc : ∀ m ∈ pending, senv.codec.Encodes m)
    (h : Chosen senv al height pending queue out) (n : ℕ) :
    Chosen senv al height pending queue (out.take n) := by
  refine ⟨h.fits, h.fronts.take n, ?_⟩
  have hdropped := (gasLimits_bounds fun m hm =>
    h.gasBounded henc (mem_of_mem_drop (i := n) hm)).1
  grind [h.gas_le, take_append_drop, gasLimits_append]

lemma split (h : Chosen senv al height pending queue out) {c : SignedMessage → Bool}
    (hc : ∀ m ∈ out, ∀ m' ∈ out, m.sender = m'.sender → c m = c m') :
    Chosen senv al height pending queue (out.filter c ++ out.filter fun m => !c m) := by
  refine ⟨h.fits, h.fronts.split hc, ?_⟩
  have hperm := (filter_append_perm c out).map fun m => m.message.gasLimit.toInt
  rw [gasLimits, hperm.sum_eq]
  exact h.gas_le

end Chosen

lemma selectMessages_chosen (henc : ∀ m ∈ pending, senv.codec.Encodes m) :
    ∃ queue, Chosen senv al height pending queue (selectMessages senv al height pending) := by
  set queues := fun a => ((queueMessages senv al height pending).outBySender.find a).msgs with hdef
  have hqueues : ∀ a, EachAfter (QueuedAfter senv al height pending a) (queues a) :=
    fun a => (queueMessages_inv henc a).each
  have hlimit : 0 ≤ blockGasLimit.toInt ∧ 0 + blockGasLimit.toInt ≤ 7500000000 := by decide
  have hstart : LoopInv queues
      ⟨[], blockGasLimit, (queueMessages senv al height pending).outBySender⟩ [] :=
    ⟨rfl, Drains.refl _, hlimit.1, hlimit.2⟩
  obtain ⟨taken, hout, hfronts, hgas⟩ := selectLoop_spec henc hqueues
    ((queueMessages senv al height pending).outBySender.keys.insertionSort fun a b =>
      senv.bytesLess b a = false) blockMessageLimit hstart
  refine ⟨fun a => (queues a).map (·.msg), fun a => ?_, ?_, hgas⟩
  · exact EachAfter.map ((hqueues a).mono fun _ _ h => h.1)
  · rw [selectMessages, hout]
    exact hfronts.map fun _ => rfl

end Lotus
