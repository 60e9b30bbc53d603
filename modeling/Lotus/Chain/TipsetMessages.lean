import Lotus.Chain.ApplyBlocks
import Lotus.Chain.CheckMessages
import Lotus.Lib.Select

/-!
# The messages of a tipset

`MessagesForTipset` of `chain/store/store.go`.
-/

namespace Lotus

open StateTree List Function Act

/-- The variables of `MessagesForTipset`. -/
structure TipsetLoop where
  applied : Address → Option UInt64
  balances : Address → ℤ
  st : StateTree

def preloadAddr (init : InitActor) (a : Address) : Act TipsetLoop NodeErr Unit := fun s =>
  match s.applied a with
  | some _ => (.ok (), s)
  | none =>
    match getActor init a s.st with
    | (.error err, st) => (.error (.tree err), { s with st })
    | (.ok act, st) =>
      (.ok (), ⟨update s.applied a (some act.nonce),
        update s.balances a act.balance, st⟩)

/-- The test whether a message is taken, with its effect on the two maps. -/
def takeMsg (m : Message) : Act TipsetLoop NodeErr Bool := fun s =>
  if s.applied m.fromAddr ≠ some m.nonce then (.ok false, s)
  else
    let s' := { s with applied := update s.applied m.fromAddr (some (m.nonce + 1)) }
    if s.balances m.fromAddr < m.requiredFunds then (.ok false, s')
    else
      (.ok true, { s' with
        balances := update s.balances m.fromAddr
          (s.balances m.fromAddr - m.requiredFunds) })

def tipsetMessages (init : InitActor) : List ChainMsg → Act TipsetLoop NodeErr (List ChainMsg)
  | [] => pure []
  | cm :: cms => do
    preloadAddr init cm.vmMessage.fromAddr
    let taken ← takeMsg cm.vmMessage
    let out ← tipsetMessages init cms
    pure ((if taken then [cm] else []) ++ out)

variable (sm : StateManager)

def tipsetBlocks : List BlockHeader → Act TipsetLoop NodeErr (List ChainMsg)
  | [] => pure []
  | b :: bs => do
    let (bms, sms) ← ofExcept ((sm.cs.messagesForBlock b).mapError
      (.wrap "failed to get messages for block"))
    let out ← tipsetMessages sm.env.init
      (bms.map (·.toChainMsg sm.codec) ++ sms.map (·.toChainMsg sm.codec))
    let outs ← tipsetBlocks bs
    pure (out ++ outs)

def messagesForTipset (ts : TipSet) : Except NodeErr (List ChainMsg) :=
  (tipsetBlocks sm ts.blocks ⟨fun _ => none, fun _ => 0, loadStateTree ts.parentState⟩).1

/-! ## What is taken -/

def slot (cm : ChainMsg) : Address × UInt64 := (cm.vmMessage.fromAddr, cm.vmMessage.nonce)

def sender (cm : ChainMsg) : Address := cm.vmMessage.fromAddr

def gasFunds (cm : ChainMsg) : ℤ := cm.vmMessage.requiredFunds

def balanceIn (init : InitActor) (v : Address → Option Actor) (a : Address) : ℤ :=
  match actorIn init v a with
  | .ok act => act.balance
  | .error _ => 0

abbrev Selection := List (Address × UInt64) × (Address → ℤ)

/-- What the loop has recorded about an address with messages: `c` nonces from the account's on are
seen, at least as many as the current block has used. -/
structure Counted (init : InitActor) (v : Address → Option Actor) (sel : Selection)
    (done : List ChainMsg) (s : TipsetLoop) (addr : Address) (nonce : UInt64) (act : Actor)
    (c : ℕ) :
    Prop where
  actorIn_eq : actorIn init v addr = .ok act
  lt : c < 2 ^ 63
  nonce_eq : nonce = act.nonce + UInt64.ofNat c
  count_le : countFrom addr done ≤ c
  seen_iff : ∀ k, (addr, k) ∈ sel.1 ↔ ∃ i < c, k = act.nonce + UInt64.ofNat i
  balance_eq : s.balances addr = sel.2 addr

/-- The variables of the loop, after the messages `done` of the current block. -/
structure TipsetInv (init : InitActor) (v : Address → Option Actor) (sel : Selection)
    (done : List ChainMsg) (s : TipsetLoop) : Prop where
  coherent : Coherent init s.st
  view_eq : s.st.view = v
  absent : ∀ addr, s.applied addr = none →
    (∀ k, (addr, k) ∉ sel.1) ∧ countFrom addr done = 0 ∧ sel.2 addr = balanceIn init v addr
  present : ∀ addr nonce, s.applied addr = some nonce →
    ∃ act c, Counted init v sel done s addr nonce act c

variable {init : InitActor} {v : Address → Option Actor} {sel : Selection} {done : List ChainMsg}
  {s : TipsetLoop}

lemma TipsetInv.next (h : TipsetInv init v sel done s) : TipsetInv init v sel [] s where
  coherent := h.coherent
  view_eq := h.view_eq
  absent addr haddr := by
    obtain ⟨hunseen, -, hbalance⟩ := h.absent addr haddr
    exact ⟨hunseen, rfl, hbalance⟩
  present addr nonce haddr := by
    obtain ⟨act, c, hc⟩ := h.present addr nonce haddr
    exact ⟨act, c, hc.actorIn_eq, hc.lt, hc.nonce_eq, Nat.zero_le c, hc.seen_iff, hc.balance_eq⟩

variable {act : Actor}

lemma preloadAddr_spec (h : TipsetInv init v sel done s) {addr : Address}
    (hact : actorIn init v addr = .ok act) :
    ∃ s', preloadAddr init addr s = (.ok (), s') ∧ TipsetInv init v sel done s' ∧
      ∃ nonce c, s'.applied addr = some nonce ∧ Counted init v sel done s' addr nonce act c := by
  rcases happlied : s.applied addr with - | nonce
  · obtain ⟨hanswer, hcoherent⟩ := getActor_of_coherent h.coherent addr
    have hreads := getActor_reads init addr s.st
    rw [h.view_eq, hact] at hanswer
    rcases hget : getActor init addr s.st with ⟨r, st⟩
    rw [hget] at hanswer hcoherent hreads
    obtain rfl : r = .ok act := hanswer
    obtain ⟨hunseen, hcount, hbalance⟩ := h.absent addr happlied
    set s' : TipsetLoop := ⟨update s.applied addr (some act.nonce),
      update s.balances addr act.balance, st⟩
    have hcounted : Counted init v sel done s' addr act.nonce act 0 := by
      refine ⟨hact, by omega, (UInt64.add_zero _).symm, hcount.le, fun k => ?_, ?_⟩ <;>
        grind [balanceIn, update_self]
    refine ⟨s', ?_, ⟨hcoherent, hreads.view_eq.trans h.view_eq, ?_, ?_⟩, act.nonce, 0,
      update_self _ _ _, hcounted⟩
    · simp only [preloadAddr, happlied, hget]
      rfl
    · intro a ha
      by_cases haddr : a = addr
      · grind
      · have hsame : s'.applied a = s.applied a := update_of_ne haddr _ _
        exact h.absent a (hsame ▸ ha)
    · intro a n ha
      by_cases haddr : a = addr
      · grind
      · have hsame : s'.applied a = s.applied a := update_of_ne haddr _ _
        obtain ⟨act', c, hc⟩ := h.present a n (hsame ▸ ha)
        refine ⟨act', c, hc.actorIn_eq, hc.lt, hc.nonce_eq, hc.count_le, hc.seen_iff, ?_⟩
        rw [← hc.balance_eq]
        exact update_of_ne haddr _ _
  · refine ⟨s, by simp only [preloadAddr, happlied], h, nonce, ?_⟩
    obtain ⟨act', c, hc⟩ := h.present addr nonce happlied
    have hactor := hc.actorIn_eq
    rw [hact] at hactor
    cases hactor
    exact ⟨c, happlied, hc⟩

variable {m : ChainMsg} {nonce : UInt64}

lemma Counted.slot_mem_iff {c : ℕ} (hc : Counted init v sel done s (sender m) nonce act c)
    (hnonce : m.vmMessage.nonce = act.nonce + UInt64.ofNat (countFrom (sender m) done)) :
    slot m ∈ sel.1 ↔ countFrom (sender m) done < c := by
  have hlt := hc.lt
  have hle := hc.count_le
  have hseen := hc.seen_iff m.vmMessage.nonce
  rw [hnonce] at hseen
  rw [slot, hnonce, ← sender, hseen]
  constructor
  · grind [Word.add_ofNat_inj]
  · intro hcount
    exact ⟨_, hcount, rfl⟩

lemma TipsetInv.skip (h : TipsetInv init v sel done s) {c : ℕ}
    (happlied : s.applied (sender m) = some nonce)
    (hc : Counted init v sel done s (sender m) nonce act c) (hlt : countFrom (sender m) done < c) :
    TipsetInv init v sel (done ++ [m]) s where
  coherent := h.coherent
  view_eq := h.view_eq
  absent addr haddr := by
    have hne : addr ≠ sender m := by grind
    rw [countFrom_append, countFrom_singleton_of_ne hne]
    exact h.absent addr haddr
  present addr n haddr := by
    by_cases hne : addr = sender m
    · subst hne
      rw [happlied] at haddr
      cases haddr
      refine ⟨act, c, hc.actorIn_eq, hc.lt, hc.nonce_eq, ?_, hc.seen_iff, hc.balance_eq⟩
      rwa [countFrom_append, sender, countFrom_singleton_self]
    · obtain ⟨act', c', hc'⟩ := h.present addr n haddr
      refine ⟨act', c', hc'.actorIn_eq, hc'.lt, hc'.nonce_eq, ?_, hc'.seen_iff, hc'.balance_eq⟩
      rw [countFrom_append, countFrom_singleton_of_ne hne]
      exact hc'.count_le

lemma TipsetInv.advance (h : TipsetInv init v sel done s) {c : ℕ}
    (hc : Counted init v sel done s (sender m) m.vmMessage.nonce act c)
    (hcount : countFrom (sender m) done = c) (hlt : c + 1 < 2 ^ 63) {s' : TipsetLoop}
    {budget : Address → ℤ} (hst : s'.st = s.st)
    (happlied : s'.applied = update s.applied (sender m) (some (m.vmMessage.nonce + 1)))
    (hself : s'.balances (sender m) = budget (sender m))
    (hother : ∀ a, a ≠ sender m → s'.balances a = s.balances a ∧ budget a = sel.2 a) :
    TipsetInv init v (slot m :: sel.1, budget) (done ++ [m]) s' where
  coherent := by rw [hst]; exact h.coherent
  view_eq := by rw [hst]; exact h.view_eq
  absent addr haddr := by
    rw [happlied] at haddr
    have hne : addr ≠ sender m := by grind
    rw [update_of_ne hne] at haddr
    obtain ⟨hunseen, hzero, hbalance⟩ := h.absent addr haddr
    refine ⟨fun k hk => ?_, ?_, (hother addr hne).2.trans hbalance⟩
    · rcases mem_cons.mp hk with heq | hk
      · exact hne (congrArg Prod.fst heq)
      · exact hunseen k hk
    · rwa [countFrom_append, countFrom_singleton_of_ne hne]
  present addr n haddr := by
    rw [happlied] at haddr
    by_cases hne : addr = sender m
    · subst hne
      rw [update_self] at haddr
      cases haddr
      refine ⟨act, c + 1, hc.actorIn_eq, hlt, ?_, ?_, fun k => ?_, hself⟩
      · rw [hc.nonce_eq, UInt64.ofNat_add, UInt64.add_assoc]
        rfl
      · rw [countFrom_append, hcount, sender, countFrom_singleton_self]
      · -- the new slot is the one of the nonce that was expected
        rw [mem_cons, hc.seen_iff k]
        constructor
        · rintro (heq | ⟨i, hi, hk⟩)
          · exact ⟨c, Nat.lt_succ_self c, (congrArg Prod.snd heq).trans hc.nonce_eq⟩
          · exact ⟨i, Nat.lt_succ_of_lt hi, hk⟩
        · rintro ⟨i, hi, hk⟩
          rcases Nat.lt_succ_iff_lt_or_eq.mp hi with hi | rfl
          · exact Or.inr ⟨i, hi, hk⟩
          · refine Or.inl ?_
            rw [hk, ← hc.nonce_eq]
            rfl
    · rw [update_of_ne hne] at haddr
      obtain ⟨act', c', hc'⟩ := h.present addr n haddr
      obtain ⟨hbalance, hbudget⟩ := hother addr hne
      refine ⟨act', c', hc'.actorIn_eq, hc'.lt, hc'.nonce_eq, ?_, fun k => ?_, ?_⟩
      · rw [countFrom_append, countFrom_singleton_of_ne hne]
        exact hc'.count_le
      · rw [mem_cons, hc'.seen_iff k]
        refine ⟨fun hk => hk.resolve_left fun heq => hne (congrArg Prod.fst heq), Or.inr⟩
      · grind [hc'.balance_eq]

lemma takeMsg_spec (h : TipsetInv init v sel done s) {c : ℕ}
    (happlied : s.applied (sender m) = some nonce)
    (hc : Counted init v sel done s (sender m) nonce act c)
    (hnonce : m.vmMessage.nonce = act.nonce + UInt64.ofNat (countFrom (sender m) done))
    (hlen : done.length + 1 < 2 ^ 63) :
    ∃ s', takeMsg m.vmMessage s = (.ok (Select.takes slot sender gasFunds sel m), s') ∧
      TipsetInv init v (Select.step slot sender gasFunds sel m) (done ++ [m]) s' := by
  have hslot := hc.slot_mem_iff hnonce
  have hcountLen : countFrom (sender m) done ≤ done.length := countP_le_length
  have hclt := hc.lt
  unfold takeMsg Select.takes Select.step
  rcases Nat.lt_or_ge (countFrom (sender m) done) c with hlt | hge
  · -- another block is ahead
    have hne : s.applied m.vmMessage.fromAddr ≠ some m.vmMessage.nonce := by
      grind [sender, hc.nonce_eq, Word.add_ofNat_inj]
    rw [if_pos hne, if_pos (hslot.mpr hlt)]
    refine ⟨s, ?_, h.skip happlied hc hlt⟩
    simp [hslot.mpr hlt]
  · have hcount : countFrom (sender m) done = c := le_antisymm hc.count_le hge
    have hunseen : slot m ∉ sel.1 := fun hmem => by
      have := hslot.mp hmem
      omega
    have hsame : nonce = m.vmMessage.nonce := by rw [hc.nonce_eq, hnonce, hcount]
    subst hsame
    have hbalance : s.balances m.vmMessage.fromAddr = sel.2 (sender m) := hc.balance_eq
    have hnext : ¬s.applied m.vmMessage.fromAddr ≠ some m.vmMessage.nonce := not_not.mpr happlied
    rw [if_neg hnext, if_neg hunseen, hbalance]
    by_cases hpoor : sel.2 (sender m) < gasFunds m
    · have hcost : sel.2 (sender m) < m.vmMessage.requiredFunds := hpoor
      have hnot : ¬gasFunds m ≤ sel.2 (sender m) := by omega
      rw [if_pos hpoor]
      refine ⟨⟨update s.applied (sender m) (some (m.vmMessage.nonce + 1)), s.balances, s.st⟩,
        ?_, h.advance hc hcount (by omega) rfl rfl hbalance fun a _ => ⟨rfl, rfl⟩⟩
      simp only [if_pos hcost, hunseen, hnot]
      rfl
    · have hcost : ¬sel.2 (sender m) < m.vmMessage.requiredFunds := hpoor
      have hpaid : gasFunds m ≤ sel.2 (sender m) := by omega
      rw [if_neg hpoor]
      refine ⟨⟨update s.applied (sender m) (some (m.vmMessage.nonce + 1)),
        update s.balances (sender m) (sel.2 (sender m) - gasFunds m), s.st⟩, ?_,
        h.advance hc hcount (by omega) rfl rfl ?_ fun a ha => ⟨?_, ?_⟩⟩
      · simp only [if_neg hcost, hunseen, hpaid]
        rfl
      · simp
      · exact update_of_ne ha _ _
      · exact update_of_ne ha _ _

variable {pl : PricelistV0}

lemma tipsetMessages_spec {env : Env} (cms : List ChainMsg) (h : TipsetInv env.init v sel done s)
    (hchecked : ∀ pre m post, cms = pre ++ m :: post → ∃ act, InOrder env v pl (done ++ pre) m act)
    (hlen : done.length + cms.length < 2 ^ 63) :
    ∃ s', tipsetMessages env.init cms s =
        (.ok (Select.select slot sender gasFunds sel.1 sel.2 cms), s') ∧
      TipsetInv env.init v (cms.foldl (Select.step slot sender gasFunds) sel) (done ++ cms) s' := by
  induction cms generalizing sel done s with
  | nil =>
    refine ⟨s, rfl, ?_⟩
    rwa [append_nil]
  | cons m cms ih =>
    rw [length_cons] at hlen
    obtain ⟨act, hm⟩ := hchecked [] m cms rfl
    rw [append_nil] at hm
    obtain ⟨s1, hpreload, hinv1, nonce, c, happlied, hc⟩ := preloadAddr_spec h hm.actorIn_eq
    obtain ⟨s2, htake, hinv2⟩ := takeMsg_spec hinv1 happlied hc hm.nonce_eq (by omega)
    have hrest : ∀ pre m' post, cms = pre ++ m' :: post →
        ∃ act, InOrder env v pl ((done ++ [m]) ++ pre) m' act := by
      intro pre m' post hsplit
      have hm' := hchecked (m :: pre) m' post (by rw [hsplit]; rfl)
      rwa [append_cons] at hm'
    have hlen' : (done ++ [m]).length + cms.length < 2 ^ 63 := by grind
    obtain ⟨s3, hcms, hinv3⟩ := ih hinv2 hrest hlen'
    refine ⟨s3, ?_, ?_⟩
    · rw [tipsetMessages, bind_of_ok hpreload, bind_of_ok htake, bind_of_ok hcms,
        Select.select_cons]
      rfl
    · rwa [append_assoc] at hinv3

lemma tipsetBlocks_spec (fbs : List FullBlock) (h : TipsetInv sm.env.init v sel done s)
    (hstored : ∀ b ∈ fbs, sm.cs.messagesForBlock b.header = .ok (b.blsMessages, b.secpkMessages))
    (hchecked : ∀ b ∈ fbs, Checked sm.env v pl (b.chainMsgs sm.codec)) :
    (tipsetBlocks sm (fbs.map (·.header)) s).1 = .ok (Select.select slot sender gasFunds sel.1 sel.2
        (fbs.flatMap (·.chainMsgs sm.codec))) := by
  induction fbs generalizing sel done s with
  | nil => rfl
  | cons b fbs ih =>
    have hload : (sm.cs.messagesForBlock b.header).mapError
        (NodeErr.wrap "failed to get messages for block") =
          .ok (b.blsMessages, b.secpkMessages) := by
      rw [hstored b mem_cons_self]
      rfl
    have hlen := b.chainMsgs_length_lt sm.codec
    obtain ⟨s1, hmsgs, hinv⟩ := tipsetMessages_spec (b.chainMsgs sm.codec) h.next
      (hchecked b mem_cons_self) (by rw [length_nil]; omega)
    have hrest := ih hinv (fun c hc => hstored c (.tail _ hc)) fun c hc => hchecked c (.tail _ hc)
    have hblock : tipsetBlocks sm (b.header :: fbs.map (·.header)) s =
        (tipsetMessages sm.env.init (b.chainMsgs sm.codec) >>= fun out =>
          tipsetBlocks sm (fbs.map (·.header)) >>= fun outs => pure (out ++ outs)) s :=
      bind_of_ok (ofExcept_of_ok hload s)
    rw [map_cons, hblock, bind_of_ok hmsgs, bind_of_ok (Prod.ext hrest rfl),
      flatMap_cons, Select.select_append]
    rfl

lemma messagesForTipset_eq {ts : TipSet} {fbs : List FullBlock}
    (hheaders : fbs.map (·.header) = ts.blocks)
    (hstored : ∀ b ∈ fbs, sm.cs.messagesForBlock b.header = .ok (b.blsMessages, b.secpkMessages))
    (hchecked : ∀ b ∈ fbs,
      Checked sm.env (loadStateTree ts.parentState).view pl (b.chainMsgs sm.codec)) :
    messagesForTipset sm ts = .ok (Select.select slot sender gasFunds []
        (balanceIn sm.env.init (loadStateTree ts.parentState).view)
        (fbs.flatMap (·.chainMsgs sm.codec))) := by
  have hstart : TipsetInv sm.env.init (loadStateTree ts.parentState).view
      ([], balanceIn sm.env.init (loadStateTree ts.parentState).view) []
      ⟨fun _ => none, fun _ => 0, loadStateTree ts.parentState⟩ := by
    refine ⟨coherent_loadStateTree _ _, rfl, fun _ _ => ⟨fun _ => not_mem_nil, rfl, rfl⟩, ?_⟩
    intro _ _ hnone
    cases hnone
  rw [messagesForTipset, ← hheaders]
  exact tipsetBlocks_spec sm fbs hstart hstored hchecked

end Lotus
