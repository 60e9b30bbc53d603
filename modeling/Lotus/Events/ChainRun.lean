import Lotus.Events.Called
import Lotus.Events.HeightComplete

/-!
# Runs of the chain events

A run is about `hcEvents`, the cache and the chain: triggers are registered, and the head changes.
-/

namespace Lotus

open Act List

structure Events where
  height : HeightEvents
  hc : HcEvents

def Events.headChange (env : EventsEnv) (rounds : ℕ) (rev app : List TipSet) :
    Act Events NodeErr Unit :=
  if app = [] then fail (.new "events.headChange expected at least one applied tipset")
  else do
    (headChangeAt env.hashing rounds rev app).zoom height ({ · with height := · })
    let tsc := (← get).height.tsc
    (HcEvents.processHeadChangeEvent env tsc rev app).zoom hc ({ · with hc := · })

/-- What `headChangeAt` does to the cache. -/
def moveCache (hashing : Hashing) (rev app : List TipSet) (tsc : TipSetCache) :
    Except NodeErr TipSetCache := do
  let tsc ← rev.foldlM (fun tsc ts => tsc.revert hashing ts) tsc
  app.foldlM (fun tsc ts => tsc.add ts) tsc

/-- What happens to `hcEvents`. -/
inductive ChainEvent where
  | called (check : Except NodeErr (Bool × Bool)) (confidence timeout : Int64)
      (matchFn : MsgMatchFunc)
  | stateChanged (check : Except NodeErr (Bool × Bool)) (confidence timeout : Int64)
      (matchFn : StateMatchFunc)
  | headChange (rev app : List TipSet)

def ChainEvent.reverted : ChainEvent → List TipSet
  | .called .. => []
  | .stateChanged .. => []
  | .headChange rev _ => rev

def ChainEvent.applied : ChainEvent → List TipSet
  | .called .. => []
  | .stateChanged .. => []
  | .headChange _ app => app

/-- A head change from a chain: `rev` are its first tipsets, and `app` is a branch on the fork below
them. -/
def IsHeadChange (chain rev app : List TipSet) : Prop :=
  app ≠ [] ∧ chain.take rev.length = rev ∧ ∃ fork ∈ (chain.drop rev.length).head?,
    (fork :: app).IsChain fun a b => a.epoch < b.epoch
deriving Decidable

/-- `hcEvents` with the cache, and the chain that they follow. -/
structure EventsRun where
  tsc : TipSetCache
  events : HcEvents
  chain : List TipSet

def EventsRun.step (env : EventsEnv) (s : EventsRun) : ChainEvent → Option EventsRun
  | .called check confidence timeout matchFn =>
    some { s with events :=
      (HcEvents.registerCalled s.tsc check confidence timeout matchFn s.events).2 }
  | .stateChanged check confidence timeout matchFn =>
    some { s with events :=
      (HcEvents.registerStateChanged s.tsc check confidence timeout matchFn s.events).2 }
  | .headChange rev app =>
    if IsHeadChange s.chain rev app then
      (moveCache env.hashing rev app s.tsc).toOption.map fun tsc =>
        ⟨tsc, (HcEvents.processHeadChangeEvent env tsc rev app s.events).2,
          app.reverse ++ s.chain.drop rev.length⟩
    else none

def EventsRun.processes (env : EventsEnv) (s : EventsRun) : ChainEvent → Bool
  | .called .. => true
  | .stateChanged .. => true
  | .headChange rev app => (moveCache env.hashing rev app s.tsc).toOption.all fun tsc =>
    (HcEvents.processHeadChangeEvent env tsc rev app s.events).1.isOk

section

variable {env : EventsEnv} {hashing : Hashing} {rounds : ℕ} {rev app chain : List TipSet}

variable {tsc : TipSetCache}

lemma Represents.reverts (hrep : Represents tsc (rev ++ chain)) (hashing : Hashing) :
    ∃ tsc', rev.foldlM (fun tsc ts => tsc.revert hashing ts) tsc = .ok tsc' ∧
      Represents tsc' chain ∧ tsc'.cache.length = tsc.cache.length ∧
      tsc'.storage = tsc.storage := by
  induction rev generalizing tsc with
  | nil => exact ⟨tsc, rfl, hrep, rfl, rfl⟩
  | cons ts rev ih =>
    obtain ⟨tsc1, hrevert, hrep1, -⟩ := hrep.revert hashing
    obtain ⟨tsc', hrest, hrep', hlength, hstorage⟩ := ih hrep1
    refine ⟨tsc', ?_, hrep', hlength.trans (TipSetCache.revert_length hrevert),
      hstorage.trans (TipSetCache.revert_storage hrevert)⟩
    rwa [foldlM_cons, hrevert]

lemma Represents.adds (hrep : Represents tsc chain) (hd : Descending (app.reverse ++ chain)) :
    ∃ tsc', app.foldlM (fun tsc ts => tsc.add ts) tsc = .ok tsc' ∧
      Represents tsc' (app.reverse ++ chain) ∧ (app ≠ [] ∨ 0 < tsc.len → 0 < tsc'.len) ∧
      tsc'.cache.length = tsc.cache.length ∧ tsc'.storage = tsc.storage := by
  induction app generalizing tsc chain with
  | nil => exact ⟨tsc, rfl, hrep, fun h => h.resolve_left fun h => h rfl, rfl, rfl⟩
  | cons ts app ih =>
    rw [reverse_cons, append_assoc] at hd ⊢
    have hts := (pairwise_cons.mp (pairwise_append.mp hd).2.1).1
    obtain ⟨tsc1, hadd, hlen1, hrep1⟩ := hrep.add hts
    obtain ⟨tsc', hrest, hrep', hlen', hlength, hstorage⟩ := ih hrep1 hd
    refine ⟨tsc', ?_, hrep', fun _ => hlen' (.inr hlen1),
      hlength.trans (TipSetCache.add_length hadd), hstorage.trans (TipSetCache.add_storage hadd)⟩
    rwa [foldlM_cons, hadd]

/-- The chain below the tipsets that a head change reverts. -/
lemma IsHeadChange.exists_fork (hhead : IsHeadChange chain rev app) (hd : Descending chain) :
    ∃ fork rest, chain = rev ++ fork :: rest ∧ chain.drop rev.length = fork :: rest ∧
      Descending (app.reverse ++ fork :: rest) := by
  obtain ⟨-, htake, fork, hfork, hbranch⟩ := hhead
  obtain ⟨rest, hdrop⟩ := head?_eq_some_iff.mp hfork
  have hsplit := take_append_drop rev.length chain
  rw [htake, hdrop] at hsplit
  refine ⟨fork, rest, hsplit.symm, hdrop, pairwise_append.mpr ⟨?_, ?_, fun t ht t' ht' => ?_⟩⟩
  · simp_all [isChain_iff_pairwise, pairwise_reverse, pairwise_cons]
  · rw [← hsplit] at hd
    exact (pairwise_append.mp hd).2.1
  · have hrising := (isChain_iff_pairwise (R := fun a b : TipSet => a.epoch < b.epoch)).mp hbranch
    rw [← hsplit] at hd
    have hle := epoch_le_head (pairwise_append.mp hd).2.1 ht'
    exact hle.trans_lt ((pairwise_cons.mp hrising).1 t (mem_reverse.mp ht))

structure EventsRun.Sound (s : EventsRun) : Prop where
  represents : Represents s.tsc s.chain
  len_pos : 0 < s.tsc.len
  cap_lt : s.tsc.cache.length < 2 ^ 63
  nonneg : ∀ ts ∈ s.chain, 0 ≤ ts.epoch

variable {s : EventsRun}

lemma EventsRun.Sound.moveCache (hs : s.Sound) (hashing : Hashing)
    (hhead : IsHeadChange s.chain rev app) :
    ∃ tsc', moveCache hashing rev app s.tsc = .ok tsc' ∧
      Represents tsc' (app.reverse ++ s.chain.drop rev.length) ∧ 0 < tsc'.len ∧
      tsc'.cache.length = s.tsc.cache.length ∧ tsc'.storage = s.tsc.storage := by
  obtain ⟨fork, rest, hchain, hdrop, hd⟩ := hhead.exists_fork hs.represents.descending
  have hrep := hs.represents
  rw [hchain] at hrep
  obtain ⟨tsc1, hrev, hrep1, hlength1, hstorage1⟩ := hrep.reverts hashing
  obtain ⟨tsc', happ, hrep', hlen', hlength', hstorage'⟩ := hrep1.adds hd
  refine ⟨tsc', ?_, hdrop ▸ hrep', hlen' (.inl hhead.1), hlength'.trans hlength1,
    hstorage'.trans hstorage1⟩
  rwa [Lotus.moveCache, hrev]

lemma EventsRun.Sound.step_isSome (hs : s.Sound) (hhead : IsHeadChange s.chain rev app) :
    (s.step env (.headChange rev app)).isSome = true := by
  obtain ⟨tsc', hmove, -⟩ := hs.moveCache env.hashing hhead
  rw [EventsRun.step, if_pos hhead, hmove]
  rfl

variable {s' : EventsRun}

/-- What a head change does. -/
lemma EventsRun.step_headChange (hstep : s.step env (.headChange rev app) = some s') :
    IsHeadChange s.chain rev app ∧ moveCache env.hashing rev app s.tsc = .ok s'.tsc ∧
      s'.events = (HcEvents.processHeadChangeEvent env s'.tsc rev app s.events).2 ∧
      s'.chain = app.reverse ++ s.chain.drop rev.length := by
  rw [EventsRun.step] at hstep
  split_ifs at hstep with hhead
  obtain ⟨tsc', hmove, rfl⟩ := Option.map_eq_some_iff.mp hstep
  refine ⟨hhead, ?_, rfl, rfl⟩
  rcases hresult : Lotus.moveCache env.hashing rev app s.tsc with err | tsc''
  · rw [hresult] at hmove
    cases hmove
  · rw [hresult] at hmove
    cases hmove
    rfl

lemma EventsRun.processed_eq (hstep : s.step env (.headChange rev app) = some s')
    (hprocessed : s.processes env (.headChange rev app) = true) :
    HcEvents.processHeadChangeEvent env s'.tsc rev app s.events = (.ok (), s'.events) := by
  obtain ⟨-, hmove, hevents, -⟩ := EventsRun.step_headChange hstep
  have hok : (HcEvents.processHeadChangeEvent env s'.tsc rev app s.events).1.isOk = true := by
    rw [EventsRun.processes, hmove] at hprocessed
    exact hprocessed
  rcases hresult : HcEvents.processHeadChangeEvent env s'.tsc rev app s.events with ⟨err | ⟨⟩, e'⟩
  · rw [hresult] at hok
    cases hok
  · rw [hevents, hresult]

variable {ev : ChainEvent}

/-- A step is a head change, or a registration that adds a trigger unless its check fails. -/
lemma EventsRun.step_cases (hstep : s.step env ev = some s') :
    (∃ rev app, ev = .headChange rev app) ∨
      (ev.reverted = [] ∧ ev.applied = []) ∧ s'.tsc = s.tsc ∧ s'.chain = s.chain ∧
        (s'.events = s.events ∨ ∃ kind confidence timeout disabled,
          HcEvents.Registers kind confidence timeout disabled s.events s'.events) := by
  cases ev with
  | called check confidence timeout matchFn =>
    cases hstep
    refine .inr ⟨⟨rfl, rfl⟩, rfl, rfl, ?_⟩
    refine (HcEvents.registerCalled_cases check confidence timeout matchFn s.events).imp
      And.right ?_
    rintro ⟨done, more, -, hr⟩
    exact ⟨_, _, _, _, hr⟩
  | stateChanged check confidence timeout matchFn =>
    cases hstep
    refine .inr ⟨⟨rfl, rfl⟩, rfl, rfl, ?_⟩
    refine (HcEvents.registerStateChanged_cases check confidence timeout matchFn s.events).imp
      And.right ?_
    rintro ⟨done, more, -, hr⟩
    exact ⟨_, _, _, _, hr⟩
  | headChange rev app => exact .inl ⟨rev, app, rfl⟩

lemma EventsRun.Sound.step (hs : s.Sound) (hstep : s.step env ev = some s') : s'.Sound := by
  rcases EventsRun.step_cases hstep with ⟨rev, app, rfl⟩ | ⟨-, htsc, hchain, -⟩
  · obtain ⟨hhead, hmove, -, hchain⟩ := EventsRun.step_headChange hstep
    obtain ⟨tsc', hmove', hrep, hlen, hlength, -⟩ := hs.moveCache env.hashing hhead
    cases hmove'.symm.trans hmove
    refine ⟨hchain ▸ hrep, hlen, hlength.trans_lt hs.cap_lt, fun ts hts => ?_⟩
    obtain ⟨fork, rest, hold, hdrop, hd⟩ := hhead.exists_fork hs.represents.descending
    rw [hchain, hdrop] at hts
    have hbelow : ∀ t ∈ fork :: rest, 0 ≤ t.epoch := fun t ht =>
      hs.nonneg t (hold ▸ mem_append_right rev ht)
    rcases mem_append.mp hts with hts | hts
    · have hlt := (pairwise_append.mp hd).2.2 ts hts fork (.head _)
      have hfork := hbelow fork (.head _)
      omega
    · exact hbelow ts hts
  · exact ⟨htsc ▸ hchain ▸ hs.represents, htsc ▸ hs.len_pos, htsc ▸ hs.cap_lt, hchain ▸ hs.nonneg⟩

variable {e e' : HcEvents}

lemma HcEvents.reverts_lastTs (hrun : rev.forM HcEvents.revertTipSet e = (.ok (), e')) :
    e'.lastTs = rev.getLast?.getD e.lastTs := by
  induction rev generalizing e with
  | nil =>
    cases hrun
    rfl
  | cons ts rev ih =>
    obtain ⟨_, e1, hrun1, hrun⟩ := bind_eq_ok hrun
    obtain ⟨_, e2, -, hset⟩ := bind_eq_ok hrun1
    obtain rfl := (Prod.mk.inj hset).2
    rw [ih hrun, getLast?_cons]
    rfl

lemma HcEvents.applyTipSet_lastTs {ts : TipSet}
    (hrun : HcEvents.applyTipSet env tsc ts e = (.ok (), e')) : e'.lastTs = ts := by
  obtain ⟨_, e1, -, hrun⟩ := bind_eq_ok hrun
  obtain ⟨_, e2, -, hrun⟩ := bind_eq_ok hrun
  obtain ⟨_, e3, -, hrun⟩ := bind_eq_ok hrun
  obtain ⟨_, e4, -, hrun⟩ := bind_eq_ok hrun
  split_ifs at hrun
  · cases hrun
  · obtain rfl := (Prod.mk.inj hrun).2
    rfl

lemma HcEvents.applies_lastTs (hrun : app.forM (HcEvents.applyTipSet env tsc) e = (.ok (), e')) :
    e'.lastTs = app.getLast?.getD e.lastTs := by
  induction app generalizing e with
  | nil =>
    cases hrun
    rfl
  | cons ts app ih =>
    obtain ⟨_, e1, hrun1, hrun⟩ := bind_eq_ok hrun
    rw [ih hrun, HcEvents.applyTipSet_lastTs hrun1, getLast?_cons]
    rfl

/-- After a head change that was processed, the last tipset is the head. -/
lemma EventsRun.head_of_processed (hlast : s.chain.head? = some s.events.lastTs)
    (hprocessed : s.processes env ev = true) (hstep : s.step env ev = some s') :
    s'.chain.head? = some s'.events.lastTs := by
  rcases EventsRun.step_cases hstep with
    ⟨rev, app, rfl⟩ | ⟨-, -, hchain, heq | ⟨_, _, _, _, hr⟩⟩
  · obtain ⟨hhead, -, -, hchain⟩ := EventsRun.step_headChange hstep
    obtain ⟨_, e1, -, happ⟩ := bind_eq_ok (EventsRun.processed_eq hstep hprocessed)
    obtain ⟨head, hgetLast⟩ := Option.isSome_iff_exists.mp (getLast?_isSome.mpr hhead.1)
    rw [HcEvents.applies_lastTs happ, hchain, head?_append, head?_reverse, hgetLast]
    rfl
  · rwa [hchain, heq]
  · rwa [hchain, hr.lastTs]

structure HcEvents.Wired (e : HcEvents) : Prop where
  lt_ctr : ∀ {tid}, (e.confidenceOf tid).isSome = true → tid < e.ctr
  message : ∀ {tid}, tid ∈ e.messageMatchers → (e.confidenceOf tid).isSome = true
  state : ∀ {tid}, tid ∈ e.stateMatchers → (e.confidenceOf tid).isSome = true
  disjoint : ∀ {tid}, tid ∈ e.messageMatchers → tid ∉ e.stateMatchers
  counted : ∀ {height tid}, (e.timeoutCount height tid).isSome = true →
    (e.confidenceOf tid).isSome = true
  called : ∀ {call}, call ∈ e.log → (e.confidenceOf call.trigger).isSome = true

lemma HcEvents.Wired.frame (hw : e.Wired) (hf : Frame e e') : e'.Wired := by
  refine ⟨fun h => ?_, fun h => ?_, fun h => ?_, fun h => ?_, fun h => ?_, fun h => ?_⟩
  · rw [hf.confidenceOf] at h
    rw [hf.ctr]
    exact hw.lt_ctr h
  · rw [hf.messageMatchers] at h
    rw [hf.confidenceOf]
    exact hw.message h
  · rw [hf.stateMatchers] at h
    rw [hf.confidenceOf]
    exact hw.state h
  · rw [hf.messageMatchers] at h
    rw [hf.stateMatchers]
    exact hw.disjoint h
  · rw [hf.confidenceOf]
    exact (hf.counted h).elim hw.counted id
  · rw [hf.confidenceOf]
    exact (hf.called h).elim hw.called id

lemma HcEvents.Wired.registers (hw : e.Wired) {kind : TriggerKind} {confidence timeout : Int64}
    {disabled : Bool} (hr : Registers kind confidence timeout disabled e e') : e'.Wired := by
  have hconf := hr.confidenceOf
  have hold : ∀ {tid}, (e.confidenceOf tid).isSome = true →
      (e'.confidenceOf tid).isSome = true := by
    intro tid h
    rwa [hconf, if_neg (hw.lt_ctr h).ne]
  have hnew : (e'.confidenceOf e.ctr).isSome = true := by grind
  have hfresh : e.ctr ∉ e.messageMatchers ∧ e.ctr ∉ e.stateMatchers :=
    ⟨fun h => (hw.lt_ctr (hw.message h)).ne rfl, fun h => (hw.lt_ctr (hw.state h)).ne rfl⟩
  have hlt : ∀ {tid}, (e'.confidenceOf tid).isSome = true → tid < e'.ctr := by
    intro tid h
    rw [hr.ctr]
    rw [hconf] at h
    split_ifs at h with htid
    · omega
    · have := hw.lt_ctr h
      omega
  have hcounted : ∀ {height tid}, (e'.timeoutCount height tid).isSome = true →
      (e'.confidenceOf tid).isSome = true := by
    intro height tid h
    rw [hr.timeoutCount] at h
    split_ifs at h with hkey
    · rwa [hkey.2.2]
    · exact hold (hw.counted h)
  have hcalled : ∀ {call}, call ∈ e'.log → (e'.confidenceOf call.trigger).isSome = true :=
    fun h => hold (hw.called (hr.log ▸ h))
  rcases hr.matchers with ⟨hmsg, hst⟩ | ⟨hmsg, hst⟩
  · refine ⟨hlt, fun h => ?_, fun h => ?_, fun h => ?_, hcounted, hcalled⟩
    · rcases (hmsg _).mp h with h | rfl <;> simp_all [hw.message]
    · grind [hw.state]
    · rw [hst]
      rcases (hmsg _).mp h with h | rfl
      · exact hw.disjoint h
      · exact hfresh.2
  · refine ⟨hlt, fun h => ?_, fun h => ?_, fun h h' => ?_, hcounted, hcalled⟩
    · grind [hw.message]
    · rcases (hst _).mp h with h | rfl <;> grind [hw.state]
    · rw [hmsg] at h
      rcases (hst _).mp h' with h' | rfl <;> simp_all [hw.disjoint]

def EventsRun.IsWired (s : EventsRun) : Prop := s.events.Wired

lemma EventsRun.IsWired.step (hw : s.IsWired) (hstep : s.step env ev = some s') : s'.IsWired := by
  unfold EventsRun.IsWired at hw ⊢
  rcases EventsRun.step_cases hstep with ⟨rev, app, rfl⟩ | ⟨-, -, -, heq | ⟨_, _, _, _, hr⟩⟩
  · obtain ⟨-, -, hevents, -⟩ := EventsRun.step_headChange hstep
    rw [hevents]
    exact hw.frame (HcEvents.processHeadChangeEvent_frame rev app s.events)
  · rwa [heq]
  · exact hw.registers hr

lemma newHCEvents_wired (head : TipSet) : (newHCEvents head).Wired where
  lt_ctr h := by cases h
  message h := absurd h (AList.notMem_empty _)
  state h := absurd h (AList.notMem_empty _)
  disjoint h := absurd h (AList.notMem_empty _)
  counted h := by cases h
  called h := absurd h not_mem_nil

end

def sampleCall (nonce : UInt64) : Message := ⟨0, .id 101, .id 100, nonce, some 1, none, 0, 0, []⟩

def sampleEventsEnv (msgs : List Message) (answer : Except NodeErr Bool) : EventsEnv where
  hashing := sampleHashing
  codec := sampleCodec
  chainGetTipSet _ := .ok (sampleEpoch 5)
  chainGetBlockMessages _ := .ok (msgs, [])
  stateGetReceipt _ _ := .ok ⟨0, [], 0⟩
  answer _ := answer
  idOrder _ ids := ids
  heightOrder _ heights := heights
  idOrder_perm _ _ := .rfl
  heightOrder_perm _ _ := .rfl

def sampleEvents : EventsRun :=
  ⟨(newTSCache 10 fun _ _ => .ok none).push (some (sampleEpoch 5)), newHCEvents (sampleEpoch 5),
    [sampleEpoch 5]⟩

lemma sampleEvents_sound : sampleEvents.Sound :=
  ⟨sampleStart_represents _, by decide, by decide, by decide⟩

def sampleMatch (once : Bool) (nonce : UInt64) : MsgMatchFunc := fun msg =>
  .ok (once, msg.nonce = nonce)

end Lotus
