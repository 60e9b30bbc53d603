import Lotus.Events.Messages

/-!
# Delivery

The events that wait for a height are delivered when the loop over the heights comes to it.
-/

namespace Lotus

open Act List

namespace HcEvents

variable {env : EventsEnv} {tsc : TipSetCache} {e e' : HcEvents} {T h : Int64} {i : ℕ}
  {ev : QueuedEvent} {ts : TipSet} {B B' : ℤ → Prop} {H : ℤ}

/-! ## Delivering what is queued -/

structure Settles (e e' : HcEvents) : Prop extends Still e e' where
  event : ∀ {T h : Int64} {i : ℕ} {ev' : QueuedEvent}, (e'.eventsAt T h)[i]? = some ev' →
    ∃ ev : QueuedEvent, (e.eventsAt T h)[i]? = some ev ∧ ev.trigger = ev'.trigger ∧
      ev.prevH = ev'.prevH ∧ ev.origin = ev'.origin ∧ (ev.called = true → ev'.called = true)

instance : Std.Refl Settles :=
  ⟨fun e => ⟨Std.Refl.refl e, fun {_ _ _ ev} h => ⟨ev, h, rfl, rfl, rfl, id⟩⟩⟩

instance : IsTrans HcEvents Settles where
  trans _ _ _ h h' := by
    refine ⟨IsTrans.trans _ _ _ h.toStill h'.toStill, fun hev => ?_⟩
    obtain ⟨ev1, hev1, htrigger1, hprev1, horigin1, hcalled1⟩ := h'.event hev
    obtain ⟨ev, hev, htrigger, hprev, horigin, hcalled⟩ := h.event hev1
    exact ⟨ev, hev, htrigger.trans htrigger1, hprev.trans hprev1, horigin.trans horigin1,
      fun h => hcalled1 (hcalled h)⟩

lemma Still.settles (hs : Still e e') (hqueue : e'.confQueue = e.confQueue) : Settles e e' := by
  refine ⟨hs, fun {T h i ev} hev => ⟨ev, ?_, rfl, rfl, rfl, id⟩⟩
  rwa [eventsAt_congr hqueue] at hev

lemma applyEvent_settles (T h : Int64) (triggerTs : Option TipSet) (i : ℕ) :
    Keeps Settles (applyEvent env tsc T h triggerTs i) := fun e => by
  have hstill := @applyEvent_still env tsc T h triggerTs i e
  rcases @applyEvent_cases env tsc T h triggerTs i e with heq |
    ⟨ev, trigger, call, hev, hcalled, htrigger, henabled, -, ⟨err, -, heq⟩ | ⟨more, -, heq⟩⟩
  · rw [heq]
    exact Std.Refl.refl e
  · rw [heq] at hstill ⊢
    exact hstill.settles rfl
  · rw [heq] at hstill ⊢
    refine ⟨hstill, fun {T' h' j ev'} hev' => ?_⟩
    rw [eventsAt_deliver, eventsAt_congr (e := e) (by rfl)] at hev'
    grind

lemma applyTimeout_settles (ts : TipSet) (tid : ℕ) :
    Keeps Settles (applyTimeout env tsc ts tid) := fun e => by
  have hstill := @applyTimeout_still env tsc ts tid e
  rcases @applyTimeout_cases env tsc ts tid e with heq |
    ⟨trigger, call, -, htrigger, henabled, -, ⟨err, -, heq⟩ | ⟨more, -, heq⟩⟩
  · rw [heq]
    exact Std.Refl.refl e
  all_goals
    rw [heq] at hstill ⊢
    exact hstill.settles rfl

lemma applyOrigin_settles (T h : Int64) : Keeps Settles (applyOrigin env tsc T h) :=
  Keeps.bind (cached_keeps h) fun triggerTs => Keeps.bind Keeps.get fun _ =>
    Keeps.forM (applyEvent_settles T h triggerTs.toOption.join) _

lemma applyTimeouts_settles (ts : TipSet) : Keeps Settles (applyTimeouts env tsc ts) :=
  applyTimeouts_keeps (fun e n => (still_ranges e n).settles rfl) (applyTimeout_settles ts)

def SettledAt (e : HcEvents) (T h : Int64) (i : ℕ) : Prop :=
  ∀ ev, (e.eventsAt T h)[i]? = some ev → ev.called = true ∨ e.enabled ev.trigger = false

lemma SettledAt.settles (hs : e.SettledAt T h i) (h' : Settles e e') : e'.SettledAt T h i := by
  intro ev' hev'
  obtain ⟨ev, hev, htrigger, -, -, hcalled⟩ := h'.event hev'
  refine (hs ev hev).imp hcalled fun hdisabled => Bool.eq_false_iff.mpr fun henabled => ?_
  rw [htrigger, h'.enabled henabled] at hdisabled
  cases hdisabled

/-- The events that wait are due at heights with `B`, and their previous tipsets are not higher than
this height or than `H`. -/
structure Pending (B : ℤ → Prop) (H : ℤ) (e : HcEvents) : Prop where
  trigger : ∀ {T h ev}, ev ∈ e.eventsAt T h → ∃ conf, e.confidenceOf ev.trigger = some conf ∧
    T = ev.origin.height + conf ∧ 0 ≤ ev.origin.epoch
  waits : ∀ {T h ev conf}, ev ∈ e.eventsAt T h → e.confidenceOf ev.trigger = some conf →
    ev.called = false → e.enabled ev.trigger = true →
      B (ev.origin.epoch + conf.toInt) ∧ (ev.prevH = noHeight ∨ ev.prevH.toInt ≤ H ∨
        ev.prevH.toInt ≤ ev.origin.epoch + conf.toInt)

lemma Pending.mono (hp : Pending B H e) (hB : ∀ d, B d → B' d) : Pending B' H e :=
  ⟨hp.trigger, fun hev hconf hcalled henabled =>
    (hp.waits hev hconf hcalled henabled).imp_left (hB _)⟩

lemma Pending.subset (hp : Pending B H e)
    (hevents : ∀ {T h ev}, ev ∈ e'.eventsAt T h → ev ∈ e.eventsAt T h)
    (htriggers : ∀ {T h ev}, ev ∈ e.eventsAt T h →
      e'.triggers ev.trigger = e.triggers ev.trigger) : Pending B H e' := by
  refine ⟨fun hev => ?_, fun hev hconf hcalled henabled => ?_⟩
  · rw [confidenceOf, htriggers (hevents hev)]
    exact hp.trigger (hevents hev)
  · unfold confidenceOf at hconf
    unfold enabled at henabled
    rw [htriggers (hevents hev)] at hconf henabled
    exact hp.waits (hevents hev) hconf hcalled henabled

lemma Pending.congr (hp : Pending B H e) (hqueue : e'.confQueue = e.confQueue)
    (htriggers : e'.triggers = e.triggers) : Pending B H e' := by
  refine hp.subset (fun hev => ?_) fun _ => by rw [htriggers]
  rwa [eventsAt_congr hqueue] at hev

lemma Pending.settles (hp : Pending B H e) (hs : Settles e e') : Pending B H e' := by
  refine ⟨fun hev' => ?_, fun hev' hconf hcalled henabled => ?_⟩
  all_goals
    obtain ⟨i, hi⟩ := getElem?_of_mem hev'
    obtain ⟨ev, hev, htrigger, hprev, horigin, hcalled'⟩ := hs.event hi
    have hmem := mem_of_getElem? hev
  · rw [hs.confidenceOf, ← htrigger, ← horigin]
    exact hp.trigger hmem
  · rw [hs.confidenceOf, ← htrigger] at hconf
    grind [hp.waits, hs.enabled]

structure HandlersAnswer (env : EventsEnv) : Prop where
  answer : ∀ log, (env.answer log).isOk = true
  receipt : ∀ msg key, (env.stateGetReceipt (some msg) key).isOk = true

lemma HandlersAnswer.handle (henv : HandlersAnswer env) {tid : ℕ} {kind : TriggerKind}
    {origin prevTs ts : Option TipSet} {data : EventData} {curH : Int64} {r : Except NodeErr Bool}
    (hrun : handle env tid kind origin (some data) prevTs ts curH e = (.ok r, e')) :
    (∃ more, r = .ok more) ∧ e'.confQueue = e.confQueue := by
  have hinvoke : ∀ call, invoke env call e = (.ok r, e') →
      (∃ more, r = .ok more) ∧ e'.confQueue = e.confQueue := by
    intro call hcall
    obtain ⟨hanswer, rfl⟩ := Prod.mk.inj hcall
    cases Except.ok.inj hanswer
    exact ⟨exists_of_isOk (henv.answer _), rfl⟩
  rcases kind with _ | _
  · rcases data with msg | change
    · have hmessage : handleMessage env tid origin (some msg) ts curH e = (.ok r, e') := hrun
      obtain ⟨receipt, hreceipt⟩ :=
        exists_of_isOk (henv.receipt msg (ts.elim [] (·.cids env.hashing)))
      rw [handleMessage, hreceipt] at hmessage
      exact hinvoke _ hmessage
    · cases hrun
  · exact hinvoke _ hrun

def Looks (env : EventsEnv) (tsc : TipSetCache) (H : ℤ) : Prop :=
  ∀ height : Int64, height.toInt ≤ H → (tsc.get env.hashing height).isOk = true

lemma Pending.prevTipSet_ok (hp : Pending B H e) (hlooks : Looks env tsc H)
    (hT : 0 ≤ T.toInt ∧ T.toInt ≤ H) (hev : ev ∈ e.eventsAt T h) (hcalled : ev.called = false)
    (henabled : e.enabled ev.trigger = true) :
    ∃ prevTs, prevTipSet env tsc ev e = (.ok (.ok prevTs), e) := by
  obtain ⟨conf, hconf, hat, hnonneg⟩ := hp.trigger hev
  have hsum := Word.toInt_add_of_nonneg hnonneg (y := conf) (by rw [← hat]; exact hT.1)
  rw [← hat] at hsum
  rw [prevTipSet]
  split_ifs with hno
  · exact ⟨none, rfl⟩
  · have hprev := (hp.waits hev hconf hcalled henabled).2.resolve_left hno
    obtain ⟨prevTs, hget⟩ := exists_of_isOk
      (hlooks ev.prevH (by unfold TipSet.epoch at hprev; omega))
    rw [cached, hget]
    exact ⟨prevTs, rfl⟩

lemma Pending.applyEvent (hp : Pending B H e) (henv : HandlersAnswer env)
    (hlooks : Looks env tsc H) (hT : 0 ≤ T.toInt ∧ T.toInt ≤ H) {triggerTs : Option TipSet}
    (hrun : applyEvent env tsc T h triggerTs i e = (.ok (), e')) : e'.SettledAt T h i := by
  intro ev' hev'
  by_contra hnot
  obtain ⟨hcalled', henabled'⟩ : ev'.called = false ∧ e'.enabled ev'.trigger = true := by
    simpa using hnot
  -- The event waited before its turn, and its trigger was enabled.
  have hs := (applyEvent_settles T h triggerTs i).of_run hrun
  obtain ⟨ev, hev, hsame, -, -, hcalled⟩ := hs.event hev'
  have hcalled : ev.called = false := by grind
  have henabled : e.enabled ev.trigger = true := hs.enabled (hsame ▸ henabled')
  obtain ⟨trigger, htrigger, hdisabled⟩ : ∃ trigger, e.triggers ev.trigger = some trigger ∧
      trigger.disabled = false := by
    rcases htrigger : e.triggers ev.trigger with _ | trigger <;> simp_all [enabled]
  obtain ⟨prevTs, hprev⟩ := hp.prevTipSet_ok hlooks hT (mem_of_getElem? hev) hcalled henabled
  simp only [HcEvents.applyEvent, bind_of_ok (get_apply e), hev, hcalled, htrigger, hdisabled,
    bind_of_ok hprev, Bool.false_eq_true, if_false] at hrun
  obtain ⟨r, e1, hhandle, hrun⟩ := bind_eq_ok hrun
  obtain ⟨⟨more, rfl⟩, hqueue⟩ := henv.handle hhandle
  obtain rfl : e1.deliver T h i ev trigger more = e' := (Prod.mk.inj hrun).2
  grind [eventsAt_deliver, eventsAt_congr]

lemma Pending.applyWithConfidence_settled (hp : Pending B H e) (henv : HandlersAnswer env)
    (hlooks : Looks env tsc H) (hT : 0 ≤ T.toInt ∧ T.toInt ≤ H)
    (hrun : applyWithConfidence env tsc T e = (.ok (), e')) (h : Int64) (i : ℕ) :
    e'.SettledAt T h i := by
  rw [applyWithConfidence, bind_of_ok (get_apply e), bind_of_ok (rangeHeights_apply _ e)] at hrun
  set e1 : HcEvents := { e with ranges := e.ranges + 1 }
  have hp1 : Pending B H e1 := hp.congr rfl rfl
  have hkeeps : ∀ h, Keeps Settles (applyOrigin env tsc T h) := applyOrigin_settles T
  have horigins : ∀ h ∈ env.heightOrder e.ranges (e.confQueue T).keys, ∀ i, e'.SettledAt T h i := by
    refine Keeps.forM_each (Q := fun h e => ∀ i, e.SettledAt T h i) hkeeps
      (fun hs hp => hp.settles hs) (fun hs hsettled i => (hsettled i).settles hs) ?_ hp1 hrun
    -- The loop over the events of one height.
    intro h e2 e3 hp2 hrun2 i ev hev
    obtain ⟨triggerTs, e4, hcached, hrun2⟩ := bind_eq_ok hrun2
    rw [bind_of_ok (get_apply e4)] at hrun2
    have hs4 : Settles e2 e4 := (cached_keeps h).of_run hcached
    obtain ⟨ev0, hev0, -⟩ := ((Keeps.forM (applyEvent_settles T h _) _).of_run hrun2).event hev
    refine Keeps.forM_each (Q := fun i e => e.SettledAt T h i) (applyEvent_settles T h _)
      (fun hs hp => hp.settles hs) (fun hs hsettled => hsettled.settles hs)
      (fun hp hrun => hp.applyEvent henv hlooks hT hrun) (hp2.settles hs4) hrun2 i ?_ ev hev
    exact List.mem_range.mpr (List.getElem?_eq_some_iff.mp hev0).1
  by_cases hmem : h ∈ (e.confQueue T).keys
  · exact horigins h ((env.heightOrder_perm _ _).mem_iff.mpr hmem) i
  · intro ev hev
    obtain ⟨ev0, hev0, -⟩ := ((Keeps.forM hkeeps _).of_run hrun).event hev
    have hnone : e1.eventsAt T h = [] := by
      simp [eventsAt, e1, AList.lookup_eq_none.mpr fun hin => hmem (AList.mem_keys.mp hin)]
    rw [hnone] at hev0
    cases hev0

lemma Pending.applyWithConfidence (hp : Pending B H e) (henv : HandlersAnswer env)
    (hlooks : Looks env tsc H) (hT : 0 ≤ T.toInt ∧ T.toInt ≤ H)
    (hrun : applyWithConfidence env tsc T e = (.ok (), e')) :
    Pending (fun d => B d ∧ d ≠ T.toInt) H e' := by
  have hsettled := hp.applyWithConfidence_settled henv hlooks hT hrun
  have hp' : Pending B H e' := hp.settles ((applyWithConfidence_keeps
    (fun e n => (still_ranges e n).settles rfl) (applyEvent_settles T)).of_run hrun)
  refine ⟨hp'.trigger, fun {T' h ev conf} hev hconf hcalled henabled => ?_⟩
  obtain ⟨hB, hprev⟩ := hp'.waits hev hconf hcalled henabled
  refine ⟨⟨hB, fun hdue => ?_⟩, hprev⟩
  -- An event that is due now stands at the height that was settled.
  obtain ⟨conf', hconf', hat, -⟩ := hp'.trigger hev
  cases hconf.symm.trans hconf'
  have hrange := T.toInt_lt
  have hsum : (ev.origin.height + conf).toInt = ev.origin.epoch + conf.toInt := by
    apply Word.toInt_add_of_mem <;> unfold TipSet.epoch at hdue <;> omega
  obtain rfl : T' = T := hat.trans (Int64.toInt_inj.mp (hsum.trans hdue))
  obtain ⟨i, hi⟩ := getElem?_of_mem hev
  rcases hsettled h i ev hi with h | h <;> simp_all

lemma Pending.applyHeights {n : ℕ} (hp : Pending B H e) (henv : HandlersAnswer env)
    (hlooks : Looks env tsc H) (hT : 0 < n → 0 ≤ T.toInt ∧ T.toInt + n ≤ ts.epoch + 1)
    (hle : ts.epoch ≤ H) (hrun : applyHeights env tsc ts n T e = (.ok (), e')) :
    Pending (fun d => B d ∧ ¬(T.toInt ≤ d ∧ d < T.toInt + n)) H e' := by
  induction n generalizing T e B with
  | zero =>
    cases hrun
    exact hp.mono fun d hd => ⟨hd, by omega⟩
  | succ n ih =>
    obtain ⟨h0, hlast⟩ := hT n.succ_pos
    obtain ⟨_, e1, hconf, hrun⟩ := bind_eq_ok hrun
    obtain ⟨_, e2, htimeouts, hrun⟩ := bind_eq_ok hrun
    have hp1 := hp.applyWithConfidence henv hlooks ⟨h0, by omega⟩ hconf
    have hp2 := hp1.settles ((applyTimeouts_settles ts).of_run htimeouts)
    rcases Nat.eq_zero_or_pos n with rfl | hn
    · grind
    · have hnext : (T + 1).toInt = T.toInt + 1 :=
        Word.toInt_add_one (y := ts.height) (by unfold TipSet.epoch at hlast; omega)
      exact (ih hp2 (fun _ => by omega) hrun).mono fun d ⟨⟨hd, hne⟩, _⟩ => ⟨hd, by omega⟩

/-! ## Queueing what is found -/

lemma Pending.queueAll (hp : Pending B H e) (env : EventsEnv) (prevTs : Option TipSet)
    (found : AList fun _ : ℕ => EventData) (hts : 0 ≤ ts.epoch)
    (hnew : ∀ tid ∈ found.keys, e.enabled tid = true → ∀ conf ∈ e.confidenceOf tid,
      B (ts.epoch + conf.toInt) ∧ ∀ prev ∈ prevTs,
        prev.epoch ≤ H ∨ prev.epoch ≤ ts.epoch + conf.toInt) :
    Pending B H (queueAll env ts prevTs found e).2 := by
  rw [HcEvents.queueAll, bind_of_ok (rangeIds_apply found.keys e)]
  refine (snd_forM (P := fun e' => e'.triggers = e.triggers ∧ Pending B H e')
    (fun tid e1 ⟨htriggers, hp1⟩ => ?_) _
    (s := { e with ranges := e.ranges + 1 }) ⟨rfl, hp.congr rfl rfl⟩).2
  rcases queueFound_cases ts prevTs found tid e1 with ⟨r, hrun⟩ | ⟨conf, data, hconf, hdata, hrun⟩
  · rw [hrun]
    exact ⟨htriggers, hp1⟩
  rw [hrun]
  have hkey : tid ∈ found.keys := AList.mem_keys.mpr (AList.lookup_isSome.mp (by simp [hdata]))
  refine ⟨htriggers, fun hev => ?_, fun {_ _ _ conf'} hev hconf' hcalled henabled => ?_⟩
  · rcases mem_enqueue.mp hev with hev | ⟨rfl, rfl, -⟩
    · exact hp1.trigger hev
    · exact ⟨conf, hconf, rfl, hts⟩
  · rcases mem_enqueue.mp hev with hev | ⟨rfl, -, -⟩
    · exact hp1.waits hev hconf' hcalled henabled
    · have henabled0 : e.enabled tid = true := by
        rwa [enabled, ← htriggers]
      have hconf0 : e.confidenceOf tid = some conf' := by
        rwa [confidenceOf, ← htriggers]
      refine (hnew tid hkey henabled0 _ hconf0).imp_right fun hprev => ?_
      rcases prevTs with _ | prev
      · exact .inl rfl
      · exact .inr (hprev prev rfl)

/-- What is found for a trigger in a tipset, which is applied after `last` in a head change to
`head`, is due at a height that the loop over the heights does not pass over. -/
def NotPassed (env : EventsEnv) (e : HcEvents) (last ts head : TipSet) (tid : ℕ) (conf : Int64) :
    Prop :=
  (e.changesState last ts tid = true → last.epoch ≤ ts.epoch + conf.toInt ∨
    0 ≤ conf.toInt ∧ last.epoch ≤ head.epoch) ∧
  (e.acceptsMessage env ts tid = true → last.epoch ≤ ts.epoch + conf.toInt ∨
    0 ≤ conf.toInt ∧ (ts.epoch < head.epoch ∨ head.epoch < ts.epoch + conf.toInt))
deriving Decidable

/-- `NotPassed` for the triggers that are enabled. -/
def NonePassed (env : EventsEnv) (e : HcEvents) (last ts head : TipSet) : Prop :=
  ∀ tid ∈ List.range e.ctr, e.enabled tid = true → ∀ conf ∈ e.confidenceOf tid,
    NotPassed env e last ts head tid conf

instance (env : EventsEnv) (e : HcEvents) (last ts head : TipSet) :
    Decidable (NonePassed env e last ts head) :=
  -- the confidences are few, but their type is finite too, and must not be gone through
  have (tid : ℕ) : Decidable (∀ conf ∈ e.confidenceOf tid,
      NotPassed env e last ts head tid conf) := Option.decidableForallMem _
  inferInstanceAs (Decidable (∀ tid ∈ List.range e.ctr, e.enabled tid = true → _))

lemma enabled_confidenceOf {tid : ℕ} (h : e.enabled tid = true) :
    (e.confidenceOf tid).isSome = true := by
  rcases htrigger : e.triggers tid with _ | trigger <;> simp_all [confidenceOf, enabled]

lemma NonePassed.apply {e0 : HcEvents} {last head : TipSet} {tid : ℕ} {conf : Int64}
    (hn : NonePassed env e0 last ts head) (hw : e0.Wired) (hf : Frame e0 e)
    (henabled : e.enabled tid = true) (hconf : e.confidenceOf tid = some conf) :
    NotPassed env e last ts head tid conf := by
  have henabled0 := hf.enabled henabled
  have hlt := hw.lt_ctr (enabled_confidenceOf henabled0)
  have hnot := hn tid (mem_range.mpr hlt) henabled0 conf (hf.confidenceOf ▸ hconf)
  unfold NotPassed changesState acceptsMessage at hnot ⊢
  rwa [hf.stateMatchers, hf.messageMatchers]

/-- A tipset is applied: afterwards nothing is due below it, and nothing at it unless there are more
tipsets to apply. -/
lemma Pending.applyTipSet {e0 : HcEvents} {head : TipSet}
    (hp : Pending (fun d => e.lastTs.epoch ≤ d) head.epoch e) (henv : HandlersAnswer env)
    (hlooks : Looks env tsc head.epoch) (hts : 0 ≤ ts.epoch ∧ ts.epoch ≤ head.epoch)
    (hlast : 0 ≤ e.lastTs.epoch) (hw : e0.Wired) (hf : Frame e0 e)
    (hn : NonePassed env e0 e.lastTs ts head)
    (hrun : applyTipSet env tsc ts e = (.ok (), e')) :
    Pending (fun d => ts.epoch ≤ d ∧ (ts.epoch < head.epoch ∨ ts.epoch < d)) head.epoch e' := by
  obtain ⟨_, e1, hrun1, hrun⟩ := bind_eq_ok hrun
  obtain ⟨_, e2, hrun2, hrun⟩ := bind_eq_ok hrun
  rw [bind_of_ok (get_apply e2)] at hrun
  obtain ⟨_, e3, hrun3, hrun⟩ := bind_eq_ok hrun
  have hstill1 := (@queueStateChanges_still env ts).of_run hrun1
  have hstill2 := (@queueNewCalls_still env ts).of_run hrun2
  set B : ℤ → Prop := fun d => e.lastTs.epoch ≤ d ∨
    ts.epoch ≤ d ∧ (ts.epoch < head.epoch ∨ head.epoch < d)
  have hp1 : Pending B head.epoch e1 := by
    obtain ⟨found, hfound, hstate⟩ := checkStateChanges_spec env e.lastTs ts e
    have hp0 : Pending B head.epoch { e with ranges := e.ranges + 1 } :=
      Pending.congr (hp.mono fun d hd => .inl hd) rfl rfl
    rw [queueStateChanges, bind_of_ok (get_apply e), bind_of_ok hfound] at hrun1
    have hqueue := hp0.queueAll env (some e.lastTs) found hts.1
      fun tid htid henabled conf hconf => by
        have hnot := (hn.apply hw hf henabled hconf).1 (hstate tid htid)
        refine ⟨?_, fun prev hprev => ?_⟩ <;> grind
    rw [hrun1] at hqueue
    exact hqueue
  have hf1 : Frame e0 e1 := IsTrans.trans _ _ _ hf hstill1.toFrame
  have hp2 : Pending B head.epoch e2 := by
    rcases checkNewCalls_spec env ts e1 with ⟨err, hcalls⟩ | ⟨found, n, hcalls, hmessage⟩
    · rw [queueNewCalls, bind_of_error hcalls] at hrun2
      cases hrun2
    · have hp0 : Pending B head.epoch { e1 with ranges := n } := hp1.congr rfl rfl
      rw [queueNewCalls, bind_of_ok hcalls] at hrun2
      have hqueue := hp0.queueAll env none found hts.1 fun tid htid henabled conf hconf => by
          have hnot := (hn.apply hw hf1 henabled hconf).2 (hmessage tid htid)
          refine ⟨?_, fun prev hprev => by cases hprev⟩
          show e.lastTs.epoch ≤ _ ∨ _
          omega
      rw [hrun2] at hqueue
      exact hqueue
  have hlast2 : e2.lastTs = e.lastTs := hstill2.lastTs.trans hstill1.lastTs
  have hp3 := hp2.applyHeights henv hlooks (fun hn => by
    rw [hlast2] at hn ⊢
    unfold TipSet.epoch at hlast ⊢
    omega) hts.2 hrun3
  split_ifs at hrun with hmax
  · cases hrun
  · obtain rfl := (Prod.mk.inj hrun).2
    refine Pending.congr (hp3.mono fun d hd => ?_) rfl rfl
    obtain ⟨hB, hsettled⟩ := hd
    have hB : e.lastTs.epoch ≤ d ∨ ts.epoch ≤ d ∧ (ts.epoch < head.epoch ∨ head.epoch < d) := hB
    rw [hlast2] at hsettled
    unfold TipSet.epoch at *
    omega

/-- `NonePassed` for the tipsets that are applied, the first one after `last`. -/
def TimelyApplies (env : EventsEnv) (e : HcEvents) (head : TipSet) : TipSet → List TipSet → Prop
  | _, [] => True
  | last, ts :: app => NonePassed env e last ts head ∧ TimelyApplies env e head ts app

instance decidableTimelyApplies (env : EventsEnv) (e : HcEvents) (head : TipSet) :
    ∀ last app, Decidable (TimelyApplies env e head last app)
  | _, [] => isTrue trivial
  | _, ts :: app =>
    have := decidableTimelyApplies env e head ts app
    inferInstanceAs (Decidable (_ ∧ _))

lemma Pending.applies {e0 : HcEvents} {head : TipSet} {app : List TipSet}
    (hp : Pending (fun d => e.lastTs.epoch ≤ d) head.epoch e) (henv : HandlersAnswer env)
    (hlooks : Looks env tsc head.epoch) (happ : ∀ ts ∈ app, 0 ≤ ts.epoch ∧ ts.epoch ≤ head.epoch)
    (hlast : 0 ≤ e.lastTs.epoch) (hw : e0.Wired) (hf : Frame e0 e)
    (hn : TimelyApplies env e0 head e.lastTs app) (hhead : app.getLast? = some head)
    (hrun : app.forM (HcEvents.applyTipSet env tsc) e = (.ok (), e')) :
    Pending (fun d => head.epoch < d) head.epoch e' := by
  induction app generalizing e with
  | nil => cases hhead
  | cons ts app ih =>
    obtain ⟨_, e1, hrun1, hrun⟩ := bind_eq_ok hrun
    obtain ⟨hts, happ⟩ := forall_mem_cons.mp happ
    have hlast1 := applyTipSet_lastTs hrun1
    have hp1 := hp.applyTipSet henv hlooks hts hlast hw hf hn.1 hrun1
    rcases app with _ | ⟨ts', app⟩
    · cases hrun
      grind
    · refine ih (hp1.mono fun d hd => ?_) happ ?_
        (IsTrans.trans _ _ _ hf ((applyTipSet_frame ts).of_run hrun1)) ?_ ?_ hrun
      · rw [hlast1]
        exact hd.1
      · rw [hlast1]
        exact hts.1
      · rw [hlast1]
        exact hn.2
      · grind

/-! ## Reverting -/

structure Drops (e e' : HcEvents) : Prop where
  events : ∀ {T h ev}, ev ∈ e'.eventsAt T h → ev ∈ e.eventsAt T h
  triggers : e'.triggers = e.triggers

instance : Std.Refl Drops := ⟨fun _ => ⟨id, rfl⟩⟩

instance : IsTrans HcEvents Drops :=
  ⟨fun _ _ _ h h' => ⟨fun hev => h.events (h'.events hev), h'.triggers.trans h.triggers⟩⟩

lemma revertTipSet_drops (ts : TipSet) : Keeps Drops (revertTipSet ts) := by
  refine revertTipSet_keeps (fun _ => ⟨id, rfl⟩) (fun _ _ => ⟨fun hev => ?_, rfl⟩)
    (fun _ => ⟨id, rfl⟩) fun _ => ⟨id, rfl⟩
  grind [eventsAt_dropEvents]

end HcEvents

open HcEvents

def EventsRun.TimelyStep (env : EventsEnv) (s : EventsRun) : ChainEvent → Prop
  | .called .. => True
  | .stateChanged .. => True
  | .headChange rev app => ∀ head ∈ app.getLast?,
    TimelyApplies env s.events head (rev.getLast?.getD s.events.lastTs) app

instance (env : EventsEnv) (s : EventsRun) : (ev : ChainEvent) → Decidable (s.TimelyStep env ev)
  | .called .. => isTrue trivial
  | .stateChanged .. => isTrue trivial
  | .headChange _ app => inferInstanceAs (Decidable (∀ head ∈ app.getLast?, _))

/-- The storage answers what the cache asks it after a head change: about a height below a tipset of
the new chain. -/
def EventsRun.StorageAnswers (env : EventsEnv) (s : EventsRun) : ChainEvent → Prop
  | .called .. => True
  | .stateChanged .. => True
  | .headChange rev app => ∀ ts ∈ app.reverse ++ s.chain.drop rev.length, ∀ height : Int64,
    height.toInt < ts.epoch → (s.tsc.storage height (ts.cids env.hashing)).isOk = true

structure EventsRun.Punctual (s : EventsRun) : Prop extends s.Sound where
  wired : s.events.Wired
  last : s.chain.head? = some s.events.lastTs
  pending : Pending (fun d => s.events.lastTs.epoch < d) s.events.lastTs.epoch s.events

section

variable {env : EventsEnv} {s s' : EventsRun} {ev : ChainEvent}

lemma EventsRun.Punctual.headChange {rev app : List TipSet} (hs : s.Punctual)
    (henv : HandlersAnswer env) (hprocessed : s.processes env (.headChange rev app) = true)
    (htimely : s.TimelyStep env (.headChange rev app))
    (hanswers : s.StorageAnswers env (.headChange rev app))
    (hstep : s.step env (.headChange rev app) = some s') : s'.Punctual := by
  have hsound := hs.toSound.step hstep
  have hwired : s'.IsWired := EventsRun.IsWired.step hs.wired hstep
  obtain ⟨hhead, hmove, hevents, hchain⟩ := EventsRun.step_headChange hstep
  obtain ⟨tsc', hmove', -, -, -, hstorage⟩ := hs.moveCache env.hashing hhead
  cases hmove'.symm.trans hmove
  have hrun := EventsRun.processed_eq hstep hprocessed
  obtain ⟨_, e1, hrev, happ⟩ := bind_eq_ok hrun
  have hlast1 := reverts_lastTs hrev
  have hframe1 : HcEvents.Frame s.events e1 := (Keeps.forM revertTipSet_frame rev).of_run hrev
  have hdrops := (Keeps.forM revertTipSet_drops rev).of_run hrev
  obtain ⟨fork, rest, hold, -⟩ := hhead.exists_fork hs.represents.descending
  -- The last tipset was on the chain.
  have hmem : e1.lastTs ∈ s.chain := by
    rw [hlast1]
    rcases hgetLast : rev.getLast? with _ | low
    · exact mem_of_mem_head? hs.last
    · grind
  obtain ⟨below, hbelow⟩ := head?_eq_some_iff.mp hs.last
  have hle : e1.lastTs.epoch ≤ s.events.lastTs.epoch := by
    have hd := hs.represents.descending
    rw [hbelow] at hd hmem
    exact epoch_le_head hd hmem
  obtain ⟨head, hgetLast⟩ := Option.isSome_iff_exists.mp (getLast?_isSome.mpr hhead.1)
  have hhead' : s'.chain.head? = some head := by grind
  obtain ⟨below', hbelow'⟩ := head?_eq_some_iff.mp hhead'
  have hlooks : Looks env s'.tsc head.epoch := fun height hheight => by
    have hrep := hsound.represents
    rw [hbelow'] at hrep
    refine hrep.get_isOk hsound.len_pos hsound.cap_lt (fun t ht hlt => ?_) hheight
    rw [hstorage]
    exact hanswers t (hchain ▸ hbelow' ▸ ht) height hlt
  have happ' : ∀ ts ∈ app, 0 ≤ ts.epoch ∧ ts.epoch ≤ head.epoch := fun ts hts => by
    have hmem' : ts ∈ s'.chain := hchain ▸ mem_append_left _ (mem_reverse.mpr hts)
    refine ⟨hsound.nonneg ts hmem', ?_⟩
    have hd := hsound.represents.descending
    rw [hbelow'] at hd hmem'
    exact epoch_le_head hd hmem'
  have hp1 : Pending (fun d => e1.lastTs.epoch ≤ d) head.epoch e1 := by
    refine Pending.subset (e := s.events) ⟨hs.pending.trigger, fun hev hconf hcalled henabled => ?_⟩
      hdrops.events fun _ => by rw [hdrops.triggers]
    obtain ⟨hdue, hprev⟩ := hs.pending.waits hev hconf hcalled henabled
    refine ⟨by omega, hprev.imp_right fun hprev => .inr ?_⟩
    omega
  have htimely' := htimely head hgetLast
  rw [← hlast1] at htimely'
  have hp' := hp1.applies henv hlooks happ' (hs.nonneg _ hmem) hs.wired hframe1 htimely' hgetLast
    happ
  have hlast' := EventsRun.head_of_processed hs.last hprocessed hstep
  cases hhead'.symm.trans hlast'
  exact ⟨hsound, hwired, hlast', hp'⟩

lemma EventsRun.Punctual.step (hs : s.Punctual) (henv : HandlersAnswer env)
    (hcond : (s.processes env ev = true ∧ s.TimelyStep env ev) ∧ s.StorageAnswers env ev)
    (hstep : s.step env ev = some s') : s'.Punctual := by
  have hsound := hs.toSound.step hstep
  have hwired : s'.IsWired := EventsRun.IsWired.step hs.wired hstep
  have hlast := EventsRun.head_of_processed hs.last hcond.1.1 hstep
  rcases EventsRun.step_cases hstep with
    ⟨rev, app, rfl⟩ | ⟨-, -, -, heq | ⟨_, _, _, _, hr⟩⟩
  · exact hs.headChange henv hcond.1.1 hcond.1.2 hcond.2 hstep
  · refine ⟨hsound, hwired, hlast, ?_⟩
    rw [heq]
    exact hs.pending
  · refine ⟨hsound, hwired, hlast, ?_⟩
    rw [hr.lastTs]
    refine hs.pending.subset (fun hev => ?_) fun hev => ?_
    · unfold eventsAt at hev ⊢
      rwa [← hr.confQueue]
    · obtain ⟨conf, hconf, -⟩ := hs.pending.trigger hev
      rw [hr.triggers, Function.update_of_ne]
      exact (hs.wired.lt_ctr (by rw [hconf]; rfl)).ne

end

end Lotus
