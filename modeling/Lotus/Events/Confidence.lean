import Lotus.Events.Messages

/-!
# Confidence and reverts

The two queues of `hcEvents` stay in step with the chain, and the events in them with the calls of
the handlers (`Tracked`).
-/

namespace Lotus

open Act List

namespace HcEvents

def callsAbout (e : HcEvents) (tid : ℕ) (ts : TipSet) : List LoggedCall :=
  e.log.filter fun call => call.trigger = tid ∧ call.origin = some ts

def Handled (e : HcEvents) (tid : ℕ) (ts : TipSet) : Prop :=
  Turns.Active LoggedCall.isHandle (e.callsAbout tid ts) = true

structure Tracked (chain : List TipSet) (e : HcEvents) : Prop where
  descending : Descending chain
  origin : ∀ {T h ev}, ev ∈ e.eventsAt T h → ev.origin ∈ chain ∧ ev.origin.height = h
  trigger : ∀ {T h ev}, ev ∈ e.eventsAt T h →
    ∃ conf, e.confidenceOf ev.trigger = some conf ∧ T = h + conf
  filed : ∀ {T h ev}, ev ∈ e.eventsAt T h → T ∈ e.revertQueue h
  nodup : ∀ T h, ((e.eventsAt T h).map QueuedEvent.trigger).Nodup
  alternates : ∀ tid ts, Turns.Alternates LoggedCall.isHandle (e.callsAbout tid ts)
  handled_iff : ∀ {tid ts}, e.Handled tid ts ↔
    ∃ T h, ∃ ev ∈ e.eventsAt T h, ev.trigger = tid ∧ ev.origin = ts ∧ ev.called = true

variable {env : EventsEnv} {tsc : TipSetCache} {chain : List TipSet} {e e' : HcEvents}
  {T h T' h' : Int64} {ev ev' : QueuedEvent} {ts : TipSet} {tid i : ℕ}

lemma callsAbout_congr (h : e'.log = e.log) : e'.callsAbout = e.callsAbout := by
  unfold callsAbout
  rw [h]

/-- What `Tracked` looks at is the same. -/
lemma Tracked.alike (ht : Tracked chain e) (hevents : e'.eventsAt = e.eventsAt)
    (hqueue : e'.revertQueue = e.revertQueue) (hcalls : e'.callsAbout = e.callsAbout)
    (hconf : ∀ {tid conf}, e.confidenceOf tid = some conf → e'.confidenceOf tid = some conf) :
    Tracked chain e' := by
  have hhandled : e'.Handled = e.Handled := by
    unfold Handled
    rw [hcalls]
  refine ⟨ht.descending, ?_, fun hev => ?_, ?_, ?_, ?_, ?_⟩
  · simp only [hevents]
    exact ht.origin
  · rw [hevents] at hev
    grind [ht.trigger]
  · simp only [hevents, hqueue]
    exact ht.filed
  · simpa only [hevents] using ht.nodup
  · simpa only [hcalls] using ht.alternates
  · simp_all [ht.handled_iff]

lemma Tracked.ranges (ht : Tracked chain e) (n : ℕ) : Tracked chain { e with ranges := n } :=
  ht.alike rfl rfl rfl id

lemma Tracked.extend (ht : Tracked chain e) {more : List TipSet}
    (hd : Descending (more ++ chain)) : Tracked (more ++ chain) e :=
  { ht with
    descending := hd
    origin := fun hev => ⟨mem_append_right _ (ht.origin hev).1, (ht.origin hev).2⟩ }

lemma Tracked.shrink (ht : Tracked (ts :: chain) e) (hnone : ∀ T, e.eventsAt T ts.height = []) :
    Tracked chain e :=
  { ht with
    descending := (pairwise_cons.mp ht.descending).2
    origin := fun {T h ev} hev => by
      obtain ⟨hmem, hheight⟩ := ht.origin hev
      refine ⟨(mem_cons.mp hmem).resolve_left fun heq => ?_, hheight⟩
      simp [← hheight, heq, hnone] at hev }

lemma Tracked.unique (ht : Tracked chain e) (hev : ev ∈ e.eventsAt T h)
    (hev' : ev' ∈ e.eventsAt T' h') (htrigger : ev.trigger = ev'.trigger)
    (horigin : ev.origin = ev'.origin) : T = T' ∧ h = h' ∧ ev = ev' := by
  obtain rfl : h = h' := by rw [← (ht.origin hev).2, ← (ht.origin hev').2, horigin]
  obtain ⟨conf, hconf, rfl⟩ := ht.trigger hev
  obtain ⟨conf', hconf', rfl⟩ := ht.trigger hev'
  rw [htrigger, hconf'] at hconf
  cases hconf
  exact ⟨rfl, rfl, inj_on_of_nodup_map (ht.nodup _ _) hev hev' htrigger⟩

lemma Tracked.not_handled (ht : Tracked chain e) (hev : ev ∈ e.eventsAt T h)
    (hcalled : ev.called = false) : ¬e.Handled ev.trigger ev.origin := by
  grind [ht.handled_iff, ht.unique]

lemma callsAbout_logCall (e : HcEvents) (call : LoggedCall) (tid : ℕ) (ts : TipSet) :
    (e.logCall call).callsAbout tid ts =
      e.callsAbout tid ts ++ if call.trigger = tid ∧ call.origin = some ts then [call] else [] := by
  simp [callsAbout, logCall, filter_append, filter_singleton]

lemma handled_logCall (e : HcEvents) (call : LoggedCall) (tid : ℕ) (ts : TipSet) :
    (e.logCall call).Handled tid ts ↔
      if call.trigger = tid ∧ call.origin = some ts then call.isHandle = true
      else e.Handled tid ts := by
  unfold Handled
  rw [callsAbout_logCall]
  split_ifs <;> simp

variable {call : LoggedCall}

lemma alternates_logCall
    (halt : ∀ tid ts, Turns.Alternates LoggedCall.isHandle (e.callsAbout tid ts))
    (hturn : ∀ ts, call.origin = some ts → (call.isHandle = true ↔ ¬e.Handled call.trigger ts))
    (tid : ℕ) (ts : TipSet) :
    Turns.Alternates LoggedCall.isHandle ((e.logCall call).callsAbout tid ts) := by
  rw [callsAbout_logCall]
  split_ifs with hkey
  · obtain ⟨rfl, horigin⟩ := hkey
    refine (halt _ ts).concat ?_
    rw [Bool.eq_iff_iff, hturn ts horigin, Handled]
    simp
  · simpa using halt tid ts

/-- An event of a tipset of the chain is queued, if the trigger has none there. -/
lemma Tracked.enqueue (ht : Tracked chain e) (hts : ts ∈ chain) {conf : Int64}
    (hconf : e.confidenceOf tid = some conf)
    (hnew : ∀ ev ∈ e.eventsAt (ts.height + conf) ts.height, ev.trigger ≠ tid) (prevH : Int64)
    (data : EventData) :
    Tracked chain (e.enqueue (ts.height + conf) ⟨tid, prevH, ts.height, data, false, ts⟩) where
  descending := ht.descending
  origin hev := by
    grind [mem_enqueue, ht.origin]
  trigger hev := by
    rcases mem_enqueue.mp hev with hev | ⟨rfl, rfl, rfl⟩
    · exact ht.trigger hev
    · exact ⟨conf, hconf, rfl⟩
  filed hev := by
    rcases mem_enqueue.mp hev with hev | ⟨rfl, rfl, rfl⟩
    · exact mem_appendTo.mpr (.inl (ht.filed hev))
    · exact mem_appendTo.mpr (.inr ⟨rfl, rfl⟩)
  nodup T h := by
    rw [eventsAt_enqueue]
    split_ifs <;> simp_all [nodup_append, ht.nodup]
  alternates := ht.alternates
  handled_iff {tid' ts'} := by
    rw [show (e.enqueue _ _).Handled tid' ts' ↔ e.Handled tid' ts' from Iff.rfl, ht.handled_iff]
    simp only [mem_enqueue]
    grind

lemma mem_set_of_nodup {α : Type} {l : List α} {x y z : α} (hnodup : l.Nodup)
    (hi : l[i]? = some x) : y ∈ l.set i z ↔ y ∈ l ∧ y ≠ x ∨ y = z := by
  obtain ⟨hlt, rfl⟩ := List.getElem?_eq_some_iff.mp hi
  simp only [List.mem_iff_getElem?, List.getElem?_set]
  grind [hnodup.getElem_inj_iff]

variable {trigger : HandlerInfo}

lemma Tracked.mem_deliver (ht : Tracked chain e) (hev : (e.eventsAt T h)[i]? = some ev)
    {more : Bool} :
    ev' ∈ ((e.logCall call).deliver T h i ev trigger more).eventsAt T' h' ↔
      ev' ∈ e.eventsAt T' h' ∧ ¬(T' = T ∧ h' = h ∧ ev' = ev) ∨
        ev' = { ev with called := true } ∧ T' = T ∧ h' = h := by
  rw [eventsAt_deliver, show (e.logCall call).eventsAt = e.eventsAt from rfl]
  split_ifs with hat
  · obtain ⟨rfl, rfl⟩ := hat
    simp [mem_set_of_nodup (ht.nodup T' h').of_map hev]
  · grind

/-- An event that was not called is delivered. -/
lemma Tracked.deliver (ht : Tracked chain e) (hev : (e.eventsAt T h)[i]? = some ev)
    (hcalled : ev.called = false) (htrigger : e.triggers ev.trigger = some trigger)
    (henabled : trigger.disabled = false) {curH : Int64}
    (hcall : IsCall ev.trigger (some ev.origin) curH call) (more : Bool) :
    Tracked chain ((e.logCall call).deliver T h i ev trigger more) := by
  have hmem : ev ∈ e.eventsAt T h := mem_of_getElem? hev
  have hconf := (still_deliver (e := e.logCall call) htrigger henabled T h i more).confidenceOf
  refine ⟨ht.descending, fun hev' => ?_, fun hev' => ?_, fun hev' => ?_, fun T' h' => ?_,
    alternates_logCall ht.alternates fun ts' hts' => ?_, fun {tid' ts'} => ?_⟩
  · grind [ht.mem_deliver, ht.origin]
  · rw [hconf]
    rcases (ht.mem_deliver hev).mp hev' with ⟨hev', -⟩ | ⟨rfl, rfl, rfl⟩
    · exact ht.trigger hev'
    · exact (ht.trigger hmem :)
  · rcases (ht.mem_deliver hev).mp hev' with ⟨hev', -⟩ | ⟨rfl, rfl, rfl⟩
    · exact ht.filed hev'
    · exact ht.filed hmem
  · rw [eventsAt_deliver]
    split_ifs with hat
    · obtain ⟨hlt, rfl⟩ := List.getElem?_eq_some_iff.mp hev
      have hnodup := ht.nodup T h
      rw [← set_getElem_self hlt, map_set] at hnodup
      rwa [map_set]
    · exact ht.nodup T' h'
  · cases hcall.2.1.symm.trans hts'
    rw [hcall.1]
    exact iff_of_true hcall.isHandle (ht.not_handled hmem hcalled)
  · refine (handled_logCall e call tid' ts').trans ?_
    simp only [ht.mem_deliver hev, hcall.1, hcall.2.1, hcall.isHandle]
    split_ifs with hkey
    · obtain ⟨rfl, hts'⟩ := hkey
      exact iff_of_true trivial ⟨T, h, _, .inr ⟨rfl, rfl, rfl⟩, rfl, Option.some.inj hts', rfl⟩
    · rw [ht.handled_iff]
      grind

/-! ## Reverts -/

variable {evs : List QueuedEvent}

lemma Tracked.mem_rest (ht : Tracked chain e) (hevs : e.eventsAt T h = ev :: evs)
    (hevents : ∀ T' h', e'.eventsAt T' h' = if T' = T ∧ h' = h then evs else e.eventsAt T' h') :
    ev' ∈ e'.eventsAt T' h' ↔ ev' ∈ e.eventsAt T' h' ∧ ev' ≠ ev := by
  have hmem : ev ∈ e.eventsAt T h := by simp [hevs]
  have hnodup := ht.nodup T h
  rw [hevents]
  split_ifs with hat
  · obtain ⟨rfl, rfl⟩ := hat
    grind
  · refine (and_iff_left_of_imp fun hev' heq => hat ?_).symm
    grind [ht.unique]

/-- The first event of a list is taken out, and its revert handler is called if its handler was. -/
lemma Tracked.revertFirst (ht : Tracked chain e) (hevs : e.eventsAt T h = ev :: evs)
    (hevents : ∀ T' h', e'.eventsAt T' h' = if T' = T ∧ h' = h then evs else e.eventsAt T' h')
    (hlog : e'.log = if ev.called then
      e.log ++ [⟨ev.trigger, some ev.origin, .revert ts⟩] else e.log)
    (hconf : e'.confidenceOf = e.confidenceOf) (hqueue : e'.revertQueue = e.revertQueue) :
    Tracked chain e' := by
  have hmem : ev ∈ e.eventsAt T h := by simp [hevs]
  have hrest : ∀ {T' h' ev'}, ev' ∈ e'.eventsAt T' h' ↔ ev' ∈ e.eventsAt T' h' ∧ ev' ≠ ev :=
    ht.mem_rest hevs hevents
  -- The calls are those of `e`, with the one of the revert handler if there is one.
  have hcalls : (∀ tid ts', Turns.Alternates LoggedCall.isHandle (e'.callsAbout tid ts')) ∧
      ∀ tid ts', e'.Handled tid ts' ↔
        e.Handled tid ts' ∧ ¬(ev.trigger = tid ∧ ev.origin = ts') := by
    split_ifs at hlog with hcalled
    · have hhandled : e.Handled ev.trigger ev.origin :=
        ht.handled_iff.mpr ⟨T, h, ev, hmem, rfl, rfl, hcalled⟩
      have hsame : e'.callsAbout =
          (e.logCall ⟨ev.trigger, some ev.origin, .revert ts⟩).callsAbout := callsAbout_congr hlog
      refine ⟨fun tid ts' => ?_, fun tid ts' => ?_⟩
      · rw [hsame]
        refine alternates_logCall ht.alternates (fun ts'' hts'' => ?_) tid ts'
        cases hts''
        exact iff_of_false Bool.false_ne_true (not_not.mpr hhandled)
      · rw [Handled, hsame]
        refine (handled_logCall ..).trans ?_
        split_ifs with hkey <;> simp_all [LoggedCall.isHandle, HandlerCall.curH, Handled]
    · have hsame := callsAbout_congr hlog
      refine ⟨fun tid ts' => hsame ▸ ht.alternates tid ts', fun tid ts' => ?_⟩
      rw [Handled, hsame]
      refine (and_iff_left_of_imp fun hhandled => ?_).symm
      rintro ⟨rfl, rfl⟩
      exact ht.not_handled hmem (Bool.eq_false_iff.mpr hcalled) hhandled
  refine ⟨ht.descending, fun hev' => ht.origin (hrest.mp hev').1, fun hev' => ?_, fun hev' => ?_,
    fun T' h' => ?_, hcalls.1, fun {tid ts'} => ?_⟩
  · simp_all [ht.trigger]
  · rw [hqueue]
    exact ht.filed (hrest.mp hev').1
  · have hnodup := ht.nodup T h
    grind [nodup_cons, ht.nodup]
  · grind [ht.handled_iff, ht.unique]

def Logs (P : LoggedCall → Prop) (e e' : HcEvents) : Prop :=
  ∃ new, e'.log = e.log ++ new ∧ ∀ call ∈ new, P call

variable {P P' : LoggedCall → Prop}

lemma Logs.of_eq (h : e'.log = e.log) : Logs P e e' :=
  ⟨[], h.trans (append_nil _).symm, fun _ h => absurd h not_mem_nil⟩

lemma Logs.one (call : LoggedCall) (h : e'.log = e.log ++ [call]) (hcall : P call) : Logs P e e' :=
  ⟨[call], h, fun _ hmem => mem_singleton.mp hmem ▸ hcall⟩

lemma Logs.trans {e'' : HcEvents} (h : Logs P e e') (h' : Logs P e' e'') : Logs P e e'' := by
  obtain ⟨new, hlog, hnew⟩ := h
  obtain ⟨new', hlog', hnew'⟩ := h'
  refine ⟨new ++ new', ?_, fun call hcall => ?_⟩ <;> grind

lemma Logs.mono (h : Logs P e e') (hP : ∀ call, P call → P' call) : Logs P' e e' := by
  obtain ⟨new, hlog, hnew⟩ := h
  exact ⟨new, hlog, fun call hcall => hP call (hnew call hcall)⟩

def IsRevert (ts : TipSet) (call : LoggedCall) : Prop :=
  call.origin = some ts ∧ call.call = .revert ts

/-- What is done for one event. -/
lemma revertEvent_eq (htrigger : e.triggers ev.trigger = some trigger) (ts : TipSet) :
    ∃ e', revertEvent ts ev e = (.ok (), e') ∧ e'.confQueue = e.confQueue ∧
      e'.revertQueue = e.revertQueue ∧ e'.confidenceOf = e.confidenceOf ∧
      e'.log = if ev.called then
        e.log ++ [⟨ev.trigger, some ev.origin, .revert ts⟩] else e.log := by
  unfold revertEvent
  by_cases hcalled : ev.called
  · refine ⟨e.logCall ⟨ev.trigger, some ev.origin, .revert ts⟩, ?_, rfl, rfl, rfl,
      (if_pos hcalled).symm⟩
    rw [if_pos hcalled, bind_of_ok (get_apply e), htrigger]
    rfl
  · refine ⟨e, ?_, rfl, rfl, rfl, (if_neg hcalled).symm⟩
    rw [if_neg hcalled]
    rfl

/-- The loop over the events of a list, of which `evs` are left. -/
lemma Tracked.revertList (ht : Tracked (ts :: chain) (e.setEvents T ts.height evs)) :
    ∃ e', evs.forM (revertEvent ts) e = (.ok (), e') ∧
      Tracked (ts :: chain) (e'.setEvents T ts.height []) ∧
      e'.confQueue = e.confQueue ∧ e'.revertQueue = e.revertQueue ∧ Logs (IsRevert ts) e e' := by
  induction evs generalizing e with
  | nil => exact ⟨e, rfl, ht, rfl, rfl, .of_eq rfl⟩
  | cons ev evs ih =>
    have hat : (e.setEvents T ts.height (ev :: evs)).eventsAt T ts.height = ev :: evs := by
      simp [eventsAt_setEvents]
    have hmem : ev ∈ (e.setEvents T ts.height (ev :: evs)).eventsAt T ts.height := by simp [hat]
    obtain ⟨conf, hconf, -⟩ := ht.trigger hmem
    obtain ⟨trigger, htrigger, -⟩ := Option.map_eq_some_iff.mp hconf
    have horigin : ev.origin = ts := by
      obtain ⟨hchain, hheight⟩ := ht.origin hmem
      exact ht.descending.eq_of_epoch hchain (mem_cons_self ..) (congrArg Int64.toInt hheight)
    obtain ⟨e1, hrun1, hconf1, hqueue1, hconfOf1, hlog1⟩ := revertEvent_eq (e := e) htrigger ts
    have hlogs1 : Logs (IsRevert ts) e e1 := by
      split_ifs at hlog1
      · exact .one _ hlog1 ⟨congrArg some horigin, rfl⟩
      · exact .of_eq hlog1
    have hstep : Tracked (ts :: chain) (e1.setEvents T ts.height evs) := by
      refine ht.revertFirst hat (fun T' h' => ?_) hlog1 hconfOf1 hqueue1
      rw [eventsAt_setEvents, eventsAt_setEvents, eventsAt_congr hconf1]
      split_ifs <;> rfl
    obtain ⟨e', hrun, ht', hconf', hqueue', hlogs'⟩ := ih hstep
    exact ⟨e', (bind_of_ok hrun1).trans hrun, ht', hconf'.trans hconf1, hqueue'.trans hqueue1,
      hlogs1.trans hlogs'⟩

/-- The events of a trigger height are taken out. -/
lemma Tracked.revertEvents (ht : Tracked (ts :: chain) e) (T : Int64) :
    ∃ e', revertEvents ts T e = (.ok (), e') ∧ Tracked (ts :: chain) e' ∧
      e'.revertQueue = e.revertQueue ∧ Logs (IsRevert ts) e e' ∧
      ∀ T' h', e'.eventsAt T' h' = if T' = T ∧ h' = ts.height then [] else e.eventsAt T' h' := by
  have hsame : (e.setEvents T ts.height (e.eventsAt T ts.height)).eventsAt = e.eventsAt := by
    grind [eventsAt_setEvents]
  obtain ⟨e1, hrun, ht1, hconf, hqueue, hlogs⟩ := (ht.alike hsame rfl rfl id).revertList
  refine ⟨e1.dropEvents T ts.height, ?_, ht1.alike ?_ rfl rfl id, hqueue, hlogs, fun T' h' => ?_⟩
  · rw [HcEvents.revertEvents, bind_of_ok (get_apply e), bind_of_ok hrun]
    rfl
  · funext T' h'
    rw [eventsAt_dropEvents, eventsAt_setEvents]
  · rw [eventsAt_dropEvents, eventsAt_congr hconf]

/-- The loop over the trigger heights. -/
lemma Tracked.revertHeights (ht : Tracked (ts :: chain) e) (heights : List Int64) :
    ∃ e', heights.forM (HcEvents.revertEvents ts) e = (.ok (), e') ∧ Tracked (ts :: chain) e' ∧
      e'.revertQueue = e.revertQueue ∧ Logs (IsRevert ts) e e' ∧
      ∀ T, T ∈ heights ∨ e.eventsAt T ts.height = [] → e'.eventsAt T ts.height = [] := by
  induction heights generalizing e with
  | nil => exact ⟨e, rfl, ht, rfl, .of_eq rfl, by simp⟩
  | cons T heights ih =>
    obtain ⟨e1, hrun1, ht1, hqueue1, hlogs1, hevents⟩ := ht.revertEvents T
    obtain ⟨e', hrun, ht', hqueue, hlogs, hempty⟩ := ih ht1
    refine ⟨e', (bind_of_ok hrun1).trans hrun, ht', hqueue.trans hqueue1, hlogs1.trans hlogs,
      fun T' hT' => hempty T' ?_⟩
    rw [hevents]
    grind

/-- `handleReverts` at the head of the chain. -/
lemma Tracked.handleReverts (ht : Tracked (ts :: chain) e) :
    ∃ e', handleReverts ts e = (.ok (), e') ∧ Tracked chain e' ∧ Logs (IsRevert ts) e e' := by
  obtain ⟨e1, hrun, ht1, hqueue, hlogs, hall⟩ := ht.revertHeights (e.revertQueue ts.height)
  have hnone : ∀ T, e1.eventsAt T ts.height = [] := by
    refine fun T => eq_nil_iff_forall_not_mem.mpr fun ev hev => ?_
    have hempty := hall T (.inl (hqueue ▸ ht1.filed hev))
    simp [hempty] at hev
  have ht2 := ht1.shrink hnone
  refine ⟨{ e1 with revertQueue := Function.update e1.revertQueue ts.height [] }, ?_,
    { ht2 with filed := fun {T h ev} hev => ?_ }, hlogs⟩
  · rw [HcEvents.handleReverts, bind_of_ok (get_apply e), bind_of_ok hrun]
    rfl
  · have hev : ev ∈ e1.eventsAt T h := hev
    have hne : h ≠ ts.height := by grind
    simpa [hne] using ht2.filed hev

/-- The first loop of `processHeadChangeEvent` takes the tipsets off the chain. -/
lemma Tracked.reverts {rev : List TipSet} (ht : Tracked (rev ++ chain) e)
    (hlast : 0 ≤ e.lastTs.epoch) (hnonneg : ∀ ts ∈ rev, 0 ≤ ts.epoch) :
    ∃ e', rev.forM revertTipSet e = (.ok (), e') ∧ Tracked chain e' ∧ 0 ≤ e'.lastTs.epoch ∧
      Logs (fun call => ∃ ts ∈ rev, IsRevert ts call) e e' := by
  induction rev generalizing e with
  | nil => exact ⟨e, rfl, ht, hlast, .of_eq rfl⟩
  | cons ts rev ih =>
    obtain ⟨e1, hrun1, ht1, hlogs1⟩ := ht.handleReverts
    have hone : revertTipSet ts e = (.ok (), { e1 with lastTs := ts }) := by
      rw [revertTipSet, bind_of_ok hrun1]
      rfl
    obtain ⟨hts, hrest⟩ := forall_mem_cons.mp hnonneg
    obtain ⟨e', hrun, ht', hlast', hlogs⟩ := ih (e := { e1 with lastTs := ts })
      (ht1.alike rfl rfl rfl id) hts hrest
    refine ⟨e', (bind_of_ok hone).trans hrun, ht', hlast', ?_⟩
    refine Logs.trans (hlogs1.mono fun call h => ⟨ts, mem_cons_self .., h⟩) ?_
    exact hlogs.mono fun call ⟨t, ht, h⟩ => ⟨t, mem_cons_of_mem _ ht, h⟩

/-! ## Applied tipsets -/

def Confirmed (confidenceOf : ℕ → Option Int64) (chain : List TipSet) (call : LoggedCall) : Prop :=
  call.isHandle = true ∧ ∀ ts, call.origin = some ts →
    ts ∈ chain ∧ ∃ conf, confidenceOf call.trigger = some conf ∧
      ∀ head ∈ chain.head?, ts.epoch + conf.toInt ≤ head.epoch

structure Advanced (chain : List TipSet) (e0 e : HcEvents) : Prop where
  tracked : Tracked chain e
  frame : Frame e0 e
  logs : Logs (Confirmed e0.confidenceOf chain) e0 e

variable {e0 : HcEvents}

lemma Confirmed.extend {confidenceOf : ℕ → Option Int64} {more : List TipSet}
    (hc : Confirmed confidenceOf chain call) (hd : Descending (more ++ chain)) :
    Confirmed confidenceOf (more ++ chain) call := by
  refine ⟨hc.1, fun ts hts => ?_⟩
  obtain ⟨hmem, conf, hconf, hle⟩ := hc.2 ts hts
  refine ⟨mem_append_right _ hmem, conf, hconf, fun head hhead => ?_⟩
  obtain ⟨old, below, rfl⟩ := exists_cons_of_ne_nil (ne_nil_of_mem hmem)
  refine (hle old rfl).trans ?_
  obtain ⟨rest, heq⟩ := head?_eq_some_iff.mp hhead
  rw [heq] at hd
  refine epoch_le_head hd ?_
  rw [← heq]
  exact mem_append_right _ (.head _)

lemma Advanced.extend (ha : Advanced chain e0 e) (more : List TipSet)
    (hd : Descending (more ++ chain)) : Advanced (more ++ chain) e0 e :=
  ⟨ha.tracked.extend hd, ha.frame, ha.logs.mono fun _ hc => hc.extend hd⟩

structure Queued (ts : TipSet) (tids : List ℕ) (e e' : HcEvents) : Prop where
  events : ∀ {T ev}, ev ∈ e'.eventsAt T ts.height → ev ∈ e.eventsAt T ts.height ∨ ev.trigger ∈ tids
  log : e'.log = e.log

/-- The loop that queues what was found, for triggers that have no event in the tipset. -/
lemma Tracked.queueTids {tids : List ℕ} (ht : Tracked (ts :: chain) e)
    (prevTs : Option TipSet) (found : AList fun _ : ℕ => EventData) (hnodup : tids.Nodup)
    (hnew : ∀ {T ev}, ev ∈ e.eventsAt T ts.height → ev.trigger ∉ tids) :
    Tracked (ts :: chain) (tids.forM (queueFound ts prevTs found) e).2 ∧
      Queued ts tids e (tids.forM (queueFound ts prevTs found) e).2 := by
  induction tids generalizing e with
  | nil => exact ⟨ht, ⟨.inl, rfl⟩⟩
  | cons tid tids ih =>
    obtain ⟨hnot, hnodup⟩ := nodup_cons.mp hnodup
    have hrest : ∀ {T ev}, ev ∈ e.eventsAt T ts.height → ev.trigger ∉ tids :=
      fun hev hmem => hnew hev (.tail _ hmem)
    rw [forM_cons]
    rcases queueFound_cases ts prevTs found tid e with
      ⟨err | ⟨⟩, hrun⟩ | ⟨conf, data, hconf, -, hrun⟩
    · rw [bind_of_error hrun]
      exact ⟨ht, ⟨.inl, rfl⟩⟩
    · rw [bind_of_ok hrun]
      obtain ⟨ht', hevents, hlog⟩ := ih ht hnodup hrest
      exact ⟨ht', ⟨fun hev => (hevents hev).imp_right (.tail _), hlog⟩⟩
    · rw [bind_of_ok hrun]
      have ht1 := ht.enqueue (.head _) hconf (fun ev hev htid => hnew hev (htid ▸ mem_cons_self ..))
        (prevTs.elim noHeight TipSet.height) data
      obtain ⟨ht', hevents, hlog⟩ := ih ht1 hnodup fun hev hmem => by
        grind [mem_enqueue]
      refine ⟨ht', ⟨fun hev => ?_, hlog⟩⟩
      grind [mem_enqueue]

lemma Tracked.queueAll (ht : Tracked (ts :: chain) e) (env : EventsEnv)
    (prevTs : Option TipSet) (found : AList fun _ : ℕ => EventData)
    (hnew : ∀ {T ev}, ev ∈ e.eventsAt T ts.height → ev.trigger ∉ found.keys) :
    Tracked (ts :: chain) (queueAll env ts prevTs found e).2 ∧
      Queued ts found.keys e (queueAll env ts prevTs found e).2 := by
  have hperm := env.idOrder_perm e.ranges found.keys
  obtain ⟨ht', hevents, hlog⟩ := (ht.ranges (e.ranges + 1)).queueTids prevTs found
    (hperm.nodup_iff.mpr found.nodupKeys) fun hev hmem => hnew hev (hperm.mem_iff.mp hmem)
  rw [HcEvents.queueAll, bind_of_ok (rangeIds_apply found.keys e)]
  exact ⟨ht', ⟨fun hev => (hevents hev).imp_right hperm.mem_iff.mp, hlog⟩⟩

lemma Tracked.fresh (ht : Tracked chain e) (hd : Descending (ts :: chain)) (T : Int64) :
    e.eventsAt T ts.height = [] := by
  refine eq_nil_iff_forall_not_mem.mpr fun ev hev => ?_
  obtain ⟨hmem, hheight⟩ := ht.origin hev
  have hlt := (pairwise_cons.mp hd).1 ev.origin hmem
  simp [TipSet.epoch, hheight] at hlt

lemma Tracked.queueStateChanges (ht : Tracked (ts :: chain) e) (env : EventsEnv)
    (hnone : ∀ T, e.eventsAt T ts.height = []) :
    Tracked (ts :: chain) (queueStateChanges env ts e).2 ∧
      (queueStateChanges env ts e).2.log = e.log ∧
      ∀ {T ev}, ev ∈ (queueStateChanges env ts e).2.eventsAt T ts.height →
        ev.trigger ∈ e.stateMatchers := by
  have hnone : ∀ {T ev}, ev ∉ e.eventsAt T ts.height := fun {T ev} => by simp [hnone T]
  obtain ⟨found, hfound, hstate⟩ := checkStateChanges_spec env e.lastTs ts e
  obtain ⟨ht', hevents, hlog⟩ := (ht.ranges (e.ranges + 1)).queueAll env (some e.lastTs) found
    fun hev => absurd hev hnone
  rw [HcEvents.queueStateChanges, bind_of_ok (get_apply e), bind_of_ok hfound]
  exact ⟨ht', hlog, fun hev => mem_of_changesState (hstate _ ((hevents hev).resolve_left hnone))⟩

lemma Tracked.queueNewCalls (ht : Tracked (ts :: chain) e) (env : EventsEnv)
    (hother : ∀ {T ev}, ev ∈ e.eventsAt T ts.height → ev.trigger ∉ e.messageMatchers) :
    Tracked (ts :: chain) (queueNewCalls env ts e).2 ∧ (queueNewCalls env ts e).2.log = e.log := by
  rw [HcEvents.queueNewCalls]
  rcases checkNewCalls_spec env ts e with ⟨err, hcalls⟩ | ⟨calls, n, hcalls, hmessage⟩
  · grind [bind_of_error]
  · rw [bind_of_ok hcalls]
    obtain ⟨ht', -, hlog⟩ := (ht.ranges n).queueAll env none calls
      fun hev hmem => hother hev (mem_of_acceptsMessage (hmessage _ hmem))
    exact ⟨ht', hlog⟩

lemma Advanced.queued (ha : Advanced chain e0 e) (ht : Tracked chain e') (hf : Frame e e')
    (hlog : e'.log = e.log) : Advanced chain e0 e' :=
  ⟨ht, IsTrans.trans _ _ _ ha.frame hf, ha.logs.trans (.of_eq hlog)⟩

lemma Advanced.ranges (n : ℕ) (ha : Advanced chain e0 e) :
    Advanced chain e0 { e with ranges := n } :=
  ha.queued (ha.tracked.alike rfl rfl rfl id) (still_ranges e n).toFrame rfl

/-- An event is delivered at a height that the head has reached. -/
lemma applyEvent_advanced (hanswer : ∀ log, (env.answer log).isOk = true)
    (hnonneg : ∀ ts ∈ chain, 0 ≤ ts.epoch)
    (hT : 0 ≤ T.toInt ∧ ∀ head ∈ chain.head?, T.toInt ≤ head.epoch) (h : Int64)
    (triggerTs : Option TipSet) (i : ℕ) :
    Keeps (Preserves (Advanced chain e0)) (applyEvent env tsc T h triggerTs i) := fun e ha => by
  have hstill : Still e (applyEvent env tsc T h triggerTs i e).2 :=
    applyEvent_still T h triggerTs i e
  have hframe := IsTrans.trans _ _ _ ha.frame hstill.toFrame
  rcases applyEvent_cases T h triggerTs i e with heq |
    ⟨ev, trigger, call, hev, hcalled, htrigger, henabled, hcall, ⟨err, herr, -⟩ | ⟨more, -, heq⟩⟩
  · rwa [heq]
  · cases herr ▸ hanswer (e.log ++ [call])
  · rw [heq] at hframe ⊢
    refine ⟨ha.tracked.deliver hev hcalled htrigger henabled hcall more, hframe,
      ha.logs.trans (.one call rfl ⟨hcall.isHandle, fun ts hts => ?_⟩)⟩
    cases hcall.2.1.symm.trans hts
    have hmem := mem_of_getElem? hev
    obtain ⟨hchain, hheight⟩ := ha.tracked.origin hmem
    obtain ⟨conf, hconf, hat⟩ := ha.tracked.trigger hmem
    refine ⟨hchain, conf, ?_, fun head hhead => ?_⟩
    · rwa [hcall.1, ← ha.frame.confidenceOf]
    · have hsum := Word.toInt_add_of_nonneg (hnonneg _ hchain) (y := conf)
        (by rw [hheight, ← hat]; exact hT.1)
      grind [TipSet.epoch]

lemma applyWithConfidence_advanced (hanswer : ∀ log, (env.answer log).isOk = true)
    (hnonneg : ∀ ts ∈ chain, 0 ≤ ts.epoch)
    (hT : 0 ≤ T.toInt ∧ ∀ head ∈ chain.head?, T.toInt ≤ head.epoch) :
    Keeps (Preserves (Advanced chain e0)) (applyWithConfidence env tsc T) :=
  applyWithConfidence_keeps (fun _ n => .ranges n) (applyEvent_advanced hanswer hnonneg hT)

/-- A timeout is about no tipset. -/
lemma applyTimeout_advanced (hanswer : ∀ log, (env.answer log).isOk = true) (ts : TipSet)
    (tid : ℕ) : Keeps (Preserves (Advanced chain e0)) (applyTimeout env tsc ts tid) := by
  intro e ha
  have hstill : Still e (applyTimeout env tsc ts tid e).2 := applyTimeout_still ts tid e
  have hframe := IsTrans.trans _ _ _ ha.frame hstill.toFrame
  rcases applyTimeout_cases ts tid e with heq |
    ⟨trigger, call, -, htrigger, henabled, hcall, ⟨err, herr, -⟩ | ⟨more, -, heq⟩⟩
  · rwa [heq]
  · cases herr ▸ hanswer (e.log ++ [call])
  · rw [heq] at hframe ⊢
    refine ⟨ha.tracked.alike rfl rfl ?_ ?_, hframe,
      ha.logs.trans (.one call rfl ⟨hcall.isHandle, fun ts hts => ?_⟩)⟩
    · funext tid ts
      refine (callsAbout_logCall e call tid ts).trans ?_
      simp [hcall.2.1]
    · rw [(still_setDisabled (e := e.logCall call) htrigger henabled _).confidenceOf]
      exact id
    · simp [hcall.2.1] at hts

lemma applyTimeouts_advanced (hanswer : ∀ log, (env.answer log).isOk = true) (ts : TipSet) :
    Keeps (Preserves (Advanced chain e0)) (applyTimeouts env tsc ts) :=
  applyTimeouts_keeps (fun _ n => .ranges n) (applyTimeout_advanced hanswer ts)

lemma applyTipSet_nonneg (hts : 0 ≤ ts.epoch) :
    Keeps (Preserves fun e => 0 ≤ e.lastTs.epoch) (applyTipSet env tsc ts) := by
  refine applyTipSet_keeps (fun _ _ => id) (fun _ => id) (fun x _ origH triggerTs i e => ?_)
    (fun e => ?_) fun _ _ => hts
  · rw [Preserves, (applyEvent_still x origH triggerTs i e).lastTs]
    exact id
  · rw [Preserves, (applyTimeouts_still ts e).lastTs]
    exact id

/-- A tipset is applied. -/
lemma Advanced.applyTipSet (ha : Advanced chain e0 e) (tsc : TipSetCache) (hw : e.Wired)
    (hanswer : ∀ log, (env.answer log).isOk = true) (hd : Descending (ts :: chain))
    (hnonneg : ∀ t ∈ ts :: chain, 0 ≤ t.epoch) (hlast : 0 ≤ e.lastTs.epoch) :
    Advanced (ts :: chain) e0 (applyTipSet env tsc ts e).2 := by
  have ha0 : Advanced (ts :: chain) e0 e := ha.extend [ts] hd
  obtain ⟨ht1, hlog1, hstate⟩ := ha0.tracked.queueStateChanges env (ha.tracked.fresh hd)
  have hstill1 := @queueStateChanges_still env ts e
  refine snd_bind (ha0.queued ht1 hstill1.toFrame hlog1) ?_
  rintro ⟨⟩ e1 hrun1 ha1
  rw [hrun1] at hstate hstill1
  obtain ⟨ht2, hlog2⟩ := ha1.tracked.queueNewCalls env fun hev hmem =>
    hw.disjoint (hstill1.messageMatchers ▸ hmem) (hstate hev)
  have hstill2 := @queueNewCalls_still env ts e1
  refine snd_bind (ha1.queued ht2 hstill2.toFrame hlog2) ?_
  rintro ⟨⟩ e2 hrun2 ha2
  rw [hrun2] at hstill2
  rw [bind_of_ok (get_apply e2), hstill2.lastTs.trans hstill1.lastTs]
  refine snd_bind (applyHeights_keeps (fun hn => ?_) (fun x hx hx' => ?_)
    (applyTimeouts_advanced hanswer ts) e2 ha2) ?_
  · unfold TipSet.epoch
    omega
  · refine applyWithConfidence_advanced hanswer hnonneg ⟨hlast.trans hx, fun head hhead => ?_⟩
    cases hhead
    exact hx'
  · rintro ⟨⟩ e3 - ha3
    split_ifs
    · exact ha3
    · exact ha3.queued (ha3.tracked.alike rfl rfl rfl id) (frame_lastTs ..) rfl

/-- The second loop of `processHeadChangeEvent` puts the tipsets on the chain. -/
lemma Advanced.applies {app : List TipSet} (ha : Advanced chain e0 e) (tsc : TipSetCache)
    (hw : e.Wired)
    (hanswer : ∀ log, (env.answer log).isOk = true) (hd : Descending (app.reverse ++ chain))
    (hnonneg : ∀ t ∈ app.reverse ++ chain, 0 ≤ t.epoch) (hlast : 0 ≤ e.lastTs.epoch) :
    Advanced (app.reverse ++ chain) e0 (app.forM (HcEvents.applyTipSet env tsc) e).2 ∧
      0 ≤ (app.forM (HcEvents.applyTipSet env tsc) e).2.lastTs.epoch := by
  induction app generalizing chain e with
  | nil => exact ⟨ha, hlast⟩
  | cons ts app ih =>
    rw [reverse_cons, append_assoc] at hd hnonneg ⊢
    have hbelow : ∀ t ∈ ts :: chain, 0 ≤ t.epoch := fun t ht =>
      hnonneg t (mem_append_right _ ht)
    have ha1 := ha.applyTipSet tsc hw hanswer (pairwise_append.mp hd).2.1 hbelow hlast
    have hlast1 := @applyTipSet_nonneg env tsc ts (hbelow ts (.head _)) e hlast
    rw [forM_cons]
    rcases hrun : HcEvents.applyTipSet env tsc ts e with ⟨err | ⟨⟩, e1⟩
    · rw [hrun] at ha1 hlast1
      rw [bind_of_error hrun]
      exact ⟨ha1.extend _ hd, hlast1⟩
    · have hw1 := hw.frame ((applyTipSet_frame ts).of_run hrun)
      rw [hrun] at ha1 hlast1
      rw [bind_of_ok hrun]
      exact ih ha1 hw1 hd hnonneg hlast1

lemma newHCEvents_tracked (head : TipSet) (hd : Descending chain) :
    Tracked chain (newHCEvents head) := by
  have hnone : ∀ {T h ev}, ev ∉ (newHCEvents head).eventsAt T h := fun hev =>
    absurd hev not_mem_nil
  refine ⟨hd, fun hev => absurd hev hnone, fun hev => absurd hev hnone, fun hev => absurd hev hnone,
    fun _ _ => nodup_nil, fun _ _ => Turns.alternates_nil, fun {tid ts} => ?_⟩
  exact iff_of_false (fun h => nomatch h) fun ⟨T, h, ev, hev, _⟩ => hnone hev

lemma Tracked.registers (ht : Tracked chain e) (hw : e.Wired) {kind : TriggerKind}
    {confidence timeout : Int64} {disabled : Bool}
    (hr : Registers kind confidence timeout disabled e e') : Tracked chain e' := by
  refine ht.alike (eventsAt_congr hr.confQueue) hr.revertQueue (callsAbout_congr hr.log)
    fun {tid conf} h => ?_
  rwa [hr.confidenceOf, if_neg (hw.lt_ctr (by rw [h]; rfl)).ne]

end HcEvents

open HcEvents

structure StepConfirmed (s : EventsRun) (ev : ChainEvent) (s' : EventsRun)
    (new : List LoggedCall) : Prop where
  log : s'.events.log = s.events.log ++ new
  handle : ∀ call ∈ new, call.isHandle = true → ∀ ts, call.origin = some ts →
    ts ∈ s'.chain ∧ ∃ conf, s.events.confidenceOf call.trigger = some conf ∧
      ∀ head ∈ s'.chain.head?, ts.epoch + conf.toInt ≤ head.epoch
  revert : ∀ call ∈ new, call.isHandle = false → ∃ ts ∈ ev.reverted, IsRevert ts call
  reverted : ∀ ts ∈ ev.reverted, ∀ tid, s.events.Handled tid ts → ⟨tid, some ts, .revert ts⟩ ∈ new

structure EventsRun.Follows (s : EventsRun) : Prop extends s.Sound where
  wired : s.events.Wired
  tracked : Tracked s.chain s.events
  last_nonneg : 0 ≤ s.events.lastTs.epoch

section

variable {env : EventsEnv} {s s' : EventsRun} {ev : ChainEvent}

lemma StepConfirmed.of_log_eq (hlog : s'.events.log = s.events.log) (hrev : ev.reverted = []) :
    StepConfirmed s ev s' [] where
  log := by rw [hlog, append_nil]
  handle _ h := absurd h not_mem_nil
  revert _ h := absurd h not_mem_nil
  reverted ts h := absurd (hrev ▸ h) not_mem_nil

/-- A head change calls revert handlers, and then handlers. -/
lemma EventsRun.Follows.headChange {rev app : List TipSet} (hs : s.Follows)
    (hanswer : ∀ log, (env.answer log).isOk = true)
    (hstep : s.step env (.headChange rev app) = some s') :
    (Tracked s'.chain s'.events ∧ 0 ≤ s'.events.lastTs.epoch) ∧
      ∃ new, StepConfirmed s (.headChange rev app) s' new := by
  have hsound := hs.toSound.step hstep
  obtain ⟨hhead, -, hevents, hchain⟩ := EventsRun.step_headChange hstep
  obtain ⟨fork, rest, hold, hdrop, -⟩ := hhead.exists_fork hs.represents.descending
  have htracked := hs.tracked
  have hnonneg := hs.nonneg
  rw [hold] at htracked hnonneg
  obtain ⟨e1, hrun1, ht1, hlast1, hlogs1⟩ := htracked.reverts hs.last_nonneg
    fun ts hts => hnonneg ts (mem_append_left _ hts)
  have hframe1 : HcEvents.Frame s.events e1 := (Keeps.forM revertTipSet_frame rev).of_run hrun1
  rw [hdrop] at hchain
  have hd := hsound.represents.descending
  have hnonneg' := hsound.nonneg
  rw [hchain] at hd hnonneg'
  obtain ⟨ha, hlast⟩ := HcEvents.Advanced.applies
    ⟨ht1, Std.Refl.refl e1, .of_eq rfl⟩ s'.tsc (hs.wired.frame hframe1) hanswer hd hnonneg' hlast1
  have hrun : s'.events = (app.forM (HcEvents.applyTipSet env s'.tsc) e1).2 := by
    rw [hevents, processHeadChangeEvent, bind_of_ok hrun1]
  rw [← hrun, ← hchain] at ha
  rw [← hrun] at hlast
  refine ⟨⟨ha.tracked, hlast⟩, ?_⟩
  obtain ⟨reverts, hlog1, hreverts⟩ := hlogs1
  obtain ⟨handles, hlog, hhandles⟩ := ha.logs
  refine ⟨reverts ++ handles, ?_, fun call hcall hhandle => ?_, fun call hcall hnot => ?_,
    fun ts hts tid hhandled => ?_⟩
  · rw [hlog, hlog1, append_assoc]
  · rcases mem_append.mp hcall with hcall | hcall
    · obtain ⟨ts, -, -, hrevert⟩ := hreverts call hcall
      rw [LoggedCall.isHandle, hrevert] at hhandle
      cases hhandle
    · rw [← hframe1.confidenceOf]
      exact (hhandles call hcall).2
  · rcases mem_append.mp hcall with hcall | hcall
    · exact hreverts call hcall
    · rw [(hhandles call hcall).1] at hnot
      cases hnot
  · -- The tipset is off the chain, so that its event is not handled any more.
    have hoff : ¬e1.Handled tid ts := fun h => by
      obtain ⟨T, h, ev, hev, -, rfl, -⟩ := ht1.handled_iff.mp h
      exact ((pairwise_append.mp htracked.descending).2.2 _ hts _ (ht1.origin hev).1).false
    have hcall : ∃ call ∈ reverts, call.trigger = tid ∧ call.origin = some ts := by
      by_contra hnone
      have hnil : (reverts.filter fun call => call.trigger = tid ∧ call.origin = some ts) = [] :=
        filter_eq_nil_iff.mpr fun call hcall hkey =>
          hnone ⟨call, hcall, of_decide_eq_true hkey⟩
      have hsame : e1.callsAbout tid ts = s.events.callsAbout tid ts := by
        unfold callsAbout
        rw [hlog1, filter_append, hnil, append_nil]
      grind [Handled]
    obtain ⟨⟨_, _, _⟩, hmem, rfl, rfl⟩ := hcall
    obtain ⟨ts', -, horigin, hrevert⟩ := hreverts _ hmem
    obtain rfl := Option.some.inj horigin
    obtain rfl := hrevert
    exact mem_append_left _ hmem

lemma EventsRun.Follows.step (hs : s.Follows) (hanswer : ∀ log, (env.answer log).isOk = true)
    (hstep : s.step env ev = some s') : s'.Follows ∧ ∃ new, StepConfirmed s ev s' new := by
  have hsound := hs.toSound.step hstep
  have hwired : s'.IsWired := EventsRun.IsWired.step hs.wired hstep
  rcases EventsRun.step_cases hstep with
    ⟨rev, app, rfl⟩ | ⟨⟨hrev, -⟩, -, hchain, heq | ⟨_, _, _, _, hr⟩⟩
  · obtain ⟨⟨htracked, hlast⟩, hnew⟩ := hs.headChange hanswer hstep
    exact ⟨⟨hsound, hwired, htracked, hlast⟩, hnew⟩
  · refine ⟨⟨hsound, hwired, ?_, ?_⟩, [], .of_log_eq (congrArg HcEvents.log heq) hrev⟩ <;>
      simp_all [hs.tracked, hs.last_nonneg]
  · refine ⟨⟨hsound, hwired, ?_, ?_⟩, [], .of_log_eq hr.log hrev⟩ <;>
      grind [hs.tracked.registers, hs.wired, hr.lastTs, hs.last_nonneg]

lemma EventsRun.Sound.follows (hs : s.Sound)
    (hnew : ∃ head ∈ s.chain, s.events = newHCEvents head) : s.Follows := by
  obtain ⟨head, hhead, hevents⟩ := hnew
  refine ⟨hs, ?_, ?_, ?_⟩ <;> rw [hevents]
  · exact newHCEvents_wired head
  · exact newHCEvents_tracked head hs.represents.descending
  · exact hs.nonneg head hhead

end

/-- In every run with handlers that do not fail, where every head change is a step: a handler is
called only if its tipset is on the chain and the head has left it behind by the confidence, in turn
with the revert handler, and the revert handler is called exactly for what was handled in a tipset
that is reverted. -/
theorem events_confirmed (env : EventsEnv) (hanswer : ∀ log, (env.answer log).isOk = true)
    (start : EventsRun) (hstart : start.Sound)
    (hnew : ∃ head ∈ start.chain, start.events = newHCEvents head) {s : EventsRun}
    (evs : List ChainEvent) (hrun : Runs.run (EventsRun.step env) start evs = some s) :
    (∀ tid ts, Turns.Alternates LoggedCall.isHandle (s.events.callsAbout tid ts)) ∧
    (∀ tid ts, s.events.Handled tid ts → ts ∈ s.chain) ∧
    (∀ ev s', s.step env ev = some s' → ∃ new, StepConfirmed s ev s' new) ∧
    ∀ rev app, IsHeadChange s.chain rev app → (s.step env (.headChange rev app)).isSome = true := by
  have hs : s.Follows := Runs.invariant (fun hs _ hstep => (hs.step hanswer hstep).1)
    (hstart.follows hnew) Runs.along_true hrun
  refine ⟨hs.tracked.alternates, fun tid ts h => ?_, fun ev s' hstep => (hs.step hanswer hstep).2,
    fun rev app hhead => hs.toSound.step_isSome hhead⟩
  obtain ⟨T, h, ev, hev, -, rfl, -⟩ := hs.tracked.handled_iff.mp h
  exact (hs.tracked.origin hev).1

def sampleRevertedCall : List ChainEvent :=
  [.called (.ok (false, true)) 1 noTimeout (sampleMatch false 1), .headChange [] [sampleEpoch 6],
    .headChange [] [sampleEpoch 7], .headChange [sampleEpoch 7, sampleEpoch 6] [sampleEpoch 8]]

theorem sampleRevertedCall_confirmed :
    ∃ s, Runs.run (EventsRun.step (sampleEventsEnv [sampleCall 1] (.ok true))) sampleEvents
        sampleRevertedCall = some s ∧
      (s.events.callsAbout 0 (sampleEpoch 6)).map LoggedCall.call =
        [.message (some (sampleCall 1)) ⟨0, [], 0⟩ (some (sampleEpoch 6)) 7,
          .revert (sampleEpoch 6)] ∧
      Turns.Alternates LoggedCall.isHandle (s.events.callsAbout 0 (sampleEpoch 6)) ∧
      ∀ ev s', s.step (sampleEventsEnv [sampleCall 1] (.ok true)) ev = some s' →
        ∃ new, StepConfirmed s ev s' new := by
  refine ⟨_, rfl, by decide, ?_⟩
  have hconfirmed := events_confirmed (sampleEventsEnv [sampleCall 1] (.ok true)) (fun _ => rfl)
    sampleEvents sampleEvents_sound ⟨_, mem_cons_self .., rfl⟩ sampleRevertedCall rfl
  exact ⟨hconfirmed.1 0 (sampleEpoch 6), hconfirmed.2.2.1⟩

end Lotus
