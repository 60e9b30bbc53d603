import Lotus.Events.ChainRun

/-!
# Message events

`checkNewCalls` keeps one message for each trigger, and leaves the loop over the triggers at the
first one that accepts a message with `matchOnce`.
-/

namespace Lotus

open Act List Option

namespace HcEvents

variable {env : EventsEnv} {e e' : HcEvents} {ts : TipSet} {tid : ℕ} {msg : Message}

lemma mem_of_mem_unseen {codec : Codec} {seen : List Cid} {ms : List Message}
    (h : msg ∈ unseen codec seen ms) : msg ∈ ms ∧ codec.messageCid msg ∉ seen := by
  induction ms generalizing seen with
  | nil => cases h
  | cons m ms ih =>
    rw [unseen] at h
    grind

lemma unseen_pairwise (codec : Codec) (seen : List Cid) (ms : List Message) :
    (unseen codec seen ms).Pairwise fun m m' => codec.messageCid m ≠ codec.messageCid m' := by
  induction ms generalizing seen with
  | nil => exact .nil
  | cons m ms ih =>
    rw [unseen]
    split_ifs
    · exact ih seen
    · refine pairwise_cons.mpr ⟨fun m' hm' heq => ?_, ih _⟩
      exact (mem_of_mem_unseen hm').2 (heq ▸ mem_cons_self ..)

lemma exists_mem_unseen {codec : Codec} (seen : List Cid) {ms : List Message} (h : msg ∈ ms) :
    codec.messageCid msg ∈ seen ∨
      ∃ m ∈ unseen codec seen ms, codec.messageCid m = codec.messageCid msg := by
  induction ms generalizing seen with
  | nil => cases h
  | cons m ms ih =>
    rw [unseen]
    split_ifs with hseen
    · grind
    · grind

/-- What is found for a trigger in the loop for one message does not depend on what was there. -/
lemma lookup_matchMessage (matchers : AList fun _ : ℕ => List MsgMatchFunc) (msg : Message)
    (tids : List ℕ) (res : AList fun _ : ℕ => EventData) (tid : ℕ) :
    (matchMessage matchers msg tids res).lookup tid =
      ((matchMessage matchers msg tids ∅).lookup tid).or (res.lookup tid) := by
  induction tids generalizing res with
  | nil => rfl
  | cons t tids ih =>
    rw [matchMessage, matchMessage]
    rcases accepts ((matchers.lookup t).getD []) msg with _ | once
    · exact ih res
    · have hinsert : ∀ r : AList fun _ : ℕ => EventData, (r.insert t (.message msg)).lookup tid =
            if tid = t then some (.message msg) else r.lookup tid := by
        intro r
        split_ifs with heq
        · rw [heq, AList.lookup_insert]
        · exact AList.lookup_insert_ne heq
      cases once with
      | true =>
        dsimp only
        rw [hinsert, hinsert]
        split_ifs <;> simp
      | false =>
        dsimp only
        rw [ih, ih (AList.insert t (.message msg) ∅), hinsert, hinsert, Option.or_assoc]
        split_ifs <;> simp

variable {matchers : AList fun _ : ℕ => List MsgMatchFunc} {tids : List ℕ}

/-- Only a message that the trigger accepts is found for it. -/
lemma matchMessage_eq_some {data : EventData}
    (h : (matchMessage matchers msg tids ∅).lookup tid = some data) :
    tid ∈ tids ∧ (accepts ((matchers.lookup tid).getD []) msg).isSome = true ∧
      data = .message msg := by
  induction tids with
  | nil => cases h
  | cons t tids ih =>
    rw [matchMessage] at h
    rcases haccepts : accepts ((matchers.lookup t).getD []) msg with _ | once
    · grind
    · by_cases heq : tid = t
      · subst heq
        refine ⟨mem_cons_self .., by rw [haccepts]; rfl, ?_⟩
        rw [haccepts] at h
        cases once with
        | true => grind [AList.lookup_insert]
        | false =>
          dsimp only at h
          rw [lookup_matchMessage, AList.lookup_insert] at h
          rcases hrest : (matchMessage matchers msg tids ∅).lookup tid with _ | data'
          · grind
          · grind
      · rw [haccepts] at h
        cases once <;>
          grind [AList.lookup_insert_ne, lookup_matchMessage, AList.lookup_empty]

lemma matchMessage_eq_message (htid : tid ∈ tids)
    (haccepts : (accepts ((matchers.lookup tid).getD []) msg).isSome = true)
    (hsole : ∀ t ∈ tids, accepts ((matchers.lookup t).getD []) msg = some true → t = tid) :
    (matchMessage matchers msg tids ∅).lookup tid = some (.message msg) := by
  induction tids with
  | nil => cases htid
  | cons t tids ih =>
    have hsole' : ∀ t' ∈ tids, accepts ((matchers.lookup t').getD []) msg = some true → t' = tid :=
      fun t' ht' => hsole t' (.tail _ ht')
    rw [matchMessage]
    rcases honce : accepts ((matchers.lookup t).getD []) msg with _ | once
    · grind
    · cases once with
      | true =>
        obtain rfl := hsole t (.head _) honce
        exact AList.lookup_insert ..
      | false =>
        dsimp only
        rw [lookup_matchMessage]
        rcases hrest : (matchMessage matchers msg tids ∅).lookup tid with _ | data <;>
          grind [mem_of_ne_of_mem, AList.lookup_insert, matchMessage_eq_some]

variable (env) in
/-- The loop of `checkNewCalls` over the messages. -/
def matchMessages (matchers : AList fun _ : ℕ => List MsgMatchFunc) (msgs : List Message)
    (res : AList fun _ : ℕ => EventData) : Act HcEvents NodeErr (AList fun _ : ℕ => EventData) :=
  msgs.foldlM
    (fun res msg => do
      let tids ← rangeIds env matchers.keys
      pure (matchMessage matchers msg tids res)) res

variable (env) in
/-- A message gets to a trigger, in the loop of `checkNewCalls` at the `n`-th range. -/
def GetsTo (matchers : AList fun _ : ℕ => List MsgMatchFunc) (n : ℕ) (msg : Message) (tid : ℕ) :
    Prop :=
  (matchMessage matchers msg (env.idOrder n matchers.keys) ∅).lookup tid = some (.message msg)

lemma matchMessages_spec (env : EventsEnv) (matchers : AList fun _ : ℕ => List MsgMatchFunc)
    (msgs : List Message) (res : AList fun _ : ℕ => EventData) (e : HcEvents) :
    ∃ res' n, matchMessages env matchers msgs res e = (.ok res', { e with ranges := n }) ∧
      (∀ tid data, res'.lookup tid = some data → res.lookup tid = some data ∨
        ∃ msg ∈ msgs, data = .message msg ∧ ∃ k, GetsTo env matchers k msg tid) ∧
      ∀ tid msg,
        ((∀ m ∈ msgs, (accepts ((matchers.lookup tid).getD []) m).isSome = true → m = msg) →
          (res.lookup tid = some (.message msg) ∨ msg ∈ msgs ∧ ∀ k, GetsTo env matchers k msg tid) →
          res'.lookup tid = some (.message msg)) := by
  induction msgs generalizing res e with
  | nil =>
    refine ⟨res, e.ranges, rfl, fun _ _ => .inl, fun tid msg _ h => ?_⟩
    exact h.resolve_right fun h => absurd h.1 not_mem_nil
  | cons m msgs ih =>
    obtain ⟨res', n, hrun, hfound, honly⟩ :=
      ih (matchMessage matchers m (env.idOrder e.ranges matchers.keys) res)
        { e with ranges := e.ranges + 1 }
    refine ⟨res', n, ?_, fun tid data h => ?_, fun tid msg hsole h => ?_⟩
    · rwa [matchMessages, foldlM_cons]
    · rcases hfound tid data h with h | ⟨msg, hmem, hdata, hgets⟩
      · rw [lookup_matchMessage] at h
        rcases or_eq_some_iff.mp h with hnew | ⟨-, hold⟩
        · obtain rfl := (matchMessage_eq_some hnew).2.2
          exact .inr ⟨m, mem_cons_self .., rfl, e.ranges, hnew⟩
        · exact .inl hold
      · exact .inr ⟨msg, .tail _ hmem, hdata, hgets⟩
    · refine honly tid msg (fun m' hm' => hsole m' (.tail _ hm')) ?_
      rcases h with hold | ⟨hmem, hgets⟩
      · left
        rw [lookup_matchMessage]
        rcases hnew : (matchMessage matchers m (env.idOrder e.ranges matchers.keys) ∅).lookup tid
          with _ | data
        · exact hold
        · obtain ⟨-, haccepts, rfl⟩ := matchMessage_eq_some hnew
          rw [hsole m (.head _) haccepts]
          rfl
      · rcases mem_cons.mp hmem with rfl | hmem
        · left
          rw [lookup_matchMessage, show _ = some (EventData.message msg) from hgets e.ranges]
          rfl
        · exact .inr ⟨hmem, hgets⟩

def changesState (e : HcEvents) (old new : TipSet) (tid : ℕ) : Bool :=
  ((e.stateMatchers.lookup tid).bind fun matchFn => (matchFn old new).toOption.join).isSome

variable (env) in
def acceptsMessage (e : HcEvents) (ts : TipSet) (tid : ℕ) : Bool :=
  match env.chainGetTipSet ts.parents with
  | .error _ => false
  | .ok pts => (messagesForTs env pts).any fun msg =>
    (accepts ((e.messageMatchers.lookup tid).getD []) msg).isSome

lemma mem_of_changesState {old new : TipSet} (h : e.changesState old new tid = true) :
    tid ∈ e.stateMatchers := by
  rw [← AList.lookup_isSome]
  rw [changesState] at h
  grind [isSome_iff_exists, bind_eq_some_iff]

lemma mem_of_acceptsMessage (h : e.acceptsMessage env ts tid = true) : tid ∈ e.messageMatchers := by
  rw [← AList.lookup_isSome]
  rw [acceptsMessage] at h
  rcases hlookup : e.messageMatchers.lookup tid with _ | matchFns
  · rw [hlookup] at h
    split at h
    · cases h
    · obtain ⟨msg, -, haccepts⟩ := any_eq_true.mp h
      cases haccepts
  · rfl

lemma checkStateChanges_spec (env : EventsEnv) (old new : TipSet) (e : HcEvents) :
    ∃ found : AList fun _ : ℕ => EventData,
      checkStateChanges env old new e = (.ok found, { e with ranges := e.ranges + 1 }) ∧
      ∀ tid ∈ found.keys, e.changesState old new tid = true := by
  refine ⟨_, rfl, ?_⟩
  generalize env.idOrder e.ranges e.stateMatchers.keys = tids
  have hfold : ∀ (tids : List ℕ) (res : AList fun _ : ℕ => EventData),
      (∀ tid ∈ res.keys, e.changesState old new tid = true) →
      ∀ tid ∈ (tids.foldl (fun res tid => ((e.stateMatchers.lookup tid).bind fun matchFn =>
        (matchFn old new).toOption.join).elim res fun data => res.insert tid (.change data))
          res).keys, e.changesState old new tid = true := by
    intro tids
    induction tids with
    | nil => exact fun res hres => hres
    | cons t tids ih =>
      intro res hres
      refine ih _ ?_
      dsimp only
      rcases hchange : (e.stateMatchers.lookup t).bind fun matchFn =>
        (matchFn old new).toOption.join with _ | data
      · exact hres
      · intro tid htid
        rcases (AList.mem_insert _).mp (AList.mem_keys.mp htid) with rfl | htid <;>
          grind [changesState, AList.mem_keys]
  exact hfold tids ∅ nofun

lemma checkNewCalls_spec (env : EventsEnv) (ts : TipSet) (e : HcEvents) :
    (∃ err, checkNewCalls env ts e = (.error err, e)) ∨
      ∃ (found : AList fun _ : ℕ => EventData) (n : ℕ),
        checkNewCalls env ts e = (.ok found, { e with ranges := n }) ∧
        ∀ tid ∈ found.keys, e.acceptsMessage env ts tid = true := by
  rcases hparent : env.chainGetTipSet ts.parents with err | pts
  · left
    exact ⟨err, bind_of_error (by rw [ofExcept_apply, hparent])⟩
  · obtain ⟨found, n, hrun, hfound, -⟩ := matchMessages_spec env e.messageMatchers
      (messagesForTs env pts) ∅ e
    refine .inr ⟨found, n, ?_, fun tid htid => ?_⟩
    · rwa [checkNewCalls, bind_of_ok (ofExcept_of_ok hparent e)]
    · obtain ⟨data, hdata⟩ := isSome_iff_exists.mp
        (AList.lookup_isSome.mpr (AList.mem_keys.mp htid))
      rcases hfound tid data hdata with h | ⟨msg, hmsg, -, k, hgets⟩
      · cases h
      · rw [acceptsMessage, hparent]
        exact any_eq_true.mpr ⟨msg, hmsg, (matchMessage_eq_some hgets).2.1⟩

/-! ## The events of a trigger -/

def countOf (e : HcEvents) (T h : Int64) (tid : ℕ) (msg : Message) : ℕ :=
  (e.eventsAt T h).countP fun ev => ev.trigger = tid ∧ ev.data = .message msg

lemma countOf_enqueue (e : HcEvents) (T : Int64) (ev : QueuedEvent) (T' h' : Int64) (tid : ℕ)
    (msg : Message) :
    (e.enqueue T ev).countOf T' h' tid msg = e.countOf T' h' tid msg +
        if T' = T ∧ h' = ev.h ∧ ev.trigger = tid ∧ ev.data = .message msg then 1 else 0 := by
  unfold countOf
  rw [eventsAt_enqueue]
  by_cases hat : T' = T ∧ h' = ev.h
  · grind
  · grind

lemma queueTids_countOf {conf : Int64} {found : AList fun _ : ℕ => EventData}
    (prevTs : Option TipSet) (msg : Message) (hnodup : tids.Nodup)
    (hwired : ∀ t ∈ tids, (e.confidenceOf t).isSome = true)
    (hconf : e.confidenceOf tid = some conf) :
    ∃ e', tids.forM (queueFound ts prevTs found) e = (.ok (), e') ∧
      e'.countOf (ts.height + conf) ts.height tid msg =
        e.countOf (ts.height + conf) ts.height tid msg +
          if tid ∈ tids ∧ found.lookup tid = some (.message msg) then 1 else 0 := by
  induction tids generalizing e with
  | nil => exact ⟨e, rfl, by simp⟩
  | cons t tids ih =>
    obtain ⟨hnot, hnodup⟩ := nodup_cons.mp hnodup
    have hrest : ∀ t' ∈ tids, (e.confidenceOf t').isSome = true :=
      fun t' ht' => hwired t' (.tail _ ht')
    rcases hfound : found.lookup t with _ | data
    · obtain ⟨e', hrun, hcount⟩ := ih hnodup hrest hconf
      refine ⟨e', ?_, ?_⟩
      · show (queueFound ts prevTs found t >>=
          fun _ => tids.forM (queueFound ts prevTs found)) e = _
        rwa [queueFound, hfound]
      · grind
    · obtain ⟨k, hk⟩ := isSome_iff_exists.mp (hwired t (.head _))
      obtain ⟨trigger, htrigger, rfl⟩ := map_eq_some_iff.mp hk
      have hqueue : queueForConfidence ts prevTs t data e =
          (.ok (), e.enqueue (ts.height + trigger.confidence)
            ⟨t, prevTs.elim noHeight TipSet.height, ts.height, data, false, ts⟩) := by
        rw [queueForConfidence, bind_of_ok (get_apply e), htrigger]
        rfl
      obtain ⟨e', hrun, hcount⟩ := ih (e := e.enqueue (ts.height + trigger.confidence)
        ⟨t, prevTs.elim noHeight TipSet.height, ts.height, data, false, ts⟩) hnodup hrest hconf
      refine ⟨e', ?_, ?_⟩
      · show (queueFound ts prevTs found t >>=
          fun _ => tids.forM (queueFound ts prevTs found)) e = _
        rw [queueFound, hfound]
        exact (bind_of_ok hqueue).trans hrun
      · grind [countOf_enqueue, Nat.add_assoc]

lemma queueNewCalls_countOf {pts : TipSet} (hw : e.Wired)
    (hparent : env.chainGetTipSet ts.parents = .ok pts) :
    ∃ res : AList fun _ : ℕ => EventData,
      (∀ tid data, res.lookup tid = some data → ∃ msg ∈ messagesForTs env pts,
        data = .message msg ∧ ∃ k, GetsTo env e.messageMatchers k msg tid) ∧
      (∀ tid, ∀ msg ∈ messagesForTs env pts, (∀ m ∈ messagesForTs env pts,
          (accepts ((e.messageMatchers.lookup tid).getD []) m).isSome = true → m = msg) →
        (∀ k, GetsTo env e.messageMatchers k msg tid) → res.lookup tid = some (.message msg)) ∧
      ∀ tid conf msg, e.confidenceOf tid = some conf →
        (queueNewCalls env ts e).2.countOf (ts.height + conf) ts.height tid msg =
          e.countOf (ts.height + conf) ts.height tid msg +
            if res.lookup tid = some (.message msg) then 1 else 0 := by
  obtain ⟨res, n, hrun, hfound, honly⟩ := matchMessages_spec env e.messageMatchers
    (messagesForTs env pts) ∅ e
  have hfound : ∀ tid data, res.lookup tid = some data → ∃ msg ∈ messagesForTs env pts,
      data = .message msg ∧ ∃ k, GetsTo env e.messageMatchers k msg tid := fun tid data h =>
    (hfound tid data h).resolve_left fun h => by cases h
  refine ⟨res, hfound, fun tid msg hmem hsole hgets => honly tid msg hsole (.inr ⟨hmem, hgets⟩),
    fun tid conf msg hconf => ?_⟩
  have hcalls : checkNewCalls env ts e = (.ok res, { e with ranges := n }) := by
    rwa [checkNewCalls, bind_of_ok (ofExcept_of_ok hparent e)]
  have hperm := env.idOrder_perm n res.keys
  have hwired : ∀ t ∈ env.idOrder n res.keys, (e.confidenceOf t).isSome = true := by
    intro t ht
    obtain ⟨data, hdata⟩ := isSome_iff_exists.mp
      (AList.lookup_isSome.mpr (AList.mem_keys.mp (hperm.mem_iff.mp ht)))
    obtain ⟨msg, -, -, k, hgets⟩ := hfound t data hdata
    have hmem := (matchMessage_eq_some hgets).1
    exact hw.message (AList.mem_keys.mp ((env.idOrder_perm k _).mem_iff.mp hmem))
  obtain ⟨e', hqueue, hcount⟩ := queueTids_countOf (e := { e with ranges := n + 1 }) none msg
    (hperm.nodup_iff.mpr res.nodupKeys) hwired hconf
  have hrun' : queueNewCalls env ts e = (.ok (), e') := by
    rwa [queueNewCalls, bind_of_ok hcalls]
  rw [hrun', hcount]
  congr 1
  refine if_congr (and_iff_right_iff_imp.mpr fun h => ?_) rfl rfl
  exact hperm.mem_iff.mpr (AList.mem_keys.mpr (AList.lookup_isSome.mp (by rw [h]; rfl)))

end HcEvents

def EventsEnv.reorder (env : EventsEnv) (order : ℕ → List ℕ → List ℕ)
    (horder : ∀ n ids, (order n ids).Perm ids) : EventsEnv :=
  { env with idOrder := order, idOrder_perm := horder }

open HcEvents

def QueuesAccepted (env : EventsEnv) (ts pts : TipSet) (e : HcEvents) : Prop :=
  ∀ tid ∈ e.messageMatchers, ∀ conf ∈ e.confidenceOf tid, ∀ msg ∈ messagesForTs env pts,
    (accepts ((e.messageMatchers.lookup tid).getD []) msg).isSome = true →
      (queueNewCalls env ts e).2.countOf (ts.height + conf) ts.height tid msg =
        e.countOf (ts.height + conf) ts.height tid msg + 1

/-- A trigger that accepts a message accepts no other one, and if another trigger accepts it too,
that one does not do so with `matchOnce`. -/
def Exclusive (matchers : AList fun _ : ℕ => List MsgMatchFunc) (msgs : List Message) : Prop :=
  ∀ tid ∈ matchers.keys, ∀ msg ∈ msgs,
    (accepts ((matchers.lookup tid).getD []) msg).isSome = true →
      (∀ m ∈ msgs, (accepts ((matchers.lookup tid).getD []) m).isSome = true → m = msg) ∧
      ∀ t ∈ matchers.keys, accepts ((matchers.lookup t).getD []) msg = some true → t = tid
deriving Decidable

section

variable {env : EventsEnv} {e : HcEvents} {ts pts : TipSet}

lemma Exclusive.queuesAccepted (hw : e.Wired) (hparent : env.chainGetTipSet ts.parents = .ok pts)
    (hexcl : Exclusive e.messageMatchers (messagesForTs env pts)) :
    QueuesAccepted env ts pts e := by
  intro tid htid conf hconf msg hmsg haccepts
  obtain ⟨res, -, honly, hcount⟩ := queueNewCalls_countOf hw hparent
  obtain ⟨hsole, honce⟩ := hexcl tid (AList.mem_keys.mpr htid) msg hmsg haccepts
  rw [hcount tid conf msg hconf, if_pos (honly tid msg hmsg hsole fun k => ?_)]
  have hperm := env.idOrder_perm k e.messageMatchers.keys
  exact matchMessage_eq_message (hperm.mem_iff.mpr (AList.mem_keys.mpr htid)) haccepts
    fun t ht => honce t (hperm.mem_iff.mp ht)

lemma QueuesAccepted.getsTo (hw : e.Wired) (hparent : env.chainGetTipSet ts.parents = .ok pts)
    (hall : QueuesAccepted env ts pts e) :
    ∃ res : AList fun _ : ℕ => EventData, ∀ tid ∈ e.messageMatchers, ∀ msg ∈ messagesForTs env pts,
        (accepts ((e.messageMatchers.lookup tid).getD []) msg).isSome = true →
          res.lookup tid = some (.message msg) ∧ ∃ k, GetsTo env e.messageMatchers k msg tid := by
  obtain ⟨res, hfound, -, hcount⟩ := queueNewCalls_countOf hw hparent
  refine ⟨res, fun tid htid msg hmsg haccepts => ?_⟩
  obtain ⟨conf, hconf⟩ := isSome_iff_exists.mp (hw.message htid)
  have hone := hall tid htid conf hconf msg hmsg haccepts
  rw [hcount tid conf msg hconf] at hone
  have hlookup : res.lookup tid = some (.message msg) := by grind
  obtain ⟨m, -, hdata, hgets⟩ := hfound tid _ hlookup
  obtain rfl := EventData.message.inj hdata
  exact ⟨hlookup, hgets⟩

def firstOrder (t : ℕ) (ids : List ℕ) : List ℕ := if t ∈ ids then t :: ids.erase t else ids

lemma firstOrder_perm (t : ℕ) (ids : List ℕ) : (firstOrder t ids).Perm ids := by
  grind [firstOrder, perm_cons_erase]

end

/-- In a run, each pair of a trigger and a message of the parent tipset that it accepts queues one
event whatever the order of the map is, exactly if no trigger accepts two messages and no other one
accepts a message that a trigger accepts with `matchOnce`. -/
theorem newCalls_complete_iff (env : EventsEnv) (start : EventsRun) {s : EventsRun}
    (hstart : ∃ head, start.events = newHCEvents head) (evs : List ChainEvent)
    (hrun : Runs.run (EventsRun.step env) start evs = some s) {e : HcEvents}
    (hmid : HcEvents.Frame s.events e) {ts pts : TipSet}
    (hparent : env.chainGetTipSet ts.parents = .ok pts) :
    (messagesForTs env pts).Pairwise
        (fun m m' => env.codec.messageCid m ≠ env.codec.messageCid m') ∧
    (∀ b ∈ pts.blocks, ∀ m ∈ blockMessages env b, ∃ msg ∈ messagesForTs env pts,
      env.codec.messageCid msg = env.codec.messageCid m) ∧
    ((∀ order horder, QueuesAccepted (env.reorder order horder) ts pts e) ↔
      Exclusive e.messageMatchers (messagesForTs env pts)) := by
  obtain ⟨head, hnew⟩ := hstart
  have hinit : start.IsWired := by
    rw [EventsRun.IsWired, hnew]
    exact newHCEvents_wired head
  have hrunWired : s.IsWired :=
    Runs.invariant (fun hw _ hstep => EventsRun.IsWired.step hw hstep) hinit Runs.along_true hrun
  have hw : e.Wired := HcEvents.Wired.frame hrunWired hmid
  have hparents : ∀ order horder,
      (env.reorder order horder).chainGetTipSet ts.parents = .ok pts := fun _ _ => hparent
  refine ⟨unseen_pairwise .., fun b hb m hm => ?_, fun hall => ?_, fun hexcl order horder => ?_⟩
  · refine (exists_mem_unseen [] (mem_flatMap.mpr ⟨b, hb, hm⟩)).resolve_left ?_
    exact not_mem_nil
  · intro tid htid msg hmsg haccepts
    refine ⟨fun m hm haccepts' => ?_, fun t ht honce => ?_⟩
    · obtain ⟨res, hres⟩ := (hall _ _).getsTo hw (hparents env.idOrder env.idOrder_perm)
      have hmsg' := (hres tid (AList.mem_keys.mp htid) msg hmsg haccepts).1
      rw [(hres tid (AList.mem_keys.mp htid) m hm haccepts').1] at hmsg'
      exact EventData.message.inj (Option.some.inj hmsg')
    · obtain ⟨res, hres⟩ := (hall _ _).getsTo hw
        (hparents (fun _ => firstOrder t) fun _ => firstOrder_perm t)
      obtain ⟨-, k, hgets⟩ := hres tid (AList.mem_keys.mp htid) msg hmsg haccepts
      by_contra hne
      -- The loop ends with the trigger that it comes to first.
      have hgets : (matchMessage e.messageMatchers msg (firstOrder t e.messageMatchers.keys)
          ∅).lookup tid = some (.message msg) := hgets
      rw [firstOrder, if_pos ht, matchMessage, honce] at hgets
      dsimp only at hgets
      rw [AList.lookup_insert_ne (Ne.symm hne)] at hgets
      cases hgets
  · exact Exclusive.queuesAccepted hw (hparents order horder) hexcl

def sampleTwoTriggers : List ChainEvent :=
  [.called (.ok (false, true)) 0 noTimeout (sampleMatch true 1),
    .called (.ok (false, true)) 2 noTimeout (sampleMatch false 2)]

theorem sampleTwoTriggers_complete :
    ∃ s, Runs.run (EventsRun.step (sampleEventsEnv [sampleCall 1, sampleCall 2] (.ok true)))
        sampleEvents sampleTwoTriggers = some s ∧
      s.events.messageMatchers.keys = [1, 0] ∧
      ∀ order horder, QueuesAccepted
        ((sampleEventsEnv [sampleCall 1, sampleCall 2] (.ok true)).reorder order horder)
        (sampleEpoch 6) (sampleEpoch 5) s.events := by
  refine ⟨_, rfl, rfl, ?_⟩
  exact (newCalls_complete_iff (sampleEventsEnv [sampleCall 1, sampleCall 2] (.ok true))
    sampleEvents ⟨_, rfl⟩ sampleTwoTriggers rfl (Std.Refl.refl _) rfl).2.2.mpr (by decide)

def sampleAnyTrigger : List ChainEvent :=
  [.called (.ok (false, true)) 0 noTimeout fun _ => .ok (false, true)]

def sampleSameTriggers : List ChainEvent :=
  [.called (.ok (false, true)) 0 noTimeout (sampleMatch true 1),
    .called (.ok (false, true)) 2 noTimeout (sampleMatch true 1)]

/-- Of two messages that a trigger accepts only the second one is queued, and of two triggers that
accept a message with `matchOnce` only one gets it. -/
theorem sampleTriggers_incomplete :
    (∃ s, Runs.run (EventsRun.step (sampleEventsEnv [sampleCall 1, sampleCall 2] (.ok true)))
        sampleEvents sampleAnyTrigger = some s ∧
      (queueNewCalls (sampleEventsEnv [sampleCall 1, sampleCall 2] (.ok true)) (sampleEpoch 6)
        s.events).2.eventsAt 6 6 =
          [⟨0, noHeight, 6, .message (sampleCall 2), false, sampleEpoch 6⟩]) ∧
    ∃ s, Runs.run (EventsRun.step (sampleEventsEnv [sampleCall 1] (.ok true)))
        sampleEvents sampleSameTriggers = some s ∧
      (queueNewCalls (sampleEventsEnv [sampleCall 1] (.ok true))
        (sampleEpoch 6) s.events).2.eventsAt 6 6 =
        [] ∧
      (queueNewCalls (sampleEventsEnv [sampleCall 1] (.ok true))
        (sampleEpoch 6) s.events).2.eventsAt 8 6 =
        [⟨1, noHeight, 6, .message (sampleCall 1), false, sampleEpoch 6⟩] :=
  ⟨⟨_, rfl, rfl⟩, ⟨_, rfl, rfl, rfl⟩⟩

end Lotus
