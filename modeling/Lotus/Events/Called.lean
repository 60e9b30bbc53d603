import Lotus.Events.Height

/-!
# Chain events

`hcEvents` of `chain/events/events_called.go`, with `messageEvents` and `watcherEvents`.
-/

namespace Lotus

open Act List Function

def noTimeout : Int64 := Int64.maxValue

def noHeight : Int64 := -1

/-- `eventData`: a message, or the change of state that a match function found. -/
inductive EventData where
  | message (msg : Message)
  | change (change : Bytes)
deriving DecidableEq

/-- Which of `Called` and `StateChanged` made a trigger, and wrapped its handler. -/
inductive TriggerKind where
  | message
  | state
deriving DecidableEq

structure HandlerInfo where
  kind : TriggerKind
  confidence : Int64
  timeout : Int64
  disabled : Bool
deriving DecidableEq

structure QueuedEvent where
  trigger : ℕ
  prevH : Int64
  h : Int64
  data : EventData
  called : Bool
  origin : TipSet
deriving DecidableEq

/-- A call of a `MsgHandler`, of a `StateChangeHandler` or of a `RevertHandler`. -/
inductive HandlerCall where
  | message (msg : Option Message) (receipt : MessageReceipt) (ts : Option TipSet) (curH : Int64)
  | state (oldTs newTs : Option TipSet) (states : Option EventData) (curH : Int64)
  | revert (ts : TipSet)
deriving DecidableEq

def HandlerCall.curH : HandlerCall → Option Int64
  | .message _ _ _ curH => some curH
  | .state _ _ _ curH => some curH
  | .revert _ => none

structure LoggedCall where
  trigger : ℕ
  origin : Option TipSet
  call : HandlerCall
deriving DecidableEq

/-- The call is not one of a `RevertHandler`. -/
def LoggedCall.isHandle (call : LoggedCall) : Bool := call.call.curH.isSome

abbrev MsgMatchFunc := Message → Except NodeErr (Bool × Bool)

abbrev StateMatchFunc := TipSet → TipSet → Except NodeErr (Option Bytes)

/-- What `hcEvents` is given: `eventAPI`, the answers of the handlers, and the orders of its
maps. -/
structure EventsEnv where
  hashing : Hashing
  codec : Codec
  chainGetTipSet : List Cid → Except NodeErr TipSet
  chainGetBlockMessages : Cid → Except NodeErr (List Message × List SignedMessage)
  /-- The receipt of a message, which is nil for a timeout, by its CID and a tipset key. -/
  stateGetReceipt : Option Message → List Cid → Except NodeErr MessageReceipt
  /-- What the handler answers to the last of the calls. -/
  answer : List LoggedCall → Except NodeErr Bool
  /-- The order in which the ids of a map are visited, at the n-th range of a run. -/
  idOrder : ℕ → List ℕ → List ℕ
  heightOrder : ℕ → List Int64 → List Int64
  idOrder_perm : ∀ n ids, (idOrder n ids).Perm ids
  heightOrder_perm : ∀ n heights, (heightOrder n heights).Perm heights

/-- `hcEvents`, with the number of ranges over a map and the calls of handlers so far. -/
structure HcEvents where
  lastTs : TipSet
  ctr : ℕ
  triggers : ℕ → Option HandlerInfo
  confQueue : Int64 → AList fun _ : Int64 => List QueuedEvent
  revertQueue : Int64 → List Int64
  timeouts : Int64 → Option (AList fun _ : ℕ => ℕ)
  messageMatchers : AList fun _ : ℕ => List MsgMatchFunc
  stateMatchers : AList fun _ : ℕ => StateMatchFunc
  ranges : ℕ
  log : List LoggedCall

def newHCEvents (head : TipSet) : HcEvents :=
  ⟨head, 0, fun _ => none, fun _ => ∅, fun _ => [], fun _ => none, ∅, ∅, 0, []⟩

namespace HcEvents

/-- `confQueue[triggerH][origH]` -/
def eventsAt (e : HcEvents) (triggerH origH : Int64) : List QueuedEvent :=
  ((e.confQueue triggerH).lookup origH).getD []

/-- `confQueue[triggerH][origH] = events` -/
def setEvents (e : HcEvents) (triggerH origH : Int64) (events : List QueuedEvent) : HcEvents :=
  { e with
    confQueue := update e.confQueue triggerH
      ((e.confQueue triggerH).insert origH events) }

def confidenceOf (e : HcEvents) (tid : ℕ) : Option Int64 :=
  (e.triggers tid).map HandlerInfo.confidence

def enabled (e : HcEvents) (tid : ℕ) : Bool := (e.triggers tid).any fun trigger => !trigger.disabled

/-- `timeouts[height][tid]` -/
def timeoutCount (e : HcEvents) (height : Int64) (tid : ℕ) : Option ℕ :=
  (e.timeouts height).bind (·.lookup tid)

def enqueue (e : HcEvents) (triggerH : Int64) (event : QueuedEvent) : HcEvents :=
  { e.setEvents triggerH event.h (e.eventsAt triggerH event.h ++ [event]) with
    revertQueue := appendTo e.revertQueue event.h triggerH }

/-- `delete(confQueue[triggerH], origH)` -/
def dropEvents (e : HcEvents) (triggerH origH : Int64) : HcEvents :=
  { e with
    confQueue := update e.confQueue triggerH ((e.confQueue triggerH).erase origH) }

def setDisabled (e : HcEvents) (tid : ℕ) (trigger : HandlerInfo) (disabled : Bool) : HcEvents :=
  { e with
    triggers := update e.triggers tid (some { trigger with disabled := disabled }) }

/-- `touts[tid]++`, if there are timeouts at the height. -/
def countCall (e : HcEvents) (timeout : Int64) (tid : ℕ) : HcEvents :=
  { e with
    timeouts := update e.timeouts timeout
      ((e.timeouts timeout).map fun touts => touts.insert tid ((touts.lookup tid).getD 0 + 1)) }

def deliver (e : HcEvents) (height origH : Int64) (i : ℕ) (event : QueuedEvent)
    (trigger : HandlerInfo) (more : Bool) : HcEvents :=
  ((e.setEvents height origH
    ((e.eventsAt height origH).set i { event with called := true })).countCall
      trigger.timeout event.trigger).setDisabled event.trigger trigger (!more)

def addTrigger (e : HcEvents) (trigger : HandlerInfo) : HcEvents :=
  { e with ctr := e.ctr + 1, triggers := update e.triggers e.ctr (some trigger) }

/-- `timeouts[height][tid] = 0` -/
def addTimeout (e : HcEvents) (height : Int64) (tid : ℕ) : HcEvents :=
  { e with
    timeouts := update e.timeouts height
      (some (((e.timeouts height).getD ∅).insert tid 0)) }

/-- `messageEvents.matchers[id] = append(messageEvents.matchers[id], matchFn)` -/
def addMessageMatcher (e : HcEvents) (id : ℕ) (matchFn : MsgMatchFunc) : HcEvents :=
  { e with
    messageMatchers :=
      e.messageMatchers.insert id ((e.messageMatchers.lookup id).getD [] ++ [matchFn]) }

/-- `watcherEvents.matchers[id] = matchFn` -/
def addStateMatcher (e : HcEvents) (id : ℕ) (matchFn : StateMatchFunc) : HcEvents :=
  { e with stateMatchers := e.stateMatchers.insert id matchFn }

def logCall (e : HcEvents) (call : LoggedCall) : HcEvents := { e with log := e.log ++ [call] }

section

variable (env : EventsEnv) (tsc : TipSetCache)

def rangeIds (ids : List ℕ) : Act HcEvents NodeErr (List ℕ) := do
  let e ← get
  modify ({ · with ranges := e.ranges + 1 })
  pure (env.idOrder e.ranges ids)

def rangeHeights (heights : List Int64) : Act HcEvents NodeErr (List Int64) := do
  let e ← get
  modify ({ · with ranges := e.ranges + 1 })
  pure (env.heightOrder e.ranges heights)

/-- `tsc.get`, whose errors are logged. -/
def cached (height : Int64) : Act HcEvents NodeErr (Except NodeErr (Option TipSet)) :=
  match tsc.get env.hashing height with
  | .error err => if err = .new "panic" then fail err else pure (.error err)
  | .ok ts => pure (.ok ts)

def invoke (call : LoggedCall) : Act HcEvents NodeErr (Except NodeErr Bool) := do
  modify (·.logCall call)
  pure (env.answer (← get).log)

/-- The handler that `Called` makes of a `MsgHandler`. -/
def handleMessage (tid : ℕ) (origin : Option TipSet) (msg : Option Message) (ts : Option TipSet)
    (curH : Int64) : Act HcEvents NodeErr (Except NodeErr Bool) :=
  match env.stateGetReceipt msg (ts.elim [] (·.cids env.hashing)) with
  | .error err => pure (.error err)
  | .ok receipt => invoke env ⟨tid, origin, .message msg receipt ts curH⟩

def handle (tid : ℕ) (kind : TriggerKind) (origin : Option TipSet) (data : Option EventData)
    (prevTs ts : Option TipSet) (curH : Int64) : Act HcEvents NodeErr (Except NodeErr Bool) :=
  match kind, data with
  | .message, none => handleMessage env tid origin none ts curH
  | .message, some (.message msg) => handleMessage env tid origin (some msg) ts curH
  | .message, some (.change _) => fail (.new "panic")
  | .state, data => invoke env ⟨tid, origin, .state prevTs ts data curH⟩

/-! ## Finding events -/

def checkStateChanges (oldState newState : TipSet) :
    Act HcEvents NodeErr (AList fun _ : ℕ => EventData) := do
  let matchers := (← get).stateMatchers
  let found := fun tid => (matchers.lookup tid).bind fun matchFn =>
    (matchFn oldState newState).toOption.join
  let tids ← rangeIds env matchers.keys
  pure (tids.foldl
    (fun res tid => (found tid).elim res fun data => res.insert tid (.change data)) ∅)

/-- Whether one of the match functions of a trigger accepts a message, and if so `matchOnce`. -/
def accepts (matchFns : List MsgMatchFunc) (msg : Message) : Option Bool :=
  matchFns.findSome? fun matchFn =>
    match matchFn msg with
    | .ok (once, true) => some once
    | _ => none

/-- The loop of `checkNewCalls` over the triggers, for one message. -/
def matchMessage (matchers : AList fun _ : ℕ => List MsgMatchFunc) (msg : Message) :
    List ℕ → (AList fun _ : ℕ => EventData) → AList fun _ : ℕ => EventData
  | [], res => res
  | tid :: tids, res =>
    match accepts ((matchers.lookup tid).getD []) msg with
    | none => matchMessage matchers msg tids res
    | some true => res.insert tid (.message msg)
    | some false => matchMessage matchers msg tids (res.insert tid (.message msg))

def unseen (codec : Codec) (seen : List Cid) : List Message → List Message
  | [] => []
  | m :: ms =>
    if codec.messageCid m ∈ seen then unseen codec seen ms
    else m :: unseen codec (codec.messageCid m :: seen) ms

def blockMessages (b : BlockHeader) : List Message :=
  match env.chainGetBlockMessages (env.hashing.headerCid b) with
  | .error _ => []
  | .ok (bls, secpk) => bls ++ secpk.map SignedMessage.message

def messagesForTs (ts : TipSet) : List Message :=
  unseen env.codec [] (ts.blocks.flatMap (blockMessages env))

def checkNewCalls (ts : TipSet) : Act HcEvents NodeErr (AList fun _ : ℕ => EventData) := do
  let pts ← ofExcept (env.chainGetTipSet ts.parents)
  let matchers := (← get).messageMatchers
  (messagesForTs env pts).foldlM
    (fun res msg => do
      let tids ← rangeIds env matchers.keys
      pure (matchMessage matchers msg tids res)) ∅

/-! ## Head changes -/

def queueForConfidence (ts : TipSet) (prevTs : Option TipSet) (tid : ℕ) (data : EventData) :
    Act HcEvents NodeErr Unit := do
  match (← get).triggers tid with
  | none => fail (.new "panic")
  | some trigger =>
    let prevH := prevTs.elim noHeight TipSet.height
    modify (·.enqueue (ts.height + trigger.confidence) ⟨tid, prevH, ts.height, data, false, ts⟩)

def queueFound (ts : TipSet) (prevTs : Option TipSet) (found : AList fun _ : ℕ => EventData)
    (tid : ℕ) : Act HcEvents NodeErr Unit :=
  (found.lookup tid).elim (pure ()) (queueForConfidence ts prevTs tid)

/-- The loops of `processHeadChangeEvent` over what was found. -/
def queueAll (ts : TipSet) (prevTs : Option TipSet) (found : AList fun _ : ℕ => EventData) :
    Act HcEvents NodeErr Unit := do
  (← rangeIds env found.keys).forM (queueFound ts prevTs found)

def prevTipSet (event : QueuedEvent) : Act HcEvents NodeErr (Except NodeErr (Option TipSet)) :=
  if event.prevH = noHeight then pure (.ok none) else cached env tsc event.prevH

/-- The loop of `applyWithConfidence` over the events of one height, for the `i`-th event. -/
def applyEvent (height origH : Int64) (triggerTs : Option TipSet) (i : ℕ) :
    Act HcEvents NodeErr Unit := do
  let e ← get
  match (e.eventsAt height origH)[i]? with
  | none => pure ()
  | some event =>
    if event.called then pure ()
    else
      match e.triggers event.trigger with
      | none => fail (.new "panic")
      | some trigger =>
        if trigger.disabled then pure ()
        else
          match ← prevTipSet env tsc event with
          | .error _ => pure ()
          | .ok prevTs =>
            match ← handle env event.trigger trigger.kind (some event.origin) (some event.data)
                prevTs triggerTs height with
            | .error _ => pure ()
            | .ok more => modify (·.deliver height origH i event trigger more)

/-- The loop of `applyWithConfidence`, for one height. -/
def applyOrigin (height origH : Int64) : Act HcEvents NodeErr Unit := do
  let triggerTs ← cached env tsc origH
  let e ← get
  (List.range (e.eventsAt height origH).length).forM
    (applyEvent env tsc height origH triggerTs.toOption.join)

def applyWithConfidence (height : Int64) : Act HcEvents NodeErr Unit := do
  let e ← get
  (← rangeHeights env (e.confQueue height).keys).forM (applyOrigin env tsc height)

def applyTimeout (ts : TipSet) (tid : ℕ) : Act HcEvents NodeErr Unit := do
  let e ← get
  if (e.timeoutCount ts.height tid).getD 0 > 0 then pure ()
  else
    match e.triggers tid with
    | none => fail (.new "panic")
    | some trigger =>
      if trigger.disabled then pure ()
      else
        let timeoutTs ← cached env tsc (ts.height - trigger.confidence)
        match ← handle env tid trigger.kind none none none timeoutTs.toOption.join ts.height with
        | .error _ =>
          -- The height of the tipset is logged.
          if timeoutTs.toOption.join = none then fail (.new "panic") else pure ()
        | .ok more => modify (·.setDisabled tid trigger (!more))

def applyTimeouts (ts : TipSet) : Act HcEvents NodeErr Unit := do
  match (← get).timeouts ts.height with
  | none => pure ()
  | some touts => (← rangeIds env touts.keys).forM (applyTimeout env tsc ts)

def applyHeights (ts : TipSet) : ℕ → Int64 → Act HcEvents NodeErr Unit
  | 0, _ => pure ()
  | n + 1, height => do
    applyWithConfidence env tsc height
    applyTimeouts env tsc ts
    applyHeights ts n (height + 1)

def queueStateChanges (ts : TipSet) : Act HcEvents NodeErr Unit := do
  let lastTs := (← get).lastTs
  queueAll env ts (some lastTs) (← checkStateChanges env lastTs ts)

def queueNewCalls (ts : TipSet) : Act HcEvents NodeErr Unit := do
  queueAll env ts none (← checkNewCalls env ts)

/-- The second loop of `processHeadChangeEvent`. The loop over the heights ends unless the last one
has no next. -/
def applyTipSet (ts : TipSet) : Act HcEvents NodeErr Unit := do
  queueStateChanges env ts
  queueNewCalls env ts
  let lastH := (← get).lastTs.height
  applyHeights env tsc ts (ts.height.toInt + 1 - lastH.toInt).toNat lastH
  if ts.height = Int64.maxValue then fail (.new "does not return")
  else modify ({ · with lastTs := ts })

/-- The loop of `handleReverts` over the events of one trigger height, for one event. -/
def revertEvent (ts : TipSet) (event : QueuedEvent) : Act HcEvents NodeErr Unit := do
  if event.called then
    match (← get).triggers event.trigger with
    | none => fail (.new "panic")
    | some _ => modify (·.logCall ⟨event.trigger, some event.origin, .revert ts⟩)
  else pure ()

/-- The loop of `handleReverts`, for one trigger height. -/
def revertEvents (ts : TipSet) (triggerH : Int64) : Act HcEvents NodeErr Unit := do
  (← get).eventsAt triggerH ts.height |>.forM (revertEvent ts)
  modify (·.dropEvents triggerH ts.height)

def handleReverts (ts : TipSet) : Act HcEvents NodeErr Unit := do
  (← get).revertQueue ts.height |>.forM (revertEvents ts)
  modify fun e => { e with revertQueue := update e.revertQueue ts.height [] }

/-- The first loop of `processHeadChangeEvent`. -/
def revertTipSet (ts : TipSet) : Act HcEvents NodeErr Unit := do
  handleReverts ts
  modify ({ · with lastTs := ts })

def processHeadChangeEvent (rev app : List TipSet) : Act HcEvents NodeErr Unit := do
  rev.forM revertTipSet
  app.forM (applyTipSet env tsc)

def onHeadChanged (kind : TriggerKind) (check : Except NodeErr (Bool × Bool))
    (confidence timeout : Int64) : Act HcEvents NodeErr ℕ := do
  match check with
  | .error err =>
    if tsc.best = none then fail (.new "panic")
    else fail (.wrap "called check error (h: %d)" err)
  | .ok (done, more) =>
    let id := (← get).ctr
    let timeout := if done then noTimeout else timeout
    modify (·.addTrigger ⟨kind, confidence, timeout + confidence, !more⟩)
    if timeout ≠ noTimeout then modify (·.addTimeout (timeout + confidence) id)
    pure id

def registerCalled (check : Except NodeErr (Bool × Bool)) (confidence timeout : Int64)
    (matchFn : MsgMatchFunc) : Act HcEvents NodeErr Unit := do
  let id ← onHeadChanged tsc .message check confidence timeout
  modify (·.addMessageMatcher id matchFn)

def registerStateChanged (check : Except NodeErr (Bool × Bool)) (confidence timeout : Int64)
    (matchFn : StateMatchFunc) : Act HcEvents NodeErr Unit := do
  let id ← onHeadChanged tsc .state check confidence timeout
  modify (·.addStateMatcher id matchFn)

end

/-! ## The queues -/

section

variable {env : EventsEnv} {tsc : TipSetCache} {e e' : HcEvents} {T h T' h' : Int64} {tid i : ℕ}
  {kind : TriggerKind} {confidence timeout : Int64} {disabled : Bool} {ev : QueuedEvent}
  {trigger : HandlerInfo}

lemma eventsAt_setEvents (e : HcEvents) (T h : Int64) (events : List QueuedEvent) (T' h' : Int64) :
    (e.setEvents T h events).eventsAt T' h' =
      if T' = T ∧ h' = h then events else e.eventsAt T' h' := by
  by_cases hT : T' = T
  · subst hT
    by_cases hh : h' = h
    · subst hh
      simp [eventsAt, setEvents]
    · simp [eventsAt, setEvents, hh]
  · simp [eventsAt, setEvents, hT]

lemma eventsAt_dropEvents (e : HcEvents) (T h T' h' : Int64) :
    (e.dropEvents T h).eventsAt T' h' = if T' = T ∧ h' = h then [] else e.eventsAt T' h' := by
  by_cases hT : T' = T
  · subst hT
    by_cases hh : h' = h
    · subst hh
      simp [eventsAt, dropEvents]
    · simp [eventsAt, dropEvents, hh]
  · simp [eventsAt, dropEvents, hT]

lemma eventsAt_enqueue (e : HcEvents) (T : Int64) (event : QueuedEvent) (T' h' : Int64) :
    (e.enqueue T event).eventsAt T' h' =
      if T' = T ∧ h' = event.h then e.eventsAt T event.h ++ [event] else e.eventsAt T' h' :=
  eventsAt_setEvents ..

lemma mem_enqueue {new : QueuedEvent} : ev ∈ (e.enqueue T' new).eventsAt T h ↔
      ev ∈ e.eventsAt T h ∨ ev = new ∧ T = T' ∧ h = new.h := by
  rw [eventsAt_enqueue]
  split_ifs <;> grind

lemma eventsAt_deliver (e : HcEvents) (T h : Int64) (i : ℕ) (event : QueuedEvent)
    (trigger : HandlerInfo) (more : Bool) (T' h' : Int64) :
    (e.deliver T h i event trigger more).eventsAt T' h' =
      if T' = T ∧ h' = h then (e.eventsAt T h).set i { event with called := true }
      else e.eventsAt T' h' :=
  eventsAt_setEvents ..

lemma eventsAt_congr (h : e'.confQueue = e.confQueue) : e'.eventsAt = e.eventsAt := by
  unfold eventsAt
  rw [h]

lemma confidenceOf_setDisabled (hid : e.triggers tid = some trigger) (disabled : Bool) :
    (e.setDisabled tid trigger disabled).confidenceOf = e.confidenceOf := by
  funext id
  by_cases heq : id = tid <;> simp [confidenceOf, setDisabled, heq, hid]

lemma enabled_of_setDisabled (hid : e.triggers tid = some trigger)
    (henabled : trigger.disabled = false) (disabled : Bool) {id : ℕ}
    (h : (e.setDisabled tid trigger disabled).enabled id = true) : e.enabled id = true := by
  by_cases heq : id = tid <;> simp_all [enabled, setDisabled]

lemma timeoutCount_countCall (e : HcEvents) (timeout : Int64) (tid : ℕ) (height : Int64) (id : ℕ) :
    (e.countCall timeout tid).timeoutCount height id =
      if height = timeout ∧ id = tid ∧ (e.timeouts timeout).isSome = true then
        some ((e.timeoutCount timeout tid).getD 0 + 1)
      else e.timeoutCount height id := by
  by_cases hheight : height = timeout
  · subst hheight
    by_cases hid : id = tid
    · subst hid
      rcases htouts : e.timeouts height with _ | touts <;> simp [timeoutCount, countCall, htouts]
    · rcases htouts : e.timeouts height with _ | touts <;>
        simp [timeoutCount, countCall, htouts, hid]
  · simp [timeoutCount, countCall, hheight]

/-! ## What a step can do -/

lemma rangeIds_apply (ids : List ℕ) (e : HcEvents) :
    rangeIds env ids e = (.ok (env.idOrder e.ranges ids), { e with ranges := e.ranges + 1 }) :=
  rfl

lemma rangeHeights_apply (heights : List Int64) (e : HcEvents) : rangeHeights env heights e =
      (.ok (env.heightOrder e.ranges heights), { e with ranges := e.ranges + 1 }) :=
  rfl

lemma cached_cases (env : EventsEnv) (tsc : TipSetCache) (height : Int64) (e : HcEvents) :
    (∃ err, cached env tsc height e = (.error err, e)) ∨
      cached env tsc height e = (.ok (tsc.get env.hashing height), e) := by
  unfold cached
  rcases tsc.get env.hashing height with err | ts
  · dsimp only
    split_ifs
    · exact .inl ⟨err, rfl⟩
    · exact .inr rfl
  · exact .inr rfl

lemma prevTipSet_cases (tsc : TipSetCache) (event : QueuedEvent) (e : HcEvents) :
    (∃ err, prevTipSet env tsc event e = (.error err, e)) ∨
      ∃ prev, prevTipSet env tsc event e = (.ok prev, e) := by
  unfold prevTipSet
  split_ifs
  · exact .inr ⟨_, rfl⟩
  · exact (cached_cases ..).imp id fun h => ⟨_, h⟩

/-- A call that `trigger.handle` makes. -/
def IsCall (tid : ℕ) (origin : Option TipSet) (curH : Int64) (call : LoggedCall) : Prop :=
  call.trigger = tid ∧ call.origin = origin ∧ call.call.curH = some curH

lemma IsCall.isHandle {origin : Option TipSet} {curH : Int64} {call : LoggedCall}
    (h : IsCall tid origin curH call) : call.isHandle = true := by
  simp [LoggedCall.isHandle, h.2.2]

lemma handleMessage_cases (tid : ℕ) (origin : Option TipSet) (msg : Option Message)
    (ts : Option TipSet) (curH : Int64) (e : HcEvents) :
    (∃ err, handleMessage env tid origin msg ts curH e = (.ok (.error err), e)) ∨
      ∃ call, IsCall tid origin curH call ∧ handleMessage env tid origin msg ts curH e =
          (.ok (env.answer (e.log ++ [call])), e.logCall call) := by
  unfold handleMessage
  rcases env.stateGetReceipt msg (ts.elim [] (·.cids env.hashing)) with err | receipt
  · exact .inl ⟨err, rfl⟩
  · exact .inr ⟨_, ⟨rfl, rfl, rfl⟩, rfl⟩

lemma handle_cases (tid : ℕ) (kind : TriggerKind) (origin : Option TipSet)
    (data : Option EventData) (prevTs ts : Option TipSet) (curH : Int64) (e : HcEvents) :
    (∃ err, handle env tid kind origin data prevTs ts curH e = (.error err, e)) ∨
      (∃ err, handle env tid kind origin data prevTs ts curH e = (.ok (.error err), e)) ∨
      ∃ call, IsCall tid origin curH call ∧ handle env tid kind origin data prevTs ts curH e =
          (.ok (env.answer (e.log ++ [call])), e.logCall call) := by
  rcases kind with _ | _
  · rcases data with _ | msg | change
    · exact .inr (handleMessage_cases ..)
    · exact .inr (handleMessage_cases ..)
    · exact .inl ⟨_, rfl⟩
  · exact .inr (.inr ⟨_, ⟨rfl, rfl, rfl⟩, rfl⟩)

/-- What is done to an event: nothing, or its handler is called and the event is delivered, unless
the handler fails. -/
lemma applyEvent_cases (height origH : Int64) (triggerTs : Option TipSet) (i : ℕ) (e : HcEvents) :
    (applyEvent env tsc height origH triggerTs i e).2 = e ∨
      ∃ event trigger call, (e.eventsAt height origH)[i]? = some event ∧ event.called = false ∧
        e.triggers event.trigger = some trigger ∧ trigger.disabled = false ∧
        IsCall event.trigger (some event.origin) height call ∧
        ((∃ err, env.answer (e.log ++ [call]) = .error err ∧
            (applyEvent env tsc height origH triggerTs i e).2 = e.logCall call) ∨
          ∃ more, env.answer (e.log ++ [call]) = .ok more ∧
            (applyEvent env tsc height origH triggerTs i e).2 =
              (e.logCall call).deliver height origH i event trigger more) := by
  rw [applyEvent, bind_of_ok (get_apply e)]
  rcases hevent : (e.eventsAt height origH)[i]? with _ | event
  · exact .inl rfl
  dsimp only
  split_ifs with hcalled
  · exact .inl rfl
  rcases htrigger : e.triggers event.trigger with _ | trigger
  · exact .inl rfl
  dsimp only
  split_ifs with hdisabled
  · exact .inl rfl
  rcases prevTipSet_cases tsc event e with ⟨err, hprev⟩ | ⟨prev, hprev⟩
  · rw [bind_of_error hprev]
    exact .inl rfl
  rw [bind_of_ok hprev]
  rcases prev with err | prevTs
  · exact .inl rfl
  dsimp only
  rcases handle_cases event.trigger trigger.kind (some event.origin) (some event.data) prevTs
    triggerTs height e with ⟨err, hrun⟩ | ⟨err, hrun⟩ | ⟨call, hcall, hrun⟩
  · rw [bind_of_error hrun]
    exact .inl rfl
  · rw [bind_of_ok hrun]
    exact .inl rfl
  · rw [bind_of_ok hrun]
    refine .inr ⟨event, trigger, call, rfl, Bool.eq_false_iff.mpr hcalled, htrigger,
      Bool.eq_false_iff.mpr hdisabled, hcall, ?_⟩
    rcases hanswer : env.answer (e.log ++ [call]) with err | more
    · exact .inl ⟨err, rfl, rfl⟩
    · exact .inr ⟨more, rfl, rfl⟩

/-- What is done for a timeout: nothing, or the handler is called. -/
lemma applyTimeout_cases (ts : TipSet) (tid : ℕ) (e : HcEvents) :
    (applyTimeout env tsc ts tid e).2 = e ∨
      ∃ trigger call, (e.timeoutCount ts.height tid).getD 0 = 0 ∧
        e.triggers tid = some trigger ∧ trigger.disabled = false ∧
        IsCall tid none ts.height call ∧
        ((∃ err, env.answer (e.log ++ [call]) = .error err ∧
            (applyTimeout env tsc ts tid e).2 = e.logCall call) ∨
          ∃ more, env.answer (e.log ++ [call]) = .ok more ∧ (applyTimeout env tsc ts tid e).2 =
              (e.logCall call).setDisabled tid trigger (!more)) := by
  rw [applyTimeout, bind_of_ok (get_apply e)]
  split_ifs with hcalls
  · exact .inl rfl
  rcases htrigger : e.triggers tid with _ | trigger
  · exact .inl rfl
  dsimp only
  split_ifs with hdisabled
  · exact .inl rfl
  rcases cached_cases env tsc (ts.height - trigger.confidence) e with ⟨err, hget⟩ | hget
  · rw [bind_of_error hget]
    exact .inl rfl
  rw [bind_of_ok hget]
  rcases handle_cases tid trigger.kind none none none
    (tsc.get env.hashing (ts.height - trigger.confidence)).toOption.join ts.height e with
    ⟨err, hrun⟩ | ⟨err, hrun⟩ | ⟨call, hcall, hrun⟩
  · rw [bind_of_error hrun]
    exact .inl rfl
  · rw [bind_of_ok hrun]
    dsimp only
    split_ifs <;> exact .inl rfl
  · rw [bind_of_ok hrun]
    refine .inr ⟨trigger, call, by omega, rfl, Bool.eq_false_iff.mpr hdisabled, hcall, ?_⟩
    rcases hanswer : env.answer (e.log ++ [call]) with err | more
    · refine .inl ⟨err, rfl, ?_⟩
      dsimp only
      split_ifs <;> rfl
    · exact .inr ⟨more, rfl, rfl⟩

/-- What is done with what was found for a trigger: nothing, or it is queued. -/
lemma queueFound_cases (ts : TipSet) (prevTs : Option TipSet)
    (found : AList fun _ : ℕ => EventData) (tid : ℕ) (e : HcEvents) :
    (∃ r, queueFound ts prevTs found tid e = (r, e)) ∨
      ∃ conf data, e.confidenceOf tid = some conf ∧ found.lookup tid = some data ∧
        queueFound ts prevTs found tid e = (.ok (), e.enqueue (ts.height + conf)
            ⟨tid, prevTs.elim noHeight TipSet.height, ts.height, data, false, ts⟩) := by
  unfold queueFound
  rcases hfound : found.lookup tid with _ | data
  · exact .inl ⟨_, rfl⟩
  show (∃ r, queueForConfidence ts prevTs tid data e = (r, e)) ∨
    ∃ conf data', _ ∧ _ ∧ queueForConfidence ts prevTs tid data e = _
  rw [queueForConfidence, bind_of_ok (get_apply e)]
  rcases htrigger : e.triggers tid with _ | trigger
  · exact .inl ⟨_, rfl⟩
  · exact .inr ⟨trigger.confidence, data, by simp [confidenceOf, htrigger], rfl, rfl⟩

def addTimed (e : HcEvents) (kind : TriggerKind) (confidence timeout : Int64) (disabled : Bool) :
    HcEvents :=
  let e' := e.addTrigger ⟨kind, confidence, timeout + confidence, disabled⟩
  if timeout = noTimeout then e' else e'.addTimeout (timeout + confidence) e.ctr

lemma onHeadChanged_cases (kind : TriggerKind) (check : Except NodeErr (Bool × Bool))
    (confidence timeout : Int64) (e : HcEvents) :
    ((∃ err, check = .error err) ∧
        ∃ err, onHeadChanged tsc kind check confidence timeout e = (.error err, e)) ∨
      ∃ done more, check = .ok (done, more) ∧ onHeadChanged tsc kind check confidence timeout e =
          (.ok e.ctr,
            e.addTimed kind confidence (if done then noTimeout else timeout) (!more)) := by
  rcases check with err | ⟨done, more⟩
  · refine .inl ⟨⟨err, rfl⟩, ?_⟩
    unfold onHeadChanged
    dsimp only
    split_ifs <;> exact ⟨_, rfl⟩
  · refine .inr ⟨done, more, rfl, ?_⟩
    rw [onHeadChanged, bind_of_ok (get_apply e), bind_of_ok (modify_apply _ e), addTimed]
    generalize (if done = true then noTimeout else timeout) = left
    by_cases htimeout : left = noTimeout <;> simp [htimeout, bind_apply]

structure Registers (kind : TriggerKind) (confidence timeout : Int64) (disabled : Bool)
    (e e' : HcEvents) : Prop where
  lastTs : e'.lastTs = e.lastTs
  ctr : e'.ctr = e.ctr + 1
  triggers : e'.triggers =
    update e.triggers e.ctr (some ⟨kind, confidence, timeout + confidence, disabled⟩)
  confQueue : e'.confQueue = e.confQueue
  revertQueue : e'.revertQueue = e.revertQueue
  timeouts : e'.timeouts = if timeout = noTimeout then e.timeouts else
    update e.timeouts (timeout + confidence)
      (some (((e.timeouts (timeout + confidence)).getD ∅).insert e.ctr 0))
  log : e'.log = e.log
  matchers : (∀ tid, tid ∈ e'.messageMatchers ↔ tid ∈ e.messageMatchers ∨ tid = e.ctr) ∧
      e'.stateMatchers = e.stateMatchers ∨
    e'.messageMatchers = e.messageMatchers ∧
      ∀ tid, tid ∈ e'.stateMatchers ↔ tid ∈ e.stateMatchers ∨ tid = e.ctr

lemma Registers.confidenceOf (hr : Registers kind confidence timeout disabled e e') (tid : ℕ) :
    e'.confidenceOf tid = if tid = e.ctr then some confidence else e.confidenceOf tid := by
  by_cases htid : tid = e.ctr <;> simp [HcEvents.confidenceOf, hr.triggers, htid]

lemma Registers.timeoutCount (hr : Registers kind confidence timeout disabled e e')
    (height : Int64) (tid : ℕ) :
    e'.timeoutCount height tid =
      if timeout ≠ noTimeout ∧ height = timeout + confidence ∧ tid = e.ctr then some 0
      else e.timeoutCount height tid := by
  unfold HcEvents.timeoutCount
  rw [hr.timeouts]
  by_cases htimeout : timeout = noTimeout
  · simp [htimeout]
  by_cases hheight : height = timeout + confidence
  · by_cases htid : tid = e.ctr
    · subst htid
      simp [hheight, htimeout]
    · rcases htouts : e.timeouts (timeout + confidence) with _ | touts <;>
        simp [hheight, htimeout, htid, htouts, -AList.insert_empty]
  · simp [hheight, htimeout]

lemma registerCalled_cases (check : Except NodeErr (Bool × Bool)) (confidence timeout : Int64)
    (matchFn : MsgMatchFunc) (e : HcEvents) :
    (∃ err, check = .error err) ∧ (registerCalled tsc check confidence timeout matchFn e).2 = e ∨
      ∃ done more, check = .ok (done, more) ∧
        Registers .message confidence (if done then noTimeout else timeout) (!more) e
          (registerCalled tsc check confidence timeout matchFn e).2 := by
  rcases onHeadChanged_cases .message check confidence timeout e with
    ⟨herr, err, hrun⟩ | ⟨done, more, hcheck, hrun⟩
  · rw [registerCalled, bind_of_error hrun]
    exact .inl ⟨herr, rfl⟩
  · rw [registerCalled, bind_of_ok hrun]
    refine .inr ⟨done, more, hcheck, ?_⟩
    generalize (if done = true then noTimeout else timeout) = left
    rw [modify_apply, addTimed]
    constructor <;> split_ifs <;> simp_all [addTrigger, addTimeout, addMessageMatcher, or_comm]

lemma registerStateChanged_cases (check : Except NodeErr (Bool × Bool))
    (confidence timeout : Int64) (matchFn : StateMatchFunc) (e : HcEvents) :
    (∃ err, check = .error err) ∧
        (registerStateChanged tsc check confidence timeout matchFn e).2 = e ∨
      ∃ done more, check = .ok (done, more) ∧
        Registers .state confidence (if done then noTimeout else timeout) (!more) e
          (registerStateChanged tsc check confidence timeout matchFn e).2 := by
  rcases onHeadChanged_cases .state check confidence timeout e with
    ⟨herr, err, hrun⟩ | ⟨done, more, hcheck, hrun⟩
  · rw [registerStateChanged, bind_of_error hrun]
    exact .inl ⟨herr, rfl⟩
  · rw [registerStateChanged, bind_of_ok hrun]
    refine .inr ⟨done, more, hcheck, ?_⟩
    generalize (if done = true then noTimeout else timeout) = left
    rw [modify_apply, addTimed]
    constructor <;> split_ifs <;> simp_all [addTrigger, addTimeout, addStateMatcher, or_comm]

end

/-! ## The way through a head change

A relation that every update keeps is kept by the functions that are made of these updates. -/

section

variable {env : EventsEnv} {tsc : TipSetCache} {R : HcEvents → HcEvents → Prop} [Std.Refl R]
  [IsTrans HcEvents R] {ts : TipSet}

omit [IsTrans HcEvents R] in
lemma cached_keeps (height : Int64) : Keeps R (cached env tsc height) := fun e => by
  rcases cached_cases env tsc height e with ⟨err, h⟩ | h <;> rw [h] <;> exact Std.Refl.refl e

variable (hrange : ∀ e n, R e { e with ranges := n })

include hrange

section Queues

variable (henqueue : ∀ {e tid conf data prevH}, e.confidenceOf tid = some conf →
  R e (e.enqueue (ts.height + conf) ⟨tid, prevH, ts.height, data, false, ts⟩))

include henqueue

lemma queueAll_keeps (prevTs : Option TipSet) (found : AList fun _ : ℕ => EventData) :
    Keeps R (queueAll env ts prevTs found) := by
  refine Keeps.bind (fun e => hrange e _) fun tids => Keeps.forM (fun tid e => ?_) tids
  rcases queueFound_cases ts prevTs found tid e with ⟨r, h⟩ | ⟨conf, data, hconf, -, h⟩ <;> simp_all

lemma queueStateChanges_keeps : Keeps R (queueStateChanges env ts) :=
  Keeps.bind Keeps.get fun e => Keeps.bind (fun e => hrange e _) fun found =>
    queueAll_keeps hrange henqueue (some e.lastTs) found

lemma queueNewCalls_keeps : Keeps R (queueNewCalls env ts) := by
  refine Keeps.bind (Keeps.bind (Keeps.ofExcept _) fun pts => Keeps.bind Keeps.get fun e => ?_)
    fun found => queueAll_keeps hrange henqueue none found
  exact Keeps.foldlM (fun _ _ => Keeps.bind (fun e => hrange e _) fun _ => Keeps.pure _) _ _

end Queues

lemma applyWithConfidence_keeps {height : Int64}
    (hevent : ∀ origH triggerTs i, Keeps R (applyEvent env tsc height origH triggerTs i)) :
    Keeps R (applyWithConfidence env tsc height) := by
  refine Keeps.bind Keeps.get fun e => Keeps.bind (fun e => hrange e _) fun heights =>
    Keeps.forM (fun origH => ?_) heights
  exact Keeps.bind (cached_keeps origH) fun triggerTs => Keeps.bind Keeps.get fun e =>
    Keeps.forM (hevent origH triggerTs.toOption.join) _

lemma applyTimeouts_keeps (htimeout : ∀ tid, Keeps R (applyTimeout env tsc ts tid)) :
    Keeps R (applyTimeouts env tsc ts) := by
  refine Keeps.bind Keeps.get fun e => ?_
  rcases e.timeouts ts.height with _ | touts
  · exact Keeps.pure ()
  · exact Keeps.bind (fun e => hrange e _) fun tids => Keeps.forM htimeout tids

omit hrange in
lemma applyHeights_keeps {n : ℕ} {height : Int64}
    (hheight : 0 < n → height.toInt + n ≤ ts.epoch + 1)
    (hconf : ∀ x : Int64, height.toInt ≤ x.toInt → x.toInt ≤ ts.epoch →
      Keeps R (applyWithConfidence env tsc x)) (htimeouts : Keeps R (applyTimeouts env tsc ts)) :
    Keeps R (applyHeights env tsc ts n height) := by
  induction n generalizing height with
  | zero => exact Keeps.pure ()
  | succ n ih =>
    have hle := hheight n.succ_pos
    refine Keeps.bind (hconf height le_rfl (by omega)) fun _ => Keeps.bind htimeouts fun _ => ?_
    rcases Nat.eq_zero_or_pos n with rfl | hn
    · exact Keeps.pure ()
    · have hnext : (height + 1).toInt = height.toInt + 1 :=
        Word.toInt_add_one (y := ts.height) (by unfold TipSet.epoch at hle; omega)
      exact ih (fun _ => by omega) fun x hx => hconf x (by omega)

lemma applyTipSet_keeps (henqueue : ∀ {e tid conf data prevH}, e.confidenceOf tid = some conf →
      R e (e.enqueue (ts.height + conf) ⟨tid, prevH, ts.height, data, false, ts⟩))
    (hevent : ∀ x : Int64, x.toInt ≤ ts.epoch → ∀ origH triggerTs i,
      Keeps R (applyEvent env tsc x origH triggerTs i))
    (htimeouts : Keeps R (applyTimeouts env tsc ts)) (hlast : ∀ e, R e { e with lastTs := ts }) :
    Keeps R (applyTipSet env tsc ts) := by
  refine Keeps.bind (queueStateChanges_keeps hrange henqueue) fun _ => Keeps.bind
    (queueNewCalls_keeps hrange henqueue) fun _ => Keeps.bind Keeps.get fun e => Keeps.bind
      (applyHeights_keeps ?_ (fun x _ hx => ?_) htimeouts) fun _ => ?_
  · unfold TipSet.epoch
    omega
  · exact applyWithConfidence_keeps hrange (hevent x hx)
  · exact Keeps.ite (fun _ => Keeps.fail _) fun _ => Keeps.modify hlast

omit hrange in
lemma revertTipSet_keeps
    (hrevert : ∀ {e trigger} {ev : QueuedEvent}, e.triggers ev.trigger = some trigger →
      R e (e.logCall ⟨ev.trigger, some ev.origin, .revert ts⟩))
    (hdrop : ∀ e T, R e (e.dropEvents T ts.height))
    (hqueue : ∀ e, R e { e with revertQueue := update e.revertQueue ts.height [] })
    (hlast : ∀ e, R e { e with lastTs := ts }) : Keeps R (revertTipSet ts) := by
  refine Keeps.bind (Keeps.bind Keeps.get fun _ => Keeps.bind (Keeps.forM (fun T => ?_) _) fun _ =>
    Keeps.modify hqueue) fun _ => Keeps.modify hlast
  refine Keeps.bind Keeps.get fun _ => Keeps.bind (Keeps.forM (fun ev => ?_) _) fun _ =>
    Keeps.modify fun e => hdrop e T
  refine Keeps.ite (fun _ e => ?_) fun _ => Keeps.pure ()
  rw [bind_of_ok (get_apply e)]
  rcases htrigger : e.triggers ev.trigger with _ | trigger
  · exact Std.Refl.refl e
  · exact hrevert htrigger

end

/-! ## What a head change leaves alone -/

section

variable {env : EventsEnv} {tsc : TipSetCache} {e e' : HcEvents} {tid : ℕ} {trigger : HandlerInfo}

structure Frame (e e' : HcEvents) : Prop where
  ctr : e'.ctr = e.ctr
  messageMatchers : e'.messageMatchers = e.messageMatchers
  stateMatchers : e'.stateMatchers = e.stateMatchers
  confidenceOf : e'.confidenceOf = e.confidenceOf
  log : e.log <+: e'.log
  enabled : ∀ {tid}, e'.enabled tid = true → e.enabled tid = true
  counted : ∀ {height tid}, (e'.timeoutCount height tid).isSome = true →
    (e.timeoutCount height tid).isSome = true ∨ (e.confidenceOf tid).isSome = true
  called : ∀ {call}, call ∈ e'.log → call ∈ e.log ∨ (e.confidenceOf call.trigger).isSome = true

instance : Std.Refl Frame := ⟨fun _ => ⟨rfl, rfl, rfl, rfl, prefix_rfl, id, .inl, .inl⟩⟩

instance : IsTrans HcEvents Frame where
  trans _ _ _ h h' := by
    refine ⟨h'.ctr.trans h.ctr, h'.messageMatchers.trans h.messageMatchers,
      h'.stateMatchers.trans h.stateMatchers, h'.confidenceOf.trans h.confidenceOf,
      h.log.trans h'.log, fun henabled => h.enabled (h'.enabled henabled), fun hcount => ?_,
      fun hcall => ?_⟩
    · rw [← h.confidenceOf]
      exact (h'.counted hcount).elim (fun h1 => h.confidenceOf ▸ h.counted h1) .inr
    · rw [← h.confidenceOf]
      exact (h'.called hcall).elim (fun h1 => h.confidenceOf ▸ h.called h1) .inr

/-- Between two tipsets, the last one stays too. -/
structure Still (e e' : HcEvents) : Prop extends Frame e e' where
  lastTs : e'.lastTs = e.lastTs

instance : Std.Refl Still := ⟨fun e => ⟨Std.Refl.refl e, rfl⟩⟩

instance : IsTrans HcEvents Still :=
  ⟨fun _ _ _ h h' => ⟨IsTrans.trans _ _ _ h.toFrame h'.toFrame, h'.lastTs.trans h.lastTs⟩⟩

lemma still_ranges (e : HcEvents) (n : ℕ) : Still e { e with ranges := n } :=
  ⟨⟨rfl, rfl, rfl, rfl, prefix_rfl, id, .inl, .inl⟩, rfl⟩

lemma frame_lastTs (e : HcEvents) (ts : TipSet) : Frame e { e with lastTs := ts } :=
  ⟨rfl, rfl, rfl, rfl, prefix_rfl, id, .inl, .inl⟩

lemma still_enqueue (e : HcEvents) (T : Int64) (ev : QueuedEvent) : Still e (e.enqueue T ev) :=
  ⟨⟨rfl, rfl, rfl, rfl, prefix_rfl, id, .inl, .inl⟩, rfl⟩

lemma confidenceOf_isSome (hid : e.triggers tid = some trigger) :
    (e.confidenceOf tid).isSome = true := by
  simp [confidenceOf, hid]

lemma still_logCall {call : LoggedCall} (hcall : (e.confidenceOf call.trigger).isSome = true) :
    Still e (e.logCall call) := by
  refine ⟨⟨rfl, rfl, rfl, rfl, prefix_append .., id, .inl, fun hmem => ?_⟩, rfl⟩
  refine (mem_append.mp hmem).imp_right fun hnew => ?_
  rwa [mem_singleton.mp hnew]

lemma still_setDisabled (hid : e.triggers tid = some trigger)
    (henabled : trigger.disabled = false) (disabled : Bool) :
    Still e (e.setDisabled tid trigger disabled) :=
  ⟨⟨rfl, rfl, rfl, confidenceOf_setDisabled hid disabled, prefix_rfl,
    enabled_of_setDisabled hid henabled disabled, .inl, .inl⟩, rfl⟩

lemma still_deliver {event : QueuedEvent} (hid : e.triggers event.trigger = some trigger)
    (henabled : trigger.disabled = false) (T h : Int64) (i : ℕ) (more : Bool) :
    Still e (e.deliver T h i event trigger more) := by
  set e1 := e.setEvents T h ((e.eventsAt T h).set i { event with called := true })
  have hcounted : Still e (e1.countCall trigger.timeout event.trigger) := by
    refine ⟨⟨rfl, rfl, rfl, rfl, prefix_rfl, id, fun {height tid} hcount => ?_, .inl⟩, rfl⟩
    rw [timeoutCount_countCall] at hcount
    split_ifs at hcount with hkey
    · grind [confidenceOf_isSome]
    · exact .inl hcount
  have hid1 : (e1.countCall trigger.timeout event.trigger).triggers event.trigger = some trigger :=
    hid
  exact IsTrans.trans _ _ _ hcounted (still_setDisabled hid1 henabled (!more))

lemma queueStateChanges_still (ts : TipSet) : Keeps Still (queueStateChanges env ts) :=
  queueStateChanges_keeps still_ranges fun _ => still_enqueue ..

lemma queueNewCalls_still (ts : TipSet) : Keeps Still (queueNewCalls env ts) :=
  queueNewCalls_keeps still_ranges fun _ => still_enqueue ..

lemma applyEvent_still (height origH : Int64) (triggerTs : Option TipSet) (i : ℕ) :
    Keeps Still (applyEvent env tsc height origH triggerTs i) := fun e => by
  rcases applyEvent_cases height origH triggerTs i e with heq |
    ⟨event, trigger, call, -, -, htrigger, henabled, hcall, ⟨err, -, heq⟩ | ⟨more, -, heq⟩⟩
  · rw [heq]
    exact Std.Refl.refl e
  · rw [heq]
    exact still_logCall (hcall.1 ▸ confidenceOf_isSome htrigger)
  · rw [heq]
    exact IsTrans.trans _ _ _ (still_logCall (hcall.1 ▸ confidenceOf_isSome htrigger))
      (still_deliver (e := e.logCall call) htrigger henabled height origH i more)

lemma applyTimeout_still (ts : TipSet) (tid : ℕ) :
    Keeps Still (applyTimeout env tsc ts tid) := fun e => by
  rcases applyTimeout_cases ts tid e with heq |
    ⟨trigger, call, -, htrigger, henabled, hcall, ⟨err, -, heq⟩ | ⟨more, -, heq⟩⟩
  · rw [heq]
    exact Std.Refl.refl e
  · rw [heq]
    exact still_logCall (hcall.1 ▸ confidenceOf_isSome htrigger)
  · rw [heq]
    exact IsTrans.trans _ _ _ (still_logCall (hcall.1 ▸ confidenceOf_isSome htrigger))
      (still_setDisabled (e := e.logCall call) htrigger henabled _)

lemma applyTimeouts_still (ts : TipSet) : Keeps Still (applyTimeouts env tsc ts) :=
  applyTimeouts_keeps still_ranges (applyTimeout_still ts)

lemma applyTipSet_frame (ts : TipSet) : Keeps Frame (applyTipSet env tsc ts) :=
  applyTipSet_keeps (fun e n => (still_ranges e n).toFrame) (fun _ => (still_enqueue ..).toFrame)
    (fun x _ origH triggerTs i e => (applyEvent_still x origH triggerTs i e).toFrame)
    (fun e => (applyTimeouts_still ts e).toFrame) fun e => frame_lastTs e ts

lemma revertTipSet_frame (ts : TipSet) : Keeps Frame (revertTipSet ts) :=
  revertTipSet_keeps (fun htrigger => (still_logCall (confidenceOf_isSome htrigger)).toFrame)
    (fun _ _ => ⟨rfl, rfl, rfl, rfl, prefix_rfl, id, .inl, .inl⟩)
    (fun _ => ⟨rfl, rfl, rfl, rfl, prefix_rfl, id, .inl, .inl⟩) fun e => frame_lastTs e ts

lemma processHeadChangeEvent_frame (rev app : List TipSet) :
    Keeps Frame (processHeadChangeEvent env tsc rev app) :=
  Keeps.bind (Keeps.forM revertTipSet_frame rev) fun _ => Keeps.forM applyTipSet_frame app

end

end HcEvents

end Lotus
