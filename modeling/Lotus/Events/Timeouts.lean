import Lotus.Events.Messages

/-!
# Timeouts

The handler of a trigger for messages is called at its timeout with the receipt of the nil message,
and only if the node has one.
-/

namespace Lotus

open Act List HcEvents

/-- The key with which a timeout asks for the receipt. -/
def timeoutKey (env : EventsEnv) (tsc : TipSetCache) (height : Int64) : List Cid :=
  (tsc.get env.hashing height).toOption.join.elim [] (·.cids env.hashing)

/-- What `StateGetReceipt` reads. -/
structure ReceiptNode where
  messageCid : Option Message → Cid
  getTipSetFromKey : List Cid → Except NodeErr TipSet
  getCMessage : Cid → Except NodeErr ChainMsg
  /-- The rest of `GetReceipt`: the message is looked for in the tipset and then below it. The nil
  receipt that is given for a message which is not found counts as a receipt. -/
  findReceipt : TipSet → Cid → ChainMsg → Except NodeErr MessageReceipt

namespace ReceiptNode

def getReceipt (node : ReceiptNode) (msg : Cid) (ts : TipSet) : Except NodeErr MessageReceipt := do
  let m ← (node.getCMessage msg).mapError (.wrap "failed to load message")
  node.findReceipt ts msg m

def stateGetReceipt (node : ReceiptNode) (msg : Option Message) (tsk : List Cid) :
    Except NodeErr MessageReceipt := do
  let ts ← (node.getTipSetFromKey tsk).mapError (.wrap "loading tipset %s")
  node.getReceipt (node.messageCid msg) ts

def HasNil (node : ReceiptNode) (tsk : List Cid) : Prop :=
  ∃ ts m r, node.getTipSetFromKey tsk = .ok ts ∧ node.getCMessage (node.messageCid none) = .ok m ∧
    node.findReceipt ts (node.messageCid none) m = .ok r

lemma exists_stateGetReceipt_iff (node : ReceiptNode) (tsk : List Cid) :
    (∃ r, node.stateGetReceipt none tsk = .ok r) ↔ node.HasNil tsk := by
  simp only [stateGetReceipt, getReceipt, HasNil, Check.bind_eq_ok, Check.mapError_eq_ok]
  grind

end ReceiptNode

lemma handle_nil_log (env : EventsEnv) (tid : ℕ) (timeoutTs : Option TipSet) (curH : Int64)
    (e : HcEvents) :
    (∃ err, env.stateGetReceipt none (timeoutTs.elim [] (·.cids env.hashing)) = .error err ∧
      handle env tid .message none none none timeoutTs curH e = (.ok (.error err), e)) ∨
    ∃ r, env.stateGetReceipt none (timeoutTs.elim [] (·.cids env.hashing)) = .ok r ∧
      handle env tid .message none none none timeoutTs curH e =
        (.ok (env.answer (e.log ++ [⟨tid, none, .message none r timeoutTs curH⟩])),
          e.logCall ⟨tid, none, .message none r timeoutTs curH⟩) := by
  simp only [handle, handleMessage]
  rcases env.stateGetReceipt none (timeoutTs.elim [] (·.cids env.hashing)) with err | r
  · exact .inl ⟨err, rfl, rfl⟩
  · exact .inr ⟨r, rfl, rfl⟩

/-- A timeout at which no event was delivered comes to the handler of a trigger for messages exactly
if the node has a receipt of the nil message. -/
theorem applyTimeout_reaches_iff (env : EventsEnv) (tsc : TipSetCache) (ts : TipSet) (tid : ℕ)
    (e : HcEvents) {node : ReceiptNode} {trigger : HandlerInfo}
    (hnode : env.stateGetReceipt = node.stateGetReceipt)
    (hcount : e.timeoutCount ts.height tid = some 0) (htrigger : e.triggers tid = some trigger)
    (hkind : trigger.kind = .message) (henabled : trigger.disabled = false) :
    (∃ r timeoutTs, (HcEvents.applyTimeout env tsc ts tid e).2.log =
      e.log ++ [⟨tid, none, .message none r timeoutTs ts.height⟩]) ↔
    tsc.get env.hashing (ts.height - trigger.confidence) ≠ .error (.new "panic") ∧
      node.HasNil (timeoutKey env tsc (ts.height - trigger.confidence)) := by
  rw [← node.exists_stateGetReceipt_iff, ← hnode]
  simp only [HcEvents.applyTimeout, bind_of_ok (get_apply e), hcount, htrigger, hkind, henabled,
    Option.getD_some, gt_iff_lt, lt_irrefl, Bool.false_eq_true, if_false]
  by_cases hpanic : tsc.get env.hashing (ts.height - trigger.confidence) = .error (.new "panic")
  · have hcached : cached env tsc (ts.height - trigger.confidence) e =
        (.error (.new "panic"), e) := by
      rw [cached, hpanic]
      rfl
    rw [bind_of_error hcached]
    simp [hpanic]
  have hcached : cached env tsc (ts.height - trigger.confidence) e =
      (.ok (tsc.get env.hashing (ts.height - trigger.confidence)), e) := by
    rw [cached]
    rcases hget : tsc.get env.hashing (ts.height - trigger.confidence) with err | timeoutTs
    · have herr : err ≠ .new "panic" := fun herr => hpanic (herr ▸ hget)
      dsimp only
      rw [if_neg herr]
      rfl
    · rfl
  rw [bind_of_ok hcached, timeoutKey]
  simp only [ne_eq, hpanic, not_false_eq_true, true_and]
  rcases handle_nil_log env tid
    (tsc.get env.hashing (ts.height - trigger.confidence)).toOption.join ts.height e with
    ⟨err, hreceipt, hrun⟩ | ⟨r, hreceipt, hrun⟩
  · -- no handler is called
    rw [bind_of_ok hrun, hreceipt]
    dsimp only
    split_ifs <;> simp [fail]
  · refine iff_of_true ⟨r, (tsc.get env.hashing (ts.height - trigger.confidence)).toOption.join, ?_⟩
      ⟨r, hreceipt⟩
    rw [bind_of_ok hrun]
    rcases env.answer _ with err | more
    · dsimp only
      split_ifs <;> rfl
    · rfl

def sampleTimeout : ChainEvent := .called (.ok (false, true)) 1 6 (sampleMatch false 1)

def sampleReceiptNode (msg : Option ChainMsg) : ReceiptNode where
  messageCid _ := ⟨[0xf6]⟩
  getTipSetFromKey _ := .ok (sampleEpoch 5)
  getCMessage _ := msg.elim (.error (.new "blockstore: block not found")) .ok
  findReceipt _ _ _ := .ok ⟨0, [], 0⟩

def sampleReceiptEnv (msg : Option ChainMsg) : EventsEnv :=
  { sampleEventsEnv [] (.ok false) with stateGetReceipt := (sampleReceiptNode msg).stateGetReceipt }

def sampleNilEnv : EventsEnv := sampleReceiptEnv (some ⟨sampleCall 1, ⟨[0xf6]⟩, 1⟩)

def sampleRegistered : EventsRun :=
  (sampleEvents.step sampleNilEnv sampleTimeout).getD sampleEvents

theorem sampleNilEnv_called : ∃ r timeoutTs,
    (HcEvents.applyTimeout sampleNilEnv sampleRegistered.tsc (sampleEpoch 7) 0
      sampleRegistered.events).2.log =
    sampleRegistered.events.log ++ [⟨0, none, .message none r timeoutTs (sampleEpoch 7).height⟩] :=
  (applyTimeout_reaches_iff sampleNilEnv sampleRegistered.tsc (sampleEpoch 7) 0
    sampleRegistered.events rfl (by decide) rfl rfl rfl).mpr ⟨by decide, _, _, _, rfl, rfl, rfl⟩

/-- The message is not stored, and the chain comes to the timeout without a call of the handler. -/
theorem sampleReceiptNode_lost : ∃ s1 s,
    sampleEvents.step (sampleReceiptEnv none) sampleTimeout = some s1 ∧
    Runs.run (EventsRun.step (sampleReceiptEnv none)) s1
      [.headChange [] [sampleEpoch 6], .headChange [] [sampleEpoch 7]] = some s ∧
    s.events.timeoutCount 7 0 = some 0 ∧ s.events.log = [] :=
  ⟨_, _, rfl, rfl, by decide, by decide⟩

end Lotus
