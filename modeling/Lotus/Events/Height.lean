import Lotus.Events.TsCache
import Lotus.Lib.Turns

/-!
# Height triggers

`heightEvents` of `chain/events/events_height.go`.
-/

namespace Lotus

open Act List

/-- A call of one of the two handlers of a registration. -/
inductive HeightCall where
  | apply (ts : Option TipSet) (curH : Int64)
  | revert (ts : TipSet)
deriving DecidableEq

def HeightCall.isApply : HeightCall → Bool
  | .apply _ _ => true
  | .revert _ => false

/-- The arguments of a call of `ChainAt`. -/
structure Registration where
  confidence : Int64
  height : Int64
deriving DecidableEq

/-- `heightHandler`, with the number of the registration that its handlers belong to. -/
structure HeightHandler where
  confidence : Int64
  called : Bool
  reg : ℕ
deriving DecidableEq

/-- `heightEvents`, with the calls of `ChainAt` and of the handlers that were made so far. -/
structure HeightEvents where
  tsc : TipSetCache
  gcConfidence : Int64
  ctr : ℕ
  heightTriggers : ℕ → Option HeightHandler
  htTriggerHeights : Int64 → List ℕ
  htHeights : Int64 → List ℕ
  registered : List Registration
  calls : List (ℕ × HeightCall)

def callsIn (calls : List (ℕ × HeightCall)) (r : ℕ) : List HeightCall :=
  (calls.filter fun c => c.1 = r).map Prod.snd

namespace HeightEvents

def callsOf (e : HeightEvents) (r : ℕ) : List HeightCall := callsIn e.calls r

def call (e : HeightEvents) (tid : ℕ) (hnd : HeightHandler) (c : HeightCall) : HeightEvents :=
  { e with
    calls := e.calls ++ [(hnd.reg, c)]
    heightTriggers :=
      Function.update e.heightTriggers tid (some { hnd with called := c.isApply }) }

end HeightEvents

section

variable (hashing : Hashing) (rounds : ℕ)

def revertTriggers (ts : TipSet) : List ℕ → Act HeightEvents NodeErr Unit
  | [] => pure ()
  | tid :: tids => do
    match (← get).heightTriggers tid with
    | none => fail (.new "panic")
    | some hnd =>
      modify (·.call tid hnd (.revert ts))
      revertTriggers ts tids

/-- The loop of the function `apply` of `headChangeAt`, for the height `h`. A search in the cache
that takes more than `rounds` steps is given up. -/
def applyTriggers (h : Int64) : List ℕ → Act HeightEvents NodeErr Unit
  | [] => pure ()
  | tid :: tids => do
    let e ← get
    match e.heightTriggers tid with
    | none => fail (.new "panic")
    | some hnd =>
      if hnd.called then pure ()
      else
        match e.tsc.getNonNull hashing rounds (h - hnd.confidence) with
        | none => fail (.new "does not return")
        | some (.error err) => fail err
        | some (.ok incTs) =>
          modify (·.call tid hnd (.apply (some incTs) h))
          applyTriggers h tids

def revertHeight (ts : TipSet) (h : Int64) : Act HeightEvents NodeErr Unit := do
  revertTriggers ts ((← get).htHeights h)

def applyHeight (h : Int64) : Act HeightEvents NodeErr Unit := do
  applyTriggers hashing rounds h ((← get).htTriggerHeights h)

def walkNulls (visit : Int64 → Act HeightEvents NodeErr Unit) :
    ℕ → Int64 → Act HeightEvents NodeErr Unit
  | 0, _ => fail (.new "does not return")
  | n + 1, subh => do
    match ← ofExcept ((← get).tsc.get hashing subh) with
    | some _ => pure ()
    | none =>
      visit subh
      walkNulls visit n (subh - 1)

/-- `tsc.revert` of `headChangeAt` -/
def removeTipSet (ts : TipSet) : Act HeightEvents NodeErr Unit := do
  let tsc ← ofExcept ((← get).tsc.revert hashing ts)
  modify ({ · with tsc := tsc })

/-- The first loop of `headChangeAt`, for one tipset. -/
def revertTipSet (ts : TipSet) : Act HeightEvents NodeErr Unit := do
  revertHeight ts ts.height
  walkNulls hashing (revertHeight ts) rounds (ts.height - 1)
  removeTipSet hashing ts

def addTipSet (ts : TipSet) : Act HeightEvents NodeErr Unit := do
  let tsc ← ofExcept ((← get).tsc.add ts)
  modify ({ · with tsc := tsc })

/-- The second loop of `headChangeAt`, for one tipset. -/
def applyTipSet (ts : TipSet) : Act HeightEvents NodeErr Unit := do
  addTipSet ts
  applyHeight hashing rounds ts.height
  walkNulls hashing (applyHeight hashing rounds) rounds (ts.height - 1)

def headChangeAt (rev app : List TipSet) : Act HeightEvents NodeErr Unit := do
  rev.forM (revertTipSet hashing rounds)
  app.forM (applyTipSet hashing rounds)

/-- The registration of a call of `ChainAt`. -/
def HeightEvents.enroll (e : HeightEvents) (reg : Registration) : HeightEvents :=
  { e with registered := e.registered ++ [reg] }

/-- The call that `ChainAt` makes at once for a registration. -/
def HeightEvents.enrollCalled (e : HeightEvents) (reg : Registration) (c : HeightCall) :
    HeightEvents :=
  { e with
    registered := e.registered ++ [reg]
    calls := e.calls ++ [(e.registered.length, c)] }

/-- The first part of `ChainAt`: the handler is called at once, if the chain has reached the trigger
height. -/
def applyAtOnce (reg : Registration) (bestH : Int64) (res : Except NodeErr Unit) :
    Act HeightEvents NodeErr Unit := do
  if bestH ≥ reg.height + reg.confidence then
    match (← get).tsc.getNonNull hashing rounds reg.height with
    | none => fail (.new "does not return")
    | some ts =>
      modify (·.enrollCalled reg (.apply ts.toOption bestH))
      ofExcept res
  else modify (·.enroll reg)

/-- `m[k] = append(m[k], a)` -/
def appendTo {α : Type} (m : Int64 → List α) (k : Int64) (a : α) : Int64 → List α :=
  Function.update m k (m k ++ [a])

def HeightEvents.register (e : HeightEvents) (reg : Registration) : HeightEvents :=
  { e with
    ctr := e.ctr + 1
    heightTriggers := Function.update e.heightTriggers e.ctr
      (some ⟨reg.confidence, false, e.registered.length - 1⟩)
    htHeights := appendTo e.htHeights reg.height e.ctr
    htTriggerHeights := appendTo e.htTriggerHeights (reg.height + reg.confidence) e.ctr }

/-- The last part of `ChainAt`: the registration is kept, unless it is too old to be reverted. -/
def keepUnlessOld (reg : Registration) (bestH : Int64) : Act HeightEvents NodeErr Unit := do
  if bestH ≥ reg.height + reg.confidence + (← get).gcConfidence then pure ()
  else modify (·.register reg)

def chainAt (reg : Registration) (res : Except NodeErr Unit) :
    Act HeightEvents NodeErr Unit := do
  match (← get).tsc.best with
  | none => fail (.new "panic")
  | some best =>
    applyAtOnce hashing rounds reg best.height res
    keepUnlessOld reg best.height

end

def HeightEvents.headChange (hashing : Hashing) (rounds : ℕ) (rev app : List TipSet) :
    Act HeightEvents NodeErr Unit :=
  if app = [] then fail (.new "events.headChange expected at least one applied tipset")
  else headChangeAt hashing rounds rev app

inductive HeightEvent where
  | chainAt (reg : Registration) (res : Except NodeErr Unit)
  | headChange (rev app : List TipSet)

def HeightEvents.step (hashing : Hashing) (rounds : ℕ) (e : HeightEvents) :
    HeightEvent → Option HeightEvents
  | .chainAt reg res => some (Lotus.chainAt hashing rounds reg res e).2
  | .headChange rev app => some (HeightEvents.headChange hashing rounds rev app e).2

/-! ## Alternation -/

def Alternates (cs : List HeightCall) : Prop := Turns.Alternates HeightCall.isApply cs

def Active (cs : List HeightCall) : Bool := Turns.Active HeightCall.isApply cs

lemma active_concat (cs : List HeightCall) (c : HeightCall) : Active (cs ++ [c]) = c.isApply :=
  Turns.active_concat

lemma callsIn_concat (calls : List (ℕ × HeightCall)) (q : ℕ) (c : HeightCall) (r : ℕ) :
    callsIn (calls ++ [(q, c)]) r = if q = r then callsIn calls r ++ [c] else callsIn calls r := by
  by_cases hr : q = r <;> simp [callsIn, hr]

namespace HeightEvents

variable {e : HeightEvents} {tid : ℕ} {hnd : HeightHandler} {c : HeightCall}

lemma callsOf_call (e : HeightEvents) (tid : ℕ) (hnd : HeightHandler) (c : HeightCall) (r : ℕ) :
    (e.call tid hnd c).callsOf r = if hnd.reg = r then e.callsOf r ++ [c] else e.callsOf r :=
  callsIn_concat e.calls hnd.reg c r

lemma of_call_lookup (_ : e.heightTriggers tid = some hnd) {tid' : ℕ} {hnd' : HeightHandler}
    (h : (e.call tid hnd c).heightTriggers tid' = some hnd') :
    (tid' = tid ∧ hnd' = { hnd with called := c.isApply }) ∨
      (tid' ≠ tid ∧ e.heightTriggers tid' = some hnd') := by
  by_cases htid : tid' = tid <;> simp_all [call, eq_comm]

lemma reg_of_call_lookup (hhnd : e.heightTriggers tid = some hnd) {tid' : ℕ}
    {hnd' : HeightHandler} (h : (e.call tid hnd c).heightTriggers tid' = some hnd') :
    ∃ old, e.heightTriggers tid' = some old ∧ old.reg = hnd'.reg := by
  rcases of_call_lookup hhnd h with ⟨rfl, rfl⟩ | ⟨-, hold⟩ <;> simp_all

end HeightEvents

structure Filed (e : HeightEvents) : Prop where
  reg_inj : ∀ {tid tid' hnd hnd'}, e.heightTriggers tid = some hnd →
    e.heightTriggers tid' = some hnd' → hnd.reg = hnd'.reg → tid = tid'
  trigger_lt : ∀ {tid hnd}, e.heightTriggers tid = some hnd → tid < e.ctr
  trigger_reg : ∀ {tid hnd}, e.heightTriggers tid = some hnd →
    ∃ reg, e.registered[hnd.reg]? = some reg ∧
      tid ∈ e.htTriggerHeights (reg.height + reg.confidence)
  height_reg : ∀ {x tid hnd}, tid ∈ e.htHeights x → e.heightTriggers tid = some hnd →
    ∃ reg, e.registered[hnd.reg]? = some reg ∧ reg.height = x
  heights_lt : ∀ {x tid}, tid ∈ e.htHeights x → tid < e.ctr
  heights_nodup : ∀ x, (e.htHeights x).Nodup
  triggerHeights_lt : ∀ {x tid}, tid ∈ e.htTriggerHeights x → tid < e.ctr
  triggerHeights_nodup : ∀ x, (e.htTriggerHeights x).Nodup

variable {e : HeightEvents} {tid : ℕ} {hnd : HeightHandler} {c : HeightCall}

lemma Filed.reg_lt (h : Filed e) (hhnd : e.heightTriggers tid = some hnd) :
    hnd.reg < e.registered.length := by
  grind [h.trigger_reg, List.getElem?_eq_some_iff]

lemma Filed.call (h : Filed e) (hhnd : e.heightTriggers tid = some hnd) :
    Filed (e.call tid hnd c) where
  reg_inj hhnd1 hhnd2 hreg := by
    grind [HeightEvents.reg_of_call_lookup, h.reg_inj]
  trigger_lt hhnd' := by
    obtain ⟨old, hold, -⟩ := HeightEvents.reg_of_call_lookup hhnd hhnd'
    exact h.trigger_lt hold
  trigger_reg hhnd' := by
    obtain ⟨old, hold, hreg⟩ := HeightEvents.reg_of_call_lookup hhnd hhnd'
    exact hreg ▸ h.trigger_reg hold
  height_reg htid hhnd' := by
    obtain ⟨old, hold, hreg⟩ := HeightEvents.reg_of_call_lookup hhnd hhnd'
    exact hreg ▸ h.height_reg htid hold
  heights_lt := h.heights_lt
  heights_nodup := h.heights_nodup
  triggerHeights_lt := h.triggerHeights_lt
  triggerHeights_nodup := h.triggerHeights_nodup

lemma Filed.setTsc (h : Filed e) (tsc : TipSetCache) : Filed { e with tsc := tsc } := { h with }

structure Alternating (e : HeightEvents) : Prop extends Filed e where
  alternates : ∀ r, Alternates (e.callsOf r)
  called_eq : ∀ {tid hnd}, e.heightTriggers tid = some hnd → hnd.called = Active (e.callsOf hnd.reg)
  calls_lt : ∀ c ∈ e.calls, c.1 < e.registered.length

lemma Alternating.call (h : Alternating e) (hhnd : e.heightTriggers tid = some hnd)
    (hc : c.isApply = !hnd.called) : Alternating (e.call tid hnd c) where
  toFiled := h.toFiled.call hhnd
  alternates r := by
    rw [HeightEvents.callsOf_call]
    split_ifs with hr
    · subst hr
      refine Turns.Alternates.concat (h.alternates _) ?_
      rw [hc, h.called_eq hhnd]
      rfl
    · exact h.alternates r
  called_eq {tid' hnd'} hhnd' := by
    rw [HeightEvents.callsOf_call]
    rcases HeightEvents.of_call_lookup hhnd hhnd' with ⟨rfl, rfl⟩ | ⟨hne, hold⟩
    · rw [if_pos rfl, active_concat]
    · grind [h.reg_inj, h.called_eq]
  calls_lt := by
    simpa [HeightEvents.call, or_imp, forall_and] using ⟨fun _ _ => h.calls_lt _, h.reg_lt hhnd⟩

lemma Alternating.setTsc (h : Alternating e) (tsc : TipSetCache) :
    Alternating { e with tsc := tsc } := { h with toFiled := h.toFiled.setTsc tsc }

/-! ## The conditions -/

def CalledAt (h : Int64) (e : HeightEvents) : Prop :=
  ∀ tid ∈ e.htHeights h, ∀ hnd ∈ e.heightTriggers tid, hnd.called = true
deriving Decidable

section

variable (hashing : Hashing) (rounds : ℕ)

def AlongNulls (visit : Int64 → Act HeightEvents NodeErr Unit) (P : Int64 → HeightEvents → Prop) :
    ℕ → Int64 → HeightEvents → Prop
  | 0, _, _ => True
  | n + 1, subh, e =>
    e.tsc.get hashing subh = .ok none →
      P subh e ∧ (visit subh).After (AlongNulls visit P n (subh - 1)) e

instance decidableAlongNulls (visit : Int64 → Act HeightEvents NodeErr Unit)
    (P : Int64 → HeightEvents → Prop) [∀ h, DecidablePred (P h)] :
    ∀ n subh e, Decidable (AlongNulls hashing visit P n subh e)
  | 0, _, _ => isTrue trivial
  | n + 1, subh, e =>
    have := decidableAlongNulls visit P n (subh - 1)
    inferInstanceAs (Decidable (e.tsc.get hashing subh = .ok none → _))

def RevertsCalled : List TipSet → HeightEvents → Prop
  | [], _ => True
  | ts :: rev, e =>
    CalledAt ts.height e ∧
      (revertHeight ts ts.height).After
        (AlongNulls hashing (revertHeight ts) CalledAt rounds (ts.height - 1)) e ∧
      (revertTipSet hashing rounds ts).After (RevertsCalled rev) e

instance decidableRevertsCalled : ∀ rev e, Decidable (RevertsCalled hashing rounds rev e)
  | [], _ => isTrue trivial
  | ts :: rev, e =>
    have := decidableRevertsCalled rev
    inferInstanceAs (Decidable (CalledAt ts.height e ∧ _))

def InTurn (e : HeightEvents) : HeightEvent → Prop
  | .chainAt reg res => ∀ best ∈ e.tsc.best, best.height ≥ reg.height + reg.confidence →
    res.isOk = false ∨ best.height ≥ reg.height + reg.confidence + e.gcConfidence
  | .headChange rev _ => RevertsCalled hashing rounds rev e

instance (e : HeightEvents) : DecidablePred (InTurn hashing rounds e)
  | .chainAt _ _ => inferInstanceAs (Decidable (∀ best ∈ e.tsc.best, _))
  | .headChange rev _ => inferInstanceAs (Decidable (RevertsCalled hashing rounds rev e))

variable {hashing rounds}

variable {R : HeightEvents → HeightEvents → Prop} {ts : TipSet}

variable {x : Int64}

lemma applyTriggers_keeps [Std.Refl R] [IsTrans HeightEvents R]
    (hcall : ∀ {e tid hnd incTs}, e.heightTriggers tid = some hnd → hnd.called = false →
      R e (e.call tid hnd (.apply (some incTs) x))) (tids : List ℕ) :
    Keeps R (applyTriggers hashing rounds x tids) := by
  induction tids with
  | nil => exact Keeps.pure ()
  | cons tid tids ih =>
    intro e
    rw [Lotus.applyTriggers, bind_of_ok (get_apply e)]
    rcases hhnd : e.heightTriggers tid with _ | hnd
    · exact Std.Refl.refl e
    dsimp only
    split_ifs with hcalled
    · exact Std.Refl.refl e
    rcases e.tsc.getNonNull hashing rounds (x - hnd.confidence) with _ | err | incTs
    · exact Std.Refl.refl e
    · exact Std.Refl.refl e
    · exact IsTrans.trans _ _ _ (hcall hhnd (Bool.eq_false_iff.mpr hcalled)) (ih _)

variable {visit : Int64 → Act HeightEvents NodeErr Unit}

/-- What is kept at the heights that are walked is kept by the walk. -/
lemma walkNulls_keeps {P : Int64 → HeightEvents → Prop} {Inv : HeightEvents → Prop}
    (hvisit : ∀ {h e}, Inv e → P h e → Inv (visit h e).2) {n : ℕ} {subh : Int64}
    (halong : AlongNulls hashing visit P n subh e) (he : Inv e) :
    Inv (walkNulls hashing visit n subh e).2 := by
  induction n generalizing subh e with
  | zero => exact he
  | succ n ih =>
    rw [walkNulls, bind_of_ok (get_apply e)]
    rcases hget : e.tsc.get hashing subh with err | _ | ts
    · exact he
    · obtain ⟨hP, hafter⟩ := halong hget
      rw [bind_of_ok (ofExcept_of_ok rfl e)]
      exact snd_bind (hvisit he hP) fun _ _ hv => ih (hafter.of_run hv)
    · exact he

lemma Alternating.revertTriggers {tids : List ℕ} (h : Alternating e) (hnodup : tids.Nodup)
    (hcalled : ∀ tid ∈ tids, ∀ hnd ∈ e.heightTriggers tid, hnd.called = true) :
    Alternating (revertTriggers ts tids e).2 := by
  induction tids generalizing e with
  | nil => exact h
  | cons tid tids ih =>
    obtain ⟨hnot, hnodup⟩ := nodup_cons.mp hnodup
    rw [Lotus.revertTriggers, bind_of_ok (get_apply e)]
    rcases hhnd : e.heightTriggers tid with _ | hnd
    · exact h
    · have htrue := hcalled tid (.head _) hnd hhnd
      refine ih (h.call hhnd (by simp [HeightCall.isApply, htrue])) hnodup
        fun tid' htid' hnd' hhnd' => ?_
      rcases HeightEvents.of_call_lookup hhnd hhnd' with ⟨rfl, -⟩ | ⟨-, hold⟩ <;> grind

lemma Alternating.revertHeight (h : Alternating e) (hcalled : CalledAt x e) :
    Alternating (revertHeight ts x e).2 := by
  rw [Lotus.revertHeight, bind_of_ok (get_apply e)]
  exact h.revertTriggers (h.heights_nodup x) hcalled

lemma Alternating.applyHeight (h : Alternating e) :
    Alternating (applyHeight hashing rounds x e).2 := by
  rw [Lotus.applyHeight, bind_of_ok (get_apply e)]
  exact applyTriggers_keeps (R := Preserves Alternating)
    (fun hhnd hcalled h => h.call hhnd (by simp [HeightCall.isApply, hcalled])) _ e h

lemma Alternating.revertTipSet (h : Alternating e) (hcalled : CalledAt ts.height e)
    (hnulls : (Lotus.revertHeight ts ts.height).After
      (AlongNulls hashing (Lotus.revertHeight ts) CalledAt rounds (ts.height - 1)) e) :
    Alternating (revertTipSet hashing rounds ts e).2 := by
  refine snd_bind (h.revertHeight hcalled) fun _ e' hrev h' => ?_
  have hwalk := walkNulls_keeps (fun he hP => Alternating.revertHeight he hP)
    (hnulls.of_run hrev) h'
  refine snd_bind hwalk fun _ _ _ h3 => ?_
  exact snd_bind h3 fun _ _ _ h4 => snd_bind h4 fun tsc _ _ h5 => h5.setTsc tsc

lemma alongNulls_true (n : ℕ) (subh : Int64) (e : HeightEvents) :
    AlongNulls hashing visit (fun _ _ => True) n subh e := by
  induction n generalizing subh e with
  | zero => trivial
  | succ n ih => exact fun _ => ⟨trivial, fun _ => ih _ _⟩

lemma Alternating.applyTipSet (h : Alternating e) :
    Alternating (applyTipSet hashing rounds ts e).2 := by
  have hadd : Alternating (addTipSet ts e).2 :=
    snd_bind h fun _ _ _ h1 => snd_bind h1 fun tsc _ _ h2 => h2.setTsc tsc
  refine snd_bind hadd fun _ _ _ h3 => snd_bind h3.applyHeight fun _ _ _ h4 => ?_
  exact walkNulls_keeps (fun he _ => Alternating.applyHeight he) (alongNulls_true _ _ _) h4

lemma Alternating.headChangeAt {rev app : List TipSet} (h : Alternating e)
    (hrev : RevertsCalled hashing rounds rev e) :
    Alternating (headChangeAt hashing rounds rev app e).2 := by
  have hreverted : Alternating (rev.forM (Lotus.revertTipSet hashing rounds) e).2 := by
    induction rev generalizing e with
    | nil => exact h
    | cons ts rev ih =>
      obtain ⟨hcalled, hnulls, hrest⟩ := hrev
      show Alternating ((Lotus.revertTipSet hashing rounds ts >>= fun _ => _) e).2
      exact snd_bind (h.revertTipSet hcalled hnulls) fun _ _ hts h' => ih h' (hrest.of_run hts)
  exact snd_bind hreverted fun _ _ _ h' =>
    snd_forM (fun _ _ he => Alternating.applyTipSet he) app h'

lemma Alternating.headChange {rev app : List TipSet} (h : Alternating e)
    (hrev : RevertsCalled hashing rounds rev e) :
    Alternating (HeightEvents.headChange hashing rounds rev app e).2 := by
  unfold HeightEvents.headChange
  split_ifs
  · exact h
  · exact h.headChangeAt hrev

/-! ## Registrations -/

lemma Alternating.callsOf_fresh (h : Alternating e) : e.callsOf e.registered.length = [] := by
  simp only [HeightEvents.callsOf, callsIn, map_eq_nil_iff, filter_eq_nil_iff]
  intro c hc
  simpa using (h.calls_lt c hc).ne

variable {reg : Registration}

lemma HeightEvents.enroll_registered {r : ℕ} (hreg : e.registered[r]? = some reg)
    (new : Registration) :
    (e.enroll new).registered[r]? = some reg :=
  (List.getElem?_append_left (List.getElem?_eq_some_iff.mp hreg).1).trans hreg

/-- A registration that is not kept. -/
lemma Filed.enroll (h : Filed e) (reg : Registration) : Filed (e.enroll reg) where
  reg_inj := h.reg_inj
  trigger_lt := h.trigger_lt
  trigger_reg hhnd := by
    obtain ⟨reg', hreg', hmem⟩ := h.trigger_reg hhnd
    exact ⟨reg', HeightEvents.enroll_registered hreg' reg, hmem⟩
  height_reg htid hhnd := by
    obtain ⟨reg', hreg', hheight⟩ := h.height_reg htid hhnd
    exact ⟨reg', HeightEvents.enroll_registered hreg' reg, hheight⟩
  heights_lt := h.heights_lt
  heights_nodup := h.heights_nodup
  triggerHeights_lt := h.triggerHeights_lt
  triggerHeights_nodup := h.triggerHeights_nodup

lemma Filed.setCalls (h : Filed e) (calls : List (ℕ × HeightCall)) :
    Filed { e with calls := calls } := { h with }

lemma Filed.enrollCalled (h : Filed e) (reg : Registration) (c : HeightCall) :
    Filed (e.enrollCalled reg c) :=
  (h.enroll reg).setCalls _

lemma Alternating.enroll (h : Alternating e) (reg : Registration) : Alternating (e.enroll reg) where
  toFiled := h.toFiled.enroll reg
  alternates := h.alternates
  called_eq := h.called_eq
  calls_lt c hc := (h.calls_lt c hc).trans_le (by simp [HeightEvents.enroll])

lemma Alternating.enrollCalled (h : Alternating e) (reg : Registration) (ts : Option TipSet)
    (curH : Int64) :
    Alternating (e.enrollCalled reg (.apply ts curH)) where
  toFiled := h.toFiled.enrollCalled reg _
  alternates r := by
    show Alternates (callsIn (e.calls ++ [_]) r)
    rw [callsIn_concat]
    split_ifs with hr
    · rw [← hr, show callsIn e.calls _ = [] from h.callsOf_fresh]
      exact ⟨by simp [HeightCall.isApply], List.IsChain.singleton _⟩
    · exact h.alternates r
  called_eq hhnd := by
    rw [h.called_eq hhnd]
    refine congrArg Active ((callsIn_concat e.calls _ _ _).trans (if_neg ?_)).symm
    exact (h.reg_lt hhnd).ne'
  calls_lt c hc := by
    rcases mem_append.mp hc with hc | hc
    · exact (h.calls_lt c hc).trans_le (by simp [HeightEvents.enrollCalled])
    · simp [HeightEvents.enrollCalled, mem_singleton.mp hc]

lemma appendTo_apply {α : Type} (m : Int64 → List α) (k : Int64) (a : α) (x : Int64) :
    appendTo m k a x = if x = k then m x ++ [a] else m x := by
  by_cases hx : x = k <;> simp [appendTo, hx]

lemma mem_appendTo {α : Type} {m : Int64 → List α} {k : Int64} {a b : α} :
    b ∈ appendTo m k a x ↔ b ∈ m x ∨ x = k ∧ b = a := by
  grind [appendTo_apply]

lemma nodup_appendTo {m : Int64 → List ℕ} {k : Int64} {id : ℕ} (h : (m x).Nodup)
    (hid : id ∉ m x) : (appendTo m k id x).Nodup := by
  grind [appendTo_apply, nodup_append, ne_of_mem_of_not_mem]

lemma register_lt {m : Int64 → List ℕ} {k : Int64} {id : ℕ} (h : ∀ {x tid}, tid ∈ m x → tid < id)
    (htid : tid ∈ appendTo m k id x) : tid < id + 1 := by
  rcases mem_appendTo.mp htid with hold | ⟨-, rfl⟩ <;> grind

lemma of_register_lookup {tid' : ℕ} {hnd' : HeightHandler}
    (h : (e.register reg).heightTriggers tid' = some hnd') :
    (tid' = e.ctr ∧ hnd' = ⟨reg.confidence, false, e.registered.length - 1⟩) ∨
      (tid' ≠ e.ctr ∧ e.heightTriggers tid' = some hnd') := by
  by_cases htid : tid' = e.ctr <;> simp_all [HeightEvents.register, eq_comm]

lemma Filed.register (h : Filed e) (hlast : e.registered[e.registered.length - 1]? = some reg)
    (hnew : ∀ {tid hnd}, e.heightTriggers tid = some hnd → hnd.reg < e.registered.length - 1) :
    Filed (e.register reg) where
  reg_inj hhnd1 hhnd2 hreg := by
    rcases of_register_lookup hhnd1 with ⟨rfl, rfl⟩ | ⟨-, hold1⟩ <;>
    rcases of_register_lookup hhnd2 with ⟨rfl, rfl⟩ | ⟨-, hold2⟩
    · rfl
    · exact absurd hreg (hnew hold2).ne'
    · exact absurd hreg (hnew hold1).ne
    · exact h.reg_inj hold1 hold2 hreg
  trigger_lt hhnd := by
    rcases of_register_lookup hhnd with ⟨rfl, -⟩ | ⟨-, hold⟩
    · exact Nat.lt_succ_self e.ctr
    · exact (h.trigger_lt hold).trans (Nat.lt_succ_self e.ctr)
  trigger_reg hhnd := by
    rcases of_register_lookup hhnd with ⟨rfl, rfl⟩ | ⟨-, hold⟩
    · exact ⟨reg, hlast, mem_appendTo.mpr (.inr ⟨rfl, rfl⟩)⟩
    · obtain ⟨reg', hreg', hmem⟩ := h.trigger_reg hold
      exact ⟨reg', hreg', mem_appendTo.mpr (.inl hmem)⟩
  height_reg htid hhnd := by
    rcases of_register_lookup hhnd with ⟨rfl, rfl⟩ | ⟨hne, hold⟩ <;>
      rcases mem_appendTo.mp htid with hmem | ⟨rfl, heq⟩
    · exact absurd rfl (h.heights_lt hmem).ne
    · exact ⟨reg, hlast, rfl⟩
    · exact h.height_reg hmem hold
    · exact absurd heq hne
  heights_lt htid := register_lt (m := e.htHeights) h.heights_lt htid
  heights_nodup x := nodup_appendTo (h.heights_nodup x) fun hmem => (h.heights_lt hmem).ne rfl
  triggerHeights_lt htid := register_lt (m := e.htTriggerHeights) h.triggerHeights_lt htid
  triggerHeights_nodup x :=
    nodup_appendTo (h.triggerHeights_nodup x) fun hmem => (h.triggerHeights_lt hmem).ne rfl

lemma Filed.enrollKept (h : Filed e) (reg : Registration) :
    Filed ((e.enroll reg).register reg) := by
  refine (h.enroll reg).register ?_ fun hhnd => ?_
  · simp [HeightEvents.enroll]
  · simpa [HeightEvents.enroll] using h.reg_lt hhnd

lemma Alternating.enrollKept (h : Alternating e) (reg : Registration) :
    Alternating ((e.enroll reg).register reg) where
  toFiled := h.toFiled.enrollKept reg
  alternates := h.alternates
  called_eq hhnd := by
    rcases of_register_lookup hhnd with ⟨-, rfl⟩ | ⟨-, hold⟩
    · have hfresh : callsIn e.calls e.registered.length = [] := h.callsOf_fresh
      simp [HeightEvents.callsOf, HeightEvents.register, HeightEvents.enroll, hfresh, Active,
        Turns.Active]
    · exact h.called_eq hold
  calls_lt c hc := (h.calls_lt c hc).trans_le (by simp [HeightEvents.register, HeightEvents.enroll])

lemma applyAtOnce_late {bestH : Int64} {res : Except NodeErr Unit}
    (hlate : bestH ≥ reg.height + reg.confidence) :
    applyAtOnce hashing rounds reg bestH res e = (.error (.new "does not return"), e) ∨
      ∃ ts, applyAtOnce hashing rounds reg bestH res e =
        (res, e.enrollCalled reg (.apply ts bestH)) := by
  rw [applyAtOnce, if_pos hlate, bind_of_ok (get_apply e)]
  rcases e.tsc.getNonNull hashing rounds reg.height with _ | ts
  · exact .inl rfl
  · exact .inr ⟨ts.toOption, rfl⟩

lemma keepUnlessOld_apply (reg : Registration) (bestH : Int64) (e : HeightEvents) :
    keepUnlessOld reg bestH e = (.ok (),
      if bestH ≥ reg.height + reg.confidence + e.gcConfidence then e else e.register reg) := by
  rw [keepUnlessOld, bind_of_ok (get_apply e)]
  split_ifs <;> rfl

lemma chainAt_cases {best : TipSet} (hbest : e.tsc.best = some best) (reg : Registration)
    (res : Except NodeErr Unit) :
    let late := best.height ≥ reg.height + reg.confidence
    let old := best.height ≥ reg.height + reg.confidence + e.gcConfidence
    let e' := (chainAt hashing rounds reg res e).2
    (late ∧ e' = e ∧ (chainAt hashing rounds reg res e).1.isOk = false) ∨
      (late ∧ (res.isOk = false ∨ old) ∧ ∃ ts, e' = e.enrollCalled reg (.apply ts best.height)) ∨
      (late ∧ res.isOk = true ∧ ¬old ∧
        ∃ ts, e' = (e.enrollCalled reg (.apply ts best.height)).register reg) ∨
      (¬late ∧ old ∧ e' = e.enroll reg) ∨
      (¬late ∧ ¬old ∧ e' = (e.enroll reg).register reg) := by
  dsimp only
  rw [chainAt, bind_of_ok (get_apply e), hbest]
  dsimp only
  by_cases hlate : best.height ≥ reg.height + reg.confidence
  · rcases applyAtOnce_late hlate with hstuck | ⟨ts, honce⟩
    · rw [bind_of_error hstuck]
      exact .inl ⟨hlate, rfl, rfl⟩
    rcases res with err | u
    · rw [bind_of_error honce]
      exact .inr (.inl ⟨hlate, .inl rfl, ts, rfl⟩)
    rw [bind_of_ok honce, keepUnlessOld_apply]
    split_ifs with hold
    · exact .inr (.inl ⟨hlate, .inr hold, ts, rfl⟩)
    · exact .inr (.inr (.inl ⟨hlate, rfl, hold, ts, rfl⟩))
  · rw [applyAtOnce, if_neg hlate, bind_of_ok (modify_apply _ e), keepUnlessOld_apply]
    split_ifs with hold
    · exact .inr (.inr (.inr (.inl ⟨hlate, hold, rfl⟩)))
    · exact .inr (.inr (.inr (.inr ⟨hlate, hold, rfl⟩)))

lemma Alternating.chainAt {res : Except NodeErr Unit} (h : Alternating e)
    (hturn : InTurn hashing rounds e (.chainAt reg res)) :
    Alternating (chainAt hashing rounds reg res e).2 := by
  rcases hbest : e.tsc.best with _ | best
  · rwa [Lotus.chainAt, bind_of_ok (get_apply e), hbest]
  rcases chainAt_cases hbest reg res with ⟨-, heq, -⟩ | ⟨-, -, ts, heq⟩ |
    ⟨hlate, hok, hnew, -⟩ | ⟨-, -, heq⟩ | ⟨-, -, heq⟩
  · rwa [heq]
  · rw [heq]
    exact h.enrollCalled reg ts best.height
  · exact absurd (hturn best hbest hlate) (by simp [hok, hnew])
  · rw [heq]
    exact h.enroll reg
  · rw [heq]
    exact h.enrollKept reg

lemma Alternating.step {ev : HeightEvent} {e' : HeightEvents} (h : Alternating e)
    (hturn : InTurn hashing rounds e ev) (hstep : e.step hashing rounds ev = some e') :
    Alternating e' := by
  cases ev with
  | chainAt reg res =>
    cases hstep
    exact h.chainAt hturn
  | headChange rev app =>
    cases hstep
    exact h.headChange hturn

def newHeightEvents (gcConfidence : Int64) (tsc : TipSetCache) : HeightEvents :=
  ⟨tsc, gcConfidence, 0, fun _ => none, fun _ => [], fun _ => [], [], []⟩

lemma newHeightEvents_filed (gcConfidence : Int64) (tsc : TipSetCache) :
    Filed (newHeightEvents gcConfidence tsc) where
  reg_inj := nofun
  trigger_lt := nofun
  trigger_reg := nofun
  height_reg _ := nofun
  heights_lt := nofun
  heights_nodup _ := nodup_nil
  triggerHeights_lt := nofun
  triggerHeights_nodup _ := nodup_nil

lemma newHeightEvents_alternating (gcConfidence : Int64) (tsc : TipSetCache) :
    Alternating (newHeightEvents gcConfidence tsc) where
  toFiled := newHeightEvents_filed gcConfidence tsc
  alternates _ := Turns.alternates_nil
  called_eq hhnd := by cases hhnd
  calls_lt _ hc := by cases hc

/-- In every run in which no registration is kept whose trigger height was reached, and none is
reverted that was not called, the calls of each registration are an apply and a revert in turn. -/
theorem heightCalls_alternate (hashing : Hashing) (rounds : ℕ) (gcConfidence : Int64)
    (tsc : TipSetCache) (evs : List HeightEvent) (e : HeightEvents)
    (hturn : Runs.Along (HeightEvents.step hashing rounds) (InTurn hashing rounds)
      (newHeightEvents gcConfidence tsc) evs)
    (hrun : Runs.run (HeightEvents.step hashing rounds) (newHeightEvents gcConfidence tsc) evs =
      some e) (r : ℕ) : Alternates (e.callsOf r) :=
  (Runs.invariant (fun h hturn hstep => Alternating.step h hturn hstep)
    (newHeightEvents_alternating gcConfidence tsc) hturn hrun).alternates r

def sampleHeights : HeightEvents :=
  newHeightEvents 10 ((newTSCache 10 sampleStorage).push (some (sampleEpoch 5)))

def sampleBranch (height : Int64) : TipSet :=
  .single { sampleGenesis with height := height, parentWeight := 1 }

def sampleReorg : List HeightEvent :=
  [.chainAt ⟨1, 6⟩ (.ok ()), .headChange [] [sampleEpoch 6], .headChange [] [sampleEpoch 7],
    .headChange [sampleEpoch 7, sampleEpoch 6] [sampleBranch 6, sampleBranch 8]]

theorem sampleReorg_alternates :
    ∃ e, Runs.run (HeightEvents.step sampleHashing 20) sampleHeights sampleReorg = some e ∧
      (e.callsOf 0).map HeightCall.isApply = [true, false, true] ∧ Alternates (e.callsOf 0) :=
  ⟨_, rfl, by decide, heightCalls_alternate sampleHashing 20 10 _ sampleReorg _ (by decide) rfl 0⟩

def sampleEarlyReorg : List HeightEvent :=
  [.chainAt ⟨2, 6⟩ (.ok ()), .headChange [] [sampleEpoch 6],
    .headChange [sampleEpoch 6] [sampleBranch 7]]

def sampleLateReorg : List HeightEvent :=
  [.headChange [] [sampleEpoch 6], .headChange [] [sampleEpoch 7], .chainAt ⟨2, 5⟩ (.ok ()),
    .headChange [sampleEpoch 7] [sampleBranch 7]]

/-- A registration that was not applied is reverted, and one that was called at once is applied
again. -/
theorem sampleReorgs_out_of_turn :
    (∃ e, Runs.run (HeightEvents.step sampleHashing 20) sampleHeights sampleEarlyReorg = some e ∧
      e.callsOf 0 = [.revert (sampleEpoch 6)] ∧ ¬Alternates (e.callsOf 0)) ∧
    ∃ e, Runs.run (HeightEvents.step sampleHashing 20) sampleHeights sampleLateReorg = some e ∧
      e.callsOf 0 = [.apply (some (sampleEpoch 5)) 7, .apply (some (sampleEpoch 5)) 7] ∧
      ¬Alternates (e.callsOf 0) := by
  refine ⟨⟨_, rfl, rfl, fun h => ?_⟩, ⟨_, rfl, rfl, fun h => ?_⟩⟩
  · exact absurd (h.1 _ rfl) (by decide)
  · exact absurd h.2 (by decide)

end

end Lotus
