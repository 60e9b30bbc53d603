import Lotus.Chain.Validate
import Lotus.Lib.Runs

/-!
# Concurrent calls of `TipSetState`

`TipSetState` keeps the states that it has computed in `stCache`, and in `compWait` a channel for
each tipset whose state is being computed.
-/

namespace Lotus

open List Function

def cidsToKey (cids : List Cid) : Bytes := cids.flatMap (·.bytes)

/-- What `TipSetState` returns: the state root and the receipts. -/
abbrev StateResult := Hamt × List MessageReceipt

/-- Where a call of `TipSetState` is. -/
inductive CallPlace where
  | called
  /-- in the `select`, on the channel of the call `cw` -/
  | waiting (cw : ℕ)
  /-- out of the `select`, before the lock -/
  | released
  | cancelled (err : NodeErr)
  | cached (st : StateResult)
  | computing
  /-- before the deferred function -/
  | computed (res : Except NodeErr StateResult)
  /-- in the deferred function, before the channel is closed -/
  | recorded (res : Except NodeErr StateResult)
  | returned (res : Except NodeErr StateResult)
deriving DecidableEq

structure TipSetCall where
  ts : TipSet
  place : CallPlace

/-- The maps of the `StateManager`, the channels that are closed, and the calls so far. -/
structure StateCalls where
  stCache : Bytes → Option StateResult
  compWait : Bytes → Option ℕ
  closed : List ℕ
  calls : List TipSetCall

/-- `NewStateManager` -/
def newStateCalls : StateCalls := ⟨fun _ => none, fun _ => none, [], []⟩

inductive CallAction where
  | enter
  | receive
  | cancel (err : NodeErr)
  | resume
  | compute (res : Except NodeErr StateResult)
  | record
  | close

inductive CallEvent where
  | call (ts : TipSet)
  | move (i : ℕ) (act : CallAction)

section

variable (hashing : Hashing)

def TipSetCall.key (c : TipSetCall) : Bytes := cidsToKey (c.ts.cids hashing)

namespace StateCalls

def put (s : StateCalls) (i : ℕ) (c : TipSetCall) (p : CallPlace) : StateCalls :=
  { s with calls := s.calls.set i ⟨c.ts, p⟩ }

def start (s : StateCalls) (i : ℕ) (c : TipSetCall) : StateCalls :=
  { s.put i c .computing with
    compWait := update s.compWait (c.key hashing) (some i) }

def lookUp (s : StateCalls) (i : ℕ) (c : TipSetCall) : StateCalls :=
  match s.stCache (c.key hashing) with
  | some cached => s.put i c (.cached cached)
  | none => s.start hashing i c

/-- The part of the deferred function that holds the lock. -/
def record (s : StateCalls) (i : ℕ) (c : TipSetCall) (res : Except NodeErr StateResult) :
    StateCalls :=
  { s.put i c (.recorded res) with
    compWait := update s.compWait (c.key hashing) none
    stCache :=
      match res with
      | .ok st => update s.stCache (c.key hashing) (some st)
      | .error _ => s.stCache }

end StateCalls

def computedState (ts : TipSet) (res : Except NodeErr StateResult) : Except NodeErr StateResult :=
  if ts.height = 0 then .ok (ts.first.parentStateRoot, ts.first.parentMessageReceipts) else res

def tipSetCallStep (s : StateCalls) (i : ℕ) (c : TipSetCall) : CallPlace → CallAction →
    Option StateCalls
  | .called, .enter =>
    match s.compWait (c.key hashing) with
    | some cw => some (s.put i c (.waiting cw))
    | none => some (s.lookUp hashing i c)
  | .waiting cw, .receive => if cw ∈ s.closed then some (s.put i c .released) else none
  | .waiting _, .cancel err => some (s.put i c (.cancelled err))
  | .released, .resume => some (s.lookUp hashing i c)
  | .computing, .compute res => some (s.put i c (.computed (computedState c.ts res)))
  | .computed res, .record => some (s.record hashing i c res)
  | .recorded res, .close => some { s.put i c (.returned res) with closed := i :: s.closed }
  | _, _ => none

def callStep (s : StateCalls) : CallEvent → Option StateCalls
  | .call ts => some { s with calls := s.calls ++ [⟨ts, .called⟩] }
  | .move i act => s.calls[i]?.bind fun c => tipSetCallStep hashing s i c c.place act

end

/-! ## What is claimed of the calls -/

/-- The computation is registered, and its result is not yet recorded. -/
def CallPlace.InProgress : CallPlace → Prop
  | .computing | .computed _ => True
  | _ => False

def CallPlace.Computes : CallPlace → Prop
  | .computing | .computed _ | .recorded _ | .returned _ => True
  | _ => False

def CallPlace.Completed (st : StateResult) : CallPlace → Prop
  | .recorded res | .returned res => res = .ok st
  | _ => False

namespace StateCalls

section

variable (hashing : Hashing)

/-- The call `i` is one for the key `k`, at a place as told. -/
def Has (s : StateCalls) (k : Bytes) (i : ℕ) (P : CallPlace → Prop) : Prop :=
  ∃ c, s.calls[i]? = some c ∧ c.key hashing = k ∧ P c.place

def OneInProgress (s : StateCalls) : Prop :=
  ∀ (i j : ℕ) (c c' : TipSetCall), s.calls[i]? = some c → s.calls[j]? = some c' →
    c.ts.cids hashing = c'.ts.cids hashing → c.place.InProgress → c'.place.InProgress → i = j

def ResumesAlone (s : StateCalls) : CallEvent → Prop
  | .move i .resume => ∀ c ∈ s.calls[i]?,
      s.stCache (c.key hashing) = none → s.compWait (c.key hashing) = none
  | _ => True

def ReleasedByEnd (s s' : StateCalls) : Prop :=
  ∀ (i cw : ℕ) (c c' : TipSetCall), s.calls[i]? = some c → c.place = .waiting cw →
    s'.calls[i]? = some c' → c'.place = .released →
      ∃ ended : TipSetCall, s.calls[cw]? = some ended ∧
        ended.ts.cids hashing = c.ts.cids hashing ∧ ∃ res, ended.place = .returned res

def CachedComputed (s : StateCalls) : Prop :=
  ∀ c ∈ s.calls, ∀ st, c.place = .cached st →
    ∃ c' ∈ s.calls, c'.ts.cids hashing = c.ts.cids hashing ∧ c'.place.Completed st

end

/-! ## What a step does -/

inductive Steps (hashing : Hashing) (s : StateCalls) : CallEvent → StateCalls → Prop where
  | call (ts : TipSet) :
      Steps hashing s (.call ts) { s with calls := s.calls ++ [⟨ts, .called⟩] }
  | wait {i : ℕ} {c : TipSetCall} {cw : ℕ} (hi : s.calls[i]? = some c) (hplace : c.place = .called)
      (hcw : s.compWait (c.key hashing) = some cw) :
      Steps hashing s (.move i .enter) (s.put i c (.waiting cw))
  | hit {i : ℕ} {c : TipSetCall} {st : StateResult} (act : CallAction)
      (hi : s.calls[i]? = some c) (hplace : c.place = .called ∨ c.place = .released)
      (hst : s.stCache (c.key hashing) = some st) :
      Steps hashing s (.move i act) (s.put i c (.cached st))
  | enter {i : ℕ} {c : TipSetCall} (hi : s.calls[i]? = some c) (hplace : c.place = .called)
      (halone : s.compWait (c.key hashing) = none) :
      Steps hashing s (.move i .enter) (s.start hashing i c)
  | receive {i : ℕ} {c : TipSetCall} {cw : ℕ} (hi : s.calls[i]? = some c)
      (hplace : c.place = .waiting cw) (hclosed : cw ∈ s.closed) :
      Steps hashing s (.move i .receive) (s.put i c .released)
  | cancel {i : ℕ} {c : TipSetCall} {cw : ℕ} (err : NodeErr) (hi : s.calls[i]? = some c)
      (hplace : c.place = .waiting cw) :
      Steps hashing s (.move i (.cancel err)) (s.put i c (.cancelled err))
  | resume {i : ℕ} {c : TipSetCall} (hi : s.calls[i]? = some c) (hplace : c.place = .released)
      (hnone : s.stCache (c.key hashing) = none) :
      Steps hashing s (.move i .resume) (s.start hashing i c)
  | compute {i : ℕ} {c : TipSetCall} (res : Except NodeErr StateResult)
      (hi : s.calls[i]? = some c) (hplace : c.place = .computing) :
      Steps hashing s (.move i (.compute res)) (s.put i c (.computed (computedState c.ts res)))
  | record {i : ℕ} {c : TipSetCall} {res : Except NodeErr StateResult}
      (hi : s.calls[i]? = some c) (hplace : c.place = .computed res) :
      Steps hashing s (.move i .record) (s.record hashing i c res)
  | close {i : ℕ} {c : TipSetCall} {res : Except NodeErr StateResult}
      (hi : s.calls[i]? = some c) (hplace : c.place = .recorded res) :
      Steps hashing s (.move i .close) { s.put i c (.returned res) with closed := i :: s.closed }

variable {hashing : Hashing} {s s' : StateCalls} {e : CallEvent} {c : TipSetCall} {k : Bytes}
  {i : ℕ}

lemma steps_of_callStep (h : callStep hashing s e = some s') : Steps hashing s e s' := by
  cases e with
  | call ts =>
    cases h
    exact .call ts
  | move i act =>
    obtain ⟨c, hi, hstep⟩ := Option.bind_eq_some_iff.mp h
    unfold tipSetCallStep at hstep
    split at hstep
    case h_1 hplace =>
      split at hstep
      · rename_i cw hcw
        cases hstep
        exact .wait hi hplace hcw
      · rename_i halone
        cases hstep
        unfold lookUp
        split
        · exact .hit .enter hi (.inl hplace) ‹_›
        · exact .enter hi hplace halone
    case h_2 cw hplace =>
      split_ifs at hstep with hclosed
      cases hstep
      exact .receive hi hplace hclosed
    all_goals cases hstep
    · exact .cancel _ hi ‹_›
    · unfold lookUp
      split
      · exact .hit .resume hi (.inr ‹_›) ‹_›
      · exact .resume hi ‹_› ‹_›
    · exact .compute _ hi ‹_›
    · exact .record hi ‹_›
    · exact .close hi ‹_›

variable {P : CallPlace → Prop} {p : CallPlace} {j : ℕ}

lemma has_put (hi : s.calls[i]? = some c) :
    (s.put i c p).Has hashing k j P ↔
      (j = i ∧ c.key hashing = k ∧ P p) ∨ (j ≠ i ∧ s.Has hashing k j P) := by
  obtain ⟨hlt, -⟩ := List.getElem?_eq_some_iff.mp hi
  by_cases hj : j = i
  · subst hj
    have hset : (s.put j c p).calls[j]? = some ⟨c.ts, p⟩ := getElem?_set_self hlt
    constructor
    · rintro ⟨c', hc', hkey, hP⟩
      cases hset.symm.trans hc'
      exact .inl ⟨rfl, hkey, hP⟩
    · rintro (⟨-, hkey, hP⟩ | ⟨hne, -⟩)
      · exact ⟨_, hset, hkey, hP⟩
      · cases hne rfl
  · have hset : (s.put i c p).calls[j]? = s.calls[j]? := getElem?_set_ne (Ne.symm hj)
    rw [Has, hset]
    exact ⟨fun h => .inr ⟨hj, h⟩, fun h => h.elim (fun h => absurd h.1 hj) fun h => h.2⟩

lemma has_append {ts : TipSet} (hP : ¬P .called) :
    StateCalls.Has hashing { s with calls := s.calls ++ [⟨ts, .called⟩] } k j P ↔
      s.Has hashing k j P := by
  constructor
  · rintro ⟨c, hj, hkey, hplace⟩
    rw [getElem?_append] at hj
    split_ifs at hj
    · exact ⟨c, hj, hkey, hplace⟩
    · grind
  · rintro ⟨c, hj, hkey, hplace⟩
    refine ⟨c, ?_, hkey, hplace⟩
    exact (List.getElem?_append_left (List.getElem?_eq_some_iff.mp hj).1).trans hj

structure Stable (P : CallPlace → Prop) : Prop where
  computes : ∀ {p}, P p → p.Computes
  computed : P .computing → ∀ res, P (.computed res)
  recorded : ∀ {res}, P (.computed res) → P (.recorded res)
  returned : ∀ {res}, P (.recorded res) → P (.returned res)

lemma stable_computes : Stable CallPlace.Computes :=
  ⟨fun h => h, fun _ _ => trivial, fun _ => trivial, fun _ => trivial⟩

lemma stable_completed (st : StateResult) : Stable (CallPlace.Completed st) := by
  refine ⟨fun {p} h => ?_, nofun, nofun, fun h => h⟩
  cases p <;> trivial

lemma stable_returned : Stable fun p => ∃ res, p = .returned res := by
  refine ⟨?_, nofun, nofun, nofun⟩
  rintro p ⟨res, rfl⟩
  trivial

lemma has_put_mono (hi : s.calls[i]? = some c) (hP : P c.place → P p) (h : s.Has hashing k j P) :
    (s.put i c p).Has hashing k j P := by
  refine (has_put hi).mpr ?_
  by_cases hj : j = i
  · obtain ⟨c', hc', hkey, hplace⟩ := h
    cases hi.symm.trans (hj ▸ hc')
    exact .inl ⟨hj, hkey, hP hplace⟩
  · exact .inr ⟨hj, h⟩

lemma Steps.has_mono (h : Steps hashing s e s') (hP : Stable P)
    (hj : s.Has hashing k j P) : s'.Has hashing k j P := by
  -- a call that does not compute is not the one in question
  have early {i : ℕ} {c : TipSetCall} {p : CallPlace} (hi : s.calls[i]? = some c)
      (hplace : ¬c.place.Computes) : (s.put i c p).Has hashing k j P :=
    has_put_mono hi (fun h => absurd (hP.computes h) hplace) hj
  cases h with
  | call ts => exact (has_append fun h => hP.computes h).mpr hj
  | wait hi hplace => exact early hi (by rw [hplace]; exact not_false)
  | hit act hi hplace =>
    rcases hplace with hplace | hplace
    · exact early hi (by rw [hplace]; exact not_false)
    · exact early hi (by rw [hplace]; exact not_false)
  | enter hi hplace => exact early hi (by rw [hplace]; exact not_false)
  | receive hi hplace => exact early hi (by rw [hplace]; exact not_false)
  | cancel err hi hplace => exact early hi (by rw [hplace]; exact not_false)
  | resume hi hplace => exact early hi (by rw [hplace]; exact not_false)
  | compute res hi hplace => exact has_put_mono hi (fun h => hP.computed (hplace ▸ h) _) hj
  | record hi hplace =>
    have hput := has_put_mono hi (fun h => hP.recorded (hplace ▸ h)) hj
    exact hput
  | close hi hplace =>
    have hput := has_put_mono hi (fun h => hP.returned (hplace ▸ h)) hj
    exact hput

/-! ## What holds in every run -/

variable (hashing) in
structure Sound (s : StateCalls) : Prop where
  closed : ∀ ch ∈ s.closed, ∃ k, s.Has hashing k ch fun p => ∃ res, p = .returned res
  registered : ∀ k ch, s.compWait k = some ch → s.Has hashing k ch CallPlace.Computes
  waits : ∀ k i cw, s.Has hashing k i (· = .waiting cw) → s.Has hashing k cw CallPlace.Computes
  cache : ∀ k st, s.stCache k = some st → ∃ j, s.Has hashing k j (CallPlace.Completed st)
  hits : ∀ k i st, s.Has hashing k i (· = .cached st) →
    ∃ j, s.Has hashing k j (CallPlace.Completed st)

lemma sound_new : Sound hashing newStateCalls := by
  have hnone {k i P} : ¬newStateCalls.Has hashing k i P := fun ⟨_, hi, _⟩ => by cases hi
  exact ⟨nofun, nofun, fun _ _ _ h => absurd h hnone, nofun, fun _ _ _ h => absurd h hnone⟩

lemma has_of_put (hi : s.calls[i]? = some c) (h : (s.put i c p).Has hashing k j P) :
    s.Has hashing k j P ∨ c.key hashing = k ∧ P p :=
  ((has_put hi).mp h).elim (fun h => .inr h.2) fun h => .inl h.2

lemma has_put_self (hi : s.calls[i]? = some c) (hP : P p) :
    (s.put i c p).Has hashing (c.key hashing) i P :=
  (has_put hi).mpr (.inl ⟨rfl, rfl, hP⟩)

lemma Steps.waiting {cw : ℕ} (h : Steps hashing s e s')
    (hj : s'.Has hashing k j (· = .waiting cw)) :
    s.Has hashing k j (· = .waiting cw) ∨ s.compWait k = some cw := by
  cases h with
  | call ts => exact .inl ((has_append nofun).mp hj)
  | wait hi hplace hcw =>
    rcases has_of_put hi hj with hold | ⟨rfl, hp⟩
    · exact .inl hold
    · grind
  | hit act hi | enter hi | receive hi | cancel err hi | resume hi | compute res hi | record hi
  | close hi => exact (has_of_put hi hj).imp_right fun hp => nomatch hp.2

variable {st : StateResult}

lemma Steps.cached (h : Steps hashing s e s') (hj : s'.Has hashing k j (· = .cached st)) :
    s.Has hashing k j (· = .cached st) ∨ s.stCache k = some st := by
  cases h with
  | call ts => exact .inl ((has_append nofun).mp hj)
  | hit act hi hplace hst =>
    rcases has_of_put hi hj with hold | ⟨rfl, hp⟩
    · exact .inl hold
    · grind
  | wait hi | enter hi | receive hi | cancel err hi | resume hi | compute res hi | record hi
  | close hi => exact (has_of_put hi hj).imp_right fun hp => nomatch hp.2

section

variable {res : Except NodeErr StateResult}

lemma start_compWait_self : (s.start hashing i c).compWait (c.key hashing) = some i :=
  update_self ..

lemma start_compWait_of_ne (hk : k ≠ c.key hashing) :
    (s.start hashing i c).compWait k = s.compWait k :=
  update_of_ne hk ..

lemma record_compWait_self : (s.record hashing i c res).compWait (c.key hashing) = none :=
  update_self ..

lemma record_compWait_of_ne (hk : k ≠ c.key hashing) :
    (s.record hashing i c res).compWait k = s.compWait k :=
  update_of_ne hk ..

lemma record_stCache_self : (s.record hashing i c (.ok st)).stCache (c.key hashing) = some st :=
  update_self ..

lemma record_stCache_of_ne (hk : k ≠ c.key hashing) :
    (s.record hashing i c (.ok st)).stCache k = s.stCache k :=
  update_of_ne hk ..

end

lemma compWait_start {ch : ℕ} (hi : s.calls[i]? = some c)
    (h : (s.start hashing i c).compWait k = some ch) :
    s.compWait k = some ch ∨ (s.start hashing i c).Has hashing k ch CallPlace.Computes := by
  by_cases hk : k = c.key hashing
  · subst hk
    cases start_compWait_self.symm.trans h
    exact .inr (has_put_self hi trivial)
  · exact .inl ((start_compWait_of_ne hk).symm.trans h)

lemma Steps.registered {ch : ℕ} (h : Steps hashing s e s') (hch : s'.compWait k = some ch) :
    s.compWait k = some ch ∨ s'.Has hashing k ch CallPlace.Computes := by
  cases h with
  | enter hi => exact compWait_start hi hch
  | resume hi => exact compWait_start hi hch
  | @record i c res hi =>
    by_cases hk : k = c.key hashing <;> simp_all [record_compWait_self, record_compWait_of_ne]
  | _ => exact .inl hch

lemma Steps.cache (h : Steps hashing s e s') (hst : s'.stCache k = some st) :
    s.stCache k = some st ∨ ∃ j, s'.Has hashing k j (CallPlace.Completed st) := by
  cases h with
  | @record i c res hi =>
    cases res with
    | error err => exact .inl hst
    | ok st' =>
      by_cases hk : k = c.key hashing
      · subst hk
        obtain rfl := Option.some.inj (record_stCache_self.symm.trans hst)
        have hput : (s.put i c (.recorded (.ok st'))).Has hashing (c.key hashing) i
            (CallPlace.Completed st') := has_put_self hi rfl
        exact .inr ⟨i, hput⟩
      · exact .inl ((record_stCache_of_ne hk).symm.trans hst)
  | _ => exact .inl hst

lemma Steps.closed {ch : ℕ} (h : Steps hashing s e s') (hch : ch ∈ s'.closed) :
    ch ∈ s.closed ∨ ∃ k, s'.Has hashing k ch fun p => ∃ res, p = .returned res := by
  cases h with
  | @close i c res hi =>
    rcases mem_cons.mp hch with rfl | hold
    · have hput : (s.put ch c (.returned res)).Has hashing (c.key hashing) ch
          fun p => ∃ res, p = .returned res := has_put_self hi ⟨res, rfl⟩
      exact .inr ⟨c.key hashing, hput⟩
    · exact .inl hold
  | _ => exact .inl hch

lemma Sound.step (hs : Sound hashing s) (h : Steps hashing s e s') : Sound hashing s' where
  closed ch hch := (h.closed hch).elim
    (fun hold => (hs.closed ch hold).imp fun _ hj => h.has_mono stable_returned hj) id
  registered k ch hch := (h.registered hch).elim
    (fun hold => h.has_mono stable_computes (hs.registered k ch hold)) id
  waits k i cw hi := h.has_mono stable_computes
    ((h.waiting hi).elim (hs.waits k i cw) (hs.registered k cw))
  cache k st hst := (h.cache hst).elim
    (fun hold => (hs.cache k st hold).imp fun _ hj => h.has_mono (stable_completed st) hj) id
  hits k i st hi := ((h.cached hi).elim (hs.hits k i st) (hs.cache k st)).imp
    fun _ hj => h.has_mono (stable_completed st) hj

/-! ## One computation at a time -/

variable (hashing) in
def Single (s : StateCalls) : Prop :=
  ∀ k ch, s.compWait k = some ch ↔ s.Has hashing k ch CallPlace.InProgress

lemma single_new : Single hashing newStateCalls :=
  fun _ _ => ⟨nofun, fun ⟨_, hch, _⟩ => nomatch hch⟩

lemma Single.oneInProgress (hs : Single hashing s) : s.OneInProgress hashing := by
  intro i j c c' hi hj hcids hc hc'
  have hregistered := (hs _ i).mpr ⟨c, hi, rfl, hc⟩
  have hregistered' := (hs _ j).mpr ⟨c', hj, congrArg cidsToKey hcids.symm, hc'⟩
  exact Option.some.inj (hregistered.symm.trans hregistered')

lemma Single.put (hs : Single hashing s) (hi : s.calls[i]? = some c)
    (hp : p.InProgress ↔ c.place.InProgress) : Single hashing (s.put i c p) := by
  intro k ch
  refine (hs k ch).trans ⟨has_put_mono hi hp.mpr, fun h => ?_⟩
  rcases (has_put hi).mp h with ⟨rfl, hkey, hplace⟩ | ⟨-, hold⟩
  · exact ⟨c, hi, hkey, hp.mp hplace⟩
  · exact hold

lemma has_put_of_ne (hi : s.calls[i]? = some c) (hk : k ≠ c.key hashing) :
    (s.put i c p).Has hashing k j P ↔ s.Has hashing k j P := by
  rw [has_put hi]
  constructor
  · grind
  · intro hold
    refine .inr ⟨?_, hold⟩
    rintro rfl
    obtain ⟨c', hc', hkey, -⟩ := hold
    cases hi.symm.trans hc'
    exact hk hkey.symm

lemma Single.start (hs : Single hashing s) (hi : s.calls[i]? = some c)
    (halone : s.compWait (c.key hashing) = none) : Single hashing (s.start hashing i c) := by
  intro k ch
  by_cases hk : k = c.key hashing
  · subst hk
    refine Iff.trans ?_ (has_put hi).symm
    rw [start_compWait_self]
    constructor
    · intro hch
      exact .inl ⟨(Option.some.inj hch).symm, rfl, trivial⟩
    · rintro (⟨rfl, -, -⟩ | ⟨-, hold⟩)
      · rfl
      · cases halone.symm.trans ((hs _ ch).mpr hold)
  · rw [start_compWait_of_ne hk, hs k ch]
    exact (has_put_of_ne hi hk).symm

lemma Single.record (hs : Single hashing s)
    {res : Except NodeErr StateResult} (hi : s.calls[i]? = some c)
    (hplace : c.place = .computed res) : Single hashing (s.record hashing i c res) := by
  have hown : s.compWait (c.key hashing) = some i :=
    (hs _ i).mpr ⟨c, hi, rfl, by rw [hplace]; trivial⟩
  intro k ch
  by_cases hk : k = c.key hashing
  · subst hk
    refine Iff.trans ?_ (has_put hi).symm
    rw [record_compWait_self]
    refine ⟨nofun, ?_⟩
    rintro (⟨-, -, hp⟩ | ⟨hne, hold⟩)
    · exact hp.elim
    · exact absurd (Option.some.inj (((hs _ ch).mpr hold).symm.trans hown)) hne
  · rw [record_compWait_of_ne hk, hs k ch]
    exact (has_put_of_ne hi hk).symm

lemma Single.step (hs : Single hashing s) (halone : s.ResumesAlone hashing e)
    (h : Steps hashing s e s') : Single hashing s' := by
  cases h with
  | call ts => exact fun k ch => (hs k ch).trans (has_append not_false).symm
  | wait hi hplace => exact hs.put hi (by rw [hplace]; exact Iff.rfl)
  | hit act hi hplace =>
    rcases hplace with hplace | hplace
    · exact hs.put hi (by rw [hplace]; exact Iff.rfl)
    · exact hs.put hi (by rw [hplace]; exact Iff.rfl)
  | enter hi hplace hnone => exact hs.start hi hnone
  | receive hi hplace => exact hs.put hi (by rw [hplace]; exact Iff.rfl)
  | cancel err hi hplace => exact hs.put hi (by rw [hplace]; exact Iff.rfl)
  | resume hi hplace hnone => exact hs.start hi (halone _ hi hnone)
  | compute res hi hplace => exact hs.put hi (by rw [hplace]; exact Iff.rfl)
  | record hi hplace => exact hs.record hi hplace
  | @close i c res hi hplace =>
    have hput : Single hashing (s.put i c (.returned res)) :=
      hs.put hi (by rw [hplace]; exact Iff.rfl)
    exact hput

end StateCalls

lemma cidsToKey_inj {n : ℕ} (hn : 0 < n) {l l' : List Cid} (hl : ∀ c ∈ l, c.bytes.length = n)
    (hl' : ∀ c ∈ l', c.bytes.length = n) (h : cidsToKey l = cidsToKey l') : l = l' := by
  induction l generalizing l' with
  | nil =>
    cases l' with
    | nil => rfl
    | cons c' l' =>
      have hnil : c'.bytes = [] := (append_eq_nil_iff.mp h.symm).1
      grind
  | cons c l ih =>
    cases l' with
    | nil =>
      have hnil : c.bytes = [] := (append_eq_nil_iff.mp h).1
      grind
    | cons c' l' =>
      have hlength : c.bytes.length = c'.bytes.length :=
        (hl c mem_cons_self).trans (hl' c' mem_cons_self).symm
      obtain ⟨hbytes, hrest⟩ := append_inj h hlength
      obtain ⟨bytes⟩ := c
      obtain ⟨bytes'⟩ := c'
      obtain rfl : bytes = bytes' := hbytes
      rw [ih (fun c hc => hl c (.tail _ hc)) (fun c hc => hl' c (.tail _ hc)) hrest]

namespace StateCalls

variable {hashing : Hashing} {s s' : StateCalls} {e : CallEvent} {n : ℕ} {c : TipSetCall}
  {k : Bytes}

lemma cids_eq_of_key {c c' : TipSetCall} (hn : 0 < n)
    (hlength : ∀ b, (hashing.headerCid b).bytes.length = n)
    (h : c.key hashing = c'.key hashing) : c.ts.cids hashing = c'.ts.cids hashing := by
  have hcids : ∀ ts : TipSet, ∀ x ∈ ts.cids hashing, x.bytes.length = n := by
    intro ts x hx
    obtain ⟨b, -, rfl⟩ := mem_map.mp hx
    exact hlength b
  exact cidsToKey_inj hn (hcids c.ts) (hcids c'.ts) h

lemma Single.breaks (hs : Single hashing s) (hn : 0 < n)
    (hlength : ∀ b, (hashing.headerCid b).bytes.length = n) (hnot : ¬s.ResumesAlone hashing e)
    (h : Steps hashing s e s') : ¬s'.OneInProgress hashing := by
  cases h with
  | hit act hi hplace hst =>
    cases act with
    | resume =>
      refine absurd (fun c' hc' hnone => ?_) hnot
      cases hi.symm.trans hc'
      cases hnone.symm.trans hst
    | _ => exact absurd trivial hnot
  | @resume i c hi hplace hnone =>
    rcases hwait : s.compWait (c.key hashing) with - | j
    · refine absurd (fun c' hc' _ => ?_) hnot
      cases hi.symm.trans hc'
      exact hwait
    · obtain ⟨c', hj, hkey, hc'⟩ := (hs _ j).mp hwait
      have hne : j ≠ i := by
        rintro rfl
        cases hi.symm.trans hj
        rw [hplace] at hc'
        exact hc'
      intro hone
      have hself : (s.start hashing i c).calls[i]? = some ⟨c.ts, .computing⟩ :=
        List.getElem?_set_self (List.getElem?_eq_some_iff.mp hi).1
      have hother : (s.start hashing i c).calls[j]? = some c' := (getElem?_set_ne hne.symm).trans hj
      exact hne (hone j i _ _ hother hself (cids_eq_of_key hn hlength hkey) hc' trivial)
  | _ => exact absurd trivial hnot

lemma Steps.released {i cw : ℕ} (h : Steps hashing s e s')
    (hi : s.calls[i]? = some c) (hplace : c.place = .waiting cw)
    (hi' : s'.Has hashing k i (· = .released)) : cw ∈ s.closed := by
  have hnot : ¬s.Has hashing k i (· = .released) := by
    rintro ⟨c', hc', -, hreleased⟩
    cases hi.symm.trans hc'
    cases hplace.symm.trans hreleased
  -- every other step puts a call to another place
  have elsewhere {j : ℕ} {d : TipSetCall} {p : CallPlace} (hj : s.calls[j]? = some d)
      (h : (s.put j d p).Has hashing k i (· = .released)) (hp : p ≠ .released) : cw ∈ s.closed :=
    (has_of_put hj h).elim (fun hold => absurd hold hnot) fun hnew => absurd hnew.2 hp
  cases h with
  | call ts => exact absurd ((has_append nofun).mp hi') hnot
  | wait hj => exact elsewhere hj hi' nofun
  | hit act hj => exact elsewhere hj hi' nofun
  | enter hj => exact elsewhere hj hi' nofun
  | receive hj hplace' hclosed =>
    rcases (has_put hj).mp hi' with ⟨rfl, -, -⟩ | ⟨-, hold⟩ <;> simp_all
  | cancel err hj => exact elsewhere hj hi' nofun
  | resume hj => exact elsewhere hj hi' nofun
  | compute res hj => exact elsewhere hj hi' nofun
  | record hj => exact elsewhere hj hi' nofun
  | close hj => exact elsewhere hj hi' nofun

lemma Sound.releasedByEnd (hs : Sound hashing s) (hn : 0 < n)
    (hlength : ∀ b, (hashing.headerCid b).bytes.length = n) (h : Steps hashing s e s') :
    ReleasedByEnd hashing s s' := by
  intro i cw c c' hi hplace hi' hplace'
  have hclosed := h.released hi hplace ⟨c', hi', rfl, hplace'⟩
  obtain ⟨-, ended, hcw, -, hreturned⟩ := hs.closed cw hclosed
  obtain ⟨d, hd, hkey, -⟩ := hs.waits _ i cw ⟨c, hi, rfl, hplace⟩
  grind [cids_eq_of_key]

lemma Sound.cachedComputed (hs : Sound hashing s) (hn : 0 < n)
    (hlength : ∀ b, (hashing.headerCid b).bytes.length = n) : s.CachedComputed hashing := by
  intro c hc st hplace
  obtain ⟨i, hi⟩ := mem_iff_getElem?.mp hc
  obtain ⟨j, c', hj, hkey, hc'⟩ := hs.hits _ i st ⟨c, hi, rfl, hplace⟩
  exact ⟨c', mem_of_getElem? hj, cids_eq_of_key hn hlength hkey, hc'⟩

end StateCalls

/-- In every run of calls of `TipSetState`, a waiting call is only released when its computation has
ended, and the cache returns what was computed for the tipset. The computations of a tipset do not
overlap exactly if no call that has waited resumes without a state while another computes. -/
theorem tipSetState_singleFlight {hashing : Hashing} {n : ℕ} (hn : 0 < n)
    (hlength : ∀ b, (hashing.headerCid b).bytes.length = n) {events : List CallEvent}
    {s : StateCalls} (hrun : Runs.run (callStep hashing) newStateCalls events = some s) :
    ((∀ pre post t, events = pre ++ post →
        Runs.run (callStep hashing) newStateCalls pre = some t → t.OneInProgress hashing) ↔
      Runs.Along (callStep hashing) (StateCalls.ResumesAlone hashing) newStateCalls events) ∧
    (∀ e s', callStep hashing s e = some s' → StateCalls.ReleasedByEnd hashing s s') ∧
    s.CachedComputed hashing := by
  have hsound : StateCalls.Sound hashing s :=
    Runs.invariant (fun hs _ hstep => hs.step (StateCalls.steps_of_callStep hstep))
      StateCalls.sound_new Runs.along_true hrun
  refine ⟨?_, fun e s' hstep => ?_, hsound.cachedComputed hn hlength⟩
  · exact Runs.along_iff StateCalls.Single.oneInProgress
      (fun hs halone hstep => hs.step halone (StateCalls.steps_of_callStep hstep))
      (fun hs hnot hstep => hs.breaks hn hlength hnot (StateCalls.steps_of_callStep hstep))
      StateCalls.single_new hrun
  · exact hsound.releasedByEnd hn hlength (StateCalls.steps_of_callStep hstep)

instance (s : StateCalls) : ∀ e, Decidable (s.ResumesAlone sampleHashing e)
  | .call _ => inferInstanceAs (Decidable True)
  | .move i act =>
    match act with
    | .resume => inferInstanceAs (Decidable (∀ c ∈ s.calls[i]?, _))
    | .enter | .receive | .cancel _ | .compute _ | .record | .close =>
      inferInstanceAs (Decidable True)

def sampleShared : TipSet := .single (sampleHeader (.id 1000) [])

def sampleStateCalls (res : Except NodeErr StateResult) : List CallEvent :=
  [.call sampleShared, .call sampleShared, .move 0 .enter, .move 1 .enter,
    .move 0 (.compute res), .move 0 .record, .move 0 .close, .move 1 .receive, .move 1 .resume]

theorem sampleStateCalls_singleFlight :
    ∃ s ∈ Runs.run (callStep sampleHashing) newStateCalls (sampleStateCalls (.ok (∅, []))),
      s.calls.map (·.place) = [.returned (.ok (∅, [])), .cached (∅, [])] ∧
      (∀ pre post t, sampleStateCalls (.ok (∅, [])) = pre ++ post →
        Runs.run (callStep sampleHashing) newStateCalls pre = some t →
          t.OneInProgress sampleHashing) ∧
      s.CachedComputed sampleHashing := by
  obtain ⟨s, hrun, hplaces⟩ :
      ∃ s ∈ Runs.run (callStep sampleHashing) newStateCalls (sampleStateCalls (.ok (∅, []))),
        s.calls.map (·.place) = [.returned (.ok (∅, [])), .cached (∅, [])] := by
    decide +kernel
  obtain ⟨hiff, -, hcached⟩ := tipSetState_singleFlight (by decide : 0 < 3) (fun _ => rfl) hrun
  exact ⟨s, hrun, hplaces, hiff.mpr (by decide +kernel), hcached⟩

theorem sampleStateCalls_both_compute : ∃ s ∈ Runs.run (callStep sampleHashing) newStateCalls
        ([.call sampleShared, .call sampleShared, .call sampleShared, .move 0 .enter,
          .move 1 .enter, .move 2 .enter, .move 0 (.compute (.error (.new "context canceled"))),
          .move 0 .record, .move 0 .close, .move 1 .receive, .move 2 .receive, .move 1 .resume,
          .move 2 .resume]),
      (∀ c ∈ s.calls, c.ts = sampleShared) ∧
      s.calls.map (·.place) =
        [.returned (.error (.new "context canceled")), .computing, .computing] := by
  decide +kernel

end Lotus
