import Lotus.Lib.Runs
import Lotus.Chain.Block

/-!
# The window PoSt scheduler

`storage/wdpost_sched.go`, and `doPost` of `storage/wdpost_run.go`.
-/

namespace Lotus

structure DeadlineInfo where
  periodStart : Int64
  index : UInt64
  challenge : Int64
  /-- what the method `PeriodStarted` answers -/
  periodStarted : Bool
deriving DecidableEq

def deadlineEquals : Option DeadlineInfo → Option DeadlineInfo → Bool
  | some a, some b =>
    a.periodStart = b.periodStart && a.index = b.index && a.challenge = b.challenge
  | a, b => a = none && b = none

def startConfidence : Int64 := 4

/-- A goroutine that `doPost` has started at a height, and whether its context is cancelled. -/
structure PoStTask where
  deadline : DeadlineInfo
  startedAt : Int64
  cancelled : Bool
deriving DecidableEq

/-- `WindowPoStScheduler` with the variable `gotCur` of `Run`. Tipsets are pointers, and `abort`
cancels the task of its index. -/
structure WindowPoStScheduler (τ : Type) where
  cur : Option τ
  activeDeadline : Option DeadlineInfo
  abort : Option ℕ
  gotCur : Bool
  tasks : List PoStTask

/-- `api.HeadChange`, whose tipset may be missing. -/
inductive SchedChange (τ : Type) where
  | current (val : Option τ)
  | revert (val : Option τ)
  | apply (val : Option τ)

namespace WindowPoStScheduler

variable {τ : Type} (s : WindowPoStScheduler τ)

def new : WindowPoStScheduler τ := ⟨none, none, none, false, []⟩

def cancel (i : ℕ) : WindowPoStScheduler τ :=
  { s with tasks := s.tasks.modify i ({ · with cancelled := true }) }

/-- `abortActivePoSt`, which `Run` calls when it returns, too. -/
def abortActivePoSt : WindowPoStScheduler τ :=
  if s.activeDeadline = none then s
  else { s.abort.elim s s.cancel with activeDeadline := none, abort := none }

def doPost (deadline : DeadlineInfo) (height : Int64) : WindowPoStScheduler τ :=
  { s with
    abort := some s.tasks.length
    activeDeadline := some deadline
    tasks := s.tasks ++ [⟨deadline, height, false⟩] }

/-- A task that is not cancelled is the one that `abort` cancels. Every task was started in its
proving period, with the confidence. -/
structure Sound : Prop where
  only : ∀ i t, s.tasks[i]? = some t → t.cancelled = false →
    s.abort = some i ∧ s.activeDeadline = some t.deadline
  timely : ∀ t ∈ s.tasks, t.deadline.periodStarted ∧
    t.deadline.challenge + startConfidence < t.startedAt

structure Idle : Prop extends s.Sound where
  none : s.activeDeadline = none
  cancelled : ∀ t ∈ s.tasks, t.cancelled = true

variable {s}

lemma getElem?_cancel {i j : ℕ} {t : PoStTask} (ht : (s.cancel i).tasks[j]? = some t) :
    ∃ u, s.tasks[j]? = some u ∧ t.deadline = u.deadline ∧ t.startedAt = u.startedAt ∧
      (t.cancelled = false → i ≠ j ∧ u.cancelled = false) := by
  simp only [cancel, List.getElem?_modify, Option.map_eq_map, Option.map_eq_some_iff] at ht
  obtain ⟨u, hu, rfl⟩ := ht
  refine ⟨u, hu, ?_⟩
  split_ifs with hij
  · exact ⟨rfl, rfl, fun hc => by cases hc⟩
  · exact ⟨rfl, rfl, fun hc => ⟨hij, hc⟩⟩

lemma Sound.cancel (h : s.Sound) (i : ℕ) : (s.cancel i).Sound where
  only j t ht hc := by
    obtain ⟨u, hu, hdeadline, -, hrunning⟩ := getElem?_cancel ht
    rw [hdeadline]
    exact h.only j u hu (hrunning hc).2
  timely t ht := by
    obtain ⟨j, hj⟩ := List.mem_iff_getElem?.mp ht
    obtain ⟨u, hu, hdeadline, hstarted, -⟩ := getElem?_cancel hj
    rw [hdeadline, hstarted]
    exact h.timely u (List.mem_of_getElem? hu)

lemma Sound.active_of_mem (h : s.Sound) {t : PoStTask} (ht : t ∈ s.tasks)
    (hc : t.cancelled = false) : s.activeDeadline = some t.deadline := by
  obtain ⟨i, hi⟩ := List.mem_iff_getElem?.mp ht
  exact (h.only i t hi hc).2

lemma Sound.idle_of_none (h : s.Sound) (hnone : s.activeDeadline = none) : s.Idle := by
  refine ⟨h, hnone, fun t ht => ?_⟩
  by_contra hc
  exact Option.some_ne_none _ ((h.active_of_mem ht (by simpa using hc)).symm.trans hnone)

lemma Sound.abortActivePoSt (h : s.Sound) : s.abortActivePoSt.Idle := by
  unfold WindowPoStScheduler.abortActivePoSt
  split_ifs with hnone
  · exact h.idle_of_none hnone
  refine Sound.idle_of_none ⟨fun j t ht hc => ?_, ?_⟩ rfl
  · -- The task that was not cancelled before is the one of `abort`.
    cases habort : s.abort with
    | none =>
      rw [habort] at ht
      exact absurd (h.only j t ht hc).1 (by simp [habort])
    | some i =>
      rw [habort] at ht
      obtain ⟨u, hu, -, -, hrunning⟩ := getElem?_cancel ht
      have hself := (h.only j u hu (hrunning hc).2).1
      exact absurd (Option.some.inj (habort.symm.trans hself)) (hrunning hc).1
  · cases s.abort with
    | none => exact h.timely
    | some i => exact (h.cancel i).timely

lemma Idle.doPost (h : s.Idle) {di : DeadlineInfo} {at' : Int64} (hstarted : di.periodStarted)
    (hlt : di.challenge + startConfidence < at') : (s.doPost di at').Sound where
  only i t ht hc := by
    simp only [WindowPoStScheduler.doPost, List.getElem?_append, List.getElem?_singleton] at ht ⊢
    split_ifs at ht with hi hlast
    · exact absurd (h.cancelled t (List.mem_of_getElem? ht)) (by simp [hc])
    · cases ht
      exact ⟨congrArg some (by omega), rfl⟩
  timely t ht := by
    rcases List.mem_append.mp ht with ht | ht
    · exact h.timely t ht
    · rw [List.mem_singleton.mp ht]
      exact ⟨hstarted, hlt⟩

/-! ## Head changes -/

variable (s)

/-- What `StateMinerProvingDeadline` answers for a tipset, or for the empty key. -/
abbrev Deadlines (τ : Type) := Option τ → Except NodeErr DeadlineInfo

variable [DecidableEq τ] (height : τ → Int64) (deadlines : Deadlines τ)

def revert (newLowest : Option τ) : Except NodeErr Unit × WindowPoStScheduler τ :=
  if s.cur = newLowest then (.ok (), s)
  else
    let s := { s with cur := newLowest }
    match deadlines newLowest with
    | .error err => (.error err, s)
    | .ok newDeadline =>
      (.ok (), if deadlineEquals s.activeDeadline (some newDeadline) then s else s.abortActivePoSt)

def update : Option τ → Except NodeErr Unit × WindowPoStScheduler τ
  | none => (.error (.new "no new tipset in WindowPoStScheduler.update"), s)
  | some ts =>
    match deadlines (some ts) with
    | .error err => (.error err, s)
    | .ok di =>
      if deadlineEquals s.activeDeadline (some di) then (.ok (), s)
      else if ¬di.periodStarted then (.ok (), s)
      else if di.challenge + startConfidence ≥ height ts then (.ok (), s.abortActivePoSt)
      else (.ok (), s.abortActivePoSt.doPost di (height ts))

/-- The loop of `Run` over the changes of a notification, which finds `lowest` and `highest`. -/
def bounds (changes : List (SchedChange τ)) : Option τ × Option τ :=
  changes.foldl (fun b c => match c with
    | .revert val => (val, b.2)
    | .apply val => (b.1, val)
    | .current _ => b) (s.cur, none)

/-- A notification. The errors of `revert` and `update` are only logged. -/
def notified (changes : List (SchedChange τ)) : WindowPoStScheduler τ :=
  if s.gotCur then
    ((s.revert deadlines (s.bounds changes).1).2.update height deadlines (s.bounds changes).2).2
  else
    match changes with
    | [.current val] => { (s.update height deadlines val).2 with gotCur := true }
    | _ => s

/-- What `Run` gets until it returns, and the end of a task. -/
inductive Event (τ : Type) where
  | notif (changes : List (SchedChange τ)) (deadlines : Deadlines τ)
  | closed
  | finished (task : ℕ)

def step : Event τ → Option (WindowPoStScheduler τ)
  | .notif changes deadlines => some (s.notified height deadlines changes)
  | .closed => some { s with gotCur := false }
  -- The task cancels its context when it returns, and the scheduler does not hear of it.
  | .finished i => some (s.cancel i)

variable {s height deadlines}

omit [DecidableEq τ] in
/-- What `update` does with a deadline: nothing, or it ends the active task, and may start one. -/
lemma update_cases (s : WindowPoStScheduler τ) (height : τ → Int64) {ts : τ} {di : DeadlineInfo}
    (hdi : deadlines (some ts) = .ok di) :
    (s.update height deadlines (some ts)).2 = s ∧
        (deadlineEquals s.activeDeadline (some di) ∨ ¬di.periodStarted) ∨
      (s.update height deadlines (some ts)).2 = s.abortActivePoSt ∧
        di.periodStarted ∧ ¬di.challenge + startConfidence < height ts ∨
      (s.update height deadlines (some ts)).2 = s.abortActivePoSt.doPost di (height ts) ∧
        di.periodStarted ∧ di.challenge + startConfidence < height ts := by
  rw [update, hdi]
  dsimp only
  split_ifs with hequal hstarted hconf
  · exact Or.inl ⟨rfl, Or.inl hequal⟩
  · exact Or.inr (Or.inl ⟨rfl, hstarted, Int64.not_lt.mpr hconf⟩)
  · exact Or.inr (Or.inr ⟨rfl, hstarted, Int64.not_le.mp hconf⟩)
  · exact Or.inl ⟨rfl, Or.inr hstarted⟩

omit [DecidableEq τ] in
lemma Sound.update (h : s.Sound) (new : Option τ) : (s.update height deadlines new).2.Sound := by
  rcases new with - | ts
  · exact h
  cases hdi : deadlines (some ts) with
  | error err =>
    rw [WindowPoStScheduler.update, hdi]
    exact h
  | ok di =>
    obtain ⟨heq, -⟩ | ⟨heq, -⟩ | ⟨heq, hstarted, hlt⟩ := update_cases s height hdi <;> rw [heq]
    · exact h
    · exact h.abortActivePoSt.toSound
    · exact h.abortActivePoSt.doPost hstarted hlt

lemma Sound.revert (h : s.Sound) (newLowest : Option τ) :
    (s.revert deadlines newLowest).2.Sound := by
  have hcur : Sound { s with cur := newLowest } := ⟨h.only, h.timely⟩
  unfold WindowPoStScheduler.revert
  split_ifs
  · exact h
  rcases deadlines newLowest with err | newDeadline
  · exact hcur
  dsimp only
  split_ifs
  · exact hcur
  · exact hcur.abortActivePoSt.toSound

lemma Sound.step {e : Event τ} {s' : WindowPoStScheduler τ} (h : s.Sound)
    (hstep : s.step height e = some s') : s'.Sound := by
  cases e with
  | finished i =>
    cases hstep
    exact h.cancel i
  | closed =>
    cases hstep
    exact ⟨h.only, h.timely⟩
  | notif changes deadlines =>
    cases hstep
    unfold notified
    split_ifs
    · exact (h.revert _).update _
    · split
      · exact ⟨(h.update _).only, (h.update _).timely⟩
      · exact h

/-- The tasks that are not cancelled are for the deadline. -/
def OnlyFor (s : WindowPoStScheduler τ) (di : DeadlineInfo) : Prop :=
  ∀ t ∈ s.tasks, t.cancelled = false → deadlineEquals (some t.deadline) (some di)

omit [DecidableEq τ] in
lemma Sound.onlyFor_update_iff (h : s.Sound) {ts : τ} {di : DeadlineInfo}
    (hdi : deadlines (some ts) = .ok di) :
    (s.update height deadlines (some ts)).2.OnlyFor di ↔ di.periodStarted ∨ s.OnlyFor di := by
  have hidle (t : PoStTask) (ht : t ∈ s.abortActivePoSt.tasks) (hc : t.cancelled = false) :
      deadlineEquals (some t.deadline) (some di) :=
    absurd (h.abortActivePoSt.cancelled t ht) (by simp [hc])
  obtain ⟨heq, hsame⟩ | ⟨heq, hstarted, -⟩ | ⟨heq, hstarted, -⟩ := update_cases s height hdi <;>
    rw [heq]
  · -- The task is for the deadline, or the period has not started.
    refine ⟨.inr, fun hor => hor.elim (fun hstarted t ht hc => ?_) id⟩
    have hequal := hsame.resolve_right (not_not.mpr hstarted)
    rwa [h.active_of_mem ht hc] at hequal
  · exact iff_of_true hidle (.inl hstarted)
  · refine iff_of_true (fun t ht hc => ?_) (.inl hstarted)
    rcases List.mem_append.mp ht with ht | ht
    · exact hidle t ht hc
    · simp [List.mem_singleton.mp ht, deadlineEquals]

lemma run_sound {es : List (Event τ)} (hrun : Runs.run (step · height) new es = some s) :
    s.Sound :=
  Runs.invariant (fun hs _ hstep => hs.step hstep)
    ⟨fun i t ht => by simp [new] at ht, fun t ht => absurd ht List.not_mem_nil⟩ Runs.along_true hrun

omit [DecidableEq τ] in
lemma Sound.eq_of_running (h : s.Sound) {i j : ℕ} {t u : PoStTask} (hi : s.tasks[i]? = some t)
    (hj : s.tasks[j]? = some u) (ht : t.cancelled = false) (hu : u.cancelled = false) : i = j :=
  Option.some.inj ((h.only i t hi ht).1.symm.trans (h.only j u hj hu).1)

/-- In every run at most one proving task is not cancelled, it is for the active deadline, and it
is cancelled when `Run` returns. Tasks start in their proving period and with the confidence. A head
whose proving period has started leaves no task but one for its deadline. -/
theorem scheduler_single_task {es : List (Event τ)}
    (hrun : Runs.run (step · height) new es = some s) :
    (∀ (i j : ℕ) (t u : PoStTask), s.tasks[i]? = some t → s.tasks[j]? = some u →
      t.cancelled = false → u.cancelled = false → i = j) ∧
    (∀ t ∈ s.tasks, t.cancelled = false → s.activeDeadline = some t.deadline) ∧
    (∀ t ∈ s.abortActivePoSt.tasks, t.cancelled = true) ∧
    (∀ t ∈ s.tasks, t.deadline.periodStarted ∧
      t.deadline.challenge + startConfidence < t.startedAt) ∧
    ∀ deadlines ts di, deadlines (some ts) = .ok di → di.periodStarted →
      let s' := (s.update height deadlines (some ts)).2
      (∀ t ∈ s'.tasks, t.cancelled = false → deadlineEquals (some t.deadline) (some di)) ∧
        (di.challenge + startConfidence < height ts →
          deadlineEquals s'.activeDeadline (some di)) := by
  have hsound := run_sound hrun
  refine ⟨fun i j t u => hsound.eq_of_running, fun t => hsound.active_of_mem,
    hsound.abortActivePoSt.cancelled, hsound.timely, fun deadlines ts di hdi hstarted => ?_⟩
  intro s'
  refine ⟨(hsound.onlyFor_update_iff hdi).mpr (.inl hstarted), fun hlt => ?_⟩
  obtain ⟨heq, hsame⟩ | ⟨-, -, hlow⟩ | ⟨heq, -⟩ := update_cases s height hdi
  · have hequal := hsame.resolve_right (not_not.mpr hstarted)
    rwa [← heq] at hequal
  · exact absurd hlt hlow
  · simp [s', heq, doPost, deadlineEquals]

def sampleHeads : List (Event Int64) :=
  [.notif [.current (some 15)] fun _ => .ok ⟨0, 0, 10, true⟩,
    .notif [.apply (some 25)] fun _ => .ok ⟨0, 1, 20, true⟩]

/-- The first deadline is proved at the height 15, and given up for the next one at 25. -/
theorem sampleHeads_single_task : ∃ s, Runs.run (step · id) new sampleHeads = some s ∧
    s.tasks = [⟨⟨0, 0, 10, true⟩, 15, true⟩, ⟨⟨0, 1, 20, true⟩, 25, false⟩] ∧
    ∀ t ∈ s.tasks, t.cancelled = false → s.activeDeadline = some t.deadline := by
  have hrun : Runs.run (step · id) new sampleHeads = some _ := rfl
  exact ⟨_, hrun, by decide, (scheduler_single_task hrun).2.1⟩

/-- After a head change that finds the deadline of the new head, at most one task is not cancelled.
It is for this deadline if and only if the period of the deadline has started, or the task that the
reverts have left is for it. -/
theorem headChange_deadline_iff (changes : List (SchedChange τ)) {es : List (Event τ)} {ts : τ}
    {di : DeadlineInfo} (hrun : Runs.run (step · height) new es = some s) (hgot : s.gotCur = true)
    (hhighest : (s.bounds changes).2 = some ts) (hdi : deadlines (some ts) = .ok di) :
    let left := (s.revert deadlines (s.bounds changes).1).2
    let after := s.notified height deadlines changes
    (∀ (i j : ℕ) (t u : PoStTask), after.tasks[i]? = some t → after.tasks[j]? = some u →
      t.cancelled = false → u.cancelled = false → i = j) ∧
    (after.OnlyFor di ↔ di.periodStarted ∨ left.OnlyFor di) := by
  intro left after
  have hafter : after = (left.update height deadlines (some ts)).2 := by
    simp only [after, notified, hgot, if_true, hhighest, left]
  have hleft : left.Sound := (run_sound hrun).revert _
  have hnow : after.Sound := hafter ▸ hleft.update _
  exact ⟨fun i j t u => hnow.eq_of_running, hafter ▸ hleft.onlyFor_update_iff hdi⟩

/-- The next deadline has started, and its task is the only one. -/
theorem sampleHeads_deadline : ∃ s, Runs.run (step · id) new sampleHeads = some s ∧
    (s.notified id (fun _ => .ok ⟨0, 2, 30, true⟩) [.apply (some 35)]).OnlyFor
      ⟨0, 2, 30, true⟩ := by
  have hrun : Runs.run (step · id) new sampleHeads = some _ := rfl
  exact ⟨_, hrun, (headChange_deadline_iff [.apply (some 35)] hrun rfl rfl rfl).2.mpr (.inl rfl)⟩

/-- The period of the next deadline has not started, and the task for the last one goes on. -/
theorem sampleHeads_other_deadline : ∃ s, Runs.run (step · id) new sampleHeads = some s ∧
    (s.notified id (fun _ => .ok ⟨60, 0, 70, false⟩) [.apply (some 26)]).tasks =
      [⟨⟨0, 0, 10, true⟩, 15, true⟩, ⟨⟨0, 1, 20, true⟩, 25, false⟩] ∧
    ¬(s.notified id (fun _ => .ok ⟨60, 0, 70, false⟩) [.apply (some 26)]).OnlyFor
      ⟨60, 0, 70, false⟩ :=
  ⟨_, rfl, by decide,
    fun h => absurd (h ⟨⟨0, 1, 20, true⟩, 25, false⟩ (by decide) rfl) (by decide)⟩

end WindowPoStScheduler

end Lotus
