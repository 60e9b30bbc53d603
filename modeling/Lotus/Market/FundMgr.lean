import Lotus.Chain.Block
import Lotus.Lib.Runs

/-!
# Funds for the market

`EnsureAvailable` of `chain/market/fundmgr.go`.
-/

namespace Lotus

open List Function

structure MarketBalance where
  escrow : ℤ
  locked : ℤ

/-- How a call of `EnsureAvailable` ended, if it did. -/
inductive EnsureStatus where
  | pending
  | succeeded
  | failed
deriving DecidableEq

/-- A call of `EnsureAvailable`: the amount it asks for and the amount it tops up, and the funds
that were recorded for the address before and after its critical section. -/
structure EnsureCall where
  addr : Address
  amt : ℤ
  toAdd : ℤ
  before : Option ℤ
  after : Option ℤ
  status : EnsureStatus
deriving DecidableEq

/-- `FundMgr`, with the funds that each address had at its first use and the calls so far. -/
structure FundMgr where
  available : Address → Option ℤ
  initial : Address → ℤ
  calls : List EnsureCall

def newFundMgr : FundMgr := ⟨fun _ => none, fun _ => 0, []⟩

namespace FundMgr

def take (fm : FundMgr) (addr : Address) (amt found : ℤ) : FundMgr :=
  let avail := found - amt
  let toAdd := if avail < 0 then -avail else 0
  let avail := if avail < 0 then 0 else avail
  { available := update fm.available addr (some avail)
    initial := if fm.available addr = none then update fm.initial addr found else fm.initial
    -- there is nothing more to do if there is no top-up to push
    calls := fm.calls ++ [⟨addr, amt, toAdd, fm.available addr, some avail,
      if toAdd ≤ 0 then .succeeded else .pending⟩] }

def ensureAvailable (fm : FundMgr) (addr : Address) (amt : ℤ)
    (bal : Except NodeErr MarketBalance) : FundMgr :=
  match fm.available addr, bal with
  | some found, _ => fm.take addr amt found
  | none, .ok bal => fm.take addr amt (bal.escrow - bal.locked)
  | none, .error _ =>
    { fm with calls := fm.calls ++ [⟨addr, amt, 0, none, none, .failed⟩] }

def finish (fm : FundMgr) (i : ℕ) (call : EnsureCall) (pushed : Bool) : FundMgr :=
  { fm with
    calls := fm.calls.set i { call with status := if pushed then .succeeded else .failed } }

/-- A call for an amount that is not negative, with the answer of `MarketBalance`, or the end of the
push of the i-th call. -/
inductive Event where
  | ensure (addr : Address) (amt : ℕ) (bal : Except NodeErr MarketBalance)
  | push (i : ℕ) (pushed : Bool)

def step (fm : FundMgr) : Event → Option FundMgr
  | .ensure addr amt bal => some (fm.ensureAvailable addr amt bal)
  | .push i pushed =>
    match fm.calls[i]? with
    | some call => if call.status = .pending then some (fm.finish i call pushed) else none
    | none => none

/-! ## Accounts -/

def succeeded (addr : Address) (calls : List EnsureCall) : List EnsureCall :=
  calls.filter fun call => call.addr = addr ∧ call.status = .succeeded

def Covered (fm : FundMgr) : Prop :=
  ∀ addr, fm.available addr ≠ none → ((succeeded addr fm.calls).map (·.amt)).sum ≤
    fm.initial addr + ((succeeded addr fm.calls).map (·.toAdd)).sum

def Restored (fm : FundMgr) : Prop :=
  ∀ call ∈ fm.calls, call.status = .failed → call.after = call.before
deriving Decidable

/-- The balance at the first use is not negative, and no push fails but of a call that found nothing
left in the record. -/
def Careful (fm : FundMgr) : Event → Prop
  | .ensure addr _ (.ok bal) => fm.available addr = none → bal.locked ≤ bal.escrow
  | .ensure _ _ (.error _) => True
  | .push i pushed => pushed = false → ∀ call ∈ fm.calls[i]?, call.before = some 0

instance (fm : FundMgr) : (e : Event) → Decidable (fm.Careful e)
  | .ensure addr _ (.ok bal) =>
    inferInstanceAs (Decidable (fm.available addr = none → bal.locked ≤ bal.escrow))
  | .ensure _ _ (.error _) => isTrue trivial
  | .push i pushed =>
    inferInstanceAs (Decidable (pushed = false → ∀ call ∈ fm.calls[i]?, call.before = some 0))

def taken (addr : Address) (call : EnsureCall) : ℤ :=
  if call.addr = addr ∧ call.status ≠ .failed then call.amt - call.toAdd else 0

def spent (addr : Address) (calls : List EnsureCall) : ℤ := (calls.map (taken addr)).sum

variable {addr : Address} {calls : List EnsureCall} {call : EnsureCall} {i : ℕ}
  {fm fm' : FundMgr} {e : Event}

lemma spent_append (addr : Address) (calls : List EnsureCall) (call : EnsureCall) :
    spent addr (calls ++ [call]) = spent addr calls + taken addr call := by
  simp [spent]

lemma spent_set (addr : Address) (call' : EnsureCall) (h : calls[i]? = some call) :
    spent addr (calls.set i call') + taken addr call = spent addr calls + taken addr call' := by
  induction calls generalizing i with
  | nil => cases h
  | cons c calls ih =>
    cases i with
    | zero =>
      cases h
      simp only [spent, set_cons_zero, map_cons, sum_cons]
      omega
    | succ i =>
      have hrest := ih (by simpa using h)
      simp only [spent, set_cons_succ, map_cons, sum_cons] at hrest ⊢
      omega

/-- A call tops up no more than its amount unless it failed, has left nothing in the record if it
has a push to wait for, and has not changed the record if it failed. -/
structure Sound (call : EnsureCall) : Prop where
  toAdd_le : call.status ≠ .failed → call.toAdd ≤ call.amt
  after_pending : call.status = .pending → call.after = some 0
  after_failed : call.status = .failed → call.after = call.before

lemma Sound.taken_nonneg (h : Sound call) (addr : Address) : 0 ≤ taken addr call := by
  unfold taken
  split_ifs with hlive
  · exact Int.sub_nonneg_of_le (h.toAdd_le hlive.2)
  · rfl

lemma succeeded_le_spent (h : ∀ call ∈ calls, Sound call) (addr : Address) :
    ((succeeded addr calls).map (·.amt)).sum ≤
      spent addr calls + ((succeeded addr calls).map (·.toAdd)).sum := by
  induction calls with
  | nil => rfl
  | cons c calls ih =>
    obtain ⟨hc, hrest⟩ := forall_mem_cons.mp h
    have hle := ih hrest
    have htaken := hc.taken_nonneg addr
    simp only [succeeded, spent, map_cons, sum_cons, filter_cons, decide_eq_true_eq] at hle ⊢
    split_ifs with hok
    · have hc : taken addr c = c.amt - c.toAdd :=
        if_pos ⟨hok.1, by rw [hok.2]; decide⟩
      simp only [map_cons, sum_cons]
      omega
    · omega

/-- The record is what is left of the funds at the first use, or less. -/
structure Solvent (fm : FundMgr) : Prop where
  nonneg : ∀ addr r, fm.available addr = some r → 0 ≤ r
  unused : ∀ call ∈ fm.calls, fm.available call.addr = none → call.status = .failed
  balance : ∀ addr r, fm.available addr = some r → spent addr fm.calls + r ≤ fm.initial addr
  sound : ∀ call ∈ fm.calls, Sound call

lemma newFundMgr_solvent : newFundMgr.Solvent where
  nonneg _ _ h := by cases h
  unused _ h := absurd h not_mem_nil
  balance _ _ h := by cases h
  sound _ h := absurd h not_mem_nil

lemma Solvent.spent_eq_zero (h : fm.Solvent) (hnone : fm.available addr = none) :
    spent addr fm.calls = 0 := by
  refine sum_eq_zero fun x hx => ?_
  obtain ⟨call, hmem, rfl⟩ := mem_map.mp hx
  refine if_neg fun hlive => hlive.2 (h.unused call hmem ?_)
  rwa [hlive.1]

lemma Solvent.covered (h : fm.Solvent) : fm.Covered := by
  intro addr hused
  obtain ⟨r, hr⟩ := Option.ne_none_iff_exists'.mp hused
  have hle := succeeded_le_spent h.sound addr
  have hbalance := h.balance addr r hr
  have hnonneg := h.nonneg addr r hr
  omega

lemma Solvent.restored (h : fm.Solvent) : fm.Restored := fun call hmem =>
  (h.sound call hmem).after_failed

/-! ## Steps -/

lemma take_available (fm : FundMgr) (addr a : Address) (amt found : ℤ) :
    (fm.take addr amt found).available a =
      if a = addr then some (if found - amt < 0 then 0 else found - amt) else fm.available a :=
  update_apply ..

lemma take_initial (fm : FundMgr) (addr a : Address) (amt found : ℤ) :
    (fm.take addr amt found).initial a =
      if a = addr ∧ fm.available addr = none then found else fm.initial a := by
  dsimp only [FundMgr.take]
  split_ifs <;> grind [update_apply]

lemma Solvent.take (h : fm.Solvent) (amt : ℕ) {found : ℤ} (hnonneg : 0 ≤ found)
    (hfound : ∀ r, fm.available addr = some r → r = found) :
    (fm.take addr amt found).Solvent where
  nonneg a r hr := by
    have hold := h.nonneg a r
    rw [take_available] at hr
    split_ifs at hr <;> grind
  unused call hmem hnone := by
    rcases mem_append.mp hmem with hold | hnew <;> grind [take_available, h.unused call]
  balance a r hr := by
    have hbalance := h.balance a
    have hspent : fm.available a = none → spent a fm.calls = 0 := h.spent_eq_zero
    rw [take_available] at hr
    rw [take_initial, FundMgr.take, spent_append, taken]
    rcases hused : fm.available a with _ | r0 <;> split_ifs at hr <;> split_ifs <;> grind
  sound call hmem := by
    rcases mem_append.mp hmem with hold | hnew
    · exact h.sound call hold
    · cases mem_singleton.mp hnew
      constructor <;> grind

lemma Solvent.finish (h : fm.Solvent) {pushed : Bool} (hcall : fm.calls[i]? = some call)
    (hpending : call.status = .pending) (hbefore : pushed = false → call.before = some 0) :
    (fm.finish i call pushed).Solvent := by
  have hmem := mem_of_getElem? hcall
  have hsound := h.sound call hmem
  have hold {c : EnsureCall} (hc : c ∈ (fm.finish i call pushed).calls) : c ∈ fm.calls ∨
      c = { call with status := if pushed then .succeeded else .failed } := mem_or_eq_of_mem_set hc
  refine ⟨h.nonneg, fun c hc hnone => ?_, fun addr r hr => ?_, fun c hc => ?_⟩
  · have hunused := h.unused c
    rcases hold hc with hc | rfl <;> grind [FundMgr.finish, h.unused call hmem]
  · have hbalance := h.balance addr r hr
    have hset := spent_set addr { call with status := if pushed then .succeeded else .failed } hcall
    have hnonneg := hsound.taken_nonneg addr
    rw [FundMgr.finish]
    grind [taken]
  · rcases hold hc with hc | rfl
    · exact h.sound c hc
    · obtain ⟨htoAdd, hafter, -⟩ := hsound
      constructor <;> grind

lemma Solvent.step (h : fm.Solvent) (hcareful : fm.Careful e) (hstep : fm.step e = some fm') :
    fm'.Solvent := by
  cases e with
  | ensure addr amt bal =>
    cases hstep
    unfold ensureAvailable
    rcases hfound : fm.available addr with _ | found
    · rcases bal with err | bal
      · refine ⟨h.nonneg, fun c hc hnone => ?_, fun a r hr => ?_, fun c hc => ?_⟩
        · rcases mem_append.mp hc with hc | hc <;> grind [h.unused c]
        · have hbalance := h.balance a r hr
          grind [spent_append, taken]
        · rcases mem_append.mp hc with hc | hc
          · exact h.sound c hc
          · cases mem_singleton.mp hc
            constructor <;> simp
      · refine h.take amt (Int.sub_nonneg_of_le (hcareful hfound)) fun r hr => ?_
        cases hfound.symm.trans hr
    · refine h.take amt (h.nonneg addr found hfound) fun r hr => ?_
      exact Option.some.inj (hr.symm.trans hfound)
  | push i pushed =>
    rw [FundMgr.step] at hstep
    rcases hcall : fm.calls[i]? with _ | call <;> rw [hcall] at hstep
    · cases hstep
    · dsimp only at hstep
      split_ifs at hstep with hpending
      cases hstep
      exact h.finish hcall hpending fun hpushed => hcareful hpushed call hcall

lemma Solvent.succeeded_take (h : fm.Solvent) (hnone : fm.available addr = none) {amt found : ℤ}
    (hlt : found < amt) : succeeded addr (fm.take addr amt found).calls = [] := by
  refine filter_eq_nil_iff.mpr fun call hmem hok => ?_
  obtain ⟨haddr, hstatus⟩ := of_decide_eq_true hok
  rcases mem_append.mp hmem with hold | hnew
  · cases hstatus.symm.trans (h.unused call hold (by rwa [haddr]))
  · cases mem_singleton.mp hnew
    dsimp only at hstatus
    split_ifs at hstatus <;> omega

lemma Solvent.breaks (h : fm.Solvent) (hnot : ¬fm.Careful e) (hstep : fm.step e = some fm') :
    ¬(fm'.Covered ∧ fm'.Restored) := by
  cases e with
  | ensure addr amt bal =>
    cases hstep
    rcases bal with err | bal
    · exact absurd trivial hnot
    obtain ⟨hnone, hlocked⟩ := Classical.not_imp.mp hnot
    rintro ⟨hcovered, -⟩
    have hstate : fm.ensureAvailable addr amt (.ok bal) =
        fm.take addr amt (bal.escrow - bal.locked) := by
      unfold ensureAvailable
      rw [hnone]
    have hle := hcovered addr (by simp [hstate, take_available])
    rw [hstate, take_initial, if_pos ⟨rfl, hnone⟩,
      h.succeeded_take hnone (by omega : bal.escrow - bal.locked < amt)] at hle
    simp only [map_nil, sum_nil, add_zero] at hle
    omega
  | push i pushed =>
    obtain ⟨rfl, hbefore⟩ := Classical.not_imp.mp hnot
    push Not at hbefore
    obtain ⟨call, hcall, hne⟩ := hbefore
    rw [FundMgr.step, Option.mem_def.mp hcall] at hstep
    dsimp only at hstep
    split_ifs at hstep with hpending
    cases hstep
    rintro ⟨-, hrestored⟩
    have hmem := mem_of_getElem? hcall
    have hafter := (h.sound call hmem).after_pending hpending
    have hset : { call with status := .failed } ∈ (fm.finish i call false).calls :=
      mem_set (List.getElem?_eq_some_iff.mp hcall).1 _
    exact hne ((hrestored _ hset rfl).symm.trans hafter)

/-- The successful calls are covered, and the calls that fail change nothing, in every state of a
run exactly if each address has a balance that is not negative at its first use and the calls whose
push fails found nothing left in the record. -/
theorem fundMgr_covered_iff {es : List Event} (hrun : Runs.run step newFundMgr es = some fm) :
    (∀ pre post t, es = pre ++ post → Runs.run step newFundMgr pre = some t →
      t.Covered ∧ t.Restored) ↔ Runs.Along step Careful newFundMgr es :=
  Runs.along_iff (fun h => ⟨h.covered, h.restored⟩) Solvent.step Solvent.breaks newFundMgr_solvent
    hrun

def sampleEnsure (amt : ℕ) : Event := .ensure (.id 100) amt (.ok ⟨10, 0⟩)

def sampleEnsures : List Event :=
  [sampleEnsure 10, sampleEnsure 3, sampleEnsure 5, .push 1 false, .push 2 true]

theorem sampleEnsure_covered :
    ∃ fm, Runs.run step newFundMgr sampleEnsures = some fm ∧ fm.Covered ∧ fm.Restored :=
  ⟨_, rfl, (fundMgr_covered_iff rfl).mpr (by decide) sampleEnsures [] _ (append_nil _).symm rfl⟩

theorem sampleEnsure_lost :
    (∃ fm, Runs.run step newFundMgr [sampleEnsure 4, sampleEnsure 8, .push 1 false] = some fm ∧
      fm.available (.id 100) = some 0 ∧
      fm.calls[1]? = some ⟨.id 100, 8, 2, some 6, some 0, .failed⟩ ∧ ¬fm.Restored) ∧
    ∃ fm, Runs.run step newFundMgr [.ensure (.id 100) 0 (.ok ⟨0, 1⟩), .push 0 false,
        sampleEnsure 5, .push 1 true] = some fm ∧
      ((succeeded (.id 100) fm.calls).map (·.amt)).sum = 5 ∧
      fm.initial (.id 100) + ((succeeded (.id 100) fm.calls).map (·.toAdd)).sum = 4 :=
  ⟨⟨_, rfl, by decide, by decide, by decide⟩, ⟨_, rfl, by decide, by decide⟩⟩

end FundMgr

end Lotus
