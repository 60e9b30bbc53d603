import Lotus.Chain.MinerKeys
import Lotus.Chain.Reorg

/-!
# The mining loop

`mine` and `GetBestMiningCandidate` of `miner/miner.go`.
-/

namespace Lotus

open Act List Function

/-! ## The model -/

/-- What the node answers to a call of `GetBestMiningCandidate`. -/
structure ChainView where
  chainHead : Except NodeErr TipSet
  chainTipSetWeight : List Cid → Except NodeErr ℤ

/-- Where the loop of `mine` is. A pointer is the number of an object. -/
inductive LoopPc where
  | top
  /-- It has a candidate and waits for others. -/
  | waiting
  | waited (injectNulls : Int64)
  | mining (base : ℕ)
  | mined (base : ℕ) (b : Option FullBlock)

/-- The fields of `Miner` that change, the variables of `mine`, and the blocks that were submitted,
the last one first. The zero `lastBase` has no tipset. -/
structure MinerState where
  objects : ℕ → MiningBase
  allocated : ℕ
  lastWork : Option ℕ
  minedBlockHeights : List Int64
  lastBase : Option MiningBase
  pc : LoopPc
  submitted : List FullBlock

/-- What happens next. -/
inductive MinerEvent where
  /-- Someone else asks for the base (`MiningBase` of the storage miner API). -/
  | poll (view : ChainView)
  /-- The loop asks for a candidate, before or after the wait. -/
  | candidate (view : ChainView)
  /-- `waitFunc` returns. -/
  | waited (r : Except NodeErr Int64)
  | mineOne (syncer : Syncer) (m : Miner) (head : TipSet) (cache : SkipCache)
  /-- The rest of the round. -/
  | finish

section Model

variable (hashing : Hashing)

def MinerState.withWork (s : MinerState) (bts : TipSet) : MinerState :=
  { s with
    objects := update s.objects s.allocated ⟨bts, 0⟩
    allocated := s.allocated + 1
    lastWork := some s.allocated }

def setLastWork (bts : TipSet) : Act MinerState NodeErr ℕ := do
  let s ← Act.get
  Act.modify fun s => s.withWork bts
  pure s.allocated

def getBestMiningCandidate (view : ChainView) : Act MinerState NodeErr ℕ := do
  let bts ← Act.ofExcept view.chainHead
  let s ← Act.get
  match s.lastWork with
  | none => setLastWork bts
  | some lastWork =>
    let lastTs := (s.objects lastWork).tipSet
    if lastTs.equals hashing bts then pure lastWork
    else do
      let btsw ← Act.ofExcept (view.chainTipSetWeight (bts.cids hashing))
      let ltsw ← Act.ofExcept (view.chainTipSetWeight (lastTs.cids hashing))
      if btsw ≤ ltsw then pure lastWork else setLastWork bts

def sameBase (lastBase : Option MiningBase) (base : MiningBase) : Bool :=
  lastBase.any fun last =>
    base.tipSet.equals hashing last.tipSet ∧ last.nullRounds = base.nullRounds

def MinerState.addNullRounds (s : MinerState) (base : ℕ) (n : Int64) : MinerState :=
  { s with
    objects := update s.objects base
      { s.objects base with nullRounds := (s.objects base).nullRounds + n } }

def finishRound (base : ℕ) (b : Option FullBlock) (s : MinerState) : MinerState :=
  match b with
  | some b =>
    if b.header.height ∈ s.minedBlockHeights then { s with pc := .top }
    else { s with
      minedBlockHeights := b.header.height :: s.minedBlockHeights
      submitted := b :: s.submitted
      pc := .top }
  | none => { s.addNullRounds base 1 with pc := .top }

def mineStep (s : MinerState) (e : MinerEvent) : MinerState :=
  match s.pc, e with
  | _, .poll view => (getBestMiningCandidate hashing view s).2
  | .top, .candidate view =>
    match getBestMiningCandidate hashing view s with
    | (.error _, s) => { s with pc := .top }
    | (.ok _, s) => { s with pc := .waiting }
  | .waiting, .waited (.error _) => { s with pc := .top }
  | .waiting, .waited (.ok injectNulls) => { s with pc := .waited injectNulls }
  | .waited injectNulls, .candidate view =>
    match getBestMiningCandidate hashing view s with
    | (.error _, s) => { s with pc := .top }
    | (.ok base, s) =>
      if sameBase hashing s.lastBase (s.objects base) then { s with pc := .top }
      else { s.addNullRounds base injectNulls with pc := .mining base }
  | .mining base, .mineOne syncer m head cache =>
    match (mineOne syncer m head (s.objects base) cache).1 with
    | .error _ => { s with pc := .top }
    | .ok b => { s with lastBase := some (s.objects base), pc := .mined base b }
  | .mined base b, .finish => finishRound base b s
  | _, _ => s

def mine (s : MinerState) (events : List MinerEvent) : MinerState :=
  events.foldl (mineStep hashing) s

end Model

variable {hashing : Hashing} {weight : List Cid → ℤ} {s : MinerState} {base : ℕ}

variable (hashing) in
def MinerState.keyOf (s : MinerState) (base : ℕ) : List Cid := (s.objects base).tipSet.cids hashing

variable (weight) in
/-- The weights of the node are those of `weight`. -/
def ChainView.Weighs (view : ChainView) : Prop :=
  ∀ tsk w, view.chainTipSetWeight tsk = .ok w → w = weight tsk

variable (hashing weight) in
/-- How a call of `GetBestMiningCandidate` may change the miner: the last work stays, or is a new
object with a heavier tipset. -/
inductive Advances (s : MinerState) : MinerState → Prop where
  | same : Advances s s
  | heavier (bts : TipSet)
      (hheavier : ∀ p, s.lastWork = some p →
        weight (s.keyOf hashing p) < weight (bts.cids hashing)) :
      Advances s (s.withWork bts)

variable (hashing s) in
/-- A call of `GetBestMiningCandidate` returns the last work. -/
lemma getBestMiningCandidate_spec {view : ChainView} (hview : view.Weighs weight) :
    Advances hashing weight s (getBestMiningCandidate hashing view s).2 ∧
    ∀ base, (getBestMiningCandidate hashing view s).1 = .ok base →
      (getBestMiningCandidate hashing view s).2.lastWork = some base := by
  have hsame (p : ℕ) (hwork : s.lastWork = some p) : Advances hashing weight s s ∧
        ∀ base, (Except.ok p : Except NodeErr ℕ) = .ok base → s.lastWork = some base := by
    refine ⟨.same, fun base hbase => ?_⟩
    rw [hwork, Except.ok.inj hbase]
  have hfailed (e : NodeErr) : Advances hashing weight s s ∧
        ∀ base, (Except.error e : Except NodeErr ℕ) = .ok base → s.lastWork = some base :=
    ⟨.same, fun base hbase => by cases hbase⟩
  have hnew (bts : TipSet) (hheavier : ∀ p, s.lastWork = some p →
      weight (s.keyOf hashing p) < weight (bts.cids hashing)) :
      Advances hashing weight s (setLastWork bts s).2 ∧
        ∀ base, (setLastWork bts s).1 = .ok base → (setLastWork bts s).2.lastWork = some base := by
    refine ⟨.heavier bts hheavier, fun base hbase => ?_⟩
    rw [← Except.ok.inj hbase]
    rfl
  unfold getBestMiningCandidate
  rcases hhead : view.chainHead with e | bts
  · exact hfailed e
  rw [bind_of_ok (ofExcept_apply _ s), bind_of_ok (get_apply s)]
  rcases hwork : s.lastWork with - | lastWork
  · exact hnew bts fun p hp => absurd (hwork.symm.trans hp) (Option.some_ne_none p).symm
  simp only
  split_ifs with hequal
  · exact hsame lastWork hwork
  rcases hbtsw : view.chainTipSetWeight (bts.cids hashing) with e | btsw
  · exact hfailed e
  rw [bind_of_ok (ofExcept_apply _ s)]
  rcases hltsw : view.chainTipSetWeight ((s.objects lastWork).tipSet.cids hashing) with e | ltsw
  · exact hfailed e
  rw [bind_of_ok (ofExcept_apply _ s)]
  split_ifs with hle
  · exact hsame lastWork hwork
  · refine hnew bts fun p hp => ?_
    cases hwork.symm.trans hp
    rw [hview _ btsw hbtsw, hview _ ltsw hltsw] at hle
    exact lt_of_not_ge hle

/-! ## No base is mined on again -/

variable (hashing weight) in
/-- No other block will be made over the tipset: the last work is heavier, or it has this tipset and
is the base of the previous round. -/
def Spent (s : MinerState) (tsk : List Cid) : Prop :=
  ∃ p, s.lastWork = some p ∧ (weight tsk < weight (s.keyOf hashing p) ∨
    tsk = s.keyOf hashing p ∧ s.lastBase = some (s.objects p))

variable (hashing weight) in
structure Fresh (s : MinerState) (base : ℕ) : Prop where
  allocated : base < s.allocated
  lighter : ∀ b ∈ s.submitted, weight b.header.parents < weight (s.keyOf hashing base)
  lastWork : ∃ p, s.lastWork = some p ∧
    (p = base ∨ weight (s.keyOf hashing base) < weight (s.keyOf hashing p))

variable (hashing weight) in
def PcInv (s : MinerState) : LoopPc → Prop
  | .mining base => Fresh hashing weight s base
  | .mined base b => Fresh hashing weight s base ∧ s.lastBase = some (s.objects base) ∧
      ∀ blk, b = some blk → blk.header.parents = s.keyOf hashing base
  | .top | .waiting | .waited _ => True

def FullBlock.Apart (b b' : FullBlock) : Prop :=
  b.header.height ≠ b'.header.height ∧ b.header.parents ≠ b'.header.parents

variable (hashing weight) in
structure MinerInv (s : MinerState) : Prop where
  allocated : ∀ p, s.lastWork = some p → p < s.allocated
  mined : ∀ b ∈ s.submitted, b.header.height ∈ s.minedBlockHeights
  apart : s.submitted.Pairwise FullBlock.Apart
  spent : ∀ b ∈ s.submitted, Spent hashing weight s b.header.parents
  pc : PcInv hashing weight s s.pc

lemma Fresh.spent (h : Fresh hashing weight s base) {b : FullBlock}
    (hb : b ∈ s.submitted) : Spent hashing weight s b.header.parents := by
  obtain ⟨p, hp, hbase⟩ := h.lastWork
  have hlt := h.lighter b hb
  refine ⟨p, hp, .inl ?_⟩
  grind

@[simp]
lemma keyOf_addNullRounds (base p : ℕ) (n : Int64) :
    (s.addNullRounds base n).keyOf hashing p = s.keyOf hashing p := by
  show (update s.objects base _ p).tipSet.cids hashing = _
  by_cases hp : p = base
  · rw [hp, update_self]
    rfl
  · rw [update_of_ne hp]
    rfl

lemma Fresh.addNullRounds (h : Fresh hashing weight s base) (n : Int64) :
    Fresh hashing weight (s.addNullRounds base n) base := by
  refine ⟨h.allocated, fun b hb => ?_, ?_⟩
  · rw [keyOf_addNullRounds]
    exact h.lighter b hb
  · simp only [keyOf_addNullRounds]
    exact h.lastWork

namespace MinerInv

lemma goto (h : MinerInv hashing weight s) {pc : LoopPc} (hpc : ∀ s, PcInv hashing weight s pc) :
    MinerInv hashing weight { s with pc } :=
  ⟨h.allocated, h.mined, h.apart, h.spent, hpc _⟩

lemma advances {s' : MinerState} (h : MinerInv hashing weight s)
    (hadv : Advances hashing weight s s') : MinerInv hashing weight s' := by
  cases hadv with
  | same => exact h
  | heavier bts hheavier =>
    -- the objects that were there stay as they are
    have hkept {p : ℕ} (hp : p < s.allocated) : (s.withWork bts).objects p = s.objects p :=
      update_of_ne hp.ne _ _
    have hkey {p : ℕ} (hp : p < s.allocated) :
        (s.withWork bts).keyOf hashing p = s.keyOf hashing p :=
      congrArg (fun base : MiningBase => base.tipSet.cids hashing) (hkept hp)
    have hnew : (s.withWork bts).keyOf hashing s.allocated = bts.cids hashing := by
      have hobject : (s.withWork bts).objects s.allocated = ⟨bts, 0⟩ := update_self _ _ _
      rw [MinerState.keyOf, hobject]
    have hfresh {base : ℕ} (hbase : Fresh hashing weight s base) :
        Fresh hashing weight (s.withWork bts) base := by
      obtain ⟨p, hp, hlast⟩ := hbase.lastWork
      refine ⟨Nat.lt_succ_of_lt hbase.allocated, fun b hb => ?_, s.allocated, rfl, .inr ?_⟩
      · rw [hkey hbase.allocated]
        exact hbase.lighter b hb
      · grind [hbase.allocated]
    refine ⟨fun p hp => ?_, h.mined, h.apart, fun b hb => ?_, ?_⟩
    · rw [← Option.some.inj hp]
      exact Nat.lt_succ_self _
    · obtain ⟨p, hp, hspent⟩ := h.spent b hb
      refine ⟨s.allocated, rfl, .inl ?_⟩
      grind
    · have hpc : PcInv hashing weight s s.pc := h.pc
      show PcInv hashing weight (s.withWork bts) s.pc
      rcases hwhere : s.pc with - | - | n | base | ⟨base, b⟩ <;> rw [hwhere] at hpc
      · trivial
      · trivial
      · trivial
      · exact hfresh hpc
      · obtain ⟨hbase, hlast, hparents⟩ := hpc
        refine ⟨hfresh hbase, hlast.trans (congrArg some (hkept hbase.allocated).symm), ?_⟩
        rwa [hkey hbase.allocated]

lemma startMining (h : MinerInv hashing weight s) (hwork : s.lastWork = some base)
    (hother : ¬ sameBase hashing s.lastBase (s.objects base) = true) (n : Int64) :
    MinerInv hashing weight { s.addNullRounds base n with pc := .mining base } := by
  have hfresh : Fresh hashing weight s base := by
    refine ⟨h.allocated base hwork, fun b hb => ?_, base, hwork, .inl rfl⟩
    obtain ⟨p, hp, hspent⟩ := h.spent b hb
    cases hwork.symm.trans hp
    rcases hspent with hlt | ⟨-, hlast⟩
    · exact hlt
    · refine absurd ?_ hother
      simp [sameBase, hlast, TipSet.equals_self]
  have hadded := hfresh.addNullRounds n
  exact ⟨h.allocated, h.mined, h.apart, fun b hb => hadded.spent hb,
    hadded.allocated, hadded.lighter, hadded.lastWork⟩

lemma endMining (h : MinerInv hashing weight s) (hpc : s.pc = .mining base)
    {b : Option FullBlock}
    (hb : ∀ blk, b = some blk → blk.header.parents = s.keyOf hashing base) :
    MinerInv hashing weight { s with lastBase := some (s.objects base), pc := .mined base b } := by
  have hfresh : Fresh hashing weight s base := by
    have := h.pc
    rwa [hpc] at this
  have hfresh' : Fresh hashing weight
      { s with lastBase := some (s.objects base), pc := .mined base b } base :=
    ⟨hfresh.allocated, hfresh.lighter, hfresh.lastWork⟩
  exact ⟨h.allocated, h.mined, h.apart, fun b hb => hfresh'.spent hb, hfresh', rfl, hb⟩

lemma finishRound (h : MinerInv hashing weight s) {b : Option FullBlock}
    (hpc : s.pc = .mined base b) : MinerInv hashing weight (finishRound base b s) := by
  obtain ⟨hfresh, hlast, hparents⟩ : PcInv hashing weight s (.mined base b) := hpc ▸ h.pc
  rcases b with - | b
  · have hadded := hfresh.addNullRounds 1
    exact ⟨h.allocated, h.mined, h.apart, fun b hb => hadded.spent hb, trivial⟩
  have hbase := hparents b rfl
  unfold Lotus.finishRound
  simp only
  split_ifs with hheight
  · exact h.goto fun _ => trivial
  refine ⟨h.allocated, fun b' hb' => ?_, pairwise_cons.mpr ⟨fun b' hb' => ?_, h.apart⟩,
    fun b' hb' => ?_, trivial⟩
  · rcases mem_cons.mp hb' with rfl | hb'
    · exact .head _
    · exact .tail _ (h.mined b' hb')
  · refine ⟨fun heq => hheight (heq ▸ h.mined b' hb'), fun heq => ?_⟩
    have hlt := hfresh.lighter b' hb'
    rw [← heq, hbase] at hlt
    exact lt_irrefl _ hlt
  · rcases mem_cons.mp hb' with rfl | hb'
    · obtain ⟨p, hp, rfl | hheavier⟩ := hfresh.lastWork
      · exact ⟨p, hp, .inr ⟨hbase, hlast⟩⟩
      · exact ⟨p, hp, .inl (hbase.symm ▸ hheavier)⟩
    · exact hfresh.spent hb'

end MinerInv

/-! ## Runs -/

variable (hashing weight) in
def MinerEvent.Admissible : MinerEvent → Prop
  | .poll view | .candidate view => view.Weighs weight
  | .mineOne syncer _ _ _ => syncer.sm.cs.hashing = hashing
  | .waited _ | .finish => True

lemma mineOne_parents {syncer : Syncer} {m : Miner} {head : TipSet} {base : MiningBase}
    {cache : SkipCache} {b : FullBlock} (h : (mineOne syncer m head base cache).1 = .ok (some b)) :
    b.header.parents = base.tipSet.cids syncer.sm.cs.hashing := by
  obtain ⟨-, -, -, -, mbi, -, -, -, -, hmine⟩ := mineOne_ok (Prod.ext h rfl)
  obtain ⟨ticket, winner, postProof, -, -, hcreate⟩ := mineOver_ok hmine
  obtain ⟨msgs, -, hblock⟩ := Check.bind_eq_ok.mp hcreate
  grind [minerCreateBlock_ok]

lemma mineStep_inv (h : MinerInv hashing weight s) {e : MinerEvent}
    (he : e.Admissible hashing weight) : MinerInv hashing weight (mineStep hashing s e) := by
  unfold mineStep
  split
  · next view _ => exact h.advances (getBestMiningCandidate_spec hashing s he).1
  · next view hpc =>
    obtain ⟨hadv, -⟩ := getBestMiningCandidate_spec hashing s he
    rcases hbest : getBestMiningCandidate hashing view s with ⟨err | base, s'⟩
    · rw [hbest] at hadv
      exact (h.advances hadv).goto fun _ => trivial
    · rw [hbest] at hadv
      exact (h.advances hadv).goto fun _ => trivial
  · exact h.goto fun _ => trivial
  · exact h.goto fun _ => trivial
  · next injectNulls view hpc =>
    obtain ⟨hadv, hbase⟩ := getBestMiningCandidate_spec hashing s he
    rcases hbest : getBestMiningCandidate hashing view s with ⟨err | base, s'⟩
    · rw [hbest] at hadv
      exact (h.advances hadv).goto fun _ => trivial
    · rw [hbest] at hadv hbase
      simp only
      split_ifs with hsame
      · exact (h.advances hadv).goto fun _ => trivial
      · exact (h.advances hadv).startMining (hbase base rfl) hsame injectNulls
  · next base syncer m head cache hpc =>
    rcases hmine : (mineOne syncer m head (s.objects base) cache).1 with err | b
    · exact h.goto fun _ => trivial
    · refine h.endMining hpc fun blk hblk => ?_
      have he : syncer.sm.cs.hashing = hashing := he
      rw [mineOne_parents (hblk ▸ hmine), he]
      rfl
  · next base b hpc => exact h.finishRound hpc
  · exact h

lemma mine_inv {events : List MinerEvent} (h : MinerInv hashing weight s)
    (hevents : ∀ e ∈ events, e.Admissible hashing weight) :
    MinerInv hashing weight (mine hashing s events) := by
  induction events generalizing s with
  | nil => exact h
  | cons e events ih =>
    exact ih (mineStep_inv h (hevents e mem_cons_self)) fun e' he' => hevents e' (.tail _ he')

structure MinerState.Starts (s : MinerState) : Prop where
  allocated : ∀ p, s.lastWork = some p → p < s.allocated
  lastBase : s.lastBase = none
  pc : s.pc = .top
  submitted : s.submitted = []

/-- One run of the loop submits no two blocks at one height, and no two blocks with the same
parents. -/
theorem mine_apart {events : List MinerEvent} (hstart : s.Starts)
    (hevents : ∀ e ∈ events, e.Admissible hashing weight) :
    (mine hashing s events).submitted.Pairwise FullBlock.Apart := by
  have hinv : MinerInv hashing weight s := by
    obtain ⟨hallocated, -, hpc, hsubmitted⟩ := hstart
    have hnone (b : FullBlock) : b ∉ s.submitted := hsubmitted ▸ not_mem_nil
    refine ⟨hallocated, fun b hb => absurd hb (hnone b), ?_, fun b hb => absurd hb (hnone b), ?_⟩
    · grind
    · rw [hpc]
      trivial
  exact (mine_inv hinv hevents).apart

def sampleWeight (tsk : List Cid) : ℤ := (tsk.flatMap fun c => c.bytes.map (·.toNat : _ → ℤ)).sum

def sampleView (ts : TipSet) : ChainView where
  chainHead := .ok ts
  chainTipSetWeight tsk := .ok (sampleWeight tsk)

def sampleRound (blk : FullBlock) (injectNulls : Int64) : List MinerEvent :=
  [.candidate (sampleView (.single blk.header)), .waited (.ok injectNulls),
    .candidate (sampleView (.single blk.header)),
    .mineOne (sampleKeyedSyncer blk) sampleMiner (.single blk.header) fun _ => none, .finish]

def sampleHeavyBlock : FullBlock :=
  ⟨{ sampleIdleBlock.header with parentWeight := 7 }, [], [], FullBlock.no_messages_lt⟩

def sampleMinerState : MinerState :=
  ⟨fun _ => ⟨.single sampleGenesis, 0⟩, 0, none, [], none, .top, []⟩

def sampleMining : List MinerEvent :=
  sampleRound sampleIdleBlock 0 ++ sampleRound sampleIdleBlock 0 ++
    sampleRound sampleHeavyBlock 1 ++ sampleRound sampleIdleBlock 0

lemma sampleRound_admissible (blk : FullBlock) (injectNulls : Int64) :
    ∀ e ∈ sampleRound blk injectNulls, e.Admissible sampleHashing sampleWeight := by
  have hview : (sampleView (.single blk.header)).Weighs sampleWeight :=
    fun tsk w hw => (Except.ok.inj hw).symm
  intro e he
  simp only [sampleRound, mem_cons, not_mem_nil, or_false] at he
  rcases he with rfl | rfl | rfl | rfl | rfl
  · exact hview
  · trivial
  · exact hview
  · rfl
  · trivial

theorem sampleMining_apart :
    (mine sampleHashing sampleMinerState sampleMining).submitted.map (·.header.height) = [3, 2] ∧
    (mine sampleHashing sampleMinerState sampleMining).submitted.Pairwise FullBlock.Apart := by
  have hevents : ∀ e ∈ sampleMining, e.Admissible sampleHashing sampleWeight := by
    intro e he
    simp only [sampleMining, mem_append] at he
    rcases he with ((he | he) | he) | he <;> exact sampleRound_admissible _ _ e he
  exact ⟨by decide +kernel, mine_apart ⟨nofun, rfl, rfl, rfl⟩ hevents⟩

end Lotus
