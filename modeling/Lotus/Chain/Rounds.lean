import Lotus.Lib.Returns
import Lotus.Chain.Validate
import Lotus.Vm.Phases

/-!
# Upgrades and cron ticks along a chain

`ApplyBlocks` runs the upgrades and the cron ticks of the epochs from the parent's height on.
-/

namespace Lotus

open VM StateTree Act List

def rounds (es : List Event) : List Round :=
  es.filterMap fun
    | .round r => some r
    | _ => none

lemma rounds_append (es1 es2 : List Event) : rounds (es1 ++ es2) = rounds es1 ++ rounds es2 :=
  filterMap_append ..

/-! ## What the blocks keep -/

/-- The messages that `ApplyBlocks` applies keep a relation when they return. -/
structure KeptByParts (sm : StateManager) (R : VM → VM → Prop) : Prop where
  message : ∀ b cmsg, Returns R (applyMessage sm.env b cmsg)
  implicit : ∀ b msg, Returns R (applyImplicitMessage sm.env b msg)
  read : ∀ addr, Returns R (onTree (getActor sm.env.init addr))

namespace KeptByParts

variable {sm : StateManager} {r : ChainRand} {R : VM → VM → Prop} [IsPreorder VM R]

lemma implicitMessage (h : KeptByParts sm R) (msg : Message) :
    Returns R (implicitMessage sm r msg) := by
  refine .bind (.of_keeps Keeps.get) fun vm => .bind (.mapError _ (h.implicit _ msg)) fun ret => ?_
  split
  · exact .fail _
  · exact .of_keeps (Keeps.pure _)

lemma applyBlockMessages (h : KeptByParts sm R) (cms : List ChainMsg) (s : BlockLoop) :
    Returns R (applyBlockMessages sm r cms s) := by
  induction cms generalizing s with
  | nil => exact .of_keeps (Keeps.pure _)
  | cons cm cms ih =>
    unfold Lotus.applyBlockMessages
    dsimp only
    split_ifs
    · exact ih s
    · exact .bind (.of_keeps Keeps.get) fun vm =>
        .bind (.mapError _ (h.message _ cm)) fun ret => ih _

lemma awardBlock (h : KeptByParts sm R) (b : BlockMessages) (s : BlockLoop) :
    Returns R (awardBlock sm r b s) := by
  refine .bind (.of_keeps (Keeps.ofExcept _)) fun params => .bind (.mapError _ (h.read _))
    fun sysAct => .bind (.mapError _ (h.implicitMessage _)) fun ret => ?_
  split_ifs
  · exact .fail _
  · exact .of_keeps (Keeps.pure _)

lemma applyEachBlock (h : KeptByParts sm R) (bms : List BlockMessages) (s : BlockLoop) :
    Returns R (applyEachBlock sm r bms s) := by
  induction bms generalizing s with
  | nil => exact .of_keeps (Keeps.pure _)
  | cons b bms ih =>
    exact .bind (h.applyBlockMessages b.msgs _) fun s' => .bind (h.awardBlock b s') fun _ => ih s'

end KeptByParts

/-! ## What adds no rounds -/

lemma Run.rounds_eq {v v' : Ledger} {es : List Event} (h : Run v es v') : rounds es = [] := by
  induction h with
  | refl | touch | transfer | create | register | delete => rfl
  | trans _ _ ih1 ih2 => rw [rounds_append, ih1, ih2, append_nil]
  | @note v e he =>
    cases e with
    | round r => exact he.elim
    | _ => rfl
  | revert _ ih => exact ih

structure Quiet (vm vm' : VM) : Prop where
  rounds_eq : rounds vm'.log = rounds vm.log
  height_eq : vm'.blockHeight = vm.blockHeight

instance : IsPreorder VM Quiet where
  refl _ := ⟨rfl, rfl⟩
  trans _ _ _ h1 h2 := ⟨h2.rounds_eq.trans h1.rounds_eq, h2.height_eq.trans h1.height_eq⟩

variable {vm vm' : VM}

lemma Extends.quiet {es : List Event} {v v' : Ledger} (h : Extends vm es vm')
    (hrun : Run v es v') : Quiet vm vm' where
  rounds_eq := by rw [h.log_eq, rounds_append, hrun.rounds_eq, append_nil]
  height_eq := h.height_eq

lemma onTree_quiet {ε α : Type} (x : Act StateTree ε α) : Keeps Quiet (onTree x) :=
  fun _ => ⟨rfl, rfl⟩

variable {sm : StateManager} {r : ChainRand}

lemma applyMessage_quiet (env : Env) (b : Behaviour) (cmsg : ChainMsg) :
    Keeps Quiet (applyMessage env b cmsg) := by
  intro vm
  obtain ⟨es, v, v', hext, hrun⟩ := applyMessage_extends env b cmsg vm
  exact hext.quiet hrun

lemma applyImplicitMessage_quiet (env : Env) (b : Behaviour) (msg : Message) :
    Keeps Quiet (applyImplicitMessage env b msg) := by
  intro vm
  obtain ⟨es, hgrows, -⟩ := send_grows env b msg none vm rfl
  grind [hgrows.toExtends.quiet, hgrows.run, applyImplicitMessage]

lemma quiet_parts (sm : StateManager) : KeptByParts sm Quiet :=
  ⟨fun b cmsg => .of_keeps (applyMessage_quiet sm.env b cmsg),
    fun b msg => .of_keeps (applyImplicitMessage_quiet sm.env b msg),
    fun _ => .of_keeps (onTree_quiet _)⟩

/-! ## The rounds of a tipset -/

/-- The VM has run the rounds `rs` more and is at the height it was at. -/
structure Ran (vm : VM) (rs : List Round) (vm' : VM) : Prop where
  rounds_eq : rounds vm'.log = rounds vm.log ++ rs
  height_eq : vm'.blockHeight = vm.blockHeight

namespace Ran

lemma of_quiet (h : Quiet vm vm') : Ran vm [] vm' :=
  ⟨h.rounds_eq.trans (append_nil _).symm, h.height_eq⟩

lemma of_emit (vm : VM) (rd : Round) : Ran vm [rd] { vm with log := vm.log ++ [.round rd] } :=
  ⟨rounds_append vm.log [.round rd], rfl⟩

lemma trans {vm1 vm2 vm3 : VM} {rs1 rs2 : List Round} (h1 : Ran vm1 rs1 vm2)
    (h2 : Ran vm2 rs2 vm3) : Ran vm1 (rs1 ++ rs2) vm3 :=
  ⟨by rw [h2.rounds_eq, h1.rounds_eq, append_assoc], h2.height_eq.trans h1.height_eq⟩

end Ran

lemma runCron_ran (h : runCron sm r vm = (.ok (), vm')) :
    Ran vm [.cronTick vm.blockHeight.toInt] vm' := by
  obtain ⟨ca, vm1, hget, h⟩ := bind_eq_ok h
  have hquiet1 : Quiet vm vm1 := (onTree_quiet _).of_run (mapError_eq_ok hget)
  obtain ⟨_, _, hvm, h⟩ := bind_eq_ok h
  cases hvm
  obtain ⟨_, _, hemit, h⟩ := bind_eq_ok h
  cases hemit
  obtain ⟨ret, vm3, hcron, h⟩ := bind_eq_ok h
  have hquiet3 := (quiet_parts sm).implicitMessage _ _ _ _ hcron
  obtain rfl : vm3 = vm' := by
    split_ifs at h
    · cases h
    · cases h
      rfl
  rw [← hquiet1.height_eq]
  exact ((Ran.of_quiet hquiet1).trans (.of_emit vm1 _)).trans (.of_quiet hquiet3)

variable (sm) in
def Registered (e : ℤ) : Prop := (sm.forksAtHeight (Int64.ofInt e)).isSome
deriving Decidable

variable (sm) in
def upgradeAt (e : ℤ) : List Round := if Registered sm e then [.upgrade e] else []

variable (sm) in
/-- What the loop over the epochs since the parent, at height `parent`, runs at an epoch. -/
def epochRounds (parent e : ℤ) : List Round :=
  upgradeAt sm e ++ if parent < e then [.cronTick e] else []

def epochs : ℤ → ℕ → List ℤ
  | _, 0 => []
  | e, n + 1 => e :: epochs (e + 1) n

variable (sm) in
/-- What the tipset at height `epoch` over a parent at height `parent` runs. -/
def tipSetRounds (parent epoch : ℤ) : List Round :=
  (epochs parent (epoch - parent).toNat).flatMap (epochRounds sm parent) ++ [.cronTick epoch]

lemma handleStateForks_ran {i : Int64} (h : handleStateForks sm i vm = (.ok (), vm')) :
    Ran vm (upgradeAt sm i.toInt) vm' := by
  rw [handleStateForks] at h
  rcases hfork : sm.forksAtHeight i with - | f
  · have hreg : ¬Registered sm i.toInt := by
      rw [Registered, Int64.ofInt_toInt, hfork]
      exact Bool.false_ne_true
    rw [hfork] at h
    cases h
    rw [upgradeAt, if_neg hreg]
    exact .of_quiet (Std.Refl.refl vm)
  · have hreg : Registered sm i.toInt := by
      rw [Registered, Int64.ofInt_toInt, hfork]
      rfl
    rw [hfork] at h
    rw [upgradeAt, if_pos hreg]
    obtain ⟨_, _, hemit, hrun⟩ := bind_eq_ok h
    cases hemit
    exact (Ran.of_emit vm _).trans (.of_quiet ((onTree_quiet f).of_run hrun))

variable {parentEpoch : Int64}

lemma cronIfNull_ran {i : Int64} (hheight : parentEpoch.toInt < i.toInt → vm.blockHeight = i)
    (h : cronIfNull sm r parentEpoch i vm = (.ok (), vm')) :
    Ran vm (if parentEpoch.toInt < i.toInt then [.cronTick i.toInt] else []) vm' := by
  rw [cronIfNull] at h
  by_cases hnull : i > parentEpoch
  · grind [Int64.lt_iff_toInt_lt, runCron_ran]
  · have hlt : ¬parentEpoch.toInt < i.toInt := fun hlt => hnull (Int64.lt_iff_toInt_lt.mpr hlt)
    rw [if_neg hnull] at h
    cases h
    rw [if_neg hlt]
    exact .of_quiet (Std.Refl.refl vm)

lemma nullRounds_rounds {i : Int64} {n : ℕ} (hbound : i.toInt + n < 2 ^ 63)
    (hheight : parentEpoch.toInt < i.toInt → vm.blockHeight = i)
    (h : nullRounds sm r parentEpoch n i vm = (.ok (), vm')) :
    rounds vm'.log =
        rounds vm.log ++ (epochs i.toInt n).flatMap (epochRounds sm parentEpoch.toInt) ∧
      (0 < n → vm'.blockHeight.toInt = i.toInt + n) := by
  induction n generalizing i vm with
  | zero =>
    cases h
    exact ⟨(append_nil _).symm, fun hpos => absurd hpos (lt_irrefl 0)⟩
  | succ n ih =>
    obtain ⟨_, vm1, hforks, h⟩ := bind_eq_ok h
    obtain ⟨_, vm2, hcron, h⟩ := bind_eq_ok h
    obtain ⟨_, _, hset, h⟩ := bind_eq_ok h
    cases hset
    have hran1 := handleStateForks_ran (mapError_eq_ok hforks)
    have hran2 := cronIfNull_ran (fun hlt => hran1.height_eq.trans (hheight hlt)) hcron
    have hran := hran1.trans hran2
    rw [Nat.cast_succ] at hbound ⊢
    -- the next epoch does not wrap around
    have hone : (1 : Int64).toInt = 1 := by decide
    have hlow := Int64.le_toInt i
    have hnext : (i + 1).toInt = i.toInt + 1 := by
      rw [Word.toInt_add_of_mem (by omega) (by omega), hone]
    have hbound' : (i + 1).toInt + n < 2 ^ 63 := by omega
    obtain ⟨hrounds, hend⟩ := ih hbound' (fun _ => rfl) h
    rw [hnext] at hrounds hend
    refine ⟨?_, fun _ => ?_⟩
    · rw [hrounds, epochs, flatMap_cons, ← append_assoc]
      exact congrArg (· ++ _) hran.rounds_eq
    · cases n with
      | zero =>
        cases h
        exact hnext.trans (by simp)
      | succ n => omega

lemma applyBlocksOn_rounds {epoch : Int64} {bms : List BlockMessages} {res : TipSetResult}
    (hlt : parentEpoch < epoch) (h : applyBlocksOn sm r parentEpoch epoch bms vm = (.ok res, vm')) :
    rounds vm'.log = rounds vm.log ++ tipSetRounds sm parentEpoch.toInt epoch.toInt := by
  have hlt := Int64.lt_iff_toInt_lt.mp hlt
  have hhigh := Int64.toInt_lt epoch
  obtain ⟨_, vm1, hnull, h⟩ := bind_eq_ok h
  obtain ⟨s, vm2, hblocks, h⟩ := bind_eq_ok h
  obtain ⟨_, vm3, hcron, h⟩ := bind_eq_ok h
  obtain ⟨_, _, hget, h⟩ := bind_eq_ok h
  cases hget
  obtain ⟨root, vm4, hflush, h⟩ := bind_eq_ok h
  cases h
  obtain ⟨hrounds, hheight⟩ := nullRounds_rounds (by omega) (fun hirr => absurd hirr (lt_irrefl _))
    hnull
  have hquiet := (quiet_parts sm).applyEachBlock bms _ _ _ _ hblocks
  have hran := runCron_ran hcron
  have hflushed := (onTree_quiet _).of_run (mapError_eq_ok hflush)
  have hend : vm2.blockHeight.toInt = epoch.toInt := by grind [hquiet.height_eq]
  grind [hflushed.rounds_eq, hran.rounds_eq, hquiet.rounds_eq, tipSetRounds]

variable (sm) in
/-- The events of the execution of a tipset by `computeTipSetState`. -/
def tipSetEvents (ts : TipSet) : List Event :=
  match parentEpochOf sm ts.first, ts.blocks.mapM (loadBlockMessages sm) with
  | .ok parentEpoch, .ok blkmsgs =>
    (applyBlocksOn sm ⟨ts.cids sm.cs.hashing, ts.height⟩ parentEpoch ts.height blkmsgs
      ⟨loadStateTree ts.parentState, ts.height, []⟩).2.log
  | _, _ => []

lemma tipSetEvents_rounds {ts : TipSet} {res : TipSetResult}
    (hparent : parentEpochOf sm ts.first = .ok parentEpoch) (hlt : parentEpoch < ts.height)
    (h : computeTipSetState sm ts = .ok res) :
    rounds (tipSetEvents sm ts) = tipSetRounds sm parentEpoch.toInt ts.height.toInt := by
  rw [computeTipSetState, hparent] at h
  split_ifs at h
  rcases hload : ts.blocks.mapM (loadBlockMessages sm) with err | blkmsgs
  · rw [hload] at h
    cases h
  · rw [hload] at h
    rw [tipSetEvents, hparent, hload]
    exact applyBlocksOn_rounds hlt (Prod.ext h rfl)

/-! ## Consecutive epochs -/

lemma epochs_append (e : ℤ) (n k : ℕ) : epochs e (n + k) = epochs e n ++ epochs (e + n) k := by
  induction n generalizing e with
  | zero =>
    rw [Nat.zero_add, Nat.cast_zero, add_zero]
    rfl
  | succ n ih =>
    grind [Nat.succ_add, epochs]

lemma epochs_tile {e1 e2 e3 : ℤ} (h12 : e1 ≤ e2) (h23 : e2 ≤ e3) (d : ℤ) :
    epochs (e1 + d) (e2 - e1).toNat ++ epochs (e2 + d) (e3 - e2).toNat =
      epochs (e1 + d) (e3 - e1).toNat := by
  have hsum : (e3 - e1).toNat = (e2 - e1).toNat + (e3 - e2).toNat := by omega
  have hstart : e1 + d + ((e2 - e1).toNat : ℤ) = e2 + d := by omega
  rw [hsum, epochs_append, hstart]

lemma mem_epochs {e a : ℤ} {n : ℕ} : a ∈ epochs e n ↔ e ≤ a ∧ a < e + n := by
  induction n generalizing e with
  | zero =>
    simp only [epochs, not_mem_nil, false_iff]
    omega
  | succ n ih =>
    rw [epochs, mem_cons, ih]
    push_cast
    omega

def Round.tick : Round → Option ℤ
  | cronTick height => some height
  | upgrade _ => none

def Round.upgraded : Round → Option ℤ
  | cronTick _ => none
  | upgrade epoch => some epoch

lemma epochRounds_of_registered {parent e : ℤ} (h : Registered sm e) (hlt : parent < e) :
    epochRounds sm parent e = [.upgrade e, .cronTick e] := by
  rw [epochRounds, upgradeAt, if_pos h, if_pos hlt]
  rfl

lemma ticks_epochRounds {parent e : ℤ} (n : ℕ) (hlt : parent < e) :
    ((epochs e n).flatMap (epochRounds sm parent)).filterMap Round.tick = epochs e n := by
  induction n generalizing e with
  | zero => rfl
  | succ n ih =>
    have hhead : (epochRounds sm parent e).filterMap Round.tick = [e] := by
      rw [epochRounds, upgradeAt, if_pos hlt]
      split_ifs <;> rfl
    rw [epochs, flatMap_cons, filterMap_append, hhead, ih (by omega)]
    rfl

lemma upgrades_epochRounds (parent e : ℤ) (n : ℕ) :
    ((epochs e n).flatMap (epochRounds sm parent)).filterMap Round.upgraded =
      (epochs e n).filter (Registered sm) := by
  induction n generalizing e with
  | zero => rfl
  | succ n ih =>
    have hhead : (epochRounds sm parent e).filterMap Round.upgraded =
        if Registered sm e then [e] else [] := by
      rw [epochRounds, upgradeAt]
      split_ifs <;> rfl
    grind [epochs]

lemma ticks_tipSetRounds {parent epoch : ℤ} (hlt : parent < epoch) :
    (tipSetRounds sm parent epoch).filterMap Round.tick =
      epochs (parent + 1) (epoch - parent).toNat := by
  obtain ⟨n, hn⟩ : ∃ n : ℕ, (epoch - parent).toNat = n + 1 := ⟨(epoch - parent).toNat - 1, by omega⟩
  have hfirst : (epochRounds sm parent parent).filterMap Round.tick = [] := by
    rw [epochRounds, upgradeAt, if_neg (lt_irrefl parent)]
    split_ifs <;> rfl
  have hlast : parent + 1 + (n : ℤ) = epoch := by omega
  rw [tipSetRounds, hn, epochs, flatMap_cons, filterMap_append, filterMap_append,
    hfirst, ticks_epochRounds n (by omega), epochs_append, hlast]
  rfl

lemma upgrades_tipSetRounds (parent epoch : ℤ) :
    (tipSetRounds sm parent epoch).filterMap Round.upgraded =
      (epochs parent (epoch - parent).toNat).filter (Registered sm) := by
  rw [tipSetRounds, filterMap_append, upgrades_epochRounds]
  exact append_nil _

lemma upgrade_before_tick {parent epoch e : ℤ} (hlo : parent < e) (hhi : e < epoch)
    (h : Registered sm e) : [.upgrade e, .cronTick e].Sublist (tipSetRounds sm parent epoch) := by
  have hmem : e ∈ epochs parent (epoch - parent).toNat := mem_epochs.mpr (by omega)
  obtain ⟨before, after, hsplit⟩ := append_of_mem hmem
  rw [tipSetRounds, hsplit, flatMap_append, flatMap_cons, epochRounds_of_registered h hlo]
  simp

/-! ## Chains -/

variable {parent : TipSet}

lemma parentEpochOf_eq {ts : TipSet} (h : loadTipSet sm.cs ts.parents = .ok parent) :
    parentEpochOf sm ts.first = .ok parent.height := by
  rw [loadTipSet, TipSet.parents] at h
  rw [parentEpochOf]
  rcases hparents : ts.first.parents with - | ⟨c, cs⟩
  · rw [hparents] at h
    cases h
  · rw [hparents, mapM_cons] at h
    rcases hblock : sm.cs.getBlock c with err | b
    · rw [hblock] at h
      cases h
    · rw [hblock] at h
      rcases hrest : cs.mapM fun c => (sm.cs.getBlock c).mapError
          (NodeErr.wrap "get block %s") with err | bs
      · rw [hrest] at h
        cases h
      · rw [hrest] at h
        have hblocks : parent.blocks = sortBlocks sm.cs.hashing (b :: bs) := newTipSet_blocks h
        have hmem : b ∈ parent.blocks := by
          rw [hblocks, sortBlocks, mem_insertionSort]
          exact .head _
        simp only [hblock]
        exact congrArg Except.ok (parent.height_of_mem hmem)

variable (sm) in
/-- Every tipset is over the one before it, the first one over `parent`, and higher. -/
def Ascends : TipSet → List TipSet → Prop
  | _, [] => True
  | parent, ts :: tss =>
    loadTipSet sm.cs ts.parents = .ok parent ∧ parent.height < ts.height ∧ Ascends ts tss

def headOfChain : TipSet → List TipSet → TipSet
  | parent, [] => parent
  | _, ts :: tss => headOfChain ts tss

lemma Ascends.height_le {tss : List TipSet} (h : Ascends sm parent tss) :
    parent.height.toInt ≤ (headOfChain parent tss).height.toInt := by
  induction tss generalizing parent with
  | nil => exact le_refl _
  | cons ts tss ih =>
    have hlt := Int64.lt_iff_toInt_lt.mp h.2.1
    exact hlt.le.trans (ih h.2.2)

structure Tiles (sm : StateManager) (parent head : ℤ) (heights : List ℤ) (rs : List Round) :
    Prop where
  ticks_eq : rs.filterMap Round.tick = epochs (parent + 1) (head - parent).toNat
  upgrades_eq : rs.filterMap Round.upgraded =
    (epochs parent (head - parent).toNat).filter (Registered sm)
  upgrade_before_tick : ∀ e, parent < e → e < head → e ∉ heights → Registered sm e →
    [.upgrade e, .cronTick e].Sublist rs

lemma Ascends.tiles {tss : List TipSet} (h : Ascends sm parent tss)
    (hrun : ∀ ts ∈ tss, ∃ res, computeTipSetState sm ts = .ok res) :
    Tiles sm parent.height.toInt (headOfChain parent tss).height.toInt
      (tss.map (·.height.toInt)) (tss.flatMap fun ts => rounds (tipSetEvents sm ts)) := by
  induction tss generalizing parent with
  | nil =>
    have hnone : (parent.height.toInt - parent.height.toInt).toNat = 0 := by omega
    refine ⟨?_, ?_, fun e hlo hhi => ?_⟩
    · rw [headOfChain, hnone]
      rfl
    · rw [headOfChain, hnone]
      rfl
    · exact absurd (hlo.trans hhi) (lt_irrefl _)
  | cons ts tss ih =>
    obtain ⟨hload, hlt, hrest⟩ := h
    obtain ⟨res, hres⟩ := hrun ts mem_cons_self
    have hrounds := tipSetEvents_rounds (parentEpochOf_eq hload) hlt hres
    have htiles := ih hrest fun t ht => hrun t (.tail _ ht)
    have hlt := Int64.lt_iff_toInt_lt.mp hlt
    have hle := hrest.height_le
    rw [flatMap_cons, hrounds, headOfChain]
    refine ⟨?_, ?_, fun e hlo hhi hnull hreg => ?_⟩
    · rw [filterMap_append, ticks_tipSetRounds hlt, htiles.ticks_eq, epochs_tile hlt.le hle]
    · rw [filterMap_append, upgrades_tipSetRounds, htiles.upgrades_eq, ← filter_append]
      have htile := epochs_tile hlt.le hle 0
      rw [add_zero, add_zero] at htile
      rw [htile]
    · rw [map_cons, mem_cons, not_or] at hnull
      rcases lt_or_gt_of_ne hnull.1 with hbelow | habove
      · exact (upgrade_before_tick hlo hbelow hreg).trans (sublist_append_left _ _)
      · exact (htiles.upgrade_before_tick e habove hhi hnull.2 hreg).trans
          (sublist_append_right _ _)

/-- The execution of the tipsets of a chain from a genesis at height 0, with any null rounds, runs
the cron tick once for every epoch from 1 to the height of the head, in order and with the VM at
that height, and once every upgrade for an epoch below the head. -/
theorem rounds_tile {genesis : TipSet} {tss : List TipSet} (hgenesis : genesis.height = 0)
    (h : Ascends sm genesis tss)
    (hrun : ∀ ts ∈ tss, ∃ res, computeTipSetState sm ts = .ok res) :
    Tiles sm 0 (headOfChain genesis tss).height.toInt (tss.map (·.height.toInt))
      (tss.flatMap fun ts => rounds (tipSetEvents sm ts)) := by
  have htiles := h.tiles hrun
  have hzero : genesis.height.toInt = 0 := by
    rw [hgenesis]
    rfl
  rwa [hzero] at htiles

def sampleThird : FullBlock := sampleEmpty 3 (sampleHashing.headerCid sampleGenesis)

def sampleFourth : FullBlock := sampleEmpty 4 (sampleHashing.headerCid sampleThird.header)

def sampleUpgrades : StateManager :=
  { sampleStateManager [sampleThird, sampleFourth] with
    forksAtHeight := fun h => if h = 0 ∨ h = 2 ∨ h = 3 then some (pure ()) else none }

def sampleChain : List TipSet := [.single sampleThird.header, .single sampleFourth.header]

/-- With the null rounds 1 and 2. -/
theorem sampleChain_rounds_tile : Ascends sampleUpgrades (.single sampleGenesis) sampleChain ∧
    (sampleChain.flatMap fun ts => rounds (tipSetEvents sampleUpgrades ts)) =
      [.upgrade 0, .cronTick 1, .upgrade 2, .cronTick 2, .cronTick 3, .upgrade 3, .cronTick 4] ∧
    Tiles sampleUpgrades 0 4 [3, 4]
      (sampleChain.flatMap fun ts => rounds (tipSetEvents sampleUpgrades ts)) := by
  have hascends : Ascends sampleUpgrades (.single sampleGenesis) sampleChain :=
    ⟨by decide +kernel, by decide, by decide +kernel, by decide, trivial⟩
  have hrun : ∀ ts ∈ sampleChain, ∃ res, computeTipSetState sampleUpgrades ts = .ok res := by
    decide +kernel
  exact ⟨hascends, by decide +kernel, rounds_tile rfl hascends hrun⟩

end Lotus
