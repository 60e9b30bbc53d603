import Lotus.Chain.Receipts
import Lotus.Chain.Rounds
import Lotus.Chain.Weight
import Lotus.State.Flush
import Lotus.Vm.Outcome

/-!
# The supply along a chain

`ApplyBlocks` runs upgrades, cron ticks, messages and block rewards, and `ValidateBlock` compares
what comes out with the parent state of a block.
-/

namespace Lotus

open VM StateTree Act List

/-- The supply is what it was, and no balance has become negative. -/
structure SupplyKept (v v' : Ledger) : Prop where
  supply : Run.supply v' = Run.supply v
  solvent : Run.Solvent v → Run.Solvent v'

namespace SupplyKept

lemma refl (v : Ledger) : SupplyKept v v := ⟨rfl, id⟩

lemma trans {v v1 v2 : Ledger} (h : SupplyKept v v1) (h1 : SupplyKept v1 v2) : SupplyKept v v2 :=
  ⟨h1.supply.trans h.supply, fun hv => h1.solvent (h.solvent hv)⟩

end SupplyKept

/-- The log tells what is assumed of actor code: the init actor handed out free IDs, and the
burnt-funds actor did not delete itself. -/
def LogTame (es : List Event) : Prop := Run.FreshIDs es ∧ .deleted burntFundsActorAddr ∉ es
deriving Decidable

def Conserves (vm vm' : VM) : Prop :=
  ∃ es, vm'.log = vm.log ++ es ∧ (LogTame es → SupplyKept vm.cstate.view vm'.cstate.view)

instance : IsPreorder VM Conserves where
  refl vm := ⟨[], (append_nil _).symm, fun _ => .refl _⟩
  trans vm vm1 vm2 := by
    rintro ⟨es, hlog, h⟩ ⟨es', hlog', h'⟩
    refine ⟨es ++ es', by rw [hlog', hlog, append_assoc], fun ⟨hfresh, hburnt⟩ => ?_⟩
    rw [mem_append, not_or] at hburnt
    exact (h ⟨hfresh.left, hburnt.1⟩).trans (h' ⟨hfresh.right, hburnt.2⟩)

variable {vm vm' : VM} {sm : StateManager} {r : ChainRand}

lemma Conserves.of_view (es : List Event) (hlog : vm'.log = vm.log ++ es)
    (hview : vm'.cstate.view = vm.cstate.view) : Conserves vm vm' :=
  ⟨es, hlog, fun _ => hview ▸ .refl _⟩

lemma Grows.conserves {es : List Event} (h : Grows vm es vm') : Conserves vm vm' :=
  ⟨es, h.log_eq, fun htame =>
    ⟨h.run.supply_eq (view_finite vm.cstate) htame.1 htame.2, h.run.solvent⟩⟩

/-! ## Messages -/

lemma applyMessage_returns (env : Env) (b : Behaviour) (cmsg : ChainMsg) :
    Returns Conserves (applyMessage env b cmsg) := by
  intro vm ret vm' h
  by_cases hstarts : Starts env cmsg vm
  · obtain ⟨id, act, start, es, v, happ⟩ := applyMessage_ok_of_starts hstarts h
    refine ⟨es, happ.log_eq, fun htame => ⟨?_, fun hsolvent => ?_⟩⟩
    · have hfinite := view_finite start.cstate
      rw [happ.view_eq, happ.settles.supply_settled (happ.run.finite hfinite),
        happ.run.supply_eq hfinite htame.1 htame.2, happ.started.supply_eq, sub_add_cancel]
    · rw [happ.view_eq]
      exact happ.settles.solvent_settled (happ.run.solvent (happ.started.solvent hsolvent))
  · obtain ⟨_, t, hreads, hrun, -, -⟩ := applyMessage_of_not_starts (b := b) hstarts
    rw [hrun] at h
    cases h
    exact .of_view [] (append_nil _).symm hreads.view_eq

lemma applyImplicitMessage_keeps (env : Env) (b : Behaviour) (msg : Message) :
    Keeps Conserves (applyImplicitMessage env b msg) := by
  intro vm
  obtain ⟨es, hgrows, -⟩ := send_grows env b msg none vm rfl
  grind [hgrows.conserves, applyImplicitMessage]

lemma getActor_keeps (addr : Address) : Keeps Conserves (onTree (getActor sm.env.init addr)) :=
  fun vm => .of_view [] (append_nil _).symm (getActor_reads sm.env.init addr vm.cstate).view_eq

lemma emit_keeps {ε : Type} (e : Event) : Keeps Conserves (emit e : Act VM ε Unit) :=
  fun _ => .of_view [e] rfl rfl

lemma conserves_parts (sm : StateManager) : KeptByParts sm Conserves :=
  ⟨applyMessage_returns sm.env, fun b msg => .of_keeps (applyImplicitMessage_keeps sm.env b msg),
    fun addr => .of_keeps (getActor_keeps addr)⟩

/-! ## Epochs -/

lemma runCron_returns : Returns Conserves (runCron sm r) := by
  refine .bind (.mapError _ (.of_keeps (getActor_keeps _))) fun ca => .bind (.of_keeps Keeps.get)
    fun vm => .bind (.of_keeps (emit_keeps _)) fun _ =>
      .bind ((conserves_parts sm).implicitMessage _) fun ret => ?_
  split_ifs
  · exact .fail _
  · exact .of_keeps (Keeps.pure _)

variable (sm) in
def UpgradesConserve : Prop :=
  ∀ height, ∀ f ∈ sm.forksAtHeight height, Returns (fun t t' => SupplyKept t.view t'.view) f

lemma nullRounds_returns (hforks : UpgradesConserve sm) {parentEpoch : Int64} (n : ℕ) (i : Int64) :
    Returns Conserves (nullRounds sm r parentEpoch n i) := by
  induction n generalizing i with
  | zero => exact .of_keeps (Keeps.pure _)
  | succ n ih =>
    refine .bind (.mapError _ ?_) fun _ => .bind ?_ fun _ => .bind (.of_keeps (Keeps.modify
      fun vm => .of_view [] (append_nil _).symm rfl)) fun _ => ih _
    · unfold handleStateForks
      split
      · exact .of_keeps (Keeps.pure _)
      · rename_i f hf
        refine .bind (.of_keeps (emit_keeps _)) fun _ vm _ vm' hrun => ?_
        rw [onTree, zoom_apply, Prod.mk.injEq] at hrun
        obtain ⟨hok, rfl⟩ := hrun
        exact ⟨[], (append_nil _).symm, fun _ => hforks i f hf vm.cstate _ _ (Prod.ext hok rfl)⟩
    · unfold cronIfNull
      split_ifs
      · exact runCron_returns
      · exact .of_keeps (Keeps.pure _)

lemma flush_top (es : List (Σ _ : Address, StreeOp)) (t : StateTree) :
    (flush es t).2.top.actors = t.top.actors := by
  unfold flush
  split_ifs <;> rfl

lemma flush_returns {t : StateTree} {es : List (Σ _ : Address, StreeOp)} {c : Hamt}
    (hes : IterationOrder t es) (h : (flush es t).1 = .ok c) :
    (loadStateTree c).view = t.view := by
  have hlayer : t.below = [] := by
    by_contra hbelow
    rw [flush, if_pos hbelow] at h
    cases h
  have hpersisted : DeletesPersisted t := by
    rw [flush, if_neg (not_not.mpr hlayer)] at h
    rcases hentries : (flushEntries es t.root).1 with err | u
    · simp only [hentries] at h
      cases h
    · intro a ha
      exact (flushEntries_ok_iff hes.nodupKeys t.root).mp hentries a ((hes.mem_iff a .del).mpr ha)
  obtain ⟨c', hflush, hview, -⟩ := flush_view hlayer hes hpersisted
  rw [hflush] at h
  cases h
  exact hview

lemma applyBlocksOn_supplyKept {parentEpoch epoch : Int64} {pstate : Hamt}
    {bms : List BlockMessages} {res : TipSetResult} (hforks : UpgradesConserve sm)
    (h : applyBlocksOn sm r parentEpoch epoch bms ⟨loadStateTree pstate, epoch, []⟩ =
      (.ok res, vm'))
    (horder : ∀ t, t.top.actors = vm'.cstate.top.actors → IterationOrder t (sm.flushOrder t))
    (htame : LogTame vm'.log) :
    SupplyKept (loadStateTree pstate).view (loadStateTree res.stateRoot).view := by
  obtain ⟨_, vm1, hnull, h⟩ := bind_eq_ok h
  obtain ⟨s, vm2, heach, h⟩ := bind_eq_ok h
  obtain ⟨_, vm3, hcron, h⟩ := bind_eq_ok h
  obtain ⟨_, _, hget, h⟩ := bind_eq_ok h
  cases hget
  obtain ⟨root, vm4, hflush, h⟩ := bind_eq_ok h
  cases h
  have hall : Conserves ⟨loadStateTree pstate, epoch, []⟩ vm3 := IsTrans.trans _ _ _
    (nullRounds_returns hforks _ _ _ _ _ hnull) (IsTrans.trans _ _ _
      ((conserves_parts sm).applyEachBlock bms _ _ _ _ heach) (runCron_returns _ _ _ hcron))
  have hflush := mapError_eq_ok hflush
  rw [onTree, zoom_apply, Prod.mk.injEq] at hflush
  obtain ⟨hok, rfl⟩ := hflush
  rw [flush_returns (horder vm3.cstate (flush_top _ vm3.cstate).symm) hok]
  obtain ⟨es, hlog, hkept⟩ := hall
  have hlog : vm3.log = es := hlog
  exact hkept (hlog ▸ htame)

/-! ## Chains -/

variable (sm) in
/-- The VM after the execution of a tipset by `computeTipSetState`. -/
def tipSetEnd (ts : TipSet) : Option VM :=
  match parentEpochOf sm ts.first, ts.blocks.mapM (loadBlockMessages sm) with
  | .ok parentEpoch, .ok blkmsgs =>
    some (applyBlocksOn sm ⟨ts.cids sm.cs.hashing, ts.height⟩ parentEpoch ts.height blkmsgs
      ⟨loadStateTree ts.parentState, ts.height, []⟩).2
  | _, _ => none

variable (sm) in
/-- What is assumed of the execution of a tipset. The flush takes the pending actors in the order in
which a Go map is ranged over. -/
structure TameTipSet (ts : TipSet) : Prop where
  order : ∀ vm ∈ tipSetEnd sm ts, ∀ t, t.top.actors = vm.cstate.top.actors →
    IterationOrder t (sm.flushOrder t)
  tame : ∀ vm ∈ tipSetEnd sm ts, LogTame vm.log

variable {ts : TipSet} {root : Hamt} {receipts : List MessageReceipt}

lemma tipSetState_supplyKept (hforks : UpgradesConserve sm) (hts : ts.height ≠ 0 → TameTipSet sm ts)
    (h : tipSetState sm ts = .ok (root, receipts)) :
    SupplyKept (loadStateTree ts.parentState).view (loadStateTree root).view := by
  rw [tipSetState] at h
  split_ifs at h with hgenesis
  · cases h
    exact .refl _
  obtain ⟨res, hres, h⟩ := Check.bind_eq_ok.mp h
  cases h
  rw [computeTipSetState] at hres
  split_ifs at hres
  obtain ⟨parentEpoch, hparent, hres⟩ := Check.bind_eq_ok.mp hres
  obtain ⟨blkmsgs, hload, hres⟩ := Check.bind_eq_ok.mp hres
  refine applyBlocksOn_supplyKept hforks (Prod.ext hres rfl) ((hts hgenesis).order _ ?_)
    ((hts hgenesis).tame _ ?_) <;>
    simp only [tipSetEnd, hparent, hload, Option.mem_def]

/-- Along every chain of accepted blocks, with any null rounds, block rewards, cron ticks and
messages that fail or succeed, the state after a tipset has the supply of the genesis state, and no
negative balance if that has none. -/
theorem acceptedChain_conserves {syncer : Syncer} {P : FullBlock → Prop} {chain : List TipSet}
    {g : TipSet} (hchain : AcceptedChain syncer P (ts :: chain))
    (hlast : (ts :: chain).getLast? = some g) (hforks : UpgradesConserve syncer.sm)
    (htame : ∀ ts' ∈ ts :: chain, ts'.height ≠ 0 → TameTipSet syncer.sm ts')
    (hstate : tipSetState syncer.sm ts = .ok (root, receipts)) :
    Run.supply (loadStateTree root).view = Run.supply (loadStateTree g.parentState).view ∧
      (Run.Solvent (loadStateTree g.parentState).view → Run.Solvent (loadStateTree root).view) := by
  suffices h : SupplyKept (loadStateTree g.parentState).view (loadStateTree root).view from
    ⟨h.supply, h.solvent⟩
  -- by induction along the chain, as the parent state of a block is what its parents lead to
  induction chain generalizing ts root receipts with
  | nil =>
    cases hlast
    exact tipSetState_supplyKept hforks (htame ts mem_cons_self) hstate
  | cons parent chain ih =>
    have hstep := tipSetState_supplyKept hforks (htame ts mem_cons_self) hstate
    obtain - | ⟨hchain, hparent, hblocks⟩ := hchain
    obtain ⟨b, hfirst, haccepted, -⟩ := hblocks ts.first mem_cons_self
    obtain ⟨baseTs, hbase, hparentState, -⟩ := haccepted.messages
    rw [hfirst] at hbase hparentState
    cases hparent.symm.trans hbase
    exact (ih hchain (getLast?_cons_cons.symm.trans hlast)
      (fun ts' hts' => htame ts' (mem_cons_of_mem _ hts')) hparentState).trans hstep

/-- Two blocks that share a message are applied, with their rewards and a cron tick. -/
theorem samplePair_conserves : ∃ root receipts,
    tipSetState (samplePairSyncer 1).sm (samplePair 1) = .ok (root, receipts) ∧
      Run.supply (loadStateTree root).view = Run.supply (loadStateTree sampleState).view := by
  have hchain : AcceptedChain (samplePairSyncer 1) (fun _ => True)
      [samplePair 1, .single sampleGenesis] := by
    refine .extend (.genesis rfl) (by decide +kernel) fun h hmem => ?_
    rcases mem_pair.mp hmem with rfl | rfl
    · exact ⟨sampleFirst, rfl, ⟨freshState, not_mem_nil, by decide +kernel⟩, trivial⟩
    · exact ⟨sampleSecond 1, rfl, ⟨freshState, not_mem_nil, by decide +kernel⟩, trivial⟩
  have hend : ∀ vm ∈ tipSetEnd (samplePairSyncer 1).sm (samplePair 1), LogTame vm.log ∧
      (((samplePairSyncer 1).sm.flushOrder vm.cstate : List _) :
        Multiset (Σ _ : Address, StreeOp)) = vm.cstate.top.actors.entries := by decide +kernel
  have htame : TameTipSet (samplePairSyncer 1).sm (samplePair 1) := by
    refine ⟨fun vm hvm t ht => ?_, fun vm hvm => (hend vm hvm).1⟩
    rw [IterationOrder, ht, ← (hend vm hvm).2]
    simp only [samplePairSyncer, sampleSyncer, sampleStateManager, ht]
  obtain ⟨⟨root, receipts⟩, hstate⟩ : ∃ st, tipSetState (samplePairSyncer 1).sm (samplePair 1) =
      .ok st := by decide +kernel
  refine ⟨root, receipts, hstate, (acceptedChain_conserves hchain rfl (fun _ _ hf => by cases hf)
    (fun ts hts hheight => ?_) hstate).1⟩
  rcases mem_pair.mp hts with rfl | rfl
  · exact htame
  · exact absurd rfl hheight

end Lotus
