import Lotus.Events.Height

/-!
# Height triggers are complete

In a run that follows a chain in the depth of the tipset cache, every registration whose trigger
height is at most the height of the head is applied (`heightTriggers_complete`).
-/

namespace Lotus

open Act List Function

def Registration.triggerEpoch (reg : Registration) : ℤ :=
  reg.height.toInt + reg.confidence.toInt

/-- The sums of `ChainAt` are in range, and the confidence is not negative. -/
def Registration.Proper (gcConfidence : Int64) (reg : Registration) : Prop :=
  0 ≤ reg.confidence.toInt ∧ reg.triggerEpoch + gcConfidence.toInt < 2 ^ 63
deriving Decidable

variable {reg : Registration}

lemma Registration.Proper.toInt_add {gcConfidence : Int64} (h : reg.Proper gcConfidence)
    (hgc : 0 ≤ gcConfidence.toInt) :
    (reg.height + reg.confidence).toInt = reg.triggerEpoch := by
  obtain ⟨hpos, hlt⟩ := h
  have hmin := Int64.le_toInt reg.height
  unfold triggerEpoch at *
  rw [Word.toInt_add_of_mem (by omega) (by omega)]

/-- Every registration is kept or was applied, and it was applied if the chain is at `h` and has
reached its trigger height. -/
structure Complete (h : ℤ) (e : HeightEvents) : Prop extends Filed e where
  gc_nonneg : 0 ≤ e.gcConfidence.toInt
  proper : ∀ reg ∈ e.registered, reg.Proper e.gcConfidence
  called_active : ∀ {tid hnd}, e.heightTriggers tid = some hnd → hnd.called = true →
    Active (e.callsOf hnd.reg) = true
  settled : ∀ {r}, r < e.registered.length →
    (∃ tid hnd, e.heightTriggers tid = some hnd ∧ hnd.reg = r) ∨ Active (e.callsOf r) = true
  due : ∀ {r reg}, e.registered[r]? = some reg → reg.triggerEpoch ≤ h →
    Active (e.callsOf r) = true

variable {h h' : ℤ} {e e' : HeightEvents} {tid : ℕ} {hnd : HeightHandler} {c : HeightCall}

lemma Complete.mono (hc : Complete h e) (hle : h' ≤ h) : Complete h' e :=
  { hc with due := fun hreg hdue => hc.due hreg (hdue.trans hle) }

lemma Complete.setTsc (hc : Complete h e) (tsc : TipSetCache) : Complete h { e with tsc := tsc } :=
  ⟨hc.toFiled.setTsc tsc, hc.gc_nonneg, hc.proper, hc.called_active, hc.settled, hc.due⟩

lemma HeightEvents.active_call (e : HeightEvents) (tid : ℕ) (hnd : HeightHandler)
    (c : HeightCall) (r : ℕ) :
    Active ((e.call tid hnd c).callsOf r) =
      if hnd.reg = r then c.isApply else Active (e.callsOf r) := by
  rw [callsOf_call]
  split_ifs
  · exact active_concat _ c
  · rfl

lemma Complete.call (hc : Complete h e) (hhnd : e.heightTriggers tid = some hnd)
    (hcall : c.isApply = true ∨ ∀ {reg}, e.registered[hnd.reg]? = some reg → h < reg.triggerEpoch) :
    Complete h (e.call tid hnd c) where
  toFiled := hc.toFiled.call hhnd
  gc_nonneg := hc.gc_nonneg
  proper := hc.proper
  called_active {tid' hnd'} hhnd' hcalled := by
    rw [HeightEvents.active_call]
    rcases HeightEvents.of_call_lookup hhnd hhnd' with ⟨rfl, rfl⟩ | ⟨hne, hold⟩
    · rwa [if_pos rfl]
    · grind [hc.reg_inj, hc.called_active]
  settled {r} hr := by
    rw [HeightEvents.active_call]
    by_cases hreg : hnd.reg = r
    · exact .inl ⟨tid, _, update_self .., hreg⟩
    · rw [if_neg hreg]
      refine (hc.settled hr).imp_left fun ⟨tid', hnd', hhnd', hreg'⟩ => ?_
      have hne : tid' ≠ tid := by grind
      exact ⟨tid', hnd', (update_of_ne hne ..).trans hhnd', hreg'⟩
  due {r reg} hreg hdue := by
    rw [HeightEvents.active_call]
    split_ifs with hr
    · subst hr
      exact hcall.resolve_right fun hlt => absurd hdue (hlt hreg).not_ge
    · exact hc.due hreg hdue

/-! ## What a head change leaves alone -/

structure Frame (e e' : HeightEvents) : Prop where
  tsc : e'.tsc = e.tsc
  htHeights : e'.htHeights = e.htHeights
  htTriggerHeights : e'.htTriggerHeights = e.htTriggerHeights

instance : Std.Refl Frame := ⟨fun _ => ⟨rfl, rfl, rfl⟩⟩

instance : IsTrans HeightEvents Frame :=
  ⟨fun _ _ _ h h' => ⟨h'.tsc.trans h.tsc, h'.htHeights.trans h.htHeights,
    h'.htTriggerHeights.trans h.htTriggerHeights⟩⟩

section

variable {hashing : Hashing} {rounds : ℕ}

lemma revertTriggers_frame (ts : TipSet) (tids : List ℕ) :
    Keeps Frame (revertTriggers ts tids) := by
  induction tids with
  | nil => exact Keeps.pure ()
  | cons tid tids ih =>
    refine Keeps.bind Keeps.get fun e => ?_
    rcases e.heightTriggers tid with _ | hnd
    · exact Keeps.fail _
    · exact Keeps.bind (Keeps.modify fun _ => ⟨rfl, rfl, rfl⟩) fun _ => ih

lemma applyTriggers_frame (x : Int64) (tids : List ℕ) :
    Keeps Frame (applyTriggers hashing rounds x tids) := by
  induction tids with
  | nil => exact Keeps.pure ()
  | cons tid tids ih =>
    refine Keeps.bind Keeps.get fun e => ?_
    rcases e.heightTriggers tid with _ | hnd
    · exact Keeps.fail _
    · refine Keeps.ite (fun _ => Keeps.pure ()) fun _ => ?_
      rcases e.tsc.getNonNull hashing rounds (x - hnd.confidence) with _ | err | incTs
      · exact Keeps.fail _
      · exact Keeps.fail _
      · exact Keeps.bind (Keeps.modify fun _ => ⟨rfl, rfl, rfl⟩) fun _ => ih

lemma revertHeight_frame (ts : TipSet) (x : Int64) : Keeps Frame (revertHeight ts x) :=
  Keeps.bind Keeps.get fun e => revertTriggers_frame ts (e.htHeights x)

lemma applyHeight_frame (x : Int64) : Keeps Frame (applyHeight hashing rounds x) :=
  Keeps.bind Keeps.get fun e => applyTriggers_frame x (e.htTriggerHeights x)

variable {visit : Int64 → Act HeightEvents NodeErr Unit}

lemma walkNulls_frame (hvisit : ∀ x, Keeps Frame (visit x)) (n : ℕ) (subh : Int64) :
    Keeps Frame (walkNulls hashing visit n subh) := by
  induction n generalizing subh with
  | zero => exact Keeps.fail _
  | succ n ih =>
    refine Keeps.bind Keeps.get fun e => Keeps.bind (Keeps.ofExcept _) fun o => ?_
    grind [Keeps.bind, Keeps.pure]

/-- The rounds of a chain from the one above `floor` up to `subh` are null rounds. -/
structure NullsAbove (hashing : Hashing) (tsc : TipSetCache) (floor : TipSet) (subh : Int64) :
    Prop where
  le : floor.epoch ≤ subh.toInt
  floor_eq : tsc.get hashing floor.height = .ok (some floor)
  null : ∀ {x : Int64}, floor.epoch < x.toInt → x.toInt ≤ subh.toInt →
    tsc.get hashing x = .ok none

variable {tsc : TipSetCache} {floor : TipSet} {subh : Int64}

lemma NullsAbove.lt (hn : NullsAbove hashing tsc floor subh)
    (hget : tsc.get hashing subh = .ok none) : floor.epoch < subh.toInt := by
  refine lt_of_le_of_ne hn.le fun heq => ?_
  have hsame : floor.height = subh := Int64.toInt_inj.mp heq
  rw [← hsame, hn.floor_eq] at hget
  cases hget

lemma NullsAbove.pred (hn : NullsAbove hashing tsc floor subh)
    (hlt : floor.epoch < subh.toInt) : NullsAbove hashing tsc floor (subh - 1) := by
  have hpred : (subh - 1).toInt = subh.toInt - 1 := Word.toInt_sub_one hlt
  exact ⟨by omega, hn.floor_eq, fun hx hle => hn.null hx (by omega)⟩

variable {ts : TipSet} {rest : List TipSet}

lemma Represents.nullsAbove {next : TipSet} (hrep : Represents tsc (ts :: next :: rest))
    (hashing : Hashing) (hcap : tsc.cache.length < 2 ^ 63) (hin : ts.epoch - tsc.len < next.epoch) :
    NullsAbove hashing tsc next (ts.height - 1) := by
  have hlt : next.epoch < ts.epoch := (pairwise_cons.mp hrep.descending).1 next (.head _)
  have hpred : (ts.height - 1).toInt = ts.height.toInt - 1 := Word.toInt_sub_one hlt
  have hmem : next ∈ ts :: next :: rest := by simp
  have hget : ∀ x : Int64, next.epoch ≤ x.toInt → x.toInt ≤ ts.epoch →
      tsc.get hashing x = .ok (tipSetAt (ts :: next :: rest) x.toInt) := fun x hge hle =>
    hrep.get_eq hcap ⟨ts, _, rfl, hle, next, hmem, hin, hge⟩
  refine ⟨?_, ?_, fun {x} hx hle => ?_⟩
  · unfold TipSet.epoch at *
    omega
  · rw [hget _ le_rfl hlt.le]
    exact congrArg _ (hrep.descending.tipSetAt_of_mem hmem)
  · have htop : x.toInt < ts.epoch := by
      unfold TipSet.epoch
      omega
    rw [hget x hx.le htop.le, tipSetAt_cons_of_ne htop.ne']
    refine congrArg _ (tipSetAt_eq_none fun t ht => ?_)
    exact (epoch_le_head (pairwise_cons.mp hrep.descending).2 ht).trans_lt hx

lemma NullsAbove.along (hvisit : ∀ x, Keeps Frame (visit x)) (n : ℕ)
    (hn : NullsAbove hashing e.tsc floor subh) :
    AlongNulls hashing visit (fun x _ => floor.epoch < x.toInt) n subh e := by
  induction n generalizing subh e with
  | zero => trivial
  | succ n ih =>
    intro hget
    have hlt := hn.lt hget
    refine ⟨hlt, fun _ => ih ?_⟩
    rw [(hvisit subh e).tsc]
    exact hn.pred hlt

lemma NullsAbove.visited {P Post : Int64 → HeightEvents → Prop} {Inv : HeightEvents → Prop}
    (hframe : ∀ x, Keeps Frame (visit x))
    (hvisit : ∀ {x e e'}, Inv e → P x e → visit x e = (.ok (), e') →
      Inv e' ∧ Post x e' ∧ ∀ {y}, Post y e → Post y e') {n : ℕ}
    (hn : NullsAbove hashing e.tsc floor subh) (halong : AlongNulls hashing visit P n subh e)
    (he : Inv e) (hwalk : walkNulls hashing visit n subh e = (.ok (), e')) :
    Inv e' ∧ (∀ {x : Int64}, floor.epoch < x.toInt → x.toInt ≤ subh.toInt → Post x e') ∧
      ∀ {y}, Post y e → Post y e' := by
  induction n generalizing subh e with
  | zero => cases hwalk
  | succ n ih =>
    rw [walkNulls, bind_of_ok (get_apply e)] at hwalk
    obtain ⟨o, e1, hget, hwalk⟩ := bind_eq_ok hwalk
    obtain ⟨hget, rfl⟩ := ofExcept_eq_ok hget
    rcases o with _ | ts
    · have hlt := hn.lt hget
      have hpred : (subh - 1).toInt = subh.toInt - 1 := Word.toInt_sub_one hlt
      obtain ⟨hP, hafter⟩ := halong hget
      obtain ⟨_, e2, hv, hwalk⟩ := bind_eq_ok hwalk
      obtain ⟨he2, hpost, hkeep⟩ := hvisit he hP hv
      have hn2 : NullsAbove hashing e2.tsc floor (subh - 1) := by
        rw [((hframe subh).of_run hv).tsc]
        exact hn.pred hlt
      obtain ⟨he', hposts, hkeep'⟩ := ih hn2 (hafter.of_run hv) he2 hwalk
      refine ⟨he', fun {x} hx hle => ?_, fun hy => hkeep' (hkeep hy)⟩
      grind [Int64.toInt_inj]
    · cases hwalk
      refine ⟨he, fun {x} hx hle => ?_, id⟩
      rw [hn.null (hx.trans_le hle) le_rfl] at hget
      cases hget

/-! ## Reverts -/

variable {x : Int64} {tids : List ℕ}

lemma Complete.revertTriggers (hc : Complete h e) (hx : h < x.toInt)
    (htids : ∀ tid ∈ tids, tid ∈ e.htHeights x) :
    Complete h (revertTriggers ts tids e).2 := by
  induction tids generalizing e with
  | nil => exact hc
  | cons tid tids ih =>
    rw [Lotus.revertTriggers, bind_of_ok (get_apply e)]
    rcases hhnd : e.heightTriggers tid with _ | hnd
    · exact hc
    · dsimp only
      rw [bind_of_ok (modify_apply _ e)]
      refine ih (hc.call hhnd (.inr fun {reg} hreg => ?_)) fun tid' htid' =>
        htids tid' (.tail _ htid')
      obtain ⟨reg', hreg', rfl⟩ := hc.height_reg (htids tid (.head _)) hhnd
      obtain rfl := Option.some.inj (hreg'.symm.trans hreg)
      have hpos := (hc.proper reg' (mem_of_getElem? hreg)).1
      unfold Registration.triggerEpoch
      omega

lemma Complete.revertHeight (hc : Complete h e) (hx : h < x.toInt) :
    Complete h (revertHeight ts x e).2 := by
  rw [Lotus.revertHeight, bind_of_ok (get_apply e)]
  exact hc.revertTriggers hx fun _ htid => htid

/-- The cache follows the chain with the head `head`, and the registrations are complete there. -/
structure Served (head : TipSet) (chain : List TipSet) (e : HeightEvents) : Prop
    extends Complete head.epoch e where
  represents : Represents e.tsc (head :: chain)
  len_pos : 0 < e.tsc.len
  cap_lt : e.tsc.cache.length < 2 ^ 63

lemma removeTipSet_eq_ok (hrun : removeTipSet hashing ts e = (.ok (), e')) :
    ∃ tsc, e.tsc.revert hashing ts = .ok tsc ∧ e' = { e with tsc := tsc } := by
  rw [removeTipSet, bind_of_ok (get_apply e)] at hrun
  obtain ⟨tsc, e1, htsc, hset⟩ := bind_eq_ok hrun
  obtain ⟨hrevert, rfl⟩ := ofExcept_eq_ok htsc
  exact ⟨tsc, hrevert, (congrArg Prod.snd hset).symm⟩

lemma Served.revertTipSet {next : TipSet} (hs : Served ts (next :: rest) e)
    (hin : ts.epoch - e.tsc.len < next.epoch)
    (hrun : revertTipSet hashing rounds ts e = (.ok (), e')) :
    Served next rest e' ∧ next.epoch - e'.tsc.len = ts.epoch - e.tsc.len ∧
      e'.tsc.cache.length = e.tsc.cache.length := by
  have hlt : next.epoch < ts.epoch := (pairwise_cons.mp hs.represents.descending).1 next (.head _)
  obtain ⟨_, e1, hrev, hrun⟩ := bind_eq_ok hrun
  obtain ⟨_, e2, hwalk, hremove⟩ := bind_eq_ok hrun
  have htsc1 : e1.tsc = e.tsc := ((revertHeight_frame ts ts.height).of_run hrev).tsc
  have htsc2 : e2.tsc = e1.tsc :=
    ((walkNulls_frame (revertHeight_frame ts) rounds _).of_run hwalk).tsc
  -- The registrations at the heights above the parent are not due there.
  have hc1 : Complete next.epoch e1 := by
    have hc : Complete next.epoch (revertHeight ts ts.height e).2 :=
      (hs.toComplete.mono hlt.le).revertHeight hlt
    rwa [hrev] at hc
  have hnulls := hs.represents.nullsAbove hashing hs.cap_lt hin
  have hc2 : Complete next.epoch e2 := by
    have hc := walkNulls_keeps (fun he hx => Complete.revertHeight he hx)
      (NullsAbove.along (revertHeight_frame ts) rounds (htsc1 ▸ hnulls)) hc1
    rwa [hwalk] at hc
  obtain ⟨tsc2, hrevert, rfl⟩ := removeTipSet_eq_ok hremove
  obtain ⟨tsc', hrevert', hrep, -, hfloor⟩ := hs.represents.revert hashing
  rw [htsc2, htsc1, hrevert'] at hrevert
  obtain rfl := Except.ok.inj hrevert
  have hsame := hfloor next rfl hin
  have hlength := TipSetCache.revert_length hrevert'
  refine ⟨⟨hc2.setTsc _, hrep, ?_, ?_⟩, hsame.symm, hlength⟩
  · show 0 < tsc'.len
    omega
  · exact hlength.trans_lt hs.cap_lt

variable {chain : List TipSet} {head : TipSet}

lemma Served.reverts {fork : TipSet} {rev : List TipSet} (hs : Served head chain e)
    (hchain : head :: chain = rev ++ fork :: rest) (hin : head.epoch - e.tsc.len < fork.epoch)
    (hrun : rev.forM (Lotus.revertTipSet hashing rounds) e = (.ok (), e')) :
    Served fork rest e' ∧ e'.tsc.cache.length = e.tsc.cache.length := by
  induction rev generalizing head chain e with
  | nil => simp_all
  | cons ts rev ih =>
    obtain ⟨rfl, hbelow⟩ := List.cons.inj hchain
    obtain ⟨next, below, rfl⟩ := exists_cons_of_ne_nil (l := chain) (by simp [hbelow])
    obtain ⟨_, e1, hts, hrun⟩ := bind_eq_ok hrun
    have hd := (pairwise_cons.mp hs.represents.descending).2
    have hfork : fork.epoch ≤ next.epoch := epoch_le_head hd (by simp [hbelow])
    obtain ⟨hs1, hfloor, hlength⟩ := hs.revertTipSet (by omega) hts
    grind

/-! ## Applies -/

def HeightEvents.calledAt (e : HeightEvents) (tid : ℕ) : Bool :=
  (e.heightTriggers tid).any HeightHandler.called

def UnblockedAt (x : Int64) (e : HeightEvents) : Prop :=
  (e.htTriggerHeights x).Pairwise fun tid tid' => e.calledAt tid = true → e.calledAt tid' = true
deriving Decidable

def AppliedAll (tids : List ℕ) (e : HeightEvents) : Prop :=
  ∀ tid ∈ tids, ∀ hnd, e.heightTriggers tid = some hnd → Active (e.callsOf hnd.reg) = true

lemma AppliedAll.call (ha : AppliedAll tids e) (hhnd : e.heightTriggers tid = some hnd)
    (hc : c.isApply = true) : AppliedAll (tid :: tids) (e.call tid hnd c) := by
  intro tid' htid' hnd' hhnd'
  rw [HeightEvents.active_call]
  split_ifs with hreg
  · exact hc
  · rcases HeightEvents.of_call_lookup hhnd hhnd' with ⟨-, rfl⟩ | ⟨hne, hold⟩
    · cases hreg rfl
    · exact ha tid' (mem_of_ne_of_mem hne htid') hnd' hold

lemma applyTriggers_ok (hc : Complete h e) (hnodup : tids.Nodup)
    (hfree : tids.Pairwise fun tid tid' => e.calledAt tid = true → e.calledAt tid' = true)
    (hrun : applyTriggers hashing rounds x tids e = (.ok (), e')) :
    Complete h e' ∧ AppliedAll tids e' ∧ ∀ {tids'}, AppliedAll tids' e → AppliedAll tids' e' := by
  induction tids generalizing e with
  | nil =>
    cases hrun
    exact ⟨hc, fun _ htid => absurd htid not_mem_nil, id⟩
  | cons tid tids ih =>
    obtain ⟨hnot, hnodup⟩ := nodup_cons.mp hnodup
    obtain ⟨hblock, hfree⟩ := pairwise_cons.mp hfree
    rw [applyTriggers, bind_of_ok (get_apply e)] at hrun
    rcases hhnd : e.heightTriggers tid with _ | hnd
    · rw [hhnd] at hrun
      cases hrun
    · rw [hhnd] at hrun
      dsimp only at hrun
      split_ifs at hrun with hcalled
      · cases hrun
        have hat : e'.calledAt tid = true := by simpa [HeightEvents.calledAt, hhnd] using hcalled
        refine ⟨hc, fun tid' htid' hnd' hhnd' => hc.called_active hhnd' ?_, id⟩
        have hat' : e'.calledAt tid' = true := by grind
        simpa [HeightEvents.calledAt, hhnd'] using hat'
      · rcases hinc : e.tsc.getNonNull hashing rounds (x - hnd.confidence) with _ | err | incTs
        · simp_all
        · simp_all
        · rw [hinc] at hrun
          dsimp only at hrun
          rw [bind_of_ok (modify_apply _ e)] at hrun
          have hsame : ∀ tid' ∈ tids,
              (e.call tid hnd (.apply (some incTs) x)).calledAt tid' = e.calledAt tid' := by
            intro tid' htid'
            have hne : tid' ≠ tid := ne_of_mem_of_not_mem htid' hnot
            unfold HeightEvents.calledAt
            exact congrArg _ (update_of_ne hne ..)
          have hfree' := hfree.imp_of_mem fun {i j} hi hj hij => by
            rw [← hsame i hi, ← hsame j hj] at hij
            exact hij
          obtain ⟨hc', hrest, hkeep⟩ := ih (hc.call hhnd (.inl rfl)) hnodup hfree' hrun
          have hself : AppliedAll [tid] (e.call tid hnd (.apply (some incTs) x)) :=
            AppliedAll.call (fun _ htid => absurd htid not_mem_nil) hhnd rfl
          refine ⟨hc', fun tid' htid' => ?_, fun ha => ?_⟩
          · rcases mem_cons.mp htid' with rfl | htid'
            · exact hkeep hself tid' (mem_singleton_self tid')
            · exact hrest tid' htid'
          · exact hkeep fun tid' htid' => ha.call hhnd rfl tid' (.tail _ htid')

def AppliedAt (x : Int64) (e : HeightEvents) : Prop := AppliedAll (e.htTriggerHeights x) e

lemma applyHeight_ok (hc : Complete h e) (hfree : UnblockedAt x e)
    (hrun : applyHeight hashing rounds x e = (.ok (), e')) :
    Complete h e' ∧ AppliedAt x e' ∧ ∀ {y}, AppliedAt y e → AppliedAt y e' := by
  have hframe := ((applyHeight_frame x).of_run hrun).htTriggerHeights
  rw [applyHeight, bind_of_ok (get_apply e)] at hrun
  obtain ⟨hc', happ, hkeep⟩ := applyTriggers_ok hc (hc.triggerHeights_nodup x) hfree hrun
  unfold AppliedAt
  rw [hframe]
  exact ⟨hc', happ, hkeep⟩

lemma addTipSet_eq_ok (hrun : addTipSet ts e = (.ok (), e')) :
    ∃ tsc, e.tsc.add ts = .ok tsc ∧ e' = { e with tsc := tsc } := by
  rw [addTipSet, bind_of_ok (get_apply e)] at hrun
  obtain ⟨tsc, e1, htsc, hset⟩ := bind_eq_ok hrun
  obtain ⟨hadd, rfl⟩ := ofExcept_eq_ok htsc
  exact ⟨tsc, hadd, (congrArg Prod.snd hset).symm⟩

lemma Complete.raise (hc : Complete head.epoch e)
    (happ : ∀ {x : Int64}, head.epoch < x.toInt → x.toInt ≤ ts.epoch → AppliedAt x e) :
    Complete ts.epoch e := by
  refine { hc with due := fun {r reg} hreg hdue => ?_ }
  by_cases hold : reg.triggerEpoch ≤ head.epoch
  · exact hc.due hreg hold
  · rcases hc.settled (List.getElem?_eq_some_iff.mp hreg).1 with ⟨tid, hnd, hhnd, rfl⟩ | hactive
    · obtain ⟨reg', hreg', hmem⟩ := hc.trigger_reg hhnd
      obtain rfl := Option.some.inj (hreg'.symm.trans hreg)
      have hsum := (hc.proper reg' (mem_of_getElem? hreg)).toInt_add hc.gc_nonneg
      exact happ (by omega) (by omega) tid hmem hnd hhnd
    · exact hactive

/-- No trigger that was called stands before one that was not, where `apply` looks. -/
def AppliesUnblocked (hashing : Hashing) (rounds : ℕ) : List TipSet → HeightEvents → Prop
  | [], _ => True
  | ts :: app, e =>
    (addTipSet ts).After
      (fun e => UnblockedAt ts.height e ∧
        (applyHeight hashing rounds ts.height).After (AlongNulls hashing
          (applyHeight hashing rounds) UnblockedAt rounds (ts.height - 1)) e) e ∧
      (applyTipSet hashing rounds ts).After (AppliesUnblocked hashing rounds app) e

lemma Served.applyTipSet {app : List TipSet} (hs : Served head chain e)
    (hlt : head.epoch < ts.epoch) (hroom : ts.epoch < head.epoch + e.tsc.cache.length)
    (hfree : AppliesUnblocked hashing rounds (ts :: app) e)
    (hrun : applyTipSet hashing rounds ts e = (.ok (), e')) :
    Served ts (head :: chain) e' ∧ e'.tsc.cache.length = e.tsc.cache.length := by
  obtain ⟨_, e1, hadd, hrun⟩ := bind_eq_ok hrun
  obtain ⟨_, e2, happly, hwalk⟩ := bind_eq_ok hrun
  obtain ⟨hfree1, hfree2⟩ := hfree.1.of_run hadd
  obtain ⟨tsc, htsc, rfl⟩ := addTipSet_eq_ok hadd
  have habove : ∀ t ∈ head :: chain, t.epoch < ts.epoch := fun t ht =>
    (epoch_le_head hs.represents.descending ht).trans_lt hlt
  obtain ⟨tsc', htsc', hlen, hrep⟩ := hs.represents.add habove
  obtain rfl := Except.ok.inj (htsc'.symm.trans htsc)
  have hin := hs.represents.add_keeps_head hs.len_pos hlt hroom htsc
  have hlength := TipSetCache.add_length htsc
  have hnulls := hrep.nullsAbove hashing (hlength.trans_lt hs.cap_lt) hin
  obtain ⟨hc2, htop, -⟩ := applyHeight_ok (hs.toComplete.setTsc tsc') hfree1 happly
  have htsc2 : e2.tsc = tsc' := ((applyHeight_frame ts.height).of_run happly).tsc
  obtain ⟨hc3, hbelow, hkeep⟩ := NullsAbove.visited applyHeight_frame
    (fun hc hP hv => applyHeight_ok hc hP hv) (htsc2 ▸ hnulls) (hfree2.of_run happly) hc2 hwalk
  have htsc3 : e'.tsc = tsc' :=
    ((walkNulls_frame applyHeight_frame rounds _).of_run hwalk).tsc.trans htsc2
  have hpred : (ts.height - 1).toInt = ts.height.toInt - 1 := Word.toInt_sub_one hlt
  have hcomplete : Complete ts.epoch e' := by
    refine hc3.raise fun {x} hx hle => ?_
    grind [TipSet.epoch, Int64.toInt_inj]
  refine ⟨⟨hcomplete, htsc3 ▸ hrep, htsc3 ▸ hlen, ?_⟩, htsc3 ▸ hlength⟩
  rw [htsc3, hlength]
  exact hs.cap_lt

/-- A tipset comes after another one, and both fit in a buffer. -/
def Within (cap : ℕ) (a b : TipSet) : Prop := a.epoch < b.epoch ∧ b.epoch < a.epoch + cap
deriving Decidable

lemma Served.applies {app : List TipSet} (hs : Served head chain e)
    (hbranch : (head :: app).IsChain (Within e.tsc.cache.length))
    (hfree : AppliesUnblocked hashing rounds app e)
    (hrun : app.forM (Lotus.applyTipSet hashing rounds) e = (.ok (), e')) :
    ∃ head' chain', app.reverse ++ head :: chain = head' :: chain' ∧ Served head' chain' e' := by
  induction app generalizing head chain e with
  | nil => simp_all
  | cons ts app ih =>
    obtain ⟨⟨hlt, hroom⟩, hbranch⟩ := isChain_cons_cons.mp hbranch
    obtain ⟨_, e1, hts, hrun⟩ := bind_eq_ok hrun
    obtain ⟨hs1, hlength⟩ := hs.applyTipSet hlt hroom hfree hts
    grind [hfree.2.of_run]

lemma getElem?_concat_cases {α : Type} {xs : List α} {x y : α} {r : ℕ}
    (hr : (xs ++ [x])[r]? = some y) : xs[r]? = some y ∧ r < xs.length ∨ r = xs.length ∧ y = x := by
  grind

lemma Complete.enrollCalled (hc : Complete h e) (hreg : reg.Proper e.gcConfidence)
    (hcall : c.isApply = true) :
    Complete h (e.enrollCalled reg c) := by
  have hactive : ∀ r, Active (e.callsOf r) = true →
      Active ((e.enrollCalled reg c).callsOf r) = true := by
    intro r hr
    show Active (callsIn (e.calls ++ [_]) r) = true
    rw [callsIn_concat]
    split_ifs
    · rwa [active_concat]
    · exact hr
  have hnew : Active ((e.enrollCalled reg c).callsOf e.registered.length) = true := by
    show Active (callsIn (e.calls ++ [_]) _) = true
    rwa [callsIn_concat, if_pos rfl, active_concat]
  refine ⟨hc.toFiled.enrollCalled reg c, hc.gc_nonneg, fun reg' hmem => ?_, fun hhnd hcalled => ?_,
    fun {r} hr => ?_, fun {r reg'} hr hdue => ?_⟩
  · rcases mem_append.mp hmem with hmem | hmem
    · exact hc.proper reg' hmem
    · exact mem_singleton.mp hmem ▸ hreg
  · exact hactive _ (hc.called_active hhnd hcalled)
  · have hlt : r < (e.registered ++ [reg]).length := hr
    rw [length_append, length_singleton] at hlt
    rcases Nat.lt_succ_iff_lt_or_eq.mp hlt with hlt | rfl
    · exact (hc.settled hlt).imp_right (hactive r)
    · exact .inr hnew
  · rcases getElem?_concat_cases hr with ⟨hold, -⟩ | ⟨rfl, -⟩ <;> simp_all [hc.due]

lemma Filed.register_lookup (hf : Filed e) (hhnd : e.heightTriggers tid = some hnd)
    (reg : Registration) : (e.register reg).heightTriggers tid = some hnd :=
  (update_of_ne (hf.trigger_lt hhnd).ne ..).trans hhnd

lemma Complete.register (hc : Complete h e)
    (hlast : e.registered[e.registered.length - 1]? = some reg)
    (hnew : ∀ {tid hnd}, e.heightTriggers tid = some hnd → hnd.reg < e.registered.length - 1) :
    Complete h (e.register reg) where
  toFiled := hc.toFiled.register hlast hnew
  gc_nonneg := hc.gc_nonneg
  proper := hc.proper
  called_active hhnd hcalled := by
    rcases of_register_lookup hhnd with ⟨-, rfl⟩ | ⟨-, hold⟩
    · cases hcalled
    · exact hc.called_active hold hcalled
  settled hr := (hc.settled hr).imp_left fun ⟨tid, hnd, hhnd, hreg⟩ =>
    ⟨tid, hnd, hc.register_lookup hhnd reg, hreg⟩
  due := hc.due

lemma Complete.enrollKept (hc : Complete h e) (hreg : reg.Proper e.gcConfidence)
    (hearly : h < reg.triggerEpoch) :
    Complete h ((e.enroll reg).register reg) where
  toFiled := hc.toFiled.enrollKept reg
  gc_nonneg := hc.gc_nonneg
  proper reg' hmem := by
    rcases mem_append.mp hmem with hmem | hmem
    · exact hc.proper reg' hmem
    · exact mem_singleton.mp hmem ▸ hreg
  called_active hhnd hcalled := by
    rcases of_register_lookup hhnd with ⟨-, rfl⟩ | ⟨-, hold⟩
    · cases hcalled
    · exact hc.called_active hold hcalled
  settled {r} hr := by
    have hlt : r < (e.registered ++ [reg]).length := hr
    rw [length_append, length_singleton] at hlt
    rcases Nat.lt_succ_iff_lt_or_eq.mp hlt with hlt | rfl
    · refine (hc.settled hlt).imp_left fun ⟨tid, hnd, hhnd, hr⟩ => ⟨tid, hnd, ?_, hr⟩
      exact (hc.toFiled.enroll reg).register_lookup hhnd reg
    · exact .inl ⟨e.ctr, _, update_self .., by simp [HeightEvents.enroll]⟩
  due hr hdue := by
    rcases getElem?_concat_cases hr with ⟨hold, -⟩ | ⟨-, rfl⟩
    · exact hc.due hold hdue
    · exact absurd hdue hearly.not_ge

lemma Served.chainAt (hs : Served head chain e) (hreg : reg.Proper e.gcConfidence)
    (res : Except NodeErr Unit) :
    Served head chain (chainAt hashing rounds reg res e).2 := by
  have hbest : e.tsc.best = some head := hs.represents.best_eq hs.len_pos
  have hc := hs.toComplete
  have hsum := hreg.toInt_add hc.gc_nonneg
  have hgc := hc.gc_nonneg
  obtain ⟨hpos, hlt⟩ := hreg
  have hold : (reg.height + reg.confidence + e.gcConfidence).toInt =
      reg.triggerEpoch + e.gcConfidence.toInt := by
    have hmin := Int64.le_toInt (reg.height + reg.confidence)
    rw [Word.toInt_add_of_mem (by omega) (by omega), hsum]
  rcases chainAt_cases hbest reg res with ⟨-, heq, -⟩ | ⟨-, -, ts, heq⟩ | ⟨-, -, -, ts, heq⟩ |
    ⟨hlate, hgone, -⟩ | ⟨hlate, -, heq⟩
  · rwa [heq]
  · rw [heq]
    exact ⟨hc.enrollCalled ⟨hpos, hlt⟩ rfl, hs.represents, hs.len_pos, hs.cap_lt⟩
  · rw [heq]
    refine ⟨(hc.enrollCalled ⟨hpos, hlt⟩ rfl).register ?_ fun hhnd => ?_, hs.represents, hs.len_pos,
      hs.cap_lt⟩
    · simp [HeightEvents.enrollCalled]
    · simpa [HeightEvents.enrollCalled] using hc.reg_lt hhnd
  · grind [ge_iff_le, Int64.le_iff_toInt_le]
  · rw [heq]
    refine ⟨hc.enrollKept ⟨hpos, hlt⟩ ?_, hs.represents, hs.len_pos, hs.cap_lt⟩
    rw [ge_iff_le, Int64.le_iff_toInt_le, hsum, not_le] at hlate
    exact hlate

/-! ## Runs -/

end

/-- A head change from a chain: `rev` are its first tipsets, the fork below them is in the buffer,
and each tipset of `app` leaves the one below it in the buffer. -/
def InDepth (tsc : TipSetCache) (chain rev app : List TipSet) : Prop :=
  chain.take rev.length = rev ∧ ∃ fork ∈ (chain.drop rev.length).head?,
    (∀ head ∈ chain.head?, head.epoch - tsc.len < fork.epoch) ∧
    (fork :: app).IsChain (Within tsc.cache.length)
deriving Decidable

def followStep (hashing : Hashing) (rounds : ℕ) :
    HeightEvents × List TipSet → HeightEvent → Option (HeightEvents × List TipSet)
  | (e, chain), .chainAt reg res => some ((chainAt hashing rounds reg res e).2, chain)
  | (e, chain), .headChange rev app =>
    if InDepth e.tsc chain rev app then
      match HeightEvents.headChange hashing rounds rev app e with
      | (.ok _, e') => some (e', app.reverse ++ chain.drop rev.length)
      | (.error _, _) => none
    else none

instance decidableAppliesUnblocked (hashing : Hashing) (rounds : ℕ) :
    ∀ app e, Decidable (AppliesUnblocked hashing rounds app e)
  | [], _ => isTrue trivial
  | _ :: app, _ =>
    have := decidableAppliesUnblocked hashing rounds app
    inferInstanceAs (Decidable (_ ∧ _))

/-- The registrations are proper, and the branch of `apply` that returns early leaves nothing
out. -/
def Unblocked (hashing : Hashing) (rounds : ℕ) (s : HeightEvents × List TipSet) :
    HeightEvent → Prop
  | .chainAt reg _ => reg.Proper s.1.gcConfidence
  | .headChange rev app =>
    (rev.forM (revertTipSet hashing rounds)).After (AppliesUnblocked hashing rounds app) s.1

instance (hashing : Hashing) (rounds : ℕ) (s : HeightEvents × List TipSet) :
    DecidablePred (Unblocked hashing rounds s)
  | .chainAt reg _ => inferInstanceAs (Decidable (reg.Proper s.1.gcConfidence))
  | .headChange _ app =>
    inferInstanceAs (Decidable (Act.After _ (AppliesUnblocked hashing rounds app) s.1))

variable {hashing : Hashing} {rounds : ℕ}

lemma followStep_headChange {chain chain' rev app : List TipSet}
    (hstep : followStep hashing rounds (e, chain) (.headChange rev app) = some (e', chain')) :
    InDepth e.tsc chain rev app ∧ headChangeAt hashing rounds rev app e = (.ok (), e') ∧
      chain' = app.reverse ++ chain.drop rev.length := by
  rw [followStep] at hstep
  split_ifs at hstep with hdepth
  rcases hrun : HeightEvents.headChange hashing rounds rev app e with ⟨err | _, e''⟩
  · rw [hrun] at hstep
    cases hstep
  · rw [hrun] at hstep
    cases hstep
    refine ⟨hdepth, ?_, rfl⟩
    rw [HeightEvents.headChange] at hrun
    split_ifs at hrun
    · cases hrun
    · exact hrun

def Serving (s : HeightEvents × List TipSet) : Prop :=
  ∃ head chain, s.2 = head :: chain ∧ Served head chain s.1

lemma Serving.step {s s' : HeightEvents × List TipSet} {ev : HeightEvent} (hs : Serving s)
    (hfree : Unblocked hashing rounds s ev) (hstep : followStep hashing rounds s ev = some s') :
    Serving s' := by
  obtain ⟨e, chain0⟩ := s
  obtain ⟨e', chain'⟩ := s'
  obtain ⟨head, chain, rfl, hs⟩ : ∃ head chain, chain0 = head :: chain ∧ Served head chain e := hs
  cases ev with
  | chainAt reg res =>
    cases hstep
    exact ⟨head, chain, rfl, hs.chainAt hfree res⟩
  | headChange rev app =>
    obtain ⟨⟨htake, fork, hfork, hin, hbranch⟩, hrun, rfl⟩ := followStep_headChange hstep
    obtain ⟨rest, hdrop⟩ := head?_eq_some_iff.mp hfork
    have hchain : head :: chain = rev ++ fork :: rest := by
      rw [← hdrop, ← take_append_drop rev.length (head :: chain), htake]
      simp
    obtain ⟨_, e1, hrev, happ⟩ := bind_eq_ok hrun
    obtain ⟨hs1, hlength⟩ := hs.reverts hchain (hin head rfl) hrev
    rw [← hlength] at hbranch
    obtain ⟨head', chain', heq, hs'⟩ := hs1.applies hbranch (hfree.of_run hrev) happ
    exact ⟨head', chain', by rw [hdrop]; exact heq, hs'⟩

/-- In every run in which no called trigger stands before one that was not called, where `apply`
looks, each registration is applied once the chain has reached its trigger height, and not reverted
since. -/
theorem heightTriggers_complete (hashing : Hashing) (rounds : ℕ) (gcConfidence : Int64)
    (hgc : 0 ≤ gcConfidence) {tsc : TipSetCache} {chain0 chain : List TipSet}
    (hrep : Represents tsc chain0) (hlen : 0 < tsc.len) (hcap : tsc.cache.length < 2 ^ 63)
    (evs : List HeightEvent) {e : HeightEvents}
    (hfree : Runs.Along (followStep hashing rounds) (Unblocked hashing rounds)
      (newHeightEvents gcConfidence tsc, chain0) evs)
    (hrun : Runs.run (followStep hashing rounds) (newHeightEvents gcConfidence tsc, chain0) evs =
      some (e, chain)) :
    ∀ head ∈ chain.head?, ∀ r reg, e.registered[r]? = some reg → reg.triggerEpoch ≤ head.epoch →
      Active (e.callsOf r) = true := by
  have hinit : Serving (newHeightEvents gcConfidence tsc, chain0) := by
    obtain ⟨head0, rest, rfl, -⟩ := hrep.holds hlen
    refine ⟨head0, rest, rfl, ⟨newHeightEvents_filed gcConfidence tsc, ?_, ?_, ?_, ?_, ?_⟩,
      hrep, hlen, hcap⟩
    · exact Int64.le_iff_toInt_le.mp hgc
    · intro reg hmem
      cases hmem
    · intro tid hnd hhnd
      cases hhnd
    · intro r hr
      cases hr
    · intro r reg hreg
      cases hreg
  obtain ⟨head', rest, heq, hs⟩ := Runs.invariant (fun h hC hst => Serving.step h hC hst) hinit
    hfree hrun
  have heq : chain = head' :: rest := heq
  subst heq
  intro head hhead r reg hreg hdue
  cases hhead
  exact hs.due hreg hdue

lemma sampleStart_represents (storage : Int64 → List Cid → Except NodeErr (Option TipSet)) :
    Represents ((newTSCache 10 storage).push (some (sampleEpoch 5))) [sampleEpoch 5] := by
  have hempty := (newTSCache_follows (show (1 : Int64) ≤ 10 by decide) storage).2
  have habove : ∀ t ∈ ([] : List TipSet), t.epoch < (sampleEpoch 5).epoch := by simp
  obtain ⟨tsc', hadd, -, hrep⟩ := hempty.add habove
  cases hadd
  exact hrep

def sampleSharedReorg : List HeightEvent :=
  [.chainAt ⟨2, 6⟩ (.ok ()), .chainAt ⟨1, 7⟩ (.ok ()),
    .headChange [] [sampleEpoch 6, sampleEpoch 7], .headChange [] [sampleEpoch 8],
    .headChange [sampleEpoch 8, sampleEpoch 7, sampleEpoch 6] [sampleBranch 6, sampleBranch 9]]

theorem sampleSharedReorg_complete :
    ∃ e, Runs.run (followStep sampleHashing 20) (sampleHeights, [sampleEpoch 5]) sampleSharedReorg =
        some (e, [sampleBranch 9, sampleBranch 6, sampleEpoch 5]) ∧
      e.registered = [⟨2, 6⟩, ⟨1, 7⟩] ∧ Active (e.callsOf 0) = true ∧
      Active (e.callsOf 1) = true := by
  refine ⟨_, rfl, rfl, ?_⟩
  have hcomplete := heightTriggers_complete sampleHashing 20 10 (by decide)
    (sampleStart_represents sampleStorage) (by decide) (by decide) sampleSharedReorg (by decide) rfl
    (sampleBranch 9) rfl
  exact ⟨hcomplete 0 _ rfl (by decide), hcomplete 1 _ rfl (by decide)⟩

def sampleBlockedReorg : List HeightEvent :=
  [.chainAt ⟨3, 5⟩ (.ok ()), .chainAt ⟨0, 8⟩ (.ok ()),
    .headChange [] [sampleEpoch 6, sampleEpoch 7, sampleEpoch 8],
    .headChange [sampleEpoch 8] [sampleBranch 8]]

/-- The first registration was called and is not reverted, so the second one is not applied
again. -/
theorem sampleBlockedReorg_incomplete :
    ∃ e, Runs.run (followStep sampleHashing 20) (sampleHeights, [sampleEpoch 5])
          sampleBlockedReorg =
        some (e, [sampleBranch 8, sampleEpoch 7, sampleEpoch 6, sampleEpoch 5]) ∧
      e.registered[1]? = some ⟨0, 8⟩ ∧
      e.callsOf 1 = [.apply (some (sampleEpoch 8)) 8, .revert (sampleEpoch 8)] ∧
      Active (e.callsOf 1) = false :=
  ⟨_, rfl, rfl, rfl, rfl⟩

end Lotus
