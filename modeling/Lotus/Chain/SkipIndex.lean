import Lotus.Chain.Ancestry
import Lotus.Chain.Lookback
import Lotus.Chain.Validate

/-!
# The skip index

`ChainIndex.GetTipsetByHeight` goes down a chain in skips: from a tipset to the lowest one that is
at the multiple of 20 before it or above, or to its parent if that is lower still.
-/

namespace Lotus

open Act List

variable {cs : ChainStore} {g ts pts : TipSet} {l : List TipSet}

/-! ## Entries -/

lemma roundHeight_toInt {h : Int64} (hnonneg : 0 ≤ h.toInt) :
    (roundHeight h).toInt = h.toInt / 20 * 20 := by
  have hlt := h.toInt_lt
  have hskip : skipLength.toInt = 20 := rfl
  have hdiv : (h / skipLength).toInt = h.toInt / 20 := by grind [Int64.toInt_div]
  rw [roundHeight, Word.toInt_mul_of_mem, hdiv, hskip] <;> rw [hdiv, hskip] <;> omega

def skipLevel (ts : TipSet) : ℤ := ts.level / 20 * 20 - 20

/-- The tipset that the skip from `ts` goes to. -/
def skipTarget (ts pts : TipSet) (l : List TipSet) : TipSet :=
  if pts.level < skipLevel ts then pts else Lineage.lowest TipSet.level (skipLevel ts) pts l

lemma skipTarget_mem (ts pts : TipSet) (l : List TipSet) : skipTarget ts pts l ∈ pts :: l := by
  unfold skipTarget
  split_ifs
  · exact .head _
  · exact Lineage.lowest_mem _ pts l

lemma roundHeight_sub_toInt (hnonneg : 0 ≤ ts.level) :
    (roundHeight ts.height - skipLength).toInt = skipLevel ts := by
  have hround : (roundHeight ts.height).toInt = ts.level / 20 * 20 := roundHeight_toInt hnonneg
  have hskip : skipLength.toInt = 20 := rfl
  have hlt : ts.level < 2 ^ 63 := ts.height.toInt_lt
  rw [Word.toInt_sub_of_mem, hround, hskip, skipLevel] <;> rw [hround, hskip] <;> omega

lemma lbEntryOf_of_parent (hload : loadTipSet cs ts.parents = .ok pts) :
    lbEntryOf cs ts = (if pts.height < roundHeight ts.height - skipLength then .ok pts
      else (walkBack cs pts (roundHeight ts.height - skipLength)).mapError
        (.wrap "fillCache walkback") : Except NodeErr TipSet).map fun skipTarget =>
          ⟨ts, pts.height, skipTarget.height, skipTarget.cids cs.hashing⟩ := by
  rw [lbEntryOf, hload]
  by_cases hlow : pts.height < roundHeight ts.height - skipLength
  · rw [if_pos hlow]
    exact if_pos hlow
  · rw [if_neg hlow]
    refine (if_neg hlow).trans ?_
    rcases walkBack cs pts (roundHeight ts.height - skipLength) with e | x <;> rfl

lemma lbEntryOf_spec (h : ChainOf cs g ts (pts :: l)) (hlevel : 20 ≤ ts.level)
    (hdepth : ts.level ≤ cs.depth) :
    lbEntryOf cs ts = .ok ⟨ts, pts.height, (skipTarget ts pts l).height,
      (skipTarget ts pts l).cids cs.hashing⟩ := by
  obtain ⟨hload, hlt, hchain⟩ := h.tail
  have hround := roundHeight_sub_toInt h.level_nonneg
  have hskip : 0 ≤ skipLevel ts := by
    unfold skipLevel
    omega
  rw [lbEntryOf_of_parent hload]
  by_cases hlow : pts.level < skipLevel ts
  · rw [if_pos (Int64.lt_iff_toInt_lt.mpr (hround ▸ hlow)), skipTarget, if_pos hlow]
    rfl
  · rw [if_neg fun h => hlow (hround ▸ Int64.lt_iff_toInt_lt.mp h), skipTarget, if_neg hlow,
      walkBack_spec hchain (hround ▸ hskip) (hround ▸ not_lt.mp hlow) (by omega), hround]
    rfl

lemma lbEntryOf_of_low (h : ChainOf cs g ts (pts :: l)) (hlevel : ts.level < 20) :
    ∃ e, lbEntryOf cs ts = .error e := by
  obtain ⟨hload, -, hchain⟩ := h.tail
  have hround := roundHeight_sub_toInt h.level_nonneg
  have hneg : (roundHeight ts.height - skipLength).toInt < 0 := by
    rw [hround, skipLevel]
    omega
  obtain ⟨e, he⟩ := walkBack_of_neg hchain hneg
  have hlow : ¬pts.height < roundHeight ts.height - skipLength := fun h =>
    absurd (Int64.lt_iff_toInt_lt.mp h) (hneg.trans_le hchain.level_nonneg).not_gt
  refine ⟨.wrap "fillCache walkback" e, ?_⟩
  rw [lbEntryOf_of_parent hload, if_neg hlow, he]
  rfl

lemma freshLbEntry_of_stored (h : Stored cs ts) : freshLbEntry cs (ts.cids cs.hashing) =
      if ts.height = 0 then .ok ⟨ts, 0, 0, []⟩ else lbEntryOf cs ts := by
  rw [freshLbEntry, h]
  rfl

lemma height_eq_zero_iff : ts.height = 0 ↔ ts.level = 0 := Int64.toInt_inj.symm

/-! ## Skips -/

section Skips

variable {cache : SkipCache} {target : Int64} {n : ℕ}

lemma skipLoop_error (hcache : cache.Sound cs) {cur : List Cid} {e : NodeErr}
    (hentry : freshLbEntry cs cur = .error e) :
    (skipLoop cs target (n + 1) cur cache).1 = .error e := by
  obtain ⟨hfresh, -⟩ := lbEntryFor_spec hcache cur
  have hrun : lbEntryFor cs cur cache = (.error e, _) := Prod.ext (hfresh.trans hentry) rfl
  rw [skipLoop, bind_of_error hrun]

lemma skipLoop_step (target : Int64) (n : ℕ) (hcache : cache.Sound cs) {cur : List Cid}
    {lbe : LbEntry} (hentry : freshLbEntry cs cur = .ok lbe) : ∃ cache', SkipCache.Sound cs cache' ∧
      (skipLoop cs target (n + 1) cur cache).1 =
        if lbe.ts.height = target ∨ lbe.parentHeight < target then .ok lbe.ts
        else if target > lbe.targetHeight then walkBack cs lbe.ts target
        else (skipLoop cs target n lbe.target cache').1 := by
  obtain ⟨hfresh, hsound⟩ := lbEntryFor_spec hcache cur
  have hrun : lbEntryFor cs cur cache = (.ok lbe, _) := Prod.ext (hfresh.trans hentry) rfl
  refine ⟨_, hsound, ?_⟩
  rw [skipLoop, bind_of_ok hrun]
  split_ifs <;> rfl

/-- A stretch of null rounds from epoch 40 or later down to one of the first 20 epochs after the
genesis, which is not below the height `t`. -/
def Gap (t : ℤ) (chain : List TipSet) : Prop :=
  ∃ pre u v post, chain = pre ++ u :: v :: post ∧
    40 ≤ u.level ∧ 0 < v.level ∧ v.level < 20 ∧ t ≤ v.level

lemma Gap.of_append {t : ℤ} {pre chain : List TipSet} (h : Gap t chain) : Gap t (pre ++ chain) := by
  obtain ⟨pre', u, v, post, rfl, hgap⟩ := h
  exact ⟨pre ++ pre', u, v, post, (append_assoc ..).symm, hgap⟩

lemma skipTarget_level (h : ChainOf cs g ts (pts :: l)) (hlevel : 20 ≤ ts.level)
    (hgap : ¬Gap target.toInt (ts :: pts :: l))
    (htarget : target.toInt ≤ (skipTarget ts pts l).level) :
    20 ≤ (skipTarget ts pts l).level ∨ (skipTarget ts pts l).level = 0 := by
  obtain ⟨-, -, hchain⟩ := h.tail
  have hnonneg := hchain.level_nonneg
  unfold skipTarget at htarget ⊢
  split_ifs at htarget ⊢ with hlow
  · -- the parent is below the height that the skip aims at, so that is at least 20
    by_contra hmiddle
    refine hgap ⟨[], ts, pts, l, rfl, ?_, ?_, ?_, htarget⟩
    all_goals
      unfold skipLevel at hlow
      omega
  · have hle : skipLevel ts ≤ (Lineage.lowest TipSet.level (skipLevel ts) pts l).level :=
      Lineage.le_height_lowest (not_lt.mp hlow)
    by_cases hskip : skipLevel ts = 0
    · -- the lowest tipset from height 0 on is the genesis
      right
      have hzero := hchain.genesis_level
      have hmin := Lineage.height_lowest_le hchain.lineage hchain.genesis_mem
        (hskip.trans_le hzero.ge)
      omega
    · left
      unfold skipLevel at hskip hle ⊢
      omega

lemma skipLoop_found (h : ChainOf cs g ts l) (hcache : cache.Sound cs)
    (hnonneg : 0 ≤ target.toInt) (hle : target.toInt ≤ ts.level)
    (hlevel : 20 ≤ ts.level ∨ ts.level = 0) (hgap : ¬Gap target.toInt (ts :: l))
    (hdepth : ts.level ≤ cs.depth) (hn : l.length < n) :
    (skipLoop cs target n (ts.cids cs.hashing) cache).1 =
      .ok (Lineage.lowest TipSet.level target.toInt ts l) := by
  induction n generalizing ts l cache with
  | zero => exact absurd hn (Nat.not_lt_zero _)
  | succ n ih =>
    have hentry := freshLbEntry_of_stored (h.stored ts mem_cons_self)
    rcases hlevel with hlevel | hzero
    · obtain ⟨pts, l, rfl⟩ := h.exists_parent (by omega)
      rw [if_neg fun h => absurd (height_eq_zero_iff.mp h) (by omega),
        lbEntryOf_spec h hlevel hdepth] at hentry
      obtain ⟨cache', hsound, hrun⟩ := skipLoop_step target n hcache hentry
      rw [hrun]
      split_ifs with hstop habove
      · rcases hstop with heq | hparent
        · have hself : target.toInt = ts.level := (congrArg Int64.toInt heq).symm
          rw [hself, Lineage.lowest_self h.lineage]
        · have hparent : pts.level < target.toInt := Int64.lt_iff_toInt_lt.mp hparent
          rw [Lineage.lowest, if_neg hparent.not_ge]
      · exact walkBack_spec h hnonneg hle hdepth
      · have hbelow : target.toInt ≤ (skipTarget ts pts l).level :=
          not_lt.mp fun h => habove (Int64.lt_iff_toInt_lt.mpr h)
        obtain ⟨pre, post, heq⟩ := append_of_mem (skipTarget_mem ts pts l)
        have heq' : ts :: pts :: l = (ts :: pre) ++ skipTarget ts pts l :: post :=
          congrArg (ts :: ·) heq
        have hchain := h.of_append heq'
        have hshort : post.length < n := by grind
        have hlow : (skipTarget ts pts l).level < ts.level :=
          h.lineage.height_lt (skipTarget_mem ts pts l)
        rw [ih hchain hsound hbelow (skipTarget_level h hlevel hgap hbelow)
          (fun hgap' => hgap (heq' ▸ hgap'.of_append)) (by omega) hshort,
          Lineage.lowest_of_append h.lineage heq' hbelow]
    · rw [if_pos (height_eq_zero_iff.mpr hzero)] at hentry
      obtain ⟨cache', -, hrun⟩ := skipLoop_step target n hcache hentry
      have hself : target.toInt = ts.level := by omega
      rw [hrun, if_pos (.inl (Int64.toInt_inj.mp hself.symm)), hself, Lineage.lowest_self h.lineage]

lemma skipLoop_low (h : ChainOf cs g ts l) (hcache : cache.Sound cs) (hlevel : 0 < ts.level)
    (hlow : ts.level < 20) (n : ℕ) :
    ∃ e, (skipLoop cs target n (ts.cids cs.hashing) cache).1 = .error e := by
  cases n with
  | zero => exact ⟨_, rfl⟩
  | succ n =>
    obtain ⟨pts, l, rfl⟩ := h.exists_parent hlevel
    obtain ⟨e, he⟩ := lbEntryOf_of_low h hlow
    have hentry := freshLbEntry_of_stored (h.stored ts mem_cons_self)
    rw [if_neg fun h => hlevel.ne' (height_eq_zero_iff.mp h), he] at hentry
    exact ⟨e, skipLoop_error hcache hentry⟩

lemma skipTarget_above (h : ChainOf cs g ts (pts :: l)) {v : TipSet} (hv : v ∈ pts :: l)
    (hlevel : 40 ≤ ts.level) (hlow : v.level < 20) :
    v.level < (skipTarget ts pts l).level ∨ skipTarget ts pts l = v := by
  obtain ⟨-, -, hchain⟩ := h.tail
  unfold skipTarget
  split_ifs with hbelow
  · grind [hchain.lineage.height_le, hchain.lineage.eq_of_height_le]
  · left
    have hle : skipLevel ts ≤ (Lineage.lowest TipSet.level (skipLevel ts) pts l).level :=
      Lineage.le_height_lowest (not_lt.mp hbelow)
    unfold skipLevel at hle ⊢
    omega

lemma ChainOf.of_above (h : ChainOf cs g ts l) {pre post : List TipSet} {x u v : TipSet}
    (heq : ts :: l = pre ++ u :: v :: post) (hx : x ∈ ts :: l) (hlt : v.level < x.level) :
    ∃ pre' l', ChainOf cs g x l' ∧ x :: l' = pre' ++ u :: v :: post := by
  have hmem : x ∈ pre ++ [u] := h.lineage.mem_of_height_lt (heq.trans (append_cons pre u _)) hx hlt
  rcases mem_append.mp hmem with hpre | hu
  · obtain ⟨before, between, rfl⟩ := append_of_mem hpre
    grind [append_assoc, h.of_append]
  · obtain rfl := mem_singleton.mp hu
    exact ⟨[], v :: post, h.of_append heq, rfl⟩

lemma skipLoop_stuck {pre post : List TipSet} {u v : TipSet} (h : ChainOf cs g ts l)
    (hcache : cache.Sound cs) (heq : ts :: l = pre ++ u :: v :: post) (hhigh : 40 ≤ u.level)
    (hpos : 0 < v.level) (hlow : v.level < 20) (htarget : target.toInt ≤ v.level)
    (hdepth : ts.level ≤ cs.depth) (n : ℕ) :
    ∃ e, (skipLoop cs target n (ts.cids cs.hashing) cache).1 = .error e := by
  induction n generalizing ts l pre cache with
  | zero => exact ⟨_, rfl⟩
  | succ n ih =>
    have hu : u.level ≤ ts.level := h.lineage.height_le (heq ▸ mem_append_right pre mem_cons_self)
    have hv : v ∈ ts :: l := heq ▸ mem_append_right pre (mem_cons_of_mem u mem_cons_self)
    obtain ⟨pts, l, rfl⟩ := h.exists_parent (by omega)
    obtain ⟨-, -, hchain⟩ := h.tail
    have hv : v ∈ pts :: l := by grind
    have hparent : v.level ≤ pts.level := hchain.lineage.height_le hv
    have hskip := skipTarget_above h hv (by omega) hlow
    have hentry := freshLbEntry_of_stored (h.stored ts mem_cons_self)
    rw [if_neg fun h => absurd (height_eq_zero_iff.mp h) (by omega),
      lbEntryOf_spec h (by omega) hdepth] at hentry
    obtain ⟨cache', hsound, hrun⟩ := skipLoop_step target n hcache hentry
    have hgo : ¬(ts.height = target ∨ pts.height < target) := by
      rintro (hself | hbelow)
      · have hself : ts.level = target.toInt := congrArg Int64.toInt hself
        omega
      · have hbelow : pts.level < target.toInt := Int64.lt_iff_toInt_lt.mp hbelow
        omega
    have hfar : ¬target > (skipTarget ts pts l).height := fun habove => by
      have habove : (skipTarget ts pts l).level < target.toInt := Int64.lt_iff_toInt_lt.mp habove
      grind
    rw [hrun, if_neg hgo, if_neg hfar]
    have hmem := skipTarget_mem ts pts l
    have hlt : (skipTarget ts pts l).level < ts.level := h.lineage.height_lt hmem
    rcases hskip with habove | hself
    · grind [h.of_above, mem_cons_of_mem]
    · obtain ⟨-, l', -, hof⟩ := h.of_mem (mem_cons_of_mem ts hmem)
      rw [hself] at hof ⊢
      exact skipLoop_low hof hsound hpos hlow n

end Skips

/-! ## Lookups -/

section Lookups

variable {cache : SkipCache} {target : Int64}

lemma height_sub_le_iff (hnonneg : 0 ≤ target.toInt) (hle : target.toInt ≤ ts.level) :
    ts.height - target ≤ skipLength ↔ ts.level - target.toInt ≤ 20 := by
  have hlt : ts.level < 2 ^ 63 := ts.height.toInt_lt
  have hsub : (ts.height - target).toInt = ts.level - target.toInt := by
    grind [TipSet.level, Word.toInt_sub_of_mem]
  rw [Int64.le_iff_toInt_le, hsub]
  rfl

lemma indexGetTipsetByHeight_far (h : ChainOf cs g ts l) (hnonneg : 0 ≤ target.toInt)
    (hfar : 20 < ts.level - target.toInt) (hdepth : ts.level ≤ cs.depth) (cache : SkipCache) :
    ∃ pre x post, ts :: l = pre ++ x :: post ∧ ChainOf cs g x post ∧ ts.level / 20 * 20 ≤ x.level ∧
      indexGetTipsetByHeight cs ts target cache =
        skipLoop cs target cs.depth (x.cids cs.hashing) cache := by
  have hnonneg' : 0 ≤ ts.level := h.level_nonneg
  have hround : (roundHeight ts.height).toInt = ts.level / 20 * 20 := roundHeight_toInt hnonneg'
  have hround_nonneg : 0 ≤ (roundHeight ts.height).toInt := by omega
  have hround_le : (roundHeight ts.height).toInt ≤ ts.level := by omega
  have hwalk := walkBack_spec h hround_nonneg hround_le hdepth
  have hlowest := Lineage.isLowest_lowest h.lineage hround_le
  generalize Lineage.lowest TipSet.level (roundHeight ts.height).toInt ts l = x at hwalk hlowest
  obtain ⟨pre, post, heq, hof⟩ := h.of_mem hlowest.mem
  refine ⟨pre, x, post, heq, hof, hround ▸ hlowest.le_height, ?_⟩
  have hnear : ¬ts.height - target ≤ skipLength := fun hnear => by
    have hnear := (height_sub_le_iff hnonneg (by omega)).mp hnear
    omega
  rw [indexGetTipsetByHeight, if_neg hnear, bind_of_ok (ofExcept_of_ok hwalk cache)]

lemma indexGetTipsetByHeight_found (h : ChainOf cs g ts l) (hcache : cache.Sound cs)
    (hnonneg : 0 ≤ target.toInt) (hle : target.toInt ≤ ts.level) (hdepth : ts.level < cs.depth)
    (hgap : ¬Gap target.toInt (ts :: l)) :
    (indexGetTipsetByHeight cs ts target cache).1 =
      .ok (Lineage.lowest TipSet.level target.toInt ts l) := by
  by_cases hnear : ts.level - target.toInt ≤ 20
  · rw [indexGetTipsetByHeight, if_pos ((height_sub_le_iff hnonneg hle).mpr hnear)]
    exact walkBack_spec h hnonneg hle hdepth.le
  · obtain ⟨pre, x, post, heq, hof, hlevel, hrun⟩ :=
      indexGetTipsetByHeight_far h hnonneg (not_le.mp hnear) hdepth.le cache
    have hx : x.level ≤ ts.level := h.lineage.height_le (heq ▸ mem_append_right pre mem_cons_self)
    have hlength := hof.length_le
    have htarget : target.toInt ≤ x.level := by omega
    rw [hrun, skipLoop_found hof hcache hnonneg htarget (.inl (by omega))
      (fun hgap' => hgap (heq ▸ hgap'.of_append)) (by omega) (by omega),
      Lineage.lowest_of_append h.lineage heq htarget]

lemma indexGetTipsetByHeight_stuck (h : ChainOf cs g ts l) (hcache : cache.Sound cs)
    (hnonneg : 0 ≤ target.toInt) (hdepth : ts.level ≤ cs.depth)
    (hgap : Gap target.toInt (ts :: l)) :
    ∃ e, (indexGetTipsetByHeight cs ts target cache).1 = .error e := by
  obtain ⟨pre, u, v, post, heq, hhigh, hpos, hlow, htarget⟩ := hgap
  have hu : u.level ≤ ts.level := h.lineage.height_le (heq ▸ mem_append_right pre mem_cons_self)
  obtain ⟨pre', x, post', heq', -, hlevel, hrun⟩ :=
    indexGetTipsetByHeight_far h hnonneg (by omega) hdepth cache
  have hmem : x ∈ ts :: l := heq' ▸ mem_append_right pre' mem_cons_self
  have hx : x.level ≤ ts.level := h.lineage.height_le hmem
  obtain ⟨pre, l', hof, heq⟩ := h.of_above heq hmem (by omega)
  rw [hrun]
  exact skipLoop_stuck hof hcache heq hhigh hpos hlow htarget (by omega) _

lemma indexOrWalkBack_of_found {x : TipSet} (hle : target.toInt ≤ x.level)
    (hfound : (indexGetTipsetByHeight cs ts target cache).1 = .ok x) :
    (indexOrWalkBack cs ts target cache).1 = .ok x := by
  have hrun : indexGetTipsetByHeight cs ts target cache = (.ok x, _) := Prod.ext hfound rfl
  rw [indexOrWalkBack, bind_of_ok hrun,
    if_neg fun hlt => absurd (Int64.lt_iff_toInt_lt.mp hlt) (not_lt.mpr hle)]
  rfl

lemma getTipsetByHeight_found (h : ChainOf cs g ts l) (hnonneg : 0 ≤ target.toInt)
    (hle : target.toInt ≤ ts.level)
    (hfound : (indexGetTipsetByHeight cs ts target cache).1 =
      .ok (Lineage.lowest TipSet.level target.toInt ts l)) :
    ∃ y, (getTipsetByHeight cs target ts true cache).1 = .ok y ∧
      Lineage.IsHighest TipSet.level target.toInt (ts :: l) y := by
  have hlowest := Lineage.isLowest_lowest h.lineage hle
  generalize Lineage.lowest TipSet.level target.toInt ts l = x at hfound hlowest
  have hrun : indexOrWalkBack cs ts target cache = (.ok x, _) :=
    Prod.ext (indexOrWalkBack_of_found hlowest.le_height hfound) rfl
  rw [getTipsetByHeight, if_neg fun habove => absurd (Int64.lt_iff_toInt_lt.mp habove) hle.not_gt]
  split_ifs with hself
  · have hself : ts.level = target.toInt := (congrArg Int64.toInt hself).symm
    exact ⟨ts, rfl, .head _, hself.le, fun y hy _ => h.lineage.height_le hy⟩
  · rw [bind_of_ok hrun]
    by_cases heq : x.height = target
    · rw [if_pos (.inl heq)]
      exact ⟨x, rfl, hlowest.isHighest (congrArg Int64.toInt heq)⟩
    · rw [if_neg (by simp [heq])]
      have hlevel : x.level ≠ target.toInt := fun hlevel => heq (Int64.toInt_inj.mp hlevel)
      have hlt : target.toInt < x.level := lt_of_le_of_ne hlowest.le_height hlevel.symm
      obtain ⟨pre, post, hchain, hof⟩ := h.of_mem hlowest.mem
      obtain ⟨y, post, rfl⟩ := hof.exists_parent (by omega)
      obtain ⟨hload, -, -⟩ := hof.tail
      exact ⟨y, hload, hlowest.isHighest_parent h.lineage hchain hlevel⟩

end Lookups

inductive SkipCache.Reached (cs : ChainStore) : SkipCache → Prop where
  | empty : Reached cs fun _ => none
  | call {cache : SkipCache} (ts : TipSet) (target : Int64) : Reached cs cache →
      Reached cs (indexGetTipsetByHeight cs ts target cache).2
  | evict {cache : SkipCache} (tsk : List Cid) : Reached cs cache →
      Reached cs (Function.update cache tsk none)

lemma SkipCache.Reached.sound {cache : SkipCache} (h : SkipCache.Reached cs cache) :
    cache.Sound cs := by
  induction h with
  | empty => exact sound_empty
  | call ts target _ ih => exact (indexGetTipsetByHeight_cacheBlind ts target _ _ ih ih).2
  | evict tsk _ ih =>
    intro tsk' lbe hcached
    by_cases htsk : tsk' = tsk
    · grind
    · rw [Function.update_of_ne htsk] at hcached
      exact ih tsk' lbe hcached

/-- The plain walk finds the lowest tipset at the height or above. The skip index finds the same
one, and `GetTipsetByHeight` the highest one at the height or below, exactly if there is no gap. -/
theorem indexGetTipsetByHeight_eq_walkBack_iff {cache : SkipCache} {target : Int64}
    (h : ChainOf cs g ts l) (hcache : SkipCache.Reached cs cache) (hnonneg : 0 ≤ target.toInt)
    (hle : target.toInt ≤ ts.level) (hdepth : ts.level < cs.depth) :
    (∃ x y, walkBack cs ts target = .ok x ∧ Lineage.IsLowest TipSet.level target.toInt (ts :: l) x ∧
      (indexGetTipsetByHeight cs ts target cache).1 = .ok x ∧
      (getTipsetByHeight cs target ts true cache).1 = .ok y ∧
      Lineage.IsHighest TipSet.level target.toInt (ts :: l) y) ↔
    ¬Gap target.toInt (ts :: l) := by
  constructor
  · grind [indexGetTipsetByHeight_stuck, hcache.sound, hdepth.le]
  · intro hgap
    have hfound := indexGetTipsetByHeight_found h hcache.sound hnonneg hle hdepth hgap
    obtain ⟨y, hget, hhighest⟩ := getTipsetByHeight_found h hnonneg hle hfound
    exact ⟨_, y, walkBack_spec h hnonneg hle hdepth.le,
      Lineage.isLowest_lowest h.lineage hle, hfound, hget, hhighest⟩

def sampleSparseLow (low : Int64) : FullBlock :=
  sampleEmpty low (sampleHashing.headerCid sampleGenesis)

def sampleSparseHigh (low high : Int64) : FullBlock :=
  sampleEmpty high (sampleHashing.headerCid (sampleSparseLow low).header)

def sampleSparse (low high : Int64) : ChainStore :=
  sampleStore [sampleSparseLow low, sampleSparseHigh low high]

theorem sampleSparse_found : ∃ x y,
    walkBack (sampleSparse 5 30) (.single (sampleSparseHigh 5 30).header) 3 = .ok x ∧
    Lineage.IsLowest TipSet.level 3 [.single (sampleSparseHigh 5 30).header,
      .single (sampleSparseLow 5).header, .single sampleGenesis] x ∧
    (indexGetTipsetByHeight (sampleSparse 5 30) (.single (sampleSparseHigh 5 30).header) 3
      fun _ => none).1 = .ok x ∧
    (getTipsetByHeight (sampleSparse 5 30) 3 (.single (sampleSparseHigh 5 30).header) true
      fun _ => none).1 = .ok y ∧
    Lineage.IsHighest TipSet.level 3 [.single (sampleSparseHigh 5 30).header,
      .single (sampleSparseLow 5).header, .single sampleGenesis] y := by
  have hchain : ChainOf (sampleSparse 5 30) (.single sampleGenesis)
      (.single (sampleSparseHigh 5 30).header)
      [.single (sampleSparseLow 5).header, .single sampleGenesis] := by
    refine .link (.link (.genesis ?_ ?_ ?_) ?_ ?_ ?_) ?_ ?_ ?_ <;> decide +kernel
  have hgap : ¬Gap 3 [.single (sampleSparseHigh 5 30).header, .single (sampleSparseLow 5).header,
      .single sampleGenesis] := by
    rintro ⟨pre, u, v, post, heq, hhigh, -⟩
    have hlow : ∀ x ∈ [TipSet.single (sampleSparseHigh 5 30).header,
        .single (sampleSparseLow 5).header, .single sampleGenesis], x.level < 40 := by decide
    exact absurd (hlow u (heq ▸ mem_append_right pre mem_cons_self)) hhigh.not_gt
  exact (indexGetTipsetByHeight_eq_walkBack_iff hchain .empty (by decide) (by decide)
    (by decide)).mpr hgap

theorem sampleSparse_stuck :
    ChainOf (sampleSparse 7 65) (.single sampleGenesis) (.single (sampleSparseHigh 7 65).header)
      [.single (sampleSparseLow 7).header, .single sampleGenesis] ∧
    walkBack (sampleSparse 7 65) (.single (sampleSparseHigh 7 65).header) 7 =
      .ok (.single (sampleSparseLow 7).header) ∧
    (indexGetTipsetByHeight (sampleSparse 7 65) (.single (sampleSparseHigh 7 65).header) 7
      fun _ => none).1 = .error (.wrap "fillCache walkback"
        (.new "NewTipSet called with zero length array of blocks")) ∧
    (getTipsetByHeight (sampleSparse 7 65) 7 (.single (sampleSparseHigh 7 65).header) true
      fun _ => none).1 = .error (.wrap "fillCache walkback"
        (.new "NewTipSet called with zero length array of blocks")) := by
  refine ⟨.link (.link (.genesis ?_ ?_ ?_) ?_ ?_ ?_) ?_ ?_ ?_, ?_, ?_, ?_⟩ <;> decide +kernel

end Lotus
