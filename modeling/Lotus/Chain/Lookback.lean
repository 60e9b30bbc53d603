import Lotus.Chain.Store

/-!
# The skip cache

The skip cache of the chain index holds what `fillCache` put there, and `fillCache` only reads
stored blocks.
-/

namespace Lotus

open Act

variable (cs : ChainStore)

/-- Every entry of the cache is the one that `fillCache` computes. -/
def SkipCache.Sound (cache : SkipCache) : Prop :=
  ∀ tsk lbe, cache tsk = some lbe →
    ∃ ts, loadTipSet cs tsk = .ok ts ∧ ts.height ≠ 0 ∧ lbEntryOf cs ts = .ok lbe

def CacheBlind {α : Type} (x : Act SkipCache NodeErr α) : Prop :=
  ∀ c1 c2, SkipCache.Sound cs c1 → SkipCache.Sound cs c2 →
    (x c1).1 = (x c2).1 ∧ SkipCache.Sound cs (x c1).2

variable {cs}

lemma sound_empty : SkipCache.Sound cs fun _ => none := fun _ _ h => by cases h

namespace CacheBlind

variable {α β : Type}

lemma ofExcept (r : Except NodeErr α) : CacheBlind cs (Act.ofExcept r) := fun _ _ h1 _ => ⟨rfl, h1⟩

lemma pure (a : α) : CacheBlind cs (Pure.pure a) := fun _ _ h1 _ => ⟨rfl, h1⟩

lemma fail (e : NodeErr) : CacheBlind cs (Act.fail e : Act SkipCache NodeErr α) :=
  fun _ _ h1 _ => ⟨rfl, h1⟩

lemma mapError {x : Act SkipCache NodeErr α} (hx : CacheBlind cs x) (f : NodeErr → NodeErr) :
    CacheBlind cs (x.mapError f) := by
  intro c1 c2 h1 h2
  obtain ⟨hres, hsound⟩ := hx c1 c2 h1 h2
  exact ⟨congrArg (Except.mapError f) hres, hsound⟩

lemma bind {x : Act SkipCache NodeErr α} {f : α → Act SkipCache NodeErr β}
    (hx : CacheBlind cs x) (hf : ∀ a, CacheBlind cs (f a)) : CacheBlind cs (x >>= f) := by
  intro c1 c2 h1 h2
  obtain ⟨hres, hsound1⟩ := hx c1 c2 h1 h2
  have hsound2 := (hx c2 c1 h2 h1).2
  rcases hx1 : x c1 with ⟨e | a, c1'⟩
  · grind [Prod.ext, bind_of_error]
  · rw [hx1] at hres hsound1
    have hx2 : x c2 = (.ok a, (x c2).2) := Prod.ext hres.symm rfl
    rw [bind_of_ok hx1, bind_of_ok hx2]
    exact hf a c1' _ hsound1 hsound2

end CacheBlind

/-- What `fillCache` answers. -/
def freshLbEntry (cs : ChainStore) (tsk : List Cid) : Except NodeErr LbEntry := do
  let ts ← loadTipSet cs tsk
  if ts.height = 0 then .ok ⟨ts, 0, 0, []⟩ else lbEntryOf cs ts

lemma fillCache_spec {cache : SkipCache} (h : SkipCache.Sound cs cache) (tsk : List Cid) :
    (fillCache cs tsk cache).1 = freshLbEntry cs tsk ∧
      SkipCache.Sound cs (fillCache cs tsk cache).2 := by
  rw [fillCache, freshLbEntry]
  rcases hload : loadTipSet cs tsk with e | ts
  · exact ⟨rfl, h⟩
  rw [bind_of_ok (ofExcept_of_ok rfl cache)]
  by_cases hzero : ts.height = 0
  · rw [if_pos hzero]
    refine ⟨?_, h⟩
    show _ = if ts.height = 0 then _ else _
    rw [if_pos hzero]
    rfl
  rw [if_neg hzero]
  have hfresh : ((.ok ts : Except NodeErr TipSet) >>= fun ts =>
      if ts.height = 0 then .ok ⟨ts, 0, 0, []⟩ else lbEntryOf cs ts) = lbEntryOf cs ts :=
    if_neg hzero
  rw [hfresh]
  rcases hentry : lbEntryOf cs ts with e | lbe
  · exact ⟨rfl, h⟩
  · refine ⟨rfl, fun tsk' lbe' hcached => ?_⟩
    have hupdate : Function.update cache tsk (some lbe) tsk' = some lbe' := hcached
    by_cases htsk : tsk' = tsk
    · grind
    · rw [Function.update_of_ne htsk] at hupdate
      exact h tsk' lbe' hupdate

/-- A cached entry is the one that would be filled in. -/
lemma lbEntryFor_spec {cache : SkipCache} (h : SkipCache.Sound cs cache) (cur : List Cid) :
    (lbEntryFor cs cur cache).1 = freshLbEntry cs cur ∧
      SkipCache.Sound cs (lbEntryFor cs cur cache).2 := by
  rw [lbEntryFor, bind_of_ok (get_apply cache)]
  rcases hcur : cache cur with - | lbe
  · exact fillCache_spec h cur
  · obtain ⟨ts, hload, hne, hentry⟩ := h cur lbe hcur
    refine ⟨?_, h⟩
    rw [freshLbEntry, hload]
    show _ = if ts.height = 0 then _ else _
    rw [if_neg hne, hentry]
    rfl

lemma lbEntryFor_cacheBlind (cur : List Cid) : CacheBlind cs (lbEntryFor cs cur) := by
  intro c1 c2 h1 h2
  grind [lbEntryFor_spec]

lemma skipLoop_cacheBlind (target : Int64) (n : ℕ) (cur : List Cid) :
    CacheBlind cs (skipLoop cs target n cur) := by
  induction n generalizing cur with
  | zero => exact .fail _
  | succ n ih =>
    refine (lbEntryFor_cacheBlind cur).bind fun lbe => ?_
    split_ifs
    · exact .pure _
    · exact .ofExcept _
    · exact ih _

lemma indexGetTipsetByHeight_cacheBlind (ts : TipSet) (h : Int64) :
    CacheBlind cs (indexGetTipsetByHeight cs ts h) := by
  unfold indexGetTipsetByHeight
  split_ifs
  · exact .ofExcept _
  · exact (CacheBlind.ofExcept _).bind fun rounded => skipLoop_cacheBlind _ _ _

lemma getTipsetByHeight_cacheBlind (h : Int64) (ts : TipSet) (prev : Bool) :
    CacheBlind cs (getTipsetByHeight cs h ts prev) := by
  unfold getTipsetByHeight
  split_ifs
  · exact .fail _
  · exact .pure _
  · refine ((indexGetTipsetByHeight_cacheBlind ts h).bind fun lbts => ?_).bind fun lbts => ?_
    · split_ifs
      · exact .ofExcept _
      · exact .pure _
    · split_ifs
      · exact .pure _
      · exact .ofExcept _

lemma getLookbackTipSetForRound_cacheBlind (ts : TipSet) (round : Int64) :
    CacheBlind cs (getLookbackTipSetForRound cs ts round) := by
  unfold getLookbackTipSetForRound
  split_ifs
  · exact .pure _
  · exact (getTipsetByHeight_cacheBlind _ ts true).mapError _

end Lotus
