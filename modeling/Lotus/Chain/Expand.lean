import Lotus.Chain.Ancestry
import Lotus.Chain.Validate
import Lotus.Lib.Select

/-!
# Tipset expansion

`AddToTipSetTracker` and `expandTipset` of `chain/store/store.go`.
-/

namespace Lotus

open List Function

def cidArrsEqual (a b : List Cid) : Bool := a.length = b.length ∧ ∀ c ∈ b, c ∈ a

/-- `ChainStore.tipsets`: the CIDs of the tracked blocks by height. -/
abbrev TipSetTracker := Int64 → List Cid

def addToTipSetTracker (hashing : Hashing) (b : BlockHeader) (tipsets : TipSetTracker) :
    TipSetTracker :=
  if hashing.headerCid b ∈ tipsets b.height then tipsets
  else update tipsets b.height (tipsets b.height ++ [hashing.headerCid b])

section

variable (cs : ChainStore)

/-- The loop of `expandTipset`. -/
def expandLoop (b : BlockHeader) : List Cid → List BlockHeader → List Address →
    Except NodeErr (List BlockHeader)
  | [], all, _ => .ok all
  | bhc :: tsets, all, inclMiners =>
    if bhc = cs.hashing.headerCid b then expandLoop b tsets all inclMiners
    else do
      let h ← (cs.getBlock bhc).mapError
        (.wrap "failed to load block (%s) for tipset expansion")
      if h.miner ∈ inclMiners then expandLoop b tsets all inclMiners
      else if cidArrsEqual h.parents b.parents then
        expandLoop b tsets (all ++ [h]) (h.miner :: inclMiners)
      else expandLoop b tsets all inclMiners

def expandTipset (tipsets : TipSetTracker) (b : BlockHeader) : Except NodeErr TipSet := do
  let all ← expandLoop cs b (tipsets b.height) [b] [b.miner]
  newTipSet cs.hashing all

end

/-! ## What is put together -/

variable {cs : ChainStore} {tipsets : TipSetTracker} {tracked : Int64 → List BlockHeader}
  {b : BlockHeader}

/-- The tracker has the CIDs of the blocks in `tracked`, which are stored. -/
structure Tracks (cs : ChainStore) (tipsets : TipSetTracker)
    (tracked : Int64 → List BlockHeader) : Prop where
  cids_eq : ∀ h, tipsets h = (tracked h).map cs.hashing.headerCid
  height_eq : ∀ h, ∀ x ∈ tracked h, x.height = h
  stored : ∀ h, ∀ x ∈ tracked h, BlockStored cs x

variable {x : BlockHeader}

lemma BlockStored.cid_inj {y : BlockHeader} (hx : BlockStored cs x) (hy : BlockStored cs y)
    (hcid : cs.hashing.headerCid x = cs.hashing.headerCid y) : x = y := by
  rw [BlockStored, hcid] at hx
  exact Except.ok.inj (hx.symm.trans hy)

lemma tracks_empty (cs : ChainStore) : Tracks cs (fun _ => []) fun _ => [] :=
  ⟨fun _ => rfl, fun _ => forall_mem_nil _, fun _ => forall_mem_nil _⟩

lemma mem_update_append {n : Int64} : x ∈ update tracked b.height (tracked b.height ++ [b]) n ↔
      x ∈ tracked n ∨ x = b ∧ n = b.height := by
  grind

lemma Tracks.add_new (h : Tracks cs tipsets tracked) (hb : BlockStored cs b)
    (hnew : cs.hashing.headerCid b ∉ tipsets b.height) :
    Tracks cs (addToTipSetTracker cs.hashing b tipsets)
      (update tracked b.height (tracked b.height ++ [b])) := by
  rw [addToTipSetTracker, if_neg hnew]
  refine ⟨fun n => ?_, fun n x hx => ?_, fun n x hx => ?_⟩
  · by_cases hn : n = b.height
    · rw [hn, update_self, update_self, h.cids_eq, map_append]
      rfl
    · rw [update_of_ne hn, update_of_ne hn, h.cids_eq]
  · grind [mem_update_append, h.height_eq]
  · grind [mem_update_append, h.stored]

lemma Tracks.add (h : Tracks cs tipsets tracked) (hb : BlockStored cs b) :
    ∃ tracked', Tracks cs (addToTipSetTracker cs.hashing b tipsets) tracked' ∧
      ∀ n x, x ∈ tracked' n ↔ x ∈ tracked n ∨ x = b ∧ n = b.height := by
  by_cases hmem : cs.hashing.headerCid b ∈ tipsets b.height
  · rw [addToTipSetTracker, if_pos hmem]
    refine ⟨tracked, h, fun n x => (or_iff_left_of_imp ?_).symm⟩
    rintro ⟨rfl, rfl⟩
    rw [h.cids_eq] at hmem
    obtain ⟨y, hy, hcid⟩ := mem_map.mp hmem
    exact (h.stored _ y hy).cid_inj hb hcid ▸ hy
  · exact ⟨_, h.add_new hb hmem, fun n x => mem_update_append⟩

lemma mem_of_expandLoop {cids : List Cid} {all out : List BlockHeader} {inclMiners : List Address}
    (h : expandLoop cs b cids all inclMiners = .ok out) (hx : x ∈ out) :
    x ∈ all ∨ ∃ c ∈ cids, cs.getBlock c = .ok x := by
  induction cids generalizing all inclMiners with
  | nil =>
    cases h
    exact .inl hx
  | cons bhc cids ih =>
    have hrest {all : List BlockHeader} {inclMiners : List Address}
        (h : expandLoop cs b cids all inclMiners = .ok out) :
        x ∈ all ∨ ∃ c ∈ bhc :: cids, cs.getBlock c = .ok x :=
      (ih h).imp_right fun ⟨c, hc, hget⟩ => ⟨c, mem_cons_of_mem bhc hc, hget⟩
    rw [expandLoop] at h
    split_ifs at h
    · exact hrest h
    · obtain ⟨y, hget, h⟩ := Check.bind_eq_ok.mp h
      split_ifs at h
      · exact hrest h
      · rcases hrest h with hall | hmore
        · refine (mem_append.mp hall).imp_right fun hy => ?_
          rw [mem_singleton.mp hy]
          exact ⟨bhc, .head _, Check.mapError_eq_ok.mp hget⟩
        · exact .inr hmore
      · exact hrest h

/-- The tracked blocks that `CidArrsEqual` puts with `b`. -/
def candidates (b : BlockHeader) (hs : List BlockHeader) : List BlockHeader :=
  hs.filter fun h => cidArrsEqual h.parents b.parents

lemma expandLoop_spec {hs : List BlockHeader} (hstored : ∀ x ∈ hs, BlockStored cs x)
    (all : List BlockHeader) {inclMiners : List Address} (hb : BlockStored cs b)
    (hincl : b.miner ∈ inclMiners) :
    expandLoop cs b (hs.map cs.hashing.headerCid) all inclMiners =
      .ok (all ++ Select.firsts BlockHeader.miner inclMiners (candidates b hs)) := by
  induction hs generalizing all inclMiners with
  | nil => exact congrArg Except.ok (append_nil all).symm
  | cons h hs ih =>
    have hh := hstored h mem_cons_self
    have hstored : ∀ x ∈ hs, BlockStored cs x := fun x hx => hstored x (mem_cons_of_mem h hx)
    rw [map_cons, expandLoop, candidates, filter_cons]
    by_cases hself : cs.hashing.headerCid h = cs.hashing.headerCid b
    · -- the block itself is not added again, which its miner would prevent as well
      have hself' : h.miner ∈ inclMiners := (hh.cid_inj hb hself) ▸ hincl
      rw [if_pos hself, ih hstored all hincl]
      split_ifs
      · rw [Select.firsts, if_pos hself']
        rfl
      · rfl
    · rw [if_neg hself, hh]
      show (if h.miner ∈ inclMiners then _ else _) = _
      by_cases hold : h.miner ∈ inclMiners
      · rw [if_pos hold, ih hstored all hincl]
        split_ifs
        · rw [Select.firsts, if_pos hold]
          rfl
        · rfl
      · rw [if_neg hold]
        split_ifs with hequal
        · rw [Select.firsts, if_neg hold, ih hstored _ (.tail _ hincl), append_assoc]
          rfl
        · exact ih hstored all hincl

/-- The blocks that the expansion of `b` goes with. -/
def expansion (tracked : Int64 → List BlockHeader) (b : BlockHeader) : List BlockHeader :=
  b :: Select.firsts BlockHeader.miner [b.miner] (candidates b (tracked b.height))

lemma expandTipset_eq (h : Tracks cs tipsets tracked) (hb : BlockStored cs b) :
    expandTipset cs tipsets b = newTipSet cs.hashing (expansion tracked b) := by
  rw [expandTipset, h.cids_eq, expandLoop_spec (h.stored b.height) [b] hb (mem_singleton_self _)]
  rfl

lemma mem_expansion : x ∈ expansion tracked b ↔
    x = b ∨ x.miner ≠ b.miner ∧ cidArrsEqual x.parents b.parents = true ∧
      ∃ pre post, tracked b.height = pre ++ x :: post ∧
        ∀ y ∈ pre, y.miner = x.miner → cidArrsEqual y.parents b.parents = false := by
  rw [expansion, mem_cons, candidates, Select.mem_firsts_filter_iff, mem_singleton]

lemma eq_or_mem_tracked_of_mem_expansion (hx : x ∈ expansion tracked b) :
    x = b ∨ x ∈ tracked b.height := by
  refine (mem_expansion.mp hx).imp_right ?_
  grind

lemma mem_tracked_of_mem_expansion (hb : b ∈ tracked b.height) (hx : x ∈ expansion tracked b) :
    x ∈ tracked b.height := by
  grind [eq_or_mem_tracked_of_mem_expansion]

lemma nodup_miners_expansion (tracked : Int64 → List BlockHeader) (b : BlockHeader) :
    ((expansion tracked b).map BlockHeader.miner).Nodup := by
  rw [expansion, map_cons, nodup_cons]
  refine ⟨fun hmem => ?_, Select.nodup_map_firsts _ _ _⟩
  obtain ⟨x, hx, hminer⟩ := mem_map.mp hmem
  exact Select.not_mem_of_mem_firsts hx (hminer ▸ mem_singleton_self _)

lemma exists_mem_expansion (hx : x ∈ tracked b.height)
    (hequal : cidArrsEqual x.parents b.parents = true) :
    ∃ y ∈ expansion tracked b, y.miner = x.miner := by
  by_cases hminer : x.miner = b.miner
  · exact ⟨b, .head _, hminer.symm⟩
  · have hmem : x ∈ candidates b (tracked b.height) := mem_filter.mpr ⟨hx, hequal⟩
    have hnew : x.miner ∉ [b.miner] := fun hold => hminer (mem_singleton.mp hold)
    obtain ⟨y, hy, hkey⟩ := Select.exists_mem_firsts hmem hnew
    exact ⟨y, mem_cons_of_mem b hy, hkey⟩

/-! ## Good expansions -/

def SameParents (x b : BlockHeader) : Prop := ∀ c, c ∈ x.parents ↔ c ∈ b.parents

/-- The tipset is what the expansion of `b` is for. -/
structure Expanded (hs : List BlockHeader) (b : BlockHeader) (ts : TipSet) : Prop where
  mem : b ∈ ts.blocks
  height_eq : ∀ x ∈ ts.blocks, x.height = b.height
  sameParents : ∀ x ∈ ts.blocks, SameParents x b
  nodup_miners : (ts.blocks.map BlockHeader.miner).Nodup
  complete : ∀ x ∈ hs, SameParents x b → x ∉ ts.blocks → ∃ y ∈ ts.blocks, y.miner = x.miner

/-- The first candidate of every other miner lists the parents just as `b` does, with a ticket to
sort it by. Every other miner with the same set of parents has a candidate. -/
structure Expandable (hs : List BlockHeader) (b : BlockHeader) : Prop where
  parents_eq : ∀ pre x post, hs = pre ++ x :: post → x.miner ≠ b.miner →
    cidArrsEqual x.parents b.parents = true →
    (∀ y ∈ pre, y.miner = x.miner → cidArrsEqual y.parents b.parents = false) →
    x.parents = b.parents ∧ x.ticket.isSome ∧ b.ticket.isSome
  represented : ∀ x ∈ hs, SameParents x b → x.miner ≠ b.miner →
    ∃ y ∈ hs, y.miner = x.miner ∧ cidArrsEqual y.parents b.parents = true

lemma exists_newTipSet_expansion_iff (h : Tracks cs tipsets tracked) (hb : b ∈ tracked b.height) :
    (∃ ts, newTipSet cs.hashing (expansion tracked b) = .ok ts) ↔ ∀ x ∈ expansion tracked b, x ≠ b →
        x.parents = b.parents ∧ x.ticket.isSome ∧ b.ticket.isSome := by
  have hself : b ∈ expansion tracked b := mem_cons_self
  rw [exists_newTipSet_iff hself]
  constructor
  · grind [length_eq_one_iff, le_antisymm, length_pos_of_mem, mem_singleton]
  · intro hgood
    refine ⟨fun hlength x hx => ?_, fun x hx => ⟨?_, ?_⟩⟩
    · by_cases hxb : x = b
      · -- there is another block, which `b` is sorted with
        rw [expansion, length_cons] at hlength
        obtain ⟨y, hy⟩ := exists_mem_of_length_pos (Nat.le_of_succ_le_succ hlength)
        have hyb : y ≠ b := by
          rintro rfl
          exact Select.not_mem_of_mem_firsts hy (mem_singleton_self _)
        exact hxb ▸ (hgood y (mem_cons_of_mem b hy) hyb).2.2
      · exact (hgood x hx hxb).2.1
    · exact h.height_eq _ x (mem_tracked_of_mem_expansion hb hx)
    · grind

/-- `expandTipset` makes a tipset of the block with one block of every other miner over the same
parents exactly if the block is expandable. -/
theorem expandTipset_expanded_iff (h : Tracks cs tipsets tracked) (hb : b ∈ tracked b.height) :
    (∃ ts, expandTipset cs tipsets b = .ok ts ∧ Expanded (tracked b.height) b ts) ↔
      Expandable (tracked b.height) b := by
  rw [expandTipset_eq h (h.stored _ b hb)]
  have hself : b ∈ expansion tracked b := mem_cons_self
  constructor
  · rintro ⟨ts, hts, hexpanded⟩
    have hgood := (exists_newTipSet_expansion_iff h hb).mp ⟨ts, hts⟩
    have hmem {x : BlockHeader} : x ∈ ts.blocks ↔ x ∈ expansion tracked b := by
      rw [newTipSet_blocks hts, mem_sortBlocks]
    refine ⟨fun pre x post heq hminer hequal hfirst => ?_, fun x hx hsame hminer => ?_⟩
    · grind [mem_expansion]
    · obtain ⟨y, hy, hyx⟩ : ∃ y ∈ ts.blocks, y.miner = x.miner := by
        by_cases hxts : x ∈ ts.blocks <;> grind [hexpanded.complete]
      rcases mem_expansion.mp (hmem.mp hy) with rfl | ⟨-, hequal, -⟩
      · exact absurd hyx.symm hminer
      · exact ⟨y, mem_tracked_of_mem_expansion hb (hmem.mp hy), hyx, hequal⟩
  · intro hexpandable
    have hgood : ∀ x ∈ expansion tracked b, x ≠ b →
        x.parents = b.parents ∧ x.ticket.isSome ∧ b.ticket.isSome := by
      intro x hx hne
      rcases mem_expansion.mp hx with hxb | ⟨hminer, hequal, pre, post, heq, hfirst⟩
      · exact absurd hxb hne
      · exact hexpandable.parents_eq pre x post heq hminer hequal hfirst
    obtain ⟨ts, hts⟩ := (exists_newTipSet_expansion_iff h hb).mpr hgood
    have hblocks : ts.blocks = sortBlocks cs.hashing (expansion tracked b) := newTipSet_blocks hts
    have hmem {x : BlockHeader} : x ∈ ts.blocks ↔ x ∈ expansion tracked b := by
      rw [hblocks, mem_sortBlocks]
    refine ⟨ts, hts, hmem.mpr hself, fun x hx => ?_, fun x hx c => ?_, ?_, fun x hx hsame _ => ?_⟩
    · exact h.height_eq _ x (mem_tracked_of_mem_expansion hb (hmem.mp hx))
    · by_cases hxb : x = b
      · rw [hxb]
      · rw [(hgood x (hmem.mp hx) hxb).1]
    · rw [hblocks]
      exact ((perm_insertionSort _ _).map _).nodup_iff.mpr (nodup_miners_expansion tracked b)
    · obtain ⟨y, hy, hyx⟩ : ∃ y ∈ expansion tracked b, y.miner = x.miner := by
        by_cases hminer : x.miner = b.miner
        · exact ⟨b, hself, hminer.symm⟩
        · obtain ⟨z, hz, hzx, hequal⟩ := hexpandable.represented x hx hsame hminer
          obtain ⟨y, hy, hyz⟩ := exists_mem_expansion hz hequal
          exact ⟨y, hy, hyz.trans hzx⟩
      exact ⟨y, hmem.mpr hy, hyx⟩

def sampleKey : List Cid := [.id 1000, .id 1001].map fun miner =>
  sampleHashing.headerCid (sampleHeader miner [])

def sampleOver (miner : Address) (parents : List Cid) : FullBlock :=
  ⟨{ sampleHeader miner [] with height := 2, parents }, [], [], FullBlock.no_messages_lt⟩

def sampleTracker (parents parents' : List Cid) : TipSetTracker :=
  addToTipSetTracker sampleHashing (sampleOver (.id 1001) parents').header
    (addToTipSetTracker sampleHashing (sampleOver (.id 1000) parents).header fun _ => [])

def sampleTrackerStore (parents parents' : List Cid) : ChainStore :=
  sampleStore [sampleOver (.id 1000) parents, sampleOver (.id 1001) parents']

theorem sampleKey_expanded : ∃ ts,
    expandTipset (sampleTrackerStore sampleKey sampleKey) (sampleTracker sampleKey sampleKey)
      (sampleOver (.id 1000) sampleKey).header = .ok ts ∧
    Expanded [(sampleOver (.id 1000) sampleKey).header, (sampleOver (.id 1001) sampleKey).header]
      (sampleOver (.id 1000) sampleKey).header ts := by
  have htracks : Tracks (sampleTrackerStore sampleKey sampleKey)
      (sampleTracker sampleKey sampleKey) _ :=
    ((tracks_empty _).add_new (by decide +kernel) (by decide +kernel)).add_new
      (by decide +kernel) (by decide +kernel)
  have hheight : (sampleOver (.id 1000) sampleKey).header.height =
      (sampleOver (.id 1001) sampleKey).header.height := rfl
  have hexpand := expandTipset_expanded_iff htracks
    (b := (sampleOver (.id 1000) sampleKey).header) (by decide +kernel)
  rw [hheight, update_self, ← hheight, update_self] at hexpand
  refine hexpand.mpr ⟨?_, ?_⟩
  · intro pre x post heq hminer _ _
    have hx : x ∈ [] ++ [(sampleOver (.id 1000) sampleKey).header] ++
        [(sampleOver (.id 1001) sampleKey).header] :=
      heq ▸ mem_append_right pre mem_cons_self
    rcases mem_pair.mp hx with rfl | rfl
    · cases hminer rfl
    · decide +kernel
  · intro x hx _ _
    have hcandidates : ∀ x ∈ [(sampleOver (.id 1000) sampleKey).header,
        (sampleOver (.id 1001) sampleKey).header],
        cidArrsEqual x.parents (sampleOver (.id 1000) sampleKey).header.parents = true := by
      decide +kernel
    exact ⟨x, hx, rfl, hcandidates x hx⟩

/-- With the parents in the other order there is no tipset. With one of them repeated the second
block is left out. -/
theorem sampleKey_not_expanded : expandTipset (sampleTrackerStore sampleKey sampleKey.reverse)
      (sampleTracker sampleKey sampleKey.reverse) (sampleOver (.id 1000) sampleKey).header =
        .error (.new "cannot create tipset with mismatching parents") ∧
    expandTipset (sampleTrackerStore sampleKey (sampleKey ++ sampleKey))
      (sampleTracker sampleKey (sampleKey ++ sampleKey)) (sampleOver (.id 1000) sampleKey).header =
        .ok (.single (sampleOver (.id 1000) sampleKey).header) := by
  constructor <;> decide +kernel

end Lotus
