import Lotus.Chain.Store
import Lotus.Lib.Check
import Lotus.Lib.Lineage

/-!
# Chains of stored tipsets

The chain of a tipset is its lineage in the store: its parent, the parent of that, and so on down to
a genesis at height 0, with any null rounds in between.
-/

namespace Lotus

open List

def Stored (cs : ChainStore) (ts : TipSet) : Prop :=
  loadTipSet cs (ts.cids cs.hashing) = .ok ts
deriving Decidable

def parentOf (cs : ChainStore) (ts : TipSet) : Option TipSet :=
  (loadTipSet cs ts.parents).toOption

def TipSet.level (ts : TipSet) : ℤ := ts.height.toInt

/-- The tipsets `l` are the ancestors of `ts` in the store, from its parent on down to the genesis
`g`. -/
structure ChainOf (cs : ChainStore) (g ts : TipSet) (l : List TipSet) : Prop where
  lineage : Lineage.Of (parentOf cs) TipSet.level ts l
  stored : ∀ x ∈ ts :: l, Stored cs x
  last : (ts :: l).getLast? = some g
  height_zero : g.height = 0
  parentless : g.parents = []

variable {cs : ChainStore} {g ts : TipSet} {l : List TipSet}

lemma parentOf_eq_some {pts : TipSet} :
    parentOf cs ts = some pts ↔ loadTipSet cs ts.parents = .ok pts := by
  unfold parentOf
  rcases loadTipSet cs ts.parents with e | x <;>
    simp [Except.toOption, Option.some.injEq, Except.ok.injEq]

lemma loadTipSet_nil (cs : ChainStore) :
    loadTipSet cs [] = .error (.new "NewTipSet called with zero length array of blocks") := rfl

namespace ChainOf

lemma genesis (hstored : Stored cs g) (hzero : g.height = 0) (hparents : g.parents = []) :
    ChainOf cs g g [] where
  lineage := by
    apply Lineage.Of.root
    rw [parentOf, hparents, loadTipSet_nil]
    rfl
  stored x hx := by
    rwa [mem_singleton.mp hx]
  last := rfl
  height_zero := hzero
  parentless := hparents

lemma link {pts : TipSet} (h : ChainOf cs g pts l) (hstored : Stored cs ts)
    (hload : loadTipSet cs ts.parents = .ok pts) (hlt : pts.level < ts.level) :
    ChainOf cs g ts (pts :: l) where
  lineage := .link (parentOf_eq_some.mpr hload) hlt h.lineage
  stored x hx := by
    grind [h.stored]
  last := by
    rw [getLast?_cons_cons]
    exact h.last
  height_zero := h.height_zero
  parentless := h.parentless

lemma of_append (h : ChainOf cs g ts l) {pre post : List TipSet} {x : TipSet}
    (heq : ts :: l = pre ++ x :: post) : ChainOf cs g x post where
  lineage := h.lineage.of_append heq
  stored y hy := h.stored y (heq ▸ mem_append_right pre hy)
  last := by
    have hlast := h.last
    grind
  height_zero := h.height_zero
  parentless := h.parentless

lemma of_mem (h : ChainOf cs g ts l) {x : TipSet} (hx : x ∈ ts :: l) :
    ∃ pre post, ts :: l = pre ++ x :: post ∧ ChainOf cs g x post := by
  obtain ⟨pre, post, heq⟩ := append_of_mem hx
  exact ⟨pre, post, heq, h.of_append heq⟩

lemma genesis_mem (h : ChainOf cs g ts l) : g ∈ ts :: l := mem_of_getLast? h.last

lemma genesis_level (h : ChainOf cs g ts l) : g.level = 0 := by
  rw [TipSet.level, h.height_zero]
  rfl

lemma level_nonneg (h : ChainOf cs g ts l) : 0 ≤ ts.level :=
  h.genesis_level ▸ h.lineage.height_le h.genesis_mem

lemma eq_genesis (h : ChainOf cs g ts []) : ts = g := Option.some.inj h.last

lemma tail {pts : TipSet} (h : ChainOf cs g ts (pts :: l)) :
    loadTipSet cs ts.parents = .ok pts ∧ pts.level < ts.level ∧ ChainOf cs g pts l := by
  have hchain : ChainOf cs g pts l := h.of_append (singleton_append (l := pts :: l)).symm
  cases h.lineage with
  | link hparent hlt _ => exact ⟨parentOf_eq_some.mp hparent, hlt, hchain⟩

lemma exists_parent (h : ChainOf cs g ts l) (hlevel : 0 < ts.level) : ∃ pts l', l = pts :: l' := by
  cases l with
  | nil => grind [h.eq_genesis, h.genesis_level, lt_irrefl]
  | cons pts l' => exact ⟨pts, l', rfl⟩

lemma length_le (h : ChainOf cs g ts l) : (l.length : ℤ) ≤ ts.level := by
  induction l generalizing ts with
  | nil => exact h.level_nonneg
  | cons pts l ih => grind [h.tail, length_cons]

end ChainOf

/-! ## More blocks -/

lemma loadTipSet_eq_ok {tsk : List Cid} : loadTipSet cs tsk = .ok ts ↔
    ∃ blks, List.Forall₂ (fun c b => cs.getBlock c = .ok b) tsk blks ∧
      newTipSet cs.hashing blks = .ok ts := by
  rw [loadTipSet, Check.bind_eq_ok]
  simp only [Check.mapM_eq_ok, Check.mapError_eq_ok]

def BlockStored (cs : ChainStore) (b : BlockHeader) : Prop :=
  cs.getBlock (cs.hashing.headerCid b) = .ok b
deriving Decidable

lemma stored_of_newTipSet (hsum : Function.Injective cs.hashing.sum256) {blks : List BlockHeader}
    (hblks : ∀ b ∈ blks, BlockStored cs b) (h : newTipSet cs.hashing blks = .ok ts) :
    Stored cs ts := by
  have hmem : ∀ b ∈ ts.blocks, BlockStored cs b := fun b hb => by
    rw [newTipSet_blocks h, mem_sortBlocks] at hb
    exact hblks b hb
  refine loadTipSet_eq_ok.mpr ⟨ts.blocks, ?_, newTipSet_blocks_self hsum h⟩
  rw [TipSet.cids, forall₂_map_left_iff]
  exact forall₂_same.mpr hmem

/-- The store `cs'` has the blocks of `cs`, and maybe more. -/
structure KeepsBlocks (cs cs' : ChainStore) : Prop where
  hashing_eq : cs'.hashing = cs.hashing
  getBlock_ok : ∀ c b, cs.getBlock c = .ok b → cs'.getBlock c = .ok b

namespace KeepsBlocks

variable {cs' : ChainStore}

lemma refl (cs : ChainStore) : KeepsBlocks cs cs := ⟨rfl, fun _ _ h => h⟩

lemma trans {cs'' : ChainStore} (h : KeepsBlocks cs cs') (h' : KeepsBlocks cs' cs'') :
    KeepsBlocks cs cs'' :=
  ⟨h'.hashing_eq.trans h.hashing_eq, fun c b hb => h'.getBlock_ok c b (h.getBlock_ok c b hb)⟩

lemma loadTipSet (h : KeepsBlocks cs cs') {tsk : List Cid}
    (hload : Lotus.loadTipSet cs tsk = .ok ts) : Lotus.loadTipSet cs' tsk = .ok ts := by
  obtain ⟨blks, hblks, hts⟩ := loadTipSet_eq_ok.mp hload
  exact loadTipSet_eq_ok.mpr ⟨blks, hblks.imp fun c b => h.getBlock_ok c b, h.hashing_eq ▸ hts⟩

lemma blockStored (h : KeepsBlocks cs cs') {b : BlockHeader} (hb : BlockStored cs b) :
    BlockStored cs' b := by
  rw [BlockStored, h.hashing_eq]
  exact h.getBlock_ok _ b hb

lemma stored (h : KeepsBlocks cs cs') (hts : Stored cs ts) : Stored cs' ts := by
  rw [Stored, h.hashing_eq]
  exact h.loadTipSet hts

lemma chainOf (h : KeepsBlocks cs cs') (hchain : ChainOf cs g ts l) : ChainOf cs' g ts l := by
  have hstored : ∀ x ∈ ts :: l, Stored cs' x := fun x hx => h.stored (hchain.stored x hx)
  induction l generalizing ts with
  | nil =>
    obtain rfl := hchain.eq_genesis
    exact .genesis (hstored ts mem_cons_self) hchain.height_zero hchain.parentless
  | cons pts l ih =>
    obtain ⟨hload, hlt, htail⟩ := hchain.tail
    exact (ih htail fun x hx => hstored x (mem_cons_of_mem ts hx)).link
      (hstored ts mem_cons_self) (h.loadTipSet hload) hlt

end KeepsBlocks

lemma walkBackLoop_spec (h : ChainOf cs g ts l) {target : Int64} (hnonneg : 0 ≤ target.toInt)
    (hlt : target.toInt < ts.level) {n : ℕ} (hn : l.length ≤ n) :
    walkBackLoop cs target n ts = .ok (Lineage.lowest TipSet.level target.toInt ts l) := by
  induction l generalizing ts n with
  | nil =>
    rw [h.eq_genesis, h.genesis_level] at hlt
    omega
  | cons pts l ih =>
    obtain ⟨hload, -, hchain⟩ := h.tail
    obtain ⟨n, rfl⟩ := Nat.exists_eq_succ_of_ne_zero (Nat.ne_zero_of_lt hn)
    rw [walkBackLoop, hload]
    show (if target > pts.height then _ else _) = _
    rcases lt_trichotomy target.toInt pts.level with hbelow | hlevel | habove
    · rw [if_neg fun h => absurd (Int64.lt_iff_toInt_lt.mp h) hbelow.not_gt,
        if_neg fun h => absurd (congrArg Int64.toInt h) hbelow.ne, Lineage.lowest,
        if_pos hbelow.le]
      exact ih hchain hbelow (Nat.le_of_succ_le_succ hn)
    · rw [if_neg fun h => absurd (Int64.lt_iff_toInt_lt.mp h) hlevel.not_gt,
        if_pos (Int64.toInt_inj.mp hlevel), Lineage.lowest, if_pos hlevel.le, hlevel,
        Lineage.lowest_self hchain.lineage]
    · rw [if_pos (Int64.lt_iff_toInt_lt.mpr habove), Lineage.lowest, if_neg habove.not_ge]

lemma walkBack_spec (h : ChainOf cs g ts l) {target : Int64} (hnonneg : 0 ≤ target.toInt)
    (hle : target.toInt ≤ ts.level) (hdepth : ts.level ≤ cs.depth) :
    walkBack cs ts target = .ok (Lineage.lowest TipSet.level target.toInt ts l) := by
  rw [walkBack, if_neg fun habove => absurd (Int64.lt_iff_toInt_lt.mp habove) (not_lt.mpr hle)]
  split_ifs with heq
  · have hlevel : target.toInt = ts.level := congrArg Int64.toInt heq
    rw [hlevel, Lineage.lowest_self h.lineage]
  · have hlt : target.toInt < ts.level :=
      lt_of_le_of_ne hle fun hlevel => heq (Int64.toInt_inj.mp hlevel)
    have hlength := h.length_le
    exact walkBackLoop_spec h hnonneg hlt (by omega)

lemma walkBackLoop_of_neg (h : ChainOf cs g ts l) {target : Int64} (hneg : target.toInt < 0)
    (n : ℕ) : ∃ e, walkBackLoop cs target n ts = .error e := by
  induction n generalizing ts l with
  | zero => exact ⟨_, rfl⟩
  | succ n ih =>
    cases l with
    | nil =>
      rw [h.eq_genesis, walkBackLoop, h.parentless, loadTipSet_nil]
      exact ⟨_, rfl⟩
    | cons pts l =>
      obtain ⟨hload, -, hchain⟩ := h.tail
      have hlt : target.toInt < pts.level := hneg.trans_le hchain.level_nonneg
      rw [walkBackLoop, hload]
      show ∃ e, (if target > pts.height then _ else _) = _
      rw [if_neg fun habove => absurd (Int64.lt_iff_toInt_lt.mp habove) hlt.not_gt,
        if_neg fun heq => absurd (congrArg Int64.toInt heq) hlt.ne]
      exact ih hchain

lemma walkBack_of_neg (h : ChainOf cs g ts l) {target : Int64} (hneg : target.toInt < 0) :
    ∃ e, walkBack cs ts target = .error e := by
  have hlt : target.toInt < ts.level := hneg.trans_le h.level_nonneg
  rw [walkBack, if_neg fun habove => absurd (Int64.lt_iff_toInt_lt.mp habove) hlt.not_gt,
    if_neg fun heq => absurd (congrArg Int64.toInt heq) hlt.ne]
  exact walkBackLoop_of_neg h hneg _

end Lotus
