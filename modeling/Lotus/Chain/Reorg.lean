import Lotus.Chain.Ancestry
import Lotus.Chain.Validate

/-!
# Paths between tipsets

`ReorgOps`, `NearestCommonAncestor` and `GetPath` of `chain/store/store.go`.
-/

namespace Lotus

open List

variable (cs : ChainStore)

def TipSet.equals (hashing : Hashing) (ts ots : TipSet) : Bool :=
  ts.cids hashing = ots.cids hashing

/-- The loop of `ReorgOps`, with `n` tipsets to go. -/
def reorgLoop : ℕ → TipSet → TipSet → List TipSet → List TipSet →
    Except NodeErr (List TipSet × List TipSet)
  | 0, _, _, _, _ => .error (.new "chain is longer than the store")
  | n + 1, left, right, leftChain, rightChain =>
    if left.equals cs.hashing right then .ok (leftChain, rightChain)
    else if left.height > right.height then do
      let par ← loadTipSet cs left.parents
      reorgLoop n par right (leftChain ++ [left]) rightChain
    else do
      let par ← loadTipSet cs right.parents
      reorgLoop n left par leftChain (rightChain ++ [right])

def reorgOps (a b : TipSet) : Except NodeErr (List TipSet × List TipSet) :=
  reorgLoop cs (2 * cs.depth) a b [] []

def nearestCommonAncestor (a b : TipSet) : Except NodeErr TipSet := do
  let (l, _) ← reorgOps cs a b
  match l.getLast? with
  | some ts => loadTipSet cs ts.parents
  | none => .error (.new "panic")

/-- `api.HeadChange`, with its type as the constructor. -/
inductive HeadChange where
  | current (val : TipSet)
  | revert (val : TipSet)
  | apply (val : TipSet)
deriving DecidableEq

def getPath (source target : List Cid) : Except NodeErr (List HeadChange) := do
  let fts ← (loadTipSet cs source).mapError (.wrap "loading from tipset %s")
  let tts ← (loadTipSet cs target).mapError (.wrap "loading to tipset %s")
  let (revert, apply) ← (reorgOps cs fts tts).mapError (.wrap "error getting tipset branches")
  pure (revert.map .revert ++ apply.reverse.map .apply)

/-- The loop of `IsAncestorOf`, for at most `n` turns. It loads the parents of `b` on each turn, and
not those of the tipset it has come to. -/
def isAncestorLoop (a b : TipSet) : ℕ → TipSet → Except NodeErr Bool
  | 0, _ => .error (.new "does not return")
  | n + 1, cur =>
    if a.equals cs.hashing cur = false ∧ cur.height > a.height then do
      let next ← loadTipSet cs b.parents
      isAncestorLoop a b n next
    else .ok (cur.equals cs.hashing a)

def isAncestorOf (n : ℕ) (a b : TipSet) : Except NodeErr Bool :=
  if b.height ≤ a.height then .ok false else isAncestorLoop cs a b n b

/-! ## The paths -/

section Paths

open Lineage (Fork)

variable {cs} {g a b left right : TipSet} {la lb ll lr : List TipSet}

lemma Stored.eq_of_equals (ha : Stored cs a) (hb : Stored cs b)
    (heq : a.equals cs.hashing b = true) : a = b := by
  have hcids : a.cids cs.hashing = b.cids cs.hashing := of_decide_eq_true heq
  rw [Stored, hcids] at ha
  exact Except.ok.inj (ha.symm.trans hb)

lemma TipSet.equals_self (hashing : Hashing) (a : TipSet) : a.equals hashing a = true :=
  decide_eq_true rfl

lemma reorgLoop_spec (hl : ChainOf cs g left ll) (hr : ChainOf cs g right lr) {n : ℕ}
    (hn : ll.length + lr.length < n) (leftChain rightChain : List TipSet) :
    ∃ leftNew rightNew x shared, Fork (left :: ll) (right :: lr) leftNew rightNew x shared ∧
      reorgLoop cs n left right leftChain rightChain =
        .ok (leftChain ++ leftNew, rightChain ++ rightNew) := by
  induction n generalizing left right ll lr leftChain rightChain with
  | zero => exact absurd hn (Nat.not_lt_zero _)
  | succ n ih =>
    by_cases hsame : left = right
    · subst hsame
      obtain rfl : ll = lr := hl.lineage.unique hr.lineage
      refine ⟨[], [], left, ll, Fork.refl left ll, ?_⟩
      rw [reorgLoop, if_pos (TipSet.equals_self _ left), append_nil, append_nil]
    · have hdiffer : ¬left.equals cs.hashing right = true := fun heq =>
        hsame ((hl.stored left mem_cons_self).eq_of_equals (hr.stored right mem_cons_self) heq)
      rw [reorgLoop, if_neg hdiffer]
      split_ifs with hhigher
      · -- the left tipset is too high to be on the right chain
        have hhigher : right.level < left.level := Int64.lt_iff_toInt_lt.mp hhigher
        have hnew : left ∉ right :: lr := fun hmem =>
          absurd (hr.lineage.height_le hmem) hhigher.not_ge
        obtain ⟨par, ll, rfl⟩ := hl.exists_parent (hr.level_nonneg.trans_lt hhigher)
        obtain ⟨hload, -, hpar⟩ := hl.tail
        rw [length_cons] at hn
        obtain ⟨leftNew, rightNew, x, shared, hfork, hrun⟩ :=
          ih hpar hr (by omega) (leftChain ++ [left]) rightChain
        refine ⟨left :: leftNew, rightNew, x, shared, hfork.cons_left hnew, ?_⟩
        rwa [hload, append_cons leftChain left leftNew]
      · -- the right one is not lower and not the same
        have hhigher : left.level ≤ right.level :=
          not_lt.mp fun hlt => hhigher (Int64.lt_iff_toInt_lt.mpr hlt)
        have hnew : right ∉ left :: ll := fun hmem =>
          hsame (hl.lineage.eq_of_height_le hmem hhigher).symm
        have hpos : 0 < right.level := by
          refine lt_of_le_of_ne hr.level_nonneg fun hzero => hnew ?_
          grind [hr.lineage.eq_of_height_le, hr.genesis_mem, hzero.symm.le, hr.genesis_level.ge,
            hl.genesis_mem]
        obtain ⟨par, lr, rfl⟩ := hr.exists_parent hpos
        obtain ⟨hload, -, hpar⟩ := hr.tail
        rw [length_cons] at hn
        obtain ⟨leftNew, rightNew, x, shared, hfork, hrun⟩ :=
          ih hl hpar (by omega) leftChain (rightChain ++ [right])
        refine ⟨leftNew, right :: rightNew, x, shared, hfork.cons_right hnew, ?_⟩
        rwa [hload, append_cons rightChain right rightNew]

lemma reorgOps_spec (ha : ChainOf cs g a la) (hb : ChainOf cs g b lb)
    (ha_depth : a.level < cs.depth) (hb_depth : b.level < cs.depth) : ∃ leftNew rightNew x shared,
      Fork (a :: la) (b :: lb) leftNew rightNew x shared ∧
      reorgOps cs a b = .ok (leftNew, rightNew) := by
  have hla := ha.length_le
  have hlb := hb.length_le
  exact reorgLoop_spec ha hb (by omega) [] []

lemma nearestCommonAncestor_spec (ha : ChainOf cs g a la) {leftNew rightNew shared : List TipSet}
    {x : TipSet} (hfork : Fork (a :: la) (b :: lb) leftNew rightNew x shared)
    (hops : reorgOps cs a b = .ok (leftNew, rightNew)) :
    nearestCommonAncestor cs a b = if a ∈ b :: lb then .error (.new "panic") else .ok x := by
  rw [nearestCommonAncestor, hops]
  show (match leftNew.getLast? with
    | some ts => loadTipSet cs ts.parents
    | none => .error (.new "panic")) = _
  cases leftNew using List.reverseRecOn with
  | nil => grind [hfork.left_eq, hfork.right_eq]
  | append_singleton before ts =>
    have hchain : a :: la = before ++ ts :: x :: shared := by
      rw [hfork.left_eq, ← append_cons]
    have hnew : a ∉ b :: lb := by
      apply hfork.leftNew_notMem
      cases before <;> simp_all
    obtain ⟨hload, -, -⟩ := (ha.of_append hchain).tail
    rwa [if_neg hnew, getLast?_concat]

lemma getPath_spec (ha : ChainOf cs g a la) (hb : ChainOf cs g b lb)
    {revert apply : List TipSet} (hops : reorgOps cs a b = .ok (revert, apply)) :
    getPath cs (a.cids cs.hashing) (b.cids cs.hashing) =
      .ok (revert.map .revert ++ apply.reverse.map .apply) := by
  rw [getPath, ha.stored a mem_cons_self, hb.stored b mem_cons_self]
  show ((reorgOps cs a b).mapError _ >>= fun _ => _) = _
  rw [hops]
  rfl

/-- The paths between two tipsets are those down to their highest common ancestor, and that is what
`NearestCommonAncestor` returns, exactly if the first tipset is not on the chain of the second. -/
theorem reorg_paths_iff (ha : ChainOf cs g a la) (hb : ChainOf cs g b lb)
    (ha_depth : a.level < cs.depth) (hb_depth : b.level < cs.depth) :
    (∃ revert apply x shared, a :: la = revert ++ x :: shared ∧ b :: lb = apply ++ x :: shared ∧
      (∀ y ∈ a :: la, y ∈ b :: lb → y.level ≤ x.level) ∧
      reorgOps cs a b = .ok (revert, apply) ∧
      getPath cs (a.cids cs.hashing) (b.cids cs.hashing) =
        .ok (revert.map .revert ++ apply.reverse.map .apply) ∧
      nearestCommonAncestor cs a b = .ok x) ↔
    a ∉ b :: lb := by
  obtain ⟨revert, apply, x, shared, hfork, hops⟩ := reorgOps_spec ha hb ha_depth hb_depth
  have hnearest := nearestCommonAncestor_spec ha hfork hops
  constructor
  · grind
  · intro hnew
    rw [if_neg hnew] at hnearest
    refine ⟨revert, apply, x, shared, hfork.left_eq, hfork.right_eq, ?_, hops,
      getPath_spec ha hb hops, hnearest⟩
    intro y hya hyb
    have hof := ha.of_append hfork.left_eq
    exact hof.lineage.height_le (hfork.mem_iff.mp ⟨hya, hyb⟩)

def sampleLeft : FullBlock := sampleEmpty 3 (sampleHashing.headerCid sampleGenesis)

def sampleRight : FullBlock := sampleEmpty 5 (sampleHashing.headerCid sampleGenesis)

theorem sampleFork_paths : ∃ revert apply x shared,
    [.single sampleLeft.header, .single sampleGenesis] = revert ++ x :: shared ∧
    [.single sampleRight.header, .single sampleGenesis] = apply ++ x :: shared ∧
    (∀ y ∈ [TipSet.single sampleLeft.header, .single sampleGenesis],
      y ∈ [TipSet.single sampleRight.header, .single sampleGenesis] → y.level ≤ x.level) ∧
    reorgOps (sampleStore [sampleLeft, sampleRight]) (.single sampleLeft.header)
      (.single sampleRight.header) = .ok (revert, apply) ∧
    getPath (sampleStore [sampleLeft, sampleRight])
      ((TipSet.single sampleLeft.header).cids sampleHashing)
      ((TipSet.single sampleRight.header).cids sampleHashing) =
        .ok (revert.map .revert ++ apply.reverse.map .apply) ∧
    nearestCommonAncestor (sampleStore [sampleLeft, sampleRight]) (.single sampleLeft.header)
      (.single sampleRight.header) = .ok x := by
  have hleft : ChainOf (sampleStore [sampleLeft, sampleRight]) (.single sampleGenesis)
      (.single sampleLeft.header) [.single sampleGenesis] := by
    refine .link (.genesis ?_ ?_ ?_) ?_ ?_ ?_ <;> decide +kernel
  have hright : ChainOf (sampleStore [sampleLeft, sampleRight]) (.single sampleGenesis)
      (.single sampleRight.header) [.single sampleGenesis] := by
    refine .link (.genesis ?_ ?_ ?_) ?_ ?_ ?_ <;> decide +kernel
  exact (reorg_paths_iff hleft hright (by decide) (by decide)).mpr (by decide +kernel)

/-- The genesis is the common ancestor of itself and the block at height 3. It is found in one
direction only. -/
theorem sampleLeft_ancestor_panics :
    ChainOf (sampleStore [sampleLeft]) (.single sampleGenesis) (.single sampleLeft.header)
      [.single sampleGenesis] ∧
    nearestCommonAncestor (sampleStore [sampleLeft]) (.single sampleLeft.header)
      (.single sampleGenesis) = .ok (.single sampleGenesis) ∧
    nearestCommonAncestor (sampleStore [sampleLeft]) (.single sampleGenesis)
      (.single sampleLeft.header) = .error (.new "panic") ∧
    nearestCommonAncestor (sampleStore [sampleLeft]) (.single sampleLeft.header)
      (.single sampleLeft.header) = .error (.new "panic") := by
  refine ⟨.link (.genesis ?_ ?_ ?_) ?_ ?_ ?_, ?_, ?_, ?_⟩ <;> decide +kernel

/-! ## Ancestors -/

lemma Stored.above (ha : Stored cs a) (hb : Stored cs b) (hlt : a.level < b.level) :
    a.equals cs.hashing b = false ∧ b.height > a.height := by
  refine ⟨Bool.eq_false_iff.mpr fun heq => ?_, Int64.lt_iff_toInt_lt.mpr hlt⟩
  rw [ha.eq_of_equals hb heq] at hlt
  exact lt_irrefl _ hlt

lemma isAncestorLoop_above {cur p : TipSet} (hload : loadTipSet cs b.parents = .ok p)
    (ha : Stored cs a) (hp : Stored cs p) (hlt : a.level < p.level) (hcur : Stored cs cur)
    (hcurlt : a.level < cur.level) (n : ℕ) :
    isAncestorLoop cs a b n cur = .error (.new "does not return") := by
  induction n generalizing cur with
  | zero => rfl
  | succ n ih =>
    -- the next tipset is the parent of `b` again, which is above `a`
    rw [isAncestorLoop, if_pos (ha.above hcur hcurlt), hload]
    exact ih hp hlt

lemma isAncestorLoop_parent {p : TipSet} (hload : loadTipSet cs b.parents = .ok p)
    (ha : Stored cs a) (hb : Stored cs b) (hlt : a.level < b.level) (hle : p.level ≤ a.level)
    (n : ℕ) : isAncestorLoop cs a b (n + 2) b = .ok (p.equals cs.hashing a) := by
  have hstop : ¬(a.equals cs.hashing p = false ∧ p.height > a.height) := fun h =>
    absurd (Int64.lt_iff_toInt_lt.mp h.2) hle.not_gt
  rw [isAncestorLoop, if_pos (ha.above hb hlt), hload]
  show isAncestorLoop cs a b (n + 1) p = _
  rw [isAncestorLoop, if_neg hstop]

lemma ChainOf.mem_iff_of_le {p : TipSet} (hb : ChainOf cs g b (p :: lb)) (hle : p.level ≤ a.level) :
    a ∈ p :: lb ↔ a = p :=
  ⟨fun hmem => hb.tail.2.2.lineage.eq_of_height_le hmem hle, fun heq => heq ▸ mem_cons_self⟩

/-- `IsAncestorOf` returns, with whether the first tipset is one of the ancestors of the second,
exactly if the parent of the second tipset is not above the first one. -/
theorem isAncestorOf_iff (ha : ChainOf cs g a la) (hb : ChainOf cs g b lb) :
    (∃ m, ∀ n ≥ m, isAncestorOf cs n a b = .ok (decide (a ∈ lb))) ↔
      ∀ p ∈ lb.head?, p.level ≤ a.level := by
  have hstored := ha.stored a mem_cons_self
  have hstoredb := hb.stored b mem_cons_self
  by_cases hle : b.height ≤ a.height
  · -- no ancestor of `b` is as high as `a`
    have hlevel : b.level ≤ a.level := Int64.le_iff_toInt_le.mp hle
    have hbelow : ∀ p ∈ lb, p.level < a.level := fun p hp =>
      (hb.lineage.height_lt hp).trans_le hlevel
    have hnot : a ∉ lb := fun hmem => lt_irrefl _ (hbelow a hmem)
    refine iff_of_true ⟨0, fun n _ => ?_⟩ fun p hp => (hbelow p (mem_of_mem_head? hp)).le
    rw [isAncestorOf, if_pos hle, decide_eq_false hnot]
  have hlt : a.level < b.level := Int64.lt_iff_toInt_lt.mp (Int64.not_le.mp hle)
  obtain ⟨p, l, rfl⟩ := hb.exists_parent (ha.level_nonneg.trans_lt hlt)
  obtain ⟨hload, -, hp⟩ := hb.tail
  have hstoredp := hp.stored p mem_cons_self
  simp only [isAncestorOf, if_neg hle, head?_cons, Option.mem_some_iff, forall_eq']
  constructor
  · rintro ⟨m, hm⟩
    by_contra hnot
    have hrun := hm m le_rfl
    rw [isAncestorLoop_above hload hstored hstoredp (not_le.mp hnot) hstoredb hlt] at hrun
    cases hrun
  · intro hpa
    refine ⟨2, fun n hn => ?_⟩
    obtain ⟨k, rfl⟩ := Nat.exists_eq_add_of_le' hn
    rw [isAncestorLoop_parent hload hstored hstoredb hlt hpa, Except.ok.injEq, Bool.eq_iff_iff,
      decide_eq_true_iff, hb.mem_iff_of_le hpa]
    exact ⟨fun heq => (hstoredp.eq_of_equals hstored heq).symm,
      fun heq => heq ▸ TipSet.equals_self _ a⟩

def sampleGrandchild : FullBlock := sampleEmpty 5 (sampleHashing.headerCid sampleLeft.header)

lemma sampleGrandchild_chain :
    ChainOf (sampleStore [sampleLeft, sampleGrandchild]) (.single sampleGenesis)
      (.single sampleGrandchild.header) [.single sampleLeft.header, .single sampleGenesis] := by
  refine .link (.link (.genesis ?_ ?_ ?_) ?_ ?_ ?_) ?_ ?_ ?_ <;> decide +kernel

theorem sampleGrandchild_parent : ∃ m, ∀ n ≥ m,
    isAncestorOf (sampleStore [sampleLeft, sampleGrandchild]) n (.single sampleLeft.header)
      (.single sampleGrandchild.header) =
    .ok (decide (TipSet.single sampleLeft.header ∈
      [TipSet.single sampleLeft.header, .single sampleGenesis])) :=
  (isAncestorOf_iff sampleGrandchild_chain.tail.2.2 sampleGrandchild_chain).mpr
    (by decide +kernel)

/-- Whether the genesis is an ancestor of the block at height 5 is not found in any number of
turns. -/
theorem sampleGrandchild_genesis_hangs :
    ChainOf (sampleStore [sampleLeft, sampleGrandchild]) (.single sampleGenesis)
      (.single sampleGrandchild.header) [.single sampleLeft.header, .single sampleGenesis] ∧
    ∀ n, isAncestorOf (sampleStore [sampleLeft, sampleGrandchild]) n (.single sampleGenesis)
      (.single sampleGrandchild.header) = .error (.new "does not return") := by
  have hchain := sampleGrandchild_chain
  refine ⟨hchain, fun n => ?_⟩
  have hstored := hchain.stored
  rw [isAncestorOf, if_neg (by decide +kernel)]
  refine isAncestorLoop_above hchain.tail.1 (hstored _ ?_) (hstored _ ?_) ?_ (hstored _ ?_) ?_ n
    <;> decide +kernel

end Paths

end Lotus
