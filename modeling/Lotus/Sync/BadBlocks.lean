import Lotus.Sync.Duplicates
import Lotus.Sync.Headers

/-!
# Blocks that are marked as bad

The blocks that `collectHeaders` marks as bad, and why it does.
-/

namespace Lotus

open List

/-! ## Descent -/

section

variable (hashing : Hashing) (H : Set BlockHeader)

/-- Among the headers `H` there is one with the CID `c` that has `p` as a parent. -/
def HasParent (c p : Cid) : Prop := ∃ h ∈ H, hashing.headerCid h = c ∧ p ∈ h.parents

def Descends (c b : Cid) : Prop := Relation.TransGen (HasParent hashing H) c b

def TipSet.Within (ts : TipSet) : Prop := ∀ b ∈ ts.blocks, b ∈ H

end

variable {hashing : Hashing} {H : Set BlockHeader}

variable {ts : TipSet}

lemma TipSet.Within.hasParent (h : ts.Within H) {a p : Cid} (ha : a ∈ ts.cids hashing)
    (hp : p ∈ ts.parents) : HasParent hashing H a p := by
  obtain ⟨b, hb, rfl⟩ := mem_map.mp ha
  exact ⟨b, h b hb, rfl, (ts.parents_of_mem hb).symm ▸ hp⟩

lemma TipSet.first_mem_cids (ts : TipSet) : hashing.headerCid ts.first ∈ ts.cids hashing :=
  mem_cons_self

variable {l : List TipSet}

lemma descends_of_isChain {last : TipSet} (hchain : (ts :: l).IsChain (TipSet.IsOver hashing))
    (hwithin : ∀ x ∈ ts :: l, x.Within H) (hlast : (ts :: l).getLast? = some last) {a p : Cid}
    (ha : a ∈ ts.cids hashing) (hp : p ∈ last.parents) : Descends hashing H a p := by
  induction l generalizing ts a with
  | nil =>
    cases hlast
    exact .single ((hwithin ts mem_cons_self).hasParent ha hp)
  | cons x l ih =>
    obtain ⟨hover, htail⟩ := isChain_cons_cons.mp hchain
    have hq : hashing.headerCid x.first ∈ ts.parents := hover.mem_iff.mp x.first_mem_cids
    rw [getLast?_cons_cons] at hlast
    refine .head ((hwithin ts mem_cons_self).hasParent ha hq) ?_
    exact ih htail (fun y hy => hwithin y (mem_cons_of_mem ts hy)) hlast x.first_mem_cids

lemma height_eq_of_mem_cids {ts' : TipSet} (hinj : Set.InjOn hashing.headerCid H)
    (h : ts.Within H) (h' : ts'.Within H) {a : Cid} (ha : a ∈ ts.cids hashing)
    (ha' : a ∈ ts'.cids hashing) : ts.height = ts'.height := by
  obtain ⟨b, hb, rfl⟩ := mem_map.mp ha
  obtain ⟨b', hb', hcid⟩ := mem_map.mp ha'
  obtain rfl := hinj (h' b' hb') (h b hb) hcid
  rw [← ts.height_of_mem hb, ts'.height_of_mem hb']

lemma equals_eq_false_of_height {ts' : TipSet} (hinj : Set.InjOn hashing.headerCid H)
    (h : ts.Within H) (h' : ts'.Within H) (hne : ts.height ≠ ts'.height) :
    ts.equals hashing ts' = false := by
  refine Bool.eq_false_iff.mpr fun hequal => hne ?_
  have hcids : ts.cids hashing = ts'.cids hashing := of_decide_eq_true hequal
  exact height_eq_of_mem_cids hinj h h' ts.first_mem_cids (hcids ▸ ts.first_mem_cids)

section

variable (src : HeaderSource) (H : Set BlockHeader) (bad : BadBlockCache) (incoming known : TipSet)

structure KnownHeaders : Prop where
  inj : Set.InjOn src.cs.hashing.headerCid H
  incoming_within : incoming.Within H
  known_within : known.Within H
  stored : ∀ c b, src.cs.getBlock c = .ok b → b ∈ H
  answered : ∀ n tsk count out, src.getBlocks n tsk count = .ok out → ∀ ts ∈ out, ts.Within H
  nonneg : ∀ ts, Relation.ReflTransGen (LoadsParent src.cs) known ts → 0 ≤ ts.height

/-- What `syncFork` gets is as long as a fork may be, or it goes down to the genesis. -/
def ForkAnswersComplete : Prop :=
  ∀ n tsk out, src.getBlocks n tsk src.forkLengthThreshold = .ok out →
    src.forkLengthThreshold.toInt ≤ out.length ∨ ∃ ts ∈ out, ts.height ≤ 0

/-- Below a chain from the tipset on there are as many tipsets as a fork may have, and none of them
is one of the local chain. -/
def ForksTooFar : Prop :=
  ∃ l base tips, Connected src.cs.hashing incoming l ∧ base ∈ l.getLast? ∧
    LinkedFrom src.cs.hashing base.parents tips ∧ (∀ t ∈ l ++ tips, t.Within H) ∧
      src.forkLengthThreshold.toInt ≤ tips.length ∧
        ∀ t ∈ tips, ∀ x, Relation.ReflTransGen (LoadsParent src.cs) known x →
          x.equals src.cs.hashing t = false

/-- Why a block may be marked. -/
inductive Justified (c : Cid) : Prop where
  | descendant {b : Cid} (hbad : (bad b).isSome) (h : Descends src.cs.hashing H c b)
  | beaconEntries (hc : c ∈ incoming.cids src.cs.hashing)
      (hsorted : beaconEntriesSorted incoming.first.beaconEntries = false)
  | fork (hc : c ∈ incoming.cids src.cs.hashing) (hfork : ForksTooFar src H incoming known)

end

/-! ## The walk -/

section

variable {src : HeaderSource} {bad : BadBlockCache} {incoming known : TipSet} {c c' : Collected}
  {untilHeight : Int64}

variable (H src incoming) in
structure Collecting (c : Collected) : Prop where
  visited : Visited src incoming c.last
  connected : Connected src.cs.hashing incoming c.blockSet
  within : ∀ ts ∈ c.blockSet, ts.Within H
  accepted : ∀ a ∈ c.acceptedBlocks, ∀ p ∈ c.last.parents, Descends src.cs.hashing H a p

lemma Collecting.descends (hc : Collecting H src incoming c) {last : TipSet}
    (hlinked : LinkedFrom src.cs.hashing c.last.parents l) (hwithin : ∀ ts ∈ l, ts.Within H)
    (hlast : l.getLast? = some last) {a p : Cid} (ha : a ∈ c.acceptedBlocks ++ c.last.parents)
    (hp : p ∈ last.parents) :
    Descends src.cs.hashing H a p := by
  obtain ⟨ts, hts, hnamed⟩ := hlinked.first
  rcases l with - | ⟨x, l⟩
  · cases hts
  obtain rfl := Option.some.inj hts
  have hbelow {q : Cid} (hq : q ∈ c.last.parents) : Descends src.cs.hashing H q p :=
    descends_of_isChain hlinked.linked hwithin hlast (hnamed.mem_iff.mpr hq) hp
  rcases mem_append.mp ha with hold | hkey
  · have hfirst := hnamed.mem_iff.mp x.first_mem_cids
    exact (hc.accepted a hold _ hfirst).trans (hbelow hfirst)
  · exact hbelow hkey

lemma TipSet.Within.of_newTipSet {blks : List BlockHeader} (h : newTipSet hashing blks = .ok ts)
    (hblks : ∀ b ∈ blks, b ∈ H) : ts.Within H := by
  intro b hb
  rw [newTipSet_blocks h, mem_sortBlocks] at hb
  exact hblks b hb

lemma within_of_loadTipSet {cs : ChainStore} (hstored : ∀ c b, cs.getBlock c = .ok b → b ∈ H)
    {tsk : List Cid} (h : loadTipSet cs tsk = .ok ts) : ts.Within H := by
  obtain ⟨blks, hblks, hts⟩ := loadTipSet_eq_ok.mp h
  refine .of_newTipSet hts fun b hb => ?_
  obtain ⟨cid, -, hget⟩ := Aligned.exists_of_mem_right hblks hb
  exact hstored cid b hget

lemma Collecting.within_append (hc : Collecting H src incoming c) (hl : ∀ ts ∈ l, ts.Within H) :
    ∀ ts ∈ c.blockSet ++ l, ts.Within H :=
  fun ts hts => (mem_append.mp hts).elim (hc.within ts) (hl ts)

lemma Collecting.step (hH : KnownHeaders src H incoming known) (haddr : src.cs.Addressed)
    (hanswers : AnswersLinked src) {ended : Bool} (hc : Collecting H src incoming c)
    (h : CollectOutcome src untilHeight c bad (.ok (c', ended), bad)) :
    Collecting H src incoming c' := by
  have hconnected := hc.connected.step haddr hanswers h
  have hset (l : List TipSet) :
      (Collected.appendAll { c with calls := c.calls + 1 } l).blockSet = c.blockSet ++ l :=
    Collected.blockSet_appendAll
  cases h with
  | @loaded ts hload =>
    have hwithin : ∀ x ∈ [ts], x.Within H :=
      fun x hx => mem_singleton.mp hx ▸ within_of_loadTipSet hH.stored hload
    refine ⟨hc.visited.loaded hload, hconnected, hc.within_append hwithin, fun a ha p hp => ?_⟩
    exact hc.descends ⟨⟨ts, rfl, namedBy_of_loadTipSet haddr hload⟩, .singleton _⟩ hwithin rfl ha hp
  | @taken blks hget =>
    have hne := getBlocks_ne_nil hget
    have hwithin := hH.answered _ _ _ _ hget
    have hall := hc.within_append hwithin
    rw [← hset] at hall
    refine ⟨hc.visited.answered hget (Collected.last_appendAll_mem hne), hconnected, hall,
      fun a ha p hp => ?_⟩
    exact hc.descends (hanswers _ _ _ _ hget) hwithin (Collected.getLast?_eq_last_appendAll hne)
      ha hp
  | @ended blks pre post b hget hblks =>
    have hlinked := hanswers _ _ _ _ hget
    have hwithin := hH.answered _ _ _ _ hget
    rcases pre with - | ⟨x, pre⟩
    · exact ⟨hc.visited, hconnected, hc.within, hc.accepted⟩
    · have hne := cons_ne_nil x pre
      have hsub : ∀ y ∈ x :: pre, y ∈ blks := fun y hy => hblks ▸ mem_append_left _ hy
      have hwithin' : ∀ y ∈ x :: pre, y.Within H := fun y hy => hwithin y (hsub y hy)
      have hall := hc.within_append hwithin'
      rw [← hset] at hall
      rw [hblks] at hlinked
      refine ⟨hc.visited.answered hget (hsub _ (Collected.last_appendAll_mem hne)), hconnected,
        hall, fun a ha p hp => ?_⟩
      rw [Collected.appendAll_fields.1] at ha
      exact hc.descends (hlinked.of_append hne) hwithin' (Collected.getLast?_eq_last_appendAll hne)
        (mem_append_left _ ha) hp

lemma BadBlockCache.mem_of_addAll_ne {cids : List Cid} {reason : BadBlockReason} {x : Cid}
    (h : bad.addAll cids reason x ≠ bad x) : x ∈ cids := by
  by_contra hx
  exact h (if_neg hx)

lemma Collecting.marked (hH : KnownHeaders src H incoming known) (hanswers : AnswersLinked src)
    (hc : Collecting H src incoming c) {err : NodeErr} {bad' : BadBlockCache}
    (h : CollectOutcome src untilHeight c bad (.error err, bad')) {x : Cid} (hx : bad' x ≠ bad x) :
    ∃ b, (bad b).isSome ∧ Descends src.cs.hashing H x b := by
  cases h with
  | @badParent bc reason _ hbc hreason => grind [BadBlockCache.mem_of_addAll_ne, hc.accepted]
  | failed => cases hx rfl
  | @badAnswer blks pre post b bc reason _ hget hblks hbc hreason =>
    have hmem := BadBlockCache.mem_of_addAll_ne hx
    refine ⟨bc, by rw [hreason]; rfl, ?_⟩
    have hlinked := hanswers _ _ _ _ hget
    have hwithin := hH.answered _ _ _ _ hget
    rw [hblks] at hlinked hwithin
    rcases eq_nil_or_concat' pre with rfl | ⟨pre, last, rfl⟩
    · obtain ⟨ts, hts, hnamed⟩ := hlinked.first
      cases hts
      exact hc.accepted x hmem bc (hnamed.mem_iff.mp hbc)
    · have hover := (isChain_append.mp hlinked.linked).2.2 last getLast?_concat b rfl
      refine hc.descends (hlinked.of_append (concat_ne_nil _ _)) (fun y hy => ?_)
        getLast?_concat (mem_append_left _ hmem) (hover.mem_iff.mp hbc)
      exact hwithin y (mem_append_left _ hy)

/-! ## The fork -/

lemma height_le_of_loads {nts x : TipSet}
    (hdecrease : ∀ ts pts, Relation.ReflTransGen (LoadsParent src.cs) nts ts →
      LoadsParent src.cs ts pts → pts.height < ts.height)
    (hx : Relation.ReflTransGen (LoadsParent src.cs) nts x) : x.height ≤ nts.height := by
  induction hx with
  | refl => exact Int64.le_refl _
  | tail hts hload ih => exact Int64.le_of_lt (Int64.lt_of_lt_of_le (hdecrease _ _ hts hload) ih)

variable {fuel : ℕ}

lemma syncForkLoop_tooLong (hinj : Set.InjOn src.cs.hashing.headerCid H) {nts : TipSet}
    {before tips : List TipSet} (hlocal : ∀ ts, Relation.ReflTransGen (LoadsParent src.cs) nts ts →
      ts.Within H ∧ 0 ≤ ts.height ∧ ∀ pts, LoadsParent src.cs ts pts → pts.height < ts.height)
    (hwithin : ∀ t ∈ tips, t.Within H) (hchain : tips.IsChain fun ts pts => pts.height < ts.height)
    (h : syncForkLoop src fuel nts before tips = .error .tooLong) {t : TipSet} (ht : t ∈ tips) :
    0 < t.height ∧ ∀ x, Relation.ReflTransGen (LoadsParent src.cs) nts x →
      x.equals src.cs.hashing t = false := by
  induction fuel generalizing nts before tips with
  | zero => cases h
  | succ fuel ih =>
    cases tips with
    | nil => cases ht
    | cons tip tips =>
      have hlower {x : TipSet} (hx : x ∈ tips) : x.height < tip.height :=
        height_lt_of_isChain hchain hx
      have htip := hwithin tip mem_cons_self
      have htips : ∀ x ∈ tips, x.Within H := fun x hx => hwithin x (mem_cons_of_mem tip hx)
      obtain ⟨hnts, hnonneg, -⟩ := hlocal nts .refl
      rw [syncForkLoop] at h
      split_ifs at h with hzero hgenesis hequal hheight
      · cases h
      · cases h
      · -- the local chain is below the tipset already
        rcases mem_cons.mp ht with rfl | ht
        · refine ⟨Int64.lt_of_le_of_lt hnonneg hheight, fun x hx => ?_⟩
          have hle := height_le_of_loads (fun ts pts hts => (hlocal ts hts).2.2 pts) hx
          grind [equals_eq_false_of_height, Int64.ne_of_lt, Int64.lt_of_le_of_lt]
        · exact ih hlocal htips hchain.tail h ht
      · rcases hload : loadTipSet src.cs nts.parents with err | pts
        · rw [hload] at h
          cases h
        rw [hload] at h
        obtain ⟨hpos, hbelow⟩ := ih (fun ts hts => hlocal ts (hts.head hload)) hwithin hchain h ht
        refine ⟨hpos, fun x hx => ?_⟩
        rcases hx.cases_head with rfl | ⟨y, hy, hx⟩
        · rcases mem_cons.mp ht with rfl | ht
          · exact Bool.eq_false_iff.mpr hequal
          · grind [Int64.lt_of_lt_of_le, equals_eq_false_of_height, Int64.ne_of_lt]
        · cases hload.symm.trans hy
          exact hbelow x hx

lemma within_of_loads (hH : KnownHeaders src H incoming known)
    (h : Relation.ReflTransGen (LoadsParent src.cs) known ts) : ts.Within H := by
  rcases h.cases_tail with rfl | ⟨x, -, hload⟩
  · exact hH.known_within
  · exact within_of_loadTipSet hH.stored hload

lemma Collecting.height_le (hH : KnownHeaders src H incoming known) (hanswers : AnswersLinked src)
    (hc : c.last.height ≤ known.height + 1 ∨ ∃ c0, Collecting H src incoming c0 ∧
      CollectOutcome src (known.height + 1) c0 bad (.ok (c, true), bad))
    {t : TipSet} (ht : t.Within H) (hnamed : t.NamedBy src.cs.hashing c.last.parents)
    (hlower : t.height < c.last.height) : t.height ≤ known.height := by
  rcases hc with hle | ⟨c0, hc0, hended⟩
  · exact Word.le_of_lt_add_one (Int64.lt_of_lt_of_le hlower hle)
  · cases hended with
    | @ended blks pre post b hget hblks hheight =>
      have hlinked := hanswers _ _ _ _ hget
      rw [hblks, append_cons] at hlinked
      have hall := hc0.connected.append (hlinked.of_append (concat_ne_nil _ _))
      have hset : (Collected.appendAll { c0 with calls := c0.calls + 1 } pre).blockSet =
          c0.blockSet ++ pre := Collected.blockSet_appendAll
      rw [← append_assoc, ← hset] at hall
      have hover := (isChain_append.mp hall.linked).2.2 _ Collected.getLast?_blockSet b rfl
      have hb : b.Within H := by
        refine hH.answered _ _ _ _ hget b ?_
        rw [hblks]
        exact mem_append_right pre mem_cons_self
      have hmem := hover.mem_iff.mpr (hnamed.mem_iff.mp t.first_mem_cids)
      rw [height_eq_of_mem_cids hH.inj ht hb t.first_mem_cids hmem]
      exact Word.le_of_lt_add_one hheight

lemma syncFork_tooLong {n : ℕ} {base : TipSet}
    (h : syncFork src fuel n base known = .error .tooLong) :
    ∃ tips nts, src.getBlocks n base.parents src.forkLengthThreshold = .ok tips ∧
      LoadsParent src.cs known nts ∧ syncForkLoop src fuel nts [] tips = .error .tooLong := by
  unfold syncFork at h
  rcases hget : src.getBlocks n base.parents src.forkLengthThreshold with err | tips
  · rw [hget] at h
    cases h
  rcases hload : loadTipSet src.cs known.parents with err | nts
  · rw [hget, hload] at h
    cases h
  · rw [hget, hload] at h
    exact ⟨tips, nts, rfl, hload, h⟩

lemma Collecting.forksTooFar (hH : KnownHeaders src H incoming known)
    (hanswers : AnswersLinked src) (hcomplete : ForkAnswersComplete src)
    (hdecrease : HeightsDecrease src incoming known) (hc : Collecting H src incoming c)
    (hend : c.last.height ≤ known.height + 1 ∨ ∃ c0, Collecting H src incoming c0 ∧
      CollectOutcome src (known.height + 1) c0 bad (.ok (c, true), bad))
    (hequal : ¬cidArrsEqual c.last.parents (known.cids src.cs.hashing) = true)
    (h : syncFork src fuel c.calls c.last known = .error .tooLong) :
    ForksTooFar src H incoming known := by
  obtain ⟨tips, nts, hget, hload, hloop⟩ := syncFork_tooLong h
  have hlinked := hanswers _ _ _ _ hget
  have hwithin := hH.answered _ _ _ _ hget
  have hchain := hdecrease.answered _ _ _ _ hc.visited hget
  have htooLong {t : TipSet} (ht : t ∈ tips) := syncForkLoop_tooLong hH.inj
    (fun ts hts => ⟨within_of_loads hH (hts.head hload), hH.nonneg ts (hts.head hload),
      fun pts => hdecrease.known ts pts (hts.head hload)⟩) hwithin hchain.tail hloop ht
  refine ⟨c.blockSet, c.last, tips, hc.connected, Collected.getLast?_blockSet, hlinked,
    hc.within_append hwithin, ?_, fun t ht x hx => ?_⟩
  · rcases hcomplete _ _ _ hget with hlength | ⟨t, ht, hle⟩ <;> grind
  · rcases hx.cases_head with rfl | ⟨y, hy, hx⟩
    swap
    · cases hload.symm.trans hy
      exact (htooLong ht).2 x hx
    -- the head itself: the first tipset is not it, and the others are lower
    obtain ⟨t0, ht0, hnamed⟩ := hlinked.first
    rcases tips with - | ⟨_, tips⟩
    · cases ht
    cases ht0
    have hle := Collecting.height_le hH hanswers hend (hwithin _ mem_cons_self) hnamed
      (height_lt_of_isChain hchain mem_cons_self)
    rcases mem_cons.mp ht with rfl | htail
    · refine Bool.eq_false_iff.mpr fun hsame => hequal ?_
      have hcids : known.cids src.cs.hashing = t.cids src.cs.hashing := of_decide_eq_true hsame
      rw [hcids]
      exact hnamed.cidArrsEqual
    · have hlt := Int64.lt_of_lt_of_le (height_lt_of_isChain hchain.tail htail) hle
      exact equals_eq_false_of_height hH.inj hH.known_within (hwithin t ht)
        (Int64.ne_of_lt hlt).symm

lemma linkHeaders_marked {x : Cid} (hx : (linkHeaders src fuel incoming known c bad).2 x ≠ bad x) :
    x ∈ incoming.cids src.cs.hashing ∧
      ¬cidArrsEqual c.last.parents (known.cids src.cs.hashing) = true ∧
      syncFork src fuel c.calls c.last known = .error .tooLong := by
  unfold linkHeaders at hx
  split_ifs at hx with hequal hparents
  · cases hx rfl
  · cases hx rfl
  · rcases hfork : syncFork src fuel c.calls c.last known with (- | err) | fork
    · rw [hfork] at hx
      exact ⟨BadBlockCache.mem_of_addAll_ne hx, hequal, rfl⟩
    · rw [hfork] at hx
      cases hx rfl
    · rw [hfork] at hx
      cases hx rfl

/-! ## The marks -/

/-- If the answers of `GetBlocks` are linked and start where they were asked to, and those to
`syncFork` are complete, then a block that `collectHeaders` marks descends from a bad one, or is of
a tipset with beacon entries out of order, or whose fork is too long. -/
theorem collectHeaders_marks_justified (hH : KnownHeaders src H incoming known)
    (haddr : src.cs.Addressed) (hanswers : AnswersLinked src)
    (hcomplete : ForkAnswersComplete src) (hdecrease : HeightsDecrease src incoming known)
    {fuel : ℕ} {x : Cid}
    (hx : (collectHeaders src fuel incoming known bad).2 x ≠ bad x) :
    Justified src H bad incoming known x := by
  unfold collectHeaders at hx
  rcases checkIncoming_cases src incoming bad with
    ⟨pcid, hpcid, reason, err, hreason, hcheck⟩ | ⟨hsorted, reason, err, hcheck⟩ |
      ⟨err, hcheck⟩ | hcheck
  · rw [Act.bind_of_error hcheck] at hx
    have hmem := BadBlockCache.mem_of_addAll_ne hx
    exact .descendant (by rw [hreason]; rfl) (.single (hH.incoming_within.hasParent hmem hpcid))
  · rw [Act.bind_of_error hcheck] at hx
    have hmem := BadBlockCache.mem_of_addAll_ne hx
    rw [mem_singleton.mp hmem]
    exact .beaconEntries incoming.first_mem_cids hsorted
  · rw [Act.bind_of_error hcheck] at hx
    cases hx rfl
  rw [Act.bind_of_ok hcheck] at hx
  have hstart : Collecting H src incoming ⟨[], incoming, [], 0⟩ :=
    ⟨.start, ⟨rfl, .singleton incoming⟩, fun ts hts => mem_singleton.mp hts ▸ hH.incoming_within,
      nofun⟩
  rcases collectHeadersLoop_cases (Collecting H src incoming)
      (fun hc _ hround => hc.step hH haddr hanswers hround) fuel hstart with
    ⟨c, hc, hend, hloop⟩ | hloop | ⟨c, err, bad', hc, hround, hloop⟩
  · rw [Act.bind_of_ok hloop] at hx
    obtain ⟨hmem, hequal, htooLong⟩ := linkHeaders_marked hx
    exact .fork hmem (hc.forksTooFar hH hanswers hcomplete hdecrease hend hequal htooLong)
  · rw [Act.bind_of_ok hloop] at hx
    cases hx rfl
  · rw [Act.bind_of_error hloop] at hx
    obtain ⟨b, hb, hdescends⟩ := hc.marked hH hanswers hround hx
    exact .descendant hb hdescends

end

def sampleBad (b : Cid) : BadBlockCache := fun c =>
  if c = b then some (newBadBlockReason [] "invalid") else none

def sampleClimb : TipSet := sampleTip 3 (sampleNarrow.cids sampleHashing)

def sampleClimbSource : HeaderSource :=
  sampleSourceOf (sampleNarrow.cids sampleHashing) sampleNarrow

def sampleClimbHeaders : List BlockHeader :=
  sampleGenesis :: (sampleClimb.blocks ++ sampleNarrow.blocks ++ sampleWide.blocks)

lemma sampleNarrow_newTipSet : newTipSet sampleHashing sampleNarrow.blocks = .ok sampleNarrow := by
  decide +kernel

lemma sampleStore_genesis {c : Cid} {b : BlockHeader} (h : (sampleStore []).getBlock c = .ok b) :
    b = sampleGenesis := by
  have hfind : ([sampleGenesis].find? (sampleHashing.headerCid · = c)) = some b := by
    unfold sampleStore at h
    grind
  exact mem_singleton.mp (mem_of_find?_eq_some hfind)

lemma sampleClimb_known : KnownHeaders sampleClimbSource {b | b ∈ sampleClimbHeaders}
    sampleClimb (.single sampleGenesis) := by
  have hinj : ∀ a ∈ sampleClimbHeaders, ∀ b ∈ sampleClimbHeaders,
      sampleHashing.headerCid a = sampleHashing.headerCid b → a = b := by
    decide +kernel
  refine ⟨fun a ha b hb h => hinj a ha b hb h, ?_, ?_, ?_, ?_, ?_⟩
  · exact fun b hb => .tail _ (mem_append_left _ (mem_append_left _ hb))
  · exact fun b hb => mem_singleton.mp hb ▸ mem_cons_self
  · exact fun c b hb => sampleStore_genesis hb ▸ mem_cons_self
  · intro n tsk count out hget ts hts b hb
    obtain ⟨-, -, rfl⟩ := sampleSourceOf_getBlocks sampleNarrow_newTipSet hget
    rw [mem_singleton.mp hts] at hb
    exact .tail _ (mem_append_left _ (mem_append_right _ hb))
  · intro ts hts
    rcases hts.cases_head with rfl | ⟨x, hx, -⟩
    · decide
    · exact absurd hx (sampleHeaderSource_loads.2.2 x)

lemma sampleClimb_decreases :
    HeightsDecrease sampleClimbSource sampleClimb (.single sampleGenesis) := by
  have hclimb : ∀ ts, ¬LoadsParent sampleClimbSource.cs sampleClimb ts := by
    intro ts hload
    have hnone : (loadTipSet sampleClimbSource.cs sampleClimb.parents).toOption = none := by
      decide +kernel
    rw [show loadTipSet _ _ = .ok ts from hload] at hnone
    cases hnone
  have hnarrow : ∀ ts, ¬LoadsParent sampleClimbSource.cs sampleNarrow ts :=
    sampleHeaderSource_loads.1
  have hvisited {ts : TipSet} (h : Visited sampleClimbSource sampleClimb ts) :
      ts = sampleClimb ∨ ts = sampleNarrow := by
    induction h with
    | start => exact .inl rfl
    | loaded _ hload ih => grind
    | answered _ hget hpts =>
      rw [(sampleSourceOf_getBlocks sampleNarrow_newTipSet hget).2.2] at hpts
      exact .inr (mem_singleton.mp hpts)
  refine ⟨fun ts pts hts hload => ?_, fun ts n count out hts hget => ?_, fun ts pts hts hload => ?_⟩
  · grind
  · obtain ⟨hparents, -, rfl⟩ := sampleSourceOf_getBlocks sampleNarrow_newTipSet hget
    rcases hvisited hts with rfl | rfl
    · decide
    · exact absurd hparents (by decide +kernel)
  · exact sampleHeaderSource_decreases.known ts pts hts hload

theorem sampleClimb_marks_justified :
    ∃ x, (collectHeaders sampleClimbSource 3 sampleClimb (.single sampleGenesis)
        (sampleBad (sampleHashing.headerCid (sampleHeader (.id 1001) [])))).2 x ≠
          sampleBad (sampleHashing.headerCid (sampleHeader (.id 1001) [])) x ∧
      Justified sampleClimbSource {b | b ∈ sampleClimbHeaders}
        (sampleBad (sampleHashing.headerCid (sampleHeader (.id 1001) []))) sampleClimb
        (.single sampleGenesis) x := by
  have hx : (collectHeaders sampleClimbSource 3 sampleClimb (.single sampleGenesis)
      (sampleBad (sampleHashing.headerCid (sampleHeader (.id 1001) [])))).2
        (sampleHashing.headerCid sampleNarrow.first) ≠
      sampleBad (sampleHashing.headerCid (sampleHeader (.id 1001) []))
        (sampleHashing.headerCid sampleNarrow.first) := by
    intro heq
    have hmarked := congrArg Option.isSome heq
    revert hmarked
    decide +kernel
  have hlinked : AnswersLinked sampleClimbSource :=
    sampleSourceOf_linked sampleNarrow_newTipSet (by decide +kernel)
  have hcomplete : ForkAnswersComplete sampleClimbSource := by
    intro n tsk out hget
    have hlt := (sampleSourceOf_getBlocks sampleNarrow_newTipSet hget).2.1
    exact absurd hlt (by decide)
  exact ⟨_, hx, collectHeaders_marks_justified sampleClimb_known (sampleStore_addressed []) hlinked
    hcomplete sampleClimb_decreases hx⟩

def sampleVictim : TipSet := sampleTip 4 [sampleHashing.headerCid sampleGenesis]

def sampleInvalid : TipSet := sampleTip 2 [sampleHashing.headerCid sampleGenesis]

def sampleSwapped : TipSet := sampleTip 3 (sampleInvalid.cids sampleHashing)

def sampleTarget : TipSet := sampleTip 5 (sampleVictim.cids sampleHashing)

def sampleSwappedHeaders : List BlockHeader :=
  sampleGenesis :: [sampleVictim, sampleInvalid, sampleSwapped, sampleTarget].flatMap (·.blocks)

/-- The answer to the request for the parent of the tipset is another tipset, over a bad block. The
parent is marked. -/
theorem sampleSwapped_marked : sampleBad (sampleHashing.headerCid sampleInvalid.first)
        (sampleHashing.headerCid sampleVictim.first) = none ∧
    ((collectHeaders (sampleSourceOf (sampleVictim.cids sampleHashing) sampleSwapped) 3 sampleTarget
        (.single sampleGenesis) (sampleBad (sampleHashing.headerCid sampleInvalid.first))).2
          (sampleHashing.headerCid sampleVictim.first)).isSome ∧
    ¬Justified (sampleSourceOf (sampleVictim.cids sampleHashing) sampleSwapped)
      {b | b ∈ sampleSwappedHeaders} (sampleBad (sampleHashing.headerCid sampleInvalid.first))
      sampleTarget (.single sampleGenesis) (sampleHashing.headerCid sampleVictim.first) := by
  have hvictim : sampleHashing.headerCid sampleVictim.first ∉ sampleTarget.cids sampleHashing := by
    decide +kernel
  have hparents : ∀ h ∈ sampleSwappedHeaders,
      (sampleHashing.headerCid h = sampleHashing.headerCid sampleVictim.first →
        h.parents = [sampleHashing.headerCid sampleGenesis]) ∧
      (sampleHashing.headerCid h = sampleHashing.headerCid sampleGenesis → h.parents = []) := by
    decide +kernel
  have hinvalid : sampleHashing.headerCid sampleGenesis ≠
      sampleHashing.headerCid sampleInvalid.first := by decide +kernel
  refine ⟨if_neg (by decide +kernel), by decide +kernel, ?_⟩
  rintro (⟨hbad, hdescends⟩ | ⟨hmem, -⟩ | ⟨hmem, -⟩)
  · rename_i b
    obtain rfl : b = sampleHashing.headerCid sampleInvalid.first := by
      by_contra hne
      rw [sampleBad, if_neg hne] at hbad
      cases hbad
    -- the only ancestor of the tipset is the genesis
    obtain ⟨p, ⟨h, hh, hcid, hp⟩, hrest⟩ := Relation.TransGen.head'_iff.mp hdescends
    rw [(hparents h hh).1 hcid] at hp
    obtain rfl := mem_singleton.mp hp
    rcases hrest.cases_head with heq | ⟨q, ⟨h', hh', hcid', hq⟩, -⟩
    · exact hinvalid heq
    · rw [(hparents h' hh').2 hcid'] at hq
      cases hq
  · exact hvictim hmem
  · exact hvictim hmem

end Lotus
