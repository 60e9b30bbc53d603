import Lotus.Blocksync.Client
import Lotus.Sync.Incoming

/-!
# Collecting headers

`collectHeaders` and `syncFork` of `chain/sync.go`.
-/

namespace Lotus

open Act List

/-! ## The source -/

/-- What the headers are collected from: the chain store, the genesis, the length of the longest
fork, and what the peers answer to each call of `GetBlocks`. -/
structure HeaderSource where
  cs : ChainStore
  genesis : TipSet
  forkLengthThreshold : Int64
  peers : ℕ → BlockSyncRequest → List PeerAnswer

namespace BadBlockCache

def find (bad : BadBlockCache) (cids : List Cid) : Option (Cid × BadBlockReason) :=
  cids.findSome? fun c => (bad c).map (c, ·)

def addAll (bad : BadBlockCache) (cids : List Cid) (reason : BadBlockReason) : BadBlockCache :=
  fun c => if c ∈ cids then some reason else bad c

end BadBlockCache

/-- `sort.SliceIsSorted` by the rounds. -/
def beaconEntriesSorted (entries : List BeaconEntry) : Bool :=
  entries.IsChain fun a b => ¬b.round < a.round

def beaconEntriesAgree (targetBE : List BeaconEntry) : List BlockHeader → Except NodeErr Unit
  | [] => .ok ()
  | bh :: bhs =>
    if targetBE.length ≠ bh.beaconEntries.length then
      .error (.new "tipset contained different number for beacon entires")
    else if targetBE ≠ bh.beaconEntries then
      .error (.new "tipset contained different beacon entires")
    else beaconEntriesAgree targetBE bhs

/-- The variables of the loop of `collectHeaders`. The last tipset of `blockSet` is kept apart, and
`at` always is the key of its parents. `calls` counts the calls of `GetBlocks`. -/
structure Collected where
  front : List TipSet
  last : TipSet
  acceptedBlocks : List Cid
  calls : ℕ

def Collected.blockSet (c : Collected) : List TipSet := c.front ++ [c.last]

def Collected.append (c : Collected) (ts : TipSet) : Collected :=
  { c with front := c.blockSet, last := ts }

section

variable (src : HeaderSource)

def HeaderSource.getBlocks (n : ℕ) (tsk : List Cid) (count : Int64) :
    Except NodeErr (List TipSet) :=
  Lotus.getBlocks src.cs.hashing (src.peers n) tsk count

/-- The checks of `collectHeaders` on the tipset itself. -/
def checkIncoming (incoming : TipSet) : Act BadBlockCache NodeErr Unit := do
  let bad ← get
  match bad.find incoming.parents with
  | some (_, reason) =>
    modify fun bad =>
      bad.addAll (incoming.cids src.cs.hashing) (reason.linked "linked to %s")
    fail (.new "chain linked to block marked previously as bad (%s, %s) (reason: %s)")
  | none =>
    let targetBE := incoming.first.beaconEntries
    if !beaconEntriesSorted targetBE then
      modify fun bad => bad.addAll [src.cs.hashing.headerCid incoming.first]
        (newBadBlockReason (incoming.cids src.cs.hashing) "wrong order of beacon entires")
      fail (.new "wrong order of beacon entires")
    else ofExcept (beaconEntriesAgree targetBE incoming.rest)

def checkBad (acceptedBlocks cids : List Cid) : Act BadBlockCache NodeErr Unit := do
  let bad ← get
  match bad.find cids with
  | some (_, reason) =>
    modify fun bad => bad.addAll acceptedBlocks (reason.linked "change contained %s")
    fail (.new "chain contained block marked previously as bad (%s, %s) (reason: %s)")
  | none => pure ()

/-- The loop over the tipsets of an answer. The second value says that it has ended the outer loop
as well. -/
def takeBlocks (untilHeight : Int64) :
    List TipSet → Collected → Act BadBlockCache NodeErr (Collected × Bool)
  | [], c => pure (c, false)
  | b :: blks, c =>
    if b.height < untilHeight then pure (c, true)
    else do
      checkBad c.acceptedBlocks (b.cids src.cs.hashing)
      takeBlocks untilHeight blks (c.append b)

/-- The number of tipsets that are asked for. -/
def collectWindow (untilHeight : Int64) (last : TipSet) : Int64 :=
  let gap := last.height - untilHeight
  if gap < 500 then gap else 500

/-- The body of the loop of `collectHeaders`. -/
def collectStep (untilHeight : Int64) (c : Collected) :
    Act BadBlockCache NodeErr (Collected × Bool) := do
  checkBad c.acceptedBlocks c.last.parents
  match loadTipSet src.cs c.last.parents with
  | .ok ts =>
    pure ({ c.append ts with acceptedBlocks := c.acceptedBlocks ++ c.last.parents }, false)
  | .error _ =>
    let blks ← ofExcept ((src.getBlocks c.calls c.last.parents
      (collectWindow untilHeight c.last)).mapError (.wrap "failed to get blocks"))
    let (c', ended) ← takeBlocks src untilHeight blks { c with calls := c.calls + 1 }
    if ended then pure (c', true)
    else pure ({ c' with acceptedBlocks := c.acceptedBlocks ++ c.last.parents }, false)

/-- The loop of `collectHeaders`, with `fuel` rounds to go. There is no result if they do not
suffice. -/
def collectHeadersLoop (untilHeight : Int64) : ℕ → Collected →
    Act BadBlockCache NodeErr (Option Collected)
  | 0, _ => pure none
  | fuel + 1, c =>
    if c.last.height > untilHeight then do
      let (c', ended) ← collectStep src untilHeight c
      if ended then pure (some c') else collectHeadersLoop untilHeight fuel c'
    else pure (some c)

/-- How `syncFork` fails: with `ErrForkTooLong`, or in another way. -/
inductive ForkErr where
  | tooLong
  | other (err : NodeErr)

def syncForkLoop : ℕ → TipSet → List TipSet → List TipSet →
    Except ForkErr (Option (List TipSet))
  | 0, _, _, _ => .ok none
  | _ + 1, _, _, [] => .error .tooLong
  | fuel + 1, nts, before, tip :: tips =>
    if nts.height = 0 then
      if !src.genesis.equals src.cs.hashing nts then
        .error (.other (.new
          "somehow synced chain that linked back to a different genesis (bad genesis: %s)"))
      else .error (.other (.new "synced chain forked at genesis, refusing to sync; incoming: %s"))
    else if nts.equals src.cs.hashing tip then .ok (some (before ++ [tip]))
    else if nts.height < tip.height then syncForkLoop fuel nts (before ++ [tip]) tips
    else
      match loadTipSet src.cs nts.parents with
      | .error err => .error (.other (.wrap "loading next local tipset" err))
      | .ok nts => syncForkLoop fuel nts before (tip :: tips)

def syncFork (fuel n : ℕ) (incoming known : TipSet) : Except ForkErr (Option (List TipSet)) := do
  let tips ← (src.getBlocks n incoming.parents src.forkLengthThreshold).mapError ForkErr.other
  let nts ← (loadTipSet src.cs known.parents).mapError fun err =>
    ForkErr.other (.wrap "failed to load next local tipset" err)
  syncForkLoop src fuel nts [] tips

/-- The end of `collectHeaders`. -/
def linkHeaders (fuel : ℕ) (incoming known : TipSet) (c : Collected) :
    Act BadBlockCache NodeErr (Option (List TipSet)) :=
  if cidArrsEqual c.last.parents (known.cids src.cs.hashing) then pure (some c.blockSet)
  else if c.last.parents = known.parents then pure (some c.blockSet)
  else
    match syncFork src fuel c.calls c.last known with
    | .ok fork => pure (fork.map (c.blockSet ++ ·))
    | .error .tooLong => do
      modify fun bad => bad.addAll (incoming.cids src.cs.hashing)
        (newBadBlockReason (incoming.cids src.cs.hashing) "fork past finality")
      fail (.wrap "failed to sync fork" (.new "fork longer than threshold"))
    | .error (.other err) => fail (.wrap "failed to sync fork" err)

def collectHeaders (fuel : ℕ) (incoming known : TipSet) :
    Act BadBlockCache NodeErr (Option (List TipSet)) := do
  checkIncoming src incoming
  match ← collectHeadersLoop src (known.height + 1) fuel ⟨[], incoming, [], 0⟩ with
  | none => pure none
  | some c => linkHeaders src fuel incoming known c

end

/-! ## What a round comes to -/

namespace BadBlockCache

variable {bad : BadBlockCache} {cids : List Cid}

lemma find_eq_some {c : Cid} {reason : BadBlockReason} (h : bad.find cids = some (c, reason)) :
    c ∈ cids ∧ bad c = some reason := by
  obtain ⟨x, hx, hmap⟩ := exists_of_findSome?_eq_some h
  grind [Option.map_eq_some_iff]

end BadBlockCache

namespace Collected

def appendAll (c : Collected) (blks : List TipSet) : Collected := blks.foldl append c

variable {c : Collected} {blks : List TipSet}

lemma getLast?_blockSet : c.blockSet.getLast? = some c.last := getLast?_concat

lemma head?_blockSet_append {l : List TipSet} : (c.blockSet ++ l).head? = c.blockSet.head? :=
  head?_append_of_ne_nil _ (append_ne_nil_of_right_ne_nil _ (cons_ne_nil _ _))

lemma blockSet_append {ts : TipSet} : (c.append ts).blockSet = c.blockSet ++ [ts] := rfl

lemma blockSet_appendAll : (c.appendAll blks).blockSet = c.blockSet ++ blks := by
  induction blks generalizing c with
  | nil => exact (append_nil _).symm
  | cons b blks ih =>
    rw [appendAll, foldl_cons]
    refine ih.trans ?_
    rw [blockSet_append, append_assoc, singleton_append]

lemma appendAll_fields : (c.appendAll blks).acceptedBlocks = c.acceptedBlocks ∧
    (c.appendAll blks).calls = c.calls := by
  induction blks generalizing c with
  | nil => exact ⟨rfl, rfl⟩
  | cons b blks ih => exact ih

end Collected

section

variable {src : HeaderSource} {untilHeight : Int64} {c : Collected} {bad : BadBlockCache}

lemma checkBad_cases (acceptedBlocks cids : List Cid) (bad : BadBlockCache) :
    (bad.find cids = none ∧ checkBad acceptedBlocks cids bad = (.ok (), bad)) ∨
      ∃ bc ∈ cids, ∃ reason err, bad bc = some reason ∧ checkBad acceptedBlocks cids bad =
          (.error err, bad.addAll acceptedBlocks (reason.linked "change contained %s")) := by
  rcases hfind : bad.find cids with - | ⟨bc, reason⟩
  · refine .inl ⟨rfl, ?_⟩
    rw [checkBad, bind_of_ok (get_apply bad), hfind]
    rfl
  · obtain ⟨hbc, hreason⟩ := BadBlockCache.find_eq_some hfind
    refine .inr ⟨bc, hbc, reason,
      .new "chain contained block marked previously as bad (%s, %s) (reason: %s)", hreason, ?_⟩
    rw [checkBad, bind_of_ok (get_apply bad), hfind]
    rfl

lemma checkIncoming_cases (src : HeaderSource) (incoming : TipSet) (bad : BadBlockCache) :
    (∃ pcid ∈ incoming.parents, ∃ reason err, bad pcid = some reason ∧
      checkIncoming src incoming bad = (.error err,
        bad.addAll (incoming.cids src.cs.hashing) (reason.linked "linked to %s"))) ∨
    (beaconEntriesSorted incoming.first.beaconEntries = false ∧ ∃ reason err,
      checkIncoming src incoming bad = (.error err,
        bad.addAll [src.cs.hashing.headerCid incoming.first] reason)) ∨
    (∃ err, checkIncoming src incoming bad = (.error err, bad)) ∨
    checkIncoming src incoming bad = (.ok (), bad) := by
  rw [checkIncoming, bind_of_ok (get_apply bad)]
  rcases hfind : bad.find incoming.parents with - | ⟨pcid, reason⟩
  swap
  · obtain ⟨hmem, hreason⟩ := BadBlockCache.find_eq_some hfind
    exact .inl ⟨pcid, hmem, reason,
      .new "chain linked to block marked previously as bad (%s, %s) (reason: %s)", hreason, rfl⟩
  refine .inr ?_
  dsimp only
  cases hsorted : beaconEntriesSorted incoming.first.beaconEntries with
  | false =>
    exact .inl ⟨rfl,
      newBadBlockReason (incoming.cids src.cs.hashing) "wrong order of beacon entires",
      .new "wrong order of beacon entires", rfl⟩
  | true =>
    refine .inr ?_
    show (∃ err, (beaconEntriesAgree _ incoming.rest, bad) = (Except.error err, bad)) ∨
      (beaconEntriesAgree _ incoming.rest, bad) = (Except.ok (), bad)
    rcases beaconEntriesAgree incoming.first.beaconEntries incoming.rest with err | - <;> simp

lemma takeBlocks_cases (blks : List TipSet) (c : Collected) (bad : BadBlockCache) :
    (∃ pre post, blks = pre ++ post ∧ (∀ b ∈ post.head?, b.height < untilHeight) ∧
      takeBlocks src untilHeight blks c bad = (.ok (c.appendAll pre, !post.isEmpty), bad)) ∨
    ∃ pre b post, blks = pre ++ b :: post ∧ ∃ bc ∈ b.cids src.cs.hashing, ∃ reason err,
      bad bc = some reason ∧ takeBlocks src untilHeight blks c bad =
        (.error err, bad.addAll c.acceptedBlocks (reason.linked "change contained %s")) := by
  induction blks generalizing c with
  | nil => exact .inl ⟨[], [], rfl, fun b hb => absurd hb (Option.not_mem_none b), rfl⟩
  | cons b blks ih =>
    by_cases hheight : b.height < untilHeight
    · refine .inl ⟨[], b :: blks, rfl, fun x hx => Option.some.inj hx ▸ hheight, ?_⟩
      rw [takeBlocks, if_pos hheight]
      rfl
    rw [takeBlocks, if_neg hheight]
    rcases checkBad_cases c.acceptedBlocks (b.cids src.cs.hashing) bad with
      ⟨-, hok⟩ | ⟨bc, hbc, reason, err, hreason, hcheck⟩
    · rw [bind_of_ok hok]
      rcases ih (c.append b) with ⟨pre, post, rfl, hpost, htake⟩ | ⟨pre, x, post, rfl, hx⟩
      · exact .inl ⟨b :: pre, post, rfl, hpost, htake⟩
      · exact .inr ⟨b :: pre, x, post, rfl, hx⟩
    · exact .inr ⟨[], b, blks, rfl, bc, hbc, reason, err, hreason, bind_of_error hcheck⟩

variable (src untilHeight c bad) in
/-- What a round of the loop comes to. -/
inductive CollectOutcome : Except NodeErr (Collected × Bool) × BadBlockCache → Prop where
  | badParent {bc : Cid} {reason : BadBlockReason} (err : NodeErr) (hbc : bc ∈ c.last.parents)
      (hreason : bad bc = some reason) :
      CollectOutcome (.error err,
        bad.addAll c.acceptedBlocks (reason.linked "change contained %s"))
  | loaded {ts : TipSet} (hload : loadTipSet src.cs c.last.parents = .ok ts) :
      CollectOutcome
        (.ok ({ c.append ts with acceptedBlocks := c.acceptedBlocks ++ c.last.parents }, false),
          bad)
  | failed (err : NodeErr) : CollectOutcome (.error err, bad)
  | badAnswer {blks pre post : List TipSet} {b : TipSet} {bc : Cid} {reason : BadBlockReason}
      (err : NodeErr)
      (hget : src.getBlocks c.calls c.last.parents (collectWindow untilHeight c.last) = .ok blks)
      (hblks : blks = pre ++ b :: post) (hbc : bc ∈ b.cids src.cs.hashing)
      (hreason : bad bc = some reason) :
      CollectOutcome (.error err,
        bad.addAll c.acceptedBlocks (reason.linked "change contained %s"))
  | taken {blks : List TipSet}
      (hget : src.getBlocks c.calls c.last.parents (collectWindow untilHeight c.last) = .ok blks) :
      CollectOutcome
        (.ok ({ Collected.appendAll { c with calls := c.calls + 1 } blks with
          acceptedBlocks := c.acceptedBlocks ++ c.last.parents }, false), bad)
  | ended {blks pre post : List TipSet} {b : TipSet}
      (hget : src.getBlocks c.calls c.last.parents (collectWindow untilHeight c.last) = .ok blks)
      (hblks : blks = pre ++ b :: post) (hheight : b.height < untilHeight) :
      CollectOutcome (.ok (Collected.appendAll { c with calls := c.calls + 1 } pre, true), bad)

lemma collectStep_outcome :
    CollectOutcome src untilHeight c bad (collectStep src untilHeight c bad) := by
  unfold collectStep
  rcases checkBad_cases c.acceptedBlocks c.last.parents bad with
    ⟨-, hok⟩ | ⟨bc, hbc, reason, err, hreason, hcheck⟩
  swap
  · rw [bind_of_error hcheck]
    exact .badParent err hbc hreason
  rw [bind_of_ok hok]
  rcases hload : loadTipSet src.cs c.last.parents with err | ts
  swap
  · exact .loaded hload
  rcases hget : src.getBlocks c.calls c.last.parents (collectWindow untilHeight c.last) with
    err' | blks
  · exact .failed _
  change CollectOutcome src untilHeight c bad
    ((takeBlocks src untilHeight blks { c with calls := c.calls + 1 } >>= _) bad)
  rcases takeBlocks_cases blks { c with calls := c.calls + 1 } bad with
    ⟨pre, post, hblks, hpost, htake⟩ | ⟨pre, b, post, hblks, bc, hbc, reason, err', hreason, htake⟩
  · rw [bind_of_ok htake]
    rcases post with - | ⟨b, post⟩
    · obtain rfl : blks = pre := hblks.trans (append_nil pre)
      exact .taken hget
    · exact .ended hget hblks (hpost b rfl)
  · rw [bind_of_error htake]
    exact .badAnswer err' hget hblks hbc hreason

variable {bad' : BadBlockCache}

lemma CollectOutcome.bad_eq {r : Collected × Bool}
    (h : CollectOutcome src untilHeight c bad (.ok r, bad')) : bad' = bad := by
  cases h <;> rfl

/-- What the rounds keep holds when the loop ends, or in the round that fails. -/
lemma collectHeadersLoop_cases (Inv : Collected → Prop)
    (hstep : ∀ {c c' : Collected} {ended : Bool}, Inv c → c.last.height > untilHeight →
      CollectOutcome src untilHeight c bad (.ok (c', ended), bad) → Inv c')
    (fuel : ℕ) (hc : Inv c) :
    (∃ c', Inv c' ∧ (c'.last.height ≤ untilHeight ∨ ∃ c0, Inv c0 ∧
        CollectOutcome src untilHeight c0 bad (.ok (c', true), bad)) ∧
      collectHeadersLoop src untilHeight fuel c bad = (.ok (some c'), bad)) ∨
    collectHeadersLoop src untilHeight fuel c bad = (.ok none, bad) ∨
    ∃ c' err bad', Inv c' ∧ CollectOutcome src untilHeight c' bad (.error err, bad') ∧
      collectHeadersLoop src untilHeight fuel c bad = (.error err, bad') := by
  induction fuel generalizing c with
  | zero => exact .inr (.inl rfl)
  | succ fuel ih =>
    rw [collectHeadersLoop]
    split_ifs with hheight
    swap
    · exact .inl ⟨c, hc, .inl (Int64.not_lt.mp hheight), rfl⟩
    have houtcome : CollectOutcome src untilHeight c bad _ := collectStep_outcome
    rcases hround : collectStep src untilHeight c bad with ⟨err | ⟨c', ended⟩, bad'⟩
    · grind [bind_of_error]
    · rw [hround] at houtcome
      obtain rfl := houtcome.bad_eq
      have hc' := hstep hc hheight houtcome
      rw [bind_of_ok hround]
      cases ended with
      | true => exact .inl ⟨c', hc', .inr ⟨c, hc, houtcome⟩, rfl⟩
      | false => exact ih hc'

/-! ## The chain that is collected -/

def TipSet.IsOver (hashing : Hashing) (ts pts : TipSet) : Prop := pts.NamedBy hashing ts.parents

structure LinkedFrom (hashing : Hashing) (tsk : List Cid) (out : List TipSet) : Prop where
  first : ∃ ts ∈ out.head?, ts.NamedBy hashing tsk
  linked : out.IsChain (TipSet.IsOver hashing)

structure Connected (hashing : Hashing) (incoming : TipSet) (l : List TipSet) : Prop where
  first : l.head? = some incoming
  linked : l.IsChain (TipSet.IsOver hashing)

variable {out : List TipSet} {incoming : TipSet}

lemma Connected.append {hashing : Hashing} (h : Connected hashing incoming c.blockSet)
    (hout : LinkedFrom hashing c.last.parents out) :
    Connected hashing incoming (c.blockSet ++ out) := by
  refine ⟨Collected.head?_blockSet_append.trans h.first, ?_⟩
  refine isChain_append.mpr ⟨h.linked, hout.linked, fun x hx y hy => ?_⟩
  cases Collected.getLast?_blockSet.symm.trans hx
  obtain ⟨ts, hts, hnamed⟩ := hout.first
  cases hts.symm.trans hy
  exact hnamed

lemma LinkedFrom.of_append {hashing : Hashing} {tsk : List Cid} {pre post : List TipSet}
    (h : LinkedFrom hashing tsk (pre ++ post)) (hpre : pre ≠ []) : LinkedFrom hashing tsk pre := by
  refine ⟨?_, (isChain_append.mp h.linked).1⟩
  have hhead : (pre ++ post).head? = pre.head? := head?_append_of_ne_nil pre hpre
  rw [← hhead]
  exact h.first

variable (src) in
/-- Whatever is asked for, and whenever, what `GetBlocks` returns is linked and starts there. -/
def AnswersLinked : Prop :=
  ∀ n tsk count out, src.getBlocks n tsk count = .ok out → LinkedFrom src.cs.hashing tsk out

lemma Connected.step (haddr : src.cs.Addressed) (hanswers : AnswersLinked src) {c' : Collected}
    {ended : Bool} (hc : Connected src.cs.hashing incoming c.blockSet)
    (h : CollectOutcome src untilHeight c bad (.ok (c', ended), bad)) :
    Connected src.cs.hashing incoming c'.blockSet := by
  have happendAll (l : List TipSet) :
      (Collected.appendAll { c with calls := c.calls + 1 } l).blockSet = c.blockSet ++ l :=
    Collected.blockSet_appendAll
  cases h with
  | loaded hload =>
    exact hc.append ⟨⟨_, rfl, namedBy_of_loadTipSet haddr hload⟩, .singleton _⟩
  | @taken blks hget =>
    have happend := hc.append (hanswers _ _ _ _ hget)
    rw [← happendAll] at happend
    exact happend
  | @ended blks pre post b hget hblks =>
    have hlinked := hanswers _ _ _ _ hget
    rw [hblks] at hlinked
    rw [happendAll]
    rcases pre with - | ⟨ts, pre⟩
    · rwa [append_nil]
    · exact hc.append (hlinked.of_append (cons_ne_nil ts pre))

def LoadsParent (cs : ChainStore) (ts pts : TipSet) : Prop := loadTipSet cs ts.parents = .ok pts

lemma syncForkLoop_eq_ok {fuel : ℕ} {nts : TipSet} {before tips fork : List TipSet}
    (h : syncForkLoop src fuel nts before tips = .ok (some fork)) :
    ∃ pre tip post x, tips = pre ++ tip :: post ∧ fork = before ++ (pre ++ [tip]) ∧
      Relation.ReflTransGen (LoadsParent src.cs) nts x ∧ x.equals src.cs.hashing tip = true := by
  induction fuel generalizing nts before tips with
  | zero => cases h
  | succ fuel ih =>
    cases tips with
    | nil => cases h
    | cons tip tips =>
      rw [syncForkLoop] at h
      split_ifs at h with hzero hgenesis hequal hheight
      · cases h
        exact ⟨[], tip, tips, nts, rfl, rfl, .refl, hequal⟩
      · grind
      · split at h
        · cases h
        · rename_i pts hload
          obtain ⟨pre, tip', post, x, htips, hfork, hx, hequal'⟩ := ih h
          exact ⟨pre, tip', post, x, htips, hfork, .head hload hx, hequal'⟩

inductive MeetsHead (cs : ChainStore) (known last : TipSet) : Prop where
  | child (h : last.IsOver cs.hashing known)
  | sibling (h : last.parents = known.parents)
  | ancestor {x : TipSet} (h : Relation.TransGen (LoadsParent cs) known x)
      (hequal : x.equals cs.hashing last = true)

variable {known : TipSet}

lemma linkHeaders_cases {fuel : ℕ} {l : List TipSet}
    (h : linkHeaders src fuel incoming known c bad = (.ok (some l), bad')) :
    (l = c.blockSet ∧ (cidArrsEqual c.last.parents (known.cids src.cs.hashing) = true ∨
      c.last.parents = known.parents)) ∨
    ∃ pre tip post x, src.getBlocks c.calls c.last.parents src.forkLengthThreshold =
        .ok (pre ++ tip :: post) ∧ l = c.blockSet ++ (pre ++ [tip]) ∧
      Relation.TransGen (LoadsParent src.cs) known x ∧ x.equals src.cs.hashing tip = true := by
  unfold linkHeaders at h
  split_ifs at h with hequal hparents
  · simp_all
  · simp_all
  · rcases hfork : syncFork src fuel c.calls c.last known with (- | err) | (- | fork)
    · rw [hfork] at h
      cases h
    · rw [hfork] at h
      cases h
    · rw [hfork] at h
      cases h
    · rw [hfork] at h
      cases h
      obtain ⟨tips, htips, hrest⟩ := Check.bind_eq_ok.mp hfork
      obtain ⟨nts, hnts, hloop⟩ := Check.bind_eq_ok.mp hrest
      obtain ⟨pre, tip, post, x, rfl, rfl, hx, hequal⟩ := syncForkLoop_eq_ok hloop
      exact .inr ⟨pre, tip, post, x, Check.mapError_eq_ok.mp htips, rfl,
        .head' (Check.mapError_eq_ok.mp hnts) hx, hequal⟩

lemma linkHeaders_eq_ok {fuel : ℕ} {l : List TipSet} (hanswers : AnswersLinked src)
    (hknown : (known.cids src.cs.hashing).Nodup) (hc : Connected src.cs.hashing incoming c.blockSet)
    (h : linkHeaders src fuel incoming known c bad = (.ok (some l), bad')) :
    Connected src.cs.hashing incoming l ∧ ∃ last ∈ l.getLast?, MeetsHead src.cs known last := by
  rcases linkHeaders_cases h with
    ⟨rfl, hequal | hparents⟩ | ⟨pre, tip, post, x, hget, rfl, hx, hequal⟩
  · exact ⟨hc, c.last, Collected.getLast?_blockSet,
      .child ((is_iff_of_cidArrsEqual hequal).mpr hknown).named⟩
  · exact ⟨hc, c.last, Collected.getLast?_blockSet, .sibling hparents⟩
  · have hlinked := hanswers _ _ _ _ hget
    rw [append_cons] at hlinked
    refine ⟨hc.append (hlinked.of_append (concat_ne_nil _ _)), tip, ?_, .ancestor hx hequal⟩
    simp

/-! ## How long it takes -/

variable (src) in
/-- The tipsets that a walk from `start` can come to. -/
inductive Visited (start : TipSet) : TipSet → Prop where
  | start : Visited start start
  | loaded {ts pts : TipSet} (h : Visited start ts) (hload : LoadsParent src.cs ts pts) :
      Visited start pts
  | answered {ts pts : TipSet} {n : ℕ} {count : Int64} {out : List TipSet} (h : Visited start ts)
      (hget : src.getBlocks n ts.parents count = .ok out) (hpts : pts ∈ out) : Visited start pts

variable (src) in
/-- On the chains that are walked, each tipset is below the one before it. -/
structure HeightsDecrease (incoming known : TipSet) : Prop where
  loaded : ∀ ts pts, Visited src incoming ts → LoadsParent src.cs ts pts → pts.height < ts.height
  answered : ∀ ts n count out, Visited src incoming ts →
    src.getBlocks n ts.parents count = .ok out →
      (ts :: out).IsChain fun ts pts => pts.height < ts.height
  known : ∀ ts pts, Relation.ReflTransGen (LoadsParent src.cs) known ts →
    LoadsParent src.cs ts pts → pts.height < ts.height

@[irreducible] def TipSet.rank (ts : TipSet) : ℕ := (ts.height.toInt + 2 ^ 63).toNat

lemma rank_lt_rank {ts pts : TipSet} (h : pts.height < ts.height) : pts.rank < ts.rank := by
  have hlt := Int64.lt_iff_toInt_lt.mp h
  have hle := Int64.le_toInt pts.height
  unfold TipSet.rank
  omega

lemma getBlocks_ne_nil {n : ℕ} {tsk : List Cid} {count : Int64}
    (h : src.getBlocks n tsk count = .ok out) : out ≠ [] := by
  obtain ⟨res, -, hres⟩ := getBlocksLoop_eq_ok h
  grind [processBlocksResponse_eq_ok, forall₂_nil_right_iff]

lemma Collected.getLast?_eq_last_appendAll {blks : List TipSet} (hblks : blks ≠ []) :
    blks.getLast? = some (c.appendAll blks).last := by
  have hlast : (c.appendAll blks).blockSet.getLast? = some (c.appendAll blks).last :=
    Collected.getLast?_blockSet
  rw [Collected.blockSet_appendAll, getLast?_append_of_ne_nil _ hblks] at hlast
  exact hlast

lemma Collected.last_appendAll_mem {blks : List TipSet} (hblks : blks ≠ []) :
    (c.appendAll blks).last ∈ blks :=
  mem_of_getLast? (Collected.getLast?_eq_last_appendAll hblks)

lemma height_lt_of_isChain {ts x : TipSet}
    (h : (ts :: out).IsChain fun ts pts => pts.height < ts.height) (hx : x ∈ out) :
    x.height < ts.height := by
  induction out generalizing ts with
  | nil => cases hx
  | cons y out ih => grind

lemma CollectOutcome.rank_lt (hdecrease : HeightsDecrease src incoming known) {c' : Collected}
    (hvisited : Visited src incoming c.last)
    (h : CollectOutcome src untilHeight c bad (.ok (c', false), bad)) :
    Visited src incoming c'.last ∧ c'.last.rank < c.last.rank := by
  cases h with
  | loaded hload =>
    exact ⟨hvisited.loaded hload, rank_lt_rank (hdecrease.loaded _ _ hvisited hload)⟩
  | @taken blks hget =>
    have hmem : (Collected.appendAll { c with calls := c.calls + 1 } blks).last ∈ blks :=
      Collected.last_appendAll_mem (getBlocks_ne_nil hget)
    exact ⟨hvisited.answered hget hmem,
      rank_lt_rank (height_lt_of_isChain (hdecrease.answered _ _ _ _ hvisited hget) hmem)⟩

lemma collectHeadersLoop_ends (hdecrease : HeightsDecrease src incoming known)
    (hvisited : Visited src incoming c.last) (m : ℕ) (hm : c.last.rank < m) :
    ∃ r, r.1 ≠ .ok none ∧ ∀ k, collectHeadersLoop src untilHeight (m + k) c bad = r := by
  induction m generalizing c with
  | zero => exact absurd hm (Nat.not_lt_zero _)
  | succ m ih =>
    have hloop (k : ℕ) : collectHeadersLoop src untilHeight (m + 1 + k) c bad =
        (if c.last.height > untilHeight then do
          let (c', ended) ← collectStep src untilHeight c
          if ended then pure (some c') else collectHeadersLoop src untilHeight (m + k) c'
        else pure (some c) : Act BadBlockCache NodeErr (Option Collected)) bad := by
      rw [Nat.add_right_comm, collectHeadersLoop]
    by_cases hheight : c.last.height > untilHeight
    swap
    · exact ⟨(.ok (some c), bad), nofun, fun k => by rw [hloop, if_neg hheight]; rfl⟩
    simp only [hloop, if_pos hheight]
    have houtcome : CollectOutcome src untilHeight c bad _ := collectStep_outcome
    rcases hround : collectStep src untilHeight c bad with ⟨err | ⟨c', ended⟩, bad'⟩
    · exact ⟨(.error err, bad'), nofun, fun k => bind_of_error hround⟩
    rw [hround] at houtcome
    obtain rfl := houtcome.bad_eq
    cases ended with
    | true => exact ⟨(.ok (some c'), bad'), nofun, fun k => bind_of_ok hround⟩
    | false =>
      obtain ⟨hvisited', hrank⟩ := houtcome.rank_lt hdecrease hvisited
      obtain ⟨r, hr, hfuel⟩ := ih hvisited' (hrank.trans_le (Nat.le_of_lt_succ hm))
      exact ⟨r, hr, fun k => (bind_of_ok hround).trans (hfuel k)⟩

lemma syncForkLoop_ends {nts : TipSet} {before tips : List TipSet}
    (hdecrease : ∀ ts pts, Relation.ReflTransGen (LoadsParent src.cs) nts ts →
      LoadsParent src.cs ts pts → pts.height < ts.height)
    {m : ℕ} (hm : nts.rank + tips.length < m) :
    ∃ r, r ≠ .ok none ∧ ∀ k, syncForkLoop src (m + k) nts before tips = r := by
  induction m generalizing nts before tips with
  | zero => exact absurd hm (Nat.not_lt_zero _)
  | succ m ih =>
    simp only [Nat.add_right_comm m 1]
    cases tips with
    | nil => exact ⟨.error .tooLong, nofun, fun k => rfl⟩
    | cons tip tips =>
      simp only [syncForkLoop]
      rw [length_cons] at hm
      split_ifs with hzero hgenesis hequal hheight
      · simp
      · simp
      · simp
      · exact ih hdecrease (by omega)
      · rcases hload : loadTipSet src.cs nts.parents with err | pts
        · simp
        · have hrank := rank_lt_rank (hdecrease nts pts .refl hload)
          refine ih (fun ts pts' hts => hdecrease ts pts' (hts.head hload)) ?_
          rw [length_cons]
          omega

lemma linkHeaders_ends (c : Collected) (bad : BadBlockCache)
    (hdecrease : HeightsDecrease src incoming known) :
    ∃ m r, r.1 ≠ .ok none ∧ ∀ k, linkHeaders src (m + k) incoming known c bad = r := by
  unfold linkHeaders
  split_ifs
  · exact ⟨0, (.ok (some c.blockSet), bad), nofun, fun k => rfl⟩
  · exact ⟨0, (.ok (some c.blockSet), bad), nofun, fun k => rfl⟩
  obtain ⟨m, r, hr, hfork⟩ : ∃ m r, r ≠ .ok none ∧
      ∀ k, syncFork src (m + k) c.calls c.last known = r := by
    unfold syncFork
    rcases src.getBlocks c.calls c.last.parents src.forkLengthThreshold with err | tips
    · exact ⟨0, .error (.other err), nofun, fun k => rfl⟩
    rcases hload : loadTipSet src.cs known.parents with err | nts
    · refine ⟨0, _, ?_, fun k => rfl⟩
      exact nofun
    · obtain ⟨r, hr, hloop⟩ := syncForkLoop_ends
        (fun ts pts hts => hdecrease.known ts pts (hts.head hload))
        (Nat.lt_succ_self (nts.rank + tips.length))
      exact ⟨_, r, hr, hloop⟩
  refine ⟨m, ?_⟩
  simp only [hfork]
  rcases r with (- | err) | (- | fork)
  · refine ⟨_, ?_, fun k => rfl⟩
    exact nofun
  · simp
  · cases hr rfl
  · simp

/-- If the answers of `GetBlocks` are linked and start where they were asked to, then what
`collectHeaders` returns is a chain from the tipset down to a child of the head, a sibling of it or
one of its proper ancestors. It returns whenever the heights decrease along the chains. -/
theorem collectHeaders_connected (incoming known : TipSet) (haddr : src.cs.Addressed)
    (hknown : (known.cids src.cs.hashing).Nodup) (hanswers : AnswersLinked src) :
    (∀ fuel bad bad' l, collectHeaders src fuel incoming known bad = (.ok (some l), bad') →
      Connected src.cs.hashing incoming l ∧ ∃ last ∈ l.getLast?, MeetsHead src.cs known last) ∧
    (HeightsDecrease src incoming known → ∀ bad, ∃ m r, r.1 ≠ .ok none ∧
      ∀ fuel ≥ m, collectHeaders src fuel incoming known bad = r) := by
  constructor
  · intro fuel bad bad' l h
    obtain ⟨-, bad1, -, hrest⟩ := bind_eq_ok h
    obtain ⟨c, bad2, hloop, hlink⟩ := bind_eq_ok hrest
    cases c with
    | none => cases hlink
    | some c =>
      have hstart : Connected src.cs.hashing incoming
          (⟨[], incoming, [], 0⟩ : Collected).blockSet := ⟨rfl, .singleton incoming⟩
      rcases collectHeadersLoop_cases (fun c => Connected src.cs.hashing incoming c.blockSet)
          (fun hc _ hround => hc.step haddr hanswers hround) fuel hstart with
        ⟨c', hc', -, hloop'⟩ | hloop' | ⟨c', err, bad', -, -, hloop'⟩
      · cases hloop.symm.trans hloop'
        exact linkHeaders_eq_ok hanswers hknown hc' hlink
      · cases hloop.symm.trans hloop'
      · cases hloop.symm.trans hloop'
  · intro hdecrease bad
    unfold collectHeaders
    rcases hcheck : checkIncoming src incoming bad with ⟨err | checked, bad1⟩
    · exact ⟨0, (.error err, bad1), nofun, fun fuel _ => bind_of_error hcheck⟩
    obtain ⟨r, hr, hloop⟩ : ∃ r, r.1 ≠ .ok none ∧ ∀ k, collectHeadersLoop src (known.height + 1)
        (incoming.rank + 1 + k) ⟨[], incoming, [], 0⟩ bad1 = r :=
      collectHeadersLoop_ends hdecrease .start (incoming.rank + 1) (Nat.lt_succ_self _)
    rcases r with ⟨err | - | c, bad2⟩
    · refine ⟨incoming.rank + 1, (.error err, bad2), nofun, fun fuel hfuel => ?_⟩
      obtain ⟨k, rfl⟩ := Nat.exists_eq_add_of_le hfuel
      exact (bind_of_ok hcheck).trans (bind_of_error (hloop k))
    · cases hr rfl
    · obtain ⟨m, r, hr, hlink⟩ := linkHeaders_ends c bad2 hdecrease
      refine ⟨max m (incoming.rank + 1), r, hr, fun fuel hfuel => ?_⟩
      obtain ⟨k, rfl⟩ := Nat.exists_eq_add_of_le ((le_max_right _ _).trans hfuel)
      obtain ⟨k', hk'⟩ := Nat.exists_eq_add_of_le ((le_max_left _ _).trans hfuel)
      refine (bind_of_ok hcheck).trans ((bind_of_ok (hloop k)).trans ?_)
      rw [hk']
      exact hlink k'

end

def sampleWide : TipSet :=
  ⟨sampleHeader (.id 1001) [], [sampleHeader (.id 1000) []], by simp [sampleHeader],
    by simp [sampleHeader]⟩

def sampleNarrow : TipSet := .single (sampleOver (.id 1000) sampleKey).header

def sampleSourceOf (key : List Cid) (ts : TipSet) : HeaderSource where
  cs := sampleStore []
  genesis := .single sampleGenesis
  forkLengthThreshold := 900
  peers _ req :=
    if req.start = key ∧ req.requestLength < 900 then samplePeers [ts.blocks] req else []

lemma sampleSourceOf_getBlocks {key : List Cid} {ts : TipSet}
    (hts : newTipSet sampleHashing ts.blocks = .ok ts) {n : ℕ} {tsk : List Cid} {count : Int64}
    {out : List TipSet} (h : (sampleSourceOf key ts).getBlocks n tsk count = .ok out) :
    tsk = key ∧ count.toUInt64 < 900 ∧ out = [ts] := by
  by_cases hreq : tsk = key ∧ count.toUInt64 < 900
  · have hpeers : (sampleSourceOf key ts).peers n ⟨tsk, count.toUInt64, bsOptBlocks⟩ =
        samplePeers [ts.blocks] ⟨tsk, count.toUInt64, bsOptBlocks⟩ := if_pos hreq
    rw [HeaderSource.getBlocks, getBlocks, hpeers] at h
    obtain ⟨res, hres, hout⟩ := getBlocksLoop_eq_ok h
    cases hres
    obtain ⟨-, htss, -⟩ := processBlocksResponse_eq_ok.mp hout
    obtain ⟨x, l, hx, hl, rfl⟩ := forall₂_cons_left_iff.mp htss
    obtain rfl := forall₂_nil_left_iff.mp hl
    cases hx.symm.trans hts
    exact ⟨hreq.1, hreq.2, rfl⟩
  · have hpeers : (sampleSourceOf key ts).peers n ⟨tsk, count.toUInt64, bsOptBlocks⟩ = [] :=
      if_neg hreq
    rw [HeaderSource.getBlocks, getBlocks, hpeers] at h
    cases h

lemma sampleSourceOf_linked {key : List Cid} {ts : TipSet}
    (hts : newTipSet sampleHashing ts.blocks = .ok ts) (hnamed : ts.NamedBy sampleHashing key) :
    AnswersLinked (sampleSourceOf key ts) := by
  intro n tsk count out h
  obtain ⟨rfl, -, rfl⟩ := sampleSourceOf_getBlocks hts h
  exact ⟨⟨ts, rfl, hnamed⟩, .singleton _⟩

def sampleHeaderSource : HeaderSource := sampleSourceOf sampleKey sampleWide

lemma sampleWide_newTipSet : newTipSet sampleHashing sampleWide.blocks = .ok sampleWide := by
  decide +kernel

lemma sampleHeaderSource_loads : (∀ ts, ¬LoadsParent sampleHeaderSource.cs sampleNarrow ts) ∧
    (∀ ts, LoadsParent sampleHeaderSource.cs sampleWide ts → ts = .single sampleGenesis) ∧
    ∀ ts, ¬LoadsParent sampleHeaderSource.cs (.single sampleGenesis) ts := by
  have hnarrow : (loadTipSet sampleHeaderSource.cs sampleNarrow.parents).toOption = none := by
    decide +kernel
  have hwide : loadTipSet sampleHeaderSource.cs sampleWide.parents =
      .ok (.single sampleGenesis) := by
    decide +kernel
  have hgenesis : (loadTipSet sampleHeaderSource.cs []).toOption = none := by decide +kernel
  refine ⟨fun ts h => ?_, fun ts h => Except.ok.inj (h.symm.trans hwide), fun ts h => ?_⟩
  · rw [show loadTipSet _ _ = .ok ts from h] at hnarrow
    cases hnarrow
  · rw [show loadTipSet _ [] = .ok ts from h] at hgenesis
    cases hgenesis

lemma sampleHeaderSource_visited {ts : TipSet} (h : Visited sampleHeaderSource sampleNarrow ts) :
    ts = sampleNarrow ∨ ts = sampleWide ∨ ts = .single sampleGenesis := by
  obtain ⟨hnarrow, hwide, hgenesis⟩ := sampleHeaderSource_loads
  induction h with
  | start => exact .inl rfl
  | loaded _ hload ih => grind
  | answered _ hget hpts =>
    rw [(sampleSourceOf_getBlocks sampleWide_newTipSet hget).2.2] at hpts
    exact .inr (.inl (mem_singleton.mp hpts))

lemma sampleHeaderSource_decreases :
    HeightsDecrease sampleHeaderSource sampleNarrow (.single sampleGenesis) := by
  obtain ⟨hnarrow, hwide, hgenesis⟩ := sampleHeaderSource_loads
  refine ⟨fun ts pts hts hload => ?_, fun ts n count out hts hget => ?_, fun ts pts hts hload => ?_⟩
  · rcases sampleHeaderSource_visited hts with rfl | rfl | rfl
    · exact absurd hload (hnarrow _)
    · rw [hwide _ hload]
      decide
    · exact absurd hload (hgenesis _)
  · obtain ⟨hparents, -, rfl⟩ := sampleSourceOf_getBlocks sampleWide_newTipSet hget
    rcases sampleHeaderSource_visited hts with rfl | rfl | rfl
    · decide
    · exact absurd hparents (by decide +kernel)
    · exact absurd hparents (by decide +kernel)
  · grind

theorem sampleHeaderSource_connected :
    ∃ l bad, collectHeaders sampleHeaderSource 2 sampleNarrow (.single sampleGenesis)
        (fun _ => none) = (.ok (some l), bad) ∧ l = [sampleNarrow, sampleWide] ∧
      Connected sampleHashing sampleNarrow l ∧
      (∃ last ∈ l.getLast?, MeetsHead sampleHeaderSource.cs (.single sampleGenesis) last) ∧
      ∃ m r, r.1 ≠ .ok none ∧ ∀ fuel ≥ m,
        collectHeaders sampleHeaderSource fuel sampleNarrow (.single sampleGenesis)
          (fun _ => none) = r := by
  have hlinked : AnswersLinked sampleHeaderSource :=
    sampleSourceOf_linked sampleWide_newTipSet (by decide +kernel)
  obtain ⟨hconnected, hends⟩ := collectHeaders_connected sampleNarrow (.single sampleGenesis)
    (sampleStore_addressed []) (by decide +kernel) hlinked
  have hrun : (collectHeaders sampleHeaderSource 2 sampleNarrow (.single sampleGenesis)
      fun _ => none).1 = .ok (some [sampleNarrow, sampleWide]) := by
    decide +kernel
  obtain ⟨hl, hmeets⟩ := hconnected 2 (fun _ => none) _ _ (Prod.ext hrun rfl)
  exact ⟨_, _, Prod.ext hrun rfl, rfl, hl, hmeets, hends sampleHeaderSource_decreases _⟩

end Lotus
