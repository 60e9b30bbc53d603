import Lotus.Chain.Expand
import Lotus.Chain.Reorg
import Lotus.Chain.Weight

/-!
# Head changes

How the head of the node changes, and what a subscriber of the changes can make of them.
-/

namespace Lotus

open Act List Function

/-! ## The node -/

/-- The part of `ChainStore` that changes. -/
structure HeadState where
  /-- The headers in the block store -/
  blocks : Cid → Option BlockHeader
  tipsets : TipSetTracker
  heaviest : Option TipSet
  /-- The reorgs in the channel, each with the old head and the new one -/
  reorgCh : List (TipSet × TipSet)

/-- The exchange of two elements of a slice. -/
def swapAt {α : Type} (l : List α) (i j : ℕ) : List α :=
  match l[i]?, l[j]? with
  | some x, some y => (l.set i y).set j x
  | _, _ => l

/-- The loop that reverses a slice in place, with the indices below `n` to go. -/
def reverseLoop {α : Type} (l : List α) : ℕ → List α
  | 0 => l
  | i + 1 => reverseLoop (swapAt l i (l.length - 1 - i)) i

section

variable (syncer : Syncer)

def HeadState.store (st : HeadState) : ChainStore :=
  { syncer.sm.cs with
    getBlock := fun c =>
      match st.blocks c with
      | some b => .ok b
      | none => .error (.new "blockstore: block not found") }

def HeadState.persist (bs : List BlockHeader) (st : HeadState) : HeadState :=
  { st with
    blocks := bs.foldl
      (fun blocks b => update blocks (syncer.sm.cs.hashing.headerCid b) (some b))
      st.blocks }

def persistBlockHeaders (bs : List BlockHeader) : Act HeadState NodeErr Unit :=
  modify (HeadState.persist syncer bs)

def takeHeaviestTipSet (ts : TipSet) : Act HeadState NodeErr Unit :=
  modify fun st =>
    { st with
      reorgCh :=
        match st.heaviest with
        | some old => st.reorgCh ++ [(old, ts)]
        | none => st.reorgCh
      heaviest := some ts }

def maybeTakeHeavier (ts : TipSet) : Act HeadState NodeErr Unit := do
  let w ← ofExcept (weight syncer (some ts))
  let st ← get
  let heaviestW ← ofExcept (weight syncer st.heaviest)
  if w > heaviestW then takeHeaviestTipSet ts else pure ()

def putTipSet (ts : TipSet) : Act HeadState NodeErr Unit := do
  persistBlockHeaders syncer ts.blocks
  let st ← get
  let expanded ← ofExcept ((expandTipset (st.store syncer) st.tipsets ts.first).mapError
    (.wrap "errored while expanding tipset"))
  (maybeTakeHeavier syncer expanded).mapError
    (.wrap "MaybeTakeHeavierTipSet failed in PutTipSet")

def addBlock (b : BlockHeader) : Act HeadState NodeErr Unit := do
  persistBlockHeaders syncer [b]
  let st ← get
  let ts ← ofExcept (expandTipset (st.store syncer) st.tipsets b)
  (maybeTakeHeavier syncer ts).mapError (.wrap "MaybeTakeHeavierTipSet failed")

inductive HeadCall where
  | putTipSet (ts : TipSet)
  | addBlock (b : BlockHeader)
  | maybeTakeHeavier (ts : TipSet)
  | addToTipSetTracker (b : BlockHeader)

def HeadCall.run (call : HeadCall) (st : HeadState) : HeadState :=
  match call with
  | .putTipSet ts => (Lotus.putTipSet syncer ts st).2
  | .addBlock b => (Lotus.addBlock syncer b st).2
  | .maybeTakeHeavier ts => (Lotus.maybeTakeHeavier syncer ts st).2
  | .addToTipSetTracker b =>
    { st with tipsets := Lotus.addToTipSetTracker syncer.sm.cs.hashing b st.tipsets }

/-- The node and a subscriber, which has no stack any more once it had to take off a tipset that was
not on top. -/
structure Watched where
  node : HeadState
  stack : Option (List TipSet)

/-- `reorgWorker` takes a reorg out of the channel, and tells the subscriber. -/
def deliver (w : Watched) : Watched :=
  match w.node.reorgCh with
  | [] => w
  | r :: reorgCh =>
    match reorgOps (w.node.store syncer) r.1 r.2 with
    | .error _ => { w with node := { w.node with reorgCh } }
    | .ok (revert, apply) =>
      { node := { w.node with reorgCh }
        stack := w.stack.bind (Lineage.replay revert (reverseLoop apply (apply.length / 2))) }

end

section Reverse

variable {α : Type} {l : List α}

lemma length_swapAt (l : List α) (i j : ℕ) : (swapAt l i j).length = l.length := by
  unfold swapAt
  split <;> simp

lemma getElem?_swapAt {i j : ℕ} (hi : i < l.length) (hj : j < l.length) (k : ℕ) :
    (swapAt l i j)[k]? = if k = j then l[i]? else if k = i then l[j]? else l[k]? := by
  rw [swapAt, getElem?_eq_getElem hi, getElem?_eq_getElem hj]
  grind

lemma getElem?_reverseLoop {n : ℕ} (hn : 2 * n ≤ l.length) {k : ℕ} (hk : k < l.length) :
    (reverseLoop l n)[k]? = if k < n ∨ l.length - n ≤ k then l[l.length - 1 - k]? else l[k]? := by
  induction n generalizing l with
  | zero =>
    rw [reverseLoop, if_neg (by omega)]
  | succ n ih =>
    have hlen := length_swapAt l n (l.length - 1 - n)
    rw [reverseLoop, ih (by omega) (by omega), hlen]
    rw [getElem?_swapAt (by omega) (by omega), getElem?_swapAt (by omega) (by omega)]
    by_cases hlow : k < n ∨ l.length - n ≤ k
    · rw [if_pos hlow, if_neg (by omega), if_neg (by omega), if_pos (by omega)]
    · rw [if_neg hlow]
      by_cases hself : k = l.length - 1 - n
      · rw [if_pos hself, if_pos (by omega)]
        congr 1
        omega
      · rw [if_neg hself]
        by_cases hmirror : k = n
        · rw [if_pos hmirror, if_pos (by omega), hmirror]
        · rw [if_neg hmirror, if_neg (by omega)]

lemma length_reverseLoop (l : List α) (n : ℕ) : (reverseLoop l n).length = l.length := by
  induction n generalizing l with
  | zero => rfl
  | succ n ih => rw [reverseLoop, ih, length_swapAt]

lemma reverseLoop_eq_reverse (l : List α) : reverseLoop l (l.length / 2) = l.reverse := by
  apply ext_getElem?
  intro k
  by_cases hk : k < l.length
  · rw [getElem?_reverseLoop (by omega) hk, getElem?_reverse hk]
    split_ifs with hmoved
    · rfl
    · grind
  · grind [getElem?_eq_none, length_reverseLoop, length_reverse]

end Reverse

section Blocks

variable {cs cs' : ChainStore} {g ts : TipSet} {l : List TipSet} {b : BlockHeader}

def Rooted (cs : ChainStore) (g : TipSet) (b : BlockHeader) : Prop :=
  g.blocks = [b] ∨ ∃ pts l, loadTipSet cs b.parents = .ok pts ∧ ChainOf cs g pts l ∧
    pts.level < b.height.toInt

lemma Rooted.mono (h : Rooted cs g b) (hext : KeepsBlocks cs cs') : Rooted cs' g b := by
  refine h.imp_right ?_
  rintro ⟨pts, l, hload, hchain, hlt⟩
  exact ⟨pts, l, hext.loadTipSet hload, hext.chainOf hchain, hlt⟩

variable {tracked : Int64 → List BlockHeader}

lemma Tracks.mono {tipsets : TipSetTracker} (h : Tracks cs tipsets tracked)
    (hext : KeepsBlocks cs cs') : Tracks cs' tipsets tracked where
  cids_eq n := by rw [hext.hashing_eq, h.cids_eq]
  height_eq := h.height_eq
  stored n x hx := hext.blockStored (h.stored n x hx)

lemma ChainOf.genesis_self (h : ChainOf cs g ts l) : ChainOf cs g g [] :=
  .genesis (h.stored g h.genesis_mem) h.height_zero h.parentless

lemma exists_chainOf_expanded (hsum : Function.Injective cs.hashing.sum256)
    (hgenesis : ChainOf cs g g []) {tipsets : TipSetTracker} (htracks : Tracks cs tipsets tracked)
    (htracked : ∀ n, ∀ x ∈ tracked n, Rooted cs g x) (hb : BlockStored cs b) (hroot : Rooted cs g b)
    (hts : expandTipset cs tipsets b = .ok ts) : ∃ l, ChainOf cs g ts l := by
  rw [expandTipset_eq htracks hb] at hts
  have hself : b ∈ expansion tracked b := mem_cons_self
  have hmem : ∀ x ∈ ts.blocks, x ∈ expansion tracked b := fun x hx => by
    rwa [newTipSet_blocks hts, mem_sortBlocks] at hx
  have hbts : b ∈ ts.blocks := by
    rw [newTipSet_blocks hts]
    exact mem_sortBlocks.mpr hself
  have hstored : Stored cs ts := by
    refine stored_of_newTipSet hsum (fun x hx => ?_) hts
    rcases eq_or_mem_tracked_of_mem_expansion hx with rfl | hx
    · exact hb
    · exact htracks.stored _ x hx
  rcases hroot with hfirst | ⟨pts, l, hload, hchain, hlt⟩
  · -- every block without parents is that of the genesis
    have honly : ∀ x ∈ ts.blocks, x = b := by
      intro x hx
      have hroot : Rooted cs g x := by
        rcases eq_or_mem_tracked_of_mem_expansion (hmem x hx) with rfl | hx
        · exact .inl hfirst
        · exact htracked _ x hx
      have hbg : b.parents = [] := by
        grind [hgenesis.parentless, g.parents_of_mem, mem_singleton_self]
      rcases hroot with hx' | ⟨pts, l, hload, -⟩ <;> simp_all [ts.parents_of_mem, loadTipSet_nil]
    have hnone :
        Select.firsts BlockHeader.miner [b.miner] (candidates b (tracked b.height)) = [] := by
      refine eq_nil_iff_forall_not_mem.mpr fun x hx => ?_
      have hxb := honly x (newTipSet_blocks hts ▸ mem_sortBlocks.mpr (mem_cons_of_mem b hx))
      rw [hxb] at hx
      exact Select.not_mem_of_mem_firsts hx (mem_singleton_self _)
    have halone : ts.blocks = [b] := by
      rw [newTipSet_blocks hts, expansion, hnone]
      rfl
    exact ⟨[], TipSet.eq_of_blocks (halone.trans hfirst.symm) ▸ hgenesis⟩
  · have hlevel : b.height.toInt = ts.level := congrArg Int64.toInt (ts.height_of_mem hbts)
    exact ⟨_, hchain.link hstored (ts.parents_of_mem hbts ▸ hload) (hlevel ▸ hlt)⟩

end Blocks

/-! ## Calls -/

section Calls

variable {syncer : Syncer} {g ts : TipSet} {st : HeadState}

def NoClash (hashing : Hashing) (blocks : Cid → Option BlockHeader) (bs : List BlockHeader) :
    Prop :=
  ∀ b ∈ bs, (∀ x, blocks (hashing.headerCid b) = some x → x = b) ∧
    ∀ x ∈ bs, hashing.headerCid x = hashing.headerCid b → x = b

def HeadCall.Admissible (syncer : Syncer) (g : TipSet) (st : HeadState) : HeadCall → Prop
  | .putTipSet ts => NoClash syncer.sm.cs.hashing st.blocks ts.blocks ∧
      ∀ b ∈ ts.blocks, Rooted (st.store syncer) g b
  | .addBlock b => NoClash syncer.sm.cs.hashing st.blocks [b] ∧ Rooted (st.store syncer) g b
  | .maybeTakeHeavier ts => ∃ l, ChainOf (st.store syncer) g ts l
  | .addToTipSetTracker b => BlockStored (st.store syncer) b ∧ Rooted (st.store syncer) g b

lemma getBlock_store_eq_ok {c : Cid} {b : BlockHeader} :
    (st.store syncer).getBlock c = .ok b ↔ st.blocks c = some b := by
  show (match st.blocks c with | some b => Except.ok b | none => .error _) = _ ↔ _
  grind

lemma persisted_spec {hashing : Hashing} {blocks : Cid → Option BlockHeader}
    {bs : List BlockHeader} (h : NoClash hashing blocks bs) :
    (∀ c x, blocks c = some x → bs.foldl
      (fun blocks b => update blocks (hashing.headerCid b) (some b)) blocks c = some x) ∧
    ∀ b ∈ bs, bs.foldl (fun blocks b => update blocks (hashing.headerCid b) (some b)) blocks
        (hashing.headerCid b) = some b := by
  induction bs generalizing blocks with
  | nil => exact ⟨fun c x hx => hx, forall_mem_nil _⟩
  | cons b bs ih =>
    have hnext : NoClash hashing (update blocks (hashing.headerCid b) (some b)) bs := by
      intro y hy
      obtain ⟨hold, hnew⟩ := h y (mem_cons_of_mem b hy)
      grind
    obtain ⟨hkept, hwritten⟩ := ih hnext
    refine ⟨fun c x hx => hkept c x ?_, fun y hy => ?_⟩
    · by_cases hcid : c = hashing.headerCid b
      · rw [hcid] at hx ⊢
        rw [update_self, (h b mem_cons_self).1 x hx]
      · rwa [update_of_ne hcid]
    · rcases mem_cons.mp hy with rfl | hy <;> simp_all

variable (syncer g) in
def TracksRooted (st : HeadState) : Prop :=
  ∃ tracked, Tracks (st.store syncer) st.tipsets tracked ∧
    ∀ n, ∀ x ∈ tracked n, Rooted (st.store syncer) g x

variable (syncer g) in
structure Moves (st st' : HeadState) : Prop where
  extended : KeepsBlocks (st.store syncer) (st'.store syncer)
  tracksRooted : TracksRooted syncer g st'
  head : st'.heaviest = st.heaviest ∧ st'.reorgCh = st.reorgCh ∨
    ∃ old ts l w w', st.heaviest = some old ∧ st'.heaviest = some ts ∧
      st'.reorgCh = st.reorgCh ++ [(old, ts)] ∧ ChainOf (st'.store syncer) g ts l ∧
      weight syncer (some old) = .ok w ∧ weight syncer (some ts) = .ok w' ∧ w < w'

lemma TracksRooted.mono {st' : HeadState} (h : TracksRooted syncer g st)
    (hext : KeepsBlocks (st.store syncer) (st'.store syncer))
    (htipsets : st'.tipsets = st.tipsets) : TracksRooted syncer g st' := by
  obtain ⟨tracked, htracks, hrooted⟩ := h
  exact ⟨tracked, htipsets ▸ htracks.mono hext, fun n x hx => (hrooted n x hx).mono hext⟩

lemma maybeTakeHeavier_snd (ts : TipSet) (st : HeadState) : (maybeTakeHeavier syncer ts st).2 = st ∨
      (maybeTakeHeavier syncer ts st).2 = (takeHeaviestTipSet ts st).2 ∧
      ∃ w w', weight syncer st.heaviest = .ok w ∧ weight syncer (some ts) = .ok w' ∧ w < w' := by
  rw [maybeTakeHeavier]
  rcases weight syncer (some ts) with e | w'
  · exact .inl rfl
  rw [bind_of_ok (ofExcept_of_ok rfl st), bind_of_ok (get_apply st)]
  rcases weight syncer st.heaviest with e | w
  · exact .inl rfl
  rw [bind_of_ok (ofExcept_of_ok rfl st)]
  split_ifs with hgt
  · exact .inr ⟨rfl, w, w', rfl, rfl, hgt⟩
  · exact .inl rfl

variable {old : TipSet}

lemma maybeTakeHeavier_cases (hhead : st.heaviest = some old) :
    (maybeTakeHeavier syncer ts st).2 = st ∨ (maybeTakeHeavier syncer ts st).2 =
        { st with reorgCh := st.reorgCh ++ [(old, ts)], heaviest := some ts } ∧
      ∃ w w', weight syncer (some old) = .ok w ∧ weight syncer (some ts) = .ok w' ∧ w < w' := by
  rcases maybeTakeHeavier_snd ts st with hsame | ⟨htaken, hheavier⟩
  · exact .inl hsame
  · rw [takeHeaviestTipSet, modify_apply, hhead] at htaken
    exact .inr ⟨htaken, hhead ▸ hheavier⟩

variable (syncer) in
/-- `PutTipSet` stores the headers, and the head that it takes is the expanded tipset. -/
lemma putTipSet_cases (ts : TipSet) (st : HeadState) : ∃ heaviest reorgCh,
    (putTipSet syncer ts st).2 = { st.persist syncer ts.blocks with heaviest, reorgCh } ∧
      (heaviest = st.heaviest ∨ ∃ expanded, heaviest = some expanded ∧
        expandTipset ((st.persist syncer ts.blocks).store syncer) st.tipsets ts.first =
          .ok expanded) := by
  rw [putTipSet, persistBlockHeaders, bind_of_ok (modify_apply _ st), bind_of_ok (get_apply _)]
  rcases hexpand : (expandTipset ((st.persist syncer ts.blocks).store syncer)
    (st.persist syncer ts.blocks).tipsets ts.first).mapError _ with e | expanded
  · exact ⟨st.heaviest, st.reorgCh, rfl, .inl rfl⟩
  rw [bind_of_ok (ofExcept_of_ok rfl _), mapError_apply]
  rcases maybeTakeHeavier_snd expanded (st.persist syncer ts.blocks) with hsame | ⟨htaken, -⟩
  · exact ⟨st.heaviest, st.reorgCh, hsame, .inl rfl⟩
  · exact ⟨some expanded, _, htaken, .inr ⟨expanded, rfl, Check.mapError_eq_ok.mp hexpand⟩⟩

lemma maybeTakeHeavier_moves {l : List TipSet} (hhead : st.heaviest = some old)
    (htracks : TracksRooted syncer g st) (hchain : ChainOf (st.store syncer) g ts l) :
    Moves syncer g st (maybeTakeHeavier syncer ts st).2 := by
  rcases maybeTakeHeavier_cases hhead with hsame | ⟨htaken, w, w', hw, hw', hlt⟩
  · rw [hsame]
    exact ⟨.refl _, htracks, .inl ⟨rfl, rfl⟩⟩
  · rw [htaken]
    exact ⟨.refl _, htracks, .inr ⟨old, ts, l, w, w', hhead, rfl, rfl, hchain, hw, hw', hlt⟩⟩

lemma expand_moves {bs : List BlockHeader} {b : BlockHeader} {r : Except NodeErr TipSet}
    {f : NodeErr → NodeErr} (hsum : Function.Injective syncer.sm.cs.hashing.sum256)
    (hgenesis : ChainOf (st.store syncer) g g []) (hhead : st.heaviest = some old)
    (htracks : TracksRooted syncer g st) (hb : b ∈ bs)
    (hclash : NoClash syncer.sm.cs.hashing st.blocks bs) (hroot : Rooted (st.store syncer) g b)
    (hr : ∀ ts, r = .ok ts →
      expandTipset ((st.persist syncer bs).store syncer) st.tipsets b = .ok ts) :
    Moves syncer g st ((ofExcept r >>= fun ts => (maybeTakeHeavier syncer ts).mapError f)
      (st.persist syncer bs)).2 := by
  obtain ⟨hkept, hwritten⟩ := persisted_spec hclash
  have hext : KeepsBlocks (st.store syncer) ((st.persist syncer bs).store syncer) :=
    ⟨rfl, fun c x hx => getBlock_store_eq_ok.mpr (hkept c x (getBlock_store_eq_ok.mp hx))⟩
  have hpersisted : TracksRooted syncer g (st.persist syncer bs) := htracks.mono hext rfl
  rcases r with e | ts
  · exact ⟨hext, hpersisted, .inl ⟨rfl, rfl⟩⟩
  · rw [bind_of_ok (ofExcept_of_ok rfl _), mapError_apply]
    have hstored : BlockStored ((st.persist syncer bs).store syncer) b :=
      getBlock_store_eq_ok.mpr (hwritten b hb)
    obtain ⟨l, hchain⟩ : ∃ l, ChainOf ((st.persist syncer bs).store syncer) g ts l := by
      obtain ⟨tracked, htracked, hrooted⟩ := hpersisted
      exact exists_chainOf_expanded hsum (hext.chainOf hgenesis) htracked hrooted hstored
        (hroot.mono hext) (hr ts rfl)
    have hhead' : (st.persist syncer bs).heaviest = some old := hhead
    have hmoves := maybeTakeHeavier_moves hhead' hpersisted hchain
    exact ⟨hext.trans hmoves.extended, hmoves.tracksRooted, hmoves.head⟩

lemma HeadCall.moves (hsum : Function.Injective syncer.sm.cs.hashing.sum256)
    (hgenesis : ChainOf (st.store syncer) g g []) (hhead : st.heaviest = some old)
    (htracks : TracksRooted syncer g st) {call : HeadCall} (hcall : call.Admissible syncer g st) :
    Moves syncer g st (call.run syncer st) := by
  cases call with
  | putTipSet ts =>
    obtain ⟨hclash, hroot⟩ := hcall
    have hfirst : ts.first ∈ ts.blocks := mem_cons_self
    exact expand_moves hsum hgenesis hhead htracks hfirst hclash (hroot ts.first hfirst) fun _ =>
      Check.mapError_eq_ok.mp
  | addBlock b =>
    obtain ⟨hclash, hroot⟩ := hcall
    exact expand_moves hsum hgenesis hhead htracks (mem_singleton_self b) hclash hroot
      fun _ hts => hts
  | maybeTakeHeavier ts =>
    obtain ⟨l, hchain⟩ := hcall
    exact maybeTakeHeavier_moves hhead htracks hchain
  | addToTipSetTracker b =>
    obtain ⟨hb, hroot⟩ := hcall
    obtain ⟨tracked, htracked, hrooted⟩ := htracks
    obtain ⟨tracked', htracked', hmem⟩ := htracked.add hb
    refine ⟨.refl _, ⟨tracked', htracked', fun n x hx => ?_⟩, .inl ⟨rfl, rfl⟩⟩
    rcases (hmem n x).mp hx with hx | ⟨rfl, -⟩
    · exact hrooted n x hx
    · exact hroot

end Calls

/-! ## Following the head -/

section Following

variable {syncer : Syncer} {g : TipSet}

inductive Linked (cs : ChainStore) (g : TipSet) :
    TipSet → List (TipSet × TipSet) → TipSet → Prop where
  | nil {a : TipSet} {l : List TipSet} : ChainOf cs g a l → Linked cs g a [] a
  | cons {a b c : TipSet} {l : List TipSet} {reorgs : List (TipSet × TipSet)} : ChainOf cs g a l →
      Linked cs g b reorgs c → Linked cs g a ((a, b) :: reorgs) c

namespace Linked

variable {cs cs' : ChainStore} {a b c : TipSet} {reorgs : List (TipSet × TipSet)}

lemma mono (h : Linked cs g a reorgs c) (hext : KeepsBlocks cs cs') : Linked cs' g a reorgs c := by
  induction h with
  | nil hchain => exact .nil (hext.chainOf hchain)
  | cons hchain _ ih => exact .cons (hext.chainOf hchain) ih

lemma start (h : Linked cs g a reorgs c) : ∃ l, ChainOf cs g a l := by
  cases h <;> grind

lemma append {l : List TipSet} (h : Linked cs g a reorgs b) (hchain : ChainOf cs g c l) :
    Linked cs g a (reorgs ++ [(b, c)]) c := by
  induction h with
  | nil hb => exact .cons hb (.nil hchain)
  | cons ha _ ih => exact .cons ha ih

end Linked

variable (syncer g) in
structure HeadInv (w : Watched) : Prop where
  tracksRooted : TracksRooted syncer g w.node
  linked : ∃ a l head, ChainOf (w.node.store syncer) g a l ∧ w.stack = some (a :: l) ∧
    w.node.heaviest = some head ∧ Linked (w.node.store syncer) g a w.node.reorgCh head

/-- What can happen next. -/
inductive HeadEvent where
  | call (c : HeadCall)
  | deliver

variable (syncer) in
def HeadEvent.run (w : Watched) : HeadEvent → Watched
  | .call c => { w with node := c.run syncer w.node }
  | .deliver => Lotus.deliver syncer w

variable (syncer g) in
def HeadEvent.Admissible (w : Watched) : HeadEvent → Prop
  | .call c => c.Admissible syncer g w.node
  | .deliver => True

variable {w : Watched}

lemma HeadInv.of_moves {st' : HeadState} (h : HeadInv syncer g w)
    (hmoves : Moves syncer g w.node st') : HeadInv syncer g { w with node := st' } := by
  obtain ⟨a, l, head, hchain, hstack, hhead, hlinked⟩ := h.linked
  refine ⟨hmoves.tracksRooted, a, l, ?_⟩
  have hchain' := hmoves.extended.chainOf hchain
  have hlinked' := hlinked.mono hmoves.extended
  grind [hmoves.head, hlinked'.append]

lemma deliver_cons (hdepth : 2 ^ 63 ≤ syncer.sm.cs.depth) {a b : TipSet} {la lb : List TipSet}
    {reorgs : List (TipSet × TipSet)} (hreorgs : w.node.reorgCh = (a, b) :: reorgs)
    (ha : ChainOf (w.node.store syncer) g a la) (hb : ChainOf (w.node.store syncer) g b lb)
    (hstack : w.stack = some (a :: la)) :
    deliver syncer w = ⟨{ w.node with reorgCh := reorgs }, some (b :: lb)⟩ := by
  have hbound (ts : TipSet) : ts.level < (w.node.store syncer).depth := by
    have hlt : ts.level < 2 ^ 63 := ts.height.toInt_lt
    have hdepth : 2 ^ 63 ≤ (w.node.store syncer).depth := hdepth
    omega
  obtain ⟨revert, apply, x, shared, hfork, hops⟩ := reorgOps_spec ha hb (hbound a) (hbound b)
  rw [deliver, hreorgs]
  show (match reorgOps (w.node.store syncer) a b with
    | .error _ => _
    | .ok (revert, apply) => _) = _
  rw [hops]
  show Watched.mk _ (w.stack.bind _) = _
  rw [hstack, Option.bind_some, reverseLoop_eq_reverse, hfork.replay_eq]

lemma HeadInv.deliver (hdepth : 2 ^ 63 ≤ syncer.sm.cs.depth) (h : HeadInv syncer g w) :
    HeadInv syncer g (deliver syncer w) := by
  obtain ⟨a, la, head, hchain, hstack, hhead, hlinked⟩ := h.linked
  rcases hreorgs : w.node.reorgCh with - | ⟨⟨old, new⟩, reorgs⟩
  · rwa [Lotus.deliver, hreorgs]
  · rw [hreorgs] at hlinked
    cases hlinked with
    | cons ha hrest =>
      obtain ⟨lb, hb⟩ := hrest.start
      rw [deliver_cons hdepth hreorgs hchain hb hstack]
      exact ⟨h.tracksRooted, new, lb, head, hb, rfl, hhead, hrest⟩

lemma HeadInv.step (hsum : Function.Injective syncer.sm.cs.hashing.sum256)
    (hdepth : 2 ^ 63 ≤ syncer.sm.cs.depth) (h : HeadInv syncer g w) {event : HeadEvent}
    (hevent : event.Admissible syncer g w) :
    HeadInv syncer g (event.run syncer w) := by
  cases event with
  | call call =>
    obtain ⟨a, l, head, hchain, -, hhead, -⟩ := h.linked
    exact h.of_moves (HeadCall.moves hsum hchain.genesis_self hhead h.tracksRooted hevent)
  | deliver => exact h.deliver hdepth

lemma deliver_iterate (hdepth : 2 ^ 63 ≤ syncer.sm.cs.depth) {reorgs : List (TipSet × TipSet)}
    {a head : TipSet} {l : List TipSet} (hchain : ChainOf (w.node.store syncer) g a l)
    (hstack : w.stack = some (a :: l)) (hreorgs : w.node.reorgCh = reorgs)
    (hlinked : Linked (w.node.store syncer) g a reorgs head) :
    ∃ l', ChainOf (w.node.store syncer) g head l' ∧
      ((deliver syncer)^[reorgs.length] w).stack = some (head :: l') := by
  induction reorgs generalizing w a l with
  | nil =>
    cases hlinked
    simp_all
  | cons reorg reorgs ih =>
    cases hlinked with
    | @cons _ b _ _ _ _ hrest =>
      obtain ⟨lb, hb⟩ := hrest.start
      rw [length_cons, Function.iterate_succ_apply, deliver_cons hdepth hreorgs hchain hb hstack]
      exact ih (w := ⟨{ w.node with reorgCh := reorgs }, some (b :: lb)⟩) hb rfl rfl hrest

/-! ## Runs -/

variable (syncer g) in
structure Watched.Initial (w : Watched) : Prop where
  tracksRooted : TracksRooted syncer g w.node
  reorgCh_nil : w.node.reorgCh = []
  head : ∃ head l, w.node.heaviest = some head ∧ ChainOf (w.node.store syncer) g head l ∧
    w.stack = some (head :: l)

variable (syncer g) in
inductive Watched.Reached (start : Watched) : Watched → Prop where
  | start : Reached start start
  | step {w : Watched} {event : HeadEvent} : Reached start w → event.Admissible syncer g w →
      Reached start (event.run syncer w)

lemma Watched.Initial.headInv (h : w.Initial syncer g) : HeadInv syncer g w := by
  obtain ⟨head, l, hhead, hchain, hstack⟩ := h.head
  exact ⟨h.tracksRooted, head, l, head, hchain, hstack, hhead, h.reorgCh_nil ▸ .nil hchain⟩

lemma Watched.Reached.headInv (hsum : Function.Injective syncer.sm.cs.hashing.sum256)
    (hdepth : 2 ^ 63 ≤ syncer.sm.cs.depth) {start : Watched} (hstart : start.Initial syncer g)
    (h : Watched.Reached syncer g start w) : HeadInv syncer g w := by
  induction h with
  | start => exact hstart.headInv
  | step _ hevent ih => exact ih.step hsum hdepth hevent

/-- In every state that is reached, the subscriber has taken off only what was on top, and holds the
chain of the head once the channel is delivered. Every event leaves the head or makes it heavier. -/
theorem headChanges_replay (hsum : Function.Injective syncer.sm.cs.hashing.sum256)
    (hdepth : 2 ^ 63 ≤ syncer.sm.cs.depth) {start w : Watched} (hstart : start.Initial syncer g)
    (h : Watched.Reached syncer g start w) :
    (∃ stack, w.stack = some stack) ∧
    (∃ head l, w.node.heaviest = some head ∧ ChainOf (w.node.store syncer) g head l ∧
      ((deliver syncer)^[w.node.reorgCh.length] w).stack = some (head :: l)) ∧
    ∀ event : HeadEvent, event.Admissible syncer g w →
      (event.run syncer w).node.heaviest = w.node.heaviest ∨
      ∃ old new weightOld weightNew, w.node.heaviest = some old ∧
        (event.run syncer w).node.heaviest = some new ∧
        weight syncer (some old) = .ok weightOld ∧ weight syncer (some new) = .ok weightNew ∧
        weightOld < weightNew := by
  have hinv := h.headInv hsum hdepth hstart
  obtain ⟨a, l, head, hchain, hstack, hhead, hlinked⟩ := hinv.linked
  obtain ⟨l', hl', hrun⟩ := deliver_iterate hdepth hchain hstack rfl hlinked
  refine ⟨⟨_, hstack⟩, ⟨head, l', hhead, hl', hrun⟩, fun event hevent => ?_⟩
  cases event with
  | call call =>
    have hmoves := HeadCall.moves hsum hchain.genesis_self hhead hinv.tracksRooted hevent
    rcases hmoves.head with ⟨hsame, -⟩ | ⟨old, new, -, w1, w2, hold, hnew, -, -, hweights⟩
    · exact .inl hsame
    · exact .inr ⟨old, new, w1, w2, hold, hnew, hweights⟩
  | deliver =>
    left
    show (deliver syncer w).node.heaviest = _
    unfold deliver
    split
    · rfl
    · split <;> rfl

def sampleHeadSyncer : Syncer :=
  { sampleSyncer [] with
    sm := { sampleStateManager [] with cs := { sampleStore [] with depth := 2 ^ 63 } } }

def sampleWatched : Watched where
  node :=
    { blocks := fun c =>
        if c = sampleHashing.headerCid sampleGenesis then some sampleGenesis else none
      tipsets := fun _ => []
      heaviest := some (.single sampleGenesis)
      reorgCh := [] }
  stack := some [.single sampleGenesis]

def sampleWatchedNext : Watched :=
  HeadEvent.run sampleHeadSyncer
    (HeadEvent.run sampleHeadSyncer sampleWatched (.call (.addBlock sampleHonest.header))) .deliver

theorem sampleWatched_replay :
    sampleWatchedNext.node.heaviest = some (.single sampleHonest.header) ∧
    (∃ stack, sampleWatchedNext.stack = some stack) ∧
    (∃ head l, sampleWatchedNext.node.heaviest = some head ∧
      ChainOf (sampleWatchedNext.node.store sampleHeadSyncer) (.single sampleGenesis) head l ∧
      ((deliver sampleHeadSyncer)^[sampleWatchedNext.node.reorgCh.length] sampleWatchedNext).stack =
        some (head :: l)) ∧
    ∀ event : HeadEvent,
      event.Admissible sampleHeadSyncer (.single sampleGenesis) sampleWatchedNext →
      (event.run sampleHeadSyncer sampleWatchedNext).node.heaviest =
        sampleWatchedNext.node.heaviest ∨
      ∃ old new weightOld weightNew, sampleWatchedNext.node.heaviest = some old ∧
        (event.run sampleHeadSyncer sampleWatchedNext).node.heaviest = some new ∧
        weight sampleHeadSyncer (some old) = .ok weightOld ∧
        weight sampleHeadSyncer (some new) = .ok weightNew ∧ weightOld < weightNew := by
  have hgenesis : ChainOf (sampleWatched.node.store sampleHeadSyncer) (.single sampleGenesis)
      (.single sampleGenesis) [] := by
    refine .genesis ?_ ?_ ?_ <;> decide +kernel
  have hstart : sampleWatched.Initial sampleHeadSyncer (.single sampleGenesis) :=
    ⟨⟨_, tracks_empty _, fun _ => forall_mem_nil _⟩, rfl, _, [], rfl, hgenesis, rfl⟩
  have hblock : HeadEvent.Admissible sampleHeadSyncer (.single sampleGenesis) sampleWatched
      (.call (.addBlock sampleHonest.header)) := by
    refine ⟨fun b hb => ⟨fun x hx => ?_, fun x hx _ => ?_⟩, .inr ⟨_, [], ?_, hgenesis, ?_⟩⟩
    · have hnew : sampleWatched.node.blocks (sampleHashing.headerCid sampleHonest.header) =
          none := by
        decide +kernel
      rw [mem_singleton.mp hb] at hx
      exact absurd (hnew.symm.trans hx) (Option.some_ne_none x).symm
    · rw [mem_singleton.mp hb, mem_singleton.mp hx]
    · decide +kernel
    · decide +kernel
  exact ⟨by decide +kernel, headChanges_replay Function.injective_id (by decide) hstart
    ((Watched.Reached.start.step hblock).step trivial)⟩

end Following

end Lotus
