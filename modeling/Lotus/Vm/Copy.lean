import Lotus.Lib.Act
import Lotus.Lib.Dag
import Lotus.Types.Actor

/-!
# Copying the flushed state into the chain's block store

`Copy` moves the block tree under a root from the VM's buffer into the destination store.
-/

namespace Lotus

open List Act

/-- `cid.Prefix.Codec`, as far as the copy tells the codecs apart. -/
inductive IpldCodec where
  | dagCBOR
  | raw
  | filCommitmentSealed
  | filCommitmentUnsealed
  | other (code : UInt64)
deriving DecidableEq, Repr

/-- `cid.Prefix` -/
structure CidFormat where
  codec : IpldCodec
  mhType : UInt64
deriving DecidableEq, Repr

def mhIdentity : UInt64 := 0

structure IpldBlock where
  cid : Cid
  rawData : Bytes
deriving DecidableEq, Repr

/-- Content addressing: how CIDs are read (`Cid.Prefix`), the bytes that each one addresses, and the
links in a CBOR object. `cbg.ScanForLinks` reports links until it meets malformed bytes. -/
structure Ipld where
  format : Cid → CidFormat
  content : Cid → Bytes
  scanForLinks : Bytes → List Cid × Option String

namespace Ipld

variable (ipld : Ipld)

def Inlined (c : Cid) : Prop := (ipld.format c).mhType = mhIdentity
deriving Decidable

def Commitment (c : Cid) : Prop :=
  (ipld.format c).codec = .filCommitmentSealed ∨ (ipld.format c).codec = .filCommitmentUnsealed
deriving Decidable

def links (c : Cid) : List Cid :=
  match (ipld.format c).codec with
  | .dagCBOR => (ipld.scanForLinks (ipld.content c)).1
  | _ => []

def LinksTo (c l : Cid) : Prop := l ∈ ipld.links c ∧ ¬ipld.Commitment l

/-- A block of a store that is reached from `c` over any number of links. -/
def Reaches (c l : Cid) : Prop := Relation.ReflTransGen ipld.LinksTo c l ∧ ¬ipld.Inlined l

/-- A block of a store that is reached from `c` over at least one link. -/
def Below (c l : Cid) : Prop := Relation.TransGen ipld.LinksTo c l ∧ ¬ipld.Inlined l

/-- A block of a store that is reached from `c` through a link to an inlined block. -/
def BelowInlined (c l : Cid) : Prop :=
  ∃ i, ipld.LinksTo c i ∧ ipld.Inlined i ∧ ipld.Reaches i l

end Ipld

structure BlockDag extends Ipld where
  rank : Cid → Nat
  rank_lt : ∀ c, ∀ l ∈ toIpld.links c, rank l < rank c

structure Source (ipld : Ipld) where
  get : Cid → Except String IpldBlock
  get_ok : ∀ c blk, get c = .ok blk → blk = ⟨c, ipld.content c⟩

/-- A block store with the state `σ`. A `PutMany` that fails may have written some of its blocks, a
prefix of the batch. -/
structure Blockstore (σ : Type) where
  held : σ → Finset Cid
  has : Cid → σ → Except String Bool
  putMany : List IpldBlock → Act σ String Unit
  has_ok : ∀ c s b, has c s = .ok b → (b = true ↔ c ∈ held s)
  put_ok : ∀ blks s s', putMany blks s = (.ok (), s') →
    held s' = held s ∪ (blks.map IpldBlock.cid).toFinset
  put_error : ∀ blks s s' e, putMany blks s = (.error e, s') →
    ∃ p, p <+: blks ∧ held s' = held s ∪ (p.map IpldBlock.cid).toFinset

/-- What `linksForObj` fails with. -/
inductive LinksErr where
  | scanForLinks (err : String)
  | onlyDagCBOR
deriving DecidableEq, Repr

/-- What `Copy` fails with, wrapped as the code wraps it. -/
inductive CopyErr where
  | get (c : Cid) (err : String)
  | has (err : String)
  | linksForObj (rawData : Bytes) (err : LinksErr)
  | batchPut (err : String)
  | copy (err : CopyErr)
  | copyRec (err : CopyErr)
  /-- The walk is deeper than the model follows it. -/
  | tooDeep
deriving DecidableEq, Repr

/-- The destination, the batch that is being filled, and (for the proofs only) the batches handed to
`PutMany` so far. -/
structure CopyState (σ : Type) where
  dest : σ
  batch : List IpldBlock
  puts : List (List IpldBlock)

/-- `linksForObj`: the links that the callback gets, and the error after them. -/
def linksForObj (ipld : Ipld) (blk : IpldBlock) : List Cid × Option LinksErr :=
  match (ipld.format blk.cid).codec with
  | .dagCBOR =>
    ((ipld.scanForLinks blk.rawData).1, (ipld.scanForLinks blk.rawData).2.map .scanForLinks)
  | .raw => ([], none)
  | _ => ([], some .onlyDagCBOR)

section Copy

variable {σ : Type} (ipld : Ipld) (src : Source ipld) (dst : Blockstore σ)

/-- `to.PutMany(batch)` -/
def putBatch : Act (CopyState σ) CopyErr Unit := do
  let s ← get
  modify fun s => { s with puts := s.puts ++ [s.batch] }
  ((dst.putMany s.batch).mapError CopyErr.batchPut).zoom CopyState.dest
    fun s dest => { s with dest }

def batchCp (blk : IpldBlock) : Act (CopyState σ) CopyErr Unit := do
  modify fun s => { s with batch := s.batch ++ [blk] }
  let s ← get
  if s.batch.length > 100 then do
    putBatch dst
    modify fun s => { s with batch := [] }
  else pure ()

/-- What the callback of `linksForObj` in `copyRec` does with one link. -/
def copyLink (copyRec : Cid → Act (CopyState σ) CopyErr Unit) (link : Cid) :
    Act (CopyState σ) CopyErr Unit := do
  if ipld.Commitment link then pure ()
  else if ipld.Inlined link then
    if (ipld.format link).codec = .raw then pure () else copyRec link
  else do
    let s ← get
    let has ← ofExcept ((dst.has link s.dest).mapError CopyErr.has)
    if has then pure () else copyRec link

/-- The callback on each link in turn; once `lerr` is set it does nothing more. -/
def copyLinks (copyRec : Cid → Act (CopyState σ) CopyErr Unit) :
    List Cid → Act (CopyState σ) CopyErr Unit
  | [] => pure ()
  | link :: links => do
    copyLink ipld dst copyRec link
    copyLinks copyRec links

def copyRec : Nat → Cid → Act (CopyState σ) CopyErr Unit
  | 0, _ => fail .tooDeep
  | n + 1, root => do
    if (ipld.format root).mhType = 0 then pure ()
    else do
      let blk ← ofExcept ((src.get root).mapError (CopyErr.get root))
      let lerr ← (copyLinks ipld dst (copyRec n) (linksForObj ipld blk).1).attempt
      match (linksForObj ipld blk).2 with
      | some err => fail (.linksForObj blk.rawData err)
      | none => do
        ofExcept lerr
        (batchCp dst blk).mapError CopyErr.copy

def copy (dag : BlockDag) (src : Source dag.toIpld) (dst : Blockstore σ) (root : Cid) :
    Act (CopyState σ) CopyErr Unit := do
  (copyRec dag.toIpld src dst (dag.rank root + 1) root).mapError CopyErr.copyRec
  let s ← get
  if s.batch.length > 0 then putBatch dst else pure ()

end Copy

def runCopy {σ : Type} (dag : BlockDag) (src : Source dag.toIpld) (dst : Blockstore σ) (dest : σ)
    (root : Cid) : Except CopyErr Unit × CopyState σ :=
  copy dag src dst root ⟨dest, [], []⟩

/-! ## The walk against the depth first order -/

section Walk

variable {σ : Type} (dag : BlockDag) (src : Source dag.toIpld) (dst : Blockstore σ)
variable (held : Finset Cid)

/-- The walk goes on to copy the block of a link: it is neither a commitment nor inlined, and the
destination did not hold it at the start. -/
def Followed (l : Cid) : Prop := ¬dag.Commitment l ∧ ¬dag.Inlined l ∧ l ∉ held
deriving Decidable

def followed (c : Cid) : List Cid := (dag.links c).filter (Followed dag held ·)

/-- The order in which the blocks under `root` come to be copied. -/
def copyOrder (root : Cid) : List Cid :=
  if dag.Inlined root then [] else Dag.postorder (followed dag held) (dag.rank root + 1) root

/-- The blocks handed to `PutMany`, in order. -/
def CopyState.written (s : CopyState σ) : List Cid := s.puts.flatten.map IpldBlock.cid

variable {dag dst held}

lemma mem_followed {c l : Cid} : l ∈ followed dag held c ↔
      l ∈ dag.links c ∧ Followed dag held l := by
  simp [followed]

lemma rank_lt_of_followed {c l : Cid} (h : l ∈ followed dag held c) : dag.rank l < dag.rank c :=
  dag.rank_lt c l (mem_followed.mp h).1

variable (dag dst held)

/-- The blocks of `order` are written or in the batch, in this order up to repeats. -/
structure Copied (order : List Cid) (s : CopyState σ) : Prop where
  stages : Dag.Stages (s.written ++ s.batch.map IpldBlock.cid) = Dag.Stages order
  dest : dst.held s.dest = held ∪ s.written.toFinset
  closed : ∀ c ∈ order, ∀ l ∈ followed dag held c, l ∈ order

/-- What was written came in the order `order`, and the destination has a stage of it. -/
structure Stopped (order : List Cid) (s : CopyState σ) : Prop where
  stages : Dag.Stages s.written ⊆ Dag.Stages order
  dest : ∃ T ∈ Dag.Stages s.written, ∀ c, c ∈ dst.held s.dest ↔ c ∈ held ∨ c ∈ T

/-- A step that ends well has copied `order`, and one that fails a part of it. -/
structure Outcome (order : List Cid) (r : Except CopyErr Unit × CopyState σ) : Prop where
  stopped : Stopped dst held order r.2
  copied : r.1 = .ok () → Copied dag dst held order r.2

variable {dag dst held} {order order' : List Cid} {s : CopyState σ}

lemma Copied.stopped (h : Copied dag dst held order s) : Stopped dst held order s where
  stages := h.stages ▸ Dag.stages_mono (prefix_append _ _)
  dest := ⟨_, Dag.mem_stages_self s.written, fun c => by simp [h.dest]⟩

lemma Copied.mem_iff (h : Copied dag dst held order s) (c : Cid) :
    c ∈ s.written ++ s.batch.map IpldBlock.cid ↔ c ∈ order :=
  Dag.mem_iff_of_stages_eq h.stages c

lemma Stopped.mono (h : Stopped dst held order s) (hsub : order <+: order') :
    Stopped dst held order' s :=
  ⟨h.stages.trans (Dag.stages_mono hsub), h.dest⟩

lemma Outcome.pure (h : Copied dag dst held order s) :
    Outcome dag dst held order ((pure () : Act (CopyState σ) CopyErr Unit) s) :=
  ⟨h.stopped, fun _ => h⟩

lemma Outcome.fail (h : Copied dag dst held order s) (e : CopyErr) :
    Outcome dag dst held order ((fail e : Act (CopyState σ) CopyErr Unit) s) :=
  ⟨h.stopped, fun he => by cases he⟩

variable {x : Act (CopyState σ) CopyErr Unit}

lemma Outcome.mapError (f : CopyErr → CopyErr) (h : Outcome dag dst held order (x s)) :
    Outcome dag dst held order (x.mapError f s) :=
  ⟨h.stopped, fun he => h.copied (by
    rw [mapError_apply] at he
    rcases hr : (x s).1 with e | u
    · rw [hr] at he
      cases he
    · rfl)⟩

lemma Outcome.bind {f : Unit → Act (CopyState σ) CopyErr Unit}
    (hx : Outcome dag dst held order (x s)) (hsub : order <+: order')
    (hf : ∀ s', Copied dag dst held order s' → Outcome dag dst held order' (f () s')) :
    Outcome dag dst held order' ((x >>= f) s) := by
  rcases hr : x s with ⟨e | u, s'⟩
  · rw [hr] at hx
    rw [bind_of_error hr]
    exact ⟨hx.stopped.mono hsub, fun he => by cases he⟩
  · grind [bind_of_ok, hx.copied]

lemma written_put (s : CopyState σ) (d : σ) (b : List IpldBlock) :
    CopyState.written { s with dest := d, puts := s.puts ++ [b] } =
      s.written ++ b.map IpldBlock.cid := by
  simp [CopyState.written]

lemma putBatch_spec (h : Copied dag dst held order s) :
    ∃ r d, putBatch dst s = (r, { s with dest := d, puts := s.puts ++ [s.batch] }) ∧
      Stopped dst held order { s with dest := d, puts := s.puts ++ [s.batch] } ∧
      (r = .ok () → dst.held d = held ∪ (s.written ++ s.batch.map IpldBlock.cid).toFinset) := by
  rcases hput : dst.putMany s.batch s.dest with ⟨e | u, d⟩
  · refine ⟨.error (.batchPut e), d, ?_, ?_, fun he => by cases he⟩
    · simp [putBatch, bind_apply, hput, Except.mapError]
    · obtain ⟨p, hp, hd⟩ := dst.put_error _ _ _ _ hput
      refine ⟨by rw [written_put, h.stages], ?_⟩
      rw [written_put]
      refine ⟨{c | c ∈ s.written ++ p.map IpldBlock.cid}, ⟨_, ?_, rfl⟩, fun c => ?_⟩
      · exact (prefix_append_right_inj _).mpr (hp.map _)
      · simp [hd, h.dest]
  · have hd := dst.put_ok _ _ _ hput
    have hheld : dst.held d = held ∪ (s.written ++ s.batch.map IpldBlock.cid).toFinset := by
      rw [hd, h.dest, toFinset_append, Finset.union_assoc]
    refine ⟨.ok (), d, ?_, ?_, fun _ => hheld⟩
    · simp [putBatch, bind_apply, hput, Except.mapError]
    · refine ⟨by rw [written_put, h.stages], ?_⟩
      rw [written_put]
      exact ⟨_, Dag.mem_stages_self _, fun c => by simp [hheld]⟩

lemma putBatch_clear_spec (h : Copied dag dst held order s) : Outcome dag dst held order
      ((putBatch dst >>= fun _ => modify fun s => { s with batch := [] }) s) := by
  obtain ⟨r, d, hrun, hstop, hok⟩ := putBatch_spec h
  rcases r with e | u
  · rw [bind_of_error hrun]
    exact ⟨hstop, fun he => by cases he⟩
  · rw [bind_of_ok hrun]
    have hwritten := written_put { s with batch := [] } d s.batch
    have hcopied : Copied dag dst held order
        { s with dest := d, batch := [], puts := s.puts ++ [s.batch] } := by
      refine ⟨?_, ?_, h.closed⟩
      · rw [hwritten, map_nil, append_nil]
        exact h.stages
      · rw [hwritten]
        exact hok rfl
    exact ⟨hcopied.stopped, fun _ => hcopied⟩

lemma batchCp_spec (h : Copied dag dst held order s) (blk : IpldBlock)
    (hlinks : ∀ l ∈ followed dag held blk.cid, l ∈ order) :
    Outcome dag dst held (order ++ [blk.cid]) (batchCp dst blk s) := by
  have hs : Copied dag dst held (order ++ [blk.cid]) { s with batch := s.batch ++ [blk] } := by
    refine ⟨?_, h.dest, fun c hc l hl => ?_⟩
    · have := Dag.stages_append_congr h.stages [blk.cid]
      simpa [CopyState.written] using this
    · rcases mem_append.mp hc with hc | hc
      · exact mem_append_left _ (h.closed c hc l hl)
      · grind
  simp only [batchCp, bind_apply, modify_apply, get_apply]
  grind [putBatch_clear_spec, Outcome.pure]

lemma copyRec_inlined {c : Cid} (hc : dag.Inlined c) (n : Nat) (h : Copied dag dst held order s) :
    Outcome dag dst held order (copyRec dag.toIpld src dst n c s) := by
  cases n with
  | zero => exact Outcome.fail h _
  | succ n =>
    rw [copyRec, if_pos (show (dag.format c).mhType = 0 from hc)]
    exact Outcome.pure h

lemma copyLink_spec {n : Nat} {l : Cid} (ih : ∀ s, Copied dag dst held order s → ¬dag.Inlined l →
      Outcome dag dst held (order ++ Dag.postorder (followed dag held) n l)
        (copyRec dag.toIpld src dst n l s))
    (h : Copied dag dst held order s) :
    Outcome dag dst held
      (order ++ if Followed dag held l then Dag.postorder (followed dag held) n l else [])
      (copyLink dag.toIpld dst (copyRec dag.toIpld src dst n) l s) := by
  unfold copyLink
  by_cases hcom : dag.Commitment l
  · rw [if_pos hcom, if_neg fun hf => hf.1 hcom, append_nil]
    exact Outcome.pure h
  rw [if_neg hcom]
  by_cases hinl : dag.Inlined l
  · rw [if_pos hinl, if_neg fun hf => hf.2.1 hinl, append_nil]
    split_ifs
    · exact Outcome.pure h
    · exact copyRec_inlined src hinl n h
  rw [if_neg hinl, bind_of_ok (get_apply s)]
  rcases hhas : dst.has l s.dest with e | b
  · exact ⟨h.stopped.mono (prefix_append _ _), fun he => by cases he⟩
  have hanswer : (ofExcept ((Except.ok b).mapError CopyErr.has) :
      Act (CopyState σ) CopyErr Bool) s = (.ok b, s) := rfl
  rw [bind_of_ok hanswer]
  have hb := dst.has_ok _ _ _ hhas
  rw [h.dest, Finset.mem_union, mem_toFinset] at hb
  cases b with
  | false =>
    grind [Followed]
  | true =>
    rcases hb.mp rfl with hl | hl
    · rw [if_neg fun hf => hf.2.2 hl, append_nil]
      exact Outcome.pure h
    · have hord : l ∈ order := (h.mem_iff l).mp (mem_append_left _ hl)
      have hsub : ∀ c ∈ (if Followed dag held l then
          Dag.postorder (followed dag held) n l else []), c ∈ order := by
        intro c hc
        split_ifs at hc
        · exact Dag.postorder_subset (T := {c | c ∈ order}) h.closed n l hord c hc
        · cases hc
      refine Outcome.pure ⟨?_, h.dest, fun c hc x hx => ?_⟩
      · rw [Dag.stages_append_of_subset hsub]
        exact h.stages
      · have hc' : c ∈ order := (mem_append.mp hc).elim id (hsub c)
        exact mem_append_left _ (h.closed c hc' x hx)

lemma copyLinks_spec {n : Nat} {ls : List Cid}
    (ih : ∀ l ∈ ls, ∀ order s, Copied dag dst held order s → ¬dag.Inlined l →
      Outcome dag dst held (order ++ Dag.postorder (followed dag held) n l)
        (copyRec dag.toIpld src dst n l s))
    (h : Copied dag dst held order s) :
    Outcome dag dst held
      (order ++ (ls.filter (Followed dag held ·)).flatMap (Dag.postorder (followed dag held) n))
      (copyLinks dag.toIpld dst (copyRec dag.toIpld src dst n) ls s) := by
  induction ls generalizing order s with
  | nil =>
    rw [filter_nil, flatMap_nil, append_nil]
    exact Outcome.pure h
  | cons l ls ihls =>
    have hsplit : ((l :: ls).filter (Followed dag held ·)).flatMap
          (Dag.postorder (followed dag held) n) =
        (if Followed dag held l then Dag.postorder (followed dag held) n l else []) ++
          (ls.filter (Followed dag held ·)).flatMap (Dag.postorder (followed dag held) n) := by
      by_cases hl : Followed dag held l <;> simp [hl]
    rw [hsplit, ← append_assoc]
    refine Outcome.bind (copyLink_spec src (fun s hs => ih l (by simp) order s hs) h)
      (prefix_append _ _) fun s' hs' => ?_
    exact ihls (fun l' hl' => ih l' (by simp [hl'])) hs'

lemma linksForObj_links {c : Cid} {blk : IpldBlock} (h : src.get c = .ok blk) :
    (linksForObj dag.toIpld blk).1 = dag.links c := by
  rw [src.get_ok c blk h]
  simp only [linksForObj, Ipld.links]
  split <;> simp_all

lemma copyRec_sound (n : Nat) :
    ∀ c order s, dag.rank c < n → Copied dag dst held order s → ¬dag.Inlined c →
      Outcome dag dst held (order ++ Dag.postorder (followed dag held) n c)
        (copyRec dag.toIpld src dst n c s) := by
  induction n with
  | zero => exact fun c _ _ hc => absurd hc (Nat.not_lt_zero _)
  | succ n ih =>
    intro c order s hc h hinl
    rw [copyRec, if_neg (show ¬(dag.format c).mhType = 0 from hinl)]
    rcases hget : src.get c with e | blk
    · exact ⟨h.stopped.mono (prefix_append _ _), fun he => by cases he⟩
    have hblk : (ofExcept ((Except.ok blk).mapError (CopyErr.get c)) :
        Act (CopyState σ) CopyErr IpldBlock) s = (.ok blk, s) := rfl
    rw [bind_of_ok hblk, bind_of_ok (attempt_apply _ s), linksForObj_links src hget]
    have hrank : ∀ l ∈ dag.links c, dag.rank l < n := fun l hl => by
      have := dag.rank_lt c l hl
      omega
    have hloop := copyLinks_spec src (fun l hl order s => ih l order s (hrank l hl)) h
    rw [Dag.postorder, ← append_assoc]
    rcases (linksForObj dag.toIpld blk).2 with _ | err
    · rcases hrun : copyLinks dag.toIpld dst (copyRec dag.toIpld src dst n) (dag.links c) s with
        ⟨e | u, s'⟩
      · rw [hrun] at hloop
        exact ⟨hloop.stopped.mono (prefix_append _ _), fun he => by cases he⟩
      · rw [hrun] at hloop
        have hcid : blk.cid = c := by rw [src.get_ok c blk hget]
        have hcp := batchCp_spec (hloop.copied rfl) blk fun l hl => by
          rw [hcid] at hl
          have hpos : 0 < n := Nat.zero_lt_of_lt (hrank l (mem_followed.mp hl).1)
          exact mem_append_right _ (mem_flatMap.mpr ⟨l, hl, Dag.mem_postorder_self l hpos⟩)
        rw [hcid] at hcp
        exact hcp.mapError _
    · exact ⟨hloop.stopped.mono (prefix_append _ _), fun he => by cases he⟩

lemma copyRec_root (dst : Blockstore σ) (d : σ) (root : Cid) :
    Outcome dag dst (dst.held d) (copyOrder dag (dst.held d) root)
      (copyRec dag.toIpld src dst (dag.rank root + 1) root ⟨d, [], []⟩) := by
  have hinit : Copied dag dst (dst.held d) [] ⟨d, [], []⟩ :=
    ⟨rfl, by simp [CopyState.written], fun c hc => by cases hc⟩
  unfold copyOrder
  split_ifs with hinl
  · exact copyRec_inlined src hinl _ hinit
  · exact copyRec_sound src _ root [] _ (Nat.lt_succ_self _) hinit hinl

lemma runCopy_spec (dst : Blockstore σ) (d : σ) (root : Cid) :
    Stopped dst (dst.held d) (copyOrder dag (dst.held d) root) (runCopy dag src dst d root).2 ∧
      ((runCopy dag src dst d root).1 = .ok () → Dag.Stages (runCopy dag src dst d root).2.written =
            Dag.Stages (copyOrder dag (dst.held d) root) ∧
          dst.held (runCopy dag src dst d root).2.dest =
            dst.held d ∪ (runCopy dag src dst d root).2.written.toFinset) := by
  have hwalk := (copyRec_root src dst d root).mapError CopyErr.copyRec
  unfold runCopy copy
  rcases hrun : (copyRec dag.toIpld src dst (dag.rank root + 1) root).mapError CopyErr.copyRec
      ⟨d, [], []⟩ with ⟨e | u, s⟩
  · grind [bind_of_error, hwalk.stopped]
  · rw [hrun] at hwalk
    rw [bind_of_ok hrun, bind_of_ok (get_apply s)]
    have hs := hwalk.copied rfl
    split_ifs with hbatch
    · obtain ⟨r, d', hput, hstop, hok⟩ := putBatch_spec hs
      rw [hput]
      refine ⟨hstop, fun hr => ?_⟩
      rw [written_put]
      exact ⟨hs.stages, hok hr⟩
    · have hnil : s.batch = [] := eq_nil_of_length_eq_zero (by omega)
      refine ⟨hs.stopped, fun _ => ⟨?_, hs.dest⟩⟩
      have := hs.stages
      rwa [hnil, map_nil, append_nil] at this

end Walk

/-! ## Closure of the destination -/

section Closure

variable {σ : Type} {dag : BlockDag} {held : Finset Cid}

variable {c l : Cid}

lemma rank_lt_of_transGen (h : Relation.TransGen dag.LinksTo c l) : dag.rank l < dag.rank c := by
  induction h with
  | single h => exact dag.rank_lt _ _ h.1
  | tail _ h ih => exact (dag.rank_lt _ _ h.1).trans ih

lemma not_below_self (c : Cid) : ¬dag.Below c c :=
  fun h => Nat.lt_irrefl _ (rank_lt_of_transGen h.1)

lemma below_of_belowInlined (h : dag.BelowInlined c l) : dag.Below c l := by
  obtain ⟨i, hi, -, hl⟩ := h
  exact ⟨Relation.TransGen.head' hi hl.1, hl.2⟩

lemma below_cases (h : dag.Below c l) :
    dag.BelowInlined c l ∨ ∃ x, dag.LinksTo c x ∧ ¬dag.Inlined x ∧ (l = x ∨ dag.Below x l) := by
  obtain ⟨x, hx, hxl⟩ := Relation.TransGen.head'_iff.mp h.1
  by_cases hinl : dag.Inlined x
  · exact Or.inl ⟨x, hx, hinl, hxl, h.2⟩
  · refine Or.inr ⟨x, hx, hinl, ?_⟩
    rcases Relation.reflTransGen_iff_eq_or_transGen.mp hxl with rfl | hxl
    · exact Or.inl rfl
    · exact Or.inr ⟨hxl, h.2⟩

lemma grounded_below_iff {order : List Cid} (hheld : Dag.Closed dag.Below held)
    (horder : Dag.Grounded (fun c l => l ∈ followed dag held c) (held : Set Cid) order) :
    Dag.Grounded dag.Below held order ↔ Dag.Grounded dag.BelowInlined held order := by
  refine ⟨fun h p c hp l hl => h p c hp l (below_of_belowInlined hl), fun h p => ?_⟩
  -- by the length of the prefix: a link copied before `c` brings what is below it
  induction hn : p.length using Nat.strong_induction_on generalizing p with
  | _ n ih =>
    intro c hp l hl
    rcases below_cases hl with hbehind | ⟨x, hx, hinl, hxl⟩
    · exact h p c hp l hbehind
    have hxin : x ∈ (held : Set Cid) ∨ x ∈ p := by
      by_cases hxheld : x ∈ held
      · exact Or.inl hxheld
      · exact horder p c hp x (mem_followed.mpr ⟨hx.1, hx.2, hinl, hxheld⟩)
    rcases hxin with hxin | hxin
    · rcases hxl with rfl | hxl
      · exact Or.inl hxin
      · exact Or.inl (hheld x hxin l hxl)
    · rcases hxl with rfl | hxl
      · exact Or.inr hxin
      · obtain ⟨a, ha, hap, hlt⟩ := Dag.exists_prefix_of_mem ((prefix_append p [c]).trans hp) hxin
        grind

lemma copyOrder_grounded (root : Cid) :
    Dag.Grounded (fun c l => l ∈ followed dag held c) (held : Set Cid)
      (copyOrder dag held root) := by
  unfold copyOrder
  split_ifs
  · exact Dag.Grounded.nil
  · exact Dag.postorder_grounded (fun _ _ => rank_lt_of_followed) _ root (Nat.lt_succ_self _)

structure InlinedCovered (dag : BlockDag) (held : Finset Cid) (root : Cid) : Prop where
  ofRoot : dag.Inlined root → ∀ l, dag.Reaches root l → l ∈ held
  behind : Dag.Grounded dag.BelowInlined held (copyOrder dag held root)

/-- In every run of `Copy` into a closed destination, the destination stays closed after every
prefix of the writes if the blocks behind inlined ones are covered; if `Copy` returns nil, then it
has stayed closed and holds all that the root reaches exactly under that condition. -/
theorem copy_closed_iff (src : Source dag.toIpld) (dst : Blockstore σ) (d : σ) (root : Cid)
    (hclosed : Dag.Closed dag.Below (dst.held d)) :
    (InlinedCovered dag (dst.held d) root →
      (∀ T ∈ Dag.Stages (runCopy dag src dst d root).2.written,
        Dag.Closed dag.Below (↑(dst.held d) ∪ T)) ∧
      Dag.Closed dag.Below (dst.held (runCopy dag src dst d root).2.dest)) ∧
    ((runCopy dag src dst d root).1 = .ok () →
      ((∀ l, dag.Reaches root l → l ∈ dst.held (runCopy dag src dst d root).2.dest) ∧
        (∀ T ∈ Dag.Stages (runCopy dag src dst d root).2.written,
          Dag.Closed dag.Below (↑(dst.held d) ∪ T)) ↔
        InlinedCovered dag (dst.held d) root)) := by
  obtain ⟨hstop, hok⟩ := runCopy_spec src dst d root
  have hgrounded := (Dag.closed_stages_iff not_below_self hclosed).trans
    (grounded_below_iff hclosed (copyOrder_grounded root))
  constructor
  · intro hcov
    have hstages : ∀ T ∈ Dag.Stages (runCopy dag src dst d root).2.written,
        Dag.Closed dag.Below (↑(dst.held d) ∪ T) :=
      fun T hT => hgrounded.mpr hcov.behind T (hstop.stages hT)
    obtain ⟨T, hT, hdest⟩ := hstop.dest
    have heq : (dst.held (runCopy dag src dst d root).2.dest : Set Cid) = ↑(dst.held d) ∪ T :=
      Set.ext hdest
    exact ⟨hstages, heq ▸ hstages T hT⟩
  · intro hnil
    obtain ⟨hstages, hdest⟩ := hok hnil
    have hmem : ∀ c, c ∈ dst.held (runCopy dag src dst d root).2.dest ↔
        c ∈ dst.held d ∨ c ∈ copyOrder dag (dst.held d) root := by
      intro c
      rw [hdest, Finset.mem_union, mem_toFinset, Dag.mem_iff_of_stages_eq hstages]
    rw [hstages, hgrounded]
    constructor
    · rintro ⟨hreach, hbehind⟩
      refine ⟨fun hinl l hl => ?_, hbehind⟩
      have hl' := (hmem l).mp (hreach l hl)
      rw [copyOrder, if_pos hinl] at hl'
      exact hl'.resolve_right (not_mem_nil)
    · rintro ⟨hroot, hbehind⟩
      refine ⟨fun l hl => (hmem l).mpr ?_, hbehind⟩
      by_cases hinl : dag.Inlined root
      · exact Or.inl (hroot hinl l hl)
      · have hself : root ∈ copyOrder dag (dst.held d) root := by
          rw [copyOrder, if_neg hinl]
          exact Dag.mem_postorder_self root (Nat.succ_pos _)
        rcases Relation.reflTransGen_iff_eq_or_transGen.mp hl.1 with rfl | hbelow
        · exact Or.inr hself
        · exact hgrounded.mpr hbehind _ (Dag.mem_stages_self _) root (Or.inr hself) l ⟨hbelow, hl.2⟩

/-! ### Two blocks and an inlined one -/

def sampleIpld (rootLinks : List Cid) : Ipld where
  format c := ⟨.dagCBOR, if c.bytes = [2] then 0 else 0x12⟩
  content c := c.bytes
  scanForLinks data := (if data = [1] then rootLinks else if data = [2] then [⟨[3]⟩] else [], none)

def sampleDag (rootLinks : List Cid) (h : ∀ l ∈ rootLinks, l = ⟨[2]⟩ ∨ l = ⟨[3]⟩) : BlockDag where
  toIpld := sampleIpld rootLinks
  rank c := if c.bytes = [1] then 2 else if c.bytes = [2] then 1 else 0
  rank_lt c l hl := by
    simp only [Ipld.links, sampleIpld] at hl
    split_ifs at hl with h1 h2
    · rcases h l hl with rfl | rfl <;> simp [h1]
    · simp [mem_singleton.mp hl, h2]
    · cases hl

def sampleBehind : BlockDag := sampleDag [⟨[2]⟩] (by simp)

def sampleBeside : BlockDag := sampleDag [⟨[3]⟩, ⟨[2]⟩] (by simp)

def sampleSource (ipld : Ipld) : Source ipld where
  get c := .ok ⟨c, ipld.content c⟩
  get_ok c blk h := by cases h; rfl

def sampleBlockstore : Blockstore (Finset Cid) where
  held s := s
  has c s := .ok (decide (c ∈ s))
  putMany blks s := (.ok (), s ∪ (blks.map IpldBlock.cid).toFinset)
  has_ok c s b h := by cases h; exact decide_eq_true_iff
  put_ok blks s s' h := by cases h; rfl
  put_error blks s s' e h := by cases h

lemma closed_empty (R : Cid → Cid → Prop) : Dag.Closed R (∅ : Finset Cid) :=
  fun c hc => absurd hc (Finset.notMem_empty c)

/-- `Copy` returns nil and leaves out the block behind the inlined object. -/
theorem copy_leaves_out_behind_inlined : Dag.Closed sampleBehind.Below (sampleBlockstore.held ∅) ∧
      (runCopy sampleBehind (sampleSource _) sampleBlockstore ∅ ⟨[1]⟩).1 = .ok () ∧
      sampleBehind.Reaches ⟨[1]⟩ ⟨[3]⟩ ∧
      (⟨[3]⟩ : Cid) ∉ sampleBlockstore.held
          (runCopy sampleBehind (sampleSource _) sampleBlockstore ∅ ⟨[1]⟩).2.dest := by
  refine ⟨closed_empty _, rfl, ⟨?_, by decide⟩, by decide⟩
  exact .tail (.single (show sampleBehind.LinksTo ⟨[1]⟩ ⟨[2]⟩ from ⟨by decide, by decide⟩))
    (show sampleBehind.LinksTo ⟨[2]⟩ ⟨[3]⟩ from ⟨by decide, by decide⟩)

lemma sampleBeside_links (h : l ∈ sampleBeside.links c) : c = ⟨[1]⟩ ∨ c = ⟨[2]⟩ ∧ l = ⟨[3]⟩ := by
  obtain ⟨c⟩ := c
  simp only [Ipld.links, sampleBeside, sampleDag, sampleIpld] at h
  grind

lemma sampleBeside_behind (h : sampleBeside.BelowInlined c l) : c = ⟨[1]⟩ ∧ l = ⟨[3]⟩ := by
  obtain ⟨i, ⟨hi, -⟩, hinl, hl, hlinl⟩ := h
  have hi2 : i = ⟨[2]⟩ := by
    obtain ⟨i⟩ := i
    simp_all [Ipld.Inlined, sampleBeside, sampleDag, sampleIpld, mhIdentity]
  subst hi2
  have hl3 : l = ⟨[2]⟩ ∨ l = ⟨[3]⟩ := by
    induction hl with
    | refl => exact Or.inl rfl
    | tail _ hlink ih =>
      rcases sampleBeside_links hlink.1 with rfl | ⟨-, rfl⟩
      · exact absurd ih (by decide)
      · exact Or.inr rfl
  refine ⟨?_, hl3.resolve_left fun h => hlinl (h ▸ by decide)⟩
  grind [sampleBeside_links]

lemma sampleBeside_covered : InlinedCovered sampleBeside ∅ ⟨[1]⟩ := by
  refine ⟨fun h => absurd h (by decide), ?_⟩
  have horder : copyOrder sampleBeside ∅ ⟨[1]⟩ = ([] ++ [⟨[3]⟩]) ++ [⟨[1]⟩] := by decide
  rw [horder]
  refine Dag.Grounded.snoc (Dag.Grounded.snoc Dag.Grounded.nil ?_) ?_ <;>
    grind [sampleBeside_behind]

/-- The theorem where the condition holds: `Copy` takes over the whole tree. -/
theorem copy_closed_beside : Dag.Closed sampleBeside.Below (sampleBlockstore.held ∅) ∧
      (runCopy sampleBeside (sampleSource _) sampleBlockstore ∅ ⟨[1]⟩).1 = .ok () ∧
      (∀ l, sampleBeside.Reaches ⟨[1]⟩ l → l ∈ sampleBlockstore.held
        (runCopy sampleBeside (sampleSource _) sampleBlockstore ∅ ⟨[1]⟩).2.dest) ∧
      ∀ T ∈ Dag.Stages (runCopy sampleBeside (sampleSource _) sampleBlockstore ∅ ⟨[1]⟩).2.written,
        Dag.Closed sampleBeside.Below (↑(sampleBlockstore.held ∅) ∪ T) :=
  ⟨closed_empty _, rfl,
    ((copy_closed_iff (sampleSource _) sampleBlockstore ∅ ⟨[1]⟩ (closed_empty _)).2 rfl).mpr
      sampleBeside_covered⟩

end Closure

end Lotus
