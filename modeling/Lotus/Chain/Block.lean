import Lotus.Vm.Apply

/-!
# Blocks and tipsets

`chain/types/blockheader.go`, `chain/types/fullblock.go` and `chain/types/tipset.go`.
-/

namespace Lotus

open List

/-- The Go errors of block validation and tipset execution, with the messages they are wrapped
in. -/
inductive NodeErr where
  | new (msg : String)
  | tree (err : TreeErr)
  | apply (err : ApplyErr)
  | actor (err : ActorError)
  | wrap (msg : String) (err : NodeErr)
  | append (errs err : NodeErr)
deriving DecidableEq

structure BeaconEntry where
  round : UInt64
  data : Bytes
deriving DecidableEq, Repr

structure ElectionProof where
  winCount : Int64
  vrfProof : Bytes
deriving DecidableEq, Repr

/-- `types.MsgMeta`: the arrays of the CIDs of a block's messages. -/
structure MsgMeta where
  blsMessages : List Cid
  secpkMessages : List Cid
deriving DecidableEq, Repr

/-- `types.BlockHeader`, with a ticket and a PoSt proof as the bytes they hold. -/
structure BlockHeader where
  miner : Address
  ticket : Option Bytes
  electionProof : Option ElectionProof
  beaconEntries : List BeaconEntry
  winPoStProof : List Bytes
  parents : List Cid
  parentWeight : ℤ
  height : Int64
  parentStateRoot : Hamt
  parentMessageReceipts : List MessageReceipt
  messages : MsgMeta
  blsAggregate : Option Signature
  timestamp : UInt64
  blockSig : Option Signature
  forkSignaling : UInt64
deriving DecidableEq

/-- `types.FullBlock`. Its messages are copied into one slice, so their number is a Go `int`. -/
structure FullBlock where
  header : BlockHeader
  blsMessages : List Message
  secpkMessages : List SignedMessage
  length_lt : blsMessages.length + secpkMessages.length < 2 ^ 63
deriving DecidableEq

lemma FullBlock.no_messages_lt :
    ([] : List Message).length + ([] : List SignedMessage).length < 2 ^ 63 := by
  decide

def FullBlock.chainMsgs (codec : Codec) (b : FullBlock) : List ChainMsg :=
  b.blsMessages.map (·.toChainMsg codec) ++ b.secpkMessages.map (·.toChainMsg codec)

lemma FullBlock.chainMsgs_length_lt (codec : Codec) (b : FullBlock) :
    (b.chainMsgs codec).length < 2 ^ 63 := by
  grind [b.length_lt, chainMsgs, length_append, length_map]

/-! ## Tipsets -/

structure Hashing where
  headerCid : BlockHeader → Cid
  sum256 : Bytes → Bytes

/-- `types.TipSet`: its blocks, of which there is at least one. -/
structure TipSet where
  first : BlockHeader
  rest : List BlockHeader
  height_eq : ∀ b ∈ rest, b.height = first.height
  parents_eq : ∀ b ∈ rest, b.parents = first.parents
deriving DecidableEq

namespace TipSet

variable (ts : TipSet)

def blocks : List BlockHeader := ts.first :: ts.rest

def cids (hashing : Hashing) : List Cid := ts.blocks.map hashing.headerCid

def height : Int64 := ts.first.height

def parents : List Cid := ts.first.parents

def parentState : Hamt := ts.first.parentStateRoot

def minTimestamp : UInt64 :=
  ts.rest.foldl (fun minTs b => if b.timestamp < minTs then b.timestamp else minTs)
    ts.first.timestamp

lemma height_of_mem {b : BlockHeader} (h : b ∈ ts.blocks) : b.height = ts.height := by
  rcases mem_cons.mp h with rfl | hrest
  · rfl
  · exact ts.height_eq b hrest

lemma parents_of_mem {b : BlockHeader} (h : b ∈ ts.blocks) : b.parents = ts.parents := by
  rcases mem_cons.mp h with rfl | hrest
  · rfl
  · exact ts.parents_eq b hrest

end TipSet

variable (hashing : Hashing)

def ticketLess (t o : Bytes) : Bool := hashing.sum256 t < hashing.sum256 o

/-- `MinTicket`. The comparison of a missing ticket panics, so it is only made with one. -/
def TipSet.minTicket (ts : TipSet) : Option Bytes :=
  (ts.rest.foldl
    (fun min b =>
      match b.ticket, min.ticket with
      | some t, some o => if ticketLess hashing t o then b else min
      | _, _ => min)
    ts.first).ticket

/-- `tipsetSortFunc`, for blocks that have tickets. -/
def tipsetLess (a b : BlockHeader) : Bool :=
  if a.ticket = b.ticket then (hashing.headerCid a).bytes < (hashing.headerCid b).bytes
  else ticketLess hashing (a.ticket.getD []) (b.ticket.getD [])

/-- Why a block does not go into a tipset with the block `first`. -/
def tipsetMismatch (first b : BlockHeader) : Option NodeErr :=
  if b.height ≠ first.height then some (.new "cannot create tipset with mismatching heights")
  else if first.parents.length ≠ b.parents.length then
    some (.new "cannot create tipset with mismatching number of parents")
  else if b.parents ≠ first.parents then
    some (.new "cannot create tipset with mismatching parents")
  else none

variable {b : BlockHeader}

lemma tipsetMismatch_eq_none {first : BlockHeader} (h : tipsetMismatch first b = none) :
    b.height = first.height ∧ b.parents = first.parents := by
  unfold tipsetMismatch at h
  grind

lemma tipsetMismatch_of_same {first : BlockHeader} (hheight : b.height = first.height)
    (hparents : b.parents = first.parents) : tipsetMismatch first b = none := by
  grind [tipsetMismatch]

def sortBlocks (blks : List BlockHeader) : List BlockHeader :=
  blks.insertionSort fun a b => tipsetLess hashing b a = false

/-- `NewTipSet`. Sorting two or more blocks of which one has no ticket panics. -/
def newTipSet (blks : List BlockHeader) : Except NodeErr TipSet :=
  if 2 ≤ blks.length ∧ blks.any (·.ticket.isNone) then .error (.new "panic")
  else
    match sortBlocks hashing blks with
    | [] => .error (.new "NewTipSet called with zero length array of blocks")
    | first :: rest =>
      match h : rest.findSome? (tipsetMismatch first) with
      | some err => .error err
      | none =>
        .ok ⟨first, rest,
          fun b hb => (tipsetMismatch_eq_none (findSome?_eq_none_iff.mp h b hb)).1,
          fun b hb => (tipsetMismatch_eq_none (findSome?_eq_none_iff.mp h b hb)).2⟩

variable {hashing}

variable {blks : List BlockHeader}

lemma newTipSet_blocks {ts : TipSet} (h : newTipSet hashing blks = .ok ts) :
    ts.blocks = sortBlocks hashing blks := by
  unfold newTipSet at h
  split_ifs at h
  split at h
  · cases h
  next first rest hsort =>
    split at h
    · cases h
    · cases h
      exact hsort.symm

lemma mem_sortBlocks : b ∈ sortBlocks hashing blks ↔ b ∈ blks := (perm_insertionSort _ blks).mem_iff

/-- Blocks make a tipset exactly if they agree on the height and the parents, and none lacks the
ticket it is sorted by. -/
lemma exists_newTipSet_iff (hb : b ∈ blks) : (∃ ts, newTipSet hashing blks = .ok ts) ↔
      (2 ≤ blks.length → ∀ x ∈ blks, x.ticket.isSome) ∧
        ∀ x ∈ blks, x.height = b.height ∧ x.parents = b.parents := by
  constructor
  · rintro ⟨ts, hts⟩
    have hmem : ∀ x ∈ blks, x ∈ ts.blocks := fun x hx => by
      rw [newTipSet_blocks hts]
      exact mem_sortBlocks.mpr hx
    refine ⟨fun hlength x hx => ?_, fun x hx => ?_⟩
    · unfold newTipSet at hts
      split_ifs at hts with hpanic
      by_contra hnone
      refine hpanic ⟨hlength, any_eq_true.mpr ⟨x, hx, ?_⟩⟩
      simpa using hnone
    · grind [ts.height_of_mem, ts.parents_of_mem]
  · rintro ⟨hticket, hsame⟩
    have hpanic : ¬(2 ≤ blks.length ∧ blks.any (·.ticket.isNone)) := by
      grind [any_eq_true, Option.isNone_iff_eq_none]
    rw [newTipSet, if_neg hpanic]
    have hsorted : ∀ x ∈ sortBlocks hashing blks, x ∈ blks := fun x => mem_sortBlocks.mp
    split
    next hnil =>
      rw [← mem_sortBlocks, hnil] at hb
      cases hb
    next first rest hsort =>
      rw [hsort] at hsorted
      have hfirst := hsame first (hsorted first mem_cons_self)
      split
      next err herr =>
        obtain ⟨x, hx, hmismatch⟩ := exists_of_findSome?_eq_some herr
        have hx := hsame x (hsorted x (mem_cons_of_mem first hx))
        rw [tipsetMismatch_of_same (hx.1.trans hfirst.1.symm) (hx.2.trans hfirst.2.symm)]
          at hmismatch
        cases hmismatch
      next => exact ⟨_, rfl⟩

/-! ## Sorting again

The digests of different tickets are different, so the blocks with tickets are ordered by digest and
CID, and sorting sorted blocks changes nothing. -/

lemma TipSet.eq_of_blocks {ts ts' : TipSet} (h : ts.blocks = ts'.blocks) : ts = ts' := by
  obtain ⟨first, rest, _, _⟩ := ts
  obtain ⟨first', rest', _, _⟩ := ts'
  obtain ⟨rfl, rfl⟩ := List.cons.inj h
  rfl

variable (hashing) in
def tipsetLe (a b : BlockHeader) : Prop :=
  hashing.sum256 (a.ticket.getD []) < hashing.sum256 (b.ticket.getD []) ∨
    hashing.sum256 (a.ticket.getD []) = hashing.sum256 (b.ticket.getD []) ∧
      (hashing.headerCid a).bytes ≤ (hashing.headerCid b).bytes
deriving Decidable

instance : Std.Total (tipsetLe hashing) := ⟨fun a b => by
  unfold tipsetLe
  rcases List.le_total (hashing.sum256 (a.ticket.getD [])) (hashing.sum256 (b.ticket.getD []))
    with hle | hle <;> rcases List.le_iff_lt_or_eq.mp hle with hlt | heq
  · exact .inl (.inl hlt)
  · exact (List.le_total _ _).imp (fun h => .inr ⟨heq, h⟩) fun h => .inr ⟨heq.symm, h⟩
  · exact .inr (.inl hlt)
  · exact (List.le_total _ _).imp (fun h => .inr ⟨heq.symm, h⟩) fun h => .inr ⟨heq, h⟩⟩

instance : IsTrans BlockHeader (tipsetLe hashing) := ⟨fun a b c hab hbc => by
  rcases hab with hab | ⟨hab, hab'⟩ <;> rcases hbc with hbc | ⟨hbc, hbc'⟩
  · exact .inl (List.lt_trans hab hbc)
  · exact .inl (hbc ▸ hab)
  · exact .inl (hab.symm ▸ hbc)
  · exact .inr ⟨hab.trans hbc, List.le_trans hab' hbc'⟩⟩

variable (hashing) in
def TicketsApart (blks : List BlockHeader) : Prop :=
  ∀ a ∈ blks, ∀ b ∈ blks, hashing.sum256 (a.ticket.getD []) = hashing.sum256 (b.ticket.getD []) →
    a.ticket = b.ticket
deriving Decidable

lemma sortBlocks_eq (_ : ∀ b ∈ blks, b.ticket.isSome) (hapart : TicketsApart hashing blks) :
    sortBlocks hashing blks = blks.insertionSort (tipsetLe hashing) := by
  have hiff : ∀ a ∈ blks, ∀ b ∈ blks, tipsetLess hashing b a = false ↔ tipsetLe hashing a b := by
    intro a ha b hb
    have hsame := hapart a ha b hb
    grind [Option.isSome_iff_exists, tipsetLess, tipsetLe, ticketLess, decide_eq_false_iff_not]
  have hmap := map_insertionSort (fun a b => tipsetLess hashing b a = false) (tipsetLe hashing) id
    blks hiff
  rwa [map_id, map_id] at hmap

lemma newTipSet_blocks_self (hsum : Function.Injective hashing.sum256) {ts : TipSet}
    (h : newTipSet hashing blks = .ok ts) : newTipSet hashing ts.blocks = .ok ts := by
  have hblocks := newTipSet_blocks h
  have hperm : ts.blocks.Perm blks := hblocks ▸ perm_insertionSort _ blks
  obtain ⟨b, hb⟩ : ∃ b, b ∈ ts.blocks := ⟨ts.first, .head _⟩
  obtain ⟨hticket, hsame⟩ := (exists_newTipSet_iff (hperm.mem_iff.mp hb)).mp ⟨ts, h⟩
  obtain ⟨ts', hts'⟩ : ∃ ts', newTipSet hashing ts.blocks = .ok ts' := by
    refine (exists_newTipSet_iff hb).mpr ⟨fun hlength x hx => ?_, fun x hx => ?_⟩ <;>
      grind [hperm.length_eq, hperm.mem_iff]
  have hagain : sortBlocks hashing ts.blocks = ts.blocks := by
    by_cases hlength : 2 ≤ blks.length
    · have hapart {l : List BlockHeader} (hl : ∀ x ∈ l, x.ticket.isSome) :
          TicketsApart hashing l := by
        grind [TicketsApart, Option.isSome_iff_exists, hsum.eq_iff]
      have hsome : ∀ x ∈ ts.blocks, x.ticket.isSome := fun x hx =>
        hticket hlength x (hperm.mem_iff.mp hx)
      rw [sortBlocks_eq hsome (hapart hsome), hblocks,
        sortBlocks_eq (hticket hlength) (hapart (hticket hlength))]
      exact (pairwise_insertionSort _ _).insertionSort_eq
    · -- a single block is sorted
      have hrest : ts.rest = [] := by
        grind [hperm.length_eq, TipSet.blocks, length_cons, length_eq_zero_iff]
      rw [TipSet.blocks, hrest]
      rfl
  have heq : ts' = ts := TipSet.eq_of_blocks ((newTipSet_blocks hts').trans hagain)
  rw [hts', heq]

end Lotus
