import Lotus.Chain.Validate
import Lotus.Types.TipSetKey

/-!
# Canonical tipsets

`NewTipSet`, `MinTicketBlock` and the CBOR form of a tipset.
-/

namespace Lotus

open List

variable {wire : Type}

def TipSet.minTicketBlock (hashing : Hashing) (ts : TipSet) : BlockHeader :=
  ts.rest.foldl
    (fun min b => if ticketLess hashing (b.ticket.getD []) (min.ticket.getD []) then b else min)
    ts.first

structure ExpTipSet where
  cids : List Cid
  blocks : List BlockHeader
  height : Int64

/-- The CBOR form of an `ExpTipSet`. -/
structure ExpCodec (wire : Type) where
  marshal : ExpTipSet → wire
  unmarshal : wire → Except NodeErr ExpTipSet
  unmarshal_marshal : ∀ ets, unmarshal (marshal ets) = .ok ets

def TipSet.marshalCBOR (codec : ExpCodec wire) (hashing : Hashing) (ts : TipSet) : wire :=
  codec.marshal ⟨ts.cids hashing, ts.blocks, ts.height⟩

/-- `TipSet.UnmarshalCBOR` -/
def unmarshalTipSet (codec : ExpCodec wire) (hashing : Hashing) (data : wire) :
    Except NodeErr TipSet := do
  let ets ← codec.unmarshal data
  newTipSet hashing ets.blocks

variable {hashing : Hashing} {blks blks' : List BlockHeader} {ts ts' : TipSet}

def tipsetRank (hashing : Hashing) (b : BlockHeader) : Bytes × Cid :=
  (hashing.sum256 (b.ticket.getD []), hashing.headerCid b)

def RankLe (x y : Bytes × Cid) : Prop := x.1 < y.1 ∨ x.1 = y.1 ∧ x.2.bytes ≤ y.2.bytes

lemma RankLe.antisymm {x y : Bytes × Cid} (hxy : RankLe x y) (hyx : RankLe y x) : x = y := by
  rcases hxy with hlt | ⟨heq, hle⟩ <;> rcases hyx with hlt' | ⟨heq', hle'⟩
  · exact absurd hlt' (List.lt_asymm hlt)
  · exact absurd (heq' ▸ hlt) (List.lt_irrefl _)
  · exact absurd (heq ▸ hlt') (List.lt_irrefl _)
  · exact Prod.ext heq (congrArg Cid.mk (List.le_antisymm hle hle'))

lemma cids_eq_of_sorted {l l' : List BlockHeader} (hperm : l.Perm l')
    (hl : l.Pairwise (tipsetLe hashing)) (hl' : l'.Pairwise (tipsetLe hashing)) :
    l.map hashing.headerCid = l'.map hashing.headerCid := by
  have hanti : ∀ x y, x ∈ l.map (tipsetRank hashing) → y ∈ l'.map (tipsetRank hashing) →
      RankLe x y → RankLe y x → x = y := fun _ _ _ _ => RankLe.antisymm
  have hrank : l.map (tipsetRank hashing) = l'.map (tipsetRank hashing) :=
    (hperm.map _).eq_of_pairwise hanti (pairwise_map.mpr hl) (pairwise_map.mpr hl')
  have hcids := congrArg (map Prod.snd) hrank
  rwa [map_map, map_map] at hcids

lemma newTipSet_pairwise (hticket : ∀ b ∈ blks, b.ticket.isSome)
    (hapart : TicketsApart hashing blks) (h : newTipSet hashing blks = .ok ts) :
    ts.blocks.Pairwise (tipsetLe hashing) := by
  rw [newTipSet_blocks h, sortBlocks_eq hticket hapart]
  exact pairwise_insertionSort _ _

lemma newTipSet_perm (h : newTipSet hashing blks = .ok ts) : ts.blocks.Perm blks :=
  newTipSet_blocks h ▸ perm_insertionSort _ blks

lemma cids_eq_of_perm (hperm : blks.Perm blks') (hticket : ∀ b ∈ blks, b.ticket.isSome)
    (hapart : TicketsApart hashing blks) (h : newTipSet hashing blks = .ok ts)
    (h' : newTipSet hashing blks' = .ok ts') : ts.cids hashing = ts'.cids hashing := by
  have hmem : ∀ b ∈ blks', b ∈ blks := fun b => hperm.mem_iff.mpr
  have hapart' : TicketsApart hashing blks' := fun a ha b hb =>
    hapart a (hmem a ha) b (hmem b hb)
  exact cids_eq_of_sorted ((newTipSet_perm h).trans (hperm.trans (newTipSet_perm h').symm))
    (newTipSet_pairwise hticket hapart h)
    (newTipSet_pairwise (fun b hb => hticket b (hmem b hb)) hapart' h')

lemma minTicketBlock_eq (hsorted : ts.blocks.Pairwise (tipsetLe hashing)) :
    ts.minTicketBlock hashing = ts.first := by
  obtain ⟨hfirst, -⟩ := pairwise_cons.mp hsorted
  unfold TipSet.minTicketBlock
  generalize ts.rest = rest at hfirst ⊢
  induction rest with
  | nil => rfl
  | cons b rest ih =>
    obtain ⟨hb, hrest⟩ := forall_mem_cons.mp hfirst
    have hnot : ¬ticketLess hashing (b.ticket.getD []) (ts.first.ticket.getD []) = true := by
      intro hless
      have hless := of_decide_eq_true hless
      rcases hb with hlt | ⟨heq, -⟩
      · exact List.lt_asymm hlt hless
      · exact List.lt_irrefl _ (heq ▸ hless)
    rw [foldl_cons, if_neg hnot]
    exact ih hrest

lemma exists_newTipSet_of_perm (hne : blks ≠ []) (hperm : blks.Perm blks')
    (h : ∃ ts, newTipSet hashing blks = .ok ts) : ∃ ts, newTipSet hashing blks' = .ok ts := by
  obtain ⟨b, hb⟩ := exists_mem_of_ne_nil blks hne
  obtain ⟨hticket, hsame⟩ := (exists_newTipSet_iff hb).mp h
  refine (exists_newTipSet_iff (hperm.mem_iff.mp hb)).mpr ⟨fun hlength x hx => ?_, fun x hx => ?_⟩
  · exact hticket (hperm.length_eq ▸ hlength) x (hperm.mem_iff.mpr hx)
  · exact hsame x (hperm.mem_iff.mpr hx)

lemma newTipSet_blocks_again (hticket : ∀ b ∈ blks, b.ticket.isSome)
    (hapart : TicketsApart hashing blks) (h : newTipSet hashing blks = .ok ts) :
    newTipSet hashing ts.blocks = .ok ts := by
  have hperm := newTipSet_perm h
  have hne : blks ≠ [] := by
    rintro rfl
    cases h
  obtain ⟨ts', hts'⟩ := exists_newTipSet_of_perm hne hperm.symm ⟨ts, h⟩
  have hblocks : ts'.blocks = ts.blocks := by
    rw [newTipSet_blocks hts', sortBlocks_eq (fun b hb => hticket b (hperm.mem_iff.mp hb))
      fun a ha b hb => hapart a (hperm.mem_iff.mp ha) b (hperm.mem_iff.mp hb)]
    exact (newTipSet_pairwise hticket hapart h).insertionSort_eq
  rw [hts', TipSet.eq_of_blocks hblocks]

/-- If different tickets have different digests, the tipset of some blocks does not depend on their
order, its first block has the least ticket, and it is decoded from its encoding. -/
theorem newTipSet_canonical (hne : blks ≠ []) (hticket : ∀ b ∈ blks, b.ticket.isSome)
    (hapart : TicketsApart hashing blks) (hperm : blks.Perm blks') (codec : ExpCodec wire) :
    ((∃ ts, newTipSet hashing blks = .ok ts) ↔ ∃ ts', newTipSet hashing blks' = .ok ts') ∧
    ∀ ts ts', newTipSet hashing blks = .ok ts → newTipSet hashing blks' = .ok ts' →
      ts.cids hashing = ts'.cids hashing ∧
      newTipSetKey (ts.cids hashing) = newTipSetKey (ts'.cids hashing) ∧
      ts.minTicketBlock hashing = ts.first ∧
      unmarshalTipSet codec hashing (ts.marshalCBOR codec hashing) = .ok ts := by
  have hne' : blks' ≠ [] := fun hnil => hne (hnil ▸ hperm).eq_nil
  refine ⟨⟨exists_newTipSet_of_perm hne hperm, exists_newTipSet_of_perm hne' hperm.symm⟩,
    fun ts ts' h h' => ?_⟩
  have hcids := cids_eq_of_perm hperm hticket hapart h h'
  refine ⟨hcids, congrArg newTipSetKey hcids,
    minTicketBlock_eq (newTipSet_pairwise hticket hapart h), ?_⟩
  rw [unmarshalTipSet, TipSet.marshalCBOR, codec.unmarshal_marshal]
  exact newTipSet_blocks_again hticket hapart h

def sampleTicketed (t : UInt8) : BlockHeader := { sampleGenesis with ticket := some [t] }

def sampleDigest (sum256 : Bytes → Bytes) : Hashing := ⟨fun b => ⟨b.ticket.getD []⟩, sum256⟩

theorem sampleTicketed_canonical :
    (∃ ts, newTipSet (sampleDigest id) [sampleTicketed 2, sampleTicketed 1] = .ok ts) ↔
      ∃ ts', newTipSet (sampleDigest id) [sampleTicketed 1, sampleTicketed 2] = .ok ts' :=
  (newTipSet_canonical (by decide) (by decide) (by decide) (.swap _ _ _)
    (⟨id, .ok, fun _ => rfl⟩ : ExpCodec ExpTipSet)).1

theorem sampleTicketed_tie : ∃ ts ts',
    newTipSet (sampleDigest fun _ => []) [sampleTicketed 2, sampleTicketed 1] = .ok ts ∧
    newTipSet (sampleDigest fun _ => []) [sampleTicketed 1, sampleTicketed 2] = .ok ts' ∧
    ts.cids (sampleDigest fun _ => []) = [⟨[2]⟩, ⟨[1]⟩] ∧
    ts'.cids (sampleDigest fun _ => []) = [⟨[1]⟩, ⟨[2]⟩] :=
  ⟨_, _, rfl, rfl, by decide, by decide⟩

end Lotus
