import Lotus.Chain.Expand

/-!
# The comparison of CID lists

`CidArrsEqual` (`chain/types/blockheader.go`) compares the lengths of two lists and looks each CID
of the second one up in the first.
-/

namespace Lotus

open List

instance : Infinite Cid :=
  Infinite.of_injective Cid.mk fun _ _ h => (Cid.mk.injEq ..).mp h

lemma cidArrsEqual_eq_true {a b : List Cid} :
    cidArrsEqual a b = true ↔ a.length = b.length ∧ b ⊆ a :=
  decide_eq_true_iff

lemma cidArrsEqual_of_perm {a b : List Cid} (h : a.Perm b) : cidArrsEqual a b = true :=
  cidArrsEqual_eq_true.mpr ⟨h.length_eq, h.symm.subset⟩

lemma exists_cidArrsEqual_not_perm {b : List Cid} (h : ¬b.Nodup) :
    ∃ a, cidArrsEqual a b = true ∧ ¬a.Perm b := by
  obtain ⟨x, hx⟩ := exists_duplicate_iff_not_nodup.mpr h
  have hcount : 2 ≤ b.count x := duplicate_iff_two_le_count.mp hx
  have hmem : x ∈ b := count_pos_iff.mp (by omega)
  have hleft : x ∈ b.erase x := by
    refine count_pos_iff.mp ?_
    rw [count_erase_self]
    omega
  obtain ⟨y, hy⟩ := Infinite.exists_notMem_finset b.toFinset
  refine ⟨y :: b.erase x, cidArrsEqual_eq_true.mpr ⟨?_, fun c hc => ?_⟩, fun hperm => ?_⟩
  · rw [length_cons, length_erase_of_mem hmem]
    have := length_pos_of_mem hmem
    omega
  · by_cases hcx : c = x
    · exact .tail _ (hcx ▸ hleft)
    · exact .tail _ ((mem_erase_of_ne hcx).mpr hc)
  · exact hy (mem_toFinset.mpr (hperm.subset mem_cons_self))

/-- The comparison with a list tells the permutations of that list from all other lists if and only
if the list has no CID twice. -/
theorem cidArrsEqual_perm_iff (b : List Cid) :
    (∀ a, cidArrsEqual a b = true ↔ a.Perm b) ↔ b.Nodup := by
  constructor
  · intro h
    by_contra hnodup
    obtain ⟨a, hequal, hperm⟩ := exists_cidArrsEqual_not_perm hnodup
    exact hperm ((h a).mp hequal)
  · intro hnodup a
    refine ⟨fun hequal => ?_, cidArrsEqual_of_perm⟩
    obtain ⟨hlen, hsub⟩ := cidArrsEqual_eq_true.mp hequal
    exact ((subperm_of_subset hnodup hsub).perm_of_length_le hlen.le).symm

theorem sampleRepeated_cidArrsEqual :
    cidArrsEqual [⟨[1]⟩, ⟨[2]⟩] [⟨[1]⟩, ⟨[1]⟩] = true ∧
      cidArrsEqual [⟨[1]⟩, ⟨[1]⟩] [⟨[1]⟩, ⟨[2]⟩] = false ∧
        ¬[(⟨[1]⟩ : Cid), ⟨[2]⟩].Perm [⟨[1]⟩, ⟨[1]⟩] := by
  decide

end Lotus
