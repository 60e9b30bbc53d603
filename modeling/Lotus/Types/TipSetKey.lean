import Lotus.Chain.Block

/-!
# Tipset keys

`chain/types/tipset_key.go`.
-/

namespace Lotus

open List

structure TipSetKey where
  value : Bytes
deriving DecidableEq

def encodeKey (cids : List Cid) : Bytes := cids.flatMap (·.bytes)

def newTipSetKey (cids : List Cid) : TipSetKey := ⟨encodeKey cids⟩

/-- `cid.CidFromBytes`, which returns the number of bytes it has read, and the CIDs that can be
made. -/
structure CidParser where
  cidFromBytes : Bytes → Except NodeErr (ℕ × Cid)
  Defined : Cid → Prop

namespace CidParser

variable (p : CidParser)

/-- The loop of `decodeKey`, for at most `n` turns. It is not over after these turns if there is no
result. -/
def decodeLoop (encoded : Bytes) : ℕ → ℕ → List Cid → Option (Except NodeErr (List Cid))
  | 0, _, _ => none
  | n + 1, nextIdx, cids =>
    if nextIdx < encoded.length then
      match p.cidFromBytes (encoded.drop nextIdx) with
      | .error err => some (.error err)
      | .ok (nr, c) => decodeLoop encoded n (nextIdx + nr) (cids ++ [c])
    else some (.ok cids)

def decodeKey (n : ℕ) (encoded : Bytes) : Option (Except NodeErr (List Cid)) :=
  p.decodeLoop encoded n 0 []

def tipSetKeyFromBytes (n : ℕ) (encoded : Bytes) : Option (Except NodeErr TipSetKey) :=
  (p.decodeKey n encoded).map (·.map fun _ => ⟨encoded⟩)

/-- `TipSetKey.Cids`, which panics if the key cannot be decoded. -/
def cids (n : ℕ) (k : TipSetKey) : Option (Except NodeErr (List Cid)) :=
  (p.decodeKey n k.value).map (·.mapError fun _ => .new "panic")

structure SelfDelimiting : Prop where
  cidFromBytes_append : ∀ c, p.Defined c → ∀ rest,
    p.cidFromBytes (c.bytes ++ rest) = .ok (c.bytes.length, c)
  consumes : ∀ data nr c, p.cidFromBytes data = .ok (nr, c) → 1 ≤ nr

variable {p} {encoded : Bytes} {n m nextIdx : ℕ} {acc : List Cid}

lemma decodeLoop_mono {r : Except NodeErr (List Cid)} (hle : n ≤ m)
    (h : p.decodeLoop encoded n nextIdx acc = some r) :
    p.decodeLoop encoded m nextIdx acc = some r := by
  induction n generalizing m nextIdx acc with
  | zero => cases h
  | succ n ih =>
    obtain ⟨m, rfl⟩ := Nat.exists_eq_add_of_le' (Nat.one_le_of_lt hle)
    rw [decodeLoop] at h ⊢
    split_ifs at h ⊢ with hmore
    · rcases hparse : p.cidFromBytes (encoded.drop nextIdx) with err | ⟨nr, c⟩ <;>
        rw [hparse] at h
      · exact h
      · exact ih (Nat.le_of_succ_le_succ hle) h
    · exact h

lemma SelfDelimiting.decodeLoop_isSome (h : p.SelfDelimiting)
    (hn : encoded.length - nextIdx < n) : (p.decodeLoop encoded n nextIdx acc).isSome := by
  induction n generalizing nextIdx acc with
  | zero => exact absurd hn (Nat.not_lt_zero _)
  | succ n ih =>
    rw [decodeLoop]
    split_ifs with hmore
    · rcases hparse : p.cidFromBytes (encoded.drop nextIdx) with err | ⟨nr, c⟩
      · rfl
      · have hnr := h.consumes _ nr c hparse
        exact ih (by omega)
    · rfl

lemma SelfDelimiting.decodeLoop_encodeKey (h : p.SelfDelimiting) {cs : List Cid}
    (hcs : ∀ c ∈ cs, p.Defined c) (pre : Bytes) (hn : cs.length < n) :
    p.decodeLoop (pre ++ encodeKey cs) n pre.length acc = some (.ok (acc ++ cs)) := by
  induction cs generalizing pre n acc with
  | nil =>
    obtain ⟨n, rfl⟩ := Nat.exists_eq_add_of_le' hn
    simp [decodeLoop, encodeKey]
  | cons c cs ih =>
    obtain ⟨n, rfl⟩ := Nat.exists_eq_add_of_le' (Nat.one_le_of_lt hn)
    have hparse := h.cidFromBytes_append c (hcs c mem_cons_self)
    have hc : 1 ≤ c.bytes.length := h.consumes _ _ c (hparse [])
    have hkey : encodeKey (c :: cs) = c.bytes ++ encodeKey cs := flatMap_cons
    have hmore : pre.length < (pre ++ encodeKey (c :: cs)).length := by
      rw [hkey, length_append, length_append]
      omega
    rw [decodeLoop, if_pos hmore, drop_left, hkey, hparse]
    dsimp only
    rw [← append_assoc, ← length_append, append_cons acc c cs]
    exact ih (fun x hx => hcs x (mem_cons_of_mem c hx)) (pre ++ c.bytes)
      (Nat.lt_of_succ_lt_succ hn)

lemma SelfDelimiting.cids_newTipSetKey (h : p.SelfDelimiting) {cs : List Cid}
    (hcs : ∀ c ∈ cs, p.Defined c) (hn : cs.length < n) :
    p.cids n (newTipSetKey cs) = some (.ok cs) := by
  have hdecode : p.decodeKey n (encodeKey cs) = some (.ok cs) :=
    h.decodeLoop_encodeKey hcs [] hn
  rw [cids, newTipSetKey, hdecode]
  rfl

lemma cids_of_tipSetKeyFromBytes {k : TipSetKey}
    (h : p.tipSetKeyFromBytes n encoded = some (.ok k)) (hle : n ≤ m) :
    ∃ cs, p.cids m k = some (.ok cs) := by
  obtain ⟨r, hr, hk⟩ := Option.map_eq_some_iff.mp h
  rcases r with err | cs
  · cases hk
  · cases hk
    refine ⟨cs, ?_⟩
    rw [cids, decodeKey, decodeLoop_mono hle hr]
    rfl

/-- Keys give back their CIDs, differ for different CIDs and can always be decoded, and the keys
that are accepted do not panic. -/
theorem tipSetKey_faithful (h : p.SelfDelimiting) :
    (∀ cs, (∀ c ∈ cs, p.Defined c) → ∃ m, ∀ n ≥ m, p.cids n (newTipSetKey cs) = some (.ok cs)) ∧
    (∀ cs cs', (∀ c ∈ cs, p.Defined c) → (∀ c ∈ cs', p.Defined c) →
      newTipSetKey cs = newTipSetKey cs' → cs = cs') ∧
    (∀ encoded, ∃ m, ∀ n ≥ m, (p.decodeKey n encoded).isSome) ∧
    ∀ encoded n k, p.tipSetKeyFromBytes n encoded = some (.ok k) →
      ∀ m ≥ n, ∃ cs, p.cids m k = some (.ok cs) := by
  refine ⟨fun cs hcs => ⟨cs.length + 1, fun n hn => h.cids_newTipSetKey hcs hn⟩, ?_,
    fun encoded => ⟨encoded.length + 1, fun n hn => h.decodeLoop_isSome hn⟩,
    fun encoded n k hk m hm => cids_of_tipSetKeyFromBytes hk hm⟩
  intro cs cs' hcs hcs' hkey
  have hleft := h.cids_newTipSetKey hcs (Nat.lt_succ_of_le (le_max_left _ cs'.length))
  have hright := h.cids_newTipSetKey hcs' (Nat.lt_succ_of_le (le_max_right cs.length _))
  rw [hkey, hright] at hleft
  exact (Except.ok.inj (Option.some.inj hleft)).symm

def sampleParser : CidParser where
  cidFromBytes
    | [] => .error (.new "cid too short")
    | len :: data =>
      if len.toNat ≤ data.length then .ok (len.toNat + 1, ⟨len :: data.take len.toNat⟩)
      else .error (.new "cid too short")
  Defined c := ∃ len body, c.bytes = len :: body ∧ body.length = len.toNat

lemma sampleParser_selfDelimiting : sampleParser.SelfDelimiting where
  cidFromBytes_append := by
    rintro ⟨_⟩ ⟨len, body, rfl, hlen⟩ rest
    simp [sampleParser, ← hlen]
  consumes := by
    rintro (_ | ⟨len, data⟩) nr c hparse
    · cases hparse
    · dsimp only [sampleParser] at hparse
      split_ifs at hparse
      cases hparse
      exact Nat.le_add_left 1 _

theorem sampleParser_twoCids : ∃ m, ∀ n ≥ m,
    sampleParser.cids n (newTipSetKey [⟨[1, 7]⟩, ⟨[2, 7, 1]⟩]) =
      some (.ok [⟨[1, 7]⟩, ⟨[2, 7, 1]⟩]) :=
  (tipSetKey_faithful sampleParser_selfDelimiting).1 _ fun c hc => by
    rcases mem_pair.mp hc with rfl | rfl
    · exact ⟨1, [7], rfl, rfl⟩
    · exact ⟨2, [7, 1], rfl, rfl⟩

end CidParser

end Lotus
