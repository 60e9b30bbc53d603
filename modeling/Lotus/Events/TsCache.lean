import Lotus.Chain.Reorg
import Lotus.Lib.Ring
import Lotus.Lib.Runs

/-!
# The tipset cache

`tipSetCache` of `chain/events/tscache.go`: the tipsets of the last epochs in a ring buffer, with an
empty slot for a null round.
-/

namespace Lotus

open Check Ring

structure TipSetCache where
  cache : List (Option TipSet)
  start : ℤ
  len : ℕ
  /-- `tsByHFunc`, by a height and a tipset key -/
  storage : Int64 → List Cid → Except NodeErr (Option TipSet)

def newTSCache (cap : Int64) (storage : Int64 → List Cid → Except NodeErr (Option TipSet)) :
    TipSetCache :=
  ⟨List.replicate cap.toInt.toNat none, 0, 0, storage⟩

def normalModulo (n m : ℤ) : ℤ := (n.tmod m + m).tmod m

namespace TipSetCache

variable (tsc : TipSetCache)

/-- The tipset at an index. -/
def slot (i : ℤ) : Option TipSet := tsc.cache[i.toNat]?.join

def best : Option TipSet := tsc.slot tsc.start

/-- Go to the next slot and write it. -/
def push (ts : Option TipSet) : TipSetCache :=
  let start := normalModulo (tsc.start + 1) tsc.cache.length
  { tsc with
    start := start
    cache := tsc.cache.set start.toNat ts
    len := if tsc.len < tsc.cache.length then tsc.len + 1 else tsc.len }

def fillNulls : ℕ → TipSetCache → TipSetCache
  | 0, tsc => tsc
  | n + 1, tsc => fillNulls n (tsc.push none)

/-- `add`. The height of the head is read from a nil pointer if the head slot is empty. -/
def add (ts : TipSet) : Except NodeErr TipSetCache :=
  if tsc.len > 0 then
    match tsc.best with
    | none => .error (.new "panic")
    | some head =>
      if head.height ≥ ts.height then
        .error (.new "tipSetCache.add: expected new tipset height to be at least %d, was %d")
      else
        .ok ((fillNulls (ts.height - (head.height + 1)).toUInt64.toNat tsc).push (some ts))
  else .ok (tsc.push (some ts))

/-- Empty the head slot and go back. -/
def pop : TipSetCache :=
  { tsc with
    cache := tsc.cache.set tsc.start.toNat none
    start := normalModulo (tsc.start - 1) tsc.cache.length
    len := tsc.len - 1 }

def revertNulls : ℕ → TipSetCache → TipSetCache
  | 0, tsc => tsc
  | n + 1, tsc => if tsc.best = none then revertNulls n tsc.pop else tsc

def revert (hashing : Hashing) (ts : TipSet) : Except NodeErr TipSetCache :=
  if tsc.len = 0 then .ok tsc
  else if tsc.best.all fun head => !head.equals hashing ts then
    .error (.new "tipSetCache.revert: revert tipset didn't match cache head")
  else .ok (revertNulls tsc.pop.len tsc.pop)

/-- The loop of `get` for the lowest tipset. -/
def tail : Option TipSet :=
  (List.range tsc.len).findSome? fun i : ℕ =>
    tsc.slot (normalModulo (tsc.start - tsc.len + (i + 1)) tsc.cache.length)

def get (hashing : Hashing) (height : Int64) : Except NodeErr (Option TipSet) :=
  if tsc.len = 0 then tsc.storage height []
  else
    match tsc.best with
    | none => .error (.new "panic")
    | some head =>
      if height > head.height then
        .error (.new "tipSetCache.get: requested tipset not in cache (req: %d, cache head: %d)")
      else
        match tsc.tail with
        | none => .error (.new "panic")
        | some tail =>
          if height < tail.height then tsc.storage height (tail.cids hashing)
          else
            .ok (tsc.slot
              (normalModulo (tsc.start - (head.height - height).toInt) tsc.cache.length))

def getNonNull (hashing : Hashing) : ℕ → Int64 → Option (Except NodeErr TipSet)
  | 0, _ => none
  | n + 1, height =>
    match tsc.get hashing height with
    | .error err => some (.error err)
    | .ok (some ts) => some (.ok ts)
    | .ok none => getNonNull hashing n (height + 1)

end TipSetCache

/-! ## A chain by its epochs -/

def TipSet.epoch (ts : TipSet) : ℤ := ts.height.toInt

def tipSetAt (chain : List TipSet) (h : ℤ) : Option TipSet := chain.find? fun ts => ts.epoch = h

def Descending (chain : List TipSet) : Prop := chain.Pairwise fun a b => b.epoch < a.epoch
deriving Decidable

section

variable {chain : List TipSet} {ts : TipSet} {h : ℤ}

lemma tipSetAt_eq_some (hat : tipSetAt chain h = some ts) : ts ∈ chain ∧ ts.epoch = h := by
  refine ⟨List.mem_of_find?_eq_some hat, ?_⟩
  have hepoch := List.find?_some hat
  exact of_decide_eq_true hepoch

lemma tipSetAt_cons_self : tipSetAt (ts :: chain) ts.epoch = some ts :=
  List.find?_cons_of_pos (by simp)

lemma tipSetAt_cons_of_ne (hne : ts.epoch ≠ h) : tipSetAt (ts :: chain) h = tipSetAt chain h :=
  List.find?_cons_of_neg (by simpa using hne)

lemma tipSetAt_eq_none (hlt : ∀ t ∈ chain, t.epoch < h) : tipSetAt chain h = none := by
  refine List.find?_eq_none.mpr fun t ht => ?_
  have hne : t.epoch ≠ h := (hlt t ht).ne
  simpa using hne

lemma epoch_le_head {head : TipSet} (hd : Descending (head :: chain)) (hts : ts ∈ head :: chain) :
    ts.epoch ≤ head.epoch := by
  rcases List.mem_cons.mp hts with rfl | hts
  · exact le_rfl
  · exact ((List.pairwise_cons.mp hd).1 ts hts).le

lemma Descending.tipSetAt_of_mem (hd : Descending chain) (hts : ts ∈ chain) :
    tipSetAt chain ts.epoch = some ts := by
  induction chain with
  | nil => cases hts
  | cons t chain ih =>
    obtain ⟨hbelow, hd⟩ := List.pairwise_cons.mp hd
    rcases List.mem_cons.mp hts with rfl | hts
    · exact tipSetAt_cons_self
    · rw [tipSetAt_cons_of_ne (hbelow ts hts).ne']
      exact ih hd hts

lemma Descending.eq_of_epoch {ts' : TipSet} (hd : Descending chain) (hts : ts ∈ chain)
    (hts' : ts' ∈ chain) (heq : ts.epoch = ts'.epoch) : ts = ts' := by
  have hat := hd.tipSetAt_of_mem hts
  rw [heq, hd.tipSetAt_of_mem hts'] at hat
  exact (Option.some.inj hat).symm

lemma Descending.epoch_add_le (hd : Descending chain) (hts : ts ∈ chain) (hle : ts.epoch ≤ h)
    {k : ℕ} (hnull : ∀ j : ℕ, j < k → tipSetAt chain (h - j) = none) : ts.epoch + k ≤ h := by
  by_contra hgt
  have hnone := hnull (h - ts.epoch).toNat (by omega)
  grind [Int.toNat_of_nonneg, sub_sub_cancel, hd.tipSetAt_of_mem]

end

/-! ## The ring and the chain -/

lemma normalModulo_eq_emod {m : ℤ} (hm : 0 < m) (n : ℤ) : normalModulo n m = n % m := by
  unfold normalModulo
  have hlt := Int.tmod_lt_of_pos n hm
  have hgt : -m < n.tmod m := Int.lt_tmod_of_pos n hm
  rw [Int.tmod_eq_emod_of_nonneg (by omega), Int.add_emod_right, Int.tmod_def,
    Int.sub_mul_emod_self_left]

namespace TipSetCache

structure InRange (tsc : TipSetCache) : Prop where
  pos : 0 < tsc.cache.length
  start_nonneg : 0 ≤ tsc.start
  start_lt : tsc.start < tsc.cache.length
  len_le : tsc.len ≤ tsc.cache.length

variable {tsc : TipSetCache} {f : ℤ → Option TipSet} {h : ℤ}

lemma InRange.normalModulo_eq (hr : tsc.InRange) (n : ℤ) :
    normalModulo n tsc.cache.length = n % tsc.cache.length :=
  normalModulo_eq_emod (by exact_mod_cast hr.pos) n

lemma InRange.start_emod (hr : tsc.InRange) : tsc.start % tsc.cache.length = tsc.start :=
  Int.emod_eq_of_lt hr.start_nonneg hr.start_lt

lemma InRange.slot_normalModulo (hr : tsc.InRange) (n : ℤ) :
    tsc.slot (normalModulo n tsc.cache.length) = (cell tsc.cache n).join := by
  rw [hr.normalModulo_eq]
  rfl

lemma InRange.best_eq (hr : tsc.InRange) : tsc.best = (cell tsc.cache tsc.start).join := by
  rw [cell, hr.start_emod]
  rfl

lemma InRange.push (hr : tsc.InRange) (ts : Option TipSet) : (tsc.push ts).InRange := by
  have hpos : (0 : ℤ) < tsc.cache.length := by exact_mod_cast hr.pos
  have hlen := hr.len_le
  unfold TipSetCache.push
  refine ⟨?_, ?_, ?_, ?_⟩
  · simpa using hr.pos
  · rw [hr.normalModulo_eq]
    exact Int.emod_nonneg _ hpos.ne'
  · rw [hr.normalModulo_eq, List.length_set]
    exact Int.emod_lt_of_pos _ hpos
  · grind

lemma InRange.push_len (hr : tsc.InRange) (ts : Option TipSet) :
    (tsc.push ts).len = min (tsc.len + 1) tsc.cache.length := by
  have hle := hr.len_le
  show (if tsc.len < tsc.cache.length then tsc.len + 1 else tsc.len) = _
  split_ifs <;> omega

lemma InRange.push_len_pos (hr : tsc.InRange) (ts : Option TipSet) : 0 < (tsc.push ts).len := by
  have hpos := hr.pos
  rw [hr.push_len]
  omega

lemma InRange.pop (hr : tsc.InRange) : tsc.pop.InRange := by
  have hpos : (0 : ℤ) < tsc.cache.length := by exact_mod_cast hr.pos
  have hlen := hr.len_le
  unfold TipSetCache.pop
  refine ⟨?_, ?_, ?_, ?_⟩
  · simpa using hr.pos
  · rw [hr.normalModulo_eq]
    exact Int.emod_nonneg _ hpos.ne'
  · rw [hr.normalModulo_eq, List.length_set]
    exact Int.emod_lt_of_pos _ hpos
  · grind

def Holds (tsc : TipSetCache) (f : ℤ → Option TipSet) (h : ℤ) : Prop :=
  Shows tsc.cache tsc.start tsc.len f h

lemma Holds.push (hs : tsc.Holds f h) (hr : tsc.InRange) :
    (tsc.push (f (h + 1))).Holds f (h + 1) := by
  have hlen := hr.len_le
  have hpush : Shows (write tsc.cache (tsc.start + 1) (f (h + 1))) (tsc.start + 1)
      (tsc.push (f (h + 1))).len f (h + 1) := by
    refine Shows.push hs hr.pos ?_ ?_
    · show (if tsc.len < tsc.cache.length then tsc.len + 1 else tsc.len) ≤ _
      split_ifs <;> omega
    · show (if tsc.len < tsc.cache.length then tsc.len + 1 else tsc.len) ≤ _
      split_ifs <;> omega
  have hcache : (tsc.push (f (h + 1))).cache = write tsc.cache (tsc.start + 1) (f (h + 1)) := by
    show tsc.cache.set (normalModulo _ _).toNat _ = _
    rw [hr.normalModulo_eq]
    rfl
  rw [Holds, hcache]
  refine hpush.of_modEq ?_
  rw [length_write]
  show normalModulo _ _ ≡ _ [ZMOD _]
  rw [hr.normalModulo_eq]
  exact Int.mod_modEq _ _

lemma Holds.pop (hs : tsc.Holds f h) (hr : tsc.InRange) (hlen : 0 < tsc.len) :
    tsc.pop.Holds f (h - 1) := by
  have hle := hr.len_le
  have hsucc : tsc.len = tsc.len - 1 + 1 := by omega
  have hpop : Shows (write tsc.cache tsc.start none) (tsc.start - 1) (tsc.len - 1) f (h - 1) := by
    refine Shows.pop (hsucc ▸ hs) (by omega) none
  have hcache : tsc.pop.cache = write tsc.cache tsc.start none := by
    show tsc.cache.set tsc.start.toNat none = _
    rw [write, hr.start_emod]
  rw [Holds, hcache]
  refine hpop.of_modEq ?_
  rw [length_write]
  show normalModulo _ _ ≡ _ [ZMOD _]
  rw [hr.normalModulo_eq]
  exact Int.mod_modEq _ _

lemma Holds.best_eq (hs : tsc.Holds f h) (hr : tsc.InRange) (hlen : 0 < tsc.len) :
    tsc.best = f h := by
  have hzero := hs 0 hlen
  grind [Nat.cast_zero, sub_zero, hr.best_eq]

lemma InRange.fillNulls (hr : tsc.InRange) (n : ℕ) : (fillNulls n tsc).InRange := by
  induction n generalizing tsc with
  | zero => exact hr
  | succ n ih => exact ih (hr.push none)

lemma Holds.fillNulls {n : ℕ} (hs : tsc.Holds f h) (hr : tsc.InRange)
    (hnull : ∀ k : ℕ, k < n → f (h + 1 + k) = none) : (fillNulls n tsc).Holds f (h + n) := by
  induction n generalizing tsc h with
  | zero =>
    rwa [Nat.cast_zero, add_zero]
  | succ n ih =>
    have hnone : f (h + 1) = none := by simpa using hnull 0 n.succ_pos
    have hpush := hs.push hr
    rw [hnone] at hpush
    have hshift : ∀ k : ℕ, h + 1 + (k + 1 : ℕ) = h + 1 + 1 + k := fun k => by omega
    have hrest := ih hpush (hr.push none) fun k hk => hshift k ▸ hnull (k + 1) (by omega)
    rwa [show h + (n + 1 : ℕ) = h + 1 + n by omega]

lemma Holds.revertNulls {n : ℕ} (hs : tsc.Holds f h) (hr : tsc.InRange) (hn : tsc.len = n) :
    (revertNulls n tsc).InRange ∧ ∃ k : ℕ, (∀ j : ℕ, j < k → f (h - j) = none) ∧
      (revertNulls n tsc).len + k = n ∧
      (0 < (revertNulls n tsc).len → (f (h - k)).isSome ∧ (revertNulls n tsc).Holds f (h - k)) := by
  induction n generalizing tsc h with
  | zero =>
    refine ⟨hr, 0, fun j hj => absurd hj (Nat.not_lt_zero j), hn, fun hpos => ?_⟩
    exact absurd hn hpos.ne'
  | succ n ih =>
    have hbest := hs.best_eq hr (by omega)
    rw [TipSetCache.revertNulls]
    split_ifs with hnone
    · have hpop : tsc.pop.len = n := by
        show tsc.len - 1 = n
        omega
      obtain ⟨hr', k, hk, hlen, hrest⟩ := ih (hs.pop hr (by omega)) hr.pop hpop
      have hsub : ∀ j : ℕ, h - 1 - (j : ℤ) = h - (j + 1 : ℕ) := fun j => by omega
      rw [hsub] at hrest
      refine ⟨hr', k + 1, fun j hj => ?_, by omega, hrest⟩
      rcases j with _ | j <;> grind
    · simp_all [sub_zero, Option.isSome_iff_ne_none]

lemma fillNulls_length (n : ℕ) (tsc : TipSetCache) :
    (TipSetCache.fillNulls n tsc).cache.length = tsc.cache.length := by
  induction n generalizing tsc with
  | zero => rfl
  | succ n ih => rw [TipSetCache.fillNulls, ih, TipSetCache.push, List.length_set]

lemma revertNulls_length (n : ℕ) (tsc : TipSetCache) :
    (TipSetCache.revertNulls n tsc).cache.length = tsc.cache.length := by
  induction n generalizing tsc with
  | zero => rfl
  | succ n ih => grind [TipSetCache.revertNulls, TipSetCache.pop, List.length_set]

variable {tsc' : TipSetCache}

lemma add_length {ts : TipSet} (h : tsc.add ts = .ok tsc') :
    tsc'.cache.length = tsc.cache.length := by
  grind [TipSetCache.add, TipSetCache.push, List.length_set, fillNulls_length]

lemma revert_length {hashing : Hashing} {ts : TipSet} (h : tsc.revert hashing ts = .ok tsc') :
    tsc'.cache.length = tsc.cache.length := by
  grind [TipSetCache.revert, revertNulls_length, TipSetCache.pop, List.length_set]

lemma fillNulls_storage (n : ℕ) (tsc : TipSetCache) : (fillNulls n tsc).storage = tsc.storage := by
  induction n generalizing tsc with
  | zero => rfl
  | succ n ih => exact ih (tsc.push none)

lemma revertNulls_storage (n : ℕ) (tsc : TipSetCache) :
    (revertNulls n tsc).storage = tsc.storage := by
  induction n generalizing tsc with
  | zero => rfl
  | succ n ih =>
    rw [revertNulls]
    split_ifs
    · exact ih tsc.pop
    · rfl

lemma add_storage {ts : TipSet} (h : tsc.add ts = .ok tsc') : tsc'.storage = tsc.storage := by
  unfold TipSetCache.add at h
  split_ifs at h
  · split at h
    · cases h
    · split_ifs at h
      cases h
      exact fillNulls_storage _ tsc
  · cases h
    rfl

lemma revert_storage {hashing : Hashing} {ts : TipSet} (h : tsc.revert hashing ts = .ok tsc') :
    tsc'.storage = tsc.storage := by
  unfold TipSetCache.revert at h
  split_ifs at h
  · rw [Except.ok.inj h]
  · cases h
    exact revertNulls_storage _ tsc.pop

end TipSetCache

open TipSetCache

structure Represents (tsc : TipSetCache) (chain : List TipSet) : Prop where
  inRange : tsc.InRange
  descending : Descending chain
  holds : 0 < tsc.len → ∃ head rest, chain = head :: rest ∧
    tsc.Holds (tipSetAt chain) head.epoch

variable {tsc : TipSetCache} {chain : List TipSet} {ts : TipSet} {hashing : Hashing}

lemma Represents.best_eq (hrep : Represents tsc chain) (hlen : 0 < tsc.len) :
    tsc.best = chain.head? := by
  obtain ⟨head, rest, rfl, hholds⟩ := hrep.holds hlen
  rw [hholds.best_eq hrep.inRange hlen, tipSetAt_cons_self]
  rfl

/-- A tipset above the head of the chain is added. -/
lemma Represents.add (hrep : Represents tsc chain) (hts : ∀ t ∈ chain, t.epoch < ts.epoch) :
    ∃ tsc', tsc.add ts = .ok tsc' ∧ 0 < tsc'.len ∧ Represents tsc' (ts :: chain) := by
  have hd : Descending (ts :: chain) := List.pairwise_cons.mpr ⟨hts, hrep.descending⟩
  unfold TipSetCache.add
  by_cases hlen : tsc.len > 0
  · obtain ⟨head, rest, rfl, hholds⟩ := hrep.holds hlen
    have hlt : head.epoch < ts.epoch := hts head (.head _)
    have hbest : tsc.best = some head := hrep.best_eq hlen
    have hnot : ¬head.height ≥ ts.height := by
      rw [ge_iff_le, Int64.not_le]
      exact Int64.lt_iff_toInt_lt.mpr hlt
    rw [if_pos hlen, hbest]
    dsimp only
    rw [if_neg hnot]
    refine ⟨_, rfl, (hrep.inRange.fillNulls _).push_len_pos _, (hrep.inRange.fillNulls _).push _,
      hd, fun _ => ⟨ts, _, rfl, ?_⟩⟩
    have hgap := Word.toNat_sub_add_one hlt
    -- The slots below are those of the old chain, and then null rounds.
    have hold : tsc.Holds (tipSetAt (ts :: head :: rest)) head.epoch :=
      hholds.congr fun k _ => (tipSetAt_cons_of_ne (by omega)).symm
    have hnull : ∀ k : ℕ, k < (ts.height - (head.height + 1)).toUInt64.toNat →
        tipSetAt (ts :: head :: rest) (head.epoch + 1 + k) = none := by
      intro k hk
      rw [tipSetAt_cons_of_ne (by unfold TipSet.epoch; omega)]
      refine tipSetAt_eq_none fun t ht => ?_
      have hle := epoch_le_head hrep.descending ht
      omega
    have hfill := hold.fillNulls hrep.inRange hnull
    have hpush := hfill.push (hrep.inRange.fillNulls _)
    have hnext : head.epoch + (ts.height - (head.height + 1)).toUInt64.toNat + 1 = ts.epoch := by
      unfold TipSet.epoch
      omega
    rw [hnext, tipSetAt_cons_self] at hpush
    exact hpush
  · rw [if_neg hlen]
    refine ⟨_, rfl, hrep.inRange.push_len_pos _, hrep.inRange.push _, hd, fun _ => ⟨ts, _, rfl, ?_⟩⟩
    have hempty : tsc.Holds (tipSetAt (ts :: chain)) (ts.epoch - 1) :=
      fun k hk => absurd hk (by omega)
    grind [hempty.push, hrep.inRange, sub_add_cancel, tipSetAt_cons_self]

lemma fillNulls_len (hr : tsc.InRange) (n : ℕ) :
    (TipSetCache.fillNulls n tsc).len = min (tsc.len + n) tsc.cache.length := by
  have hle := hr.len_le
  induction n generalizing tsc with
  | zero =>
    show tsc.len = _
    omega
  | succ n ih =>
    have hlength : (tsc.push none).cache.length = tsc.cache.length := List.length_set
    grind [TipSetCache.fillNulls, hr.push, hr.push_len]

/-- A tipset and the null rounds below it take their slots, up to the capacity. -/
lemma Represents.add_len {head : TipSet} {tsc' : TipSetCache}
    (hrep : Represents tsc (head :: chain)) (hlen : 0 < tsc.len) (hlt : head.epoch < ts.epoch)
    (hadd : tsc.add ts = .ok tsc') :
    (tsc'.len : ℤ) = min (tsc.len + (ts.epoch - head.epoch)) tsc.cache.length := by
  have hbest : tsc.best = some head := hrep.best_eq hlen
  have hnot : ¬head.height ≥ ts.height := by
    rw [ge_iff_le, Int64.not_le]
    exact Int64.lt_iff_toInt_lt.mpr hlt
  rw [TipSetCache.add, if_pos hlen, hbest] at hadd
  dsimp only at hadd
  rw [if_neg hnot] at hadd
  cases hadd
  have hgap := Word.toNat_sub_add_one hlt
  have hfill := fillNulls_len hrep.inRange (ts.height - (head.height + 1)).toUInt64.toNat
  set n := (ts.height - (head.height + 1)).toUInt64.toNat
  have hpush := (hrep.inRange.fillNulls n).push_len (some ts)
  rw [fillNulls_length] at hpush
  unfold TipSet.epoch at *
  omega

lemma Represents.add_len_of_empty {tsc' : TipSetCache} (hrep : Represents tsc chain)
    (hlen : tsc.len = 0) (hadd : tsc.add ts = .ok tsc') : tsc'.len = 1 := by
  have hpos := hrep.inRange.pos
  rw [TipSetCache.add, if_neg (by omega)] at hadd
  cases hadd
  rw [hrep.inRange.push_len]
  omega

lemma Represents.add_keeps_head {head : TipSet} {tsc' : TipSetCache}
    (hrep : Represents tsc (head :: chain)) (hlen : 0 < tsc.len) (hlt : head.epoch < ts.epoch)
    (hroom : ts.epoch < head.epoch + tsc.cache.length) (hadd : tsc.add ts = .ok tsc') :
    ts.epoch - tsc'.len < head.epoch := by
  have hlen' := hrep.add_len hlen hlt hadd
  omega

/-- The head of the chain is reverted, and the null rounds below it. The lowest epoch of the buffer
stays, unless nothing is left. -/
lemma Represents.revert (hrep : Represents tsc (ts :: chain)) (hashing : Hashing) :
    ∃ tsc', tsc.revert hashing ts = .ok tsc' ∧ Represents tsc' chain ∧ tsc'.len ≤ tsc.len ∧
      ∀ next ∈ chain.head?, ts.epoch - tsc.len < next.epoch →
        ts.epoch - tsc.len = next.epoch - tsc'.len := by
  have hd : Descending chain := (List.pairwise_cons.mp hrep.descending).2
  have hbelow := (List.pairwise_cons.mp hrep.descending).1
  unfold TipSetCache.revert
  by_cases hlen : tsc.len = 0
  · rw [if_pos hlen]
    refine ⟨tsc, rfl, ⟨hrep.inRange, hd, fun hpos => absurd hlen hpos.ne'⟩, le_rfl, ?_⟩
    intro next hnext hin
    have := hbelow next (List.mem_of_mem_head? hnext)
    omega
  · have hpos : 0 < tsc.len := Nat.pos_of_ne_zero hlen
    obtain ⟨head, rest, heq, hholds⟩ := hrep.holds hpos
    obtain ⟨rfl, rfl⟩ := List.cons.inj heq
    have hbest : tsc.best = some ts := hrep.best_eq hpos
    rw [if_neg hlen, hbest]
    simp only [Option.all_some, TipSet.equals_self, Bool.not_true, Bool.false_eq_true, if_false]
    have hpop : tsc.pop.Holds (tipSetAt chain) (ts.epoch - 1) :=
      (hholds.pop hrep.inRange hpos).congr fun k _ => tipSetAt_cons_of_ne (by omega)
    obtain ⟨hr', k, hnull, hlen', hrest⟩ := hpop.revertNulls hrep.inRange.pop rfl
    have hlenPop : tsc.pop.len = tsc.len - 1 := rfl
    -- The first tipset below is the next one of the chain.
    have hnext : 0 < (revertNulls tsc.pop.len tsc.pop).len →
        ∃ next rest, chain = next :: rest ∧ next.epoch = ts.epoch - 1 - k := by
      intro hpos'
      obtain ⟨t, ht⟩ := Option.isSome_iff_exists.mp (hrest hpos').1
      obtain ⟨htmem, htepoch⟩ := tipSetAt_eq_some ht
      obtain ⟨next, rest, rfl⟩ := List.exists_cons_of_ne_nil (List.ne_nil_of_mem htmem)
      have hle := epoch_le_head hd htmem
      have hlt := hbelow next (.head _)
      have hge := hd.epoch_add_le (.head _) (by omega) hnull
      exact ⟨next, rest, rfl, by omega⟩
    refine ⟨_, rfl, ⟨hr', hd, fun hpos' => ?_⟩, by omega, fun next hmem hin => ?_⟩
    · grind
    · have hmem' := List.mem_of_mem_head? hmem
      have hlt := hbelow next hmem'
      have hge := hd.epoch_add_le hmem' (by omega) hnull
      obtain ⟨next', rest, hchain, hepoch⟩ := hnext (by omega)
      clear hnext
      rw [hchain] at hmem
      rw [Option.some.inj hmem] at hepoch
      omega

/-! ## Reading the cache -/

lemma Represents.slot_eq (hrep : Represents tsc (ts :: chain)) {k : ℕ} (hk : k < tsc.len) :
    tsc.slot (normalModulo (tsc.start - k) tsc.cache.length) =
      tipSetAt (ts :: chain) (ts.epoch - k) := by
  obtain ⟨head, rest, heq, hholds⟩ := hrep.holds (by omega)
  obtain ⟨rfl, rfl⟩ := List.cons.inj heq
  rw [hrep.inRange.slot_normalModulo, hholds k hk]
  rfl

/-- The lowest tipset in the buffer. -/
lemma Represents.tail_eq (hrep : Represents tsc (ts :: chain)) (hlen : 0 < tsc.len) :
    ∃ tail ∈ ts :: chain, tsc.tail = some tail ∧ ts.epoch - tsc.len < tail.epoch ∧
      ∀ t ∈ ts :: chain, ts.epoch - tsc.len < t.epoch → tail.epoch ≤ t.epoch := by
  -- The loop goes up over the epochs of the buffer.
  have hslot : ∀ i < tsc.len,
      tsc.slot (normalModulo (tsc.start - tsc.len + (i + 1)) tsc.cache.length) =
        tipSetAt (ts :: chain) (ts.epoch - tsc.len + (i + 1)) := by
    intro i hi
    have hrev := hrep.slot_eq (k := tsc.len - 1 - i) (by omega)
    rw [show tsc.start - ((tsc.len - 1 - i : ℕ) : ℤ) = tsc.start - tsc.len + (i + 1) by omega,
      show ts.epoch - ((tsc.len - 1 - i : ℕ) : ℤ) = ts.epoch - tsc.len + (i + 1) by omega] at hrev
    exact hrev
  have hfind : ∀ t ∈ ts :: chain, ts.epoch - tsc.len < t.epoch →
      (t.epoch - (ts.epoch - tsc.len) - 1).toNat < tsc.len ∧
      tsc.slot (normalModulo (tsc.start - tsc.len +
        ((t.epoch - (ts.epoch - tsc.len) - 1).toNat + 1)) tsc.cache.length) = some t := by
    intro t ht hin
    have hle := epoch_le_head hrep.descending ht
    refine ⟨by omega, ?_⟩
    rw [hslot _ (by omega), ← hrep.descending.tipSetAt_of_mem ht]
    congr 1
    omega
  unfold tail
  rcases htail : (List.range tsc.len).findSome? fun i : ℕ =>
      tsc.slot (normalModulo (tsc.start - tsc.len + (i + 1)) tsc.cache.length) with _ | tail
  · grind
  · obtain ⟨below, i, above, hrange, hi, hbelow⟩ := List.findSome?_eq_some_iff.mp htail
    have hmem : i ∈ List.range tsc.len := by simp [hrange]
    have hilt := List.mem_range.mp hmem
    rw [hslot i hilt] at hi
    obtain ⟨hchain, hepoch⟩ := tipSetAt_eq_some hi
    refine ⟨tail, hchain, rfl, by omega, fun t ht hin => ?_⟩
    obtain ⟨hlt, hsome⟩ := hfind t ht hin
    have hsorted := List.pairwise_lt_range (n := tsc.len)
    rw [hrange] at hsorted
    have habove := (List.pairwise_cons.mp (List.pairwise_append.mp hsorted).2.1).1
    have hj := List.mem_range.mpr hlt
    rw [hrange] at hj
    rcases List.mem_append.mp hj with hj | hj
    · rw [hbelow _ hj] at hsome
      cases hsome
    · rcases List.mem_cons.mp hj with hj | hj
      · omega
      · have := habove _ hj
        omega

/-- The epochs that have a slot in the buffer. -/
def InBuffer (tsc : TipSetCache) (chain : List TipSet) (height : Int64) : Prop :=
  ∃ head rest, chain = head :: rest ∧ head.epoch - tsc.len < height.toInt ∧
    height.toInt ≤ head.epoch

/-- The epochs from the lowest tipset of the buffer to its head: null rounds at the low end of the
buffer are not among them. -/
def InWindow (tsc : TipSetCache) (chain : List TipSet) (height : Int64) : Prop :=
  ∃ head rest, chain = head :: rest ∧ height.toInt ≤ head.epoch ∧
    ∃ t ∈ chain, head.epoch - tsc.len < t.epoch ∧ t.epoch ≤ height.toInt

variable {height : Int64}

/-- In the window, `get` gives the tipset of the chain, or nil for a null round. -/
lemma Represents.get_eq (hrep : Represents tsc chain) (hcap : tsc.cache.length < 2 ^ 63)
    (hwin : InWindow tsc chain height) :
    tsc.get hashing height = .ok (tipSetAt chain height.toInt) := by
  obtain ⟨head, rest, rfl, hle, t, ht, hin, hge⟩ := hwin
  have hlen : tsc.len ≠ 0 := by omega
  have hmax := hrep.inRange.len_le
  obtain ⟨tail, -, htail, -, hleast⟩ := hrep.tail_eq (Nat.pos_of_ne_zero hlen)
  have hbest : tsc.best = some head := hrep.best_eq (Nat.pos_of_ne_zero hlen)
  have hnotGt : ¬height > head.height := by
    rw [gt_iff_lt, Int64.lt_iff_toInt_lt]
    exact not_lt.mpr hle
  have hnotLt : ¬height < tail.height := by
    rw [Int64.lt_iff_toInt_lt]
    exact not_lt.mpr ((hleast t ht hin).trans hge)
  have hsub : (head.height - height).toInt = head.epoch - height.toInt := by
    unfold TipSet.epoch at *
    exact Word.toInt_sub_of_mem (by omega) (by omega)
  have hslot := hrep.slot_eq (k := (head.epoch - height.toInt).toNat) (by omega)
  grind [Int.toNat_of_nonneg, sub_sub_cancel, TipSetCache.get]

/-- Below the window, `get` asks the storage with the key of the lowest tipset in the buffer. -/
lemma Represents.get_below (hrep : Represents tsc (ts :: chain)) (hashing : Hashing)
    (hlen : 0 < tsc.len) (hle : height.toInt ≤ ts.epoch)
    (hnot : ¬InWindow tsc (ts :: chain) height) :
    ∃ tail, tsc.tail = some tail ∧
      tsc.get hashing height = tsc.storage height (tail.cids hashing) := by
  obtain ⟨tail, hmem, htail, hin, -⟩ := hrep.tail_eq hlen
  have hbest : tsc.best = some ts := hrep.best_eq hlen
  have hnotGt : ¬height > ts.height := by
    rw [gt_iff_lt, Int64.lt_iff_toInt_lt]
    exact not_lt.mpr hle
  have hlt : height < tail.height := by
    rw [Int64.lt_iff_toInt_lt]
    by_contra hge
    exact hnot ⟨ts, chain, rfl, hle, tail, hmem, hin, not_lt.mp hge⟩
  refine ⟨tail, htail, ?_⟩
  rw [TipSetCache.get, if_neg hlen.ne', hbest]
  dsimp only
  rw [if_neg hnotGt, htail]
  exact if_pos hlt

lemma Represents.get_isOk (hrep : Represents tsc (ts :: chain)) (hlen : 0 < tsc.len)
    (hcap : tsc.cache.length < 2 ^ 63)
    (hstorage : ∀ t ∈ ts :: chain, height.toInt < t.epoch →
      (tsc.storage height (t.cids hashing)).isOk = true)
    (hle : height.toInt ≤ ts.epoch) : (tsc.get hashing height).isOk = true := by
  by_cases hwin : InWindow tsc (ts :: chain) height
  · rw [hrep.get_eq hcap hwin]
    rfl
  · obtain ⟨tail, htail, hget⟩ := hrep.get_below hashing hlen hle hwin
    obtain ⟨tail', hmem, htail', hin, -⟩ := hrep.tail_eq hlen
    cases htail.symm.trans htail'
    rw [hget]
    refine hstorage tail hmem ?_
    by_contra hge
    exact hwin ⟨ts, chain, rfl, hle, tail, hmem, hin, not_lt.mp hge⟩

/-- A slot of the buffer is read right from the lowest tipset on, and below it only if the storage
answers nil as well. -/
lemma Represents.get_eq_iff (hrep : Represents tsc chain) (hashing : Hashing)
    (hcap : tsc.cache.length < 2 ^ 63) (hin : InBuffer tsc chain height) :
    tsc.get hashing height = .ok (tipSetAt chain height.toInt) ↔
      InWindow tsc chain height ∨
        ∃ tail, tsc.tail = some tail ∧ tsc.storage height (tail.cids hashing) = .ok none := by
  by_cases hwin : InWindow tsc chain height
  · simp only [hrep.get_eq hcap hwin, hwin, true_or]
  obtain ⟨head, rest, rfl, hlow, hle⟩ := hin
  obtain ⟨tail, htail, hget⟩ := hrep.get_below hashing (by omega) hle hwin
  have hnull : tipSetAt (head :: rest) height.toInt = none := by
    rcases hat : tipSetAt (head :: rest) height.toInt with _ | t
    · rfl
    · obtain ⟨hmem, hepoch⟩ := tipSetAt_eq_some hat
      exact absurd ⟨head, rest, rfl, hle, t, hmem, by omega, hepoch.le⟩ hwin
  simp [hget, hnull, htail, hwin]

def IsLowest (chain : List TipSet) (h : ℤ) (ts : TipSet) : Prop :=
  ts ∈ chain ∧ h ≤ ts.epoch ∧ ∀ t ∈ chain, h ≤ t.epoch → ts.epoch ≤ t.epoch

lemma Represents.getNonNull_eq {head : TipSet} (hrep : Represents tsc (head :: chain))
    (hashing : Hashing) (hcap : tsc.cache.length < 2 ^ 63)
    (hwin : InWindow tsc (head :: chain) height) :
    ∃ t, IsLowest (head :: chain) height.toInt t ∧ ∀ n : ℕ, head.epoch - height.toInt < n →
      tsc.getNonNull hashing n height = some (.ok t) := by
  obtain ⟨d, hdist⟩ : ∃ d : ℕ, head.epoch = height.toInt + d := by
    obtain ⟨_, _, hcons, hle, -⟩ := hwin
    obtain ⟨rfl, rfl⟩ := List.cons.inj hcons
    exact ⟨(head.epoch - height.toInt).toNat, by omega⟩
  induction d generalizing height with
  | zero =>
    have hget : tsc.get hashing height = _ := hrep.get_eq hcap hwin
    have hhead : height.toInt = head.epoch := by omega
    rw [hhead, tipSetAt_cons_self] at hget
    refine ⟨head, ⟨List.mem_cons_self .., hhead.le, fun t' _ hge => hhead ▸ hge⟩, fun n hn => ?_⟩
    obtain ⟨m, rfl⟩ : ∃ m, n = m + 1 := ⟨n - 1, by omega⟩
    rw [getNonNull, hget]
  | succ d ih =>
    have hget : tsc.get hashing height = _ := hrep.get_eq hcap hwin
    rcases hat : tipSetAt (head :: chain) height.toInt with _ | t
    · have hlt : height.toInt < head.height.toInt := by
        show _ < head.epoch
        omega
      have hsucc := Word.toInt_add_one hlt
      -- The window reaches up to the head, so the next height is in it.
      have hwin' : InWindow tsc (head :: chain) (height + 1) := by
        obtain ⟨_, _, hcons, -, t, ht, hin, hge⟩ := hwin
        obtain ⟨rfl, rfl⟩ := List.cons.inj hcons
        exact ⟨head, chain, rfl, by omega, t, ht, hin, by omega⟩
      obtain ⟨t, ⟨hmem, hge, hleast⟩, hn⟩ := ih hwin' (by omega)
      refine ⟨t, ⟨hmem, by omega, fun t' ht' hge' => hleast t' ht' ?_⟩, fun n hlt' => ?_⟩
      · have hne : t'.epoch ≠ height.toInt := by
          grind [hrep.descending.tipSetAt_of_mem]
        omega
      · obtain ⟨m, rfl⟩ : ∃ m, n = m + 1 := ⟨n - 1, by omega⟩
        rw [getNonNull, hget, hat]
        exact hn m (by omega)
    · obtain ⟨hmem, hepoch⟩ := tipSetAt_eq_some hat
      refine ⟨t, ⟨hmem, hepoch.ge, fun t' _ hge => hepoch ▸ hge⟩, fun n hn => ?_⟩
      obtain ⟨m, rfl⟩ : ∃ m, n = m + 1 := ⟨n - 1, by omega⟩
      rw [getNonNull, hget, hat]

/-! ## Runs -/

inductive CacheOp where
  | add (ts : TipSet)
  | revert
deriving DecidableEq

def cacheStep (hashing : Hashing) :
    TipSetCache × List TipSet → CacheOp → Option (TipSetCache × List TipSet)
  | (tsc, chain), .add ts =>
    if ∀ t ∈ chain, t.epoch < ts.epoch then (tsc.add ts).toOption.map (·, ts :: chain) else none
  | (tsc, ts :: chain), .revert => (tsc.revert hashing ts).toOption.map (·, chain)
  | (_, []), .revert => none

def FollowsChain (cap : ℕ) (s : TipSetCache × List TipSet) : Prop :=
  s.1.cache.length = cap ∧ Represents s.1 s.2

lemma FollowsChain.step {cap : ℕ} {s s' : TipSetCache × List TipSet} {op : CacheOp}
    (h : FollowsChain cap s) (hstep : cacheStep hashing s op = some s') : FollowsChain cap s' := by
  obtain ⟨tsc, chain⟩ := s
  obtain ⟨hcap, hrep⟩ := h
  cases op with
  | add ts =>
    rw [cacheStep] at hstep
    split_ifs at hstep with hts
    obtain ⟨tsc', hadd, -, hrep'⟩ := hrep.add hts
    rw [hadd] at hstep
    cases hstep
    exact ⟨(add_length hadd).trans hcap, hrep'⟩
  | revert =>
    rcases chain with _ | ⟨ts, chain⟩
    · cases hstep
    · obtain ⟨tsc', hrevert, hrep', -⟩ := hrep.revert hashing
      rw [cacheStep, hrevert] at hstep
      cases hstep
      exact ⟨(revert_length hrevert).trans hcap, hrep'⟩

lemma newTSCache_follows {cap : Int64} (hcap : 1 ≤ cap)
    (storage : Int64 → List Cid → Except NodeErr (Option TipSet)) :
    FollowsChain cap.toInt.toNat (newTSCache cap storage, []) := by
  have hpos : 1 ≤ cap.toInt := Int64.le_iff_toInt_le.mp hcap
  have hlength : (newTSCache cap storage).cache.length = cap.toInt.toNat := List.length_replicate
  refine ⟨hlength, ⟨?_, le_rfl, ?_, Nat.zero_le _⟩, .nil, fun hlen => absurd hlen (lt_irrefl 0)⟩
  · rw [hlength]
    omega
  · rw [hlength]
    show (0 : ℤ) < cap.toInt.toNat
    omega

/-- Along a chain, the buffer is the last epochs of the chain. Each call succeeds, `add` stores its
tipset, the head of the buffer is the head of the chain, and in the window `get` gives the tipset of
the chain at a height, or nil for a null round, and `getNonNull` ends with the lowest tipset at or
above it. Below the window the storage is asked, and its answer is then right only if it is nil. -/
theorem tipSetCache_follows (hashing : Hashing)
    (storage : Int64 → List Cid → Except NodeErr (Option TipSet)) {cap : Int64} (hcap : 1 ≤ cap)
    {ops : List CacheOp} {tsc : TipSetCache} {chain : List TipSet}
    (hrun : Runs.run (cacheStep hashing) (newTSCache cap storage, []) ops = some (tsc, chain)) :
    tsc.len ≤ cap.toInt.toNat ∧
    (∀ ts, (∀ t ∈ chain, t.epoch < ts.epoch) → ∃ tsc', tsc.add ts = .ok tsc' ∧
      tsc'.best = some ts ∧ (tsc.len = 0 → tsc'.len = 1) ∧
      (0 < tsc.len → ∀ head ∈ chain.head?,
        (tsc'.len : ℤ) = min (tsc.len + (ts.epoch - head.epoch)) cap.toInt)) ∧
    (∀ ts ∈ chain.head?, ∃ tsc', tsc.revert hashing ts = .ok tsc' ∧ tsc'.len ≤ tsc.len ∧
      ∀ next ∈ chain.tail.head?, ts.epoch - tsc.len < next.epoch →
        ts.epoch - tsc.len = next.epoch - tsc'.len) ∧
    (0 < tsc.len → ∃ head, chain.head? = some head ∧ tsc.best = some head ∧
      (∀ k : ℕ, k < tsc.len → tsc.slot (normalModulo (tsc.start - k) tsc.cache.length) =
        tipSetAt chain (head.epoch - k)) ∧
      ∀ height : Int64, height.toInt ≤ head.epoch → ¬InWindow tsc chain height →
        ∃ tail, tsc.tail = some tail ∧
          tsc.get hashing height = tsc.storage height (tail.cids hashing)) ∧
    (∀ height : Int64, InBuffer tsc chain height →
      (tsc.get hashing height = .ok (tipSetAt chain height.toInt) ↔
        InWindow tsc chain height ∨
          ∃ tail, tsc.tail = some tail ∧ tsc.storage height (tail.cids hashing) = .ok none)) ∧
    ∀ height : Int64, InWindow tsc chain height →
      tsc.get hashing height = .ok (tipSetAt chain height.toInt) ∧
      ∃ t, IsLowest chain height.toInt t ∧
        ∃ rounds, ∀ n ≥ rounds, tsc.getNonNull hashing n height = some (.ok t) := by
  obtain ⟨hlength, hrep⟩ := Runs.invariant (fun h _ => FollowsChain.step h)
    (newTSCache_follows hcap storage) Runs.along_true hrun
  have hlength : tsc.cache.length = cap.toInt.toNat := hlength
  have hrep : Represents tsc chain := hrep
  have hmax : tsc.cache.length < 2 ^ 63 := by
    have := Int64.toInt_lt cap
    omega
  refine ⟨hlength ▸ hrep.inRange.len_le, ?_, ?_, ?_, ?_, ?_⟩
  · intro ts hts
    obtain ⟨tsc', hadd, hpos, hrep'⟩ := hrep.add hts
    refine ⟨tsc', hadd, hrep'.best_eq hpos, fun hlen => hrep.add_len_of_empty hlen hadd, ?_⟩
    intro hlen head hhead
    obtain ⟨rest, rfl⟩ := List.head?_eq_some_iff.mp hhead
    have hlen' := hrep.add_len hlen (hts head (.head _)) hadd
    have hcap' := hrep.inRange.pos
    omega
  · intro ts hts
    obtain ⟨rest, rfl⟩ := List.head?_eq_some_iff.mp hts
    obtain ⟨tsc', hrevert, -, hle, hnext⟩ := hrep.revert hashing
    exact ⟨tsc', hrevert, hle, hnext⟩
  · intro hlen
    obtain ⟨head, rest, rfl, -⟩ := hrep.holds hlen
    exact ⟨head, rfl, hrep.best_eq hlen, fun k hk => hrep.slot_eq hk,
      fun height hle hnot => hrep.get_below _ hlen hle hnot⟩
  · intro height hin
    exact hrep.get_eq_iff hashing hmax hin
  · intro height hwin
    refine ⟨hrep.get_eq hmax hwin, ?_⟩
    obtain ⟨head, rest, rfl, -⟩ := id hwin
    obtain ⟨t, hlowest, hn⟩ := hrep.getNonNull_eq hashing hmax hwin
    exact ⟨t, hlowest, (head.epoch - height.toInt).toNat + 1, fun n hle => hn n (by omega)⟩

def sampleEpoch (height : Int64) : TipSet := .single { sampleGenesis with height := height }

def sampleCacheOps : List CacheOp :=
  [.add (sampleEpoch 1), .add (sampleEpoch 2), .add (sampleEpoch 4), .revert, .add (sampleEpoch 5)]

def sampleStorage : Int64 → List Cid → Except NodeErr (Option TipSet) :=
  fun _ _ => .error (.new "storage call")

def sampleCache : TipSetCache :=
  ⟨[none, some (sampleEpoch 5), some (sampleEpoch 2), none], 1, 4, sampleStorage⟩

/-- The ring has wrapped around, and the epochs 3 and 4 are null rounds. -/
theorem sampleCache_follows : sampleCache.get sampleHashing 3 = .ok none ∧
      sampleCache.get sampleHashing 2 = .ok (sampleEpoch 2) ∧
      ∃ rounds, ∀ n ≥ rounds,
        sampleCache.getNonNull sampleHashing n 3 = some (.ok (sampleEpoch 5)) := by
  have hrun : Runs.run (cacheStep sampleHashing) (newTSCache 4 sampleStorage, []) sampleCacheOps =
      some (sampleCache, [sampleEpoch 5, sampleEpoch 2, sampleEpoch 1]) := rfl
  obtain ⟨-, -, -, -, -, hwindow⟩ :=
    tipSetCache_follows sampleHashing sampleStorage (by decide) hrun
  have hnull : InWindow sampleCache [sampleEpoch 5, sampleEpoch 2, sampleEpoch 1] 3 :=
    ⟨_, _, rfl, by decide, sampleEpoch 2, by simp, by decide, by decide⟩
  have hlow : InWindow sampleCache [sampleEpoch 5, sampleEpoch 2, sampleEpoch 1] 2 :=
    ⟨_, _, rfl, by decide, sampleEpoch 2, by simp, by decide, by decide⟩
  obtain ⟨hget, t, ⟨hmem, hge, -⟩, hnonNull⟩ := hwindow 3 hnull
  have ht : t = sampleEpoch 5 := by
    simp only [List.mem_cons, List.not_mem_nil, or_false] at hmem
    rcases hmem with rfl | rfl | rfl
    · rfl
    · exact absurd hge (by decide)
    · exact absurd hge (by decide)
  exact ⟨hget, (hwindow 2 hlow).1, ht ▸ hnonNull⟩

/-- A storage that looks back from a null round, as `ChainGetTipSetByHeight` does. -/
def sampleLookback : Int64 → List Cid → Except NodeErr (Option TipSet) :=
  fun _ _ => .ok (some (sampleEpoch 1))

def sampleFullCache : TipSetCache :=
  ⟨[some (sampleEpoch 3), some (sampleEpoch 4), none], 1, 3, sampleLookback⟩

theorem sampleFullCache_looks_back :
    Runs.run (cacheStep sampleHashing) (newTSCache 3 sampleLookback, [])
        [.add (sampleEpoch 1), .add (sampleEpoch 3), .add (sampleEpoch 4)] =
      some (sampleFullCache, [sampleEpoch 4, sampleEpoch 3, sampleEpoch 1]) ∧
    InBuffer sampleFullCache [sampleEpoch 4, sampleEpoch 3, sampleEpoch 1] 2 ∧
    tipSetAt [sampleEpoch 4, sampleEpoch 3, sampleEpoch 1] 2 = none ∧
    sampleFullCache.get sampleHashing 2 = .ok (some (sampleEpoch 1)) ∧
    sampleFullCache.getNonNull sampleHashing 1 2 = some (.ok (sampleEpoch 1)) :=
  ⟨rfl, ⟨_, _, rfl, by decide, by decide⟩, by decide, rfl, rfl⟩

end Lotus
