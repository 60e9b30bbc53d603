import Lotus.Chain.MinerKeys

/-!
# The beacon entries of a block

`BeaconEntriesForBlock` and `ValidateBlockValues` of `chain/beacon/beacon.go`.
-/

namespace Lotus

open Check List

structure Chained (beacon : RandomBeacon) (entry : UInt64 → BeaconEntry) : Prop where
  round_eq : ∀ r, (entry r).round = r
  verifies : ∀ r : UInt64, r.toNat + 1 < 2 ^ 64 →
    beacon.verifyEntry (entry (r + 1)) (entry r) = .ok ()

def entriesAfter (entry : UInt64 → BeaconEntry) : UInt64 → ℕ → List BeaconEntry
  | _, 0 => []
  | p, n + 1 => entry (p + 1) :: entriesAfter entry (p + 1) n

def firstRound (beacon : RandomBeacon) (epoch : Int64) (prev : BeaconEntry) : UInt64 :=
  if prev.round = 0 then beacon.maxBeaconRoundForEpoch epoch prev else prev.round + 1

variable {syncer : Syncer} {m : Miner} {entry : UInt64 → BeaconEntry}

lemma toNat_add_one {r : UInt64} (h : r.toNat + 1 < 2 ^ 64) : (r + 1).toNat = r.toNat + 1 := by
  rw [UInt64.toNat_add]
  exact Nat.mod_eq_of_lt h

lemma toNat_sub_one {r : UInt64} (h : 0 < r.toNat) : (r - 1).toNat = r.toNat - 1 :=
  UInt64.toNat_sub_of_le r 1 (UInt64.le_iff_toNat_le.mpr h)

variable {p : UInt64} {n : ℕ}

lemma entriesAfter_succ {cur : UInt64} (hcur : cur.toNat = p.toNat + (n + 1)) :
    entriesAfter entry p (n + 1) = entriesAfter entry p n ++ [entry cur] := by
  have hp : (p + 1).toNat = p.toNat + 1 := toNat_add_one (by have := cur.toNat_lt; omega)
  induction n generalizing p with
  | zero =>
    have heq : p + 1 = cur := UInt64.toNat_inj.mp (by omega)
    rw [← heq]
    rfl
  | succ n ih =>
    grind [toNat_add_one, cur.toNat_lt, entriesAfter]

lemma fetchEntries_eq (hentry : ∀ r, m.beaconEntry r = .ok (entry r))
    (hround : ∀ r, (entry r).round = r) {cur : UInt64} (hcur : cur.toNat = p.toNat + n)
    (out : List BeaconEntry) :
    fetchEntries m p n cur out = .ok (entriesAfter entry p n ++ out) := by
  induction n generalizing cur out with
  | zero =>
    have hle : ¬cur > p := by
      rw [gt_iff_lt, UInt64.lt_iff_toNat_lt]
      omega
    rw [fetchEntries, if_neg hle]
    rfl
  | succ n ih =>
    have hgt : cur > p := by
      rw [gt_iff_lt, UInt64.lt_iff_toNat_lt]
      omega
    have hnext : (cur - 1).toNat = p.toNat + n := by
      rw [toNat_sub_one (by omega)]
      omega
    rw [fetchEntries, if_pos hgt, hentry, entriesAfter_succ hcur, append_assoc]
    show fetchEntries m p n ((entry cur).round - 1) (entry cur :: out) = _
    rw [hround]
    exact ih hnext _

section

variable {beacon : RandomBeacon}

variable {prev : BeaconEntry}

lemma verifyEntries_cons_eq_ok {e : BeaconEntry} {es : List BeaconEntry} :
    verifyEntries beacon (e :: es) prev = .ok () ↔
      beacon.verifyEntry e prev = .ok () ∧ verifyEntries beacon es e = .ok () := by
  rw [verifyEntries, bind_eq_ok]
  simp only [mapError_eq_ok]
  exact ⟨fun ⟨_, hhead, htail⟩ => ⟨hhead, htail⟩, fun ⟨hhead, htail⟩ => ⟨_, hhead, htail⟩⟩

lemma verifyEntries_entriesAfter (h : Chained beacon entry) (hlt : p.toNat + n < 2 ^ 64) :
    verifyEntries beacon (entriesAfter entry p n) (entry p) = .ok () := by
  induction n generalizing p with
  | zero => rfl
  | succ n ih =>
    have hp : (p + 1).toNat = p.toNat + 1 := toNat_add_one (by omega)
    exact verifyEntries_cons_eq_ok.mpr ⟨h.verifies p (by omega), ih (by omega)⟩

lemma verifyEntries_entriesAfter_iff (h : Chained beacon entry) (hlt : p.toNat + (n + 1) < 2 ^ 64)
    (prev : BeaconEntry) :
    verifyEntries beacon (entriesAfter entry p (n + 1)) prev = .ok () ↔
      beacon.verifyEntry (entry (p + 1)) prev = .ok () := by
  have hp : (p + 1).toNat = p.toNat + 1 := toNat_add_one (by omega)
  rw [entriesAfter, verifyEntries_cons_eq_ok]
  exact and_iff_left (verifyEntries_entriesAfter h (by omega))

lemma verifyEntries_ne_panic (es : List BeaconEntry) (prev : BeaconEntry) :
    verifyEntries beacon es prev ≠ .error (.new "panic") := by
  induction es generalizing prev with
  | nil => simp [verifyEntries]
  | cons e es ih =>
    rw [verifyEntries]
    rcases beacon.verifyEntry e prev with err | u
    · simp [Except.mapError, bind, Except.bind]
    · exact ih e

lemma validateBlockValues_ne_panic {epoch : Int64} {entries : List BeaconEntry} :
    validateBlockValues beacon epoch entries prev ≠ .error (.new "panic") ↔
      entries ≠ [] ∨ beacon.maxBeaconRoundForEpoch epoch prev = prev.round := by
  unfold validateBlockValues require
  split_ifs with hmax hnil
  · exact iff_of_true (by simp) (.inr hmax)
  · exact iff_of_true (by simp) (.inr hmax)
  · rcases eq_nil_or_concat entries with rfl | ⟨init, last, rfl⟩
    · simp [hmax]
    · refine iff_of_true ?_ (.inl (by simp))
      rw [concat_eq_append, getLast?_concat]
      dsimp only
      split_ifs
      · exact verifyEntries_ne_panic _ _
      · simp [bind, Except.bind]

lemma validateBlockValues_entriesAfter (h : Chained beacon entry) {epoch : Int64}
    (hmax : beacon.maxBeaconRoundForEpoch epoch prev ≠ prev.round)
    (hp : (beacon.maxBeaconRoundForEpoch epoch prev).toNat = p.toNat + (n + 1)) :
    validateBlockValues beacon epoch (entriesAfter entry p (n + 1)) prev = .ok () ↔
      beacon.verifyEntry (entry (p + 1)) prev = .ok () := by
  have hlast : (entriesAfter entry p (n + 1)).getLast? =
      some (entry (beacon.maxBeaconRoundForEpoch epoch prev)) := by
    rw [entriesAfter_succ hp, getLast?_concat]
  have hlt : p.toNat + (n + 1) < 2 ^ 64 := hp ▸ UInt64.toNat_lt _
  rw [validateBlockValues, if_neg hmax, hlast, ← verifyEntries_entriesAfter_iff h hlt prev]
  dsimp only
  rw [bind_eq_ok]
  simp [require_eq_ok, h.round_eq]

end

/-! ## The miner and the validator -/

section

variable (hentry : ∀ r, m.beaconEntry r = .ok (entry r)) (hround : ∀ r, (entry r).round = r)
  {epoch : Int64} {prev : BeaconEntry}

include hentry hround

lemma beaconEntriesForBlock_of_lt
    (hlt : prev.round < syncer.beacon.maxBeaconRoundForEpoch epoch prev) :
    ∃ (p : UInt64) (n : ℕ), p + 1 = firstRound syncer.beacon epoch prev ∧
      (syncer.beacon.maxBeaconRoundForEpoch epoch prev).toNat = p.toNat + (n + 1) ∧
      beaconEntriesForBlock syncer m epoch prev = .ok (entriesAfter entry p (n + 1)) := by
  unfold beaconEntriesForBlock firstRound
  generalize syncer.beacon.maxBeaconRoundForEpoch epoch prev = maxRound at hlt
  have hltNat := UInt64.lt_iff_toNat_lt.mp hlt
  have hfetch : ∀ p : UInt64, p.toNat < maxRound.toNat → ∃ n, maxRound.toNat = p.toNat + (n + 1) ∧
        fetchEntries m p (maxRound - p).toNat maxRound [] = .ok (entriesAfter entry p (n + 1)) := by
    intro p hp
    have hsub : (maxRound - p).toNat = maxRound.toNat - p.toNat :=
      UInt64.toNat_sub_of_le _ _ (UInt64.le_iff_toNat_le.mpr hp.le)
    refine ⟨maxRound.toNat - p.toNat - 1, by omega, ?_⟩
    rw [fetchEntries_eq hentry hround (by omega), hsub, append_nil]
    congr 2
    omega
  rw [if_neg (UInt64.ne_of_lt hlt).symm]
  by_cases hzero : prev.round = 0
  -- The first entry of the chain is of the last round of the epoch.
  · have hpred : (maxRound - 1).toNat = maxRound.toNat - 1 := toNat_sub_one (by omega)
    obtain ⟨n, hn, hok⟩ := hfetch (maxRound - 1) (by omega)
    rw [if_pos hzero, if_pos hzero]
    exact ⟨maxRound - 1, n, UInt64.sub_add_cancel _ _, hn, hok⟩
  · grind

end

lemma beaconEntriesForBlock_of_gt {epoch : Int64} {prev : BeaconEntry}
    (hgt : syncer.beacon.maxBeaconRoundForEpoch epoch prev < prev.round) :
    beaconEntriesForBlock syncer m epoch prev = .ok [] := by
  unfold beaconEntriesForBlock
  generalize syncer.beacon.maxBeaconRoundForEpoch epoch prev = maxRound at hgt
  grind [UInt64.ne_of_lt, fetchEntries.eq_def, UInt64.lt_asymm]

lemma beaconEntriesForBlock_accepted_iff (h : Chained syncer.beacon entry)
    (hentry : ∀ r, m.beaconEntry r = .ok (entry r)) (epoch : Int64) (prev : BeaconEntry) :
    ∃ entries, beaconEntriesForBlock syncer m epoch prev = .ok entries ∧
      (validateBlockValues syncer.beacon epoch entries prev = .ok () ↔
        syncer.beacon.maxBeaconRoundForEpoch epoch prev = prev.round ∨
          prev.round < syncer.beacon.maxBeaconRoundForEpoch epoch prev ∧
            syncer.beacon.verifyEntry (entry (firstRound syncer.beacon epoch prev)) prev =
              .ok ()) := by
  by_cases hmax : syncer.beacon.maxBeaconRoundForEpoch epoch prev = prev.round
  · refine ⟨[], ?_, iff_of_true ?_ (.inl hmax)⟩
    · rw [beaconEntriesForBlock, if_pos hmax]
    · rw [validateBlockValues, if_pos hmax]
      rfl
  rcases UInt64.lt_or_lt_of_ne hmax with hgt | hlt
  -- The miner has nothing to ask for, but the validator expects an entry.
  · refine ⟨[], beaconEntriesForBlock_of_gt hgt, iff_of_false ?_ ?_⟩
    · rw [validateBlockValues, if_neg hmax]
      intro h
      cases h
    · grind
  · obtain ⟨p, n, hfirst, hp, hok⟩ := beaconEntriesForBlock_of_lt hentry h.round_eq hlt
    refine ⟨_, hok, ?_⟩
    rw [validateBlockValues_entriesAfter h hmax hp, hfirst]
    simp [hmax, hlt]

def MonotoneRounds (beacon : RandomBeacon) : Prop :=
  ∀ (prev : BeaconEntry) (e e' : Int64), e ≤ e' →
    beacon.maxBeaconRoundForEpoch e prev ≤ beacon.maxBeaconRoundForEpoch e' prev

lemma verifyEntry_firstRound (h : Chained syncer.beacon entry) {epoch : Int64}
    {prev : BeaconEntry} (hlt : prev.round < syncer.beacon.maxBeaconRoundForEpoch epoch prev)
    (hprev : prev.round ≠ 0 ∧ prev = entry prev.round ∨
      prev.round = 0 ∧ ∀ curr, syncer.beacon.verifyEntry curr prev = .ok ()) :
    syncer.beacon.verifyEntry (entry (firstRound syncer.beacon epoch prev)) prev = .ok () := by
  rcases hprev with ⟨hzero, hprev⟩ | ⟨-, hfirst⟩
  · have hbound : prev.round.toNat + 1 < 2 ^ 64 := by
      have := UInt64.lt_iff_toNat_lt.mp hlt
      have := (syncer.beacon.maxBeaconRoundForEpoch epoch prev).toNat_lt
      omega
    have hverifies := h.verifies prev.round hbound
    rw [← hprev] at hverifies
    rwa [firstRound, if_neg hzero]
  · exact hfirst _

/-- Over a beacon with chained entries the miner always gets its entries. They are accepted exactly
if there are none to add, or the previous entry is of an earlier round and the first new one
verifies against it. A header fails the index exactly if it has no entry and needs one. -/
theorem beaconEntries_accepted (h : Chained syncer.beacon entry)
    (hentry : ∀ r, m.beaconEntry r = .ok (entry r)) (epoch : Int64) (prev : BeaconEntry) :
    (∃ entries, beaconEntriesForBlock syncer m epoch prev = .ok entries ∧
      (validateBlockValues syncer.beacon epoch entries prev = .ok () ↔
        syncer.beacon.maxBeaconRoundForEpoch epoch prev = prev.round ∨
          prev.round < syncer.beacon.maxBeaconRoundForEpoch epoch prev ∧
            syncer.beacon.verifyEntry (entry (firstRound syncer.beacon epoch prev)) prev = .ok ()) ∧
      (MonotoneRounds syncer.beacon →
        (∃ earlier ≤ epoch, prev.round ≤ syncer.beacon.maxBeaconRoundForEpoch earlier prev) →
        (prev.round ≠ 0 ∧ prev = entry prev.round ∨
          prev.round = 0 ∧ ∀ curr, syncer.beacon.verifyEntry curr prev = .ok ()) →
        validateBlockValues syncer.beacon epoch entries prev = .ok ())) ∧
    ∀ entries, validateBlockValues syncer.beacon epoch entries prev ≠ .error (.new "panic") ↔
      entries ≠ [] ∨ syncer.beacon.maxBeaconRoundForEpoch epoch prev = prev.round := by
  refine ⟨?_, fun entries => validateBlockValues_ne_panic⟩
  obtain ⟨entries, hok, hiff⟩ := beaconEntriesForBlock_accepted_iff h hentry epoch prev
  refine ⟨entries, hok, hiff, fun hmono ⟨earlier, hle, hprevMax⟩ hprev => hiff.mpr ?_⟩
  have hround : prev.round ≤ syncer.beacon.maxBeaconRoundForEpoch epoch prev :=
    UInt64.le_trans hprevMax (hmono prev earlier epoch hle)
  rcases UInt64.lt_or_eq_of_le hround with hlt | heq
  · exact .inr ⟨hlt, verifyEntry_firstRound h hlt hprev⟩
  · exact .inl heq.symm

def sampleBeaconMiner : Miner := { sampleMiner with beaconEntry := fun r => .ok ⟨r, []⟩ }

lemma sampleDrand_chained : Chained sampleDrand.toRandomBeacon fun r => ⟨r, []⟩ where
  round_eq _ := rfl
  verifies _ _ := ite_self _

/-- Epoch 3 has the rounds up to 35, and a header with the rounds 34 and 35 follows round 33. -/
theorem sampleDrand_accepted :
    ∃ entries, beaconEntriesForBlock (sampleSyncer []) sampleBeaconMiner 3 ⟨33, []⟩ = .ok entries ∧
      validateBlockValues (sampleSyncer []).beacon 3 entries ⟨33, []⟩ = .ok () := by
  obtain ⟨⟨entries, hok, hiff, -⟩, -⟩ :=
    @beaconEntries_accepted (sampleSyncer []) sampleBeaconMiner _ sampleDrand_chained
      (fun _ => rfl) 3 ⟨33, []⟩
  exact ⟨entries, hok, hiff.mpr (.inr ⟨by decide, rfl⟩)⟩

/-- A header of epoch 1 without entries, over an entry of round 32. -/
theorem sampleDrand_panics :
    validateBlockValues sampleDrand.toRandomBeacon 1 [] ⟨32, []⟩ = .error (.new "panic") := rfl

end Lotus
