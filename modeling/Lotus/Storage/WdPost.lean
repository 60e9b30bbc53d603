import Lotus.Lib.Check
import Lotus.Chain.Block

/-!
# Skipped sectors of a window PoSt

`runPost` of `storage/wdpost_run.go`.
-/

namespace Lotus

open List

/-- A partition: its active sectors and recoveries, those that pass `checkSectors`, and the sectors
whose infos are found. -/
structure CheckedPartition where
  toProve : Finset ℕ
  good : Finset ℕ
  ssi : List ℕ
  good_subset : good ⊆ toProve
  ssi_good : ∀ n ∈ ssi, n ∈ good

def CheckedPartition.Apart (p q : CheckedPartition) : Prop := ∀ n ∈ p.toProve, n ∉ q.toProve

structure DeadlinePartitions where
  partitions : List CheckedPartition
  apart : partitions.Pairwise CheckedPartition.Apart

structure PoStPartition where
  index : ℕ
  skipped : Finset ℕ
deriving DecidableEq

/-- `params.Partitions` after the loop over the partitions from `partIdx` on. -/
def submitted : ℕ → List CheckedPartition → List PoStPartition
  | _, [] => []
  | partIdx, p :: ps =>
    if p.ssi = [] then submitted (partIdx + 1) ps
    else ⟨partIdx, p.toProve \ p.good⟩ :: submitted (partIdx + 1) ps

def sidToPart : ℕ → List CheckedPartition → (ℕ → ℕ) → ℕ → ℕ
  | _, [], m => m
  | partIdx, p :: ps, m =>
    sidToPart (partIdx + 1) ps fun n => if n ∈ p.ssi then partIdx else m n

def setSkipped (sidToPart : ℕ → ℕ) : List ℕ → List PoStPartition →
    Except NodeErr (List PoStPartition)
  | [], parts => .ok parts
  | n :: ns, parts =>
    if sidToPart n < parts.length then
      setSkipped sidToPart ns
        (parts.modify (sidToPart n) fun p => { p with skipped := insert n p.skipped })
    else .error (.new "panic")

def DeadlinePartitions.sinfos (d : DeadlinePartitions) : List ℕ := d.partitions.flatMap (·.ssi)

def runPost (prover : List ℕ → Except NodeErr (List Bytes × List ℕ)) (d : DeadlinePartitions) :
    Except NodeErr (List PoStPartition × List Bytes) := do
  Check.require (d.sinfos ≠ []) (.new "no partitions")
  let (postOut, postSkipped) ← (prover d.sinfos).mapError (.wrap "running post failed")
  Check.require (postOut ≠ []) (.new "received proofs back from generate window post")
  let parts ← setSkipped (sidToPart 0 d.partitions fun _ => 0) postSkipped
    (submitted 0 d.partitions)
  return (parts, postOut)

structure SkippedRight (d : DeadlinePartitions) (postSkipped : List ℕ)
    (parts : List PoStPartition) : Prop where
  indices : parts.map PoStPartition.index = (submitted 0 d.partitions).map PoStPartition.index
  skipped : ∀ part ∈ parts, ∀ p, d.partitions[part.index]? = some p → ∀ n,
    n ∈ part.skipped ↔ n ∈ p.toProve \ p.good ∨ n ∈ postSkipped ∧ n ∈ p.ssi

/-- The partitions before the one at `i` all have a sector to prove. -/
def FullBefore (ps : List CheckedPartition) (i : ℕ) : Prop :=
  ∀ j < i, ∀ q, ps[j]? = some q → q.ssi ≠ []

variable {ps : List CheckedPartition} {p : CheckedPartition} {i k n s : ℕ}

lemma fullBefore_cons (hp : p.ssi ≠ []) : FullBefore (p :: ps) (i + 1) ↔ FullBefore ps i := by
  constructor
  · intro h j hj q hq
    exact h (j + 1) (by omega) q hq
  · intro h j hj q hq
    cases j with
    | zero =>
      cases hq
      exact hp
    | succ j => exact h j (by omega) q hq

lemma submitted_getElem? {part : PoStPartition} (h : (submitted s ps)[k]? = some part) :
    ∃ i p, ps[i]? = some p ∧ k ≤ i ∧ part = ⟨s + i, p.toProve \ p.good⟩ ∧
      (k = i ↔ FullBefore ps i) := by
  induction ps generalizing s k with
  | nil => cases h
  | cons q ps ih =>
    rw [submitted] at h
    split_ifs at h with hq
    · obtain ⟨i, p, hp, hle, rfl, -⟩ := ih h
      refine ⟨i + 1, p, hp, by omega, by rw [Nat.add_right_comm, Nat.add_assoc], ?_⟩
      exact iff_of_false (by omega) fun hfull => hfull 0 (by omega) q rfl hq
    · cases k with
      | zero =>
        cases h
        exact ⟨0, q, rfl, le_rfl, rfl, iff_of_true rfl fun j hj => absurd hj (by omega)⟩
      | succ k =>
        obtain ⟨i, p, hp, hle, rfl, hiff⟩ := ih h
        refine ⟨i + 1, p, hp, by omega, by rw [Nat.add_right_comm, Nat.add_assoc], ?_⟩
        rw [fullBefore_cons hq, ← hiff]
        omega

lemma submitted_of_fullBefore (hp : ps[i]? = some p) (hssi : p.ssi ≠ []) (h : FullBefore ps i) :
    (submitted s ps)[i]? = some ⟨s + i, p.toProve \ p.good⟩ := by
  induction ps generalizing s i with
  | nil => cases hp
  | cons q ps ih =>
    cases i with
    | zero =>
      cases hp
      rw [submitted, if_neg hssi]
      rfl
    | succ i =>
      have hq : q.ssi ≠ [] := h 0 (by omega) q rfl
      rw [submitted, if_neg hq, getElem?_cons_succ, ih hp ((fullBefore_cons hq).mp h)]
      rw [Nat.add_right_comm, Nat.add_assoc]

lemma sidToPart_of_notMem {m : ℕ → ℕ} (h : ∀ p ∈ ps, n ∉ p.ssi) : sidToPart s ps m n = m n := by
  induction ps generalizing s m with
  | nil => rfl
  | cons q ps ih =>
    obtain ⟨hq, hps⟩ := forall_mem_cons.mp h
    rw [sidToPart, ih hps, if_neg hq]

lemma CheckedPartition.mem_toProve (p : CheckedPartition) (h : n ∈ p.ssi) : n ∈ p.toProve :=
  p.good_subset (p.ssi_good n h)

lemma sidToPart_of_mem {m : ℕ → ℕ} (hd : ps.Pairwise CheckedPartition.Apart)
    (hp : ps[i]? = some p) (hn : n ∈ p.ssi) : sidToPart s ps m n = s + i := by
  induction ps generalizing s i m with
  | nil => cases hp
  | cons q ps ih =>
    obtain ⟨hq, hps⟩ := pairwise_cons.mp hd
    cases i with
    | zero =>
      cases hp
      rw [sidToPart, sidToPart_of_notMem, if_pos hn]
      · rfl
      · intro r hr hnr
        exact hq r hr n (p.mem_toProve hn) (r.mem_toProve hnr)
    | succ i => rw [sidToPart, ih hps hp, Nat.add_right_comm, Nat.add_assoc]

lemma setSkipped_eq_ok {f : ℕ → ℕ} {ns : List ℕ} {parts parts' : List PoStPartition}
    (h : setSkipped f ns parts = .ok parts') :
    (∀ n ∈ ns, f n < parts.length) ∧ ∀ k, parts'[k]? = parts[k]?.map fun p : PoStPartition =>
      { p with skipped := p.skipped ∪ (ns.filter (f · = k)).toFinset } := by
  induction ns generalizing parts with
  | nil =>
    cases h
    exact ⟨fun n hn => absurd hn not_mem_nil, fun k => by simp⟩
  | cons n ns ih =>
    rw [setSkipped] at h
    split_ifs at h with hlt
    obtain ⟨hrange, hget⟩ := ih h
    rw [length_modify] at hrange
    refine ⟨forall_mem_cons.mpr ⟨hlt, hrange⟩, fun k => ?_⟩
    rw [hget, getElem?_modify]
    rcases parts[k]? with - | part
    · rfl
    · by_cases hk : f n = k
      · simp [hk, Finset.insert_union]
      · simp [hk]

lemma setSkipped_ok {f : ℕ → ℕ} {ns : List ℕ} {parts : List PoStPartition}
    (h : ∀ n ∈ ns, f n < parts.length) : ∃ parts', setSkipped f ns parts = .ok parts' := by
  induction ns generalizing parts with
  | nil => exact ⟨parts, rfl⟩
  | cons n ns ih =>
    obtain ⟨hn, hns⟩ := forall_mem_cons.mp h
    rw [setSkipped, if_pos hn]
    exact ih (by rwa [length_modify])

variable {d : DeadlinePartitions} {q : CheckedPartition} {j : ℕ} {postSkipped : List ℕ}
  {parts : List PoStPartition}

lemma DeadlinePartitions.notMem_of_ne (hp : d.partitions[i]? = some p)
    (hq : d.partitions[j]? = some q) (hij : i ≠ j) (hn : n ∈ p.toProve) : n ∉ q.toProve := by
  obtain ⟨hi, rfl⟩ := List.getElem?_eq_some_iff.mp hp
  obtain ⟨hj, rfl⟩ := List.getElem?_eq_some_iff.mp hq
  rcases lt_or_gt_of_ne hij with hlt | hgt
  · exact pairwise_iff_getElem.mp d.apart i j hi hj hlt n hn
  · exact fun hn' => pairwise_iff_getElem.mp d.apart j i hj hi hgt n hn' hn

/-- `setSkipped` as `runPost` calls it. -/
def DeadlinePartitions.report (d : DeadlinePartitions) (postSkipped : List ℕ) :
    Except NodeErr (List PoStPartition) :=
  setSkipped (sidToPart 0 d.partitions fun _ => 0) postSkipped (submitted 0 d.partitions)

lemma report_right (hproved : ∀ n ∈ postSkipped, n ∈ d.sinfos)
    (hfull : ∀ i p, d.partitions[i]? = some p → (∃ n ∈ p.ssi, n ∈ postSkipped) →
      FullBefore d.partitions i) :
    ∃ parts, d.report postSkipped = .ok parts ∧ SkippedRight d postSkipped parts := by
  have hplace (n : ℕ) (hn : n ∈ postSkipped) : ∃ i p, d.partitions[i]? = some p ∧ n ∈ p.ssi ∧
      sidToPart 0 d.partitions (fun _ => 0) n = i ∧
      (submitted 0 d.partitions)[i]? = some ⟨i, p.toProve \ p.good⟩ := by
    obtain ⟨p, hp, hnp⟩ := mem_flatMap.mp (hproved n hn)
    obtain ⟨i, hi⟩ := mem_iff_getElem?.mp hp
    have hpos := sidToPart_of_mem (s := 0) (m := fun _ => 0) d.apart hi hnp
    have hget := submitted_of_fullBefore (s := 0) hi (ne_nil_of_mem hnp)
      (hfull i p hi ⟨n, hnp, hn⟩)
    rw [Nat.zero_add] at hpos hget
    exact ⟨i, p, hi, hnp, hpos, hget⟩
  have hrange (n : ℕ) (hn : n ∈ postSkipped) :
      sidToPart 0 d.partitions (fun _ => 0) n < (submitted 0 d.partitions).length := by
    obtain ⟨i, p, -, -, hpos, hget⟩ := hplace n hn
    rw [hpos]
    exact (List.getElem?_eq_some_iff.mp hget).1
  obtain ⟨parts, hparts⟩ := setSkipped_ok hrange
  obtain ⟨-, hget⟩ := setSkipped_eq_ok hparts
  refine ⟨parts, hparts, ⟨ext_getElem? fun k => ?_, fun part hpart p hp n => ?_⟩⟩
  · rw [getElem?_map, getElem?_map, hget, Option.map_map]
    rfl
  · obtain ⟨k, hk⟩ := mem_iff_getElem?.mp hpart
    rw [hget] at hk
    obtain ⟨part', hk', rfl⟩ := Option.map_eq_some_iff.mp hk
    obtain ⟨i, p', hp', -, rfl, hiff⟩ := submitted_getElem? hk'
    simp only [Nat.zero_add] at hp hk' ⊢
    cases hp.symm.trans hp'
    have hown (hn : n ∈ postSkipped) :
        sidToPart 0 d.partitions (fun _ => 0) n = k ↔ n ∈ p.ssi := by
      obtain ⟨j, q, hq, hnq, hpos, hgetj⟩ := hplace n hn
      rw [hpos]
      constructor
      · rintro rfl
        have hij : i = j := congrArg PoStPartition.index (Option.some.inj (hk'.symm.trans hgetj))
        subst hij
        cases hp.symm.trans hq
        exact hnq
      · intro hnp
        have hsame := (sidToPart_of_mem (s := 0) (m := fun _ => 0) d.apart hp hnp)
        rw [hpos, Nat.zero_add] at hsame
        rw [hsame]
        exact (hiff.mpr (hfull i p hp ⟨n, hnp, hn⟩)).symm
    rw [Finset.mem_union, mem_toFinset, mem_filter, decide_eq_true_iff]
    exact or_congr_right (and_congr_right hown)

lemma fullBefore_of_report (h : d.report postSkipped = .ok parts)
    (hright : SkippedRight d postSkipped parts) (hp : d.partitions[i]? = some p) (hn : n ∈ p.ssi)
    (hskipped : n ∈ postSkipped) : FullBefore d.partitions i := by
  obtain ⟨hrange, hget⟩ := setSkipped_eq_ok h
  have hpos := sidToPart_of_mem (s := 0) (m := fun _ => 0) d.apart hp hn
  rw [Nat.zero_add] at hpos
  have hlt := hrange n hskipped
  rw [hpos] at hlt
  have hpart := getElem?_eq_getElem hlt
  obtain ⟨i', q, hq, -, heq, hiff⟩ := submitted_getElem? hpart
  by_cases hii : i = i'
  · rw [hii]
    exact hiff.mp hii
  -- The sector is set in another partition, which does not have it.
  · have hset := hget i
    rw [hpart, Option.map_some] at hset
    have hin := hright.skipped _ (mem_of_getElem? hset) q (by simpa [heq] using hq) n
    rcases hin.mp (Finset.mem_union_right _ (mem_toFinset.mpr (mem_filter.mpr
      ⟨hskipped, decide_eq_true hpos⟩))) with hbad | ⟨-, hown⟩
    · exact absurd (Finset.mem_sdiff.mp hbad).1 (d.notMem_of_ne hp hq hii (p.mem_toProve hn))
    · exact absurd (q.mem_toProve hown) (d.notMem_of_ne hp hq hii (p.mem_toProve hn))

lemma runPost_eq_ok {prover : List ℕ → Except NodeErr (List Bytes × List ℕ)}
    {postOut : List Bytes} (hsinfos : d.sinfos ≠ [])
    (hprover : prover d.sinfos = .ok (postOut, postSkipped)) (hout : postOut ≠ []) :
    runPost prover d = .ok (parts, postOut) ↔ d.report postSkipped = .ok parts := by
  have hrun : runPost prover d = d.report postSkipped >>= fun parts => pure (parts, postOut) := by
    unfold runPost Check.require
    rw [if_pos hsinfos, hprover]
    change (if postOut ≠ [] then Except.ok () else _) >>= _ = _
    rw [if_pos hout]
    rfl
  rw [hrun, Check.bind_eq_ok]
  constructor
  · rintro ⟨parts', hreport, heq⟩
    cases heq
    exact hreport
  · exact fun h => ⟨parts, h, rfl⟩

/-- Over sectors that the prover was given and skipped: a submission comes out and has each of them
under its own partition if and only if no partition before one with such a sector is left out. -/
theorem runPost_skipped_iff {prover : List ℕ → Except NodeErr (List Bytes × List ℕ)}
    {postOut : List Bytes} (hsinfos : d.sinfos ≠ [])
    (hprover : prover d.sinfos = .ok (postOut, postSkipped)) (hout : postOut ≠ [])
    (hproved : ∀ n ∈ postSkipped, n ∈ d.sinfos) :
    (∃ parts, runPost prover d = .ok (parts, postOut) ∧ SkippedRight d postSkipped parts) ↔
      ∀ i p, d.partitions[i]? = some p → (∃ n ∈ p.ssi, n ∈ postSkipped) →
        FullBefore d.partitions i := by
  simp only [runPost_eq_ok hsinfos hprover hout]
  constructor
  · rintro ⟨parts, hreport, hright⟩ i p hp ⟨n, hn, hskipped⟩
    exact fullBefore_of_report hreport hright hp hn hskipped
  · exact report_right hproved

def samplePartition (n : ℕ) (ok : Bool) : CheckedPartition where
  toProve := insert n ∅
  good := if ok then insert n ∅ else ∅
  ssi := if ok then [n] else []
  good_subset := by cases ok <;> simp
  ssi_good := by cases ok <;> simp

def sampleDeadline (ok : Bool) : DeadlinePartitions :=
  ⟨[samplePartition 1 ok, samplePartition 2 true], by
    simp [CheckedPartition.Apart, samplePartition]⟩

def sampleProver (skipped : List ℕ) (_ : List ℕ) : Except NodeErr (List Bytes × List ℕ) :=
  .ok ([[]], skipped)

theorem sampleDeadline_skipped : ∃ parts, runPost (sampleProver [2]) (sampleDeadline true) =
    .ok (parts, [[]]) ∧ SkippedRight (sampleDeadline true) [2] parts := by
  refine (runPost_skipped_iff (by decide) rfl (by decide) (by decide)).mpr fun i p hp _ => ?_
  intro j hj q hq
  have hi : i < 2 := (List.getElem?_eq_some_iff.mp hp).1
  obtain rfl : j = 0 := by omega
  cases hq
  exact cons_ne_nil 1 []

/-- The first partition is left out, and the sector of the second one is set at position 1. -/
theorem sampleDeadline_panic :
    runPost (sampleProver [2]) (sampleDeadline false) = .error (.new "panic") := by
  decide

end Lotus
