import Lotus.Lib.Horner
import Lotus.Chain.Height

/-!
# Election sortition

`chain/types/electionproof.go`. Numbers are in Q.256 format.
-/

namespace Lotus

def precision : ℕ := 256

/-- The coefficients of `expneg`, before the shift by `precision - 128`. -/
def expNum : List ℤ :=
  [-648770010757830093818553637600, 67469480939593786226847644286976,
    -3197587544499098424029388939001856, 89244641121992890118377641805348864,
    -1579656163641440567800982336819953664, 17685496037279256458459817590917169152,
    -115682590513835356866803355398940131328, 340282366920938463463374607431768211456]

def expDeno : List ℤ :=
  [1225524182432722209606361, 114095592300906098243859450, 5665570424063336070530214243,
    194450132448609991765137938448, 5068267641632683791026134915072,
    104716890604972796896895427629056, 1748338658439454459487681798864896,
    23704654329841312470660182937960448, 259380097567996910282699886670381056,
    2250336698853390384720606936038375424, 14978272436876548034486263159246028800,
    72144088983913131323343765784380833792, 224599776407103106596571252037123047424,
    340282366920938463463374607431768211456]

def expNumCoef : List ℤ := expNum.map (· * 2 ^ (precision - 128))

def expDenoCoef : List ℤ := expDeno.map (· * 2 ^ (precision - 128))

/-- `polyval`, of coefficients from the highest order on. -/
def polyval (p : List ℤ) (x : ℤ) : ℤ := p.tail.foldl (Horner.turn precision x) (p.headD 0)

/-- `expneg`; `big.Int.Div` is Euclidean, as `/` is. -/
def expneg (x : ℤ) : ℤ := polyval expNumCoef x * 2 ^ precision / polyval expDenoCoef x

/-- The rate of the wins, where `blocksPerEpoch` is what an epoch has on average. -/
def lambda (blocksPerEpoch : ℕ) (power totalPower : ℤ) : ℤ :=
  power * blocksPerEpoch * 2 ^ precision / totalPower

structure Poiss where
  lam : ℤ
  pmf : ℤ
  icdf : ℤ
  k : ℕ

/-- `newPoiss`, whose second result is the field `icdf`. -/
def newPoiss (lam : ℤ) : Poiss := ⟨lam, expneg lam, 2 ^ precision - expneg lam, 0⟩

/-- `next`, which returns the new `icdf`. -/
def Poiss.next (p : Poiss) : Poiss :=
  let pmf := p.pmf / (p.k + 1 : ℕ) * p.lam / 2 ^ precision
  ⟨p.lam, pmf, p.icdf - pmf, p.k + 1⟩

/-- The loop of `ComputeWinCount`, with `n` turns left to `MaxWinCount`. -/
def winLoop (lhs : ℤ) : ℕ → Poiss → ℕ
  | 0, _ => 0
  | n + 1, p => if lhs < p.icdf then winLoop lhs n p.next + 1 else 0

/-- `ComputeWinCount`, of the digest `lhs` of the VRF proof. -/
def computeWinCount (blocksPerEpoch : ℕ) (lhs : ℤ) (power totalPower : ℤ) : ℕ :=
  winLoop lhs (3 * blocksPerEpoch) (newPoiss (lambda blocksPerEpoch power totalPower))

/-! ## The exponential -/

variable {x : ℤ}

lemma polyval_num_nonneg (hx : 0 ≤ x) (hle : x ≤ 5 * 2 ^ precision) :
    0 ≤ polyval expNumCoef x := by
  obtain ⟨i, hi, hpiece⟩ := Horner.exists_piece (n := 11) (w := 2 ^ 255) (by positivity) hx
    (hle.trans_lt (by norm_num [precision]))
  have hbound : ∀ i < (11 : ℕ), 0 ≤ (expNumCoef.tail.foldl (Horner.enclose precision (i * 2 ^ 255)
      ((i + 1) * 2 ^ 255)) (expNumCoef.headD 0, expNumCoef.headD 0)).1 := by decide +kernel
  have hlo : (0 : ℤ) ≤ i * 2 ^ 255 := mul_nonneg (Int.natCast_nonneg i) (by norm_num)
  exact (hbound i hi).trans
    (Horner.foldl_mem_enclose _ hlo hpiece (Set.left_mem_Icc.mpr le_rfl)).1

lemma polyval_num_le (hx : 0 ≤ x) (hle : x ≤ 5 * 2 ^ precision) :
    polyval expNumCoef x ≤ 2 ^ precision := by
  have hbound : (expNumCoef.tail.foldl (Horner.enclose precision 0 (5 * 2 ^ precision))
      (expNumCoef.headD 0, expNumCoef.headD 0)).2 ≤ 2 ^ precision := by decide +kernel
  exact (Horner.foldl_mem_enclose _ le_rfl ⟨hx, hle⟩ (Set.left_mem_Icc.mpr le_rfl)).2.trans hbound

lemma le_polyval_deno (hx : 0 ≤ x) (hle : x ≤ 5 * 2 ^ precision) :
    2 ^ precision ≤ polyval expDenoCoef x := by
  have hbound : 2 ^ precision ≤ (expDenoCoef.tail.foldl (Horner.enclose precision 0
      (5 * 2 ^ precision)) (expDenoCoef.headD 0, expDenoCoef.headD 0)).1 := by decide +kernel
  exact hbound.trans (Horner.foldl_mem_enclose _ le_rfl ⟨hx, hle⟩ (Set.left_mem_Icc.mpr le_rfl)).1

lemma expneg_mem (hx : 0 ≤ x) (hle : x ≤ 5 * 2 ^ precision) :
    expneg x ∈ Set.Icc 0 (2 ^ precision) := by
  have hpos : (0 : ℤ) < 2 ^ precision := by positivity
  have hdeno := le_polyval_deno hx hle
  refine ⟨Int.ediv_nonneg (mul_nonneg (polyval_num_nonneg hx hle) hpos.le) (by omega), ?_⟩
  refine Int.ediv_le_of_le_mul (by omega) ?_
  rw [mul_comm]
  exact mul_le_mul_of_nonneg_left ((polyval_num_le hx hle).trans hdeno) hpos.le

lemma expneg_zero : expneg 0 = 2 ^ precision := by decide +kernel

/-! ## The thresholds -/

/-- The bound that a digest has to be under for more than `k` wins. -/
def threshold (lam : ℤ) (k : ℕ) : ℤ := (Poiss.next^[k] (newPoiss lam)).icdf

/-- A probability, at a rate that is not negative. -/
structure Poiss.Sound (lam : ℤ) (p : Poiss) : Prop where
  lam_eq : p.lam = lam
  nonneg : 0 ≤ p.lam
  pmf : 0 ≤ p.pmf

lemma Poiss.Sound.next {lam : ℤ} {p : Poiss} (h : p.Sound lam) : p.next.Sound lam :=
  ⟨h.lam_eq, h.nonneg, Int.ediv_nonneg (mul_nonneg (Int.ediv_nonneg h.pmf (by positivity))
    h.nonneg) (by positivity)⟩

lemma Poiss.Sound.iterate {lam : ℤ} {p : Poiss} (h : p.Sound lam) (k : ℕ) :
    (Poiss.next^[k] p).Sound lam := by
  induction k generalizing p with
  | zero => exact h
  | succ k ih => exact ih h.next

lemma antitone_icdf {lam : ℤ} {p : Poiss} (h : p.Sound lam) :
    Antitone fun k => (Poiss.next^[k] p).icdf := by
  refine antitone_nat_of_succ_le fun k => ?_
  rw [Function.iterate_succ_apply']
  exact sub_le_self _ (h.iterate k).next.pmf

lemma winLoop_eq_count {lam lhs : ℤ} {p : Poiss} (h : p.Sound lam) (n : ℕ) :
    winLoop lhs n p = Nat.count (fun k => lhs < (Poiss.next^[k] p).icdf) n := by
  induction n generalizing p with
  | zero => rfl
  | succ n ih =>
    by_cases hwin : lhs < p.icdf
    · rw [winLoop, if_pos hwin, ih h.next, Nat.count_succ',
        Function.iterate_zero_apply, if_pos hwin]
      rfl
    · -- The later thresholds are lower, so the digest is under none of them.
      rw [winLoop, if_neg hwin]
      refine (Nat.count_of_forall_not fun k _ hk => hwin ?_).symm
      exact hk.trans_le (antitone_icdf h (Nat.zero_le k))

variable {blocksPerEpoch : ℕ} {power totalPower : ℤ}

lemma lambda_mem (hE : blocksPerEpoch ≤ 5) (hpower : 0 ≤ power) (hle : power ≤ totalPower)
    (htotal : 0 < totalPower) :
    lambda blocksPerEpoch power totalPower ∈ Set.Icc 0 (5 * 2 ^ precision) := by
  refine ⟨Int.ediv_nonneg (by positivity) htotal.le, Int.ediv_le_of_le_mul htotal ?_⟩
  have hrate : power * blocksPerEpoch ≤ totalPower * 5 := by
    gcongr
    exact_mod_cast hE
  linarith [mul_le_mul_of_nonneg_right hrate (by positivity : (0 : ℤ) ≤ 2 ^ precision)]

lemma newPoiss_sound (hE : blocksPerEpoch ≤ 5) (hpower : 0 ≤ power) (hle : power ≤ totalPower)
    (htotal : 0 < totalPower) :
    (newPoiss (lambda blocksPerEpoch power totalPower)).Sound
      (lambda blocksPerEpoch power totalPower) := by
  obtain ⟨hnonneg, hbound⟩ := lambda_mem hE hpower hle htotal
  exact ⟨rfl, hnonneg, (expneg_mem hnonneg hbound).1⟩

lemma computeWinCount_of_powerless (hE : blocksPerEpoch ≤ 5) (htotal : 0 < totalPower) {lhs : ℤ}
    (hlhs : 0 ≤ lhs) : computeWinCount blocksPerEpoch lhs 0 totalPower = 0 := by
  have hsound := newPoiss_sound hE le_rfl htotal.le htotal
  have hzero : (newPoiss (lambda blocksPerEpoch 0 totalPower)).icdf = 0 := by
    simp [newPoiss, lambda, expneg_zero]
  rw [computeWinCount, winLoop_eq_count hsound]
  refine Nat.count_of_forall_not fun k _ hk => ?_
  exact hlhs.not_gt (hk.trans_le ((antitone_icdf hsound (Nat.zero_le k)).trans hzero.le))

/-- For every power up to the total, the exponential is between zero and one and its denominator is
positive. The thresholds fall from at most one, and the wins are the number of those over the
digest. So a miner without power never wins, and a lower digest wins no less often. -/
theorem computeWinCount_sortition (hE : blocksPerEpoch ≤ 5) (hpower : 0 ≤ power)
    (hle : power ≤ totalPower) (htotal : 0 < totalPower) {digest : ℤ} (hdigest : 0 ≤ digest) :
    let bound := threshold (lambda blocksPerEpoch power totalPower)
    (0 < polyval expDenoCoef (lambda blocksPerEpoch power totalPower) ∧
      expneg (lambda blocksPerEpoch power totalPower) ∈ Set.Icc 0 (2 ^ precision)) ∧
    Antitone bound ∧ (∀ k, bound k ≤ 2 ^ precision) ∧
      computeWinCount blocksPerEpoch digest power totalPower =
        Nat.count (digest < bound ·) (3 * blocksPerEpoch) ∧
      (power = 0 → computeWinCount blocksPerEpoch digest power totalPower = 0) ∧
      ∀ higher ≥ digest, computeWinCount blocksPerEpoch higher power totalPower ≤
        computeWinCount blocksPerEpoch digest power totalPower := by
  intro bound
  have hsound := newPoiss_sound hE hpower hle htotal
  have hanti : Antitone bound := antitone_icdf hsound
  have hcount (d : ℤ) : computeWinCount blocksPerEpoch d power totalPower =
      Nat.count (d < bound ·) (3 * blocksPerEpoch) := winLoop_eq_count hsound _
  obtain ⟨hnonneg, hbound⟩ := lambda_mem hE hpower hle htotal
  have hdeno := lt_of_lt_of_le (by positivity) (le_polyval_deno hnonneg hbound)
  refine ⟨⟨hdeno, expneg_mem hnonneg hbound⟩, hanti, fun k => ?_, hcount digest, ?_,
    fun higher hhigher => ?_⟩
  · exact (hanti (Nat.zero_le k)).trans (sub_le_self _ hsound.pmf)
  · rintro rfl
    exact computeWinCount_of_powerless hE htotal hdigest
  · rw [hcount, hcount]
    exact Nat.count_mono_left fun k _ hk => hhigher.trans_lt hk

/-- Half of the power wins twice with a digest in the middle. -/
theorem sampleElection_sortition :
    computeWinCount 5 (2 ^ 255) 1 2 = 2 ∧ Antitone (threshold (lambda 5 1 2)) :=
  ⟨by decide +kernel, (computeWinCount_sortition (by decide : 5 ≤ 5) (by decide : (0 : ℤ) ≤ 1)
    (by decide) (by decide) le_rfl).2.1⟩

/-! ## Accepted blocks -/

/-- A block is accepted only if its miner has power in the lookback state, and it claims just the
wins that its VRF proof draws. -/
theorem acceptedOver_elected {syncer : Syncer} {cache : SkipCache} {tsk : List Cid} {ts : TipSet}
    {b : FullBlock} {digest : Bytes → ℕ} (hE : blocksPerEpoch ≤ 5)
    (hdraw : ∀ vrf mpow tpow, syncer.proofs.computeWinCount vrf mpow tpow =
      .ofNat (computeWinCount blocksPerEpoch (digest vrf) mpow tpow))
    (hload : loadTipSet syncer.sm.cs tsk = .ok ts) (h : AcceptedOver syncer cache tsk b) :
    ∃ lbts lbst lbrec mpow tpow,
      (getLookbackTipSetForRound syncer.sm.cs ts b.header.height cache).1 = .ok lbts ∧
      tipSetState syncer.sm lbts = .ok (lbst, lbrec) ∧
      getPowerRaw syncer lbst b.header.miner = .ok (mpow, tpow) ∧
      (0 ≤ mpow ∧ mpow ≤ tpow ∧ 0 < tpow → 0 < mpow ∧
        let proof := b.header.electionProof.getD ⟨0, []⟩
        let bound := threshold (lambda blocksPerEpoch mpow tpow)
        let wins := Nat.count (digest proof.vrfProof < bound ·) (3 * blocksPerEpoch)
        0 < wins ∧ proof.winCount = .ofNat wins) := by
  obtain ⟨rfl, validated, hnew, hvalid⟩ := h
  obtain ⟨-, baseTs, lbts, hbase, hlookback, hover⟩ := (validateBlock_ok_iff hnew).mp hvalid
  cases hload.symm.trans hbase
  obtain ⟨lbst, lbrec, prevBeacon, waddr, hlbst, -, -, -, -, hchecks⟩ :=
    validateOver_ok_iff.mp hover
  simp only [awaitedChecks, List.forall_mem_cons] at hchecks
  obtain ⟨-, -, -, -, -, hwinner, -⟩ := hchecks
  obtain ⟨hclaim, -, -, -, -, mpow, tpow, hpower, hwins⟩ := winnerCheck_ok_iff.mp hwinner
  refine ⟨lbts, lbst, lbrec, mpow, tpow, hlookback, hlbst, hpower, ?_⟩
  rintro ⟨hmpow, hle, htotal⟩
  rw [hdraw] at hwins
  have hcount := @winLoop_eq_count _ (digest (b.header.electionProof.getD ⟨0, []⟩).vrfProof) _
    (newPoiss_sound hE hmpow hle htotal) (3 * blocksPerEpoch)
  have hpos : 0 < computeWinCount blocksPerEpoch
      (digest (b.header.electionProof.getD ⟨0, []⟩).vrfProof) mpow tpow := by
    refine Nat.pos_of_ne_zero fun hzero => ?_
    rw [hwins, hzero] at hclaim
    exact absurd hclaim (by decide)
  refine ⟨lt_of_le_of_ne hmpow fun hzero => ?_, hcount ▸ hpos, hwins.trans (congrArg _ hcount)⟩
  subst hzero
  exact hpos.ne' (computeWinCount_of_powerless hE htotal (Int.natCast_nonneg _))

def sampleDrawing : Syncer :=
  { sampleSyncer [] with proofs :=
    { sampleProofs with
      computeWinCount := fun _ m t => .ofNat (computeWinCount 5 (2 ^ 255 : ℕ) m t) } }

theorem sampleDrawing_elected : ∃ b mpow tpow,
    AcceptedOver sampleDrawing (fun _ => none) sampleGenesisKey b ∧
      getPowerRaw sampleDrawing sampleState b.header.miner = .ok (mpow, tpow) ∧ 0 < mpow := by
  have hload : loadTipSet sampleDrawing.sm.cs sampleGenesisKey = .ok (.single sampleGenesis) := by
    decide +kernel
  have haccepted : AcceptedOver sampleDrawing (fun _ => none) sampleGenesisKey
      ⟨{ sampleHeader (.id 1000) [] with electionProof := some ⟨2, []⟩ }, [], [],
        FullBlock.no_messages_lt⟩ := ⟨rfl, [], by decide, by decide +kernel⟩
  obtain ⟨lbts, lbst, lbrec, mpow, tpow, hlookback, hstate, hpower, helected⟩ :=
    acceptedOver_elected le_rfl (fun _ _ _ => rfl) hload haccepted
  obtain rfl : lbts = .single sampleGenesis := Except.ok.inj (hlookback.symm.trans rfl)
  cases hstate
  have hvalue : getPowerRaw sampleDrawing sampleState (.id 1000) = .ok (1, 2) := by decide +kernel
  cases hvalue.symm.trans hpower
  exact ⟨_, 1, 2, haccepted, hvalue, (helected (by decide)).1⟩

end Lotus
