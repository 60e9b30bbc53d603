import Lotus.Lib.Runs
import Lotus.Vm.Runtime

/-!
# The gas meter and unbounded integers

`chargeGasInternal` compares the gas used with what is available without the charge, which is the
safe way round only as long as that difference is a word.
-/

namespace Lotus

def GasCharge.exact (gas : GasCharge) : ℤ := gas.computeGas.toInt + gas.storageGas.toInt * 1000

namespace Runtime

def charge (m : Machine) (gas : GasCharge) : Except Fault (Option ActorError) × Machine :=
  chargeGasInternal gas m

structure ChargedExactly (m : Machine) (gas : GasCharge) : Prop where
  paid_iff : (charge m gas).1 = .ok none ↔
    m.rt.gasUsed.toInt + gas.exact ≤ m.rt.gasAvailable.toInt
  paid : (charge m gas).1 = .ok none →
    (charge m gas).2.rt.gasUsed.toInt = m.rt.gasUsed.toInt + gas.exact
  refused : (charge m gas).1 ≠ .ok none → (charge m gas).2.rt.gasUsed = m.rt.gasAvailable

def ChargeFits (m : Machine) (gas : GasCharge) : Prop :=
  (m.rt.gasUsed.toInt + gas.exact ≤ m.rt.gasAvailable.toInt →
    -2 ^ 63 ≤ m.rt.gasUsed.toInt + gas.exact ∧ m.rt.gasAvailable.toInt - gas.exact < 2 ^ 63) ∧
  (m.rt.gasAvailable.toInt < m.rt.gasUsed.toInt + gas.exact → ∀ k : ℤ,
    m.rt.gasUsed.toInt ≤ m.rt.gasAvailable.toInt - gas.exact + k * 2 ^ 64 →
      2 ^ 63 ≤ m.rt.gasAvailable.toInt - gas.exact + k * 2 ^ 64)

def InBudget (m : Machine) : Prop := m.rt.gasUsed ≤ m.rt.gasAvailable
deriving Decidable

variable {m m' : Machine} {gas : GasCharge}

lemma toInt_total (gas : GasCharge) : gas.total.toInt = gas.exact.bmod (2 ^ 64) := by
  rw [GasCharge.total, gasComputeMulti, gasStorageMulti, Int64.toInt_add, Int64.toInt_mul,
    Int64.toInt_mul, Int.add_bmod_bmod, Int.bmod_add_bmod, GasCharge.exact]
  simp

lemma charge_of_outOfGas (h : OutOfGas m.rt.gasAvailable m.rt.gasUsed gas.total) :
    (charge m gas).1 ≠ .ok none ∧ (charge m gas).2.rt.gasUsed = m.rt.gasAvailable := by
  rw [charge, chargeGasInternal, if_pos h, meter, if_pos h]
  refine ⟨fun hok => ?_, rfl⟩
  cases hok

lemma charge_of_not_outOfGas (h : ¬OutOfGas m.rt.gasAvailable m.rt.gasUsed gas.total) :
    (charge m gas).1 = .ok none ∧
      (charge m gas).2.rt.gasUsed = m.rt.gasUsed + gas.total := by
  rw [charge, chargeGasInternal, if_neg h, meter, if_neg h]
  exact ⟨rfl, rfl⟩

lemma outOfGas_iff : OutOfGas m.rt.gasAvailable m.rt.gasUsed gas.total ↔
    (m.rt.gasAvailable.toInt - gas.exact).bmod (2 ^ 64) < m.rt.gasUsed.toInt := by
  rw [OutOfGas, gt_iff_lt, Int64.lt_iff_toInt_lt, Int64.toInt_sub, toInt_total, Int.sub_bmod_bmod]

lemma toInt_used (m : Machine) (gas : GasCharge) : (m.rt.gasUsed + gas.total).toInt =
    (m.rt.gasUsed.toInt + gas.exact).bmod (2 ^ 64) := by
  rw [Int64.toInt_add, toInt_total, Int.add_bmod_bmod]

lemma chargedExactly_iff (h : InBudget m) :
    ChargedExactly m gas ↔ ChargeFits m gas := by
  have hle := Int64.le_iff_toInt_le.mp h
  have hlo := m.rt.gasUsed.le_toInt
  have hhi := m.rt.gasAvailable.toInt_lt
  obtain ⟨k, hk, hklo, hkhi⟩ := Word.exists_bmod_eq (m.rt.gasAvailable.toInt - gas.exact)
  obtain ⟨j, hj, hjlo, hjhi⟩ := Word.exists_bmod_eq (m.rt.gasUsed.toInt + gas.exact)
  by_cases hout : OutOfGas m.rt.gasAvailable m.rt.gasUsed gas.total
  · obtain ⟨hrefused, hused⟩ := charge_of_outOfGas hout
    rw [outOfGas_iff] at hout
    constructor
    · rintro ⟨hiff, -, -⟩
      have hcannot := mt hiff.mpr hrefused
      exact ⟨fun hcan => absurd hcan hcannot, fun _ k' hk' => by omega⟩
    · rintro ⟨hcan, -⟩
      refine ⟨iff_of_false hrefused fun hle => ?_, fun hpaid => absurd hpaid hrefused,
        fun _ => hused⟩
      have := hcan hle
      omega
  · obtain ⟨hpaid, hused⟩ := charge_of_not_outOfGas hout
    rw [outOfGas_iff] at hout
    have hused' := (congrArg Int64.toInt hused).trans (toInt_used m gas)
    constructor
    · rintro ⟨hiff, hsum, -⟩
      have hcan := hiff.mp hpaid
      have hsum := hsum hpaid
      exact ⟨fun _ => ⟨by omega, by omega⟩, fun hcannot => absurd hcan hcannot.not_ge⟩
    · rintro ⟨hcan, hcannot⟩
      have hle : m.rt.gasUsed.toInt + gas.exact ≤ m.rt.gasAvailable.toInt := by
        by_contra hnot
        have := hcannot (lt_of_not_ge hnot) k (by omega)
        omega
      have := hcan hle
      exact ⟨iff_of_true hpaid hle, fun _ => by omega, fun hnot => absurd hpaid hnot⟩

def chargeStep (m : Machine) (gas : GasCharge) : Option Machine := some (charge m gas).2

lemma inBudget_of_chargeFits (h : InBudget m) (hfits : ChargeFits m gas)
    (hstep : chargeStep m gas = some m') : InBudget m' := by
  cases hstep
  obtain ⟨hiff, hpaid, hrefused⟩ := (chargedExactly_iff h).mpr hfits
  have havail : (charge m gas).2.rt.gasAvailable = m.rt.gasAvailable := by
    rw [charge, chargeGasInternal]
    split_ifs <;> rfl
  rw [InBudget, havail, Int64.le_iff_toInt_le]
  by_cases hok : (charge m gas).1 = .ok none
  · rw [hpaid hok]
    exact hiff.mp hok
  · rw [hrefused hok]

/-- A charge does what it does in unbounded integers if and only if it fits, and over charges that
all fit the gas used never exceeds the gas available. -/
theorem chargeGasInternal_exact_iff (h : InBudget m) (gas : GasCharge) :
    (ChargedExactly m gas ↔ ChargeFits m gas) ∧
      ∀ charges m', Runs.Along chargeStep ChargeFits m charges →
        Runs.run chargeStep m charges = some m' → InBudget m' :=
  ⟨chargedExactly_iff h, fun _ _ halong hrun =>
    Runs.invariant inBudget_of_chargeFits h halong hrun⟩

def sampleMetered : Machine :=
  ⟨⟨StateTree.newStateTree, 0, []⟩,
    ⟨⟨0, .id 101, .id 100, 0, some 0, some 0, 10, 0, []⟩, 0, 10, 5, .id 100, 0, 0, true, true, 0⟩⟩

lemma chargeFits_sampleMetered : ChargeFits sampleMetered ⟨"OnChainMessage", 3, 0⟩ := by
  have hused : sampleMetered.rt.gasUsed.toInt = 5 := rfl
  have havailable : sampleMetered.rt.gasAvailable.toInt = 10 := rfl
  have hexact : GasCharge.exact ⟨"OnChainMessage", 3, 0⟩ = 3 := rfl
  rw [ChargeFits, hused, havailable, hexact]
  exact ⟨fun _ => by decide, fun h => absurd h (by decide)⟩

theorem sampleMetered_charged : ChargedExactly sampleMetered ⟨"OnChainMessage", 3, 0⟩ :=
  (chargeGasInternal_exact_iff (by decide) _).1.mpr chargeFits_sampleMetered

/-- A storage charge that wraps around to nothing is paid, one that gives gas back is refused. -/
theorem sampleMetered_wraps :
    (charge sampleMetered ⟨"OnIpldPut", 0, 2305843009213693952⟩).1 = .ok none ∧
      10 < 5 + GasCharge.exact ⟨"OnIpldPut", 0, 2305843009213693952⟩ ∧
    (charge sampleMetered ⟨"OnDeleteActor", -9223372036854775808, 0⟩).1 ≠ .ok none ∧
      5 + GasCharge.exact ⟨"OnDeleteActor", -9223372036854775808, 0⟩ ≤ 10 :=
  ⟨(charge_of_not_outOfGas (by decide)).1, by decide, (charge_of_outOfGas (by decide)).1, by decide⟩

end Runtime

end Lotus
