import Lotus.Lib.Runs
import Lotus.Chain.Block

/-!
# The incremental read timeout

`lib/increadtimeout/incrt.go`. A reader may wait for some time.
-/

namespace Lotus

structure Incrt where
  waitPerByte : Int64
  wait : Int64
  maxWait : Int64
deriving DecidableEq

namespace Incrt

def new (minSpeed maxWait : Int64) : Except NodeErr Incrt :=
  if minSpeed = 0 then .error (.new "panic") else .ok ⟨1000000000 / minSpeed, maxWait, maxWait⟩

/-- What the reader below returns, and the time it takes. -/
structure RawRead where
  n : Int64
  err : Option NodeErr
  dur : Int64

def read (crt : Incrt) (r : RawRead) : (Int64 × Option NodeErr) × Incrt :=
  if crt.wait = 0 then ((0, some (.new "wait time exceeded")), crt)
  else if r.err = none then
    let wait := crt.wait - r.dur + r.n * crt.waitPerByte
    let wait := if wait < 0 then 0 else wait
    ((r.n, none), { crt with wait := if wait > crt.maxWait then crt.maxWait else wait })
  else ((r.n, r.err), crt)

structure Reading where
  crt : Incrt
  elapsed : ℤ
  bytes : ℤ
deriving DecidableEq

def step (s : Reading) (r : RawRead) : Option Reading :=
  if (s.crt.read r).1.2 = none then
    some ⟨(s.crt.read r).2, s.elapsed + r.dur.toInt, s.bytes + (s.crt.read r).1.1.toInt⟩
  else none

def Timely (s : Reading) (r : RawRead) : Prop := 0 ≤ r.n ∧ 0 ≤ r.dur ∧ r.dur ≤ s.crt.wait
deriving Decidable

structure Paid (w m : Int64) (s : Reading) : Prop where
  perByte : s.crt.waitPerByte = w
  max : s.crt.maxWait = m
  nonneg : 0 ≤ s.crt.wait.toInt
  le : s.crt.wait.toInt ≤ m.toInt
  paid : s.elapsed + s.crt.wait.toInt ≤ m.toInt + s.bytes * w.toInt

lemma new_eq_ok {minSpeed maxWait : Int64} {crt : Incrt} (hspeed : 0 < minSpeed)
    (h : new minSpeed maxWait = .ok crt) :
    0 ≤ crt.waitPerByte.toInt ∧ crt.wait = maxWait ∧ crt.maxWait = maxWait := by
  have hpos : 0 < minSpeed.toInt := Int64.lt_iff_toInt_lt.mp hspeed
  rw [new, if_neg (by rintro rfl; exact absurd hpos (by decide))] at h
  cases h
  refine ⟨?_, rfl, rfl⟩
  have hle := Int.tdiv_le_self (a := 1000000000) minSpeed.toInt (by decide)
  have hnonneg := Int.tdiv_nonneg (a := 1000000000) (by decide) hpos.le
  rw [Int64.toInt_div, show (1000000000 : Int64).toInt = 1000000000 from rfl,
    Int.bmod_eq_of_le (by omega) (by omega)]
  exact hnonneg

lemma toInt_wait_le {wait dur n w : Int64} (hw : 0 ≤ w.toInt) (hn : 0 ≤ n.toInt)
    (hdur : 0 ≤ dur.toInt) (hle : dur.toInt ≤ wait.toInt) :
    (wait - dur + n * w).toInt ≤ wait.toInt - dur.toInt + n.toInt * w.toInt := by
  have hprod : 0 ≤ n.toInt * w.toInt := mul_nonneg hn hw
  rw [Int64.toInt_add, Int64.toInt_mul, Int.add_bmod_bmod,
    Word.toInt_sub_of_mem (by have := wait.toInt_lt; omega) (by have := wait.toInt_lt; omega)]
  exact Word.bmod_le_self (by omega)

lemma Paid.step {w m : Int64} (hw : 0 ≤ w.toInt) {s s' : Reading} {r : RawRead} (h : Paid w m s)
    (htimely : Timely s r) (hstep : step s r = some s') : Paid w m s' := by
  obtain ⟨⟨wpb, wait, maxWait⟩, elapsed, bytes⟩ := s
  obtain ⟨rfl, rfl, hnonneg, hle, hpaid⟩ := h
  obtain ⟨hn, hdur, hwait⟩ := htimely
  rw [Int64.le_iff_toInt_le] at hn hdur hwait
  unfold Incrt.step read at hstep
  dsimp only at hnonneg hle hpaid hwait hw hstep
  have hsum := toInt_wait_le hw hn hdur hwait
  have hmul : (bytes + r.n.toInt) * wpb.toInt = bytes * wpb.toInt + r.n.toInt * wpb.toInt :=
    add_mul ..
  have hprod : 0 ≤ r.n.toInt * wpb.toInt := mul_nonneg hn hw
  have hzero64 : (0 : Int64).toInt = 0 := rfl
  split_ifs at hstep with hzero herr
  · exact herr.elim
  all_goals
    cases hstep
    simp only [gt_iff_lt, Int64.lt_iff_toInt_lt] at *
    refine ⟨rfl, rfl, ?_, ?_, ?_⟩ <;> dsimp only <;> omega

/-- A reader over any sequence of reads without an error, each of which ends by its deadline: the
wait is between zero and the maximum, and the reads take no longer than the maximum and what the
bytes allow for. -/
theorem reads_bounded {minSpeed maxWait : Int64} {crt : Incrt} {rs : List RawRead} {s : Reading}
    (hspeed : 0 < minSpeed) (hmax : 0 ≤ maxWait) (hnew : new minSpeed maxWait = .ok crt)
    (htimely : Runs.Along step Timely ⟨crt, 0, 0⟩ rs)
    (hrun : Runs.run step ⟨crt, 0, 0⟩ rs = some s) :
    0 ≤ s.crt.wait ∧ s.crt.wait ≤ maxWait ∧
      s.elapsed ≤ maxWait.toInt + s.bytes * crt.waitPerByte.toInt := by
  obtain ⟨hw, hwait, rfl⟩ := new_eq_ok hspeed hnew
  have hmax' : 0 ≤ crt.maxWait.toInt := Int64.le_iff_toInt_le.mp hmax
  have hstart : Paid crt.waitPerByte crt.maxWait ⟨crt, 0, 0⟩ :=
    ⟨rfl, rfl, hwait ▸ hmax', (congrArg Int64.toInt hwait).le, by simp [hwait]⟩
  have hpaid := Runs.invariant (fun hs hC ht => Paid.step hw hs hC ht) hstart htimely hrun
  have := hpaid.paid
  have := hpaid.nonneg
  exact ⟨Int64.le_iff_toInt_le.mpr hpaid.nonneg, Int64.le_iff_toInt_le.mpr hpaid.le, by omega⟩

def sampleReader : Incrt := ⟨19531, 5000000000, 5000000000⟩

def sampleReads : List RawRead := [⟨1000, none, 3000000000⟩, ⟨10, none, 2019531000⟩]

theorem sampleReads_bounded :
    Runs.run step ⟨sampleReader, 0, 0⟩ sampleReads =
        some ⟨{ sampleReader with wait := 195310 }, 5019531000, 1010⟩ ∧
      (5019531000 : ℤ) ≤ 5000000000 + 1010 * 19531 := by
  have hrun : Runs.run step ⟨sampleReader, 0, 0⟩ sampleReads =
      some ⟨{ sampleReader with wait := 195310 }, 5019531000, 1010⟩ := by decide
  exact ⟨hrun, (@reads_bounded 51200 5000000000 _ _ _ (by decide) (by decide) (by decide)
    (by decide) hrun).2.2⟩

end Incrt

end Lotus
