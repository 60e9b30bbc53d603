import Mathlib

/-!
# Ring buffers

A list of slots that is written round and round. A position is an integer, and stands for the slot
at its remainder.
-/

namespace Ring

variable {α : Type*}

def cell (slots : List α) (i : ℤ) : Option α := slots[(i % slots.length).toNat]?

def write (slots : List α) (i : ℤ) (a : α) : List α := slots.set (i % slots.length).toNat a

variable {slots : List α} {i j start h : ℤ} {a : α} {len : ℕ} {f g : ℤ → α}

@[simp] lemma length_write : (write slots i a).length = slots.length := List.length_set

lemma cell_congr (hij : i ≡ j [ZMOD slots.length]) : cell slots i = cell slots j := by
  rw [cell, cell, hij]

lemma cell_write_self (hpos : 0 < slots.length) : cell (write slots i a) i = some a := by
  have hlt : (i % slots.length).toNat < slots.length := by
    have hcast : (0 : ℤ) < slots.length := by exact_mod_cast hpos
    simp_all [Int.emod_lt_of_pos]
  rw [cell, length_write, write, List.getElem?_set_self hlt]

lemma cell_write_of_ne (hpos : 0 < slots.length) (hij : ¬i ≡ j [ZMOD slots.length]) :
    cell (write slots i a) j = cell slots j := by
  rw [cell, length_write, write, List.getElem?_set_ne, cell]
  intro heq
  have hcast : (0 : ℤ) < slots.length := by exact_mod_cast hpos
  have hi := Int.emod_nonneg i hcast.ne'
  have hj := Int.emod_nonneg j hcast.ne'
  exact hij (show i % slots.length = j % slots.length by omega)

def Shows (slots : List α) (start : ℤ) (len : ℕ) (f : ℤ → α) (h : ℤ) : Prop :=
  ∀ k : ℕ, k < len → cell slots (start - k) = some (f (h - k))

lemma Shows.of_modEq (hs : Shows slots start len f h) {start' : ℤ}
    (heq : start' ≡ start [ZMOD slots.length]) : Shows slots start' len f h := by
  intro k hk
  rw [cell_congr (heq.sub_right _)]
  exact hs k hk

lemma Shows.congr (hs : Shows slots start len f h)
    (hfg : ∀ k : ℕ, k < len → f (h - k) = g (h - k)) : Shows slots start len g h := by
  intro k hk
  rw [hs k hk, hfg k hk]

lemma not_modEq_sub {k m : ℕ} (hk : 0 < k) (hlt : k < m) : ¬start ≡ start - k [ZMOD m] := by
  intro heq
  have hdvd : (m : ℤ) ∣ start - k - start := heq.dvd
  have hdvd' : (m : ℤ) ∣ k := by
    rw [sub_sub_cancel_left] at hdvd
    exact Int.dvd_neg.mp hdvd
  exact absurd (Nat.le_of_dvd hk (Int.natCast_dvd_natCast.mp hdvd')) (by omega)

lemma Shows.push (hs : Shows slots start len f h) (hpos : 0 < slots.length) {len' : ℕ}
    (hlen : len' ≤ len + 1) (hlen' : len' ≤ slots.length) :
    Shows (write slots (start + 1) (f (h + 1))) (start + 1) len' f (h + 1) := by
  intro k hk
  rcases Nat.eq_zero_or_pos k with rfl | hkpos
  · simpa using cell_write_self hpos
  · rw [cell_write_of_ne hpos (not_modEq_sub hkpos (by omega))]
    have hrest := hs (k - 1) (by omega)
    grind

lemma Shows.pop (hs : Shows slots start (len + 1) f h) (hlen : len + 1 ≤ slots.length) (a : α) :
    Shows (write slots start a) (start - 1) len f (h - 1) := by
  intro k hk
  have hpos : start - 1 - (k : ℤ) = start - (k + 1 : ℕ) := by omega
  rw [hpos, cell_write_of_ne (by omega) (not_modEq_sub (Nat.succ_pos k) (by omega)),
    hs (k + 1) (by omega)]
  congr 2
  omega

end Ring
