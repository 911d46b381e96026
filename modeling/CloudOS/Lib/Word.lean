import Mathlib

/-!
Unsigned words as natural numbers, and the bytes of a text.

A 64-bit word is a `Nat` below `2 ^ 64`; the operations here are the saturating and
checked ones, which are the only places where the width of a word shows.
Saturating subtraction is the truncated subtraction of `Nat`.
-/

namespace Lib.Word

/-- The largest 64-bit word. -/
abbrev maxWord : Nat := 2 ^ 64 - 1

/-- The largest 32-bit word. -/
abbrev maxU32 : Nat := 2 ^ 32 - 1

/-- The bytes of a text in UTF-8. -/
def asBytes (text : String) : List UInt8 := text.toByteArray.data.toList

/-- Whether exactly one bit of the word is set. -/
def isPowerOfTwo (n : Nat) : Bool := n != 0 && n &&& (n - 1) == 0

theorem isPowerOfTwo_iff {n : Nat} : isPowerOfTwo n = true ↔ n.isPowerOfTwo := by
  rw [← Nat.ne_zero_and_sub_one_eq_zero_iff_isPowerOfTwo, isPowerOfTwo, Bool.and_eq_true,
    bne_iff_ne, beq_iff_eq]

/-- Saturating addition of 64-bit words. -/
def satAdd (a b : Nat) : Nat := min (a + b) maxWord

/-- Checked addition against a largest value. -/
def checkedAdd (largest a b : Nat) : Option Nat := if a + b ≤ largest then some (a + b) else none

/-- Checked multiplication against a largest value. -/
def checkedMul (largest a b : Nat) : Option Nat := if a * b ≤ largest then some (a * b) else none

theorem satAdd_of_le {a b : Nat} (fits : a + b ≤ maxWord) : satAdd a b = a + b :=
  Nat.min_eq_left fits

theorem satAdd_le (a b : Nat) : satAdd a b ≤ maxWord := Nat.min_le_right _ _

/-- Saturating once at the end is the same as saturating at every addition. -/
theorem satAdd_satAdd (a b c : Nat) : satAdd (satAdd a b) c = satAdd a (b + c) := by
  simp only [satAdd, maxWord]
  omega

theorem satAdd_satAdd_right (a b c : Nat) : satAdd a (satAdd b c) = satAdd a (b + c) := by
  simp only [satAdd, maxWord]
  omega

theorem satAdd_zero {a : Nat} (fits : a ≤ maxWord) : satAdd a 0 = a := satAdd_of_le fits

/-- A sum is answered exactly when it is within the bound. -/
theorem checkedAdd_eq_some {largest a b c : Nat} :
    checkedAdd largest a b = some c ↔ a + b = c ∧ c ≤ largest := by
  unfold checkedAdd
  split
  · rename_i fits
    simp only [Option.some.injEq]
    exact ⟨fun eq => ⟨eq, eq ▸ fits⟩, fun h => h.1⟩
  · rename_i overflow
    simp only [reduceCtorEq, false_iff]
    rintro ⟨rfl, fits⟩
    exact overflow fits

/-- A product is answered exactly when it is within the bound. -/
theorem checkedMul_eq_some {largest a b c : Nat} :
    checkedMul largest a b = some c ↔ a * b = c ∧ c ≤ largest := by
  unfold checkedMul
  split
  · rename_i fits
    simp only [Option.some.injEq]
    exact ⟨fun eq => ⟨eq, eq ▸ fits⟩, fun h => h.1⟩
  · rename_i overflow
    simp only [reduceCtorEq, false_iff]
    rintro ⟨rfl, fits⟩
    exact overflow fits

/-- Clearing the low `k` bits of a word rounds it down to a multiple of `2 ^ k`. -/
theorem and_not_low_mask {v k : Nat} (word : v ≤ maxWord) :
    v &&& (maxWord ^^^ (2 ^ k - 1)) = v / 2 ^ k * 2 ^ k := by
  have small : v < 2 ^ 64 := by
    rw [maxWord] at word
    omega
  apply Nat.eq_of_testBit_eq
  intro i
  rw [Nat.testBit_and, Nat.testBit_xor, maxWord, Nat.testBit_two_pow_sub_one,
    Nat.testBit_two_pow_sub_one, Nat.testBit_mul_two_pow, Nat.testBit_div_two_pow]
  by_cases low : i < k
  · by_cases high : i < 64
    · simp [low, high]
    · have zero : v.testBit i = false :=
        Nat.testBit_lt_two_pow (small.trans_le (Nat.pow_le_pow_right (by decide) (by omega)))
      simp [low, zero]
  · have back : i - k + k = i := Nat.sub_add_cancel (by omega)
    by_cases high : i < 64
    · simp [low, high, back, Nat.not_lt.mp low]
    · have zero : v.testBit i = false :=
        Nat.testBit_lt_two_pow (small.trans_le (Nat.pow_le_pow_right (by decide) (by omega)))
      simp [low, back, zero]

end Lib.Word
