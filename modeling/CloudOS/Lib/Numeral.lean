import CloudOS.Lib.Word

/-!
Positional numerals, the most significant digit first.

A number has one numeral without leading zeros. It is found from the last digit on by
dividing, or from the first digit on by looking at one place after the other; and
reading it back, with a check against a largest value at every step, yields the number.
-/

namespace Lib.Numeral

open Lib.Word (checkedMul checkedAdd checkedMul_eq_some checkedAdd_eq_some)

variable {base n k largest start : Nat} {digits : List Nat}

/-! ### Values -/

/-- The value of digits that follow digits of a known value. -/
def extend (base start : Nat) (digits : List Nat) : Nat :=
  digits.foldl (fun value digit => value * base + digit) start

def value (base : Nat) (digits : List Nat) : Nat := extend base 0 digits

theorem value_concat (digit : Nat) :
    value base (digits ++ [digit]) = value base digits * base + digit := by
  simp [value, extend]

/-- More digits make no number smaller. -/
theorem le_extend (positive : 0 < base) : ∀ {start : Nat}, start ≤ extend base start digits := by
  induction digits with
  | nil => exact le_rfl
  | cons digit digits ih =>
      intro start
      calc start ≤ start * base := Nat.le_mul_of_pos_right start positive
        _ ≤ start * base + digit := Nat.le_add_right _ _
        _ ≤ extend base start (digit :: digits) := ih

/-! ### Numerals -/

/-- The digits of a number; there is always one. -/
def numeral (base n : Nat) : List Nat := if n = 0 then [0] else (Nat.digits base n).reverse

theorem numeral_of_lt (small : n < base) : numeral base n = [n] := by
  unfold numeral
  split
  · simp [*]
  · rename_i nonzero
    rw [Nat.digits_of_lt base n nonzero small, List.reverse_singleton]

theorem numeral_of_le (proper : 1 < base) (large : base ≤ n) :
    numeral base n = numeral base (n / base) ++ [n % base] := by
  have more : n / base ≠ 0 := (Nat.div_pos large (by omega)).ne'
  rw [numeral, numeral, if_neg (by omega), if_neg more, Nat.digits_def' proper (by omega),
    List.reverse_cons]

theorem numeral_ne_nil (base n : Nat) : numeral base n ≠ [] := by
  unfold numeral
  split
  · simp
  · rename_i nonzero
    simpa using Nat.digits_ne_nil_iff_ne_zero.mpr nonzero

/-- Every digit is smaller than the base. -/
theorem lt_of_mem_numeral (proper : 1 < base) {digit : Nat} (mem : digit ∈ numeral base n) :
    digit < base := by
  unfold numeral at mem
  split at mem
  · simp only [List.mem_singleton] at mem
    omega
  · exact Nat.digits_lt_base proper (List.mem_reverse.mp mem)

/-- A numeral is read back as its number. -/
theorem value_numeral (proper : 1 < base) (n : Nat) : value base (numeral base n) = n := by
  induction n using Nat.strong_induction_on with
  | _ n ih =>
      by_cases small : n < base
      · simp [numeral_of_lt small, value, extend]
      · have large := Nat.not_lt.mp small
        rw [numeral_of_le proper large, value_concat,
          ih (n / base) (Nat.div_lt_self (by omega) proper), Nat.div_add_mod']

/-- A number below `base ^ k` has at most `k` digits. -/
theorem length_numeral_le (proper : 1 < base) (positive : 0 < k) (fits : n < base ^ k) :
    (numeral base n).length ≤ k := by
  unfold numeral
  split
  · exact positive
  · rw [List.length_reverse]
    exact (Nat.digits_length_le_iff proper n).mpr fits

/-! ### Places -/

/-- The last `k` digits of a number, with the zeros in front. -/
def places (base k n : Nat) : List Nat := (List.range k).reverse.map fun i => n / base ^ i % base

theorem places_succ (base k n : Nat) :
    places base (k + 1) n = n / base ^ k % base :: places base k n := by
  simp [places, List.range_succ]

/-- The last place is the remainder. -/
theorem places_succ_concat (base k n : Nat) :
    places base (k + 1) n = places base k (n / base) ++ [n % base] := by
  simp only [places, List.range_succ_eq_map, List.reverse_cons, List.map_append, List.map_cons,
    List.map_nil, pow_zero, Nat.div_one, ← List.map_reverse, List.map_map]
  congr 1
  apply List.map_congr_left
  intro i _
  rw [Function.comp_apply, Nat.pow_succ', Nat.div_div_eq_div_mul]

/-- From its first digit on, the numeral is what stands at the places. -/
theorem numeral_eq_places (proper : 1 < base) :
    ∀ {k n : Nat}, base ^ k ≤ n → n < base ^ (k + 1) → numeral base n = places base (k + 1) n := by
  intro k
  induction k with
  | zero =>
      intro n from_ below
      rw [pow_one] at below
      simp [numeral_of_lt below, places, Nat.mod_eq_of_lt below]
  | succ k ih =>
      intro n from_ below
      have large : base ≤ n := by
        calc base = base ^ 1 := (pow_one base).symm
          _ ≤ base ^ (k + 1) := Nat.pow_le_pow_right (by omega) (by omega)
          _ ≤ n := from_
      have from' : base ^ k ≤ n / base := by
        rwa [Nat.le_div_iff_mul_le (by omega), ← Nat.pow_succ]
      have below' : n / base < base ^ (k + 1) := by
        rwa [Nat.div_lt_iff_lt_mul (by omega), ← Nat.pow_succ]
      rw [numeral_of_le proper large, ih from' below', places_succ_concat base (k + 1)]

/-! ### Reading -/

/-- One more digit, unless the value becomes too large. -/
def accumulate (largest base value digit : Nat) : Option Nat :=
  (checkedMul largest value base).bind fun product => checkedAdd largest product digit

/-- A digit is accepted as long as the value stays within the bound. -/
theorem accumulate_eq_some {digit : Nat} :
    accumulate largest base start digit = some n ↔ start * base + digit = n ∧ n ≤ largest := by
  unfold accumulate
  simp only [Option.bind_eq_some_iff, checkedMul_eq_some, checkedAdd_eq_some]
  constructor
  · rintro ⟨_, ⟨rfl, -⟩, sum, fits⟩
    exact ⟨sum, fits⟩
  · rintro ⟨sum, fits⟩
    exact ⟨_, ⟨rfl, by omega⟩, sum, fits⟩

/-- Reading fails exactly when the value is too large in the end. -/
theorem foldlM_accumulate (positive : 0 < base) : ∀ {start : Nat}, start ≤ largest →
    (digits.foldlM (accumulate largest base) start = some n ↔
      extend base start digits = n ∧ n ≤ largest) := by
  induction digits with
  | nil =>
      intro start fits
      constructor
      · rintro ⟨⟩
        exact ⟨rfl, fits⟩
      · rintro ⟨rfl, -⟩
        rfl
  | cons digit digits ih =>
      intro start _
      rw [List.foldlM_cons, Option.bind_eq_bind, Option.bind_eq_some_iff]
      constructor
      · rintro ⟨next, read, rest⟩
        obtain ⟨rfl, fits⟩ := accumulate_eq_some.mp read
        exact (ih fits).mp rest
      · rintro ⟨total, fits⟩
        have next : start * base + digit ≤ largest := by
          calc start * base + digit ≤ extend base (start * base + digit) digits :=
                le_extend positive
            _ = n := total
            _ ≤ largest := fits
        exact ⟨_, accumulate_eq_some.mpr ⟨rfl, next⟩, (ih next).mpr ⟨total, fits⟩⟩

end Lib.Numeral
