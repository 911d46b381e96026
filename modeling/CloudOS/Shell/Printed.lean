import CloudOS.Klog.Message
import CloudOS.Shell.Number

/-!
The shell reads the numbers that the kernel log prints.
-/

namespace CloudOS.Shell

open Klog (MessageBuilder messageCapacity)
open Klog.MessageBuilder
open Lib.Numeral (numeral numeral_ne_nil value_numeral lt_of_mem_numeral)

/-- The log prints digits in lower case. -/
theorem isDigit_digitByte : ∀ digit < 16, IsDigit (digitByte digit) digit := by
  decide

theorem spells_map_digitByte {base : Nat} (bound : base ≤ 16) {digits : List Nat}
    (below : ∀ digit ∈ digits, digit < base) : Spells base (digits.map digitByte) digits := by
  induction digits with
  | nil => exact .nil
  | cons digit digits ih =>
      obtain ⟨first, rest⟩ := List.forall_mem_cons.mp below
      exact .digit (isDigit_digitByte digit (first.trans_le bound)) first (ih rest)

theorem spells_numeral {base : Nat} (proper : 1 < base) (bound : base ≤ 16) (n : Nat) :
    Spells base ((numeral base n).map digitByte) (numeral base n) :=
  spells_map_digitByte bound fun _ mem => lt_of_mem_numeral proper mem

/-- What `push_u64` prints is a numeral of its value. -/
theorem isNumeral_decimalText (n : Nat) : IsNumeral (decimalText n) n := by
  have numeral := IsNumeral.decimal (spells_numeral (by decide) (by decide) n)
    (numeral_ne_nil 10 n)
  rwa [value_numeral (by decide)] at numeral

theorem isNumeral_hexText (n : Nat) : IsNumeral (hexText n) n := by
  have numeral := IsNumeral.hexadecimal (.inl rfl) (spells_numeral (by decide) le_rfl n)
    (numeral_ne_nil 16 n)
  rwa [value_numeral (by decide)] at numeral

/-- A numeral of a word is read back. -/
theorem IsNumeral.parseU64 {text : List UInt8} {n : Nat} (numeral : IsNumeral text n)
    (word : n < 2 ^ 64) : parseU64 text = some n := by
  refine parseU64_eq_some.mpr ⟨word, [], text, [], ?_, ?_, by simp, numeral⟩
  · simp [Blank]
  · simp [Blank]

/-- What `push_u64` and `push_hex_u64` print, `parse_u64` reads; and what it reads are
exactly the numerals below 2^64, with blanks around them. -/
theorem numbers_round_trip :
    (∀ v < 2 ^ 64,
      (∃ text : List UInt8, text.length ≤ 20 ∧ parseU64 text = some v ∧
        ∀ builder : MessageBuilder, builder.len + text.length ≤ messageCapacity →
          ∃ builder', builder.pushU64 v = some builder' ∧
            builder'.asBytes = builder.asBytes ++ text) ∧
      ∃ text : List UInt8, text.length ≤ 18 ∧ parseU64 text = some v ∧
        ∀ builder : MessageBuilder, builder.len + text.length ≤ messageCapacity →
          (builder.pushHexU64 v).asBytes = builder.asBytes ++ text) ∧
    ∀ input n, parseU64 input = some n ↔
      n < 2 ^ 64 ∧ ∃ left text right, Blank left ∧ Blank right ∧
        input = left ++ text ++ right ∧ IsNumeral text n := by
  constructor
  · intro v word
    constructor
    · refine ⟨decimalText v, length_decimalText word, (isNumeral_decimalText v).parseU64 word, ?_⟩
      intro builder room
      exact ⟨_, builder.pushU64_eq word,
        builder.asBytes_pushBytes_of_room (decimalText_printable v) room⟩
    · refine ⟨hexText v, length_hexText word, (isNumeral_hexText v).parseU64 word, ?_⟩
      intro builder room
      rw [builder.pushHexU64_eq word]
      exact builder.asBytes_pushBytes_of_room (hexText_printable v) room
  · intro input n
    exact parseU64_eq_some

end CloudOS.Shell
