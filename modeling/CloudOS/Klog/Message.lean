import CloudOS.Klog.State
import CloudOS.Lib.Numeral

/-!
Messages of the kernel log: `MessageBuilder`, and the numbers it prints.

What does not fit into the builder is dropped. An index that is out of range stops the
kernel: then the computation is `none`. A number is printed as its numeral.
-/

namespace CloudOS.Klog

open Lib.Numeral (numeral numeral_of_lt numeral_of_le places places_succ numeral_eq_places
  lt_of_mem_numeral length_numeral_le)
open Lib.Shift (drop_set front front_set_end put put_of_lt)

structure MessageBuilder where
  bytes : Vector UInt8 messageCapacity
  len : Nat
  inRange : len ≤ messageCapacity

namespace MessageBuilder

def new : MessageBuilder where
  bytes := .replicate _ 0
  len := 0
  inRange := Nat.zero_le _

def asBytes (self : MessageBuilder) : List UInt8 := front self.bytes self.len

def pushByte (self : MessageBuilder) (byte : UInt8) : MessageBuilder :=
  if room : self.len < messageCapacity then
    { bytes := self.bytes.set self.len (sanitizeByte byte), len := self.len + 1, inRange := room }
  else self

def pushBytes (self : MessageBuilder) (value : List UInt8) : MessageBuilder :=
  value.foldl pushByte self

/-- The loop of `push_u64`, which fills the digits from the end. -/
def fillDigits : Nat → Nat → Vector UInt8 20 → Option (Nat × Vector UInt8 20)
  | 0, value, digits => if value > 0 then none else some (0, digits)
  | index + 1, value, digits =>
      if value > 0 then do
        let digits ← put digits index ('0'.toUInt8 + UInt8.ofNat (value % 10))
        fillDigits index (value / 10) digits
      else some (index + 1, digits)

def pushU64 (self : MessageBuilder) (value : Nat) : Option MessageBuilder :=
  if value = 0 then some (self.pushByte '0'.toUInt8)
  else do
    let (index, digits) ← fillDigits 20 value (.replicate _ 0)
    return self.pushBytes (digits.toList.drop index)

/-- The loop of `push_hex_u64`: `shift` is four times the first argument. -/
def pushNibbles (value : Nat) : Nat → Bool → MessageBuilder → MessageBuilder
  | k, started, self =>
      let nibble := (value >>> (4 * k)) &&& 0x0f
      let pushed := nibble ≠ 0 || started || k == 0
      let byte :=
        if nibble < 10 then '0'.toUInt8 + UInt8.ofNat nibble
        else 'a'.toUInt8 + UInt8.ofNat (nibble - 10)
      let self := if pushed then self.pushByte byte else self
      match k with
      | 0 => self
      | k + 1 => pushNibbles value k pushed self

def pushHexU64 (self : MessageBuilder) (value : Nat) : MessageBuilder :=
  pushNibbles value 15 false (self.pushBytes ['0'.toUInt8, 'x'.toUInt8])

/-! ### What is pushed -/

/-- Behind what is there, as much of the text as there is room for. -/
theorem asBytes_pushBytes (self : MessageBuilder) (value : List UInt8) :
    (self.pushBytes value).asBytes =
      self.asBytes ++ sanitized (messageCapacity - self.len) value := by
  induction value generalizing self with
  | nil => simp [pushBytes, sanitized]
  | cons byte value ih =>
      change ((self.pushByte byte).pushBytes value).asBytes = _
      rw [ih]
      by_cases room : self.len < messageCapacity
      · have left : messageCapacity - self.len = messageCapacity - (self.len + 1) + 1 := by
          omega
        have pushed : (self.pushByte byte).asBytes = self.asBytes ++ [sanitizeByte byte] := by
          rw [pushByte, dif_pos room]
          exact front_set_end self.bytes (sanitizeByte byte) room
        have longer : (self.pushByte byte).len = self.len + 1 := by
          rw [pushByte, dif_pos room]
        rw [pushed, longer, left]
        simp [sanitized]
      · have full : self.pushByte byte = self := dif_neg room
        have left : messageCapacity - self.len = 0 := by omega
        simp [full, left, sanitized]

theorem pushBytes_append (self : MessageBuilder) (value more : List UInt8) :
    self.pushBytes (value ++ more) = (self.pushBytes value).pushBytes more := by
  simp [pushBytes]

/-! ### Numbers -/

/-- The character of a digit. -/
def digitByte (digit : Nat) : UInt8 :=
  if digit < 10 then '0'.toUInt8 + UInt8.ofNat digit
  else 'a'.toUInt8 + UInt8.ofNat (digit - 10)

/-- What `push_u64` prints. -/
def decimalText (value : Nat) : List UInt8 := (numeral 10 value).map digitByte

/-- What `push_hex_u64` prints. -/
def hexText (value : Nat) : List UInt8 :=
  '0'.toUInt8 :: 'x'.toUInt8 :: (numeral 16 value).map digitByte

/-- The digits come out in reverse, from `index` down; there is always room for one more as long
as the value is below `10 ^ index`. -/
theorem fillDigits_spec : ∀ {index value : Nat} (digits : Vector UInt8 20), index ≤ 20 →
    value < 10 ^ index → ∃ index' digits', fillDigits index value digits = some (index', digits') ∧
      digits'.toList.drop index' =
        (if value = 0 then [] else (numeral 10 value).map digitByte) ++
          digits.toList.drop index := by
  intro index
  induction index with
  | zero =>
      intro value digits _ small
      have zero : value = 0 := by omega
      subst zero
      exact ⟨0, digits, rfl, rfl⟩
  | succ index ih =>
      intro value digits within small
      by_cases zero : value = 0
      · subst zero
        exact ⟨index + 1, digits, rfl, rfl⟩
      · let written := digits.set index (digitByte (value % 10))
        have last : '0'.toUInt8 + UInt8.ofNat (value % 10) = digitByte (value % 10) :=
          (if_pos (Nat.mod_lt value (by decide))).symm
        have smaller : value / 10 < 10 ^ index := by
          rw [Nat.div_lt_iff_lt_mul (by decide), ← Nat.pow_succ]
          exact small
        have behind : written.toList.drop index =
            digitByte (value % 10) :: digits.toList.drop (index + 1) :=
          drop_set digits _ within
        obtain ⟨index', digits', filled, holds⟩ := ih written (by omega) smaller
        refine ⟨index', digits', ?_, ?_⟩
        · rw [fillDigits, if_pos (Nat.pos_of_ne_zero zero), last, put_of_lt within]
          exact filled
        · rw [holds, behind, if_neg zero]
          by_cases single : value < 10
          · have none : value / 10 = 0 := Nat.div_eq_of_lt single
            rw [if_pos none, numeral_of_lt single, Nat.mod_eq_of_lt single]
            rfl
          · have more : value / 10 ≠ 0 := by omega
            rw [if_neg more, numeral_of_le (by decide) (by omega : 10 ≤ value)]
            simp

/-- `push_u64` never runs out of digits, and pushes the decimal numeral. -/
theorem pushU64_eq (self : MessageBuilder) {value : Nat} (word : value < 2 ^ 64) :
    self.pushU64 value = some (self.pushBytes (decimalText value)) := by
  unfold pushU64
  split
  · rename_i zero
    subst zero
    rfl
  · rename_i nonzero
    obtain ⟨index, digits, filled, holds⟩ :=
      fillDigits_spec (Vector.replicate 20 0) le_rfl (by omega : value < 10 ^ 20)
    rw [filled]
    simp [holds, nonzero, decimalText]

theorem nibble_eq (value k : Nat) : (value >>> (4 * k)) &&& 0x0f = value / 16 ^ k % 16 := by
  have mask : (value >>> (4 * k)) &&& (2 ^ 4 - 1) = value >>> (4 * k) % 2 ^ 4 :=
    Nat.and_two_pow_sub_one_eq_mod _ _
  rw [Nat.shiftRight_eq_div_pow, Nat.pow_mul] at mask
  simpa [Nat.shiftRight_eq_div_pow, Nat.pow_mul] using mask

/-- The last place is always printed. -/
theorem pushNibbles_zero (value : Nat) (started : Bool) (self : MessageBuilder) :
    pushNibbles value 0 started self = self.pushByte (digitByte (value % 16)) := by
  have nibble : value &&& 15 = value % 16 := by
    simpa using nibble_eq value 0
  simp [pushNibbles, nibble, digitByte]

/-- A place is skipped as long as it and all before it are zero. -/
theorem pushNibbles_succ (value k : Nat) (started : Bool) (self : MessageBuilder) :
    pushNibbles value (k + 1) started self =
      if value / 16 ^ (k + 1) % 16 = 0 ∧ started = false then pushNibbles value k false self
      else pushNibbles value k true
        (self.pushByte (digitByte (value / 16 ^ (k + 1) % 16))) := by
  rw [pushNibbles, nibble_eq]
  by_cases leading : value / 16 ^ (k + 1) % 16 = 0 ∧ started = false
  · rw [if_pos leading]
    obtain ⟨zero, rfl⟩ := leading
    simp [zero]
  · rw [if_neg leading]
    have push : (decide (value / 16 ^ (k + 1) % 16 ≠ 0) || started || k + 1 == 0) = true := by
      cases started
      · simpa using leading
      · simp
    simp only [Nat.succ_eq_add_one, push, if_true]
    rfl

/-- Once a digit was printed, every place is. -/
theorem pushNibbles_started (value : Nat) : ∀ (k : Nat) (self : MessageBuilder),
    pushNibbles value k true self =
      self.pushBytes ((places 16 (k + 1) value).map digitByte) := by
  intro k
  induction k with
  | zero =>
      intro self
      rw [pushNibbles_zero]
      simp [places, pushBytes]
  | succ k ih =>
      intro self
      rw [pushNibbles_succ, if_neg (by simp), ih, places_succ 16 (k + 1)]
      rfl

/-- The zeros in front are skipped. -/
theorem pushNibbles_eq {value : Nat} : ∀ {k : Nat} (self : MessageBuilder),
    value < 16 ^ (k + 1) →
      pushNibbles value k false self = self.pushBytes ((numeral 16 value).map digitByte) := by
  intro k
  induction k with
  | zero =>
      intro self small
      rw [zero_add, pow_one] at small
      rw [pushNibbles_zero, Nat.mod_eq_of_lt small, numeral_of_lt small]
      rfl
  | succ k ih =>
      intro self small
      have top : value / 16 ^ (k + 1) < 16 := by
        rw [Nat.div_lt_iff_lt_mul (by positivity), ← Nat.pow_succ']
        exact small
      rw [pushNibbles_succ, Nat.mod_eq_of_lt top]
      by_cases shorter : value < 16 ^ (k + 1)
      · rw [if_pos ⟨Nat.div_eq_of_lt shorter, rfl⟩]
        exact ih self shorter
      · have longer := Nat.not_lt.mp shorter
        have nonzero : value / 16 ^ (k + 1) ≠ 0 := (Nat.div_pos longer (by positivity)).ne'
        rw [if_neg (fun leading => nonzero leading.1), pushNibbles_started,
          numeral_eq_places (by decide) longer small, places_succ 16 (k + 1),
          Nat.mod_eq_of_lt top]
        rfl

/-- `push_hex_u64` pushes `0x` and the hexadecimal numeral. -/
theorem pushHexU64_eq (self : MessageBuilder) {value : Nat} (word : value < 2 ^ 64) :
    self.pushHexU64 value = self.pushBytes (hexText value) := by
  rw [pushHexU64, pushNibbles_eq _ (by omega), ← pushBytes_append]
  rfl

/-! ### Room -/

/-- The characters of digits can be printed. -/
theorem digitByte_printable : ∀ digit < 16,
    0x20 ≤ digitByte digit ∧ digitByte digit ≤ 0x7e := by
  decide

theorem printable_of_digits {base : Nat} {digits : List Nat} (bound : base ≤ 16)
    (below : ∀ digit ∈ digits, digit < base) :
    ∀ byte ∈ digits.map digitByte, 0x20 ≤ byte ∧ byte ≤ 0x7e := by
  intro byte mem
  obtain ⟨digit, mem', rfl⟩ := List.mem_map.mp mem
  exact digitByte_printable digit ((below digit mem').trans_le bound)

theorem decimalText_printable (value : Nat) :
    ∀ byte ∈ decimalText value, 0x20 ≤ byte ∧ byte ≤ 0x7e :=
  printable_of_digits (by decide) fun _ mem => lt_of_mem_numeral (by decide) mem

theorem hexText_printable (value : Nat) :
    ∀ byte ∈ hexText value, 0x20 ≤ byte ∧ byte ≤ 0x7e := by
  refine List.forall_mem_cons.mpr ⟨by decide, List.forall_mem_cons.mpr ⟨by decide, ?_⟩⟩
  exact printable_of_digits le_rfl fun _ mem => lt_of_mem_numeral (by decide) mem

/-- A word has at most 20 decimal digits. -/
theorem length_decimalText {value : Nat} (word : value < 2 ^ 64) :
    (decimalText value).length ≤ 20 := by
  rw [decimalText, List.length_map]
  exact length_numeral_le (by decide) (by decide) (by omega)

theorem length_hexText {value : Nat} (word : value < 2 ^ 64) : (hexText value).length ≤ 18 := by
  have digits : (numeral 16 value).length ≤ 16 :=
    length_numeral_le (by decide) (by decide) (by omega)
  simp only [hexText, List.length_cons, List.length_map]
  omega

/-- A printable text for which there is room is appended as it is. -/
theorem asBytes_pushBytes_of_room (self : MessageBuilder) {text : List UInt8}
    (printable : ∀ byte ∈ text, 0x20 ≤ byte ∧ byte ≤ 0x7e)
    (room : self.len + text.length ≤ messageCapacity) :
    (self.pushBytes text).asBytes = self.asBytes ++ text := by
  rw [asBytes_pushBytes, sanitized_of_printable printable (by omega)]

end MessageBuilder

end CloudOS.Klog
