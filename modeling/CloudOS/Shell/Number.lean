import CloudOS.Lib.Numeral
import CloudOS.Shell.Input

/-!
Numbers in commands: `parse_u64`.

What it accepts is a grammar: decimal numerals, or hexadecimal ones behind `0x`, with
underscores anywhere among the digits and blanks around them. The loop reads the digits
with a check at every step, but fails only for values that are too large in the end.
-/

namespace CloudOS.Shell

open Lib.Word (maxWord checkedMul checkedAdd)
open Lib.Numeral (value accumulate foldlM_accumulate)

/-! ### The parser -/

def toAsciiLower (byte : UInt8) : UInt8 :=
  if 'A'.toUInt8 ≤ byte && byte ≤ 'Z'.toUInt8 then byte + 32 else byte

def asciiDigitValue (byte : UInt8) : Option Nat :=
  if '0'.toUInt8 ≤ byte && byte ≤ '9'.toUInt8 then some (byte - '0'.toUInt8).toNat
  else if 'a'.toUInt8 ≤ byte && byte ≤ 'f'.toUInt8 then some (byte - 'a'.toUInt8 + 10).toNat
  else if 'A'.toUInt8 ≤ byte && byte ≤ 'F'.toUInt8 then some (byte - 'A'.toUInt8 + 10).toNat
  else none

/-- One round of the loop of `parse_u64`, with the value and whether there was a digit. -/
def parseByte (base : Nat) (progress : Nat × Bool) (byte : UInt8) : Option (Nat × Bool) :=
  if byte == '_'.toUInt8 then some progress
  else do
    let digit ← asciiDigitValue byte
    if digit ≥ base then none
    else do
      let product ← checkedMul maxWord progress.1 base
      let value ← checkedAdd maxWord product digit
      return (value, true)

def parseDigits (digits : List UInt8) (base : Nat) : Option Nat :=
  if digits.isEmpty then none
  else do
    let (value, parsedDigit) ← digits.foldlM (parseByte base) (0, false)
    if parsedDigit then some value else none

def parseU64 (input : List UInt8) : Option Nat :=
  let input := trimAscii input
  if input.isEmpty then none
  else if input.length > 2 && input[0]? == some '0'.toUInt8 &&
      input[1]?.map toAsciiLower == some 'x'.toUInt8 then parseDigits (input.drop 2) 16
  else parseDigits input 10

/-! ### The grammar -/

abbrev lowerDigits : List UInt8 := "0123456789abcdef".toList.map Char.toUInt8
abbrev upperDigits : List UInt8 := "0123456789ABCDEF".toList.map Char.toUInt8

/-- The character is the digit, in either case. -/
def IsDigit (byte : UInt8) (digit : Nat) : Prop :=
  lowerDigits[digit]? = some byte ∨ upperDigits[digit]? = some byte

/-- The text consists of these digits, and of underscores. -/
inductive Spells (base : Nat) : List UInt8 → List Nat → Prop where
  | nil : Spells base [] []
  | underscore {text : List UInt8} {digits : List Nat} :
      Spells base text digits → Spells base ('_'.toUInt8 :: text) digits
  | digit {byte : UInt8} {digit : Nat} {text : List UInt8} {digits : List Nat} :
      IsDigit byte digit → digit < base → Spells base text digits →
      Spells base (byte :: text) (digit :: digits)

/-- Decimal and hexadecimal numerals with at least one digit. -/
inductive IsNumeral : List UInt8 → Nat → Prop where
  | decimal {text : List UInt8} {digits : List Nat} :
      Spells 10 text digits → digits ≠ [] → IsNumeral text (value 10 digits)
  | hexadecimal {x : UInt8} {text : List UInt8} {digits : List Nat} :
      x = 'x'.toUInt8 ∨ x = 'X'.toUInt8 → Spells 16 text digits → digits ≠ [] →
      IsNumeral ('0'.toUInt8 :: x :: text) (value 16 digits)

/-- Spaces and tabs. -/
def Blank (text : List UInt8) : Prop := ∀ byte ∈ text, byte = ' '.toUInt8 ∨ byte = '\t'.toUInt8

instance (byte : UInt8) (digit : Nat) : Decidable (IsDigit byte digit) :=
  inferInstanceAs (Decidable (_ ∨ _))

/-! ### Digits -/

/-- There are sixteen digits. -/
theorem IsDigit.lt {byte : UInt8} {digit : Nat} (isDigit : IsDigit byte digit) : digit < 16 := by
  rcases isDigit with lower | upper
  · exact (List.getElem?_eq_some_iff.mp lower).1
  · exact (List.getElem?_eq_some_iff.mp upper).1

/-- `ascii_digit_value` knows both characters of every digit. -/
theorem asciiDigitValue_of_lt : ∀ digit : Fin 16,
    (∀ byte ∈ lowerDigits[(digit : Nat)]?, asciiDigitValue byte = some digit) ∧
      ∀ byte ∈ upperDigits[(digit : Nat)]?, asciiDigitValue byte = some digit := by
  decide +kernel

theorem isDigit_of_asciiDigitValue : ∀ byte : UInt8, ∀ digit ∈ asciiDigitValue byte,
    IsDigit byte digit := by
  decide +kernel

/-- What `ascii_digit_value` finds are exactly the digits. -/
theorem asciiDigitValue_eq_some {byte : UInt8} {digit : Nat} :
    asciiDigitValue byte = some digit ↔ IsDigit byte digit := by
  constructor
  · intro found
    exact isDigit_of_asciiDigitValue byte digit found
  · intro isDigit
    obtain ⟨lower, upper⟩ := asciiDigitValue_of_lt ⟨digit, isDigit.lt⟩
    rcases isDigit with isLower | isUpper
    · exact lower byte isLower
    · exact upper byte isUpper

/-- An underscore can only separate digits. -/
theorem underscore_not_digit (digit : Nat) : ¬ IsDigit '_'.toUInt8 digit := by
  intro isDigit
  have found := asciiDigitValue_eq_some.mpr isDigit
  cases found

/-- No character of a numeral is a blank. -/
theorem IsDigit.not_blank {byte : UInt8} {digit : Nat} (isDigit : IsDigit byte digit) :
    isBlank byte = false := by
  have found := asciiDigitValue_eq_some.mpr isDigit
  by_contra blank
  simp only [isBlank, Bool.not_eq_false, Bool.or_eq_true, beq_iff_eq] at blank
  rcases blank with rfl | rfl
  · cases found
  · cases found

/-! ### The loop -/

theorem parseByte_underscore (base : Nat) (progress : Nat × Bool) :
    parseByte base progress '_'.toUInt8 = some progress := rfl

/-- A digit is accumulated, unless the value gets too large. -/
theorem parseByte_digit {base start digit : Nat} {parsed : Bool} {byte : UInt8}
    (isDigit : IsDigit byte digit) (below : digit < base) :
    parseByte base (start, parsed) byte =
      (accumulate maxWord base start digit).map fun value => (value, true) := by
  have other : byte ≠ '_'.toUInt8 := by
    rintro rfl
    exact underscore_not_digit digit isDigit
  rw [parseByte, if_neg (by simpa using other), asciiDigitValue_eq_some.mpr isDigit, accumulate]
  simp only [Option.bind_eq_bind, Option.bind_some, if_neg (Nat.not_le.mpr below)]
  rw [Option.map_eq_bind, Option.bind_assoc]
  rfl

/-- A byte that does not stop the loop is an underscore or a digit. -/
theorem of_parseByte_eq_some {base : Nat} {progress next : Nat × Bool} {byte : UInt8}
    (read : parseByte base progress byte = some next) :
    byte = '_'.toUInt8 ∨ ∃ digit < base, IsDigit byte digit := by
  unfold parseByte at read
  split at read
  · rename_i underscore
    exact .inl (beq_iff_eq.mp underscore)
  · refine .inr ?_
    obtain ⟨digit, found, rest⟩ := Option.bind_eq_some_iff.mp read
    split at rest
    · cases rest
    · rename_i below
      exact ⟨digit, Nat.not_le.mp below, asciiDigitValue_eq_some.mp found⟩

/-- The loop reads the digits one after the other and skips the underscores. -/
theorem Spells.foldlM {base : Nat} {text : List UInt8} {digits : List Nat}
    (spells : Spells base text digits) : ∀ (start : Nat) (parsed : Bool),
      text.foldlM (parseByte base) (start, parsed) =
        (digits.foldlM (accumulate maxWord base) start).map fun value =>
          (value, parsed || !digits.isEmpty) := by
  induction spells with
  | nil =>
      intro start parsed
      simp
  | underscore _ ih =>
      intro start parsed
      rw [List.foldlM_cons, parseByte_underscore]
      exact ih start parsed
  | digit isDigit below _ ih =>
      intro start parsed
      rw [List.foldlM_cons, List.foldlM_cons, parseByte_digit isDigit below]
      cases accumulate maxWord base start _ with
      | none => rfl
      | some next =>
          refine (ih next true).trans ?_
          simp

/-- A text that the loop gets through consists of digits and underscores. -/
theorem spells_of_foldlM {base : Nat} {text : List UInt8} : ∀ {progress result : Nat × Bool},
    text.foldlM (parseByte base) progress = some result → ∃ digits, Spells base text digits := by
  induction text with
  | nil =>
      intro progress result _
      exact ⟨[], .nil⟩
  | cons byte text ih =>
      intro progress result read
      rw [List.foldlM_cons] at read
      obtain ⟨next, first, rest⟩ := Option.bind_eq_some_iff.mp read
      obtain ⟨digits, spells⟩ := ih rest
      rcases of_parseByte_eq_some first with rfl | ⟨digit, below, isDigit⟩
      · exact ⟨digits, .underscore spells⟩
      · exact ⟨digit :: digits, .digit isDigit below spells⟩

theorem Spells.ne_nil {base : Nat} {text : List UInt8} {digits : List Nat}
    (spells : Spells base text digits) (nonempty : digits ≠ []) : text ≠ [] := by
  rintro rfl
  cases spells
  exact nonempty rfl

/-- `parse_digits` reads exactly the texts with at least one digit whose value is a word. -/
theorem parseDigits_eq_some {base n : Nat} (positive : 0 < base) {text : List UInt8} :
    parseDigits text base = some n ↔
      ∃ digits, Spells base text digits ∧ digits ≠ [] ∧ value base digits = n ∧ n ≤ maxWord := by
  have loop {digits : List Nat} (spells : Spells base text digits) :=
    spells.foldlM 0 false
  unfold parseDigits
  constructor
  · intro parsed
    split at parsed
    · cases parsed
    obtain ⟨⟨last, found⟩, read, result⟩ := Option.bind_eq_some_iff.mp parsed
    obtain ⟨digits, spells⟩ := spells_of_foldlM read
    rw [loop spells] at read
    obtain ⟨_, accumulated, same⟩ := Option.map_eq_some_iff.mp read
    cases same
    dsimp only at result
    split at result
    · rename_i nonempty
      cases result
      obtain ⟨total, fits⟩ := (foldlM_accumulate positive (Nat.zero_le _)).mp accumulated
      exact ⟨digits, spells, by simpa using nonempty, total, fits⟩
    · cases result
  · rintro ⟨digits, spells, nonempty, total, fits⟩
    have accumulated := (foldlM_accumulate positive (Nat.zero_le _)).mpr ⟨total, fits⟩
    have bytes := spells.ne_nil nonempty
    rw [if_neg (by simpa using bytes), loop spells, accumulated]
    simp [nonempty]

theorem not_isNumeral_nil {n : Nat} : ¬ IsNumeral [] n := by
  intro numeral
  cases numeral with
  | decimal spells nonempty => exact spells.ne_nil nonempty rfl

/-! ### The prefix -/

theorem toAsciiLower_eq_x : ∀ byte : UInt8,
    toAsciiLower byte = 'x'.toUInt8 ↔ byte = 'x'.toUInt8 ∨ byte = 'X'.toUInt8 := by
  decide +kernel

/-- An x is no digit, so a numeral with the prefix is not decimal. -/
theorem x_not_digit {x : UInt8} (isX : x = 'x'.toUInt8 ∨ x = 'X'.toUInt8) (digit : Nat) :
    ¬ IsDigit x digit := by
  intro isDigit
  have found := asciiDigitValue_eq_some.mpr isDigit
  rcases isX with rfl | rfl
  · cases found
  · cases found

/-- The text begins like a hexadecimal numeral. -/
theorem hexPrefix_iff {text : List UInt8} :
    (text.length > 2 && text[0]? == some '0'.toUInt8 &&
      text[1]?.map toAsciiLower == some 'x'.toUInt8) = true ↔
    ∃ x body, (x = 'x'.toUInt8 ∨ x = 'X'.toUInt8) ∧ body ≠ [] ∧
      text = '0'.toUInt8 :: x :: body := by
  constructor
  · intro begins
    match text with
    | [] => simp at begins
    | [_] => simp at begins
    | [_, _] => simp at begins
    | zero :: x :: first :: rest =>
        simp only [List.getElem?_cons_zero, List.getElem?_cons_succ, Option.map_some,
          Bool.and_eq_true, beq_iff_eq, Option.some.injEq, toAsciiLower_eq_x] at begins
        obtain ⟨⟨-, rfl⟩, isX⟩ := begins
        exact ⟨x, first :: rest, isX, by simp, rfl⟩
  · rintro ⟨x, body, isX, nonempty, rfl⟩
    have lower := (toAsciiLower_eq_x x).mpr isX
    have long : 0 < body.length := List.length_pos_iff.mpr nonempty
    simp [lower]
    omega

/-- Between the blanks there is a numeral, and its value is a word. -/
theorem parseU64_trimmed {input : List UInt8} {n : Nat} :
    parseU64 input = some n ↔ IsNumeral (trimAscii input) n ∧ n ≤ maxWord := by
  unfold parseU64
  generalize trimAscii input = text
  dsimp only
  by_cases hex : ∃ x body, (x = 'x'.toUInt8 ∨ x = 'X'.toUInt8) ∧ body ≠ [] ∧
      text = '0'.toUInt8 :: x :: body
  · rw [if_pos (hexPrefix_iff.mpr hex)]
    obtain ⟨x, body, isX, nonempty, rfl⟩ := hex
    rw [if_neg (by simp), List.drop_succ_cons, List.drop_succ_cons, List.drop_zero,
      parseDigits_eq_some (by decide)]
    constructor
    · rintro ⟨digits, spells, some_, rfl, fits⟩
      exact ⟨.hexadecimal isX spells some_, fits⟩
    · rintro ⟨numeral, fits⟩
      cases numeral with
      | decimal spells _ =>
          cases spells with
          | digit _ _ rest =>
              cases rest with
              | underscore => exact absurd isX (by decide)
              | digit isDigit => exact absurd isDigit (x_not_digit isX _)
      | hexadecimal _ spells some_ => exact ⟨_, spells, some_, rfl, fits⟩
  · rw [if_neg (fun begins => hex (hexPrefix_iff.mp begins))]
    split
    · rename_i empty
      have missing : ¬ IsNumeral text n := by
        rw [List.isEmpty_iff.mp empty]
        exact not_isNumeral_nil
      simp [missing]
    · rw [parseDigits_eq_some (by decide)]
      constructor
      · rintro ⟨digits, spells, some_, rfl, fits⟩
        exact ⟨.decimal spells some_, fits⟩
      · rintro ⟨numeral, fits⟩
        cases numeral with
        | decimal spells some_ => exact ⟨_, spells, some_, rfl, fits⟩
        | hexadecimal isX spells some_ =>
            exact absurd ⟨_, _, isX, spells.ne_nil some_, rfl⟩ hex

/-! ### Trimming -/

theorem isBlank_iff {byte : UInt8} :
    isBlank byte = true ↔ byte = ' '.toUInt8 ∨ byte = '\t'.toUInt8 := by
  simp only [isBlank, Bool.or_eq_true, beq_iff_eq]
  rfl

/-- What is taken off in front is blank. -/
theorem trimFirst_split (text : List UInt8) : ∃ left, Blank left ∧ text = left ++ trimFirst text := by
  induction text with
  | nil => exact ⟨[], by simp [Blank], rfl⟩
  | cons first rest ih =>
      rw [trimFirst]
      split
      · rename_i blank
        obtain ⟨left, blanks, split⟩ := ih
        refine ⟨first :: left, ?_, ?_⟩
        · intro byte mem
          rcases List.mem_cons.mp mem with rfl | mem
          · exact isBlank_iff.mp blank
          · exact blanks byte mem
        · exact congrArg (first :: ·) split
      · exact ⟨[], by simp [Blank], rfl⟩

/-- What is taken off at both ends is blank. -/
theorem trimAscii_split (input : List UInt8) :
    ∃ left right, Blank left ∧ Blank right ∧ input = left ++ trimAscii input ++ right := by
  obtain ⟨left, leftBlank, first⟩ := trimFirst_split input
  obtain ⟨right, rightBlank, last⟩ := trimFirst_split (trimFirst input).reverse
  refine ⟨left, right.reverse, leftBlank, ?_, ?_⟩
  · intro byte mem
    exact rightBlank byte (List.mem_reverse.mp mem)
  · have both : trimFirst input = trimAscii input ++ right.reverse := by
      rw [← List.reverse_reverse (trimFirst input), last, List.reverse_append]
      rfl
    rw [List.append_assoc, ← both]
    exact first

/-- Nothing is taken off but blanks. -/
theorem trimFirst_append {left text : List UInt8} (blank : Blank left)
    (solid : ∀ byte ∈ text, isBlank byte = false) (nonempty : text ≠ []) (right : List UInt8) :
    trimFirst (left ++ text ++ right) = text ++ right := by
  induction left with
  | nil =>
      obtain ⟨first, rest, rfl⟩ := List.exists_cons_of_ne_nil nonempty
      have notBlank := solid first List.mem_cons_self
      simp [trimFirst, notBlank]
  | cons first left ih =>
      have isBlank := isBlank_iff.mpr (blank first List.mem_cons_self)
      rw [List.cons_append, List.cons_append, trimFirst, if_pos isBlank]
      exact ih fun byte mem => blank byte (List.mem_cons_of_mem _ mem)

/-- Blanks around a text without blanks are trimmed off. -/
theorem trimAscii_append {left text right : List UInt8} (leftBlank : Blank left)
    (rightBlank : Blank right) (solid : ∀ byte ∈ text, isBlank byte = false)
    (nonempty : text ≠ []) : trimAscii (left ++ text ++ right) = text := by
  have backwards : trimFirst (text ++ right).reverse = text.reverse := by
    rw [List.reverse_append, ← List.append_nil (right.reverse ++ text.reverse),
      trimFirst_append _ _ (by simpa using nonempty), List.append_nil]
    · intro byte mem
      exact rightBlank byte (List.mem_reverse.mp mem)
    · intro byte mem
      exact solid byte (List.mem_reverse.mp mem)
  rw [trimAscii, trimLast, trimFirst_append leftBlank solid nonempty, backwards,
    List.reverse_reverse]

/-! ### What is accepted -/

/-- Between digits there are no blanks. -/
theorem Spells.solid {base : Nat} {text : List UInt8} {digits : List Nat}
    (spells : Spells base text digits) : ∀ byte ∈ text, isBlank byte = false := by
  induction spells with
  | nil => simp
  | underscore _ ih => exact List.forall_mem_cons.mpr ⟨rfl, ih⟩
  | digit isDigit _ _ ih => exact List.forall_mem_cons.mpr ⟨isDigit.not_blank, ih⟩

theorem IsNumeral.solid {text : List UInt8} {n : Nat} (numeral : IsNumeral text n) :
    ∀ byte ∈ text, isBlank byte = false := by
  cases numeral with
  | decimal spells _ => exact spells.solid
  | hexadecimal isX spells _ =>
      refine List.forall_mem_cons.mpr ⟨rfl, List.forall_mem_cons.mpr ⟨?_, spells.solid⟩⟩
      rcases isX with rfl | rfl
      · rfl
      · rfl

/-- A numeral below 2^64, with blanks around it. -/
theorem parseU64_eq_some {input : List UInt8} {n : Nat} :
    parseU64 input = some n ↔
      n < 2 ^ 64 ∧ ∃ left text right, Blank left ∧ Blank right ∧
        input = left ++ text ++ right ∧ IsNumeral text n := by
  have word : n ≤ maxWord ↔ n < 2 ^ 64 := Nat.le_sub_one_iff_lt (by positivity)
  rw [parseU64_trimmed, word]
  constructor
  · rintro ⟨numeral, fits⟩
    obtain ⟨left, right, leftBlank, rightBlank, split⟩ := trimAscii_split input
    exact ⟨fits, left, _, right, leftBlank, rightBlank, split, numeral⟩
  · rintro ⟨fits, left, text, right, leftBlank, rightBlank, rfl, numeral⟩
    have nonempty : text ≠ [] := by
      rintro rfl
      exact not_isNumeral_nil numeral
    rw [trimAscii_append leftBlank rightBlank numeral.solid nonempty]
    exact ⟨numeral, fits⟩

end CloudOS.Shell
