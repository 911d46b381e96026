import CloudOS.Lib.Store

/-!
Memory seen through a map of pages: every mapped page lies in a frame of its own, so
that bytes at different addresses are different bytes of memory.
-/

namespace Lib

open Lib.Store (Memory writeBytes)

/-- Pages of `size` bytes, by their number, and the frames they lie in. -/
structure PageMap (size : Nat) where
  frameAt : Nat → Option Nat
  aligned : ∀ {page frame}, frameAt page = some frame → frame % size = 0
  distinct : ∀ {page other frame}, frameAt page = some frame → frameAt other = some frame →
    page = other

namespace PageMap

variable {size : Nat} (P : PageMap size) {m m' : Memory}

/-- Where the byte at an address is. -/
def phys (a : Nat) : Option Nat := (P.frameAt (a / size)).map (· + a % size)

/-- The byte of memory belongs to a mapped page. -/
def Inside (x : Nat) : Prop :=
  ∃ page frame, P.frameAt page = some frame ∧ frame ≤ x ∧ x < frame + size

/-- The memories differ in mapped pages only. -/
def SameOutside (m m' : Memory) : Prop := ∀ x, ¬ P.Inside x → m' x = m x

variable {P}

theorem SameOutside.refl (m : Memory) : P.SameOutside m m := fun _ _ => rfl

theorem SameOutside.trans {m'' : Memory} (before : P.SameOutside m m')
    (after : P.SameOutside m' m'') : P.SameOutside m m'' :=
  fun x outside => (after x outside).trans (before x outside)

theorem phys_eq_some {a x : Nat} (isPhys : P.phys a = some x) :
    ∃ frame, P.frameAt (a / size) = some frame ∧ x = frame + a % size := by
  obtain ⟨frame, found, eq⟩ := Option.map_eq_some_iff.mp isPhys
  exact ⟨frame, found, eq.symm⟩

section Write

variable {a x : Nat} {bytes : List UInt8} (positive : 0 < size) (isPhys : P.phys a = some x)
  (fits : a % size + bytes.length ≤ size)

include isPhys fits

/-- Bytes that stay in one page do not reach other frames. -/
theorem writeBytes_sameOutside (m : Memory) : P.SameOutside m (writeBytes m x bytes) := by
  obtain ⟨frame, found, rfl⟩ := phys_eq_some isPhys
  intro y outside
  rw [writeBytes, if_neg]
  rintro ⟨from_, below⟩
  exact outside ⟨_, frame, found, by omega, by omega⟩

include positive

/-- What the bytes at other addresses are after the write. -/
theorem writeBytes_phys (m : Memory) {b y : Nat} (isPhys' : P.phys b = some y) :
    writeBytes m x bytes y =
      if a ≤ b ∧ b < a + bytes.length then bytes.getD (b - a) 0 else m y := by
  obtain ⟨frame, found, rfl⟩ := phys_eq_some isPhys
  obtain ⟨frame', found', rfl⟩ := phys_eq_some isPhys'
  have divA := Nat.div_add_mod a size
  have divB := Nat.div_add_mod b size
  have smallB := Nat.mod_lt b positive
  rw [writeBytes]
  by_cases same : a / size = b / size
  · rw [same, found'] at found
    obtain rfl := Option.some.inj found
    rw [same] at divA
    have offset : frame' + b % size - (frame' + a % size) = b - a := by omega
    rw [offset]
    split
    · rw [if_pos (by omega)]
    · rw [if_neg (by omega)]
  · have different : frame ≠ frame' := by
      rintro rfl
      exact same (P.distinct found found')
    have otherFrame : ¬ (frame + a % size ≤ frame' + b % size ∧
        frame' + b % size < frame + a % size + bytes.length) := by
      obtain ⟨k, rfl⟩ := Nat.dvd_of_mod_eq_zero (P.aligned found)
      obtain ⟨l, rfl⟩ := Nat.dvd_of_mod_eq_zero (P.aligned found')
      have apart : k + 1 ≤ l ∨ l + 1 ≤ k := by
        rcases Nat.lt_trichotomy k l with before | equal | after
        · exact .inl before
        · exact absurd (by rw [equal]) different
        · exact .inr after
      rcases apart with before | after
      · have := Nat.mul_le_mul_left size before
        rw [Nat.mul_add, Nat.mul_one] at this
        omega
      · have := Nat.mul_le_mul_left size after
        rw [Nat.mul_add, Nat.mul_one] at this
        omega
    rw [if_neg otherFrame, if_neg]
    rintro ⟨from_, below⟩
    -- the bytes stay in the page of `a`
    have samePage : a / size = b / size := by
      have lower := Nat.div_le_div_right (c := size) from_
      have upper : b < size * (a / size + 1) := by
        rw [Nat.mul_add, Nat.mul_one]
        omega
      have := Nat.div_lt_of_lt_mul upper
      omega
    exact same samePage

end Write

end PageMap

end Lib
