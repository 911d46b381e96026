import CloudOS.Paging.FrameLaw

/-!
What the kernel may read and write for user code through an address space.

A walk looks at the number of a page, up to bit 47. So what a space grants is the same
in a whole page, and the bytes of a page follow one another in memory.
-/

namespace CloudOS.Paging

open Lib.Store (Memory)
open Lib.Word (satAdd satAdd_of_le)

/-! ### Translations in one page -/

/-- The translation of an address that is `k` bytes further in the same page. -/
def TranslateResult.further (t : TranslateResult) (k : Nat) : TranslateResult :=
  { t with virt := t.virt + k, phys := if t.mapped then t.phys + k else t.phys }

/-- Within a page all indices are the same. -/
theorem tableIndex_further {virt k : Nat} (inPage : virt % pageSize4k + k < pageSize4k)
    {shift : Nat} (upper : 12 ≤ shift) : tableIndex (virt + k) shift = tableIndex virt shift := by
  have same : (virt + k) / 2 ^ 12 = virt / 2 ^ 12 := by
    simp only [pageSize4k] at inPage
    omega
  obtain ⟨rest, rfl⟩ := Nat.exists_eq_add_of_le upper
  rw [Fin.ext_iff, tableIndex_val, tableIndex_val, pow_add, ← Nat.div_div_eq_div_mul,
    ← Nat.div_div_eq_div_mul, same]

/-- The offset is added without reaching the last word. -/
theorem satAdd_further {base mask virt k page : Nat} (small : base ≤ 0x000fffffffffffff)
    (isMask : ∀ v, v &&& mask = v % page) (fits : virt % page + k < page)
    (notLarge : page ≤ 2 ^ 32) :
    satAdd base (virt + k &&& mask) = satAdd base (virt &&& mask) + k := by
  have offset : (virt + k) % page = virt % page + k := by
    rw [Nat.add_mod, Nat.mod_eq_of_lt (show k < page by omega), Nat.mod_eq_of_lt fits]
  rw [isMask, isMask, offset, satAdd_of_le, satAdd_of_le, Nat.add_assoc]
  · simp only [Lib.Word.maxWord]
    omega
  · simp only [Lib.Word.maxWord]
    omega

theorem entryAddr_le (e : Nat) : entryAddr e ≤ 0x000fffffffffffff :=
  Nat.and_le_right.trans (by decide)

theorem hugeEntryAddr_le (e : Nat) : hugeEntryAddr e ≤ 0x000fffffffffffff :=
  Nat.and_le_right.trans (by decide)

/-- An address further on in the page is translated to one as far on in the frame. -/
theorem translateFromRoot_further {m : Memory} {root virt k : Nat}
    (inPage : virt % pageSize4k + k < pageSize4k) :
    translateFromRoot m root (virt + k) = (translateFromRoot m root virt).further k := by
  have small : ∀ e, satAdd (entryAddr e) (virt + k &&& (pageSize4k - 1)) =
      satAdd (entryAddr e) (virt &&& (pageSize4k - 1)) + k := fun e =>
    satAdd_further (entryAddr_le e) (fun v => Nat.and_two_pow_sub_one_eq_mod v 12) inPage (by decide)
  have huge : ∀ e, satAdd (hugeEntryAddr e) (virt + k &&& (hugePageSize - 1)) =
      satAdd (hugeEntryAddr e) (virt &&& (hugePageSize - 1)) + k := fun e =>
    satAdd_further (hugeEntryAddr_le e) (fun v => Nat.and_two_pow_sub_one_eq_mod v 21)
      (by simp only [pageSize4k] at *; omega) (by decide)
  unfold translateFromRoot p4Index p3Index p2Index p1Index
  rw [tableIndex_further inPage (by decide), tableIndex_further inPage (by decide),
    tableIndex_further inPage (by decide), tableIndex_further inPage (by decide)]
  simp only [small, huge]
  repeat' split
  all_goals rfl

/-- The translation as that of another address. -/
def TranslateResult.seenAt (t : TranslateResult) (virt : Nat) : TranslateResult := { t with virt }

/-- A walk does not see the bits from 48 on. -/
theorem translateFromRoot_mod {m : Memory} {root virt : Nat} :
    translateFromRoot m root virt = (translateFromRoot m root (virt % 2 ^ 48)).seenAt virt := by
  have index : ∀ {shift}, shift ≤ 39 → tableIndex (virt % 2 ^ 48) shift = tableIndex virt shift := by
    intro shift low
    obtain ⟨rest, isRest⟩ := Nat.exists_eq_add_of_le low
    have whole : (2 : Nat) ^ 48 = 2 ^ shift * (2 ^ rest * 512) := by
      rw [← Nat.mul_assoc, ← pow_add, ← isRest]
      rfl
    rw [Fin.ext_iff, tableIndex_val, tableIndex_val, whole, Nat.mod_mul_right_div_self,
      Nat.mod_mod_of_dvd _ (Dvd.intro_left _ rfl)]
  have offset : ∀ {k}, k ≤ 48 → virt % 2 ^ 48 &&& (2 ^ k - 1) = virt &&& (2 ^ k - 1) := by
    intro k low
    rw [Nat.and_two_pow_sub_one_eq_mod, Nat.and_two_pow_sub_one_eq_mod,
      Nat.mod_mod_of_dvd _ (Nat.pow_dvd_pow 2 low)]
  have small : virt % 2 ^ 48 &&& (pageSize4k - 1) = virt &&& (pageSize4k - 1) :=
    offset (k := 12) (by decide)
  have huge : virt % 2 ^ 48 &&& (hugePageSize - 1) = virt &&& (hugePageSize - 1) :=
    offset (k := 21) (by decide)
  unfold translateFromRoot p4Index p3Index p2Index p1Index
  rw [index (by decide), index (by decide), index (by decide), index (by decide)]
  simp only [small, huge]
  repeat' split
  all_goals rfl

/-! ### What a space grants -/

namespace AddressSpace

variable {space : AddressSpace} {m : Memory} {writable : Bool} {virt k : Nat}

theorem translate_further (inPage : virt % pageSize4k + k < pageSize4k) :
    space.translate m (virt + k) = (space.translate m virt).further k := by
  unfold translate
  split
  · rfl
  · exact translateFromRoot_further inPage

/-- The upper bits of an address are not looked at. -/
theorem translate_mod :
    space.translate m virt = (space.translate m (virt % 2 ^ 48)).seenAt virt := by
  unfold translate
  split
  · rfl
  · exact translateFromRoot_mod

/-- The byte at the address is one that user code may read, or also write. -/
def Grants (space : AddressSpace) (m : Memory) (writable : Bool) (virt : Nat) : Prop :=
  (space.translate m virt).mapped = true ∧ (space.translate m virt).userAccessible = true ∧
    (writable = true → (space.translate m virt).writable = true)

instance : Decidable (space.Grants m writable virt) :=
  inferInstanceAs (Decidable (_ ∧ _ ∧ (_ → _)))

/-- Where that byte is in memory. -/
def physOf (space : AddressSpace) (m : Memory) (virt : Nat) : Nat := (space.translate m virt).phys

/-- Access is granted page by page. -/
theorem grants_further (inPage : virt % pageSize4k + k < pageSize4k) :
    space.Grants m writable (virt + k) ↔ space.Grants m writable virt := by
  rw [Grants, Grants, translate_further inPage]
  rfl

/-- The bytes of a page are next to each other in memory. -/
theorem physOf_further (inPage : virt % pageSize4k + k < pageSize4k)
    (grants : space.Grants m writable virt) :
    space.physOf m (virt + k) = space.physOf m virt + k := by
  rw [physOf, translate_further inPage]
  exact if_pos grants.1

theorem grants_mod : space.Grants m writable virt ↔ space.Grants m writable (virt % 2 ^ 48) := by
  rw [Grants, translate_mod]
  rfl

theorem physOf_mod : space.physOf m virt = space.physOf m (virt % 2 ^ 48) := by
  rw [physOf, translate_mod]
  rfl

/-- What a page grants, its first byte grants. -/
theorem grants_page :
    space.Grants m writable (virt / pageSize4k * pageSize4k) ↔ space.Grants m writable virt := by
  have start : virt / pageSize4k * pageSize4k % pageSize4k = 0 := Nat.mul_mod_left _ _
  have inPage : virt / pageSize4k * pageSize4k % pageSize4k + virt % pageSize4k < pageSize4k := by
    rw [start, Nat.zero_add]
    exact Nat.mod_lt _ (by decide)
  have split : virt / pageSize4k * pageSize4k + virt % pageSize4k = virt := by
    rw [Nat.mul_comm]
    exact Nat.div_add_mod virt pageSize4k
  rw [← grants_further inPage, split]

/-- Writes to the bytes that user code may write move none of them, and no two
addresses name one of them twice, up to the bits that a walk does not see. -/
structure Coherent (space : AddressSpace) (m : Memory) : Prop where
  steady : ∀ m', (∀ x, m' x ≠ m x → ∃ virt, space.Grants m true virt ∧ space.physOf m virt = x) →
    ∀ virt, space.Grants m true virt → space.translate m' virt = space.translate m virt
  apart : ∀ v w, space.Grants m true v → space.Grants m true w →
    space.physOf m v = space.physOf m w → v % 2 ^ 48 = w % 2 ^ 48

end AddressSpace

end CloudOS.Paging
