import CloudOS.Elf.Load
import CloudOS.Elf.Validate
import CloudOS.Lib.PageMap

/-!
The copies of `src/elf.rs`: chunk by chunk, every byte of a file reaches the address
that its segment gives it.
-/

namespace CloudOS.Elf

open Lib (PageMap)
open Lib.Store (Memory writeBytes)
open CloudOS.Paging (TranslateResult pageSize4k)

variable {P : PageMap pageSize4k} {translate : Memory → Nat → TranslateResult}
  {image : List UInt8} {segment : SegmentPlan} {segments : List SegmentPlan} {m : Memory}

/-- The translation shows the pages of the map, whatever bytes they hold. -/
def Shows (P : PageMap pageSize4k) (translate : Memory → Nat → TranslateResult) (m : Memory) :
    Prop :=
  ∀ m', P.SameOutside m m' → ∀ a x, P.phys a = some x →
    (translate m' a).mapped = true ∧ (translate m' a).userAccessible = true ∧
      (translate m' a).phys = x

/-- The address is one that the segment has bytes of the file for. -/
def SegmentPlan.InFile (s : SegmentPlan) (a : Nat) : Prop :=
  s.virtualAddress ≤ a ∧ a < s.virtualAddress + s.fileSize

/-- The byte of the file for an address. -/
def SegmentPlan.fileByte (s : SegmentPlan) (image : List UInt8) (a : Nat) : Option UInt8 :=
  image[s.fileOffset + (a - s.virtualAddress)]?

/-- The bytes of the segment are in the file, and their addresses are mapped. -/
structure Copyable (P : PageMap pageSize4k) (image : List UInt8) (s : SegmentPlan) : Prop where
  file : s.fileOffset + s.fileSize ≤ image.length
  covered : ∀ a, s.InFile a → ∃ x, P.phys a = some x

theorem Shows.congr {m' : Memory} (shows_ : Shows P translate m) (same : P.SameOutside m m') :
    Shows P translate m' := fun m'' same' => shows_ m'' (same.trans same')

theorem fileByte_getD {a : Nat} (copyable : Copyable P image segment) (inFile : segment.InFile a)
    {byte : UInt8} (eq : byte = image.getD (segment.fileOffset + (a - segment.virtualAddress)) 0) :
    segment.fileByte image a = some byte := by
  have file := copyable.file
  obtain ⟨from_, below⟩ := inFile
  rw [SegmentPlan.fileByte, eq, List.getD_eq_getElem?_getD,
    List.getElem?_eq_getElem (show _ < image.length by omega), Option.getD_some]

/-! ### One segment -/

/-- What the bytes are once those from `copied` on are copied. -/
def Copies (P : PageMap pageSize4k) (image : List UInt8) (s : SegmentPlan) (copied : Nat)
    (m m' : Memory) : Prop :=
  ∀ b y, P.phys b = some y → m' y =
    if s.virtualAddress + copied ≤ b ∧ b < s.virtualAddress + s.fileSize then
      image.getD (s.fileOffset + (b - s.virtualAddress)) 0 else m y

theorem Copies.refl {copied : Nat} (all : segment.fileSize ≤ copied) :
    Copies P image segment copied m m := by
  intro b y _
  rw [if_neg (by omega)]

/-- The induction is on the fuel; every round copies up to the end of a page. -/
theorem copyChunks_copies (copyable : Copyable P image segment) :
    ∀ (fuel copied : Nat) (m : Memory), Shows P translate m →
      segment.fileSize - copied ≤ fuel →
      ∃ m', copyChunks translate image segment fuel copied m = (.ok (), m') ∧
        P.SameOutside m m' ∧ Copies P image segment copied m m' := by
  intro fuel
  induction fuel with
  | zero =>
      intro copied m _ enough
      exact ⟨m, rfl, .refl m, .refl (by omega)⟩
  | succ fuel ih =>
      intro copied m shows_ enough
      unfold copyChunks
      split
      · rename_i more
        have file := copyable.file
        have mask : segment.virtualAddress + copied &&& (pageSize4k - 1) =
            (segment.virtualAddress + copied) % pageSize4k :=
          Nat.and_two_pow_sub_one_eq_mod _ 12
        have offset := Nat.mod_lt (segment.virtualAddress + copied) (show 0 < pageSize4k by decide)
        obtain ⟨x, isPhys⟩ := copyable.covered (segment.virtualAddress + copied)
          ⟨by omega, by omega⟩
        obtain ⟨mapped, user, phys⟩ := shows_ m (.refl m) _ x isPhys
        dsimp only
        rw [mapped, user, phys, mask]
        simp only [Bool.not_true, Bool.or_self, Bool.false_eq_true, if_false]
        generalize isChunk : min (pageSize4k - (segment.virtualAddress + copied) % pageSize4k)
          (segment.fileSize - copied) = chunk
        have length : ((image.drop (segment.fileOffset + copied)).take chunk).length = chunk := by
          rw [List.length_take, List.length_drop]
          omega
        have fits : (segment.virtualAddress + copied) % pageSize4k +
            ((image.drop (segment.fileOffset + copied)).take chunk).length ≤ pageSize4k := by
          rw [length]
          omega
        have here := PageMap.writeBytes_sameOutside isPhys fits m
        obtain ⟨m', copies, outside, bytes⟩ :=
          ih (copied + chunk) _ (shows_.congr here) (by omega)
        refine ⟨m', copies, here.trans outside, fun b y isPhys' => ?_⟩
        rw [bytes b y isPhys', PageMap.writeBytes_phys (by decide) isPhys fits m isPhys', length]
        by_cases later : segment.virtualAddress + (copied + chunk) ≤ b ∧
            b < segment.virtualAddress + segment.fileSize
        · rw [if_pos later, if_pos (by omega)]
        · rw [if_neg later]
          by_cases chunked : segment.virtualAddress + copied ≤ b ∧
              b < segment.virtualAddress + copied + chunk
          · rw [if_pos chunked, if_pos (by omega), List.getD_eq_getElem?_getD,
              List.getElem?_take_of_lt (by omega), List.getElem?_drop,
              List.getD_eq_getElem?_getD]
            congr 2
            omega
          · rw [if_neg chunked, if_neg (by omega)]
      · exact ⟨m, rfl, .refl m, .refl (by omega)⟩

/-! ### All segments -/

/-- The bytes of every segment are where they belong, and other bytes are as before. -/
structure CopiesAll (P : PageMap pageSize4k) (image : List UInt8) (segments : List SegmentPlan)
    (m m' : Memory) : Prop where
  file : ∀ s ∈ segments, ∀ a x, P.phys a = some x → s.InFile a → s.fileByte image a = some (m' x)
  rest : ∀ a x, P.phys a = some x → (∀ s ∈ segments, ¬ s.InFile a) → m' x = m x

/-- Segments that lie apart are copied one after the other. -/
theorem copySegments_copies {copy : SegmentPlan → Memory → Except LoadError Unit × Memory}
    (isCopy : ∀ s m, copy s m = copyChunks translate image s s.fileSize 0 m)
    (copyable : ∀ s ∈ segments, Copyable P image s)
    (apart : segments.Pairwise fun s t => ∀ a, s.InFile a → ¬ t.InFile a)
    (shows_ : Shows P translate m) :
    ∃ m', copySegments copy segments m = (.ok (), m') ∧ P.SameOutside m m' ∧
      CopiesAll P image segments m m' := by
  induction segments generalizing m with
  | nil =>
      exact ⟨m, rfl, .refl m, fun s mem => absurd mem List.not_mem_nil, fun _ _ _ _ => rfl⟩
  | cons segment rest ih =>
      rw [List.pairwise_cons] at apart
      have first := copyable segment List.mem_cons_self
      obtain ⟨m₁, copies, outside, bytes⟩ :=
        copyChunks_copies first segment.fileSize 0 m shows_ (by omega)
      obtain ⟨m', copies', outside', file, others⟩ :=
        ih (fun s mem => copyable s (List.mem_cons_of_mem _ mem)) apart.2 (shows_.congr outside)
      unfold copySegments
      rw [isCopy, copies]
      refine ⟨m', copies', outside.trans outside', fun s mem a x isPhys inFile => ?_,
        fun a x isPhys outsideAll => ?_⟩
      · rcases List.mem_cons.mp mem with rfl | mem
        · refine fileByte_getD first inFile ?_
          rw [others a x isPhys fun t later => apart.1 t later a inFile, bytes a x isPhys]
          exact if_pos inFile
        · exact file s mem a x isPhys inFile
      · rw [List.forall_mem_cons] at outsideAll
        rw [others a x isPhys outsideAll.2, bytes a x isPhys]
        exact if_neg outsideAll.1

end CloudOS.Elf
