import CloudOS.Elf.Image
import CloudOS.Lib.Verdict

/-!
Which images `validate_image` accepts, and what it plans for them.
-/

namespace CloudOS.Elf

open Lib.Verdict (Decides)
open Lib.Word (maxWord checkedAdd and_not_low_mask isPowerOfTwo isPowerOfTwo_iff)
open CloudOS.Paging (pageSize4k userElfBase userElfEnd userElfStackGuard userElfStackPage)

/-- A slice of bytes; no slice is longer than `isize::MAX`. -/
structure Slice where
  bytes : List UInt8
  bounded : bytes.length < 2 ^ 63

/-! ### What an image says -/

structure ProgramHeader where
  kind : Nat
  flags : Nat
  fileOffset : Nat
  virtualAddress : Nat
  fileSize : Nat
  memorySize : Nat
  alignment : Nat
deriving DecidableEq, Repr

def programHeaderAt (image : List UInt8) (offset : Nat) : ProgramHeader where
  kind := field image offset 4
  flags := field image (offset + 4) 4
  fileOffset := field image (offset + 8) 8
  virtualAddress := field image (offset + 16) 8
  fileSize := field image (offset + 32) 8
  memorySize := field image (offset + 40) 8
  alignment := field image (offset + 48) 8

/-- The table of program headers. -/
def programHeaders (image : List UInt8) : List ProgramHeader :=
  (List.range (field image 56 2)).map fun index =>
    programHeaderAt image (field image 32 8 + index * programHeaderSize)

namespace ProgramHeader

def isLoad (h : ProgramHeader) : Bool := h.kind == ptLoad

/-- The header describes a segment with something in it. -/
def loads (h : ProgramHeader) : Bool := h.isLoad && h.memorySize != 0

def segment (h : ProgramHeader) : SegmentPlan where
  fileOffset := h.fileOffset
  virtualAddress := h.virtualAddress
  fileSize := h.fileSize
  memorySize := h.memorySize
  writable := h.flags &&& pfWrite != 0
  executable := h.flags &&& pfExecute != 0

/-- Address and file offset agree modulo the alignment. -/
def Congruent (h : ProgramHeader) : Prop :=
  1 < h.alignment → h.virtualAddress % h.alignment = h.fileOffset % h.alignment

/-- They agree modulo an alignment that is a power of two. -/
def Aligned (h : ProgramHeader) : Prop :=
  1 < h.alignment → h.alignment.isPowerOfTwo ∧
    h.virtualAddress % h.alignment = h.fileOffset % h.alignment

/-- The segment by itself may be loaded. -/
structure Fits (image : List UInt8) (aligned : ProgramHeader → Prop) (h : ProgramHeader) :
    Prop where
  file : h.fileOffset + h.fileSize ≤ image.length
  memory : userElfBase ≤ h.virtualAddress ∧ h.virtualAddress + h.memorySize ≤ userElfEnd
  aligned : aligned h
  readable : h.flags &&& pfRead ≠ 0
  writeXorExecute : ¬ (h.segment.writable = true ∧ h.segment.executable = true)

end ProgramHeader

/-- The segments of a list of program headers, in order. -/
def segmentsOf (headers : List ProgramHeader) : List SegmentPlan :=
  (headers.filter ProgramHeader.loads).map ProgramHeader.segment

namespace SegmentPlan

/-- The number of pages. -/
def pages (s : SegmentPlan) : Nat := (s.pageEnd - s.pageStart) / pageSize4k

/-- The segments have no page in common. -/
def Apart (s t : SegmentPlan) : Prop := s.pageEnd ≤ t.pageStart ∨ t.pageEnd ≤ s.pageStart

/-- The address is in the memory of the segment. -/
def Covers (s : SegmentPlan) (address : Nat) : Prop :=
  s.virtualAddress ≤ address ∧ address < s.memoryEnd

end SegmentPlan

/-- An ELF64 little-endian x86_64 executable with its table of program headers. -/
structure WellFormedHeader (image : List UInt8) : Prop where
  long : elfHeaderSize ≤ image.length
  magic : image.take 4 = [0x7f, 0x45, 0x4c, 0x46]
  ident : image[4]? = some 2 ∧ image[5]? = some 1 ∧ image[6]? = some 1
  type : field image 16 2 = 2
  machine : field image 18 2 = 62
  version : field image 20 4 = 1
  sizes : field image 52 2 = elfHeaderSize ∧ field image 54 2 = programHeaderSize
  count : 1 ≤ field image 56 2 ∧ field image 56 2 ≤ maxProgramHeaders
  table : field image 32 8 + field image 56 2 * programHeaderSize ≤ image.length

/-- An image that can be loaded. -/
structure Loadable (aligned : ProgramHeader → Prop) (image : List UInt8) : Prop where
  header : WellFormedHeader image
  sizes : ∀ h ∈ programHeaders image, h.isLoad = true → h.fileSize ≤ h.memorySize
  fits : ∀ h ∈ programHeaders image, h.loads = true → h.Fits image aligned
  few : (segmentsOf (programHeaders image)).length ≤ maxLoadSegments
  apart : (segmentsOf (programHeaders image)).Pairwise SegmentPlan.Apart
  pages : ((segmentsOf (programHeaders image)).map SegmentPlan.pages).sum ≤ maxLoadPages
  entry : ∃ s ∈ segmentsOf (programHeaders image), s.executable = true ∧
    s.Covers (field image 24 8)

/-- The plan of an image. -/
structure IsPlan (image : List UInt8) (plan : ImagePlan) : Prop where
  entryPoint : plan.entryPoint = field image 24 8
  segments : plan.segments = segmentsOf (programHeaders image)
  totalPages : plan.totalPages = (plan.segments.map SegmentPlan.pages).sum
  imageStart : IsLeast { a | ∃ s ∈ plan.segments, s.pageStart = a } plan.imageStart
  imageEnd : IsGreatest { a | ∃ s ∈ plan.segments, s.pageEnd = a } plan.imageEnd
  stackFree : ∀ s ∈ plan.segments, ∀ page, s.pageStart ≤ page → page < s.pageEnd →
    page ≠ userElfStackPage ∧ page ≠ userElfStackGuard

/-! ### Steps that decide -/

/-- A computation that does not panic. -/
abbrev Checks {α : Type} (P : Prop) (a : α) (x : Except Fault α) : Prop :=
  Decides (· ≠ Fault.panic) P a x

theorem checks_ok {α : Type} (a : α) : Checks True a (.ok a : Except Fault α) := .done trivial

theorem require_checks (condition : Bool) (error : LoadError) :
    Checks (condition = true) () (require condition error) := by
  unfold require
  cases condition with
  | true => exact .inl ⟨rfl, rfl⟩
  | false => exact .inr ⟨Bool.false_ne_true, .load error, by simp, rfl⟩

theorem orFail_checks {a b : Nat} (error : LoadError) :
    Checks (a + b ≤ maxWord) (a + b) (orFail (checkedAdd maxWord a b) error) := by
  unfold checkedAdd
  split
  · rename_i fits
    exact .inl ⟨fits, rfl⟩
  · rename_i overflow
    exact .inr ⟨overflow, .load error, by simp, rfl⟩

theorem add_checks {a b : Nat} (fits : a + b ≤ maxWord) : Checks True (a + b) (add a b) := by
  rw [add, if_pos fits]
  exact checks_ok _

theorem mul_checks {a b : Nat} (fits : a * b ≤ maxWord) : Checks True (a * b) (mul a b) := by
  rw [mul, if_pos fits]
  exact checks_ok _

theorem sub_checks {a b : Nat} (fits : b ≤ a) : Checks True (a - b) (sub a b) := by
  rw [sub, if_pos fits]
  exact checks_ok _

theorem read_checks (image : Slice) {offset width : Nat}
    (inside : offset + width ≤ image.bytes.length) :
    Checks True (field image.bytes offset width) (read width image.bytes offset) := by
  have bounded := image.bounded
  refine (add_checks (by simp only [maxWord]; omega)).step ?_
  rw [if_pos inside]
  exact checks_ok _

theorem byteAt_checks {image : List UInt8} {index : Nat} {byte : UInt8}
    (inside : image[index]? = some byte) : Checks True byte (byteAt image index) := by
  rw [byteAt, inside]
  exact checks_ok _

theorem slice_checks {image : List UInt8} {start stop : Nat} (ordered : start ≤ stop)
    (inside : stop ≤ image.length) :
    Checks True ((image.drop start).take (stop - start)) (slice image start stop) := by
  rw [slice, if_pos ⟨ordered, inside⟩]
  exact checks_ok _

/-! ### Pages of a segment -/

theorem alignDown_page {value : Nat} (word : value ≤ maxWord) :
    alignDown value pageSize4k = value / pageSize4k * pageSize4k := by
  have mask := and_not_low_mask (k := 12) word
  exact mask

theorem alignUp_page {value : Nat} (fits : value + (pageSize4k - 1) ≤ maxWord) :
    alignUp value pageSize4k = (value + (pageSize4k - 1)) / pageSize4k * pageSize4k := by
  rw [alignUp, checkedAdd, if_pos fits]
  exact alignDown_page fits

/-- A segment with something in it, inside the region for images. -/
structure SegmentPlan.InRegion (s : SegmentPlan) : Prop where
  nonempty : s.memorySize ≠ 0
  base : userElfBase ≤ s.virtualAddress
  stop : s.memoryEnd ≤ userElfEnd

namespace SegmentPlan.InRegion

variable {s t : SegmentPlan} (inRegion : s.InRegion)

include inRegion

theorem pageStart_eq : s.pageStart = s.virtualAddress / pageSize4k * pageSize4k := by
  have stop := inRegion.stop
  refine alignDown_page ?_
  simp only [memoryEnd, userElfEnd, userElfBase, CloudOS.Paging.userSpaceBase,
    CloudOS.Paging.bootIdentityMapBytes, maxWord] at *
  omega

theorem pageEnd_eq :
    s.pageEnd = (s.memoryEnd + (pageSize4k - 1)) / pageSize4k * pageSize4k := by
  have stop := inRegion.stop
  refine alignUp_page ?_
  simp only [userElfEnd, userElfBase, CloudOS.Paging.userSpaceBase,
    CloudOS.Paging.bootIdentityMapBytes, maxWord, pageSize4k] at *
  omega

/-- The pages of a segment lie in the region of images. -/
theorem bounds : userElfBase ≤ s.pageStart ∧ s.pageStart < s.pageEnd ∧ s.pageEnd ≤ userElfEnd ∧
    s.pageStart % pageSize4k = 0 ∧ s.pageEnd % pageSize4k = 0 ∧
    s.pageStart ≤ s.virtualAddress ∧ s.memoryEnd ≤ s.pageEnd := by
  have nonempty := inRegion.nonempty
  have base := inRegion.base
  have stop := inRegion.stop
  rw [inRegion.pageStart_eq, inRegion.pageEnd_eq]
  simp only [memoryEnd, userElfEnd, userElfBase, CloudOS.Paging.userSpaceBase,
    CloudOS.Paging.bootIdentityMapBytes, pageSize4k] at *
  omega

theorem checkedPageEnd_checks : Checks True s.pageEnd s.checkedPageEnd := by
  have stop := inRegion.stop
  refine (add_checks ?_).step (checks_ok _)
  simp only [memoryEnd, userElfEnd, userElfBase, CloudOS.Paging.userSpaceBase,
    CloudOS.Paging.bootIdentityMapBytes, maxWord] at *
  omega

end SegmentPlan.InRegion

/-! ### The loop over planned segments -/

/-- A segment is compared with every one before it. -/
theorem checkOverlap_checks {segment : SegmentPlan} (inRegion : segment.InRegion)
    {planned : List SegmentPlan} (allInRegion : ∀ s ∈ planned, s.InRegion) :
    Checks (∀ s ∈ planned, segment.Apart s) () (checkOverlap segment planned) := by
  induction planned with
  | nil => exact .done fun s mem => absurd mem List.not_mem_nil
  | cons existing rest ih =>
      have existingIn := allInRegion existing List.mem_cons_self
      have later := ih fun s mem => allInRegion s (List.mem_cons_of_mem _ mem)
      -- the segment and the first planned one are apart, so the rest decides
      have next : segment.Apart existing → Checks (∀ s ∈ existing :: rest, segment.Apart s) ()
          (checkOverlap segment rest) := by
        intro apart
        refine later.congr ?_ fun _ => rfl
        rw [List.forall_mem_cons]
        exact ⟨fun all => ⟨apart, all⟩, fun all => all.2⟩
      unfold checkOverlap
      refine existingIn.checkedPageEnd_checks.step ?_
      split
      · rename_i starts
        refine inRegion.checkedPageEnd_checks.step ?_
        refine (require_checks _ _).andThen (fun all => ?_) fun ends => next (.inl ?_)
        · rcases all existing List.mem_cons_self with before | after
          · simpa using before
          · omega
        · simpa using ends
      · rename_i starts
        exact next (.inr (by omega))

/-! ### The header -/

/-- The header is accepted exactly when it is well formed. -/
theorem checkHeader_checks (image : Slice) : Checks (WellFormedHeader image.bytes)
    (field image.bytes 24 8, field image.bytes 32 8, field image.bytes 56 2)
    (checkHeader image.bytes) := by
  have bounded := image.bounded
  unfold checkHeader
  refine (require_checks _ _).andThen (fun wf => decide_eq_true wf.long) fun long => ?_
  rw [decide_eq_true_eq] at long
  have long' : 64 ≤ image.bytes.length := long
  have reads : ∀ {offset width : Nat}, offset + width ≤ 64 →
      Checks True (field image.bytes offset width) (read width image.bytes offset) :=
    fun inside => read_checks image (by omega)
  have at4 := List.getElem?_eq_getElem (show 4 < image.bytes.length by omega)
  have at5 := List.getElem?_eq_getElem (show 5 < image.bytes.length by omega)
  have at6 := List.getElem?_eq_getElem (show 6 < image.bytes.length by omega)
  refine (slice_checks (by omega) (show 4 ≤ image.bytes.length by omega)).step ?_
  refine (require_checks _ _).andThen (fun wf => beq_iff_eq.mpr wf.magic) fun magic => ?_
  refine (byteAt_checks at4).step ?_
  refine (require_checks _ _).andThen (fun wf => ?_) fun class_ => ?_
  · exact beq_iff_eq.mpr (Option.some.inj (at4.symm.trans wf.ident.1))
  refine (byteAt_checks at5).step ?_
  refine (require_checks _ _).andThen (fun wf => ?_) fun data => ?_
  · exact beq_iff_eq.mpr (Option.some.inj (at5.symm.trans wf.ident.2.1))
  refine (byteAt_checks at6).step ?_
  refine (require_checks _ _).andThen (fun wf => ?_) fun identVersion => ?_
  · exact beq_iff_eq.mpr (Option.some.inj (at6.symm.trans wf.ident.2.2))
  refine (reads (show 16 + 2 ≤ 64 by omega)).step ?_
  refine (require_checks _ _).andThen (fun wf => beq_iff_eq.mpr wf.type) fun type => ?_
  refine (reads (show 18 + 2 ≤ 64 by omega)).step ?_
  refine (require_checks _ _).andThen (fun wf => beq_iff_eq.mpr wf.machine) fun machine => ?_
  refine (reads (show 20 + 4 ≤ 64 by omega)).step ?_
  refine (require_checks _ _).andThen (fun wf => beq_iff_eq.mpr wf.version) fun version => ?_
  refine (reads (show 52 + 2 ≤ 64 by omega)).step ?_
  refine (require_checks _ _).andThen (fun wf => beq_iff_eq.mpr wf.sizes.1) fun headerSize => ?_
  refine (reads (show 54 + 2 ≤ 64 by omega)).step ?_
  refine (require_checks _ _).andThen (fun wf => beq_iff_eq.mpr wf.sizes.2) fun entrySize => ?_
  refine (reads (show 24 + 8 ≤ 64 by omega)).step ?_
  refine (reads (show 32 + 8 ≤ 64 by omega)).step ?_
  refine (reads (show 56 + 2 ≤ 64 by omega)).step ?_
  refine (require_checks _ _).andThen (fun wf => ?_) fun count => ?_
  · have := wf.count.1
    simp only [Bool.and_eq_true, decide_eq_true_eq]
    exact ⟨by omega, wf.count.2⟩
  rw [Bool.and_eq_true, decide_eq_true_eq, decide_eq_true_eq] at count
  have fits : field image.bytes 56 2 * programHeaderSize ≤ maxWord := by
    have := count.2
    simp only [maxProgramHeaders, programHeaderSize, maxWord] at *
    omega
  rw [if_pos fits]
  refine (show Checks True _ (orFail (some _) _) from checks_ok _).step ?_
  refine (orFail_checks _).andThen (fun wf => ?_) fun _ => ?_
  · have := wf.table
    simp only [maxWord]
    omega
  refine (require_checks _ _).andThen (fun wf => decide_eq_true wf.table) fun table => ?_
  refine .done ⟨long, beq_iff_eq.mp magic, ?_, beq_iff_eq.mp type, beq_iff_eq.mp machine,
    beq_iff_eq.mp version, ⟨beq_iff_eq.mp headerSize, beq_iff_eq.mp entrySize⟩,
    ⟨Nat.one_le_iff_ne_zero.mpr count.1, count.2⟩, of_decide_eq_true table⟩
  rw [at4, at5, at6, beq_iff_eq.mp class_, beq_iff_eq.mp data, beq_iff_eq.mp identVersion]
  exact ⟨rfl, rfl, rfl⟩

/-! ### The program headers -/

/-- The plan with one more segment. -/
def push (progress : Progress) (segment : SegmentPlan) : Progress :=
  ({ progress.1 with
      imageStart := min progress.1.imageStart segment.pageStart
      imageEnd := max progress.1.imageEnd segment.pageEnd
      totalPages := progress.1.totalPages + segment.pages
      segments := progress.1.segments ++ [segment] },
    progress.2 || (segment.executable && decide (segment.virtualAddress ≤ progress.1.entryPoint)
      && decide (progress.1.entryPoint < segment.memoryEnd)))

/-- There is room for the segment in the plan. -/
structure HasRoom (plan : ImagePlan) (segment : SegmentPlan) : Prop where
  few : plan.segments.length < maxLoadSegments
  apart : ∀ s ∈ plan.segments, segment.Apart s
  pages : plan.totalPages + segment.pages ≤ maxLoadPages

/-- A segment is added exactly when there is room for it. -/
theorem addSegment_checks {progress : Progress} {segment : SegmentPlan}
    (inRegion : segment.InRegion) (allInRegion : ∀ s ∈ progress.1.segments, s.InRegion) :
    Checks (HasRoom progress.1 segment) (push progress segment) (addSegment progress segment) := by
  obtain ⟨plan, entryIsExecutable⟩ := progress
  unfold addSegment
  refine (require_checks _ _).andThen (fun room => decide_eq_true room.few) fun few => ?_
  refine (checkOverlap_checks inRegion allInRegion).andThen (fun room => room.apart) fun apart => ?_
  refine inRegion.checkedPageEnd_checks.step ?_
  refine (sub_checks (by have := inRegion.bounds; omega)).step ?_
  refine (orFail_checks _).andThen (fun room => ?_) fun _ => ?_
  · have pages := room.pages
    simp only [SegmentPlan.pages, maxLoadPages, maxWord] at *
    omega
  refine (require_checks _ _).andThen (fun room => decide_eq_true room.pages) fun pages => ?_
  exact .done ⟨of_decide_eq_true few, apart, of_decide_eq_true pages⟩

/-- What a program header does to the plan. -/
def advance (progress : Progress) (h : ProgramHeader) : Progress :=
  if h.loads then push progress h.segment else progress

/-- The checks on one program header. -/
structure Admits (image : List UInt8) (plan : ImagePlan) (h : ProgramHeader) : Prop where
  size : h.isLoad = true → h.fileSize ≤ h.memorySize
  fits : h.loads = true → h.Fits image ProgramHeader.Aligned
  room : h.loads = true → HasRoom plan h.segment

theorem ProgramHeader.Fits.inRegion {image : List UInt8} {aligned : ProgramHeader → Prop}
    {h : ProgramHeader} (fits : h.Fits image aligned) (loads : h.loads = true) :
    h.segment.InRegion := by
  refine ⟨?_, fits.memory.1, fits.memory.2⟩
  rw [ProgramHeader.loads, Bool.and_eq_true, bne_iff_ne] at loads
  exact loads.2

/-- A header of which nothing is loaded has to pass one check only. -/
theorem Admits.of_idle {image : List UInt8} {plan : ImagePlan} {h : ProgramHeader}
    (idle : h.loads = false) (size : h.isLoad = true → h.fileSize ≤ h.memorySize) :
    Admits image plan h where
  size := size
  fits loads := by
    rw [idle] at loads
    cases loads
  room loads := by
    rw [idle] at loads
    cases loads

/-- The check of the alignment looks at alignments above one. -/
theorem ProgramHeader.aligned_iff (h : ProgramHeader) :
    (!(decide (1 < h.alignment) && (!isPowerOfTwo h.alignment
      || h.virtualAddress % h.alignment != h.fileOffset % h.alignment))) = true ↔ h.Aligned := by
  rw [ProgramHeader.Aligned, ← isPowerOfTwo_iff]
  by_cases large : 1 < h.alignment
  · simp [large]
  · simp [large]

/-- No segment is both written and executed. -/
theorem ProgramHeader.writeXorExecute_iff (h : ProgramHeader) :
    (!(h.flags &&& pfWrite != 0 && h.flags &&& pfExecute != 0)) = true ↔
      ¬ (h.segment.writable = true ∧ h.segment.executable = true) := by
  rw [Bool.not_eq_true', ← Bool.and_eq_true, Bool.eq_false_iff]
  rfl

/-- A program header is accepted exactly when its segment is admitted. -/
theorem addProgramHeader_checks (image : Slice) {progress : Progress} {offset : Nat}
    (inside : offset + programHeaderSize ≤ image.bytes.length)
    (allInRegion : ∀ s ∈ progress.1.segments, s.InRegion) :
    Checks (Admits image.bytes progress.1 (programHeaderAt image.bytes offset))
      (advance progress (programHeaderAt image.bytes offset))
      (addProgramHeader image.bytes progress offset) := by
  have bounded := image.bounded
  have inside' : offset + 56 ≤ image.bytes.length := inside
  have sums : ∀ {k : Nat}, k ≤ 56 → Checks True (offset + k) (add offset k) :=
    fun small => add_checks (by simp only [maxWord]; omega)
  have reads : ∀ {k width : Nat}, k + width ≤ 56 → Checks True
      (field image.bytes (offset + k) width) (read width image.bytes (offset + k)) :=
    fun small => read_checks image (by omega)
  unfold addProgramHeader
  refine (reads (show 0 + 4 ≤ 56 by omega)).step ?_
  generalize isHeader : programHeaderAt image.bytes offset = h
  have isKind : field image.bytes (offset + 0) 4 = h.kind := by rw [← isHeader]; rfl
  rw [isKind]
  split
  · rename_i other
    have noLoad : h.isLoad = false := beq_false_of_ne other
    have loads : h.loads = false := by rw [ProgramHeader.loads, noLoad, Bool.false_and]
    rw [advance, loads, if_neg Bool.false_ne_true]
    refine .done (.of_idle loads fun isLoad => ?_)
    rw [noLoad] at isLoad
    cases isLoad
  · rename_i isLoad
    rw [not_not] at isLoad
    have isLoad : h.isLoad = true := beq_iff_eq.mpr isLoad
    refine (sums (show 4 ≤ 56 by omega)).step ?_
    refine (reads (show 4 + 4 ≤ 56 by omega)).step ?_
    refine (sums (show 8 ≤ 56 by omega)).step ?_
    refine (reads (show 8 + 8 ≤ 56 by omega)).step ?_
    refine (sums (show 16 ≤ 56 by omega)).step ?_
    refine (reads (show 16 + 8 ≤ 56 by omega)).step ?_
    refine (sums (show 32 ≤ 56 by omega)).step ?_
    refine (reads (show 32 + 8 ≤ 56 by omega)).step ?_
    refine (sums (show 40 ≤ 56 by omega)).step ?_
    refine (reads (show 40 + 8 ≤ 56 by omega)).step ?_
    refine (sums (show 48 ≤ 56 by omega)).step ?_
    refine (reads (show 48 + 8 ≤ 56 by omega)).step ?_
    have isFlags : field image.bytes (offset + 4) 4 = h.flags := by rw [← isHeader]; rfl
    have isFileOffset : field image.bytes (offset + 8) 8 = h.fileOffset := by rw [← isHeader]; rfl
    have isAddress : field image.bytes (offset + 16) 8 = h.virtualAddress := by
      rw [← isHeader]; rfl
    have isFileSize : field image.bytes (offset + 32) 8 = h.fileSize := by rw [← isHeader]; rfl
    have isMemorySize : field image.bytes (offset + 40) 8 = h.memorySize := by
      rw [← isHeader]; rfl
    have isAlignment : field image.bytes (offset + 48) 8 = h.alignment := by rw [← isHeader]; rfl
    rw [isFlags, isFileOffset, isAddress, isFileSize, isMemorySize, isAlignment]
    refine (require_checks _ _).andThen (fun admits => decide_eq_true (admits.size isLoad))
      fun size => ?_
    rw [decide_eq_true_eq] at size
    split
    · rename_i empty
      have loads : h.loads = false := by
        rw [ProgramHeader.loads, empty, bne_self_eq_false, Bool.and_false]
      rw [advance, loads, if_neg Bool.false_ne_true]
      exact .done (.of_idle loads fun _ => size)
    · rename_i nonempty
      have loads : h.loads = true := by
        rw [ProgramHeader.loads, isLoad, Bool.true_and, bne_iff_ne]
        exact nonempty
      rw [advance, loads, if_pos rfl]
      refine (orFail_checks _).andThen (fun admits => ?_) fun _ => ?_
      · have file := (admits.fits loads).file
        simp only [maxWord]
        omega
      refine (require_checks _ _).andThen
        (fun admits => decide_eq_true (admits.fits loads).file) fun file => ?_
      refine (orFail_checks _).andThen (fun admits => ?_) fun _ => ?_
      · have memory := (admits.fits loads).memory
        simp only [userElfEnd, userElfBase, CloudOS.Paging.userSpaceBase,
          CloudOS.Paging.bootIdentityMapBytes, maxWord] at *
        omega
      refine (require_checks _ _).andThen (fun admits => ?_) fun memory => ?_
      · rw [Bool.and_eq_true, decide_eq_true_eq, decide_eq_true_eq]
        exact (admits.fits loads).memory
      rw [Bool.and_eq_true, decide_eq_true_eq, decide_eq_true_eq] at memory
      refine (require_checks _ _).andThen
        (fun admits => h.aligned_iff.mpr (admits.fits loads).aligned) fun aligned => ?_
      refine (require_checks _ _).andThen
        (fun admits => bne_iff_ne.mpr (admits.fits loads).readable) fun readable => ?_
      refine (require_checks _ _).andThen
        (fun admits => h.writeXorExecute_iff.mpr (admits.fits loads).writeXorExecute)
        fun writeXorExecute => ?_
      have fits : h.Fits image.bytes ProgramHeader.Aligned :=
        ⟨of_decide_eq_true file, memory, h.aligned_iff.mp aligned, bne_iff_ne.mp readable,
          h.writeXorExecute_iff.mp writeXorExecute⟩
      refine (addSegment_checks (fits.inRegion loads) allInRegion).congr ?_ fun _ => rfl
      exact ⟨fun room => ⟨fun _ => size, fun _ => fits, fun _ => room⟩,
        fun admits => admits.room loads⟩

/-! ### The loop over program headers -/

/-- Every header passes its own checks, and the segments together pass theirs. -/
structure Acceptable (image : List UInt8) (headers : List ProgramHeader) : Prop where
  sizes : ∀ h ∈ headers, h.isLoad = true → h.fileSize ≤ h.memorySize
  fits : ∀ h ∈ headers, h.loads = true → h.Fits image ProgramHeader.Aligned
  few : (segmentsOf headers).length ≤ maxLoadSegments
  apart : (segmentsOf headers).Pairwise SegmentPlan.Apart
  pages : ((segmentsOf headers).map SegmentPlan.pages).sum ≤ maxLoadPages

/-- The plan that the headers read so far make. -/
structure Planned (entryPoint : Nat) (headers : List ProgramHeader) (progress : Progress) :
    Prop where
  isEntry : progress.1.entryPoint = entryPoint
  segments : progress.1.segments = segmentsOf headers
  totalPages : progress.1.totalPages = ((segmentsOf headers).map SegmentPlan.pages).sum
  lower : ∀ s ∈ segmentsOf headers, progress.1.imageStart ≤ s.pageStart
  least : progress.1.imageStart = maxWord ∨
    ∃ s ∈ segmentsOf headers, s.pageStart = progress.1.imageStart
  upper : ∀ s ∈ segmentsOf headers, s.pageEnd ≤ progress.1.imageEnd
  greatest : progress.1.imageEnd = 0 ∨
    ∃ s ∈ segmentsOf headers, s.pageEnd = progress.1.imageEnd
  found : progress.2 = true ↔
    ∃ s ∈ segmentsOf headers, s.executable = true ∧ s.Covers entryPoint

section Headers

variable {image : List UInt8} {entryPoint : Nat} {headers rest : List ProgramHeader}
  {h : ProgramHeader} {progress : Progress}

theorem SegmentPlan.Apart.symm {s t : SegmentPlan} (apart : s.Apart t) : t.Apart s := Or.symm apart

theorem segmentsOf_append :
    segmentsOf (headers ++ rest) = segmentsOf headers ++ segmentsOf rest := by
  rw [segmentsOf, List.filter_append, List.map_append]
  rfl

theorem segmentsOf_cons (loads : h.loads = true) :
    segmentsOf (h :: rest) = h.segment :: segmentsOf rest := by
  rw [segmentsOf, List.filter_cons_of_pos loads, List.map_cons]
  rfl

theorem segmentsOf_skip (skips : h.loads = false) :
    segmentsOf (h :: rest) = segmentsOf rest := by
  rw [segmentsOf, List.filter_cons_of_neg (by rw [skips]; exact Bool.false_ne_true)]
  rfl

theorem Acceptable.nil : Acceptable image [] where
  sizes := fun _ mem => absurd mem List.not_mem_nil
  fits := fun _ mem => absurd mem List.not_mem_nil
  few := Nat.zero_le _
  apart := List.Pairwise.nil
  pages := Nat.zero_le _

theorem Planned.start : Planned entryPoint [] (⟨entryPoint, maxWord, 0, 0, []⟩, false) where
  isEntry := rfl
  segments := rfl
  totalPages := rfl
  lower := fun _ mem => absurd mem List.not_mem_nil
  least := .inl rfl
  upper := fun _ mem => absurd mem List.not_mem_nil
  greatest := .inl rfl
  found := ⟨fun isTrue => absurd isTrue Bool.false_ne_true,
    fun ⟨_, mem, _⟩ => absurd mem List.not_mem_nil⟩

/-- If all headers are acceptable together, the next one is admitted. -/
theorem Acceptable.admits (all : Acceptable image (headers ++ h :: rest))
    (planned : Planned entryPoint headers progress) : Admits image progress.1 h := by
  have mem : h ∈ headers ++ h :: rest := List.mem_append_right _ List.mem_cons_self
  refine ⟨all.sizes h mem, all.fits h mem, fun loads => ?_⟩
  have few := all.few
  have apart := all.apart
  have pages := all.pages
  rw [segmentsOf_append, segmentsOf_cons loads] at few apart pages
  rw [List.length_append, List.length_cons] at few
  rw [List.map_append, List.map_cons, List.sum_append, List.sum_cons] at pages
  refine ⟨?_, fun s planned' => ?_, ?_⟩
  · rw [planned.segments]
    omega
  · rw [planned.segments] at planned'
    exact ((List.pairwise_append.mp apart).2.2 s planned' _ List.mem_cons_self).symm
  · rw [planned.totalPages]
    omega

/-- An admitted header keeps the headers acceptable. -/
theorem Acceptable.snoc (all : Acceptable image headers)
    (planned : Planned entryPoint headers progress) (admits : Admits image progress.1 h) :
    Acceptable image (headers ++ [h]) := by
  have sizes : ∀ g ∈ headers ++ [h], g.isLoad = true → g.fileSize ≤ g.memorySize := by
    intro g mem
    rcases List.mem_append.mp mem with old | new
    · exact all.sizes g old
    · rw [List.mem_singleton.mp new]
      exact admits.size
  have fits : ∀ g ∈ headers ++ [h], g.loads = true → g.Fits image ProgramHeader.Aligned := by
    intro g mem
    rcases List.mem_append.mp mem with old | new
    · exact all.fits g old
    · rw [List.mem_singleton.mp new]
      exact admits.fits
  cases loads : h.loads with
  | false =>
      have same : segmentsOf (headers ++ [h]) = segmentsOf headers := by
        rw [segmentsOf_append, segmentsOf_skip loads]
        exact List.append_nil _
      refine ⟨sizes, fits, ?_, ?_, ?_⟩
      · rw [same]
        exact all.few
      · rw [same]
        exact all.apart
      · rw [same]
        exact all.pages
  | true =>
      have room := admits.room loads
      have more : segmentsOf (headers ++ [h]) = segmentsOf headers ++ [h.segment] := by
        rw [segmentsOf_append, segmentsOf_cons loads]
        rfl
      refine ⟨sizes, fits, ?_, ?_, ?_⟩
      · have few := room.few
        rw [planned.segments] at few
        rw [more, List.length_append, List.length_singleton]
        omega
      · rw [more, List.pairwise_append]
        refine ⟨all.apart, List.pairwise_singleton _ _, fun s old t new => ?_⟩
        rw [List.mem_singleton.mp new]
        exact (room.apart s (by rwa [planned.segments])).symm
      · have pages := room.pages
        rw [planned.totalPages] at pages
        rw [more, List.map_append, List.sum_append]
        simpa using pages

/-- The plan after one more header. -/
theorem Planned.advance (planned : Planned entryPoint headers progress)
    (inRegion : h.loads = true → h.segment.InRegion) :
    Planned entryPoint (headers ++ [h]) (advance progress h) := by
  cases loads : h.loads with
  | false =>
      have same : segmentsOf (headers ++ [h]) = segmentsOf headers := by
        rw [segmentsOf_append, segmentsOf_skip loads]
        exact List.append_nil _
      rw [Elf.advance, loads, if_neg Bool.false_ne_true]
      refine ⟨planned.isEntry, ?_, ?_, ?_, ?_, ?_, ?_, ?_⟩
      all_goals rw [same]
      · exact planned.segments
      · exact planned.totalPages
      · exact planned.lower
      · exact planned.least
      · exact planned.upper
      · exact planned.greatest
      · exact planned.found
  | true =>
      have bounds := (inRegion loads).bounds
      have more : segmentsOf (headers ++ [h]) = segmentsOf headers ++ [h.segment] := by
        rw [segmentsOf_append, segmentsOf_cons loads]
        rfl
      rw [Elf.advance, loads, if_pos rfl]
      refine ⟨planned.isEntry, ?_, ?_, ?_, ?_, ?_, ?_, ?_⟩
      all_goals rw [more]
      · exact congrArg (· ++ [h.segment]) planned.segments
      · rw [List.map_append, List.sum_append, ← planned.totalPages]
        rfl
      · intro s mem
        rcases List.mem_append.mp mem with old | new
        · exact (min_le_left _ _).trans (planned.lower s old)
        · rw [List.mem_singleton.mp new]
          exact min_le_right _ _
      · right
        rcases min_choice progress.1.imageStart h.segment.pageStart with before | first
        · rcases planned.least with word | ⟨s, mem, eq⟩
          · refine ⟨h.segment, List.mem_append_right _ (List.mem_singleton_self _), ?_⟩
            have small : h.segment.pageStart ≤ maxWord := by
              simp only [userElfEnd, userElfBase, CloudOS.Paging.userSpaceBase,
                CloudOS.Paging.bootIdentityMapBytes, maxWord] at *
              omega
            exact (min_eq_right (word ▸ small)).symm
          · exact ⟨s, List.mem_append_left _ mem, eq.trans before.symm⟩
        · exact ⟨h.segment, List.mem_append_right _ (List.mem_singleton_self _), first.symm⟩
      · intro s mem
        rcases List.mem_append.mp mem with old | new
        · exact (planned.upper s old).trans (le_max_left _ _)
        · rw [List.mem_singleton.mp new]
          exact le_max_right _ _
      · right
        rcases max_choice progress.1.imageEnd h.segment.pageEnd with before | last
        · rcases planned.greatest with zero | ⟨s, mem, eq⟩
          · refine ⟨h.segment, List.mem_append_right _ (List.mem_singleton_self _), ?_⟩
            exact (max_eq_right (zero ▸ Nat.zero_le _)).symm
          · exact ⟨s, List.mem_append_left _ mem, eq.trans before.symm⟩
        · exact ⟨h.segment, List.mem_append_right _ (List.mem_singleton_self _), last.symm⟩
      · have here : ((h.segment.executable && decide (h.segment.virtualAddress ≤
            progress.1.entryPoint) && decide (progress.1.entryPoint < h.segment.memoryEnd)) =
            true) ↔ h.segment.executable = true ∧ h.segment.Covers entryPoint := by
          rw [Bool.and_eq_true, Bool.and_eq_true, decide_eq_true_eq, decide_eq_true_eq, and_assoc,
            planned.isEntry]
          rfl
        refine (Bool.or_eq_true _ _).to_iff.trans ((or_congr planned.found here).trans ?_)
        simp only [List.mem_append, List.mem_singleton, or_and_right, exists_or, exists_eq_left]

/-- The plan after the rest of the headers. -/
theorem Planned.foldl (planned : Planned entryPoint headers progress)
    (inRegion : ∀ h ∈ rest, h.loads = true → h.segment.InRegion) :
    Planned entryPoint (headers ++ rest) (rest.foldl Elf.advance progress) := by
  induction rest generalizing headers progress with
  | nil =>
      rw [List.append_nil]
      exact planned
  | cons h rest ih =>
      have next := ih (planned.advance (inRegion h List.mem_cons_self))
        fun g mem => inRegion g (List.mem_cons_of_mem _ mem)
      rwa [List.append_assoc, List.singleton_append] at next

theorem Planned.allInRegion (planned : Planned entryPoint headers progress)
    (all : Acceptable image headers) : ∀ s ∈ progress.1.segments, s.InRegion := by
  intro s mem
  rw [planned.segments, segmentsOf, List.mem_map] at mem
  obtain ⟨h, mem, rfl⟩ := mem
  rw [List.mem_filter] at mem
  exact (all.fits h mem.1 mem.2).inRegion mem.2

end Headers

/-- By induction over the table of program headers. -/
theorem addProgramHeaders_checks (image : Slice) (tableStart : Nat) {entryPoint : Nat} :
    ∀ (remaining index : Nat) {progress : Progress} {headers : List ProgramHeader},
      tableStart + (index + remaining) * programHeaderSize ≤ image.bytes.length →
      Planned entryPoint headers progress → Acceptable image.bytes headers →
      Checks
        (Acceptable image.bytes (headers ++ (List.range' index remaining).map fun index =>
          programHeaderAt image.bytes (tableStart + index * programHeaderSize)))
        (((List.range' index remaining).map fun index =>
          programHeaderAt image.bytes (tableStart + index * programHeaderSize)).foldl
            advance progress)
        (addProgramHeaders image.bytes tableStart index remaining progress) := by
  intro remaining
  induction remaining with
  | zero =>
      intro index progress headers _ _ all
      refine .done ?_
      rw [List.range'_zero, List.map_nil, List.append_nil]
      exact all
  | succ remaining ih =>
      intro index progress headers inside planned all
      have bounded := image.bounded
      have inside' : tableStart + index * programHeaderSize + programHeaderSize ≤
          image.bytes.length := by
        simp only [programHeaderSize] at *
        omega
      rw [List.range'_succ, List.map_cons, List.foldl_cons]
      unfold addProgramHeaders
      refine (mul_checks (by simp only [maxWord]; omega)).step ?_
      refine (add_checks (by simp only [maxWord]; omega)).step ?_
      refine (addProgramHeader_checks image inside' (planned.allInRegion all)).andThen
        (fun whole => whole.admits planned) fun admits => ?_
      have next := ih (index + 1) (by rw [Nat.add_right_comm, Nat.add_assoc]; exact inside)
        (planned.advance fun loads => (admits.fits loads).inRegion loads)
        (all.snoc planned admits)
      rwa [List.append_assoc, List.singleton_append] at next

/-! ### The verdict -/

/-- The plan made of the headers of an image. -/
def planOf (image : List UInt8) : ImagePlan :=
  ((programHeaders image).foldl advance (⟨field image 24 8, maxWord, 0, 0, []⟩, false)).1

section Verdict

variable {image : List UInt8}

theorem loadable_iff : Loadable ProgramHeader.Aligned image ↔
    WellFormedHeader image ∧ Acceptable image (programHeaders image) ∧
      ∃ s ∈ segmentsOf (programHeaders image), s.executable = true ∧ s.Covers (field image 24 8) :=
  ⟨fun l => ⟨l.header, ⟨l.sizes, l.fits, l.few, l.apart, l.pages⟩, l.entry⟩,
    fun ⟨header, all, entry⟩ =>
      ⟨header, all.sizes, all.fits, all.few, all.apart, all.pages, entry⟩⟩

theorem Acceptable.planned (all : Acceptable image (programHeaders image)) :
    Planned (field image 24 8) (programHeaders image)
      ((programHeaders image).foldl advance (⟨field image 24 8, maxWord, 0, 0, []⟩, false)) :=
  Planned.start.foldl fun h mem loads => (all.fits h mem loads).inRegion loads

/-- The region for images ends before the stack. -/
theorem SegmentPlan.InRegion.stackFree {s : SegmentPlan} (inRegion : s.InRegion) {page : Nat}
    (within : page < s.pageEnd) : page ≠ userElfStackPage ∧ page ≠ userElfStackGuard := by
  have bounds := inRegion.bounds
  simp only [userElfEnd, userElfStackPage, userElfStackGuard, userElfBase,
    CloudOS.Paging.userSpaceBase, CloudOS.Paging.bootIdentityMapBytes, pageSize4k] at *
  omega

/-- The plan of an acceptable image with a segment is as it should be. -/
theorem Acceptable.isPlan (all : Acceptable image (programHeaders image))
    (nonempty : segmentsOf (programHeaders image) ≠ []) : IsPlan image (planOf image) := by
  have planned := all.planned
  obtain ⟨first, isFirst⟩ := List.exists_mem_of_ne_nil _ nonempty
  have inRegion : ∀ s ∈ segmentsOf (programHeaders image), s.InRegion := by
    intro s mem
    exact planned.allInRegion all s (by rwa [planned.segments])
  have bounds := (inRegion first isFirst).bounds
  have segments : (planOf image).segments = segmentsOf (programHeaders image) := planned.segments
  refine ⟨planned.isEntry, segments, ?_, ?_, ?_, ?_⟩
  · rw [segments]
    exact planned.totalPages
  · rw [segments]
    refine ⟨?_, fun a ⟨s, mem, eq⟩ => eq ▸ planned.lower s mem⟩
    rcases planned.least with word | least
    · have lower := planned.lower first isFirst
      rw [word] at lower
      simp only [userElfEnd, userElfBase, CloudOS.Paging.userSpaceBase,
        CloudOS.Paging.bootIdentityMapBytes, maxWord] at *
      omega
    · exact least
  · rw [segments]
    refine ⟨?_, fun a ⟨s, mem, eq⟩ => eq ▸ planned.upper s mem⟩
    rcases planned.greatest with zero | greatest
    · have upper := planned.upper first isFirst
      omega
    · exact greatest
  · rw [segments]
    exact fun s mem page _ within => (inRegion s mem).stackFree within

end Verdict

/-- An image is accepted exactly when it is loadable, with the plan it calls for. -/
theorem validateImage_checks (image : Slice) :
    Checks (Loadable ProgramHeader.Aligned image.bytes) (planOf image.bytes)
      (validateImage image.bytes) := by
  unfold validateImage
  refine (checkHeader_checks image).andThen (fun loadable => loadable.header) fun header => ?_
  have start : Planned (field image.bytes 24 8) [] _ := Planned.start
  have loop := addProgramHeaders_checks image (field image.bytes 32 8) (field image.bytes 56 2) 0
    (by rw [Nat.zero_add]; exact header.table) start Acceptable.nil
  rw [List.nil_append, ← List.range_eq_range'] at loop
  refine loop.andThen (fun loadable => (loadable_iff.mp loadable).2.1) fun all => ?_
  have planned := Acceptable.planned all
  refine (require_checks _ _).andThen (fun loadable => ?_) fun _ => ?_
  · obtain ⟨s, mem, -⟩ := loadable.entry
    rw [decide_eq_true_eq]
    intro empty
    rw [← planned.segments, programHeaders, empty] at mem
    exact absurd mem List.not_mem_nil
  refine (require_checks _ _).andThen (fun loadable => planned.found.mpr loadable.entry)
    fun found => ?_
  exact .done (loadable_iff.mpr ⟨header, all, planned.found.mp found⟩)

/-- `validate_image` never panics, it accepts exactly the images that can be loaded,
and it plans what they say. -/
theorem validate_image_exact (image : Slice) :
    validateImage image.bytes ≠ .error .panic ∧
    ((∃ plan, validateImage image.bytes = .ok plan) ↔
      Loadable ProgramHeader.Aligned image.bytes) ∧
    ∀ plan, validateImage image.bytes = .ok plan → IsPlan image.bytes plan := by
  have checks := validateImage_checks image
  refine ⟨fun panics => checks.allowed_of_error panics rfl, checks.ok_iff, fun plan ok => ?_⟩
  obtain ⟨loadable, rfl⟩ := checks.of_ok ok
  obtain ⟨-, all, s, mem, -⟩ := loadable_iff.mp loadable
  exact all.isPlan (List.ne_nil_of_mem mem)

/-- One readable and executable segment of 120 bytes, at an address and a file offset
that agree modulo its alignment 3. -/
def alignedToThree : Slice where
  bytes :=
    [0x7f, 0x45, 0x4c, 0x46, 2, 1, 1, 0, 0, 0, 0, 0, 0, 0, 0, 0,
      2, 0, 62, 0, 1, 0, 0, 0, 0x01, 0x00, 0x10, 0x40, 0, 0, 0, 0,
      64, 0, 0, 0, 0, 0, 0, 0, 0, 0, 0, 0, 0, 0, 0, 0,
      0, 0, 0, 0, 64, 0, 56, 0, 1, 0, 0, 0, 0, 0, 0, 0,
      1, 0, 0, 0, 5, 0, 0, 0, 0, 0, 0, 0, 0, 0, 0, 0,
      0x01, 0x00, 0x10, 0x40, 0, 0, 0, 0, 0, 0, 0, 0, 0, 0, 0, 0,
      120, 0, 0, 0, 0, 0, 0, 0, 120, 0, 0, 0, 0, 0, 0, 0,
      3, 0, 0, 0, 0, 0, 0, 0]
  bounded := by decide

theorem alignedToThree_headers : programHeaders alignedToThree.bytes =
    [⟨1, 5, 0, userElfBase + 1, 120, 120, 3⟩] := by decide +kernel

theorem alignedToThree_segments : segmentsOf (programHeaders alignedToThree.bytes) =
    [⟨0, userElfBase + 1, 120, 120, false, true⟩] := by decide +kernel

/-- The alignment has to be a power of two besides. -/
theorem alignedToThree_rejected :
    Loadable ProgramHeader.Congruent alignedToThree.bytes ∧
    validateImage alignedToThree.bytes = .error (.load .segmentAlignmentInvalid) := by
  refine ⟨⟨⟨by decide +kernel, by decide +kernel, by decide +kernel, by decide +kernel,
    by decide +kernel, by decide +kernel, by decide +kernel, by decide +kernel,
    by decide +kernel⟩, ?_, ?_, ?_, ?_, ?_, ?_⟩, by decide +kernel⟩
  · rw [alignedToThree_headers]
    decide
  · rw [alignedToThree_headers, List.forall_mem_singleton]
    intro _
    exact ⟨by decide +kernel, by decide, fun _ => by decide, by decide, by decide⟩
  · rw [alignedToThree_segments]
    decide
  · rw [alignedToThree_segments]
    exact List.pairwise_singleton _ _
  · rw [alignedToThree_segments]
    decide +kernel
  · rw [alignedToThree_segments]
    refine ⟨_, List.mem_singleton_self _, rfl, ?_⟩
    exact ⟨by decide +kernel, by decide +kernel⟩

end CloudOS.Elf
