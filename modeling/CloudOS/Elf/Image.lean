import CloudOS.Paging.State

/-!
The image format and `validate_image` of `src/elf.rs`.

Indexing out of range and overflow of `+`, `-` and `*` are the outcome `panic`, so
that their absence can be proved. A slice is a list of bytes.
-/

namespace CloudOS.Elf

open Lib.Word (maxWord checkedAdd isPowerOfTwo)
open CloudOS.Paging (pageSize4k userElfBase userElfEnd UserPagePermissions MapError
  AddressSpaceError)

abbrev elfHeaderSize : Nat := 64
abbrev programHeaderSize : Nat := 56
abbrev maxProgramHeaders : Nat := 32
abbrev maxLoadSegments : Nat := 8
abbrev maxLoadPages : Nat := 64
abbrev ptLoad : Nat := 1
abbrev pfExecute : Nat := 1
abbrev pfWrite : Nat := 2
abbrev pfRead : Nat := 4

inductive LoadError where
  | alreadyLoaded
  | initProgramMissing
  | imageTooSmall
  | badMagic
  | unsupportedClass
  | unsupportedEndianness
  | unsupportedIdentVersion
  | unsupportedType
  | unsupportedMachine
  | unsupportedVersion
  | invalidHeaderSize
  | invalidProgramHeaderSize
  | invalidProgramHeaderCount
  | programHeaderTableOutsideImage
  | noLoadSegments
  | tooManyLoadSegments
  | segmentFileLargerThanMemory
  | segmentOutsideImage
  | segmentAddressOverflow
  | segmentOutsideUserRegion
  | segmentAlignmentInvalid
  | segmentMissingReadPermission
  | writableExecutableSegment
  | segmentPageOverlap
  | tooManyLoadPages
  | entryOutsideExecutableSegment
  | targetPageAlreadyMapped
  | pageMappingFailed (error : MapError)
  | stackMappingFailed (error : MapError)
  | addressSpaceFailed (error : AddressSpaceError)
  | mappingLost
deriving DecidableEq, Repr

/-- Why a computation did not return a value. -/
inductive Fault where
  | panic
  | load (error : LoadError)
deriving DecidableEq, Repr

/-! ### Arithmetic and reads -/

def add (a b : Nat) : Except Fault Nat := if a + b ≤ maxWord then .ok (a + b) else .error .panic

def sub (a b : Nat) : Except Fault Nat := if b ≤ a then .ok (a - b) else .error .panic

def mul (a b : Nat) : Except Fault Nat := if a * b ≤ maxWord then .ok (a * b) else .error .panic

/-- `ok_or` on a checked operation. -/
def orFail (value : Option Nat) (error : LoadError) : Except Fault Nat :=
  match value with
  | some value => .ok value
  | none => .error (.load error)

/-- `if !condition { return Err(error); }` -/
def require (condition : Bool) (error : LoadError) : Except Fault Unit :=
  if condition then .ok () else .error (.load error)

/-- `image[index]` -/
def byteAt (image : List UInt8) (index : Nat) : Except Fault UInt8 :=
  match image[index]? with
  | some byte => .ok byte
  | none => .error .panic

/-- `image[start..stop]` -/
def slice (image : List UInt8) (start stop : Nat) : Except Fault (List UInt8) :=
  if start ≤ stop ∧ stop ≤ image.length then .ok ((image.drop start).take (stop - start))
  else .error .panic

/-- A little-endian number. -/
def field (image : List UInt8) (offset width : Nat) : Nat :=
  Nat.ofDigits 256 (((image.drop offset).take width).map UInt8.toNat)

/-- `read_u16`, `read_u32` and `read_u64`. -/
def read (width : Nat) (image : List UInt8) (offset : Nat) : Except Fault Nat := do
  let stop ← add offset width
  if stop ≤ image.length then .ok (field image offset width)
  else .error (.load .imageTooSmall)

def readU16 : List UInt8 → Nat → Except Fault Nat := read 2
def readU32 : List UInt8 → Nat → Except Fault Nat := read 4
def readU64 : List UInt8 → Nat → Except Fault Nat := read 8

def alignDown (value alignment : Nat) : Nat := value &&& (maxWord ^^^ (alignment - 1))

def alignUp (value alignment : Nat) : Nat :=
  match checkedAdd maxWord value (alignment - 1) with
  | some aligned => alignDown aligned alignment
  | none => maxWord &&& (maxWord ^^^ (alignment - 1))

/-! ### Plans -/

structure SegmentPlan where
  fileOffset : Nat
  virtualAddress : Nat
  fileSize : Nat
  memorySize : Nat
  writable : Bool
  executable : Bool
deriving DecidableEq, Repr

namespace SegmentPlan

def pageStart (s : SegmentPlan) : Nat := alignDown s.virtualAddress pageSize4k

def memoryEnd (s : SegmentPlan) : Nat := s.virtualAddress + s.memorySize

def pageEnd (s : SegmentPlan) : Nat := alignUp s.memoryEnd pageSize4k

/-- `page_end`, with the addition of `memory_end`. -/
def checkedPageEnd (s : SegmentPlan) : Except Fault Nat := do
  let memoryEnd ← add s.virtualAddress s.memorySize
  .ok (alignUp memoryEnd pageSize4k)

def permissions (s : SegmentPlan) : UserPagePermissions := ⟨s.writable, s.executable⟩

end SegmentPlan

/-- The array of segments with its count is a list. -/
structure ImagePlan where
  entryPoint : Nat
  imageStart : Nat
  imageEnd : Nat
  totalPages : Nat
  segments : List SegmentPlan
deriving DecidableEq, Repr

/-! ### Validation -/

/-- The checks before the program headers: the entry point, and where the table of
program headers is. -/
def checkHeader (image : List UInt8) : Except Fault (Nat × Nat × Nat) := do
  require (decide (elfHeaderSize ≤ image.length)) .imageTooSmall
  require ((← slice image 0 4) == [0x7f, 0x45, 0x4c, 0x46]) .badMagic
  require ((← byteAt image 4) == 2) .unsupportedClass
  require ((← byteAt image 5) == 1) .unsupportedEndianness
  require ((← byteAt image 6) == 1) .unsupportedIdentVersion
  require ((← readU16 image 16) == 2) .unsupportedType
  require ((← readU16 image 18) == 62) .unsupportedMachine
  require ((← readU32 image 20) == 1) .unsupportedVersion
  require ((← readU16 image 52) == elfHeaderSize) .invalidHeaderSize
  require ((← readU16 image 54) == programHeaderSize) .invalidProgramHeaderSize
  let entryPoint ← readU64 image 24
  let programHeaderOffset ← readU64 image 32
  let programHeaderCount ← readU16 image 56
  require (decide (programHeaderCount ≠ 0) && decide (programHeaderCount ≤ maxProgramHeaders))
    .invalidProgramHeaderCount
  -- `checked_mul`
  let tableSize ← orFail (if programHeaderCount * programHeaderSize ≤ maxWord then
    some (programHeaderCount * programHeaderSize) else none) .programHeaderTableOutsideImage
  let tableEnd ← orFail (checkedAdd maxWord programHeaderOffset tableSize)
    .programHeaderTableOutsideImage
  require (decide (tableEnd ≤ image.length)) .programHeaderTableOutsideImage
  .ok (entryPoint, programHeaderOffset, programHeaderCount)

/-- The loop over the segments that are already planned. -/
def checkOverlap (segment : SegmentPlan) : List SegmentPlan → Except Fault Unit
  | [] => .ok ()
  | existing :: rest => do
      let existingEnd ← existing.checkedPageEnd
      if segment.pageStart < existingEnd then
        let segmentEnd ← segment.checkedPageEnd
        require (!decide (existing.pageStart < segmentEnd)) .segmentPageOverlap
        checkOverlap segment rest
      else checkOverlap segment rest

/-- A plan in the making, and whether the entry point was found in it. -/
abbrev Progress : Type := ImagePlan × Bool

/-- The last part of the loop body: a segment that passed its own checks. -/
def addSegment (progress : Progress) (segment : SegmentPlan) : Except Fault Progress := do
  let (plan, entryIsExecutable) := progress
  require (decide (plan.segments.length < maxLoadSegments)) .tooManyLoadSegments
  checkOverlap segment plan.segments
  let segmentEnd ← segment.checkedPageEnd
  let bytes ← sub segmentEnd segment.pageStart
  let totalPages ← orFail (checkedAdd maxWord plan.totalPages (bytes / pageSize4k)) .tooManyLoadPages
  require (decide (totalPages ≤ maxLoadPages)) .tooManyLoadPages
  .ok ({ plan with
      imageStart := min plan.imageStart segment.pageStart
      imageEnd := max plan.imageEnd segmentEnd
      totalPages
      segments := plan.segments ++ [segment] },
    entryIsExecutable || (segment.executable && decide (segment.virtualAddress ≤ plan.entryPoint)
      && decide (plan.entryPoint < segment.memoryEnd)))

/-- The loop body for the program header at `offset`. -/
def addProgramHeader (image : List UInt8) (progress : Progress) (offset : Nat) :
    Except Fault Progress := do
  if (← readU32 image offset) ≠ ptLoad then .ok progress
  else
    let flags ← readU32 image (← add offset 4)
    let fileOffset ← readU64 image (← add offset 8)
    let virtualAddress ← readU64 image (← add offset 16)
    let fileSize ← readU64 image (← add offset 32)
    let memorySize ← readU64 image (← add offset 40)
    let alignment ← readU64 image (← add offset 48)
    require (decide (fileSize ≤ memorySize)) .segmentFileLargerThanMemory
    if memorySize = 0 then .ok progress
    else
      let fileEnd ← orFail (checkedAdd maxWord fileOffset fileSize) .segmentOutsideImage
      require (decide (fileEnd ≤ image.length)) .segmentOutsideImage
      let memoryEnd ← orFail (checkedAdd maxWord virtualAddress memorySize) .segmentAddressOverflow
      require (decide (userElfBase ≤ virtualAddress) && decide (memoryEnd ≤ userElfEnd))
        .segmentOutsideUserRegion
      require (!(decide (1 < alignment) && (!isPowerOfTwo alignment
        || virtualAddress % alignment != fileOffset % alignment))) .segmentAlignmentInvalid
      require (flags &&& pfRead != 0) .segmentMissingReadPermission
      require (!(flags &&& pfWrite != 0 && flags &&& pfExecute != 0)) .writableExecutableSegment
      addSegment progress ⟨fileOffset, virtualAddress, fileSize, memorySize,
        flags &&& pfWrite != 0, flags &&& pfExecute != 0⟩

/-- The loop over the program headers from `index` on. -/
def addProgramHeaders (image : List UInt8) (tableStart : Nat) :
    Nat → Nat → Progress → Except Fault Progress
  | _, 0, progress => .ok progress
  | index, remaining + 1, progress => do
      let offset ← add tableStart (← mul index programHeaderSize)
      let progress ← addProgramHeader image progress offset
      addProgramHeaders image tableStart (index + 1) remaining progress

def validateImage (image : List UInt8) : Except Fault ImagePlan := do
  let (entryPoint, tableStart, count) ← checkHeader image
  let (plan, entryIsExecutable) ←
    addProgramHeaders image tableStart 0 count (⟨entryPoint, maxWord, 0, 0, []⟩, false)
  require (decide (plan.segments ≠ [])) .noLoadSegments
  require entryIsExecutable .entryOutsideExecutableSegment
  .ok plan

end CloudOS.Elf
