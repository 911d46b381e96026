import CloudOS.Elf.Image

/-!
The two loaders of `src/elf.rs`: `load_image`, which maps an image in the boot
tables, and `create_process_image`, which maps it in an address space of its own.

Addresses of a validated plan are far below `u64::MAX`, so that sums of them are
sums of natural numbers here. The array `mapped` with its count is a list.
-/

namespace CloudOS.Elf

open Lib.Store (Memory writeBytes)
open Lib.Word (satAdd)
open CloudOS.PhysMem (FrameSource)
open CloudOS.Paging (BootTables Machine AddressSpace TranslateResult UserPagePermissions pageSize4k
  userElfStackPage userElfStackTop)

structure LoadedImage where
  entryPoint : Nat
  imageStart : Nat
  imageEnd : Nat
  stackTop : Nat
  loadSegments : Nat
  mappedPages : Nat
  writablePages : Nat
  executablePages : Nat
deriving DecidableEq, Repr

structure ProcessImage where
  addressSpace : AddressSpace
  entryPoint : Nat
  stackTop : Nat
  mappedPages : Nat
  tableFrames : Nat
  firstUserFrame : Nat
deriving DecidableEq, Repr

/-- The pages that the loop from `page_start` to `page_end` visits. -/
def SegmentPlan.pageStarts (s : SegmentPlan) : List Nat :=
  List.range' s.pageStart ((s.pageEnd - s.pageStart) / pageSize4k) pageSize4k

/-- Every page of the plan with its permissions, in the order of both loaders. -/
def ImagePlan.targets (plan : ImagePlan) : List (Nat × UserPagePermissions) :=
  plan.segments.flatMap fun segment => segment.pageStarts.map (·, segment.permissions)

/-! ### Copying -/

/-- The loop of the two copies, which differ in the translation they use. Every
round copies a byte at least, so `fuel` for each byte is enough. -/
def copyChunks (translate : Memory → Nat → TranslateResult) (image : List UInt8)
    (segment : SegmentPlan) : (fuel copied : Nat) → Memory → Except LoadError Unit × Memory
  | 0, _, m => (.ok (), m)
  | fuel + 1, copied, m =>
      if copied < segment.fileSize then
        let virtualAddress := segment.virtualAddress + copied
        let translation := translate m virtualAddress
        if !translation.mapped || !translation.userAccessible then (.error .mappingLost, m)
        else
          let pageOffset := virtualAddress &&& (pageSize4k - 1)
          let available := pageSize4k - pageOffset
          let chunk := min available (segment.fileSize - copied)
          let sourceOffset := segment.fileOffset + copied
          copyChunks translate image segment fuel (copied + chunk)
            (writeBytes m translation.phys ((image.drop sourceOffset).take chunk))
      else (.ok (), m)

def copySegment (boot : BootTables) (image : List UInt8) (segment : SegmentPlan) (m : Memory) :
    Except LoadError Unit × Memory :=
  copyChunks (Paging.translate boot) image segment segment.fileSize 0 m

def copySegmentToAddressSpace (space : AddressSpace) (image : List UInt8) (segment : SegmentPlan)
    (m : Memory) : Except LoadError Unit × Memory :=
  copyChunks space.translate image segment segment.fileSize 0 m

/-- The loop over the segments, which ends at the first error. -/
def copySegments (copy : SegmentPlan → Memory → Except LoadError Unit × Memory) :
    List SegmentPlan → Memory → Except LoadError Unit × Memory
  | [], m => (.ok (), m)
  | segment :: rest, m =>
      match copy segment m with
      | (.error error, m) => (.error error, m)
      | (.ok (), m) => copySegments copy rest m

section Loaders

variable {source : FrameSource}

/-! ### Loading into the boot tables -/

/-- The pages mapped so far, with the counts of two kinds of them. -/
structure Mapped where
  pages : List Nat
  writablePages : Nat
  executablePages : Nat
deriving DecidableEq, Repr

def rollbackMappings (boot : BootTables) (s : Machine source) (mapped : List Nat) :
    Machine source :=
  mapped.reverse.foldl (fun s page =>
    match s.unmapPage boot page with
    | (.ok frame, s) => (s.freeFrame frame).2
    | (.error _, s) => s) s

/-- The loop that maps the pages of the segments. -/
def mapTargets (boot : BootTables) : List (Nat × UserPagePermissions) → Mapped → Machine source →
    Except LoadError Mapped × Machine source
  | [], mapped, s => (.ok mapped, s)
  | (page, permissions) :: rest, mapped, s =>
      if (Paging.translate boot s.memory page).mapped then
        (.error .targetPageAlreadyMapped, rollbackMappings boot s mapped.pages)
      else
        match s.mapNewUserPage boot page permissions with
        | (.error error, s) =>
            (.error (.pageMappingFailed error), rollbackMappings boot s mapped.pages)
        | (.ok _, s) =>
            mapTargets boot rest
              { pages := mapped.pages ++ [page]
                writablePages :=
                  if permissions.writable then satAdd mapped.writablePages 1
                  else mapped.writablePages
                executablePages :=
                  if permissions.executable then satAdd mapped.executablePages 1
                  else mapped.executablePages } s

/-- The stack follows the segments. -/
def mapStack (boot : BootTables) (mapped : Mapped) (s : Machine source) :
    Except LoadError Mapped × Machine source :=
  if (Paging.translate boot s.memory userElfStackPage).mapped then
    (.error .targetPageAlreadyMapped, rollbackMappings boot s mapped.pages)
  else
    match s.mapNewUserPage boot userElfStackPage .readWrite with
    | (.error error, s) =>
        (.error (.stackMappingFailed error), rollbackMappings boot s mapped.pages)
    | (.ok _, s) =>
        (.ok { mapped with
          pages := mapped.pages ++ [userElfStackPage]
          writablePages := satAdd mapped.writablePages 1 }, s)

/-- `load_image` after the validation. -/
def loadPlan (boot : BootTables) (s : Machine source) (image : List UInt8) (plan : ImagePlan) :
    Except LoadError LoadedImage × Machine source :=
  match mapTargets boot plan.targets ⟨[], 0, 0⟩ s with
  | (.error error, s) => (.error error, s)
  | (.ok mapped, s) =>
      match mapStack boot mapped s with
      | (.error error, s) => (.error error, s)
      | (.ok mapped, s) =>
          match copySegments (copySegment boot image) plan.segments s.memory with
          | (.error error, memory) =>
              (.error error, rollbackMappings boot { s with memory } mapped.pages)
          | (.ok (), memory) =>
              (.ok
                { entryPoint := plan.entryPoint
                  imageStart := plan.imageStart
                  imageEnd := plan.imageEnd
                  stackTop := userElfStackTop
                  loadSegments := plan.segments.length
                  mappedPages := mapped.pages.length
                  writablePages := mapped.writablePages
                  executablePages := mapped.executablePages }, { s with memory })

def loadImage (boot : BootTables) (s : Machine source) (image : List UInt8) :
    Except Fault LoadedImage × Machine source :=
  match validateImage image with
  | .error fault => (.error fault, s)
  | .ok plan =>
      match loadPlan boot s image plan with
      | (.error error, s) => (.error (.load error), s)
      | (.ok loaded, s) => (.ok loaded, s)

/-! ### Loading into an address space -/

/-- The loop that maps the pages of the segments, then the stack. -/
def mapUserPages (space : AddressSpace) (s : Machine source) :
    List (Nat × UserPagePermissions) → Except LoadError Unit × AddressSpace × Machine source
  | [] => (.ok (), space, s)
  | (page, permissions) :: rest =>
      match space.mapUserPage s page permissions with
      | (.error error, space, s) => (.error (.addressSpaceFailed error), space, s)
      | (.ok _, space, s) => mapUserPages space s rest

/-- The closure `setup` of `create_process_image`. -/
def fillSpace (space : AddressSpace) (s : Machine source) (image : List UInt8) (plan : ImagePlan) :
    Except LoadError Unit × AddressSpace × Machine source :=
  match mapUserPages space s (plan.targets ++ [(userElfStackPage, .readWrite)]) with
  | (.error error, space, s) => (.error error, space, s)
  | (.ok (), space, s) =>
      match copySegments (copySegmentToAddressSpace space image) plan.segments s.memory with
      | (.error error, memory) => (.error error, space, { s with memory })
      | (.ok (), memory) =>
          let s := { s with memory }
          let audit := space.audit s.memory
          if !audit.validRoot || audit.userPages != space.mappedPages
              || audit.writableExecutablePages != 0 || !audit.stackGuardIntact then
            (.error .mappingLost, space, s)
          else (.ok (), space, s)

/-- `create_process_image` after the validation. `activeCr3` is the root that the
processor uses. -/
def createPlan (boot : BootTables) (s : Machine source) (activeCr3 : Nat) (image : List UInt8)
    (plan : ImagePlan) : Except LoadError ProcessImage × Machine source :=
  match AddressSpace.create boot s with
  | (.error error, s) => (.error (.addressSpaceFailed error), s)
  | (.ok space, s) =>
      match fillSpace space s image plan with
      | (.error error, space, s) => (.error error, (space.destroy s activeCr3).2.2)
      | (.ok (), space, s) =>
          (.ok
            { addressSpace := space
              entryPoint := plan.entryPoint
              stackTop := userElfStackTop
              mappedPages := space.mappedPages
              tableFrames := space.tableFrames.length
              firstUserFrame := space.firstUserFrame }, s)

/-- `file` is what the initramfs has as `/bin/init`. -/
def createProcessImage (boot : BootTables) (s : Machine source) (activeCr3 : Nat)
    (file : Option (List UInt8)) : Except Fault ProcessImage × Machine source :=
  match file with
  | none => (.error (.load .initProgramMissing), s)
  | some image =>
      match validateImage image with
      | .error fault => (.error fault, s)
      | .ok plan =>
          match createPlan boot s activeCr3 image plan with
          | (.error error, s) => (.error (.load error), s)
          | (.ok process, s) => (.ok process, s)

end Loaders

end CloudOS.Elf
