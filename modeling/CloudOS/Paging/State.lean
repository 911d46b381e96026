import CloudOS.Lib.Scan
import CloudOS.Lib.Store
import CloudOS.PhysMem.Source

/-!
The page tables of `src/paging.rs`: entries, the two walks, the mapper of the
boot tables and private address spaces.

Tables live in physical memory, which the kernel reaches at the same addresses.
The allocator of frames is a parameter; what the translation caches of the
processor hold is not represented. Arrays with a count are lists of the counted
entries.
-/

namespace CloudOS.Paging

open Lib.Scan (first)
open Lib.Store (Memory readU64 writeU64)
open Lib.Word (satAdd)
open CloudOS.PhysMem (FrameCalls)

abbrev pageSize4k : Nat := 4096
abbrev hugePageSize : Nat := 2 * 1024 * 1024
abbrev bootIdentityMapBytes : Nat := 1024 * 1024 * 1024
abbrev kernelVirtualBase : Nat := 0xffff800000000000
abbrev kernelVirtualEnd : Nat := kernelVirtualBase + 1024 * 1024 * 1024
abbrev kernelHeapGuardLow : Nat := kernelVirtualBase + 0x1000000
abbrev kernelHeapBase : Nat := kernelHeapGuardLow + pageSize4k
abbrev kernelHeapGuardHigh : Nat := kernelHeapBase + 64 * 1024
abbrev userSpaceBase : Nat := bootIdentityMapBytes
abbrev userSpaceEnd : Nat := userSpaceBase + 16 * 1024 * 1024
abbrev userElfBase : Nat := userSpaceBase + 0x100000
abbrev userElfEnd : Nat := userElfBase + 0x100000
abbrev userElfStackGuard : Nat := userElfEnd
abbrev userElfStackPage : Nat := userElfStackGuard + pageSize4k
abbrev userElfStackTop : Nat := userElfStackPage + pageSize4k
abbrev maxTrackedMappings : Nat := 128
abbrev maxProcessUserPages : Nat := 65
abbrev maxProcessTableFrames : Nat := 16

/-- There is a first entry in a table. -/
instance firstEntry : NeZero (512 : Nat) := ⟨by decide⟩

/-! ### Entries -/

abbrev presentBit : Nat := 1 <<< 0
abbrev writableBit : Nat := 1 <<< 1
abbrev userBit : Nat := 1 <<< 2
abbrev hugePageBit : Nat := 1 <<< 7
abbrev noExecuteBit : Nat := 1 <<< 63
abbrev defaultPageFlags : Nat := presentBit ||| writableBit
abbrev userDataPageFlags : Nat := defaultPageFlags ||| userBit ||| noExecuteBit
abbrev entryAddrMask : Nat := 0x000ffffffffff000
abbrev hugeEntryAddrMask : Nat := 0x000fffffffe00000

def entryPresent (entry : Nat) : Bool := entry &&& presentBit != 0
def entryHuge (entry : Nat) : Bool := entry &&& hugePageBit != 0
def entryUser (entry : Nat) : Bool := entry &&& userBit != 0
def entryWritable (entry : Nat) : Bool := entry &&& writableBit != 0
def entryNoExecute (entry : Nat) : Bool := entry &&& noExecuteBit != 0
def entryAddr (entry : Nat) : Nat := entry &&& entryAddrMask
def hugeEntryAddr (entry : Nat) : Nat := entry &&& hugeEntryAddrMask

def identityReachable (phys : Nat) : Bool := decide (phys < bootIdentityMapBytes)

def isPageAligned (value : Nat) : Bool := value &&& (pageSize4k - 1) == 0

def inManagedVirtualRange (virt : Nat) : Bool :=
  decide (kernelVirtualBase ≤ virt) && decide (virt < kernelVirtualEnd)

def inUserVirtualRange (virt : Nat) : Bool :=
  decide (userSpaceBase ≤ virt) && decide (virt < userSpaceEnd)

def inPage (address pageStart : Nat) : Bool :=
  decide (pageStart ≤ address) && decide (address < satAdd pageStart pageSize4k)

def isGuardPage (virt : Nat) : Bool :=
  inPage virt kernelHeapGuardLow || inPage virt kernelHeapGuardHigh

def inMappableVirtualRange (virt flags : Nat) : Bool :=
  if flags &&& userBit != 0 then inUserVirtualRange virt
  else inManagedVirtualRange virt && !isGuardPage virt

/-! ### Tables -/

/-- The nine bits of an address that select the entry of one level. -/
def tableIndex (virt shift : Nat) : Fin 512 :=
  ⟨virt >>> shift &&& 0x1ff, Nat.lt_succ_of_le Nat.and_le_right⟩

def p4Index (virt : Nat) : Fin 512 := tableIndex virt 39
def p3Index (virt : Nat) : Fin 512 := tableIndex virt 30
def p2Index (virt : Nat) : Fin 512 := tableIndex virt 21
def p1Index (virt : Nat) : Fin 512 := tableIndex virt 12

def entry (m : Memory) (table : Nat) (index : Fin 512) : Nat := readU64 m (table + 8 * index)

def setEntry (m : Memory) (table : Nat) (index : Fin 512) (value : Nat) : Memory :=
  writeU64 m (table + 8 * index) value

def zeroFrame (m : Memory) (phys : Nat) : Memory := Lib.Store.zero m phys pageSize4k

/-- `destination.copy_from_slice(source)` for two tables. -/
def copyTable (m : Memory) (destination source : Nat) : Memory :=
  Lib.Store.copy m destination source pageSize4k

def tableFromEntry (entry : Nat) : Option Nat :=
  if identityReachable (entryAddr entry) then some (entryAddr entry) else none

def tableFromFrame (frame : Nat) : Option Nat :=
  if !identityReachable frame || !isPageAligned frame then none else some frame

/-! ### Translation -/

structure TranslateResult where
  virt : Nat
  phys : Nat
  mapped : Bool
  hugePage : Bool
  userAccessible : Bool
  writable : Bool
  executable : Bool
  pageSize : Nat
deriving DecidableEq, Repr

def unmapped (virt : Nat) : TranslateResult := ⟨virt, 0, false, false, false, false, false, 0⟩

/-- The statically placed tables that `_start` builds. -/
structure BootTables where
  p4 : Nat
  p3 : Nat
  p2 : Nat
  aligned : p4 % pageSize4k = 0 ∧ p3 % pageSize4k = 0 ∧ p2 % pageSize4k = 0
  reachable : p4 < bootIdentityMapBytes ∧ p3 < bootIdentityMapBytes ∧ p2 < bootIdentityMapBytes
  distinct : p4 ≠ p3 ∧ p4 ≠ p2 ∧ p3 ≠ p2

/-- Translation through the boot tables. -/
def translate (boot : BootTables) (m : Memory) (virt : Nat) : TranslateResult :=
  let p4Entry := entry m boot.p4 (p4Index virt)
  if !entryPresent p4Entry then unmapped virt
  else
    let userAccessible := entryUser p4Entry
    let writable := entryWritable p4Entry
    let executable := !entryNoExecute p4Entry
    match tableFromEntry p4Entry with
    | none => unmapped virt
    | some p3 =>
        let p3Entry := entry m p3 (p3Index virt)
        if !entryPresent p3Entry then unmapped virt
        else
          let userAccessible := userAccessible && entryUser p3Entry
          let writable := writable && entryWritable p3Entry
          let executable := executable && !entryNoExecute p3Entry
          match tableFromEntry p3Entry with
          | none => unmapped virt
          | some p2 =>
              let p2Entry := entry m p2 (p2Index virt)
              if !entryPresent p2Entry then unmapped virt
              else
                let userAccessible := userAccessible && entryUser p2Entry
                let writable := writable && entryWritable p2Entry
                let executable := executable && !entryNoExecute p2Entry
                if entryHuge p2Entry then
                  { virt
                    phys := satAdd (hugeEntryAddr p2Entry) (virt &&& (hugePageSize - 1))
                    mapped := true
                    hugePage := true
                    userAccessible := userAccessible && entryUser p2Entry
                    writable := writable && entryWritable p2Entry
                    executable := executable && !entryNoExecute p2Entry
                    pageSize := hugePageSize }
                else
                  match tableFromEntry p2Entry with
                  | none => unmapped virt
                  | some p1 =>
                      let p1Entry := entry m p1 (p1Index virt)
                      if !entryPresent p1Entry then unmapped virt
                      else
                        { virt
                          phys := satAdd (entryAddr p1Entry) (virt &&& (pageSize4k - 1))
                          mapped := true
                          hugePage := false
                          userAccessible := userAccessible && entryUser p1Entry
                          writable := writable && entryWritable p1Entry
                          executable := executable && !entryNoExecute p1Entry
                          pageSize := pageSize4k }

/-- Translation through the tables of an address space. -/
def translateFromRoot (m : Memory) (rootFrame virt : Nat) : TranslateResult :=
  match tableFromFrame rootFrame with
  | none => unmapped virt
  | some p4 =>
      let p4Entry := entry m p4 (p4Index virt)
      if !entryPresent p4Entry then unmapped virt
      else
        let userAccessible := entryUser p4Entry
        let writable := entryWritable p4Entry
        let executable := !entryNoExecute p4Entry
        match tableFromEntry p4Entry with
        | none => unmapped virt
        | some p3 =>
            let p3Entry := entry m p3 (p3Index virt)
            if !entryPresent p3Entry then unmapped virt
            else
              let userAccessible := userAccessible && entryUser p3Entry
              let writable := writable && entryWritable p3Entry
              let executable := executable && !entryNoExecute p3Entry
              match tableFromEntry p3Entry with
              | none => unmapped virt
              | some p2 =>
                  let p2Entry := entry m p2 (p2Index virt)
                  if !entryPresent p2Entry then unmapped virt
                  else
                    let userAccessible := userAccessible && entryUser p2Entry
                    let writable := writable && entryWritable p2Entry
                    let executable := executable && !entryNoExecute p2Entry
                    if entryHuge p2Entry then
                      { virt
                        phys := satAdd (hugeEntryAddr p2Entry) (virt &&& (hugePageSize - 1))
                        mapped := true
                        hugePage := true
                        userAccessible
                        writable
                        executable
                        pageSize := hugePageSize }
                    else
                      match tableFromEntry p2Entry with
                      | none => unmapped virt
                      | some p1 =>
                          let p1Entry := entry m p1 (p1Index virt)
                          if !entryPresent p1Entry then unmapped virt
                          else
                            { virt
                              phys := satAdd (entryAddr p1Entry) (virt &&& (pageSize4k - 1))
                              mapped := true
                              hugePage := false
                              userAccessible := userAccessible && entryUser p1Entry
                              writable := writable && entryWritable p1Entry
                              executable := executable && !entryNoExecute p1Entry
                              pageSize := pageSize4k }

/-! ### Permissions, owners and errors -/

structure UserPagePermissions where
  writable : Bool
  executable : Bool
deriving DecidableEq, Repr

namespace UserPagePermissions

def readExecute : UserPagePermissions := ⟨false, true⟩
def readWrite : UserPagePermissions := ⟨true, false⟩

def flags (permissions : UserPagePermissions) : Nat :=
  let flags := presentBit ||| userBit
  let flags := if permissions.writable then flags ||| writableBit else flags
  if !permissions.executable then flags ||| noExecuteBit else flags

end UserPagePermissions

inductive PageOwner where
  | kernel
  | heap
  | user
  | test
deriving DecidableEq, Repr

def PageOwner.defaultFlags : PageOwner → Nat
  | user => userDataPageFlags
  | kernel | heap | test => defaultPageFlags

inductive MapError where
  | virtualUnaligned
  | physicalUnaligned
  | outsideManagedRange
  | physicalNotIdentityMapped
  | alreadyMapped
  | hugePageConflict
  | outOfFrames
deriving DecidableEq, Repr

inductive UnmapError where
  | virtualUnaligned
  | outsideManagedRange
  | notMapped
  | hugePageConflict
  | pageTableNotReachable
deriving DecidableEq, Repr

inductive AddressSpaceError where
  | notInitialized
  | outOfFrames
  | physicalNotIdentityMapped
  | tableCapacityExceeded
  | pageCapacityExceeded
  | virtualUnaligned
  | outsideUserRange
  | alreadyMapped
  | missingPageTable
  | activeAddressSpace
deriving DecidableEq, Repr

/-! ### The state -/

structure MappingRecord where
  virt : Nat
  phys : Nat
  flags : Nat
  owner : PageOwner
  active : Bool
deriving DecidableEq, Repr

def MappingRecord.empty : MappingRecord := ⟨0, 0, 0, .kernel, false⟩

structure MapperState where
  initialized : Bool
  mappedPages : Nat
  unmappedPages : Nat
  pageTableFrames : Nat
  guardPages : Nat
  records : Fin maxTrackedMappings → MappingRecord
  trackingOverflows : Nat
  trackingMisses : Nat

namespace MapperState

def new : MapperState := ⟨false, 0, 0, 0, 0, fun _ => MappingRecord.empty, 0, 0⟩

def recordMapping (s : MapperState) (virt phys flags : Nat) (owner : PageOwner) : MapperState :=
  match first fun i => (s.records i).active && (s.records i).virt == virt with
  | some i =>
      { s with records := Function.update s.records i { s.records i with phys, flags, owner } }
  | none =>
      match first fun i => !(s.records i).active with
      | some i => { s with records := Function.update s.records i ⟨virt, phys, flags, owner, true⟩ }
      | none => { s with trackingOverflows := satAdd s.trackingOverflows 1 }

def forgetMapping (s : MapperState) (virt : Nat) : MapperState :=
  match first fun i => (s.records i).active && (s.records i).virt == virt with
  | some i => { s with records := Function.update s.records i MappingRecord.empty }
  | none => { s with trackingMisses := satAdd s.trackingMisses 1 }

end MapperState

/-- The counters of created and destroyed address spaces. -/
structure AddressSpaceStats where
  created : Nat := 0
  destroyed : Nat := 0
  active : Nat := 0
  userFramesFreed : Nat := 0
  tableFramesFreed : Nat := 0
  cleanupFailures : Nat := 0
  lastCreatedRoot : Nat := 0
  lastDestroyedRoot : Nat := 0
deriving DecidableEq, Repr

/-- Physical memory and what the kernel knows about it. -/
structure Machine (source : FrameCalls) where
  memory : Memory
  frames : source.State
  initialized : Bool
  mapper : MapperState
  stats : AddressSpaceStats

namespace Machine

variable {source : FrameCalls}

def allocateFrame (s : Machine source) : Option Nat × Machine source :=
  match source.allocateFrame s.frames with
  | (frame, frames) => (frame, { s with frames })

def freeFrame (s : Machine source) (frame : Nat) : Bool × Machine source :=
  match source.freeFrame s.frames frame with
  | (freed, frames) => (freed, { s with frames })

def store (s : Machine source) (table : Nat) (index : Fin 512) (value : Nat) : Machine source :=
  { s with memory := setEntry s.memory table index value }

def clear (s : Machine source) (phys : Nat) : Machine source :=
  { s with memory := zeroFrame s.memory phys }

/-! ### Mapping in the boot tables -/

def ensureNextTable (s : Machine source) (table : Nat) (index : Fin 512) (flags : Nat) :
    Except MapError Nat × Machine source :=
  let value := entry s.memory table index
  if entryPresent value then
    if entryHuge value then (.error .hugePageConflict, s)
    else
      let value := value ||| (flags &&& (writableBit ||| userBit))
      match tableFromEntry value with
      | none => (.error .physicalNotIdentityMapped, s.store table index value)
      | some next => (.ok next, s.store table index value)
  else
    match s.allocateFrame with
    | (none, s) => (.error .outOfFrames, s)
    | (some frame, s) =>
        if !identityReachable frame then (.error .physicalNotIdentityMapped, (s.freeFrame frame).2)
        else
          let value := frame ||| presentBit ||| (flags &&& (writableBit ||| userBit))
          let s := (s.clear frame).store table index value
          let s := { s with mapper := { s.mapper with
            pageTableFrames := satAdd s.mapper.pageTableFrames 1 } }
          match tableFromEntry value with
          | none => (.error .physicalNotIdentityMapped, s)
          | some next => (.ok next, s)

def mapPageInnerWithFlags (boot : BootTables) (s : Machine source) (virt phys flags : Nat)
    (owner : PageOwner) : Except MapError Unit × Machine source :=
  if !isPageAligned virt then (.error .virtualUnaligned, s)
  else if !isPageAligned phys then (.error .physicalUnaligned, s)
  else if !inMappableVirtualRange virt flags then (.error .outsideManagedRange, s)
  else if !identityReachable phys then (.error .physicalNotIdentityMapped, s)
  else
    match s.ensureNextTable boot.p4 (p4Index virt) flags with
    | (.error error, s) => (.error error, s)
    | (.ok p3, s) =>
        match s.ensureNextTable p3 (p3Index virt) flags with
        | (.error error, s) => (.error error, s)
        | (.ok p2, s) =>
            if entryHuge (entry s.memory p2 (p2Index virt)) then (.error .hugePageConflict, s)
            else
              match s.ensureNextTable p2 (p2Index virt) flags with
              | (.error error, s) => (.error error, s)
              | (.ok p1, s) =>
                  if entryPresent (entry s.memory p1 (p1Index virt)) then (.error .alreadyMapped, s)
                  else
                    let s := s.store p1 (p1Index virt) (phys ||| flags)
                    let mapper := { s.mapper with mappedPages := satAdd s.mapper.mappedPages 1 }
                    (.ok (), { s with mapper := mapper.recordMapping virt phys flags owner })

def mapNewPageWithFlags (boot : BootTables) (s : Machine source) (virt flags : Nat)
    (owner : PageOwner) : Except MapError Nat × Machine source :=
  if !isPageAligned virt then (.error .virtualUnaligned, s)
  else if !inMappableVirtualRange virt flags then (.error .outsideManagedRange, s)
  else if (translate boot s.memory virt).mapped then (.error .alreadyMapped, s)
  else
    match s.allocateFrame with
    | (none, s) => (.error .outOfFrames, s)
    | (some phys, s) =>
        if !identityReachable phys then (.error .physicalNotIdentityMapped, (s.freeFrame phys).2)
        else
          match (s.clear phys).mapPageInnerWithFlags boot virt phys flags owner with
          | (.error error, s) => (.error error, (s.freeFrame phys).2)
          | (.ok (), s) => (.ok phys, s)

def mapNewPageOwned (boot : BootTables) (s : Machine source) (virt : Nat) (owner : PageOwner) :
    Except MapError Nat × Machine source :=
  s.mapNewPageWithFlags boot virt owner.defaultFlags owner

def mapNewUserPage (boot : BootTables) (s : Machine source) (virt : Nat)
    (permissions : UserPagePermissions) : Except MapError Nat × Machine source :=
  s.mapNewPageWithFlags boot virt permissions.flags .user

def mapPage (boot : BootTables) (s : Machine source) (virt phys : Nat) :
    Except MapError Unit × Machine source :=
  s.mapPageInnerWithFlags boot virt phys PageOwner.kernel.defaultFlags .kernel

def mapUserPageWithPermissions (boot : BootTables) (s : Machine source) (virt phys : Nat)
    (permissions : UserPagePermissions) : Except MapError Unit × Machine source :=
  s.mapPageInnerWithFlags boot virt phys permissions.flags .user

def unmapPage (boot : BootTables) (s : Machine source) (virt : Nat) :
    Except UnmapError Nat × Machine source :=
  if !isPageAligned virt then (.error .virtualUnaligned, s)
  else if !inManagedVirtualRange virt && !inUserVirtualRange virt then
    (.error .outsideManagedRange, s)
  else
    let p4Entry := entry s.memory boot.p4 (p4Index virt)
    if !entryPresent p4Entry then (.error .notMapped, s)
    else
      match tableFromEntry p4Entry with
      | none => (.error .pageTableNotReachable, s)
      | some p3 =>
          let p3Entry := entry s.memory p3 (p3Index virt)
          if !entryPresent p3Entry then (.error .notMapped, s)
          else
            match tableFromEntry p3Entry with
            | none => (.error .pageTableNotReachable, s)
            | some p2 =>
                let p2Entry := entry s.memory p2 (p2Index virt)
                if entryHuge p2Entry then (.error .hugePageConflict, s)
                else if !entryPresent p2Entry then (.error .notMapped, s)
                else
                  match tableFromEntry p2Entry with
                  | none => (.error .pageTableNotReachable, s)
                  | some p1 =>
                      let p1Entry := entry s.memory p1 (p1Index virt)
                      if !entryPresent p1Entry then (.error .notMapped, s)
                      else
                        let s := s.store p1 (p1Index virt) 0
                        let mapper := { s.mapper with
                          unmappedPages := satAdd s.mapper.unmappedPages 1 }
                        (.ok (entryAddr p1Entry),
                          { s with mapper := mapper.forgetMapping virt })

def allocateZeroedFrame (s : Machine source) : Except AddressSpaceError Nat × Machine source :=
  match s.allocateFrame with
  | (none, s) => (.error .outOfFrames, s)
  | (some frame, s) =>
      if !identityReachable frame then (.error .physicalNotIdentityMapped, (s.freeFrame frame).2)
      else (.ok frame, s.clear frame)

end Machine

/-! ### Address spaces -/

/-- A page of a process: an entry of the three parallel arrays. -/
structure UserPage where
  frame : Nat
  virt : Nat
  permissions : UserPagePermissions
deriving DecidableEq, Repr

structure AddressSpace where
  rootFrame : Nat
  tableFrames : List Nat
  pages : List UserPage
  active : Bool
deriving DecidableEq, Repr

structure AddressSpaceAudit where
  validRoot : Bool
  mappedPages : Nat
  userPages : Nat
  writablePages : Nat
  executablePages : Nat
  writableExecutablePages : Nat
  stackGuardIntact : Bool
deriving DecidableEq, Repr

structure CleanupReport where
  userFramesFreed : Nat
  tableFramesFreed : Nat
  complete : Bool
deriving DecidableEq, Repr

namespace AddressSpace

variable {source : FrameCalls}

def empty : AddressSpace := ⟨0, [], [], false⟩

def mappedPages (space : AddressSpace) : Nat := space.pages.length

def firstUserFrame (space : AddressSpace) : Nat := ((space.pages.map UserPage.frame).head?).getD 0

def allocateTableFrame (space : AddressSpace) (s : Machine source) :
    Except AddressSpaceError Nat × AddressSpace × Machine source :=
  if maxProcessTableFrames ≤ space.tableFrames.length then (.error .tableCapacityExceeded, space, s)
  else
    match s.allocateZeroedFrame with
    | (.error error, s) => (.error error, space, s)
    | (.ok frame, s) => (.ok frame, { space with tableFrames := space.tableFrames ++ [frame] }, s)

/-- Free frames one by one: how many were taken back, and whether all were. -/
def freeAll (s : Machine source) : List Nat → Nat × Bool × Machine source
  | [] => (0, true, s)
  | frame :: rest =>
      match s.freeFrame frame with
      | (freed, s) =>
          let (count, complete, s) := freeAll s rest
          (if freed then count + 1 else count, freed && complete, s)

/-- The tables of a new space, in the order in which they are made: the copies of
the boot tables, with a table of its own for the user region. -/
def setup (boot : BootTables) (s : Machine source) :
    Except AddressSpaceError Unit × AddressSpace × Machine source :=
  match empty.allocateTableFrame s with
  | (.error error, space, s) => (.error error, space, s)
  | (.ok root, space, s) =>
      let space := { space with rootFrame := root }
      match space.allocateTableFrame s with
      | (.error error, space, s) => (.error error, space, s)
      | (.ok lowP3, space, s) =>
          match space.allocateTableFrame s with
          | (.error error, space, s) => (.error error, space, s)
          | (.ok userP2, space, s) =>
              match tableFromFrame root with
              | none => (.error .physicalNotIdentityMapped, space, s)
              | some destinationP4 =>
                  let s := { s with memory := copyTable s.memory destinationP4 boot.p4 }
                  match tableFromEntry (entry s.memory boot.p4 0) with
                  | none => (.error .missingPageTable, space, s)
                  | some sourceLowP3 =>
                      match tableFromFrame lowP3 with
                      | none => (.error .physicalNotIdentityMapped, space, s)
                      | some destinationLowP3 =>
                          let s := { s with
                            memory := copyTable s.memory destinationLowP3 sourceLowP3 }
                          let s := s.store destinationP4 0
                            (lowP3 ||| presentBit ||| writableBit ||| userBit)
                          let s := s.store destinationLowP3 (p3Index userSpaceBase)
                            (userP2 ||| presentBit ||| writableBit ||| userBit)
                          (.ok (), space, s)

def create (boot : BootTables) (s : Machine source) :
    Except AddressSpaceError AddressSpace × Machine source :=
  if !s.initialized then (.error .notInitialized, s)
  else
    match setup boot s with
    | (.error error, space, s) =>
        -- `release_partial_tables`
        (.error error, (freeAll s space.tableFrames.reverse).2.2)
    | (.ok (), space, s) =>
        (.ok { space with active := true }, { s with stats := { s.stats with
          created := s.stats.created + 1
          active := s.stats.active + 1
          lastCreatedRoot := space.rootFrame } })

def translate (space : AddressSpace) (m : Memory) (virt : Nat) : TranslateResult :=
  if !space.active || space.rootFrame == 0 then unmapped virt
  else translateFromRoot m space.rootFrame virt

/-- The last steps of `map_user_page`, once the table of the page is known. -/
def mapInTable (space : AddressSpace) (s : Machine source) (p1 virt : Nat)
    (permissions : UserPagePermissions) :
    Except AddressSpaceError Nat × AddressSpace × Machine source :=
  if entryPresent (entry s.memory p1 (p1Index virt)) then (.error .alreadyMapped, space, s)
  else
    match s.allocateZeroedFrame with
    | (.error error, s) => (.error error, space, s)
    | (.ok frame, s) =>
        (.ok frame, { space with pages := space.pages ++ [⟨frame, virt, permissions⟩] },
          s.store p1 (p1Index virt) (frame ||| permissions.flags))

def mapUserPage (space : AddressSpace) (s : Machine source) (virt : Nat)
    (permissions : UserPagePermissions) :
    Except AddressSpaceError Nat × AddressSpace × Machine source :=
  if !space.active || space.rootFrame == 0 then (.error .notInitialized, space, s)
  else if !isPageAligned virt then (.error .virtualUnaligned, space, s)
  else if !inUserVirtualRange virt then (.error .outsideUserRange, space, s)
  else if maxProcessUserPages ≤ space.pages.length then (.error .pageCapacityExceeded, space, s)
  else if (space.translate s.memory virt).mapped then (.error .alreadyMapped, space, s)
  else
    match tableFromFrame space.rootFrame with
    | none => (.error .physicalNotIdentityMapped, space, s)
    | some p4 =>
        match tableFromEntry (entry s.memory p4 (p4Index virt)) with
        | none => (.error .missingPageTable, space, s)
        | some p3 =>
            match tableFromEntry (entry s.memory p3 (p3Index virt)) with
            | none => (.error .missingPageTable, space, s)
            | some p2 =>
                if entryPresent (entry s.memory p2 (p2Index virt)) then
                  match tableFromEntry (entry s.memory p2 (p2Index virt)) with
                  | none => (.error .missingPageTable, space, s)
                  | some p1 => space.mapInTable s p1 virt permissions
                else
                  match space.allocateTableFrame s with
                  | (.error error, space, s) => (.error error, space, s)
                  | (.ok p1Frame, space, s) =>
                      let s := s.store p2 (p2Index virt)
                        (p1Frame ||| presentBit ||| writableBit ||| userBit)
                      match tableFromEntry (entry s.memory p2 (p2Index virt)) with
                      | none => (.error .missingPageTable, space, s)
                      | some p1 => space.mapInTable s p1 virt permissions

/-- Whether `audit` counts the page as a proper user page. -/
def auditsPage (space : AddressSpace) (m : Memory) (page : UserPage) : Bool :=
  let translation := space.translate m page.virt
  translation.mapped && translation.phys == page.frame && translation.userAccessible
    && translation.writable == page.permissions.writable
    && translation.executable == page.permissions.executable

def audit (space : AddressSpace) (m : Memory) : AddressSpaceAudit where
  validRoot := space.active && space.rootFrame != 0
  mappedPages := space.mappedPages
  userPages := space.pages.countP (space.auditsPage m)
  writablePages := space.pages.countP fun page => (space.translate m page.virt).writable
  executablePages := space.pages.countP fun page => (space.translate m page.virt).executable
  writableExecutablePages := space.pages.countP fun page =>
    (space.translate m page.virt).writable && (space.translate m page.virt).executable
  stackGuardIntact := !(space.translate m userElfStackGuard).mapped

def destroy (space : AddressSpace) (s : Machine source) (activeCr3 : Nat) :
    Except AddressSpaceError CleanupReport × AddressSpace × Machine source :=
  if !space.active then (.ok ⟨0, 0, true⟩, space, s)
  else if activeCr3 = space.rootFrame then (.error .activeAddressSpace, space, s)
  else
    let (userFramesFreed, userComplete, s) := freeAll s (space.pages.map UserPage.frame)
    let (tableFramesFreed, tableComplete, s) := freeAll s space.tableFrames.reverse
    let complete := userComplete && tableComplete
    (.ok ⟨userFramesFreed, tableFramesFreed, complete⟩, empty, { s with stats := { s.stats with
      destroyed := s.stats.destroyed + 1
      active := s.stats.active - 1
      userFramesFreed := s.stats.userFramesFreed + userFramesFreed
      tableFramesFreed := s.stats.tableFramesFreed + tableFramesFreed
      lastDestroyedRoot := space.rootFrame
      cleanupFailures :=
        if complete then s.stats.cleanupFailures else s.stats.cleanupFailures + 1 } })

end AddressSpace

end CloudOS.Paging
