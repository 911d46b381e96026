import CloudOS.PhysMem.Order
import CloudOS.Paging.Update

/-!
Which frame a new page is given decides whether the page can be mapped.

The kernel reaches the first gibibyte only. A frame above it is refused and put back,
to be handed out next again, so that only the first of the free frames counts.
-/

namespace CloudOS.Paging

open Lib.Radix (node set fill)
open Lib.Store (Memory)
open CloudOS.PhysMem (BootInfo FrameAllocator FrameCalls FrameOp MemorySummary history
  history_ordered)

/-! ### Ways that are there already -/

/-- Entries are as they were, or wider. -/
def Widens (flags : Nat) (T T' : Nat → Fin 512 → Nat) : Prop :=
  ∀ frame i, T' frame i = T frame i ∨ T' frame i = T frame i ||| opened flags

namespace Widens

variable {flags : Nat} {T T' T'' : Nat → Fin 512 → Nat}

theorem trans (widens : Widens flags T T') (widens' : Widens flags T' T'') :
    Widens flags T T'' := by
  intro frame i
  rcases widens' frame i with same' | wider'
  · rw [same']
    exact widens frame i
  · rcases widens frame i with same | wider
    · rw [wider', same]
      exact .inr rfl
    · rw [wider', wider, Nat.or_assoc, Nat.or_self]
      exact .inr rfl

/-- A widened entry leads where it led. -/
theorem child (widens : Widens flags T T') (frame : Nat) (i : Fin 512) :
    Paging.child (T' frame i) = Paging.child (T frame i) := by
  rcases widens frame i with same | wider
  · rw [same]
  · rw [wider, child_widen]

theorem entryPresent (widens : Widens flags T T') (frame : Nat) (i : Fin 512) :
    Paging.entryPresent (T' frame i) = Paging.entryPresent (T frame i) := by
  rcases widens frame i with same | wider
  · rw [same]
  · rw [wider, entryPresent_or, entryPresent_opened, Bool.or_false]

end Widens

namespace Machine

variable {source : FrameCalls}

/-- A table that is there is only opened further. -/
theorem ensureNextTable_of_child (s : Machine source) {table next : Nat} {i : Fin 512}
    (aligned : table % pageSize4k = 0) (leads : child (tables s.memory table i) = some next)
    (flags : Nat) :
    ∃ s', s.ensureNextTable table i flags = (.ok next, s') ∧ s'.frames = s.frames ∧
      Widens flags (tables s.memory) (tables s'.memory) := by
  obtain ⟨present, small, -⟩ := present_of_child leads
  have leads' : child (tables s.memory table i ||| opened flags) = some next :=
    (child_widen _ _).trans leads
  have reads := tables_of_aligned (m := s.memory) aligned i
  refine ⟨s.store table i (tables s.memory table i ||| opened flags), ?_, rfl, ?_⟩
  · have opens : tableFromEntry
        (tables s.memory table i ||| (flags &&& (writableBit ||| userBit))) = some next :=
      (present_of_child leads').2.2
    unfold ensureNextTable
    rw [← reads]
    dsimp only
    rw [present, if_pos rfl, small, if_neg Bool.false_ne_true, opens]
  · have word := Nat.or_lt_two_pow (tables_lt s.memory table i) (opened_lt flags)
    have stored : tables (setEntry s.memory table i _) = _ := tables_store aligned word
    intro frame j
    change tables (setEntry _ _ _ _) frame j = _ ∨ tables (setEntry _ _ _ _) frame j = _
    rw [stored]
    exact (entry_widen (tables s.memory) table flags i frame j).imp id fun wider => wider.2.2

/-- A page whose tables are all there can be mapped to any frame that can be reached. -/
theorem mapPageInnerWithFlags_of_node (boot : BootTables) (s : Machine source)
    {virt phys flags p1 : Nat} (owner : PageOwner) (virtAligned : isPageAligned virt = true)
    (isFrame : IsFrame phys) (inRange : inMappableVirtualRange virt flags = true)
    (reaches : node child (tables s.memory) boot.p4 [p4Index virt, p3Index virt, p2Index virt] =
      some p1)
    (vacant : entryPresent (tables s.memory p1 (p1Index virt)) = false) :
    (s.mapPageInnerWithFlags boot virt phys flags owner).1 = .ok () := by
  simp only [node, Option.bind_eq_some_iff] at reaches
  obtain ⟨p3, leads4, p2, leads3, p1', leads2, isP1⟩ := reaches
  obtain rfl := Option.some.inj isP1
  obtain ⟨s₄, step4, -, widens4⟩ := s.ensureNextTable_of_child boot.aligned.1 leads4 flags
  have leads3' := (widens4.child p3 (p3Index virt)).trans leads3
  obtain ⟨s₃, step3, -, widens3⟩ :=
    s₄.ensureNextTable_of_child (isFrame_of_child leads4).aligned leads3' flags
  have leads2' := ((widens4.trans widens3).child p2 (p2Index virt)).trans leads2
  have alignedP2 := (isFrame_of_child leads3).aligned
  have small := (present_of_child leads2').2.1
  obtain ⟨s₂, step2, -, widens2⟩ := s₃.ensureNextTable_of_child alignedP2 leads2' flags
  have vacant' := (((widens4.trans widens3).trans widens2).entryPresent p1' (p1Index virt)).trans
    vacant
  rw [tables_of_aligned alignedP2] at small
  rw [tables_of_aligned (isFrame_of_child leads2).aligned] at vacant'
  unfold mapPageInnerWithFlags
  rw [virtAligned, isFrame.isPageAligned, inRange, isFrame.identityReachable, step4]
  dsimp only
  rw [step3]
  dsimp only
  rw [small, step2]
  dsimp only
  rw [vacant']
  rfl

end Machine

/-! ### Pages that wait for a frame -/

/-- A page of the boot tables that only lacks a frame: its address is valid, its tables
are there, and none of the tables is a free frame. -/
structure Awaits (boot : BootTables) (m : Memory) (free : List Nat) (virt flags : Nat) : Prop where
  aligned : isPageAligned virt = true
  inRange : inMappableVirtualRange virt flags = true
  unmapped : (translate boot m virt).mapped = false
  placed : (node child (tables m) boot.p4 [p4Index virt, p3Index virt, p2Index virt]).isSome = true
  apart : ∀ frame, Reached (tables m) boot.p4 frame → frame ∉ free

/-- Where the tables of an unmapped page are, its entry is absent. -/
theorem entryPresent_of_unmapped {boot : BootTables} {m : Memory} {virt p1 : Nat}
    (unmapped : (translate boot m virt).mapped = false)
    (reaches : node child (tables m) boot.p4 [p4Index virt, p3Index virt, p2Index virt] =
      some p1) :
    entryPresent (tables m p1 (p1Index virt)) = false := by
  simp only [node, Option.bind_eq_some_iff] at reaches
  obtain ⟨p3, leads4, p2, leads3, p1', leads2, isP1⟩ := reaches
  obtain rfl := Option.some.inj isP1
  obtain ⟨present4, -, to3⟩ := present_of_child leads4
  obtain ⟨present3, -, to2⟩ := present_of_child leads3
  obtain ⟨present2, small2, to1⟩ := present_of_child leads2
  rw [tables_of_aligned boot.aligned.1] at present4 to3
  rw [tables_of_aligned (isFrame_of_child leads4).aligned] at present3 to2
  rw [tables_of_aligned (isFrame_of_child leads3).aligned] at present2 small2 to1
  rw [tables_of_aligned (isFrame_of_child leads2).aligned]
  unfold translate at unmapped
  dsimp only at unmapped
  rw [present4, to3] at unmapped
  dsimp only at unmapped
  rw [present3, to2] at unmapped
  dsimp only at unmapped
  rw [present2, small2, to1] at unmapped
  dsimp only at unmapped
  cases present1 : entryPresent (entry m p1' (p1Index virt)) with
  | false => rfl
  | true =>
      rw [present1] at unmapped
      cases unmapped

/-! ### The first free frame -/

/-- The machine with the allocator of physical memory. -/
abbrev PlainMachine (info : BootInfo) : Type := Machine (FrameAllocator.calls info)

/-- The machine after a history of allocations and frees. -/
def PlainMachine.after {info : BootInfo} (s : PlainMachine info) (ops : List FrameOp) :
    PlainMachine info :=
  { s with frames := (history info ops).allocator }

namespace Awaits

variable {info : BootInfo} {boot : BootTables} {s : PlainMachine info} {virt flags frame : Nat}

/-- A page gets the first free frame if that can be reached. -/
theorem mapNewPageWithFlags (awaits : Awaits boot s.memory s.frames.supply virt flags)
    (ordered : s.frames.Ordered) (isFirst : s.frames.supply.head? = some frame)
    (reachable : frame < bootIdentityMapBytes) (owner : PageOwner) :
    (s.mapNewPageWithFlags boot virt flags owner).1 = .ok frame := by
  have inSupply := List.mem_of_mem_head? isFirst
  have isFrame : IsFrame frame := ⟨ordered.supply_aligned inSupply, reachable⟩
  have unreached : ¬ Reached (tables s.memory) boot.p4 frame :=
    fun reached => awaits.apart frame reached inSupply
  obtain ⟨p1, reaches⟩ := Option.isSome_iff_exists.mp awaits.placed
  have vacant := entryPresent_of_unmapped awaits.unmapped reaches
  have takes : (s.allocateFrame).1 = some frame := (ordered.allocateFrame info).1.trans isFirst
  unfold Machine.mapNewPageWithFlags
  rw [awaits.aligned, awaits.inRange, awaits.unmapped]
  cases allocates : s.allocateFrame with
  | mk answer s₁ =>
  rw [allocates] at takes
  obtain rfl : answer = some frame := takes
  have memory : s₁.memory = s.memory := by
    have := congrArg (·.2.memory) allocates
    exact this.symm
  have cleared : tables (s₁.clear frame).memory = fill (tables s.memory) frame 0 := by
    rw [← memory]
    exact tables_clear isFrame.aligned
  have reaches' : node child (tables (s₁.clear frame).memory) boot.p4
      [p4Index virt, p3Index virt, p2Index virt] = some p1 := by
    rw [cleared, node_fill unreached (by simp), reaches]
  have vacant' : entryPresent (tables (s₁.clear frame).memory p1 (p1Index virt)) = false := by
    rw [cleared, fill_reached unreached (by simp) reaches, vacant]
  have maps := (s₁.clear frame).mapPageInnerWithFlags_of_node boot owner awaits.aligned isFrame
    awaits.inRange reaches' vacant'
  cases inner : (s₁.clear frame).mapPageInnerWithFlags boot virt frame flags owner with
  | mk result s₂ =>
  rw [inner] at maps
  obtain rfl : result = .ok () := maps
  dsimp only
  rw [isFrame.identityReachable, inner]
  rfl

end Awaits

/-- `allocate_zeroed_frame` looks at the first free frame only. -/
theorem allocateZeroedFrame_eq {info : BootInfo} {s : PlainMachine info}
    (ordered : s.frames.Ordered) : (s.allocateZeroedFrame).1 =
      match s.frames.supply.head? with
      | none => .error .outOfFrames
      | some frame =>
          if frame < bootIdentityMapBytes then .ok frame else .error .physicalNotIdentityMapped := by
  have takes : (s.allocateFrame).1 = s.frames.supply.head? := (ordered.allocateFrame info).1
  unfold Machine.allocateZeroedFrame
  cases allocates : s.allocateFrame with
  | mk answer s₁ =>
  rw [allocates] at takes
  rw [← takes]
  cases answer with
  | none => rfl
  | some frame =>
      dsimp only
      by_cases reachable : frame < bootIdentityMapBytes
      · rw [if_pos reachable, identityReachable, decide_eq_true reachable]
        rfl
      · rw [if_neg reachable, identityReachable, decide_eq_false reachable]
        rfl

/-- A free frame below the first gibibyte suffices for new tables and new pages. -/
def Unblocked {info : BootInfo} (boot : BootTables) (s : PlainMachine info) : Prop :=
  (∃ frame ∈ s.frames.supply, frame < bootIdentityMapBytes) →
    (∃ frame, (s.allocateZeroedFrame).1 = .ok frame) ∧
      ∀ virt flags owner, Awaits boot s.memory s.frames.supply virt flags →
        (s.mapNewPageWithFlags boot virt flags owner).1 ≠ .error .physicalNotIdentityMapped

/-- After any history on any memory map, frames that cannot be reached block those that
can exactly when one of them is handed out first. -/
theorem unblocked_iff (info : BootInfo) (ops : List FrameOp) (boot : BootTables)
    (s : PlainMachine info) :
    Unblocked boot (s.after ops) ↔
      ((∃ frame ∈ (s.after ops).frames.supply, frame < bootIdentityMapBytes) →
        ∃ frame, (s.after ops).frames.supply.head? = some frame ∧ frame < bootIdentityMapBytes) := by
  have ordered : (s.after ops).frames.Ordered := history_ordered info ops
  generalize s.after ops = s at ordered
  have zeroed := allocateZeroedFrame_eq ordered
  constructor
  · intro unblocked low
    obtain ⟨⟨frame, succeeds⟩, -⟩ := unblocked low
    rw [zeroed] at succeeds
    cases isFirst : s.frames.supply.head? with
    | none =>
        rw [isFirst] at succeeds
        cases succeeds
    | some first =>
        rw [isFirst] at succeeds
        dsimp only at succeeds
        by_cases reachable : first < bootIdentityMapBytes
        · exact ⟨first, rfl, reachable⟩
        · rw [if_neg reachable] at succeeds
          cases succeeds
  · intro lowFirst low
    obtain ⟨first, isFirst, reachable⟩ := lowFirst low
    constructor
    · rw [zeroed, isFirst]
      exact ⟨first, if_pos reachable⟩
    · intro virt flags owner awaits
      rw [awaits.mapNewPageWithFlags ordered isFirst reachable]
      simp

/-- A memory map that lists a frame above the first gibibyte before one below it. -/
def highFirstMap : BootInfo where
  kernelStart := 0x100000
  kernelEnd := 0x200000
  address := 0
  totalSize := 0
  highestModuleEnd := 0
  memory := [⟨bootIdentityMapBytes, 0x1000, 1⟩, ⟨0x200000, 0x1000, 1⟩].foldl
    MemorySummary.addRegion {}

/-- Empty memory, from which nothing was handed out yet. -/
def highFirstMachine : PlainMachine highFirstMap :=
  ⟨fun _ => 0, FrameAllocator.new, true, .new, {}⟩

theorem unblocked_fails_highFirst : ¬ ∀ (info : BootInfo) (ops : List FrameOp)
    (boot : BootTables) (s : PlainMachine info), Unblocked boot (s.after ops) := by
  intro unblocked
  have lowIsFree : 0x200000 ∈ (highFirstMachine.after []).frames.supply := by decide +kernel
  have fails : ((highFirstMachine.after []).allocateZeroedFrame).1 =
      .error .physicalNotIdentityMapped := by decide +kernel
  obtain ⟨⟨frame, succeeds⟩, -⟩ :=
    unblocked highFirstMap [] ⟨0x101000, 0x102000, 0x103000, by decide, by decide, by decide⟩
      highFirstMachine ⟨0x200000, lowIsFree, by decide⟩
  rw [fails] at succeeds
  cases succeeds

end CloudOS.Paging
