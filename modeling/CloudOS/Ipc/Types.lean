import CloudOS.Lib.Word
import CloudOS.Lib.RingBuffer

/-!
The data model of `src/ipc.rs`: rights masks, capabilities, messages, endpoints
and the scans over the endpoint table.

A fixed-size array `[T; N]` is a function `Fin N → T`, a `u64` or `usize` is a
`Nat`, and the `u8` of a rights mask or a payload is a `UInt8`. An iterator
chain ending in `position` or `find` is `Fin.find?`, which returns the first
index in array order.
-/

namespace CloudOS.Ipc

open Lib.RingBuffer (cell contents)

abbrev maxEndpoints : Nat := 8
abbrev queueDepth : Nat := 8
abbrev maxMessageBytes : Nat := 64
abbrev maxCapabilitiesPerEndpoint : Nat := 8
abbrev maxCapabilityLineageDepth : Nat := 16
abbrev capabilitySlotBits : Nat := 8
abbrev capabilitySlotMask : Nat := (1 <<< capabilitySlotBits) - 1

/-- There is a first slot of a queue, and a first endpoint and capability. -/
instance firstSlot : NeZero queueDepth := ⟨by decide⟩

/-! ### Rights -/

structure CapabilityRights where
  bits : UInt8
deriving DecidableEq, Repr

namespace CapabilityRights

def send : CapabilityRights := ⟨(1 : UInt8) <<< 0⟩
def receive : CapabilityRights := ⟨(1 : UInt8) <<< 1⟩
def cancel : CapabilityRights := ⟨(1 : UInt8) <<< 2⟩
def delegate : CapabilityRights := ⟨(1 : UInt8) <<< 3⟩
def sendReceive : CapabilityRights := ⟨send.bits ||| receive.bits⟩
def all : CapabilityRights := ⟨sendReceive.bits ||| cancel.bits ||| delegate.bits⟩

def valid (self : CapabilityRights) : Bool :=
  self.bits != 0 && self.bits &&& ~~~all.bits == 0

def contains (self required : CapabilityRights) : Bool :=
  self.bits &&& required.bits == required.bits

def fromBits (bits : UInt8) : Option CapabilityRights :=
  let rights : CapabilityRights := ⟨bits⟩
  if rights.valid then some rights else none

theorem contains_iff {self required : CapabilityRights} :
    self.contains required = true ↔ self.bits &&& required.bits = required.bits := by
  simp [contains]

/-- Containment of rights masks is transitive, so attenuation composes. -/
theorem contains_trans {a b c : CapabilityRights} (hab : a.contains b = true)
    (hbc : b.contains c = true) : a.contains c = true := by
  rw [contains_iff] at hab hbc ⊢
  calc a.bits &&& c.bits = a.bits &&& (b.bits &&& c.bits) := by rw [hbc]
    _ = (a.bits &&& b.bits) &&& c.bits := (UInt8.and_assoc ..).symm
    _ = c.bits := by rw [hab, hbc]

theorem contains_self (a : CapabilityRights) : a.contains a = true := by
  simp [contains]

end CapabilityRights

inductive IpcError where
  | notInitialized
  | invalidTask
  | endpointCapacity
  | endpointMissing
  | messageTooLarge
  | queueFull
  | queueEmpty
  | bufferTooSmall
  | blockFailed
  | wakeFailed
  | capabilityCapacity
  | invalidCapability
  | staleCapability
  | permissionDenied
  | invalidRights
  | timeout
  | cancelled
  | notWaiting
  | rightsEscalation
  | lineageDepthExceeded
deriving DecidableEq, Repr

/-! ### Handles -/

/-- `encode_handle`: the shift drops the bits above the word. -/
def encodeHandle (slot generation : Nat) : Nat :=
  (generation <<< capabilitySlotBits) % 2 ^ 64 ||| (slot + 1)

def decodeHandle (handle : Nat) : Option (Fin maxCapabilitiesPerEndpoint × Nat) :=
  let encodedSlot := handle &&& capabilitySlotMask
  let generation := handle >>> capabilitySlotBits
  if encodedSlot = 0 ∨ generation = 0 then none
  else
    let slot := encodedSlot - 1
    if h : slot < maxCapabilitiesPerEndpoint then some (⟨slot, h⟩, generation) else none

/-! ### Capabilities, messages, endpoints -/

structure Capability where
  target : Nat
  generation : Nat
  parentGeneration : Nat
  lineageDepth : Nat
  rights : CapabilityRights
  active : Bool
deriving DecidableEq, Repr

def Capability.empty : Capability where
  target := 0
  generation := 0
  parentGeneration := 0
  lineageDepth := 0
  rights := ⟨0⟩
  active := false

structure Message where
  sender : Nat
  length : Nat
  sequence : Nat
  capabilityHandle : Nat
  capabilityRights : UInt8
  bytes : Fin maxMessageBytes → UInt8

def Message.empty : Message where
  sender := 0
  length := 0
  sequence := 0
  capabilityHandle := 0
  capabilityRights := 0
  bytes := fun _ => 0

/-- `message.bytes[..bytes.len()].copy_from_slice(bytes)` on a zeroed buffer. -/
def copyFromSlice (bytes : List UInt8) : Fin maxMessageBytes → UInt8 :=
  fun k => bytes.getD k 0

/-- The used part of a message buffer, `message.bytes[..message.length]`. -/
def Message.payload (message : Message) : List UInt8 :=
  (List.ofFn message.bytes).take message.length

structure Endpoint where
  owner : Nat
  queue : Fin queueDepth → Message
  head : Nat
  len : Nat
  waiting : Bool
  capabilities : Fin maxCapabilitiesPerEndpoint → Capability

namespace Endpoint

def empty : Endpoint where
  owner := 0
  queue := fun _ => Message.empty
  head := 0
  len := 0
  waiting := false
  capabilities := fun _ => Capability.empty

/-- `none` is the `false` return, which leaves the endpoint as it was. -/
def push (self : Endpoint) (message : Message) : Option Endpoint :=
  if self.len ≥ queueDepth then none
  else
    let tail := cell queueDepth (self.head + self.len)
    some { self with queue := Function.update self.queue tail message, len := self.len + 1 }

def front (self : Endpoint) : Option Message :=
  if self.len = 0 then none else some (self.queue (cell queueDepth self.head))

def pop (self : Endpoint) : Option (Message × Endpoint) :=
  match self.front with
  | none => none
  | some message =>
      let len := self.len - 1
      some (message, { self with
        queue := Function.update self.queue (cell queueDepth self.head) Message.empty
        head := if len = 0 then 0 else (self.head + 1) % queueDepth
        len := len })

/-- The queued messages, oldest first. -/
def messages (self : Endpoint) : List Message := contents self.queue self.head self.len

end Endpoint

/-! ### The endpoint table -/

/-- `[Endpoint; MAX_ENDPOINTS]`. -/
abbrev Endpoints := Fin maxEndpoints → Endpoint

/-- A capability slot of the whole table: endpoint index and slot index. -/
abbrev Position := Fin maxEndpoints × Fin maxCapabilitiesPerEndpoint

namespace Endpoints

def capability (e : Endpoints) (p : Position) : Capability := (e p.1).capabilities p.2

/-- Overwrite one capability slot. -/
def setCapability (e : Endpoints) (p : Position) (c : Capability) : Endpoints :=
  Function.update e p.1
    { e p.1 with capabilities := Function.update (e p.1).capabilities p.2 c }

-- The three scans are irreducible: unification would otherwise run them on open tables.

/-- `endpoints.iter().position(|endpoint| endpoint.owner == task_id)`. -/
@[irreducible] def find (e : Endpoints) (taskId : Nat) : Option (Fin maxEndpoints) :=
  Fin.find? fun i => (e i).owner == taskId

/-- `endpoints.iter().flat_map(capabilities).find(p)`, as the position found. -/
@[irreducible] def findPosition (e : Endpoints) (p : Capability → Bool) : Option Position :=
  Fin.findSome? fun i => (Fin.find? fun slot => p ((e i).capabilities slot)).map fun slot => (i, slot)

/-- `capabilities.iter().position(|capability| !capability.active)`. -/
@[irreducible] def freeSlot (e : Endpoints) (i : Fin maxEndpoints) :
    Option (Fin maxCapabilitiesPerEndpoint) :=
  Fin.find? fun slot => !((e i).capabilities slot).active

def findCapabilityGeneration (e : Endpoints) (generation : Nat) : Option Capability :=
  (e.findPosition fun c => c.active && c.generation == generation).map e.capability

def findChildGeneration (e : Endpoints) (parentGeneration : Nat) : Option Nat :=
  (e.findPosition fun c => c.active && c.parentGeneration == parentGeneration).map
    fun p => (e.capability p).generation

def findTargetGeneration (e : Endpoints) (target : Nat) : Option Nat :=
  (e.findPosition fun c => c.active && c.target == target).map
    fun p => (e.capability p).generation

/-! ### What the scans return -/

theorem find_eq_some {e : Endpoints} {taskId : Nat} {i : Fin maxEndpoints}
    (found : e.find taskId = some i) : (e i).owner = taskId := by
  rw [find] at found
  simpa using (Fin.find?_eq_some_iff.mp found).1

theorem find_eq_none {e : Endpoints} {taskId : Nat} :
    e.find taskId = none ↔ ∀ i, (e i).owner ≠ taskId := by
  unfold find
  refine Fin.find?_eq_none_iff.trans (forall_congr' fun i => ?_)
  simp

theorem freeSlot_eq_some {e : Endpoints} {i : Fin maxEndpoints}
    {slot : Fin maxCapabilitiesPerEndpoint} (found : e.freeSlot i = some slot) :
    (e.capability (i, slot)).active = false := by
  rw [freeSlot] at found
  simpa [capability] using (Fin.find?_eq_some_iff.mp found).1

theorem findPosition_eq_some {e : Endpoints} {p : Capability → Bool} {q : Position}
    (found : e.findPosition p = some q) : p (e.capability q) = true := by
  unfold findPosition at found
  obtain ⟨i, hi, -⟩ := Fin.findSome?_eq_some_iff.mp found
  obtain ⟨slot, hslot, rfl⟩ := Option.map_eq_some_iff.mp hi
  exact (Fin.find?_eq_some_iff.mp hslot).1

/-- The search over all slots misses none. -/
theorem findPosition_eq_none {e : Endpoints} {p : Capability → Bool} :
    e.findPosition p = none ↔ ∀ q, p (e.capability q) = false := by
  unfold findPosition
  refine Fin.findSome?_eq_none_iff.trans ?_
  constructor
  · intro h q
    exact Fin.eq_false_of_find?_eq_none (Option.map_eq_none_iff.mp (h q.1)) q.2
  · intro h i
    exact Option.map_eq_none_iff.mpr (Fin.find?_eq_none_iff.mpr fun slot => h (i, slot))

theorem findChildGeneration_eq_some {e : Endpoints} {parent child : Nat}
    (found : e.findChildGeneration parent = some child) :
    ∃ q, (e.capability q).active = true ∧ (e.capability q).parentGeneration = parent ∧
      (e.capability q).generation = child := by
  obtain ⟨q, hq, rfl⟩ := Option.map_eq_some_iff.mp found
  have := findPosition_eq_some hq
  simp only [Bool.and_eq_true, beq_iff_eq] at this
  exact ⟨q, this.1, this.2, rfl⟩

theorem findChildGeneration_eq_none {e : Endpoints} {parent : Nat} :
    e.findChildGeneration parent = none ↔
      ∀ q, (e.capability q).active = true → (e.capability q).parentGeneration ≠ parent := by
  simp [findChildGeneration, findPosition_eq_none]

theorem findTargetGeneration_eq_some {e : Endpoints} {target generation : Nat}
    (found : e.findTargetGeneration target = some generation) :
    ∃ q, (e.capability q).active = true ∧ (e.capability q).target = target ∧
      (e.capability q).generation = generation := by
  obtain ⟨q, hq, rfl⟩ := Option.map_eq_some_iff.mp found
  have := findPosition_eq_some hq
  simp only [Bool.and_eq_true, beq_iff_eq] at this
  exact ⟨q, this.1, this.2, rfl⟩

theorem findTargetGeneration_eq_none {e : Endpoints} {target : Nat} :
    e.findTargetGeneration target = none ↔
      ∀ q, (e.capability q).active = true → (e.capability q).target ≠ target := by
  simp [findTargetGeneration, findPosition_eq_none]

theorem findCapabilityGeneration_eq_some {e : Endpoints} {generation : Nat} {c : Capability}
    (found : e.findCapabilityGeneration generation = some c) :
    ∃ q, e.capability q = c ∧ c.active = true ∧ c.generation = generation := by
  obtain ⟨q, hq, rfl⟩ := Option.map_eq_some_iff.mp found
  have := findPosition_eq_some hq
  simp only [Bool.and_eq_true, beq_iff_eq] at this
  exact ⟨q, rfl, this⟩

theorem findCapabilityGeneration_eq_none {e : Endpoints} {generation : Nat} :
    e.findCapabilityGeneration generation = none ↔
      ∀ q, (e.capability q).active = true → (e.capability q).generation ≠ generation := by
  simp [findCapabilityGeneration, findPosition_eq_none]

end Endpoints

end CloudOS.Ipc
