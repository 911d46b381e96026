import CloudOS.Process.UserMode

/-!
Capability handles as return values of system calls.

A call that makes a capability returns its handle in the register in which other calls
return error codes. The low byte tells the two apart: that of a handle is a slot counted
from one, that of an error code is large.
-/

namespace CloudOS.Process

open Lib.Word (maxWord)
open Ipc

/-- The return values that say that a call failed. -/
inductive Failure : Nat → Prop where
  | unknownSyscall : Failure retUnknownSyscall
  | invalidUserBuffer : Failure retInvalidUserBuffer
  | ipcError (error : IpcError) : Failure (ipcErrorReturn error)

theorem Failure.low {value : Nat} (failure : Failure value) :
    maxCapabilitiesPerEndpoint < value % 256 := by
  cases failure with
  | unknownSyscall => decide
  | invalidUserBuffer => decide
  | ipcError error => cases error <;> decide

/-- No handle is taken for an error code, or for the missing handle. -/
theorem not_failure_of_decodeHandle {handle generation : Nat}
    {slot : Fin maxCapabilitiesPerEndpoint}
    (decoded : decodeHandle handle = some (slot, generation)) :
    handle ≠ 0 ∧ ¬ Failure handle := by
  have low := decodeHandle_low decoded
  constructor
  · rintro rfl
    omega
  · intro failure
    have high := failure.low
    omega

/-- `allocate_generation` when its loop stops after at most `bound` iterations. -/
structure Allocates (s : IpcState) (bound generation next : Nat) : Prop where
  stops : ∃ iterations ≤ bound, ∀ more ≥ iterations,
    allocateLoop s.endpoints more s.nextCapabilityGeneration = some (generation, next)
  returns : s.allocateGeneration = (generation, { s with
    nextCapabilityGeneration := next
    lastCapabilityGeneration := generation })
  positive : 1 ≤ generation
  fits : generation ≤ maxGeneration
  counter : 1 ≤ next ∧ next ≤ maxGeneration
  fresh : ∀ position, (s.endpoints.capability position).active = true →
    (s.endpoints.capability position).generation ≠ generation

/-- At most 64 generations are in use, so one of 65 rounds finds a free one. -/
theorem allocateGeneration_allocates (s : IpcState)
    (counter : s.nextCapabilityGeneration ≤ maxGeneration) :
    Allocates s 65 s.allocateGeneration.1 s.allocateGeneration.2.nextCapabilityGeneration := by
  have stops : allocateLoop s.endpoints 65 s.nextCapabilityGeneration =
      some (allocate s.endpoints s.nextCapabilityGeneration) :=
    (Option.some_get (allocateLoop_isSome s.endpoints s.nextCapabilityGeneration)).symm
  obtain ⟨fresh, positive, fits, counter'⟩ := allocate_spec s.endpoints s.nextCapabilityGeneration
  constructor
  · exact ⟨65, le_rfl, fun more enough => allocateLoop_mono stops enough⟩
  · rfl
  · exact positive
  · exact fits counter
  · exact counter'
  · exact fresh

/-- `allocate_generation` ends after at most 65 iterations with a generation that no
active capability carries; handles and pairs of a slot and a generation are the same
thing; and no handle is zero or an error code. -/
theorem fresh_generations_and_handles (s : IpcState)
    (counter : s.nextCapabilityGeneration ≤ maxGeneration) :
    (∃ generation next, Allocates s 65 generation next) ∧
    (∀ (slot : Fin maxCapabilitiesPerEndpoint) (generation : Nat), 1 ≤ generation →
      generation ≤ maxGeneration → encodeHandle slot generation < 2 ^ 64 ∧
        decodeHandle (encodeHandle slot generation) = some (slot, generation)) ∧
    ∀ handle < 2 ^ 64, ∀ slot generation, decodeHandle handle = some (slot, generation) →
      (1 ≤ generation ∧ generation ≤ maxGeneration) ∧ encodeHandle slot generation = handle ∧
        handle ≠ 0 ∧ ¬ Failure handle := by
  refine ⟨⟨_, _, allocateGeneration_allocates s counter⟩, ?_, ?_⟩
  · intro slot generation positive fits
    exact ⟨encodeHandle_lt slot.isLt fits,
      decodeHandle_encodeHandle slot (Nat.ne_of_gt positive) fits⟩
  · intro handle word slot generation decoded
    exact ⟨generation_of_decodeHandle word decoded, encodeHandle_decodeHandle word decoded,
      not_failure_of_decodeHandle decoded⟩

/-- The counter is at the end of its range, and the last generation is taken. -/
def wornCounter : IpcState :=
  { IpcState.new with
    endpoints := Endpoints.setCapability IpcState.new.endpoints (0, 0)
      ⟨1, maxGeneration, 0, 0, CapabilityRights.receive, true⟩
    nextCapabilityGeneration := maxGeneration }

theorem fresh_generations_and_handles_wornCounter :
    (∃ generation next, Allocates wornCounter 65 generation next) ∧
      decodeHandle (encodeHandle 7 maxGeneration) = some (7, maxGeneration) := by
  obtain ⟨allocates, encoded, -⟩ := fresh_generations_and_handles wornCounter le_rfl
  exact ⟨allocates, (encoded 7 maxGeneration (by decide) le_rfl).2⟩

end CloudOS.Process
