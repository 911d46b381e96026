import CloudOS.Ipc.Mailbox
import CloudOS.Ipc.Refusal
import CloudOS.Ipc.Traffic

/-!
No run makes a queue longer than its ring.

This holds whatever tasks the operations name, so it is kept apart from the
invariants that need the guards.
-/

namespace CloudOS.Ipc

/-- The second state comes from the first by operations, with changes of the statistics in
between. -/
inductive Served (s : IpcState) : IpcState → Prop
  | refl : Served s s
  | step {t : IpcState} (served : Served s t) (op : Op) : Served s (step t op)
  | counts {t t' : IpcState} (served : Served s t) (same : t'.core = t.core) : Served s t'

theorem Served.canReceive {s t : IpcState} (served : Served s t) (receiver : Nat) :
    Served s (t.canReceive receiver).2 := by
  rcases t.canReceive_refused receiver with allowed | ⟨error, t', denied, counts⟩
  · rw [allowed]
    exact served
  · rw [denied]
    exact served.counts counts.core

/-- The rings hold their queues. -/
structure IpcState.Bounded (s : IpcState) : Prop where
  unique : s.endpoints.GenerationsUnique
  fits : ∀ i, (s.mailboxes i).len ≤ queueDepth

theorem fits_update {e : Endpoints} (fits : ∀ i, (e.mailboxes i).len ≤ queueDepth)
    {index : Fin maxEndpoints} {endpoint : Endpoint} (short : endpoint.len ≤ queueDepth) :
    ∀ i, (Endpoints.mailboxes (Function.update e index endpoint) i).len ≤ queueDepth := by
  intro i
  rw [Endpoints.mailboxes_update]
  by_cases here : i = index
  · rw [here, Function.update_self]
    exact short
  · rw [Function.update_of_ne here]
    exact fits i

/-- No operation fills a queue beyond its depth. -/
theorem Change.fits {s : IpcState} {op : Op} {event : Option Event} {core : Core}
    (change : Change s op event core) (fits : ∀ i, (s.mailboxes i).len ≤ queueDepth) :
    ∀ i, (core.endpoints.mailboxes i).len ≤ queueDepth := by
  cases change with
  | quiet => exact fits
  | @register taskId index cleared generation next isOp nonzero fresh free clears allocated =>
      rw [Endpoints.mailboxes_setCapability, clears]
      exact fits_update fits (Nat.zero_le _)
  | grant =>
      rw [Endpoints.mailboxes_setCapability]
      exact fits
  | cull removes spares => exact fits
  | retire isOp found removes => exact fits_update (e := s.endpoints.cull _) fits (Nat.zero_le _)
  | deliver isOp short found space => exact fits_update fits (Nat.succ_le_of_lt space)
  | @transfer sender destination transfer receiver rights bytes source index slot installed
      generation next isOp short checks allocated installs =>
      have same : installed.mailboxes = s.mailboxes := by
        rw [installs]
        exact Endpoints.mailboxes_setCapability ..
      have space : (installed index).len < queueDepth := by
        have length := congrArg Mailbox.len (congrFun same index)
        change (installed index).len = (s.endpoints index).len at length
        rw [length]
        exact checks.space
      exact fits_update (same ▸ fits) (Nat.succ_le_of_lt space)
  | @pop receiver output index message popped isOp found first room =>
      have length := congrArg Mailbox.len (pop_mailbox first).2.1
      change popped.len = (s.endpoints index).len - 1 at length
      have before : (s.endpoints index).len ≤ queueDepth := fits index
      exact fits_update fits (by omega)
  | @waiting taskId index waiting isOp found => exact fits_update fits (fits index)

namespace IpcState

variable {s t : IpcState}

theorem Bounded.step (bounded : s.Bounded) (op : Op) : (step s op).Bounded := by
  have change := exec_change s bounded.unique op
  exact ⟨change.unique bounded.unique, change.fits bounded.fits⟩

theorem Bounded.of_core (bounded : s.Bounded) (same : t.core = s.core) : t.Bounded := by
  have endpoints : t.endpoints = s.endpoints := congrArg Core.endpoints same
  refine ⟨endpoints ▸ bounded.unique, fun i => ?_⟩
  rw [mailboxes, endpoints]
  exact bounded.fits i

theorem Bounded.served (bounded : s.Bounded) (served : Served s t) : t.Bounded := by
  induction served with
  | refl => exact bounded
  | step _ op ih => exact ih.step op
  | counts _ same ih => exact ih.of_core same

theorem initial_bounded : initial.Bounded :=
  ⟨initial_sound.table.lineages.unique, fun _ => Nat.zero_le _⟩

/-- A state that differs in the statistics and in waiting flags has the same queues. -/
theorem mail_congr {taskId : Nat} (owners : ∀ i, (t.endpoints i).owner = (s.endpoints i).owner)
    (messages : ∀ i, (t.endpoints i).messages = (s.endpoints i).messages) :
    t.mail taskId = s.mail taskId := by
  unfold mail
  have same : t.find taskId = s.find taskId := find_congr owners taskId
  rw [same]
  cases s.find taskId with
  | none => rfl
  | some i => exact messages i

/-- A message that is taken is the first of the queue. -/
theorem Bounded.mail_accept (bounded : s.Bounded) {receiver : Nat} {i : Fin maxEndpoints}
    {message : Message} {popped : Endpoint} (found : s.find receiver = some i)
    (pops : (s.endpoints i).pop = some (message, popped)) :
    s.mail receiver = message :: (s.accept i popped).mail receiver := by
  obtain ⟨split, owner, -⟩ := Endpoint.pop_spec pops (bounded.fits i)
  have found' : (s.accept i popped).find receiver = some i := by
    rw [← found]
    refine find_congr (fun j => ?_) receiver
    by_cases here : j = i
    · subst here
      exact (congrArg Endpoint.owner (Function.update_self ..)).trans owner
    · exact congrArg Endpoint.owner (Function.update_of_ne here ..)
  have here : (s.accept i popped).endpoints i = popped := Function.update_self ..
  rw [mail_of_find found, mail_of_find found', split, here]

end IpcState

end CloudOS.Ipc
