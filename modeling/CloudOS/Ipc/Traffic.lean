import CloudOS.Ipc.Delivery
import CloudOS.Ipc.NoTask
import CloudOS.Ipc.Receipt

/-!
A stretch of operations as seen by a task that takes no part in it.

`Traffic` is any sequence of allowed operations with changes of the statistics in
between. The invariants of the endpoint table survive it. If nothing is received
for a task and the task is not removed, its queue only grows.
-/

namespace CloudOS.Ipc

/-! ### Tables whose handles decode -/

/-- Every generation in use fits into a handle. -/
def Endpoints.Encodable (e : Endpoints) : Prop :=
  ∀ p, (e.capability p).active = true → (e.capability p).generation ≤ maxGeneration

namespace Endpoints

variable {e e' : Endpoints}

theorem Encodable.of_active (encodable : e.Encodable)
    (same : ∀ p, (e'.capability p).active = true → e'.capability p = e.capability p) :
    e'.Encodable := by
  intro p active
  have unchanged := same p active
  rw [unchanged] at active ⊢
  exact encodable p active

/-- A generation that was allocated fits its handle. -/
theorem Encodable.install (encodable : e.Encodable) {p : Position} {c : Capability}
    (fits : c.generation ≤ maxGeneration) : (e.setCapability p c).Encodable := by
  intro q active
  rw [capability_setCapability] at active ⊢
  split
  · exact fits
  · rename_i other
    rw [if_neg other] at active
    exact encodable q active

/-- An endpoint without capabilities takes the place of another. -/
theorem Encodable.clear (encodable : e.Encodable) (i : Fin maxEndpoints) {endpoint : Endpoint}
    (bare : ∀ slot, (endpoint.capabilities slot).active = false) :
    Encodable (Function.update e i endpoint) := by
  refine encodable.of_active fun p active => ?_
  rw [capability_update] at active ⊢
  split
  · rename_i here
    rw [if_pos here, bare] at active
    cases active
  · rfl

end Endpoints

/-- Every active generation fits its handle, whatever the operation. -/
theorem Change.encodable {s : IpcState} {op : Op} {event : Option Event} {core : Core}
    (change : Change s op event core) (counter : s.nextCapabilityGeneration ≤ maxGeneration)
    (encodable : s.endpoints.Encodable) : core.endpoints.Encodable := by
  cases change with
  | quiet => exact encodable
  | @register taskId index cleared generation next isOp nonzero fresh free clears allocated =>
      have fits := (allocate_spec cleared s.nextCapabilityGeneration).2.2.1 counter
      rw [allocated] at fits
      refine Endpoints.Encodable.install ?_ fits
      rw [clears]
      exact encodable.clear index fun _ => rfl
  | @grant owner target rights index slot generation next isOp valid receive targetLive found free
      allocated =>
      have fits := (allocate_spec s.endpoints s.nextCapabilityGeneration).2.2.1 counter
      rw [allocated] at fits
      exact encodable.install fits
  | cull removes spares =>
      exact encodable.of_active fun p active => Endpoints.capability_cull_of_active active
  | @retire taskId index G isOp found removes =>
      have culled : (s.endpoints.cull G).Encodable :=
        encodable.of_active fun p active => Endpoints.capability_cull_of_active active
      exact culled.clear index fun _ => rfl
  | deliver isOp short found space =>
      exact encodable.of_active fun p _ => Endpoints.capability_deliver ..
  | @transfer sender destination transfer receiver rights bytes source index slot installed
      generation next isOp short checks allocated installs =>
      have fits := (allocate_spec s.endpoints s.nextCapabilityGeneration).2.2.1 counter
      rw [allocated] at fits
      have grown : installed.Encodable := by
        rw [installs]
        exact encodable.install fits
      exact grown.of_active fun p _ => Endpoints.capability_deliver ..
  | pop isOp found first room =>
      exact encodable.of_active fun p _ =>
        Endpoints.capability_requeue (Endpoint.pop_capabilities first) p
  | waiting isOp found =>
      refine encodable.of_active fun p _ => Endpoints.capability_requeue ?_ p
      rfl

/-- The invariants of the endpoint table. -/
structure IpcState.Intact (s : IpcState) : Prop where
  sound : s.core.Sound
  encodable : s.endpoints.Encodable

namespace IpcState.Intact

variable {s t : IpcState}

theorem initial : initial.Intact :=
  ⟨initial_sound, fun _ active => by cases active⟩

theorem step (intact : s.Intact) {op : Op} (guarded : op.Guarded s) : (step s op).Intact :=
  ⟨step_sound_of_guarded intact.sound guarded,
    (exec_change s intact.sound.table.lineages.unique op).encodable intact.sound.counter
      intact.encodable⟩

/-- The statistics do not matter. -/
theorem of_core (intact : s.Intact) (same : t.core = s.core) : t.Intact := by
  refine ⟨same ▸ intact.sound, ?_⟩
  rw [show t.endpoints = s.endpoints from congrArg Core.endpoints same]
  exact intact.encodable

/-- The owner of an endpoint may receive. -/
theorem canReceive (intact : s.Intact) {taskId : Nat} (live : taskId ≠ 0) {i : Fin maxEndpoints}
    (found : s.find taskId = some i) : s.canReceive taskId = (.ok (), s) := by
  have owner : (s.endpoints i).owner = taskId := Endpoints.find_eq_some found
  have table : s.endpoints.Sound := intact.sound.table
  have rooted := table.coherent.rooted i (owner ▸ live)
  have target := rooted.target.trans owner
  have positive := (table.lineages.wellFormed (i, 0) rooted.active).generation
  have decoded := decodeHandle_encodeHandle 0 positive (intact.encodable (i, 0) rooted.active)
  have receive := CapabilityRights.contains_trans rooted.rights
    (show CapabilityRights.sendReceive.contains CapabilityRights.receive = true by decide)
  have handle : s.selfCapability taskId =
      .ok (encodeHandle 0 (s.endpoints.capability (i, 0)).generation) := by
    unfold selfCapability
    rw [found]
    exact if_neg (by simp [rooted.active, rooted.rights, target])
  have resolved : s.resolveCapability taskId
      (encodeHandle 0 (s.endpoints.capability (i, 0)).generation) CapabilityRights.receive =
        (.ok ((s.endpoints i).capabilities 0), s) := by
    unfold resolveCapability
    rw [found]
    dsimp only
    rw [show encodeHandle 0 _ = encodeHandle ((0 : Fin maxCapabilitiesPerEndpoint) : Nat) _ from
      rfl, decoded]
    dsimp only
    rw [if_neg (by simp [rooted.active, Endpoints.capability]), if_neg (by simp [receive]),
      if_neg (by simp [target, found])]
  unfold IpcState.canReceive
  rw [handle]
  dsimp only
  rw [resolve, resolved]
  exact if_neg (not_not.mpr target)

end IpcState.Intact

/-! ### Traffic -/

/-- The operation neither removes the task nor receives for it. -/
def Op.Spares (taskId : Nat) : Op → Prop
  | unregister other => other ≠ taskId
  | receive receiver _ => receiver ≠ taskId
  | _ => True

/-- `t` comes from `s` by allowed operations, counters aside. -/
inductive Traffic (allowed : Op → Prop) (s : IpcState) : IpcState → Prop
  | refl : Traffic allowed s s
  | step {t : IpcState} {op : Op} (traffic : Traffic allowed s t) (guarded : op.Guarded t)
      (allows : allowed op) : Traffic allowed s (step t op)
  | counts {t t' : IpcState} (traffic : Traffic allowed s t) (same : t'.core = t.core) :
      Traffic allowed s t'

/-- The message without its attachment, as a client would see it. -/
def Message.bare (message : Message) : Packet := message.packet.strip

theorem Endpoint.map_bare (endpoint : Endpoint) :
    endpoint.messages.map Message.bare = endpoint.packets.map Packet.strip :=
  (List.map_map ..).symm

/-- The messages queued for a task, oldest first. -/
def IpcState.mail (s : IpcState) (taskId : Nat) : List Message :=
  match s.find taskId with
  | none => []
  | some i => (s.endpoints i).messages

theorem IpcState.mail_of_find {s : IpcState} {taskId : Nat} {i : Fin maxEndpoints}
    (found : s.find taskId = some i) : s.mail taskId = (s.endpoints i).messages := by
  unfold mail
  rw [found]

/-- The task is registered, and its messages fit into a message buffer. -/
def IpcState.Holds (s : IpcState) (taskId : Nat) : Prop :=
  ∃ i, s.find taskId = some i ∧ Serves (s.endpoints i) taskId

namespace Traffic

variable {allowed : Op → Prop} {s t t' : IpcState}

theorem next (traffic : Traffic allowed s t) (op : Op) (guarded : op.Guarded t)
    (allows : allowed op) : Traffic allowed s (Ipc.step t op) :=
  .step traffic guarded allows

theorem of_core (same : t.core = s.core) : Traffic allowed s t :=
  .counts .refl same

theorem trans (first : Traffic allowed s t) (second : Traffic allowed t t') :
    Traffic allowed s t' := by
  induction second with
  | refl => exact first
  | step _ guarded allows ih => exact ih.step guarded allows
  | counts _ same ih => exact ih.counts same

theorem intact (traffic : Traffic allowed s t) (intact : s.Intact) : t.Intact := by
  induction traffic with
  | refl => exact intact
  | step _ guarded _ ih => exact ih.step guarded
  | counts _ same ih => exact ih.of_core same

/-- What is queued for a task that is spared stays at the front of its queue. -/
theorem mail {taskId : Nat} (traffic : Traffic (Op.Spares taskId) s t) (intact : s.Intact)
    (live : taskId ≠ 0) (holds : s.Holds taskId) :
    t.Holds taskId ∧
      (s.mail taskId).map Message.bare <+: (t.mail taskId).map Message.bare := by
  induction traffic with
  | refl => exact ⟨holds, List.prefix_refl _⟩
  | @step t op traffic guarded spares ih =>
      obtain ⟨⟨i, found, serves⟩, grown⟩ := ih
      have sound := (traffic.intact intact).sound
      have stays : op ≠ .unregister taskId := by
        rintro rfl
        exact spares rfl
      obtain ⟨G, -, serves', balance⟩ := (exec_change t sound.table.lineages.unique op).queue
        sound.table live serves stays
      have found' := (step_sound_of_guarded sound guarded).table.coherent.find live serves'.owner
      have nothing : deliveredTo taskId (event op (exec t op).2).toList = [] := by
        have change := exec_change t sound.table.lineages.unique op
        generalize (exec t op).1.core = core at change
        cases happened : event op (exec t op).2 with
        | none => rfl
        | some event =>
            rw [happened] at change
            cases change with
            | deliver => rfl
            | transfer => rfl
            | @pop receiver output index message popped isOp =>
                subst isOp
                exact List.filterMap_cons_none (if_neg spares)
      rw [nothing, List.nil_append] at balance
      refine ⟨⟨i, found', serves'⟩, grown.trans ?_⟩
      rw [IpcState.mail_of_find found, IpcState.mail_of_find found', Endpoint.map_bare,
        Endpoint.map_bare]
      refine ⟨(acceptedBy taskId (event op (exec t op).2).toList).map Packet.strip, ?_⟩
      have culled : ((t.endpoints i).packets.map (Packet.cull G)).map Packet.strip =
          (t.endpoints i).packets.map Packet.strip := by
        rw [List.map_map]
        exact List.map_congr_left fun packet _ => packet.strip_cull G
      calc (t.endpoints i).packets.map Packet.strip ++
            (acceptedBy taskId (event op (exec t op).2).toList).map Packet.strip
          = ((t.endpoints i).packets.map (Packet.cull G) ++
              acceptedBy taskId (event op (exec t op).2).toList).map Packet.strip := by
            rw [List.map_append, culled]
        _ = ((exec t op).1.core.endpoints i).packets.map Packet.strip := by rw [balance]
  | @counts t t' traffic same ih =>
      obtain ⟨⟨i, found, serves⟩, grown⟩ := ih
      have table : t'.endpoints = t.endpoints := congrArg Core.endpoints same
      have found' : t'.find taskId = some i := by rwa [IpcState.find, table]
      refine ⟨⟨i, found', by rwa [table]⟩, ?_⟩
      rwa [IpcState.mail_of_find found', table, ← IpcState.mail_of_find found]

end Traffic

/-! ### Receiving the oldest message -/

/-- The front of the queue is what is popped. -/
theorem Endpoint.pop_of_messages {endpoint : Endpoint} (bound : endpoint.len ≤ queueDepth)
    {message : Message} {rest : List Message} (messages : endpoint.messages = message :: rest) :
    endpoint.front = some message ∧ ∃ popped, endpoint.pop = some (message, popped) ∧
      popped.messages = rest ∧ popped.owner = endpoint.owner := by
  have nonempty : endpoint.len ≠ 0 := fun empty => by
    rw [Endpoint.messages, empty] at messages
    cases messages
  cases popping : endpoint.pop with
  | none =>
      unfold pop front at popping
      rw [if_neg nonempty] at popping
      cases popping
  | some pair =>
      obtain ⟨first, popped⟩ := pair
      obtain ⟨split, owner, -⟩ := pop_spec popping bound
      rw [messages] at split
      cases split
      refine ⟨?_, popped, rfl, rfl, owner⟩
      unfold pop at popping
      cases front : endpoint.front with
      | none =>
          rw [front] at popping
          cases popping
      | some first =>
          rw [front] at popping
          cases popping
          rfl

/-- A receive takes the oldest message, or leaves it if the buffer is too small. -/
theorem IpcState.Intact.receive {s : IpcState} (intact : s.Intact) {taskId : Nat}
    (live : taskId ≠ 0) {message : Message} {rest : List Message}
    (mail : s.mail taskId = message :: rest) (output : List UInt8) :
    (output.length < message.length ∧
      s.receive taskId output = (.error .bufferTooSmall, s, output)) ∨
    (message.length ≤ output.length ∧ ∃ s', s'.mail taskId = rest ∧
      s.receive taskId output =
        (.ok message.delivery, s', IpcState.copyPayload message output)) := by
  cases found : s.find taskId with
  | none =>
      unfold IpcState.mail at mail
      rw [found] at mail
      cases mail
  | some i =>
      have owner : (s.endpoints i).owner = taskId := Endpoints.find_eq_some found
      rw [IpcState.mail_of_find found] at mail
      obtain ⟨front, popped, popping, left, sameOwner⟩ :=
        Endpoint.pop_of_messages (intact.sound.table.endpoint i).bounds.1 mail
      have received := (intact.step (show (Op.receive taskId output).Guarded s from trivial)).sound
      change (s.receive taskId output).2.1.core.Sound at received
      have allowed := intact.canReceive live found
      have table : s.endpoints i = s.core.endpoints i := rfl
      by_cases small : output.length < message.length
      · refine Or.inl ⟨small, ?_⟩
        unfold IpcState.receive
        rw [allowed]
        dsimp only
        rw [found]
        dsimp only
        rw [table, front]
        exact if_pos small
      · have result : s.receive taskId output = (.ok message.delivery, { s with
            endpoints := Function.update s.endpoints i popped
            counters := { s.counters with
              messagesReceived := Lib.Word.satAdd s.counters.messagesReceived 1 } },
            IpcState.copyPayload message output) := by
          unfold IpcState.receive
          rw [allowed]
          dsimp only
          rw [found]
          dsimp only
          rw [table, front, popping]
          exact if_neg small
        have here : Function.update s.endpoints i popped i = popped := Function.update_self ..
        have owner' : ((s.receive taskId output).2.1.endpoints i).owner = taskId := by
          rw [result]
          exact (congrArg Endpoint.owner here).trans (sameOwner.trans owner)
        have found' : (s.receive taskId output).2.1.find taskId = some i :=
          received.table.coherent.find live owner'
        rw [result] at found'
        refine Or.inr ⟨Nat.not_lt.mp small, _, (IpcState.mail_of_find found').trans ?_, result⟩
        exact (congrArg Endpoint.messages here).trans left

end CloudOS.Ipc
