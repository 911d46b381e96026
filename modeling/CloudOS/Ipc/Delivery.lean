import CloudOS.Ipc.Authority
import Mathlib.Data.List.Forall2

/-!
Exactly-once delivery in order.

Along a run, `events` lists the messages that replies report as accepted or
delivered. Within the lifetime of an endpoint its queue is the part of the
accepted messages that has not been delivered yet. On the way a message changes
only if a revocation zeroes its attachment (`Arrives`). One operation keeps this
balance (`Change.queue`), and a run sums it up. The sequence numbers and the
message counters get the same treatment over the whole table.
-/

namespace CloudOS.Ipc

open Lib.Word (satAdd maxWord)

/-! ### Logs -/

def events (s : IpcState) : List Op → List Event
  | [] => []
  | op :: ops => (event op (exec s op).2).toList ++ events (step s op) ops

def Event.acceptedPacket : Event → Option Packet
  | accepted _ packet => some packet
  | delivered .. => none

def Event.acceptedBy (taskId : Nat) : Event → Option Packet
  | accepted receiver packet => if receiver = taskId then some packet else none
  | delivered .. => none

def Event.deliveredTo (taskId : Nat) : Event → Option Packet
  | accepted .. => none
  | delivered receiver packet => if receiver = taskId then some packet else none

/-- The messages accepted for anyone, in order. -/
def accepted (log : List Event) : List Packet := log.filterMap Event.acceptedPacket

/-- The messages accepted for a task, in order. -/
def acceptedBy (taskId : Nat) (log : List Event) : List Packet :=
  log.filterMap (Event.acceptedBy taskId)

/-- The messages that a task has received, in order. -/
def deliveredTo (taskId : Nat) (log : List Event) : List Packet :=
  log.filterMap (Event.deliveredTo taskId)

/-- The queue of an endpoint as a client will see it. -/
def Endpoint.packets (endpoint : Endpoint) : List Packet := endpoint.messages.map Message.packet

theorem events_append (s : IpcState) (before after : List Op) :
    events s (before ++ after) = events s before ++ events (run s before) after := by
  induction before generalizing s with
  | nil => rfl
  | cons op before ih =>
      rw [List.cons_append, events, events, ih, List.append_assoc]
      rfl

/-! ### Payloads -/

/-- A message carries the bytes it was composed from. -/
theorem Message.payload_compose {sender sequence handle : Nat} {rights : UInt8}
    {bytes : List UInt8} (short : bytes.length ≤ maxMessageBytes) :
    (composeMessage sender sequence handle rights bytes).payload = bytes := by
  unfold Message.payload composeMessage
  apply List.ext_getElem
  · rw [List.length_take, List.length_ofFn]
    exact Nat.min_eq_left short
  · intro k hk hk'
    rw [List.getElem_take, List.getElem_ofFn]
    exact List.getD_eq_getElem bytes 0 hk'

theorem Message.packet_compose {sender sequence handle : Nat} {rights : UInt8}
    {bytes : List UInt8} (short : bytes.length ≤ maxMessageBytes) :
    (composeMessage sender sequence handle rights bytes).packet =
      ⟨sender, bytes.length, bytes, sequence, handle, rights⟩ := by
  rw [Message.packet, Message.payload_compose short]
  rfl

/-- The filled part of the caller's buffer is the payload. -/
theorem IpcState.take_copyPayload {message : Message} (short : message.length ≤ maxMessageBytes)
    (output : List UInt8) :
    (IpcState.copyPayload message output).take message.length = message.payload := by
  have length : message.payload.length = message.length := by
    rw [Message.payload, List.length_take, List.length_ofFn]
    exact Nat.min_eq_left short
  unfold IpcState.copyPayload
  rw [← length, List.take_left']
  rfl

theorem Message.length_cull (G : Finset Nat) (message : Message) :
    (message.cull G).length = message.length := by
  unfold Message.cull
  split <;> rfl

/-! ### Attachments -/

/-- The packet after a revocation of the generations in `G`. -/
def Packet.cull (G : Finset Nat) (packet : Packet) : Packet :=
  if ∃ g ∈ G, (decodeHandle packet.capabilityHandle).map Prod.snd = some g then packet.strip
  else packet

theorem Packet.cull_empty (packet : Packet) : packet.cull ∅ = packet := by
  simp [Packet.cull]

theorem Packet.strip_cull (G : Finset Nat) (packet : Packet) :
    (packet.cull G).strip = packet.strip := by
  unfold Packet.cull
  split <;> rfl

theorem Message.packet_cull (G : Finset Nat) (message : Message) :
    (message.cull G).packet = message.packet.cull G := by
  unfold Message.cull
  split
  · rename_i named
    exact (if_pos named).symm
  · rename_i other
    exact (if_neg other).symm

/-- A cull zeroes attachments in the queue and changes nothing else there. -/
theorem Endpoint.packets_cull (G : Finset Nat) (endpoint : Endpoint) :
    (endpoint.cull G).packets = endpoint.packets.map (Packet.cull G) := by
  rw [packets, messages_cull, packets, List.map_map, List.map_map]
  exact List.map_congr_left fun message _ => Message.packet_cull G message

theorem Endpoint.map_cull_empty (endpoint : Endpoint) :
    endpoint.packets.map (Packet.cull ∅) = endpoint.packets := by
  rw [List.map_congr_left fun packet _ => packet.cull_empty, List.map_id']

/-- What a message accepted in a run from `s` looks like at the end of it: as it
was accepted, or without its attachment. The latter only if some operation of the
run removed the capability of the attachment while the message was queued. -/
inductive Arrives (s : IpcState) (taskId : Nat) (ops : List Op) (packet : Packet) : Packet → Prop
  | intact : Arrives s taskId ops packet packet
  | stripped {before after : List Op} {op : Op} {i : Fin maxEndpoints}
      {slot : Fin maxCapabilitiesPerEndpoint} {generation : Nat}
      (split : ops = before ++ op :: after)
      (found : (run s before).find taskId = some i)
      (queued : packet ∈ ((run s before).endpoints i).packets)
      (named : decodeHandle packet.capabilityHandle = some (slot, generation))
      (active : generation ∈ (run s before).endpoints.activeGenerations)
      (removed : generation ∉ (step (run s before) op).endpoints.activeGenerations) :
      Arrives s taskId ops packet packet.strip

/-- What has happened to a message stays so in a longer run. -/
theorem Arrives.longer {s : IpcState} {taskId : Nat} {ops : List Op} {packet seen : Packet}
    (arrives : Arrives s taskId ops packet seen) (more : List Op) :
    Arrives s taskId (ops ++ more) packet seen := by
  cases arrives with
  | intact => exact .intact
  | @stripped before after op i slot generation split found queued named active removed =>
      have split' : ops ++ more = before ++ op :: (after ++ more) := by
        rw [split, List.append_assoc, List.cons_append]
      exact .stripped split' found queued named active removed

/-- The last operation of a run removes the generations in `G`. -/
theorem Arrives.cull {s : IpcState} {taskId : Nat} {ops : List Op} {packet seen : Packet}
    (arrives : Arrives s taskId ops packet seen) {op : Op} {i : Fin maxEndpoints} {G : Finset Nat}
    (found : (run s ops).find taskId = some i) (queued : seen ∈ ((run s ops).endpoints i).packets)
    (active : ∀ g ∈ G, g ∈ (run s ops).endpoints.activeGenerations)
    (removed : ∀ g ∈ G, g ∉ (step (run s ops) op).endpoints.activeGenerations) :
    Arrives s taskId (ops ++ [op]) packet (seen.cull G) := by
  unfold Packet.cull
  split
  · rename_i named
    obtain ⟨g, mem, names⟩ := named
    obtain ⟨⟨slot, generation⟩, decoded, rfl⟩ := Option.map_eq_some_iff.mp names
    cases arrives with
    | intact => exact .stripped rfl found queued decoded (active _ mem) (removed _ mem)
    | stripped => simp [Packet.strip, decodeHandle] at decoded
  · exact arrives.longer [op]

/-- Emptying an endpoint activates nothing. -/
theorem Endpoints.activeGenerations_clear {e : Endpoints} {i : Fin maxEndpoints} {g : Nat}
    (mem : g ∈ activeGenerations (Function.update e i Endpoint.empty)) :
    g ∈ e.activeGenerations := by
  obtain ⟨q, active, rfl⟩ := mem_activeGenerations.mp mem
  rw [capability_update] at active ⊢
  split at active
  · cases active
  · rename_i elsewhere
    rw [if_neg elsewhere]
    exact mem_activeGenerations.mpr ⟨q, active, rfl⟩

/-! ### One operation -/

/-- The endpoint belongs to a live task and queues no oversized message. -/
structure Serves (endpoint : Endpoint) (taskId : Nat) : Prop where
  owner : endpoint.owner = taskId
  short : ∀ message ∈ endpoint.messages, message.length ≤ maxMessageBytes

theorem Serves.deliver {endpoint : Endpoint} {taskId : Nat} (serves : Serves endpoint taskId)
    (space : endpoint.len < queueDepth) {message : Message}
    (short : message.length ≤ maxMessageBytes) : Serves (endpoint.deliver message) taskId := by
  refine ⟨serves.owner, fun other queued => ?_⟩
  rw [Endpoint.messages_deliver space, List.mem_append, List.mem_singleton] at queued
  rcases queued with queued | rfl
  · exact serves.short other queued
  · exact short

theorem Endpoint.packets_deliver {endpoint : Endpoint} (space : endpoint.len < queueDepth)
    (message : Message) :
    (endpoint.deliver message).packets = endpoint.packets ++ [message.packet] := by
  rw [packets, messages_deliver space, List.map_append]
  rfl

/-- One operation at the endpoint of a task. The attachments to `G` are zeroed;
what is delivered leaves at the front, what is accepted joins at the back. -/
structure Passes (taskId : Nat) (event : Option Event) (G : Finset Nat)
    (endpoint endpoint' : Endpoint) : Prop where
  serves : Serves endpoint' taskId
  balance : deliveredTo taskId event.toList ++ endpoint'.packets =
    endpoint.packets.map (Packet.cull G) ++ acceptedBy taskId event.toList

namespace Passes

variable {taskId : Nat} {endpoint endpoint' : Endpoint}

/-- The operation concerns somebody else. -/
theorem keep (serves : Serves endpoint taskId) {event : Option Event}
    (nothingOut : deliveredTo taskId event.toList = [])
    (nothingIn : acceptedBy taskId event.toList = []) (owner : endpoint'.owner = endpoint.owner)
    (messages : endpoint'.messages = endpoint.messages) :
    Passes taskId event ∅ endpoint endpoint' where
  serves := ⟨owner.trans serves.owner, by rw [messages]; exact serves.short⟩
  balance := by
    rw [nothingOut, nothingIn, List.nil_append, List.append_nil, Endpoint.map_cull_empty,
      Endpoint.packets, messages, Endpoint.packets]

theorem cull (serves : Serves endpoint taskId) (G : Finset Nat) :
    Passes taskId none G endpoint (endpoint.cull G) where
  serves := by
    refine ⟨serves.owner, fun message queued => ?_⟩
    rw [Endpoint.messages_cull] at queued
    obtain ⟨original, mem, rfl⟩ := List.mem_map.mp queued
    rw [Message.length_cull]
    exact serves.short original mem
  balance := by
    rw [Endpoint.packets_cull]
    exact (List.append_nil _).symm

theorem deliver (serves : Serves endpoint taskId) (same : endpoint'.owner = endpoint.owner)
    (messages : endpoint'.messages = endpoint.messages) (space : endpoint'.len < queueDepth)
    {message : Message} (short : message.length ≤ maxMessageBytes) :
    Passes taskId (some (.accepted taskId message.packet)) ∅ endpoint
      (endpoint'.deliver message) := by
  have kept : Passes taskId none ∅ endpoint endpoint' := keep serves rfl rfl same messages
  have packets : endpoint'.packets = endpoint.packets := by
    rw [Endpoint.packets, messages, Endpoint.packets]
  refine ⟨kept.serves.deliver space short, ?_⟩
  rw [Endpoint.packets_deliver space, packets, Endpoint.map_cull_empty]
  simp [deliveredTo, acceptedBy, Event.deliveredTo, Event.acceptedBy]

theorem pop (serves : Serves endpoint taskId) {message : Message} {popped : Endpoint}
    (first : endpoint.pop = some (message, popped)) (bound : endpoint.len ≤ queueDepth) :
    Passes taskId (some (.delivered taskId message.packet)) ∅ endpoint popped := by
  obtain ⟨queue, owner, -, -, -⟩ := Endpoint.pop_spec first bound
  refine ⟨⟨owner.trans serves.owner, fun other queued => ?_⟩, ?_⟩
  · exact serves.short other (by rw [queue]; exact List.mem_cons_of_mem _ queued)
  · rw [Endpoint.map_cull_empty, Endpoint.packets, Endpoint.packets, queue]
    simp [deliveredTo, acceptedBy, Event.deliveredTo, Event.acceptedBy]

end Passes

theorem deliveredTo_other {receiver taskId : Nat} (other : receiver ≠ taskId) (packet : Packet) :
    deliveredTo taskId [.delivered receiver packet] = [] := by
  simp [deliveredTo, Event.deliveredTo, other]

theorem acceptedBy_other {receiver taskId : Nat} (other : receiver ≠ taskId) (packet : Packet) :
    acceptedBy taskId [.accepted receiver packet] = [] := by
  simp [acceptedBy, Event.acceptedBy, other]

/-- The endpoint found for a task is the one that serves `taskId` exactly when the
task is `taskId`. -/
theorem Serves.find_iff {s : IpcState} (table : s.endpoints.Sound) {i j : Fin maxEndpoints}
    {taskId receiver : Nat} (live : taskId ≠ 0) (serves : Serves (s.endpoints i) taskId)
    (found : s.find receiver = some j) : receiver = taskId ↔ j = i := by
  have owned : (s.endpoints j).owner = receiver := Endpoints.find_eq_some found
  constructor
  · rintro rfl
    exact table.distinct j i (owned ▸ live) (owned.trans serves.owner.symm)
  · rintro rfl
    exact owned.symm.trans serves.owner

/-- What one operation does to the queue of a task that stays registered. -/
theorem Change.queue {s : IpcState} {op : Op} {event : Option Event} {core : Core}
    (change : Change s op event core) (table : s.endpoints.Sound) {i : Fin maxEndpoints}
    {taskId : Nat} (live : taskId ≠ 0) (serves : Serves (s.endpoints i) taskId)
    (stays : op ≠ .unregister taskId) :
    ∃ G : Finset Nat, (∀ g ∈ G, g ∈ s.endpoints.activeGenerations ∧
        g ∉ core.endpoints.activeGenerations) ∧
      Passes taskId event G (s.endpoints i) (core.endpoints i) := by
  have none : ∀ g ∈ (∅ : Finset Nat), g ∈ s.endpoints.activeGenerations ∧
      g ∉ core.endpoints.activeGenerations := fun g mem => absurd mem (Finset.notMem_empty g)
  cases change with
  | quiet => exact ⟨∅, none, .keep serves rfl rfl rfl rfl⟩
  | @register other index cleared generation next isOp nonzero fresh free clears allocated =>
      have elsewhere : i ≠ index := by
        rintro rfl
        exact live (serves.owner.symm.trans (Endpoints.find_eq_some free))
      have same : cleared i = s.endpoints i := by rw [clears, Function.update_of_ne elsewhere]
      refine ⟨∅, none, ?_⟩
      dsimp only
      rw [Endpoints.setCapability_apply, same]
      exact .keep serves rfl rfl rfl rfl
  | grant isOp valid receive targetLive found free allocated =>
      refine ⟨∅, none, ?_⟩
      dsimp only
      rw [Endpoints.setCapability_apply]
      exact .keep serves rfl rfl rfl rfl
  | @cull roots G removes spares =>
      refine ⟨G, fun g mem => ⟨removes.active mem, fun still => ?_⟩, .cull serves G⟩
      exact (Endpoints.mem_activeGenerations_cull.mp still).2 mem
  | @retire other index G isOp found removes =>
      have elsewhere : i ≠ index := by
        rintro rfl
        exact stays (isOp.trans (by rw [(serves.find_iff table live found).mpr rfl]))
      refine ⟨G, fun g mem => ⟨removes.active mem, fun still => ?_⟩, ?_⟩
      · exact (Endpoints.mem_activeGenerations_cull.mp
          (Endpoints.activeGenerations_clear still)).2 mem
      · dsimp only
        rw [Function.update_of_ne elsewhere]
        exact .cull serves G
  | @deliver sender receiver bytes index isOp short found space =>
      refine ⟨∅, none, ?_⟩
      by_cases same : index = i
      · subst same
        obtain rfl := (serves.find_iff table live found).mpr rfl
        dsimp only
        rw [Function.update_self, ← Message.packet_compose short]
        exact .deliver serves rfl rfl space short
      · have other : receiver ≠ taskId :=
          fun eq => same ((serves.find_iff table live found).mp eq)
        dsimp only
        rw [Function.update_of_ne (Ne.symm same)]
        exact .keep serves rfl (acceptedBy_other other _) rfl rfl
  | @transfer sender destination transfer receiver rights bytes source index slot installed
      generation next isOp short checks allocated installs =>
      have queue : ∀ j, (installed j).messages = (s.endpoints j).messages := fun j => by
        rw [installs, Endpoints.setCapability_apply]
        rfl
      have owned : ∀ j, (installed j).owner = (s.endpoints j).owner := fun j => by
        rw [installs, Endpoints.setCapability_apply]
      refine ⟨∅, none, ?_⟩
      by_cases same : index = i
      · subst same
        obtain rfl := (serves.find_iff table live checks.found).mpr rfl
        have space : (installed index).len < queueDepth := by
          rw [installs, Endpoints.setCapability_apply]
          exact checks.space
        dsimp only
        rw [Function.update_self, ← Message.packet_compose short]
        exact .deliver serves (owned index) (queue index) space short
      · have other : receiver ≠ taskId :=
          fun eq => same ((serves.find_iff table live checks.found).mp eq)
        dsimp only
        rw [Function.update_of_ne (Ne.symm same)]
        exact .keep serves rfl (acceptedBy_other other _) (owned i) (queue i)
  | @pop receiver output index message popped isOp found first room =>
      refine ⟨∅, none, ?_⟩
      have bound := (table.endpoint index).bounds.1
      by_cases same : index = i
      · subst same
        obtain rfl := (serves.find_iff table live found).mpr rfl
        obtain ⟨queue, -⟩ := Endpoint.pop_spec first bound
        have shortFirst : message.length ≤ maxMessageBytes :=
          serves.short message (by rw [queue]; exact List.mem_cons_self)
        dsimp only
        rw [Function.update_self, IpcState.take_copyPayload shortFirst]
        exact .pop serves first bound
      · have other : receiver ≠ taskId :=
          fun eq => same ((serves.find_iff table live found).mp eq)
        dsimp only
        rw [Function.update_of_ne (Ne.symm same)]
        exact .keep serves (deliveredTo_other other _) rfl rfl rfl
  | @waiting other index waiting isOp found =>
      refine ⟨∅, none, ?_⟩
      by_cases same : index = i
      · subst same
        dsimp only
        rw [Function.update_self]
        exact .keep serves rfl rfl rfl rfl
      · dsimp only
        rw [Function.update_of_ne (Ne.symm same)]
        exact .keep serves rfl rfl rfl rfl

/-! ### Lifetimes -/

/-- What one operation adds to a log: some packets go, the rest are kept up to
their attachments, some packets come. -/
theorem Arrives.append {s : IpcState} {taskId : Nat} {ops : List Op} {op : Op}
    {known gone queued queued' gone' new : List Packet} {i : Fin maxEndpoints} {G : Finset Nat}
    (arrive : List.Forall₂ (Arrives s taskId ops) known (gone ++ queued))
    (found : (run s ops).find taskId = some i) (queue : ((run s ops).endpoints i).packets = queued)
    (revoked : ∀ g ∈ G, g ∈ (run s ops).endpoints.activeGenerations ∧
      g ∉ (step (run s ops) op).endpoints.activeGenerations)
    (balance : gone' ++ queued' = queued.map (Packet.cull G) ++ new) :
    List.Forall₂ (Arrives s taskId (ops ++ [op])) (known ++ new) (gone ++ gone' ++ queued') := by
  have left := List.forall₂_take_append known gone queued arrive
  have right := List.forall₂_drop_append known gone queued arrive
  rw [← List.take_append_drop gone.length known, List.append_assoc, List.append_assoc, balance]
  refine List.rel_append (left.imp fun _ _ arrives => arrives.longer [op]) ?_
  refine List.rel_append ?_ ((List.forall₂_same).mpr fun _ _ => .intact)
  rw [List.forall₂_map_right_iff, List.forall₂_iff_zip]
  refine ⟨right.length_eq, fun {packet seen} mem => ?_⟩
  refine (List.forall₂_zip right mem).cull found (queue ▸ (List.of_mem_zip mem).2)
    (fun g inG => (revoked g inG).1) fun g inG => (revoked g inG).2

/-- By induction over the run: what was received and what is queued is what was queued and
accepted. -/
theorem run_queue {s : IpcState} (sound : s.core.Sound) {ops : List Op}
    (nonzero : ∀ op ∈ ops, op.NonZero) {i : Fin maxEndpoints} {taskId : Nat} (live : taskId ≠ 0)
    (serves : Serves (s.endpoints i) taskId) (stays : .unregister taskId ∉ ops) :
    Serves ((run s ops).endpoints i) taskId ∧
      List.Forall₂ (Arrives s taskId ops)
        ((s.endpoints i).packets ++ acceptedBy taskId (events s ops))
        (deliveredTo taskId (events s ops) ++ ((run s ops).endpoints i).packets) := by
  induction ops using List.reverseRecOn with
  | nil =>
      refine ⟨serves, ?_⟩
      rw [events, acceptedBy, List.filterMap_nil, List.append_nil]
      exact List.forall₂_same.mpr fun _ _ => .intact
  | append_singleton ops op ih =>
      have nonzeroBefore : ∀ op ∈ ops, op.NonZero :=
        fun op mem => nonzero op (List.mem_append_left _ mem)
      rw [List.mem_append, not_or, List.mem_singleton] at stays
      obtain ⟨servesBefore, arrive⟩ := ih nonzeroBefore stays.1
      have soundBefore := run_sound sound nonzeroBefore
      have found := soundBefore.table.coherent.find live servesBefore.owner
      have change := exec_change (run s ops) soundBefore.table.lineages.unique op
      obtain ⟨G, revoked, passes⟩ :=
        change.queue soundBefore.table live servesBefore (Ne.symm stays.2)
      have last : run s (ops ++ [op]) = step (run s ops) op := run_append ..
      rw [last, events_append, events, events, List.append_nil, acceptedBy, deliveredTo,
        List.filterMap_append, List.filterMap_append, ← List.append_assoc]
      exact ⟨passes.serves, Arrives.append arrive found rfl revoked passes.balance⟩

/-- A lifetime starts with an empty queue. -/
theorem register_serves {s : IpcState} (sound : s.core.Sound) {taskId : Nat}
    (fresh : s.find taskId = none)
    (registered : (step s (.register taskId)).find taskId ≠ none) :
    ∃ i, Serves ((step s (.register taskId)).endpoints i) taskId ∧
      ((step s (.register taskId)).endpoints i).packets = [] := by
  have absent := Endpoints.find_eq_none.mp fresh
  have change := exec_change s sound.table.lineages.unique (.register taskId)
  generalize core : (exec s (.register taskId)).1.core = after at change
  have table : (step s (.register taskId)).endpoints = after.endpoints := by rw [← core]; rfl
  rw [IpcState.find, table] at registered
  rw [table]
  cases change with
  | quiet => exact absurd fresh registered
  | @register other index cleared generation next isOp nonzero missing free clears allocated =>
      cases isOp
      refine ⟨index, ?_⟩
      dsimp only
      rw [Endpoints.setCapability_apply, clears, Function.update_self]
      exact ⟨⟨rfl, fun message queued => by cases queued⟩, rfl⟩
  | grant isOp => cases isOp
  | cull removes spares =>
      exact (registered (Endpoints.find_eq_none.mpr fun i => absent i)).elim
  | retire isOp => cases isOp
  | waiting isOp => cases isOp

/-! ### Sequence numbers and counters -/

/-- The number of messages queued anywhere. -/
def Endpoints.queued (e : Endpoints) : Nat := ∑ i, (e i).len

/-- The messages queued at one endpoint are replaced. -/
theorem Endpoints.queued_update (e : Endpoints) (i : Fin maxEndpoints) (endpoint : Endpoint) :
    queued (Function.update e i endpoint) + (e i).len = e.queued + endpoint.len := by
  have rest : ∑ j ∈ Finset.univ.erase i, (Function.update e i endpoint j).len =
      ∑ j ∈ Finset.univ.erase i, (e j).len := by
    refine Finset.sum_congr rfl fun j mem => ?_
    rw [Function.update_of_ne (Finset.ne_of_mem_erase mem)]
  unfold queued
  rw [← Finset.add_sum_erase _ _ (Finset.mem_univ i),
    ← Finset.add_sum_erase Finset.univ (fun j => (e j).len) (Finset.mem_univ i), rest,
    Function.update_self]
  omega

theorem Endpoints.queued_setCapability (e : Endpoints) (p : Position) (c : Capability) :
    (e.setCapability p c).queued = e.queued := by
  unfold queued
  refine Finset.sum_congr rfl fun i _ => ?_
  rw [setCapability_apply]

/-- After `n` accepted messages: the next sequence number, and where the
messages are. -/
structure Balance (core : Core) (n : Nat) : Prop where
  sequence : core.nextSequence = n + 1
  sent : core.messagesSent = n
  total : core.messagesSent =
    core.messagesReceived + core.endpoints.queued + core.droppedOnCleanup

/-- An accepted message takes the next sequence number. -/
theorem Balance.accept {s : IpcState} {n : Nat} (balance : Balance s.core n)
    (few : n + 1 < 2 ^ 64 - 1) {endpoints : Endpoints} {nextGeneration lastGeneration : Nat}
    (grown : endpoints.queued = s.endpoints.queued + 1) :
    Balance { s.core with
      endpoints
      nextSequence := satAdd s.nextSequence 1
      nextGeneration
      lastGeneration
      messagesSent := satAdd s.counters.messagesSent 1 } (n + 1) := by
  have sequence : s.nextSequence = n + 1 := balance.sequence
  have sent : s.counters.messagesSent = n := balance.sent
  have total : s.counters.messagesSent =
    s.counters.messagesReceived + s.endpoints.queued + s.counters.droppedOnCleanup := balance.total
  have nextFits : s.nextSequence + 1 ≤ maxWord := by simp only [maxWord]; omega
  have sentFits : s.counters.messagesSent + 1 ≤ maxWord := by simp only [maxWord]; omega
  refine ⟨?_, ?_, ?_⟩
  · exact (Lib.Word.satAdd_of_le nextFits).trans (by rw [sequence])
  · exact (Lib.Word.satAdd_of_le sentFits).trans (by rw [sent])
  · refine (Lib.Word.satAdd_of_le sentFits).trans ?_
    change _ = s.counters.messagesReceived + endpoints.queued + s.counters.droppedOnCleanup
    omega

/-- Every operation accounts for the messages it accepts, delivers or drops. -/
theorem Change.balance {s : IpcState} {op : Op} {event : Option Event} {core : Core}
    (change : Change s op event core) (table : s.endpoints.Sound) {n : Nat}
    (balance : Balance s.core n) (few : n + (accepted event.toList).length < 2 ^ 64 - 1) :
    Balance core (n + (accepted event.toList).length) ∧
      (accepted event.toList).map Packet.sequence =
        List.range' (n + 1) (accepted event.toList).length := by
  have sequence : s.nextSequence = n + 1 := balance.sequence
  have sent : s.counters.messagesSent = n := balance.sent
  have total : s.counters.messagesSent =
    s.counters.messagesReceived + s.endpoints.queued + s.counters.droppedOnCleanup := balance.total
  have moved : ∀ {endpoints : Endpoints}, endpoints.queued = s.endpoints.queued →
      s.counters.messagesSent =
        s.counters.messagesReceived + endpoints.queued + s.counters.droppedOnCleanup :=
    fun same => by rw [same]; exact total
  cases change with
  | quiet => exact ⟨balance, rfl⟩
  | @register other index cleared generation next isOp nonzero fresh free clears allocated =>
      have idle := ((table.endpoint index).idle (Endpoints.find_eq_some free)).1
      refine ⟨⟨sequence, sent, moved ?_⟩, rfl⟩
      rw [Endpoints.queued_setCapability, clears]
      have := Endpoints.queued_update s.endpoints index (freshEndpoint other)
      have none : (freshEndpoint other).len = 0 := rfl
      omega
  | grant isOp valid receive targetLive found free allocated =>
      exact ⟨⟨sequence, sent, moved (Endpoints.queued_setCapability ..)⟩, rfl⟩
  | cull removes spares => exact ⟨⟨sequence, sent, moved rfl⟩, rfl⟩
  | @retire other index G isOp found removes =>
      have shrunk := Endpoints.queued_update (s.endpoints.cull G) index Endpoint.empty
      have before : (s.endpoints.cull G).queued = s.endpoints.queued := rfl
      have length : (s.endpoints.cull G index).len = (s.endpoints index).len := rfl
      have none : Endpoint.empty.len = 0 := rfl
      have small : s.counters.droppedOnCleanup + (s.endpoints index).len ≤ maxWord := by
        simp only [maxWord]
        omega
      refine ⟨⟨sequence, sent, ?_⟩, rfl⟩
      dsimp only
      rw [Lib.Word.satAdd_of_le small]
      change s.counters.messagesSent = s.counters.messagesReceived + _ + _
      omega
  | @deliver sender receiver bytes index isOp short found space =>
      have grown := Endpoints.queued_update s.endpoints index
        ((s.endpoints index).deliver (composeMessage sender s.nextSequence 0 0 bytes))
      have length : ((s.endpoints index).deliver
        (composeMessage sender s.nextSequence 0 0 bytes)).len = (s.endpoints index).len + 1 := rfl
      refine ⟨balance.accept few (by omega), ?_⟩
      change [s.nextSequence] = [n + 1]
      rw [sequence]
  | @transfer sender destination transfer receiver rights bytes source index slot installed
      generation next isOp short checks allocated installs =>
      have grown := Endpoints.queued_update installed index
        ((installed index).deliver (composeMessage sender s.nextSequence
          (encodeHandle slot generation) rights.bits bytes))
      have length : ((installed index).deliver (composeMessage sender s.nextSequence
        (encodeHandle slot generation) rights.bits bytes)).len = (installed index).len + 1 := rfl
      have before : installed.queued = s.endpoints.queued := by
        rw [installs, Endpoints.queued_setCapability]
      refine ⟨balance.accept few (by omega), ?_⟩
      change [s.nextSequence] = [n + 1]
      rw [sequence]
  | @pop receiver output index message popped isOp found first room =>
      obtain ⟨-, -, -, shorter, -⟩ := Endpoint.pop_spec first (table.endpoint index).bounds.1
      have shrunk := Endpoints.queued_update s.endpoints index popped
      have nonempty : 1 ≤ s.endpoints.queued := by
        have : (s.endpoints index).len ≤ ∑ j, (s.endpoints j).len :=
          Finset.single_le_sum (f := fun j => (s.endpoints j).len) (fun _ _ => Nat.zero_le _)
            (Finset.mem_univ index)
        unfold Endpoints.queued
        omega
      refine ⟨⟨sequence, sent, ?_⟩, rfl⟩
      change s.counters.messagesSent = satAdd s.counters.messagesReceived 1 + _ +
        s.counters.droppedOnCleanup
      rw [Lib.Word.satAdd_of_le (by simp only [maxWord]; omega)]
      dsimp only
      omega
  | @waiting other index waiting isOp found =>
      have same := Endpoints.queued_update s.endpoints index { s.endpoints index with waiting }
      refine ⟨⟨sequence, sent, moved ?_⟩, rfl⟩
      dsimp only at same ⊢
      omega

/-- Over a whole run the accepted messages carry the numbers `1, 2, 3, …`. -/
theorem run_balance {ops : List Op} (nonzero : ∀ op ∈ ops, op.NonZero)
    (few : (accepted (events initial ops)).length < 2 ^ 64 - 1) :
    Balance (run initial ops).core (accepted (events initial ops)).length ∧
      (accepted (events initial ops)).map Packet.sequence =
        List.range' 1 (accepted (events initial ops)).length := by
  induction ops using List.reverseRecOn with
  | nil => exact ⟨⟨rfl, rfl, rfl⟩, rfl⟩
  | append_singleton ops op ih =>
      have nonzeroBefore : ∀ op ∈ ops, op.NonZero :=
        fun op mem => nonzero op (List.mem_append_left _ mem)
      have last : run initial (ops ++ [op]) = step (run initial ops) op := run_append ..
      have log : accepted (events initial (ops ++ [op])) = accepted (events initial ops) ++
          accepted (event op (exec (run initial ops) op).2).toList := by
        rw [events_append, events, events, List.append_nil, accepted, List.filterMap_append]
        rfl
      rw [log, List.length_append] at few ⊢
      obtain ⟨balance, sequences⟩ := ih nonzeroBefore (by omega)
      have sound := run_sound initial_sound nonzeroBefore
      obtain ⟨balanceNext, sequenceNext⟩ :=
        (exec_change (run initial ops) sound.table.lineages.unique op).balance sound.table balance few
      rw [last]
      refine ⟨balanceNext, ?_⟩
      rw [List.map_append, sequences, sequenceNext, Nat.add_comm _ 1, List.range'_append_1]

/-- Exactly-once delivery in order. In a run with fewer than `2 ^ 64 - 1` accepted
messages: from its registration on, and as long as it is not unregistered, what
a task has received followed by what is queued for it is what was accepted for
it, message by message and with the attachment, unless a revocation zeroed the
attachment in the queue; sequence numbers strictly increase over all accepted
messages; and every message sent was received, is queued or was dropped on
cleanup. -/
theorem exactly_once_in_order (ops : List Op) (nonzero : ∀ op ∈ ops, op.NonZero)
    (few : (accepted (events initial ops)).length < 2 ^ 64 - 1) :
    (∀ (before life : List Op) (taskId : Nat), ops = before ++ .register taskId :: life →
      (run initial before).find taskId = none →
      (step (run initial before) (.register taskId)).find taskId ≠ none →
      .unregister taskId ∉ life →
      ∃ i, (run initial ops).find taskId = some i ∧
        List.Forall₂ (Arrives (step (run initial before) (.register taskId)) taskId life)
          (acceptedBy taskId (events (step (run initial before) (.register taskId)) life))
          (deliveredTo taskId (events (step (run initial before) (.register taskId)) life) ++
            ((run initial ops).endpoints i).packets)) ∧
    ((accepted (events initial ops)).map Packet.sequence).Pairwise (· < ·) ∧
    (run initial ops).counters.messagesSent = (run initial ops).counters.messagesReceived +
      (run initial ops).endpoints.queued + (run initial ops).counters.droppedOnCleanup := by
  obtain ⟨balance, sequences⟩ := run_balance nonzero few
  refine ⟨?_, ?_, balance.total⟩
  · rintro before life taskId rfl fresh registered stays
    have nonzeroBefore : ∀ op ∈ before, op.NonZero := fun op mem => nonzero op (by simp [mem])
    have nonzeroLife : ∀ op ∈ life, op.NonZero := fun op mem => nonzero op (by simp [mem])
    have live : taskId ≠ 0 := nonzero (.register taskId) (by simp)
    have sound := run_sound initial_sound nonzeroBefore
    have soundStart := step_sound sound (nonzero (.register taskId) (by simp))
    obtain ⟨i, serves, start⟩ := register_serves sound fresh registered
    obtain ⟨servesLast, arrive⟩ := run_queue soundStart nonzeroLife live serves stays
    have final : run initial (before ++ .register taskId :: life) =
        run (step (run initial before) (.register taskId)) life := run_append ..
    rw [final]
    have coherent := (run_sound soundStart nonzeroLife).table.coherent
    refine ⟨i, coherent.find live servesLast.owner, ?_⟩
    rwa [start, List.nil_append] at arrive
  · rw [sequences]
    exact List.pairwise_lt_range'

/-- Task 1 grants itself a way to task 2 and sends it three messages, the last two
with a capability of its own. The third is still queued when task 1 is cleaned up. -/
def mailLife : List Op :=
  [.grant 1 2 CapabilityRights.send, .send 1 2 [1],
    .sendWithCapability 1 770 257 CapabilityRights.send [2, 2],
    .sendWithCapability 1 770 257 CapabilityRights.send [3],
    .receive 2 [0, 0], .receive 2 [0, 0], .unregister 1]

def mailRun : List Op := [.register 1] ++ .register 2 :: mailLife

/-- One attachment is delivered, the other one is zeroed with the cleanup. -/
theorem exactly_once_in_order_mailRun :
    (∃ i, (run initial mailRun).find 2 = some i ∧
      ((run initial mailRun).endpoints i).packets = [⟨1, 1, [3], 3, 0, 0⟩] ∧
      List.Forall₂ (Arrives (run initial [.register 1, .register 2]) 2 mailLife)
        [⟨1, 1, [1], 1, 0, 0⟩, ⟨1, 2, [2, 2], 2, 1026, 1⟩, ⟨1, 1, [3], 3, 1283, 1⟩]
        [⟨1, 1, [1], 1, 0, 0⟩, ⟨1, 2, [2, 2], 2, 1026, 1⟩, ⟨1, 1, [3], 3, 0, 0⟩]) ∧
    (run initial mailRun).counters.messagesSent = 3 := by
  obtain ⟨lifetimes, -, total⟩ := exactly_once_in_order mailRun (by decide) (by decide +kernel)
  obtain ⟨i, found, arrive⟩ := lifetimes [.register 1] _ 2 rfl (by decide +kernel)
    (by decide +kernel) (by simp [mailLife])
  have queued : ∀ j, (run initial mailRun).find 2 = some j →
      ((run initial mailRun).endpoints j).packets = [⟨1, 1, [3], 3, 0, 0⟩] := by
    decide +kernel
  have received : deliveredTo 2 (events (step (run initial [.register 1]) (.register 2)) mailLife) =
      [⟨1, 1, [1], 1, 0, 0⟩, ⟨1, 2, [2, 2], 2, 1026, 1⟩] := by
    decide +kernel
  have sent : acceptedBy 2 (events (step (run initial [.register 1]) (.register 2)) mailLife) =
      [⟨1, 1, [1], 1, 0, 0⟩, ⟨1, 2, [2, 2], 2, 1026, 1⟩, ⟨1, 1, [3], 3, 1283, 1⟩] := by
    decide +kernel
  rw [received, sent, queued i found] at arrive
  exact ⟨⟨i, found, queued i found, arrive⟩, by rw [total]; decide +kernel⟩

end CloudOS.Ipc
