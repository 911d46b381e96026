import CloudOS.Ipc.Revocation
import CloudOS.Lib.Closure

/-!
What a revocation does to the endpoint table, in one step.

`Endpoints.cull G e` deactivates the capabilities whose generation lies in `G`
and zeroes the queued attachments that name one. The loops of the revocation
code are shown to be culls: the generations they remove are exactly those
reachable over `Child`, the relation that follows `parent_generation` links
downward. The reachability argument itself is `Lib.Closure`.
-/

namespace CloudOS.Ipc

open Lib.Word (satAdd maxWord)
open Lib.RingBuffer (cell contents)

/-! ### Culling -/

/-- The generation a message's attachment names. -/
def Message.attachment (message : Message) : Option Nat :=
  (decodeHandle message.capabilityHandle).map Prod.snd

/-- The attachment names a generation of `G`. -/
def Message.Names (G : Finset Nat) (message : Message) : Prop :=
  ∃ g ∈ G, message.attachment = some g

instance (G : Finset Nat) (message : Message) : Decidable (message.Names G) :=
  inferInstanceAs (Decidable (∃ g ∈ G, message.attachment = some g))

def Message.cull (G : Finset Nat) (message : Message) : Message :=
  if message.Names G then message.strip else message

namespace Endpoint

/-- Cell `k` of the ring holds a queued message. -/
def Queued (endpoint : Endpoint) (k : Fin queueDepth) : Prop :=
  ∃ offset < endpoint.len, cell queueDepth (endpoint.head + offset) = k

instance (endpoint : Endpoint) (k : Fin queueDepth) : Decidable (endpoint.Queued k) :=
  inferInstanceAs (Decidable (∃ offset < endpoint.len, _))

/-- The queue with the attachments to `G` zeroed. -/
def cullQueue (G : Finset Nat) (endpoint : Endpoint) : Fin queueDepth → Message :=
  fun k => if endpoint.Queued k then (endpoint.queue k).cull G else endpoint.queue k

def cull (G : Finset Nat) (endpoint : Endpoint) : Endpoint :=
  { endpoint with
    queue := endpoint.cullQueue G
    capabilities := fun slot =>
      if (endpoint.capabilities slot).active = true ∧ (endpoint.capabilities slot).generation ∈ G
      then Capability.empty else endpoint.capabilities slot }

/-- The ring cells whose queued attachment names a generation of `G`. -/
def strippedCells (G : Finset Nat) (endpoint : Endpoint) : Finset (Fin queueDepth) :=
  Finset.univ.filter fun k => endpoint.Queued k ∧ (endpoint.queue k).Names G

end Endpoint

namespace Endpoints

def cull (G : Finset Nat) (e : Endpoints) : Endpoints := fun i => (e i).cull G

/-- The number of queued attachments that name a generation of `G`. -/
def strippedCount (G : Finset Nat) (e : Endpoints) : Nat := ∑ i, ((e i).strippedCells G).card

/-- The generations of the active capabilities. -/
def activeGenerations (e : Endpoints) : Finset Nat :=
  e.activePositions.image fun p => (e.capability p).generation

/-- No two active capabilities carry the same generation. -/
def GenerationsUnique (e : Endpoints) : Prop :=
  ∀ p q, (e.capability p).active = true → (e.capability q).active = true →
    (e.capability p).generation = (e.capability q).generation → p = q

/-- `b` is the generation of an active capability derived from generation `a`. -/
def Child (e : Endpoints) (a b : Nat) : Prop :=
  ∃ q, (e.capability q).active = true ∧ (e.capability q).parentGeneration = a ∧
    (e.capability q).generation = b

end Endpoints

/-! ### Messages -/

@[simp] theorem Message.attachment_strip (message : Message) : message.strip.attachment = none := by
  simp [Message.attachment, Message.strip]

theorem Message.not_names_strip (G : Finset Nat) (message : Message) : ¬ message.strip.Names G := by
  simp [Message.Names]

theorem Message.names_union {G H : Finset Nat} {message : Message} :
    message.Names (G ∪ H) ↔ message.Names G ∨ message.Names H := by
  simp only [Message.Names, Finset.mem_union, or_and_right, exists_or]

theorem Message.cull_union (G H : Finset Nat) (message : Message) :
    (message.cull G).cull H = message.cull (G ∪ H) := by
  by_cases named : message.Names G
  · simp [Message.cull, named, Message.names_union, Message.not_names_strip]
  · simp [Message.cull, named, Message.names_union]

theorem Message.names_cull {G H : Finset Nat} {message : Message} :
    (message.cull G).Names H ↔ message.Names H ∧ ¬ message.Names G := by
  by_cases named : message.Names G
  · simp [Message.cull, named, Message.not_names_strip]
  · simp [Message.cull, named]

theorem Message.cull_empty (message : Message) : message.cull ∅ = message := by
  simp [Message.cull, Message.Names]

/-! ### Endpoints -/

@[simp] theorem Endpoint.queued_cull {G : Finset Nat} {endpoint : Endpoint} {k : Fin queueDepth} :
    (endpoint.cull G).Queued k ↔ endpoint.Queued k := Iff.rfl

/-- Culling maps the queue message by message. -/
theorem Endpoint.messages_cull (G : Finset Nat) (endpoint : Endpoint) :
    (endpoint.cull G).messages = endpoint.messages.map (Message.cull G) := by
  apply Lib.RingBuffer.contents_map
  intro k hk
  have queued : endpoint.Queued (cell queueDepth (endpoint.head + k)) := ⟨k, hk, rfl⟩
  simp [Endpoint.cull, Endpoint.cullQueue, queued]

/-- Two culls, one after the other, are one. -/
theorem Endpoint.cull_union (G H : Finset Nat) (endpoint : Endpoint) :
    (endpoint.cull G).cull H = endpoint.cull (G ∪ H) := by
  have queues : (endpoint.cull G).cullQueue H = endpoint.cullQueue (G ∪ H) := by
    funext k
    by_cases queued : endpoint.Queued k
    · simp only [Endpoint.cullQueue, Endpoint.queued_cull, if_pos queued]
      simp only [Endpoint.cull, Endpoint.cullQueue, if_pos queued, Message.cull_union]
    · simp only [Endpoint.cullQueue, Endpoint.queued_cull, if_neg queued]
      simp only [Endpoint.cull, Endpoint.cullQueue, if_neg queued]
  have slots : ((endpoint.cull G).cull H).capabilities = (endpoint.cull (G ∪ H)).capabilities := by
    funext slot
    simp only [Endpoint.cull, Finset.mem_union]
    by_cases removed : (endpoint.capabilities slot).active = true ∧
        (endpoint.capabilities slot).generation ∈ G
    · simp [removed, Capability.empty]
    · by_cases active : (endpoint.capabilities slot).active = true
      · have outside : (endpoint.capabilities slot).generation ∉ G := fun h => removed ⟨active, h⟩
        simp [active, outside]
      · simp [active]
  calc (endpoint.cull G).cull H
      = { endpoint with
          queue := (endpoint.cull G).cullQueue H
          capabilities := ((endpoint.cull G).cull H).capabilities } := rfl
    _ = endpoint.cull (G ∪ H) := by rw [queues, slots]; rfl

/-- The second cull strips what the first one left. -/
theorem Endpoint.strippedCells_union (G H : Finset Nat) (endpoint : Endpoint) :
    (endpoint.strippedCells (G ∪ H)).card =
      (endpoint.strippedCells G).card + ((endpoint.cull G).strippedCells H).card := by
  have names : ∀ k, endpoint.Queued k →
      (((endpoint.cull G).queue k).Names H ↔
        (endpoint.queue k).Names H ∧ ¬ (endpoint.queue k).Names G) := by
    intro k queued
    simp only [Endpoint.cull, Endpoint.cullQueue, if_pos queued, Message.names_cull]
  have split : endpoint.strippedCells (G ∪ H) =
      endpoint.strippedCells G ∪ (endpoint.cull G).strippedCells H := by
    ext k
    simp only [Endpoint.strippedCells, Finset.mem_filter, Finset.mem_univ, true_and,
      Finset.mem_union, Endpoint.queued_cull, Message.names_union]
    by_cases queued : endpoint.Queued k
    · simp only [queued, true_and, names k queued]
      tauto
    · simp [queued]
  rw [split, Finset.card_union_of_disjoint]
  rw [Finset.disjoint_left]
  intro k inFirst inSecond
  simp only [Endpoint.strippedCells, Finset.mem_filter, Finset.mem_univ, true_and,
    Endpoint.queued_cull] at inFirst inSecond
  exact ((names k inFirst.1).mp inSecond.2).2 inFirst.2

namespace Endpoints

theorem cull_union (G H : Finset Nat) (e : Endpoints) : (e.cull G).cull H = e.cull (G ∪ H) :=
  funext fun i => Endpoint.cull_union G H (e i)

theorem strippedCount_union (G H : Finset Nat) (e : Endpoints) :
    e.strippedCount (G ∪ H) = e.strippedCount G + (e.cull G).strippedCount H := by
  simp only [strippedCount, cull, Endpoint.strippedCells_union, Finset.sum_add_distrib]

theorem cull_empty (e : Endpoints) : e.cull ∅ = e := by
  funext i
  have queues : (e i).cullQueue ∅ = (e i).queue := by
    funext k
    simp [Endpoint.cullQueue, Message.cull_empty]
  simp [cull, Endpoint.cull, queues]

theorem strippedCount_empty (e : Endpoints) : e.strippedCount ∅ = 0 := by
  simp [strippedCount, Endpoint.strippedCells, Message.Names]

theorem capability_cull (G : Finset Nat) (e : Endpoints) (p : Position) :
    (e.cull G).capability p =
      if (e.capability p).active = true ∧ (e.capability p).generation ∈ G
      then Capability.empty else e.capability p := rfl

/-- What is left is active and was not revoked. -/
theorem active_cull {G : Finset Nat} {e : Endpoints} {p : Position} :
    ((e.cull G).capability p).active = true ↔
      (e.capability p).active = true ∧ (e.capability p).generation ∉ G := by
  rw [capability_cull]
  split
  · rename_i removed
    simp [Capability.empty, removed.2]
  · rename_i kept
    exact ⟨fun active => ⟨active, fun mem => kept ⟨active, mem⟩⟩, fun h => h.1⟩

/-- An active capability of the culled table is the one that was there. -/
theorem capability_cull_of_active {G : Finset Nat} {e : Endpoints} {p : Position}
    (active : ((e.cull G).capability p).active = true) :
    (e.cull G).capability p = e.capability p := by
  rw [capability_cull, if_neg]
  exact fun removed => (active_cull.mp active).2 removed.2

theorem mem_activeGenerations {e : Endpoints} {g : Nat} :
    g ∈ e.activeGenerations ↔
      ∃ p, (e.capability p).active = true ∧ (e.capability p).generation = g := by
  simp [activeGenerations]

theorem mem_activeGenerations_cull {G : Finset Nat} {e : Endpoints} {g : Nat} :
    g ∈ (e.cull G).activeGenerations ↔ g ∈ e.activeGenerations ∧ g ∉ G := by
  simp only [mem_activeGenerations]
  constructor
  · rintro ⟨p, active, rfl⟩
    rw [capability_cull_of_active active]
    exact ⟨⟨p, (active_cull.mp active).1, rfl⟩, (active_cull.mp active).2⟩
  · rintro ⟨⟨p, active, rfl⟩, outside⟩
    have active' := active_cull.mpr ⟨active, outside⟩
    exact ⟨p, active', by rw [capability_cull_of_active active']⟩

/-- The children that are left are those that were. -/
theorem child_cull {G : Finset Nat} {e : Endpoints} {a b : Nat} :
    (e.cull G).Child a b ↔ e.Child a b ∧ b ∉ G := by
  constructor
  · rintro ⟨q, active, rfl, rfl⟩
    rw [capability_cull_of_active active]
    exact ⟨⟨q, (active_cull.mp active).1, rfl, rfl⟩, (active_cull.mp active).2⟩
  · rintro ⟨⟨q, active, rfl, rfl⟩, outside⟩
    have active' := active_cull.mpr ⟨active, outside⟩
    exact ⟨q, active', by rw [capability_cull_of_active active'],
      by rw [capability_cull_of_active active']⟩

theorem Child.mem_activeGenerations {e : Endpoints} {a b : Nat} (child : e.Child a b) :
    b ∈ e.activeGenerations := by
  obtain ⟨q, active, -, generation⟩ := child
  exact Endpoints.mem_activeGenerations.mpr ⟨q, active, generation⟩

theorem GenerationsUnique.cull {e : Endpoints} (unique : e.GenerationsUnique) (G : Finset Nat) :
    (e.cull G).GenerationsUnique := by
  intro p q hp hq same
  rw [capability_cull_of_active hp, capability_cull_of_active hq] at same
  exact unique p q (active_cull.mp hp).1 (active_cull.mp hq).1 same

/-- Deactivating capabilities keeps the generations unique. -/
theorem GenerationsUnique.congr {e e' : Endpoints} (unique : e.GenerationsUnique)
    (same : ∀ p, (e'.capability p).active = true → e'.capability p = e.capability p) :
    e'.GenerationsUnique := by
  intro p q hp hq generation
  rw [same p hp, same q hq] at generation
  exact unique p q (same p hp ▸ hp) (same q hq ▸ hq) generation

/-- So does installing a capability of an unused generation. -/
theorem GenerationsUnique.install {e : Endpoints} (unique : e.GenerationsUnique) {p : Position}
    {c : Capability}
    (fresh : ∀ q, (e.capability q).active = true → (e.capability q).generation ≠ c.generation) :
    (e.setCapability p c).GenerationsUnique := by
  intro q r activeQ activeR same
  rw [capability_setCapability] at activeQ activeR
  rw [capability_setCapability, capability_setCapability] at same
  by_cases hereQ : q = p
  · by_cases hereR : r = p
    · rw [hereQ, hereR]
    · rw [if_pos hereQ, if_neg hereR] at same
      rw [if_neg hereR] at activeR
      exact absurd same.symm (fresh r activeR)
  · rw [if_neg hereQ] at activeQ
    by_cases hereR : r = p
    · rw [if_neg hereQ, if_pos hereR] at same
      exact absurd same (fresh q activeQ)
    · rw [if_neg hereQ, if_neg hereR] at same
      rw [if_neg hereR] at activeR
      exact unique q r activeQ activeR same

end Endpoints

/-! ### Stripping, loop by loop -/

theorem Message.names_singleton {generation : Nat} {message : Message} :
    message.Names {generation} ↔ message.attachment = some generation := by
  simp [Message.Names]

/-- One round strips the message at an offset if it names the generation. -/
theorem stripOffset_of_names {generation : Nat} {acc : Endpoint × Nat} {offset : Nat}
    (named : (acc.1.queue (cell queueDepth (acc.1.head + offset))).Names {generation}) :
    stripOffset generation acc offset =
      (let index := cell queueDepth (acc.1.head + offset)
       ({ acc.1 with queue := Function.update acc.1.queue index (acc.1.queue index).strip },
         satAdd acc.2 1)) := by
  rw [Message.names_singleton, Message.attachment] at named
  obtain ⟨⟨slot, g⟩, decoded, rfl⟩ := Option.map_eq_some_iff.mp named
  simp [stripOffset, decoded]

theorem stripOffset_of_not_names {generation : Nat} {acc : Endpoint × Nat} {offset : Nat}
    (unnamed : ¬ (acc.1.queue (cell queueDepth (acc.1.head + offset))).Names {generation}) :
    stripOffset generation acc offset = acc := by
  rw [Message.names_singleton, Message.attachment] at unnamed
  unfold stripOffset
  dsimp only
  split
  · rfl
  · rename_i slot g decoded
    rw [if_neg]
    rintro rfl
    simp [decoded] at unnamed

/-- The inner loop after its first `n` offsets: the cells visited so far are
culled and the counter has grown by the attachments found in them. A cell that
is visited twice is found stripped the second time. -/
theorem foldl_stripOffset (generation : Nat) (endpoint : Endpoint) {stripped : Nat}
    (small : stripped ≤ maxWord) (n : Nat) :
    (List.range n).foldl (stripOffset generation) (endpoint, stripped) =
      ({ endpoint with queue := fun k =>
          if ∃ offset < n, cell queueDepth (endpoint.head + offset) = k
          then (endpoint.queue k).cull {generation} else endpoint.queue k },
        satAdd stripped (Finset.univ.filter fun k =>
          (∃ offset < n, cell queueDepth (endpoint.head + offset) = k) ∧
            (endpoint.queue k).Names {generation}).card) := by
  induction n with
  | zero =>
      simp only [List.range_zero, List.foldl_nil, Nat.not_lt_zero, false_and, exists_false,
        Finset.filter_false, Finset.card_empty, if_false]
      rw [satAdd, Nat.add_zero, Nat.min_eq_left small]
  | succ n ih =>
      rw [List.range_succ, List.foldl_append, ih, List.foldl_cons, List.foldl_nil]
      have visited : ∀ k, (∃ offset < n + 1, cell queueDepth (endpoint.head + offset) = k) ↔
          (∃ offset < n, cell queueDepth (endpoint.head + offset) = k) ∨
            cell queueDepth (endpoint.head + n) = k := by
        intro k
        simp only [Nat.lt_succ_iff_lt_or_eq, or_and_right, exists_or, exists_eq_left]
      by_cases seen : ∃ offset < n, cell queueDepth (endpoint.head + offset) =
          cell queueDepth (endpoint.head + n)
      · -- the cell was culled before, so this visit finds nothing and adds no cell
        have same : ∀ k, (∃ offset < n + 1, cell queueDepth (endpoint.head + offset) = k) ↔
            ∃ offset < n, cell queueDepth (endpoint.head + offset) = k := by
          intro k
          rw [visited]
          constructor
          · rintro (h | rfl)
            · exact h
            · exact seen
          · exact Or.inl
        rw [stripOffset_of_not_names]
        · simp only [same]
        · simp [seen, Message.names_cull]
      · by_cases named : (endpoint.queue (cell queueDepth (endpoint.head + n))).Names {generation}
        · rw [stripOffset_of_names (by simpa [seen] using named)]
          refine Prod.ext ?_ ?_
          · dsimp only
            congr 1
            funext k
            by_cases here : k = cell queueDepth (endpoint.head + n)
            · subst here
              rw [Function.update_self, if_neg seen, if_pos ((visited _).mpr (Or.inr rfl)),
                Message.cull, if_pos named]
            · rw [Function.update_of_ne here]
              simp only [visited, Ne.symm here, or_false]
          · dsimp only
            rw [Lib.Word.satAdd_satAdd]
            congr 1
            rw [← Finset.card_insert_of_notMem (a := cell queueDepth (endpoint.head + n))]
            · congr 1
              ext k
              simp only [Finset.mem_insert, Finset.mem_filter, Finset.mem_univ, true_and, visited]
              constructor
              · rintro (rfl | h)
                · exact ⟨Or.inr rfl, named⟩
                · exact ⟨Or.inl h.1, h.2⟩
              · rintro ⟨h | rfl, hk⟩
                · exact Or.inr ⟨h, hk⟩
                · exact Or.inl rfl
            · simp [seen]
        · rw [stripOffset_of_not_names (by simpa [seen] using named)]
          refine Prod.ext ?_ ?_
          · dsimp only
            congr 1
            funext k
            by_cases here : k = cell queueDepth (endpoint.head + n)
            · subst here
              rw [if_neg seen, if_pos ((visited _).mpr (Or.inr rfl)), Message.cull, if_neg named]
            · simp only [visited, Ne.symm here, or_false]
          · dsimp only
            congr 2
            ext k
            simp only [Finset.mem_filter, Finset.mem_univ, true_and, visited]
            constructor
            · exact fun h => ⟨Or.inl h.1, h.2⟩
            · rintro ⟨h | rfl, hk⟩
              · exact ⟨h, hk⟩
              · exact absurd hk named

theorem stripEndpoint_eq (generation : Nat) (endpoint : Endpoint) {stripped : Nat}
    (small : stripped ≤ maxWord) :
    stripEndpoint generation endpoint stripped =
      ({ endpoint with queue := endpoint.cullQueue {generation} },
        satAdd stripped (endpoint.strippedCells {generation}).card) :=
  foldl_stripOffset generation endpoint small endpoint.len

/-- The outer loop after any duplicate-free run of endpoint indices. -/
theorem foldl_stripEndpoint (generation : Nat) (e : Endpoints) {stripped : Nat}
    (small : stripped ≤ maxWord) (indices : List (Fin maxEndpoints)) (nodup : indices.Nodup) :
    indices.foldl (fun acc i =>
        let result := stripEndpoint generation (acc.1 i) acc.2
        (Function.update acc.1 i result.1, result.2)) (e, stripped) =
      (fun i => if i ∈ indices then { e i with queue := (e i).cullQueue {generation} } else e i,
        satAdd stripped ((indices.map fun i => ((e i).strippedCells {generation}).card).sum)) := by
  induction indices generalizing e stripped with
  | nil => simp [satAdd, Nat.min_eq_left small]
  | cons i indices ih =>
      have fresh := (List.nodup_cons.mp nodup).1
      rw [List.foldl_cons, stripEndpoint_eq generation (e i) small,
        ih _ (Lib.Word.satAdd_le _ _) (List.nodup_cons.mp nodup).2]
      refine Prod.ext ?_ ?_
      · funext j
        dsimp only
        by_cases here : j = i
        · subst here
          simp [fresh]
        · simp [here]
      · dsimp only
        rw [Lib.Word.satAdd_satAdd, List.map_cons, List.sum_cons]
        congr 3
        apply List.map_congr_left
        intro j hj
        have : j ≠ i := fun same => fresh (same ▸ hj)
        rw [Function.update_of_ne this]

namespace Endpoints

/-- The loop over all queues strips every message that names the generation. -/
theorem stripQueuedGeneration_eq (e : Endpoints) (generation : Nat) :
    e.stripQueuedGeneration generation =
      (fun i => { e i with queue := (e i).cullQueue {generation} },
        satAdd 0 (e.strippedCount {generation})) := by
  rw [stripQueuedGeneration,
    foldl_stripEndpoint generation e (Nat.zero_le _) _ (List.nodup_finRange _)]
  refine Prod.ext ?_ ?_
  · simp
  · simp [strippedCount, Fin.sum_univ_def]

/-- Removing a generation and stripping it from the queues is a cull, because
no other active capability carries it. -/
theorem removeGeneration_strip {e removed : Endpoints} (unique : e.GenerationsUnique)
    {generation : Nat} (found : e.removeGeneration generation = some removed) :
    removed.stripQueuedGeneration generation =
        (e.cull {generation}, satAdd 0 (e.strippedCount {generation})) ∧
      generation ∈ e.activeGenerations := by
  obtain ⟨p, hp, rfl⟩ := Option.map_eq_some_iff.mp found
  have matched := findPosition_eq_some hp
  simp only [Bool.and_eq_true, beq_iff_eq] at matched
  obtain ⟨active, rfl⟩ := matched
  refine ⟨?_, mem_activeGenerations.mpr ⟨p, active, rfl⟩⟩
  have slots : ∀ i slot, ((e.setCapability p Capability.empty) i).capabilities slot =
      ((e.cull {(e.capability p).generation}) i).capabilities slot := by
    intro i slot
    change (e.setCapability p Capability.empty).capability (i, slot) =
      (e.cull {(e.capability p).generation}).capability (i, slot)
    rw [capability_setCapability, capability_cull]
    by_cases here : (i, slot) = p
    · subst here
      simp [active]
    · rw [if_neg here, if_neg]
      rintro ⟨active', same⟩
      exact here (unique _ _ active' active (Finset.mem_singleton.mp same))
  rw [stripQueuedGeneration_eq]
  refine Prod.ext ?_ ?_
  · funext i
    have := funext (slots i)
    simp only [setCapability_apply] at this ⊢
    rw [this]
    rfl
  · dsimp only
    congr 1
    unfold strippedCount
    refine Finset.sum_congr rfl fun i _ => ?_
    rw [setCapability_apply]
    rfl

end Endpoints

end CloudOS.Ipc
