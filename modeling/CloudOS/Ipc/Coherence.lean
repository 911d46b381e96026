import CloudOS.Ipc.Change
import CloudOS.Ipc.Invariants

/-!
Every operation keeps the table coherent.

`Sound` is the invariant that runs maintain. It adds to `Coherent` what the
checks of the source do not look at but the operations rely on: no capability
targets task 0, a capability with the receive right is held by its target, and
a vacant endpoint has nothing queued and nobody waiting. Each way of changing
the table has one preservation lemma; `Change.sound` puts them together.
-/

namespace CloudOS.Ipc

open Lib.Closure
open Lib.RingBuffer (cell contents)

/-! ### The capability forest -/

namespace Endpoints

/-- Lineages are about active capabilities only. -/
theorem Lineages.congr {e e' : Endpoints} (lineages : e.Lineages)
    (same : ∀ p, (e'.capability p).active = true ∨ (e.capability p).active = true →
      e'.capability p = e.capability p) : e'.Lineages where
  unique := by
    intro p q activeP activeQ sameGeneration
    have eqP := same p (Or.inl activeP)
    have eqQ := same q (Or.inl activeQ)
    rw [eqP] at activeP sameGeneration
    rw [eqQ] at activeQ sameGeneration
    exact lineages.unique p q activeP activeQ sameGeneration
  wellFormed := by
    intro p active
    have eq := same p (Or.inl active)
    rw [eq] at active ⊢
    exact lineages.wellFormed p active
  derived := by
    intro p active hasParent
    have eq := same p (Or.inl active)
    rw [eq] at active hasParent ⊢
    obtain ⟨q, derived⟩ := lineages.derived p active hasParent
    refine ⟨q, ?_⟩
    rwa [same q (Or.inr derived.active)]

/-- Removing a set that contains the children of its members leaves no orphan. -/
theorem Lineages.cull {e : Endpoints} (lineages : e.Lineages) {G : Finset Nat}
    (closed : ClosedUnder e.Child (G : Set Nat)) : (e.cull G).Lineages where
  unique := lineages.unique.cull G
  wellFormed := by
    intro p active
    rw [capability_cull_of_active active]
    exact lineages.wellFormed p (active_cull.mp active).1
  derived := by
    intro p active hasParent
    rw [capability_cull_of_active active] at hasParent ⊢
    obtain ⟨wasActive, kept⟩ := active_cull.mp active
    obtain ⟨q, derived⟩ := lineages.derived p wasActive hasParent
    have parentKept : (e.capability q).generation ∉ G := fun removed =>
      kept (closed _ removed _ ⟨p, wasActive, derived.generation.symm, rfl⟩)
    refine ⟨q, ?_⟩
    rwa [capability_cull_of_active (active_cull.mpr ⟨derived.active, parentKept⟩)]

/-- A new capability with a fresh generation joins the forest below its parent. -/
theorem Lineages.install {e : Endpoints} (lineages : e.Lineages) {p : Position} {c : Capability}
    (inactive : (e.capability p).active = false)
    (fresh : ∀ q, (e.capability q).active = true → (e.capability q).generation ≠ c.generation)
    (formed : c.WellFormed)
    (derived : c.parentGeneration ≠ 0 → ∃ q, c.DerivedFrom (e.capability q)) :
    (e.setCapability p c).Lineages := by
  have elsewhere : ∀ q, (e.capability q).active = true →
      (e.setCapability p c).capability q = e.capability q := by
    intro q active
    rw [capability_setCapability, if_neg]
    rintro rfl
    rw [inactive] at active
    cases active
  constructor
  · exact lineages.unique.install fresh
  · intro q active
    rw [capability_setCapability] at active ⊢
    by_cases here : q = p
    · rwa [if_pos here]
    · rw [if_neg here] at active ⊢
      exact lineages.wellFormed q active
  · intro q active hasParent
    rw [capability_setCapability] at active hasParent ⊢
    by_cases here : q = p
    · rw [if_pos here] at hasParent ⊢
      obtain ⟨r, derivedFrom⟩ := derived hasParent
      exact ⟨r, by rwa [elsewhere r derivedFrom.active]⟩
    · rw [if_neg here] at active hasParent ⊢
      obtain ⟨r, derivedFrom⟩ := lineages.derived q active hasParent
      exact ⟨r, by rwa [elsewhere r derivedFrom.active]⟩

/-- A parentless capability is below a set of active roots only as a root. -/
theorem Lineages.mem_roots_of_below {e : Endpoints} (lineages : e.Lineages) {roots : Set Nat}
    (activeRoots : ∀ g ∈ roots, g ∈ e.activeGenerations) {p : Position}
    (active : (e.capability p).active = true) (parentless : (e.capability p).parentGeneration = 0)
    (mem : (e.capability p).generation ∈ below e.Child roots) :
    (e.capability p).generation ∈ roots := by
  have nonzero : ∀ g ∈ e.activeGenerations, g ≠ 0 := by
    intro g mem
    obtain ⟨q, activeQ, rfl⟩ := mem_activeGenerations.mp mem
    exact (lineages.wellFormed q activeQ).generation
  obtain ⟨a, root, path⟩ := mem
  rcases Relation.ReflTransGen.cases_tail path with same | ⟨b, toParent, q, activeQ, parent, same⟩
  · rwa [same]
  · -- the parent would be generation 0, which no active capability carries
    rw [lineages.unique q p activeQ active same, parentless] at parent
    subst parent
    rcases Relation.ReflTransGen.cases_tail toParent with same | ⟨c, -, child⟩
    · subst same
      exact absurd rfl (nonzero _ (activeRoots _ root))
    · exact absurd rfl (nonzero _ child.mem_activeGenerations)

end Endpoints

/-! ### Queues -/

namespace Endpoint

theorem messages_deliver {endpoint : Endpoint} (space : endpoint.len < queueDepth)
    (message : Message) : (endpoint.deliver message).messages = endpoint.messages ++ [message] :=
  Lib.RingBuffer.contents_push _ _ space _

theorem pop_capabilities {endpoint popped : Endpoint} {message : Message}
    (first : endpoint.pop = some (message, popped)) :
    popped.capabilities = endpoint.capabilities := by
  unfold pop at first
  split at first
  · cases first
  · simp only [Option.some.injEq, Prod.mk.injEq] at first
    rw [← first.2]

/-- A successful pop takes the oldest message and leaves the rest. -/
theorem pop_spec {endpoint popped : Endpoint} {message : Message}
    (first : endpoint.pop = some (message, popped)) (bound : endpoint.len ≤ queueDepth) :
    endpoint.messages = message :: popped.messages ∧ popped.owner = endpoint.owner ∧
      popped.waiting = endpoint.waiting ∧ popped.len + 1 = endpoint.len ∧
      popped.head < queueDepth := by
  unfold pop front at first
  by_cases vacant : endpoint.len = 0
  · simp [vacant] at first
  · simp only [if_neg vacant, Option.some.injEq, Prod.mk.injEq] at first
    obtain ⟨rfl, rfl⟩ := first
    have restLength : endpoint.len - 1 + 1 = endpoint.len := Nat.succ_pred_eq_of_ne_zero vacant
    have advanced : (endpoint.head + 1) % queueDepth < queueDepth := Nat.mod_lt _ (by decide)
    refine ⟨?_, rfl, rfl, restLength, ?_⟩
    · have below : endpoint.len - 1 < queueDepth := by omega
      have split := Lib.RingBuffer.contents_pop endpoint.queue endpoint.head below Message.empty
      rw [restLength] at split
      rw [messages, split]
      by_cases last : endpoint.len - 1 = 0
      · simp [messages, last, Lib.RingBuffer.contents]
      · simp [messages, last]
    · dsimp only
      split
      · decide
      · exact advanced

/-- An attachment that was zeroed is honoured by saying nothing. -/
theorem Honours.cull {endpoint : Endpoint} {message : Message}
    (honours : endpoint.Honours message) (G : Finset Nat) :
    (endpoint.cull G).Honours (message.cull G) := by
  unfold Message.cull
  split
  · exact Or.inl ⟨rfl, rfl⟩
  · rename_i unnamed
    rcases honours with bare | ⟨slot, decoded, active, rights⟩
    · exact Or.inl bare
    · have kept : (endpoint.capabilities slot).generation ∉ G := by
        intro removed
        refine unnamed ⟨_, removed, ?_⟩
        rw [Message.attachment, decoded]
        rfl
      have same : (endpoint.cull G).capabilities slot = endpoint.capabilities slot :=
        if_neg fun both => kept both.2
      exact Or.inr ⟨slot, by rw [same]; exact decoded, by rw [same]; exact active,
        by rw [same]; exact rights⟩

/-- Whether an attachment is honoured depends on the active capabilities only. -/
theorem Honours.congr {endpoint endpoint' : Endpoint} {message : Message}
    (honours : endpoint.Honours message)
    (same : ∀ slot, (endpoint.capabilities slot).active = true →
      endpoint'.capabilities slot = endpoint.capabilities slot) : endpoint'.Honours message := by
  rcases honours with bare | ⟨slot, decoded, active, rights⟩
  · exact Or.inl bare
  · have eq := same slot active
    exact Or.inr ⟨slot, by rw [eq]; exact decoded, by rw [eq]; exact active,
      by rw [eq]; exact rights⟩

end Endpoint

/-! ### One endpoint -/

/-- What the invariant of runs says about one endpoint, given the owners of the
whole table. -/
structure Endpoint.Sound (owners : Set Nat) (endpoint : Endpoint) : Prop where
  bounds : endpoint.len ≤ queueDepth ∧ endpoint.head < queueDepth
  vacant : endpoint.owner = 0 → ∀ slot, (endpoint.capabilities slot).active = false
  idle : endpoint.owner = 0 → endpoint.len = 0 ∧ endpoint.waiting = false
  rooted : endpoint.owner ≠ 0 → endpoint.Rooted
  target : ∀ slot, (endpoint.capabilities slot).active = true →
    (endpoint.capabilities slot).target ∈ owners ∧ (endpoint.capabilities slot).target ≠ 0
  receive : ∀ slot, (endpoint.capabilities slot).active = true →
    (endpoint.capabilities slot).rights.contains CapabilityRights.receive = true →
    (endpoint.capabilities slot).target = endpoint.owner
  attachments : endpoint.owner ≠ 0 → ∀ message ∈ endpoint.messages, endpoint.Honours message

namespace Endpoint

variable {owners owners' : Set Nat} {endpoint : Endpoint}

theorem sound_empty (owners : Set Nat) : Endpoint.empty.Sound owners where
  bounds := ⟨Nat.zero_le _, by decide⟩
  vacant := fun _ _ => rfl
  idle := fun _ => ⟨rfl, rfl⟩
  rooted := fun live => absurd rfl live
  target := fun _ active => by cases active
  receive := fun _ active => by cases active
  attachments := fun live => absurd rfl live

theorem Sound.mono (sound : endpoint.Sound owners)
    (kept : ∀ slot, (endpoint.capabilities slot).active = true →
      (endpoint.capabilities slot).target ∈ owners →
      (endpoint.capabilities slot).target ∈ owners') : endpoint.Sound owners' :=
  { sound with
    target := fun slot active =>
      ⟨kept slot active (sound.target slot active).1, (sound.target slot active).2⟩ }

/-- Another queue and another waiting flag in a live endpoint. -/
theorem Sound.requeue (sound : endpoint.Sound owners) {endpoint' : Endpoint}
    (live : endpoint.owner ≠ 0) (owner : endpoint'.owner = endpoint.owner)
    (capabilities : endpoint'.capabilities = endpoint.capabilities)
    (bounds : endpoint'.len ≤ queueDepth ∧ endpoint'.head < queueDepth)
    (honours : ∀ message ∈ endpoint'.messages, endpoint.Honours message) :
    endpoint'.Sound owners := by
  have live' : endpoint'.owner ≠ 0 := by rwa [owner]
  refine
    { bounds := bounds
      vacant := fun dead => absurd dead live'
      idle := fun dead => absurd dead live'
      rooted := fun _ => ?_
      target := ?_
      receive := ?_
      attachments := fun _ message queued => ?_ }
  · obtain ⟨active, target, parentless, rights⟩ := sound.rooted live
    rw [← capabilities] at active target parentless rights
    exact ⟨active, by rw [target, owner], parentless, rights⟩
  · rw [capabilities]
    exact sound.target
  · rw [capabilities, owner]
    exact sound.receive
  · exact (honours message queued).congr fun slot _ => by rw [capabilities]

/-- A new capability in a free slot of a live endpoint. -/
theorem Sound.install (sound : endpoint.Sound owners) {slot : Fin maxCapabilitiesPerEndpoint}
    {c : Capability} (live : endpoint.owner ≠ 0)
    (inactive : (endpoint.capabilities slot).active = false)
    (target : c.target ∈ owners ∧ c.target ≠ 0)
    (receive : c.rights.contains CapabilityRights.receive = true → c.target = endpoint.owner) :
    Endpoint.Sound owners
      { endpoint with capabilities := Function.update endpoint.capabilities slot c } := by
  have kept : ∀ slot', (endpoint.capabilities slot').active = true →
      Function.update endpoint.capabilities slot c slot' = endpoint.capabilities slot' := by
    intro slot' active
    rw [Function.update_of_ne]
    rintro rfl
    rw [inactive] at active
    cases active
  refine
    { bounds := sound.bounds
      vacant := fun dead => absurd dead live
      idle := fun dead => absurd dead live
      rooted := fun _ => ?_
      target := fun slot' => ?_
      receive := fun slot' => ?_
      attachments := fun _ message queued => ?_ }
  · obtain ⟨active, aimed, parentless, rights⟩ := sound.rooted live
    have same := kept 0 active
    exact ⟨by dsimp only; rwa [same], by dsimp only; rwa [same], by dsimp only; rwa [same],
      by dsimp only; rwa [same]⟩
  · by_cases here : slot' = slot
    · subst here
      simp only [Function.update_self]
      exact fun _ => target
    · simp only [Function.update_of_ne here]
      exact sound.target slot'
  · by_cases here : slot' = slot
    · subst here
      simp only [Function.update_self]
      exact fun _ => receive
    · simp only [Function.update_of_ne here]
      exact sound.receive slot'
  · exact (sound.attachments live message queued).congr kept

/-- Culling, as long as the root capability of a live endpoint is spared. -/
theorem Sound.cull (sound : endpoint.Sound owners) {G : Finset Nat}
    (spared : endpoint.owner ≠ 0 → (endpoint.capabilities 0).generation ∉ G) :
    (endpoint.cull G).Sound owners := by
  have kept : ∀ slot, ((endpoint.cull G).capabilities slot).active = true →
      (endpoint.cull G).capabilities slot = endpoint.capabilities slot := by
    intro slot active
    refine if_neg fun removed => ?_
    simp [Endpoint.cull, removed, Capability.empty] at active
  refine
    { bounds := sound.bounds
      vacant := fun dead slot => ?_
      idle := sound.idle
      rooted := fun live => ?_
      target := fun slot active => ?_
      receive := fun slot active => ?_
      attachments := fun live message queued => ?_ }
  · by_cases active : ((endpoint.cull G).capabilities slot).active = true
    · rw [kept slot active, sound.vacant dead slot] at active
      cases active
    · simpa using active
  · obtain ⟨active, target, parentless, rights⟩ := sound.rooted live
    have same : (endpoint.cull G).capabilities 0 = endpoint.capabilities 0 :=
      if_neg fun removed => spared live removed.2
    exact ⟨by rwa [same], by rwa [same], by rwa [same], by rwa [same]⟩
  · have same := kept slot active
    rw [same] at active ⊢
    exact sound.target slot active
  · have same := kept slot active
    rw [same] at active ⊢
    exact sound.receive slot active
  · rw [messages_cull] at queued
    obtain ⟨original, mem, rfl⟩ := List.mem_map.mp queued
    exact (sound.attachments live original mem).cull G

end Endpoint

/-! ### The table -/

namespace Endpoints

def owners (e : Endpoints) : Set Nat := Set.range fun i => (e i).owner

/-- The invariant of runs. -/
structure Sound (e : Endpoints) : Prop where
  lineages : e.Lineages
  distinct : ∀ i j, (e i).owner ≠ 0 → (e i).owner = (e j).owner → i = j
  endpoint : ∀ i, (e i).Sound e.owners

theorem Sound.coherent {e : Endpoints} (sound : e.Sound) : e.Coherent :=
  { sound.lineages with
    bounds := fun i => (sound.endpoint i).bounds
    owners := sound.distinct
    vacant := fun p dead => (sound.endpoint p.1).vacant dead p.2
    rooted := fun i => (sound.endpoint i).rooted
    target := fun p active => ((sound.endpoint p.1).target p.2 active).1
    attachments := fun i => (sound.endpoint i).attachments }

theorem sound_empty : Sound fun _ => Endpoint.empty where
  lineages :=
    { unique := fun p q active => by cases active
      wellFormed := fun p active => by cases active
      derived := fun p active => by cases active }
  distinct := fun i j live => absurd rfl live
  endpoint := fun i => Endpoint.sound_empty _

/-- Replacing one endpoint by another of the same owner. -/
theorem Sound.replace {e : Endpoints} (sound : e.Sound) {i : Fin maxEndpoints} {endpoint : Endpoint}
    (owner : endpoint.owner = (e i).owner) (lineages : Lineages (Function.update e i endpoint))
    (new : endpoint.Sound e.owners) : Sound (Function.update e i endpoint) := by
  have same : ∀ j, (Function.update e i endpoint j).owner = (e j).owner := by
    intro j
    by_cases here : j = i
    · subst here
      rw [Function.update_self, owner]
    · rw [Function.update_of_ne here]
  have owners : Endpoints.owners (Function.update e i endpoint) = e.owners := by
    unfold Endpoints.owners
    simp only [same]
  refine ⟨lineages, fun j k => ?_, fun j => ?_⟩
  · rw [same, same]
    exact sound.distinct j k
  · rw [owners]
    by_cases here : j = i
    · subst here
      rwa [Function.update_self]
    · rw [Function.update_of_ne here]
      exact sound.endpoint j

theorem capability_update (e : Endpoints) (i : Fin maxEndpoints) (endpoint : Endpoint)
    (p : Position) : capability (Function.update e i endpoint) p =
      if p.1 = i then endpoint.capabilities p.2 else e.capability p := by
  unfold capability
  by_cases here : p.1 = i
  · rw [if_pos here, here, Function.update_self]
  · rw [if_neg here, Function.update_of_ne here]

theorem capability_requeue {e : Endpoints} {i : Fin maxEndpoints} {endpoint : Endpoint}
    (capabilities : endpoint.capabilities = (e i).capabilities) (p : Position) :
    capability (Function.update e i endpoint) p = e.capability p := by
  rw [capability_update]
  split
  · rename_i here
    rw [capabilities, ← here]
    rfl
  · rfl

theorem capability_deliver (e : Endpoints) (i : Fin maxEndpoints) (message : Message)
    (p : Position) :
    capability (Function.update e i ((e i).deliver message)) p = e.capability p := by
  apply capability_requeue
  rfl

theorem Lineages.requeue {e : Endpoints} (lineages : e.Lineages) {i : Fin maxEndpoints}
    {endpoint : Endpoint} (capabilities : endpoint.capabilities = (e i).capabilities) :
    Lineages (Function.update e i endpoint) :=
  lineages.congr fun p _ => capability_requeue capabilities p

theorem Sound.requeue {e : Endpoints} (sound : e.Sound) {i : Fin maxEndpoints}
    {endpoint : Endpoint} (live : (e i).owner ≠ 0) (owner : endpoint.owner = (e i).owner)
    (capabilities : endpoint.capabilities = (e i).capabilities)
    (bounds : endpoint.len ≤ queueDepth ∧ endpoint.head < queueDepth)
    (honours : ∀ message ∈ endpoint.messages, (e i).Honours message) :
    Sound (Function.update e i endpoint) :=
  sound.replace owner (sound.lineages.requeue capabilities)
    ((sound.endpoint i).requeue live owner capabilities bounds honours)

theorem Sound.deliver {e : Endpoints} (sound : e.Sound) {i : Fin maxEndpoints} {message : Message}
    (live : (e i).owner ≠ 0) (space : (e i).len < queueDepth) (honours : (e i).Honours message) :
    Sound (Function.update e i ((e i).deliver message)) := by
  refine sound.requeue live rfl rfl ⟨space, (sound.endpoint i).bounds.2⟩ fun other queued => ?_
  rw [Endpoint.messages_deliver space, List.mem_append, List.mem_singleton] at queued
  rcases queued with queued | rfl
  · exact (sound.endpoint i).attachments live other queued
  · exact honours

/-- Taking a message out touches no capability. -/
theorem Sound.pop {e : Endpoints} (sound : e.Sound) {i : Fin maxEndpoints} {message : Message}
    {popped : Endpoint} (live : (e i).owner ≠ 0) (first : (e i).pop = some (message, popped)) :
    Sound (Function.update e i popped) := by
  have bound := (sound.endpoint i).bounds.1
  obtain ⟨queue, owner, -, shorter, head⟩ := Endpoint.pop_spec first bound
  refine sound.requeue live owner (Endpoint.pop_capabilities first) ⟨by omega, head⟩
    fun other queued => ?_
  refine (sound.endpoint i).attachments live other ?_
  rw [queue]
  exact List.mem_cons_of_mem _ queued

/-- A capability with a new generation, whose parent is active, may be installed. -/
theorem Sound.install {e : Endpoints} (sound : e.Sound) {p : Position} {c : Capability}
    (live : (e p.1).owner ≠ 0) (inactive : (e.capability p).active = false)
    (fresh : ∀ q, (e.capability q).active = true → (e.capability q).generation ≠ c.generation)
    (formed : c.WellFormed)
    (derived : c.parentGeneration ≠ 0 → ∃ q, c.DerivedFrom (e.capability q))
    (target : c.target ∈ e.owners ∧ c.target ≠ 0)
    (receive : c.rights.contains CapabilityRights.receive = true → c.target = (e p.1).owner) :
    (e.setCapability p c).Sound :=
  sound.replace rfl (sound.lineages.install inactive fresh formed derived)
    ((sound.endpoint p.1).install live inactive target receive)

/-- A cascade from spared roots removes no root capability. -/
theorem Sound.spared {e : Endpoints} (sound : e.Sound) {roots : Set Nat} {G : Finset Nat}
    (removes : e.Removes roots G) (spares : e.Spares roots) (i : Fin maxEndpoints)
    (live : (e i).owner ≠ 0) : (e.capability (i, 0)).generation ∉ G := by
  intro removed
  obtain ⟨active, target, parentless, -⟩ := (sound.endpoint i).rooted live
  have root := sound.lineages.mem_roots_of_below (p := (i, 0)) spares.active active parentless
    (removes.sound removed)
  rcases spares.spared i active root with derived | missing
  · exact derived parentless
  · exact find_eq_none.mp missing i target.symm

theorem Sound.cull {e : Endpoints} (sound : e.Sound) {roots : Set Nat} {G : Finset Nat}
    (removes : e.Removes roots G) (spares : e.Spares roots) : (e.cull G).Sound where
  lineages := sound.lineages.cull removes.closed
  distinct := sound.distinct
  endpoint := fun i => (sound.endpoint i).cull (sound.spared removes spares i)

/-- Retiring an endpoint: its capabilities and those that target it go with
everything derived from them, and the endpoint is emptied. -/
theorem Sound.retire {e : Endpoints} (sound : e.Sound) {taskId : Nat} {index : Fin maxEndpoints}
    {G : Finset Nat} (owner : (e index).owner = taskId)
    (removes : e.Removes (e.retiring taskId index) G) :
    Sound (Function.update (e.cull G) index Endpoint.empty) := by
  have activeRoots : ∀ g ∈ e.retiring taskId index, g ∈ e.activeGenerations := by
    rintro g ⟨q, active, -, rfl⟩
    exact mem_activeGenerations.mpr ⟨q, active, rfl⟩
  have gone : ∀ p, (e.capability p).active = true →
      p.1 = index ∨ (e.capability p).target = taskId → (e.capability p).generation ∈ G :=
    fun p active which => removes.roots_mem _ ⟨p, active, which, rfl⟩
      (mem_activeGenerations.mpr ⟨p, active, rfl⟩)
  have spared : ∀ i, i ≠ index → (e i).owner ≠ 0 →
      ((e i).capabilities 0).generation ∉ G := by
    intro i other live removed
    obtain ⟨active, target, parentless, -⟩ := (sound.endpoint i).rooted live
    obtain ⟨q, activeQ, which, same⟩ := sound.lineages.mem_roots_of_below (p := (i, 0))
      activeRoots active parentless (removes.sound removed)
    rw [sound.lineages.unique q (i, 0) activeQ active same] at which
    rcases which with here | aimed
    · exact other here
    · refine other (sound.distinct i index live ?_)
      rw [owner, ← aimed]
      exact target.symm
  refine ⟨?_, fun i j live same => ?_, fun i => ?_⟩
  · refine (sound.lineages.cull removes.closed).congr fun p active => ?_
    rw [capability_update] at active ⊢
    split
    · rename_i here
      rw [if_pos here] at active
      rcases active with active | active
      · cases active
      · obtain ⟨wasActive, kept⟩ := active_cull.mp active
        exact absurd (gone p wasActive (Or.inl here)) kept
    · rfl
  · have liveI : i ≠ index := by
      rintro rfl
      rw [Function.update_self] at live
      exact live rfl
    have liveJ : j ≠ index := by
      rintro rfl
      rw [same, Function.update_self] at live
      exact live rfl
    rw [Function.update_of_ne liveI, Function.update_of_ne liveJ] at same
    rw [Function.update_of_ne liveI] at live
    exact sound.distinct i j live same
  · by_cases here : i = index
    · subst here
      rw [Function.update_self]
      exact Endpoint.sound_empty _
    · rw [Function.update_of_ne here]
      refine ((sound.endpoint i).cull (spared i here)).mono ?_
      rintro slot active ⟨j, owned⟩
      have kept := capability_cull_of_active (p := (i, slot)) active
      have outlived := (active_cull (p := (i, slot))).mp active
      have elsewhere : j ≠ index := by
        rintro rfl
        obtain ⟨wasActive, outside⟩ := outlived
        refine outside (gone (i, slot) wasActive (Or.inr ?_))
        rw [← kept, ← owner]
        exact owned.symm
      exact ⟨j, by rw [← owned]; simp only [Function.update_of_ne elsewhere]; rfl⟩

/-- The endpoint of a newly registered task. -/
def registeredEndpoint (taskId generation : Nat) : Endpoint :=
  { freshEndpoint taskId with
    capabilities := Function.update (freshEndpoint taskId).capabilities 0
      (rootCapability taskId generation) }

theorem rootCapability_rights : CapabilityRights.all.valid = true ∧
    CapabilityRights.all.contains CapabilityRights.sendReceive = true := by decide

theorem registeredEndpoint_active {taskId generation : Nat} {slot : Fin maxCapabilitiesPerEndpoint}
    (active : ((registeredEndpoint taskId generation).capabilities slot).active = true) :
    (registeredEndpoint taskId generation).capabilities slot = rootCapability taskId generation := by
  by_cases here : slot = 0
  · subst here
    rfl
  · simp only [registeredEndpoint, Function.update_of_ne here] at active
    cases active

/-- A registered endpoint holds its own capability and no message. -/
theorem registeredEndpoint_sound {owners : Set Nat} {taskId : Nat} (generation : Nat)
    (nonzero : taskId ≠ 0) (mem : taskId ∈ owners) :
    (registeredEndpoint taskId generation).Sound owners where
  bounds := ⟨Nat.zero_le _, Nat.zero_lt_succ _⟩
  vacant := fun dead => absurd dead nonzero
  idle := fun dead => absurd dead nonzero
  rooted := fun _ => ⟨rfl, rfl, rfl, rootCapability_rights.2⟩
  target := by
    intro slot active
    rw [registeredEndpoint_active active]
    exact ⟨mem, nonzero⟩
  receive := by
    intro slot active _
    rw [registeredEndpoint_active active]
    rfl
  attachments := fun _ message queued => by cases queued

/-- Registering a task in a vacant endpoint. -/
theorem Sound.register {e cleared : Endpoints} (sound : e.Sound) {taskId generation : Nat}
    {index : Fin maxEndpoints} (nonzero : taskId ≠ 0) (fresh : ∀ i, (e i).owner ≠ taskId)
    (free : (e index).owner = 0)
    (clears : cleared = Function.update e index (freshEndpoint taskId))
    (unused : ∀ q, (cleared.capability q).active = true →
      (cleared.capability q).generation ≠ generation)
    (positive : generation ≠ 0) :
    (cleared.setCapability (index, 0) (rootCapability taskId generation)).Sound := by
  have lineages : cleared.Lineages := by
    subst clears
    refine sound.lineages.congr fun p active => ?_
    rw [capability_update] at active ⊢
    split
    · rename_i here
      rw [if_pos here] at active
      rcases active with active | active
      · cases active
      · rw [capability, here, (sound.endpoint index).vacant free] at active
        cases active
    · rfl
  have installed := lineages.install (p := (index, 0)) (c := rootCapability taskId generation)
    (by rw [clears, capability_update, if_pos rfl]; rfl) unused
    ⟨positive, rootCapability_rights.1, Nat.zero_le _, fun _ => rfl⟩
    (fun hasParent => absurd rfl hasParent)
  have table : cleared.setCapability (index, 0) (rootCapability taskId generation) =
      Function.update e index (registeredEndpoint taskId generation) := by
    rw [setCapability, clears, Function.update_idem, Function.update_self]
    rfl
  rw [table] at installed ⊢
  refine ⟨installed, fun i j live same => ?_, fun i => ?_⟩
  · by_cases hereI : i = index
    · by_cases hereJ : j = index
      · rw [hereI, hereJ]
      · rw [hereI, Function.update_self, Function.update_of_ne hereJ] at same
        exact absurd same.symm (fresh j)
    · rw [Function.update_of_ne hereI] at live same
      by_cases hereJ : j = index
      · rw [hereJ, Function.update_self] at same
        exact absurd same (fresh i)
      · rw [Function.update_of_ne hereJ] at same
        exact sound.distinct i j live same
  · by_cases here : i = index
    · subst here
      rw [Function.update_self]
      exact registeredEndpoint_sound generation nonzero ⟨i, by simp only [Function.update_self]; rfl⟩
    · rw [Function.update_of_ne here]
      refine (sound.endpoint i).mono ?_
      rintro slot active ⟨j, owned⟩
      have other : j ≠ index := by
        rintro rfl
        exact ((sound.endpoint i).target slot active).2 (owned.symm.trans free)
      exact ⟨j, by simp only [Function.update_of_ne other]; exact owned⟩

end Endpoints

/-! ### Operations and runs -/

/-- The invariant of runs, with the generation counter in range. -/
structure Core.Sound (core : Core) : Prop where
  initialized : core.initialized = true
  table : core.endpoints.Sound
  counter : core.nextGeneration ≤ maxGeneration

theorem Resolves.position {s : IpcState} {owner handle : Nat} {required : CapabilityRights}
    {capability : Capability} (resolves : Resolves s owner handle required capability) :
    ∃ p, (s.endpoints p.1).owner = owner ∧ s.endpoints.capability p = capability := by
  obtain ⟨i, slot, found, -, rfl⟩ := resolves.held
  exact ⟨(i, slot), Endpoints.find_eq_some found, rfl⟩

/-- A committed transfer: the derived capability joins the receiver's table and
the message that carries its handle joins the receiver's queue. -/
theorem TransferChecks.sound {s : IpcState} {sender destination transfer receiver : Nat}
    {rights : CapabilityRights} {source : Capability} {index : Fin maxEndpoints}
    {slot : Fin maxCapabilitiesPerEndpoint} {installed : Endpoints} {generation next : Nat}
    (checks : TransferChecks s sender destination transfer receiver rights source index slot)
    (table : s.endpoints.Sound) (counter : s.nextCapabilityGeneration ≤ maxGeneration)
    (allocated : allocate s.endpoints s.nextCapabilityGeneration = (generation, next))
    (installs : installed =
      s.endpoints.setCapability (index, slot) (derivedCapability source generation rights))
    (bytes : List UInt8) :
    Endpoints.Sound (Function.update installed index ((installed index).deliver
      (composeMessage sender s.nextSequence (encodeHandle slot generation) rights.bits bytes))) := by
  obtain ⟨unused, positive, small, -, -⟩ := allocate_spec s.endpoints s.nextCapabilityGeneration
  rw [allocated] at unused positive small
  have nonzero : generation ≠ 0 := Nat.ne_of_gt positive
  obtain ⟨p, -, rfl⟩ := checks.held.position
  obtain ⟨capability, aimed, toReceiver⟩ := checks.destination
  obtain ⟨q, -, rfl⟩ := toReceiver.position
  have owned : (s.endpoints index).owner = receiver := Endpoints.find_eq_some checks.found
  have live : (s.endpoints index).owner ≠ 0 := by
    rw [owned, ← aimed]
    exact ((table.endpoint q.1).target q.2 toReceiver.active).2
  have sourceActive := checks.held.active
  have grown : installed.Sound := by
    rw [installs]
    refine table.install live (Endpoints.freeSlot_eq_some checks.free) unused ?_ ?_ ?_ ?_
    · exact ⟨nonzero, checks.valid, checks.depth, fun orphan =>
        absurd orphan (table.lineages.wellFormed p sourceActive).generation⟩
    · exact fun _ => ⟨p, sourceActive, rfl, rfl, checks.held.rights, checks.attenuated, rfl⟩
    · exact (table.endpoint p.1).target p.2 sourceActive
    · intro canReceive
      exact (checks.receive canReceive).symm.trans owned.symm
  have same : installed index = { s.endpoints index with
      capabilities := Function.update (s.endpoints index).capabilities slot
        (derivedCapability (s.endpoints.capability p) generation rights) } := by
    rw [installs, Endpoints.setCapability, Function.update_self]
  have new : (installed index).capabilities slot =
      derivedCapability (s.endpoints.capability p) generation rights := by
    rw [same]
    exact Function.update_self ..
  refine grown.deliver ?_ ?_ (Or.inr ⟨slot, ?_, ?_, ?_⟩)
  · rw [same]
    exact live
  · rw [same]
    exact checks.space
  · rw [new]
    exact decodeHandle_encodeHandle slot nonzero (small counter)
  · rw [new]
    rfl
  · rw [new]
    rfl

/-- Every operation with non-zero ids keeps the table sound. -/
theorem Change.sound {s : IpcState} {op : Op} {event : Option Event} {core : Core}
    (change : Change s op event core) (nonzero : op.NonZero) (sound : s.core.Sound) :
    core.Sound := by
  have ready : s.initialized = true := sound.initialized
  have table : s.endpoints.Sound := sound.table
  have counter : s.nextCapabilityGeneration ≤ maxGeneration := sound.counter
  cases change with
  | quiet => exact sound
  | @register taskId index cleared generation next isOp nonzeroTask fresh free clears allocated =>
      obtain ⟨unused, positive, -, -, fits⟩ :=
        allocate_spec cleared s.nextCapabilityGeneration
      rw [allocated] at unused positive fits
      exact ⟨ready, table.register nonzeroTask (Endpoints.find_eq_none.mp fresh)
        (Endpoints.find_eq_some free) clears unused (Nat.ne_of_gt positive), fits⟩
  | @grant owner target rights index slot generation next isOp valid receive targetLive found free
      allocated =>
      subst isOp
      obtain ⟨unused, positive, -, -, fits⟩ :=
        allocate_spec s.endpoints s.nextCapabilityGeneration
      rw [allocated] at unused positive fits
      obtain ⟨j, foundTarget⟩ := Option.isSome_iff_exists.mp targetLive
      have owned : (s.endpoints index).owner = owner := Endpoints.find_eq_some found
      have live : (s.endpoints index).owner ≠ 0 := by
        rw [owned]
        exact nonzero.1
      refine ⟨ready, table.install live (Endpoints.freeSlot_eq_some free) unused ?_ ?_ ?_ ?_, fits⟩
      · exact ⟨Nat.ne_of_gt positive, valid, Nat.zero_le _, fun _ => rfl⟩
      · exact fun hasParent => absurd rfl hasParent
      · exact ⟨⟨j, Endpoints.find_eq_some foundTarget⟩, nonzero.2⟩
      · intro canReceive
        exact (receive canReceive).symm.trans owned.symm
  | cull removes spares => exact ⟨ready, table.cull removes spares, counter⟩
  | retire isOp found removes =>
      exact ⟨ready, table.retire (Endpoints.find_eq_some found) removes, counter⟩
  | @deliver sender receiver bytes index isOp short found space =>
      have live : (s.endpoints index).owner ≠ 0 := by
        rw [Endpoints.find_eq_some found]
        rcases isOp with rfl | ⟨handle, capability, rfl, rfl, resolves⟩
        · exact nonzero.2
        · obtain ⟨p, -, rfl⟩ := resolves.position
          exact ((table.endpoint p.1).target p.2 resolves.active).2
      exact ⟨ready, table.deliver live space (Or.inl ⟨rfl, rfl⟩), counter⟩
  | @transfer sender destination transfer receiver rights bytes source index slot installed
      generation next isOp short checks allocated installs =>
      have fits := (allocate_spec s.endpoints s.nextCapabilityGeneration).2.2.2.2
      rw [allocated] at fits
      exact ⟨ready, checks.sound table counter allocated installs bytes, fits⟩
  | @pop receiver output index message popped isOp found first room =>
      subst isOp
      have live : (s.endpoints index).owner ≠ 0 := by
        rw [Endpoints.find_eq_some found]
        exact nonzero
      exact ⟨ready, table.pop live first, counter⟩
  | @waiting taskId index waiting isOp found =>
      subst isOp
      have live : (s.endpoints index).owner ≠ 0 := by
        rw [Endpoints.find_eq_some found]
        exact nonzero
      exact ⟨ready, table.requeue live rfl rfl (table.endpoint index).bounds
        ((table.endpoint index).attachments live), counter⟩

theorem step_sound {s : IpcState} (sound : s.core.Sound) {op : Op} (nonzero : op.NonZero) :
    (step s op).core.Sound :=
  (exec_change s sound.table.lineages.unique op).sound nonzero sound

theorem initial_sound : initial.core.Sound :=
  ⟨rfl, Endpoints.sound_empty, by rw [maxGeneration_eq]; decide⟩

theorem run_sound {s : IpcState} (sound : s.core.Sound) {ops : List Op}
    (nonzero : ∀ op ∈ ops, op.NonZero) : (run s ops).core.Sound := by
  induction ops generalizing s with
  | nil => exact sound
  | cons op ops ih =>
      rw [List.forall_mem_cons] at nonzero
      exact ih (step_sound sound nonzero.1) nonzero.2

/-- After any run of operations on non-zero tasks, whatever succeeded or failed,
`invariants` is true: the table is coherent and every active capability
targets a live endpoint. -/
theorem run_invariants (ops : List Op) (nonzero : ∀ op ∈ ops, op.NonZero) :
    (run initial ops).invariants = true ∧
      (run initial ops).endpoints.Coherent ∧
      ∀ p, ((run initial ops).endpoints.capability p).active = true →
        ∃ i, ((run initial ops).endpoints i).owner =
            ((run initial ops).endpoints.capability p).target ∧
          ((run initial ops).endpoints i).owner ≠ 0 := by
  have sound := run_sound initial_sound nonzero
  refine ⟨invariants_iff.mpr ⟨sound.initialized, sound.table.coherent⟩, sound.table.coherent, ?_⟩
  intro p active
  obtain ⟨⟨i, owned⟩, targeted⟩ := (sound.table.endpoint p.1).target p.2 active
  exact ⟨i, owned, fun dead => targeted (owned.symm.trans dead)⟩

/-- A run in which task 1 delegates to task 2, fails twice and is cleaned up. -/
def delegationRun : List Op :=
  [.register 1, .register 2, .grant 1 2 ⟨9⟩, .sendWithCapability 1 770 257 ⟨9⟩ [7, 7],
    .sendWithCapability 1 770 257 ⟨2⟩ [], .setWaiting 2 true, .receive 2 [0, 0, 0],
    .sendCapability 2 1026 [5], .revoke 1 257, .receive 2 [], .unregister 1]

theorem run_invariants_delegationRun : (run initial delegationRun).invariants = true :=
  (run_invariants delegationRun (by decide)).1

end CloudOS.Ipc
