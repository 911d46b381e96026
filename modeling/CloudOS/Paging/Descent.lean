import CloudOS.Paging.Update

/-!
How the calls that map a page end.

Each of them is followed once here, through every branch of the source; what a call
does to tables, records and frames is then proved for the ways in which it can end.
-/

namespace CloudOS.Paging

open Lib.Word (satAdd)
open CloudOS.PhysMem (FrameCalls)

namespace Machine

variable {source : FrameCalls} {boot : BootTables} {s s' : Machine source} {virt phys flags : Nat}
  {owner : PageOwner}

/-- The way down from the root to the table of a page, with the tables that are made
on it. -/
inductive Descent (root virt flags : Nat) (s : Machine source) :
    List (Fin 512) → Nat → Machine source → Prop where
  | root : Descent root virt flags s [] root s
  | level {path : List (Fin 512)} {table next : Nat} {i : Fin 512} {s₁ s₂ : Machine source}
      (above : Descent root virt flags s path table s₁) (short : path.length ≤ 2)
      (inRange : inMappableVirtualRange virt flags = true) (onPath : path ++ [i] <+: indices virt)
      (ensures : s₁.ensureNextTable table i flags = (.ok next, s₂)) :
      Descent root virt flags s (path ++ [i]) next s₂

/-- How `map_page_inner_with_flags` ends: with an error before it looks at a table or
after it did, in the midst of making one, or with the page mapped. -/
inductive MapEnds (boot : BootTables) (virt phys flags : Nat) (owner : PageOwner)
    (s : Machine source) : Except MapError Unit → Machine source → Prop where
  | refuse {path : List (Fin 512)} {table : Nat} {s₁ : Machine source} {error : MapError}
      (descent : Descent boot.p4 virt flags s path table s₁) :
      MapEnds boot virt phys flags owner s (.error error) s₁
  | stick {path : List (Fin 512)} {table : Nat} {i : Fin 512} {s₁ s₂ : Machine source}
      {error : MapError} (descent : Descent boot.p4 virt flags s path table s₁)
      (short : path.length ≤ 2) (inRange : inMappableVirtualRange virt flags = true)
      (onPath : path ++ [i] <+: indices virt)
      (ensures : s₁.ensureNextTable table i flags = (.error error, s₂)) :
      MapEnds boot virt phys flags owner s (.error error) s₂
  | plant {p1 : Nat} {s₁ s₂ : Machine source} (virtAligned : virt % pageSize4k = 0)
      (isFrame : IsFrame phys) (inRange : inMappableVirtualRange virt flags = true)
      (descent : Descent boot.p4 virt flags s [p4Index virt, p3Index virt, p2Index virt] p1 s₁)
      (vacant : entryPresent (entry s₁.memory p1 (p1Index virt)) = false)
      (isState : s₂ = { s₁.store p1 (p1Index virt) (phys ||| flags) with
        mapper := { s₁.mapper with
          mappedPages := satAdd s₁.mapper.mappedPages 1 }.recordMapping virt phys flags owner }) :
      MapEnds boot virt phys flags owner s (.ok ()) s₂

/-- Where the checks and the descent can end. -/
theorem mapPageInnerWithFlags_ends {result : Except MapError Unit}
    (maps : s.mapPageInnerWithFlags boot virt phys flags owner = (result, s')) :
    MapEnds boot virt phys flags owner s result s' := by
  unfold mapPageInnerWithFlags at maps
  split_ifs at maps with virtAligned physAligned inRange reachable
  · obtain ⟨rfl, rfl⟩ := Prod.mk.inj maps
    exact .refuse .root
  · obtain ⟨rfl, rfl⟩ := Prod.mk.inj maps
    exact .refuse .root
  · obtain ⟨rfl, rfl⟩ := Prod.mk.inj maps
    exact .refuse .root
  · obtain ⟨rfl, rfl⟩ := Prod.mk.inj maps
    exact .refuse .root
  · rw [Bool.not_eq_true', Bool.not_eq_false] at virtAligned physAligned inRange reachable
    cases step4 : s.ensureNextTable boot.p4 (p4Index virt) flags with
    | mk result4 s₄ =>
    have atRoot : ([] : List (Fin 512)).length ≤ 2 := Nat.zero_le _
    have onPath4 : [] ++ [p4Index virt] <+: indices virt := ⟨_, rfl⟩
    rw [step4] at maps
    cases result4 with
    | error error =>
        obtain ⟨rfl, rfl⟩ := Prod.mk.inj maps
        exact .stick .root atRoot inRange onPath4 step4
    | ok p3 =>
    have descent4 := Descent.level .root atRoot inRange onPath4 step4
    dsimp only at maps
    cases step3 : s₄.ensureNextTable p3 (p3Index virt) flags with
    | mk result3 s₃ =>
    have onPath3 : [p4Index virt] ++ [p3Index virt] <+: indices virt := ⟨_, rfl⟩
    rw [step3] at maps
    cases result3 with
    | error error =>
        obtain ⟨rfl, rfl⟩ := Prod.mk.inj maps
        exact .stick descent4 (by simp) inRange onPath3 step3
    | ok p2 =>
    have descent3 := Descent.level descent4 (by simp) inRange onPath3 step3
    dsimp only at maps
    split at maps
    · obtain ⟨rfl, rfl⟩ := Prod.mk.inj maps
      exact .refuse descent3
    · cases step2 : s₃.ensureNextTable p2 (p2Index virt) flags with
      | mk result2 s₂ =>
      have onPath2 : [p4Index virt, p3Index virt] ++ [p2Index virt] <+: indices virt := ⟨_, rfl⟩
      rw [step2] at maps
      cases result2 with
      | error error =>
          obtain ⟨rfl, rfl⟩ := Prod.mk.inj maps
          exact .stick descent3 (by simp) inRange onPath2 step2
      | ok p1 =>
      have descent2 := Descent.level descent3 (by simp) inRange onPath2 step2
      dsimp only at maps
      cases present : entryPresent (entry s₂.memory p1 (p1Index virt)) with
      | true =>
          rw [present, if_pos rfl] at maps
          obtain ⟨rfl, rfl⟩ := Prod.mk.inj maps
          exact .refuse descent2
      | false =>
          rw [present, if_neg Bool.false_ne_true] at maps
          obtain ⟨rfl, rfl⟩ := Prod.mk.inj maps
          exact .plant (mod_of_isPageAligned virtAligned)
            ⟨mod_of_isPageAligned physAligned, of_decide_eq_true reachable⟩ inRange descent2 present
            rfl

/-- How `map_new_page_with_flags` ends. A frame that it took is given back with every
error. -/
inductive NewEnds (boot : BootTables) (virt flags : Nat) (owner : PageOwner)
    (s : Machine source) : Except MapError Nat → Machine source → Prop where
  | refuse {error : MapError} : NewEnds boot virt flags owner s (.error error) s
  | exhausted {s₁ : Machine source} (allocates : s.allocateFrame = (none, s₁)) :
      NewEnds boot virt flags owner s (.error .outOfFrames) s₁
  | reject {phys : Nat} {s₁ : Machine source} (allocates : s.allocateFrame = (some phys, s₁)) :
      NewEnds boot virt flags owner s (.error .physicalNotIdentityMapped) (s₁.freeFrame phys).2
  | undo {phys : Nat} {s₁ s₂ : Machine source} {error : MapError}
      (allocates : s.allocateFrame = (some phys, s₁))
      (maps : (s₁.clear phys).mapPageInnerWithFlags boot virt phys flags owner =
        (.error error, s₂)) :
      NewEnds boot virt flags owner s (.error error) (s₂.freeFrame phys).2
  | map {phys : Nat} {s₁ s₂ : Machine source} (allocates : s.allocateFrame = (some phys, s₁))
      (maps : (s₁.clear phys).mapPageInnerWithFlags boot virt phys flags owner = (.ok (), s₂)) :
      NewEnds boot virt flags owner s (.ok phys) s₂

/-- The frame is taken last, and given back if the mapping fails. -/
theorem mapNewPageWithFlags_ends {result : Except MapError Nat}
    (maps : s.mapNewPageWithFlags boot virt flags owner = (result, s')) :
    NewEnds boot virt flags owner s result s' := by
  unfold mapNewPageWithFlags at maps
  split_ifs at maps
  · obtain ⟨rfl, rfl⟩ := Prod.mk.inj maps
    exact .refuse
  · obtain ⟨rfl, rfl⟩ := Prod.mk.inj maps
    exact .refuse
  · obtain ⟨rfl, rfl⟩ := Prod.mk.inj maps
    exact .refuse
  · cases allocates : s.allocateFrame with
    | mk answer s₁ =>
    rw [allocates] at maps
    cases answer with
    | none =>
        obtain ⟨rfl, rfl⟩ := Prod.mk.inj maps
        exact .exhausted allocates
    | some phys =>
        dsimp only at maps
        split at maps
        · obtain ⟨rfl, rfl⟩ := Prod.mk.inj maps
          exact .reject allocates
        · cases inner : (s₁.clear phys).mapPageInnerWithFlags boot virt phys flags owner with
          | mk result₂ s₂ =>
          rw [inner] at maps
          cases result₂ with
          | error error =>
              obtain ⟨rfl, rfl⟩ := Prod.mk.inj maps
              exact .undo allocates inner
          | ok done =>
              obtain ⟨rfl, rfl⟩ := Prod.mk.inj maps
              exact .map allocates inner

end Machine

end CloudOS.Paging
