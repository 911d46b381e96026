import Mathlib

/-!
Partitions of a finite set into indexed parts, some of which may be empty.

An allocator's block table, a page map or a shard map is such a partition: the
parts never overlap and together they are the whole. The one way in which these
structures change is that two parts exchange elements (`redistribute`), of
which splitting a part off and merging two parts are special cases.
-/

namespace Lib.Partition

variable {ι α : Type*} [Fintype ι] [DecidableEq α]

structure IsPartition (total : Finset α) (part : ι → Finset α) : Prop where
  disjoint : ∀ i j, i ≠ j → Disjoint (part i) (part j)
  cover : Finset.univ.biUnion part = total

variable {total : Finset α} {part part' : ι → Finset α}

namespace IsPartition

theorem mem_iff (partition : IsPartition total part) {x : α} : x ∈ total ↔ ∃ i, x ∈ part i := by
  rw [← partition.cover, Finset.mem_biUnion]
  simp

theorem subset (partition : IsPartition total part) (i : ι) : part i ⊆ total :=
  fun _ mem => partition.mem_iff.mpr ⟨i, mem⟩

theorem sum_card (partition : IsPartition total part) : ∑ i, (part i).card = total.card := by
  rw [← partition.cover, Finset.card_biUnion]
  exact fun i _ j _ => partition.disjoint i j

/-- Two parts may exchange elements as long as they stay apart. -/
theorem redistribute (partition : IsPartition total part) {i j : ι}
    (others : ∀ k, k ≠ i → k ≠ j → part' k = part k)
    (exchange : part' i ∪ part' j = part i ∪ part j)
    (apart : i ≠ j → Disjoint (part' i) (part' j)) : IsPartition total part' where
  disjoint := by
    -- whatever the two parts hold now, one of them held before, so the others avoid it
    have avoid : ∀ k, k ≠ i → k ≠ j → Disjoint (part' i ∪ part' j) (part' k) := by
      intro k notI notJ
      rw [exchange, others k notI notJ, Finset.disjoint_union_left]
      exact ⟨partition.disjoint i k notI.symm, partition.disjoint j k notJ.symm⟩
    have fromLeft : ∀ k, k ≠ i → Disjoint (part' i) (part' k) := by
      intro k notI
      by_cases isJ : k = j
      · subst isJ
        exact apart notI.symm
      · exact (Finset.disjoint_union_left.mp (avoid k notI isJ)).1
    have fromRight : ∀ k, k ≠ j → Disjoint (part' j) (part' k) := by
      intro k notJ
      by_cases isI : k = i
      · subst isI
        exact (apart notJ).symm
      · exact (Finset.disjoint_union_left.mp (avoid k isI notJ)).2
    intro k l different
    by_cases isI : k = i
    · subst isI
      exact fromLeft l different.symm
    · by_cases isJ : k = j
      · subst isJ
        exact fromRight l different.symm
      · by_cases isI' : l = i
        · subst isI'
          exact (fromLeft k isI).symm
        · by_cases isJ' : l = j
          · subst isJ'
            exact (fromRight k isJ).symm
          · rw [others k isI isJ, others l isI' isJ']
            exact partition.disjoint k l different
  cover := by
    ext x
    have split : ∀ p : ι → Finset α, x ∈ Finset.univ.biUnion p ↔
        x ∈ p i ∪ p j ∨ ∃ k, k ≠ i ∧ k ≠ j ∧ x ∈ p k := by
      intro p
      simp only [Finset.mem_biUnion, Finset.mem_univ, true_and, Finset.mem_union]
      constructor
      · rintro ⟨k, mem⟩
        by_cases isI : k = i
        · exact Or.inl (Or.inl (isI ▸ mem))
        · by_cases isJ : k = j
          · exact Or.inl (Or.inr (isJ ▸ mem))
          · exact Or.inr ⟨k, isI, isJ, mem⟩
      · rintro ((mem | mem) | ⟨k, -, -, mem⟩)
        · exact ⟨i, mem⟩
        · exact ⟨j, mem⟩
        · exact ⟨k, mem⟩
    rw [← partition.cover, split, split, exchange]
    refine or_congr Iff.rfl (exists_congr fun k => ?_)
    refine and_congr_right fun notI => and_congr_right fun notJ => ?_
    rw [others k notI notJ]

end IsPartition

end Lib.Partition
