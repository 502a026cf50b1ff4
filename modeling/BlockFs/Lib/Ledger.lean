import Mathlib.Algebra.BigOperators.Group.Finset.Basic
import Mathlib.Algebra.Order.BigOperators.Group.Finset
import Mathlib.Algebra.Order.Group.Multiset
import Mathlib.Tactic.Abel

/-!
Accounting for a fixed stock of resources, each of which is free, held by one of several owners, or
lost. An operation is checked against the balance at the one owner it concerns; that no resource is
held twice follows from the stock having no duplicates.
-/

namespace Ledger

variable {α ι : Type*}

/-- The free resources, the holdings of the owners and what was lost make up the stock. -/
def Balanced (stock free : Multiset α) (owners : Finset ι) (holding : ι → Multiset α)
    (lost : Multiset α) : Prop :=
  free + ∑ i ∈ owners, holding i + lost = stock

variable {stock free free' lost lost' : Multiset α} {owners : Finset ι} {holding : ι → Multiset α}
  {i j : ι} {a : α}

namespace Balanced

/-- The balance only reads the holdings of the owners. -/
theorem congr {holding' : ι → Multiset α} (balanced : Balanced stock free owners holding lost)
    (same : ∀ i ∈ owners, holding' i = holding i) : Balanced stock free owners holding' lost := by
  rw [Balanced, Finset.sum_congr rfl same]
  exact balanced

/-- Free resources are exchanged for lost ones. -/
theorem lose (balanced : Balanced stock free owners holding lost)
    (trade : free' + lost' = free + lost) : Balanced stock free' owners holding lost' := by
  unfold Balanced at balanced ⊢
  rw [← balanced, add_right_comm, trade, add_right_comm]

/-- One owner exchanges resources with the free ones and the lost ones. -/
theorem exchange {holding' : ι → Multiset α} (balanced : Balanced stock free owners holding lost)
    (member : i ∈ owners) (others : ∀ j ∈ owners, j ≠ i → holding' j = holding j)
    (trade : free' + holding' i + lost' = free + holding i + lost) :
    Balanced stock free' owners holding' lost' := by
  classical
  have rest : ∑ j ∈ owners.erase i, holding' j = ∑ j ∈ owners.erase i, holding j := by
    refine Finset.sum_congr rfl fun j hj => ?_
    exact others j (Finset.mem_of_mem_erase hj) (Finset.ne_of_mem_erase hj)
  unfold Balanced at balanced ⊢
  rw [← Finset.add_sum_erase owners holding member] at balanced
  rw [← Finset.add_sum_erase owners holding' member, rest, ← balanced]
  calc free' + (holding' i + ∑ j ∈ owners.erase i, holding j) + lost'
      = free' + holding' i + lost' + ∑ j ∈ owners.erase i, holding j := by abel
    _ = free + (holding i + ∑ j ∈ owners.erase i, holding j) + lost := by rw [trade]; abel

/-- A new owner starts with resources that were free. -/
theorem enroll [DecidableEq ι] {holding' : ι → Multiset α}
    (balanced : Balanced stock free owners holding lost) (new : j ∉ owners)
    (others : ∀ i ∈ owners, holding' i = holding i) (trade : free' + holding' j = free) :
    Balanced stock free' (insert j owners) holding' lost := by
  unfold Balanced at balanced ⊢
  rw [Finset.sum_insert new, Finset.sum_congr rfl others, ← balanced, ← trade]
  abel

section Consequences
variable (balanced : Balanced stock free owners holding lost)
include balanced

theorem free_le : free ≤ stock := by
  rw [← balanced, add_assoc]
  exact Multiset.le_add_right _ _

theorem holding_le (member : i ∈ owners) : holding i ≤ stock := by
  have part : holding i ≤ ∑ i ∈ owners, holding i :=
    Finset.single_le_sum (f := holding) (fun _ _ => Multiset.zero_le _) member
  rw [← balanced]
  exact (part.trans (Multiset.le_add_left _ _)).trans (Multiset.le_add_right _ _)

theorem free_add_holding_le (member : i ∈ owners) : free + holding i ≤ stock := by
  have part : holding i ≤ ∑ i ∈ owners, holding i :=
    Finset.single_le_sum (f := holding) (fun _ _ => Multiset.zero_le _) member
  rw [← balanced]
  exact (Multiset.add_le_add_left part).trans (Multiset.le_add_right _ _)

theorem holding_add_holding_le [DecidableEq ι] (hi : i ∈ owners) (hj : j ∈ owners) (distinct : i ≠ j) :
    holding i + holding j ≤ stock := by
  have part : ∑ k ∈ {i, j}, holding k ≤ ∑ k ∈ owners, holding k :=
    Finset.sum_le_sum_of_subset (by simp [Finset.insert_subset_iff, hi, hj])
  rw [Finset.sum_pair distinct] at part
  rw [← balanced]
  exact (part.trans (Multiset.le_add_left _ _)).trans (Multiset.le_add_right _ _)

/-- A free resource is not held by anybody. -/
theorem not_free_of_held (nodup : stock.Nodup) (member : i ∈ owners) (held : a ∈ holding i) :
    a ∉ free := by
  intro free_mem
  have both := Multiset.nodup_of_le (balanced.free_add_holding_le member) nodup
  exact Multiset.disjoint_left.mp (Multiset.nodup_add.mp both).2.2 free_mem held

/-- Nothing is held by two owners. -/
theorem owner_unique [DecidableEq ι] (nodup : stock.Nodup) (hi : i ∈ owners) (hj : j ∈ owners)
    (held : a ∈ holding i) (held' : a ∈ holding j) : i = j := by
  by_contra distinct
  have both := Multiset.nodup_of_le (balanced.holding_add_holding_le hi hj distinct) nodup
  exact Multiset.disjoint_left.mp (Multiset.nodup_add.mp both).2.2 held held'

/-- A lost resource is neither held by anybody nor free. -/
theorem not_held_of_lost (nodup : stock.Nodup) (gone : a ∈ lost) (member : i ∈ owners) :
    a ∉ holding i := by
  intro held
  have part : holding i ≤ ∑ i ∈ owners, holding i :=
    Finset.single_le_sum (f := holding) (fun _ _ => Multiset.zero_le _) member
  have both : holding i + lost ≤ stock := by
    rw [← balanced, add_assoc]
    exact (Multiset.add_le_add_right part).trans (Multiset.le_add_left _ _)
  have apart := (Multiset.nodup_add.mp (Multiset.nodup_of_le both nodup)).2.2
  exact Multiset.disjoint_left.mp apart held gone

theorem not_free_of_lost (nodup : stock.Nodup) (gone : a ∈ lost) : a ∉ free := by
  intro free_mem
  have both : free + lost ≤ stock := by
    rw [← balanced]
    exact Multiset.add_le_add_right (Multiset.le_add_right _ _)
  have apart := (Multiset.nodup_add.mp (Multiset.nodup_of_le both nodup)).2.2
  exact Multiset.disjoint_left.mp apart free_mem gone

theorem holding_nodup (nodup : stock.Nodup) (member : i ∈ owners) : (holding i).Nodup :=
  Multiset.nodup_of_le (balanced.holding_le member) nodup

theorem free_nodup (nodup : stock.Nodup) : free.Nodup :=
  Multiset.nodup_of_le balanced.free_le nodup

end Consequences

/-- With nothing lost, every resource is free or has an owner. -/
theorem free_or_held (balanced : Balanced stock free owners holding 0) (member : a ∈ stock) :
    a ∈ free ∨ ∃ i ∈ owners, a ∈ holding i := by
  rw [← balanced] at member
  simpa [Multiset.mem_add, Multiset.mem_sum] using member

/-- With nothing lost, the counts add up to the size of the stock. -/
theorem card_eq (balanced : Balanced stock free owners holding 0) :
    free.card + ∑ i ∈ owners, (holding i).card = stock.card := by
  rw [← balanced]
  simp

end Balanced

section Accounts

/-- Nothing is held twice where each owner holds nothing twice and no two hold the same. -/
theorem sum_nodup (holds : ∀ i ∈ owners, (holding i).Nodup)
    (apart : ∀ i ∈ owners, ∀ j ∈ owners, ∀ a, a ∈ holding i → a ∈ holding j → i = j) :
    (∑ i ∈ owners, holding i).Nodup := by
  classical
  induction owners using Finset.induction_on with
  | empty => simp
  | insert i rest fresh ih =>
    have later {j : ι} (member : j ∈ rest) : j ∈ insert i rest := Finset.mem_insert_of_mem member
    rw [Finset.sum_insert fresh, Multiset.nodup_add]
    refine ⟨holds i (Finset.mem_insert_self i rest), ih (fun j member => holds j (later member))
      (fun j member k member' => apart j (later member) k (later member')), ?_⟩
    refine Multiset.disjoint_left.mpr fun {a} held others => ?_
    obtain ⟨j, member, held'⟩ := Multiset.mem_sum.mp others
    obtain rfl := apart i (Finset.mem_insert_self i rest) j (later member) a held held'
    exact fresh member

/-- Where nothing is free or held twice, what is neither free nor held makes up the balance. -/
theorem exists_balanced (nodup : free.Nodup) (inside : ∀ a ∈ free, a ∈ stock)
    (holds : ∀ i ∈ owners, (holding i).Nodup) (held : ∀ i ∈ owners, ∀ a ∈ holding i, a ∈ stock ∧ a ∉ free)
    (apart : ∀ i ∈ owners, ∀ j ∈ owners, ∀ a, a ∈ holding i → a ∈ holding j → i = j) :
    ∃ lost, Balanced stock free owners holding lost := by
  have once : (free + ∑ i ∈ owners, holding i).Nodup := by
    refine Multiset.nodup_add.mpr ⟨nodup, sum_nodup holds apart, Multiset.disjoint_left.mpr fun {a} member owned => ?_⟩
    obtain ⟨i, owner, here⟩ := Multiset.mem_sum.mp owned
    exact (held i owner a here).2 member
  have part : free + ∑ i ∈ owners, holding i ≤ stock := by
    refine (Multiset.le_iff_subset once).mpr fun a member => ?_
    rcases Multiset.mem_add.mp member with listed | owned
    · exact inside a listed
    · obtain ⟨i, owner, here⟩ := Multiset.mem_sum.mp owned
      exact (held i owner a here).1
  obtain ⟨lost, total⟩ := Multiset.le_iff_exists_add.mp part
  exact ⟨lost, total.symm⟩

end Accounts

end Ledger
