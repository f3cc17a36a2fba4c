import Mathlib.Algebra.BigOperators.Group.Finset.Basic
import Mathlib.Algebra.Order.BigOperators.Group.Finset
import Mathlib.Algebra.Order.Ring.Nat

/-!
# Shares of a total

Any number of holders have shares of a total, and any finitely many of them
together have no more than it. Moving one share and the total by the same
amount keeps this, whether the amount is added or taken away.
-/

set_option autoImplicit false

namespace Library.Shares

variable {α : Type*} [DecidableEq α]

def Within (share : α → ℕ) (total : ℕ) : Prop := ∀ S : Finset α, ∑ a ∈ S, share a ≤ total

omit [DecidableEq α] in
theorem within_zero (total : ℕ) : Within (fun _ : α => 0) total := by
  intro S
  simp

omit [DecidableEq α] in
theorem within_le {share : α → ℕ} {total : ℕ} (h : Within share total) (a : α) :
    share a ≤ total := by
  simpa using h {a}

theorem sum_moved {share share' : α → ℕ} {a : α} (hother : ∀ b ≠ a, share' b = share b)
    {S : Finset α} (ha : a ∈ S) :
    ∑ b ∈ S, share' b+share a = ∑ b ∈ S, share b+share' a := by
  have hrest : ∑ b ∈ S.erase a, share' b = ∑ b ∈ S.erase a, share b :=
    Finset.sum_congr rfl fun b hb => hother b (Finset.ne_of_mem_erase hb)
  have hsplit := Finset.add_sum_erase S share ha
  have hsplit' := Finset.add_sum_erase S share' ha
  omega

theorem within_moved {share share' : α → ℕ} {total total' : ℕ} {a : α}
    (hother : ∀ b ≠ a, share' b = share b) (hmoved : share' a+total = share a+total')
    (h : Within share total) : Within share' total' := by
  intro S
  have hsum := sum_moved hother (Finset.mem_insert_self a S)
  have hle := h (insert a S)
  have hmore : ∑ b ∈ S, share' b ≤ ∑ b ∈ insert a S, share' b :=
    Finset.sum_le_sum_of_subset (Finset.subset_insert a S)
  omega

/-- The shares are those of finitely many holders and make up the total. -/
def Exactly (share : α → ℕ) (total : ℕ) : Prop :=
  ∃ S : Finset α, (∀ a ∉ S, share a = 0) ∧ ∑ a ∈ S, share a = total

omit [DecidableEq α] in
theorem exactly_zero : Exactly (fun _ : α => 0) 0 := ⟨∅,fun _ _ => rfl,rfl⟩

theorem exactly_moved {share share' : α → ℕ} {total total' : ℕ} {a : α}
    (hother : ∀ b ≠ a, share' b = share b) (hmoved : share' a+total = share a+total')
    (h : Exactly share total) : Exactly share' total' := by
  obtain ⟨S,hoff,hsum⟩ := h
  refine ⟨insert a S,fun b hb => ?_,?_⟩
  · obtain ⟨hne,hb⟩ := not_or.mp (mt Finset.mem_insert.mpr hb)
    rw [hother b hne,hoff b hb]
  · have hwhole : ∑ b ∈ insert a S, share b = total := by
      rw [← hsum]
      exact Finset.sum_insert_of_eq_zero_if_notMem (hoff a)
    have hsplit := sum_moved hother (Finset.mem_insert_self a S)
    omega

end Library.Shares
