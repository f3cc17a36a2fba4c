import Mathlib.Algebra.BigOperators.Group.Finset.Piecewise
import Mathlib.Algebra.BigOperators.Group.List.Basic
import Mathlib.Algebra.Order.BigOperators.Group.Finset
import Mathlib.Algebra.Order.Ring.Nat

/-!
# Totals over the entries of a log that meet a condition

A log records amounts with who and when. A total over the entries that meet a
condition grows by what is appended, never falls when the condition is widened,
and is the sum of the totals over the two sides of a further condition.
-/

set_option autoImplicit false

namespace Library.Tally

variable {α : Type*}

def tally (p : α → Prop) [DecidablePred p] (f : α → ℕ) (log : List α) : ℕ :=
  (log.map fun x => if p x then f x else 0).sum

variable (p q : α → Prop) [DecidablePred p] [DecidablePred q] (f : α → ℕ)

@[simp] theorem tally_nil : tally p f [] = 0 := rfl

theorem tally_cons (x : α) (xs : List α) :
    tally p f (x::xs) = (if p x then f x else 0)+tally p f xs := by
  simp [tally]

theorem tally_append (xs ys : List α) :
    tally p f (xs++ys) = tally p f xs+tally p f ys := by
  simp [tally]

variable {p q f}

theorem tally_mono {xs : List α} (h : ∀ x ∈ xs, p x → q x) : tally p f xs ≤ tally q f xs := by
  induction xs with
  | nil => exact le_rfl
  | cons x xs ih =>
    have hx := h x (by simp)
    have ih := ih fun y hy => h y (by simp [hy])
    rw [tally_cons,tally_cons]
    by_cases hp : p x
    · simp only [hp,hx hp,if_true]
      omega
    · simp only [hp,if_false]
      omega

theorem tally_congr {xs : List α} (h : ∀ x ∈ xs, p x ↔ q x) : tally p f xs = tally q f xs :=
  le_antisymm (tally_mono fun x hx => (h x hx).mp) (tally_mono fun x hx => (h x hx).mpr)

theorem tally_split (p q : α → Prop) [DecidablePred p] [DecidablePred q] (f : α → ℕ)
    (xs : List α) : tally p f xs =
      tally (fun x => p x ∧ q x) f xs+tally (fun x => p x ∧ ¬q x) f xs := by
  induction xs with
  | nil => rfl
  | cons x xs ih =>
    rw [tally_cons,tally_cons,tally_cons,ih]
    by_cases hp : p x <;> by_cases hq : q x <;> simp [hp,hq] <;> omega

variable {κ : Type*} [DecidableEq κ]

/-- A total over a set of keys is the sum of the totals of its keys. -/
theorem tally_keys (who : α → κ) (P : κ → Prop) [DecidablePred P] (f : α → ℕ) (xs : List α)
    (keys : Finset κ) (h : ∀ x ∈ xs, who x ∈ keys) : tally (fun x => P (who x)) f xs =
      ∑ k ∈ keys, if P k then tally (fun x => who x = k) f xs else 0 := by
  induction xs with
  | nil => simp
  | cons x xs ih =>
    have hx : who x ∈ keys := h x (by simp)
    have hk : ∀ k ∈ keys, (if P k then tally (fun y => who y = k) f (x::xs) else 0) =
        (if k = who x then if P k then f x else 0 else 0)+
          if P k then tally (fun y => who y = k) f xs else 0 := by
      intro k _
      rw [tally_cons]
      by_cases hw : k = who x
      · subst hw
        by_cases hP : P (who x) <;> simp [hP]
      · have hw' : who x ≠ k := fun h => hw h.symm
        simp [hw,hw']
    rw [tally_cons,ih fun y hy => h y (by simp [hy]),Finset.sum_congr rfl hk,
      Finset.sum_add_distrib,Finset.sum_ite_eq' keys (who x)]
    simp only [hx,if_true]

theorem tally_le_of_keys (who : α → κ) {f g : α → ℕ} {xs : List α}
    (h : ∀ k, tally (fun x => who x = k) f xs ≤ tally (fun x => who x = k) g xs)
    (P : κ → Prop) [DecidablePred P] :
    tally (fun x => P (who x)) f xs ≤ tally (fun x => P (who x)) g xs := by
  have hmem : ∀ x ∈ xs, who x ∈ (xs.map who).toFinset := fun x hx =>
    List.mem_toFinset.mpr (List.mem_map_of_mem hx)
  rw [tally_keys who P f xs _ hmem,tally_keys who P g xs _ hmem]
  apply Finset.sum_le_sum
  intro k _
  by_cases hP : P k
  · simp only [hP,if_true]
    exact h k
  · simp only [hP,if_false]
    exact le_rfl

end Library.Tally
