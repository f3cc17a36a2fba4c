import Mathlib.Algebra.Order.Ring.Nat
import Mathlib.Data.List.Basic

/-!
# Pages of a list

A list is read in pieces of one length, the last of which may be shorter. The
pieces from the first on, put together, are the list as far as they reach.
-/

set_option autoImplicit false

namespace Library.Paging

variable {α : Type*}

/-- The page after `k` others. -/
def page (l : List α) (limit k : ℕ) : List α := (l.drop (k*limit)).take limit

def pages (l : List α) (limit count : ℕ) : List (List α) := (List.range count).map (page l limit)

@[simp] theorem length_pages (l : List α) (limit count : ℕ) :
    (pages l limit count).length = count := by
  simp [pages]

@[simp] theorem getElem_pages {l : List α} {limit count k : ℕ}
    (h : k < (pages l limit count).length) : (pages l limit count)[k] = page l limit k := by
  simp [pages]

theorem flatten_pages (l : List α) (limit count : ℕ) :
    (pages l limit count).flatten = l.take (count*limit) := by
  induction count with
  | zero => simp [pages]
  | succ count ih =>
    have hlast : pages l limit (count+1) = pages l limit count++[page l limit count] := by
      simp [pages,List.range_succ]
    rw [hlast,List.flatten_concat,ih,Nat.succ_mul,List.take_add]
    rfl

theorem page_beyond {l : List α} {limit k : ℕ} (h : l.length ≤ k*limit) : page l limit k = [] := by
  rw [page,List.drop_eq_nil_of_le h,List.take_nil]

theorem exists_covering {length limit bound : ℕ} (hpos : 0 < limit) (hlimit : limit < bound)
    (hlength : 2*length ≤ bound) : ∃ count, count*limit < bound ∧ length ≤ count*limit := by
  refine ⟨(length+limit-1)/limit,?_,?_⟩
  · have hle := Nat.div_mul_le_self (length+limit-1) limit
    by_cases hone : length ≤ limit
    · have hcount : (length+limit-1)/limit < 2 := by
        rw [Nat.div_lt_iff_lt_mul hpos]
        omega
      have hsmall : (length+limit-1)/limit*limit ≤ 1*limit :=
        Nat.mul_le_mul_right limit (Nat.le_of_lt_succ hcount)
      omega
    · omega
  · have hlt := Nat.lt_div_mul_add hpos (a := length+limit-1)
    omega

end Library.Paging
