import Mathlib.Data.List.Nodup
import Mathlib.Data.List.Range
import Mathlib.Data.Nat.ModEq

/-!
# Searching a circle from a moving start

Places `0` to `n-1` stand in a circle. A search looks at one place a turn from
where the last search ended, and stops at the first that qualifies. In as many
turns as there are places it looks at each of them once, so it misses none.
-/

set_option autoImplicit false

namespace Library.RotatingSearch

structure Search where
  found : Option ℕ
  next : ℕ
  seen : List ℕ

/-- The places of `k` turns from `start` on. -/
def places (n start k : ℕ) : List ℕ :=
  (List.range k).map fun i => (start+i)%n

def search (n : ℕ) (p : ℕ → Bool) : ℕ → ℕ → Search
  | 0, start => ⟨none,start,[]⟩
  | k+1, start =>
    if p start then ⟨some start,(start+1)%n,[start]⟩
    else
      let rest := search n p k ((start+1)%n)
      ⟨rest.found,rest.next,start::rest.seen⟩

theorem places_succ {n start : ℕ} (k : ℕ) (h : start < n) :
    places n start (k+1) = start::places n ((start+1)%n) k := by
  unfold places
  rw [List.range_succ_eq_map,List.map_cons,List.map_map,Nat.add_zero,Nat.mod_eq_of_lt h]
  refine congrArg (start::·) (List.map_congr_left fun i _ => ?_)
  rw [Nat.mod_add_mod,Nat.add_assoc,Nat.add_comm 1 i]
  rfl

theorem places_lt {n start k : ℕ} (h : start < n) : ∀ i ∈ places n start k, i < n := by
  intro i hi
  obtain ⟨j,_,rfl⟩ := List.mem_map.mp hi
  exact Nat.mod_lt _ (by omega)

theorem places_nodup {n start k : ℕ} (hk : k ≤ n) :
    (places n start k).Nodup := by
  refine List.Nodup.map_on ?_ List.nodup_range
  intro i hi j hj hij
  rw [List.mem_range] at hi hj
  have hmod : i % n = j % n := Nat.ModEq.add_left_cancel' start hij
  rwa [Nat.mod_eq_of_lt (by omega),Nat.mod_eq_of_lt (by omega)] at hmod

theorem mem_places {n start i : ℕ} (h : start < n) (hi : i < n) : i ∈ places n start n := by
  refine List.mem_map.mpr ⟨(n-start+i)%n,List.mem_range.mpr (Nat.mod_lt _ (by omega)),?_⟩
  rw [Nat.add_mod_mod,show start+(n-start+i) = i+n by omega,Nat.add_mod_right,
    Nat.mod_eq_of_lt hi]

variable {n : ℕ} {p : ℕ → Bool}

theorem search_next {k start : ℕ} (h : start < n) : (search n p k start).next < n := by
  induction k generalizing start with
  | zero => exact h
  | succ k ih =>
    have hnext : (start+1)%n < n := Nat.mod_lt _ (by omega)
    unfold search
    split
    · exact hnext
    · exact ih hnext

theorem search_found {k start : ℕ} (h : start < n) :
    (search n p k start).found = (places n start k).find? p := by
  induction k generalizing start with
  | zero => rfl
  | succ k ih =>
    rw [places_succ k h]
    unfold search
    split
    next hp => rw [List.find?_cons_of_pos hp]
    next hp =>
      rw [List.find?_cons_of_neg hp]
      exact ih (Nat.mod_lt _ (by omega))

theorem search_seen {k start : ℕ} (h : start < n) :
    (search n p k start).seen <+: places n start k := by
  induction k generalizing start with
  | zero => exact List.prefix_rfl
  | succ k ih =>
    rw [places_succ k h]
    unfold search
    split
    · exact (List.prefix_cons_inj start).mpr List.nil_prefix
    · exact (List.prefix_cons_inj start).mpr (ih (Nat.mod_lt _ (by omega)))

theorem found_some {start i : ℕ} (h : start < n) (hfound : (search n p n start).found = some i) :
    i < n ∧ p i = true := by
  rw [search_found h] at hfound
  exact ⟨places_lt h i (List.mem_of_find?_eq_some hfound),List.find?_some hfound⟩

theorem found_none {start : ℕ} (h : start < n) (hfound : (search n p n start).found = none) :
    ∀ i < n, p i = false := by
  rw [search_found h,List.find?_eq_none] at hfound
  intro i hi
  exact Bool.eq_false_iff.mpr (hfound i (mem_places h hi))

theorem seen_nodup {start : ℕ} (h : start < n) : (search n p n start).seen.Nodup :=
  (places_nodup le_rfl).sublist (search_seen h).sublist

theorem seen_lt {start : ℕ} (h : start < n) : ∀ i ∈ (search n p n start).seen, i < n :=
  fun i hi => places_lt h i ((search_seen h).subset hi)

end Library.RotatingSearch
