import Mathlib.Algebra.BigOperators.Group.Finset.Piecewise
import Mathlib.Algebra.BigOperators.Group.List.Basic
import Mathlib.Algebra.Order.BigOperators.Group.Finset
import Mathlib.Algebra.Order.BigOperators.Group.List
import Mathlib.Algebra.Order.Ring.Nat
import Mathlib.Data.List.AList
import Mathlib.Data.List.Perm.Basic

/-!
# Totals over keyed records and pending entries

A keyed store has at most one record for a key, so a total over its records
changes at one key only when that key is written or removed. Entries of a
list are settled by position, and a total over the list then loses the share
of the settled entry. All totals are natural numbers; no truncated
subtraction occurs in the statements.
-/

set_option autoImplicit false

namespace Library.KeyedTotal

variable {α β π : Type*} [DecidableEq α]

def total (f : α → β → ℕ) (m : AList fun _ : α => β) : ℕ :=
  (m.entries.map fun e => f e.1 e.2).sum

def share (f : α → β → ℕ) (m : AList fun _ : α => β) (k : α) : ℕ :=
  (m.lookup k).elim 0 (f k)

theorem share_some {f : α → β → ℕ} {m : AList fun _ : α => β} {k : α} {b : β}
    (h : m.lookup k = some b) : share f m k = f k b := by
  simp [share,h]

theorem share_none {f : α → β → ℕ} {m : AList fun _ : α => β} {k : α}
    (h : m.lookup k = none) : share f m k = 0 := by
  simp [share,h]

theorem share_insert (f : α → β → ℕ) (m : AList fun _ : α => β) (k : α) (b : β) :
    share f (m.insert k b) k = f k b := by
  simp [share]

theorem share_insert_ne (f : α → β → ℕ) (m : AList fun _ : α => β) {k j : α} (b : β)
    (h : j ≠ k) : share f (m.insert k b) j = share f m j := by
  simp [share,AList.lookup_insert_ne h]

theorem share_erase (f : α → β → ℕ) (m : AList fun _ : α => β) (k : α) :
    share f (m.erase k) k = 0 := by
  simp [share]

theorem share_erase_ne (f : α → β → ℕ) (m : AList fun _ : α => β) {k j : α}
    (h : j ≠ k) : share f (m.erase k) j = share f m j := by
  simp [share,AList.lookup_erase_ne h]

theorem total_erase (f : α → β → ℕ) (m : AList fun _ : α => β) (k : α) :
    total f (m.erase k)+share f m k = total f m := by
  by_cases hk : k ∈ m
  · obtain ⟨b,l,r,hl,hm,he⟩ := List.exists_of_kerase (AList.mem_keys.mp hk)
    have hb : m.lookup k = some b :=
      AList.mem_lookup_iff.mpr (by rw [hm]; simp)
    rw [share_some hb]
    change (((m.entries.kerase k).map fun e => f e.1 e.2).sum)+f k b =
      (m.entries.map fun e => f e.1 e.2).sum
    rw [he,hm]
    simp only [List.map_append,List.map_cons,List.sum_append,List.sum_cons]
    omega
  · rw [share_none (AList.lookup_eq_none.mpr hk)]
    change ((m.entries.kerase k).map fun e => f e.1 e.2).sum+0 = _
    rw [List.kerase_of_notMem_keys (fun h => hk (AList.mem_keys.mpr h))]
    rfl

theorem total_insert (f : α → β → ℕ) (m : AList fun _ : α => β) (k : α) (b : β) :
    total f (m.insert k b)+share f m k = total f m+f k b := by
  have he := total_erase f m k
  have hi : total f (m.insert k b) = f k b+total f (m.erase k) := by
    rw [total,AList.entries_insert,List.map_cons,List.sum_cons]
    rfl
  omega

/-- The same shares with one key left out. -/
def without (k : α) (f : α → β → ℕ) : α → β → ℕ :=
  fun j b => if j = k then 0 else f j b

theorem share_without (k : α) (f : α → β → ℕ) (m : AList fun _ : α => β) :
    share (without k f) m k = 0 := by
  cases h : m.lookup k with
  | none => exact share_none h
  | some b => simp [share_some h,without]

theorem share_without_ne {k j : α} (h : j ≠ k) (f : α → β → ℕ) (m : AList fun _ : α => β) :
    share (without k f) m j = share f m j := by
  cases hl : m.lookup j with
  | none => rw [share_none hl,share_none hl]
  | some b => simp [share_some hl,without,h]

theorem total_without_insert (k : α) (f : α → β → ℕ) (m : AList fun _ : α => β) (b : β) :
    total (without k f) (m.insert k b) = total (without k f) m := by
  have hi := total_insert (without k f) m k b
  simpa [share_without,without] using hi

theorem total_split (k : α) (f : α → β → ℕ) (m : AList fun _ : α => β) :
    total f m = share f m k+total (without k f) m := by
  have ha := total_erase f m k
  have hb := total_erase (without k f) m k
  rw [share_without] at hb
  have he : total f (m.erase k) = total (without k f) (m.erase k) := by
    apply congrArg List.sum
    apply List.map_congr_left
    intro e he
    have hk : e.1 ≠ k := (AList.mem_erase.mp (AList.mem_keys.mpr (List.mem_keys_of_mem he))).1
    simp [without,hk]
  omega

theorem total_eq_sum (f : α → β → ℕ) (m : AList fun _ : α => β) :
    total f m = ∑ k ∈ m.keys.toFinset, share f m k := by
  have hk : m.keys.Nodup := m.nodupKeys
  rw [List.sum_toFinset _ hk]
  apply congrArg List.sum
  change m.entries.map _ = (m.entries.map Sigma.fst).map _
  rw [List.map_map]
  apply List.map_congr_left
  intro e he
  exact (share_some (AList.mem_lookup_iff.mpr he)).symm

theorem share_notMem {f : α → β → ℕ} {m : AList fun _ : α => β} {k : α}
    (h : k ∉ m.keys.toFinset) : share f m k = 0 :=
  share_none (AList.lookup_eq_none.mpr fun hk => h (List.mem_toFinset.mpr (AList.mem_keys.mp hk)))

/-- Entries whose amounts stay within the share of their key, key by key, stay
within the total. -/
theorem sum_le_total (f : α → β → ℕ) (m : AList fun _ : α => β) (who : π → α) (amount : π → ℕ)
    (ps : List π) (h : ∀ k, (ps.map fun p => if k = who p then amount p else 0).sum ≤ share f m k) :
    (ps.map amount).sum ≤ total f m := by
  let keys := m.keys.toFinset ∪ (ps.map who).toFinset
  have hall : ∀ qs, qs ⊆ ps → (qs.map amount).sum =
      ∑ k ∈ keys, (qs.map fun p => if k = who p then amount p else 0).sum := by
    intro qs hqs
    induction qs with
    | nil => simp
    | cons q qs ih =>
      have hq : who q ∈ keys :=
        Finset.mem_union_right _ (List.mem_toFinset.mpr (List.mem_map_of_mem (hqs (by simp))))
      rw [List.map_cons,List.sum_cons,ih (fun p hp => hqs (by simp [hp]))]
      simp only [List.map_cons,List.sum_cons,Finset.sum_add_distrib,Finset.sum_ite_eq',hq,if_true]
  rw [hall ps (List.Subset.refl _),total_eq_sum]
  calc ∑ k ∈ keys, (ps.map fun p => if k = who p then amount p else 0).sum
      ≤ ∑ k ∈ keys, share f m k := Finset.sum_le_sum fun k _ => h k
    _ = ∑ k ∈ m.keys.toFinset, share f m k :=
      (Finset.sum_subset Finset.subset_union_left fun k _ hk => share_notMem hk).symm

theorem total_congr (f : α → β → ℕ) {m m' : AList fun _ : α => β}
    (h : ∀ k, share f m k = share f m' k) : total f m = total f m' := by
  have hle : ∀ a b : AList fun _ : α => β, (∀ k, share f a k = share f b k) →
      total f a = ∑ k ∈ a.keys.toFinset ∪ b.keys.toFinset, share f b k := by
    intro a b hab
    rw [total_eq_sum]
    calc ∑ k ∈ a.keys.toFinset, share f a k
        = ∑ k ∈ a.keys.toFinset ∪ b.keys.toFinset, share f a k :=
          Finset.sum_subset Finset.subset_union_left fun k _ hk => share_notMem hk
      _ = _ := Finset.sum_congr rfl fun k _ => hab k
  rw [hle m m' h,hle m' m fun k => (h k).symm,Finset.union_comm]
  exact Finset.sum_congr rfl fun k _ => (h k).symm

def Gains (f : α → β → ℕ) (k : α) (n : ℕ) (m m' : AList fun _ : α => β) : Prop :=
  (∀ j, share f m' j = share f m j+if j = k then n else 0) ∧ total f m' = total f m+n

theorem gains_insert {f : α → β → ℕ} {m : AList fun _ : α => β} {k : α} {b : β} {n : ℕ}
    (h : f k b = share f m k+n) : Gains f k n m (m.insert k b) := by
  constructor
  · intro j
    by_cases hj : j = k
    · subst hj
      simp [share_insert,h]
    · simp [share_insert_ne f m b hj,hj]
  · have hi := total_insert f m k b
    omega

theorem gains_of_insert {f : α → β → ℕ} {m : AList fun _ : α => β} {k : α} {b : β} {n : ℕ}
    (h : f k b+n = share f m k) : Gains f k n (m.insert k b) m := by
  constructor
  · intro j
    by_cases hj : j = k
    · subst hj
      simp [share_insert,h]
    · simp [share_insert_ne f m b hj,hj]
  · have hi := total_insert f m k b
    omega

theorem gains_of_erase (f : α → β → ℕ) (m : AList fun _ : α => β) (k : α) :
    Gains f k (share f m k) (m.erase k) m := by
  constructor
  · intro j
    by_cases hj : j = k
    · subst hj
      simp [share_erase]
    · simp [share_erase_ne f m hj,hj]
  · have he := total_erase f m k
    omega

theorem total_le (f : α → β → ℕ) (m : AList fun _ : α => β) (cap : ℕ)
    (h : ∀ k b, m.lookup k = some b → f k b ≤ cap) : total f m ≤ m.keys.length*cap := by
  have hb : ∀ x ∈ m.entries.map (fun e => f e.1 e.2), x ≤ cap := by
    intro x hx
    obtain ⟨⟨k,b⟩,he,rfl⟩ := List.mem_map.mp hx
    exact h k b (AList.mem_lookup_iff.mpr he)
  have hs := List.sum_le_card_nsmul _ cap hb
  simpa [total,AList.keys,List.keys] using hs

omit [DecidableEq α] in
theorem sum_eraseIdx (f : π → ℕ) (ps : List π) (i : ℕ) (p : π) (h : ps[i]? = some p) :
    f p+((ps.eraseIdx i).map f).sum = (ps.map f).sum := by
  obtain ⟨hi,rfl⟩ := List.getElem?_eq_some_iff.mp h
  have hp := ((List.getElem_cons_eraseIdx_perm hi).map f).sum_eq
  simpa using hp

theorem sum_set (f : π → ℕ) (ps : List π) (i : ℕ) (p q : π) (h : ps[i]? = some p) :
    ((ps.set i q).map f).sum+f p = (ps.map f).sum+f q := by
  have hi := (List.getElem?_eq_some_iff.mp h).1
  have hold := sum_eraseIdx f ps i p h
  have hnew := sum_eraseIdx f (ps.set i q) i q (List.getElem?_set_self hi)
  rw [List.eraseIdx_set_eq] at hnew
  omega

end Library.KeyedTotal
