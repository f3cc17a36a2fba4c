import Mathlib.Data.List.AList
import Mathlib.Data.List.Dedup
import Mathlib.Data.List.Perm.Lattice

/-!
# An ordered index of a map

A map keeps no order, so a list of its keys is kept beside it. The list indexes
the map when it holds the stored keys in order of their last insertion. A new
key goes to the end, a removed key is taken out, and overwriting a value leaves
the list alone. What a walk along the list reads is every stored value once.
-/

set_option autoImplicit false

namespace Library.OrderedIndex

variable {K V : Type*} [DecidableEq K]

def inOrder (log : List K) (m : AList fun _ : K => V) : List K :=
  log.dedup.filter fun k => k ∈ m

structure Indexes (log keys : List K) (m : AList fun _ : K => V) : Prop where
  inserted : ∀ k ∈ m, k ∈ log
  ordered : keys = inOrder log m

theorem indexes_empty : Indexes ([] : List K) [] (∅ : AList fun _ : K => V) :=
  ⟨fun k hk => absurd hk (AList.notMem_empty k),rfl⟩

theorem indexes_nodup {log keys : List K} {m : AList fun _ : K => V}
    (h : Indexes log keys m) : keys.Nodup := by
  rw [h.ordered]
  exact (List.nodup_dedup log).filter _

theorem indexes_mem {log keys : List K} {m : AList fun _ : K => V}
    (h : Indexes log keys m) (k : K) : k ∈ keys ↔ k ∈ m := by
  rw [h.ordered,inOrder,List.mem_filter,List.mem_dedup,decide_eq_true_eq]
  exact ⟨fun hk => hk.2,fun hk => ⟨h.inserted k hk,hk⟩⟩

theorem dedup_append_singleton (log : List K) (a : K) :
    (log++[a]).dedup = log.dedup.filter (fun k => k ≠ a)++[a] := by
  induction log with
  | nil => rfl
  | cons b log ih =>
    rw [List.cons_append,List.dedup_cons,List.dedup_cons,ih]
    by_cases hb : b ∈ log
    · rw [if_pos (List.mem_append_left [a] hb),if_pos hb]
    · by_cases hba : b = a
      · subst hba
        rw [if_pos (by simp),if_neg hb,List.filter_cons_of_neg (by simp)]
      · rw [if_neg (by simp [hb,hba]),if_neg hb,List.filter_cons_of_pos (by simpa using hba),
          List.cons_append]

theorem indexes_push {log keys : List K} {m : AList fun _ : K => V} (h : Indexes log keys m)
    {a : K} (ha : a ∉ m) (v : V) : Indexes (log++[a]) (keys++[a]) (m.insert a v) := by
  constructor
  · intro k hk
    rcases (AList.mem_insert m).mp hk with rfl | hk
    · exact List.mem_append_right log (List.mem_singleton_self k)
    · exact List.mem_append_left [a] (h.inserted k hk)
  · rw [inOrder,dedup_append_singleton,List.filter_append,List.filter_filter,h.ordered,inOrder]
    have hlast : [a].filter (fun k => k ∈ m.insert a v) = [a] :=
      List.filter_cons_of_pos (by simp)
    rw [hlast]
    apply congrArg (fun ks => ks++[a])
    apply List.filter_congr
    intro k _
    by_cases hka : k = a
    · subst hka
      simp [ha]
    · simp [hka]

theorem indexes_overwrite {log keys : List K} {m : AList fun _ : K => V}
    (h : Indexes log keys m) {a : K} (ha : a ∈ m) (v : V) :
    Indexes log keys (m.insert a v) := by
  have hsame : ∀ k, k ∈ m.insert a v ↔ k ∈ m := by
    intro k
    rw [AList.mem_insert]
    constructor
    · rintro (rfl | hk)
      · exact ha
      · exact hk
    · exact Or.inr
  constructor
  · exact fun k hk => h.inserted k ((hsame k).mp hk)
  · rw [h.ordered,inOrder,inOrder]
    simp only [hsame]

theorem indexes_erase {log keys : List K} {m : AList fun _ : K => V}
    (h : Indexes log keys m) (a : K) :
    Indexes log (keys.filter fun k => k ≠ a) (m.erase a) := by
  constructor
  · exact fun k hk => h.inserted k (AList.mem_erase.mp hk).2
  · rw [h.ordered,inOrder,inOrder,List.filter_filter]
    apply List.filter_congr
    intro k _
    simp [AList.mem_erase]

theorem keys_values (m : AList fun _ : K => V) :
    m.keys.filterMap (fun k => m.lookup k) = m.entries.map fun e => e.2 := by
  change (m.entries.map Sigma.fst).filterMap _ = _
  rw [List.filterMap_map,← List.filterMap_eq_map]
  apply List.filterMap_congr
  intro e he
  exact (AList.mem_lookup_iff).mpr he

theorem listing_perm {log keys : List K} {m : AList fun _ : K => V} (h : Indexes log keys m) :
    (keys.filterMap fun k => m.lookup k).Perm (m.entries.map fun e => e.2) := by
  rw [← keys_values]
  apply List.Perm.filterMap
  rw [List.perm_ext_iff_of_nodup (indexes_nodup h) m.keys_nodup]
  intro k
  rw [indexes_mem h,AList.mem_keys]

end Library.OrderedIndex
