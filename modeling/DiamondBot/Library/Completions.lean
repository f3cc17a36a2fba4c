import Mathlib.Data.List.AList

/-!
# Results that arrive in any order

Each task of a batch has its own key and writes one entry. What the batch leaves
behind does not depend on the order in which the tasks end.
-/

set_option autoImplicit false

namespace Library.Completions

variable {κ β : Type*} [DecidableEq κ]

def deliver (m : AList fun _ : κ => β) (results : List (κ × β)) : AList fun _ : κ => β :=
  results.foldl (fun m result => m.insert result.1 result.2) m

theorem deliver_cons (m : AList fun _ : κ => β) (result : κ × β) (results : List (κ × β)) :
    deliver m (result::results) = deliver (m.insert result.1 result.2) results := rfl

theorem lookup_deliver_other {m : AList fun _ : κ => β} {results : List (κ × β)} {k : κ}
    (h : k ∉ results.map Prod.fst) : (deliver m results).lookup k = m.lookup k := by
  induction results generalizing m with
  | nil => rfl
  | cons result results ih =>
    obtain ⟨hne,hrest⟩ := not_or.mp (mt List.mem_cons.mpr h)
    rw [deliver_cons,ih hrest,AList.lookup_insert_ne hne]

theorem lookup_deliver {m : AList fun _ : κ => β} {results : List (κ × β)}
    (hnodup : (results.map Prod.fst).Nodup) {k : κ} {v : β} (h : (k,v) ∈ results) :
    (deliver m results).lookup k = some v := by
  induction results generalizing m with
  | nil => cases h
  | cons result results ih =>
    obtain ⟨hnew,hrest⟩ := List.nodup_cons.mp hnodup
    rw [deliver_cons]
    rcases List.mem_cons.mp h with heq | hlater
    · subst heq
      rw [lookup_deliver_other hnew,AList.lookup_insert]
    · exact ih hrest hlater

theorem deliver_perm {results results' : List (κ × β)} (h : results.Perm results')
    (hnodup : (results.map Prod.fst).Nodup) (m : AList fun _ : κ => β) (k : κ) :
    (deliver m results).lookup k = (deliver m results').lookup k := by
  have hkeys := h.map Prod.fst
  by_cases hk : k ∈ results.map Prod.fst
  · obtain ⟨⟨_,v⟩,hmem,rfl⟩ := List.mem_map.mp hk
    rw [lookup_deliver hnodup hmem,lookup_deliver (hkeys.nodup_iff.mp hnodup) (h.mem_iff.mp hmem)]
  · rw [lookup_deliver_other hk,lookup_deliver_other (mt hkeys.mem_iff.mpr hk)]

end Library.Completions
