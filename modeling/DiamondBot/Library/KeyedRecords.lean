import Mathlib.Data.List.Nodup

/-!
# Records with a key

A list of records is searched for the first one with a key. Changing that record
in place, appending a record with a new key and filtering a list without repeated
keys are described by what a search finds afterwards.
-/

set_option autoImplicit false

namespace Library.KeyedRecords

variable {α κ : Type*} [DecidableEq κ] (key : α → κ)

def find (l : List α) (k : κ) : Option α := l.find? fun a => key a = k

def modify (f : α → α) (k : κ) : List α → List α
  | [] => []
  | a::l => if key a = k then f a::l else a::modify f k l

def Distinct (l : List α) : Prop := (l.map key).Nodup

variable {key} {l : List α}

theorem find_key {k : κ} {a : α} (h : find key l k = some a) : key a = k := by
  simpa using List.find?_some h

theorem find_none {k : κ} : find key l k = none ↔ k ∉ l.map key := by
  rw [find,List.find?_eq_none,List.mem_map]
  simp

theorem find_cons (a : α) (k : κ) :
    find key (a::l) k = if key a = k then some a else find key l k := by
  by_cases h : key a = k
  · rw [find,List.find?_cons_of_pos (by simpa using h),if_pos h]
  · rw [find,List.find?_cons_of_neg (by simpa using h),if_neg h]
    rfl

theorem find_append_singleton (a : α) (k : κ) :
    find key (l++[a]) k = (find key l k).or (if key a = k then some a else none) := by
  rw [find,List.find?_append]
  change (find key l k).or (find key [a] k) = _
  rw [find_cons]
  rfl

theorem find_modify {f : α → α} {k : κ} (hf : ∀ a, key a = k → key (f a) = k) (j : κ) :
    find key (modify key f k l) j = if j = k then (find key l j).map f else find key l j := by
  induction l with
  | nil =>
    rw [modify]
    split
    · rfl
    · rfl
  | cons a l ih =>
    by_cases ha : key a = k
    · rw [modify,if_pos ha,find_cons,find_cons,hf a ha,ha]
      by_cases hj : k = j
      · rw [if_pos hj,if_pos hj,if_pos hj.symm]
        rfl
      · rw [if_neg hj,if_neg hj,if_neg (Ne.symm hj)]
    · rw [modify,if_neg ha,find_cons,find_cons,ih]
      by_cases hj : key a = j
      · rw [if_pos hj,if_pos hj,if_neg fun hjk => ha (hj.trans hjk)]
      · rw [if_neg hj,if_neg hj]

theorem find_filter (h : Distinct key l) (p : α → Bool) (k : κ) :
    find key (l.filter p) k = (find key l k).filter p := by
  induction l with
  | nil => rfl
  | cons a l ih =>
    obtain ⟨hnew,hrest⟩ := List.nodup_cons.mp h
    rw [find_cons]
    by_cases ha : key a = k
    · -- no later record has the key of the first one
      have hnone : find key l k = none := find_none.mpr (ha ▸ hnew)
      rw [if_pos ha]
      cases hp : p a with
      | true => rw [List.filter_cons_of_pos hp,find_cons,if_pos ha,Option.filter_some,if_pos hp]
      | false =>
        rw [List.filter_cons_of_neg (by simp [hp]),ih hrest,hnone,Option.filter_some,hp]
        rfl
    · rw [if_neg ha,← ih hrest]
      cases hp : p a with
      | true => rw [List.filter_cons_of_pos hp,find_cons,if_neg ha]
      | false => rw [List.filter_cons_of_neg (by simp [hp])]

/-! ## Distinct keys -/

theorem map_modify {f : α → α} {k : κ} (hf : ∀ a, key a = k → key (f a) = k) :
    (modify key f k l).map key = l.map key := by
  induction l with
  | nil => rfl
  | cons a l ih =>
    by_cases ha : key a = k
    · rw [modify,if_pos ha,List.map_cons,List.map_cons,hf a ha,ha]
    · rw [modify,if_neg ha,List.map_cons,List.map_cons,ih]

theorem distinct_modify {f : α → α} {k : κ} (hf : ∀ a, key a = k → key (f a) = k)
    (h : Distinct key l) : Distinct key (modify key f k l) := by
  rw [Distinct,map_modify hf]
  exact h

theorem distinct_append {a : α} (h : Distinct key l) (hnew : find key l (key a) = none) :
    Distinct key (l++[a]) := by
  rw [Distinct,List.map_append]
  apply h.append (List.nodup_singleton (key a))
  intro k hk hmem
  rw [List.mem_singleton.mp hmem] at hk
  exact find_none.mp hnew hk

omit [DecidableEq κ] in
theorem distinct_filter (h : Distinct key l) (p : α → Bool) : Distinct key (l.filter p) :=
  (List.filter_sublist.map key).nodup h

end Library.KeyedRecords
