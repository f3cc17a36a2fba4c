import DiamondBot.Library.AtomicRun
import Mathlib.Algebra.Order.Ring.Nat
import Mathlib.Data.Finset.Card
import Mathlib.Data.List.Nodup

/-!
# Caches of the most recently used

A bounded cache lists its entries from the most to the least recently used. A
written key comes to the front, and what no longer fits falls off the back.
-/

set_option autoImplicit false

namespace Library

structure LruCache (K V : Type) where
  cap : ℕ
  entries : List (K × V)
  pos : 0 < cap
  nodup : (entries.map Prod.fst).Nodup
  bounded : entries.length ≤ cap

namespace LruCache

variable {K V : Type}

def new (cap : ℕ) (h : 0 < cap) : LruCache K V := ⟨cap,[],h,List.nodup_nil,Nat.zero_le _⟩

/-- The two ends of a cache are different entries unless there is only one. -/
theorem take_reverse_iff (c : LruCache K V) {n : ℕ} (hn : 0 < n) :
    c.entries.reverse.take n = c.entries.take n ↔ c.entries.length ≤ 1 := by
  have hnodup := c.nodup
  cases hentries : c.entries with
  | nil => simp
  | cons first rest =>
    rcases List.eq_nil_or_concat rest with rfl | ⟨middle,last,rfl⟩
    · simp
    · rw [hentries] at hnodup
      obtain ⟨m,rfl⟩ : ∃ m, n = m+1 := ⟨n-1,by omega⟩
      simp only [List.concat_eq_append,List.map_cons,List.map_append,List.nodup_cons] at hnodup
      constructor
      · intro h
        simp only [List.concat_eq_append,List.reverse_cons,List.reverse_append,List.reverse_nil,
          List.nil_append,List.cons_append,List.take_succ_cons,List.cons.injEq] at h
        exact absurd (by rw [← h.1]; simp) hnodup.1
      · intro h
        simp at h

variable [DecidableEq K]

def others (c : LruCache K V) (key : K) : List (K × V) := c.entries.filter fun e => e.1 ≠ key

theorem others_nodup (c : LruCache K V) (key : K) (value : V) :
    (((key,value)::c.others key).map Prod.fst).Nodup := by
  rw [List.map_cons,List.nodup_cons]
  constructor
  · intro hkey
    obtain ⟨e,he,hsame⟩ := List.mem_map.mp hkey
    exact absurd hsame (of_decide_eq_true (List.mem_filter.mp he).2)
  · exact (List.filter_sublist.map Prod.fst).nodup c.nodup

def put (c : LruCache K V) (key : K) (value : V) : LruCache K V where
  cap := c.cap
  entries := ((key,value)::c.others key).take c.cap
  pos := c.pos
  nodup := ((List.take_sublist c.cap _).map Prod.fst).nodup (c.others_nodup key value)
  bounded := List.length_take_le _ _

def putAll (c : LruCache K V) (items : List (K × V)) : LruCache K V :=
  items.foldl (fun c e => c.put e.1 e.2) c

theorem putAll_cap (c : LruCache K V) (items : List (K × V)) : (c.putAll items).cap = c.cap := by
  induction items generalizing c with
  | nil => rfl
  | cons e items ih => exact ih (c.put e.1 e.2)

theorem others_fresh {c : LruCache K V} {key : K} (h : key ∉ c.entries.map Prod.fst) :
    c.others key = c.entries := by
  apply List.filter_eq_self.mpr
  intro e he
  exact decide_eq_true fun hsame => h (hsame ▸ List.mem_map_of_mem he)

theorem put_fresh {c : LruCache K V} {key : K} (value : V) (h : key ∉ c.entries.map Prod.fst) :
    (c.put key value).entries = ((key,value)::c.entries).take c.cap := by
  change ((key,value)::c.others key).take c.cap = _
  rw [others_fresh h]

theorem mem_put {c : LruCache K V} {key k : K} {value : V}
    (h : k ∈ (c.put key value).entries.map Prod.fst) : k = key ∨ k ∈ c.entries.map Prod.fst := by
  obtain ⟨e,he,rfl⟩ := List.mem_map.mp h
  rcases List.mem_cons.mp (List.mem_of_mem_take he) with rfl | he
  · exact Or.inl rfl
  · exact Or.inr (List.mem_map_of_mem (List.mem_of_mem_filter he))

theorem take_append_take {A : Type} (n : ℕ) (as bs : List A) :
    (as++bs.take n).take n = (as++bs).take n := by
  rw [List.take_append,List.take_append,List.take_take,Nat.min_eq_left (Nat.sub_le _ _)]

theorem putAll_fresh {c : LruCache K V} {items : List (K × V)}
    (hitems : (items.map Prod.fst).Nodup)
    (h : ∀ k ∈ items.map Prod.fst, k ∉ c.entries.map Prod.fst) :
    (c.putAll items).entries = (items.reverse++c.entries).take c.cap := by
  induction items generalizing c with
  | nil => exact (List.take_of_length_le c.bounded).symm
  | cons e items ih =>
    rw [List.map_cons,List.nodup_cons] at hitems
    rw [List.map_cons,List.forall_mem_cons] at h
    change ((c.put e.1 e.2).putAll items).entries = _
    rw [ih hitems.2,put_fresh e.2 h.1,List.reverse_cons,List.append_assoc,List.singleton_append]
    · exact take_append_take c.cap _ _
    · intro k hk hput
      rcases mem_put hput with rfl | hput
      · exact hitems.1 hk
      · exact h.2 k hk hput

theorem copy_entries (c : LruCache K V) (n : ℕ) (hn : 0 < n) :
    ((new n hn).putAll c.entries).entries = c.entries.reverse.take n := by
  rw [putAll_fresh c.nodup fun _ _ => List.not_mem_nil]
  change (c.entries.reverse++[]).take n = _
  rw [List.append_nil]

/-! ## What is still there -/

def keys (c : LruCache K V) : List K := c.entries.map Prod.fst

def lookup (c : LruCache K V) (key : K) : Option V := c.entries.lookup key

def touch (c : LruCache K V) (key : K) : LruCache K V :=
  match c.lookup key with
  | some value => c.put key value
  | none => c

def pop (c : LruCache K V) (key : K) : LruCache K V where
  cap := c.cap
  entries := c.others key
  pos := c.pos
  nodup := (List.filter_sublist.map Prod.fst).nodup c.nodup
  bounded := (List.length_filter_le _ _).trans c.bounded

inductive Use (K V : Type)
  | put (key : K) (value : V)
  | touch (key : K)
  | pop (key : K)

def Use.key : Use K V → K
  | .put key _ | .touch key | .pop key => key

def use (c : LruCache K V) : Use K V → LruCache K V
  | .put key value => c.put key value
  | .touch key => c.touch key
  | .pop key => c.pop key

def recent (c : LruCache K V) (newer : Finset K) : Use K V → Finset K
  | .put key _ => insert key newer
  | .touch key => if (c.lookup key).isSome then insert key newer else newer
  | .pop key => newer.erase key

structure Behind (c : LruCache K V) (key : K) (value : V) (newer : Finset K)
    (front back : List (K × V)) : Prop where
  entries : c.entries = front++(key,value)::back
  newer : (front.map Prod.fst).toFinset = newer

theorem lookup_none {c : LruCache K V} {key : K} : c.lookup key = none ↔ key ∉ c.keys := by
  rw [lookup,List.lookup_eq_none_iff,keys]
  constructor
  · intro h hmem
    obtain ⟨e,he,rfl⟩ := List.mem_map.mp hmem
    exact absurd (h e he) (by simp)
  · intro h e he
    refine bne_iff_ne.mpr fun hsame => h ?_
    rw [hsame]
    exact List.mem_map_of_mem he

theorem front_length {c : LruCache K V} {key : K} {value : V} {newer : Finset K}
    {front back : List (K × V)} (h : Behind c key value newer front back) :
    front.length = newer.card := by
  have hnodup := c.nodup
  rw [h.entries,List.map_append] at hnodup
  rw [← h.newer,List.toFinset_card_of_nodup hnodup.of_append_left,List.length_map]

theorem behind_card {c : LruCache K V} {key : K} {value : V} {newer : Finset K}
    {front back : List (K × V)} (h : Behind c key value newer front back) :
    newer.card < c.cap := by
  have hbounded := c.bounded
  rw [h.entries,List.length_append,List.length_cons,front_length h] at hbounded
  omega

theorem behind_lookup {c : LruCache K V} {key : K} {value : V} {newer : Finset K}
    {front back : List (K × V)} (h : Behind c key value newer front back) :
    c.lookup key = some value := by
  have hnodup := c.nodup
  rw [h.entries,List.map_append,List.map_cons] at hnodup
  have hfront : front.lookup key = none := by
    refine List.lookup_eq_none_iff.mpr fun e he => bne_iff_ne.mpr ?_
    rintro rfl
    exact (List.nodup_append.mp hnodup).2.2 _ (List.mem_map_of_mem he) _ List.mem_cons_self rfl
  rw [lookup,h.entries,List.lookup_append,hfront,List.lookup_cons_self]
  rfl

theorem others_behind {c : LruCache K V} {key k : K} {value : V} {newer : Finset K}
    {front back : List (K × V)} (h : Behind c key value newer front back) (hk : k ≠ key) :
    c.others k = front.filter (fun e => e.1 ≠ k)++(key,value)::back.filter (fun e => e.1 ≠ k) := by
  rw [others,h.entries,List.filter_append,List.filter_cons_of_pos (by simpa using hk.symm)]

theorem newer_filter {newer : Finset K} {front : List (K × V)}
    (h : (front.map Prod.fst).toFinset = newer) (k : K) :
    ((front.filter fun e => e.1 ≠ k).map Prod.fst).toFinset = newer.erase k := by
  rw [← h]
  ext j
  simp only [List.mem_toFinset,List.mem_map,List.mem_filter,decide_eq_true_eq,Finset.mem_erase]
  constructor
  · rintro ⟨e,⟨he,hne⟩,rfl⟩
    exact ⟨hne,e,he,rfl⟩
  · rintro ⟨hne,e,he,rfl⟩
    exact ⟨e,⟨he,hne⟩,rfl⟩

theorem pop_behind {c : LruCache K V} {key k : K} {value : V} {newer : Finset K}
    {front back : List (K × V)} (h : Behind c key value newer front back) (hk : k ≠ key) :
    ∃ front' back', Behind (c.pop k) key value (newer.erase k) front' back' :=
  ⟨_,_,others_behind h hk,newer_filter h.newer k⟩

/-- The entries a put of another key starts from. -/
theorem put_entries {c : LruCache K V} {key k : K} {value : V} {newer : Finset K}
    {front back : List (K × V)} (h : Behind c key value newer front back) (hk : k ≠ key) (v : V) :
    ∃ front' back', (k,v)::c.others k = front'++(key,value)::back' ∧
      (front'.map Prod.fst).toFinset = insert k newer ∧
      front'.length = (insert k newer).card ∧ key ∉ front'.map Prod.fst := by
  have hothers := others_behind h hk
  have hnodup := c.others_nodup k v
  rw [hothers,← List.cons_append,List.map_append] at hnodup
  have hnewer : (((k,v)::front.filter fun e => e.1 ≠ k).map Prod.fst).toFinset =
      insert k newer := by
    rw [List.map_cons,List.toFinset_cons,newer_filter h.newer]
    ext j
    by_cases hj : j = k <;> simp [hj]
  refine ⟨(k,v)::front.filter fun e => e.1 ≠ k,back.filter fun e => e.1 ≠ k,?_,hnewer,?_,?_⟩
  · rw [hothers]
    rfl
  · rw [← hnewer,List.toFinset_card_of_nodup hnodup.of_append_left,List.length_map]
  · exact fun hmem => (List.nodup_append.mp hnodup).2.2 _ hmem _
      (List.mem_map_of_mem List.mem_cons_self) rfl

theorem put_behind {c : LruCache K V} {key k : K} {value : V} {newer : Finset K}
    {front back : List (K × V)} (h : Behind c key value newer front back) (hk : k ≠ key) (v : V)
    (hroom : (insert k newer).card < c.cap) :
    ∃ front' back', Behind (c.put k v) key value (insert k newer) front' back' := by
  obtain ⟨front',back',hentries,hnewer,hlength,_⟩ := put_entries h hk v
  refine ⟨front',back'.take (c.cap-front'.length-1),?_,hnewer⟩
  change ((k,v)::c.others k).take c.cap = _
  obtain ⟨m,hm⟩ : ∃ m, c.cap-front'.length = m+1 := ⟨c.cap-front'.length-1,by omega⟩
  rw [hentries,List.take_append,List.take_of_length_le (by omega),hm,List.take_succ_cons]
  rfl

theorem put_lost {c : LruCache K V} {key k : K} {value : V} {newer : Finset K}
    {front back : List (K × V)} (h : Behind c key value newer front back) (hk : k ≠ key) (v : V)
    (hfull : c.cap ≤ (insert k newer).card) : key ∉ (c.put k v).keys := by
  obtain ⟨front',back',hentries,_,hlength,hfront⟩ := put_entries h hk v
  intro hmem
  obtain ⟨e,he,hkey⟩ := List.mem_map.mp hmem
  change e ∈ ((k,v)::c.others k).take c.cap at he
  rw [hentries,List.take_append,Nat.sub_eq_zero_of_le (by omega),List.take_zero,
    List.append_nil] at he
  exact hfront (hkey ▸ List.mem_map_of_mem (List.mem_of_mem_take he))

theorem touch_put {c : LruCache K V} {k : K} (h : (c.lookup k).isSome) :
    ∃ v, c.touch k = c.put k v := by
  obtain ⟨v,hv⟩ := Option.isSome_iff_exists.mp h
  refine ⟨v,?_⟩
  unfold touch
  rw [hv]

theorem touch_absent {c : LruCache K V} {k : K} (h : ¬(c.lookup k).isSome) : c.touch k = c := by
  unfold touch
  rw [Option.not_isSome_iff_eq_none.mp h]

theorem use_cap (c : LruCache K V) (u : Use K V) : (c.use u).cap = c.cap := by
  cases u with
  | touch key =>
    change (c.touch key).cap = c.cap
    unfold touch
    split <;> rfl
  | _ => rfl

/-- One use of another key: the key stays, or there was no room for it. -/
theorem use_behind {c : LruCache K V} {key : K} {value : V} {newer : Finset K}
    {front back : List (K × V)} (h : Behind c key value newer front back) {u : Use K V}
    (hu : u.key ≠ key) :
    (∃ front' back', Behind (c.use u) key value (c.recent newer u) front' back') ∨
      key ∉ (c.use u).keys ∧ c.cap ≤ (c.recent newer u).card := by
  have hput : ∀ k v, k ≠ key →
      (∃ front' back', Behind (c.put k v) key value (insert k newer) front' back') ∨
        key ∉ (c.put k v).keys ∧ c.cap ≤ (insert k newer).card := by
    intro k v hk
    rcases Nat.lt_or_ge (insert k newer).card c.cap with hroom | hfull
    · exact Or.inl (put_behind h hk v hroom)
    · exact Or.inr ⟨put_lost h hk v hfull,hfull⟩
  cases u with
  | put k v => exact hput k v hu
  | touch k =>
    change (∃ front' back', Behind (c.touch k) key value _ front' back') ∨
      key ∉ (c.touch k).keys ∧ _
    unfold recent
    by_cases hk : (c.lookup k).isSome
    · obtain ⟨v,hv⟩ := touch_put hk
      rw [hv]
      simp only [if_pos hk]
      exact hput k v hu
    · rw [touch_absent hk]
      simp only [if_neg hk]
      exact Or.inl ⟨front,back,h⟩
  | pop k => exact Or.inl (pop_behind h hu)

theorem use_absent {c : LruCache K V} {key : K} (h : key ∉ c.keys) {u : Use K V}
    (hu : u.key ≠ key) : key ∉ (c.use u).keys := by
  have hput : ∀ k v, k ≠ key → key ∉ (c.put k v).keys := by
    intro k v hk hmem
    rcases mem_put hmem with hsame | hold
    · exact hk hsame.symm
    · exact h hold
  cases u with
  | put k v => exact hput k v hu
  | touch k =>
    change key ∉ (c.touch k).keys
    by_cases hk : (c.lookup k).isSome
    · obtain ⟨v,hv⟩ := touch_put hk
      rw [hv]
      exact hput k v hu
    · rwa [touch_absent hk]
  | pop k =>
    intro hmem
    obtain ⟨e,he,rfl⟩ := List.mem_map.mp hmem
    exact h (List.mem_map_of_mem (List.mem_of_mem_filter he))

theorem run_absent {c : LruCache K V} {key : K} (h : key ∉ c.keys) {us : List (Use K V)}
    (hus : ∀ u ∈ us, u.key ≠ key) : key ∉ (AtomicRun.run use us c).keys :=
  AtomicRun.run_invariant_along (I := fun c : LruCache K V => key ∉ c.keys)
    (fun _ _ hc hu => use_absent hc hu) h ((AtomicRun.along_const us c).mpr hus)

def watch (p : LruCache K V × Finset K) (u : Use K V) : LruCache K V × Finset K :=
  (p.1.use u,p.1.recent p.2 u)

theorem kept_or_lost {c : LruCache K V} {key : K} {value : V} {newer : Finset K}
    {front back : List (K × V)} (h : Behind c key value newer front back) {us : List (Use K V)}
    (hus : ∀ u ∈ us, u.key ≠ key) :
    (AtomicRun.run use us c).lookup key = some value ∧
        AtomicRun.Throughout watch (fun p => p.2.card < p.1.cap) us (c,newer) ∨
      (AtomicRun.run use us c).lookup key = none ∧
        ¬AtomicRun.Throughout watch (fun p => p.2.card < p.1.cap) us (c,newer) := by
  induction us generalizing c newer front back with
  | nil => exact Or.inl ⟨behind_lookup h,behind_card h⟩
  | cons u us ih =>
    obtain ⟨hu,hus⟩ := List.forall_mem_cons.mp hus
    rw [AtomicRun.run,AtomicRun.Throughout,and_iff_right (behind_card h)]
    rcases use_behind h hu with ⟨front',back',hnext⟩ | ⟨hlost,hfull⟩
    · exact ih hnext hus
    · refine Or.inr ⟨lookup_none.mpr (run_absent hlost hus),fun hroom => ?_⟩
      exact absurd (AtomicRun.throughout_head hroom) (not_lt.mpr (use_cap c u ▸ hfull))

theorem put_front (c : LruCache K V) (key : K) (value : V) :
    ∃ back, Behind (c.put key value) key value ∅ [] back := by
  obtain ⟨m,hm⟩ : ∃ m, c.cap = m+1 := ⟨c.cap-1,by have := c.pos; omega⟩
  refine ⟨(c.others key).take m,?_,rfl⟩
  change ((key,value)::c.others key).take c.cap = _
  rw [hm]
  rfl

end LruCache

end Library
