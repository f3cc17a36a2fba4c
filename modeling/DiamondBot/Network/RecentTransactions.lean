import DiamondBot.Library.Binary64
import DiamondBot.Library.Checked
import DiamondBot.Library.Ranking
import Mathlib.Data.Prod.Lex
import Mathlib.Data.String.Basic
import Mathlib.Order.Lex

/-!
# Recent transactions in Redis

A saved transaction is a text under a key of its own that expires after thirty
days, and a member of a sorted set that keeps the time of its last save for
ever. Times are in seconds, and a save takes place at the time it saves.
-/

set_option autoImplicit false

namespace DiamondBot.RedisStorage
open Library Ranking

structure Transaction (Body : Type) where
  id : String
  timestamp : UInt64
  body : Body

variable {Body : Type}

/-- The texts of transactions. -/
structure Serde (Body : Type) where
  toString : Transaction Body → String
  fromStr : String → Except String (Transaction Body)
  roundTrip : ∀ tx, fromStr (toString tx) = .ok tx

/-! ## The server -/

structure SortedSet where
  entries : List (String×Float)
  nodup : (entries.map Prod.fst).Nodup

/-- A text is there until its deadline has passed. -/
structure Redis where
  texts : String → Option (String×ℕ)
  sets : String → SortedSet

namespace SortedSet

def empty : SortedSet := ⟨[],List.nodup_nil⟩

def others (set : SortedSet) (member : String) : List (String×Float) :=
  set.entries.filter fun e => e.1 ≠ member

theorem nodup_others (set : SortedSet) (member : String) :
    (member::(set.others member).map Prod.fst).Nodup := by
  refine List.nodup_cons.mpr ⟨?_,set.nodup.sublist (List.filter_sublist.map _)⟩
  intro hmem
  obtain ⟨e,he,heq⟩ := List.mem_map.mp hmem
  exact absurd heq (of_decide_eq_true (List.mem_filter.mp he).2)

def add (set : SortedSet) (member : String) (score : Float) : SortedSet :=
  ⟨(member,score)::set.others member,set.nodup_others member⟩

def before (e e' : String×Float) : Bool := e'.2 < e.2 ∨ ¬e.2 < e'.2 ∧ e'.1 ≤ e.1

def revMembers (set : SortedSet) : List (String×Float) := set.entries.mergeSort before

end SortedSet

def range {α : Type} (l : List α) (start stop : ℤ) : List α :=
  let start := if start < 0 then max (start+l.length) 0 else start
  let stop := if stop < 0 then stop+l.length else stop
  if stop < start ∨ l.length ≤ start then []
  else (l.drop start.toNat).take (min stop (l.length-1)-start+1).toNat

namespace Redis

def empty : Redis := ⟨fun _ => none,fun _ => .empty⟩

def setEx (r : Redis) (now : ℕ) (key text : String) (seconds : ℕ) : Redis :=
  { r with texts := Function.update r.texts key (some (text,now+seconds)) }

def get (r : Redis) (now : ℕ) (key : String) : Option String :=
  match r.texts key with
  | some (text,deadline) => if now ≤ deadline then some text else none
  | none => none

def zadd (r : Redis) (key member : String) (score : Float) : Redis :=
  { r with sets := Function.update r.sets key ((r.sets key).add member score) }

def zrevrange (r : Redis) (key : String) (start stop : ℤ) : List String :=
  (range (r.sets key).revMembers start stop).map Prod.fst

end Redis

/-! ## The storage -/

def thirtyDays : ℕ := 86400*30

def key (id : String) : String := "transaction:"++id

def saveTransaction (serde : Serde Body) (r : Redis) (now : ℕ) (tx : Transaction Body) : Redis :=
  (r.setEx now (key tx.id) (serde.toString tx) thirtyDays).zadd "transactions" tx.id
    tx.timestamp.toFloat

def asIsize (n : ℕ) : ℤ := if n < 2^63 then n else n-2^64

def readTransaction (serde : Serde Body) (r : Redis) (now : ℕ) (id : String) :
    Option (Transaction Body) :=
  match r.get now (key id) with
  | some data => (serde.fromStr data).toOption
  | none => none

def getRecentTransactions (serde : Serde Body) (r : Redis) (now : ℕ) (limit : UInt64) :
    Except String (List (Transaction Body)) := do
  let last ← Checked.sub limit.toNat 1
  let ids := r.zrevrange "transactions" 0 (asIsize last)
  return ids.filterMap (readTransaction serde r now)

/-! ## What was saved -/

def after (serde : Serde Body) (transactions : List (Transaction Body)) : Redis :=
  transactions.foldl (fun r tx => saveTransaction serde r tx.timestamp.toNat tx) .empty

def lastSaves : List (Transaction Body) → List (Transaction Body)
  | [] => []
  | tx::later => if tx.id ∈ later.map Transaction.id then lastSaves later else tx::lastSaves later

def Transaction.alive (now : ℕ) (tx : Transaction Body) : Bool :=
  now ≤ tx.timestamp.toNat+thirtyDays

def live (now : ℕ) (transactions : List (Transaction Body)) : List (Transaction Body) :=
  (lastSaves transactions).filter fun tx => tx.alive now

def time (tx : Transaction Body) : ℕ := tx.timestamp.toNat

/-- The call returns the newest live transactions, as many as asked for. -/
def ReturnsRecent (serde : Serde Body) (transactions : List (Transaction Body)) (now : ℕ)
    (limit : UInt64) : Prop :=
  ∃ recent, getRecentTransactions serde (after serde transactions) now limit = .ok recent ∧
    Top time (live now transactions) limit.toNat recent

def reached (members : ℕ) (limit : UInt64) : ℕ :=
  if limit.toNat ≤ 2^63 then limit.toNat else members+limit.toNat-2^64

def outranks (tx tx' : Transaction Body) : Bool :=
  tx'.timestamp.toFloat < tx.timestamp.toFloat ∨
    ¬tx.timestamp.toFloat < tx'.timestamp.toFloat ∧ tx'.id < tx.id

def isReached (transactions : List (Transaction Body)) (limit : UInt64) (tx : Transaction Body) :
    Bool :=
  place outranks (lastSaves transactions) tx < reached (lastSaves transactions).length limit

/-! ## What is stored -/

variable {serde : Serde Body} {transactions : List (Transaction Body)} {r : Redis}

theorem lastSaves_concat (transactions : List (Transaction Body)) (tx : Transaction Body) :
    lastSaves (transactions++[tx]) =
      (lastSaves transactions).filter (fun t => t.id ≠ tx.id)++[tx] := by
  induction transactions with
  | nil => rfl
  | cons t later ih =>
    have hmem : t.id ∈ (later++[tx]).map Transaction.id ↔
        t.id ∈ later.map Transaction.id ∨ t.id = tx.id := by
      rw [List.map_append,List.mem_append,List.map_singleton,List.mem_singleton]
    rw [List.cons_append,lastSaves,lastSaves,ih]
    by_cases hlater : t.id ∈ later.map Transaction.id
    · rw [if_pos hlater,if_pos (hmem.mpr (Or.inl hlater))]
    · rw [if_neg hlater]
      by_cases hsame : t.id = tx.id
      · rw [if_pos (hmem.mpr (Or.inr hsame)),List.filter_cons_of_neg (by simp [hsame])]
      · rw [if_neg fun h => (hmem.mp h).elim hlater hsame,
          List.filter_cons_of_pos (by simp [hsame]),List.cons_append]

def entry (tx : Transaction Body) : String×Float := (tx.id,tx.timestamp.toFloat)

structure Stored (serde : Serde Body) (transactions : List (Transaction Body)) (r : Redis) :
    Prop where
  index : (r.sets "transactions").entries = (lastSaves transactions).reverse.map entry
  texts : ∀ tx ∈ lastSaves transactions,
    r.texts (key tx.id) = some (serde.toString tx,tx.timestamp.toNat+thirtyDays)

theorem key_injective {id id' : String} (h : key id = key id') : id = id' := by
  apply String.toList_injective
  have hlist := congrArg String.toList h
  rw [key,key,String.toList_append,String.toList_append] at hlist
  exact List.append_cancel_left hlist

/-- A save replaces the text and the score of its id and leaves all others. -/
theorem stored_save (h : Stored serde transactions r) (tx : Transaction Body) :
    Stored serde (transactions++[tx]) (saveTransaction serde r tx.timestamp.toNat tx) := by
  constructor
  · have hset : (saveTransaction serde r tx.timestamp.toNat tx).sets "transactions" =
        (r.sets "transactions").add tx.id tx.timestamp.toFloat := by
      change Function.update r.sets "transactions" _ "transactions" = _
      exact Function.update_self _ _ _
    have hothers : (r.sets "transactions").others tx.id =
        (((lastSaves transactions).filter fun t => t.id ≠ tx.id).reverse).map entry := by
      rw [SortedSet.others,h.index,List.filter_map,← List.filter_reverse]
      rfl
    rw [lastSaves_concat,List.reverse_append,List.reverse_singleton,List.singleton_append,
      List.map_cons,hset,← hothers]
    rfl
  · intro t ht
    rw [lastSaves_concat,List.mem_append,List.mem_filter,List.mem_singleton] at ht
    change Function.update r.texts (key tx.id) _ (key t.id) = _
    rcases ht with ⟨hmem,hne⟩ | rfl
    · rw [Function.update_of_ne fun hkey => of_decide_eq_true hne (key_injective hkey)]
      exact h.texts t hmem
    · exact Function.update_self _ _ _

theorem stored_after (serde : Serde Body) (transactions : List (Transaction Body)) :
    Stored serde transactions (after serde transactions) := by
  induction transactions using List.reverseRecOn with
  | nil => exact ⟨rfl,fun tx htx => absurd htx List.not_mem_nil⟩
  | append_singleton transactions tx ih =>
    rw [after,List.foldl_append]
    exact stored_save ih tx

theorem read_eq (h : Stored serde transactions r) (now : ℕ) {tx : Transaction Body}
    (htx : tx ∈ lastSaves transactions) :
    readTransaction serde r now tx.id = if tx.alive now then some tx else none := by
  rw [readTransaction,Redis.get,h.texts tx htx]
  by_cases halive : now ≤ tx.timestamp.toNat+thirtyDays
  · have htrue : tx.alive now = true := decide_eq_true halive
    simp only [if_pos halive,htrue,serde.roundTrip]
    rfl
  · have hfalse : tx.alive now = false := decide_eq_false halive
    simp only [if_neg halive,hfalse]
    rfl

/-! ## What is read -/

theorem range_zero {α : Type} (l : List α) (stop : ℤ) :
    range l 0 stop = l.take ((if stop < 0 then stop+l.length else stop)+1).toNat := by
  rw [range,if_neg (lt_irrefl 0)]
  generalize (if stop < 0 then stop+(l.length : ℤ) else stop) = last
  split
  next h =>
    rcases h with hneg | hempty
    · rw [Int.toNat_eq_zero.mpr (by omega),List.take_zero]
    · have hnil : l = [] := List.eq_nil_of_length_eq_zero (by omega)
      rw [hnil,List.take_nil]
  next h =>
    have hmin : (min last (l.length-1)-0+1).toNat = min (last+1).toNat l.length := by omega
    rw [Int.toNat_zero,List.drop_zero,hmin,← List.take_eq_take_min]

theorem reached_eq {limit : UInt64} (h : 1 ≤ limit.toNat) (members : ℕ) :
    ((if asIsize (limit.toNat-1) < 0 then asIsize (limit.toNat-1)+members
      else asIsize (limit.toNat-1))+1).toNat = reached members limit := by
  have hlt := limit.toNat_lt
  unfold asIsize reached
  split <;> split <;> split <;> omega

def ranked (transactions : List (Transaction Body)) : List (Transaction Body) :=
  (lastSaves transactions).reverse.mergeSort fun tx tx' => SortedSet.before (entry tx) (entry tx')

theorem ranked_perm (transactions : List (Transaction Body)) :
    (ranked transactions).Perm (lastSaves transactions) :=
  (List.mergeSort_perm _ _).trans (List.reverse_perm _)

theorem revMembers_eq (h : Stored serde transactions r) :
    (r.sets "transactions").revMembers = (ranked transactions).map entry := by
  rw [SortedSet.revMembers,h.index,ranked]
  refine (List.map_mergeSort (f := entry) ?_).symm
  intro tx _ tx' _
  rfl

theorem getRecent_zero {now : ℕ} {limit : UInt64} (h : limit.toNat = 0) :
    getRecentTransactions serde r now limit = .error "attempt to subtract with overflow" := by
  rw [getRecentTransactions,h]
  rfl

/-- The members reached are read, and the expired ones are left out. -/
theorem getRecent_eq (h : Stored serde transactions r) (now : ℕ) {limit : UInt64}
    (hlimit : 1 ≤ limit.toNat) :
    getRecentTransactions serde r now limit = .ok
      (((ranked transactions).take (reached (lastSaves transactions).length limit)).filter
        fun tx => tx.alive now) := by
  have hsub : Checked.sub limit.toNat 1 = .ok (limit.toNat-1) := if_pos hlimit
  have hlength : ((ranked transactions).map entry).length = (lastSaves transactions).length := by
    rw [List.length_map,(ranked_perm transactions).length_eq]
  have hids : r.zrevrange "transactions" 0 (asIsize (limit.toNat-1)) =
      ((ranked transactions).take (reached (lastSaves transactions).length limit)).map
        Transaction.id := by
    rw [Redis.zrevrange,revMembers_eq h,range_zero,hlength,reached_eq hlimit,← List.map_take,
      List.map_map]
    rfl
  have hread : ∀ tx ∈ (ranked transactions).take (reached (lastSaves transactions).length limit),
      readTransaction serde r now tx.id = if tx.alive now then some tx else none := fun tx htx =>
    read_eq h now ((ranked_perm transactions).mem_iff.mp (List.mem_of_mem_take htx))
  rw [getRecentTransactions,hsub]
  change Except.ok _ = _
  rw [hids,List.filterMap_map]
  congr 1
  rw [← List.filterMap_eq_filter]
  exact List.filterMap_congr hread

/-! ## The order of the set -/

theorem exists_rank (Body : Type) : ∃ rank : Transaction Body → ℚ ×ₗ String,
    (∀ tx tx', SortedSet.before (entry tx) (entry tx') = decide (rank tx' ≤ rank tx)) ∧
    (∀ tx tx', outranks tx tx' = decide (rank tx' < rank tx)) ∧
    ∀ tx tx', rank tx = rank tx' → tx.id = tx'.id := by
  obtain ⟨value,hvalue⟩ := Binary64.exists_order
  refine ⟨fun tx => toLex (value tx.timestamp,tx.id),fun tx tx' => ?_,fun tx tx' => ?_,?_⟩
  · rw [SortedSet.before,decide_eq_decide,Prod.Lex.toLex_le_toLex]
    dsimp only [entry]
    rw [hvalue,hvalue]
    have := lt_trichotomy (value tx.timestamp) (value tx'.timestamp)
    grind
  · rw [outranks,decide_eq_decide,Prod.Lex.toLex_lt_toLex,hvalue,hvalue]
    have := lt_trichotomy (value tx.timestamp) (value tx'.timestamp)
    grind
  · intro tx tx' h
    exact congrArg Prod.snd (toLex.injective h)

theorem outranks_asymm {tx tx' : Transaction Body} (h : outranks tx tx') :
    outranks tx' tx = false := by
  obtain ⟨rank,_,hrank,_⟩ := exists_rank Body
  rw [hrank,decide_eq_true_eq] at h
  rw [hrank,decide_eq_false_iff_not]
  exact h.not_gt

theorem outranks_trans {tx tx' tx'' : Transaction Body} (h : outranks tx tx')
    (h' : outranks tx' tx'') : outranks tx tx'' := by
  obtain ⟨rank,_,hrank,_⟩ := exists_rank Body
  rw [hrank,decide_eq_true_eq] at *
  exact h'.trans h

theorem lastSaves_sublist (transactions : List (Transaction Body)) :
    (lastSaves transactions).Sublist transactions := by
  induction transactions with
  | nil => exact List.Sublist.refl _
  | cons tx later ih =>
    rw [lastSaves]
    split
    next => exact ih.cons tx
    next => exact ih.cons_cons tx

theorem nodup_lastSaves (transactions : List (Transaction Body)) :
    ((lastSaves transactions).map Transaction.id).Nodup := by
  induction transactions with
  | nil => exact List.nodup_nil
  | cons tx later ih =>
    rw [lastSaves]
    split
    next => exact ih
    next hlater =>
      refine List.nodup_cons.mpr ⟨fun hmem => hlater ?_,ih⟩
      exact ((lastSaves_sublist later).map Transaction.id).subset hmem

theorem ranked_sorted (transactions : List (Transaction Body)) :
    (ranked transactions).Pairwise fun tx tx' => outranks tx tx' := by
  obtain ⟨rank,hbefore,hrank,hid⟩ := exists_rank Body
  have hsorted : GreatestFirst rank (ranked transactions) :=
    mergeSort_greatestFirst rank fun tx _ tx' _ => hbefore tx tx'
  have hnodup : ((ranked transactions).map Transaction.id).Nodup :=
    (((ranked_perm transactions).map _).nodup_iff).mpr (nodup_lastSaves transactions)
  refine (hsorted.and (List.pairwise_map.mp hnodup)).imp fun {tx tx'} h => ?_
  rw [hrank,decide_eq_true_eq]
  exact lt_of_le_of_ne h.1 fun heq => h.2 (hid _ _ heq.symm)

theorem take_ranked (transactions : List (Transaction Body)) (limit : UInt64) :
    (ranked transactions).take (reached (lastSaves transactions).length limit) =
      (ranked transactions).filter (isReached transactions limit) := by
  rw [take_eq_filter (ranked_sorted transactions) fun _ _ => outranks_asymm]
  refine List.filter_congr fun tx _ => ?_
  rw [isReached,place,place,((ranked_perm transactions).filter _).length_eq]

theorem isReached_iff {limit : UInt64} {tx : Transaction Body} :
    isReached transactions limit tx ↔
      place outranks (lastSaves transactions) tx < reached (lastSaves transactions).length limit :=
  decide_eq_true_iff

theorem isReached_mono {limit : UInt64} {tx tx' : Transaction Body} (h : outranks tx tx')
    (hreached : isReached transactions limit tx') : isReached transactions limit tx := by
  have hle : place outranks (lastSaves transactions) tx ≤
      place outranks (lastSaves transactions) tx' := place_mono (fun _ _ _ => outranks_trans) h
  rw [isReached_iff] at *
  exact hle.trans_lt hreached

theorem live_perm (now : ℕ) (transactions : List (Transaction Body)) :
    ((ranked transactions).filter fun tx => tx.alive now).Perm (live now transactions) :=
  (ranked_perm transactions).filter _

theorem returnsRecent_iff_top (serde : Serde Body) (transactions : List (Transaction Body))
    (now : ℕ) {limit : UInt64} (hlimit : 1 ≤ limit.toNat) :
    ReturnsRecent serde transactions now limit ↔ Top time (live now transactions) limit.toNat
      (((ranked transactions).take (reached (lastSaves transactions).length limit)).filter
        fun tx => tx.alive now) := by
  rw [ReturnsRecent,getRecent_eq (stored_after serde transactions) now hlimit]
  constructor
  · rintro ⟨recent,hok,htop⟩
    cases hok
    exact htop
  · intro htop
    exact ⟨_,rfl,htop⟩

theorem not_returnsRecent (serde : Serde Body) (transactions : List (Transaction Body)) (now : ℕ)
    {limit : UInt64} (h : ¬1 ≤ limit.toNat) : ¬ReturnsRecent serde transactions now limit := by
  rintro ⟨recent,hok,_⟩
  rw [getRecent_zero (by omega)] at hok
  cases hok

/-- For every sequence of saves and every time, the call returns the newest live transactions
exactly when one at least is asked for, as many of those reached as asked for are live, and
none of these ranks above a newer one. -/
theorem recent_returned_iff (serde : Serde Body) (transactions : List (Transaction Body))
    (now : ℕ) (limit : UInt64) :
    ReturnsRecent serde transactions now limit ↔ 1 ≤ limit.toNat ∧
      ((live now transactions).filter (isReached transactions limit)).length =
        min limit.toNat (live now transactions).length ∧
      ∀ tx ∈ live now transactions, ∀ tx' ∈ live now transactions, outranks tx tx' →
        isReached transactions limit tx → time tx' ≤ time tx := by
  by_cases hlimit : 1 ≤ limit.toNat
  · have hsorted : ((ranked transactions).filter fun tx => tx.alive now).Pairwise
        fun tx tx' => outranks tx tx' := (ranked_sorted transactions).filter _
    have hfront : ((ranked transactions).filter fun tx => tx.alive now).Pairwise
        fun tx tx' => isReached transactions limit tx' → isReached transactions limit tx :=
      hsorted.imp isReached_mono
    rw [returnsRecent_iff_top serde transactions now hlimit,take_ranked,List.filter_comm,
      top_filter_iff (live_perm now transactions) hfront,
      pairwise_iff_above hsorted fun _ _ => outranks_asymm,and_iff_right hlimit]
    simp only [(live_perm now transactions).mem_iff]
  · exact iff_of_false (not_returnsRecent serde transactions now hlimit) fun h => hlimit h.1

def unarySerde : Serde Unit where
  toString tx := String.ofList (List.replicate tx.timestamp.toNat '1' ++ '0' :: tx.id.toList)
  fromStr text := .ok
    { id := String.ofList (text.toList.dropWhile (· == '1')).tail
      timestamp := UInt64.ofNat (text.toList.takeWhile (· == '1')).length
      body := () }
  roundTrip := by
    intro tx
    have hones : ∀ c ∈ List.replicate tx.timestamp.toNat '1', (c == '1') = true := fun c hc =>
      beq_iff_eq.mpr (List.eq_of_mem_replicate hc)
    rw [String.toList_ofList,List.dropWhile_append_of_pos hones,List.takeWhile_append_of_pos hones]
    simp

/-- Asked for none, the call does not return an empty list. -/
theorem recent_returned_counterexample :
    getRecentTransactions unarySerde (after unarySerde [⟨"a",1000,()⟩]) 2000 0 =
      .error "attempt to subtract with overflow" ∧
    ¬ReturnsRecent unarySerde [⟨"a",1000,()⟩] 2000 0 :=
  ⟨getRecent_zero rfl,not_returnsRecent unarySerde _ 2000 (by decide)⟩

/-- Times below `2^53` are exact, and then only the number of the members reached counts. -/
theorem recent_returned_exact (serde : Serde Body) {transactions : List (Transaction Body)}
    (hexact : ∀ tx ∈ transactions, tx.timestamp.toNat < 2^53) (now : ℕ) (limit : UInt64) :
    ReturnsRecent serde transactions now limit ↔ 1 ≤ limit.toNat ∧
      min (reached (lastSaves transactions).length limit) (live now transactions).length =
        min limit.toNat (live now transactions).length := by
  by_cases hlimit : 1 ≤ limit.toNat
  · have htime : GreatestFirst time (ranked transactions) := by
      refine (ranked_sorted transactions).imp_of_mem fun {tx tx'} htx htx' h => ?_
      have hmem := fun t ht => hexact t
        ((lastSaves_sublist transactions).subset ((ranked_perm transactions).mem_iff.mp ht))
      have hasymm := outranks_asymm h
      rw [outranks,decide_eq_true_eq,Binary64.toFloat_lt_iff (hmem tx' htx') (hmem tx htx),
        Binary64.toFloat_lt_iff (hmem tx htx) (hmem tx' htx')] at h
      rw [time,time]
      omega
    have halive : (ranked transactions).Pairwise fun tx tx' => tx'.alive now → tx.alive now := by
      refine htime.imp fun {tx tx'} hle halive => ?_
      rw [Transaction.alive,decide_eq_true_eq] at *
      rw [time,time] at hle
      omega
    rw [returnsRecent_iff_top serde transactions now hlimit,filter_take halive,
      top_take_iff (live_perm now transactions) (htime.filter _),and_iff_right hlimit]
  · exact iff_of_false (not_returnsRecent serde transactions now hlimit) fun h => hlimit h.1

end DiamondBot.RedisStorage
