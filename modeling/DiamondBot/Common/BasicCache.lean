import DiamondBot.Library.ExpiringMap
import DiamondBot.Library.Json
import Mathlib.Algebra.Order.Ring.Nat
import Mathlib.Data.List.AList

/-!
# The basic cache

Texts of values in one map and their expiries in another, under the same keys.
A read drops an entry it finds expired, and a write into a full cache drops all
expired entries first. Instants are seconds of the system clock in 64 bits.
-/

set_option autoImplicit false

namespace DiamondBot.Common
open Library

structure CacheConfig where
  defaultTtl : ℕ
  maxSize : ℕ
  cleanupInterval : ℕ
  deriving DecidableEq

def CacheConfig.default : CacheConfig where
  defaultTtl := 300
  maxSize := 10000
  cleanupInterval := 3600

structure BasicCache where
  entries : AList fun _ : String => String
  expirations : AList fun _ : String => ℕ
  config : CacheConfig

namespace BasicCache

def new (config : Option CacheConfig) : BasicCache where
  entries := ∅
  expirations := ∅
  config := config.getD CacheConfig.default

def len (b : BasicCache) : ℕ := b.entries.keys.length

def isFull (b : BasicCache) : Bool := b.config.maxSize ≤ b.len

def remove (b : BasicCache) (key : String) : BasicCache := { b with
  entries := b.entries.erase key
  expirations := b.expirations.erase key }

def clear (b : BasicCache) : BasicCache := { b with
  entries := ∅
  expirations := ∅ }

def isExpired (b : BasicCache) (now : ℕ) (key : String) : Bool :=
  match b.expirations.lookup key with
  | some expiresAt => expiresAt < now
  | none => true

def readText {V : Type} (json : Json V) : Option String → Except String (Option V)
  | some jsonStr =>
    match json.fromText jsonStr with
    | .ok value => .ok (some value)
    | .error e => .error s!"Không thể phân tích JSON từ cache: {e}"
  | none => .ok none

def get {V : Type} (json : Json V) (b : BasicCache) (now : ℕ) (key : String) :
    Except String (Option V) × BasicCache :=
  if b.isExpired now key then (.ok none,b.remove key)
  else (readText json (b.entries.lookup key),b)

def expiredKeys (b : BasicCache) (now : ℕ) : List String :=
  (b.expirations.entries.filter fun e => e.2 < now).map Sigma.fst

def cleanup (b : BasicCache) (now : ℕ) : BasicCache :=
  (b.expiredKeys now).foldl remove b

def store (b : BasicCache) (key jsonStr : String) (expiresAt : ℕ) : BasicCache := { b with
  entries := b.entries.insert key jsonStr
  expirations := b.expirations.insert key expiresAt }

def makeRoom (b : BasicCache) (now : ℕ) : BasicCache :=
  if b.isFull then b.cleanup now else b

def set {V : Type} (json : Json V) (b : BasicCache) (cleanupNow now : ℕ) (key : String)
    (value : V) (ttlSeconds : ℕ) : Except String Unit × BasicCache :=
  if (b.makeRoom cleanupNow).isFull then
    (.error "Cache đã đầy, không thể thêm giá trị mới",b.makeRoom cleanupNow)
  else
    match json.toText value with
    | .error e =>
      (.error s!"Không thể chuyển đổi giá trị thành JSON: {e}",b.makeRoom cleanupNow)
    | .ok jsonStr =>
      (.ok (),(b.makeRoom cleanupNow).store key jsonStr ((now+ttlSeconds) % 2^64))

/-! ## What the two maps hold together -/

def contents (b : BasicCache) : ExpiringMap String String ℕ := fun key =>
  match b.entries.lookup key,b.expirations.lookup key with
  | some jsonStr,some expiresAt => some (jsonStr,expiresAt)
  | _,_ => none

/-- The same keys in both maps, no more than the size allows. -/
structure Sound (b : BasicCache) : Prop where
  sameKeys : ∀ key, key ∈ b.entries ↔ key ∈ b.expirations
  bounded : b.len ≤ b.config.maxSize

theorem contents_some {b : BasicCache} {key jsonStr : String} {expiresAt : ℕ} :
    b.contents key = some (jsonStr,expiresAt) ↔
      b.entries.lookup key = some jsonStr ∧ b.expirations.lookup key = some expiresAt := by
  unfold contents
  cases b.entries.lookup key with
  | none => simp
  | some t =>
    cases b.expirations.lookup key with
    | none => simp
    | some e => simp

theorem contents_remove (b : BasicCache) (key : String) :
    (b.remove key).contents = b.contents.erase key := by
  funext k
  by_cases hk : k = key
  · subst hk
    simp [contents,remove,ExpiringMap.erase]
  · simp [contents,remove,ExpiringMap.erase,AList.lookup_erase_ne hk,Function.update_of_ne hk]

theorem contents_store (b : BasicCache) (key jsonStr : String) (expiresAt : ℕ) :
    (b.store key jsonStr expiresAt).contents = b.contents.insert key jsonStr expiresAt := by
  funext k
  by_cases hk : k = key
  · subst hk
    simp [contents,store,ExpiringMap.insert]
  · simp [contents,store,ExpiringMap.insert,AList.lookup_insert_ne hk,Function.update_of_ne hk]

theorem contents_clear (b : BasicCache) : b.clear.contents = ExpiringMap.empty := by
  funext k
  simp [contents,clear,ExpiringMap.empty]

theorem len_erase_le (m : AList fun _ : String => String) (key : String) :
    (m.erase key).keys.length ≤ m.keys.length := by
  rw [AList.keys_erase]
  exact List.length_erase_le

theorem len_insert_le (m : AList fun _ : String => String) (key jsonStr : String) :
    (m.insert key jsonStr).keys.length ≤ m.keys.length+1 := by
  rw [AList.keys_insert,List.length_cons]
  exact Nat.succ_le_succ List.length_erase_le

theorem remove_sound {b : BasicCache} (h : b.Sound) (key : String) : (b.remove key).Sound where
  sameKeys k := by
    rw [remove,AList.mem_erase,AList.mem_erase,h.sameKeys]
  bounded := (len_erase_le b.entries key).trans h.bounded

theorem clear_sound (b : BasicCache) : b.clear.Sound where
  sameKeys k := iff_of_false (AList.notMem_empty k) (AList.notMem_empty k)
  bounded := Nat.zero_le _

theorem store_sound {b : BasicCache} (h : b.Sound) (hroom : b.isFull = false)
    (key jsonStr : String) (expiresAt : ℕ) : (b.store key jsonStr expiresAt).Sound where
  sameKeys k := by
    rw [store,AList.mem_insert,AList.mem_insert,h.sameKeys]
  bounded := by
    have hlen := len_insert_le b.entries key jsonStr
    have hlt : b.len < b.config.maxSize := by simpa [isFull] using hroom
    exact hlen.trans hlt

theorem removeAll_contents (keys : List String) (b : BasicCache) (key : String) :
    (keys.foldl remove b).contents key = if key ∈ keys then none else b.contents key := by
  induction keys generalizing b with
  | nil => rfl
  | cons k keys ih =>
    rw [List.foldl_cons,ih,contents_remove]
    by_cases hkeys : key ∈ keys
    · rw [if_pos hkeys,if_pos (List.mem_cons_of_mem _ hkeys)]
    · rw [if_neg hkeys]
      by_cases hk : key = k
      · subst hk
        rw [if_pos List.mem_cons_self,ExpiringMap.erase,Function.update_self]
      · rw [if_neg (List.not_mem_cons_of_ne_of_not_mem hk hkeys),ExpiringMap.erase,
          Function.update_of_ne hk]

theorem removeAll_sound (keys : List String) {b : BasicCache} (h : b.Sound) :
    (keys.foldl remove b).Sound := by
  induction keys generalizing b with
  | nil => exact h
  | cons k keys ih => exact ih (remove_sound h k)

theorem removeAll_config (keys : List String) (b : BasicCache) :
    (keys.foldl remove b).config = b.config := by
  induction keys generalizing b with
  | nil => rfl
  | cons k keys ih => exact ih (b.remove k)

theorem mem_expiredKeys {b : BasicCache} {now : ℕ} {key : String} :
    key ∈ b.expiredKeys now ↔ ∃ last, b.expirations.lookup key = some last ∧ last < now := by
  simp only [expiredKeys,List.mem_map,List.mem_filter,decide_eq_true_eq]
  constructor
  · rintro ⟨e,⟨he,hlt⟩,rfl⟩
    exact ⟨e.2,AList.mem_lookup_iff.mpr he,hlt⟩
  · rintro ⟨last,hlast,hlt⟩
    exact ⟨⟨key,last⟩,⟨AList.mem_lookup_iff.mp hlast,hlt⟩,rfl⟩

theorem cleanup_contents (b : BasicCache) {now last : ℕ} (hlast : now ≤ last)
    (key jsonStr : String) : (b.cleanup now).contents key = some (jsonStr,last) ↔
      b.contents key = some (jsonStr,last) := by
  rw [cleanup,removeAll_contents]
  split
  · rename_i hkey
    obtain ⟨e,he,hlt⟩ := mem_expiredKeys.mp hkey
    apply iff_of_false (fun h => nomatch h)
    intro h
    rw [(contents_some.mp h).2] at he
    cases he
    omega
  · exact Iff.rfl

theorem makeRoom_contents (b : BasicCache) {now last : ℕ} (hlast : now ≤ last)
    (key jsonStr : String) : (b.makeRoom now).contents key = some (jsonStr,last) ↔
      b.contents key = some (jsonStr,last) := by
  unfold makeRoom
  split
  · exact cleanup_contents b hlast key jsonStr
  · exact Iff.rfl

theorem makeRoom_sound {b : BasicCache} (h : b.Sound) (now : ℕ) : (b.makeRoom now).Sound := by
  unfold makeRoom
  split
  · exact removeAll_sound _ h
  · exact h

theorem makeRoom_config (b : BasicCache) (now : ℕ) : (b.makeRoom now).config = b.config := by
  unfold makeRoom
  split
  · exact removeAll_config _ _
  · rfl

def liveCount (b : BasicCache) (now : ℕ) : ℕ :=
  (b.expirations.entries.filter fun e => now ≤ e.2).length

theorem mem_entries {b : BasicCache} (h : b.Sound) {key : String} :
    key ∈ b.entries ↔ ∃ jsonStr last, b.contents key = some (jsonStr,last) := by
  simp only [contents_some]
  constructor
  · intro hkey
    obtain ⟨jsonStr,htext⟩ := Option.isSome_iff_exists.mp (AList.lookup_isSome.mpr hkey)
    obtain ⟨last,hlast⟩ :=
      Option.isSome_iff_exists.mp (AList.lookup_isSome.mpr ((h.sameKeys key).mp hkey))
    exact ⟨jsonStr,last,htext,hlast⟩
  · rintro ⟨jsonStr,last,htext,_⟩
    exact AList.lookup_isSome.mp (by rw [htext]; rfl)

theorem cleanup_len {b : BasicCache} (h : b.Sound) (now : ℕ) :
    (b.cleanup now).len = b.liveCount now := by
  have hperm : (b.cleanup now).entries.keys.Perm
      ((b.expirations.entries.filter fun e => now ≤ e.2).map Sigma.fst) := by
    rw [List.perm_ext_iff_of_nodup (AList.keys_nodup _)
      ((List.filter_sublist.map _).nodup b.expirations.keys_nodup)]
    intro key
    have hsound : (b.cleanup now).Sound := removeAll_sound _ h
    rw [← AList.mem_keys,mem_entries hsound]
    simp only [cleanup,removeAll_contents,List.mem_map,List.mem_filter,decide_eq_true_eq]
    constructor
    · rintro ⟨jsonStr,last,hkey⟩
      split at hkey
      · cases hkey
      · rename_i hexpired
        have hlast := (contents_some.mp hkey).2
        refine ⟨⟨key,last⟩,⟨AList.mem_lookup_iff.mp hlast,?_⟩,rfl⟩
        exact Nat.le_of_not_lt fun hlt => hexpired (mem_expiredKeys.mpr ⟨last,hlast,hlt⟩)
    · rintro ⟨e,⟨he,hle⟩,rfl⟩
      have hlast := AList.mem_lookup_iff.mpr he
      have hkey := (h.sameKeys e.1).mpr (AList.lookup_isSome.mp (by rw [hlast]; rfl))
      obtain ⟨jsonStr,last,hcontents⟩ := (mem_entries h).mp hkey
      refine ⟨jsonStr,last,?_⟩
      rw [if_neg]
      · exact hcontents
      · intro hexpired
        obtain ⟨last',hlast',hlt⟩ := mem_expiredKeys.mp hexpired
        rw [hlast] at hlast'
        cases hlast'
        omega
  rw [len,hperm.length_eq,List.length_map]
  rfl

theorem liveCount_le {b : BasicCache} (h : b.Sound) (now : ℕ) : b.liveCount now ≤ b.len := by
  have hperm : b.expirations.keys.Perm b.entries.keys := by
    rw [List.perm_ext_iff_of_nodup b.expirations.keys_nodup b.entries.keys_nodup]
    intro key
    rw [← AList.mem_keys,← AList.mem_keys,h.sameKeys]
  rw [len,← hperm.length_eq]
  exact List.length_filter_le _ _|>.trans (List.length_map _).ge

theorem makeRoom_isFull {b : BasicCache} (h : b.Sound) (now : ℕ) :
    (b.makeRoom now).isFull = true ↔ b.config.maxSize ≤ b.liveCount now := by
  have hle := liveCount_le h now
  unfold makeRoom
  split
  · rw [isFull,cleanup_len h,decide_eq_true_eq]
    exact iff_of_eq (congrArg (fun c : CacheConfig => c.maxSize ≤ b.liveCount now)
      (removeAll_config _ b))
  · rename_i hfree
    simp only [isFull,decide_eq_true_eq] at hfree ⊢
    omega

/-- The ways a write ends: after room was made it is refused, or stored. -/
inductive Written {V : Type} (json : Json V) (b : BasicCache) (cleanupNow now : ℕ)
    (key : String) (value : V) (ttlSeconds : ℕ) : Except String Unit → BasicCache → Prop
  | refused (e : String) :
      Written json b cleanupNow now key value ttlSeconds (.error e) (b.makeRoom cleanupNow)
  | stored (jsonStr : String) (room : (b.makeRoom cleanupNow).isFull = false)
      (text : json.toText value = .ok jsonStr) :
      Written json b cleanupNow now key value ttlSeconds (.ok ())
        ((b.makeRoom cleanupNow).store key jsonStr ((now+ttlSeconds) % 2^64))

theorem set_written {V : Type} (json : Json V) (b : BasicCache) (cleanupNow now : ℕ)
    (key : String) (value : V) (ttlSeconds : ℕ) :
    Written json b cleanupNow now key value ttlSeconds
      (b.set json cleanupNow now key value ttlSeconds).1
      (b.set json cleanupNow now key value ttlSeconds).2 := by
  unfold set
  split
  · exact .refused _
  · rename_i hroom
    rw [Bool.not_eq_true] at hroom
    split
    · exact .refused _
    · rename_i jsonStr htext
      exact .stored jsonStr hroom htext

theorem set_ok {V : Type} (json : Json V) {b : BasicCache} (h : b.Sound) (cleanupNow now : ℕ)
    (key : String) (value : V) (ttlSeconds : ℕ) :
    (b.set json cleanupNow now key value ttlSeconds).1 = .ok () ↔
      (∃ jsonStr, json.toText value = .ok jsonStr) ∧ b.liveCount cleanupNow < b.config.maxSize := by
  rw [← Nat.not_le,← makeRoom_isFull h]
  unfold set
  split
  · rename_i hfull
    exact iff_of_false (fun hok => nomatch hok) fun hok => hok.2 hfull
  · rename_i hroom
    split
    · rename_i e htext
      rw [htext]
      exact iff_of_false (fun hok => nomatch hok) fun hok => nomatch hok.1
    · rename_i jsonStr htext
      exact iff_of_true rfl ⟨⟨jsonStr,htext⟩,hroom⟩

theorem get_fst {V : Type} (json : Json V) {b : BasicCache} (h : b.Sound) (now : ℕ)
    (key : String) : (b.get json now key).1 = readText json (b.contents.read now key) := by
  unfold get isExpired ExpiringMap.read contents
  cases hlast : b.expirations.lookup key with
  | none =>
    rw [if_pos rfl]
    cases b.entries.lookup key <;> rfl
  | some last =>
    have hkey : key ∈ b.entries :=
      (h.sameKeys key).mpr (AList.lookup_isSome.mp (by rw [hlast]; rfl))
    obtain ⟨jsonStr,htext⟩ := Option.isSome_iff_exists.mp (AList.lookup_isSome.mpr hkey)
    rw [htext]
    dsimp only
    by_cases hlt : last < now
    · rw [if_pos (decide_eq_true hlt),if_pos hlt]
      rfl
    · rw [if_neg (by simpa using hlt),if_neg hlt]

theorem get_snd_cases {V : Type} (json : Json V) (b : BasicCache) (now : ℕ) (key : String) :
    (b.get json now key).2 = b ∨
      b.isExpired now key = true ∧ (b.get json now key).2 = b.remove key := by
  unfold get
  split
  · rename_i h
    exact Or.inr ⟨h,rfl⟩
  · exact Or.inl rfl

end BasicCache

end DiamondBot.Common
