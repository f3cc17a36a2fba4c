import DiamondBot.Common.ByteCache
import DiamondBot.Library.LruCache

/-!
# The cache of the most recently used

A configuration with another capacity has the entries copied into a new cache.
They are read from the most recently used on, and each becomes the most recently
used as it is written.
-/

set_option autoImplicit false

namespace DiamondBot.ByteCache
open Library

structure CacheConfig where
  defaultTtl : ℕ
  capacity : Option ℕ
  deriving DecidableEq

def CacheConfig.default : CacheConfig where
  defaultTtl := 3600
  capacity := none

/-- A configured capacity is that of the entries. Zero stands for none. -/
structure LRUCache where
  config : CacheConfig
  entries : LruCache String (List UInt8)
  agrees : ∀ k, config.capacity = some k → k ≠ 0 → entries.cap = k

namespace LRUCache

def new (config : CacheConfig) : Except String LRUCache :=
  if h : 0 < config.capacity.getD 1000 then
    .ok ⟨config,.new _ h,fun _ hk _ => congrArg (Option.getD · 1000) hk⟩
  else .error "Dung lượng cache phải lớn hơn 0"

def withCapacity (capacity : ℕ) : Except String LRUCache :=
  new {CacheConfig.default with capacity := some capacity}

def currentCapacity (c : LRUCache) : ℕ := c.config.capacity.getD 0

theorem agrees_same (c : LRUCache) {config : CacheConfig}
    (h : ∀ n, config.capacity = some n → n = c.currentCapacity) (k : ℕ)
    (hk : config.capacity = some k) (hpos : k ≠ 0) : c.entries.cap = k := by
  have hsame := h k hk
  unfold currentCapacity at hsame
  cases hcap : c.config.capacity with
  | none =>
    rw [hcap] at hsame
    exact absurd hsame hpos
  | some n =>
    rw [hcap] at hsame
    cases hsame
    exact c.agrees _ hcap hpos

def updateConfig (c : LRUCache) (config : CacheConfig) : Except String LRUCache :=
  match hcap : config.capacity with
  | none => .ok ⟨config,c.entries,fun k hk _ => by rw [hcap] at hk; cases hk⟩
  | some newCapacity =>
    if hsame : newCapacity = c.currentCapacity then
      .ok ⟨config,c.entries,c.agrees_same fun _ hn => by rw [hcap] at hn; cases hn; exact hsame⟩
    else if hpos : 0 < newCapacity then
      .ok ⟨config,(LruCache.new newCapacity hpos).putAll c.entries.entries,
        fun k hk _ => by rw [hcap] at hk; cases hk; exact LruCache.putAll_cap _ _⟩
    else .error "Dung lượng cache phải lớn hơn 0"

/-- As many of the most recently used entries as fit, in the same order. -/
def KeepsMostRecent (c : LRUCache) (config : CacheConfig) (capacity : ℕ) : Prop :=
  ∃ c', c.updateConfig config = .ok c' ∧
    c'.entries.entries = c.entries.entries.take (min capacity c.entries.entries.length)

theorem updateConfig_same {c : LRUCache} {config : CacheConfig} {n : ℕ}
    (hcap : config.capacity = some n) (hsame : n = c.currentCapacity) :
    ∃ c', c.updateConfig config = .ok c' ∧ c'.entries = c.entries := by
  unfold updateConfig
  split
  · next h => cases hcap.symm.trans h
  · next m h =>
    cases hcap.symm.trans h
    rw [dif_pos hsame]
    exact ⟨_,rfl,rfl⟩

theorem updateConfig_other {c : LRUCache} {config : CacheConfig} {n : ℕ}
    (hcap : config.capacity = some n) (hpos : 0 < n) (hother : n ≠ c.currentCapacity) :
    ∃ c', c.updateConfig config = .ok c' ∧
      c'.entries.entries = c.entries.entries.reverse.take n := by
  unfold updateConfig
  split
  · next h => cases hcap.symm.trans h
  · next m h =>
    cases hcap.symm.trans h
    rw [dif_neg hother,dif_pos hpos]
    exact ⟨_,rfl,LruCache.copy_entries c.entries n hpos⟩

/-- The most recently used entries are kept exactly when nothing has to be copied,
or when there is no order between the entries. -/
theorem updateConfig_keepsMostRecent_iff (c : LRUCache) {config : CacheConfig} {n : ℕ}
    (hcap : config.capacity = some n) (hn : 1 ≤ n) :
    c.KeepsMostRecent config n ↔
      c.config.capacity = some n ∨ c.entries.entries.length ≤ 1 := by
  rw [KeepsMostRecent,← List.take_eq_take_min]
  by_cases hsame : n = c.currentCapacity
  · obtain ⟨c',hok,hentries⟩ := updateConfig_same hcap hsame
    have hconfigured : c.config.capacity = some n := by
      unfold currentCapacity at hsame
      cases h : c.config.capacity with
      | none => rw [h] at hsame; exact absurd hn (by rw [hsame]; decide)
      | some m => rw [h] at hsame; rw [hsame]; rfl
    have hroom : c.entries.cap = n := c.agrees n hconfigured (by omega)
    have hbounded := c.entries.bounded
    refine iff_of_true ⟨c',hok,?_⟩ (Or.inl hconfigured)
    rw [hentries,List.take_of_length_le (by omega)]
  · obtain ⟨c',hok,hentries⟩ := updateConfig_other hcap hn hsame
    rw [← LruCache.take_reverse_iff c.entries hn,or_iff_right]
    · constructor
      · rintro ⟨c'',hok',hkept⟩
        cases hok.symm.trans hok'
        rw [← hentries,hkept]
      · intro hkept
        exact ⟨c',hok,by rw [hentries,hkept]⟩
    · intro hconfigured
      exact hsame (by rw [currentCapacity,hconfigured]; rfl)

def twoKeys : LRUCache where
  config := ⟨3600,some 3⟩
  entries := ⟨3,[("key2",[2]),("key1",[1])],by decide,by decide,by decide⟩
  agrees := by
    rintro k ⟨⟩ _
    rfl

theorem updateConfig_keepsMostRecent_twoKeys :
    twoKeys.KeepsMostRecent ⟨3600,some 3⟩ 3 ↔
      twoKeys.config.capacity = some 3 ∨ twoKeys.entries.entries.length ≤ 1 :=
  updateConfig_keepsMostRecent_iff twoKeys rfl (by decide)

/-- Cut down to one entry, the cache keeps the one not used for longest. -/
theorem updateConfig_keepsMostRecent_counterexample :
    ¬∀ (c : LRUCache) (config : CacheConfig) (n : ℕ), config.capacity = some n → 1 ≤ n →
      c.KeepsMostRecent config n := by
  intro h
  obtain ⟨c',hok,hkept⟩ := h twoKeys ⟨3600,some 1⟩ 1 rfl (by decide)
  cases hok
  exact absurd hkept (by decide)

end LRUCache
end DiamondBot.ByteCache
