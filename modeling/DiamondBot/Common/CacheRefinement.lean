import DiamondBot.Common.BasicCache
import DiamondBot.Library.AtomicRun

/-!
# The basic cache as a bounded map with expiry

The map the cache stands for holds, for each key, the value of the last write
that succeeded and its expiry. The cache forgets expired entries at moments of
its own choosing, so it is compared with the map on live entries only.
-/

set_option autoImplicit false

namespace DiamondBot.Common
open Library

variable {Kind : Type} {Value : Kind → Type}

/-- A call on the cache, or time. A write may let time pass between its
cleanup and its own reading of the clock. -/
inductive CacheAction (Value : Kind → Type)
  | set (key : String) (kind : Kind) (value : Value kind) (ttlSeconds pause : ℕ)
  | get (key : String) (kind : Kind)
  | remove (key : String)
  | clear
  | cleanup
  | wait (duration : ℕ)

/-- The cache with the clock and the map it stands for. -/
structure CacheSystem (Value : Kind → Type) where
  cache : BasicCache
  now : ℕ
  spec : ExpiringMap String (Sigma Value) ℕ

namespace CacheSystem

variable (json : (kind : Kind) → Json (Value kind))

def start (config : Option CacheConfig) (now : ℕ) : CacheSystem Value where
  cache := BasicCache.new config
  now
  spec := ExpiringMap.empty

def set (s : CacheSystem Value) (key : String) (kind : Kind) (value : Value kind)
    (ttlSeconds pause : ℕ) : Except String Unit × BasicCache :=
  s.cache.set (json kind) s.now (s.now+pause) key value ttlSeconds

def get (s : CacheSystem Value) (key : String) (kind : Kind) :
    Except String (Option (Value kind)) × BasicCache :=
  s.cache.get (json kind) s.now key

def afterSet (s : CacheSystem Value) (key : String) (kind : Kind) (value : Value kind)
    (ttlSeconds pause : ℕ) (result : Except String Unit) (cache : BasicCache) :
    CacheSystem Value where
  cache
  now := s.now+pause
  spec :=
    match result with
    | .ok _ => s.spec.insert key ⟨kind,value⟩ (s.now+pause+ttlSeconds)
    | .error _ => s.spec

def next (s : CacheSystem Value) : CacheAction Value → CacheSystem Value
  | .set key kind value ttlSeconds pause =>
    s.afterSet key kind value ttlSeconds pause (s.set json key kind value ttlSeconds pause).1
      (s.set json key kind value ttlSeconds pause).2
  | .get key kind => { s with cache := (s.get json key kind).2 }
  | .remove key => { s with cache := s.cache.remove key, spec := s.spec.erase key }
  | .clear => { s with cache := s.cache.clear, spec := ExpiringMap.empty }
  | .cleanup => { s with cache := s.cache.cleanup s.now }
  | .wait duration => { s with now := s.now+duration }

/-- The expiry of a write fits its 64 bits. -/
def NoOverflow (s : CacheSystem Value) : CacheAction Value → Prop
  | .set _ _ _ ttlSeconds pause => s.now+pause+ttlSeconds < 2^64
  | _ => True

def ReadsMap (s : CacheSystem Value) (key : String) : Prop :=
  match s.spec.read s.now key with
  | some ⟨kind,value⟩ => (s.get json key kind).1 = .ok (some value)
  | none => ∀ kind, (s.get json key kind).1 = .ok none

def KeepsLive (s : CacheSystem Value) : Prop :=
  ∀ key kind (value : Value kind) ttlSeconds pause e,
    (s.set json key kind value ttlSeconds pause).1 = .error e →
    ∀ k jsonStr last, s.now+pause ≤ last →
      ((s.set json key kind value ttlSeconds pause).2.contents k = some (jsonStr,last) ↔
        s.cache.contents k = some (jsonStr,last))

/-! ## One step -/

def IsText (jsonStr : String) (x : Sigma Value) : Prop :=
  (json x.1).toText x.2 = .ok jsonStr

structure Refines (config : CacheConfig) (s : CacheSystem Value) : Prop where
  config_eq : s.cache.config = config
  sound : s.cache.Sound
  represents : ExpiringMap.Represents (IsText json) s.now s.cache.contents s.spec

variable {json}

theorem afterSet_refines {config : CacheConfig} {s : CacheSystem Value}
    (h : s.Refines json config) {key : String} {kind : Kind} {value : Value kind}
    {ttlSeconds pause : ℕ} (hfits : s.now+pause+ttlSeconds < 2^64) {result : Except String Unit}
    {cache : BasicCache} (hwritten : BasicCache.Written (json kind) s.cache s.now (s.now+pause)
      key value ttlSeconds result cache) :
    (s.afterSet key kind value ttlSeconds pause result cache).Refines json config := by
  have hroom := BasicCache.makeRoom_sound h.sound s.now
  have hconfig := (BasicCache.makeRoom_config s.cache s.now).trans h.config_eq
  have hkept : ExpiringMap.Represents (IsText json) (s.now+pause)
      (s.cache.makeRoom s.now).contents s.spec :=
    ExpiringMap.represents_later (ExpiringMap.represents_congr h.represents
      fun k jsonStr last hlast => BasicCache.makeRoom_contents s.cache hlast k jsonStr)
      (Nat.le_add_right _ _)
  cases hwritten with
  | refused e => exact ⟨hconfig,hroom,hkept⟩
  | stored jsonStr hfree htext =>
    refine ⟨hconfig,BasicCache.store_sound hroom hfree _ _ _,?_⟩
    dsimp only [afterSet]
    rw [BasicCache.contents_store,Nat.mod_eq_of_lt hfits]
    exact ExpiringMap.represents_insert hkept key (w := ⟨kind,value⟩) htext _

variable (json) in
theorem get_contents (s : CacheSystem Value) (key : String) (kind : Kind) {last : ℕ}
    (hlast : s.now ≤ last) (k jsonStr : String) :
    (s.get json key kind).2.contents k = some (jsonStr,last) ↔
      s.cache.contents k = some (jsonStr,last) := by
  rcases BasicCache.get_snd_cases (json kind) s.cache s.now key with hsame | ⟨hexpired,hremoved⟩
  · rw [get,hsame]
  · rw [get,hremoved,BasicCache.contents_remove]
    by_cases hk : k = key
    · subst hk
      rw [ExpiringMap.erase,Function.update_self]
      apply iff_of_false (Option.some_ne_none _).symm
      intro h
      rw [BasicCache.isExpired,(BasicCache.contents_some.mp h).2] at hexpired
      exact Nat.not_le_of_lt (of_decide_eq_true hexpired) hlast
    · rw [ExpiringMap.erase,Function.update_of_ne hk]

theorem get_refines {config : CacheConfig} {s : CacheSystem Value} (h : s.Refines json config)
    (key : String) (kind : Kind) : (s.next json (.get key kind)).Refines json config := by
  have hcontents := ExpiringMap.represents_congr h.represents
    fun k jsonStr last hlast => get_contents json s key kind hlast k jsonStr
  unfold next
  rcases BasicCache.get_snd_cases (json kind) s.cache s.now key with hsame | ⟨_,hremoved⟩
  · refine ⟨(congrArg BasicCache.config hsame).trans h.config_eq,?_,hcontents⟩
    change (s.cache.get (json kind) s.now key).2.Sound
    rw [hsame]
    exact h.sound
  · refine ⟨(congrArg BasicCache.config hremoved).trans h.config_eq,?_,hcontents⟩
    change (s.cache.get (json kind) s.now key).2.Sound
    rw [hremoved]
    exact BasicCache.remove_sound h.sound key

theorem next_refines {config : CacheConfig} (s : CacheSystem Value) (a : CacheAction Value)
    (h : s.Refines json config) (hfits : s.NoOverflow a) :
    (s.next json a).Refines json config := by
  cases a with
  | set key kind value ttlSeconds pause =>
    exact afterSet_refines h hfits (BasicCache.set_written _ _ _ _ _ _ _)
  | get key kind => exact get_refines h key kind
  | remove key =>
    refine ⟨h.config_eq,BasicCache.remove_sound h.sound key,?_⟩
    change ExpiringMap.Represents _ s.now (s.cache.remove key).contents _
    rw [BasicCache.contents_remove]
    exact ExpiringMap.represents_erase h.represents key
  | clear =>
    refine ⟨h.config_eq,BasicCache.clear_sound s.cache,?_⟩
    change ExpiringMap.Represents _ s.now s.cache.clear.contents _
    rw [BasicCache.contents_clear]
    exact ExpiringMap.represents_empty
  | cleanup =>
    exact ⟨(BasicCache.removeAll_config _ _).trans h.config_eq,
      BasicCache.removeAll_sound _ h.sound,ExpiringMap.represents_congr h.represents
        fun k jsonStr last hlast => BasicCache.cleanup_contents s.cache hlast k jsonStr⟩
  | wait duration =>
    exact ⟨h.config_eq,h.sound,ExpiringMap.represents_later h.represents (Nat.le_add_right _ _)⟩

/-! ## What callers see -/

theorem readsMap_of_refines {config : CacheConfig} {s : CacheSystem Value}
    (h : s.Refines json config) (key : String) : s.ReadsMap json key := by
  obtain ⟨hsome,hnone⟩ := ExpiringMap.read_represents h.represents key
  unfold ReadsMap
  cases hspec : s.spec.read s.now key with
  | some x =>
    obtain ⟨kind,value⟩ := x
    obtain ⟨jsonStr,hread,htext⟩ := hsome _ hspec
    dsimp only
    rw [get,BasicCache.get_fst (json kind) h.sound,hread,BasicCache.readText,
      (json kind).roundTrip value jsonStr htext]
  | none =>
    intro kind
    rw [get,BasicCache.get_fst (json kind) h.sound,hnone hspec,BasicCache.readText]

theorem keepsLive (s : CacheSystem Value) : s.KeepsLive json := by
  intro key kind value ttlSeconds pause e herror k jsonStr last hlast
  have hwritten := BasicCache.set_written (json kind) s.cache s.now (s.now+pause) key value
    ttlSeconds
  unfold set at herror ⊢
  generalize s.cache.set (json kind) s.now (s.now+pause) key value ttlSeconds = written
    at herror hwritten ⊢
  obtain ⟨result,cache⟩ := written
  cases hwritten with
  | refused e' =>
    exact BasicCache.makeRoom_contents s.cache (Nat.le_of_add_right_le hlast) k jsonStr
  | stored => cases herror

theorem start_refines (config : Option CacheConfig) (now : ℕ) :
    (start config now : CacheSystem Value).Refines json (config.getD CacheConfig.default) where
  config_eq := rfl
  sound := BasicCache.clear_sound (BasicCache.new config)
  represents := by
    change ExpiringMap.Represents _ now (BasicCache.new config).clear.contents _
    rw [BasicCache.contents_clear]
    exact ExpiringMap.represents_empty

/-- After any calls the cache is the map: reads agree, both its maps have the
same keys and no more than the size, a write fails only for want of a text or
of room among the live entries, and then changes none of them. -/
theorem refines_map {config : Option CacheConfig} {now : ℕ} {actions : List (CacheAction Value)}
    (h : AtomicRun.Along (next json) NoOverflow actions (start config now)) :
    let s := AtomicRun.run (next json) actions (start config now)
    (∀ key, s.ReadsMap json key) ∧
      (∀ key, key ∈ s.cache.entries ↔ key ∈ s.cache.expirations) ∧
      s.cache.len ≤ (config.getD CacheConfig.default).maxSize ∧
      s.KeepsLive json ∧
      ∀ key kind (value : Value kind) ttlSeconds pause,
        (s.set json key kind value ttlSeconds pause).1 = .ok () ↔
          (∃ jsonStr, (json kind).toText value = .ok jsonStr) ∧
            s.cache.liveCount s.now < (config.getD CacheConfig.default).maxSize := by
  intro s
  have hs : s.Refines json (config.getD CacheConfig.default) :=
    AtomicRun.run_invariant_along next_refines (start_refines config now) h
  refine ⟨readsMap_of_refines hs,hs.sound.sameKeys,?_,keepsLive s,fun key kind value ttl pause => ?_⟩
  · rw [← hs.config_eq]
    exact hs.sound.bounded
  · rw [← hs.config_eq]
    exact BasicCache.set_ok (json kind) hs.sound _ _ key value ttl

def expiredFlag : List (CacheAction fun _ : Unit => Bool) :=
  [.set "flag" () true 60 0,.set "other" () true 60 0,.wait 61,.get "flag" ()]

theorem refines_map_expiredFlag :
    (AtomicRun.run (next fun _ : Unit => Json.bool) expiredFlag
      (start (some ⟨300,1,3600⟩) 0)).cache.len ≤ 1 := by
  have hfits : 0+0+60 < 2^64 := by decide
  have hrun : AtomicRun.Along (next fun _ : Unit => Json.bool) NoOverflow expiredFlag
      (start (some ⟨300,1,3600⟩) 0) := ⟨hfits,hfits,trivial,trivial,trivial⟩
  exact (refines_map hrun).2.2.1

end CacheSystem

end DiamondBot.Common
