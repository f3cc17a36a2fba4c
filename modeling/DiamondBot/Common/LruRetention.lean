import DiamondBot.Common.LruCache
import DiamondBot.Library.Projection

/-!
# What the cache of the most recently used still has

A read moves its key to the front even when the bytes cannot be decoded, and
takes an expired entry out. A value stored can be read back as long as fewer
other keys than fit have been used since and are still there.
-/

set_option autoImplicit false

namespace DiamondBot.ByteCache
open Library Library.AtomicRun Library.Projection

namespace LRUCache

def withEntries (c : LRUCache) (entries : LruCache String (List UInt8))
    (h : entries.cap = c.entries.cap) : LRUCache where
  config := c.config
  entries := entries
  agrees := fun k hk hpos => h.trans (c.agrees k hk hpos)

variable {V : Type} (p : Platform)

def touched (c : LRUCache) (key : String) : LRUCache :=
  c.withEntries (c.entries.touch key) (LruCache.use_cap c.entries (.touch key))

def popped (c : LRUCache) (key : String) : LRUCache := c.withEntries (c.entries.pop key) rfl

def getFromCache (codec : Bincode V) (c : LRUCache) (now : ℕ) (key : String) :
    Except String (Option V) × LRUCache :=
  match c.entries.lookup key with
  | none => (.ok none,c)
  | some data =>
    match CacheEntry.deserialize p codec data with
    | .error _ => (.error s!"Không thể deserialize dữ liệu cache cho key: {key}",c.touched key)
    | .ok entry =>
      if entry.isExpired now then (.ok none,(c.touched key).popped key)
      else (.ok (some entry.value),c.touched key)

def storeInCache (codec : Bincode V) (c : LRUCache) (now : ℕ) (key : String) (value : V)
    (ttlSeconds : ℕ) : Except String LRUCache :=
  match CacheEntry.new p now value ttlSeconds with
  | .error e => .error e
  | .ok entry =>
    match entry.serialize codec with
    | .error _ => .error s!"Không thể serialize dữ liệu cache cho key: {key}"
    | .ok data => .ok (c.withEntries (c.entries.put key data) rfl)

def remove (c : LRUCache) (key : String) : LRUCache := c.popped key

end LRUCache

variable {Kind : Type} {Value : Kind → Type}

structure LruSystem where
  cache : LRUCache
  now : ℕ

namespace LruSystem

variable (p : Platform) (codec : (kind : Kind) → Bincode (Value kind))

def next (s : LruSystem) : Action Value → LruSystem
  | .store key kind value ttlSeconds =>
    match s.cache.storeInCache p (codec kind) s.now key value ttlSeconds with
    | .ok cache => { s with cache }
    | .error _ => s
  | .get key kind => { s with cache := (s.cache.getFromCache p (codec kind) s.now key).2 }
  | .remove key => { s with cache := s.cache.remove key }
  | .wait duration => { s with now := s.now+duration }

def uses (s : LruSystem) : Action Value → List (LruCache.Use String (List UInt8))
  | .store key kind value ttlSeconds =>
    match s.cache.storeInCache p (codec kind) s.now key value ttlSeconds, (codec kind).encode value with
    | .ok _, .ok data => [.put key data]
    | _, _ => []
  | .get key kind =>
    match s.cache.entries.lookup key with
    | none => []
    | some data =>
      match CacheEntry.deserialize p (codec kind) data with
      | .error _ => [.touch key]
      | .ok entry => if entry.isExpired s.now then [.touch key,.pop key] else [.touch key]
  | .remove key => [.pop key]
  | .wait _ => []

end LruSystem

theorem store_ok {V : Type} {p : Platform} {codec : Bincode V} {c c' : LRUCache} {now : ℕ}
    {key : String} {value : V} {ttlSeconds : ℕ}
    (h : c.storeInCache p codec now key value ttlSeconds = .ok c') :
    ∃ data, codec.encode value = .ok data ∧ c' = c.withEntries (c.entries.put key data) rfl := by
  unfold LRUCache.storeInCache at h
  split at h
  · cases h
  · next entry hentry =>
    split at h
    · cases h
    · next data hdata =>
      cases h
      unfold CacheEntry.new at hentry
      split at hentry
      · cases hentry
        exact ⟨data,hdata,rfl⟩
      · cases hentry

namespace LruSystem

variable {p : Platform} {codec : (kind : Kind) → Bincode (Value kind)}

theorem entries_project : Projects (next p codec) LruCache.use
    (fun s : LruSystem => s.cache.entries) (uses p codec) := by
  intro s a
  cases a with
  | store key kind value ttlSeconds =>
    simp only [next,uses]
    cases hstore : s.cache.storeInCache p (codec kind) s.now key value ttlSeconds with
    | error e => rfl
    | ok c =>
      obtain ⟨data,hdata,rfl⟩ := store_ok hstore
      rw [hdata]
      rfl
  | get key kind =>
    simp only [next,uses,LRUCache.getFromCache]
    cases s.cache.entries.lookup key with
    | none => rfl
    | some data =>
      dsimp only
      cases CacheEntry.deserialize p (codec kind) data with
      | error e => rfl
      | ok entry =>
        dsimp only
        split <;> rfl
  | remove key => rfl
  | wait duration => rfl

theorem uses_avoid {s : LruSystem} {a : Action Value} {key : String} (h : a.Avoids key) :
    ∀ u ∈ uses p codec s a, u.key ≠ key := by
  cases a with
  | store k kind value ttlSeconds =>
    simp only [uses]
    split
    · simpa [LruCache.Use.key,Action.Avoids] using h
    · simp
  | get k kind =>
    simp only [uses]
    split
    · simp
    · split
      · simpa [LruCache.Use.key,Action.Avoids] using h
      · split
        · simpa [LruCache.Use.key,Action.Avoids] using h
        · simpa [LruCache.Use.key,Action.Avoids] using h
  | remove k => simpa [uses,LruCache.Use.key,Action.Avoids] using h
  | wait duration => simp [uses]

theorem given_avoid {key : String} {actions : List (Action Value)}
    (h : ∀ a ∈ actions, a.Avoids key) (s : LruSystem) :
    ∀ u ∈ given (next p codec) (uses p codec) actions s, u.key ≠ key := by
  induction actions generalizing s with
  | nil => simp [given]
  | cons a actions ih =>
    obtain ⟨ha,hrest⟩ := List.forall_mem_cons.mp h
    intro u hu
    rcases List.mem_append.mp hu with hu | hu
    · exact uses_avoid ha u hu
    · exact ih hrest _ u hu

end LruSystem

theorem read_held {V : Type} {p : Platform} {codec : Bincode V} {c : LRUCache} {key : String}
    {value : V} {data : List UInt8} (hdata : codec.encode value = .ok data)
    (h : c.entries.lookup key = some data) (now : ℕ) :
    (c.getFromCache p codec now key).1 =
      .ok (if now < p.restored then some value else none) := by
  have hentry : (CacheEntry.mk value 0).serialize codec = .ok data := hdata
  unfold LRUCache.getFromCache
  rw [h]
  dsimp only
  rw [CacheEntry.deserialize_serialize hentry]
  dsimp only
  by_cases hlt : now < p.restored
  · rw [if_pos hlt,if_neg (by simpa [CacheEntry.isExpired] using hlt)]
  · rw [if_neg hlt,if_pos (by simpa [CacheEntry.isExpired] using hlt)]

theorem read_lost {V : Type} {p : Platform} {codec : Bincode V} {c : LRUCache} {key : String}
    (h : c.entries.lookup key = none) (now : ℕ) :
    (c.getFromCache p codec now key).1 = .ok none := by
  unfold LRUCache.getFromCache
  rw [h]

/-- After a store and any calls about other keys, the value is read back exactly
while the restored instant is ahead and as long as, at every moment since, fewer
other keys than fit had been used and were still stored. -/
theorem stored_read_back_iff {p : Platform} {codec : (kind : Kind) → Bincode (Value kind)}
    {before : LruSystem} {key : String} {kind : Kind} {value : Value kind} {ttlSeconds : ℕ}
    {cache : LRUCache} {actions : List (Action Value)}
    (hstore : before.cache.storeInCache p (codec kind) before.now key value ttlSeconds = .ok cache)
    (hothers : ∀ a ∈ actions, a.Avoids key) :
    ((run (LruSystem.next p codec) actions ⟨cache,before.now⟩).cache.getFromCache p (codec kind)
        (run (LruSystem.next p codec) actions ⟨cache,before.now⟩).now key).1 = .ok (some value) ↔
      (run (LruSystem.next p codec) actions ⟨cache,before.now⟩).now < p.restored ∧
        Throughout LruCache.watch (fun w => w.2.card < w.1.cap)
          (given (LruSystem.next p codec) (LruSystem.uses p codec) actions ⟨cache,before.now⟩)
          (cache.entries,∅) := by
  obtain ⟨data,hdata,rfl⟩ := store_ok hstore
  obtain ⟨back,hfront⟩ := LruCache.put_front before.cache.entries key data
  have hproject : Projects (LruSystem.next p codec) LruCache.use
      (fun s => s.cache.entries) (LruSystem.uses p codec) := LruSystem.entries_project
  have hentries := run_projected hproject actions
    ⟨before.cache.withEntries (before.cache.entries.put key data) rfl,before.now⟩
  rcases LruCache.kept_or_lost hfront (LruSystem.given_avoid hothers _) with
    ⟨hkept,hroom⟩ | ⟨hlost,hcrowded⟩
  · rw [read_held hdata (hentries ▸ hkept)]
    refine Iff.trans ?_ (and_iff_left hroom).symm
    simp
  · rw [read_lost (hentries ▸ hlost)]
    exact iff_of_false (by simp) fun h => hcrowded h.2

def roomForTwo : LRUCache where
  config := ⟨3600,some 2⟩
  entries := .new 2 (by decide)
  agrees := fun _ h _ => Option.some.inj h

/-- Two other keys follow in a cache for two. -/
theorem stored_read_back_iff_crowded : ∃ cache,
    roomForTwo.storeInCache ⟨2^93,2^92⟩ Bincode.bool 0 "a" true 5 = .ok cache ∧
    (((run (LruSystem.next ⟨2^93,2^92⟩ fun _ : Unit => Bincode.bool)
        [.store "b" () true 5,.store "c" () false 5] ⟨cache,0⟩).cache.getFromCache ⟨2^93,2^92⟩
        Bincode.bool (run (LruSystem.next ⟨2^93,2^92⟩ fun _ : Unit => Bincode.bool)
        [.store "b" () true 5,.store "c" () false 5] ⟨cache,0⟩).now "a").1 = .ok (some true) ↔
      (run (LruSystem.next ⟨2^93,2^92⟩ fun _ : Unit => Bincode.bool)
        [.store "b" () true 5,.store "c" () false 5] ⟨cache,0⟩).now < 2^92 ∧
      Throughout LruCache.watch (fun w => w.2.card < w.1.cap)
        (given (LruSystem.next ⟨2^93,2^92⟩ fun _ : Unit => Bincode.bool)
          (LruSystem.uses ⟨2^93,2^92⟩ fun _ => Bincode.bool)
          [.store "b" () true 5,.store "c" () false 5] ⟨cache,0⟩) (cache.entries,∅)) := by
  obtain ⟨cache,hstore⟩ : ∃ cache,
    roomForTwo.storeInCache ⟨2^93,2^92⟩ Bincode.bool 0 "a" true 5 = .ok cache := ⟨_,rfl⟩
  refine ⟨cache,hstore,@stored_read_back_iff _ _ ⟨2^93,2^92⟩ (fun _ : Unit => Bincode.bool)
    ⟨roomForTwo,0⟩ "a" () true 5 cache [.store "b" () true 5,.store "c" () false 5] hstore ?_⟩
  intro a ha
  rcases List.mem_pair.mp ha with rfl | rfl
  · exact fun h => absurd h (by decide)
  · exact fun h => absurd h (by decide)

end DiamondBot.ByteCache
