import DiamondBot.Common.Bincode
import DiamondBot.Network.Redis

/-!
# The Redis cache

A value is stored as the bytes of an entry, and its key gets a deadline with a
second command. What is read is taken for expired by the instant restored for
the expiry the encoder skips. A command that fails ends the call with the text
its caller makes of the failure.
-/

set_option autoImplicit false

namespace DiamondBot.Network
open Library ByteCache

structure RedisCache where
  platform : Platform
  defaultTtl : ℕ

namespace RedisCache

variable {V : Type} (cache : RedisCache)

def readEntry (codec : Bincode V) (key : String) :
    Option (List UInt8) → Call interface (Option V)
  | none => return none
  | some data => do
    match CacheEntry.deserialize cache.platform codec data with
    | .error _ => .raise s!"Không thể deserialize dữ liệu cache cho key: {key}"
    | .ok entry =>
      let now ← Call.now
      if entry.isExpired now.instant then
        Redis.del key
        return none
      else return some entry.value

def getFromCache (codec : Bincode V) (key : String) : Call interface (Option V) := do
  let data ← Redis.get key
  cache.readEntry codec key data

def entryBytes (codec : Bincode V) (key : String) (value : V) (ttlSeconds : ℕ) :
    Call interface (List UInt8) := do
  let now ← Call.now
  match CacheEntry.new cache.platform now.instant value ttlSeconds with
  | .error e => .raise e
  | .ok entry =>
    match entry.serialize codec with
    | .error _ => .raise s!"Không thể serialize dữ liệu cache cho key: {key}"
    | .ok data => return data

def storeInCache (codec : Bincode V) (key : String) (value : V) (ttlSeconds : ℕ) :
    Call interface Unit := do
  let data ← cache.entryBytes codec key value ttlSeconds
  let ttl := if ttlSeconds > 0 then ttlSeconds else cache.defaultTtl
  Redis.set key data
  Redis.expire key ttl

def remove (key : String) : Call interface Unit := Redis.del key

end RedisCache

/-! ## The cache service -/

structure RedisCacheService where
  redisCache : RedisCache

namespace RedisCacheService

variable {V : Type} (service : RedisCacheService)

def get (codec : Bincode V) (key : String) : Call interface (Option V) :=
  service.redisCache.getFromCache codec key

def set (codec : Bincode V) (key : String) (value : V) (ttl : Option ℕ) : Call interface Unit :=
  service.redisCache.storeInCache codec key value (ttl.getD 0)

def delete (key : String) : Call interface Bool := do
  RedisCache.remove key
  return true

def incr (key : String) (delta : Int64) : Call interface Int64 := do
  let currentValue ← service.redisCache.getFromCache Bincode.i64 key
  let newValue := currentValue.getD 0+delta
  service.redisCache.storeInCache Bincode.i64 key newValue 0
  return newValue

end RedisCacheService

/-! ## Reading and storing -/

namespace RedisCache

variable {V A : Type} (cache : RedisCache) {codec : Bincode V} {key : String} {value : V}
  {data : List UInt8}

theorem getFromCache_bind (f : Option V → Call interface A) :
    cache.getFromCache codec key >>= f = .command (.get key) fun reply =>
      Call.done reply >>= fun data => cache.readEntry codec key data >>= f := by
  rw [getFromCache,Call.bind_assoc]
  rfl

section Sends

variable {allowed : Command → Prop}

theorem sends_getFromCache (hget : allowed (.get key)) (hdel : allowed (.del key)) :
    (cache.getFromCache codec key).Sends allowed := by
  refine Call.sends_bind (Call.sends_send hget) fun data => ?_
  cases data with
  | none => exact Call.sends_done _
  | some data =>
    unfold readEntry
    dsimp only
    split
    · exact Call.sends_done _
    · refine Call.sends_now fun now => ?_
      split
      · exact Call.sends_bind (Call.sends_send hdel) fun _ => Call.sends_done _
      · exact Call.sends_done _

/-- The bytes that are set are those of the value. -/
theorem sends_storeInCache {ttlSeconds : ℕ}
    (hset : ∀ data, codec.encode value = .ok data → allowed (.set key data))
    (hexpire : ∀ seconds, allowed (.expire key seconds)) :
    (cache.storeInCache codec key value ttlSeconds).Sends allowed := by
  unfold storeInCache
  have hbytes : (cache.entryBytes codec key value ttlSeconds).Obeys allowed (fun _ _ => True)
      fun data => codec.encode value = .ok data := by
    intro now
    change (match CacheEntry.new cache.platform now.instant value ttlSeconds with
      | .error e => Call.raise e
      | .ok entry =>
        match entry.serialize codec with
        | .error _ => Call.raise _
        | .ok data => pure data : Call interface (List UInt8)).Obeys allowed _ _
    split
    · exact trivial
    · rename_i entry hentry
      split
      · exact trivial
      · rename_i data hdata
        unfold CacheEntry.new at hentry
        split at hentry
        · cases hentry
          exact hdata
        · cases hentry
  refine Call.obeys_bind hbytes fun data hdata => ?_
  exact Call.sends_bind (Call.sends_send (hset data hdata)) fun _ =>
    Call.sends_send (hexpire _)

end Sends

theorem readEntry_settle (data : List UInt8) (now : Clock) (f : Option V → Call interface A) :
    (cache.readEntry codec key (some data) >>= f).settle now =
      match CacheEntry.deserialize cache.platform codec data with
      | .error _ => .done (.error s!"Không thể deserialize dữ liệu cache cho key: {key}")
      | .ok entry =>
        if now.instant < cache.platform.restored then (f (some entry.value)).settle now
        else Redis.del key >>= fun _ => f none := by
  cases hentry : CacheEntry.deserialize cache.platform codec data with
  | error e =>
    simp only [readEntry,hentry,Call.raise,Call.error_bind,Call.settle]
  | ok entry =>
    simp only [readEntry,hentry,Call.now,Call.clock_bind,Call.ok_bind,Call.settle,
      CacheEntry.isExpired,CacheEntry.expiresAt_restored hentry,decide_eq_true_eq]
    by_cases hlive : now.instant < cache.platform.restored
    · rw [if_neg (not_le.mpr hlive),if_pos hlive,Call.pure_eq,Call.ok_bind]
    · rw [if_pos (not_lt.mp hlive),if_neg hlive,Call.bind_assoc]
      rfl

theorem readEntry_live (hdata : codec.encode value = .ok data) {now : Clock}
    (hlive : now.instant < cache.platform.restored) (f : Option V → Call interface A) :
    (cache.readEntry codec key (some data) >>= f).settle now = (f (some value)).settle now := by
  have hread : CacheEntry.deserialize cache.platform codec data =
      .ok ⟨value,cache.platform.restored⟩ :=
    CacheEntry.deserialize_serialize (e := ⟨value,0⟩) hdata
  rw [readEntry_settle,hread]
  exact if_pos hlive

/-- A read by itself: an entry taken for expired is deleted. -/
theorem alone_getFromCache (n : ℕ) (r : Redis) :
    Redis.server.alone n (cache.getFromCache codec key) r =
      match r.read key with
      | none => some (.ok none,r)
      | some data =>
        match CacheEntry.deserialize cache.platform codec data with
        | .error _ =>
          some (.error s!"Không thể deserialize dữ liệu cache cho key: {key}",r)
        | .ok entry =>
          if entry.isExpired r.clock.instant then
            some (.ok none,{ r with values := Function.update r.values key none })
          else some (.ok (some entry.value),r) := by
  rw [getFromCache,Server.alone_bind]
  change Redis.server.alone n (cache.readEntry codec key (r.read key)) r = _
  cases r.read key with
  | none => rfl
  | some data =>
    unfold readEntry
    dsimp only
    cases CacheEntry.deserialize cache.platform codec data with
    | error e => rfl
    | ok entry =>
      dsimp only
      cases hexpired : entry.isExpired r.clock.instant with
      | true =>
        change Redis.server.alone n (if entry.isExpired r.clock.instant then _ else _) r = _
        rw [hexpired]
        rfl
      | false =>
        change Redis.server.alone n (if entry.isExpired r.clock.instant then _ else _) r = _
        rw [hexpired]
        rfl

/-- The bytes are sent as soon as they are known, if the expiry is an instant. -/
theorem storeInCache_settle (hdata : codec.encode value = .ok data) (ttlSeconds : ℕ)
    (f : Unit → Call interface A) (now : Clock) :
    (cache.storeInCache codec key value ttlSeconds >>= f).settle now =
      if now.instant+10^9*ttlSeconds < cache.platform.limit then do
        Redis.set key data
        Redis.expire key (if ttlSeconds > 0 then ttlSeconds else cache.defaultTtl)
        f ()
      else .done (.error "overflow when adding duration to instant") := by
  have hbytes : CacheEntry.serialize codec ⟨value,now.instant+10^9*ttlSeconds⟩ = .ok data := hdata
  simp only [storeInCache,entryBytes,Call.now,Call.clock_bind,Call.ok_bind,Call.bind_assoc,
    Call.settle]
  unfold CacheEntry.new
  by_cases hlimit : now.instant+10^9*ttlSeconds < cache.platform.limit
  · rw [if_pos hlimit,if_pos hlimit]
    dsimp only
    rw [hbytes]
    rfl
  · rw [if_neg hlimit,if_neg hlimit]
    rfl

end RedisCache

end DiamondBot.Network
