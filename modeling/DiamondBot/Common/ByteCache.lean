import DiamondBot.Library.AtomicRun
import Mathlib.Algebra.Order.Ring.Nat
import Mathlib.Data.List.AList

/-!
# The byte-encoded cache

Entries are stored as bytes. The encoder skips the expiry of an entry, and the
decoder puts a fixed instant in its place, so what a read or a cleanup takes
for the expiry is that instant. Instants are nanoseconds of the monotonic clock.
-/

set_option autoImplicit false

namespace DiamondBot.ByteCache
open Library

/-! ## Encoding -/

/-- The byte codec at a type. Decoding returns the bytes it has not read. -/
structure Bincode (V : Type) where
  encode : V → Except String (List UInt8)
  decode : List UInt8 → Except String (V × List UInt8)
  roundTrip : ∀ v bytes rest, encode v = .ok bytes → decode (bytes++rest) = .ok (v,rest)

def Bincode.unit : Bincode Unit where
  encode _ := .ok []
  decode bytes := .ok ((),bytes)
  roundTrip := by
    rintro _ _ rest ⟨⟩
    rfl

def Bincode.bool : Bincode Bool where
  encode b := .ok [if b then 1 else 0]
  decode
    | 0::rest => .ok (false,rest)
    | 1::rest => .ok (true,rest)
    | _ => .error "invalid byte"
  roundTrip := by
    rintro (_ | _) _ rest ⟨⟩
    · rfl
    · rfl

/-- The first instant that cannot be represented, and the one a skipped field
is restored as. -/
structure Platform where
  limit : ℕ
  restored : ℕ

structure CacheEntry (V : Type) where
  value : V
  expiresAt : ℕ

namespace CacheEntry

variable {V : Type}

def new (p : Platform) (now : ℕ) (value : V) (ttlSeconds : ℕ) : Except String (CacheEntry V) :=
  if now+10^9*ttlSeconds < p.limit then .ok ⟨value,now+10^9*ttlSeconds⟩
  else .error "overflow when adding duration to instant"

def isExpired (e : CacheEntry V) (now : ℕ) : Bool := e.expiresAt ≤ now

def serialize (codec : Bincode V) (e : CacheEntry V) : Except String (List UInt8) :=
  codec.encode e.value

def deserialize (p : Platform) (codec : Bincode V) (data : List UInt8) :
    Except String (CacheEntry V) :=
  match codec.decode data with
  | .ok (value,_) => .ok ⟨value,p.restored⟩
  | .error e => .error e

theorem deserialize_serialize {p : Platform} {codec : Bincode V} {e : CacheEntry V}
    {data : List UInt8} (h : e.serialize codec = .ok data) :
    deserialize p codec data = .ok ⟨e.value,p.restored⟩ := by
  have hdecode := codec.roundTrip e.value data [] h
  rw [List.append_nil] at hdecode
  rw [deserialize,hdecode]

theorem expiresAt_restored {p : Platform} {codec : Bincode V} {data : List UInt8}
    {e : CacheEntry V} (h : deserialize p codec data = .ok e) : e.expiresAt = p.restored := by
  unfold deserialize at h
  split at h
  · cases h
    rfl
  · cases h

theorem deserialize_unit (p : Platform) (data : List UInt8) :
    deserialize p Bincode.unit data = .ok ⟨(),p.restored⟩ := rfl

end CacheEntry

/-! ## The cache -/

structure BasicCache where
  entries : AList fun _ : String => List UInt8

namespace BasicCache

variable {V : Type} (p : Platform)

def new : BasicCache where
  entries := ∅

def getFromCache (codec : Bincode V) (c : BasicCache) (now : ℕ) (key : String) :
    Except String (Option V) :=
  match c.entries.lookup key with
  | none => .ok none
  | some data =>
    match CacheEntry.deserialize p codec data with
    | .error _ => .error s!"Không thể deserialize dữ liệu cache cho key: {key}"
    | .ok entry => if entry.isExpired now then .ok none else .ok (some entry.value)

def storeInCache (codec : Bincode V) (c : BasicCache) (now : ℕ) (key : String) (value : V)
    (ttlSeconds : ℕ) : Except String BasicCache :=
  match CacheEntry.new p now value ttlSeconds with
  | .error e => .error e
  | .ok entry =>
    match entry.serialize codec with
    | .error _ => .error s!"Không thể serialize dữ liệu cache cho key: {key}"
    | .ok data => .ok ⟨c.entries.insert key data⟩

def remove (c : BasicCache) (key : String) : BasicCache := ⟨c.entries.erase key⟩

def clear (_ : BasicCache) : BasicCache := ⟨∅⟩

def retains (now : ℕ) (data : List UInt8) : Bool :=
  match CacheEntry.deserialize p Bincode.unit data with
  | .ok entry => !entry.isExpired now
  | .error _ => false

def cleanupCache (c : BasicCache) (now : ℕ) : BasicCache :=
  ⟨⟨c.entries.entries.filter fun e => retains p now e.2,
    c.entries.nodupKeys.sublist List.filter_sublist⟩⟩

end BasicCache

/-! ## Calls about other keys -/

variable {Kind : Type} {Value : Kind → Type}

inductive Action (Value : Kind → Type)
  | store (key : String) (kind : Kind) (value : Value kind) (ttlSeconds : ℕ)
  | get (key : String) (kind : Kind)
  | remove (key : String)
  | wait (duration : ℕ)

/-- A call is about another key; time is about none. -/
def Action.Avoids (key : String) : Action Value → Prop
  | .store k _ _ _ => k ≠ key
  | .get k _ => k ≠ key
  | .remove k => k ≠ key
  | .wait _ => True

structure System where
  cache : BasicCache
  now : ℕ

namespace System

def next (p : Platform) (codec : (kind : Kind) → Bincode (Value kind)) (s : System) :
    Action Value → System
  | .store key kind value ttlSeconds =>
    match s.cache.storeInCache p (codec kind) s.now key value ttlSeconds with
    | .ok cache => { s with cache }
    | .error _ => s
  | .get _ _ => s
  | .remove key => { s with cache := s.cache.remove key }
  | .wait duration => { s with now := s.now+duration }

end System

/-! ## What becomes of an entry -/

/-- The bytes of a key are those of a value. -/
def Holds {V : Type} (codec : Bincode V) (c : BasicCache) (key : String) (value : V) : Prop :=
  ∃ data, c.entries.lookup key = some data ∧ codec.encode value = .ok data

section Entry

variable {V : Type} {p : Platform} {codec : Bincode V} {c : BasicCache} {key : String} {value : V}

theorem storeInCache_holds {c' : BasicCache} {now ttlSeconds : ℕ}
    (h : c.storeInCache p codec now key value ttlSeconds = .ok c') : Holds codec c' key value := by
  unfold BasicCache.storeInCache at h
  split at h
  · cases h
  · rename_i entry hentry
    split at h
    · cases h
    · rename_i data hdata
      cases h
      refine ⟨data,AList.lookup_insert _,?_⟩
      unfold CacheEntry.new at hentry
      split at hentry
      · cases hentry
        exact hdata
      · cases hentry

theorem storeInCache_other {V' : Type} {codec' : Bincode V'} {c' : BasicCache} {value' : V'}
    {now ttlSeconds : ℕ} {k : String}
    (h : c.storeInCache p codec' now k value' ttlSeconds = .ok c') (hk : k ≠ key) :
    c'.entries.lookup key = c.entries.lookup key := by
  unfold BasicCache.storeInCache at h
  split at h
  · cases h
  · split at h
    · cases h
    · cases h
      exact AList.lookup_insert_ne hk.symm

theorem getFromCache_holds (h : Holds codec c key value) (now : ℕ) :
    c.getFromCache p codec now key = .ok (if now < p.restored then some value else none) := by
  obtain ⟨data,hlookup,hencode⟩ := h
  have hentry : (CacheEntry.mk value 0).serialize codec = .ok data := hencode
  unfold BasicCache.getFromCache
  rw [hlookup]
  dsimp only
  rw [CacheEntry.deserialize_serialize hentry]
  dsimp only
  by_cases hlt : now < p.restored
  · rw [if_pos hlt,if_neg (by simpa [CacheEntry.isExpired] using hlt)]
  · rw [if_neg hlt,if_pos (by simpa [CacheEntry.isExpired] using hlt)]

theorem retains_iff (now : ℕ) (data : List UInt8) :
    BasicCache.retains p now data = true ↔ now < p.restored := by
  unfold BasicCache.retains
  rw [CacheEntry.deserialize_unit]
  simp [CacheEntry.isExpired]

theorem cleanupCache_holds (h : Holds codec c key value) (now : ℕ) :
    key ∈ (c.cleanupCache p now).entries ↔ now < p.restored := by
  obtain ⟨data,hlookup,_⟩ := h
  have hmem := AList.mem_lookup_iff.mp hlookup
  constructor
  · intro hkey
    obtain ⟨data',hdata'⟩ := Option.isSome_iff_exists.mp (AList.lookup_isSome.mpr hkey)
    have hkept := AList.mem_lookup_iff.mp hdata'
    exact (retains_iff now data').mp (List.mem_filter.mp hkept).2
  · intro hlt
    have hkept : ⟨key,data⟩ ∈ (c.cleanupCache p now).entries.entries :=
      List.mem_filter.mpr ⟨hmem,(retains_iff now data).mpr hlt⟩
    exact AList.lookup_isSome.mp (by rw [AList.mem_lookup_iff.mpr hkept]; rfl)

end Entry

/-- Calls about other keys leave an entry as it is. -/
theorem next_holds {p : Platform} {codec : (kind : Kind) → Bincode (Value kind)} {s : System}
    {key : String} {kind : Kind} {value : Value kind} (h : Holds (codec kind) s.cache key value)
    {a : Action Value} (ha : a.Avoids key) :
    Holds (codec kind) (s.next p codec a).cache key value := by
  obtain ⟨data,hlookup,hencode⟩ := h
  refine ⟨data,?_,hencode⟩
  rw [← hlookup]
  cases a with
  | store k kind' value' ttlSeconds =>
    unfold System.next
    dsimp only
    split
    · rename_i cache hstore
      exact storeInCache_other hstore ha
    · rfl
  | get k kind' => rfl
  | remove k => exact AList.lookup_erase_ne ha.symm
  | wait duration => rfl

/-! ## Expiry -/

/-- The read returns the value before the expiry and nothing from then on, and
a cleanup removes the entry in the second case. -/
def ExpiresOnTime {V : Type} (p : Platform) (codec : Bincode V) (s : System) (key : String)
    (value : V) (expiresAt : ℕ) : Prop :=
  s.cache.getFromCache p codec s.now key =
      .ok (if s.now < expiresAt then some value else none) ∧
    (key ∈ (s.cache.cleanupCache p s.now).entries ↔ s.now < expiresAt)

/-- After a store and any calls about other keys the entry expires on time
exactly when the restored instant and the expiry are on the same side of now. -/
theorem expires_on_time_iff {p : Platform} {codec : (kind : Kind) → Bincode (Value kind)}
    {before : System} {key : String} {kind : Kind} {value : Value kind} {ttlSeconds : ℕ}
    {cache : BasicCache} {actions : List (Action Value)}
    (hstore : before.cache.storeInCache p (codec kind) before.now key value ttlSeconds = .ok cache)
    (hothers : ∀ a ∈ actions, a.Avoids key) :
    ExpiresOnTime p (codec kind) (AtomicRun.run (System.next p codec) actions
        ⟨cache,before.now⟩) key value (before.now+10^9*ttlSeconds) ↔
      ((AtomicRun.run (System.next p codec) actions ⟨cache,before.now⟩).now < p.restored ↔
        (AtomicRun.run (System.next p codec) actions ⟨cache,before.now⟩).now <
          before.now+10^9*ttlSeconds) := by
  have hrun : ∀ (as : List (Action Value)) (s : System), (∀ a ∈ as, a.Avoids key) →
      Holds (codec kind) s.cache key value →
      Holds (codec kind) (AtomicRun.run (System.next p codec) as s).cache key value := by
    intro as
    induction as with
    | nil => exact fun s _ h => h
    | cons a as ih =>
      intro s hothers h
      exact ih _ (fun b hb => hothers b (List.mem_cons_of_mem a hb))
        (next_holds h (hothers a List.mem_cons_self))
  have hs := hrun actions ⟨cache,before.now⟩ hothers (storeInCache_holds hstore)
  generalize AtomicRun.run (System.next p codec) actions ⟨cache,before.now⟩ = s at hs
  unfold ExpiresOnTime
  rw [getFromCache_holds hs,cleanupCache_holds hs]
  constructor
  · exact fun h => h.2
  · intro h
    refine ⟨?_,h⟩
    simp only [h]

theorem expires_on_time_iff_waited : ExpiresOnTime ⟨2^93,1⟩ Bincode.bool
    (AtomicRun.run (System.next ⟨2^93,1⟩ fun _ : Unit => Bincode.bool) [.wait 5]
      ⟨⟨BasicCache.new.entries.insert "expired" [1]⟩,0⟩) "expired" true (0+10^9*0) ↔
      (5 < 1 ↔ 5 < 0+10^9*0) :=
  @expires_on_time_iff _ _ ⟨2^93,1⟩ (fun _ : Unit => Bincode.bool) ⟨BasicCache.new,0⟩ _ () true 0 _
    [.wait 5] rfl
    (by
      intro a ha
      rw [List.mem_singleton.mp ha]
      trivial)

/-- Restored as the start of the clock the expiry is past at once; restored as
a later instant it has not come when it should have. -/
theorem stored_expiry_lost :
    (∃ cache, BasicCache.new.storeInCache ⟨2^93,0⟩ Bincode.bool 0 "valid" true 3600 = .ok cache ∧
      cache.getFromCache ⟨2^93,0⟩ Bincode.bool 0 "valid" = .ok none) ∧
    ∃ cache, BasicCache.new.storeInCache ⟨2^93,1⟩ Bincode.bool 0 "expired" true 0 = .ok cache ∧
      cache.getFromCache ⟨2^93,1⟩ Bincode.bool 0 "expired" = .ok (some true) :=
  ⟨⟨⟨BasicCache.new.entries.insert "valid" [1]⟩,rfl,rfl⟩,
    ⟨⟨BasicCache.new.entries.insert "expired" [1]⟩,rfl,rfl⟩⟩

end DiamondBot.ByteCache
