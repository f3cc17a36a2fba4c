import DiamondBot.Common.BasicCache
import DiamondBot.Library.AtomicRun

/-!
# The asynchronous cache

The same two maps behind a lock each. A call holds one lock at a time and lets
it go before it takes the next, so a call is a sequence of sections and other
calls run between them. What a call will do next is its phase.
-/

set_option autoImplicit false

namespace DiamondBot.Common
open Library

variable {Kind : Type} {Value : Kind → Type}

structure AsyncCache where
  entries : AList fun _ : String => String
  expirations : AList fun _ : String => ℕ
  config : CacheConfig

namespace AsyncCache

def new (config : Option CacheConfig) : AsyncCache where
  entries := ∅
  expirations := ∅
  config := config.getD CacheConfig.default

/-! ## Sections -/

def isFull (c : AsyncCache) : Bool := c.config.maxSize ≤ c.entries.keys.length

def isExpired (c : AsyncCache) (now : ℕ) (key : String) : Bool :=
  match c.expirations.lookup key with
  | some expiresAt => expiresAt < now
  | none => true

def expiredKeys (c : AsyncCache) (now : ℕ) : List String :=
  (c.expirations.entries.filter fun e => e.2 < now).map Sigma.fst

def eraseEntry (c : AsyncCache) (key : String) : AsyncCache :=
  { c with entries := c.entries.erase key }

def eraseExpiry (c : AsyncCache) (key : String) : AsyncCache :=
  { c with expirations := c.expirations.erase key }

def insertEntry (c : AsyncCache) (key jsonStr : String) : AsyncCache :=
  { c with entries := c.entries.insert key jsonStr }

def insertExpiry (c : AsyncCache) (key : String) (expiresAt : ℕ) : AsyncCache :=
  { c with expirations := c.expirations.insert key expiresAt }

def clearEntries (c : AsyncCache) : AsyncCache := { c with entries := ∅ }

def clearExpiries (c : AsyncCache) : AsyncCache := { c with expirations := ∅ }

def getAlone {V : Type} (json : Json V) (c : AsyncCache) (now : ℕ) (key : String) :
    Except String (Option V) :=
  if c.isExpired now key then .ok none
  else BasicCache.readText json (c.entries.lookup key)

end AsyncCache

/-! ## Calls -/

/-- The arguments of a write. -/
structure Write (Value : Kind → Type) where
  key : String
  kind : Kind
  value : Value kind
  ttlSeconds : ℕ

/-- A write that succeeded, by which call, and until when it is to be read. -/
structure Promise (Value : Kind → Type) where
  call : ℕ
  key : String
  kind : Kind
  value : Value kind
  last : ℕ

/-- What a call does when a key it removes is gone from both maps. -/
inductive Afterwards (Value : Kind → Type)
  | readNothing (held : List (Promise Value))
  | finish
  | cleanUp (keys : List String) (forWrite : Option (Write Value))

/-- The section a call enters next. A read keeps the promises in force when it
started. -/
inductive Phase (Value : Kind → Type)
  | reading (key : String) (held : List (Promise Value))
  | erasingEntry (key : String) (afterwards : Afterwards Value)
  | erasingExpiry (key : String) (afterwards : Afterwards Value)
  | clearingExpiries
  | readingClock (write : Write Value)
  | collecting (now : ℕ) (forWrite : Option (Write Value))
  | rechecking (write : Write Value)
  | serializing (write : Write Value)
  | storingEntry (write : Write Value) (jsonStr : String) (expiresAt : ℕ)
  | storingExpiry (write : Write Value) (expiresAt : ℕ)
  | returned

structure Read (Value : Kind → Type) where
  key : String
  text : Option String
  held : List (Promise Value)
  kept : List (Promise Value)
  time : ℕ

/-- The cache with its calls, the promises in force and the reads finished. -/
structure AsyncSystem (Value : Kind → Type) where
  cache : AsyncCache
  now : ℕ
  calls : List (Phase Value)
  kept : List (Promise Value)
  reads : List (Read Value)

/-- A new call enters its first section, or a call its next one. -/
inductive AsyncAction (Value : Kind → Type)
  | get (key : String)
  | set (write : Write Value)
  | remove (key : String)
  | clear
  | cleanup
  | step (call : ℕ)
  | wait (duration : ℕ)

namespace AsyncSystem

variable (json : (kind : Kind) → Json (Value kind))

def start (config : Option CacheConfig) (now : ℕ) : AsyncSystem Value where
  cache := AsyncCache.new config
  now
  calls := []
  kept := []
  reads := []

def keptAt (s : AsyncSystem Value) (key : String) : List (Promise Value) :=
  s.kept.filter fun p => p.key = key

def void (s : AsyncSystem Value) (key : String) : AsyncSystem Value :=
  { s with kept := s.kept.filter fun p => p.key ≠ key }

def enter (s : AsyncSystem Value) (phase : Phase Value) : AsyncSystem Value :=
  { s with calls := s.calls++[phase] }

def get (s : AsyncSystem Value) (key : String) : AsyncSystem Value :=
  if s.cache.isExpired s.now key then
    s.enter (.erasingEntry key (.readNothing (s.keptAt key)))
  else s.enter (.reading key (s.keptAt key))

def set (s : AsyncSystem Value) (write : Write Value) : AsyncSystem Value :=
  (s.void write.key).enter
    (if s.cache.isFull then .readingClock write else .serializing write)

def remove (s : AsyncSystem Value) (key : String) : AsyncSystem Value :=
  { (s.void key).enter (.erasingExpiry key .finish) with cache := s.cache.eraseEntry key }

def clear (s : AsyncSystem Value) : AsyncSystem Value :=
  { s.enter .clearingExpiries with cache := s.cache.clearEntries, kept := [] }

def finishRead (s : AsyncSystem Value) (key : String) (held : List (Promise Value))
    (text : Option String) : AsyncSystem Value :=
  { s with reads := s.reads++[⟨key,text,held,s.kept,s.now⟩] }

def cleanUp (keys : List String) (forWrite : Option (Write Value)) : Phase Value :=
  match keys with
  | key::rest => .erasingEntry key (.cleanUp rest forWrite)
  | [] =>
    match forWrite with
    | some write => .rechecking write
    | none => .returned

def afterErasing : Afterwards Value → Phase Value
  | .readNothing _ => .returned
  | .finish => .returned
  | .cleanUp keys forWrite => cleanUp keys forWrite

def serialize (now : ℕ) (write : Write Value) : Phase Value :=
  match (json write.kind).toText write.value with
  | .error _ => .returned
  | .ok jsonStr => .storingEntry write jsonStr ((now+write.ttlSeconds) % 2^64)

def phaseAfter (s : AsyncSystem Value) : Phase Value → Phase Value
  | .reading _ _ => .returned
  | .erasingEntry key afterwards => .erasingExpiry key afterwards
  | .erasingExpiry _ afterwards => afterErasing afterwards
  | .clearingExpiries => .returned
  | .readingClock write => .collecting s.now (some write)
  | .collecting now forWrite => cleanUp (s.cache.expiredKeys now) forWrite
  | .rechecking write => if s.cache.isFull then .returned else .serializing write
  | .serializing write => serialize json s.now write
  | .storingEntry write _ expiresAt => .storingExpiry write expiresAt
  | .storingExpiry _ _ => .returned
  | .returned => .returned

def effect (s : AsyncSystem Value) (call : ℕ) : Phase Value → AsyncSystem Value
  | .reading key held => s.finishRead key held (s.cache.entries.lookup key)
  | .erasingEntry key _ => { s with cache := s.cache.eraseEntry key }
  | .erasingExpiry key (.readNothing held) =>
    finishRead { s with cache := s.cache.eraseExpiry key } key held none
  | .erasingExpiry key _ => { s with cache := s.cache.eraseExpiry key }
  | .clearingExpiries => { s with cache := s.cache.clearExpiries }
  | .storingEntry write jsonStr _ =>
    { s with cache := s.cache.insertEntry write.key jsonStr }
  | .storingExpiry write expiresAt => { s with
      cache := s.cache.insertExpiry write.key expiresAt
      kept := s.kept++[⟨call,write.key,write.kind,write.value,expiresAt⟩] }
  | _ => s

def step (s : AsyncSystem Value) (call : ℕ) : AsyncSystem Value :=
  match s.calls[call]? with
  | none => s
  | some phase =>
    { s.effect call phase with calls := s.calls.set call (s.phaseAfter json phase) }

def next (s : AsyncSystem Value) : AsyncAction Value → AsyncSystem Value
  | .get key => s.get key
  | .set write => s.set write
  | .remove key => s.remove key
  | .clear => s.clear
  | .cleanup => s.enter (.collecting s.now none)
  | .step call => s.step json call
  | .wait duration => { s with now := s.now+duration }

end AsyncSystem

end DiamondBot.Common
