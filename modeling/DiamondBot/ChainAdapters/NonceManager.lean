import Mathlib.Algebra.Order.Ring.Nat
import Mathlib.Data.List.AList
import Mathlib.Logic.Function.Basic

/-!
# The nonce manager

A counter for each address, read from the chain when nothing is cached or the
entry is older than the cache duration, and advanced when a nonce is handed
out. Every method holds the global lock from its first to its last line, so a
call is one step. Instants are nanoseconds, and a nonce has 256 bits.
-/

set_option autoImplicit false

namespace DiamondBot

abbrev Address := BitVec 160

/-- How a method of the manager ends without a value: an error it returns, or
the panic of the addition. -/
inductive Fault
  | error (text : String)
  | overflow
  deriving DecidableEq

structure NonceManager where
  nonces : AList fun _ : Address => ℕ
  cacheDuration : ℕ
  lastUpdates : AList fun _ : Address => ℕ

namespace NonceManager

def new (cacheSeconds : ℕ) : NonceManager where
  nonces := ∅
  cacheDuration := cacheSeconds*10^9
  lastUpdates := ∅

def getNonceFromChain : Except String ℕ → Except Fault ℕ
  | .ok nonce => .ok nonce
  | .error err => .error (.error s!"Không thể lấy nonce: {err}")

def shouldRefresh (m : NonceManager) (now : ℕ) (address : Address) : Bool :=
  match m.lastUpdates.lookup address with
  | some time => m.cacheDuration < now-time
  | none => true

def cached (m : NonceManager) (now : ℕ) (address : Address) : Option ℕ :=
  if m.shouldRefresh now address then none else m.nonces.lookup address

def store (m : NonceManager) (now : ℕ) (address : Address) (nonce : ℕ) : NonceManager :=
  { m with
    nonces := m.nonces.insert address nonce
    lastUpdates := m.lastUpdates.insert address now }

def advance (m : NonceManager) (address : Address) (currentNonce : ℕ) :
    Except Fault ℕ × NonceManager :=
  if currentNonce+1 < 2^256 then
    (.ok currentNonce,{ m with nonces := m.nonces.insert address (currentNonce+1) })
  else (.error .overflow,m)

def getNextNonce (m : NonceManager) (now : ℕ) (address : Address) (count : Except String ℕ) :
    Except Fault ℕ × NonceManager :=
  match m.cached now address with
  | some currentNonce => m.advance address currentNonce
  | none =>
    match getNonceFromChain count with
    | .ok chainNonce => (m.store now address chainNonce).advance address chainNonce
    | .error e => (.error e,m)

def updateNonce (m : NonceManager) (now : ℕ) (address : Address) (newNonce : ℕ) : NonceManager :=
  match m.nonces.lookup address with
  | some nonce => m.store now address (max nonce newNonce)
  | none => m.store now address newNonce

def resetNonce (m : NonceManager) (now : ℕ) (address : Address) (count : Except String ℕ) :
    Except Fault ℕ × NonceManager :=
  match getNonceFromChain count with
  | .ok chainNonce => (.ok chainNonce,m.store now address chainNonce)
  | .error e => (.error e,m)

def hasCachedNonce (m : NonceManager) (address : Address) : Bool :=
  address ∈ m.nonces

def expiredAddresses (m : NonceManager) (now : ℕ) : List Address :=
  (m.lastUpdates.entries.filter fun e => m.cacheDuration < now-e.2).map Sigma.fst

def cleanupCache (m : NonceManager) (now : ℕ) : NonceManager :=
  { m with
    nonces := (m.expiredAddresses now).foldl (fun l addr => l.erase addr) m.nonces
    lastUpdates := (m.expiredAddresses now).foldl (fun l addr => l.erase addr) m.lastUpdates }

/-! ## The manager among its tasks -/

/-- The manager, the number of mined transactions of each address, the clock
and the nonces handed out so far. -/
structure System where
  manager : NonceManager
  mined : Address → ℕ
  now : ℕ
  handed : Address → List ℕ

/-- A step of some task or of the chain. A read of the count fails with the
given text or succeeds. -/
inductive Action
  | getNextNonce (address : Address) (failure : Option String)
  | updateNonce (address : Address) (newNonce : ℕ)
  | resetNonce (address : Address) (failure : Option String)
  | cleanupCache
  | mine (address : Address)
  | wait (duration : ℕ)
  deriving DecidableEq

namespace System

def start (cacheSeconds : ℕ) (mined : Address → ℕ) (now : ℕ) : System where
  manager := NonceManager.new cacheSeconds
  mined
  now
  handed _ := []

def transactionCount (s : System) (address : Address) : Option String → Except String ℕ
  | some err => .error err
  | none => .ok (s.mined address)

def getNextNonce (s : System) (address : Address) (failure : Option String) :
    Except Fault ℕ × System :=
  let r := s.manager.getNextNonce s.now address (s.transactionCount address failure)
  match r.1 with
  | .ok nonce => (r.1,{ s with
      manager := r.2
      handed := Function.update s.handed address (s.handed address++[nonce]) })
  | .error _ => (r.1,{ s with manager := r.2 })

def updateNonce (s : System) (address : Address) (newNonce : ℕ) : System :=
  { s with manager := s.manager.updateNonce s.now address newNonce }

def resetNonce (s : System) (address : Address) (failure : Option String) :
    Except Fault ℕ × System :=
  let r := s.manager.resetNonce s.now address (s.transactionCount address failure)
  (r.1,{ s with manager := r.2 })

def next (s : System) : Action → System
  | .getNextNonce address failure => (s.getNextNonce address failure).2
  | .updateNonce address newNonce => s.updateNonce address newNonce
  | .resetNonce address failure => (s.resetNonce address failure).2
  | .cleanupCache => { s with manager := s.manager.cleanupCache s.now }
  | .mine address => { s with mined := Function.update s.mined address (s.mined address+1) }
  | .wait duration => { s with now := s.now+duration }

end System

/-! ## What each method does to the entries -/

@[simp] theorem store_nonces (m : NonceManager) (now : ℕ) (address : Address) (nonce : ℕ) :
    (m.store now address nonce).nonces = m.nonces.insert address nonce := rfl

theorem store_cached (m : NonceManager) (now : ℕ) (address : Address) (nonce : ℕ) :
    (m.store now address nonce).cached now address = some nonce := by
  simp [cached,shouldRefresh,store]

theorem cached_some {m : NonceManager} {now n : ℕ} {address : Address}
    (h : m.cached now address = some n) : m.nonces.lookup address = some n := by
  unfold cached at h
  split at h
  · cases h
  · exact h

theorem advance_cases (m : NonceManager) (address : Address) (currentNonce : ℕ) :
    currentNonce+1 < 2^256 ∧ m.advance address currentNonce =
        (.ok currentNonce,{ m with nonces := m.nonces.insert address (currentNonce+1) }) ∨
      2^256 ≤ currentNonce+1 ∧ m.advance address currentNonce = (.error .overflow,m) := by
  unfold advance
  by_cases h : currentNonce+1 < 2^256
  · exact Or.inl ⟨h,if_pos h⟩
  · exact Or.inr ⟨by omega,if_neg h⟩

def Offers (m : NonceManager) (now : ℕ) (address : Address) (count n : ℕ) : Prop :=
  m.cached now address = some n ∨ m.cached now address = none ∧ count = n

theorem offers_unique {m : NonceManager} {now count n n' : ℕ} {address : Address}
    (h : m.Offers now address count n) (h' : m.Offers now address count n') : n = n' := by
  rcases h with h | ⟨h,rfl⟩
  · rcases h' with h' | ⟨h',_⟩
    · exact Option.some.inj (h.symm.trans h')
    · exact absurd (h.symm.trans h') (by simp)
  · rcases h' with h' | ⟨_,h'⟩
    · exact absurd (h.symm.trans h') (by simp)
    · exact h'

/-- The ways a nonce is asked for, each with its answer and the state it leaves. -/
inductive System.Asked (s : System) (address : Address) (failure : Option String) :
    Except Fault ℕ → System → Prop
  | fromCache (n : ℕ) (cached : s.manager.cached s.now address = some n) (room : n+1 < 2^256) :
      Asked s address failure (.ok n) { s with
        manager := { s.manager with nonces := s.manager.nonces.insert address (n+1) }
        handed := Function.update s.handed address (s.handed address++[n]) }
  | fromChain (absent : s.manager.cached s.now address = none) (answered : failure = none)
      (room : s.mined address+1 < 2^256) :
      Asked s address failure (.ok (s.mined address)) { s with
        manager := { s.manager.store s.now address (s.mined address) with
          nonces := (s.manager.nonces.insert address (s.mined address)).insert address
            (s.mined address+1) }
        handed := Function.update s.handed address (s.handed address++[s.mined address]) }
  | cacheFull (n : ℕ) (cached : s.manager.cached s.now address = some n)
      (full : 2^256 ≤ n+1) : Asked s address failure (.error .overflow) s
  | chainFull (absent : s.manager.cached s.now address = none) (answered : failure = none)
      (full : 2^256 ≤ s.mined address+1) : Asked s address failure (.error .overflow) { s with
        manager := s.manager.store s.now address (s.mined address) }
  | chainFailed (err : String) (absent : s.manager.cached s.now address = none)
      (failed : failure = some err) :
      Asked s address failure (.error (.error s!"Không thể lấy nonce: {err}")) s

theorem System.getNextNonce_asked (s : System) (address : Address) (failure : Option String) :
    s.Asked address failure (s.getNextNonce address failure).1
      (s.getNextNonce address failure).2 := by
  cases hcached : s.manager.cached s.now address with
  | some n =>
    rcases advance_cases s.manager address n with ⟨hroom,h⟩ | ⟨hfull,h⟩
    · simp only [System.getNextNonce,NonceManager.getNextNonce,hcached,h]
      exact Asked.fromCache n hcached hroom
    · simp only [System.getNextNonce,NonceManager.getNextNonce,hcached,h]
      exact Asked.cacheFull n hcached hfull
  | none =>
    cases failure with
    | some err =>
      simp only [System.getNextNonce,NonceManager.getNextNonce,hcached,transactionCount,
        getNonceFromChain]
      exact Asked.chainFailed err hcached rfl
    | none =>
      rcases advance_cases (s.manager.store s.now address (s.mined address)) address
        (s.mined address) with ⟨hroom,h⟩ | ⟨hfull,h⟩
      · simp only [System.getNextNonce,NonceManager.getNextNonce,hcached,transactionCount,
          getNonceFromChain,h]
        exact Asked.fromChain hcached rfl hroom
      · simp only [System.getNextNonce,NonceManager.getNextNonce,hcached,transactionCount,
          getNonceFromChain,h]
        exact Asked.chainFull hcached rfl hfull

theorem System.asked_offers {s s' : System} {address : Address} {failure : Option String}
    {n : ℕ} (h : s.Asked address failure (.ok n) s') :
    s.manager.Offers s.now address (s.mined address) n := by
  cases h with
  | fromCache _ cached _ => exact Or.inl cached
  | fromChain absent _ _ => exact Or.inr ⟨absent,rfl⟩

theorem System.asked_next {s s' : System} {address : Address} {failure : Option String}
    {n : ℕ} (h : s.Asked address failure (.ok n) s') :
    s'.manager.nonces.lookup address = some (n+1) := by
  cases h with
  | fromCache _ _ _ => exact AList.lookup_insert _
  | fromChain _ _ _ => exact AList.lookup_insert _

theorem lookup_foldl_erase {β : Type} (l : List Address) (m : AList fun _ : Address => β)
    (address : Address) : (l.foldl (fun l addr => l.erase addr) m).lookup address =
      if address ∈ l then none else m.lookup address := by
  induction l generalizing m with
  | nil => rfl
  | cons addr l ih =>
    rw [List.foldl_cons,ih]
    by_cases hl : address ∈ l
    · rw [if_pos hl,if_pos (List.mem_cons_of_mem _ hl)]
    · rw [if_neg hl]
      by_cases h : address = addr
      · subst h
        rw [AList.lookup_erase,if_pos List.mem_cons_self]
      · rw [AList.lookup_erase_ne h,if_neg (List.not_mem_cons_of_ne_of_not_mem h hl)]

theorem cleanupCache_nonces (m : NonceManager) (now : ℕ) (address : Address) :
    (m.cleanupCache now).nonces.lookup address =
      if address ∈ m.expiredAddresses now then none else m.nonces.lookup address :=
  lookup_foldl_erase _ _ _

end NonceManager

end DiamondBot
