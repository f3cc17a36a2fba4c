import Mathlib.Algebra.Order.Ring.Nat

/-!
# The circuit breaker

A breaker counts failures, opens at the threshold, and lets requests through
again by way of a half-open state. Its fields stand behind locks of their own,
taken without blocking; whether a lock is granted may depend on the guards the
call itself still holds. Instants are nanoseconds, configured times
milliseconds, and the atomic counters wrap at 64 bits.
-/

set_option autoImplicit false

namespace DiamondBot

inductive CircuitBreakerState
  | closed
  | opened
  | halfOpen
  deriving DecidableEq

structure CircuitBreakerConfig where
  errorThreshold : UInt32
  errorWindow : UInt64
  openDuration : UInt64
  halfOpenAllowedRequests : UInt32
  deriving DecidableEq

structure CircuitBreaker where
  state : CircuitBreakerState
  errorCount : ℕ
  lastErrorTime : ℕ
  lastStateChange : ℕ
  halfOpenRequests : ℕ
  config : CircuitBreakerConfig
  endpointId : String
  deriving DecidableEq

namespace CircuitBreaker

/-! ## Locks -/

inductive Lock
  | state
  | lastErrorTime
  | lastStateChange
  deriving DecidableEq

inductive Guard
  | read (lock : Lock)
  | write (lock : Lock)
  deriving DecidableEq

def Guard.conflicts : Guard → Guard → Bool
  | .read _,.read _ => false
  | .read l,.write l' => l = l'
  | .write l,.read l' => l = l'
  | .write l,.write l' => l = l'

abbrev Grants := List Guard → Guard → Bool

def ownGuards : Grants := fun held guard => !held.any guard.conflicts

def granted : Grants := fun _ _ => true

/-! ## The methods -/

def new (endpointId : String) (config : CircuitBreakerConfig) (now : ℕ) : CircuitBreaker where
  state := .closed
  errorCount := 0
  lastErrorTime := now
  lastStateChange := now
  halfOpenRequests := 0
  config
  endpointId

def tryHalfOpen (grants : Grants) (b : CircuitBreaker) (now : ℕ) : Bool × CircuitBreaker :=
  if grants [.read .lastStateChange,.read .state] (.write .state) then
    if grants [.write .state,.read .lastStateChange,.read .state] (.write .lastStateChange) then
      (true,{ b with state := .halfOpen, lastStateChange := now, halfOpenRequests := 0 })
    else (false,{ b with state := .halfOpen })
  else (false,b)

def canExecute (grants : Grants) (b : CircuitBreaker) (now : ℕ) : Bool × CircuitBreaker :=
  if grants [] (.read .state) then
    match b.state with
    | .closed => (true,b)
    | .opened =>
      if grants [.read .state] (.read .lastStateChange) then
        if b.config.openDuration.toNat*10^6 ≤ now-b.lastStateChange then
          b.tryHalfOpen grants now
        else (false,b)
      else (false,b)
    | .halfOpen => (b.halfOpenRequests < b.config.halfOpenAllowedRequests.toNat,
        { b with halfOpenRequests := (b.halfOpenRequests+1) % 2^64 })
  else (false,b)

def tryOpen (grants : Grants) (b : CircuitBreaker) (now : ℕ) : CircuitBreaker :=
  if grants [] (.write .state) then
    if grants [.write .state] (.write .lastStateChange) then
      { b with state := .opened, lastStateChange := now }
    else { b with state := .opened }
  else b

def recordFailure (grants : Grants) (b : CircuitBreaker) (now : ℕ) : CircuitBreaker :=
  let b := if grants [] (.write .lastErrorTime) then { b with lastErrorTime := now } else b
  let currentCount := b.errorCount
  let b := { b with errorCount := (currentCount+1) % 2^64 }
  if grants [] (.read .state) then
    match b.state with
    | .closed =>
      if b.config.errorThreshold.toNat ≤ (currentCount+1) % 2^64 then b.tryOpen grants now else b
    | .halfOpen => b.tryOpen grants now
    | .opened => b
  else b

def recordSuccess (b : CircuitBreaker) (now : ℕ) : CircuitBreaker :=
  if b.state = .halfOpen ∧ b.config.halfOpenAllowedRequests.toNat ≤ b.halfOpenRequests then
    { b with state := .closed, lastStateChange := now, errorCount := 0 }
  else b

def reset (b : CircuitBreaker) (now : ℕ) : CircuitBreaker :=
  { b with state := .closed, lastStateChange := now, errorCount := 0 }

/-! ## Failures, when the locks they need are granted -/

def opened (b : CircuitBreaker) (now : ℕ) : CircuitBreaker :=
  { b with
    lastErrorTime := now
    errorCount := (b.errorCount+1) % 2^64
    state := .opened
    lastStateChange := now }

def counted (b : CircuitBreaker) (now : ℕ) : CircuitBreaker :=
  { b with
    lastErrorTime := now
    errorCount := (b.errorCount+1) % 2^64 }

section Failures

variable {grants : Grants} (hfree : ∀ guard, grants [] guard = true)
  (hchange : grants [.write .state] (.write .lastStateChange) = true)
include hfree

theorem recordFailure_opened {b : CircuitBreaker} (now : ℕ) (h : b.state = .opened) :
    b.recordFailure grants now = b.counted now := by
  simp only [recordFailure,hfree,if_true,h]
  rw [counted,h]

theorem recordFailure_below {b : CircuitBreaker} (now : ℕ) (h : b.state = .closed)
    (hbelow : (b.errorCount+1) % 2^64 < b.config.errorThreshold.toNat) :
    b.recordFailure grants now = b.counted now := by
  simp only [recordFailure,hfree,if_true,h,if_neg (Nat.not_le.mpr hbelow)]
  rw [counted,h]

include hchange

theorem recordFailure_reached {b : CircuitBreaker} (now : ℕ) (h : b.state = .closed)
    (hreached : b.config.errorThreshold.toNat ≤ (b.errorCount+1) % 2^64) :
    b.recordFailure grants now = b.opened now := by
  simp only [recordFailure,tryOpen,hfree,hchange,if_true,h,if_pos hreached]
  rfl

theorem recordFailure_halfOpen {b : CircuitBreaker} (now : ℕ) (h : b.state = .halfOpen) :
    b.recordFailure grants now = b.opened now := by
  simp only [recordFailure,tryOpen,hfree,hchange,if_true,h]
  rfl

end Failures

end CircuitBreaker

end DiamondBot
