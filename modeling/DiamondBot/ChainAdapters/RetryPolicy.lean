import DiamondBot.ChainAdapters.CircuitBreaker
import Mathlib.Data.List.AList

/-!
# The exponential retry policy

A call asks the breaker of its endpoint first, then runs the operation until it
succeeds, fails for good or has used up its attempts or its time, and tells the
breaker what happened. What the operation returns, how long everything takes
and how long the policy waits are inputs of a call.
-/

set_option autoImplicit false

namespace DiamondBot
open CircuitBreaker

structure RetryPolicyConfig where
  maxRetries : ℕ
  maxTotalRetryTime : ℕ
  circuitBreaker : CircuitBreakerConfig

def RetryPolicyConfig.default : RetryPolicyConfig where
  maxRetries := 3
  maxTotalRetryTime := 30000
  circuitBreaker := {
    errorThreshold := 5
    errorWindow := 60000
    openDuration := 300000
    halfOpenAllowedRequests := 3 }

/-- Which errors of the operation are errors of the chain that may be retried
is left open. -/
structure ExponentialRetryPolicy (ε : Type) where
  config : RetryPolicyConfig
  isRetryable : ε → Bool
  circuitBreakers : AList fun _ : String => CircuitBreaker

inductive RetryError (ε : Type)
  | message (text : String)
  | operation (err : ε)

/-- One run of the operation, the time it takes, the time between the report to
the breaker and its answer, and the wait before the next run. -/
structure Attempt (α ε : Type) where
  result : Except ε α
  duration : ℕ
  reporting : ℕ
  delay : ℕ

structure RetryLoop (ε : Type) where
  breaker : CircuitBreaker
  now : ℕ
  currentRetry : ℕ
  totalTime : ℕ
  lastError : Option ε

namespace ExponentialRetryPolicy

variable {α ε : Type}

def lastErrorOr (lastError : Option ε) (text : String) : RetryError ε :=
  match lastError with
  | some err => .operation err
  | none => .message text

def timeUsedUp (config : RetryPolicyConfig) (totalTime : ℕ) : Bool :=
  config.maxTotalRetryTime ≤ totalTime/10^6 % 2^64

def retryLoop (p : ExponentialRetryPolicy ε) (startTime : ℕ) (attempts : ℕ → Attempt α ε) :
    ℕ → RetryLoop ε → Except (RetryError ε) α × RetryLoop ε
  | 0,s => (.error (lastErrorOr s.lastError "Max retries reached"),s)
  | remaining+1,s =>
    if timeUsedUp p.config s.totalTime then
      (.error (lastErrorOr s.lastError "Max retry time exceeded"),s)
    else
      let attempt := attempts s.currentRetry
      let now := s.now+attempt.duration
      match attempt.result with
      | .ok value =>
        (.ok value,{ s with
          now
          breaker := if 0 < s.currentRetry then s.breaker.recordSuccess now else s.breaker })
      | .error err =>
        let answer := (s.breaker.recordFailure ownGuards now).canExecute ownGuards
          (now+attempt.reporting)
        let s' := { s with
          breaker := answer.2
          now := now+attempt.reporting
          lastError := some err }
        if answer.1 = false then (.error (.message "Circuit breaker opened during retry"),s')
        else if p.isRetryable err = false then (.error (.operation err),s')
        else retryLoop p startTime attempts remaining { s' with
          now := s'.now+attempt.delay
          currentRetry := s.currentRetry+1
          totalTime := s'.now+attempt.delay-startTime }

def getCircuitBreaker (p : ExponentialRetryPolicy ε) (endpoint : String) (now : ℕ) :
    CircuitBreaker :=
  (p.circuitBreakers.lookup endpoint).getD
    (CircuitBreaker.new endpoint p.config.circuitBreaker now)

def retryAsync (p : ExponentialRetryPolicy ε) (now : ℕ) (endpoint : String)
    (attempts : ℕ → Attempt α ε) :
    Except (RetryError ε) α × ℕ × ExponentialRetryPolicy ε :=
  let answer := (p.getCircuitBreaker endpoint now).canExecute ownGuards now
  let r := if answer.1 = false then
      (.error (.message s!"Circuit breaker is open for endpoint: {endpoint}"),
        ⟨answer.2,now,0,0,none⟩)
    else p.retryLoop now attempts p.config.maxRetries ⟨answer.2,now,0,0,none⟩
  (r.1,r.2.now,{ p with circuitBreakers := p.circuitBreakers.insert endpoint r.2.breaker })

end ExponentialRetryPolicy

end DiamondBot
