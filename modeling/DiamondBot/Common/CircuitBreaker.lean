import DiamondBot.Library.AtomicRun
import Mathlib.Algebra.Order.Ring.Nat

/-!
# The common circuit breaker

The breaker shared by all services opens at a failure and spawns a timer that
makes it half-open later. Callers and timers meet at the one lock of its state,
so each call and each firing is a step. Beside it runs the breaker its
documentation describes, which counts failures in a row and opens again at a
failure while half-open. Instants are nanoseconds.
-/

set_option autoImplicit false

namespace DiamondBot.Common
open Library

inductive CircuitBreakerState
  | closed
  | opened
  | halfOpen
  deriving DecidableEq

/-- The threshold counts failures, the timeout milliseconds. -/
structure CircuitBreaker where
  failureThreshold : UInt32
  resetTimeout : UInt64
  state : CircuitBreakerState
  deriving DecidableEq

namespace CircuitBreaker

def new (failureThreshold : UInt32) (resetTimeout : UInt64) : CircuitBreaker where
  failureThreshold
  resetTimeout
  state := .closed

def canExecute (b : CircuitBreaker) : Bool := b.state ≠ .opened

def onSuccess (b : CircuitBreaker) : CircuitBreaker :=
  if b.state = .halfOpen then { b with state := .closed } else b

def onFailure (b : CircuitBreaker) : CircuitBreaker × Option ℕ :=
  if b.state = .closed then
    ({ b with state := .opened },some (b.resetTimeout.toNat*10^6))
  else (b,none)

def timerFired (b : CircuitBreaker) : CircuitBreaker :=
  { b with state := .halfOpen }

end CircuitBreaker

/-! ## The breaker of the documentation -/

inductive ReferenceState
  | closed (failures : ℕ)
  | opened (since : ℕ)
  | halfOpen
  deriving DecidableEq

structure ReferenceBreaker where
  threshold : ℕ
  timeout : ℕ
  state : ReferenceState
  deriving DecidableEq

namespace ReferenceBreaker

def refuses (r : ReferenceBreaker) : Bool :=
  match r.state with
  | .opened _ => true
  | _ => false

def success (r : ReferenceBreaker) : ReferenceBreaker :=
  match r.state with
  | .closed _ => { r with state := .closed 0 }
  | .halfOpen => { r with state := .closed 0 }
  | .opened _ => r

def failure (r : ReferenceBreaker) (now : ℕ) : ReferenceBreaker :=
  match r.state with
  | .closed failures =>
    if r.threshold ≤ failures+1 then { r with state := .opened now }
    else { r with state := .closed (failures+1) }
  | .halfOpen => { r with state := .opened now }
  | .opened _ => r

def elapse (r : ReferenceBreaker) (due : ℕ → Bool) : ReferenceBreaker :=
  match r.state with
  | .opened since => if due (since+r.timeout) then { r with state := .halfOpen } else r
  | _ => r

end ReferenceBreaker

/-! ## Callers, timers and time -/

structure BreakerSystem where
  breaker : CircuitBreaker
  timers : List ℕ
  reference : ReferenceBreaker
  now : ℕ

/-- A call of some task, or time: what is due at an instant happens before or
after the calls of that instant, but before the clock moves on. -/
inductive BreakerAction
  | canExecute
  | onSuccess
  | onFailure
  | elapse
  | wait (duration : ℕ)

namespace BreakerSystem

def start (failureThreshold : UInt32) (resetTimeout : UInt64) (now : ℕ) : BreakerSystem where
  breaker := CircuitBreaker.new failureThreshold resetTimeout
  timers := []
  reference := ⟨failureThreshold.toNat,resetTimeout.toNat*10^6,.closed 0⟩
  now

def fire (s : BreakerSystem) (due : ℕ → Bool) : BreakerSystem := { s with
  breaker := if s.timers.any due then s.breaker.timerFired else s.breaker
  timers := s.timers.filter fun time => !due time
  reference := s.reference.elapse due }

def next (s : BreakerSystem) : BreakerAction → BreakerSystem
  | .canExecute => s
  | .onSuccess => { s with
      breaker := s.breaker.onSuccess
      reference := s.reference.success }
  | .onFailure => { s with
      breaker := s.breaker.onFailure.1
      timers := s.timers++(s.breaker.onFailure.2.map fun sleep => s.now+sleep).toList
      reference := s.reference.failure s.now }
  | .elapse => s.fire fun time => time ≤ s.now
  | .wait duration =>
    { s.fire (fun time => time < s.now+duration) with now := s.now+duration }

/-- At this moment the breaker refuses exactly when the reference does. -/
def Agrees (s : BreakerSystem) : Prop := s.breaker.canExecute = !s.reference.refuses

/-- A failure finds the breaker closed only if one failure is to open it, and
never finds it half-open. -/
def FailsAsDocumented (s : BreakerSystem) : BreakerAction → Prop
  | .onFailure => (s.breaker.state = .closed → s.breaker.failureThreshold.toNat ≤ 1) ∧
      s.breaker.state ≠ .halfOpen
  | _ => True

/-! ## How the two go together -/

inductive Tracks (timeout : ℕ) : CircuitBreakerState → List ℕ → ReferenceState → Prop
  | closed : Tracks timeout .closed [] (.closed 0)
  | opened (since : ℕ) : Tracks timeout .opened [since+timeout] (.opened since)
  | halfOpen : Tracks timeout .halfOpen [] .halfOpen

structure Matched (s : BreakerSystem) : Prop where
  threshold : s.reference.threshold = s.breaker.failureThreshold.toNat
  timeout : s.reference.timeout = s.breaker.resetTimeout.toNat*10^6
  tracks : Tracks s.reference.timeout s.breaker.state s.timers s.reference.state

theorem agrees_of_matched {s : BreakerSystem} (h : s.Matched) : s.Agrees := by
  obtain ⟨⟨_,_,state⟩,timers,⟨_,_,reference⟩,now⟩ := s
  obtain ⟨_,_,ht⟩ := h
  dsimp only at ht
  cases ht with
  | closed => rfl
  | opened since => rfl
  | halfOpen => rfl

theorem fire_matched {s : BreakerSystem} (h : s.Matched) (due : ℕ → Bool) :
    (s.fire due).Matched := by
  obtain ⟨⟨threshold,timeout,state⟩,timers,⟨rthreshold,rtimeout,reference⟩,now⟩ := s
  obtain ⟨hthreshold,htimeout,ht⟩ := h
  dsimp only at ht
  cases ht with
  | closed => exact ⟨hthreshold,htimeout,.closed⟩
  | opened since =>
    by_cases hdue : due (since+rtimeout) = true
    · simp only [fire,List.any_cons,List.any_nil,hdue,Bool.or_false,if_true,ReferenceBreaker.elapse,
        List.filter_cons,List.filter_nil,Bool.not_true,Bool.false_eq_true,if_false]
      exact ⟨hthreshold,htimeout,.halfOpen⟩
    · rw [Bool.not_eq_true] at hdue
      simp only [fire,List.any_cons,List.any_nil,hdue,Bool.or_false,ReferenceBreaker.elapse,
        List.filter_cons,List.filter_nil,Bool.not_false,Bool.false_eq_true,if_false,if_true]
      exact ⟨hthreshold,htimeout,.opened since⟩
  | halfOpen => exact ⟨hthreshold,htimeout,.halfOpen⟩

theorem onSuccess_matched {s : BreakerSystem} (h : s.Matched) : (s.next .onSuccess).Matched := by
  obtain ⟨⟨threshold,timeout,state⟩,timers,⟨rthreshold,rtimeout,reference⟩,now⟩ := s
  obtain ⟨hthreshold,htimeout,ht⟩ := h
  dsimp only at ht
  cases ht with
  | closed => exact ⟨hthreshold,htimeout,.closed⟩
  | opened since => exact ⟨hthreshold,htimeout,.opened since⟩
  | halfOpen => exact ⟨hthreshold,htimeout,.closed⟩

/-- A failure keeps the two together or sets them apart at once. -/
theorem onFailure_matched {s : BreakerSystem} (h : s.Matched) :
    (s.FailsAsDocumented .onFailure → (s.next .onFailure).Matched) ∧
      ((s.next .onFailure).Agrees → s.FailsAsDocumented .onFailure) := by
  obtain ⟨⟨threshold,timeout,state⟩,timers,⟨rthreshold,rtimeout,reference⟩,now⟩ := s
  obtain ⟨hthreshold,htimeout,ht⟩ := h
  dsimp only at hthreshold htimeout ht
  subst hthreshold htimeout
  cases ht with
  | closed =>
    by_cases hone : threshold.toNat ≤ 1
    · refine ⟨fun _ => ⟨?_,?_,?_⟩,fun _ => ⟨fun _ => hone,fun hh => (nomatch hh)⟩⟩
      · simp only [next,ReferenceBreaker.failure,Nat.zero_add,if_pos hone]
        rfl
      · simp only [next,ReferenceBreaker.failure,Nat.zero_add,if_pos hone]
        rfl
      · simp only [next,ReferenceBreaker.failure,Nat.zero_add,if_pos hone]
        exact .opened now
    · refine ⟨fun hdoc => absurd (hdoc.1 rfl) hone,fun hagrees => ?_⟩
      simp only [Agrees,next,ReferenceBreaker.failure,Nat.zero_add,if_neg hone] at hagrees
      cases hagrees
  | opened since =>
    exact ⟨fun _ => ⟨rfl,rfl,.opened since⟩,
      fun _ => ⟨fun hc => (nomatch hc),fun hh => (nomatch hh)⟩⟩
  | halfOpen => exact ⟨fun hdoc => absurd rfl hdoc.2,fun hagrees => (nomatch hagrees)⟩

theorem next_matched {s : BreakerSystem} (a : BreakerAction) (h : s.Matched) :
    (s.FailsAsDocumented a → (s.next a).Matched) ∧
      ((s.next a).Agrees → s.FailsAsDocumented a) := by
  cases a with
  | canExecute => exact ⟨fun _ => h,fun _ => trivial⟩
  | onSuccess => exact ⟨fun _ => onSuccess_matched h,fun _ => trivial⟩
  | onFailure => exact onFailure_matched h
  | elapse => exact ⟨fun _ => fire_matched h _,fun _ => trivial⟩
  | wait duration =>
    have hfire := fire_matched h fun time => time < s.now+duration
    exact ⟨fun _ => ⟨hfire.threshold,hfire.timeout,hfire.tracks⟩,fun _ => trivial⟩

/-! ## All runs -/

/-- In every interleaving of calls and timers the breaker refuses exactly when
the documented one does, if and only if every failure that finds it closed is
enough to open it and none finds it half-open. -/
theorem agrees_throughout_iff (failureThreshold : UInt32) (resetTimeout : UInt64) (now : ℕ)
    (actions : List BreakerAction) :
    AtomicRun.Throughout next Agrees actions (start failureThreshold resetTimeout now) ↔
      AtomicRun.Along next FailsAsDocumented actions (start failureThreshold resetTimeout now) := by
  have hstart : (start failureThreshold resetTimeout now).Matched := ⟨rfl,rfl,.closed⟩
  apply AtomicRun.throughout_iff_along_of (J := fun s => s.Agrees → s.Matched)
    (A := fun _ _ => True)
  · intro s a hs hagrees _ hnext
    obtain ⟨hkeeps,hdoc⟩ := next_matched a (hs hagrees)
    exact hkeeps (hdoc hnext)
  · intro s a hs hagrees _
    obtain ⟨hkeeps,hdoc⟩ := next_matched a (hs hagrees)
    exact ⟨hdoc,fun h => agrees_of_matched (hkeeps h)⟩
  · exact fun _ => hstart
  · exact agrees_of_matched hstart
  · exact AtomicRun.along_trivial actions _

/-- One failure opens a breaker whose threshold is three, and a failure while
half-open leaves a breaker half-open whatever its threshold. -/
theorem breaker_disagrees :
    ¬AtomicRun.Throughout next Agrees [.onFailure] (start 3 1000 0) ∧
    ¬AtomicRun.Throughout next Agrees [.onFailure,.wait (1000*10^6),.elapse,.onFailure]
      (start 1 1000 0) := by
  constructor
  · rintro ⟨_,hopened⟩
    exact nomatch hopened
  · rintro ⟨_,_,_,_,hreopened⟩
    exact nomatch hreopened

end BreakerSystem

end DiamondBot.Common
