import DiamondBot.Library.Substring
import Mathlib.Data.List.Basic

/-!
# Retries over fallback providers

An operation is tried on one provider after the other, on each of them again as
long as its errors may be retried and the retries are not used up. What it gives
at each call is an input.
-/

set_option autoImplicit false

namespace DiamondBot.ProviderFallback
open Library Substring

structure RetryConfig where
  maxRetries : ℕ
  initialRetryDelay : UInt64
  retryMultiplier : Float
  maxRetryDelay : UInt64
  retryableErrors : List String

def RetryConfig.default : RetryConfig where
  maxRetries := 5
  initialRetryDelay := 1000
  retryMultiplier := 1.5
  maxRetryDelay := 30000
  retryableErrors := ["timeout","connection refused","network error","rate limit exceeded",
    "nonce too low","underpriced"]

/-- The variables of the loops, the providers called and the waits in milliseconds. -/
structure Loop (Provider : Type) where
  lastError : Option String
  retryCount : ℕ
  delay : UInt64
  calls : List Provider
  waits : List UInt64

/-- `outcomes` gives what the operation returns, call by call. -/
structure Setting (T : Type) where
  config : RetryConfig
  toLowercase : String → String
  outcomes : ℕ → Except String T

namespace Setting

variable {T Provider : Type} (g : Setting T)

def canRetry (e : String) : Bool :=
  g.config.retryableErrors.any fun re => contains (g.toLowercase e) (g.toLowercase re)

def backoff (delay : UInt64) : UInt64 :=
  let delay := (delay.toFloat*g.config.retryMultiplier).toUInt64
  if delay > g.config.maxRetryDelay then g.config.maxRetryDelay else delay

def start : Loop Provider := ⟨none,0,g.config.initialRetryDelay,[],[]⟩

def called (s : Loop Provider) (provider : Provider) : Loop Provider :=
  { s with calls := s.calls++[provider] }

def failed (s : Loop Provider) (provider : Provider) (e : String) : Loop Provider :=
  if s.retryCount+1 < g.config.maxRetries then
    { called s provider with
      retryCount := s.retryCount+1
      lastError := some e
      waits := s.waits++[s.delay]
      delay := g.backoff s.delay }
  else { called s provider with retryCount := s.retryCount+1, lastError := some e }

@[simp] theorem failed_retryCount (s : Loop Provider) (provider : Provider) (e : String) :
    (g.failed s provider e).retryCount = s.retryCount+1 := by
  unfold failed
  split
  · rfl
  · rfl

@[simp] theorem failed_calls (s : Loop Provider) (provider : Provider) (e : String) :
    (g.failed s provider e).calls = s.calls++[provider] := by
  unfold failed
  split
  · rfl
  · rfl

@[simp] theorem failed_lastError (s : Loop Provider) (provider : Provider) (e : String) :
    (g.failed s provider e).lastError = some e := by
  unfold failed
  split
  · rfl
  · rfl

def tryProvider (provider : Provider) (s : Loop Provider) :
    Option (Except String T) × Loop Provider :=
  if s.retryCount < g.config.maxRetries then
    match g.outcomes s.calls.length with
    | .ok result => (some (.ok result),called s provider)
    | .error e =>
      if g.canRetry e then tryProvider provider (g.failed s provider e)
      else (some (.error e),called s provider)
  else (none,s)
termination_by g.config.maxRetries-s.retryCount
decreasing_by
  rw [failed_retryCount]
  omega

def tryProviders : List Provider → Loop Provider → Except String T × Loop Provider
  | [],s => (.error (s.lastError.getD "All providers failed"),s)
  | provider::providers,s =>
    match g.tryProvider provider s with
    | (some result,s') => (result,s')
    | (none,s') => tryProviders providers { s' with
        retryCount := 0
        delay := g.config.initialRetryDelay }

def retryWithFallbackProviders (providers : List Provider) : Except String T × Loop Provider :=
  g.tryProviders providers g.start

/-! ## What the calls are -/

def planned (providers : List Provider) : List Provider :=
  providers.flatMap (List.replicate g.config.maxRetries)

def Retryable (i : ℕ) : Prop := ∃ e, g.outcomes i = .error e ∧ g.canRetry e = true

def errorAt (i : ℕ) : Option String :=
  match g.outcomes i with
  | .ok _ => none
  | .error e => some e

def lastErrorOf : ℕ → Option String
  | 0 => none
  | n+1 => g.errorAt n

/-- The loops end with the outcome of the last call, which is the only one that is not to be
retried, or with the last error when all calls that were planned have been made. -/
inductive Ended (providers : List Provider) (calls : ℕ) : Except String T → Prop
  | stopped (k : ℕ) (hk : calls = k+1) (hstop : ¬g.Retryable k) :
      Ended providers calls (g.outcomes k)
  | exhausted (hcalls : calls = providers.length*g.config.maxRetries) :
      (∀ i < calls, g.Retryable i) →
      Ended providers calls (.error ((g.lastErrorOf calls).getD "All providers failed"))

def longest : ℕ := max g.config.initialRetryDelay.toNat g.config.maxRetryDelay.toNat

structure FallsBack (providers : List Provider) (result : Except String T)
    (s : Loop Provider) : Prop where
  calls : s.calls <+: g.planned providers
  retried : ∀ i, i+1 < s.calls.length → g.Retryable i
  ended : g.Ended providers s.calls.length result
  waits : ∀ w ∈ s.waits, w.toNat ≤ g.longest

/-! ## The loops -/

structure Going (s : Loop Provider) : Prop where
  failures : ∀ i < s.calls.length, g.Retryable i
  lastError : s.lastError = g.lastErrorOf s.calls.length
  delay : s.delay.toNat ≤ g.longest
  waits : ∀ w ∈ s.waits, w.toNat ≤ g.longest

variable {g} {s : Loop Provider} {provider : Provider}

theorem backoff_le (delay : UInt64) : (g.backoff delay).toNat ≤ g.longest := by
  unfold backoff longest
  dsimp only
  split
  · exact le_max_right _ _
  · next hle => exact (UInt64.le_iff_toNat_le.mp (UInt64.not_lt.mp hle)).trans (le_max_right _ _)

theorem start_going : g.Going (g.start : Loop Provider) where
  failures _ hi := absurd hi (Nat.not_lt_zero _)
  lastError := rfl
  delay := le_max_left _ _
  waits _ hw := absurd hw List.not_mem_nil

theorem failed_going (h : g.Going s) {e : String} (hfails : g.outcomes s.calls.length = .error e)
    (hretry : g.canRetry e = true) : g.Going (g.failed s provider e) where
  failures := by
    rw [failed_calls,List.length_append,List.length_singleton]
    intro i hi
    rcases Nat.lt_succ_iff_lt_or_eq.mp hi with hbefore | rfl
    · exact h.failures i hbefore
    · exact ⟨e,hfails,hretry⟩
  lastError := by
    rw [failed_lastError,failed_calls,List.length_append,List.length_singleton,lastErrorOf,errorAt,
      hfails]
  delay := by
    unfold failed
    split
    · exact backoff_le s.delay
    · exact h.delay
  waits := by
    unfold failed
    split
    · intro w hw
      rcases List.mem_append.mp hw with hbefore | hnew
      · exact h.waits w hbefore
      · rw [List.mem_singleton.mp hnew]
        exact h.delay
    · exact h.waits

def Made (g : Setting T) (done : List Provider) (provider : Provider) (s : Loop Provider) : Prop :=
  s.retryCount ≤ g.config.maxRetries ∧
    s.calls = g.planned done++List.replicate s.retryCount provider

theorem failed_made {done : List Provider} (h : g.Made done provider s)
    (hleft : s.retryCount < g.config.maxRetries) (e : String) :
    g.Made done provider (g.failed s provider e) := by
  constructor
  · rw [failed_retryCount]
    exact hleft
  · rw [failed_calls,failed_retryCount,h.2,List.append_assoc,List.replicate_succ']

theorem planned_append (done rest : List Provider) (provider : Provider) :
    g.planned (done++provider::rest) =
      g.planned done++List.replicate g.config.maxRetries provider++g.planned rest := by
  rw [planned,List.flatMap_append,List.flatMap_cons,List.append_assoc]
  rfl

theorem length_planned (providers : List Provider) :
    (g.planned providers).length = providers.length*g.config.maxRetries := by
  rw [planned,List.length_flatMap]
  simp

theorem called_fallsBack {done : List Provider} (h : g.Going s) (hmade : g.Made done provider s)
    (hleft : s.retryCount < g.config.maxRetries) (hstop : ¬g.Retryable s.calls.length)
    (rest : List Provider) :
    g.FallsBack (done++provider::rest) (g.outcomes s.calls.length) (called s provider) where
  calls := by
    have hinitial : List.replicate (s.retryCount+1) provider <+:
        List.replicate g.config.maxRetries provider :=
      ⟨List.replicate (g.config.maxRetries-(s.retryCount+1)) provider,by
        rw [← List.replicate_add,Nat.add_sub_cancel' hleft]⟩
    change s.calls++[provider] <+: _
    rw [hmade.2,List.append_assoc,← List.replicate_succ',planned_append,List.append_assoc]
    exact (List.prefix_append_right_inj _).mpr (hinitial.trans (List.prefix_append _ _))
  retried := by
    change ∀ i, i+1 < (s.calls++[provider]).length → _
    rw [List.length_append,List.length_singleton]
    exact fun i hi => h.failures i (by omega)
  ended := .stopped s.calls.length List.length_append hstop
  waits := h.waits

/-- Either the operation is over, or all the retries have been used up on the provider. -/
theorem tryProvider_spec {done : List Provider} (h : g.Going s) (hmade : g.Made done provider s) :
    (∃ result s', g.tryProvider provider s = (some result,s') ∧
        ∀ rest, g.FallsBack (done++provider::rest) result s') ∨
      ∃ s', g.tryProvider provider s = (none,s') ∧ g.Going s' ∧
        s'.calls = g.planned (done++[provider]) := by
  fun_induction tryProvider g provider s with
  | case1 s hleft result hok =>
    refine Or.inl ⟨_,_,rfl,fun rest => ?_⟩
    rw [← hok]
    apply called_fallsBack h hmade hleft
    rintro ⟨e,he,_⟩
    cases hok.symm.trans he
  | case2 s hleft e herror hretry ih =>
    exact ih (failed_going h herror hretry) (failed_made hmade hleft e)
  | case3 s hleft e herror hretry =>
    refine Or.inl ⟨_,_,rfl,fun rest => ?_⟩
    rw [← herror]
    apply called_fallsBack h hmade hleft
    rintro ⟨e',he',hretry'⟩
    cases herror.symm.trans he'
    exact hretry hretry'
  | case4 s hdone =>
    refine Or.inr ⟨_,rfl,h,?_⟩
    have hcount : s.retryCount = g.config.maxRetries := le_antisymm hmade.1 (not_lt.mp hdone)
    rw [hmade.2,hcount,planned_append]
    exact (List.append_nil _).symm

theorem tryProviders_fallsBack (done : List Provider) (h : g.Going s) (hcount : s.retryCount = 0)
    (hcalls : s.calls = g.planned done) (providers : List Provider) :
    g.FallsBack (done++providers) (g.tryProviders providers s).1
      (g.tryProviders providers s).2 := by
  induction providers generalizing done s with
  | nil =>
    rw [List.append_nil]
    refine ⟨by rw [tryProviders,hcalls],fun i hi => h.failures i ?_,?_,h.waits⟩
    · exact Nat.lt_of_succ_lt hi
    · rw [tryProviders,h.lastError]
      exact .exhausted (by rw [hcalls,length_planned]) h.failures
  | cons provider providers ih =>
    have hmade : g.Made done provider s := by
      rw [Made,hcount,hcalls]
      exact ⟨Nat.zero_le _,(List.append_nil _).symm⟩
    rcases tryProvider_spec h hmade with ⟨result,s',heq,hends⟩ | ⟨s',heq,hgoing,hcalls'⟩
    · rw [tryProviders,heq]
      exact hends providers
    · rw [tryProviders,heq]
      have hnext : g.Going { s' with retryCount := 0, delay := g.config.initialRetryDelay } :=
        ⟨hgoing.failures,hgoing.lastError,le_max_left _ _,hgoing.waits⟩
      have hrest := ih (done++[provider]) hnext rfl hcalls'
      rwa [List.append_assoc] at hrest

/-- Each provider is called until one call succeeds or fails for good, as often as the
retries allow. -/
theorem retry_fallsBack (g : Setting T) (providers : List Provider) :
    g.FallsBack providers (g.retryWithFallbackProviders providers).1
      (g.retryWithFallbackProviders providers).2 :=
  tryProviders_fallsBack [] start_going rfl rfl providers

end Setting

end DiamondBot.ProviderFallback
