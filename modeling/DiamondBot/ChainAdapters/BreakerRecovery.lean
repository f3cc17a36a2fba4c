import DiamondBot.ChainAdapters.RetryPolicy
import DiamondBot.Library.AtomicRun

/-!
# Recovery of the breaker

To leave the open state the breaker has to write its state, and it tries to do
so while it still holds the guard it has read the state with. The attempt is
refused, so a breaker that has opened admits no request again, and it stays
usable exactly as long as it never opens.
-/

set_option autoImplicit false

namespace DiamondBot
open Library

/-! ## The breaker under its own guards -/

namespace CircuitBreaker

theorem canExecute_closed {b : CircuitBreaker} (now : ℕ) (h : b.state = .closed) :
    b.canExecute ownGuards now = (true,b) := by
  simp only [canExecute,h]
  rfl

theorem canExecute_opened {b : CircuitBreaker} (now : ℕ) (h : b.state = .opened) :
    b.canExecute ownGuards now = (false,b) := by
  have hwrite : ownGuards [.read .lastStateChange,.read .state] (.write .state) = false := rfl
  simp only [canExecute,tryHalfOpen,h,hwrite]
  split
  · split
    · split <;> rfl
    · rfl
  · rfl

theorem recordSuccess_closed {b : CircuitBreaker} (now : ℕ) (h : b.state = .closed) :
    b.recordSuccess now = b := by
  have hnot : ¬(b.state = .halfOpen ∧ b.config.halfOpenAllowedRequests.toNat ≤
      b.halfOpenRequests) := by
    rw [h]
    rintro ⟨⟨⟩,_⟩
  exact if_neg hnot

theorem recordFailure_closed {b : CircuitBreaker} (now : ℕ) (h : b.state = .closed)
    (hroom : b.errorCount+1 < 2^64) :
    b.errorCount+1 < b.config.errorThreshold.toNat ∧
        b.recordFailure ownGuards now = b.counted now ∨
      b.config.errorThreshold.toNat ≤ b.errorCount+1 ∧
        b.recordFailure ownGuards now = b.opened now := by
  have hmod := Nat.mod_eq_of_lt hroom
  rcases Nat.lt_or_ge (b.errorCount+1) b.config.errorThreshold.toNat with hbelow | hreached
  · exact Or.inl ⟨hbelow,recordFailure_below (fun _ => rfl) now h (by rwa [hmod])⟩
  · exact Or.inr ⟨hreached,recordFailure_reached (fun _ => rfl) rfl now h (by rwa [hmod])⟩

def Bears (b : CircuitBreaker) (failures : ℕ) : Prop :=
  failures = 0 ∨ b.errorCount+failures < b.config.errorThreshold.toNat

structure Usable (b : CircuitBreaker) : Prop where
  closed : b.state = .closed
  counted : b.errorCount ≤ b.config.errorThreshold.toNat

structure Meets (b : CircuitBreaker) (failures : ℕ) (b' : CircuitBreaker) : Prop where
  config : b'.config = b.config
  borne : b.Bears failures → b'.Usable
  opened : ¬b.Bears failures → b'.state = .opened

theorem meets_none {b : CircuitBreaker} (h : b.Usable) : b.Meets 0 b :=
  ⟨rfl,fun _ => h,fun hnot => absurd (Or.inl rfl) hnot⟩

theorem usable_room {b : CircuitBreaker} (h : b.Usable) : b.errorCount+1 < 2^64 := by
  have hthreshold := b.config.errorThreshold.toNat_lt
  have hcounted := h.counted
  omega

end CircuitBreaker

/-! ## One call -/

namespace ExponentialRetryPolicy
open CircuitBreaker

variable {α ε : Type}

def failuresOf (p : ExponentialRetryPolicy ε) (startTime : ℕ) (attempts : ℕ → Attempt α ε) :
    ℕ → ℕ → ℕ → ℕ → ℕ
  | 0,_,_,_ => 0
  | remaining+1,currentRetry,totalTime,now =>
    if timeUsedUp p.config totalTime then 0
    else
      let attempt := attempts currentRetry
      match attempt.result with
      | .ok _ => 0
      | .error err =>
        if p.isRetryable err = false then 1
        else
          let now := now+attempt.duration+attempt.reporting+attempt.delay
          p.failuresOf startTime attempts remaining (currentRetry+1) (now-startTime) now+1

theorem counted_usable {b : CircuitBreaker} (now : ℕ) (h : b.Usable)
    (hbelow : b.errorCount+1 < b.config.errorThreshold.toNat) : (b.counted now).Usable := by
  refine ⟨h.closed,?_⟩
  change (b.errorCount+1) % 2^64 ≤ b.config.errorThreshold.toNat
  rw [Nat.mod_eq_of_lt (usable_room h)]
  omega

theorem meets_counted {b b' : CircuitBreaker} {now failures : ℕ} (h : b.Usable)
    (hbelow : b.errorCount+1 < b.config.errorThreshold.toNat)
    (hmeets : (b.counted now).Meets failures b') : b.Meets (failures+1) b' := by
  have hbears : (b.counted now).Bears failures ↔ b.Bears (failures+1) := by
    change failures = 0 ∨ (b.errorCount+1) % 2^64+failures < b.config.errorThreshold.toNat ↔
      failures+1 = 0 ∨ b.errorCount+(failures+1) < b.config.errorThreshold.toNat
    rw [Nat.mod_eq_of_lt (usable_room h)]
    omega
  exact ⟨hmeets.config,fun hb => hmeets.borne (hbears.mpr hb),
    fun hb => hmeets.opened fun hb' => hb (hbears.mp hb')⟩

theorem meets_reached {b : CircuitBreaker} {failures : ℕ} (now : ℕ)
    (hreached : b.config.errorThreshold.toNat ≤ b.errorCount+1) :
    b.Meets (failures+1) (b.opened now) := by
  refine ⟨rfl,fun hbears => ?_,fun _ => rfl⟩
  unfold Bears at hbears
  omega

/-- A call leaves a usable breaker usable or opens it, by the number of the
failures it runs into. -/
theorem retryLoop_meets (p : ExponentialRetryPolicy ε) (startTime : ℕ)
    (attempts : ℕ → Attempt α ε) (remaining : ℕ) {s : RetryLoop ε} (h : s.breaker.Usable) :
    s.breaker.Meets (p.failuresOf startTime attempts remaining s.currentRetry s.totalTime s.now)
      (p.retryLoop startTime attempts remaining s).2.breaker := by
  induction remaining generalizing s with
  | zero => exact meets_none h
  | succ remaining ih =>
    by_cases htime : timeUsedUp p.config s.totalTime = true
    · simp only [retryLoop,failuresOf,if_pos htime]
      exact meets_none h
    · simp only [retryLoop,failuresOf,if_neg htime]
      cases hresult : (attempts s.currentRetry).result with
      | ok value =>
        simp only [recordSuccess_closed _ h.closed,ite_self]
        exact meets_none h
      | error err =>
        rcases recordFailure_closed (s.now+(attempts s.currentRetry).duration) h.closed
          (usable_room h) with ⟨hbelow,hfail⟩ | ⟨hreached,hfail⟩
        · have husable := counted_usable (s.now+(attempts s.currentRetry).duration) h hbelow
          simp only [hfail,canExecute_closed _ husable.closed,Bool.true_eq_false,if_false]
          by_cases hretry : p.isRetryable err = false
          · simp only [if_pos hretry]
            exact meets_counted h hbelow (meets_none husable)
          · simp only [if_neg hretry]
            exact meets_counted h hbelow (ih (s := ⟨_,_,_,_,_⟩) husable)
        · have hopened : (s.breaker.opened (s.now+(attempts s.currentRetry).duration)).state =
            .opened := rfl
          simp only [hfail,canExecute_opened _ hopened]
          by_cases hretry : p.isRetryable err = false
          · simp only [if_pos hretry]
            exact meets_reached _ hreached
          · simp only [if_neg hretry]
            exact meets_reached _ hreached

/-! ## One call after another -/

structure Driver (ε : Type) where
  policy : ExponentialRetryPolicy ε
  now : ℕ

inductive Action (α ε : Type)
  | retryAsync (endpoint : String) (attempts : ℕ → Attempt α ε)
  | wait (duration : ℕ)

namespace Driver

def start (config : RetryPolicyConfig) (isRetryable : ε → Bool) (now : ℕ) : Driver ε :=
  ⟨⟨config,isRetryable,∅⟩,now⟩

def next (s : Driver ε) : Action α ε → Driver ε
  | .retryAsync endpoint attempts =>
    ⟨(s.policy.retryAsync s.now endpoint attempts).2.2,
      (s.policy.retryAsync s.now endpoint attempts).2.1⟩
  | .wait duration => { s with now := s.now+duration }

/-- A request made when the open duration has passed since the last change of
state, now or later, is admitted. -/
def Recovers (s : Driver ε) : Prop :=
  ∀ endpoint b, s.policy.circuitBreakers.lookup endpoint = some b → ∀ t ≥ s.now,
    b.config.openDuration.toNat*10^6 ≤ t-b.lastStateChange → (b.canExecute ownGuards t).1 = true

/-- The failures the call runs into, with those counted before, do not reach
the threshold. -/
def BelowThreshold (s : Driver ε) : Action α ε → Prop
  | .retryAsync endpoint attempts => (s.policy.getCircuitBreaker endpoint s.now).Bears
      (s.policy.failuresOf s.now attempts s.policy.config.maxRetries 0 0 s.now)
  | .wait _ => True

def AllUsable (s : Driver ε) : Prop :=
  ∀ endpoint b, s.policy.circuitBreakers.lookup endpoint = some b → b.Usable

def NoneHalfOpen (s : Driver ε) : Prop :=
  ∀ endpoint b, s.policy.circuitBreakers.lookup endpoint = some b →
    b.Usable ∨ b.state = .opened

theorem recovers_iff {s : Driver ε} (h : s.NoneHalfOpen) : s.Recovers ↔ s.AllUsable := by
  constructor
  · intro hrecovers endpoint b hb
    rcases h endpoint b hb with husable | hopened
    · exact husable
    · have hadmits := hrecovers endpoint b hb
        (max s.now (b.config.openDuration.toNat*10^6+b.lastStateChange)) (le_max_left _ _)
        (by omega)
      rw [canExecute_opened _ hopened] at hadmits
      cases hadmits
  · intro husable endpoint b hb t _ _
    rw [canExecute_closed t (husable endpoint b hb).closed]

theorem getCircuitBreaker_usable {s : Driver ε} (endpoint : String) (h : s.AllUsable) :
    (s.policy.getCircuitBreaker endpoint s.now).Usable := by
  unfold getCircuitBreaker
  cases hb : s.policy.circuitBreakers.lookup endpoint with
  | none => exact ⟨rfl,Nat.zero_le _⟩
  | some b => exact h endpoint b hb

theorem next_breakers {s : Driver ε} (endpoint : String) (attempts : ℕ → Attempt α ε)
    (h : s.AllUsable) : ∃ b, (s.policy.getCircuitBreaker endpoint s.now).Meets
        (s.policy.failuresOf s.now attempts s.policy.config.maxRetries 0 0 s.now) b ∧
      (s.next (.retryAsync endpoint attempts)).policy.circuitBreakers =
        s.policy.circuitBreakers.insert endpoint b := by
  have husable := getCircuitBreaker_usable endpoint h
  have hmeets := retryLoop_meets s.policy s.now attempts s.policy.config.maxRetries
    (s := ⟨s.policy.getCircuitBreaker endpoint s.now,s.now,0,0,none⟩) husable
  refine ⟨_,hmeets,?_⟩
  simp only [next,retryAsync,canExecute_closed _ husable.closed,Bool.true_eq_false,if_false]

theorem next_recovers_iff {s : Driver ε} (a : Action α ε) (h : s.NoneHalfOpen)
    (hs : s.Recovers) : (s.next a).NoneHalfOpen ∧ ((s.next a).Recovers ↔ s.BelowThreshold a) := by
  have husable := (recovers_iff h).mp hs
  cases a with
  | wait duration =>
    have hnone : (s.next (.wait duration : Action α ε)).NoneHalfOpen := h
    exact ⟨hnone,iff_of_true ((recovers_iff hnone).mpr husable) trivial⟩
  | retryAsync endpoint attempts =>
    obtain ⟨b,hmeets,hbreakers⟩ := next_breakers endpoint attempts husable
    have hlookup : ∀ d b', (s.next (.retryAsync endpoint attempts)).policy.circuitBreakers.lookup
        d = some b' → d = endpoint ∧ b' = b ∨ b'.Usable := by
      intro d b' hb'
      rw [hbreakers] at hb'
      by_cases hd : d = endpoint
      · subst hd
        rw [AList.lookup_insert] at hb'
        exact Or.inl ⟨rfl,(Option.some.inj hb').symm⟩
      · rw [AList.lookup_insert_ne hd] at hb'
        exact Or.inr (husable d b' hb')
    have hnone : (s.next (.retryAsync endpoint attempts)).NoneHalfOpen := by
      intro d b' hb'
      rcases hlookup d b' hb' with ⟨_,rfl⟩ | hother
      · by_cases hbears : (s.policy.getCircuitBreaker endpoint s.now).Bears
          (s.policy.failuresOf s.now attempts s.policy.config.maxRetries 0 0 s.now)
        · exact Or.inl (hmeets.borne hbears)
        · exact Or.inr (hmeets.opened hbears)
      · exact Or.inl hother
    refine ⟨hnone,(recovers_iff hnone).trans ⟨fun hall => ?_,fun hbears d b' hb' => ?_⟩⟩
    · by_contra hbears
      have hb := hall endpoint b (by rw [hbreakers,AList.lookup_insert])
      have hopened := hmeets.opened hbears
      rw [hb.closed] at hopened
      cases hopened
    · rcases hlookup d b' hb' with ⟨_,rfl⟩ | hother
      · exact hmeets.borne hbears
      · exact hother

/-! ## All runs -/

/-- Over any calls made one after another the breakers recover exactly when the
failures of every call, with those its breaker has counted, stay below the
threshold: no breaker that has opened ever admits a request again. -/
theorem recovers_iff_below (config : RetryPolicyConfig) (isRetryable : ε → Bool) (now : ℕ)
    (actions : List (Action α ε)) :
    AtomicRun.Throughout next Recovers actions (start config isRetryable now) ↔
      AtomicRun.Along next BelowThreshold actions (start config isRetryable now) := by
  apply AtomicRun.throughout_iff_along_of (J := NoneHalfOpen)
    (fun s a h hs _ => (next_recovers_iff a h hs).1)
    (fun s a h hs _ => (next_recovers_iff a h hs).2) _ _ (AtomicRun.along_trivial actions _)
  · rintro endpoint b ⟨⟩
  · rintro endpoint b ⟨⟩

def timedOut : ℕ → Attempt Unit String :=
  fun _ => ⟨.error "timeout",0,0,10^9⟩

def endpointDown : List (Action Unit String) :=
  [.retryAsync "rpc" timedOut,.retryAsync "rpc" timedOut,.wait (400*10^9)]

/-- The endpoint may be back, but its breaker refuses for ever. -/
theorem opened_refuses_for_ever :
    (∃ b, (AtomicRun.run next endpointDown (start RetryPolicyConfig.default (fun _ => true)
        0)).policy.circuitBreakers.lookup "rpc" = some b ∧
      ∀ t, (b.canExecute ownGuards t).1 = false) ∧
    ¬AtomicRun.Throughout next Recovers endpointDown
      (start RetryPolicyConfig.default (fun _ => true) 0) := by
  have hstate : ((AtomicRun.run next endpointDown (start RetryPolicyConfig.default (fun _ => true)
      0)).policy.circuitBreakers.lookup "rpc").map CircuitBreaker.state = some .opened := by
    decide
  obtain ⟨b,hb,hopened⟩ := Option.map_eq_some_iff.mp hstate
  have hrefuses : ∀ t, (b.canExecute ownGuards t).1 = false := by
    intro t
    rw [canExecute_opened t hopened]
  refine ⟨⟨b,hb,hrefuses⟩,fun h => ?_⟩
  have hadmits := AtomicRun.throughout_last h "rpc" b hb
    (max _ (b.config.openDuration.toNat*10^6+b.lastStateChange)) (le_max_left _ _) (by omega)
  rw [hrefuses] at hadmits
  cases hadmits

end Driver

end ExponentialRetryPolicy

end DiamondBot
