import Mathlib.Algebra.BigOperators.Group.List.Basic
import Mathlib.Algebra.Order.Ring.Nat

/-!
# The retry policy of the common crate

One run calls its function until it succeeds or the retries are used up and
then adds what happened to the metrics. What the function gives at each call,
the random numbers and the time a run takes are inputs of the run.
-/

set_option autoImplicit false

namespace DiamondBot.RetryStatistics

structure RetryConfig where
  maxRetries : UInt32
  initialDelay : UInt64
  maxDelay : UInt64
  jitter : Float
  backoffFactor : Float
  enabled : Bool

def RetryConfig.default : RetryConfig where
  maxRetries := 5
  initialDelay := 100
  maxDelay := 10000
  jitter := 0.1
  backoffFactor := 2.0
  enabled := true

structure RetryMetrics where
  totalRetries : UInt64
  successfulRetries : UInt64
  failedRetries : UInt64
  totalTime : ℕ
  averageRetries : Float

def RetryMetrics.default : RetryMetrics := ⟨0,0,0,0,0⟩

structure RetryStats where
  totalAttempts : UInt64
  successfulAttempts : UInt64
  failedAttempts : UInt64
  averageRetries : Float
  timestamp : UInt64

structure RetryPolicy where
  config : RetryConfig
  metrics : RetryMetrics

structure Failure (E : Type) where
  error : E
  context : Option String

structure Run (T E : Type) where
  outcomes : ℕ → Except E T
  random : ℕ → Float
  elapsed : ℕ

/-- The variables of the loop, with the calls made and the waits in milliseconds. -/
structure Loop where
  retries : ℕ
  delay : UInt64
  calls : ℕ
  waits : List UInt64

variable {T E : Type}

def Loop.called (s : Loop) : Loop := { s with calls := s.calls+1 }

def Loop.retried (config : RetryConfig) (random : Float) (s : Loop) : Loop where
  retries := s.retries+1
  delay := min (s.delay.toFloat*config.backoffFactor).toUInt64 config.maxDelay
  calls := s.calls+1
  waits := s.waits++[(s.delay.toFloat*(1.0+random*config.jitter)).toUInt64]

def loop (config : RetryConfig) (run : Run T E) (s : Loop) : Except (Failure E) T×Loop :=
  match run.outcomes s.calls with
  | .ok result => (.ok result,s.called)
  | .error e =>
    if config.maxRetries.toNat ≤ s.retries then
      (.error ⟨e,some s!"Failed after {s.retries} retries"⟩,s.called)
    else loop config run (s.retried config (run.random s.retries))
termination_by config.maxRetries.toNat-s.retries
decreasing_by
  change config.maxRetries.toNat-(s.retries+1) < _
  omega

def RetryMetrics.succeeded (m : RetryMetrics) (retries elapsed : ℕ) : RetryMetrics :=
  let m := { m with
    totalRetries := m.totalRetries+.ofNat retries
    successfulRetries := m.successfulRetries+1
    totalTime := m.totalTime+elapsed }
  if m.successfulRetries > 0 then
    { m with averageRetries := m.totalRetries.toFloat/m.successfulRetries.toFloat }
  else m

@[simp] theorem RetryMetrics.succeeded_totalRetries (m : RetryMetrics) (retries elapsed : ℕ) :
    (m.succeeded retries elapsed).totalRetries = m.totalRetries+.ofNat retries := by
  unfold succeeded
  dsimp only
  split <;> rfl

@[simp] theorem RetryMetrics.succeeded_successfulRetries (m : RetryMetrics)
    (retries elapsed : ℕ) :
    (m.succeeded retries elapsed).successfulRetries = m.successfulRetries+1 := by
  unfold succeeded
  dsimp only
  split <;> rfl

@[simp] theorem RetryMetrics.succeeded_failedRetries (m : RetryMetrics) (retries elapsed : ℕ) :
    (m.succeeded retries elapsed).failedRetries = m.failedRetries := by
  unfold succeeded
  dsimp only
  split <;> rfl

def RetryMetrics.failed (m : RetryMetrics) (retries elapsed : ℕ) : RetryMetrics :=
  { m with
    totalRetries := m.totalRetries+.ofNat retries
    failedRetries := m.failedRetries+1
    totalTime := m.totalTime+elapsed }

namespace RetryPolicy

def new (config : RetryConfig) : RetryPolicy := ⟨config,.default⟩

def retry (p : RetryPolicy) (run : Run T E) : Except (Failure E) T×ℕ×RetryPolicy :=
  if p.config.enabled = false then
    match run.outcomes 0 with
    | .ok result => (.ok result,1,p)
    | .error e => (.error ⟨e,none⟩,1,p)
  else
    match loop p.config run ⟨0,p.config.initialDelay,0,[]⟩ with
    | (.ok result,s) =>
      (.ok result,s.calls,{ p with metrics := p.metrics.succeeded s.retries run.elapsed })
    | (.error e,s) =>
      (.error e,s.calls,{ p with metrics := p.metrics.failed s.retries run.elapsed })

def getStats (p : RetryPolicy) (now : UInt64) : RetryStats where
  totalAttempts := p.metrics.totalRetries+p.metrics.successfulRetries
  successfulAttempts := p.metrics.successfulRetries
  failedAttempts := p.metrics.failedRetries
  averageRetries := p.metrics.averageRetries
  timestamp := now

end RetryPolicy

/-! ## Several runs of one policy -/

/-- The policy, with all calls of the functions and what the runs returned. -/
structure Served (T E : Type) where
  policy : RetryPolicy
  calls : ℕ
  results : List (Except (Failure E) T)

namespace Served

def begin (config : RetryConfig) : Served T E := ⟨.new config,0,[]⟩

def serve (s : Served T E) (run : Run T E) : Served T E :=
  match s.policy.retry run with
  | (result,calls,policy) => ⟨policy,s.calls+calls,s.results++[result]⟩

def serveAll (config : RetryConfig) (runs : List (Run T E)) : Served T E :=
  runs.foldl serve (begin config)

def successes (s : Served T E) : ℕ := s.results.countP Except.isOk

def failures (s : Served T E) : ℕ := s.results.countP fun result => !result.isOk

structure Accurate (s : Served T E) (now : UInt64) : Prop where
  total : (s.policy.getStats now).totalAttempts.toNat = s.calls
  successful : (s.policy.getStats now).successfulAttempts.toNat = s.successes
  failed : (s.policy.getStats now).failedAttempts.toNat = s.failures

end Served

/-! ## One run -/

def Run.firstOk (run : Run T E) (n : ℕ) : ℕ :=
  (List.range n).findIdx fun i => (run.outcomes i).isOk

/-- The function succeeds at the first call or at a retry. -/
def Run.Succeeds (run : Run T E) (n : ℕ) : Prop := ∃ i ≤ n, (run.outcomes i).isOk = true

theorem Run.firstOk_eq {run : Run T E} {k n : ℕ} (hk : k ≤ n)
    (hbefore : ∀ j < k, (run.outcomes j).isOk = false)
    (hstop : k < n → (run.outcomes k).isOk = true) : run.firstOk n = k := by
  rcases hk.lt_or_eq with hlt | rfl
  · have hlength : k < (List.range n).length := by rwa [List.length_range]
    refine (List.findIdx_eq hlength).mpr ⟨?_,?_⟩
    · rw [List.getElem_range]
      exact hstop hlt
    · intro j hj
      rw [List.getElem_range]
      exact hbefore j hj
  · rw [firstOk,List.findIdx_eq_length_of_false,List.length_range]
    intro j hj
    exact hbefore j (List.mem_range.mp hj)

structure Run.Over (run : Run T E) (n : ℕ) (result : Except (Failure E) T) (s : Loop) : Prop where
  retries : s.retries = run.firstOk n
  calls : s.calls = run.firstOk n+1
  result : result.isOk = true ↔ run.Succeeds n

theorem loop_over (config : RetryConfig) (run : Run T E) (s : Loop) (hcalls : s.calls = s.retries)
    (hle : s.retries ≤ config.maxRetries.toNat)
    (hbefore : ∀ j < s.retries, (run.outcomes j).isOk = false) :
    run.Over config.maxRetries.toNat (loop config run s).1 (loop config run s).2 := by
  fun_induction loop config run s with
  | case1 s result hok =>
    rw [hcalls] at hok
    have hnow : (run.outcomes s.retries).isOk = true := by rw [hok]; rfl
    have hfirst := Run.firstOk_eq hle hbefore fun _ => hnow
    exact ⟨hfirst.symm,by rw [hfirst,← hcalls]; rfl,⟨fun _ => ⟨_,hle,hnow⟩,fun _ => rfl⟩⟩
  | case2 s e herror hdone =>
    rw [hcalls] at herror
    have hmax : s.retries = config.maxRetries.toNat := le_antisymm hle hdone
    have hfirst := Run.firstOk_eq hle hbefore fun hlt => absurd hlt (by omega)
    refine ⟨hfirst.symm,by rw [hfirst,← hcalls]; rfl,⟨fun h => absurd h Bool.false_ne_true,?_⟩⟩
    rintro ⟨i,hi,hok⟩
    rcases (hmax ▸ hi).lt_or_eq with hlt | rfl
    · exact absurd hok (by rw [hbefore i hlt]; decide)
    · rw [herror] at hok
      cases hok
  | case3 s e herror hleft ih =>
    rw [hcalls] at herror
    apply ih (congrArg (·+1) hcalls) (Nat.not_le.mp hleft)
    intro j hj
    rcases Nat.lt_succ_iff_lt_or_eq.mp hj with hlt | rfl
    · exact hbefore j hlt
    · rw [herror]
      rfl

theorem RetryPolicy.retry_over {p : RetryPolicy} (henabled : p.config.enabled = true)
    (run : Run T E) :
    (∃ value s, run.Over p.config.maxRetries.toNat (.ok value) s ∧ p.retry run =
        (.ok value,s.calls,{ p with metrics := p.metrics.succeeded s.retries run.elapsed })) ∨
      ∃ e s, run.Over p.config.maxRetries.toNat (.error e) s ∧ p.retry run =
        (.error e,s.calls,{ p with metrics := p.metrics.failed s.retries run.elapsed }) := by
  have hover := loop_over p.config run ⟨0,p.config.initialDelay,0,[]⟩ rfl (Nat.zero_le _)
    fun j hj => absurd hj (Nat.not_lt_zero j)
  rw [retry,if_neg (by rw [henabled]; decide)]
  generalize loop p.config run ⟨0,p.config.initialDelay,0,[]⟩ = ended at hover ⊢
  rcases ended with ⟨e | value,s⟩
  · exact Or.inr ⟨e,s,hover,rfl⟩
  · exact Or.inl ⟨value,s,hover,rfl⟩

namespace Served

/-- What the metrics hold after some runs under one configuration. -/
structure Counted (config : RetryConfig) (done : List (Run T E)) (s : Served T E) : Prop where
  unchanged : s.policy.config = config
  totalRetries : s.policy.metrics.totalRetries =
    .ofNat (done.map fun run => run.firstOk config.maxRetries.toNat).sum
  successful : s.policy.metrics.successfulRetries = .ofNat s.successes
  failed : s.policy.metrics.failedRetries = .ofNat s.failures
  calls : s.calls = (done.map fun run => run.firstOk config.maxRetries.toNat+1).sum
  length : s.successes+s.failures = done.length
  failures : s.failures = 0 ↔ ∀ run ∈ done, run.Succeeds config.maxRetries.toNat

theorem sum_snoc {α : Type} (f : α → ℕ) (xs : List α) (x : α) :
    ((xs++[x]).map f).sum = (xs.map f).sum+f x := by
  rw [List.map_append,List.sum_append]
  rfl

theorem sum_succ {α : Type} (f : α → ℕ) (xs : List α) :
    (xs.map fun x => f x+1).sum = (xs.map f).sum+xs.length := by
  induction xs with
  | nil => rfl
  | cons x xs ih =>
    rw [List.map_cons,List.sum_cons,ih,List.map_cons,List.sum_cons,List.length_cons]
    omega

variable {config : RetryConfig} {done : List (Run T E)} {s : Served T E}

theorem begin_counted : Counted config [] (begin config : Served T E) where
  unchanged := rfl
  totalRetries := rfl
  successful := rfl
  failed := rfl
  calls := rfl
  length := rfl
  failures := ⟨fun _ _ hrun => absurd hrun List.not_mem_nil,fun _ => rfl⟩

/-- A run that is over is counted as its result says. -/
theorem counted_snoc (h : Counted config done s) {run : Run T E} {result : Except (Failure E) T}
    {loop : Loop} (hover : run.Over config.maxRetries.toNat result loop) {metrics : RetryMetrics}
    (hretries : metrics.totalRetries = s.policy.metrics.totalRetries+.ofNat loop.retries)
    (hsuccessful : metrics.successfulRetries =
      s.policy.metrics.successfulRetries+.ofNat ([result].countP Except.isOk))
    (hfailed : metrics.failedRetries =
      s.policy.metrics.failedRetries+.ofNat ([result].countP fun r => !r.isOk)) :
    Counted config (done++[run]) ⟨⟨config,metrics⟩,s.calls+loop.calls,s.results++[result]⟩ where
  unchanged := rfl
  totalRetries := by
    rw [sum_snoc,UInt64.ofNat_add,← h.totalRetries,← hover.retries]
    exact hretries
  successful := by
    rw [successes,List.countP_append,UInt64.ofNat_add]
    exact hsuccessful.trans (congrArg (·+_) h.successful)
  failed := by
    rw [failures,List.countP_append,UInt64.ofNat_add]
    exact hfailed.trans (congrArg (·+_) h.failed)
  calls := by rw [sum_snoc,← h.calls,← hover.calls]
  length := by
    have hone : [result].countP Except.isOk+[result].countP (fun r => !r.isOk) = 1 := by
      cases result <;> rfl
    have hlength := h.length
    rw [successes,failures] at hlength ⊢
    rw [List.countP_append,List.countP_append,List.length_append,List.length_singleton]
    omega
  failures := by
    have hzero : [result].countP (fun r => !r.isOk) = 0 ↔ result.isOk = true := by
      cases result <;> simp [Except.isOk,Except.toBool]
    rw [failures,List.countP_append,Nat.add_eq_zero_iff,hzero,hover.result,
      List.forall_mem_append,List.forall_mem_singleton]
    exact and_congr_left fun _ => h.failures

theorem serve_counted (henabled : config.enabled = true) (h : Counted config done s)
    (run : Run T E) : Counted config (done++[run]) (s.serve run) := by
  have hunchanged := h.unchanged
  subst hunchanged
  rcases RetryPolicy.retry_over henabled run with
    ⟨value,loop,hover,heq⟩ | ⟨e,loop,hover,heq⟩
  · rw [serve,heq]
    exact counted_snoc h hover (RetryMetrics.succeeded_totalRetries _ _ _)
      (RetryMetrics.succeeded_successfulRetries _ _ _)
      ((RetryMetrics.succeeded_failedRetries _ _ _).trans (UInt64.add_zero _).symm)
  · rw [serve,heq]
    exact counted_snoc h hover rfl (UInt64.add_zero _).symm rfl

theorem serveAll_counted (henabled : config.enabled = true) (runs : List (Run T E)) :
    Counted config runs (serveAll config runs) := by
  suffices h : ∀ runs done (s : Served T E), Counted config done s →
      Counted config (done++runs) (runs.foldl serve s) from h runs [] _ begin_counted
  intro runs
  induction runs with
  | nil =>
    intro done s h
    rwa [List.append_nil]
  | cons run runs ih =>
    intro done s h
    have hrest := ih (done++[run]) _ (serve_counted henabled h run)
    rwa [List.append_assoc] at hrest

theorem accurate_of_counted (h : Counted config done s) (now : UInt64) :
    s.Accurate now ↔ s.failures = 0 ∧ s.calls < 2^64 := by
  have hcalls := h.calls
  have hlength := h.length
  rw [sum_succ] at hcalls
  have htotal : (s.policy.getStats now).totalAttempts.toNat =
      ((done.map fun run => run.firstOk config.maxRetries.toNat).sum+s.successes) % 2^64 := by
    change (s.policy.metrics.totalRetries+s.policy.metrics.successfulRetries).toNat = _
    rw [h.totalRetries,h.successful,← UInt64.ofNat_add,UInt64.toNat_ofNat']
  have hsuccessful : s.policy.metrics.successfulRetries.toNat = s.successes % 2^64 := by
    rw [h.successful,UInt64.toNat_ofNat']
  have hfailed : s.policy.metrics.failedRetries.toNat = s.failures % 2^64 := by
    rw [h.failed,UInt64.toNat_ofNat']
  constructor
  · intro haccurate
    have hexact := haccurate.total
    rw [htotal] at hexact
    omega
  · rintro ⟨hfailures,hlt⟩
    refine ⟨?_,?_,?_⟩
    · rw [htotal]
      omega
    · exact hsuccessful.trans (Nat.mod_eq_of_lt (by omega))
    · exact hfailed.trans (Nat.mod_eq_of_lt (by omega))

/-- The statistics are right when every run succeeds in the end, and the calls are fewer than
a counter can hold. -/
theorem accurate_iff (config : RetryConfig) (henabled : config.enabled = true)
    (runs : List (Run T E)) (now : UInt64) :
    (serveAll config runs).Accurate now ↔
      (∀ run ∈ runs, run.Succeeds config.maxRetries.toNat) ∧
        (runs.map fun run => run.firstOk config.maxRetries.toNat+1).sum < 2^64 := by
  have h := serveAll_counted henabled runs
  rw [accurate_of_counted h,h.failures,h.calls]

theorem accurate_iff_two_calls :
    let run : Run ℕ String := ⟨fun i => if i = 1 then .ok 7 else .error "busy",fun _ => 0.5,900⟩
    RetryConfig.default.enabled = true ∧ ((serveAll .default [run]).Accurate 0 ↔
      (∀ r ∈ [run], r.Succeeds 5) ∧ ([run].map fun r => r.firstOk 5+1).sum < 2^64) :=
  ⟨rfl,accurate_iff .default rfl _ 0⟩

/-- A run whose function always fails calls it six times, and five are counted. -/
theorem accurate_counterexample :
    let run : Run ℕ String := ⟨fun _ => .error "down",fun _ => 0.5,900⟩
    (serveAll .default [run]).calls = 6 ∧ ¬(serveAll .default [run]).Accurate 0 := by
  intro run
  have h : Counted .default [run] _ := serveAll_counted rfl [run]
  refine ⟨?_,?_⟩
  · rw [h.calls]
    rfl
  · rw [accurate_of_counted h,h.failures]
    rintro ⟨hall,_⟩
    rcases hall run (List.mem_singleton.mpr rfl) with ⟨i,_,hok⟩
    cases hok

end Served

end DiamondBot.RetryStatistics
