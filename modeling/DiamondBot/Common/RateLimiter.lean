import Mathlib.Logic.Function.Basic
import DiamondBot.Library.AtomicRun
import DiamondBot.Library.FixedWindow

/-!
# Rate limiters of the middleware

All limiters of a process count in one store. A limiter's `check_limit` checks
the key, reads the clock, and cleans the store when its last cleanup is longer
ago than its interval; other limiters may run between these steps. A cleanup
keeps what is younger than the window of the limiter that cleans.
-/

set_option autoImplicit false

namespace DiamondBot.Common

open Library

structure RateLimitData where
  count : ℕ
  windowStart : ℕ
deriving DecidableEq

/-- `RATE_LIMIT_CACHE`. -/
abbrev RateLimitCache := String → Option RateLimitData

namespace RateLimitCache

def checkRateLimit (now : ℕ) (rateLimits : RateLimitCache) (key : String)
    (limit windowSize : ℕ) : Bool × RateLimitCache :=
  match rateLimits key with
  | some data =>
    if now-data.windowStart ≥ windowSize then
      (true,Function.update rateLimits key (some ⟨1,now⟩))
    else if data.count < limit then
      (true,Function.update rateLimits key (some ⟨data.count+1,data.windowStart⟩))
    else (false,rateLimits)
  | none => (true,Function.update rateLimits key (some ⟨1,now⟩))

/-- `cleanup` of a limiter with this window. -/
def cleanup (now windowSize : ℕ) (cache : RateLimitCache) : RateLimitCache := fun key =>
  (cache key).filter fun data => now-data.windowStart < windowSize

def window (cache : RateLimitCache) (key : String) : Option FixedWindow.Window :=
  (cache key).map fun data => ⟨data.count,data.windowStart⟩

theorem checkRateLimit_window (now : ℕ) (cache : RateLimitCache) (key : String)
    (limit windowSize : ℕ) :
    ((cache.checkRateLimit now key limit windowSize).1,
      (cache.checkRateLimit now key limit windowSize).2.window key) =
      FixedWindow.answer limit windowSize now (cache.window key) := by
  unfold checkRateLimit window
  cases hstored : cache key with
  | none => simp [FixedWindow.answer]
  | some data =>
    by_cases hpassed : windowSize ≤ now-data.windowStart
    · simp [FixedWindow.answer,hpassed]
    · by_cases hroom : data.count < limit
      · simp [FixedWindow.answer,hpassed,hroom]
      · simp [FixedWindow.answer,hpassed,hroom,hstored]

theorem checkRateLimit_other (now : ℕ) (cache : RateLimitCache) {key other : String}
    (limit windowSize : ℕ) (h : other ≠ key) :
    (cache.checkRateLimit now key limit windowSize).2 other = cache other := by
  unfold checkRateLimit
  cases cache key with
  | none => simp [h]
  | some data =>
    by_cases hpassed : windowSize ≤ now-data.windowStart
    · simp [hpassed,h]
    · by_cases hroom : data.count < limit
      · simp [hpassed,hroom,h]
      · simp [hpassed,hroom]

theorem window_other (now : ℕ) (cache : RateLimitCache) {key other : String}
    (limit windowSize : ℕ) (h : other ≠ key) :
    (cache.checkRateLimit now key limit windowSize).2.window other = cache.window other :=
  congrArg (Option.map _) (checkRateLimit_other now cache limit windowSize h)

theorem cleanup_some {now windowSize : ℕ} {cache : RateLimitCache} {key : String}
    {data : RateLimitData} (h : cache.cleanup now windowSize key = some data) :
    cache key = some data := by
  unfold cleanup at h
  exact (Option.filter_eq_some_iff.mp h).1

theorem cleanup_window (now windowSize : ℕ) (cache : RateLimitCache) (key : String) :
    (cache.cleanup now windowSize).window key =
      FixedWindow.expire windowSize now (cache.window key) := by
  unfold cleanup window FixedWindow.expire
  rw [Option.filter_map]
  rfl

end RateLimitCache

/-- Where a limiter is in `check_limit`. -/
inductive CheckStage where
  | idle
  | checked
  | cleaning (since : ℕ)
deriving DecidableEq

def CheckStage.isCleaning : CheckStage → Bool
  | .cleaning _ => true
  | _ => false

structure RateLimiter where
  windowSize : ℕ
  cleanupInterval : ℕ
  lastCleanup : ℕ
  stage : CheckStage
deriving DecidableEq

def RateLimiter.new (now windowSize cleanupInterval : ℕ) : RateLimiter :=
  ⟨windowSize,cleanupInterval,now,.idle⟩

structure LimitDecision (ι : Type*) where
  limiter : ι
  key : String
  now : ℕ
  allowed : Bool
deriving DecidableEq

structure RateLimiters (ι : Type*) where
  now : ℕ
  limiters : ι → RateLimiter
  cache : RateLimitCache
  decisions : List (LimitDecision ι)

/-- The steps of `check_limit`, and the passing of time. -/
inductive LimiterAction (ι : Type*) where
  | check (limiter : ι) (key : String) (limit : ℕ)
  | readClock (limiter : ι)
  | cleanup (limiter : ι)
  | wait (seconds : ℕ)
deriving DecidableEq

namespace RateLimiters

variable {ι : Type*} [DecidableEq ι]

def start (now : ℕ) (limiters : ι → RateLimiter) : RateLimiters ι :=
  ⟨now,limiters,fun _ => none,[]⟩

def setStage (s : RateLimiters ι) (i : ι) (stage : CheckStage) : RateLimiters ι :=
  { s with limiters := Function.update s.limiters i { s.limiters i with stage := stage } }

def check (s : RateLimiters ι) (i : ι) (key : String) (limit : ℕ) : RateLimiters ι :=
  let result := s.cache.checkRateLimit s.now key limit (s.limiters i).windowSize
  { s.setStage i .checked with
    cache := result.2
    decisions := s.decisions++[⟨i,key,s.now,result.1⟩] }

def readClock (s : RateLimiters ι) (i : ι) : RateLimiters ι :=
  if s.now-(s.limiters i).lastCleanup > (s.limiters i).cleanupInterval then
    s.setStage i (.cleaning s.now)
  else s.setStage i .idle

/-- The cleanup under the lock of the store; `since` becomes the last cleanup. -/
def cleanup (s : RateLimiters ι) (i : ι) (since : ℕ) : RateLimiters ι :=
  { s with
    limiters := Function.update s.limiters i
      { s.limiters i with lastCleanup := since, stage := .idle }
    cache := s.cache.cleanup s.now (s.limiters i).windowSize }

def next (s : RateLimiters ι) : LimiterAction ι → RateLimiters ι
  | .check i key limit =>
    if (s.limiters i).stage = .idle then s.check i key limit else s
  | .readClock i => if (s.limiters i).stage = .checked then s.readClock i else s
  | .cleanup i =>
    match (s.limiters i).stage with
    | .cleaning since => s.cleanup i since
    | _ => s
  | .wait seconds => { s with now := s.now+seconds }

def decisionsOf (s : RateLimiters ι) (i : ι) : List (LimitDecision ι) :=
  s.decisions.filter fun d => d.limiter = i

def accepted (s : RateLimiters ι) (i : ι) (key : String) : List ℕ :=
  ((s.decisionsOf i).filter fun d => d.key = key ∧ d.allowed).map LimitDecision.now

end RateLimiters

def LimiterAction.remains {ι : Type*} [DecidableEq ι] (i : ι) : LimiterAction ι → Bool
  | .check j _ _ => j = i
  | .readClock j => j = i
  | .cleanup j => j = i
  | .wait _ => true

namespace RateLimiters

variable {ι : Type*} [DecidableEq ι]

/-- No limiter checks a key of another, and none cleans away a window that is open
for the limiter whose key it is. -/
def KeepsApart (s : RateLimiters ι) : LimiterAction ι → Prop
  | .check i key _ => (s.limiters i).stage = .idle → ∀ d ∈ s.decisions, d.key = key → d.limiter = i
  | .cleanup i => (s.limiters i).stage.isCleaning = true →
    ∀ d ∈ s.decisions, ∀ data ∈ s.cache d.key,
      (s.limiters i).windowSize ≤ s.now-data.windowStart →
      (s.limiters d.limiter).windowSize ≤ s.now-data.windowStart
  | _ => True

instance (s : RateLimiters ι) (a : LimiterAction ι) : Decidable (s.KeepsApart a) :=
  match a with
  | .check i key _ => inferInstanceAs (Decidable ((s.limiters i).stage = .idle →
      ∀ d ∈ s.decisions, d.key = key → d.limiter = i))
  | .cleanup i => inferInstanceAs (Decidable ((s.limiters i).stage.isCleaning = true →
      ∀ d ∈ s.decisions, ∀ data ∈ s.cache d.key,
        (s.limiters i).windowSize ≤ s.now-data.windowStart →
        (s.limiters d.limiter).windowSize ≤ s.now-data.windowStart))
  | .readClock _ => inferInstanceAs (Decidable True)
  | .wait _ => inferInstanceAs (Decidable True)

/-- What a limiter sees in the run of all, against the run without the others. -/
structure Undisturbed (i : ι) (s s' : RateLimiters ι) : Prop where
  now_eq : s.now = s'.now
  limiter_eq : s.limiters i = s'.limiters i
  decisions_eq : s.decisionsOf i = s'.decisionsOf i
  alike : ∀ key, (∀ d ∈ s.decisions, d.key = key → d.limiter = i) →
    FixedWindow.Alike (s.limiters i).windowSize s.now (s.cache.window key) (s'.cache.window key)
  decided : ∀ key data, s.cache key = some data → ∃ d ∈ s.decisions, d.key = key

variable {i : ι} {s s' : RateLimiters ι}

theorem setStage_self (s : RateLimiters ι) (i : ι) (stage : CheckStage) :
    (s.setStage i stage).limiters i = { s.limiters i with stage := stage } :=
  Function.update_self ..

theorem setStage_other (s : RateLimiters ι) {i j : ι} (stage : CheckStage) (h : i ≠ j) :
    (s.setStage j stage).limiters i = s.limiters i :=
  Function.update_of_ne h ..

theorem setStage_undisturbed (h : Undisturbed i s s') (stage : CheckStage) :
    Undisturbed i (s.setStage i stage) (s'.setStage i stage) := by
  have hself := s.setStage_self i stage
  constructor
  · exact h.now_eq
  · rw [hself,setStage_self,h.limiter_eq]
  · exact h.decisions_eq
  · intro key hkey
    rw [hself]
    exact h.alike key hkey
  · exact h.decided

theorem setStage_other_undisturbed (h : Undisturbed i s s') {j : ι} (hj : i ≠ j)
    (stage : CheckStage) : Undisturbed i (s.setStage j stage) s' := by
  have hother := s.setStage_other stage hj
  constructor
  · exact h.now_eq
  · rw [hother,h.limiter_eq]
  · exact h.decisions_eq
  · intro key hkey
    rw [hother]
    exact h.alike key hkey
  · exact h.decided

theorem readClock_undisturbed (h : Undisturbed i s s') :
    Undisturbed i (s.readClock i) (s'.readClock i) := by
  unfold readClock
  rw [← h.now_eq,← h.limiter_eq]
  split
  · exact setStage_undisturbed h _
  · exact setStage_undisturbed h _

theorem readClock_other_undisturbed (h : Undisturbed i s s') {j : ι} (hj : i ≠ j) :
    Undisturbed i (s.readClock j) s' := by
  unfold readClock
  split
  · exact setStage_other_undisturbed h hj _
  · exact setStage_other_undisturbed h hj _

theorem wait_undisturbed (h : Undisturbed i s s') (seconds : ℕ) :
    Undisturbed i (s.next (.wait seconds)) (s'.next (.wait seconds)) := by
  constructor
  · exact congrArg (·+seconds) h.now_eq
  · exact h.limiter_eq
  · exact h.decisions_eq
  · intro key hkey
    exact FixedWindow.alike_later (h.alike key hkey) (Nat.le_add_right _ _)
  · exact h.decided

theorem decisionsOf_check_self (s : RateLimiters ι) (i : ι) (key : String) (limit : ℕ) :
    (s.check i key limit).decisionsOf i = s.decisionsOf i++[⟨i,key,s.now,
      (s.cache.checkRateLimit s.now key limit (s.limiters i).windowSize).1⟩] := by
  simp [decisionsOf,check,List.filter_append]

theorem decisionsOf_check_other (s : RateLimiters ι) {i j : ι} (key : String) (limit : ℕ)
    (h : i ≠ j) : (s.check j key limit).decisionsOf i = s.decisionsOf i := by
  simp [decisionsOf,check,List.filter_append,Ne.symm h]

theorem check_decided (h : ∀ key data, s.cache key = some data → ∃ d ∈ s.decisions, d.key = key)
    (j : ι) (checked : String) (limit : ℕ) (key : String) (data : RateLimitData)
    (hstored : (s.check j checked limit).cache key = some data) :
    ∃ d ∈ (s.check j checked limit).decisions, d.key = key := by
  by_cases hkey : key = checked
  · subst hkey
    exact ⟨_,List.mem_append_right _ (List.mem_singleton_self _),rfl⟩
  · have hold : s.cache key = some data := by
      rw [← hstored]
      exact (RateLimitCache.checkRateLimit_other s.now s.cache limit _ hkey).symm
    obtain ⟨d,hd,hdkey⟩ := h key data hold
    exact ⟨d,List.mem_append_left _ hd,hdkey⟩

theorem check_undisturbed (h : Undisturbed i s s') {key : String} (limit : ℕ)
    (hown : ∀ d ∈ s.decisions, d.key = key → d.limiter = i) :
    Undisturbed i (s.check i key limit) (s'.check i key limit) := by
  have hwindow := RateLimitCache.checkRateLimit_window s.now s.cache key limit
    (s.limiters i).windowSize
  have hwindow' := RateLimitCache.checkRateLimit_window s.now s'.cache key limit
    (s.limiters i).windowSize
  rw [← FixedWindow.alike_answer limit (h.alike key hown),← hwindow,Prod.mk.injEq] at hwindow'
  have hself : (s.check i key limit).limiters i = { s.limiters i with stage := .checked } :=
    s.setStage_self i .checked
  have hself' : (s'.check i key limit).limiters i = { s'.limiters i with stage := .checked } :=
    s'.setStage_self i .checked
  constructor
  · exact h.now_eq
  · rw [hself,hself',h.limiter_eq]
  · rw [decisionsOf_check_self,decisionsOf_check_self,h.decisions_eq,← h.now_eq,← h.limiter_eq,
      hwindow'.1]
  · intro other hother
    rw [hself]
    by_cases hkey : other = key
    · subst hkey
      left
      simp only [check]
      rw [← h.now_eq,← h.limiter_eq]
      exact hwindow'.2.symm
    · have hkept : (s.check i key limit).cache.window other = s.cache.window other :=
        RateLimitCache.window_other s.now s.cache limit _ hkey
      have hkept' : (s'.check i key limit).cache.window other = s'.cache.window other :=
        RateLimitCache.window_other s'.now s'.cache limit _ hkey
      rw [hkept,hkept']
      exact h.alike other fun d hd => hother d (List.mem_append_left _ hd)
  · exact check_decided h.decided i key limit

theorem check_other_undisturbed (h : Undisturbed i s s') {j : ι} (hj : i ≠ j) (key : String)
    (limit : ℕ) : Undisturbed i (s.check j key limit) s' := by
  have hlimiter : (s.check j key limit).limiters i = s.limiters i := s.setStage_other .checked hj
  constructor
  · exact h.now_eq
  · rw [hlimiter,h.limiter_eq]
  · rw [decisionsOf_check_other s key limit hj,h.decisions_eq]
  · intro other hother
    by_cases hkey : other = key
    · have hlast := hother _ (List.mem_append_right _ (List.mem_singleton_self _)) hkey.symm
      exact absurd hlast.symm hj
    · have hkept : (s.check j key limit).cache.window other = s.cache.window other :=
        RateLimitCache.window_other s.now s.cache limit _ hkey
      rw [hlimiter,hkept]
      exact h.alike other fun d hd => hother d (List.mem_append_left _ hd)
  · exact check_decided h.decided j key limit

theorem cleanup_decided (h : ∀ key data, s.cache key = some data → ∃ d ∈ s.decisions, d.key = key)
    (j : ι) (since : ℕ) (key : String) (data : RateLimitData)
    (hstored : (s.cleanup j since).cache key = some data) :
    ∃ d ∈ (s.cleanup j since).decisions, d.key = key :=
  h key data (RateLimitCache.cleanup_some hstored)

theorem cleanup_undisturbed (h : Undisturbed i s s') (since : ℕ) :
    Undisturbed i (s.cleanup i since) (s'.cleanup i since) := by
  have hself : (s.cleanup i since).limiters i =
      { s.limiters i with lastCleanup := since, stage := .idle } := Function.update_self ..
  have hself' : (s'.cleanup i since).limiters i =
      { s'.limiters i with lastCleanup := since, stage := .idle } := Function.update_self ..
  constructor
  · exact h.now_eq
  · rw [hself,hself',h.limiter_eq]
  · exact h.decisions_eq
  · intro key hkey
    rw [hself]
    simp only [cleanup]
    rw [← h.now_eq,← h.limiter_eq,RateLimitCache.cleanup_window,RateLimitCache.cleanup_window]
    exact FixedWindow.alike_expire (h.alike key hkey)
  · exact cleanup_decided h.decided i since

/-- Another limiter's cleanup removes nothing that is open for this one. -/
theorem cleanup_other_undisturbed (h : Undisturbed i s s') {j : ι} (hj : i ≠ j) (since : ℕ)
    (hclosed : ∀ d ∈ s.decisions, ∀ data ∈ s.cache d.key,
      (s.limiters j).windowSize ≤ s.now-data.windowStart →
      (s.limiters d.limiter).windowSize ≤ s.now-data.windowStart) :
    Undisturbed i (s.cleanup j since) s' := by
  have hlimiter : (s.cleanup j since).limiters i = s.limiters i := Function.update_of_ne hj ..
  constructor
  · exact h.now_eq
  · rw [hlimiter,h.limiter_eq]
  · exact h.decisions_eq
  · intro key hkey
    have halike := h.alike key hkey
    rw [hlimiter]
    simp only [cleanup]
    rw [RateLimitCache.cleanup_window]
    by_cases hold : FixedWindow.Closed (s.limiters j).windowSize s.now (s.cache.window key)
    · rw [FixedWindow.expire_closed hold]
      apply FixedWindow.alike_forget halike
      cases hstored : s.cache key with
      | none => simp [RateLimitCache.window,hstored,FixedWindow.Closed]
      | some data =>
        obtain ⟨d,hd,hdkey⟩ := h.decided key data hstored
        have hdi := hkey d hd hdkey
        subst hdkey
        rw [RateLimitCache.window,hstored] at hold ⊢
        have hdata := hclosed d hd data hstored hold
        rw [hdi] at hdata
        exact hdata
    · rw [FixedWindow.expire_open hold]
      exact halike
  · exact cleanup_decided h.decided j since

theorem next_undisturbed (h : Undisturbed i s s') {a : LimiterAction ι} (ha : s.KeepsApart a)
    (hremains : a.remains i = true) : Undisturbed i (s.next a) (s'.next a) := by
  cases a with
  | wait seconds => exact wait_undisturbed h seconds
  | check j key limit =>
    have hj : j = i := of_decide_eq_true hremains
    subst hj
    simp only [next]
    rw [← h.limiter_eq]
    split
    · rename_i hidle
      exact check_undisturbed h limit (ha hidle)
    · exact h
  | readClock j =>
    have hj : j = i := of_decide_eq_true hremains
    subst hj
    simp only [next]
    rw [← h.limiter_eq]
    split
    · exact readClock_undisturbed h
    · exact h
  | cleanup j =>
    have hj : j = i := of_decide_eq_true hremains
    subst hj
    simp only [next]
    rw [← h.limiter_eq]
    split
    · exact cleanup_undisturbed h _
    · exact h

theorem next_other_undisturbed (h : Undisturbed i s s') {a : LimiterAction ι}
    (ha : s.KeepsApart a) (hremains : a.remains i = false) : Undisturbed i (s.next a) s' := by
  cases a with
  | wait seconds => simp [LimiterAction.remains] at hremains
  | check j key limit =>
    have hj : i ≠ j := Ne.symm (of_decide_eq_false hremains)
    simp only [next]
    split
    · exact check_other_undisturbed h hj key limit
    · exact h
  | readClock j =>
    have hj : i ≠ j := Ne.symm (of_decide_eq_false hremains)
    simp only [next]
    split
    · exact readClock_other_undisturbed h hj
    · exact h
  | cleanup j =>
    have hj : i ≠ j := Ne.symm (of_decide_eq_false hremains)
    simp only [next]
    split
    · rename_i since hcleaning
      exact cleanup_other_undisturbed h hj since (ha (by rw [hcleaning]; rfl))
    · exact h

theorem start_undisturbed (i : ι) (now : ℕ) (limiters : ι → RateLimiter) :
    Undisturbed i (start now limiters) (start now limiters) := by
  constructor
  · rfl
  · rfl
  · rfl
  · exact fun key _ => Or.inl rfl
  · intro key data hstored
    exact absurd hstored (Option.some_ne_none data).symm

theorem run_undisturbed (i : ι) {now : ℕ} {limiters : ι → RateLimiter}
    {actions : List (LimiterAction ι)}
    (h : AtomicRun.Along next KeepsApart actions (start now limiters)) :
    Undisturbed i (AtomicRun.run next actions (start now limiters))
      (AtomicRun.run next (actions.filter (LimiterAction.remains i)) (start now limiters)) := by
  apply AtomicRun.run_filter _ _ (start_undisturbed i now limiters) h
  · exact fun _ _ _ hI ha hremains => next_undisturbed hI ha hremains
  · exact fun _ _ _ hI ha hremains => next_other_undisturbed hI ha hremains

section Alone

structure Metered (i : ι) (key : String) (limit windowSize : ℕ) (s : RateLimiters ι) : Prop where
  window_eq : (s.limiters i).windowSize = windowSize
  counted : FixedWindow.Counted limit windowSize s.now (s.accepted i key) (s.cache.window key)
  spread : FixedWindow.Spread 0 limit windowSize (s.accepted i key)

variable {key : String} {limit windowSize : ℕ}

theorem accepted_check_self (s : RateLimiters ι) (i : ι) (key : String) (limit : ℕ) :
    (s.check i key limit).accepted i key = FixedWindow.record (s.accepted i key) s.now
      (s.cache.checkRateLimit s.now key limit (s.limiters i).windowSize).1 := by
  rw [accepted,decisionsOf_check_self,FixedWindow.record]
  cases (s.cache.checkRateLimit s.now key limit (s.limiters i).windowSize).1 with
  | true => simp [accepted]
  | false => simp [accepted]

theorem accepted_check_other (s : RateLimiters ι) (i : ι) {key other : String} (limit : ℕ)
    (h : other ≠ key) : (s.check i key limit).accepted i other = s.accepted i other := by
  rw [accepted,decisionsOf_check_self]
  simp [accepted,Ne.symm h]

theorem setStage_metered (h : Metered i key limit windowSize s) (stage : CheckStage) :
    Metered i key limit windowSize (s.setStage i stage) := by
  constructor
  · rw [setStage_self]
    exact h.window_eq
  · exact h.counted
  · exact h.spread

theorem check_metered (hlimit : 1 ≤ limit) (hwindow : 1 ≤ windowSize)
    (h : Metered i key limit windowSize s) {checked : String} {limit' : ℕ}
    (hkey : checked = key → limit' = limit) :
    Metered i key limit windowSize (s.check i checked limit') := by
  have hsize : ((s.check i checked limit').limiters i).windowSize = windowSize := by
    have hself : (s.check i checked limit').limiters i = { s.limiters i with stage := .checked } :=
      s.setStage_self i .checked
    rw [hself]
    exact h.window_eq
  by_cases hchecked : checked = key
  · have hlimit' := hkey hchecked
    subst hchecked
    subst hlimit'
    have hanswer := RateLimitCache.checkRateLimit_window s.now s.cache checked limit'
      (s.limiters i).windowSize
    have hcounted := FixedWindow.answer_counted hlimit hwindow h.counted
    have hspread := FixedWindow.answer_spread (Nat.zero_le 1) h.spread hcounted
    rw [← h.window_eq,← hanswer,h.window_eq] at hcounted hspread
    constructor
    · exact hsize
    · rw [accepted_check_self]
      simp only [check]
      rw [h.window_eq]
      exact hcounted
    · rw [accepted_check_self,h.window_eq]
      exact hspread
  · have hkept : (s.check i checked limit').cache.window key = s.cache.window key :=
      RateLimitCache.window_other s.now s.cache limit' _ (Ne.symm hchecked)
    have haccepted := s.accepted_check_other i limit' (Ne.symm hchecked)
    constructor
    · exact hsize
    · rw [hkept,haccepted]
      exact h.counted
    · rw [haccepted]
      exact h.spread

theorem cleanup_metered (h : Metered i key limit windowSize s) (since : ℕ) :
    Metered i key limit windowSize (s.cleanup i since) := by
  have hself : (s.cleanup i since).limiters i =
      { s.limiters i with lastCleanup := since, stage := .idle } := Function.update_self ..
  constructor
  · rw [hself]
    exact h.window_eq
  · have hcleaned : (s.cleanup i since).cache.window key =
        FixedWindow.expire windowSize s.now (s.cache.window key) := by
      rw [← h.window_eq]
      exact RateLimitCache.cleanup_window _ _ _ _
    rw [hcleaned]
    exact FixedWindow.expire_counted h.counted
  · exact h.spread

theorem next_metered (hlimit : 1 ≤ limit) (hwindow : 1 ≤ windowSize)
    (h : Metered i key limit windowSize s) {a : LimiterAction ι} (hremains : a.remains i = true)
    (hkey : ∀ limit', a = .check i key limit' → limit' = limit) :
    Metered i key limit windowSize (s.next a) := by
  cases a with
  | wait seconds =>
    exact ⟨h.window_eq,FixedWindow.counted_later h.counted (Nat.le_add_right _ _),h.spread⟩
  | check j checked limit' =>
    have hj : j = i := of_decide_eq_true hremains
    subst hj
    simp only [next]
    split
    · apply check_metered hlimit hwindow h
      intro hchecked
      exact hkey limit' (by rw [hchecked])
    · exact h
  | readClock j =>
    have hj : j = i := of_decide_eq_true hremains
    subst hj
    simp only [next,readClock]
    split
    · split
      · exact setStage_metered h _
      · exact setStage_metered h _
    · exact h
  | cleanup j =>
    have hj : j = i := of_decide_eq_true hremains
    subst hj
    simp only [next]
    split
    · exact cleanup_metered h _
    · exact h

theorem run_metered (hlimit : 1 ≤ limit) (hwindow : 1 ≤ windowSize)
    {actions : List (LimiterAction ι)} (hremains : ∀ a ∈ actions, a.remains i = true)
    (hkey : ∀ a ∈ actions, ∀ limit', a = .check i key limit' → limit' = limit)
    (h : Metered i key limit windowSize s) :
    Metered i key limit windowSize (AtomicRun.run next actions s) := by
  induction actions generalizing s with
  | nil => exact h
  | cons a actions ih =>
    have hnext := next_metered hlimit hwindow h (hremains a List.mem_cons_self)
      (hkey a List.mem_cons_self)
    exact ih (fun b hb => hremains b (List.mem_cons_of_mem _ hb))
      (fun b hb => hkey b (List.mem_cons_of_mem _ hb)) hnext

theorem start_metered (hlimit : 1 ≤ limit) (i : ι) (now : ℕ) (limiters : ι → RateLimiter) :
    Metered i key limit (limiters i).windowSize (start now limiters) := by
  have hnone : (start now limiters).accepted i key = [] := by simp [accepted,decisionsOf,start]
  constructor
  · rfl
  · rw [hnone]
    exact FixedWindow.counted_nil hlimit _ _
  · rw [hnone]
    exact FixedWindow.spread_nil 0 limit _

end Alone

/-- While the limiters keep apart, each decides as if it were alone, and lets fewer
than twice its limit of a key pass in any interval of its own window. -/
theorem independent_of_keepsApart {now : ℕ} {limiters : ι → RateLimiter}
    {actions : List (LimiterAction ι)}
    (h : AtomicRun.Along next KeepsApart actions (start now limiters)) (i : ι) :
    (AtomicRun.run next actions (start now limiters)).decisionsOf i =
        (AtomicRun.run next (actions.filter (LimiterAction.remains i))
          (start now limiters)).decisionsOf i ∧
      ∀ key limit, 1 ≤ limit → 1 ≤ (limiters i).windowSize →
        (∀ limit', .check i key limit' ∈ actions → limit' = limit) →
        ∀ t, ((AtomicRun.run next actions (start now limiters)).accepted i key).countP
          (fun a => t ≤ a ∧ a < t+(limiters i).windowSize) ≤ 2*limit-1 := by
  have hsame := (run_undisturbed i h).decisions_eq
  refine ⟨hsame,?_⟩
  intro key limit hlimit hwindow hkey
  have hstart : Metered i key limit (limiters i).windowSize (start now limiters) :=
    start_metered hlimit i now limiters
  have hmetered := run_metered hlimit hwindow
    (fun a ha => (List.mem_filter.mp ha).2)
    (fun a ha limit' heq => hkey limit' (heq ▸ (List.mem_filter.mp ha).1)) hstart
  rw [accepted,hsame]
  exact hmetered.spread

def apart : List (LimiterAction Bool) :=
  [.check true "ip" 1,.readClock true,.wait 61,.check false "user" 1,.readClock false,
    .cleanup false,.check true "ip" 1]

def minuteAndTen : Bool → RateLimiter
  | true => RateLimiter.new 100 60 3600
  | false => RateLimiter.new 100 10 10

theorem independent_of_keepsApart_apart :
    ((AtomicRun.run next apart (start 100 minuteAndTen)).accepted true "ip").countP
      (fun a => 100 ≤ a ∧ a < 100+60) ≤ 1 := by
  have hapart : AtomicRun.Along next KeepsApart apart (start 100 minuteAndTen) := by decide
  exact (independent_of_keepsApart hapart true).2 "ip" 1 (by decide) (by decide)
    (by simp [apart]) 100

/-- A cleanup of the limiter of ten seconds removes the open window of the limiter
of a minute, which then lets twice its limit pass. -/
theorem cleanup_disturbs :
    let actions : List (LimiterAction Bool) :=
      [.check true "ip" 1,.readClock true,.wait 11,.check false "user" 1,.readClock false,
        .cleanup false,.check true "ip" 1]
    let s := AtomicRun.run next actions (start 100 minuteAndTen)
    s.decisionsOf true ≠ (AtomicRun.run next (actions.filter (LimiterAction.remains true))
        (start 100 minuteAndTen)).decisionsOf true ∧
      ¬ (s.accepted true "ip").countP (fun a => 100 ≤ a ∧ a < 100+60) ≤ 2*1-1 := by
  decide

end RateLimiters

end DiamondBot.Common
