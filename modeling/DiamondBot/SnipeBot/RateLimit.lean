import Mathlib.Logic.Function.Basic
import DiamondBot.Library.AtomicRun
import DiamondBot.Library.FixedWindow

/-!
# The rate limit of the API

One counter a key, in a store shared by all requests. A request that cannot read
the clock or take the lock of the store is let through and not counted. The clock
is read in whole seconds: an interval of the window's length that starts within a
second meets one second more, and may hold a request more than one that starts
with a second.
-/

set_option autoImplicit false

namespace DiamondBot.SnipeBot

open Library

structure RateLimitData where
  count : ℕ
  windowStart : ℕ
deriving DecidableEq

/-- `RATE_LIMIT_STORE`. -/
abbrev RateLimitStore := String → Option RateLimitData

/-- The nanoseconds of a second. -/
def nanos : ℕ := 1000000000

def asSecs (duration : ℕ) : ℕ := duration/nanos

/-- `clock` is the time since the epoch in nanoseconds, when it can be read;
`available` whether the lock of the store can be taken at once. -/
def checkRateLimit (clock : Option ℕ) (available : Bool) (store : RateLimitStore)
    (key : String) (limit windowSeconds : ℕ) : Bool × RateLimitStore :=
  match clock with
  | none => (true,store)
  | some duration =>
    let now := asSecs duration
    if !available then (true,store)
    else match store key with
      | some data =>
        if now-data.windowStart ≥ windowSeconds then
          (true,Function.update store key (some ⟨1,now⟩))
        else if data.count < limit then
          (true,Function.update store key (some ⟨data.count+1,data.windowStart⟩))
        else (false,store)
      | none => (true,Function.update store key (some ⟨1,now⟩))

def RateLimitStore.window (store : RateLimitStore) (key : String) : Option FixedWindow.Window :=
  (store key).map fun data => ⟨data.count,data.windowStart⟩

theorem checkRateLimit_window (now : ℕ) (store : RateLimitStore) (key : String)
    (limit windowSeconds : ℕ) :
    ((checkRateLimit (some now) true store key limit windowSeconds).1,
      (checkRateLimit (some now) true store key limit windowSeconds).2.window key) =
      FixedWindow.answer limit windowSeconds (asSecs now) (store.window key) := by
  unfold checkRateLimit RateLimitStore.window
  cases hstored : store key with
  | none => simp [FixedWindow.answer]
  | some data =>
    by_cases hpassed : windowSeconds ≤ asSecs now-data.windowStart
    · simp [FixedWindow.answer,hpassed]
    · by_cases hroom : data.count < limit
      · simp [FixedWindow.answer,hpassed,hroom]
      · simp [FixedWindow.answer,hpassed,hroom,hstored]

theorem checkRateLimit_other (now : ℕ) (store : RateLimitStore) {key other : String}
    (limit windowSeconds : ℕ) (h : other ≠ key) :
    (checkRateLimit (some now) true store key limit windowSeconds).2 other = store other := by
  unfold checkRateLimit
  cases store key with
  | none => simp [h]
  | some data =>
    by_cases hpassed : windowSeconds ≤ asSecs now-data.windowStart
    · simp [hpassed,h]
    · by_cases hroom : data.count < limit
      · simp [hpassed,hroom,h]
      · simp [hpassed,hroom]

/-- A request to the limit, with the instant it comes at, in nanoseconds. -/
structure RateLimitCall where
  key : String
  limit : ℕ
  windowSeconds : ℕ
  now : ℕ
deriving DecidableEq

structure ApiRateLimit where
  store : RateLimitStore
  answers : List (RateLimitCall × Bool)

namespace ApiRateLimit

def new : ApiRateLimit := ⟨fun _ => none,[]⟩

def answer (s : ApiRateLimit) (c : RateLimitCall) : Bool :=
  (checkRateLimit (some c.now) true s.store c.key c.limit c.windowSeconds).1

def next (s : ApiRateLimit) (c : RateLimitCall) : ApiRateLimit :=
  ⟨(checkRateLimit (some c.now) true s.store c.key c.limit c.windowSeconds).2,
    s.answers++[(c,s.answer c)]⟩

def answersFor (s : ApiRateLimit) (key : String) : List (RateLimitCall × Bool) :=
  s.answers.filter fun e => e.1.key = key

def accepted (s : ApiRateLimit) (key : String) : List ℕ :=
  ((s.answersFor key).filter fun e => e.2).map fun e => e.1.now

def seconds (s : ApiRateLimit) (key : String) : List ℕ := (s.accepted key).map asSecs

theorem next_window (s : ApiRateLimit) (c : RateLimitCall) :
    (s.answer c,(s.next c).store.window c.key) =
      FixedWindow.answer c.limit c.windowSeconds (asSecs c.now) (s.store.window c.key) :=
  checkRateLimit_window c.now s.store c.key c.limit c.windowSeconds

theorem next_window_other (s : ApiRateLimit) {c : RateLimitCall} {key : String}
    (h : c.key ≠ key) : (s.next c).store.window key = s.store.window key :=
  congrArg (Option.map _)
    (checkRateLimit_other c.now s.store c.limit c.windowSeconds (Ne.symm h))

theorem answersFor_self (s : ApiRateLimit) (c : RateLimitCall) :
    (s.next c).answersFor c.key = s.answersFor c.key++[(c,s.answer c)] := by
  simp [answersFor,next,List.filter_append]

theorem answersFor_other (s : ApiRateLimit) {c : RateLimitCall} {key : String}
    (h : c.key ≠ key) : (s.next c).answersFor key = s.answersFor key := by
  simp [answersFor,next,List.filter_append,h]

theorem seconds_self (s : ApiRateLimit) (c : RateLimitCall) :
    (s.next c).seconds c.key =
      FixedWindow.record (s.seconds c.key) (asSecs c.now) (s.answer c) := by
  rw [seconds,accepted,answersFor_self,FixedWindow.record]
  cases s.answer c with
  | true => simp [seconds,accepted]
  | false => simp [seconds,accepted]

theorem seconds_other (s : ApiRateLimit) {c : RateLimitCall} {key : String}
    (h : c.key ≠ key) : (s.next c).seconds key = s.seconds key := by
  rw [seconds,accepted,answersFor_other s h]
  rfl

theorem accepted_next {s : ApiRateLimit} {c : RateLimitCall} {key : String} {a : ℕ}
    (h : a ∈ (s.next c).accepted key) : a ∈ s.accepted key ∨ a = c.now := by
  by_cases hc : c.key = key
  · rw [accepted,← hc,answersFor_self] at h
    cases hanswer : s.answer c with
    | true => simpa [hanswer,accepted,← hc] using h
    | false =>
      left
      simpa [hanswer,accepted,← hc] using h
  · left
    rwa [accepted,answersFor_other s hc] at h

section Metered

structure Metered (key : String) (limit windowSeconds now : ℕ) (s : ApiRateLimit) : Prop where
  counted : FixedWindow.Counted limit windowSeconds now (s.seconds key) (s.store.window key)
  spread : ∀ slack ≤ 1, FixedWindow.Spread slack limit windowSeconds (s.seconds key)

variable {key : String} {limit windowSeconds : ℕ}

theorem new_metered (hlimit : 1 ≤ limit) (now : ℕ) : Metered key limit windowSeconds now new where
  counted := FixedWindow.counted_nil hlimit windowSeconds now
  spread := fun slack _ => FixedWindow.spread_nil slack limit windowSeconds

theorem metered_later {now later : ℕ} {s : ApiRateLimit}
    (h : Metered key limit windowSeconds now s) (hle : now ≤ later) :
    Metered key limit windowSeconds later s :=
  ⟨FixedWindow.counted_later h.counted hle,h.spread⟩

theorem next_metered (hlimit : 1 ≤ limit) (hwindow : 1 ≤ windowSeconds) {s : ApiRateLimit}
    {c : RateLimitCall} (h : Metered key limit windowSeconds (asSecs c.now) s)
    (hkey : c.key = key → c.limit = limit ∧ c.windowSeconds = windowSeconds) :
    Metered key limit windowSeconds (asSecs c.now) (s.next c) := by
  by_cases hc : c.key = key
  · obtain ⟨hl,hw⟩ := hkey hc
    have hnext := s.next_window c
    rw [hc,hl,hw] at hnext
    have hcounted := FixedWindow.answer_counted hlimit hwindow h.counted
    have hspread : ∀ slack ≤ 1, FixedWindow.Spread slack limit windowSeconds _ :=
      fun slack hslack => FixedWindow.answer_spread hslack (h.spread slack hslack) hcounted
    rw [← hnext,← hc,← seconds_self] at hcounted hspread
    rw [← hc]
    exact ⟨hcounted,hspread⟩
  · constructor
    · rw [next_window_other s hc,seconds_other s hc]
      exact h.counted
    · rw [seconds_other s hc]
      exact h.spread

theorem exists_last (calls : List RateLimitCall) : ∃ now, ∀ c ∈ calls, c.now ≤ now := by
  induction calls with
  | nil => exact ⟨0,by simp⟩
  | cons c calls ih =>
    obtain ⟨now,hnow⟩ := ih
    refine ⟨max c.now now,fun d hd => ?_⟩
    rcases List.mem_cons.mp hd with heq | hmem
    · rw [heq]
      exact le_max_left _ _
    · exact Nat.le_trans (hnow d hmem) (le_max_right _ _)

theorem run_metered (hlimit : 1 ≤ limit) (hwindow : 1 ≤ windowSeconds)
    (calls : List RateLimitCall) :
    calls.Pairwise (fun c c' => c.now ≤ c'.now) →
    (∀ c ∈ calls, c.key = key → c.limit = limit ∧ c.windowSeconds = windowSeconds) →
    ∀ now, (∀ c ∈ calls, c.now ≤ now) →
      Metered key limit windowSeconds (asSecs now) (AtomicRun.run next calls new) := by
  induction calls using List.reverseRecOn with
  | nil => exact fun _ _ now _ => new_metered hlimit (asSecs now)
  | append_singleton calls c ih =>
    intro hordered hkey now hpast
    rw [List.pairwise_append] at hordered
    obtain ⟨hbefore,_,hlast⟩ := hordered
    have hc : c ∈ calls++[c] := by simp
    have hmetered := ih hbefore (fun d hd => hkey d (List.mem_append_left _ hd)) c.now
      fun d hd => hlast d hd c (by simp)
    rw [AtomicRun.run_append]
    exact metered_later (next_metered hlimit hwindow hmetered (hkey c hc))
      (Nat.div_le_div_right (hpast c hc))

theorem accepted_le_seconds (s : ApiRateLimit) (t : ℕ) :
    (s.accepted key).countP (fun a => t ≤ a ∧ a ≤ t+windowSeconds*nanos) ≤
      (s.seconds key).countP (fun b => asSecs t ≤ b ∧ b < asSecs t+windowSeconds+1) := by
  rw [seconds,List.countP_map]
  apply List.countP_mono_left
  intro a _ ha
  simp only [decide_eq_true_eq,Function.comp_apply] at ha ⊢
  unfold asSecs nanos at *
  omega

theorem run_past (key : String) (calls : List RateLimitCall) {now : ℕ} :
    (∀ c ∈ calls, c.now ≤ now) → ∀ a ∈ (AtomicRun.run next calls new).accepted key, a ≤ now := by
  induction calls using List.reverseRecOn with
  | nil => simp [AtomicRun.run,accepted,answersFor,new]
  | append_singleton calls c ih =>
    intro hpast a ha
    rw [AtomicRun.run_append] at ha
    rcases accepted_next ha with hold | heq
    · exact ih (fun d hd => hpast d (List.mem_append_left _ hd)) a hold
    · rw [heq]
      exact hpast c (by simp)

theorem seconds_le_accepted {s : ApiRateLimit} {now : ℕ} (h : ∀ a ∈ s.accepted key, a ≤ now) :
    (s.seconds key).countP (fun b => b ≤ asSecs now ∧ asSecs now < b+windowSeconds) ≤
      (s.accepted key).countP fun a => a ≤ now ∧ now < a+windowSeconds*nanos := by
  rw [seconds,List.countP_map]
  apply List.countP_mono_left
  intro a hmem ha
  have hpast := h a hmem
  simp only [decide_eq_true_eq,Function.comp_apply] at ha ⊢
  unfold asSecs nanos at *
  omega

end Metered

def SameFor (key : String) (s s' : ApiRateLimit) : Prop :=
  s.store key = s'.store key ∧ s.answersFor key = s'.answersFor key

theorem checkRateLimit_congr (now : ℕ) {store store' : RateLimitStore} {key : String}
    (limit windowSeconds : ℕ) (h : store key = store' key) :
    (checkRateLimit (some now) true store key limit windowSeconds).1 =
        (checkRateLimit (some now) true store' key limit windowSeconds).1 ∧
      (checkRateLimit (some now) true store key limit windowSeconds).2 key =
        (checkRateLimit (some now) true store' key limit windowSeconds).2 key := by
  unfold checkRateLimit
  rw [← h]
  cases hstored : store key with
  | none => simp
  | some data =>
    by_cases hpassed : windowSeconds ≤ asSecs now-data.windowStart
    · simp [hpassed]
    · by_cases hroom : data.count < limit
      · simp [hpassed,hroom]
      · simp [hpassed,hroom,hstored,← h]

theorem next_sameFor {key : String} {s s' : ApiRateLimit} (h : SameFor key s s')
    {c : RateLimitCall} (hc : c.key = key) : SameFor key (s.next c) (s'.next c) := by
  subst hc
  have hcheck := checkRateLimit_congr c.now c.limit c.windowSeconds h.1
  constructor
  · exact hcheck.2
  · rw [answersFor_self,answersFor_self,h.2]
    exact congrArg (fun b => s'.answersFor c.key++[(c,b)]) hcheck.1

theorem next_sameFor_other {key : String} {s s' : ApiRateLimit} (h : SameFor key s s')
    {c : RateLimitCall} (hc : c.key ≠ key) : SameFor key (s.next c) s' := by
  constructor
  · exact (checkRateLimit_other c.now s.store c.limit c.windowSeconds (Ne.symm hc)).trans h.1
  · rw [answersFor_other s hc]
    exact h.2

theorem run_sameFor (key : String) (calls : List RateLimitCall) {s s' : ApiRateLimit}
    (h : SameFor key s s') :
    SameFor key (AtomicRun.run next calls s)
      (AtomicRun.run next (calls.filter fun c => c.key = key) s') := by
  apply AtomicRun.run_filter _ _ h (AtomicRun.along_trivial calls s)
  · intro s s' c hsame _ hc
    exact next_sameFor hsame (of_decide_eq_true hc)
  · intro s s' c hsame _ hc
    exact next_sameFor_other hsame (of_decide_eq_false hc)

/-- A limit for 1 in a second accepts requests at 0.999 and at 1.000 seconds. -/
theorem second_boundary :
    let calls : List RateLimitCall := [⟨"ip",1,1,999000000⟩,⟨"ip",1,1,1000000000⟩]
    calls.Pairwise (fun c c' => c.now ≤ c'.now) ∧
      (∀ c ∈ calls, c.key = "ip" → c.limit = 1 ∧ c.windowSeconds = 1) ∧
      2*1-1 < ((AtomicRun.run next calls new).accepted "ip").countP
        (fun a => 999000000 ≤ a ∧ a < 999000000+1*nanos) := by
  decide

/-- No interval of the window's length sees more than twice the limit accepted,
and no run of as many whole seconds twice the limit; a call is refused only after
the limit was reached within the window's length, and the answers for a key are
those of its own calls alone. -/
theorem accepts_within_limit {key : String} {limit windowSeconds : ℕ} (hlimit : 1 ≤ limit)
    (hwindow : 1 ≤ windowSeconds) {calls : List RateLimitCall}
    (hordered : calls.Pairwise fun c c' => c.now ≤ c'.now)
    (hkey : ∀ c ∈ calls, c.key = key → c.limit = limit ∧ c.windowSeconds = windowSeconds) :
    (∀ t, ((AtomicRun.run next calls new).accepted key).countP
        (fun a => t ≤ a ∧ a ≤ t+windowSeconds*nanos) ≤ 2*limit) ∧
      (∀ t, ((AtomicRun.run next calls new).accepted key).countP
        (fun a => t ≤ asSecs a ∧ asSecs a < t+windowSeconds) ≤ 2*limit-1) ∧
      (∀ before c after, calls = before++c::after → c.key = key →
        (AtomicRun.run next before new).answer c = false →
        limit ≤ ((AtomicRun.run next before new).accepted key).countP
          (fun a => a ≤ c.now ∧ c.now < a+windowSeconds*nanos)) ∧
      (AtomicRun.run next calls new).answersFor key =
        (AtomicRun.run next (calls.filter fun c => c.key = key) new).answersFor key := by
  obtain ⟨now,hnow⟩ := exists_last calls
  have hmetered := run_metered hlimit hwindow calls hordered hkey now hnow
  refine ⟨?_,?_,?_,(run_sameFor key calls ⟨rfl,rfl⟩).2⟩
  · intro t
    have hspread := hmetered.spread 1 (Nat.le_refl 1) (asSecs t)
    have hseconds := Nat.le_trans (accepted_le_seconds _ t) hspread
    omega
  · intro t
    have hspread := hmetered.spread 0 (Nat.zero_le 1) t
    rwa [seconds,List.countP_map] at hspread
  · intro before c after hcalls hc hrefused
    subst hcalls
    obtain ⟨hbefore,hafter,hlast⟩ := List.pairwise_append.mp hordered
    have hpast : ∀ d ∈ before, d.now ≤ c.now := fun d hd => hlast d hd c List.mem_cons_self
    have hmetered := run_metered hlimit hwindow before hbefore
      (fun d hd => hkey d (List.mem_append_left _ hd)) c.now hpast
    obtain ⟨hl,hw⟩ := hkey c (by simp) hc
    have hnext := (AtomicRun.run next before new).next_window c
    rw [hc,hl,hw] at hnext
    refine Nat.le_trans ?_ (seconds_le_accepted (run_past key before hpast))
    apply FixedWindow.refused_full hmetered.counted
    rw [← hnext]
    exact hrefused

/-- Calls at the border of two windows of a minute, one call a window: the second
is refused. -/
theorem accepts_within_limit_minute :
    let calls : List RateLimitCall :=
      [⟨"ip",1,60,59999000000⟩,⟨"ip",1,60,60000000000⟩,⟨"other",5,1,60000000000⟩,
        ⟨"ip",1,60,119000000000⟩]
    ((AtomicRun.run next calls new).accepted "ip").countP
        (fun a => 59999000000 ≤ a ∧ a ≤ 59999000000+60*nanos) ≤ 2 ∧
      1 ≤ ((AtomicRun.run next [⟨"ip",1,60,59999000000⟩] new).accepted "ip").countP
        (fun a => a ≤ 60000000000 ∧ 60000000000 < a+60*nanos) := by
  have hresult := @accepts_within_limit "ip" 1 60 (by decide) (by decide)
    [⟨"ip",1,60,59999000000⟩,⟨"ip",1,60,60000000000⟩,⟨"other",5,1,60000000000⟩,
      ⟨"ip",1,60,119000000000⟩] (by decide) (by decide)
  exact ⟨hresult.1 59999000000,
    hresult.2.2.1 [⟨"ip",1,60,59999000000⟩] ⟨"ip",1,60,60000000000⟩ _ rfl rfl rfl⟩

end ApiRateLimit

end DiamondBot.SnipeBot
