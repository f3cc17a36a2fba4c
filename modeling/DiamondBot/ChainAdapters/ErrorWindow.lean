import DiamondBot.ChainAdapters.CircuitBreaker
import DiamondBot.Library.AtomicRun
import Mathlib.Data.UInt
import Mathlib.Data.List.Sort

/-!
# The error window of the breaker

The configuration names a window for counting errors, and the breaker never
reads it: a failure stays counted until the breaker closes again after having
been open. The failure that opens the breaker has the window behind it exactly
when the oldest failure counted with it lies in the window.
-/

set_option autoImplicit false

namespace DiamondBot.CircuitBreaker
open Library

structure Monitor where
  breaker : CircuitBreaker
  now : ℕ
  failures : List ℕ
  counted : List ℕ

inductive Action
  | canExecute
  | recordFailure
  | recordSuccess
  | wait (duration : ℕ)

namespace Monitor

def start (endpointId : String) (config : CircuitBreakerConfig) (now : ℕ) : Monitor where
  breaker := CircuitBreaker.new endpointId config now
  now
  failures := []
  counted := []

def next (s : Monitor) : Action → Monitor
  | .canExecute => { s with breaker := (s.breaker.canExecute granted s.now).2 }
  | .recordFailure => { s with
      breaker := s.breaker.recordFailure granted s.now
      failures := s.failures++[s.now]
      counted := s.counted++[s.now] }
  | .recordSuccess => { s with
      breaker := s.breaker.recordSuccess s.now
      counted := if (s.breaker.recordSuccess s.now).state = s.breaker.state then s.counted
        else [] }
  | .wait duration => { s with now := s.now+duration }

def InWindow (s : Monitor) (time : ℕ) : Bool :=
  s.now ≤ time+s.breaker.config.errorWindow.toNat*10^6

/-- A failure that takes the breaker from closed to open is one of at least the
threshold of failures in the window. -/
def WindowKept (s : Monitor) : Action → Prop
  | .recordFailure => s.breaker.state = .closed →
      (s.next .recordFailure).breaker.state = .opened →
      s.breaker.config.errorThreshold.toNat ≤ (s.failures++[s.now]).countP s.InWindow
  | _ => True

/-- At the failure that reaches the threshold of a closed breaker, the failures
counted before it are all in the window. -/
def CountedRecently (s : Monitor) : Action → Prop
  | .recordFailure => s.breaker.state = .closed →
      s.breaker.config.errorThreshold.toNat ≤ s.breaker.errorCount+1 →
      ∀ time ∈ s.counted, s.InWindow time = true
  | _ => True

/-! ## What is counted -/

structure Counts (s : Monitor) : Prop where
  past : ∀ time ∈ s.failures, time ≤ s.now
  ordered : s.failures.Pairwise (· ≤ ·)
  latest : s.counted <:+ s.failures
  closed : s.breaker.state = .closed → s.breaker.errorCount = s.counted.length ∧
    (s.counted.length = 0 ∨ s.counted.length < s.breaker.config.errorThreshold.toNat)

theorem canExecute_granted (b : CircuitBreaker) (now : ℕ) :
    (b.canExecute granted now).2 = b ∨
      b.state ≠ .closed ∧ (b.canExecute granted now).2.state ≠ .closed := by
  cases h : b.state with
  | closed =>
    apply Or.inl
    simp only [canExecute,h]
    rfl
  | opened =>
    simp only [canExecute,tryHalfOpen,h,granted,if_true]
    split
    · exact Or.inr ⟨fun hc => (nomatch hc),fun hc => (nomatch hc)⟩
    · exact Or.inl rfl
  | halfOpen =>
    refine Or.inr ⟨fun hc => (nomatch hc),?_⟩
    simp only [canExecute,h,granted,if_true]
    exact fun hc => nomatch hc

theorem recordSuccess_cases (b : CircuitBreaker) (now : ℕ) :
    b.recordSuccess now = b ∨ b.state = .halfOpen ∧
      b.recordSuccess now = { b with state := .closed, lastStateChange := now, errorCount := 0 } := by
  unfold recordSuccess
  split
  · rename_i h
    exact Or.inr ⟨h.1,rfl⟩
  · exact Or.inl rfl

theorem recordFailure_granted (b : CircuitBreaker) (now : ℕ) :
    (b.state = .closed → b.config.errorThreshold.toNat ≤ (b.errorCount+1) % 2^64) ∧
        b.recordFailure granted now = b.opened now ∨
      (b.state = .closed ∧ (b.errorCount+1) % 2^64 < b.config.errorThreshold.toNat ∨
        b.state = .opened) ∧ b.recordFailure granted now = b.counted now := by
  cases h : b.state with
  | closed =>
    rcases Nat.lt_or_ge ((b.errorCount+1) % 2^64) b.config.errorThreshold.toNat with hlt | hge
    · exact Or.inr ⟨Or.inl ⟨rfl,hlt⟩,recordFailure_below (fun _ => rfl) now h hlt⟩
    · exact Or.inl ⟨fun _ => hge,recordFailure_reached (fun _ => rfl) rfl now h hge⟩
  | opened => exact Or.inr ⟨Or.inr rfl,recordFailure_opened (fun _ => rfl) now h⟩
  | halfOpen =>
    exact Or.inl ⟨fun hc => (nomatch hc),recordFailure_halfOpen (fun _ => rfl) rfl now h⟩

theorem counts_room {s : Monitor} (h : s.Counts) (hclosed : s.breaker.state = .closed) :
    (s.breaker.errorCount+1) % 2^64 = s.counted.length+1 := by
  obtain ⟨hcount,hlength⟩ := h.closed hclosed
  have hthreshold := s.breaker.config.errorThreshold.toNat_lt
  rw [hcount]
  apply Nat.mod_eq_of_lt
  omega

theorem counts_of_open {s s' : Monitor} (h : s.Counts) (hnow : s.now ≤ s'.now)
    (hfailures : s'.failures = s.failures) (hcounted : s'.counted <:+ s.counted)
    (hclosed : s'.breaker.state = .closed → s'.breaker.errorCount = s'.counted.length ∧
      (s'.counted.length = 0 ∨ s'.counted.length < s'.breaker.config.errorThreshold.toNat)) :
    s'.Counts := by
  refine ⟨fun time ht => ?_,?_,?_,hclosed⟩
  · rw [hfailures] at ht
    exact (h.past time ht).trans hnow
  · rw [hfailures]
    exact h.ordered
  · rw [hfailures]
    exact hcounted.trans h.latest

theorem recordFailure_counts {s : Monitor} (h : s.Counts) : (s.next .recordFailure).Counts := by
  refine ⟨fun time ht => ?_,?_,?_,fun hclosed => ?_⟩
  · rcases List.mem_append.mp ht with ht | ht
    · exact h.past time ht
    · exact (List.mem_singleton.mp ht).le
  · refine List.pairwise_append.mpr ⟨h.ordered,List.pairwise_singleton _ _,?_⟩
    intro time ht now hnow
    rw [List.mem_singleton.mp hnow]
    exact h.past time ht
  · exact List.suffix_append_self_iff.mpr h.latest
  · rcases recordFailure_granted s.breaker s.now with ⟨_,hfail⟩ | ⟨hstate,hfail⟩
    · change (s.breaker.recordFailure granted s.now).state = .closed at hclosed
      rw [hfail] at hclosed
      cases hclosed
    · change (s.breaker.recordFailure granted s.now).state = .closed at hclosed
      change (s.breaker.recordFailure granted s.now).errorCount = (s.counted++[s.now]).length ∧
        ((s.counted++[s.now]).length = 0 ∨ (s.counted++[s.now]).length <
          (s.breaker.recordFailure granted s.now).config.errorThreshold.toNat)
      rw [hfail] at hclosed ⊢
      rcases hstate with ⟨hold,hbelow⟩ | hopened
      · rw [List.length_append,List.length_singleton]
        have hroom := counts_room h hold
        exact ⟨hroom,Or.inr (hroom ▸ hbelow)⟩
      · exact nomatch hopened.symm.trans hclosed

theorem next_counts (s : Monitor) (a : Action) (h : s.Counts) : (s.next a).Counts := by
  cases a with
  | canExecute =>
    refine counts_of_open (s := s) h le_rfl rfl List.suffix_rfl ?_
    unfold next
    rcases canExecute_granted s.breaker s.now with hsame | ⟨_,hopen⟩
    · simp only [hsame]
      exact h.closed
    · exact fun hclosed => absurd hclosed hopen
  | recordFailure => exact recordFailure_counts h
  | recordSuccess =>
    rcases recordSuccess_cases s.breaker s.now with hsame | ⟨hhalf,hclose⟩
    · have hnext : s.next .recordSuccess = s := by
        simp only [next,hsame,if_true]
      rw [hnext]
      exact h
    · have hchanged : ¬(s.breaker.recordSuccess s.now).state = s.breaker.state := by
        rw [hclose,hhalf]
        exact fun hsame => nomatch hsame
      have hcounted : (s.next .recordSuccess).counted = [] := if_neg hchanged
      have hcount : (s.next .recordSuccess).breaker.errorCount = 0 :=
        congrArg CircuitBreaker.errorCount hclose
      refine counts_of_open (s := s) h le_rfl rfl ?_ fun _ => ?_
      · rw [hcounted]
        exact List.nil_suffix
      · rw [hcounted,hcount]
        exact ⟨rfl,Or.inl rfl⟩
  | wait duration =>
    exact counts_of_open h (Nat.le_add_right _ _) rfl List.suffix_rfl h.closed

/-! ## The window and the counted failures -/

theorem inWindow_now (s : Monitor) : s.InWindow s.now = true :=
  decide_eq_true (Nat.le_add_right _ _)

theorem inWindow_mono {s : Monitor} {time time' : ℕ} (hle : time ≤ time')
    (h : s.InWindow time = true) : s.InWindow time' = true := by
  unfold InWindow at h ⊢
  rw [decide_eq_true_eq] at h ⊢
  omega

/-- As many failures as were counted, with the one now, lie in the window
exactly when all those counted do. -/
theorem window_full_iff {s : Monitor} (h : s.Counts) :
    s.counted.length+1 ≤ (s.failures++[s.now]).countP s.InWindow ↔
      ∀ time ∈ s.counted, s.InWindow time = true := by
  obtain ⟨older,hfailures⟩ := h.latest
  have hsplit : (s.failures++[s.now]).countP s.InWindow =
      older.countP s.InWindow+s.counted.countP s.InWindow+1 := by
    rw [List.countP_append,← hfailures,List.countP_append,List.countP_singleton,
      if_pos (inWindow_now s)]
  rw [hsplit]
  constructor
  · intro hfull time ht
    by_contra hout
    have hlt : s.counted.countP s.InWindow < s.counted.length := by
      apply lt_of_le_of_ne List.countP_le_length
      exact fun hall => hout (List.countP_eq_length.mp hall time ht)
    have hordered := h.ordered
    rw [← hfailures] at hordered
    have holder : older.countP s.InWindow = 0 := by
      apply List.countP_eq_zero.mpr
      intro time' ht' hin
      exact hout (inWindow_mono ((List.pairwise_append.mp hordered).2.2 time' ht' time ht) hin)
    omega
  · intro hall
    rw [List.countP_eq_length.mpr hall]
    omega

theorem windowKept_iff {s : Monitor} (a : Action) (h : s.Counts) :
    s.WindowKept a ↔ s.CountedRecently a := by
  cases a with
  | recordFailure =>
    unfold WindowKept CountedRecently
    apply imp_congr_right
    intro hclosed
    obtain ⟨hcount,hlength⟩ := h.closed hclosed
    have hroom := counts_room h hclosed
    have hopens : (s.next .recordFailure).breaker.state = .opened ↔
        s.breaker.config.errorThreshold.toNat ≤ s.breaker.errorCount+1 := by
      change (s.breaker.recordFailure granted s.now).state = .opened ↔ _
      rcases recordFailure_granted s.breaker s.now with ⟨hreached,hfail⟩ | ⟨hstate,hfail⟩
      · rw [hfail]
        have := hreached hclosed
        exact iff_of_true rfl (by omega)
      · rw [hfail]
        apply iff_of_false
        · intro hopened
          exact nomatch hclosed.symm.trans hopened
        · rcases hstate with ⟨_,hbelow⟩ | hopened
          · omega
          · exact nomatch hclosed.symm.trans hopened
    rw [hopens]
    apply imp_congr_right
    intro hreached
    rw [← window_full_iff h]
    have hnow : 0 < (s.failures++[s.now]).countP s.InWindow :=
      List.countP_pos_iff.mpr ⟨s.now,List.mem_append_right _ List.mem_cons_self,inWindow_now s⟩
    omega
  | _ => exact Iff.rfl

/-! ## All runs -/

theorem start_counts (endpointId : String) (config : CircuitBreakerConfig) (now : ℕ) :
    (start endpointId config now).Counts :=
  ⟨fun _ ht => (nomatch ht),List.Pairwise.nil,List.suffix_rfl,fun _ => ⟨rfl,Or.inl rfl⟩⟩

/-- Over any calls whose locks are granted, every failure that opens the
breaker has the threshold of failures in the window behind it exactly when
every failure that reaches the threshold finds all failures counted with it in
the window. -/
theorem window_kept_iff (endpointId : String) (config : CircuitBreakerConfig) (now : ℕ)
    (actions : List Action) :
    AtomicRun.Along next WindowKept actions (start endpointId config now) ↔
      AtomicRun.Along next CountedRecently actions (start endpointId config now) := by
  have hstart := start_counts endpointId config now
  constructor
  · exact AtomicRun.along_mono next_counts (fun s a h => (windowKept_iff a h).mp) hstart
  · exact AtomicRun.along_mono next_counts (fun s a h => (windowKept_iff a h).mpr) hstart

def twoStrikes : CircuitBreakerConfig where
  errorThreshold := 2
  errorWindow := 60000
  openDuration := 300000
  halfOpenAllowedRequests := 1

def isolatedFailures : List Action := [.recordFailure,.wait (3600*10^9),.recordFailure]

theorem isolated_failures_open :
    (AtomicRun.run next isolatedFailures (start "rpc" twoStrikes 0)).breaker.state = .opened ∧
      ¬AtomicRun.Along next WindowKept isolatedFailures (start "rpc" twoStrikes 0) := by
  refine ⟨by decide,?_⟩
  rintro ⟨_,_,hkept,_⟩
  have hwindow := hkept (by decide) (by decide)
  revert hwindow
  decide

end Monitor

end DiamondBot.CircuitBreaker
