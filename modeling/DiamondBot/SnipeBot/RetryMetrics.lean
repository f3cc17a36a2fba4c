import DiamondBot.Library.AtomicRun
import DiamondBot.Library.Averages
import DiamondBot.Library.Checked

/-!
# The metrics of retried operations

The average time is that of the operations that succeeded, and moves by a
fraction of its distance to each new one. The counters wrap around; the
difference and the sum are checked.
-/

set_option autoImplicit false

namespace DiamondBot.Metric
open Library AtomicRun Averages

structure RetryMetrics where
  successfulRetries : UInt64
  failedRetries : UInt64
  totalRetries : UInt64
  firstAttemptSuccess : UInt64
  avgCompletionTimeMs : UInt64
  fallbackProviderActivations : UInt64

structure Attempt where
  isSuccess : Bool
  attemptNumber : UInt32
  completionTimeMs : UInt64

namespace RetryMetrics

def default : RetryMetrics := ⟨0,0,0,0,0,0⟩

def counted (m : RetryMetrics) (attemptNumber : UInt32) : RetryMetrics :=
  { m with
    totalRetries := m.totalRetries+1
    successfulRetries := m.successfulRetries+1
    firstAttemptSuccess :=
      if attemptNumber = 1 then m.firstAttemptSuccess+1 else m.firstAttemptSuccess }

def newAvg (currentAvg completionTimeMs totalSuccesses : UInt64) : Except String ℕ :=
  if totalSuccesses = 1 then .ok completionTimeMs.toNat
  else do
    let difference ← Checked.sub completionTimeMs.toNat currentAvg.toNat
    Checked.add 64 currentAvg.toNat (difference/totalSuccesses.toNat)

def recordRetryAttempt (m : RetryMetrics) (a : Attempt) : Except String Unit×RetryMetrics :=
  if a.isSuccess then
    let m := m.counted a.attemptNumber
    if m.successfulRetries > 0 then
      match newAvg m.avgCompletionTimeMs a.completionTimeMs m.successfulRetries with
      | .ok avg => (.ok (),{ m with avgCompletionTimeMs := .ofNat avg })
      | .error e => (.error e,m)
    else (.ok (),m)
  else
    (.ok (),{ m with
      totalRetries := m.totalRetries+1
      failedRetries := m.failedRetries+1 })

def getSuccessRate (m : RetryMetrics) : Float :=
  if m.totalRetries = 0 then 0.0
  else m.successfulRetries.toFloat/m.totalRetries.toFloat*100.0

end RetryMetrics

/-! ## One record -/

namespace RetryMetrics

variable {m : RetryMetrics} {a : Attempt} {currentAvg completionTimeMs totalSuccesses : UInt64}

theorem newAvg_raised (hmore : totalSuccesses ≠ 1) (hle : currentAvg ≤ completionTimeMs) :
    newAvg currentAvg completionTimeMs totalSuccesses = .ok (currentAvg.toNat+
      (completionTimeMs.toNat-currentAvg.toNat)/totalSuccesses.toNat) := by
  rw [UInt64.le_iff_toNat_le] at hle
  have hdiv := Nat.div_le_self (completionTimeMs.toNat-currentAvg.toNat) totalSuccesses.toNat
  have hlt := completionTimeMs.toNat_lt
  rw [newAvg,if_neg hmore,Checked.sub,if_pos hle]
  exact if_pos (by omega)

theorem newAvg_lowered (hmore : totalSuccesses ≠ 1) (hlt : ¬currentAvg ≤ completionTimeMs) :
    newAvg currentAvg completionTimeMs totalSuccesses =
      .error "attempt to subtract with overflow" := by
  rw [UInt64.le_iff_toNat_le] at hlt
  rw [newAvg,if_neg hmore,Checked.sub,if_neg hlt]
  rfl

theorem record_failed (h : a.isSuccess = false) :
    (m.recordRetryAttempt a).1 = .ok () ∧
      (m.recordRetryAttempt a).2.avgCompletionTimeMs = m.avgCompletionTimeMs ∧
      (m.recordRetryAttempt a).2.successfulRetries = m.successfulRetries := by
  rw [recordRetryAttempt,h]
  exact ⟨rfl,rfl,rfl⟩

theorem record_full (h : a.isSuccess = true) (hfull : ¬0 < m.successfulRetries+1) :
    m.recordRetryAttempt a = (.ok (),m.counted a.attemptNumber) := by
  rw [recordRetryAttempt,if_pos h]
  exact if_neg hfull

theorem record_ok (h : a.isSuccess = true) (hpos : 0 < m.successfulRetries+1) {avg : ℕ}
    (havg : newAvg m.avgCompletionTimeMs a.completionTimeMs (m.successfulRetries+1) = .ok avg) :
    m.recordRetryAttempt a =
      (.ok (),{ m.counted a.attemptNumber with avgCompletionTimeMs := .ofNat avg }) := by
  rw [recordRetryAttempt,if_pos h]
  refine (if_pos hpos).trans ?_
  change (match newAvg m.avgCompletionTimeMs a.completionTimeMs (m.successfulRetries+1) with
    | .ok avg => _
    | .error e => _) = _
  rw [havg]

theorem record_error (h : a.isSuccess = true) (hpos : 0 < m.successfulRetries+1) {e : String}
    (havg : newAvg m.avgCompletionTimeMs a.completionTimeMs (m.successfulRetries+1) = .error e) :
    m.recordRetryAttempt a = (.error e,m.counted a.attemptNumber) := by
  rw [recordRetryAttempt,if_pos h]
  refine (if_pos hpos).trans ?_
  change (match newAvg m.avgCompletionTimeMs a.completionTimeMs (m.successfulRetries+1) with
    | .ok avg => _
    | .error e => _) = _
  rw [havg]

theorem record_counts (h : a.isSuccess = true) :
    (m.recordRetryAttempt a).2.successfulRetries = m.successfulRetries+1 := by
  by_cases hpos : 0 < m.successfulRetries+1
  · cases havg : newAvg m.avgCompletionTimeMs a.completionTimeMs (m.successfulRetries+1) with
    | ok avg => rw [record_ok h hpos havg]; rfl
    | error e => rw [record_error h hpos havg]; rfl
  · rw [record_full h hpos]
    rfl

end RetryMetrics

/-! ## Records over time -/

structure Recording where
  metrics : RetryMetrics
  durations : List ℕ
  panics : List String

namespace Recording

def start : Recording := ⟨.default,[],[]⟩

def next (s : Recording) (a : Attempt) : Recording where
  metrics := (s.metrics.recordRetryAttempt a).2
  durations := if a.isSuccess then s.durations++[a.completionTimeMs.toNat] else s.durations
  panics := match (s.metrics.recordRetryAttempt a).1 with
    | .ok () => s.panics
    | .error e => s.panics++[e]

/-- Nothing has failed, and the average lies between the times it is of. -/
structure Sound (s : Recording) : Prop where
  panics : s.panics = []
  between : s.durations ≠ [] → Between s.durations s.metrics.avgCompletionTimeMs.toNat

/-- A success that moves the average takes no less time than that. -/
def NotFaster (s : Recording) (a : Attempt) : Prop :=
  a.isSuccess = true → 1 < s.metrics.successfulRetries+1 →
    s.metrics.avgCompletionTimeMs ≤ a.completionTimeMs

def Counted (s : Recording) : Prop :=
  s.metrics.successfulRetries = .ofNat s.durations.length

variable {s : Recording} {a : Attempt}

theorem counted_next (s : Recording) (a : Attempt) (h : s.Counted) : (s.next a).Counted := by
  unfold Counted next
  cases hsuccess : a.isSuccess with
  | false =>
    rw [(RetryMetrics.record_failed hsuccess).2.2]
    exact h
  | true =>
    rw [RetryMetrics.record_counts hsuccess,h]
    simp

theorem durations_ne (h : s.Counted) (hmore : s.metrics.successfulRetries+1 ≠ 1) :
    s.durations ≠ [] := by
  intro hnone
  rw [Counted,hnone] at h
  rw [h] at hmore
  exact hmore rfl

theorem count_pos {n : UInt64} (h : 1 < n) : 0 < n := by
  rw [UInt64.lt_iff_toNat_lt] at *
  exact Nat.zero_lt_of_lt h

theorem sound_of_ok (hs : s.Sound) (hsuccess : a.isSuccess = true)
    (hok : (s.metrics.recordRetryAttempt a).1 = .ok ())
    (hbetween : Between (s.durations++[a.completionTimeMs.toNat])
      (s.metrics.recordRetryAttempt a).2.avgCompletionTimeMs.toNat) : (s.next a).Sound where
  panics := by
    rw [next,hok]
    exact hs.panics
  between := by
    intro _
    rw [next,hsuccess]
    exact hbetween

theorem not_sound_of_error {e : String}
    (herror : (s.metrics.recordRetryAttempt a).1 = .error e) : ¬(s.next a).Sound := by
  intro h
  have hpanics := h.panics
  rw [next,herror] at hpanics
  exact List.concat_ne_nil e s.panics hpanics

theorem sound_failed (hs : s.Sound) (hfailed : a.isSuccess = false) : (s.next a).Sound := by
  obtain ⟨hok,havg,_⟩ := RetryMetrics.record_failed (m := s.metrics) hfailed
  constructor
  · rw [next,hok]
    exact hs.panics
  · rw [next,hfailed]
    dsimp only
    rw [havg]
    exact hs.between

theorem sound_first (hs : s.Sound) (hsuccess : a.isSuccess = true)
    (hfirst : s.metrics.successfulRetries+1 = 1) : (s.next a).Sound := by
  have hpos : 0 < s.metrics.successfulRetries+1 := by
    rw [hfirst]
    decide
  have hrecord := RetryMetrics.record_ok hsuccess hpos (if_pos hfirst)
  apply sound_of_ok hs hsuccess (by rw [hrecord])
  rw [hrecord]
  dsimp only
  rw [UInt64.ofNat_toNat]
  exact between_of_mem (List.mem_append_right _ (List.mem_singleton.mpr rfl))

theorem sound_full (hcounted : s.Counted) (hs : s.Sound) (hsuccess : a.isSuccess = true)
    (hfull : ¬0 < s.metrics.successfulRetries+1) : (s.next a).Sound := by
  have hrecord := RetryMetrics.record_full hsuccess hfull
  have hne : s.metrics.successfulRetries+1 ≠ 1 := by
    intro hone
    rw [hone] at hfull
    exact hfull (by decide)
  apply sound_of_ok hs hsuccess (by rw [hrecord])
  rw [hrecord]
  exact between_mono (hs.between (durations_ne hcounted hne)) (List.subset_append_left _ _)

theorem sound_raised (hcounted : s.Counted) (hs : s.Sound) (hsuccess : a.isSuccess = true)
    (hmore : 1 < s.metrics.successfulRetries+1)
    (hle : s.metrics.avgCompletionTimeMs ≤ a.completionTimeMs) : (s.next a).Sound := by
  have hpos : 0 < s.metrics.successfulRetries+1 := count_pos hmore
  have hne : s.metrics.successfulRetries+1 ≠ 1 := (UInt64.ne_of_lt hmore).symm
  have hrecord := RetryMetrics.record_ok hsuccess hpos (RetryMetrics.newAvg_raised hne hle)
  have hmoved := between_raised (UInt64.le_iff_toNat_le.mp hle)
    (s.metrics.successfulRetries+1).toNat
  have hfits := between_lt hmoved s.metrics.avgCompletionTimeMs.toNat_lt a.completionTimeMs.toNat_lt
  apply sound_of_ok hs hsuccess (by rw [hrecord])
  rw [hrecord]
  dsimp only
  rw [UInt64.toNat_ofNat',Nat.mod_eq_of_lt hfits]
  exact between_next (hs.between (durations_ne hcounted hne)) hmoved

theorem sound_next_iff (hcounted : s.Counted) (hs : s.Sound) :
    (s.next a).Sound ↔ s.NotFaster a := by
  cases hsuccess : a.isSuccess with
  | false => exact iff_of_true (sound_failed hs hsuccess) fun h => by cases hsuccess.symm.trans h
  | true =>
    by_cases hmore : 1 < s.metrics.successfulRetries+1
    · by_cases hle : s.metrics.avgCompletionTimeMs ≤ a.completionTimeMs
      · exact iff_of_true (sound_raised hcounted hs hsuccess hmore hle) fun _ _ => hle
      · have hrecord := RetryMetrics.record_error hsuccess (count_pos hmore)
          (RetryMetrics.newAvg_lowered (UInt64.ne_of_lt hmore).symm hle)
        exact iff_of_false (not_sound_of_error (by rw [hrecord])) fun h => hle (h hsuccess hmore)
    · refine iff_of_true ?_ fun _ h => absurd h hmore
      by_cases hpos : 0 < s.metrics.successfulRetries+1
      · apply sound_first hs hsuccess
        rw [UInt64.lt_iff_toNat_lt] at hpos hmore
        rw [← UInt64.toNat_inj]
        exact Nat.le_antisymm (not_lt.mp hmore) hpos
      · exact sound_full hcounted hs hsuccess hpos

theorem start_sound : start.Sound := ⟨rfl,fun h => absurd rfl h⟩

/-- The average is sound all along just if no success takes less time than the average it
moves. -/
theorem recordings_sound_iff (attempts : List Attempt) :
    Throughout next Sound attempts start ↔ Along next NotFaster attempts start :=
  throughout_iff_along counted_next (fun _ _ => sound_next_iff) rfl start_sound

/-- A second operation takes half the time of the first. -/
theorem recordings_sound_counterexample :
    ¬Throughout next Sound [⟨true,1,10⟩,⟨true,1,5⟩] start := by
  rintro ⟨_,hfirst,hsecond⟩
  have hcounted := counted_next start ⟨true,1,10⟩ rfl
  exact absurd ((sound_next_iff hcounted hfirst).mp hsecond rfl (by decide)) (by decide)

end Recording

end DiamondBot.Metric
