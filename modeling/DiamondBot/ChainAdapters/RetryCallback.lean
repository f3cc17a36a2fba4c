import DiamondBot.Library.AtomicRun
import Mathlib.Algebra.Order.Ring.Nat
import Mathlib.Data.List.Nodup
import Mathlib.Data.List.Perm.Basic
import Mathlib.Data.List.Range

/-!
# The retry callback

A call copies the retry information in one critical section and writes the
changed copy back in another, so calls may come between. The callback is asked
about the copy.
-/

set_option autoImplicit false

namespace DiamondBot.RetryCallbacks
open Library AtomicRun

structure RetryInfo where
  attempts : UInt32
  lastError : Option String
  lastAttempt : UInt64

inductive RetryDecision
  | retry (delay : UInt64)
  | abort

structure RetryCallback where
  callback : RetryInfo → RetryDecision
  current : RetryInfo

def RetryInfo.failed (info : RetryInfo) (error : String) (now : UInt64) : RetryInfo where
  attempts := info.attempts+1
  lastError := some error
  lastAttempt := now

namespace RetryCallback

def new (callback : RetryInfo → RetryDecision) (now : UInt64) : RetryCallback :=
  ⟨callback,0,none,now⟩

def getCurrentSafe (p : RetryCallback) : RetryInfo := p.current

def updateSafe (p : RetryCallback) (info : RetryInfo) : Except String Unit×RetryCallback :=
  (.ok (),{ p with current := info })

def shouldRetry (p : RetryCallback) (error : String) (now : UInt64) :
    RetryDecision×RetryCallback :=
  let updated := p.getCurrentSafe.failed error now
  (p.callback updated,(p.updateSafe updated).2)

end RetryCallback

/-! ## Calls at the same time -/

structure ShouldRetry where
  updated : RetryInfo
  decision : Option RetryDecision

structure Calls where
  policy : RetryCallback
  calls : List ShouldRetry

inductive Action
  | read (error : String) (now : UInt64)
  | write (i : ℕ)

def Action.isRead : Action → Bool
  | .read _ _ => true
  | .write _ => false

namespace Calls

def begin (callback : RetryInfo → RetryDecision) (now : UInt64) : Calls :=
  ⟨.new callback now,[]⟩

def next (s : Calls) : Action → Calls
  | .read error now =>
    { s with calls := s.calls++[⟨s.policy.getCurrentSafe.failed error now,none⟩] }
  | .write i =>
    match s.calls[i]? with
    | some ⟨updated,none⟩ =>
      ⟨(s.policy.updateSafe updated).2,
        s.calls.set i ⟨updated,some (s.policy.callback updated)⟩⟩
    | _ => s

def passed (s : Calls) : List RetryInfo :=
  (s.calls.filter (·.decision.isSome)).map (·.updated)

def Finished (s : Calls) : Prop := ∀ c ∈ s.calls, c.decision.isSome = true

instance (s : Calls) : Decidable s.Finished :=
  inferInstanceAs (Decidable (∀ c ∈ s.calls, c.decision.isSome = true))

/-- Every call was counted once. -/
structure CountsEvery (s : Calls) : Prop where
  passed : (s.passed.map (·.attempts.toNat)).Perm (List.range' 1 s.calls.length)
  stored : s.policy.current.attempts.toNat = s.calls.length

/-- Nobody reads before the earlier calls have written. -/
def Alone (s : Calls) : Action → Prop
  | .read _ _ => s.Finished
  | .write _ => True

theorem next_alone (s : Calls) (error : String) (now : UInt64) :
    (s.next (.read error now)).next (.write s.calls.length) =
      ⟨(s.policy.shouldRetry error now).2,
        s.calls++[⟨s.policy.getCurrentSafe.failed error now,
          some (s.policy.shouldRetry error now).1⟩]⟩ := by
  rw [next,next]
  dsimp only
  rw [List.getElem?_concat_length]
  dsimp only
  rw [List.set_append_right _ _ le_rfl,Nat.sub_self]
  rfl

/-! ## What is counted -/

def attempts (s : Calls) : List UInt32 := s.calls.map (·.updated.attempts)

def counted (n : ℕ) : List UInt32 := (List.range' 1 n).map UInt32.ofNat

/-- The calls have been counted one by one, and the last may not have written. -/
inductive Ordered : Calls → Prop
  | settled (s : Calls) : s.Finished → s.attempts = counted s.calls.length →
      s.policy.current.attempts = .ofNat s.calls.length → Ordered s
  | busy (policy : RetryCallback) (done : List ShouldRetry) (updated : RetryInfo) :
      Finished ⟨policy,done⟩ → attempts ⟨policy,done⟩ = counted done.length →
      policy.current.attempts = .ofNat done.length →
      updated.attempts = .ofNat (done.length+1) → Ordered ⟨policy,done++[⟨updated,none⟩]⟩

variable {s : Calls}

theorem counted_succ (n : ℕ) : counted (n+1) = counted n++[.ofNat (n+1)] := by
  rw [counted,List.range'_1_concat,List.map_append,Nat.add_comm 1 n]
  rfl

theorem write_cases (s : Calls) (i : ℕ) :
    s.next (.write i) = s ∨ ∃ updated, s.calls[i]? = some ⟨updated,none⟩ ∧
      s.next (.write i) = ⟨{ s.policy with current := updated },
        s.calls.set i ⟨updated,some (s.policy.callback updated)⟩⟩ := by
  rw [next]
  split
  · next updated h => exact Or.inr ⟨updated,h,rfl⟩
  · exact Or.inl rfl

theorem write_attempts (s : Calls) (i : ℕ) : (s.next (.write i)).attempts = s.attempts := by
  rcases write_cases s i with hsame | ⟨updated,hcall,hnext⟩
  · rw [hsame]
  · obtain ⟨hi,hget⟩ := List.getElem?_eq_some_iff.mp hcall
    have hlen : i < s.attempts.length := by rwa [attempts,List.length_map]
    have hsame : s.attempts[i] = updated.attempts := by
      simp only [attempts,List.getElem_map,hget]
    rw [hnext,attempts,List.map_set]
    dsimp only
    rw [← hsame]
    exact List.set_getElem_self hlen

theorem next_attempts (s : Calls) (a : Action) : s.attempts <+: (s.next a).attempts := by
  cases a with
  | read error now =>
    rw [next,attempts,attempts,List.map_append]
    exact List.prefix_append _ _
  | write i => exact (write_attempts s i) ▸ List.prefix_rfl

theorem ordered_settled (h : Ordered s) (hfinished : s.Finished) :
    s.attempts = counted s.calls.length ∧
      s.policy.current.attempts = .ofNat s.calls.length := by
  cases h with
  | settled _ _ hattempts hcurrent => exact ⟨hattempts,hcurrent⟩
  | busy policy done updated =>
    cases hfinished _ (List.mem_append_right done (List.mem_singleton.mpr rfl))

theorem write_ordered (h : Ordered s) (i : ℕ) : Ordered (s.next (.write i)) := by
  rcases write_cases s i with hsame | ⟨updated,hcall,hnext⟩
  · rwa [hsame]
  · cases h with
    | settled _ hfinished => cases hfinished _ (List.mem_of_getElem? hcall)
    | busy policy done updated' hfinished hattempts hcurrent hupdated =>
      rcases Nat.lt_trichotomy i done.length with hlt | rfl | hgt
      · rw [List.getElem?_append_left hlt] at hcall
        cases hfinished _ (List.mem_of_getElem? hcall)
      · rw [List.getElem?_concat_length] at hcall
        cases hcall
        rw [hnext]
        dsimp only
        rw [List.set_append_right _ _ le_rfl,Nat.sub_self,List.set_cons_zero]
        apply Ordered.settled
        · intro c hc
          rcases List.mem_append.mp hc with hold | hnew
          · exact hfinished c hold
          · rw [List.mem_singleton.mp hnew]
            rfl
        · dsimp only
          rw [attempts,List.map_append,List.length_append]
          change attempts ⟨policy,done⟩++[updated.attempts] = counted (done.length+1)
          rw [counted_succ,hattempts,hupdated]
        · rw [List.length_append]
          exact hupdated
      · rw [List.getElem?_eq_none (by rw [List.length_append,List.length_singleton]; omega)]
          at hcall
        cases hcall

theorem next_ordered (h : Ordered s) {a : Action} (halone : s.Alone a) : Ordered (s.next a) := by
  cases a with
  | read error now =>
    obtain ⟨hattempts,hcurrent⟩ := ordered_settled h halone
    apply Ordered.busy s.policy s.calls _ halone hattempts hcurrent
    change s.policy.current.attempts+1 = _
    rw [hcurrent,UInt32.ofNat_add]
    rfl
  | write i => exact write_ordered h i

theorem read_repeats (h : Ordered s) (hbusy : ¬s.Finished) (error : String) (now : UInt64) :
    ¬(s.next (.read error now)).attempts.Nodup := by
  cases h with
  | settled _ hfinished => exact absurd hfinished hbusy
  | busy policy done updated _ _ hcurrent hupdated =>
    have hlast : (next ⟨policy,done++[⟨updated,none⟩]⟩ (.read error now)).attempts =
        (attempts ⟨policy,done⟩++[updated.attempts])++[policy.current.attempts+1] := by
      simp only [next,attempts,List.map_append]
      rfl
    rw [hlast,hcurrent,hupdated,UInt32.ofNat_add]
    intro hnodup
    exact (List.nodup_append.mp hnodup).2.2 _
      (List.mem_append_right _ (List.mem_singleton.mpr rfl)) _ (List.mem_singleton.mpr rfl) rfl

/-- Different numbers come from calls that were alone. -/
theorem along_of_nodup (h : Ordered s) {actions : List Action}
    (hnodup : (run next actions s).attempts.Nodup) : Along next Alone actions s := by
  induction actions generalizing s with
  | nil => trivial
  | cons a actions ih =>
    have hkept : (s.next a).attempts.Nodup := by
      have hkeeps : (s.next a).attempts <+: (run next actions (s.next a)).attempts :=
        run_history (J := fun _ => True) (r := fun s t : Calls => s.attempts <+: t.attempts)
          (fun _ => List.prefix_rfl) (fun _ _ _ => List.IsPrefix.trans) (fun _ _ _ => trivial)
          (fun s a _ => next_attempts s a) trivial actions
      exact hnodup.sublist hkeeps.sublist
    have halone : s.Alone a := by
      cases a with
      | read error now =>
        by_contra hbusy
        exact read_repeats h hbusy error now hkept
      | write i => trivial
    exact ⟨halone,ih (next_ordered h halone) hnodup⟩

/-! ## All interleavings -/

theorem passed_of_finished (h : s.Finished) :
    s.passed.map (·.attempts.toNat) = s.attempts.map UInt32.toNat := by
  rw [passed,List.filter_eq_self.mpr h,attempts,List.map_map,List.map_map]
  rfl

theorem length_run (actions : List Action) (s : Calls) :
    (run next actions s).calls.length = s.calls.length+actions.countP (·.isRead) := by
  induction actions generalizing s with
  | nil => rfl
  | cons a actions ih =>
    rw [run,ih]
    cases a with
    | read error now =>
      rw [List.countP_cons_of_pos rfl,next,List.length_append,List.length_singleton]
      omega
    | write i =>
      have hlength : (s.next (.write i)).calls.length = s.calls.length := by
        have hmap := congrArg List.length (write_attempts s i)
        rwa [attempts,attempts,List.length_map,List.length_map] at hmap
      rw [List.countP_cons_of_neg Bool.false_ne_true,hlength]

theorem counted_toNat {n : ℕ} (hn : n < 2^32) :
    (counted n).map UInt32.toNat = List.range' 1 n := by
  rw [counted,List.map_map]
  conv_rhs => rw [← List.map_id (List.range' 1 n)]
  apply List.map_congr_left
  intro i hi
  rw [List.mem_range'_1] at hi
  exact (UInt32.toNat_ofNat').trans (Nat.mod_eq_of_lt (by omega))

/-- When all calls have ended, they were counted as they should be just if no call read
between another's read and its write, and the counter was large enough. -/
theorem countsEvery_iff (callback : RetryInfo → RetryDecision) (now : UInt64)
    (actions : List Action) (hfinished : (run next actions (begin callback now)).Finished) :
    (run next actions (begin callback now)).CountsEvery ↔
      Along next Alone actions (begin callback now) ∧ actions.countP (·.isRead) < 2^32 := by
  have hstart : Ordered (begin callback now) :=
    .settled _ (fun _ hc => absurd hc List.not_mem_nil) rfl rfl
  have hlength : (run next actions (begin callback now)).calls.length =
      actions.countP (·.isRead) := (length_run actions _).trans (Nat.zero_add _)
  constructor
  · intro h
    constructor
    · apply along_of_nodup hstart
      have hnodup := h.passed.nodup_iff.mpr List.nodup_range'
      rw [passed_of_finished hfinished] at hnodup
      exact List.Nodup.of_map _ hnodup
    · rw [← hlength,← h.stored]
      exact UInt32.toNat_lt _
  · rintro ⟨halone,hlt⟩
    have hordered := run_invariant_along (I := Ordered) (fun _ _ h ha => next_ordered h ha)
      hstart halone
    obtain ⟨hattempts,hcurrent⟩ := ordered_settled hordered hfinished
    rw [← hlength] at hlt
    constructor
    · rw [passed_of_finished hfinished,hattempts,counted_toNat hlt]
    · rw [hcurrent]
      exact (UInt32.toNat_ofNat').trans (Nat.mod_eq_of_lt hlt)

def abortAll : RetryInfo → RetryDecision := fun _ => .abort

theorem countsEvery_iff_two_calls :
    (run next [.read "busy" 5,.write 0,.read "busy" 6,.write 1] (begin abortAll 0)).CountsEvery ↔
      Along next Alone [.read "busy" 5,.write 0,.read "busy" 6,.write 1] (begin abortAll 0) ∧
        2 < 2^32 :=
  countsEvery_iff abortAll 0 _ (by decide)

/-- Both calls pass one to the callback. -/
theorem countsEvery_counterexample :
    let s := run next [.read "busy" 5,.read "down" 5,.write 0,.write 1] (begin abortAll 0)
    s.Finished ∧ ¬s.CountsEvery := by
  constructor
  · decide
  · intro h
    exact absurd h.stored (by decide)

end Calls

end DiamondBot.RetryCallbacks
