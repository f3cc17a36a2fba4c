import Mathlib.Algebra.Order.Ring.Int
import Mathlib.Data.Nat.Find
import Mathlib.Order.Basic
import Mathlib.Tactic.ByContra
import Mathlib.Tactic.Push

/-!
# Waiting for a condition

What the condition gives at each poll is an input. The clock advances by the
interval between two polls, and instants and differences are in nanoseconds.
-/

set_option autoImplicit false

namespace DiamondBot.WaitForCondition

structure Duration where
  secs : UInt64
  nanos : ℕ
  nanos_lt : nanos < 10^9

namespace Duration

def ofSecs (secs : UInt64) : Duration := ⟨secs,0,by decide⟩

def asSecs (d : Duration) : UInt64 := d.secs

def asNanos (d : Duration) : ℕ := d.secs.toNat*10^9+d.nanos

end Duration

def signedDurationSince (later earlier : ℤ) : ℤ := later-earlier

def numSeconds (diff : ℤ) : ℤ := diff.tdiv (10^9)

def asI64 (n : UInt64) : ℤ := n.toInt64.toInt

def isTimeout (diff : ℤ) (timeout : Duration) : Bool :=
  decide (numSeconds diff < asI64 timeout.asSecs)

structure Waiting (R : Type) where
  condition : ℕ → Except String (Option R)
  timeout : Duration
  interval : Duration
  start : ℤ

namespace Waiting

variable {R : Type} (w : Waiting R)

/-- The loop from its `k`-th poll on, for so many rounds, with the poll it returns at. -/
def rounds : ℕ → ℕ → Option (Except String R×ℕ)
  | 0,_ => none
  | n+1,k =>
    match w.condition k with
    | .error e => some (.error e,k)
    | .ok (some result) => some (.ok result,k)
    | .ok none =>
      -- the difference is that of the start to itself
      if isTimeout (signedDurationSince w.start w.start) w.timeout then
        some (.error "Timeout waiting for condition",k)
      else rounds n (k+1)

def waitForCondition (fuel : ℕ) : Option (Except String R×ℕ) := w.rounds fuel 0

/-! ## What the caller waits for -/

/-- The time that has passed at a poll. -/
def elapsed (k : ℕ) : ℕ := k*w.interval.asNanos

/-- What a return at a poll rests on. -/
inductive Justified (k : ℕ) : Except String R → Prop
  | result (r : R) : w.condition k = .ok (some r) → Justified k (.ok r)
  | failure (e : String) : w.condition k = .error e → Justified k (.error e)
  | timeout : w.condition k = .ok none → w.timeout.asNanos ≤ w.elapsed k →
      Justified k (.error "Timeout waiting for condition")

def Silent (k : ℕ) : Prop := ∀ j < k, w.condition j = .ok none

structure ReturnsAt (k : ℕ) (result : Except String R) : Prop where
  silent : w.Silent k
  justified : w.Justified k result
  first : ∀ j r, w.Silent j → w.elapsed j < w.timeout.asNanos →
    w.condition j = .ok (some r) → result = .ok r

def MeetsDeadline : Prop :=
  ∃ fuel result k, w.waitForCondition fuel = some (result,k) ∧ w.ReturnsAt k result

/-! ## What the loop does -/

/-- The timeout read as a signed number is not positive. -/
def NeverTimesOut : Prop := w.timeout.secs = 0 ∨ 2^63 ≤ w.timeout.secs.toNat

variable {w}

theorem asI64_pos (n : UInt64) : 0 < asI64 n ↔ ¬(n = 0 ∨ 2^63 ≤ n.toNat) := by
  have hint : asI64 n = n.toBitVec.toInt := rfl
  have hlt := n.toNat_lt
  rw [hint,BitVec.toInt_eq_toNat_cond,← UInt64.toNat_inj]
  change 0 < (if 2*n.toNat < _ then (n.toNat : ℤ) else _) ↔ _
  rw [UInt64.toNat_zero]
  split
  · omega
  · simp only [UInt64.toNat_toBitVec]
    omega

theorem isTimeout_start :
    isTimeout (signedDurationSince w.start w.start) w.timeout = true ↔ ¬w.NeverTimesOut := by
  have hzero : numSeconds (signedDurationSince w.start w.start) = 0 := by
    simp [numSeconds,signedDurationSince]
  rw [isTimeout,decide_eq_true_eq,hzero]
  exact asI64_pos w.timeout.secs

theorem rounds_settled {k : ℕ} (h : w.condition k ≠ .ok none) :
    ∃ result, (∀ n, w.rounds (n+1) k = some (result,k)) ∧ w.Justified k result := by
  cases hpoll : w.condition k with
  | error e => exact ⟨.error e,fun n => by rw [rounds,hpoll],.failure e hpoll⟩
  | ok polled =>
    cases polled with
    | none => exact absurd hpoll h
    | some r => exact ⟨.ok r,fun n => by rw [rounds,hpoll],.result r hpoll⟩

theorem rounds_timeout {k : ℕ} (h : w.condition k = .ok none) (hends : ¬w.NeverTimesOut)
    (n : ℕ) : w.rounds (n+1) k = some (.error "Timeout waiting for condition",k) := by
  simp only [rounds,h]
  rw [if_pos (isTimeout_start.mpr hends)]

theorem rounds_again {k : ℕ} (h : w.condition k = .ok none) (hnever : w.NeverTimesOut)
    (n : ℕ) : w.rounds (n+1) k = w.rounds n (k+1) := by
  simp only [rounds,h]
  rw [if_neg fun htimeout => isTimeout_start.mp htimeout hnever]

theorem rounds_silent {k : ℕ} (h : w.Silent k) (hnever : w.NeverTimesOut) (n : ℕ) :
    w.waitForCondition (k+n) = w.rounds n k := by
  induction k generalizing n with
  | zero => rw [Nat.zero_add,waitForCondition]
  | succ k ih =>
    have hbefore : w.Silent k := fun j hj => h j (Nat.lt_succ_of_lt hj)
    rw [Nat.add_right_comm,Nat.add_assoc,ih hbefore,rounds_again (h k (Nat.lt_succ_self k)) hnever]

theorem returnsAt {k : ℕ} {result : Except String R} (hsilent : w.Silent k)
    (hjustified : w.Justified k result) : w.ReturnsAt k result where
  silent := hsilent
  justified := hjustified
  first := by
    intro j r hj hearly hr
    rcases Nat.lt_trichotomy k j with hlt | rfl | hlt
    · have hnone := hj k hlt
      cases hjustified with
      | result r' hr' => cases hnone.symm.trans hr'
      | failure e he => cases hnone.symm.trans he
      | timeout _ hlate =>
        have hmono : w.elapsed k ≤ w.elapsed j := Nat.mul_le_mul_right _ hlt.le
        omega
    · cases hjustified with
      | result r' hr' =>
        cases hr.symm.trans hr'
        rfl
      | failure e he => cases hr.symm.trans he
      | timeout hnone _ => cases hr.symm.trans hnone
    · cases hr.symm.trans (hsilent j hlt)

theorem meetsDeadline_of_settled {k : ℕ} (h : w.condition k ≠ .ok none) (hsilent : w.Silent k)
    (hreached : ∀ n, w.waitForCondition (k+n) = w.rounds n k) : w.MeetsDeadline := by
  rcases rounds_settled h with ⟨result,hrounds,hjustified⟩
  exact ⟨k+1,result,k,(hreached 1).trans (hrounds 0),returnsAt hsilent hjustified⟩

theorem neverTimesOut_of_meetsDeadline (h : w.MeetsDeadline) (hnone : w.condition 0 = .ok none) :
    w.NeverTimesOut := by
  by_contra hends
  rcases h with ⟨fuel,result,k,hrun,hreturns⟩
  cases fuel with
  | zero => cases hrun
  | succ n =>
    rw [waitForCondition,rounds_timeout hnone hends] at hrun
    cases hrun
    cases hreturns.justified with
    | failure e he => cases hnone.symm.trans he
    | timeout _ hlate =>
      rw [elapsed,Nat.zero_mul,Duration.asNanos] at hlate
      apply hends
      left
      rw [← UInt64.toNat_inj,UInt64.toNat_zero]
      omega

/-- The wait keeps its promise when the first poll decides, or when the timeout is never
noticed and some poll decides. -/
theorem meetsDeadline_iff (w : Waiting R) :
    w.MeetsDeadline ↔
      w.condition 0 ≠ .ok none ∨ w.NeverTimesOut ∧ ∃ k, w.condition k ≠ .ok none := by
  constructor
  · intro h
    by_cases hnone : w.condition 0 = .ok none
    · have hnever := neverTimesOut_of_meetsDeadline h hnone
      refine Or.inr ⟨hnever,?_⟩
      by_contra hall
      push Not at hall
      rcases h with ⟨fuel,result,k,hrun,_⟩
      have hsilent : w.Silent fuel := fun j _ => hall j
      have hnothing := rounds_silent hsilent hnever 0
      rw [Nat.add_zero,hrun] at hnothing
      cases hnothing
    · exact Or.inl hnone
  · rintro (hfirst | ⟨hnever,hsome⟩)
    · apply meetsDeadline_of_settled hfirst fun j hj => absurd hj (Nat.not_lt_zero j)
      intro n
      rw [Nat.zero_add,waitForCondition]
    · classical
      have hsilent : w.Silent (Nat.find hsome) :=
        fun j hj => not_not.mp (Nat.find_min hsome hj)
      exact meetsDeadline_of_settled (Nat.find_spec hsome) hsilent (rounds_silent hsilent hnever)

/-- Five seconds are given, and the second poll, after one second, has the result. -/
theorem meetsDeadline_counterexample :
    let w : Waiting ℕ :=
      ⟨fun k => .ok (if k = 1 then some 7 else none),Duration.ofSecs 5,Duration.ofSecs 1,0⟩
    w.waitForCondition 1 = some (.error "Timeout waiting for condition",0) ∧
      ¬w.MeetsDeadline := by
  constructor
  · rfl
  · intro h
    rcases neverTimesOut_of_meetsDeadline h rfl with hzero | hlarge
    · exact absurd hzero (by decide)
    · exact absurd hlarge (by decide)

end Waiting

end DiamondBot.WaitForCondition
