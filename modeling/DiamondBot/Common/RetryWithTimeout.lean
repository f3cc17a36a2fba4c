import DiamondBot.Common.WaitForCondition

/-!
# Retries under a deadline

What the function gives at each call and what the clock shows before it are
inputs. The clock never goes back, and a difference of instants has fewer than
64 bits of seconds.
-/

set_option autoImplicit false

namespace DiamondBot.RetryWithTimeout
open WaitForCondition

structure Retrying (R E : Type) where
  f : ℕ → Except E R
  fromText : String → E
  maxRetries : UInt32
  timeout : Duration
  start : ℤ
  clock : ℕ → ℤ
  start_le : start ≤ clock 0
  clock_mono : ∀ j k, j ≤ k → clock j ≤ clock k
  clock_lt : ∀ k, signedDurationSince (clock k) start < 2^63*10^9

/-- The result, the number of calls made, and the waits between them in milliseconds. -/
structure Returned (R E : Type) where
  result : Except E R
  calls : ℕ
  waits : List ℕ

namespace Retrying

variable {R E : Type} (r : Retrying R E)

/-- The test before the `k`-th call. -/
def timesOut (k : ℕ) : Bool :=
  let diff := signedDurationSince (r.clock k) r.start
  decide (numSeconds diff < asI64 r.timeout.asSecs)

def loop (retries : ℕ) (waits : List ℕ) : Returned R E :=
  if retries < r.maxRetries.toNat then
    if r.timesOut retries then
      ⟨.error (r.fromText s!"Operation timed out after {retries} retries"),retries,waits⟩
    else
      match r.f retries with
      | .ok result => ⟨.ok result,retries+1,waits⟩
      | .error e =>
        if retries+1 ≥ r.maxRetries.toNat then ⟨.error e,retries+1,waits⟩
        else loop (retries+1) (waits++[100*(retries+1)])
  else ⟨.error (r.fromText s!"Operation failed after {r.maxRetries} retries"),retries,waits⟩
termination_by r.maxRetries.toNat-retries

def retryWithTimeout : Returned R E := r.loop 0 []

/-! ## What the caller relies on -/

def Expired (k : ℕ) : Prop :=
  (r.timeout.secs.toNat : ℤ)*10^9 ≤ signedDurationSince (r.clock k) r.start

/-- What a return after so many calls rests on. -/
inductive Justified : ℕ → Except E R → Prop
  | result (k : ℕ) (result : R) : r.f k = .ok result → Justified (k+1) (.ok result)
  | failure (k : ℕ) (e : E) : k+1 = r.maxRetries.toNat → r.f k = .error e →
      Justified (k+1) (.error e)
  | timeout (k : ℕ) : r.Expired k →
      Justified k (.error (r.fromText s!"Operation timed out after {k} retries"))

structure MeetsDeadline (returned : Returned R E) : Prop where
  once : 1 ≤ returned.calls
  calls : returned.calls ≤ r.maxRetries.toNat
  first : ∀ k result, k < returned.calls → r.f k = .ok result →
    k+1 = returned.calls ∧ returned.result = .ok result
  justified : r.Justified returned.calls returned.result
  early : ∀ k < returned.calls, ¬r.Expired k

/-! ## What the loop does -/

/-- The timeout is negative as a signed number. -/
def NeverTimesOut : Prop := 2^63 ≤ r.timeout.secs.toNat

variable {r}

theorem elapsed_nonneg (k : ℕ) : 0 ≤ signedDurationSince (r.clock k) r.start :=
  Int.sub_nonneg_of_le (r.start_le.trans (r.clock_mono 0 k (Nat.zero_le k)))

theorem asI64_eq (n : UInt64) : asI64 n = if n.toNat < 2^63 then (n.toNat : ℤ) else n.toNat-2^64 := by
  have hint : asI64 n = n.toBitVec.toInt := rfl
  rw [hint,BitVec.toInt_eq_toNat_cond,UInt64.toNat_toBitVec]
  split
  · rw [if_pos (by omega)]
  · rw [if_neg (by omega)]
    rfl

theorem timesOut_iff (k : ℕ) : r.timesOut k = true ↔ ¬r.NeverTimesOut ∧ ¬r.Expired k := by
  have hpos := r.elapsed_nonneg k
  unfold timesOut NeverTimesOut Expired
  generalize signedDurationSince (r.clock k) r.start = diff at *
  rw [decide_eq_true_eq,numSeconds,Int.tdiv_eq_ediv_of_nonneg hpos,Duration.asSecs,asI64_eq]
  have hlt := r.timeout.secs.toNat_lt
  split
  · omega
  · omega

theorem loop_timesOut {k : ℕ} {waits : List ℕ} (h : r.timesOut k = true) :
    (r.loop k waits).calls = k := by
  rw [loop]
  by_cases hmore : k < r.maxRetries.toNat
  · rw [if_pos hmore,if_pos h]
  · rw [if_neg hmore]

/-- A timeout that is never noticed leaves the loop to the outcomes of the calls. -/
theorem loop_meets (hnever : r.NeverTimesOut) {k : ℕ} (hmore : k < r.maxRetries.toNat)
    (hfailed : ∀ j < k, ∀ result, r.f j ≠ .ok result) (waits : List ℕ) :
    r.MeetsDeadline (r.loop k waits) := by
  have hearly : ∀ j, ¬r.Expired j := by
    intro j hexpired
    have hlt := r.clock_lt j
    unfold Expired NeverTimesOut at *
    omega
  have htest : ¬r.timesOut k = true := fun h => ((timesOut_iff k).mp h).1 hnever
  rw [loop,if_pos hmore,if_neg htest]
  cases hf : r.f k with
  | ok result =>
    refine ⟨Nat.succ_pos k,hmore,?_,.result k result hf,fun j _ => hearly j⟩
    intro j result' hj hok
    rcases Nat.lt_succ_iff_lt_or_eq.mp hj with hj | rfl
    · exact absurd hok (hfailed j hj result')
    · rw [hf] at hok
      cases hok
      exact ⟨rfl,rfl⟩
  | error e =>
    have hnow : ∀ j < k+1, ∀ result, r.f j ≠ .ok result := by
      intro j hj result hok
      rcases Nat.lt_succ_iff_lt_or_eq.mp hj with hj | rfl
      · exact hfailed j hj result hok
      · cases hf.symm.trans hok
    dsimp only
    by_cases hlast : k+1 ≥ r.maxRetries.toNat
    · rw [if_pos hlast]
      exact ⟨Nat.succ_pos k,hmore,fun j result hj hok => absurd hok (hnow j hj result),
        .failure k e (Nat.le_antisymm hmore hlast) hf,fun j _ => hearly j⟩
    · rw [if_neg hlast]
      exact loop_meets hnever (Nat.lt_of_not_ge hlast) hnow _
termination_by r.maxRetries.toNat-k

theorem neverTimesOut_of_meets (h : r.MeetsDeadline r.retryWithTimeout) : r.NeverTimesOut := by
  by_contra hends
  have hfirst := (timesOut_iff 0).mpr ⟨hends,h.early 0 h.once⟩
  have hcalls : r.retryWithTimeout.calls = 0 := loop_timesOut hfirst
  exact absurd h.once (by omega)

/-- The deadline is kept just when it is never noticed. -/
theorem retryWithTimeout_meets_iff (r : Retrying R E) :
    r.MeetsDeadline r.retryWithTimeout ↔ 0 < r.maxRetries.toNat ∧ 2^63 ≤ r.timeout.secs.toNat := by
  constructor
  · intro h
    exact ⟨Nat.lt_of_lt_of_le h.once h.calls,neverTimesOut_of_meets h⟩
  · rintro ⟨hpos,hnever⟩
    exact loop_meets hnever hpos (fun j hj => absurd hj (Nat.not_lt_zero j)) []

/-- The function would succeed at once, with five seconds to go. -/
theorem retryWithTimeout_meets_counterexample :
    let r : Retrying ℕ String := ⟨fun _ => .ok 7,id,3,Duration.ofSecs 5,0,fun _ => 0,Int.le_refl 0,
      fun _ _ _ => Int.le_refl 0,fun _ => by decide⟩
    ¬r.MeetsDeadline r.retryWithTimeout := by
  intro r h
  have hnever : 2^63 ≤ r.timeout.secs.toNat := neverTimesOut_of_meets h
  exact absurd hnever (by decide)

end Retrying

end DiamondBot.RetryWithTimeout
