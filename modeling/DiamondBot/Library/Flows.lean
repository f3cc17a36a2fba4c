import DiamondBot.Library.AtomicRun
import Mathlib.Algebra.Order.Ring.Nat

/-!
# What flows through a run

A quantity that every step moves by what it takes in and what it gives out is
moved by a run by the sums of both. The amounts are counted at the state before
each step, so a step that is refused there can count for nothing.
-/

set_option autoImplicit false

namespace Library.Flows
open AtomicRun

variable {σ α : Type*}

def sumAlong (next : σ → α → σ) (f : σ → α → ℕ) : List α → σ → ℕ
  | [], _ => 0
  | a::as, s => f s a+sumAlong next f as (next s a)

theorem sumAlong_zero {next : σ → α → σ} {f : σ → α → ℕ} {as : List α} {s : σ}
    (h : Along next (fun s a => f s a = 0) as s) : sumAlong next f as s = 0 := by
  induction as generalizing s with
  | nil => rfl
  | cons a as ih => rw [sumAlong,h.1,ih h.2]

theorem sumAlong_potential {next : σ → α → σ} {J : σ → Prop} (potential : σ → ℕ) (price : ℕ)
    {f : σ → α → ℕ} {R : σ → α → Prop} (hJ : ∀ s a, J s → R s a → J (next s a))
    (hstep : ∀ s a, J s → R s a → price*f s a+potential s ≤ potential (next s a)) {s : σ}
    (hs : J s) {as : List α} (hR : Along next R as s) :
    price*sumAlong next f as s+potential s ≤ potential (run next as s) := by
  induction as generalizing s with
  | nil => simp [sumAlong,run]
  | cons a as ih =>
    have hrest := ih (hJ s a hs hR.1) hR.2
    have hone := hstep s a hs hR.1
    simp only [run,sumAlong,Nat.mul_add]
    omega

theorem run_exchange {next : σ → α → σ} {J : σ → Prop} (value other : σ → ℕ)
    {gain loss : σ → α → ℕ} {R : σ → α → Prop} (hJ : ∀ s a, J s → R s a → J (next s a))
    (hstep : ∀ s a, J s → R s a →
      value (next s a)+loss s a+other s = value s+gain s a+other (next s a)) {s : σ}
    (hs : J s) {as : List α} (hR : Along next R as s) :
    value (run next as s)+sumAlong next loss as s+other s =
      value s+sumAlong next gain as s+other (run next as s) := by
  induction as generalizing s with
  | nil => rfl
  | cons a as ih =>
    have hrest := ih (hJ s a hs hR.1) hR.2
    have hone := hstep s a hs hR.1
    simp only [run,sumAlong]
    omega

theorem run_flow {next : σ → α → σ} {J : σ → Prop} (value : σ → ℕ) {gain loss : σ → α → ℕ}
    {R : σ → α → Prop} (hJ : ∀ s a, J s → R s a → J (next s a))
    (hstep : ∀ s a, J s → R s a → value (next s a)+loss s a = value s+gain s a) {s : σ}
    (hs : J s) {as : List α} (hR : Along next R as s) :
    value (run next as s)+sumAlong next loss as s = value s+sumAlong next gain as s :=
  run_exchange value (fun _ => 0) hJ hstep hs hR

end Library.Flows
