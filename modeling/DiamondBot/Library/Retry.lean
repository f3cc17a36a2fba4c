import Mathlib.Data.Nat.Notation

/-!
# Bounded retries

An operation on a state is run again after an error that asks for it, up to a
number of further times. What it did to the state before it failed stays.
-/

set_option autoImplicit false

namespace Library.Retry

variable {σ ε α : Type*}

/-- At most `n` further runs. -/
def attempts (op : σ → Except ε α × σ) (again : ε → Bool) : ℕ → σ → Except ε α × σ
  | 0,s => op s
  | n+1,s =>
    match op s with
    | (.ok a,s') => (.ok a,s')
    | (.error e,s') => if again e then attempts op again n s' else (.error e,s')

theorem attempts_ok {op : σ → Except ε α × σ} {again : ε → Bool} {s s' : σ} {a : α}
    (h : op s = (.ok a,s')) (n : ℕ) : attempts op again n s = (.ok a,s') := by
  cases n with
  | zero => exact h
  | succ n => rw [attempts,h]

theorem attempts_final {op : σ → Except ε α × σ} {again : ε → Bool} {s s' : σ} {e : ε}
    (h : op s = (.error e,s')) (hagain : again e = false) (n : ℕ) :
    attempts op again n s = (.error e,s') := by
  cases n with
  | zero => exact h
  | succ n => simp only [attempts,h,hagain,Bool.false_eq_true,if_false]

theorem attempts_again {op : σ → Except ε α × σ} {again : ε → Bool} {s s' : σ} {e : ε}
    (h : op s = (.error e,s')) (hagain : again e = true) (n : ℕ) :
    attempts op again (n+1) s = attempts op again n s' := by
  simp only [attempts,h,hagain,if_true]

/-- The rule for the loop. The invariant may speak of the further runs that are left, and
the loop ends with a value, with an error that does not ask for another run, or with the
error of the last run. -/
theorem attempts_rule {op : σ → Except ε α × σ} {again : ε → Bool} {I : ℕ → σ → Prop}
    {P : Except ε α → σ → Prop}
    (hok : ∀ n s a s', I n s → op s = (.ok a,s') → P (.ok a) s')
    (herror : ∀ n s e s', I n s → op s = (.error e,s') → (again e = true → n = 0) →
      P (.error e) s')
    (hagain : ∀ n s e s', I (n+1) s → op s = (.error e,s') → again e = true → I n s')
    (n : ℕ) (s : σ) (h : I n s) :
    P (attempts op again n s).1 (attempts op again n s).2 := by
  induction n generalizing s with
  | zero =>
    rw [attempts]
    rcases hop : op s with ⟨e | a,s'⟩
    · exact herror 0 s e s' h hop fun _ => rfl
    · exact hok 0 s a s' h hop
  | succ n ih =>
    rcases hop : op s with ⟨e | a,s'⟩
    · cases hretry : again e with
      | true =>
        rw [attempts_again hop hretry]
        exact ih s' (hagain n s e s' h hop hretry)
      | false =>
        rw [attempts_final hop hretry]
        exact herror (n+1) s e s' h hop fun hyes => absurd (hyes.symm.trans hretry) (by simp)
    · rw [attempts_ok hop]
      exact hok (n+1) s a s' h hop

theorem attempts_preserves {op : σ → Except ε α × σ} {again : ε → Bool} {J : σ → Prop}
    (hop : ∀ s, J s → J (op s).2) (n : ℕ) {s : σ} (h : J s) :
    J (attempts op again n s).2 := by
  have hstep : ∀ s r s', J s → op s = (r,s') → J s' := by
    intro s r s' hs heq
    have hkept := hop s hs
    rwa [heq] at hkept
  exact attempts_rule (I := fun _ => J) (P := fun _ => J)
    (fun _ s a s' hs heq => hstep s (.ok a) s' hs heq)
    (fun _ s e s' hs heq _ => hstep s (.error e) s' hs heq)
    (fun _ s e s' hs heq _ => hstep s (.error e) s' hs heq) n s h

theorem attempts_fixed {op : σ → Except ε α × σ} {again : ε → Bool} {s : σ}
    (h : (op s).2 = s) (n : ℕ) : attempts op again n s = op s := by
  rcases hop : op s with ⟨r,s'⟩
  rw [hop] at h
  subst h
  cases r with
  | ok a => exact attempts_ok hop n
  | error e =>
    cases hretry : again e with
    | false => exact attempts_final hop hretry n
    | true =>
      induction n with
      | zero => exact hop
      | succ n ih => rw [attempts_again hop hretry,ih]

end Library.Retry
