import DiamondBot.Library.AtomicRun

/-!
# Two runs side by side

Two computations go together when both fail or both succeed with related
results. Steps that go together from related states keep a relation between
two runs over the same actions, failed steps included. What a state is
compared with may be a state of the same system that something else happened
to before.
-/

set_option autoImplicit false

namespace Library.Lockstep

variable {ε ε' σ α : Type*} {β β' γ γ' : Type}

def Together {β β' : Type*} (r : β → β' → Prop) : Except ε β → Except ε' β' → Prop
  | .ok b, .ok b' => r b b'
  | .error _, .error _ => True
  | _, _ => False

theorem together_bind {r : β → β' → Prop} {q : γ → γ' → Prop} {x : Except ε β}
    {x' : Except ε' β'} {f : β → Except ε γ} {f' : β' → Except ε' γ'} (h : Together r x x')
    (hf : ∀ b b', r b b' → Together q (f b) (f' b')) : Together q (x >>= f) (x' >>= f') := by
  cases x with
  | ok b =>
    cases x' with
    | ok b' => exact hf b b' h
    | error e => exact h.elim
  | error e =>
    cases x' with
    | ok b' => exact h.elim
    | error e' => trivial

theorem together_same {q : γ → γ' → Prop} {x : Except ε β} {f : β → Except ε γ}
    {f' : β → Except ε γ'} (hf : ∀ b, x = .ok b → Together q (f b) (f' b)) :
    Together q (x >>= f) (x >>= f') := by
  cases x with
  | ok b => exact hf b rfl
  | error e => trivial

theorem together_map {r : β → β' → Prop} {q : γ → γ' → Prop} {x : Except ε β}
    {x' : Except ε' β'} {f : β → γ} {f' : β' → γ'} (h : Together r x x')
    (hf : ∀ b b', r b b' → q (f b) (f' b')) : Together q (x.map f) (x'.map f') := by
  cases x with
  | ok b =>
    cases x' with
    | ok b' => exact hf b b' h
    | error e => exact h.elim
  | error e =>
    cases x' with
    | ok b' => exact h.elim
    | error e' => trivial

theorem settle_together {step : σ → α → Except ε σ} {r : σ → σ → Prop} {s t : σ} {a : α}
    (hr : r s t) (h : Together r (step s a) (step t a)) :
    r (AtomicRun.settle step s a) (AtomicRun.settle step t a) := by
  unfold AtomicRun.settle
  cases hs : step s a with
  | ok s' =>
    cases ht : step t a with
    | ok t' => rw [hs,ht] at h; exact h
    | error e => rw [hs,ht] at h; exact h.elim
  | error e =>
    cases ht : step t a with
    | ok t' => rw [hs,ht] at h; exact h.elim
    | error e' => exact hr

theorem run_together {next : σ → α → σ} {r : σ → σ → Prop} {P : α → Prop}
    (hstep : ∀ s t a, r s t → P a → r (next s a) (next t a)) {as : List α} {s t : σ}
    (hP : ∀ a ∈ as, P a) (hr : r s t) :
    r (AtomicRun.run next as s) (AtomicRun.run next as t) := by
  induction as generalizing s t with
  | nil => exact hr
  | cons a as ih =>
    exact ih (fun b hb => hP b (by simp [hb])) (hstep s t a hr (hP a (by simp)))

end Library.Lockstep
