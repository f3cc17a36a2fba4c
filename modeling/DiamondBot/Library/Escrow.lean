import Mathlib.Logic.Relation
import Mathlib.Tactic.Ring

/-!
# Escrowed accounts with settlements in flight

An account holds an available amount, amounts sent out whose settlement is
pending, and the total already paid. Money enters by a credit only. A dispatch
reserves what is available, and each dispatched amount is later confirmed as
paid or refunded. Changes are stated as additions in both directions, so no
truncated subtraction can hide a missing amount.
-/

set_option autoImplicit false

namespace Library.Escrow

variable {α : Type*} [DecidableEq α]

structure Accounts (α : Type*) where
  available : α → ℕ
  pending : α → ℕ
  paid : α → ℕ
  credited : α → ℕ

def Adds (u : α) (n : ℕ) (f g : α → ℕ) : Prop :=
  ∀ v, g v = f v+if v = u then n else 0

inductive Step : Accounts α → Accounts α → Prop
  | credit {e e' : Accounts α} (u : α) (n : ℕ)
      (available : Adds u n e.available e'.available)
      (pending : e'.pending = e.pending) (paid : e'.paid = e.paid)
      (credited : Adds u n e.credited e'.credited) : Step e e'
  | dispatch {e e' : Accounts α} (u : α) (n : ℕ)
      (available : Adds u n e'.available e.available)
      (pending : Adds u n e.pending e'.pending)
      (paid : e'.paid = e.paid) (credited : e'.credited = e.credited) : Step e e'
  | confirm {e e' : Accounts α} (u : α) (n : ℕ)
      (available : e'.available = e.available)
      (pending : Adds u n e'.pending e.pending)
      (paid : Adds u n e.paid e'.paid) (credited : e'.credited = e.credited) : Step e e'
  | refund {e e' : Accounts α} (u : α) (n : ℕ)
      (available : Adds u n e.available e'.available)
      (pending : Adds u n e'.pending e.pending)
      (paid : e'.paid = e.paid) (credited : e'.credited = e.credited) : Step e e'

abbrev Reaches : Accounts α → Accounts α → Prop := Relation.ReflTransGen Step

def Conserved (e : Accounts α) : Prop :=
  ∀ u, e.available u+e.pending u+e.paid u = e.credited u

theorem step_conserved {e e' : Accounts α} (h : Conserved e) (hs : Step e e') :
    Conserved e' := by
  intro v
  have hv := h v
  cases hs with
  | credit u n ha hp hq hc => rw [ha v,hp,hq,hc v]; omega
  | dispatch u n ha hp hq hc => rw [hp v,hq,hc]; have := ha v; omega
  | confirm u n ha hp hq hc => rw [ha,hq v,hc]; have := hp v; omega
  | refund u n ha hp hq hc => rw [ha v,hq,hc]; have := hp v; omega

theorem reaches_conserved {e e' : Accounts α} (h : Conserved e) (hr : Reaches e e') :
    Conserved e' := by
  induction hr with
  | refl => exact h
  | tail _ hs ih => exact step_conserved ih hs

omit [DecidableEq α] in
theorem sent_le_credited {e : Accounts α} (h : Conserved e) (u : α) :
    e.pending u+e.paid u ≤ e.credited u := by
  have := h u
  omega

end Library.Escrow
