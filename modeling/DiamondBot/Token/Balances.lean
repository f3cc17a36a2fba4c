import DiamondBot.Token.FungibleToken
import DiamondBot.Library.Lockstep
import Mathlib.Logic.Function.Basic

/-!
# The standard as operations on balances

What anyone sees of a fungible token is the balance of each registered account
and the total supply. The published standard says what each operation does to
them, and a token that follows it answers and acts on them as written here,
however it stores them.
-/

set_option autoImplicit false

namespace DiamondBot
open NearRuntime Library Library.Lockstep

structure Balances where
  account : AccountId → Option ℕ
  supply : ℕ

namespace Balances

def register (b : Balances) (u : AccountId) : Outcome Balances :=
  if (b.account u).isSome then .error "The account is already registered"
  else .ok { b with account := Function.update b.account u (some 0) }

def deposit (b : Balances) (u : AccountId) (a : ℕ) : Outcome Balances := do
  let balance ← Checked.expect (b.account u) ("The account " ++ u ++ " is not registered")
  Checked.require (balance+a < 2^128) "Balance overflow"
  Checked.require (b.supply+a < 2^128) "Total supply overflow"
  pure ⟨Function.update b.account u (some (balance+a)),b.supply+a⟩

def withdraw (b : Balances) (u : AccountId) (a : ℕ) : Outcome Balances := do
  let balance ← Checked.expect (b.account u) ("The account " ++ u ++ " is not registered")
  Checked.require (a ≤ balance) "The account doesn't have enough balance"
  Checked.require (a ≤ b.supply) "Total supply overflow"
  pure ⟨Function.update b.account u (some (balance-a)),b.supply-a⟩

def transfer (b : Balances) (u v : AccountId) (a : ℕ) : Outcome Balances := do
  Checked.require (u ≠ v) "Sender and receiver should be different"
  Checked.require (0 < a) "The amount should be a positive number"
  (← b.withdraw u a).deposit v a

theorem withdraw_ok {b b' : Balances} {u : AccountId} {a : ℕ} (h : b.withdraw u a = .ok b') :
    ∃ balance, b.account u = some balance ∧ a ≤ balance ∧ a ≤ b.supply ∧
      b' = ⟨Function.update b.account u (some (balance-a)),b.supply-a⟩ := by
  obtain ⟨balance,hbalance,h⟩ := Checked.bind_ok.mp h
  obtain ⟨_,hle,h⟩ := Checked.bind_ok.mp h
  obtain ⟨_,hsupply,h⟩ := Checked.bind_ok.mp h
  cases h
  exact ⟨balance,Checked.expect_ok.mp hbalance,Checked.require_ok.mp hle,
    Checked.require_ok.mp hsupply,rfl⟩

theorem withdraw_zero {b b' : Balances} {u : AccountId} (h : b.withdraw u 0 = .ok b') :
    b' = b := by
  obtain ⟨balance,hbalance,_,_,rfl⟩ := withdraw_ok h
  rw [Nat.sub_zero,← hbalance,Function.update_eq_self]
  rfl

theorem transfer_self (b : Balances) (u : AccountId) (a : ℕ) :
    b.transfer u u a = .error "Sender and receiver should be different" := by
  simp [transfer,Checked.require,bind,Except.bind]

end Balances

open FungibleToken

section Standard

variable {T : Type} [FungibleToken T]

def balances (t : T) : Balances := ⟨balance t,totalSupply t⟩

abbrev Shows (x : Outcome T) (b : Outcome Balances) : Prop :=
  Together (fun t b => balances t = b) x b

theorem shows_ok {x : Outcome T} {b : Outcome Balances} (h : Shows x b) {t : T}
    (hx : x = .ok t) : b = .ok (balances t) := by
  subst hx
  cases b with
  | ok b => exact congrArg Except.ok h.symm
  | error e => exact h.elim

theorem ok_of_shows {x : Outcome T} {b : Outcome Balances} (h : Shows x b) {c : Balances}
    (hb : b = .ok c) : ∃ t, x = .ok t ∧ balances t = c := by
  subst hb
  cases x with
  | ok t => exact ⟨t,rfl,h⟩
  | error e => exact h.elim

end Standard

class StandardToken (T : Type) [FungibleToken T] : Prop where
  register_shows (t : T) (u : AccountId) :
    Shows (internalRegisterAccount t u) ((balances t).register u)
  deposit_shows (t : T) (u : AccountId) (a : ℕ) :
    Shows (internalDeposit t u a) ((balances t).deposit u a)
  withdraw_shows (t : T) (u : AccountId) (a : ℕ) :
    Shows (internalWithdraw t u a) ((balances t).withdraw u a)
  transfer_shows (t : T) (u v : AccountId) (a : ℕ) (memo : Option String) :
    Shows (internalTransfer t u v a memo) ((balances t).transfer u v a)

namespace Ledger

theorem balances_insert (m : LookupMap AccountId ℕ) (u : AccountId) (n supply : ℕ) :
    balances (⟨m.insert u n,supply⟩ : Ledger) =
      ⟨Function.update (fun v => m.lookup v) u (some n),supply⟩ := by
  apply congrArg (fun f => Balances.mk f supply)
  ext1 v
  by_cases hv : v = u
  · rw [hv,Function.update_self]
    exact AList.lookup_insert m
  · rw [Function.update_of_ne hv]
    exact AList.lookup_insert_ne hv

theorem deposit_balances (t : Ledger) (u : AccountId) (a : ℕ) :
    Shows (t.deposit u a) ((balances t).deposit u a) := by
  apply together_same
  intro balance _
  apply together_same
  intro _ _
  apply together_same
  intro _ _
  exact balances_insert t.accounts u _ _

theorem withdraw_balances (t : Ledger) (u : AccountId) (a : ℕ) :
    Shows (t.withdraw u a) ((balances t).withdraw u a) := by
  apply together_same
  intro balance _
  apply together_same
  intro _ _
  apply together_same
  intro _ _
  exact balances_insert t.accounts u _ _

instance : StandardToken Ledger where
  register_shows t u := by
    change Shows (t.register u) _
    unfold register Balances.register
    by_cases hu : u ∈ t.accounts
    · have hsome : ((balances t).account u).isSome := AList.lookup_isSome.mpr hu
      simp only [hu,hsome,if_true]
      trivial
    · have hnone : ¬((balances t).account u).isSome := fun h => hu (AList.lookup_isSome.mp h)
      simp only [hu,hnone,if_false]
      exact balances_insert t.accounts u _ _
  deposit_shows := deposit_balances
  withdraw_shows := withdraw_balances
  transfer_shows t u v a memo := by
    apply together_same
    intro _ _
    apply together_same
    intro _ _
    apply together_bind (withdraw_balances t u a)
    intro w b hw
    rw [← hw]
    exact deposit_balances w v a

end Ledger
end DiamondBot
