import DiamondBot.Near.Runtime

/-!
# The fungible token standard the token contract builds on

The balances live in a library the repository imports and does not contain.
The contract sees its operations only, so they are parameters here, and what
the supply accounting relies on is a class of laws about them. A small ledger
that follows the published behaviour of the standard satisfies the laws.
-/

set_option autoImplicit false

namespace DiamondBot
open NearRuntime Library

class FungibleToken (T : Type) where
  new : T
  totalSupply : T → ℕ
  /-- The `accounts` map: the balance of a registered account. -/
  balance : T → AccountId → Option ℕ
  internalRegisterAccount : T → AccountId → Outcome T
  internalDeposit : T → AccountId → ℕ → Outcome T
  internalWithdraw : T → AccountId → ℕ → Outcome T
  internalTransfer : T → AccountId → AccountId → ℕ → Option String → Outcome T

open FungibleToken

/-- Each accepted operation moves the total supply by exactly its amount. -/
class LawfulFungibleToken (T : Type) [FungibleToken T] : Prop where
  new_totalSupply : totalSupply (new : T) = 0
  register_totalSupply (t t' : T) (u : AccountId) :
    internalRegisterAccount t u = .ok t' → totalSupply t' = totalSupply t
  deposit_totalSupply (t t' : T) (u : AccountId) (a : ℕ) :
    internalDeposit t u a = .ok t' → totalSupply t' = totalSupply t+a
  withdraw_totalSupply (t t' : T) (u : AccountId) (a : ℕ) :
    internalWithdraw t u a = .ok t' → totalSupply t'+a = totalSupply t
  transfer_totalSupply (t t' : T) (u v : AccountId) (a : ℕ) (memo : Option String) :
    internalTransfer t u v a memo = .ok t' → totalSupply t' = totalSupply t

structure Ledger where
  accounts : LookupMap AccountId ℕ
  supply : ℕ

namespace Ledger

def register (t : Ledger) (u : AccountId) : Outcome Ledger :=
  if u ∈ t.accounts then .error "The account is already registered"
  else .ok { t with accounts := t.accounts.insert u 0 }

def balanceOf (t : Ledger) (u : AccountId) : Outcome ℕ :=
  Checked.expect (t.accounts.lookup u) ("The account " ++ u ++ " is not registered")

def deposit (t : Ledger) (u : AccountId) (a : ℕ) : Outcome Ledger := do
  let balance ← t.balanceOf u
  Checked.require (balance+a < 2^128) "Balance overflow"
  Checked.require (t.supply+a < 2^128) "Total supply overflow"
  pure ⟨t.accounts.insert u (balance+a),t.supply+a⟩

def withdraw (t : Ledger) (u : AccountId) (a : ℕ) : Outcome Ledger := do
  let balance ← t.balanceOf u
  Checked.require (a ≤ balance) "The account doesn't have enough balance"
  Checked.require (a ≤ t.supply) "Total supply overflow"
  pure ⟨t.accounts.insert u (balance-a),t.supply-a⟩

def transfer (t : Ledger) (u v : AccountId) (a : ℕ) : Outcome Ledger := do
  Checked.require (u ≠ v) "Sender and receiver should be different"
  Checked.require (0 < a) "The amount should be a positive number"
  (← t.withdraw u a).deposit v a

instance : FungibleToken Ledger where
  new := ⟨∅,0⟩
  totalSupply := supply
  balance t u := t.accounts.lookup u
  internalRegisterAccount := register
  internalDeposit := deposit
  internalWithdraw := withdraw
  internalTransfer t u v a _ := t.transfer u v a

theorem deposit_supply {t t' : Ledger} {u : AccountId} {a : ℕ}
    (h : t.deposit u a = .ok t') : t'.supply = t.supply+a := by
  obtain ⟨b,_,h⟩ := Checked.bind_ok.mp h
  obtain ⟨_,_,h⟩ := Checked.bind_ok.mp h
  obtain ⟨_,_,h⟩ := Checked.bind_ok.mp h
  cases h
  rfl

theorem withdraw_supply {t t' : Ledger} {u : AccountId} {a : ℕ}
    (h : t.withdraw u a = .ok t') : t'.supply+a = t.supply := by
  obtain ⟨b,_,h⟩ := Checked.bind_ok.mp h
  obtain ⟨_,_,h⟩ := Checked.bind_ok.mp h
  obtain ⟨_,ha,h⟩ := Checked.bind_ok.mp h
  cases h
  exact Nat.sub_add_cancel (Checked.require_ok.mp ha)

theorem transfer_supply {t t' : Ledger} {u v : AccountId} {a : ℕ}
    (h : t.transfer u v a = .ok t') : t'.supply = t.supply := by
  obtain ⟨_,_,h⟩ := Checked.bind_ok.mp h
  obtain ⟨_,_,h⟩ := Checked.bind_ok.mp h
  obtain ⟨w,hw,h⟩ := Checked.bind_ok.mp h
  rw [deposit_supply h,withdraw_supply hw]

instance : LawfulFungibleToken Ledger where
  new_totalSupply := rfl
  register_totalSupply t t' u h := by
    change t.register u = .ok t' at h
    unfold register at h
    split at h <;> cases h
    rfl
  deposit_totalSupply _ _ _ _ h := deposit_supply h
  withdraw_totalSupply _ _ _ _ h := withdraw_supply h
  transfer_totalSupply _ _ _ _ _ _ h := transfer_supply h

end Ledger
end DiamondBot
