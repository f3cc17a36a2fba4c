import DiamondBot.Farming.StakeBooks
import DiamondBot.Token.Balances

/-!
# The transfer a stake sends

A stake asks the token contract to move tokens into the contract, but the call
is made by the contract itself, so the account that would pay is the one that
would receive. The token call, the hook of the receiver and the callback are
run one after the other, with enough gas for each.
-/

set_option autoImplicit false

namespace DiamondBot.Farming
open NearRuntime Library Library.Lockstep FungibleToken

variable {T : Type} [FungibleToken T]

def ftResolveTransfer (t : T) (senderId receiverId : AccountId) (amount : ℕ)
    (unused : Option ℕ) : T :=
  let refund := min (min (unused.getD amount) amount) ((balance t receiverId).getD 0)
  match internalTransfer t receiverId senderId refund none with
  | .ok t' => t'
  | .error _ => t

def ftTransferCall (t : T) (predecessor receiverId : AccountId) (amount : ℕ)
    (memo : Option String) (unused : Option ℕ) : T × PromiseResult :=
  match internalTransfer t predecessor receiverId amount memo with
  | .ok t' => (ftResolveTransfer t' predecessor receiverId amount unused,.successful)
  | .error _ => (t,.failed)

def execute (t : T) (predecessor : AccountId) : TokenCall → T × PromiseResult
  | .ftTransferCall receiverId amount memo _ =>
    ftTransferCall t predecessor receiverId amount memo none
  | .ftTransfer receiverId amount memo =>
    match internalTransfer t predecessor receiverId amount memo with
    | .ok t' => (t',.successful)
    | .error _ => (t,.failed)

def stakeReceipts (s : Farming) (t : T) (env callbackEnv : Env) (amount : ℕ) :
    Outcome (Farming × T) := do
  let p ← s.stake env amount
  let executed := execute t env.currentAccountId p.call
  match s.callback callbackEnv executed.2 p.callback with
  | .ok s' => pure (s',executed.1)
  | .error _ => pure (s,executed.1)

def balanceOf (t : T) (u : AccountId) : ℕ := (balance t u).getD 0

def Grown (s s' : Farming) (u : AccountId) (amount : ℕ) : Prop :=
  s'.stakeOf u = s.stakeOf u+amount ∧ s'.totalStaked = s.totalStaked+amount

def Moved (t t' : T) (u v : AccountId) (amount : ℕ) : Prop :=
  balanceOf t u = balanceOf t' u+amount ∧ balanceOf t' v = balanceOf t v+amount

/-- The tokens of the account move into the contract and its stake grows, and
neither happens without the other. -/
def StakeMoves (s : Farming) (t : T) (env callbackEnv : Env) (amount : ℕ) : Prop :=
  ∃ s' t', s.stakeReceipts t env callbackEnv amount = .ok (s',t') ∧
    (Grown s s' env.predecessorAccountId amount ↔
      Moved t t' env.predecessorAccountId env.currentAccountId amount) ∧
    Moved t t' env.predecessorAccountId env.currentAccountId amount

variable [StandardToken T]

theorem transfer_self_refused (t : T) (u : AccountId) (a : ℕ) (memo : Option String) :
    ∃ e, internalTransfer t u u a memo = .error e := by
  have h := StandardToken.transfer_shows t u u a memo
  rw [Balances.transfer_self] at h
  cases ht : internalTransfer t u u a memo with
  | ok t' => rw [ht] at h; exact h.elim
  | error e => exact ⟨e,rfl⟩

theorem stakeReceipts_eq (s : Farming) (t : T) (env callbackEnv : Env) {amount : ℕ}
    (h : 0 < amount) : s.stakeReceipts t env callbackEnv amount = .ok (s,t) := by
  obtain ⟨e,hrefused⟩ := transfer_self_refused t env.currentAccountId amount none
  have hexecute : ∀ msg, execute t env.currentAccountId
      (.ftTransferCall env.currentAccountId amount none msg) = (t,.failed) := by
    intro msg
    simp only [execute,ftTransferCall,hrefused]
  simp only [stakeReceipts,stake,Checked.require,h,if_true,bind,Except.bind,pure,Except.pure,
    hexecute,callback,stakeCallback]

/-- Whatever the state of both contracts, a stake never moves the tokens. -/
theorem stake_never_moves (s : Farming) (t : T) (env callbackEnv : Env) (amount : ℕ) :
    ¬s.StakeMoves t env callbackEnv amount := by
  rintro ⟨s',t',h,-,hfrom,hto⟩
  by_cases hamount : 0 < amount
  · rw [stakeReceipts_eq s t env callbackEnv hamount] at h
    cases h
    omega
  · obtain ⟨_,hp,_⟩ := Checked.bind_ok.mp h
    obtain ⟨_,hreq,_⟩ := Checked.bind_ok.mp hp
    exact hamount (Checked.require_ok.mp hreq)

def aliceLedger : Ledger where
  accounts := (∅ : LookupMap AccountId ℕ).insert "farm.near" 0 |>.insert "alice.near" 1000
  supply := 1000

theorem stake_never_moves_alice :
    ¬StakeMoves (new (firstBlock "owner.near" "farm.near") "diamond.near") aliceLedger
      (firstBlock "alice.near" "farm.near") (firstBlock "farm.near" "farm.near") 100 :=
  stake_never_moves _ aliceLedger (firstBlock "alice.near" "farm.near")
    (firstBlock "farm.near" "farm.near") 100

theorem stake_moves_nothing : ∃ s' t',
    stakeReceipts (new (firstBlock "owner.near" "farm.near") "diamond.near") aliceLedger
      (firstBlock "alice.near" "farm.near") (firstBlock "farm.near" "farm.near") 100 =
        .ok (s',t') ∧
    100 ≤ balanceOf aliceLedger "alice.near" ∧ balanceOf t' "alice.near" = 1000 ∧
    balanceOf t' "farm.near" = 0 ∧ s'.stakeOf "alice.near" = 0 ∧ s'.totalStaked = 0 := by
  refine ⟨_,_,rfl,?_,?_,?_,?_,?_⟩ <;> decide

end DiamondBot.Farming
