import DiamondBot.Farming.Farming
import DiamondBot.Library.AtomicRun
import DiamondBot.Library.KeyedTotal

/-!
# The farming contract with its transfers in flight

A run interleaves calls of any accounts with the outcomes of transfers sent
earlier, in any order. An outcome consumes its promise even when the callback
panics; the contract is then left as it was. Beside the contract the system
keeps what the token contract knows: the principal credited to each account
and the principal sent back to it.
-/

set_option autoImplicit false

namespace DiamondBot.Farming
open NearRuntime Library

structure System where
  contract : Farming
  inflight : List Promise
  staked : AccountId → ℕ
  sent : AccountId → ℕ

inductive Action where
  | stake (env : Env) (amount : ℕ)
  | unstake (env : Env) (amount : ℕ)
  | claimRewards (env : Env)
  | setRewardRate (env : Env) (rewardRate : ℕ)
  | setLockPeriod (env : Env) (lockPeriod : ℕ)
  | transferOwnership (env : Env) (newOwner : AccountId)
  | resolve (env : Env) (i : ℕ) (result : PromiseResult)

def addAt (u : AccountId) (n : ℕ) (f : AccountId → ℕ) : AccountId → ℕ :=
  fun v => f v+if v = u then n else 0

namespace System

def new (env : Env) (stakingToken : AccountId) : System where
  contract := Farming.new env stakingToken
  inflight := []
  staked := fun _ => 0
  sent := fun _ => 0

/-- A call that fails is reverted with the transfers it would have sent. -/
def call (s : System) : Outcome (Farming × List Promise) → System
  | .ok r => { s with
    contract := r.1
    inflight := s.inflight++r.2 }
  | .error _ => s

def resolve (s : System) (env : Env) (i : ℕ) (result : PromiseResult) : System :=
  match s.inflight[i]? with
  | none => s
  | some p =>
    let outcome := s.contract.callback env result p.callback
    { contract := match outcome with
        | .ok contract => contract
        | .error _ => s.contract
      inflight := s.inflight.eraseIdx i
      staked := match p.callback,result,outcome with
        | .stakeCallback userId amount,.successful,.ok _ => addAt userId amount s.staked
        | _,_,_ => s.staked
      sent := match p.callback,result with
        | .unstakeCallback userId amount,.successful => addAt userId amount s.sent
        | _,_ => s.sent }

def next (s : System) : Action → System
  | .stake env amount => s.call ((s.contract.stake env amount).map fun p => (s.contract,[p]))
  | .unstake env amount => s.call (s.contract.unstake env amount)
  | .claimRewards env => s.call ((s.contract.claimRewards env).map fun r => (r.1,[r.2]))
  | .setRewardRate env rewardRate =>
    s.call ((s.contract.setRewardRate env rewardRate).map fun c => (c,[]))
  | .setLockPeriod env lockPeriod =>
    s.call ((s.contract.setLockPeriod env lockPeriod).map fun c => (c,[]))
  | .transferOwnership env newOwner =>
    s.call ((s.contract.transferOwnership env newOwner).map fun c => (c,[]))
  | .resolve env i result => s.resolve env i result

end System

def stakeOf (s : Farming) (u : AccountId) : ℕ :=
  KeyedTotal.share (fun _ st => st.amount) s.stakes u

def stakesTotal (s : Farming) : ℕ := KeyedTotal.total (fun _ st => st.amount) s.stakes

def Promise.unstakes (v : AccountId) (p : Promise) : ℕ :=
  match p.callback with
  | .unstakeCallback u n => if v = u then n else 0
  | _ => 0

def Promise.unstaked (p : Promise) : ℕ :=
  match p.callback with
  | .unstakeCallback _ n => n
  | _ => 0

namespace System

def unstaking (s : System) (u : AccountId) : ℕ := (s.inflight.map (Promise.unstakes u)).sum

def unstakingTotal (s : System) : ℕ := (s.inflight.map Promise.unstaked).sum

end System
end DiamondBot.Farming
