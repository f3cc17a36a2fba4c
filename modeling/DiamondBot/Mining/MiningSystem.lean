import DiamondBot.Mining.DiamondMining
import DiamondBot.Library.AtomicRun
import DiamondBot.Library.KeyedTotal

/-!
# The mining contract with its claims in flight

A run interleaves calls of any accounts with the outcomes of mints requested
earlier, in any order. The system keeps the claims in flight, the claims that
were minted, and the block of the last action.
-/

set_option autoImplicit false

namespace DiamondBot.DiamondMining
open NearRuntime Library

structure System where
  contract : DiamondMining
  inflight : List Claim
  paid : List Claim
  now : ℕ

inductive Action where
  | updateRewards (env : Env)
  | claimRewards (env : Env)
  | setRewardRate (env : Env) (rewardRate : ℕ)
  | forceUpdateGlobalReward (env : Env)
  | setDiamondToken (env : Env) (diamondToken : AccountId)
  | transferOwnership (env : Env) (newOwner : AccountId)
  | resolve (env : Env) (i : ℕ) (result : PromiseResult)

def Action.env : Action → Env
  | .updateRewards env | .claimRewards env | .setRewardRate env _
  | .forceUpdateGlobalReward env | .setDiamondToken env _ | .transferOwnership env _
  | .resolve env _ _ => env

namespace System

def new (env : Env) (diamondToken : AccountId) : System where
  contract := DiamondMining.new env diamondToken
  inflight := []
  paid := []
  now := env.blockHeight

/-- A call that fails is reverted with the claim it would have sent. -/
def call (s : System) : Outcome (DiamondMining × List Claim) → System
  | .ok r => { s with
    contract := r.1
    inflight := s.inflight++r.2 }
  | .error _ => s

def resolve (s : System) (i : ℕ) (result : PromiseResult) : System :=
  match s.inflight[i]? with
  | none => s
  | some p =>
    { s with
      contract := match s.contract.claimRewardCallback result p.userId p.amount with
        | .ok contract => contract
        | .error _ => s.contract
      inflight := s.inflight.eraseIdx i
      paid := match result with
        | .successful => s.paid++[p]
        | .failed => s.paid }

def act (s : System) : Action → System
  | .updateRewards env => s.call ((s.contract.updateRewards env).map fun c => (c,[]))
  | .claimRewards env => s.call ((s.contract.claimRewards env).map fun r => (r.1,[r.2]))
  | .setRewardRate env rewardRate =>
    s.call ((s.contract.setRewardRate env rewardRate).map fun c => (c,[]))
  | .forceUpdateGlobalReward env =>
    s.call ((s.contract.forceUpdateGlobalReward env).map fun c => (c,[]))
  | .setDiamondToken env diamondToken =>
    s.call ((s.contract.setDiamondToken env diamondToken).map fun c => (c,[]))
  | .transferOwnership env newOwner =>
    s.call ((s.contract.transferOwnership env newOwner).map fun c => (c,[]))
  | .resolve _ i result => s.resolve i result

def next (s : System) (a : Action) : System := { s.act a with now := a.env.blockHeight }

/-- Block heights do not decrease. -/
def Timely (s : System) (a : Action) : Prop := s.now ≤ a.env.blockHeight

/-- The reward rate stays what it is, and the shared default block is not moved. -/
def Steady (s : System) : Action → Prop
  | .setRewardRate env rewardRate => env.predecessorAccountId = s.contract.ownerId →
      rewardRate = s.contract.rewardRate
  | .forceUpdateGlobalReward env => env.predecessorAccountId ≠ s.contract.ownerId
  | _ => True

end System

def Claim.due (u : AccountId) (p : Claim) : ℕ := if u = p.userId then p.amount else 0

def dueTo (u : AccountId) (claims : List Claim) : ℕ := (claims.map (Claim.due u)).sum

def dueTotal (claims : List Claim) : ℕ := (claims.map Claim.amount).sum

end DiamondBot.DiamondMining
