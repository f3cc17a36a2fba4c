import DiamondBot.Near.Runtime

/-!
# The mining contract

Each account has its own cursor, the last block it was paid up to, with the
deployment block as the shared default. An update pays the account the full
rate for every block since its cursor; a claim asks the token contract to
mint what has accrued and puts it back when the mint fails.
-/

set_option autoImplicit false

namespace DiamondBot
open NearRuntime Library

structure DiamondMining where
  ownerId : AccountId
  diamondToken : AccountId
  rewardRate : ℕ
  lastRewardBlock : ℕ
  rewards : LookupMap AccountId ℕ
  lastUpdate : LookupMap AccountId ℕ
  lastUpdateTime : ℕ

namespace DiamondMining

/-- A mint call on the token contract, whose outcome goes to
`claim_reward_callback` with the same account and amount. -/
structure Claim where
  diamondToken : AccountId
  userId : AccountId
  amount : ℕ
  deriving DecidableEq, Repr

def new (env : Env) (diamondToken : AccountId) : DiamondMining where
  ownerId := env.predecessorAccountId
  diamondToken := diamondToken
  rewardRate := 10000000000000000000
  lastRewardBlock := env.blockHeight
  rewards := ∅
  lastUpdate := ∅
  lastUpdateTime := env.systemTime

def cursor (s : DiamondMining) (u : AccountId) : ℕ :=
  (s.lastUpdate.lookup u).getD s.lastRewardBlock

def rewardOf (s : DiamondMining) (u : AccountId) : ℕ := (s.rewards.lookup u).getD 0

def updateRewards (s : DiamondMining) (env : Env) : Outcome DiamondMining := do
  let userId := env.predecessorAccountId
  let currentBlock := env.blockHeight
  let blocksPassed ← Checked.sub currentBlock (s.cursor userId)
  if 0 < blocksPassed then
    let totalReward ← mulU128 blocksPassed s.rewardRate
    let newReward ← addU128 (s.rewardOf userId) totalReward
    pure { s with
      rewards := s.rewards.insert userId newReward
      lastUpdate := s.lastUpdate.insert userId currentBlock
      lastUpdateTime := env.systemTime }
  else pure s

def claimRewards (s : DiamondMining) (env : Env) : Outcome (DiamondMining × Claim) := do
  let userId := env.predecessorAccountId
  let updated ← s.updateRewards env
  let reward := updated.rewardOf userId
  Checked.require (0 < reward) "No rewards to claim"
  pure ({ updated with rewards := updated.rewards.insert userId 0 },
    ⟨updated.diamondToken,userId,reward⟩)

def claimRewardCallback (s : DiamondMining) (result : PromiseResult) (userId : AccountId)
    (amount : ℕ) : Outcome DiamondMining :=
  match result with
  | .successful => pure s
  | .failed => do
    let restored ← addU128 (s.rewardOf userId) amount
    pure { s with rewards := s.rewards.insert userId restored }

def getPendingReward (s : DiamondMining) (env : Env) (accountId : AccountId) : Outcome ℕ := do
  let currentReward := s.rewardOf accountId
  let blocksPassed ← Checked.sub env.blockHeight (s.cursor accountId)
  if 0 < blocksPassed then
    let additionalReward ← mulU128 blocksPassed s.rewardRate
    addU128 currentReward additionalReward
  else pure currentReward

def assertOwner (s : DiamondMining) (env : Env) : Outcome Unit :=
  Checked.require (env.predecessorAccountId = s.ownerId) "Only owner can call this method"

def setRewardRate (s : DiamondMining) (env : Env) (rewardRate : ℕ) : Outcome DiamondMining := do
  s.assertOwner env
  pure { s with rewardRate }

def forceUpdateGlobalReward (s : DiamondMining) (env : Env) : Outcome DiamondMining := do
  s.assertOwner env
  pure { s with lastRewardBlock := env.blockHeight }

def setDiamondToken (s : DiamondMining) (env : Env) (diamondToken : AccountId) :
    Outcome DiamondMining := do
  s.assertOwner env
  pure { s with diamondToken }

def transferOwnership (s : DiamondMining) (env : Env) (newOwner : AccountId) :
    Outcome DiamondMining := do
  s.assertOwner env
  pure { s with ownerId := newOwner }

end DiamondMining
end DiamondBot
