import DiamondBot.Near.Runtime

/-!
# The farming contract

Stakes are kept by account. Staking and unstaking send a token transfer and
finish in a callback that learns its outcome; an unstake takes the amount off
the running total at once and off the stake only in the callback.
-/

set_option autoImplicit false

namespace DiamondBot
open NearRuntime Library

structure Stake where
  amount : ℕ
  startTime : ℕ
  lastClaim : ℕ
  lastUpdate : ℕ
  deriving DecidableEq, Repr

structure Farming where
  ownerId : AccountId
  stakingToken : AccountId
  totalStaked : ℕ
  rewardRate : ℕ
  stakes : LookupMap AccountId Stake
  lockPeriod : ℕ
  lastUpdate : ℕ

namespace Farming

inductive TokenCall where
  | ftTransferCall (receiverId : AccountId) (amount : ℕ) (memo : Option String) (msg : String)
  | ftTransfer (receiverId : AccountId) (amount : ℕ) (memo : Option String)
  deriving DecidableEq, Repr

inductive Callback where
  | stakeCallback (userId : AccountId) (amount : ℕ)
  | unstakeCallback (userId : AccountId) (amount : ℕ)
  | claimCallback (userId : AccountId) (amount : ℕ)
  deriving DecidableEq, Repr

/-- A call of the token contract and the callback that learns its outcome, each
with the gas that is set aside for it. -/
structure Promise where
  token : AccountId
  call : TokenCall
  callGas : ℕ
  callback : Callback
  callbackGas : ℕ
  deriving DecidableEq, Repr

/-- `LOCK_PERIOD`, thirty days in nanoseconds. -/
def defaultLockPeriod : ℕ := 30*24*60*60*1000000000

def new (env : Env) (stakingToken : AccountId) : Farming where
  ownerId := env.predecessorAccountId
  stakingToken := stakingToken
  totalStaked := 0
  rewardRate := 1000000000000000000
  stakes := ∅
  lockPeriod := defaultLockPeriod
  lastUpdate := env.systemTime

def calculateReward (s : Farming) (env : Env) (stake : Stake) : Outcome ℕ := do
  let timeElapsed ← Checked.sub env.blockTimestamp stake.lastClaim
  let rated ← mulU128 stake.amount s.rewardRate
  let reward ← mulU128 rated timeElapsed
  pure (reward/(100*10^18))

def stake (s : Farming) (env : Env) (amount : ℕ) : Outcome Promise := do
  Checked.require (0 < amount) "Amount must be greater than 0"
  let userId := env.predecessorAccountId
  pure {
    token := s.stakingToken
    call := .ftTransferCall env.currentAccountId amount none
      ("\x7b\"action\": \"stake\", \"user_id\": \""++userId++"\"\x7d")
    callGas := env.prepaidGas/3
    callback := .stakeCallback userId amount
    callbackGas := env.prepaidGas/3 }

def toppedUp (s : Farming) (env : Env) (amount : ℕ) : Option Stake → Outcome Stake
  | some userStake => do
    let reward ← s.calculateReward env userStake
    let lastClaim := if 0 < reward then env.blockTimestamp else userStake.lastClaim
    let total ← addU128 userStake.amount amount
    pure { userStake with
      amount := total
      lastClaim
      lastUpdate := env.systemTime }
  | none => pure ⟨amount,env.blockTimestamp,env.blockTimestamp,env.systemTime⟩

def stakeCallback (s : Farming) (env : Env) (result : PromiseResult) (userId : AccountId)
    (amount : ℕ) : Outcome Farming :=
  match result with
  | .successful => do
    let userStake ← s.toppedUp env amount (s.stakes.lookup userId)
    let totalStaked ← addU128 s.totalStaked amount
    pure { s with
      stakes := s.stakes.insert userId userStake
      totalStaked
      lastUpdate := env.systemTime }
  | .failed => pure s

def claimRewards (s : Farming) (env : Env) : Outcome (Farming × Promise) := do
  let userId := env.predecessorAccountId
  let userStake ← Checked.expect (s.stakes.lookup userId) "No stake found"
  let reward ← s.calculateReward env userStake
  Checked.require (0 < reward) "No rewards to claim"
  let claimed := { userStake with
    lastClaim := env.blockTimestamp
    lastUpdate := env.systemTime }
  pure ({ s with stakes := s.stakes.insert userId claimed },{
    token := s.stakingToken
    call := .ftTransfer userId reward (some ("Claim reward "++toString reward++" DMD"))
    callGas := env.prepaidGas/3
    callback := .claimCallback userId reward
    callbackGas := env.prepaidGas/3 })

def unstake (s : Farming) (env : Env) (amount : ℕ) : Outcome (Farming × List Promise) := do
  let userId := env.predecessorAccountId
  let userStake ← Checked.expect (s.stakes.lookup userId) "No stake found"
  Checked.require (amount ≤ userStake.amount) "Insufficient staked amount"
  let unlocked ← addU64 userStake.startTime s.lockPeriod
  Checked.require (unlocked ≤ env.blockTimestamp) "Stake is still locked"
  let claimed ← s.claimRewards env
  let totalStaked ← Checked.sub claimed.1.totalStaked amount
  pure ({ claimed.1 with totalStaked },[claimed.2,{
    token := s.stakingToken
    call := .ftTransfer userId amount (some "Unstake from Farming")
    callGas := env.prepaidGas/3
    callback := .unstakeCallback userId amount
    callbackGas := env.prepaidGas/3 }])

def unstakeCallback (s : Farming) (env : Env) (result : PromiseResult) (userId : AccountId)
    (amount : ℕ) : Outcome Farming :=
  match result with
  | .successful => do
    let userStake ← Checked.expect (s.stakes.lookup userId) "No stake found"
    let left ← Checked.sub userStake.amount amount
    let stakes :=
      if left = 0 then s.stakes.erase userId
      else s.stakes.insert userId { userStake with
        amount := left
        lastUpdate := env.systemTime }
    pure { s with
      stakes
      lastUpdate := env.systemTime }
  | .failed => do
    let totalStaked ← addU128 s.totalStaked amount
    pure { s with totalStaked }

def claimCallback (s : Farming) (result : PromiseResult) (userId : AccountId) : Farming :=
  match result with
  | .successful => s
  | .failed =>
    match s.stakes.lookup userId with
    | some userStake => { s with
      stakes := s.stakes.insert userId { userStake with lastClaim := userStake.lastUpdate } }
    | none => s

def getStake (s : Farming) (accountId : AccountId) : Option Stake := s.stakes.lookup accountId

def getPendingReward (s : Farming) (env : Env) (accountId : AccountId) : Outcome ℕ :=
  match s.stakes.lookup accountId with
  | some userStake => s.calculateReward env userStake
  | none => pure 0

def assertOwner (s : Farming) (env : Env) : Outcome Unit :=
  Checked.require (env.predecessorAccountId = s.ownerId) "Only owner can call this function"

def setRewardRate (s : Farming) (env : Env) (rewardRate : ℕ) : Outcome Farming := do
  s.assertOwner env
  pure { s with
    rewardRate
    lastUpdate := env.systemTime }

def setLockPeriod (s : Farming) (env : Env) (lockPeriod : ℕ) : Outcome Farming := do
  s.assertOwner env
  pure { s with
    lockPeriod
    lastUpdate := env.systemTime }

def transferOwnership (s : Farming) (env : Env) (newOwner : AccountId) : Outcome Farming := do
  s.assertOwner env
  pure { s with
    ownerId := newOwner
    lastUpdate := env.systemTime }

def callback (s : Farming) (env : Env) (result : PromiseResult) : Callback → Outcome Farming
  | .stakeCallback userId amount => s.stakeCallback env result userId amount
  | .unstakeCallback userId amount => s.unstakeCallback env result userId amount
  | .claimCallback userId _ => pure (s.claimCallback result userId)

end Farming
end DiamondBot
