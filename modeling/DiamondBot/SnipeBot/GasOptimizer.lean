import DiamondBot.Library.Checked
import Mathlib.Data.UInt
import Mathlib.Order.Basic

/-!
# The gas optimizer

The optimizer quotes a gas price and fills in the fees of a transaction from
what the provider answers, from a cache of gas data kept for each chain and from
its own estimate of the congestion. Amounts are 256-bit numbers whose operators
panic on overflow; the narrower machine integers wrap.
-/

set_option autoImplicit false

namespace DiamondBot.Trade
open Library

inductive NetworkCongestion
  | low
  | medium
  | high
  | veryHigh
  deriving DecidableEq

structure GasOptimizerConfig where
  maxGasPrice : ℕ
  priorityBoostPercent : UInt64
  sampleInterval : UInt64
  historyWindow : UInt64

def defaultConfig : GasOptimizerConfig where
  maxGasPrice := 500000000000
  priorityBoostPercent := 20
  sampleInterval := 30
  historyWindow := 3600

structure GasOptimizer where
  config : GasOptimizerConfig
  gasPriceHistory : List (UInt64 × ℕ)
  baseFeeHistory : List (UInt64 × ℕ)
  networkCongestion : NetworkCongestion
  lastUpdate : UInt64
  chainId : UInt64

structure CachedGasData where
  chainId : UInt64
  timestamp : UInt64
  gasPrice : ℕ
  priorityFee : Option ℕ
  baseFee : Option ℕ
  networkCongestion : NetworkCongestion

abbrev GasPriceCache := UInt64 → Option CachedGasData

structure Block where
  baseFeePerGas : Option ℕ

structure FeeHistory where
  baseFeePerGas : List ℕ
  reward : List (List ℕ)

/-- The configuration of an adapter and what its provider answers, with the time
at which it is asked. -/
structure GasAdapter where
  chainId : UInt64
  eip1559Supported : Bool
  now : UInt64
  getGasPrice : Except String ℕ
  getBlock : Except String (Option Block)
  feeHistory : Except String FeeHistory

inductive GasFailure
  | failed (error : String)
  | panicked (message : String)

/-- The fee fields of a transaction request. -/
structure TransactionRequest where
  gasPrice : Option ℕ
  maxPriorityFeePerGas : Option ℕ
  maxFeePerGas : Option ℕ

def asked {α : Type} (answer : Except String α) : Except GasFailure α :=
  answer.mapError .failed

def checked {α : Type} (x : Except String α) : Except GasFailure α :=
  x.mapError .panicked

namespace NetworkCongestion

def boostFactor : NetworkCongestion → UInt64
  | .low => 100
  | .medium => 120
  | .high => 150
  | .veryHigh => 200

def baseFeeMultiplier : NetworkCongestion → ℕ
  | .low => 120
  | .medium => 130
  | .high => 150
  | .veryHigh => 200

/-- The factor of the legacy quote in thousandths, `1.05` to `1.30`. -/
def multiplier : NetworkCongestion → ℕ
  | .low => 1050
  | .medium => 1100
  | .high => 1200
  | .veryHigh => 1300

end NetworkCongestion

namespace GasOptimizer

def withConfig (config : GasOptimizerConfig) : GasOptimizer where
  config
  gasPriceHistory := []
  baseFeeHistory := []
  networkCongestion := .medium
  lastUpdate := 0
  chainId := 1

def priorityFeeOver (gasPrice : ℕ) : Option ℕ → Option ℕ
  | some base => if base < gasPrice then some (gasPrice-base) else none
  | none => none

def latestBaseFee : Except String (Option Block) → Option ℕ
  | .ok (some block) => block.baseFeePerGas
  | _ => none

def freshData (o : GasOptimizer) (adapter : GasAdapter) (gasPrice : ℕ) : CachedGasData :=
  let baseFee := if adapter.eip1559Supported then latestBaseFee adapter.getBlock else none
  { chainId := adapter.chainId
    timestamp := adapter.now
    gasPrice
    priorityFee := priorityFeeOver gasPrice baseFee
    baseFee
    networkCongestion := o.networkCongestion }

def getCachedGasData (o : GasOptimizer) (adapter : GasAdapter) (cache : GasPriceCache) :
    Except GasFailure CachedGasData × GasPriceCache :=
  match (cache adapter.chainId).filter fun data => adapter.now-data.timestamp < 300 with
  | some data => (.ok data,cache)
  | none =>
    match adapter.getGasPrice with
    | .error e => (.error (.failed e),cache)
    | .ok gasPrice =>
      let data := o.freshData adapter gasPrice
      (.ok data,Function.update cache adapter.chainId (some data))

def medianRewards (history : FeeHistory) : List ℕ :=
  history.reward.filterMap (·[1]?)

def priorityFee (data : CachedGasData) (history : FeeHistory) : Except String ℕ :=
  if medianRewards history ≠ [] then do
    let sum ← Checked.sum 256 (medianRewards history) 0
    .ok (sum/(medianRewards history).length)
  else .ok (data.priorityFee.getD 1500000000)

def boostFactor (config : GasOptimizerConfig) (data : CachedGasData) : UInt64 :=
  min data.networkCongestion.boostFactor (100+config.priorityBoostPercent)

def boostedPriorityFee (config : GasOptimizerConfig) (data : CachedGasData)
    (history : FeeHistory) : Except String ℕ := do
  let fee ← priorityFee data history
  let boosted ← Checked.mul 256 fee (boostFactor config data).toNat
  .ok (boosted/100)

def latestBase (data : CachedGasData) (history : FeeHistory) : Option ℕ :=
  history.baseFeePerGas.getLast?.or data.baseFee

def maxFee (data : CachedGasData) (history : FeeHistory) (boosted : ℕ) : Except String ℕ :=
  match latestBase data history with
  | some base => do
    let scaled ← Checked.mul 256 base data.networkCongestion.baseFeeMultiplier
    Checked.add 256 (scaled/100) boosted
  | none => .ok data.gasPrice

def eip1559Fees (config : GasOptimizerConfig) (data : CachedGasData) (history : FeeHistory) :
    Except String (ℕ × ℕ) := do
  let boosted ← boostedPriorityFee config data history
  let fee ← maxFee data history boosted
  .ok (boosted,if fee > config.maxGasPrice then config.maxGasPrice else fee)

def getOptimalEip1559Fees (o : GasOptimizer) (adapter : GasAdapter) (cache : GasPriceCache) :
    Except GasFailure (ℕ × ℕ) × GasPriceCache :=
  match o.getCachedGasData adapter cache with
  | (.error e,cache) => (.error e,cache)
  | (.ok data,cache) =>
    (do let history ← asked adapter.feeHistory
        checked (eip1559Fees o.config data history),cache)

def legacyGasPrice (congestion : NetworkCongestion) (current : ℕ) : Except String ℕ :=
  if 2^128 ≤ current then .error "Integer overflow when casting to u128"
  else .ok (current*congestion.multiplier%2^128/1000)

def getOptimalGasPrice (o : GasOptimizer) (adapter : GasAdapter) (cache : GasPriceCache) :
    Except GasFailure ℕ × GasPriceCache :=
  if adapter.eip1559Supported then
    let (fees,cache) := o.getOptimalEip1559Fees adapter cache
    (fees.map Prod.fst,cache)
  else
    (do let current ← asked adapter.getGasPrice
        checked (legacyGasPrice o.networkCongestion current),cache)

def optimizeTransaction (o : GasOptimizer) (adapter : GasAdapter) (cache : GasPriceCache)
    (tx : TransactionRequest) : Except GasFailure TransactionRequest × GasPriceCache :=
  if adapter.eip1559Supported then
    let (fees,cache) := o.getOptimalEip1559Fees adapter cache
    (fees.map fun (priorityFee,maxFee) =>
      { tx with maxPriorityFeePerGas := some priorityFee, maxFeePerGas := some maxFee },cache)
  else
    let (price,cache) := o.getOptimalGasPrice adapter cache
    (price.map fun gasPrice => { tx with gasPrice := some gasPrice },cache)

def increasePercent : ℕ → ℕ
  | 1 => 20
  | 2 => 50
  | 3 => 100
  | _ => 200

def basePrice (o : GasOptimizer) (current : Option ℕ) : ℕ :=
  current.getD ((o.gasPriceHistory.getLast?.map Prod.snd).getD 50000000000)

def getOptimizedGasPrice (o : GasOptimizer) (retryCount : ℕ) (current : Option ℕ) :
    Except String ℕ :=
  if retryCount = 0 then .ok (o.basePrice current)
  else do
    let raised ← Checked.mul 256 (o.basePrice current) (100+increasePercent retryCount)
    .ok (if raised/100 > o.config.maxGasPrice then o.config.maxGasPrice else raised/100)

end GasOptimizer

end DiamondBot.Trade
