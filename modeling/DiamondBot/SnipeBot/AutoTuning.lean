import DiamondBot.Library.AtomicRun
import DiamondBot.Library.Averages
import DiamondBot.Library.Checked
import DiamondBot.SnipeBot.RetryMetrics

/-!
# The measured block time

Every answer of the provider is stored with the time, but the time since the
one before is used only when the answer is a higher block. The clock counts
nanoseconds and is read twice in a call. A call that panics is the last one.
-/

set_option autoImplicit false

namespace DiamondBot.AutoTuning
open Library AtomicRun Averages DiamondBot.Metric

structure NetworkConditions where
  avgBlockTime : UInt64
  congestionLevel : UInt64
  gasPrice : UInt64
  retrySuccessRate : Float

structure AutoTuner where
  lastBlockNumber : UInt64
  lastBlockTime : ℕ
  networkCongestionLevel : UInt64
  avgBlockTimeMs : UInt64

/-- What one call reads: the answers of the provider, the metrics, and how the clock goes on
to its first and to its second reading. -/
structure Call where
  blockNumber : Except String UInt64
  waited : ℕ
  estimateGasPrice : Option ℕ
  estimateMetrics : RetryMetrics
  estimating : ℕ
  gasPrice : Option ℕ
  metrics : RetryMetrics

def NetworkConditions.default : NetworkConditions := ⟨0,0,0,0.0⟩

def AutoTuner.new (now : ℕ) (avgBlockTimeMs : UInt64) : AutoTuner := ⟨0,now,50,avgBlockTimeMs⟩

namespace Call

def measuredAt (c : Call) (now : ℕ) : ℕ := now+c.waited

def stampedAt (c : Call) (now : ℕ) : ℕ := c.measuredAt now+c.estimating

end Call

/-! ## The congestion level -/

def minFloat (x y : Float) : Float := if x.isNaN then y else if y < x then y else x

def maxFloat (x y : Float) : Float := if x.isNaN then y else if x < y then y else x

def asU64 (n : ℕ) : Except String UInt64 :=
  if n < 2^64 then .ok (.ofNat n) else .error "Integer overflow when casting to u64"

def blockTimeFactor (avgBlockTimeMs : UInt64) : Float :=
  if avgBlockTimeMs > 12000 then (minFloat (avgBlockTimeMs.toFloat/12000.0) 3.0-1.0)*5.0 else 0.0

def gasPriceFactor (gasPrice : UInt64) : Float :=
  if gasPrice > 0 then
    maxFloat (minFloat (gasPrice.toFloat/50000000000.0) 5.0-1.0) 0.0*2.0
  else 0.0

def successFactor (successRate : Float) : Float :=
  if successRate < 80.0 then (80.0-successRate)/8.0 else 0.0

def Call.estimateCongestionLevel (c : Call) (avgBlockTimeMs : UInt64) : Except String UInt64 := do
  let gasPrice ← match c.estimateGasPrice with
    | some price => asU64 price
    | none => .ok 0
  let successRate := c.estimateMetrics.getSuccessRate
  let congestion := minFloat
    (blockTimeFactor avgBlockTimeMs+gasPriceFactor gasPrice+successFactor successRate) 10.0
  return congestion.round.toUInt64

/-! ## One call -/

/-- Whole milliseconds, cut to 64 bits. -/
def elapsedMs (since now : ℕ) : ℕ := (now-since)/10^6%2^64

namespace AutoTuner

def avgTime (t : AutoTuner) (measuredAt : ℕ) (blockNumber : UInt64) : Except String (Option ℕ) :=
  if t.lastBlockNumber ≠ 0 then do
    let blocksPassed ← Checked.sub blockNumber.toNat t.lastBlockNumber.toNat
    if blocksPassed > 0 then
      let avgTime ← Checked.div (elapsedMs t.lastBlockTime measuredAt) blocksPassed
      return some avgTime
    else return none
  else return none

def newAvg (currentAvg : UInt64) (avgTime : ℕ) : Except String UInt64 := do
  let weighted ← Checked.mul 64 currentAvg.toNat 9
  let total ← Checked.add 64 weighted avgTime
  return .ofNat (total/10)

def measure (t : AutoTuner) (now : ℕ) (c : Call) (blockNumber : UInt64) :
    Except String NetworkConditions×AutoTuner :=
  match t.avgTime (c.measuredAt now) blockNumber with
  | .error e => (.error e,t)
  | .ok none => (.ok .default,t)
  | .ok (some avgTime) =>
    match newAvg t.avgBlockTimeMs avgTime with
    | .error e => (.error e,t)
    | .ok avg =>
      let t := { t with avgBlockTimeMs := avg }
      match c.estimateCongestionLevel avg with
      | .error e => (.error e,t)
      | .ok level =>
        (.ok { NetworkConditions.default with avgBlockTime := avg, congestionLevel := level },
          { t with networkCongestionLevel := level })

def observe (t : AutoTuner) (now : ℕ) (c : Call) : Except String NetworkConditions×AutoTuner :=
  match c.blockNumber with
  | .error _ => (.ok .default,t)
  | .ok blockNumber =>
    match t.measure now c blockNumber with
    | (.error e,t) => (.error e,t)
    | (.ok conditions,t) =>
      (.ok conditions,
        { t with lastBlockNumber := blockNumber, lastBlockTime := c.stampedAt now })

def checkNetworkConditions (t : AutoTuner) (now : ℕ) (c : Call) :
    Except String NetworkConditions×AutoTuner :=
  match t.observe now c with
  | (.error e,t) => (.error e,t)
  | (.ok conditions,t) =>
    let gasPrice := match c.gasPrice with
      | some price => asU64 price
      | none => .ok conditions.gasPrice
    match gasPrice with
    | .error e => (.error e,t)
    | .ok gasPrice =>
      (.ok { conditions with gasPrice, retrySuccessRate := c.metrics.getSuccessRate },t)

end AutoTuner

namespace AutoTuner

variable {t : AutoTuner} {now : ℕ} {c : Call} {blockNumber : UInt64}

end AutoTuner

namespace AutoTuner

variable {t : AutoTuner} {now : ℕ} {c : Call} {blockNumber : UInt64}

end AutoTuner

/-! ## Calls over time -/

structure Sighting where
  number : UInt64
  time : ℕ

structure Watch where
  tuner : AutoTuner
  now : ℕ
  seen : Sighting
  stopped : Bool

namespace Watch

def start (now : ℕ) (avgBlockTimeMs : UInt64) : Watch where
  tuner := .new now avgBlockTimeMs
  now := now
  seen := ⟨0,now⟩
  stopped := false

def next (s : Watch) (c : Call) : Watch :=
  if s.stopped then s
  else
    let result := s.tuner.checkNetworkConditions s.now c
    { tuner := result.2
      now := c.stampedAt s.now
      seen :=
        if s.tuner.lastBlockNumber < result.2.lastBlockNumber then
          ⟨result.2.lastBlockNumber,result.2.lastBlockTime⟩
        else s.seen
      stopped := !result.1.isOk }

variable {s : Watch} {c : Call}

structure Tracks (s : Watch) : Prop where
  number : s.seen.number = s.tuner.lastBlockNumber
  seen_le : s.seen.time ≤ s.tuner.lastBlockTime
  stored_le : s.tuner.lastBlockTime ≤ s.now

/-- The block is answered so many nanoseconds after the call before. -/
def answer (waited : ℕ) (blockNumber : UInt64) : Call :=
  ⟨.ok blockNumber,waited,none,.default,0,none,.default⟩

end Watch

end DiamondBot.AutoTuning
