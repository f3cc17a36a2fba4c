import DiamondBot.SnipeBot.GasOptimizer

/-!
# The fees of a transaction

The priority fee is the boosted tip, and only the fee cap is held to the limit
of the configuration. The tip is therefore within the cap exactly when the
limit leaves room for it. The quote of an EIP-1559 chain is the tip and not the
cap, so it is the cap only where the two are equal.
-/

set_option autoImplicit false

namespace DiamondBot.Trade
open Library

namespace GasOptimizer

def tip (data : CachedGasData) (history : FeeHistory) : ℕ :=
  if medianRewards history ≠ [] then
    (medianRewards history).sum/(medianRewards history).length
  else data.priorityFee.getD 1500000000

def tipHundredths (config : GasOptimizerConfig) (data : CachedGasData) (history : FeeHistory) :
    ℕ :=
  tip data history*(boostFactor config data).toNat

def uncapped (data : CachedGasData) (history : FeeHistory) (boosted : ℕ) : ℕ :=
  match latestBase data history with
  | some base => base*data.networkCongestion.baseFeeMultiplier/100+boosted
  | none => data.gasPrice

/-- The boosted tip is within the limit, and within the gas price where no base
fee is known. -/
def TipFits (config : GasOptimizerConfig) (data : CachedGasData) (history : FeeHistory) : Prop :=
  tipHundredths config data history < (config.maxGasPrice+1)*100 ∧
    (latestBase data history = none →
      tipHundredths config data history < (data.gasPrice+1)*100)

/-- The cap has no part but the tip: the tip reaches the limit, or nothing is
added to it for the base fee; without a base fee the tip is the gas price. -/
def TipIsCap (config : GasOptimizerConfig) (data : CachedGasData) (history : FeeHistory) : Prop :=
  tipHundredths config data history/100 = config.maxGasPrice ∧
      (latestBase data history = none → config.maxGasPrice ≤ data.gasPrice) ∨
    tipHundredths config data history < config.maxGasPrice*100 ∧
      match latestBase data history with
      | some base => base*data.networkCongestion.baseFeeMultiplier < 100
      | none => tipHundredths config data history/100 = data.gasPrice

/-- A condition on the gas data and the fee history that the adapter gives. -/
def OfData (o : GasOptimizer) (adapter : GasAdapter) (cache : GasPriceCache)
    (p : CachedGasData → FeeHistory → Prop) : Prop :=
  ∀ data history, (o.getCachedGasData adapter cache).1 = .ok data →
    adapter.feeHistory = .ok history → p data history

/-! ## What the calls return -/

theorem priorityFee_ok {data : CachedGasData} {history : FeeHistory} {fee : ℕ}
    (h : priorityFee data history = .ok fee) : fee = tip data history := by
  unfold priorityFee at h
  unfold tip
  split at h
  next hrewards =>
    obtain ⟨sum,hsum,h⟩ := Checked.bind_ok.mp h
    cases h
    rw [if_pos hrewards,Checked.sum_ok _ hsum,Nat.zero_add]
  next hrewards =>
    cases h
    rw [if_neg hrewards]

theorem maxFee_ok {data : CachedGasData} {history : FeeHistory} {boosted fee : ℕ}
    (h : maxFee data history boosted = .ok fee) : fee = uncapped data history boosted := by
  unfold maxFee at h
  unfold uncapped
  cases hbase : latestBase data history with
  | some base =>
    rw [hbase] at h
    obtain ⟨scaled,hscaled,h⟩ := Checked.bind_ok.mp h
    rw [(Checked.add_ok.mp h).2,(Checked.mul_ok.mp hscaled).2]
  | none =>
    rw [hbase] at h
    cases h
    rfl

theorem eip1559Fees_ok {config : GasOptimizerConfig} {data : CachedGasData}
    {history : FeeHistory} {priority cap : ℕ}
    (h : eip1559Fees config data history = .ok (priority,cap)) :
    priority = tipHundredths config data history/100 ∧
      cap = min (uncapped data history priority) config.maxGasPrice := by
  obtain ⟨boosted,hboosted,h⟩ := Checked.bind_ok.mp h
  obtain ⟨fee,hfee,h⟩ := Checked.bind_ok.mp h
  obtain ⟨t,ht,hboosted⟩ := Checked.bind_ok.mp hboosted
  obtain ⟨product,hproduct,hboosted⟩ := Checked.bind_ok.mp hboosted
  cases hboosted
  obtain ⟨rfl,rfl⟩ := Prod.mk.inj (Except.ok.inj h)
  refine ⟨by rw [(Checked.mul_ok.mp hproduct).2,priorityFee_ok ht,tipHundredths],?_⟩
  rw [← maxFee_ok hfee]
  split <;> omega

theorem getOptimalEip1559Fees_ok {o : GasOptimizer} {adapter : GasAdapter}
    {cache : GasPriceCache} {fees : ℕ × ℕ}
    (h : (o.getOptimalEip1559Fees adapter cache).1 = .ok fees) :
    ∃ data history, (o.getCachedGasData adapter cache).1 = .ok data ∧
      adapter.feeHistory = .ok history ∧ eip1559Fees o.config data history = .ok fees := by
  unfold getOptimalEip1559Fees at h
  split at h
  next => cases h
  next data cache' hdata =>
    obtain ⟨history,hhistory,h⟩ := Checked.bind_ok.mp h
    exact ⟨data,history,by rw [hdata],Checked.mapError_ok.mp hhistory,Checked.mapError_ok.mp h⟩

theorem ofData_iff {o : GasOptimizer} {adapter : GasAdapter} {cache : GasPriceCache}
    {data : CachedGasData} {history : FeeHistory}
    (hdata : (o.getCachedGasData adapter cache).1 = .ok data)
    (hhistory : adapter.feeHistory = .ok history) (p : CachedGasData → FeeHistory → Prop) :
    o.OfData adapter cache p ↔ p data history := by
  refine ⟨fun h => h data history hdata hhistory,fun h data' history' hdata' hhistory' => ?_⟩
  rw [hdata] at hdata'
  rw [hhistory] at hhistory'
  cases hdata'
  cases hhistory'
  exact h

theorem optimizeTransaction_ok {o : GasOptimizer} {adapter : GasAdapter} {cache : GasPriceCache}
    {tx tx' : TransactionRequest} (hchain : adapter.eip1559Supported = true)
    (h : (o.optimizeTransaction adapter cache tx).1 = .ok tx') :
    ∃ priority cap, (o.getOptimalEip1559Fees adapter cache).1 = .ok (priority,cap) ∧
      tx' = { tx with maxPriorityFeePerGas := some priority, maxFeePerGas := some cap } := by
  rw [optimizeTransaction,if_pos hchain] at h
  obtain ⟨⟨priority,cap⟩,hfees,rfl⟩ := Checked.map_ok.mp h
  exact ⟨priority,cap,hfees,rfl⟩

/-! ## The tip within the cap -/

theorem tip_le_iff {x limit : ℕ} : x/100 ≤ limit ↔ x < (limit+1)*100 := by
  rw [← Nat.lt_succ_iff,Nat.div_lt_iff_lt_mul (by decide)]

theorem fees_valid_iff {config : GasOptimizerConfig} {data : CachedGasData}
    {history : FeeHistory} {priority cap : ℕ}
    (h : eip1559Fees config data history = .ok (priority,cap)) :
    priority ≤ cap ∧ cap ≤ config.maxGasPrice ↔ TipFits config data history := by
  obtain ⟨rfl,rfl⟩ := eip1559Fees_ok h
  have hcap := min_le_right (uncapped data history (tipHundredths config data history/100))
    config.maxGasPrice
  rw [TipFits,← tip_le_iff,← tip_le_iff,and_iff_left hcap,le_min_iff,and_comm]
  refine and_congr_right fun _ => ?_
  unfold uncapped
  cases latestBase data history with
  | some base => exact iff_of_true (Nat.le_add_left _ _) fun hnone => nomatch hnone
  | none => exact ⟨fun hle _ => hle,fun hle => hle rfl⟩

/-- The fee fields are set, the tip within the cap and the cap within the limit. -/
def FeesValid (tx : TransactionRequest) (limit : ℕ) : Prop :=
  ∃ priority cap, tx.maxPriorityFeePerGas = some priority ∧ tx.maxFeePerGas = some cap ∧
    priority ≤ cap ∧ cap ≤ limit

/-- Fees that are returned are valid exactly when the limit, and the gas price
where no base fee is known, leave room for the boosted tip; so is a transaction
that carries them. -/
theorem optimalFees_valid_iff (o : GasOptimizer) (adapter : GasAdapter) (cache : GasPriceCache) :
    (∀ priority cap, (o.getOptimalEip1559Fees adapter cache).1 = .ok (priority,cap) →
      (priority ≤ cap ∧ cap ≤ o.config.maxGasPrice ↔
        o.OfData adapter cache (TipFits o.config))) ∧
    ∀ tx tx', adapter.eip1559Supported = true →
      (o.optimizeTransaction adapter cache tx).1 = .ok tx' →
      (FeesValid tx' o.config.maxGasPrice ↔ o.OfData adapter cache (TipFits o.config)) := by
  have hfees (priority cap : ℕ)
      (h : (o.getOptimalEip1559Fees adapter cache).1 = .ok (priority,cap)) :
      priority ≤ cap ∧ cap ≤ o.config.maxGasPrice ↔
        o.OfData adapter cache (TipFits o.config) := by
    obtain ⟨data,history,hdata,hhistory,hok⟩ := getOptimalEip1559Fees_ok h
    rw [ofData_iff hdata hhistory]
    exact fees_valid_iff hok
  refine ⟨hfees,fun tx tx' hchain h => ?_⟩
  obtain ⟨priority,cap,hok,rfl⟩ := optimizeTransaction_ok hchain h
  rw [← hfees priority cap hok]
  constructor
  · rintro ⟨_,_,hp,hc,hvalid⟩
    cases hp
    cases hc
    exact hvalid
  · exact fun hvalid => ⟨priority,cap,rfl,rfl,hvalid⟩

def chainWithTips (tips : List ℕ) : GasAdapter where
  chainId := 1
  eip1559Supported := true
  now := 1000
  getGasPrice := .ok 30000000000
  getBlock := .ok (some ⟨some 20000000000⟩)
  feeHistory := .ok ⟨[20000000000],tips.map fun tip => [tip/2,tip,tip*2]⟩

/-- With tips of 600 Gwei the limit of 500 Gwei cuts the cap and not the tip. -/
theorem tip_above_cap : ∃ priority cap,
    ((withConfig defaultConfig).getOptimalEip1559Fees (chainWithTips [600000000000])
      (fun _ => none)).1 = .ok (priority,cap) ∧ ¬priority ≤ cap :=
  ⟨720000000000,500000000000,rfl,by decide⟩

theorem tips_of_two_valid :
    (2400000000 ≤ 28400000000 ∧ 28400000000 ≤ (withConfig defaultConfig).config.maxGasPrice) ↔
      (withConfig defaultConfig).OfData (chainWithTips [2000000000]) (fun _ => none)
        (TipFits (withConfig defaultConfig).config) :=
  (optimalFees_valid_iff (withConfig defaultConfig) (chainWithTips [2000000000])
    (fun _ => none)).1 2400000000 28400000000 rfl

/-! ## The quote and the fee limit -/

def feeLimit (adapter : GasAdapter) (tx : TransactionRequest) : Option ℕ :=
  if adapter.eip1559Supported then tx.maxFeePerGas else tx.gasPrice

/-- Data that were just returned are returned again from the cache. -/
theorem getCachedGasData_again (o : GasOptimizer) (adapter : GasAdapter) (cache : GasPriceCache) :
    (o.getCachedGasData adapter (o.getCachedGasData adapter cache).2).1 =
      (o.getCachedGasData adapter cache).1 := by
  cases hcached : (cache adapter.chainId).filter
      fun data => decide (adapter.now-data.timestamp < 300) with
  | some data =>
    have hsame : o.getCachedGasData adapter cache = (.ok data,cache) := by
      simp only [getCachedGasData,hcached]
    rw [hsame,hsame]
  | none =>
    cases hprice : adapter.getGasPrice with
    | error e =>
      have hsame : o.getCachedGasData adapter cache = (.error (.failed e),cache) := by
        simp only [getCachedGasData,hcached,hprice]
      rw [hsame,hsame]
    | ok gasPrice =>
      have hfresh : o.getCachedGasData adapter cache = (.ok (o.freshData adapter gasPrice),
          Function.update cache adapter.chainId (some (o.freshData adapter gasPrice))) := by
        simp only [getCachedGasData,hcached,hprice]
      have hyoung : adapter.now-(o.freshData adapter gasPrice).timestamp < 300 := by
        change adapter.now-adapter.now < 300
        rw [sub_self]
        decide
      have hagain : (Function.update cache adapter.chainId (some (o.freshData adapter gasPrice))
          adapter.chainId).filter (fun data => decide (adapter.now-data.timestamp < 300)) =
          some (o.freshData adapter gasPrice) := by
        rw [Function.update_self,Option.filter_some,if_pos (decide_eq_true hyoung)]
      rw [hfresh]
      simp only [getCachedGasData,hagain]

theorem getOptimalEip1559Fees_again (o : GasOptimizer) (adapter : GasAdapter)
    (cache : GasPriceCache) :
    (o.getOptimalEip1559Fees adapter (o.getOptimalEip1559Fees adapter cache).2).1 =
      (o.getOptimalEip1559Fees adapter cache).1 := by
  have hfees (c : GasPriceCache) : o.getOptimalEip1559Fees adapter c =
      ((o.getCachedGasData adapter c).1.bind fun data => do
        let history ← asked adapter.feeHistory
        checked (eip1559Fees o.config data history),(o.getCachedGasData adapter c).2) := by
    unfold getOptimalEip1559Fees
    rcases o.getCachedGasData adapter c with ⟨_ | _,_⟩ <;> rfl
  rw [hfees cache,hfees,getCachedGasData_again]

theorem tip_eq_cap_iff {config : GasOptimizerConfig} {data : CachedGasData}
    {history : FeeHistory} {priority cap : ℕ}
    (h : eip1559Fees config data history = .ok (priority,cap)) :
    priority = cap ↔ TipIsCap config data history := by
  obtain ⟨rfl,rfl⟩ := eip1559Fees_ok h
  unfold TipIsCap uncapped
  cases latestBase data history with
  | some base =>
    simp only [reduceCtorEq,false_imp_iff,and_true]
    omega
  | none =>
    simp only [forall_const]
    omega

/-- A quote and the fee limit of a transaction that is filled in from the same
data, before the quote or after it: always equal on a legacy chain, and on an
EIP-1559 chain exactly when the cap is the tip. -/
theorem quote_is_limit_iff (o : GasOptimizer) (adapter : GasAdapter)
    (cache cache' : GasPriceCache) (tx tx' : TransactionRequest) (price : ℕ)
    (hcache : cache' = cache ∨ cache' = (o.getOptimalGasPrice adapter cache).2)
    (hprice : (o.getOptimalGasPrice adapter cache).1 = .ok price)
    (htx : (o.optimizeTransaction adapter cache' tx).1 = .ok tx') :
    feeLimit adapter tx' = some price ↔
      (adapter.eip1559Supported = true → o.OfData adapter cache (TipIsCap o.config)) := by
  unfold feeLimit
  cases hchain : adapter.eip1559Supported with
  | true =>
    have hsame : (o.getOptimalEip1559Fees adapter cache').1 =
        (o.getOptimalEip1559Fees adapter cache).1 := by
      rcases hcache with rfl | rfl
      · rfl
      · rw [getOptimalGasPrice,if_pos hchain]
        exact getOptimalEip1559Fees_again o adapter cache
    obtain ⟨priority,cap,hfees,rfl⟩ := optimizeTransaction_ok hchain htx
    rw [hsame] at hfees
    rw [getOptimalGasPrice,if_pos hchain] at hprice
    change (o.getOptimalEip1559Fees adapter cache).1.map Prod.fst = .ok price at hprice
    rw [hfees] at hprice
    cases hprice
    obtain ⟨data,history,hdata,hhistory,hok⟩ := getOptimalEip1559Fees_ok hfees
    rw [forall_prop_of_true rfl,ofData_iff hdata hhistory,← tip_eq_cap_iff hok,if_pos rfl,
      Option.some_inj,eq_comm]
  | false =>
    have hlegacy : (o.getOptimalGasPrice adapter cache').1 =
        (o.getOptimalGasPrice adapter cache).1 := by
      simp only [getOptimalGasPrice,hchain]
      rfl
    rw [optimizeTransaction,hchain] at htx
    change (o.getOptimalGasPrice adapter cache').1.map _ = .ok tx' at htx
    rw [hlegacy,hprice] at htx
    cases htx
    exact iff_of_true rfl fun h => nomatch h

/-- With tips of 2 Gwei the quote is 2.4 Gwei and the fee cap 28.4 Gwei. -/
theorem quote_is_tip : ∃ price tx,
    ((withConfig defaultConfig).getOptimalGasPrice (chainWithTips [2000000000])
      (fun _ => none)).1 = .ok price ∧
    ((withConfig defaultConfig).optimizeTransaction (chainWithTips [2000000000])
      (fun _ => none) ⟨none,none,none⟩).1 = .ok tx ∧
    feeLimit (chainWithTips [2000000000]) tx ≠ some price :=
  ⟨2400000000,⟨none,some 2400000000,some 28400000000⟩,rfl,rfl,by decide⟩

theorem quote_of_two_iff : feeLimit (chainWithTips [2000000000])
      ⟨none,some 2400000000,some 28400000000⟩ = some 2400000000 ↔
    ((chainWithTips [2000000000]).eip1559Supported = true →
      (withConfig defaultConfig).OfData (chainWithTips [2000000000]) (fun _ => none)
        (TipIsCap (withConfig defaultConfig).config)) :=
  quote_is_limit_iff _ _ _ _ ⟨none,none,none⟩ _ _ (Or.inl rfl) rfl rfl

/-! ## The price of a retry -/

theorem increasePercent_mono {r s : ℕ} (h : r ≤ s) (hr : r ≠ 0) :
    increasePercent r ≤ increasePercent s := by
  have heq (n : ℕ) (hn : n ≠ 0) : increasePercent n =
      if n = 1 then 20 else if n = 2 then 50 else if n = 3 then 100 else 200 := by
    unfold increasePercent
    split <;> simp_all
  rw [heq r hr,heq s (by omega)]
  split_ifs <;> omega

theorem getOptimizedGasPrice_retry {o : GasOptimizer} {retryCount : ℕ} {current : Option ℕ}
    (h : retryCount ≠ 0) {price : ℕ} :
    o.getOptimizedGasPrice retryCount current = .ok price ↔
      o.basePrice current*(100+increasePercent retryCount) < 2^256 ∧
        price = min (o.basePrice current*(100+increasePercent retryCount)/100)
          o.config.maxGasPrice := by
  rw [getOptimizedGasPrice,if_neg h,Checked.bind_ok]
  constructor
  · rintro ⟨raised,hraised,hprice⟩
    obtain ⟨hfits,rfl⟩ := Checked.mul_ok.mp hraised
    cases hprice
    refine ⟨hfits,?_⟩
    split <;> omega
  · rintro ⟨hfits,rfl⟩
    refine ⟨_,Checked.mul_ok.mpr ⟨hfits,rfl⟩,congrArg Except.ok ?_⟩
    split <;> omega

/-- Both prices are returned, in order and within the limit, exactly when the
base price is within it if the first attempt is one of the two, and the larger
increase fits in 256 bits. -/
theorem retry_prices_iff (o : GasOptimizer) (current : Option ℕ) (r s : ℕ) (h : r ≤ s) :
    (∃ x y, o.getOptimizedGasPrice r current = .ok x ∧ o.getOptimizedGasPrice s current = .ok y ∧
      x ≤ y ∧ y ≤ o.config.maxGasPrice) ↔
    (r = 0 → o.basePrice current ≤ o.config.maxGasPrice) ∧
      (s ≠ 0 → o.basePrice current*(100+increasePercent s) < 2^256) := by
  have hfirst : o.getOptimizedGasPrice 0 current = .ok (o.basePrice current) := rfl
  rcases Nat.eq_zero_or_pos s with rfl | hs
  · obtain rfl := Nat.le_zero.mp h
    simp [hfirst]
  have hraise : o.basePrice current ≤ o.basePrice current*(100+increasePercent s)/100 := by
    rw [Nat.le_div_iff_mul_le (by decide)]
    exact Nat.mul_le_mul_left _ (by omega)
  rcases Nat.eq_zero_or_pos r with rfl | hr
  · rw [hfirst]
    constructor
    · rintro ⟨x,y,hx,hy,hxy,hlimit⟩
      cases hx
      exact ⟨fun _ => hxy.trans hlimit,fun _ =>
        ((getOptimizedGasPrice_retry hs.ne').mp hy).1⟩
    · rintro ⟨hbase,hfits⟩
      refine ⟨_,_,rfl,(getOptimizedGasPrice_retry hs.ne').mpr ⟨hfits hs.ne',rfl⟩,?_,
        min_le_right _ _⟩
      exact le_min hraise (hbase rfl)
  · have hmono : o.basePrice current*(100+increasePercent r) ≤
        o.basePrice current*(100+increasePercent s) :=
      Nat.mul_le_mul_left _ (by have := increasePercent_mono h hr.ne'; omega)
    constructor
    · rintro ⟨x,y,_,hy,_,_⟩
      exact ⟨fun h0 => absurd h0 hr.ne',fun _ => ((getOptimizedGasPrice_retry hs.ne').mp hy).1⟩
    · rintro ⟨_,hfits⟩
      refine ⟨_,_,(getOptimizedGasPrice_retry hr.ne').mpr
        ⟨hmono.trans_lt (hfits hs.ne'),rfl⟩,
        (getOptimizedGasPrice_retry hs.ne').mpr ⟨hfits hs.ne',rfl⟩,?_,min_le_right _ _⟩
      exact min_le_min_right _ (Nat.div_le_div_right hmono)

/-- A first attempt at 600 Gwei is offered more than the limit and than its retry. -/
theorem first_attempt_uncapped :
    ¬∃ x y, (withConfig defaultConfig).getOptimizedGasPrice 0 (some 600000000000) = .ok x ∧
      (withConfig defaultConfig).getOptimizedGasPrice 1 (some 600000000000) = .ok y ∧
      x ≤ y ∧ y ≤ (withConfig defaultConfig).config.maxGasPrice := by
  rintro ⟨x,y,hx,hy,hxy,_⟩
  cases hx
  cases hy
  exact absurd hxy (by decide)

theorem retry_prices_default :
    (∃ x y, (withConfig defaultConfig).getOptimizedGasPrice 1 none = .ok x ∧
      (withConfig defaultConfig).getOptimizedGasPrice 4 none = .ok y ∧
      x ≤ y ∧ y ≤ (withConfig defaultConfig).config.maxGasPrice) ↔
    (1 = 0 → (withConfig defaultConfig).basePrice none ≤
        (withConfig defaultConfig).config.maxGasPrice) ∧
      (4 ≠ 0 → (withConfig defaultConfig).basePrice none*(100+increasePercent 4) < 2^256) :=
  retry_prices_iff (withConfig defaultConfig) none 1 4 (by decide)

end GasOptimizer

end DiamondBot.Trade
