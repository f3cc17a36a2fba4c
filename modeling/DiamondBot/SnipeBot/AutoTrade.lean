import DiamondBot.Library.AtomicRun
import DiamondBot.Library.Checked
import Mathlib.Data.List.AList
import Mathlib.Data.Rat.Defs

/-!
# Automatic trading by safety level

A call has a token analysed, applies the strategy of its level and hands over
to one operation, or ends with an error. Fractions stand for floating-point
numbers, which are only compared and passed on. The answers of the analysis, of
the reserve check and of the mempool are those of the moment of the call.
-/

set_option autoImplicit false

namespace DiamondBot.AutoTrade
open Library

inductive BotMode
  | manual
  | auto
  deriving DecidableEq

inductive TokenSafetyLevel
  | green
  | yellow
  | red
  deriving DecidableEq

structure YellowTokenStrategy where
  buyOnLargeOrders : Bool
  minLargeOrderUsd : ℚ
  sellAfterMinutes : ℕ
  takeProfitPercent : ℚ
  stopLossPercent : ℚ
  useSandwichMode : Bool
  useMempoolData : Bool

structure GreenTokenStrategy where
  frontRunOrders : Bool
  minOrderSizeUsd : ℚ
  useTrailingStop : Bool
  trailingStopPercent : ℚ
  takeProfitPercent : ℚ
  useSandwichMode : Bool

structure AutoTradeConfig where
  enabled : Bool
  redTokenStrategy : Bool
  yellowTokenStrategy : YellowTokenStrategy
  greenTokenStrategy : GreenTokenStrategy
  useMevStrategies : Bool
  maxGasBoostPercent : ℕ

def AutoTradeConfig.default : AutoTradeConfig where
  enabled := false
  redTokenStrategy := false
  yellowTokenStrategy := {
    buyOnLargeOrders := true
    minLargeOrderUsd := 5000
    sellAfterMinutes := 5
    takeProfitPercent := 25
    stopLossPercent := 10
    useSandwichMode := true
    useMempoolData := true }
  greenTokenStrategy := {
    frontRunOrders := true
    minOrderSizeUsd := 10000
    useTrailingStop := true
    trailingStopPercent := 15
    takeProfitPercent := 30
    useSandwichMode := true }
  useMevStrategies := true
  maxGasBoostPercent := 200

structure PendingSwap where
  txHash : String
  tokenAddress : String
  isBuy : Bool
  amountUsd : ℚ
  gasPrice : ℕ

structure MempoolTracker where
  pendingSwaps : AList fun _ : String => List PendingSwap

structure MempoolWatcher where
  mempoolTracker : Option MempoolTracker

def getLargeOrdersInMempool (watcher : Option MempoolWatcher) (tokenAddress : String)
    (minAmountUsd : ℚ) : List PendingSwap :=
  match watcher.bind MempoolWatcher.mempoolTracker with
  | some tracker => ((tracker.pendingSwaps.lookup tokenAddress).getD []).filter
      fun swap => swap.isBuy && decide (minAmountUsd ≤ swap.amountUsd)
  | none => []

def checkLargeOrdersInMempool (watcher : Option MempoolWatcher) (tokenAddress : String)
    (minAmountUsd : ℚ) : Bool :=
  !(getLargeOrdersInMempool watcher tokenAddress minAmountUsd).isEmpty

/-- The operation a call hands over to. -/
inductive Operation
  | buyToken (tokenAddress : String) (amountIn : ℕ)
  | frontRunTransaction (pendingSwap : PendingSwap) (amount : String)
  | executeSandwichStrategy (tokenAddress : String)
  | sellTokenPercent (tokenAddress : String) (percent : ℕ)
  | emergencySell (tokenAddress : String)
  | activateTrailingStopLoss (tokenAddress : String) (trailingPercent : ℚ)

/-- One call with the bot it is made to and the answers it gets. -/
structure TradeCall where
  botMode : BotMode
  autoTradeConfig : Option AutoTradeConfig
  mempoolWatcher : Option MempoolWatcher
  analysis : Except String TokenSafetyLevel
  reserve : Except String Bool
  tokenAddress : String
  amount : String
  action : String

namespace TradeCall

def yellowStrategy (c : TradeCall) : Except String (Option Operation) :=
  match c.autoTradeConfig with
  | none => .ok none
  | some config =>
    if c.action = "buy" then
      if ¬config.yellowTokenStrategy.buyOnLargeOrders then
        .error "Chiến lược mua token vàng không được kích hoạt"
      else if ¬checkLargeOrdersInMempool c.mempoolWatcher c.tokenAddress
          config.yellowTokenStrategy.minLargeOrderUsd then
        .error "Không phát hiện lệnh mua lớn trên mempool cho token này"
      else .ok none
    else if c.action = "sandwich" then
      if ¬config.yellowTokenStrategy.useSandwichMode then
        .error "Chế độ sandwich không được kích hoạt cho token vàng"
      else .ok (some (.executeSandwichStrategy c.tokenAddress))
    else .ok none

def greenStrategy (c : TradeCall) : Except String (Option Operation) :=
  match c.autoTradeConfig with
  | none => .ok none
  | some config =>
    if c.action = "buy" then
      if ¬config.greenTokenStrategy.frontRunOrders then
        .error "Front-running không được kích hoạt cho token xanh"
      else
        match getLargeOrdersInMempool c.mempoolWatcher c.tokenAddress
          config.greenTokenStrategy.minOrderSizeUsd with
        | [] => .error "Không phát hiện lệnh lớn để front-run"
        | order::_ => .ok (some (.frontRunTransaction order c.amount))
    else if c.action = "tsl" then
      if ¬config.greenTokenStrategy.useTrailingStop then
        .error "Trailing stop loss không được kích hoạt cho token xanh"
      else .ok (some (.activateTrailingStopLoss c.tokenAddress
        config.greenTokenStrategy.trailingStopPercent))
    else if c.action = "sandwich" then
      if ¬config.greenTokenStrategy.useSandwichMode then
        .error "Chế độ sandwich không được kích hoạt cho token xanh"
      else .ok (some (.executeSandwichStrategy c.tokenAddress))
    else .ok none

def strategy (c : TradeCall) : TokenSafetyLevel → Except String (Option Operation)
  | .red => .error "Không giao dịch token có mức độ nguy hiểm cao"
  | .yellow => c.yellowStrategy
  | .green => c.greenStrategy

end TradeCall

def digitsValue (digits : List Char) : ℕ :=
  digits.foldl (fun n d => 10*n+(d.toNat- '0'.toNat)) 0

/-- A `u8` in decimal, with an optional plus sign. -/
def parseU8 (text : String) : Option ℕ :=
  let digits := match text.toList with
    | '+'::rest => rest
    | chars => chars
  if digits ≠ [] ∧ digits.all Char.isDigit ∧ digitsValue digits < 2^8 then
    some (digitsValue digits)
  else none

section Calls

-- The library that reads an amount of ether is a parameter.
variable (parseEther : String → Except String ℕ)

namespace TradeCall

def ordinaryTrade (c : TradeCall) : Except String Operation :=
  if c.action = "buy" then
    match parseEther c.amount with
    | .ok amountIn => .ok (.buyToken c.tokenAddress amountIn)
    | .error e => .error ("Số lượng không hợp lệ: " ++ e)
  else if c.action = "sell" then
    .ok (.sellTokenPercent c.tokenAddress ((parseU8 c.amount).getD 100))
  else if c.action = "emergency_sell" then .ok (.emergencySell c.tokenAddress)
  else .error ("Hành động không hỗ trợ: " ++ c.action)

def keepsReserve (c : TradeCall) : Except String Unit :=
  if c.action = "buy" then do
    if (← c.reserve) then pure ()
    else .error "Không đủ reserve balance. Duy trì tối thiểu 25% số dư"
  else .ok ()

def autoTrade (c : TradeCall) : Except String Operation := do
  Checked.require (c.botMode = .auto) "Bot không ở chế độ Auto"
  let safetyLevel ← c.analysis
  c.keepsReserve
  match ← c.strategy safetyLevel with
  | some operation => pure operation
  | none => c.ordinaryTrade parseEther

end TradeCall

/-! ## Runs of calls -/

def Operation.isPurchase : Operation → Bool
  | .buyToken _ _ => true
  | .frontRunTransaction _ _ => true
  | .executeSandwichStrategy _ => true
  | _ => false

def Operation.isSale : Operation → Bool
  | .sellTokenPercent _ _ => true
  | .emergencySell _ => true
  | _ => false

/-- The call is one to sell. -/
def TradeCall.IsSellCall (c : TradeCall) : Prop := c.action = "sell" ∨ c.action = "emergency_sell"

instance (c : TradeCall) : Decidable c.IsSellCall := inferInstanceAs (Decidable (_ ∨ _))

def TradeCall.sale (c : TradeCall) : Operation :=
  if c.action = "sell" then .sellTokenPercent c.tokenAddress ((parseU8 c.amount).getD 100)
  else .emergencySell c.tokenAddress

def TradeCall.sellable (c : TradeCall) : Bool :=
  decide (c.botMode = .auto) && decide c.IsSellCall && match c.analysis with
    | .ok level => decide (level ≠ .red)
    | .error _ => false

abbrev Trades := List (TradeCall × Operation)

def next (trades : Trades) (c : TradeCall) : Trades :=
  match c.autoTrade parseEther with
  | .ok operation => trades++[(c,operation)]
  | .error _ => trades

variable {parseEther}

theorem strategy_sell {c : TradeCall} (h : c.IsSellCall) {level : TokenSafetyLevel}
    (hlevel : level ≠ .red) : c.strategy level = .ok none := by
  have hbuy : c.action ≠ "buy" := by rcases h with h | h <;> rw [h] <;> decide
  have hsandwich : c.action ≠ "sandwich" := by rcases h with h | h <;> rw [h] <;> decide
  have htsl : c.action ≠ "tsl" := by rcases h with h | h <;> rw [h] <;> decide
  cases level with
  | red => exact absurd rfl hlevel
  | yellow =>
    unfold TradeCall.strategy TradeCall.yellowStrategy
    cases c.autoTradeConfig with
    | none => rfl
    | some config => simp only [hbuy,hsandwich,if_false]
  | green =>
    unfold TradeCall.strategy TradeCall.greenStrategy
    cases c.autoTradeConfig with
    | none => rfl
    | some config => simp only [hbuy,hsandwich,htsl,if_false]

theorem ordinaryTrade_sell {c : TradeCall} (h : c.IsSellCall) :
    c.ordinaryTrade parseEther = .ok c.sale := by
  have hbuy : c.action ≠ "buy" := by rcases h with h | h <;> rw [h] <;> decide
  unfold TradeCall.ordinaryTrade TradeCall.sale
  rw [if_neg hbuy]
  by_cases hsell : c.action = "sell"
  · simp only [hsell,if_true]
  · have hemergency : c.action = "emergency_sell" := h.resolve_left hsell
    simp only [hemergency]
    rfl

theorem autoTrade_ok {c : TradeCall} {operation : Operation}
    (h : c.autoTrade parseEther = .ok operation) : c.botMode = .auto ∧ ∃ level,
      c.analysis = .ok level ∧ (c.strategy level = .ok (some operation) ∨
        c.strategy level = .ok none ∧ c.ordinaryTrade parseEther = .ok operation) := by
  obtain ⟨_,hmode,h⟩ := Checked.bind_ok.mp h
  obtain ⟨level,hlevel,h⟩ := Checked.bind_ok.mp h
  obtain ⟨_,_,h⟩ := Checked.bind_ok.mp h
  obtain ⟨handed,hstrategy,h⟩ := Checked.bind_ok.mp h
  refine ⟨Checked.require_ok.mp hmode,level,hlevel,?_⟩
  cases handed with
  | some operation' =>
    cases h
    exact .inl hstrategy
  | none => exact .inr ⟨hstrategy,h⟩

theorem autoTrade_not_red {c : TradeCall} {operation : Operation}
    (h : c.autoTrade parseEther = .ok operation) : c.analysis ≠ .ok .red := by
  intro hred
  obtain ⟨_,level,hlevel,hwhere⟩ := autoTrade_ok h
  rw [hred] at hlevel
  cases hlevel
  rcases hwhere with hstrategy | ⟨hstrategy,_⟩ <;> cases hstrategy

theorem autoTrade_sell {c : TradeCall} (hmode : c.botMode = .auto) (hsell : c.IsSellCall)
    {level : TokenSafetyLevel} (hlevel : c.analysis = .ok level) (hred : level ≠ .red) :
    c.autoTrade parseEther = .ok c.sale := by
  have hbuy : c.action ≠ "buy" := by rcases hsell with h | h <;> rw [h] <;> decide
  have hreserve : c.keepsReserve = .ok () := if_neg hbuy
  exact Checked.bind_ok.mpr ⟨(),Checked.require_ok.mpr hmode,
    Checked.bind_ok.mpr ⟨level,hlevel,
    Checked.bind_ok.mpr ⟨(),hreserve,
    Checked.bind_ok.mpr ⟨none,strategy_sell hsell hred,ordinaryTrade_sell hsell⟩⟩⟩⟩

theorem autoTrade_sell_red {c : TradeCall} (hmode : c.botMode = .auto) (hsell : c.IsSellCall)
    (hlevel : c.analysis = .ok .red) :
    c.autoTrade parseEther = .error "Không giao dịch token có mức độ nguy hiểm cao" := by
  have hbuy : c.action ≠ "buy" := by rcases hsell with h | h <;> rw [h] <;> decide
  have hreserve : c.keepsReserve = .ok () := if_neg hbuy
  have hgate : Checked.require (c.botMode = .auto) "Bot không ở chế độ Auto" = .ok () :=
    Checked.require_ok.mpr hmode
  simp only [TradeCall.autoTrade,hgate,hlevel,hreserve]
  rfl

theorem yellowStrategy_no_sale {c : TradeCall} {operation : Operation}
    (h : c.yellowStrategy = .ok (some operation)) : operation.isSale = false := by
  unfold TradeCall.yellowStrategy at h
  cases hconfig : c.autoTradeConfig with
  | none => simp [hconfig] at h
  | some config =>
    simp only [hconfig] at h
    split_ifs at h
    · cases h
    · cases h
      rfl
    · cases h

theorem greenStrategy_no_sale {c : TradeCall} {operation : Operation}
    (h : c.greenStrategy = .ok (some operation)) : operation.isSale = false := by
  unfold TradeCall.greenStrategy at h
  cases hconfig : c.autoTradeConfig with
  | none => simp [hconfig] at h
  | some config =>
    simp only [hconfig] at h
    split_ifs at h with hbuy hfront
    · split at h
      · cases h
      · cases h
        rfl
    · cases h
      rfl
    · cases h
      rfl
    · cases h

theorem strategy_no_sale {c : TradeCall} {level : TokenSafetyLevel} {operation : Operation}
    (h : c.strategy level = .ok (some operation)) : operation.isSale = false := by
  cases level with
  | red => cases h
  | yellow => exact yellowStrategy_no_sale h
  | green => exact greenStrategy_no_sale h

theorem ordinaryTrade_sale {c : TradeCall} {operation : Operation}
    (h : c.ordinaryTrade parseEther = .ok operation) (hsale : operation.isSale = true) :
    c.IsSellCall := by
  unfold TradeCall.ordinaryTrade at h
  split_ifs at h with hbuy hsell hemergency
  · split at h
    · cases h
      cases hsale
    · cases h
  · exact .inl hsell
  · exact .inr hemergency

variable (parseEther) in
theorem started_sale_iff (c : TradeCall) (operation : Operation) :
    c.autoTrade parseEther = .ok operation ∧ operation.isSale = true ↔
      c.sellable = true ∧ operation = c.sale := by
  constructor
  · rintro ⟨hok,hsale⟩
    obtain ⟨hmode,level,hlevel,hwhere⟩ := autoTrade_ok hok
    have hred : level ≠ .red := fun hred => autoTrade_not_red hok (hred ▸ hlevel)
    have hcall : c.IsSellCall := by
      rcases hwhere with hstrategy | ⟨_,hordinary⟩
      · rw [strategy_no_sale hstrategy] at hsale
        cases hsale
      · exact ordinaryTrade_sale hordinary hsale
    rw [autoTrade_sell hmode hcall hlevel hred] at hok
    refine ⟨?_,(Except.ok.inj hok).symm⟩
    simp [TradeCall.sellable,hmode,hcall,hlevel,hred]
  · rintro ⟨hsellable,rfl⟩
    unfold TradeCall.sellable at hsellable
    simp only [Bool.and_eq_true,decide_eq_true_eq] at hsellable
    obtain ⟨⟨hmode,hcall⟩,hlevel⟩ := hsellable
    cases hanalysis : c.analysis with
    | error e => simp [hanalysis] at hlevel
    | ok level =>
      simp only [hanalysis,decide_eq_true_eq] at hlevel
      refine ⟨autoTrade_sell hmode hcall hanalysis hlevel,?_⟩
      unfold TradeCall.sale
      split <;> rfl

variable (parseEther) in
theorem next_sales (trades : Trades) (c : TradeCall) :
    (next parseEther trades c).filter (fun t => t.2.isSale) =
      trades.filter (fun t => t.2.isSale)++if c.sellable then [(c,c.sale)] else [] := by
  unfold next
  cases hok : c.autoTrade parseEther with
  | error e =>
    have hclosed : c.sellable ≠ true := by
      intro hsellable
      have hsold := ((started_sale_iff parseEther c c.sale).mpr ⟨hsellable,rfl⟩).1
      rw [hok] at hsold
      cases hsold
    simp only [hclosed,Bool.false_eq_true,if_false,List.append_nil]
  | ok operation =>
    simp only [List.filter_append,List.append_cancel_left_eq]
    by_cases hsellable : c.sellable = true
    · have hsold := ((started_sale_iff parseEther c c.sale).mpr ⟨hsellable,rfl⟩)
      rw [hok] at hsold
      obtain ⟨hsame,hsale⟩ := hsold
      cases hsame
      simp [hsellable,hsale]
    · have hother : operation.isSale ≠ true := fun hsale =>
        hsellable ((started_sale_iff parseEther c operation).mp ⟨hok,hsale⟩).1
      simp [hsellable,hother]

variable (parseEther) in
theorem run_sales (calls : List TradeCall) (trades : Trades) :
    (AtomicRun.run (next parseEther) calls trades).filter (fun t => t.2.isSale) =
      trades.filter (fun t => t.2.isSale)++
        (calls.filter TradeCall.sellable).map fun c => (c,c.sale) := by
  induction calls generalizing trades with
  | nil => simp [AtomicRun.run]
  | cons c calls ih =>
    rw [AtomicRun.run,ih,next_sales,List.append_assoc]
    by_cases hsellable : c.sellable = true
    · simp [hsellable]
    · simp [hsellable]

def NotRed (trades : Trades) : Prop := ∀ t ∈ trades, t.1.analysis ≠ .ok .red

variable (parseEther) in
theorem next_not_red (trades : Trades) (c : TradeCall) (h : NotRed trades) :
    NotRed (next parseEther trades c) := by
  unfold next
  split
  · rename_i operation hok
    intro t ht
    rcases List.mem_append.mp ht with ht | ht
    · exact h t ht
    · cases List.mem_singleton.mp ht
      exact autoTrade_not_red hok
  · exact h

variable (parseEther) in
/-- In every run no operation, and so no purchase, is started for a token analysed
red at its call. The sales are exactly those of the sell calls in auto mode whose
analysis is there and not red; a sell call of a red token is refused. -/
theorem red_is_not_traded (calls : List TradeCall) :
    (∀ t ∈ AtomicRun.run (next parseEther) calls [], t.2.isPurchase = true →
      t.1.analysis ≠ .ok .red) ∧
    (AtomicRun.run (next parseEther) calls []).filter (fun t => t.2.isSale) =
      (calls.filter TradeCall.sellable).map (fun c => (c,c.sale)) ∧
    ∀ c ∈ calls, c.botMode = .auto → c.IsSellCall → c.analysis = .ok .red →
      c.autoTrade parseEther = .error "Không giao dịch token có mức độ nguy hiểm cao" := by
  refine ⟨?_,run_sales parseEther calls [],?_⟩
  · have hrun : NotRed (AtomicRun.run (next parseEther) calls []) :=
      AtomicRun.run_invariant (next_not_red parseEther) (fun t ht => by cases ht) calls
    intro t ht _
    exact hrun t ht
  · intro c _ hmode hsell hred
    exact autoTrade_sell_red hmode hsell hred

def plainCall (level : TokenSafetyLevel) (amount action : String) : TradeCall where
  botMode := .auto
  autoTradeConfig := none
  mempoolWatcher := none
  analysis := .ok level
  reserve := .ok true
  tokenAddress := "0xtoken"
  amount := amount
  action := action

/-- A token bought while it was yellow is not sold by either call after it turned
red, although both are in auto mode and analysed. -/
theorem bought_token_stuck :
    let bought := plainCall .yellow "1" "buy"
    let sell := plainCall .red "100" "sell"
    let emergency := plainCall .red "" "emergency_sell"
    (AtomicRun.run (next fun _ => .ok 1) [bought,sell,emergency] []).map Prod.snd =
      [.buyToken "0xtoken" 1] ∧
    sell.botMode = .auto ∧ sell.IsSellCall ∧ sell.analysis = .ok .red ∧
    emergency.botMode = .auto ∧ emergency.IsSellCall ∧ emergency.analysis = .ok .red := by
  refine ⟨rfl,rfl,.inl rfl,rfl,rfl,.inr rfl,rfl⟩

end Calls

end DiamondBot.AutoTrade
