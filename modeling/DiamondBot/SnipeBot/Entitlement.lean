import DiamondBot.SnipeBot.AutoTrade
import DiamondBot.Common.User
import Mathlib.Tactic.NormNum

/-!
# The subscription behind automatic trading

Starting automatic trading copies the level of a user's subscription into the
bot, and every later trade goes by the copy. The subscription is kept by the
user manager, whose own library is a parameter: it is updated there, and it runs
out as time passes, neither of which need reach the copy.
-/

set_option autoImplicit false

namespace DiamondBot.Entitlement
open Library AutoTrade

inductive SubscriptionLevel
  | free
  | premium
  | vip
  deriving DecidableEq

/-- The library of subscriptions. -/
structure Subscriptions (Plan : Type) where
  level : Plan → SubscriptionLevel
  isActive : Plan → ℕ → Bool
  /-- What an update at a time makes of a subscription, for a level and some days. -/
  updated : Plan → ℕ → SubscriptionLevel → ℕ → Plan

structure FreeConfig where
  enabled : Bool
  allowYellowTokens : Bool
  autoSellMinutes : ℕ

structure PremiumConfig where
  enabled : Bool
  allowYellowTokens : Bool
  autoSellMinutes : ℕ
  takeProfitPercent : ℚ
  stopLossPercent : ℚ
  useGasOptimizer : Bool

structure VipConfig where
  enabled : Bool
  allowYellowTokens : Bool
  useSandwichMode : Bool
  useMempoolWatching : Bool
  takeProfitPercent : ℚ
  stopLossPercent : ℚ
  useFrontRun : Bool
  useTrailingStopLoss : Bool
  trailingStopPercent : ℚ

structure SubscriptionTradeConfig where
  freeConfig : FreeConfig
  premiumConfig : PremiumConfig
  vipConfig : VipConfig

/-- A user of the store, under the name the store keeps it by. -/
structure User (Plan : Type) where
  address : String
  subscription : Plan

structure CurrentUser where
  username : String
  address : String

structure SnipeBot where
  botMode : BotMode
  autoTradeConfig : Option AutoTradeConfig
  subscriptionConfig : SubscriptionTradeConfig
  currentUserLevel : SubscriptionLevel
  currentUser : Option CurrentUser
  hasGasOptimizer : Bool

namespace SnipeBot

def freeTradeConfig (config : FreeConfig) : AutoTradeConfig :=
  let base := AutoTradeConfig.default
  { base with
    enabled := config.enabled
    redTokenStrategy := false
    yellowTokenStrategy := { base.yellowTokenStrategy with
      buyOnLargeOrders := config.allowYellowTokens
      sellAfterMinutes := config.autoSellMinutes
      useSandwichMode := false
      useMempoolData := false }
    greenTokenStrategy := { base.greenTokenStrategy with
      frontRunOrders := false
      useTrailingStop := false
      useSandwichMode := false }
    useMevStrategies := false }

def premiumTradeConfig (config : PremiumConfig) (hasGasOptimizer : Bool) : AutoTradeConfig :=
  let base := AutoTradeConfig.default
  { base with
    enabled := config.enabled
    redTokenStrategy := false
    yellowTokenStrategy := { base.yellowTokenStrategy with
      buyOnLargeOrders := config.allowYellowTokens
      sellAfterMinutes := config.autoSellMinutes
      takeProfitPercent := config.takeProfitPercent
      stopLossPercent := config.stopLossPercent
      useSandwichMode := false
      useMempoolData := true }
    greenTokenStrategy := { base.greenTokenStrategy with
      frontRunOrders := false
      useSandwichMode := false }
    useMevStrategies := false
    maxGasBoostPercent := if config.useGasOptimizer && hasGasOptimizer then 150
      else base.maxGasBoostPercent }

def vipTradeConfig (config : VipConfig) : AutoTradeConfig :=
  let base := AutoTradeConfig.default
  { base with
    enabled := config.enabled
    redTokenStrategy := false
    yellowTokenStrategy := { base.yellowTokenStrategy with
      buyOnLargeOrders := config.allowYellowTokens
      useSandwichMode := config.useSandwichMode
      useMempoolData := config.useMempoolWatching
      takeProfitPercent := config.takeProfitPercent
      stopLossPercent := config.stopLossPercent }
    greenTokenStrategy := { base.greenTokenStrategy with
      frontRunOrders := config.useFrontRun
      useTrailingStop := config.useTrailingStopLoss
      trailingStopPercent := config.trailingStopPercent
      useSandwichMode := config.useSandwichMode
      takeProfitPercent := config.takeProfitPercent }
    useMevStrategies := true
    maxGasBoostPercent := 200 }

def updateAutoTradeConfigForSubscription (bot : SnipeBot) : SnipeBot :=
  { bot with autoTradeConfig := some (match bot.currentUserLevel with
    | .free => freeTradeConfig bot.subscriptionConfig.freeConfig
    | .premium => premiumTradeConfig bot.subscriptionConfig.premiumConfig bot.hasGasOptimizer
    | .vip => vipTradeConfig bot.subscriptionConfig.vipConfig) }

def setUserLevel (bot : SnipeBot) (level : SubscriptionLevel) : SnipeBot :=
  { bot with currentUserLevel := level }.updateAutoTradeConfigForSubscription

@[simp] theorem setUserLevel_level (bot : SnipeBot) (level : SubscriptionLevel) :
    (bot.setUserLevel level).currentUserLevel = level := rfl

@[simp] theorem setUserLevel_user (bot : SnipeBot) (level : SubscriptionLevel) :
    (bot.setUserLevel level).currentUser = bot.currentUser := rfl

end SnipeBot

/-! ## Trading by the copied level -/

structure AIDecision where
  shouldBuy : Bool
  confidence : ℚ
  prediction : String

structure TradeResult where
  success : Bool

inductive TradeError
  | text (message : String)
  | notBought (confidencePercent : ℚ)

/-- The purchase a trade starts. -/
inductive Purchase
  | buyTokenWithAmount (tokenAddress amount : String)
  | buyTokenWithOptimizedParams (tokenAddress amount : String) (gasPrice : Option ℕ)
  | frontRunTransaction (pendingSwap : PendingSwap) (amount : String)
  | executeSandwichStrategyWithPercent (tokenAddress : String) (percent : ℚ)

/-- The level whose parameters a purchase has. -/
def Purchase.tier : Purchase → SubscriptionLevel
  | .buyTokenWithAmount _ amount => if amount = "0.05" then .free else .vip
  | .buyTokenWithOptimizedParams _ amount _ => if amount = "0.1" then .premium else .vip
  | .frontRunTransaction _ _ => .vip
  | .executeSandwichStrategyWithPercent _ _ => .vip

structure SafetyCall where
  tokenAddress : String
  analysis : Except String TokenSafetyLevel
  mempoolWatcher : Option MempoolWatcher
  optimizedGas : ℕ
  decision : Except String AIDecision
  purchase : Except String TradeResult
  followUp : Except String Unit
  sandwich : Except String TradeResult

abbrev Traded := Except TradeError TradeResult × Option Purchase

def noOpportunity : Except TradeError TradeResult :=
  .error (.text "Không tìm thấy cơ hội giao dịch phù hợp với cấp độ người dùng")

namespace SafetyCall

def bought (c : SafetyCall) (purchase : Purchase) (followsUp : Bool) : Traded :=
  (match c.purchase with
    | .error e => .error (.text e)
    | .ok result =>
      if result.success && followsUp then
        match c.followUp with
        | .ok _ => .ok result
        | .error e => .error (.text e)
      else .ok result,some purchase)

def tradeFree (c : SafetyCall) : Traded :=
  c.bought (.buyTokenWithAmount c.tokenAddress "0.05") false

def tradePremium (c : SafetyCall) (hasGasOptimizer : Bool) : Traded :=
  match c.decision with
  | .error e => (.error (.text e),none)
  | .ok decision =>
    if 3/5 ≤ decision.confidence ∧ decision.shouldBuy then
      c.bought (.buyTokenWithOptimizedParams c.tokenAddress "0.1"
        (if hasGasOptimizer then some c.optimizedGas else none)) true
    else (.error (.notBought (decision.confidence*100)),none)

def trySandwich (c : SafetyCall) (config : AutoTradeConfig) : Traded :=
  if config.yellowTokenStrategy.useSandwichMode || config.greenTokenStrategy.useSandwichMode then
    (match c.sandwich with
      | .ok result => .ok result
      | .error _ => noOpportunity,
      some (.executeSandwichStrategyWithPercent c.tokenAddress 30))
  else (noOpportunity,none)

def tradeByDecision (c : SafetyCall) (config : AutoTradeConfig) : Traded :=
  match c.decision with
  | .error e => (.error (.text e),none)
  | .ok decision =>
    if 7/10 ≤ decision.confidence then
      if decision.shouldBuy then
        c.bought (.buyTokenWithOptimizedParams c.tokenAddress "0.3" (some c.optimizedGas))
          config.greenTokenStrategy.useTrailingStop
      else if decision.prediction = "pump_soon" then
        c.bought (.buyTokenWithAmount c.tokenAddress "0.5") false
      else c.trySandwich config
    else c.trySandwich config

def tradeVip (c : SafetyCall) (config : AutoTradeConfig) : Traded :=
  if config.yellowTokenStrategy.useMempoolData then
    match getLargeOrdersInMempool c.mempoolWatcher c.tokenAddress
      config.greenTokenStrategy.minOrderSizeUsd with
    | order::_ =>
      if config.greenTokenStrategy.frontRunOrders then
        c.bought (.frontRunTransaction order "0.2") config.greenTokenStrategy.useTrailingStop
      else c.tradeByDecision config
    | [] => c.tradeByDecision config
  else c.tradeByDecision config

end SafetyCall

def redRefusal : SubscriptionLevel → String
  | .free => "Free user không thể giao dịch token nguy hiểm"
  | .premium => "Premium user không thể giao dịch token nguy hiểm"
  | .vip => "VIP user không thể giao dịch token nguy hiểm"

def tradeByLevel (bot : SnipeBot) (c : SafetyCall) (config : AutoTradeConfig) : Traded :=
  match bot.currentUserLevel with
  | .free => c.tradeFree
  | .premium => c.tradePremium bot.hasGasOptimizer
  | .vip => c.tradeVip config

def autoTradeBySafety (bot : SnipeBot) (c : SafetyCall) : Traded :=
  match c.analysis with
  | .error e => (.error (.text e),none)
  | .ok safetyLevel =>
    if safetyLevel = .red then (.error (.text (redRefusal bot.currentUserLevel)),none)
    else
      match bot.autoTradeConfig with
      | none => (noOpportunity,none)
      | some config => tradeByLevel bot c config

/-! ## The bot, the users and time -/

structure System (Plan : Type) where
  bot : SnipeBot
  users : AList fun _ : String => User Plan
  now : ℕ

/-- What happens, with the errors of the calls made on the way. -/
inductive Action
  | startAutoTrade (username : String) (serviceFault : Option String)
  | updateUserSubscription (username : String) (newLevel : SubscriptionLevel)
      (durationDays : ℕ) (updateFault saveFault : Option String)
  | autoTradeBySafety (c : SafetyCall)
  | wait (seconds : ℕ)

namespace System

variable {Plan : Type} (subs : Subscriptions Plan)

def startAutoTrade (s : System Plan) (username : String) (serviceFault : Option String) :
    Except String Unit × System Plan :=
  match s.users.lookup username with
  | none => (.error ("Không tìm thấy người dùng " ++ username),s)
  | some user =>
    if subs.isActive user.subscription s.now = false then (.error "Subscription đã hết hạn",s)
    else
      let bot := { s.bot with currentUser := some ⟨username,user.address⟩ }.setUserLevel
        (subs.level user.subscription)
      let started := { s with bot := { bot with botMode := .auto } }
      match serviceFault with
      | some e => (.error e,started)
      | none => (.ok (),started)

def stored (s : System Plan) (username : String) (newLevel : SubscriptionLevel)
    (durationDays : ℕ) : System Plan :=
  match s.users.lookup username with
  | none => s
  | some user => { s with users := s.users.insert username { user with
      subscription := subs.updated user.subscription s.now newLevel durationDays } }

def Mirrors (s : System Plan) (username : String) : Prop :=
  ∃ u, s.bot.currentUser = some u ∧ u.address = username

instance (s : System Plan) (username : String) : Decidable (s.Mirrors username) :=
  match h : s.bot.currentUser with
  | none => isFalse (by rintro ⟨u,hu,_⟩; rw [h] at hu; cases hu)
  | some u => decidable_of_iff (u.address = username) (by simp [Mirrors,h])

def updateUserSubscription (s : System Plan) (username : String) (newLevel : SubscriptionLevel)
    (durationDays : ℕ) (updateFault saveFault : Option String) :
    Except String Unit × System Plan :=
  match updateFault with
  | some e => (.error e,s)
  | none =>
    if (s.users.lookup username).isNone then
      (.error ("Không tìm thấy người dùng " ++ username),s)
    else
      let updated := s.stored subs username newLevel durationDays
      match saveFault with
      | some e => (.error e,updated)
      | none => (.ok (),if updated.Mirrors username then
          { updated with bot := updated.bot.setUserLevel newLevel } else updated)

def next (s : System Plan) : Action → System Plan
  | .startAutoTrade username serviceFault => (s.startAutoTrade subs username serviceFault).2
  | .updateUserSubscription username newLevel durationDays updateFault saveFault =>
    (s.updateUserSubscription subs username newLevel durationDays updateFault saveFault).2
  | .autoTradeBySafety _ => s
  | .wait seconds => { s with now := s.now+seconds }

def new (subscriptionConfig : SubscriptionTradeConfig) (hasGasOptimizer : Bool)
    (users : AList fun _ : String => User Plan) (now : ℕ) : System Plan where
  bot := {
    botMode := .manual
    autoTradeConfig := none
    subscriptionConfig
    currentUserLevel := .free
    currentUser := none
    hasGasOptimizer }
  users
  now

def EntitledTo (s : System Plan) (level : SubscriptionLevel) : Prop :=
  ∃ u user, s.bot.currentUser = some u ∧ s.users.lookup u.username = some user ∧
    subs.isActive user.subscription s.now = true ∧ subs.level user.subscription = level

/-- A purchase with the parameters of a paid level has the subscription for it. -/
def PurchaseEntitled (s : System Plan) : Action → Prop
  | .autoTradeBySafety c => ∀ p, (autoTradeBySafety s.bot c).2 = some p → p.tier ≠ .free →
    s.EntitledTo subs p.tier
  | _ => True

end System

/-! ## Purchases have the parameters of the copied level -/

theorem bought_purchase {c : SafetyCall} {purchase p : Purchase} {followsUp : Bool}
    (h : (c.bought purchase followsUp).2 = some p) : p = purchase :=
  (Option.some.inj h).symm

theorem tradePremium_tier {c : SafetyCall} {hasGasOptimizer : Bool} {p : Purchase}
    (h : (c.tradePremium hasGasOptimizer).2 = some p) : p.tier = .premium := by
  unfold SafetyCall.tradePremium at h
  cases hdecision : c.decision with
  | error e => simp [hdecision] at h
  | ok decision =>
    simp only [hdecision] at h
    split at h
    · rw [bought_purchase h]
      rfl
    · cases h

theorem trySandwich_tier {c : SafetyCall} {config : AutoTradeConfig} {p : Purchase}
    (h : (c.trySandwich config).2 = some p) : p.tier = .vip := by
  unfold SafetyCall.trySandwich at h
  split at h
  · cases h
    rfl
  · cases h

theorem tradeByDecision_tier {c : SafetyCall} {config : AutoTradeConfig} {p : Purchase}
    (h : (c.tradeByDecision config).2 = some p) : p.tier = .vip := by
  unfold SafetyCall.tradeByDecision at h
  cases hdecision : c.decision with
  | error e => simp [hdecision] at h
  | ok decision =>
    simp only [hdecision] at h
    split_ifs at h
    · rw [bought_purchase h]
      rfl
    · rw [bought_purchase h]
      rfl
    · exact trySandwich_tier h
    · exact trySandwich_tier h

theorem tradeVip_tier {c : SafetyCall} {config : AutoTradeConfig} {p : Purchase}
    (h : (c.tradeVip config).2 = some p) : p.tier = .vip := by
  unfold SafetyCall.tradeVip at h
  split at h
  · split at h
    · split at h
      · rw [bought_purchase h]
        rfl
      · exact tradeByDecision_tier h
    · exact tradeByDecision_tier h
  · exact tradeByDecision_tier h

theorem tradeByLevel_tier {bot : SnipeBot} {c : SafetyCall} {config : AutoTradeConfig}
    {p : Purchase} (h : (tradeByLevel bot c config).2 = some p) : p.tier = bot.currentUserLevel := by
  unfold tradeByLevel at h
  cases hlevel : bot.currentUserLevel with
  | free =>
    rw [hlevel] at h
    rw [bought_purchase h]
    rfl
  | premium =>
    rw [hlevel] at h
    exact tradePremium_tier h
  | vip =>
    rw [hlevel] at h
    exact tradeVip_tier h

theorem autoTradeBySafety_tier {bot : SnipeBot} {c : SafetyCall} {p : Purchase}
    (h : (autoTradeBySafety bot c).2 = some p) : p.tier = bot.currentUserLevel := by
  unfold autoTradeBySafety at h
  split at h
  · cases h
  · split at h
    · cases h
    · split at h
      · cases h
      · exact tradeByLevel_tier h

/-! ## The copy and the subscription -/

/-- What the library of subscriptions is relied on for. -/
structure Subscriptions.Lawful {Plan : Type} (subs : Subscriptions Plan) : Prop where
  level_updated : ∀ plan now level days, subs.level (subs.updated plan now level days) = level
  /-- An update keeps an active subscription active and one for some days makes it so. -/
  active_updated : ∀ plan now level days, subs.isActive plan now = true ∨ 0 < days →
    subs.isActive (subs.updated plan now level days) now = true

namespace System

variable {Plan : Type} {subs : Subscriptions Plan}

/-- A paid level in the bot is that of the current user's active subscription. -/
def Entitled (subs : Subscriptions Plan) (s : System Plan) : Prop :=
  s.bot.currentUserLevel ≠ .free → s.EntitledTo subs s.bot.currentUserLevel

def ActiveNow (subs : Subscriptions Plan) (s : System Plan) (username : String) (now : ℕ) :
    Prop :=
  ∃ user, s.users.lookup username = some user ∧ subs.isActive user.subscription now = true

/-- The steps that leave the copy in agreement: while a paid level is copied, the current
user's subscription does not run out. A change of a user's level reaches the copy when it
is the current user's, and only then; it need not when the level stays as it is. -/
def KeepsCopy (subs : Subscriptions Plan) (s : System Plan) : Action → Prop
  | .wait seconds => s.bot.currentUserLevel ≠ .free → ∀ u, s.bot.currentUser = some u →
    s.ActiveNow subs u.username (s.now+seconds)
  | .updateUserSubscription username newLevel durationDays updateFault saveFault =>
    updateFault = none → ∀ u, s.bot.currentUser = some u →
      if saveFault = none ∧ u.address = username then
        newLevel = .free ∨ newLevel = s.bot.currentUserLevel ∨
          u.username = username ∧ (s.ActiveNow subs username s.now ∨ 0 < durationDays)
      else u.username = username → newLevel = s.bot.currentUserLevel ∨
        s.bot.currentUserLevel = .free
  | _ => True

theorem purchaseEntitled_of_entitled {s : System Plan} (h : Entitled subs s) (a : Action) :
    s.PurchaseEntitled subs a := by
  cases a with
  | autoTradeBySafety c =>
    intro p hp hpaid
    rw [autoTradeBySafety_tier hp] at hpaid ⊢
    exact h hpaid
  | startAutoTrade => trivial
  | updateUserSubscription => trivial
  | wait => trivial

theorem startAutoTrade_entitled {s : System Plan} (h : Entitled subs s) (username : String)
    (serviceFault : Option String) :
    Entitled subs (s.startAutoTrade subs username serviceFault).2 := by
  unfold startAutoTrade
  cases huser : s.users.lookup username with
  | none => exact h
  | some user =>
    simp only
    split
    · exact h
    · rename_i hactive
      have hfresh : Entitled subs { s with bot := { { s.bot with
          currentUser := some ⟨username,user.address⟩ }.setUserLevel
            (subs.level user.subscription) with botMode := .auto } } := by
        intro _
        exact ⟨_,user,rfl,huser,by simpa using hactive,rfl⟩
      cases serviceFault with
      | none => exact hfresh
      | some e => exact hfresh

theorem wait_entitled {s : System Plan} (h : Entitled subs s) (seconds : ℕ)
    (hkeeps : s.KeepsCopy subs (.wait seconds)) :
    Entitled subs { s with now := s.now+seconds } := by
  intro hpaid
  obtain ⟨u,user,hcurrent,hstored,_,hlevel⟩ := h hpaid
  obtain ⟨user',hstored',hactive⟩ := hkeeps hpaid u hcurrent
  rw [hstored] at hstored'
  cases hstored'
  exact ⟨u,user,hcurrent,hstored,hactive,hlevel⟩

theorem stored_lookup {s : System Plan} {username : String} {user : User Plan}
    (h : s.users.lookup username = some user) (newLevel : SubscriptionLevel) (days : ℕ) :
    (s.stored subs username newLevel days).users.lookup username = some { user with
      subscription := subs.updated user.subscription s.now newLevel days } := by
  unfold stored
  rw [h]
  exact AList.lookup_insert _

theorem stored_lookup_ne {s : System Plan} {username other : String} (h : other ≠ username)
    (newLevel : SubscriptionLevel) (days : ℕ) :
    (s.stored subs username newLevel days).users.lookup other = s.users.lookup other := by
  unfold stored
  cases s.users.lookup username with
  | none => rfl
  | some user => exact AList.lookup_insert_ne h

variable (subs) in
theorem stored_frame (s : System Plan) (username : String) (newLevel : SubscriptionLevel)
    (days : ℕ) : (s.stored subs username newLevel days).bot = s.bot ∧
      (s.stored subs username newLevel days).now = s.now := by
  unfold stored
  cases s.users.lookup username with
  | none => exact ⟨rfl,rfl⟩
  | some user => exact ⟨rfl,rfl⟩

theorem stored_entitledTo (hsubs : subs.Lawful) {s : System Plan} {u : CurrentUser}
    (hcurrent : s.bot.currentUser = some u) {user : User Plan}
    (huser : s.users.lookup u.username = some user) (newLevel : SubscriptionLevel) {days : ℕ}
    (hactive : subs.isActive user.subscription s.now = true ∨ 0 < days) :
    (s.stored subs u.username newLevel days).EntitledTo subs newLevel := by
  obtain ⟨hbot,hnow⟩ := stored_frame subs s u.username newLevel days
  refine ⟨u,_,by rw [hbot]; exact hcurrent,stored_lookup huser newLevel days,?_,?_⟩
  · rw [hnow]
    exact hsubs.active_updated _ _ _ _ hactive
  · exact hsubs.level_updated _ _ _ _

theorem stored_entitled (hsubs : subs.Lawful) {s : System Plan} (h : Entitled subs s)
    {username : String} {newLevel : SubscriptionLevel} (days : ℕ)
    (hkeeps : ∀ u, s.bot.currentUser = some u → u.username = username →
      newLevel = s.bot.currentUserLevel ∨ s.bot.currentUserLevel = .free) :
    Entitled subs (s.stored subs username newLevel days) := by
  obtain ⟨hbot,hnow⟩ := stored_frame subs s username newLevel days
  unfold Entitled
  rw [hbot]
  intro hpaid
  obtain ⟨u,user,hcurrent,huser,hactive,hlevel⟩ := h hpaid
  by_cases hname : u.username = username
  · subst hname
    rw [← (hkeeps u hcurrent rfl).resolve_right hpaid]
    exact stored_entitledTo hsubs hcurrent huser _ (.inl hactive)
  · refine ⟨u,user,by rw [hbot]; exact hcurrent,?_,by rw [hnow]; exact hactive,hlevel⟩
    rw [stored_lookup_ne hname]
    exact huser

/-- An update that reaches the copy. -/
theorem mirrored_entitled (hsubs : subs.Lawful) {s : System Plan} (h : Entitled subs s)
    {u : CurrentUser} (hcurrent : s.bot.currentUser = some u) {username : String}
    {user : User Plan} (huser : s.users.lookup username = some user)
    {newLevel : SubscriptionLevel} {days : ℕ}
    (hkeeps : newLevel = .free ∨ newLevel = s.bot.currentUserLevel ∨
      u.username = username ∧ (s.ActiveNow subs username s.now ∨ 0 < days)) :
    Entitled subs { s.stored subs username newLevel days with
      bot := (s.stored subs username newLevel days).bot.setUserLevel newLevel } := by
  intro hpaid
  change newLevel ≠ .free at hpaid
  rcases hkeeps with hfree | hsame | ⟨hname,hactive⟩
  · exact absurd hfree hpaid
  · have hkept : Entitled subs (s.stored subs username newLevel days) :=
      stored_entitled hsubs h days fun _ _ _ => .inl hsame
    have hlevel : (s.stored subs username newLevel days).bot.currentUserLevel = newLevel := by
      rw [(stored_frame subs s username newLevel days).1,hsame]
    have hentitled := hkept (hlevel.symm ▸ hpaid)
    rw [hlevel] at hentitled
    exact hentitled
  · subst hname
    apply stored_entitledTo hsubs hcurrent huser newLevel
    rcases hactive with ⟨user',huser',hactive⟩ | hdays
    · rw [huser] at huser'
      cases huser'
      exact .inl hactive
    · exact .inr hdays

theorem updateUserSubscription_entitled (hsubs : subs.Lawful) {s : System Plan}
    (h : Entitled subs s) (username : String) (newLevel : SubscriptionLevel) (days : ℕ)
    (updateFault saveFault : Option String)
    (hkeeps : s.KeepsCopy subs
      (.updateUserSubscription username newLevel days updateFault saveFault)) :
    Entitled subs
      (s.updateUserSubscription subs username newLevel days updateFault saveFault).2 := by
  unfold updateUserSubscription
  cases updateFault with
  | some e => exact h
  | none =>
    simp only
    cases huser : s.users.lookup username with
    | none => exact h
    | some user =>
      simp only [Option.isNone_some,Bool.false_eq_true,if_false]
      have hbot := (stored_frame subs s username newLevel days).1
      cases saveFault with
      | some e =>
        apply stored_entitled hsubs h days
        intro u hcurrent
        have hcond := hkeeps rfl u hcurrent
        rwa [if_neg (by simp)] at hcond
      | none =>
        simp only
        split
        · rename_i hmirrors
          obtain ⟨u,hcurrent,haddress⟩ := hmirrors
          rw [hbot] at hcurrent
          have hcond := hkeeps rfl u hcurrent
          rw [if_pos ⟨rfl,haddress⟩] at hcond
          exact mirrored_entitled hsubs h hcurrent huser hcond
        · rename_i hmirrors
          apply stored_entitled hsubs h days
          intro u hcurrent
          have hcond := hkeeps rfl u hcurrent
          rwa [if_neg fun haddress => hmirrors ⟨u,by rw [hbot]; exact hcurrent,haddress.2⟩] at hcond

theorem next_entitled (hsubs : subs.Lawful) (s : System Plan) (a : Action)
    (h : Entitled subs s) (hkeeps : s.KeepsCopy subs a) : Entitled subs (s.next subs a) := by
  cases a with
  | startAutoTrade username serviceFault => exact startAutoTrade_entitled h username serviceFault
  | updateUserSubscription username newLevel days updateFault saveFault =>
    exact updateUserSubscription_entitled hsubs h username newLevel days updateFault saveFault
      hkeeps
  | autoTradeBySafety c => exact h
  | wait seconds => exact wait_entitled h seconds hkeeps

/-- From a new bot, in every run whose steps keep the copy in agreement, each
purchase with the parameters of a paid level is one the current user's stored
subscription is active for, at that level and time. -/
theorem purchases_entitled (hsubs : subs.Lawful) (subscriptionConfig : SubscriptionTradeConfig)
    (hasGasOptimizer : Bool) (users : AList fun _ : String => User Plan) (now : ℕ)
    (actions : List Action)
    (hkeeps : AtomicRun.Along (next subs) (KeepsCopy subs) actions
      (new subscriptionConfig hasGasOptimizer users now)) :
    AtomicRun.Along (next subs) (PurchaseEntitled subs) actions
      (new subscriptionConfig hasGasOptimizer users now) := by
  have hnew : Entitled subs (new subscriptionConfig hasGasOptimizer users now) :=
    fun hpaid => absurd rfl hpaid
  exact AtomicRun.along_of_states
    (AtomicRun.throughout_of_along (next_entitled hsubs) hnew hkeeps)
    fun s a h => purchaseEntitled_of_entitled h a

end System

/-! ## The subscriptions of the common library -/

def commonLevel : Common.SubscriptionLevel → SubscriptionLevel
  | .premium => .premium
  | .vip => .vip
  | _ => .free

def toCommon : SubscriptionLevel → Common.SubscriptionLevel
  | .free => .free
  | .premium => .premium
  | .vip => .vip

def commonSubscriptions : Subscriptions Common.Subscription where
  level s := commonLevel s.level
  isActive s now := s.isActive now
  updated s now level days :=
    if s.isActive now then (s.extend now days).updateLevel (toCommon level)
    else Common.Subscription.new now (toCommon level) days

theorem commonSubscriptions_lawful : commonSubscriptions.Lawful where
  level_updated s now level days := by
    change commonLevel (if s.isActive now then (s.extend now days).updateLevel (toCommon level)
      else Common.Subscription.new now (toCommon level) days).level = level
    split <;> cases level <;> rfl
  active_updated s now level days h := by
    change Common.Subscription.isActive (if s.isActive now then
      (s.extend now days).updateLevel (toCommon level)
      else Common.Subscription.new now (toCommon level) days) now = true
    split
    · rename_i hactive
      unfold Common.Subscription.isActive at hactive
      rw [Bool.and_eq_true,decide_eq_true_eq] at hactive
      have hextended : (s.extend now days).active = true ∧ now < (s.extend now days).expiryDate := by
        unfold Common.Subscription.extend
        rw [if_neg (by omega)]
        exact ⟨rfl,by simp only; omega⟩
      simp [Common.Subscription.isActive,Common.Subscription.updateLevel,hextended]
    · rename_i hinactive
      have hdays : 0 < days := h.resolve_left hinactive
      simp [Common.Subscription.isActive,Common.Subscription.new,hdays]

def aliceStore : AList fun _ : String => User Common.Subscription :=
  AList.insert "alice" ⟨"alice",Common.Subscription.new 0 .premium 30⟩ ∅

def someConfig : SubscriptionTradeConfig where
  freeConfig := ⟨true,true,30⟩
  premiumConfig := ⟨true,true,5,25,10,true⟩
  vipConfig := ⟨true,true,true,true,25,10,true,true,15⟩

def sureTrade : SafetyCall where
  tokenAddress := "0xtoken"
  analysis := .ok .green
  mempoolWatcher := none
  optimizedGas := 5000000000
  decision := .ok ⟨true,9/10,"neutral"⟩
  purchase := .ok ⟨true⟩
  followUp := .ok ()
  sandwich := .error "Không tìm thấy cơ hội sandwich phù hợp"

def aliceTrades (seconds : ℕ) : List Action :=
  [.startAutoTrade "alice" none,.wait seconds,.autoTradeBySafety sureTrade]

theorem purchases_entitled_alice :
    AtomicRun.Along (System.next commonSubscriptions)
      (System.PurchaseEntitled commonSubscriptions) (aliceTrades 60)
      (System.new someConfig false aliceStore 0) := by
  apply System.purchases_entitled commonSubscriptions_lawful
  refine ⟨trivial,?_,trivial,trivial⟩
  intro _ u hu
  cases hu
  exact ⟨_,rfl,rfl⟩

theorem sureTrade_bought : (sureTrade.tradePremium false).2 =
    some (.buyTokenWithOptimizedParams "0xtoken" "0.1" none) := by
  change (if (3/5 : ℚ) ≤ 9/10 ∧ true = true then _ else _ : Traded).2 = _
  rw [if_pos ⟨by norm_num,rfl⟩]
  rfl

/-- The month is over and the bot still buys as for a premium user. -/
theorem expired_purchase :
    ¬AtomicRun.Along (System.next commonSubscriptions)
      (System.PurchaseEntitled commonSubscriptions) (aliceTrades 2592000)
      (System.new someConfig false aliceStore 0) := by
  rintro ⟨_,_,h,_⟩
  obtain ⟨u,user,hu,huser,hactive,_⟩ := h _ sureTrade_bought (by decide)
  cases hu
  cases huser
  exact absurd hactive (by decide)

end DiamondBot.Entitlement
