import DiamondBot.Library.AtomicRun
import DiamondBot.Library.Checked
import DiamondBot.Library.KeyedRecords

/-!
# The subscription manager

Subscriptions are kept in a list and found by their user. One that has ended stays
in the list until a cleanup, and the operations do not ask whether it has. The
limits of a level are a base configuration with some fields replaced.
-/

set_option autoImplicit false

namespace DiamondBot.Subscriptions
open Library

inductive SubscriptionLevel
  | free
  | premium
  | vip
  deriving DecidableEq

structure UserSubscription where
  userId : String
  level : SubscriptionLevel
  startDate : ℕ
  endDate : ℕ
  deriving DecidableEq

structure SubscriptionTradeConfig where
  maxSimultaneousTrades : ℕ
  maxDailyTrades : ℕ
  minTradeIntervalSeconds : ℕ
  allowedChains : List String
  maxGasPriceGwei : ℕ
  maxSlippagePercent : Float

structure SubscriptionManager where
  subscriptionConfig : SubscriptionTradeConfig
  currentUserLevel : SubscriptionLevel
  activeSubscriptions : List UserSubscription

/-- `days * 24 * 60 * 60`. -/
def daySeconds (days : ℕ) : Except String ℕ := do
  let hours ← Checked.mul 64 days 24
  let minutes ← Checked.mul 64 hours 60
  Checked.mul 64 minutes 60

theorem daySeconds_ok {days seconds : ℕ} (h : daySeconds days = .ok seconds) :
    seconds = days*86400 := by
  obtain ⟨hours,hhours,h⟩ := Checked.bind_ok.mp h
  obtain ⟨minutes,hminutes,h⟩ := Checked.bind_ok.mp h
  rw [(Checked.mul_ok.mp h).2,(Checked.mul_ok.mp hminutes).2,(Checked.mul_ok.mp hhours).2]
  omega

namespace UserSubscription

def new (now : ℕ) (userId : String) (level : SubscriptionLevel) (durationDays : ℕ) :
    Except String UserSubscription := do
  let seconds ← daySeconds durationDays
  let endDate ← Checked.add 64 now seconds
  return ⟨userId,level,now,endDate⟩

def isActive (s : UserSubscription) (now : ℕ) : Bool := now ≤ s.endDate

def extend (s : UserSubscription) (additionalDays : ℕ) : Except String UserSubscription := do
  let seconds ← daySeconds additionalDays
  let endDate ← Checked.add 64 s.endDate seconds
  return { s with endDate }

theorem new_ok {now : ℕ} {userId : String} {level : SubscriptionLevel} {days : ℕ}
    {s : UserSubscription} (h : new now userId level days = .ok s) :
    s = ⟨userId,level,now,now+days*86400⟩ := by
  obtain ⟨seconds,hseconds,h⟩ := Checked.bind_ok.mp h
  obtain ⟨endDate,hend,h⟩ := Checked.bind_ok.mp h
  cases h
  rw [(Checked.add_ok.mp hend).2,daySeconds_ok hseconds]

theorem extend_ok {s s' : UserSubscription} {days : ℕ} (h : s.extend days = .ok s') :
    s' = { s with endDate := s.endDate+days*86400 } := by
  obtain ⟨seconds,hseconds,h⟩ := Checked.bind_ok.mp h
  obtain ⟨endDate,hend,h⟩ := Checked.bind_ok.mp h
  cases h
  rw [(Checked.add_ok.mp hend).2,daySeconds_ok hseconds]

theorem extend_userId {s s' : UserSubscription} {days : ℕ} (h : s.extend days = .ok s') :
    s'.userId = s.userId := by
  rw [extend_ok h]

end UserSubscription

def SubscriptionTradeConfig.default : SubscriptionTradeConfig where
  maxSimultaneousTrades := 1
  maxDailyTrades := 5
  minTradeIntervalSeconds := 3600
  allowedChains := ["ethereum","bsc"]
  maxGasPriceGwei := 100
  maxSlippagePercent := 2.0

namespace SubscriptionManager

def new : SubscriptionManager := ⟨.default,.free,[]⟩

def setSubscriptionConfig (m : SubscriptionManager) (config : SubscriptionTradeConfig) :
    SubscriptionManager :=
  { m with subscriptionConfig := config }

def getUserSubscription (m : SubscriptionManager) (userId : String) : Option UserSubscription :=
  KeyedRecords.find UserSubscription.userId m.activeSubscriptions userId

def updateUserLevel (m : SubscriptionManager) (now : ℕ) (userId : String)
    (level : SubscriptionLevel) : Except String SubscriptionManager :=
  match m.getUserSubscription userId with
  | some _ => .ok { m with
      activeSubscriptions := KeyedRecords.modify UserSubscription.userId ({ · with level }) userId
        m.activeSubscriptions }
  | none => do
    let subscription ← UserSubscription.new now userId level 30
    return { m with activeSubscriptions := m.activeSubscriptions++[subscription] }

def extendSubscription (m : SubscriptionManager) (userId : String) (additionalDays : ℕ) :
    Except String SubscriptionManager :=
  match m.getUserSubscription userId with
  | some subscription => do
    let extended ← subscription.extend additionalDays
    return { m with
      activeSubscriptions := KeyedRecords.modify UserSubscription.userId (fun _ => extended) userId
        m.activeSubscriptions }
  | none => .error ("Không tìm thấy subscription cho người dùng "++userId)

def cleanupExpiredSubscriptions (m : SubscriptionManager) (now : ℕ) : SubscriptionManager :=
  { m with activeSubscriptions := m.activeSubscriptions.filter fun s => s.endDate ≥ now }

def getSubscriptionConfig (m : SubscriptionManager) : SubscriptionLevel → SubscriptionTradeConfig
  | .free => { m.subscriptionConfig with
      maxSimultaneousTrades := 1
      maxDailyTrades := 3
      allowedChains := ["ethereum"] }
  | .premium => { m.subscriptionConfig with
      maxSimultaneousTrades := 3
      maxDailyTrades := 10 }
  | .vip => m.subscriptionConfig

/-! ## What an operation leaves -/

variable {m m' : SubscriptionManager}

theorem getUserSubscription_key {userId : String} {s : UserSubscription}
    (h : m.getUserSubscription userId = some s) : s.userId = userId :=
  KeyedRecords.find_key h

theorem updateUserLevel_find {now : ℕ} {userId : String} {level : SubscriptionLevel}
    (h : m.updateUserLevel now userId level = .ok m') (other : String) :
    m'.getUserSubscription other = if other = userId then
      some (((m.getUserSubscription userId).map ({ · with level })).getD
        ⟨userId,level,now,now+30*86400⟩)
    else m.getUserSubscription other := by
  unfold updateUserLevel at h
  cases hfound : m.getUserSubscription userId with
  | some s =>
    rw [hfound] at h
    cases h
    have hkey : ∀ s : UserSubscription, s.userId = userId → { s with level }.userId = userId :=
      fun _ hs => hs
    rw [getUserSubscription,KeyedRecords.find_modify hkey]
    split
    · next hsame =>
      subst hsame
      change Option.map _ (m.getUserSubscription other) = _
      rw [hfound]
      rfl
    · rfl
  | none =>
    rw [hfound] at h
    obtain ⟨s,hnew,h⟩ := Checked.bind_ok.mp h
    cases h
    rw [UserSubscription.new_ok hnew,getUserSubscription,KeyedRecords.find_append_singleton]
    change (m.getUserSubscription other).or _ = _
    by_cases hsame : other = userId
    · subst hsame
      rw [if_pos rfl,if_pos rfl,hfound]
      rfl
    · rw [if_neg hsame,if_neg (Ne.symm hsame),Option.or_none]

theorem extendSubscription_find {userId : String} {days : ℕ}
    (h : m.extendSubscription userId days = .ok m') :
    ∃ s, m.getUserSubscription userId = some s ∧ ∀ other, m'.getUserSubscription other =
      if other = userId then some { s with endDate := s.endDate+days*86400 }
      else m.getUserSubscription other := by
  unfold extendSubscription at h
  cases hfound : m.getUserSubscription userId with
  | none =>
    rw [hfound] at h
    cases h
  | some s =>
    rw [hfound] at h
    obtain ⟨extended,hextended,h⟩ := Checked.bind_ok.mp h
    cases h
    refine ⟨s,rfl,fun other => ?_⟩
    have hkey := (UserSubscription.extend_userId hextended).trans (getUserSubscription_key hfound)
    rw [getUserSubscription,KeyedRecords.find_modify fun _ _ => hkey]
    split
    · next hsame =>
      subst hsame
      change Option.map _ (m.getUserSubscription other) = _
      rw [hfound,UserSubscription.extend_ok hextended]
      rfl
    · rfl

def Distinct (m : SubscriptionManager) : Prop :=
  KeyedRecords.Distinct UserSubscription.userId m.activeSubscriptions

theorem cleanup_find (h : m.Distinct) (now : ℕ) (userId : String) :
    (m.cleanupExpiredSubscriptions now).getUserSubscription userId =
      (m.getUserSubscription userId).filter (·.isActive now) :=
  KeyedRecords.find_filter h _ userId

theorem updateUserLevel_distinct {now : ℕ} {userId : String} {level : SubscriptionLevel}
    (hm : m.Distinct) (h : m.updateUserLevel now userId level = .ok m') : m'.Distinct := by
  unfold updateUserLevel at h
  cases hfound : m.getUserSubscription userId with
  | some s =>
    rw [hfound] at h
    cases h
    exact KeyedRecords.distinct_modify (fun _ => id) hm
  | none =>
    rw [hfound] at h
    obtain ⟨s,hnew,h⟩ := Checked.bind_ok.mp h
    cases h
    apply KeyedRecords.distinct_append hm
    rw [UserSubscription.new_ok hnew]
    exact hfound

theorem extendSubscription_distinct {userId : String} {days : ℕ} (hm : m.Distinct)
    (h : m.extendSubscription userId days = .ok m') : m'.Distinct := by
  unfold extendSubscription at h
  cases hfound : m.getUserSubscription userId with
  | none =>
    rw [hfound] at h
    cases h
  | some s =>
    rw [hfound] at h
    obtain ⟨extended,hextended,h⟩ := Checked.bind_ok.mp h
    cases h
    have hkey := (UserSubscription.extend_userId hextended).trans (getUserSubscription_key hfound)
    exact KeyedRecords.distinct_modify (fun _ _ => hkey) hm

/-! ## The limits of the levels -/

def rank : SubscriptionLevel → ℕ
  | .free => 0
  | .premium => 1
  | .vip => 2

structure NoWorse (c c' : SubscriptionTradeConfig) : Prop where
  simultaneous : c.maxSimultaneousTrades ≤ c'.maxSimultaneousTrades
  daily : c.maxDailyTrades ≤ c'.maxDailyTrades
  chains : ∀ chain ∈ c.allowedChains, chain ∈ c'.allowedChains
  interval : c'.minTradeIntervalSeconds ≤ c.minTradeIntervalSeconds

/-- A higher level has no worse limits. -/
def Tiered (m : SubscriptionManager) : Prop :=
  ∀ level level', rank level ≤ rank level' →
    NoWorse (m.getSubscriptionConfig level) (m.getSubscriptionConfig level')

/-- The base configuration is no worse than what replaces it for the lower levels. -/
structure Covers (base : SubscriptionTradeConfig) : Prop where
  simultaneous : 3 ≤ base.maxSimultaneousTrades
  daily : 10 ≤ base.maxDailyTrades
  chains : "ethereum" ∈ base.allowedChains

theorem NoWorse.refl (c : SubscriptionTradeConfig) : NoWorse c c :=
  ⟨le_rfl,le_rfl,fun _ => id,le_rfl⟩

theorem NoWorse.trans {c c' c'' : SubscriptionTradeConfig} (h : NoWorse c c')
    (h' : NoWorse c' c'') : NoWorse c c'' where
  simultaneous := h.simultaneous.trans h'.simultaneous
  daily := h.daily.trans h'.daily
  chains chain hchain := h'.chains chain (h.chains chain hchain)
  interval := h'.interval.trans h.interval

theorem free_noWorse (h : Covers m.subscriptionConfig) :
    NoWorse (m.getSubscriptionConfig .free) (m.getSubscriptionConfig .premium) where
  simultaneous := show 1 ≤ 3 by decide
  daily := show 3 ≤ 10 by decide
  chains chain hchain := by
    rw [List.mem_singleton.mp hchain]
    exact h.chains
  interval := le_rfl

theorem premium_noWorse (h : Covers m.subscriptionConfig) :
    NoWorse (m.getSubscriptionConfig .premium) (m.getSubscriptionConfig .vip) where
  simultaneous := h.simultaneous
  daily := h.daily
  chains _ := id
  interval := le_rfl

theorem tiered_iff : m.Tiered ↔ Covers m.subscriptionConfig := by
  constructor
  · intro h
    have hvip := h .premium .vip (by decide)
    have hpremium := h .free .premium (by decide)
    exact ⟨hvip.simultaneous,hvip.daily,hpremium.chains "ethereum" List.mem_cons_self⟩
  · intro h level level' hrank
    cases level with
    | free =>
      cases level' with
      | free => exact .refl _
      | premium => exact free_noWorse h
      | vip => exact (free_noWorse h).trans (premium_noWorse h)
    | premium =>
      cases level' with
      | free => exact absurd hrank (by decide)
      | premium => exact .refl _
      | vip => exact premium_noWorse h
    | vip =>
      cases level' with
      | free => exact absurd hrank (by decide)
      | premium => exact absurd hrank (by decide)
      | vip => exact .refl _

theorem run_config (configs : List SubscriptionTradeConfig) (m : SubscriptionManager) :
    (AtomicRun.run setSubscriptionConfig configs m).subscriptionConfig =
      configs.getLastD m.subscriptionConfig := by
  induction configs generalizing m with
  | nil => rfl
  | cons config configs ih =>
    rw [AtomicRun.run,ih,List.getLastD_cons]
    rfl

/-- Higher levels have no worse limits exactly when the configuration set last, or the
default one, covers the lower levels. -/
theorem tiers_iff (configs : List SubscriptionTradeConfig) :
    (AtomicRun.run setSubscriptionConfig configs new).Tiered ↔
      Covers (configs.getLastD .default) := by
  rw [tiered_iff,run_config]
  rfl

/-- A new manager gives the highest level fewer trades than the one below it. -/
theorem tiers_counterexample :
    ¬∀ configs, (AtomicRun.run setSubscriptionConfig configs new).Tiered := by
  intro h
  have hvip := (h []) .premium .vip (by decide)
  exact absurd hvip.simultaneous (by decide)

end SubscriptionManager

end DiamondBot.Subscriptions
