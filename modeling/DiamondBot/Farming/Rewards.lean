import DiamondBot.Farming.StakeAccounting

/-!
# What the reward formula does to positions

The reward is one checked product divided at the end, so it can be zero, be
rounded, or leave its type. A top-up forgets the reward when it is positive and
applies the new amount to the time since the last claim when it is rounded to
zero. An unstake claims first, and so needs a positive reward that fits; the
calls of both set more gas aside than there is.
-/

set_option autoImplicit false

namespace DiamondBot.Farming
open NearRuntime Library

/-- Both multiplications of the reward formula stay inside their type. -/
def Fits (amount rate elapsed : ℕ) : Prop :=
  amount*rate < 2^128 ∧ amount*rate*elapsed < 2^128

def rewardUnit : ℕ := 100*10^18

/-- Two positions show the same: both products leave the type, or neither does
and rounding does not tell them apart. -/
def SameReward (rate amount elapsed amount' elapsed' : ℕ) : Prop :=
  (Fits amount rate elapsed ↔ Fits amount' rate elapsed') ∧
    (Fits amount rate elapsed →
      amount*rate*elapsed/rewardUnit = amount'*rate*elapsed'/rewardUnit)

theorem calculateReward_ok {s : Farming} {env : Env} {st : Stake} {r : ℕ} :
    s.calculateReward env st = .ok r ↔ st.lastClaim ≤ env.blockTimestamp ∧
      Fits st.amount s.rewardRate (env.blockTimestamp-st.lastClaim) ∧
      r = st.amount*s.rewardRate*(env.blockTimestamp-st.lastClaim)/rewardUnit := by
  constructor
  · intro h
    obtain ⟨elapsed,hsub,h⟩ := Checked.bind_ok.mp h
    obtain ⟨rated,hrated,h⟩ := Checked.bind_ok.mp h
    obtain ⟨reward,hreward,h⟩ := Checked.bind_ok.mp h
    obtain ⟨hle,rfl⟩ := Checked.sub_ok.mp hsub
    obtain ⟨hfit,rfl⟩ := Checked.mul_ok.mp hrated
    obtain ⟨hfit',rfl⟩ := Checked.mul_ok.mp hreward
    cases h
    exact ⟨hle,⟨hfit,hfit'⟩,rfl⟩
  · rintro ⟨hle,⟨hfit,hfit'⟩,rfl⟩
    have hsub : Checked.sub env.blockTimestamp st.lastClaim =
        .ok (env.blockTimestamp-st.lastClaim) := Checked.sub_ok.mpr ⟨hle,rfl⟩
    have hrated : mulU128 st.amount s.rewardRate = .ok (st.amount*s.rewardRate) :=
      Checked.mul_ok.mpr ⟨hfit,rfl⟩
    have hreward : mulU128 (st.amount*s.rewardRate) (env.blockTimestamp-st.lastClaim) =
        .ok (st.amount*s.rewardRate*(env.blockTimestamp-st.lastClaim)) :=
      Checked.mul_ok.mpr ⟨hfit',rfl⟩
    simp only [calculateReward,hsub,hrated,hreward,bind,Except.bind]
    rfl

theorem calculateReward_overflow {s : Farming} {env : Env} {st : Stake}
    (hle : st.lastClaim ≤ env.blockTimestamp)
    (h : ¬Fits st.amount s.rewardRate (env.blockTimestamp-st.lastClaim)) :
    s.calculateReward env st = .error "attempt to multiply with overflow" := by
  have hsub : Checked.sub env.blockTimestamp st.lastClaim =
      .ok (env.blockTimestamp-st.lastClaim) := Checked.sub_ok.mpr ⟨hle,rfl⟩
  simp only [calculateReward,hsub,bind,Except.bind]
  by_cases hfit : st.amount*s.rewardRate < 2^128
  · have hrated : mulU128 st.amount s.rewardRate = .ok (st.amount*s.rewardRate) :=
      Checked.mul_ok.mpr ⟨hfit,rfl⟩
    have hreward : mulU128 (st.amount*s.rewardRate) (env.blockTimestamp-st.lastClaim) =
        .error "attempt to multiply with overflow" := if_neg fun h' => h ⟨hfit,h'⟩
    simp only [hrated,hreward]
  · have hrated : mulU128 st.amount s.rewardRate =
        .error "attempt to multiply with overflow" := if_neg hfit
    simp only [hrated]

theorem calculateReward_underflow {s : Farming} {env : Env} {st : Stake}
    (h : ¬st.lastClaim ≤ env.blockTimestamp) :
    s.calculateReward env st = .error "attempt to subtract with overflow" := by
  have hsub : Checked.sub env.blockTimestamp st.lastClaim =
      .error "attempt to subtract with overflow" := if_neg h
  simp only [calculateReward,hsub,bind,Except.bind]

theorem calculateReward_eq_iff {s s' : Farming} {env : Env} {st st' : Stake}
    (hrate : s'.rewardRate = s.rewardRate) (hle : st.lastClaim ≤ env.blockTimestamp) :
    s'.calculateReward env st' = s.calculateReward env st ↔
      st'.lastClaim ≤ env.blockTimestamp ∧
      SameReward s.rewardRate st.amount (env.blockTimestamp-st.lastClaim) st'.amount
        (env.blockTimestamp-st'.lastClaim) := by
  unfold SameReward
  by_cases hfit : Fits st.amount s.rewardRate (env.blockTimestamp-st.lastClaim)
  · rw [calculateReward_ok.mpr ⟨hle,hfit,rfl⟩,calculateReward_ok,hrate]
    simp only [hfit,true_iff,true_implies]
  · rw [calculateReward_overflow hle hfit]
    simp only [hfit,false_iff,false_implies,and_true]
    constructor
    · intro h
      have hle' : st'.lastClaim ≤ env.blockTimestamp := by
        by_contra hnot
        rw [calculateReward_underflow hnot] at h
        exact absurd (Except.error.inj h) (by decide)
      refine ⟨hle',fun hfit' => ?_⟩
      rw [← hrate] at hfit'
      rw [calculateReward_ok.mpr ⟨hle',hfit',rfl⟩] at h
      cases h
    · rintro ⟨hle',hfit'⟩
      rw [← hrate] at hfit'
      exact calculateReward_overflow hle' hfit'

theorem pendingReward_some {s : Farming} {env : Env} {u : AccountId} {st : Stake}
    (h : s.stakes.lookup u = some st) : s.getPendingReward env u = s.calculateReward env st := by
  simp only [getPendingReward,h]

/-! ## Topping up a stake -/

def elapsedAfter (s : Farming) (env : Env) (st : Stake) : ℕ :=
  if st.amount*s.rewardRate*(env.blockTimestamp-st.lastClaim) < rewardUnit
  then env.blockTimestamp-st.lastClaim else 0

/-- Under a rate, the view of an account's reward is the same in both states. -/
def KeepsReward (s s' : Farming) (env : Env) (u : AccountId) (rate : ℕ) : Prop :=
  ({ s' with rewardRate := rate } : Farming).getPendingReward env u =
    ({ s with rewardRate := rate } : Farming).getPendingReward env u

theorem toppedUp_some {s : Farming} {env : Env} {amount : ℕ} {st st' : Stake}
    (h : s.toppedUp env amount (some st) = .ok st') :
    ∃ reward, s.calculateReward env st = .ok reward ∧ st' = { st with
      amount := st.amount+amount
      lastClaim := if 0 < reward then env.blockTimestamp else st.lastClaim
      lastUpdate := env.systemTime } := by
  obtain ⟨reward,hreward,h⟩ := Checked.bind_ok.mp h
  obtain ⟨total,htotal,h⟩ := Checked.bind_ok.mp h
  obtain ⟨_,rfl⟩ := Checked.add_ok.mp htotal
  cases h
  exact ⟨reward,hreward,rfl⟩

theorem topUp_stake {s s' : Farming} {env : Env} {u : AccountId} {amount : ℕ} {st : Stake}
    (hst : s.stakes.lookup u = some st)
    (h : s.stakeCallback env .successful u amount = .ok s') :
    ∃ st', s'.stakes.lookup u = some st' ∧ st'.amount = st.amount+amount ∧
      st.lastClaim ≤ env.blockTimestamp ∧ st'.lastClaim ≤ env.blockTimestamp ∧
      Fits st.amount s.rewardRate (env.blockTimestamp-st.lastClaim) ∧
      env.blockTimestamp-st'.lastClaim = s.elapsedAfter env st := by
  obtain ⟨st',hst',h⟩ := Checked.bind_ok.mp h
  obtain ⟨_,_,h⟩ := Checked.bind_ok.mp h
  cases h
  rw [hst] at hst'
  obtain ⟨reward,hreward,rfl⟩ := toppedUp_some hst'
  obtain ⟨hle,hfit,rfl⟩ := calculateReward_ok.mp hreward
  refine ⟨_,AList.lookup_insert _,rfl,hle,?_,hfit,?_⟩
  · simp only
    split
    · exact le_rfl
    · exact hle
  · unfold elapsedAfter
    by_cases hzero : st.amount*s.rewardRate*(env.blockTimestamp-st.lastClaim) < rewardUnit
    · simp only [hzero,if_true,Nat.div_eq_of_lt hzero,lt_irrefl,if_false]
    · have hpos := Nat.div_pos (not_lt.mp hzero) (show 0 < rewardUnit by decide)
      simp only [hzero,if_false,hpos,if_true,Nat.sub_self]

theorem keepsReward_iff {s s' : Farming} {env : Env} {u : AccountId} {amount : ℕ} {st : Stake}
    (hst : s.stakes.lookup u = some st)
    (h : s.stakeCallback env .successful u amount = .ok s') (rate : ℕ) :
    KeepsReward s s' env u rate ↔
      SameReward rate st.amount (env.blockTimestamp-st.lastClaim) (st.amount+amount)
        (s.elapsedAfter env st) := by
  obtain ⟨st',hst',hamount,hle,hle',_,helapsed⟩ := topUp_stake hst h
  have heq := @calculateReward_eq_iff { s with rewardRate := rate }
    { s' with rewardRate := rate } env st st' rfl hle
  rw [hamount,helapsed] at heq
  unfold KeepsReward
  rw [pendingReward_some (s := { s with rewardRate := rate }) hst,
    pendingReward_some (s := { s' with rewardRate := rate }) hst',heq]
  exact ⟨fun hsame => hsame.2,fun hsame => ⟨hle',hsame⟩⟩

theorem elapsedAfter_small {s : Farming} {env : Env} {st : Stake}
    (h : st.amount*s.rewardRate*(env.blockTimestamp-st.lastClaim) < rewardUnit) :
    s.elapsedAfter env st = env.blockTimestamp-st.lastClaim :=
  if_pos h

/-- Under the rate in force the reward of the larger stake must round to zero,
and the reward of the smaller one then does too. -/
theorem keepsReward_now_iff {s s' : Farming} {env : Env} {u : AccountId} {amount : ℕ} {st : Stake}
    (hst : s.stakes.lookup u = some st)
    (h : s.stakeCallback env .successful u amount = .ok s') :
    KeepsReward s s' env u s.rewardRate ↔
      Fits (st.amount+amount) s.rewardRate (env.blockTimestamp-st.lastClaim) ∧
      (st.amount+amount)*s.rewardRate*(env.blockTimestamp-st.lastClaim) < rewardUnit := by
  obtain ⟨_,_,_,_,_,hfit,_⟩ := topUp_stake hst h
  rw [keepsReward_iff hst h]
  unfold SameReward
  simp only [hfit,true_iff,true_implies]
  by_cases hzero : st.amount*s.rewardRate*(env.blockTimestamp-st.lastClaim) < rewardUnit
  · rw [elapsedAfter_small hzero,Nat.div_eq_of_lt hzero,eq_comm,Nat.div_eq_zero_iff_lt (by decide)]
  · have hpos := Nat.div_pos (not_lt.mp hzero) (show 0 < rewardUnit by decide)
    have hmore : st.amount*s.rewardRate*(env.blockTimestamp-st.lastClaim) ≤
        (st.amount+amount)*s.rewardRate*(env.blockTimestamp-st.lastClaim) :=
      Nat.mul_le_mul_right _ (Nat.mul_le_mul_right _ (Nat.le_add_right _ _))
    have hnone : s.elapsedAfter env st = 0 := if_neg hzero
    rw [hnone,Nat.mul_zero,Nat.zero_div]
    constructor
    · rintro ⟨-,hsame⟩
      omega
    · rintro ⟨-,hsmall⟩
      omega

theorem rate_lt_of_fits {amount rate elapsed : ℕ} (hpos : 0 < amount)
    (h : Fits amount rate elapsed) : rate < 2^128 :=
  lt_of_le_of_lt (Nat.le_mul_of_pos_left rate hpos) h.1

theorem topUp_small {s s' : Farming} {env : Env} {u : AccountId} {amount : ℕ} {st : Stake}
    (hst : s.stakes.lookup u = some st)
    (h : s.stakeCallback env .successful u amount = .ok s')
    (hall : ∀ rate < 2^128, KeepsReward s s' env u rate) :
    st.amount*s.rewardRate*(env.blockTimestamp-st.lastClaim) < rewardUnit := by
  obtain ⟨_,_,_,_,_,hfit,_⟩ := topUp_stake hst h
  rcases Nat.eq_zero_or_pos st.amount with hempty | hpos
  · rw [hempty,Nat.zero_mul,Nat.zero_mul]
    decide
  · have hnow := hall s.rewardRate (rate_lt_of_fits hpos hfit)
    have hmore : st.amount*s.rewardRate*(env.blockTimestamp-st.lastClaim) ≤
        (st.amount+amount)*s.rewardRate*(env.blockTimestamp-st.lastClaim) :=
      Nat.mul_le_mul_right _ (Nat.mul_le_mul_right _ (Nat.le_add_right _ _))
    exact lt_of_le_of_lt hmore ((keepsReward_now_iff hst h).mp hnow).2

/-- An accepted top-up shows the same reward under every rate exactly when the
old reward rounds to zero now and no rate tells the old amount from the larger
one over the time since the claim; under the rate in force, exactly when the
reward of the larger stake still rounds to zero. -/
theorem topUp_keeps_reward_iff {s s' : Farming} {env : Env} {u : AccountId} {amount : ℕ}
    {st : Stake} (hst : s.stakes.lookup u = some st)
    (h : s.stakeCallback env .successful u amount = .ok s') :
    ((∀ rate < 2^128, KeepsReward s s' env u rate) ↔
      st.amount*s.rewardRate*(env.blockTimestamp-st.lastClaim) < rewardUnit ∧
      ∀ rate < 2^128, SameReward rate st.amount (env.blockTimestamp-st.lastClaim)
        (st.amount+amount) (env.blockTimestamp-st.lastClaim)) ∧
    (KeepsReward s s' env u s.rewardRate ↔
      Fits (st.amount+amount) s.rewardRate (env.blockTimestamp-st.lastClaim) ∧
      (st.amount+amount)*s.rewardRate*(env.blockTimestamp-st.lastClaim) < rewardUnit) := by
  refine ⟨?_,keepsReward_now_iff hst h⟩
  constructor
  · intro hall
    have hzero := topUp_small hst h hall
    refine ⟨hzero,fun rate hrate => ?_⟩
    have hsame := (keepsReward_iff hst h rate).mp (hall rate hrate)
    rwa [elapsedAfter_small hzero] at hsame
  · rintro ⟨hzero,hall⟩ rate hrate
    rw [keepsReward_iff hst h,elapsedAfter_small hzero]
    exact hall rate hrate

def oneStake : System :=
  AtomicRun.run System.next [
    .stake (envAt "alice.near" 1) 1000,
    .resolve (envAt "farm.near" 2) 0 .successful] (System.new (envAt "owner.near" 0) "diamond.near")

theorem topUp_keeps_reward_iff_oneStake : ∃ st s',
    oneStake.contract.stakes.lookup "alice.near" = some st ∧
    oneStake.contract.stakeCallback (envAt "farm.near" 1000000002) .successful "alice.near" 10 =
      .ok s' ∧
    ¬KeepsReward oneStake.contract s' (envAt "farm.near" 1000000002) "alice.near"
      oneStake.contract.rewardRate := by
  refine ⟨⟨1000,2,2,1⟩,_,rfl,rfl,?_⟩
  rw [(@topUp_keeps_reward_iff oneStake.contract _ (envAt "farm.near" 1000000002) "alice.near" 10
    ⟨1000,2,2,1⟩ rfl rfl).2]
  rintro ⟨-,hsmall⟩
  revert hsmall
  decide

/-- A second after her stake a top-up of alice takes the reward from the view. -/
theorem top_up_forgets_reward : ∃ s',
    oneStake.contract.stakeCallback (envAt "farm.near" 1000000002) .successful "alice.near" 10 =
      .ok s' ∧
    oneStake.contract.getPendingReward (envAt "farm.near" 1000000002) "alice.near" =
      .ok 10000000000 ∧
    s'.getPendingReward (envAt "farm.near" 1000000002) "alice.near" = .ok 0 ∧
    ¬KeepsReward oneStake.contract s' (envAt "farm.near" 1000000002) "alice.near"
      oneStake.contract.rewardRate := by
  refine ⟨_,rfl,by decide,by decide,?_⟩
  unfold KeepsReward
  decide

/-! ## Withdrawing unlocked principal -/

def withdrawal (s : Farming) (env : Env) (amount : ℕ) : Promise where
  token := s.stakingToken
  call := .ftTransfer env.predecessorAccountId amount (some "Unstake from Farming")
  callGas := env.prepaidGas/3
  callback := .unstakeCallback env.predecessorAccountId amount
  callbackGas := env.prepaidGas/3

/-- The contract's own code lets the call through and schedules the transfer. -/
def SchedulesWithdrawal (s : Farming) (env : Env) (amount : ℕ) : Prop :=
  ∃ s' claim, s.unstake env amount = .ok (s',[claim,s.withdrawal env amount])

/-- The host takes the gas of each scheduled call out of the gas of the call at
hand, `charged` of which is used up; it aborts the call when too little is left. -/
def Affords (charged : ℕ) (env : Env) (promises : List Promise) : Prop :=
  charged+(promises.map fun p => p.callGas+p.callbackGas).sum ≤ env.prepaidGas

def StartsWithdrawal (charged : ℕ) (s : Farming) (env : Env) (amount : ℕ) : Prop :=
  ∃ s' promises, s.unstake env amount = .ok (s',promises) ∧
    s.withdrawal env amount ∈ promises ∧ Affords charged env promises

/-- The stake has earned at least one unit of reward and the formula fits. -/
def HasReward (s : Farming) (env : Env) (st : Stake) : Prop :=
  st.lastClaim ≤ env.blockTimestamp ∧
    rewardUnit ≤ st.amount*s.rewardRate*(env.blockTimestamp-st.lastClaim) ∧
    st.amount*s.rewardRate*(env.blockTimestamp-st.lastClaim) < 2^128

theorem hasReward_fits {s : Farming} {env : Env} {st : Stake} (h : s.HasReward env st) :
    Fits st.amount s.rewardRate (env.blockTimestamp-st.lastClaim) := by
  obtain ⟨-,hunit,hfit⟩ := h
  refine ⟨?_,hfit⟩
  rcases Nat.eq_zero_or_pos (env.blockTimestamp-st.lastClaim) with hzero | hpos
  · rw [hzero,Nat.mul_zero] at hunit
    exact absurd hunit (by decide)
  · exact lt_of_le_of_lt (Nat.le_mul_of_pos_right _ hpos) hfit

theorem claimRewards_iff {s : Farming} {env : Env} {st : Stake}
    (hst : s.stakes.lookup env.predecessorAccountId = some st) :
    (∃ r, s.claimRewards env = .ok r) ↔ s.HasReward env st := by
  constructor
  · rintro ⟨r,h⟩
    obtain ⟨st',hst',h⟩ := Checked.bind_ok.mp h
    obtain ⟨reward,hreward,h⟩ := Checked.bind_ok.mp h
    obtain ⟨_,hpos,_⟩ := Checked.bind_ok.mp h
    rw [hst] at hst'
    cases Checked.expect_ok.mp hst'
    obtain ⟨hle,hfit,rfl⟩ := calculateReward_ok.mp hreward
    refine ⟨hle,?_,hfit.2⟩
    by_contra hsmall
    have hzero := Nat.div_eq_of_lt (not_le.mp hsmall)
    have hdiv := Checked.require_ok.mp hpos
    omega
  · intro h
    have hreward := calculateReward_ok.mpr ⟨h.1,hasReward_fits h,rfl⟩
    have hpos := Nat.div_pos h.2.1 (show 0 < rewardUnit by decide)
    simp [claimRewards,hst,Checked.expect,hreward,hpos,Checked.require,bind,Except.bind,pure,
      Except.pure]

/-- An unlocked part of a stake is sent exactly when a reward can be claimed
first and the running total covers it. -/
theorem schedulesWithdrawal_iff {s : Farming} {env : Env} {amount : ℕ} {st : Stake}
    (hst : s.stakes.lookup env.predecessorAccountId = some st) (hamount : amount ≤ st.amount)
    (hlock : st.startTime+s.lockPeriod ≤ env.blockTimestamp) :
    s.SchedulesWithdrawal env amount ↔ s.HasReward env st ∧ amount ≤ s.totalStaked := by
  constructor
  · rintro ⟨s',claim,h⟩
    have hsame := (unstake_ok h).2.2.1
    obtain ⟨_,_,h⟩ := Checked.bind_ok.mp h
    obtain ⟨_,_,h⟩ := Checked.bind_ok.mp h
    obtain ⟨_,_,h⟩ := Checked.bind_ok.mp h
    obtain ⟨_,_,h⟩ := Checked.bind_ok.mp h
    obtain ⟨claimed,hclaim,_⟩ := Checked.bind_ok.mp h
    exact ⟨(claimRewards_iff hst).mp ⟨claimed,hclaim⟩,by omega⟩
  · rintro ⟨hreward,htotal⟩
    obtain ⟨claimed,hclaim⟩ := (claimRewards_iff hst).mpr hreward
    have hsame := (claimRewards_ok hclaim).2.2.1
    have hadd : addU64 st.startTime s.lockPeriod = .ok (st.startTime+s.lockPeriod) :=
      Checked.add_ok.mpr ⟨lt_of_le_of_lt hlock env.blockTimestamp_lt,rfl⟩
    have hsub : Checked.sub claimed.1.totalStaked amount = .ok (claimed.1.totalStaked-amount) :=
      Checked.sub_ok.mpr ⟨hsame ▸ htotal,rfl⟩
    refine ⟨{ claimed.1 with totalStaked := claimed.1.totalStaked-amount },claimed.2,?_⟩
    simp [unstake,hst,Checked.expect,hamount,hlock,hadd,hclaim,hsub,Checked.require,bind,
      Except.bind,pure,Except.pure,withdrawal]

def Callback.userId : Callback → AccountId
  | .stakeCallback u _ => u
  | .unstakeCallback u _ => u
  | .claimCallback u _ => u

theorem unstakes_userId (v : AccountId) (p : Promise) :
    p.unstakes v = if v = p.callback.userId then p.unstaked else 0 := by
  unfold Promise.unstakes Promise.unstaked
  cases p.callback with
  | unstakeCallback u n => rfl
  | stakeCallback | claimCallback => simp only [ite_self]

/-- When the unstakes in flight are within the stakes, account by account, the
running total covers the stake of an account that has none in flight. -/
theorem balanced_covers {s : System} (hb : Balanced s.books) {u : AccountId}
    (hidle : s.unstaking u = 0) : s.contract.stakeOf u ≤ s.contract.totalStaked := by
  have hothers : s.unstakingTotal ≤
      KeyedTotal.total (KeyedTotal.without u fun _ st => st.amount) s.contract.stakes := by
    apply KeyedTotal.sum_le_total _ _ fun p : Promise => p.callback.userId
    intro v
    simp only [← unstakes_userId]
    by_cases hv : v = u
    · subst hv
      change s.unstaking v ≤ _
      omega
    · have hcover := hb.2 v
      change s.unstaking v ≤ s.contract.stakeOf v at hcover
      rwa [stakeOf,← KeyedTotal.share_without_ne hv] at hcover
  have hsplit := KeyedTotal.total_split u (fun _ (st : Stake) => st.amount) s.contract.stakes
  have htotal : s.contract.totalStaked+s.unstakingTotal = s.contract.stakesTotal := hb.1
  unfold stakesTotal at htotal
  unfold stakeOf
  omega

/-- In every state a run reaches, the contract's own code lets unlocked principal
of an account with no unstake in flight through exactly when the account has a
reward to claim and the running total covers the amount. The total covers it
along the runs that keep the books. -/
theorem unlocked_scheduled_iff (env₀ : Env) (stakingToken : AccountId)
    (actions : List Action) {s : System}
    (hs : s = AtomicRun.run System.next actions (System.new env₀ stakingToken))
    {env : Env} {amount : ℕ} {st : Stake}
    (hst : s.contract.stakes.lookup env.predecessorAccountId = some st)
    (hamount : amount ≤ st.amount) (hidle : s.unstaking env.predecessorAccountId = 0)
    (hlock : st.startTime+s.contract.lockPeriod ≤ env.blockTimestamp) :
    (s.contract.SchedulesWithdrawal env amount ↔
      s.contract.HasReward env st ∧ amount ≤ s.contract.totalStaked) ∧
    (AtomicRun.Along System.next KeepsBooks actions (System.new env₀ stakingToken) →
      (s.contract.SchedulesWithdrawal env amount ↔ s.contract.HasReward env st)) := by
  have hiff := schedulesWithdrawal_iff hst hamount hlock
  refine ⟨hiff,fun hkeeps => ?_⟩
  have hbooks : Escrowed s := by
    rw [hs]
    exact AtomicRun.run_invariant_along next_conserved (new_conserved env₀ stakingToken) hkeeps
  have hcover := balanced_covers hbooks.1 hidle
  rw [stakeOf,KeyedTotal.share_some hst] at hcover
  rw [hiff]
  exact ⟨fun h => h.1,fun h => ⟨h,hamount.trans hcover⟩⟩

theorem unlocked_scheduled_iff_oneStake :
    oneStake.contract.SchedulesWithdrawal (envAt "alice.near" 2592000000000002) 1000 := by
  apply ((@unlocked_scheduled_iff (envAt "owner.near" 0) "diamond.near" _ oneStake rfl
    (envAt "alice.near" 2592000000000002) 1000 ⟨1000,2,2,1⟩ rfl (by decide) rfl
    (by decide)).1).mpr
  unfold HasReward
  decide

/-! ## The gas of an unstake -/

theorem claimRewards_gas {s : Farming} {env : Env} {r : Farming × Promise}
    (h : s.claimRewards env = .ok r) :
    r.2.callGas = env.prepaidGas/3 ∧ r.2.callbackGas = env.prepaidGas/3 := by
  obtain ⟨_,_,h⟩ := Checked.bind_ok.mp h
  obtain ⟨_,_,h⟩ := Checked.bind_ok.mp h
  obtain ⟨_,_,h⟩ := Checked.bind_ok.mp h
  cases h
  exact ⟨rfl,rfl⟩

theorem unstake_gas {s : Farming} {env : Env} {amount : ℕ} {r : Farming × List Promise}
    (h : s.unstake env amount = .ok r) :
    (r.2.map fun p => p.callGas+p.callbackGas).sum = 4*(env.prepaidGas/3) := by
  obtain ⟨_,_,h⟩ := Checked.bind_ok.mp h
  obtain ⟨_,_,h⟩ := Checked.bind_ok.mp h
  obtain ⟨_,_,h⟩ := Checked.bind_ok.mp h
  obtain ⟨_,_,h⟩ := Checked.bind_ok.mp h
  obtain ⟨claimed,hclaim,h⟩ := Checked.bind_ok.mp h
  obtain ⟨_,_,h⟩ := Checked.bind_ok.mp h
  cases h
  obtain ⟨hcall,hcallback⟩ := claimRewards_gas hclaim
  simp only [List.map_cons,List.map_nil,List.sum_cons,List.sum_nil,hcall,hcallback]
  omega

theorem unstake_unaffordable {s s' : Farming} {env : Env} {amount charged : ℕ}
    {promises : List Promise} (h : s.unstake env amount = .ok (s',promises))
    (hcharged : 3 ≤ charged) : ¬Affords charged env promises := by
  have hgas : (promises.map fun p => p.callGas+p.callbackGas).sum = 4*(env.prepaidGas/3) :=
    unstake_gas h
  intro hafford
  unfold Affords at hafford
  omega

/-- A host that charges for running the call at all aborts every unstake, whatever
state the contract is in: the four thirds of the gas it sets aside are not there. -/
theorem unlocked_never_withdrawn {charged : ℕ} (hcharged : 3 ≤ charged) (s : Farming) (env : Env)
    (amount : ℕ) : ¬StartsWithdrawal charged s env amount := by
  rintro ⟨s',promises,h,_,hafford⟩
  exact unstake_unaffordable h hcharged hafford

theorem unlocked_never_withdrawn_oneStake : ¬StartsWithdrawal 2500000000000 oneStake.contract
    (envAt "alice.near" 2592000000000002) 1000 :=
  unlocked_never_withdrawn (by decide) oneStake.contract _ 1000

/-- Alice's stake is unlocked, has earned a reward and is covered, and the contract's
own code lets her withdraw it; with 300 Tgas attached, of which 2.5 are used up, the
host aborts the call. -/
theorem gas_locks_principal :
    oneStake.contract.stakes.lookup "alice.near" = some ⟨1000,2,2,1⟩ ∧
    oneStake.unstaking "alice.near" = 0 ∧
    2+oneStake.contract.lockPeriod ≤
      (envAt "alice.near" 2592000000000002).blockTimestamp ∧
    (∃ r, oneStake.contract.unstake (envAt "alice.near" 2592000000000002) 1000 = .ok r) ∧
    ¬StartsWithdrawal 2500000000000 oneStake.contract
      (envAt "alice.near" 2592000000000002) 1000 := by
  refine ⟨rfl,rfl,by decide,⟨_,rfl⟩,?_⟩
  rintro ⟨s',promises,h,_,hafford⟩
  exact unstake_unaffordable h (by decide) hafford

/-! ## The documented formula -/

/-- The reward documented for a stake that has earned for `d` nanoseconds, the
rate being per second and for each hundred tokens. -/
def documentedReward (amount rate d : ℕ) : ℕ := amount*rate*d/(10^9*rewardUnit)

theorem undivided_eq_iff (p : ℕ) : p/rewardUnit = p/(10^9*rewardUnit) ↔ p < rewardUnit := by
  have hsplit : p/(10^9*rewardUnit) = p/rewardUnit/10^9 := by
    rw [Nat.mul_comm,Nat.div_div_eq_div_mul]
  rw [hsplit]
  constructor
  · intro h
    by_contra hearned
    have hpos : 0 < p/rewardUnit := Nat.div_pos (not_lt.mp hearned) (by decide)
    have hless := Nat.div_lt_self hpos (show 1 < 10^9 by decide)
    omega
  · intro h
    rw [Nat.div_eq_of_lt h,Nat.zero_div]

/-- `d` nanoseconds after the last claim the formula returns the documented
reward exactly when its first product fits and the whole product is below the
divisor, so that nothing has been earned. -/
theorem calculateReward_documented_iff {s : Farming} {env : Env} {st : Stake} {d : ℕ}
    (hd : env.blockTimestamp = st.lastClaim+d) :
    s.calculateReward env st = .ok (documentedReward st.amount s.rewardRate d) ↔
      st.amount*s.rewardRate < 2^128 ∧ st.amount*s.rewardRate*d < rewardUnit := by
  have helapsed : env.blockTimestamp-st.lastClaim = d := by omega
  rw [calculateReward_ok,helapsed,documentedReward,eq_comm (b := _/rewardUnit),undivided_eq_iff]
  have hunit : rewardUnit < 2^128 := by decide
  constructor
  · rintro ⟨_,hfit,hsmall⟩
    exact ⟨hfit.1,hsmall⟩
  · rintro ⟨hfit,hsmall⟩
    exact ⟨by omega,⟨hfit,hsmall.trans hunit⟩,hsmall⟩

def hundredStaked : Stake := ⟨100*10^18,0,0,0⟩

theorem calculateReward_documented_iff_atClaim :
    oneStake.contract.calculateReward (envAt "alice.near" 0) hundredStaked =
      .ok (documentedReward hundredStaked.amount oneStake.contract.rewardRate 0) := by
  apply (@calculateReward_documented_iff _ (envAt "alice.near" 0) hundredStaked 0 rfl).mpr
  decide

/-- One second of one hundred staked tokens is worth a token and overflows. -/
theorem second_of_hundred_overflows :
    documentedReward hundredStaked.amount oneStake.contract.rewardRate (10^9) = 10^18 ∧
    oneStake.contract.calculateReward (envAt "alice.near" 1000000000) hundredStaked =
      .error "attempt to multiply with overflow" := by
  decide

end DiamondBot.Farming
