import DiamondBot.Farming.Rewards
import DiamondBot.Farming.StakeHistory
import DiamondBot.Library.Flows

/-!
# What an account can earn

A reward is paid for the time since the last claim, and a claim moves that time
up to now. So the times paid for do not overlap, however claims, top-ups,
unstakes and new stakes are mixed, and all rewards of an account together stay
within the best rate on its largest stake over the time that has passed. The
callback of a failed claim moves the time back and is left out.
-/

set_option autoImplicit false

namespace DiamondBot.Farming
open NearRuntime Library AtomicRun Flows

def Promise.rewards (u : AccountId) (p : Promise) : ℕ :=
  match p.callback with
  | .claimCallback v n => if v = u then n else 0
  | _ => 0

def System.rewarded (s : System) (u : AccountId) : Action → ℕ
  | .unstake env amount =>
    match s.contract.unstake env amount with
    | .ok r => (r.2.map (Promise.rewards u)).sum
    | .error _ => 0
  | .claimRewards env =>
    match s.contract.claimRewards env with
    | .ok r => Promise.rewards u r.2
    | .error _ => 0
  | _ => 0

def paidUpTo (s : Farming) (u : AccountId) (now : ℕ) : ℕ :=
  match s.stakes.lookup u with
  | some st => st.lastClaim
  | none => now

/-- Time does not go back, the stake of the account and the rate are bounded, and
no failure of one of its claims is reported. -/
structure Within (u : AccountId) (largest rate : ℕ) (h : History) (a : Action) : Prop where
  later : h.now ≤ a.env.blockTimestamp
  stake : h.system.contract.stakeOf u ≤ largest
  rate : h.system.contract.rewardRate ≤ rate
  paid : ∀ env i p n, a = .resolve env i .failed → h.system.inflight[i]? = some p →
    p.callback ≠ .claimCallback u n

section
variable {u : AccountId} {largest rate now t : ℕ} {s s' : Farming}

/-- The rewards sent off are covered by the time that the account is paid for. -/
structure Covers (u : AccountId) (largest rate now t : ℕ) (s s' : Farming) (n : ℕ) : Prop where
  price : rewardUnit*n+largest*rate*paidUpTo s u now ≤ largest*rate*paidUpTo s' u t
  due : paidUpTo s' u t ≤ t

theorem covers_nothing (h : paidUpTo s u now ≤ paidUpTo s' u t) (hdue : paidUpTo s' u t ≤ t) :
    Covers u largest rate now t s s' 0 := by
  refine ⟨?_,hdue⟩
  rw [Nat.mul_zero,Nat.zero_add]
  exact Nat.mul_le_mul_left _ h

theorem covers_kept (hdue : paidUpTo s u now ≤ now) (hlater : now ≤ t)
    (h : s'.stakes.lookup u = s.stakes.lookup u) : Covers u largest rate now t s s' 0 := by
  unfold paidUpTo at hdue
  apply covers_nothing
  · unfold paidUpTo
    rw [h]
    cases hst : s.stakes.lookup u with
    | none => exact hlater
    | some st => exact le_rfl
  · unfold paidUpTo
    rw [h]
    cases hst : s.stakes.lookup u with
    | none => exact le_rfl
    | some st =>
      rw [hst] at hdue
      exact le_trans hdue hlater

theorem claimRewards_covers {env : Env} {r : Farming × Promise} (hdue : paidUpTo s u now ≤ now)
    (hlater : now ≤ env.blockTimestamp) (hstake : s.stakeOf u ≤ largest)
    (hrate : s.rewardRate ≤ rate) (h : s.claimRewards env = .ok r) :
    Covers u largest rate now env.blockTimestamp s r.1 (Promise.rewards u r.2) := by
  obtain ⟨st,hst,h⟩ := Checked.bind_ok.mp h
  obtain ⟨reward,hreward,h⟩ := Checked.bind_ok.mp h
  obtain ⟨_,_,h⟩ := Checked.bind_ok.mp h
  cases h
  have hst := Checked.expect_ok.mp hst
  obtain ⟨hle,_,rfl⟩ := calculateReward_ok.mp hreward
  by_cases hu : env.predecessorAccountId = u
  · subst hu
    have hamount : st.amount ≤ largest := by
      rwa [stakeOf,KeyedTotal.share_some hst] at hstake
    have hbefore : paidUpTo s env.predecessorAccountId now = st.lastClaim := by
      simp [paidUpTo,hst]
    refine ⟨?_,by simp [paidUpTo]⟩
    rw [hbefore]
    simp only [Promise.rewards,if_true,paidUpTo,AList.lookup_insert]
    calc rewardUnit*(st.amount*s.rewardRate*(env.blockTimestamp-st.lastClaim)/rewardUnit)+
          largest*rate*st.lastClaim
        ≤ st.amount*s.rewardRate*(env.blockTimestamp-st.lastClaim)+
          largest*rate*st.lastClaim := Nat.add_le_add_right (Nat.mul_div_le _ _) _
      _ ≤ largest*rate*(env.blockTimestamp-st.lastClaim)+largest*rate*st.lastClaim :=
        Nat.add_le_add_right (Nat.mul_le_mul_right _ (Nat.mul_le_mul hamount hrate)) _
      _ = largest*rate*env.blockTimestamp := by
        rw [← Nat.mul_add,Nat.sub_add_cancel hle]
  · rw [show Promise.rewards u ⟨_,_,_,.claimCallback env.predecessorAccountId _,_⟩ = 0 from if_neg hu]
    exact covers_kept hdue hlater (AList.lookup_insert_ne (Ne.symm hu))

theorem unstake_covers {env : Env} {amount : ℕ} {r : Farming × List Promise}
    (hdue : paidUpTo s u now ≤ now) (hlater : now ≤ env.blockTimestamp)
    (hstake : s.stakeOf u ≤ largest) (hrate : s.rewardRate ≤ rate)
    (h : s.unstake env amount = .ok r) :
    Covers u largest rate now env.blockTimestamp s r.1 (r.2.map (Promise.rewards u)).sum := by
  obtain ⟨_,_,h⟩ := Checked.bind_ok.mp h
  obtain ⟨_,_,h⟩ := Checked.bind_ok.mp h
  obtain ⟨_,_,h⟩ := Checked.bind_ok.mp h
  obtain ⟨_,_,h⟩ := Checked.bind_ok.mp h
  obtain ⟨claimed,hclaim,h⟩ := Checked.bind_ok.mp h
  obtain ⟨_,_,h⟩ := Checked.bind_ok.mp h
  cases h
  have hcovers := claimRewards_covers hdue hlater hstake hrate hclaim
  exact ⟨hcovers.price,hcovers.due⟩

theorem toppedUp_later {env : Env} {n : ℕ} {st : Stake}
    (hlater : now ≤ env.blockTimestamp)
    (h : s.toppedUp env n (s.stakes.lookup u) = .ok st) :
    paidUpTo s u now ≤ st.lastClaim ∧ st.lastClaim ≤ env.blockTimestamp := by
  unfold paidUpTo
  cases hold : s.stakes.lookup u with
  | none =>
    rw [hold] at h
    cases h
    exact ⟨hlater,le_rfl⟩
  | some old =>
    rw [hold] at h
    obtain ⟨reward,hreward,h⟩ := Checked.bind_ok.mp h
    obtain ⟨_,_,h⟩ := Checked.bind_ok.mp h
    cases h
    have hle := (calculateReward_ok.mp hreward).1
    by_cases hpaid : 0 < reward
    · simp [hpaid,hle]
    · simp [hpaid,hle]

theorem stakeCallback_covers {env : Env} {result : PromiseResult} {v : AccountId} {n : ℕ}
    (hdue : paidUpTo s u now ≤ now) (hlater : now ≤ env.blockTimestamp)
    (h : s.stakeCallback env result v n = .ok s') :
    Covers u largest rate now env.blockTimestamp s s' 0 := by
  cases result with
  | failed =>
    cases h
    exact covers_kept hdue hlater rfl
  | successful =>
    obtain ⟨st,hst,h⟩ := Checked.bind_ok.mp h
    obtain ⟨totalStaked,_,h⟩ := Checked.bind_ok.mp h
    cases h
    by_cases hu : v = u
    · subst hu
      have htimes := toppedUp_later hlater hst
      have hafter : paidUpTo { s with
          stakes := s.stakes.insert v st
          totalStaked
          lastUpdate := env.systemTime } v env.blockTimestamp = st.lastClaim := by
        simp [paidUpTo]
      exact covers_nothing (by rw [hafter]; exact htimes.1) (by rw [hafter]; exact htimes.2)
    · exact covers_kept hdue hlater (AList.lookup_insert_ne (Ne.symm hu))

/-- A stake that is paid out in full leaves nothing due. -/
theorem unstakeCallback_covers {env : Env} {result : PromiseResult} {v : AccountId} {n : ℕ}
    (hdue : paidUpTo s u now ≤ now) (hlater : now ≤ env.blockTimestamp)
    (h : s.unstakeCallback env result v n = .ok s') :
    Covers u largest rate now env.blockTimestamp s s' 0 := by
  cases result with
  | failed =>
    obtain ⟨_,_,h⟩ := Checked.bind_ok.mp h
    cases h
    exact covers_kept hdue hlater rfl
  | successful =>
    obtain ⟨st,hst,h⟩ := Checked.bind_ok.mp h
    obtain ⟨left,_,h⟩ := Checked.bind_ok.mp h
    cases h
    have hst := Checked.expect_ok.mp hst
    by_cases hu : v = u
    · subst hu
      have hbefore : paidUpTo s v now = st.lastClaim := by simp [paidUpTo,hst]
      rw [hbefore] at hdue
      by_cases hleft : left = 0
      · apply covers_nothing
        · rw [hbefore]
          simpa [paidUpTo,hleft] using le_trans hdue hlater
        · simp [paidUpTo,hleft]
      · apply covers_nothing
        · rw [hbefore]
          simp [paidUpTo,hleft]
        · simpa [paidUpTo,hleft] using le_trans hdue hlater
    · refine covers_kept hdue hlater ?_
      by_cases hleft : left = 0
      · simp [hleft,AList.lookup_erase_ne (Ne.symm hu)]
      · simp [hleft,AList.lookup_insert_ne (Ne.symm hu)]

theorem claimCallback_covers {result : PromiseResult} {v : AccountId}
    (hdue : paidUpTo s u now ≤ now) (hlater : now ≤ t) (h : result = .failed → v ≠ u) :
    Covers u largest rate now t s (s.claimCallback result v) 0 := by
  refine covers_kept hdue hlater ?_
  cases result with
  | successful => rfl
  | failed =>
    unfold claimCallback
    cases hst : s.stakes.lookup v with
    | none => rfl
    | some st => exact AList.lookup_insert_ne (h rfl).symm

end

/-! ## Runs -/

theorem set_stakes {s : System} {o : Outcome Farming}
    (h : ∀ c, o = .ok c → c.stakes = s.contract.stakes) :
    (s.call (o.map fun c => (c,[]))).contract.stakes = s.contract.stakes := by
  cases ho : o with
  | ok c => exact h c ho
  | error e => rfl

theorem resolve_covers {u : AccountId} {largest rate : ℕ} {h : History} {env : Env} {i : ℕ}
    {result : PromiseResult} (hdue : paidUpTo h.system.contract u h.now ≤ h.now)
    (hw : Within u largest rate h (.resolve env i result)) :
    Covers u largest rate h.now env.blockTimestamp h.system.contract
      (h.system.resolve env i result).contract 0 := by
  have hlater : h.now ≤ env.blockTimestamp := hw.later
  cases hp : h.system.inflight[i]? with
  | none =>
    simp only [System.resolve,hp]
    exact covers_kept hdue hlater rfl
  | some p =>
    cases hcall : h.system.contract.callback env result p.callback with
    | error e =>
      simp only [System.resolve,hp,hcall]
      exact covers_kept hdue hlater rfl
    | ok c =>
      simp only [System.resolve,hp,hcall]
      cases hcallback : p.callback with
      | stakeCallback v n =>
        rw [hcallback] at hcall
        exact stakeCallback_covers hdue hlater hcall
      | unstakeCallback v n =>
        rw [hcallback] at hcall
        exact unstakeCallback_covers hdue hlater hcall
      | claimCallback v n =>
        rw [hcallback] at hcall
        cases hcall
        refine claimCallback_covers hdue hlater fun hfailed hv => ?_
        subst hfailed hv
        exact hw.paid env i p n rfl hp hcallback

theorem next_covers {u : AccountId} {largest rate : ℕ} {h : History} {a : Action}
    (hdue : paidUpTo h.system.contract u h.now ≤ h.now) (hw : Within u largest rate h a) :
    Covers u largest rate h.now a.env.blockTimestamp h.system.contract
      (h.system.next a).contract (h.system.rewarded u a) := by
  have hlater := hw.later
  cases a with
  | stake env amount =>
    refine covers_kept hdue hlater ?_
    simp only [System.next]
    cases h.system.contract.stake env amount <;> rfl
  | unstake env amount =>
    cases hr : h.system.contract.unstake env amount with
    | error e =>
      simp only [System.next,System.call,System.rewarded,hr]
      exact covers_kept hdue hlater rfl
    | ok r =>
      simp only [System.next,System.call,System.rewarded,hr]
      exact unstake_covers hdue hlater hw.stake hw.rate hr
  | claimRewards env =>
    cases hr : h.system.contract.claimRewards env with
    | error e =>
      simp only [System.next,System.call,System.rewarded,hr,Except.map]
      exact covers_kept hdue hlater rfl
    | ok r =>
      simp only [System.next,System.call,System.rewarded,hr,Except.map]
      exact claimRewards_covers hdue hlater hw.stake hw.rate hr
  | setRewardRate env rewardRate =>
    refine covers_kept hdue hlater (congrArg _ (set_stakes fun c hc => ?_))
    obtain ⟨_,_,hc⟩ := Checked.bind_ok.mp hc
    cases hc
    rfl
  | setLockPeriod env lockPeriod =>
    refine covers_kept hdue hlater (congrArg _ (set_stakes fun c hc => ?_))
    obtain ⟨_,_,hc⟩ := Checked.bind_ok.mp hc
    cases hc
    rfl
  | transferOwnership env newOwner =>
    refine covers_kept hdue hlater (congrArg _ (set_stakes fun c hc => ?_))
    obtain ⟨_,_,hc⟩ := Checked.bind_ok.mp hc
    cases hc
    rfl
  | resolve env i result => exact resolve_covers hdue hw

/-- However an account mixes claims, stakes and unstakes with the calls and the
transfers of everybody else, all the rewards sent off to it are at most what the
best rate gives on its largest stake for the time since the deployment. Only a
failed transfer of one of its claims could give it more. -/
theorem rewards_within_rate (env₀ : Env) (stakingToken : AccountId) (lockPeriod : ℕ)
    (u : AccountId) (largest rate : ℕ) (actions : List Action)
    (h : Along History.next (Within u largest rate) actions
      (History.new env₀ stakingToken lockPeriod)) :
    rewardUnit*sumAlong History.next (fun h a => h.system.rewarded u a) actions
        (History.new env₀ stakingToken lockPeriod) ≤
      largest*rate*((run History.next actions (History.new env₀ stakingToken lockPeriod)).now-
        env₀.blockTimestamp) := by
  have hstart : paidUpTo (History.new env₀ stakingToken lockPeriod).system.contract u
      env₀.blockTimestamp = env₀.blockTimestamp := rfl
  have hcovered := sumAlong_potential
    (J := fun h => paidUpTo h.system.contract u h.now ≤ h.now)
    (fun h => largest*rate*paidUpTo h.system.contract u h.now) rewardUnit
    (fun h a hdue hw => (next_covers hdue hw).due)
    (fun h a hdue hw => (next_covers hdue hw).price) hstart.le h
  have hend := run_invariant_along (I := fun h => paidUpTo h.system.contract u h.now ≤ h.now)
    (fun h a hdue hw => (next_covers hdue hw).due) hstart.le h
  rw [Nat.mul_sub]
  refine Nat.le_sub_of_add_le (le_trans hcovered ?_)
  exact Nat.mul_le_mul_left _ hend

def claimTwice : List Action := [
  .stake (envAt "alice.near" 1) 1000,
  .resolve (envAt "farm.near" 2) 0 .successful,
  .claimRewards (envAt "alice.near" 12),
  .claimRewards (envAt "alice.near" 13)]

theorem rewards_within_rate_claimTwice :
    rewardUnit*sumAlong History.next (fun h a => h.system.rewarded "alice.near" a) claimTwice
        (History.new (envAt "owner.near" 0) "diamond.near" defaultLockPeriod) ≤
      1000*10^18*((run History.next claimTwice
        (History.new (envAt "owner.near" 0) "diamond.near" defaultLockPeriod)).now-0) := by
  have hpaid {h : History} {a : Action} (ha : ∀ env i, a ≠ .resolve env i .failed)
      (hlater : h.now ≤ a.env.blockTimestamp)
      (hstake : h.system.contract.stakeOf "alice.near" ≤ 1000)
      (hrate : h.system.contract.rewardRate ≤ 10^18) :
      Within "alice.near" 1000 (10^18) h a :=
    ⟨hlater,hstake,hrate,fun env i _ _ h _ => absurd h (ha env i)⟩
  refine rewards_within_rate (envAt "owner.near" 0) "diamond.near" defaultLockPeriod "alice.near" 1000
    (10^18) claimTwice ⟨hpaid (by simp) ?_ ?_ ?_,hpaid (by simp) ?_ ?_ ?_,
      hpaid (by simp) ?_ ?_ ?_,hpaid (by simp) ?_ ?_ ?_,trivial⟩ <;> decide

end DiamondBot.Farming
