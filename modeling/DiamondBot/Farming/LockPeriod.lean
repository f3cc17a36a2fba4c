import DiamondBot.Farming.StakeHistory
import DiamondBot.Library.Tally

/-!
# The lock period over the history of an account

A position has one start time, set when it is created and kept by every
top-up, and an unstake is checked against the whole stake. What has left an
account is compared with what was credited to it a lock period before.
-/

set_option autoImplicit false

namespace DiamondBot.Farming
open NearRuntime Library Library.Tally

namespace History

def withdrawn (h : History) (u : AccountId) (t : ℕ) : ℕ :=
  tally (fun w : Withdrawal => w.userId = u ∧ w.time ≤ t) Withdrawal.amount h.withdrawals

def unlocked (h : History) (lock : ℕ) (u : AccountId) (t : ℕ) : ℕ :=
  tally (fun d : Deposit => d.userId = u ∧ d.time+lock ≤ t) Deposit.amount h.deposits

def young (h : History) (lock : ℕ) (u : AccountId) (t : ℕ) : ℕ :=
  tally (fun d : Deposit => d.userId = u ∧ d.topUp ∧ t < d.time+lock) Deposit.amount h.deposits

/-- No account has withdrawn more than was credited to it a lock period before. -/
def Locked (lock : ℕ) (h : History) : Prop :=
  ∀ u t, h.withdrawn u t ≤ h.unlocked lock u t

/-- Block times do not go back, and the lock period stays as it is. -/
def Constant (lock : ℕ) (h : History) (a : Action) : Prop :=
  h.now ≤ a.env.blockTimestamp ∧ (h.system.next a).contract.lockPeriod = lock

/-- An accepted unstake leaves in the stake what is on its way back, what was
refused before and what was topped up less than a lock period ago. -/
def Ripe (lock : ℕ) (h : History) : Action → Prop
  | .unstake env amount => (∃ r, h.system.contract.unstake env amount = .ok r) →
    amount+h.system.unstaking env.predecessorAccountId+h.refused env.predecessorAccountId+
      h.young lock env.predecessorAccountId env.blockTimestamp ≤
        h.system.contract.stakeOf env.predecessorAccountId
  | _ => True

/-! ## The history and the books -/

/-- What the history knows of the books: an account's stake and what was sent
to it make up its credits, and an unstake is sent, on its way or refused. A
credit that was no top-up is at least as old as the position. -/
structure Kept (lock : ℕ) (h : History) : Prop where
  lockPeriod : h.system.contract.lockPeriod = lock
  stakes (u : AccountId) : h.system.contract.stakeOf u+h.system.sent u = h.system.staked u
  withdrawals (u : AccountId) :
    tally (fun w : Withdrawal => w.userId = u) Withdrawal.amount h.withdrawals =
      h.system.sent u+h.system.unstaking u+h.refused u
  deposits (u : AccountId) :
    tally (fun d : Deposit => d.userId = u) Deposit.amount h.deposits = h.system.staked u
  depositsPast : ∀ d ∈ h.deposits, d.time ≤ h.now
  withdrawalsPast : ∀ w ∈ h.withdrawals, w.time ≤ h.now
  starts (u : AccountId) (st : Stake) : h.system.contract.stakes.lookup u = some st →
    ∀ d ∈ h.deposits, d.userId = u → ¬d.topUp → d.time ≤ st.startTime

theorem withdrawn_now {lock : ℕ} {h : History} (hk : h.Kept lock) {t : ℕ} (ht : h.now ≤ t)
    (u : AccountId) : h.withdrawn u t = h.system.sent u+h.system.unstaking u+h.refused u := by
  rw [← hk.withdrawals]
  apply tally_congr
  intro w hw
  have := hk.withdrawalsPast w hw
  constructor
  · exact fun hu => hu.1
  · exact fun hu => ⟨hu,by omega⟩

theorem unlocked_le_staked {lock : ℕ} {h : History} (hk : h.Kept lock) (u : AccountId) (t : ℕ) :
    h.unlocked lock u t ≤ h.system.staked u := by
  rw [← hk.deposits]
  exact tally_mono fun d _ hu => hu.1

theorem unstaking_le_stake {lock : ℕ} {h : History} (hk : h.Kept lock) (hq : Locked lock h)
    (u : AccountId) : h.system.unstaking u ≤ h.system.contract.stakeOf u := by
  have hw := withdrawn_now hk le_rfl u
  have hle := (hq u h.now).trans (unlocked_le_staked hk u h.now)
  have hs := hk.stakes u
  omega

/-- Past the lock of a position, all its credits but the young top-ups are
unlocked. -/
theorem unlocked_add_young {lock : ℕ} {h : History} (hk : h.Kept lock) {u : AccountId}
    {st : Stake} {t : ℕ} (hst : h.system.contract.stakes.lookup u = some st)
    (ht : st.startTime+lock ≤ t) : h.unlocked lock u t+h.young lock u t = h.system.staked u := by
  have hsplit := tally_split (fun d : Deposit => d.userId = u) (fun d => d.time+lock ≤ t)
    Deposit.amount h.deposits
  have hyoung : h.young lock u t =
      tally (fun d : Deposit => d.userId = u ∧ ¬d.time+lock ≤ t) Deposit.amount h.deposits := by
    apply tally_congr
    intro d hd
    constructor
    · rintro ⟨hu,_,hlt⟩
      exact ⟨hu,by omega⟩
    · rintro ⟨hu,hlt⟩
      refine ⟨hu,?_,by omega⟩
      by_contra hnew
      have := hk.starts u st hst d hd hu hnew
      omega
  rw [hyoung,← hk.deposits,hsplit]
  rfl

theorem next_stakes {lock : ℕ} {h : History} (hk : h.Kept lock) (hq : Locked lock h)
    (a : Action) (u : AccountId) : (h.system.next a).contract.stakeOf u+(h.system.next a).sent u =
      (h.system.next a).staked u := by
  have hs := hk.stakes u
  have hm := next_moves h.system a
  change (h.system.next a).books.stake u+(h.system.next a).books.sent u =
    (h.system.next a).books.staked u
  change h.system.books.stake u+h.system.books.sent u = h.system.books.staked u at hs
  cases hmov : h.system.movement a with
  | credit v n topUp =>
    rw [hmov] at hm
    obtain ⟨hstake,_,hsent,hstaked⟩ := hm
    rw [hstake,hsent,hstaked,addAt_apply,addAt_apply]
    omega
  | withdraw | refuse | none =>
    rw [hmov] at hm
    obtain ⟨hstake,_,hsent,hstaked⟩ := hm
    rw [hstake,hsent,hstaked]
    exact hs
  | pay v n =>
    rw [hmov] at hm
    obtain ⟨hstake | hshort,hun,hsent,hstaked⟩ := hm
    · rw [hstake,addAt_apply] at hs
      rw [hsent,hstaked,addAt_apply]
      omega
    · have hcover := unstaking_le_stake hk hq v
      change h.system.books.unstaking v ≤ h.system.books.stake v at hcover
      rw [hun,addAt_apply] at hcover
      simp only [if_true] at hcover
      omega

theorem next_withdrawals {lock : ℕ} {h : History} (hk : h.Kept lock) (a : Action)
    (u : AccountId) :
    tally (fun w : Withdrawal => w.userId = u) Withdrawal.amount (h.next a).withdrawals =
      (h.next a).system.sent u+(h.next a).system.unstaking u+(h.next a).refused u := by
  have hw := hk.withdrawals u
  have hm := next_moves h.system a
  change _ = (h.system.next a).books.sent u+(h.system.next a).books.unstaking u+_
  change _ = h.system.books.sent u+h.system.books.unstaking u+_ at hw
  cases hmov : h.system.movement a with
  | credit | none =>
    rw [hmov] at hm
    obtain ⟨_,hun,hsent,_⟩ := hm
    simp only [next,hmov,hun,hsent,hw]
  | withdraw v n =>
    rw [hmov] at hm
    obtain ⟨_,hun,hsent,_⟩ := hm
    simp only [next,hmov,hun,hsent,tally_append,hw,tally_cons,tally_nil,addAt_apply,
      @eq_comm _ v u]
    omega
  | pay v n =>
    rw [hmov] at hm
    obtain ⟨_,hun,hsent,_⟩ := hm
    rw [hun,addAt_apply] at hw
    simp only [next,hmov,hsent,hw,addAt_apply]
    omega
  | refuse v n =>
    rw [hmov] at hm
    obtain ⟨_,hun,hsent,_⟩ := hm
    rw [hun,addAt_apply] at hw
    simp only [next,hmov,hsent,hw,addAt_apply]
    omega

theorem next_deposits {lock : ℕ} {h : History} (hk : h.Kept lock) (a : Action)
    (u : AccountId) :
    tally (fun d : Deposit => d.userId = u) Deposit.amount (h.next a).deposits =
      (h.next a).system.staked u := by
  have hd := hk.deposits u
  have hm := next_moves h.system a
  change _ = (h.system.next a).books.staked u
  change _ = h.system.books.staked u at hd
  cases hmov : h.system.movement a with
  | credit v n topUp =>
    rw [hmov] at hm
    obtain ⟨_,_,_,hstaked⟩ := hm
    simp only [next,hmov,hstaked,tally_append,hd,tally_cons,tally_nil,addAt_apply,
      @eq_comm _ v u,Nat.add_zero]
  | withdraw | pay | refuse | none =>
    rw [hmov] at hm
    obtain ⟨_,_,_,hstaked⟩ := hm
    simp only [next,hmov,hstaked,hd]

theorem next_starts {lock : ℕ} {h : History} (hk : h.Kept lock) {a : Action}
    (hnow : h.now ≤ a.env.blockTimestamp) (u : AccountId) (st' : Stake)
    (hst' : (h.next a).system.contract.stakes.lookup u = some st') :
    ∀ d ∈ (h.next a).deposits, d.userId = u → ¬d.topUp → d.time ≤ st'.startTime := by
  intro d hd hu hnew
  rcases next_start h.system a hst' with ⟨st,hst,hstart⟩ | ⟨n,_,hstart⟩
  · rcases next_deposit_mem hd with hold | ⟨hmov,_⟩
    · rw [hstart]
      exact hk.starts u st hst d hold hu hnew
    · have hfresh := credit_fresh hmov
      rw [hu,hst] at hfresh
      exact absurd hfresh hnew
  · rw [hstart]
    rcases next_deposit_mem hd with hold | ⟨_,htime⟩
    · exact (hk.depositsPast d hold).trans hnow
    · exact htime.le

theorem next_kept {lock : ℕ} (h : History) (a : Action) (hk : h.Kept lock) (hq : Locked lock h)
    (ha : Constant lock h a) : (h.next a).Kept lock where
  lockPeriod := ha.2
  stakes := next_stakes hk hq a
  withdrawals := next_withdrawals hk a
  deposits := next_deposits hk a
  depositsPast d hd := by
    rcases next_deposit_mem hd with hold | ⟨_,htime⟩
    · exact (hk.depositsPast d hold).trans ha.1
    · exact htime.le
  withdrawalsPast w hw := by
    rcases next_withdrawal_mem hw with hold | htime
    · exact (hk.withdrawalsPast w hold).trans ha.1
    · exact htime.le
  starts := next_starts hk ha.1

theorem unlocked_le_next (lock : ℕ) (h : History) (a : Action) (u : AccountId) (t : ℕ) :
    h.unlocked lock u t ≤ (h.next a).unlocked lock u t := by
  unfold unlocked
  cases hmov : h.system.movement a with
  | credit v n topUp =>
    simp only [next,hmov,tally_append]
    exact Nat.le_add_right _ _
  | withdraw | pay | refuse | none =>
    simp only [next,hmov]
    exact le_rfl

theorem unlocked_mono (lock : ℕ) (h : History) (u : AccountId) {t t' : ℕ} (ht : t ≤ t') :
    h.unlocked lock u t ≤ h.unlocked lock u t' :=
  tally_mono fun _ _ hd => ⟨hd.1,hd.2.trans ht⟩

theorem next_locked {lock : ℕ} {h : History} {a : Action} (hq : Locked lock h)
    (hsame : (h.next a).withdrawals = h.withdrawals) : Locked lock (h.next a) := by
  intro u t
  unfold withdrawn
  rw [hsame]
  exact (hq u t).trans (unlocked_le_next lock h a u t)

/-- An accepted unstake keeps the property exactly when the principal credited
a lock period before covers it with all earlier ones. -/
theorem withdraw_locked_iff {lock : ℕ} {h : History} {env : Env} {n : ℕ} (hk : h.Kept lock)
    (hq : Locked lock h) (hnow : h.now ≤ env.blockTimestamp)
    (hmov : h.system.movement (.unstake env n) = .withdraw env.predecessorAccountId n) :
    Locked lock (h.next (.unstake env n)) ↔
      h.withdrawn env.predecessorAccountId env.blockTimestamp+n ≤
        h.unlocked lock env.predecessorAccountId env.blockTimestamp := by
  have hunlocked : ∀ u t, (h.next (.unstake env n)).unlocked lock u t = h.unlocked lock u t := by
    intro u t
    simp only [unlocked,next,hmov]
  have hwithdrawn : ∀ u t, (h.next (.unstake env n)).withdrawn u t = h.withdrawn u t+
      if env.predecessorAccountId = u ∧ env.blockTimestamp ≤ t then n else 0 := by
    intro u t
    simp only [withdrawn,next,hmov,tally_append,tally_cons,tally_nil,Action.env,Nat.add_zero]
  constructor
  · intro hq'
    have := hq' env.predecessorAccountId env.blockTimestamp
    rw [hunlocked,hwithdrawn] at this
    simpa using this
  · intro hcover u t
    rw [hunlocked,hwithdrawn]
    by_cases hut : env.predecessorAccountId = u ∧ env.blockTimestamp ≤ t
    · obtain ⟨rfl,ht⟩ := hut
      simp only [ht,and_self,if_true]
      rw [withdrawn_now hk (hnow.trans ht)]
      rw [withdrawn_now hk hnow] at hcover
      exact hcover.trans (unlocked_mono lock h _ ht)
    · simp only [hut,if_false]
      exact hq u t

theorem next_locked_iff {lock : ℕ} (h : History) (a : Action) (hk : h.Kept lock)
    (hq : Locked lock h) (ha : Constant lock h a) :
    Locked lock (h.next a) ↔ Ripe lock h a := by
  cases a with
  | unstake env n =>
    cases ho : h.system.contract.unstake env n with
    | error e =>
      refine iff_of_true (next_locked hq ?_) ?_
      · simp only [next,System.movement,ho]
      · rintro ⟨r,hr⟩
        rw [ho] at hr
        cases hr
    | ok r =>
      have hmov : h.system.movement (.unstake env n) = .withdraw env.predecessorAccountId n := by
        simp only [System.movement,ho]
      have hnow : h.now ≤ env.blockTimestamp := ha.1
      rw [withdraw_locked_iff hk hq hnow hmov,withdrawn_now hk hnow]
      obtain ⟨-,st,hst,hlock⟩ := unstake_start ho
      rw [hk.lockPeriod] at hlock
      have hyoung := unlocked_add_young hk hst hlock
      have hstakes := hk.stakes env.predecessorAccountId
      unfold Ripe
      constructor
      · intro hle _
        omega
      · intro hle
        have := hle ⟨r,ho⟩
        omega
  | resolve env i result =>
    refine iff_of_true (next_locked hq ?_) trivial
    cases hmov : h.system.movement (.resolve env i result) with
    | withdraw u n =>
      simp only [System.movement] at hmov
      split at hmov
      · cases hmov
      · split at hmov
        · split at hmov <;> cases hmov
        · cases hmov
        · cases hmov
        · cases hmov
    | credit | pay | refuse | none => simp only [next,hmov]
  | stake | claimRewards | setRewardRate | setLockPeriod | transferOwnership =>
    exact iff_of_true (next_locked hq rfl) trivial

theorem new_kept (env : Env) (stakingToken : AccountId) (lock : ℕ) :
    (new env stakingToken lock).Kept lock where
  lockPeriod := rfl
  stakes _ := rfl
  withdrawals _ := rfl
  deposits _ := rfl
  depositsPast := by rintro d ⟨⟩
  withdrawalsPast := by rintro w ⟨⟩
  starts := by rintro u st ⟨⟩

end History

/-- Along a run with a constant lock period no account withdraws more than was
credited to it a lock period before exactly when each accepted unstake leaves
in the stake what is in flight, what was refused and the young top-ups. -/
theorem locked_throughout_iff (env : Env) (stakingToken : AccountId) (lock : ℕ)
    {actions : List Action} (h : AtomicRun.Along History.next (History.Constant lock) actions
      (History.new env stakingToken lock)) :
    AtomicRun.Throughout History.next (History.Locked lock) actions
      (History.new env stakingToken lock) ↔
    AtomicRun.Along History.next (History.Ripe lock) actions
      (History.new env stakingToken lock) :=
  AtomicRun.throughout_iff_along_of History.next_kept History.next_locked_iff
    (History.new_kept env stakingToken lock) (fun _ _ => Nat.le_refl 0) h

def lateTopUp (amount : ℕ) : List Action := [
  .stake (envAt "alice.near" 1) 1000,
  .resolve (envAt "farm.near" 2) 0 .successful,
  .stake (envAt "alice.near" 2592000000000002) 500,
  .resolve (envAt "farm.near" 2592000000000003) 0 .successful,
  .unstake (envAt "alice.near" 2592000000000004) amount]

theorem locked_throughout_iff_lateTopUp :
    AtomicRun.Throughout History.next (History.Locked defaultLockPeriod) (lateTopUp 1000)
      (History.new (envAt "owner.near" 0) "diamond.near" defaultLockPeriod) := by
  refine (locked_throughout_iff (envAt "owner.near" 0) "diamond.near" defaultLockPeriod ?_).mpr ?_
  · refine ⟨⟨by decide,rfl⟩,⟨by decide,rfl⟩,⟨by decide,rfl⟩,⟨by decide,rfl⟩,⟨by decide,rfl⟩,
      trivial⟩
  · refine ⟨trivial,trivial,trivial,trivial,?_,trivial⟩
    intro _
    decide

theorem top_up_withdrawn_early :
    AtomicRun.Along History.next (History.Constant defaultLockPeriod) (lateTopUp 1500)
      (History.new (envAt "owner.near" 0) "diamond.near" defaultLockPeriod) ∧
    ¬AtomicRun.Throughout History.next (History.Locked defaultLockPeriod) (lateTopUp 1500)
      (History.new (envAt "owner.near" 0) "diamond.near" defaultLockPeriod) := by
  constructor
  · refine ⟨⟨by decide,rfl⟩,⟨by decide,rfl⟩,⟨by decide,rfl⟩,⟨by decide,rfl⟩,⟨by decide,rfl⟩,
      trivial⟩
  · intro h
    have hend := AtomicRun.throughout_last h "alice.near" 2592000000000004
    revert hend
    decide

end DiamondBot.Farming
