import DiamondBot.Mining.RewardConservation

/-!
# How much is emitted in all

Every account accrues the full rate on its own cursor, so the total credited
is a sum over the accounts that have ever updated. It is bounded by the rate
for the blocks since deployment once for each of them, and no better.
-/

set_option autoImplicit false

namespace DiamondBot.DiamondMining
open NearRuntime Library

def System.creditedTotal (s : System) : ℕ :=
  KeyedTotal.total (fun _ n => n) s.contract.rewards+dueTotal s.inflight+dueTotal s.paid

def worth (rate createdAt : ℕ) (_ : AccountId) (l : ℕ) : ℕ := rate*(l-createdAt)

def System.marked (rate createdAt : ℕ) (s : System) : ℕ :=
  KeyedTotal.total (worth rate createdAt) s.contract.lastUpdate

theorem worth_cursor (s : DiamondMining) (rate : ℕ) (u : AccountId) :
    KeyedTotal.share (worth rate s.lastRewardBlock) s.lastUpdate u =
      rate*(s.cursor u-s.lastRewardBlock) := by
  unfold KeyedTotal.share cursor
  cases s.lastUpdate.lookup u with
  | none => simp
  | some l => rfl

theorem accrued_marks {s c : DiamondMining} {env : Env} (h : Accrued s env c)
    (hc : s.lastRewardBlock ≤ s.cursor env.predecessorAccountId) :
    KeyedTotal.Gains (worth s.rewardRate s.lastRewardBlock) env.predecessorAccountId
      ((env.blockHeight-s.cursor env.predecessorAccountId)*s.rewardRate)
      s.lastUpdate c.lastUpdate := by
  have hle := accrued_reached h
  cases h with
  | none h => simp [KeyedTotal.Gains,h]
  | some h =>
    apply KeyedTotal.gains_insert
    rw [worth_cursor]
    exact credited_split _ hc hle

theorem dueTotal_append (p : Claim) (claims : List Claim) :
    dueTotal (claims++[p]) = dueTotal claims+p.amount := by
  simp [dueTotal]

theorem dueTotal_eraseIdx {claims : List Claim} {i : ℕ} {p : Claim} (h : claims[i]? = some p) :
    p.amount+dueTotal (claims.eraseIdx i) = dueTotal claims :=
  KeyedTotal.sum_eraseIdx _ _ i p h

/-- What is credited in a step is what the moved cursors are worth. -/
theorem effect_marked {s s' : System} {a : Action} {rate createdAt : ℕ}
    (hs : Sound rate createdAt s)
    (hroom : ∀ (i : ℕ) (p : Claim), s.inflight[i]? = some p →
      s.contract.rewardOf p.userId+p.amount < 2^128)
    (hq : s.creditedTotal = s.marked rate createdAt) (h : Effect s a s') :
    s'.creditedTotal = s'.marked rate createdAt := by
  have hr := hs.constantRate
  have hb := hs.fixedBlock
  have hc := (hs.cursor a.env.predecessorAccountId).1
  subst hr hb
  have hgain : ∀ c, Accrued s.contract a.env c →
      KeyedTotal.total (fun _ n => n) c.rewards+dueTotal s.inflight+dueTotal s.paid =
        KeyedTotal.total (worth s.contract.rewardRate s.contract.lastRewardBlock)
          c.lastUpdate := by
    intro c accrued
    have h₁ := (accrued_rewards accrued).2
    have h₂ := (accrued_marks accrued hc).2
    simp only [System.creditedTotal,System.marked] at hq
    omega
  cases h with
  | quiet c rewards lastUpdate steady =>
    simp only [System.creditedTotal,System.marked,rewards,lastUpdate] at hq ⊢
    exact hq
  | accrue c accrued => exact hgain c accrued
  | claim c accrued =>
    have htotal := hgain c accrued
    have hmoved := KeyedTotal.total_insert (fun _ n => n) c.rewards
      a.env.predecessorAccountId 0
    rw [← rewardOf_eq] at hmoved
    simp only [System.creditedTotal,System.marked,dueTotal_append]
    omega
  | pay i p position =>
    have hsum := dueTotal_eraseIdx position
    simp only [System.creditedTotal,System.marked,dueTotal_append] at hq ⊢
    omega
  | refund i p position =>
    have hsum := dueTotal_eraseIdx position
    have hmoved := KeyedTotal.total_insert (fun _ n => n) s.contract.rewards p.userId
      (s.contract.rewardOf p.userId+p.amount)
    rw [← rewardOf_eq] at hmoved
    simp only [System.creditedTotal,System.marked] at hq ⊢
    omega
  | lost i p position overflow =>
    have := hroom i p position
    omega

def Emitted (rate createdAt : ℕ) (s : System) : Prop :=
  Sound rate createdAt s ∧ s.creditedTotal = s.marked rate createdAt

theorem next_emitted {rate createdAt : ℕ} (hrate : rate ≤ 2^64) (s : System) (a : Action)
    (hs : Emitted rate createdAt s) (h : s.Timely a ∧ s.Steady a) :
    Emitted rate createdAt (s.next a) :=
  ⟨next_sound hrate s a hs.1 h,effect_marked hs.1
    (fun _ _ hp => refund_room hrate hs.1 hp) hs.2 (next_effect s a)⟩

theorem emitted_le {rate createdAt height : ℕ} {s : System} (hs : Emitted rate createdAt s)
    (hh : s.now ≤ height) :
    s.creditedTotal ≤ rate*(height-createdAt)*s.contract.lastUpdate.keys.length := by
  rw [hs.2,Nat.mul_comm]
  apply KeyedTotal.total_le
  intro u l hl
  have hcursor := (hs.1.cursor u).2
  have hl' : s.contract.cursor u = l := by simp [cursor,hl]
  apply Nat.mul_le_mul_left
  omega

/-- By any block, a steady run has credited at most the rate for the blocks
since deployment, once for each account that has updated. -/
theorem emission_le (env : Env) (diamondToken : AccountId) {actions : List Action}
    (htimely : AtomicRun.Along System.next System.Timely actions
      (System.new env diamondToken))
    (hsteady : AtomicRun.Along System.next System.Steady actions
      (System.new env diamondToken)) {height : ℕ}
    (hheight : (AtomicRun.run System.next actions (System.new env diamondToken)).now ≤ height) :
    (AtomicRun.run System.next actions (System.new env diamondToken)).creditedTotal ≤
      (AtomicRun.run System.next actions
          (System.new env diamondToken)).contract.rewardRate*(height-env.blockHeight)*
        (AtomicRun.run System.next actions
          (System.new env diamondToken)).contract.lastUpdate.keys.length := by
  have hrun := AtomicRun.run_invariant_along (next_emitted (by decide))
    ⟨new_sound env diamondToken,rfl⟩ (AtomicRun.along_and htimely hsteady)
  rw [hrun.1.constantRate]
  exact emitted_le hrun hheight

def twoAccounts : List Action := [
  .updateRewards (envAt "alice.near" 11),
  .updateRewards (envAt "bob.near" 11)]

theorem twoAccounts_timely : AtomicRun.Along System.next System.Timely twoAccounts
    (System.new (envAt "owner.near" 1) "diamond.near") := by
  simp [twoAccounts,AtomicRun.Along,System.Timely,System.next,Action.env,envAt,System.new]

theorem twoAccounts_steady : AtomicRun.Along System.next System.Steady twoAccounts
    (System.new (envAt "owner.near" 1) "diamond.near") := by
  simp [twoAccounts,AtomicRun.Along,System.Steady]

theorem emission_le_twoAccounts :
    (AtomicRun.run System.next twoAccounts
        (System.new (envAt "owner.near" 1) "diamond.near")).creditedTotal ≤
      (AtomicRun.run System.next twoAccounts
          (System.new (envAt "owner.near" 1) "diamond.near")).contract.rewardRate*(11-1)*
        (AtomicRun.run System.next twoAccounts
          (System.new (envAt "owner.near" 1) "diamond.near")).contract.lastUpdate.keys.length :=
  emission_le (envAt "owner.near" 1) "diamond.near" twoAccounts_timely twoAccounts_steady le_rfl

/-- Both are credited the full rate for the ten blocks. -/
theorem two_accounts_exceed_rate :
    AtomicRun.Along System.next System.Timely twoAccounts
      (System.new (envAt "owner.near" 1) "diamond.near") ∧
    AtomicRun.Along System.next System.Steady twoAccounts
      (System.new (envAt "owner.near" 1) "diamond.near") ∧
    ¬(AtomicRun.run System.next twoAccounts
        (System.new (envAt "owner.near" 1) "diamond.near")).creditedTotal ≤
      (AtomicRun.run System.next twoAccounts
        (System.new (envAt "owner.near" 1) "diamond.near")).contract.rewardRate*(11-1) :=
  ⟨twoAccounts_timely,twoAccounts_steady,by decide⟩

end DiamondBot.DiamondMining
