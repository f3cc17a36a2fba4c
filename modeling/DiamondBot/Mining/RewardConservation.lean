import DiamondBot.Mining.MiningEffects
import DiamondBot.Library.Escrow

/-!
# No block is paid twice or lost

Under a constant rate each account is an escrow: the rate times the blocks its
cursor has moved is what it was credited, and every amount credited is still
accrued, in flight in a claim, or minted. The bound on block heights keeps all
amounts inside their type, so a failed claim always finds room to come back.
-/

set_option autoImplicit false

namespace DiamondBot.DiamondMining
open NearRuntime Library

def System.accounts (rate createdAt : ℕ) (s : System) : Escrow.Accounts AccountId where
  available := s.contract.rewardOf
  pending u := dueTo u s.inflight
  paid u := dueTo u s.paid
  credited u := rate*(s.contract.cursor u-createdAt)

/-- The invariant of steady runs: cursors lie between the deployment and the
current block, and every account of the escrow is conserved. -/
structure Sound (rate createdAt : ℕ) (s : System) : Prop where
  constantRate : s.contract.rewardRate = rate
  fixedBlock : s.contract.lastRewardBlock = createdAt
  cursor : ∀ u, createdAt ≤ s.contract.cursor u ∧ s.contract.cursor u ≤ s.now
  now_lt : s.now < 2^64
  conserved : Escrow.Conserved (s.accounts rate createdAt)

theorem rewardOf_eq (s : DiamondMining) (u : AccountId) :
    s.rewardOf u = KeyedTotal.share (fun _ n => n) s.rewards u := by
  unfold rewardOf KeyedTotal.share
  cases s.rewards.lookup u <;> rfl

theorem gains_rewardOf {s c : DiamondMining} {u : AccountId} {n : ℕ}
    (h : KeyedTotal.Gains (fun _ n => n) u n s.rewards c.rewards) :
    Escrow.Adds u n s.rewardOf c.rewardOf := by
  intro v
  rw [rewardOf_eq,rewardOf_eq]
  exact h.1 v

theorem claim_due (p : Claim) (v : AccountId) :
    p.due v = if v = p.userId then p.amount else 0 := rfl

theorem dueTo_append (p : Claim) (claims : List Claim) :
    Escrow.Adds p.userId p.amount (fun u => dueTo u claims)
      (fun u => dueTo u (claims++[p])) := by
  intro v
  simp [dueTo,claim_due]

theorem dueTo_eraseIdx {claims : List Claim} {i : ℕ} {p : Claim} (h : claims[i]? = some p) :
    Escrow.Adds p.userId p.amount (fun u => dueTo u (claims.eraseIdx i))
      (fun u => dueTo u claims) := by
  intro v
  have hsum := KeyedTotal.sum_eraseIdx (Claim.due v) claims i p h
  simp only [dueTo,← claim_due]
  omega

theorem dispatched_rewards (c : DiamondMining) (u : AccountId) :
    Escrow.Adds u (c.rewardOf u)
      ({ c with rewards := c.rewards.insert u 0 } : DiamondMining).rewardOf c.rewardOf := by
  apply gains_rewardOf
  apply KeyedTotal.gains_of_insert
  rw [rewardOf_eq]
  omega

theorem restored_rewards (c : DiamondMining) (u : AccountId) (n : ℕ) :
    Escrow.Adds u n c.rewardOf
      ({ c with rewards := c.rewards.insert u (c.rewardOf u+n) } : DiamondMining).rewardOf := by
  apply gains_rewardOf
  apply KeyedTotal.gains_insert
  rw [rewardOf_eq]

theorem credited_split (rate : ℕ) {createdAt cursor block : ℕ} (h : createdAt ≤ cursor)
    (h' : cursor ≤ block) :
    rate*(block-createdAt) = rate*(cursor-createdAt)+(block-cursor)*rate := by
  rw [Nat.mul_comm (block-cursor),← Nat.mul_add]
  congr 1
  omega

theorem accrued_credits {s c : DiamondMining} {env : Env} {createdAt : ℕ}
    (h : Accrued s env c) (hc : ∀ u, createdAt ≤ s.cursor u) :
    Escrow.Adds env.predecessorAccountId
      ((env.blockHeight-s.cursor env.predecessorAccountId)*s.rewardRate)
      (fun u => s.rewardRate*(s.cursor u-createdAt))
      (fun u => s.rewardRate*(c.cursor u-createdAt)) := by
  intro v
  simp only [accrued_cursor h v]
  by_cases hv : v = env.predecessorAccountId
  · rw [if_pos hv,if_pos hv,hv]
    exact credited_split _ (hc _) (accrued_reached h)
  · rw [if_neg hv,if_neg hv,Nat.add_zero]

/-- Each change of a steady run is one or two steps of the escrow. -/
theorem effect_escrow {s s' : System} {a : Action} {rate createdAt : ℕ}
    (hs : Sound rate createdAt s) (hst : s.Steady a)
    (hroom : ∀ (i : ℕ) (p : Claim), s.inflight[i]? = some p →
      s.contract.rewardOf p.userId+p.amount < 2^128)
    (h : Effect s a s') :
    Escrow.Reaches (s.accounts rate createdAt) (s'.accounts rate createdAt) := by
  have hr := hs.constantRate
  have hc := fun u => (hs.cursor u).1
  subst hr
  have hcredit : ∀ c, Accrued s.contract a.env c → Escrow.Step
      (s.accounts s.contract.rewardRate createdAt)
      (System.accounts s.contract.rewardRate createdAt { s with contract := c }) := by
    intro c accrued
    exact .credit _ _ (gains_rewardOf (accrued_rewards accrued)) rfl rfl
      (accrued_credits accrued hc)
  cases h with
  | quiet c rewards lastUpdate steady =>
    have he : System.accounts s.contract.rewardRate createdAt
        { s with
          contract := c
          now := a.env.blockHeight } = s.accounts s.contract.rewardRate createdAt := by
      simp only [System.accounts,Escrow.Accounts.mk.injEq,true_and]
      constructor
      · ext u
        simp only [rewardOf,rewards]
      · ext u
        simp only [cursor,lastUpdate,(steady hst).2]
    rw [he]
  | accrue c accrued => exact .single (hcredit c accrued)
  | claim c accrued =>
    apply Relation.ReflTransGen.head (hcredit c accrued)
    apply Relation.ReflTransGen.single
    exact .dispatch a.env.predecessorAccountId (c.rewardOf a.env.predecessorAccountId)
      (dispatched_rewards c _) (dueTo_append ⟨_,_,_⟩ s.inflight) rfl rfl
  | pay i p position =>
    exact .single (.confirm p.userId p.amount rfl (dueTo_eraseIdx position)
      (dueTo_append p s.paid) rfl)
  | refund i p position =>
    exact .single (.refund p.userId p.amount (restored_rewards s.contract p.userId p.amount)
      (dueTo_eraseIdx position) rfl rfl)
  | lost i p position overflow =>
    have := hroom i p position
    omega

theorem effect_contract {s s' : System} {a : Action} (hst : s.Steady a) (h : Effect s a s') :
    s'.contract.rewardRate = s.contract.rewardRate ∧
      s'.contract.lastRewardBlock = s.contract.lastRewardBlock ∧
      s'.now = a.env.blockHeight := by
  cases h with
  | quiet c rewards lastUpdate steady => exact ⟨(steady hst).1,(steady hst).2,rfl⟩
  | accrue c accrued => exact ⟨(accrued_same accrued).1,(accrued_same accrued).2,rfl⟩
  | claim c accrued => exact ⟨(accrued_same accrued).1,(accrued_same accrued).2,rfl⟩
  | pay | refund | lost => exact ⟨rfl,rfl,rfl⟩

theorem effect_cursor {s s' : System} {a : Action} (hst : s.Steady a) (h : Effect s a s')
    (u : AccountId) : s'.contract.cursor u = s.contract.cursor u ∨
      s'.contract.cursor u = a.env.blockHeight := by
  cases h with
  | quiet c rewards lastUpdate steady =>
    apply Or.inl
    simp only [cursor,lastUpdate,(steady hst).2]
  | accrue c accrued => exact accrued_moves u accrued
  | claim c accrued => exact (accrued_moves u accrued :)
  | pay | refund | lost => exact Or.inl rfl

theorem credit_lt {rate blocks : ℕ} (hrate : rate ≤ 2^64) (hblocks : blocks < 2^64) :
    rate*blocks < 2^128 := by
  calc
    rate*blocks ≤ 2^64*blocks := Nat.mul_le_mul_right _ hrate
    _ < 2^64*2^64 := Nat.mul_lt_mul_of_pos_left hblocks (by norm_num)
    _ = 2^128 := by norm_num

theorem sound_credited_lt {rate createdAt : ℕ} {s : System} (hrate : rate ≤ 2^64)
    (hs : Sound rate createdAt s) (u : AccountId) :
    rate*(s.contract.cursor u-createdAt) < 2^128 := by
  apply credit_lt hrate
  have := (hs.cursor u).2
  have := hs.now_lt
  omega

theorem refund_room {rate createdAt : ℕ} {s : System} (hrate : rate ≤ 2^64)
    (hs : Sound rate createdAt s) {i : ℕ} {p : Claim} (h : s.inflight[i]? = some p) :
    s.contract.rewardOf p.userId+p.amount < 2^128 := by
  have hlt := sound_credited_lt hrate hs p.userId
  have hcons := hs.conserved p.userId
  have hdue := dueTo_eraseIdx h p.userId
  simp only [System.accounts,if_true] at hcons hdue
  omega

theorem next_sound {rate createdAt : ℕ} (hrate : rate ≤ 2^64) (s : System) (a : Action)
    (hs : Sound rate createdAt s) (h : s.Timely a ∧ s.Steady a) :
    Sound rate createdAt (s.next a) := by
  have he := next_effect s a
  have hsame := effect_contract h.2 he
  constructor
  · exact hsame.1.trans hs.constantRate
  · exact hsame.2.1.trans hs.fixedBlock
  · intro u
    have hold := hs.cursor u
    have htime : s.now ≤ a.env.blockHeight := h.1
    rw [hsame.2.2]
    rcases effect_cursor h.2 he u with hu | hu
    · rw [hu]
      omega
    · rw [hu]
      omega
  · rw [hsame.2.2]
    exact a.env.blockHeight_lt
  · exact Escrow.reaches_conserved hs.conserved
      (effect_escrow hs h.2 (fun i p hp => refund_room hrate hs hp) he)

theorem fresh_sound {s : System} (hrewards : s.contract.rewards = ∅)
    (hlast : s.contract.lastUpdate = ∅) (hinflight : s.inflight = []) (hpaid : s.paid = [])
    (hnow : s.contract.lastRewardBlock ≤ s.now) (hlt : s.now < 2^64) :
    Sound s.contract.rewardRate s.contract.lastRewardBlock s := by
  have hcursor : ∀ u, s.contract.cursor u = s.contract.lastRewardBlock := by
    intro u
    simp [cursor,hlast]
  constructor
  · rfl
  · rfl
  · intro u
    rw [hcursor u]
    exact ⟨le_rfl,hnow⟩
  · exact hlt
  · intro u
    simp [System.accounts,hcursor,rewardOf,hrewards,hinflight,hpaid,dueTo]

/-! ## What a claim mints -/

theorem pendingReward_value {s : DiamondMining} {env : Env} {u : AccountId}
    (hle : s.cursor u ≤ env.blockHeight)
    (hroom : s.rewardOf u+(env.blockHeight-s.cursor u)*s.rewardRate < 2^128) :
    s.getPendingReward env u =
      .ok (s.rewardOf u+(env.blockHeight-s.cursor u)*s.rewardRate) := by
  have hsub : Checked.sub env.blockHeight (s.cursor u) = .ok (env.blockHeight-s.cursor u) :=
    Checked.sub_ok.mpr ⟨hle,rfl⟩
  have hmul : mulU128 (env.blockHeight-s.cursor u) s.rewardRate =
      .ok ((env.blockHeight-s.cursor u)*s.rewardRate) := Checked.mul_ok.mpr ⟨by omega,rfl⟩
  have hadd : addU128 (s.rewardOf u) ((env.blockHeight-s.cursor u)*s.rewardRate) =
      .ok (s.rewardOf u+(env.blockHeight-s.cursor u)*s.rewardRate) :=
    Checked.add_ok.mpr ⟨hroom,rfl⟩
  simp only [getPendingReward,hsub,bind,Except.bind,hmul,hadd]
  by_cases hpos : 0 < env.blockHeight-s.cursor u
  · rw [if_pos hpos]
  · rw [if_neg hpos,show env.blockHeight-s.cursor u = 0 by omega,Nat.zero_mul]
    rfl

/-- With room in the type the update goes through and pays the same amount. -/
theorem updateRewards_value {s : DiamondMining} {env : Env}
    (hle : s.cursor env.predecessorAccountId ≤ env.blockHeight)
    (hroom : s.rewardOf env.predecessorAccountId+
      (env.blockHeight-s.cursor env.predecessorAccountId)*s.rewardRate < 2^128) :
    ∃ c, s.updateRewards env = .ok c ∧ c.diamondToken = s.diamondToken ∧
      c.rewardOf env.predecessorAccountId = s.rewardOf env.predecessorAccountId+
        (env.blockHeight-s.cursor env.predecessorAccountId)*s.rewardRate := by
  have hsub : Checked.sub env.blockHeight (s.cursor env.predecessorAccountId) =
      .ok (env.blockHeight-s.cursor env.predecessorAccountId) := Checked.sub_ok.mpr ⟨hle,rfl⟩
  have hmul : mulU128 (env.blockHeight-s.cursor env.predecessorAccountId) s.rewardRate =
      .ok ((env.blockHeight-s.cursor env.predecessorAccountId)*s.rewardRate) :=
    Checked.mul_ok.mpr ⟨by omega,rfl⟩
  have hadd : addU128 (s.rewardOf env.predecessorAccountId)
      ((env.blockHeight-s.cursor env.predecessorAccountId)*s.rewardRate) =
      .ok (s.rewardOf env.predecessorAccountId+
        (env.blockHeight-s.cursor env.predecessorAccountId)*s.rewardRate) :=
    Checked.add_ok.mpr ⟨hroom,rfl⟩
  simp only [updateRewards,hsub,bind,Except.bind,hmul,hadd]
  by_cases hpos : 0 < env.blockHeight-s.cursor env.predecessorAccountId
  · rw [if_pos hpos]
    refine ⟨_,rfl,rfl,?_⟩
    simp [rewardOf]
  · rw [if_neg hpos]
    refine ⟨s,rfl,rfl,?_⟩
    rw [show env.blockHeight-s.cursor env.predecessorAccountId = 0 by omega]
    omega

def PendingAgrees (s : DiamondMining) (env : Env) : Prop :=
  ∃ n, s.getPendingReward env env.predecessorAccountId = .ok n ∧
    (0 < n → ∃ c, s.claimRewards env =
      .ok (c,⟨s.diamondToken,env.predecessorAccountId,n⟩)) ∧
    (n = 0 → s.claimRewards env = .error "No rewards to claim")

theorem pending_agrees {s : DiamondMining} {env : Env}
    (hle : s.cursor env.predecessorAccountId ≤ env.blockHeight)
    (hroom : s.rewardOf env.predecessorAccountId+
      (env.blockHeight-s.cursor env.predecessorAccountId)*s.rewardRate < 2^128) :
    PendingAgrees s env := by
  refine ⟨_,pendingReward_value hle hroom,?_⟩
  obtain ⟨c,hupdate,htoken,hreward⟩ := updateRewards_value hle hroom
  rw [← hreward,← htoken]
  constructor
  · intro hpos
    refine ⟨{ c with rewards := c.rewards.insert env.predecessorAccountId 0 },?_⟩
    simp only [claimRewards,hupdate,bind,Except.bind,Checked.require,if_pos hpos]
    rfl
  · intro hzero
    have hno : ¬0 < c.rewardOf env.predecessorAccountId := by omega
    simp only [claimRewards,hupdate,bind,Except.bind,Checked.require,if_neg hno]

theorem sound_pending {rate createdAt : ℕ} {s : System} (hrate : rate ≤ 2^64)
    (hs : Sound rate createdAt s) {env : Env} (htime : s.now ≤ env.blockHeight) :
    PendingAgrees s.contract env := by
  have hcursor := hs.cursor env.predecessorAccountId
  apply pending_agrees (hcursor.2.trans htime)
  have hcons := hs.conserved env.predecessorAccountId
  have hsplit := credited_split rate hcursor.1 (hcursor.2.trans htime)
  have hlt : rate*(env.blockHeight-createdAt) < 2^128 := by
    apply credit_lt hrate
    have := env.blockHeight_lt
    omega
  simp only [System.accounts] at hcons
  rw [hs.constantRate]
  omega

/-- What the contract owes its users after a steady run from a deployment. -/
structure RewardsIntact (createdAt : ℕ) (s : System) : Prop where
  conserved : ∀ u l, s.contract.lastUpdate.lookup u = some l → createdAt ≤ l ∧
    s.contract.rewardOf u+dueTo u s.inflight+dueTo u s.paid =
      s.contract.rewardRate*(l-createdAt)
  noUnderflow : ∀ env : Env, s.now ≤ env.blockHeight →
    s.contract.cursor env.predecessorAccountId ≤ env.blockHeight
  pending : ∀ env : Env, s.now ≤ env.blockHeight → PendingAgrees s.contract env

theorem sound_intact {rate createdAt : ℕ} {s : System} (hrate : rate ≤ 2^64)
    (hs : Sound rate createdAt s) : RewardsIntact createdAt s := by
  constructor
  · intro u l hl
    have hcursor : s.contract.cursor u = l := by simp [cursor,hl]
    have hcons := hs.conserved u
    have hle := (hs.cursor u).1
    simp only [System.accounts,hcursor] at hcons hle
    rw [hs.constantRate]
    exact ⟨hle,hcons⟩
  · exact fun env htime => (hs.cursor env.predecessorAccountId).2.trans htime
  · exact fun env htime => sound_pending hrate hs htime

theorem new_sound (env : Env) (diamondToken : AccountId) :
    Sound 10000000000000000000 env.blockHeight (System.new env diamondToken) :=
  @fresh_sound (System.new env diamondToken) rfl rfl rfl rfl le_rfl env.blockHeight_lt

theorem run_sound (env : Env) (diamondToken : AccountId) {actions : List Action}
    (htimely : AtomicRun.Along System.next System.Timely actions
      (System.new env diamondToken))
    (hsteady : AtomicRun.Along System.next System.Steady actions
      (System.new env diamondToken)) :
    Sound 10000000000000000000 env.blockHeight
      (AtomicRun.run System.next actions (System.new env diamondToken)) :=
  AtomicRun.run_invariant_along (next_sound (by decide)) (new_sound env diamondToken)
    (AtomicRun.along_and htimely hsteady)

/-- Along every run with block heights that do not decrease and a constant
rate, no reward is lost or paid twice and the view agrees with the claim. -/
theorem rewards_intact (env : Env) (diamondToken : AccountId) {actions : List Action}
    (htimely : AtomicRun.Along System.next System.Timely actions
      (System.new env diamondToken))
    (hsteady : AtomicRun.Along System.next System.Steady actions
      (System.new env diamondToken)) :
    RewardsIntact env.blockHeight
      (AtomicRun.run System.next actions (System.new env diamondToken)) :=
  sound_intact (by decide) (run_sound env diamondToken htimely hsteady)

def envAt (accountId : AccountId) (block : UInt64) : Env :=
  { firstBlock accountId "mining.near" with
    blockHeight := block.toNat
    blockHeight_lt := block.toNat_lt }

def failedClaim : List Action := [
  .claimRewards (envAt "alice.near" 5),
  .claimRewards (envAt "alice.near" 7),
  .resolve (envAt "mining.near" 8) 0 .failed,
  .resolve (envAt "mining.near" 9) 0 .successful]

theorem rewards_intact_failedClaim : RewardsIntact 1
    (AtomicRun.run System.next failedClaim
      (System.new (envAt "owner.near" 1) "diamond.near")) := by
  apply @rewards_intact (envAt "owner.near" 1) "diamond.near" failedClaim
  · simp [failedClaim,AtomicRun.Along,System.Timely,System.next,Action.env,envAt,System.new]
  · simp [failedClaim,AtomicRun.Along,System.Steady]

end DiamondBot.DiamondMining
