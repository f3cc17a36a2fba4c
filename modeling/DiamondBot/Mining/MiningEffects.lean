import DiamondBot.Mining.MiningSystem

/-!
# What an action does to rewards and claims

An accepted update either finds no new block or pays the account up to the
current one. Every action of the system is then one of a few changes: rewards
accrue, a claim leaves, a claim is minted, or a failed claim is put back.
-/

set_option autoImplicit false

namespace DiamondBot.DiamondMining
open NearRuntime Library

/-- An accepted update of the caller's rewards. -/
inductive Accrued (s : DiamondMining) (env : Env) : DiamondMining → Prop
  | none (h : s.cursor env.predecessorAccountId = env.blockHeight) : Accrued s env s
  | some (h : s.cursor env.predecessorAccountId < env.blockHeight) :
      Accrued s env { s with
        rewards := s.rewards.insert env.predecessorAccountId
          (s.rewardOf env.predecessorAccountId+
            (env.blockHeight-s.cursor env.predecessorAccountId)*s.rewardRate)
        lastUpdate := s.lastUpdate.insert env.predecessorAccountId env.blockHeight
        lastUpdateTime := env.systemTime }

theorem updateRewards_ok {s c : DiamondMining} {env : Env} (h : s.updateRewards env = .ok c) :
    Accrued s env c := by
  obtain ⟨blocks,hsub,h⟩ := Checked.bind_ok.mp h
  obtain ⟨hle,rfl⟩ := Checked.sub_ok.mp hsub
  by_cases hpos : 0 < env.blockHeight-s.cursor env.predecessorAccountId
  · rw [if_pos hpos] at h
    obtain ⟨_,hmul,h⟩ := Checked.bind_ok.mp h
    obtain ⟨_,hadd,h⟩ := Checked.bind_ok.mp h
    cases h
    rw [(Checked.add_ok.mp hadd).2,(Checked.mul_ok.mp hmul).2]
    exact .some (by omega)
  · rw [if_neg hpos] at h
    cases h
    exact .none (by omega)

theorem claimRewards_ok {s : DiamondMining} {env : Env} {r : DiamondMining × Claim}
    (h : s.claimRewards env = .ok r) : ∃ c, Accrued s env c ∧
      r = ({ c with rewards := c.rewards.insert env.predecessorAccountId 0 },
        ⟨c.diamondToken,env.predecessorAccountId,c.rewardOf env.predecessorAccountId⟩) := by
  obtain ⟨c,hc,h⟩ := Checked.bind_ok.mp h
  obtain ⟨_,_,h⟩ := Checked.bind_ok.mp h
  cases h
  exact ⟨c,updateRewards_ok hc,rfl⟩

theorem accrued_rewards {s c : DiamondMining} {env : Env} (h : Accrued s env c) :
    KeyedTotal.Gains (fun _ n => n) env.predecessorAccountId
      ((env.blockHeight-s.cursor env.predecessorAccountId)*s.rewardRate)
      s.rewards c.rewards := by
  cases h with
  | none h => simp [KeyedTotal.Gains,h]
  | some h =>
    apply KeyedTotal.gains_insert
    simp only [rewardOf,KeyedTotal.share]
    cases s.rewards.lookup env.predecessorAccountId <;> rfl

theorem accrued_cursor {s c : DiamondMining} {env : Env} (h : Accrued s env c)
    (v : AccountId) : c.cursor v =
      if v = env.predecessorAccountId then env.blockHeight else s.cursor v := by
  cases h with
  | none h =>
    by_cases hv : v = env.predecessorAccountId
    · rw [hv,if_pos rfl,h]
    · rw [if_neg hv]
  | some h =>
    by_cases hv : v = env.predecessorAccountId
    · rw [hv]
      simp [cursor]
    · simp [cursor,hv,AList.lookup_insert_ne hv]

theorem accrued_moves {s c : DiamondMining} {env : Env} (u : AccountId) (h : Accrued s env c) :
    c.cursor u = s.cursor u ∨ c.cursor u = env.blockHeight := by
  rw [accrued_cursor h u]
  by_cases hu : u = env.predecessorAccountId
  · exact Or.inr (if_pos hu)
  · exact Or.inl (if_neg hu)

theorem accrued_reached {s c : DiamondMining} {env : Env} (h : Accrued s env c) :
    s.cursor env.predecessorAccountId ≤ env.blockHeight := by
  cases h with
  | none h => exact h.le
  | some h => exact h.le

theorem accrued_same {s c : DiamondMining} {env : Env} (h : Accrued s env c) :
    c.rewardRate = s.rewardRate ∧ c.lastRewardBlock = s.lastRewardBlock := by
  cases h with
  | none => exact ⟨rfl,rfl⟩
  | some => exact ⟨rfl,rfl⟩

theorem setRewardRate_ok {s s' : DiamondMining} {env : Env} {r : ℕ}
    (h : s.setRewardRate env r = .ok s') :
    env.predecessorAccountId = s.ownerId ∧ s' = { s with rewardRate := r } := by
  obtain ⟨_,howner,h⟩ := Checked.bind_ok.mp h
  cases h
  exact ⟨Checked.require_ok.mp howner,rfl⟩

theorem forceUpdate_ok {s s' : DiamondMining} {env : Env}
    (h : s.forceUpdateGlobalReward env = .ok s') :
    env.predecessorAccountId = s.ownerId ∧
      s' = { s with lastRewardBlock := env.blockHeight } := by
  obtain ⟨_,howner,h⟩ := Checked.bind_ok.mp h
  cases h
  exact ⟨Checked.require_ok.mp howner,rfl⟩

theorem setDiamondToken_ok {s s' : DiamondMining} {env : Env} {diamondToken : AccountId}
    (h : s.setDiamondToken env diamondToken = .ok s') : s' = { s with diamondToken } := by
  obtain ⟨_,_,h⟩ := Checked.bind_ok.mp h
  cases h
  rfl

theorem transferOwnership_ok {s s' : DiamondMining} {env : Env} {newOwner : AccountId}
    (h : s.transferOwnership env newOwner = .ok s') : s' = { s with ownerId := newOwner } := by
  obtain ⟨_,_,h⟩ := Checked.bind_ok.mp h
  cases h
  rfl

/-- What an outcome does: it finds no claim, confirms one, puts one back, or
loses one that does not fit. -/
theorem resolve_cases (s : System) (i : ℕ) (result : PromiseResult) :
    s.inflight[i]? = none ∧ s.resolve i result = s ∨
    ∃ p, s.inflight[i]? = some p ∧ (
      result = .successful ∧ s.resolve i result = { s with
        inflight := s.inflight.eraseIdx i
        paid := s.paid++[p] } ∨
      result = .failed ∧ s.contract.rewardOf p.userId+p.amount < 2^128 ∧
        s.resolve i result = { s with
          contract := { s.contract with
            rewards := s.contract.rewards.insert p.userId
              (s.contract.rewardOf p.userId+p.amount) }
          inflight := s.inflight.eraseIdx i } ∨
      result = .failed ∧ 2^128 ≤ s.contract.rewardOf p.userId+p.amount ∧
        s.resolve i result = { s with inflight := s.inflight.eraseIdx i }) := by
  unfold System.resolve
  cases h : s.inflight[i]? with
  | none => exact .inl ⟨rfl,rfl⟩
  | some p =>
    refine .inr ⟨p,rfl,?_⟩
    cases result with
    | successful => exact .inl ⟨rfl,rfl⟩
    | failed =>
      by_cases hroom : s.contract.rewardOf p.userId+p.amount < 2^128
      · have hadd : addU128 (s.contract.rewardOf p.userId) p.amount =
            .ok (s.contract.rewardOf p.userId+p.amount) := Checked.add_ok.mpr ⟨hroom,rfl⟩
        refine .inr (.inl ⟨rfl,hroom,?_⟩)
        simp only [claimRewardCallback,hadd,bind,Except.bind,pure,Except.pure]
      · have hadd : addU128 (s.contract.rewardOf p.userId) p.amount =
            .error "attempt to add with overflow" := if_neg hroom
        refine .inr (.inr ⟨rfl,not_lt.mp hroom,?_⟩)
        simp only [claimRewardCallback,hadd,bind,Except.bind]

inductive Effect (s : System) (a : Action) : System → Prop
  | quiet (c : DiamondMining) (rewards : c.rewards = s.contract.rewards)
      (lastUpdate : c.lastUpdate = s.contract.lastUpdate)
      (steady : s.Steady a → c.rewardRate = s.contract.rewardRate ∧
        c.lastRewardBlock = s.contract.lastRewardBlock) :
      Effect s a { s with
        contract := c
        now := a.env.blockHeight }
  | accrue (c : DiamondMining) (accrued : Accrued s.contract a.env c) :
      Effect s a { s with
        contract := c
        now := a.env.blockHeight }
  | claim (c : DiamondMining) (accrued : Accrued s.contract a.env c) :
      Effect s a { s with
        contract := { c with rewards := c.rewards.insert a.env.predecessorAccountId 0 }
        inflight := s.inflight++[⟨c.diamondToken,a.env.predecessorAccountId,
          c.rewardOf a.env.predecessorAccountId⟩]
        now := a.env.blockHeight }
  | pay (i : ℕ) (p : Claim) (position : s.inflight[i]? = some p) :
      Effect s a { s with
        inflight := s.inflight.eraseIdx i
        paid := s.paid++[p]
        now := a.env.blockHeight }
  | refund (i : ℕ) (p : Claim) (position : s.inflight[i]? = some p) :
      Effect s a { s with
        contract := { s.contract with
          rewards := s.contract.rewards.insert p.userId (s.contract.rewardOf p.userId+p.amount) }
        inflight := s.inflight.eraseIdx i
        now := a.env.blockHeight }
  | lost (i : ℕ) (p : Claim) (position : s.inflight[i]? = some p)
      (overflow : 2^128 ≤ s.contract.rewardOf p.userId+p.amount) :
      Effect s a { s with
        inflight := s.inflight.eraseIdx i
        now := a.env.blockHeight }

theorem waited_effect (s : System) (a : Action) :
    Effect s a { s with now := a.env.blockHeight } :=
  .quiet s.contract rfl rfl fun _ => ⟨rfl,rfl⟩

theorem setter_effect {s : System} {a : Action} {o : Outcome DiamondMining}
    (h : ∀ c, o = .ok c → c.rewards = s.contract.rewards ∧
      c.lastUpdate = s.contract.lastUpdate ∧ (s.Steady a →
        c.rewardRate = s.contract.rewardRate ∧
          c.lastRewardBlock = s.contract.lastRewardBlock)) :
    Effect s a { s.call (o.map fun c => (c,[])) with now := a.env.blockHeight } := by
  cases o with
  | error e => exact waited_effect s a
  | ok c =>
    obtain ⟨hrewards,hlast,hsteady⟩ := h c rfl
    have he := Effect.quiet c hrewards hlast hsteady
    simpa [System.call,Except.map] using he

theorem resolve_effect (s : System) (env : Env) (i : ℕ) (result : PromiseResult) :
    Effect s (.resolve env i result) (s.next (.resolve env i result)) := by
  simp only [System.next,System.act,Action.env]
  rcases resolve_cases s i result with ⟨_,h⟩ | ⟨p,hp,⟨_,h⟩ | ⟨_,_,h⟩ | ⟨_,hover,h⟩⟩
  · rw [h]
    exact waited_effect s (.resolve env i result)
  · rw [h]
    exact .pay i p hp
  · rw [h]
    exact .refund i p hp
  · rw [h]
    exact .lost i p hp hover

/-- Every action of the system is one of the listed changes. -/
theorem next_effect (s : System) (a : Action) : Effect s a (s.next a) := by
  cases a with
  | updateRewards env =>
    simp only [System.next,System.act]
    cases h : s.contract.updateRewards env with
    | error e => exact waited_effect s (.updateRewards env)
    | ok c =>
      have he := Effect.accrue (a := .updateRewards env) c (updateRewards_ok h)
      simpa [System.call,Except.map] using he
  | claimRewards env =>
    simp only [System.next,System.act]
    cases h : s.contract.claimRewards env with
    | error e => exact waited_effect s (.claimRewards env)
    | ok r =>
      obtain ⟨c,hc,rfl⟩ := claimRewards_ok h
      exact .claim (a := .claimRewards env) c hc
  | setRewardRate env rewardRate =>
    apply setter_effect
    intro c hc
    obtain ⟨howner,rfl⟩ := setRewardRate_ok hc
    exact ⟨rfl,rfl,fun hs => ⟨hs howner,rfl⟩⟩
  | forceUpdateGlobalReward env =>
    apply setter_effect
    intro c hc
    obtain ⟨howner,rfl⟩ := forceUpdate_ok hc
    exact ⟨rfl,rfl,fun hs => absurd howner hs⟩
  | setDiamondToken env diamondToken =>
    apply setter_effect
    intro c hc
    rw [setDiamondToken_ok hc]
    exact ⟨rfl,rfl,fun _ => ⟨rfl,rfl⟩⟩
  | transferOwnership env newOwner =>
    apply setter_effect
    intro c hc
    rw [transferOwnership_ok hc]
    exact ⟨rfl,rfl,fun _ => ⟨rfl,rfl⟩⟩
  | resolve env i result => exact resolve_effect s env i result

end DiamondBot.DiamondMining
