import DiamondBot.Mining.RewardConservation
import Mathlib.Algebra.BigOperators.Intervals

/-!
# Changes of the rate and of the shared default block

The rate is read only when an account is settled, so a new rate reaches back to
the account's cursor. The shared default block stands in for the cursor of an
account that has never been settled, and moving it forward forgets the blocks
in between. Both settings leave an account alone exactly when it has nothing
unsettled; then its reward is the sum over the blocks of the rate in force.
-/

set_option autoImplicit false

namespace DiamondBot.DiamondMining
open NearRuntime Library

/-! ## One setting -/

theorem pendingReward_ok {s : DiamondMining} {env : Env} {u : AccountId} {n : ℕ} :
    s.getPendingReward env u = .ok n ↔ s.cursor u ≤ env.blockHeight ∧
      (s.cursor u < env.blockHeight →
        s.rewardOf u+(env.blockHeight-s.cursor u)*s.rewardRate < 2^128) ∧
      n = s.rewardOf u+(env.blockHeight-s.cursor u)*s.rewardRate := by
  constructor
  · intro h
    obtain ⟨blocks,hsub,h⟩ := Checked.bind_ok.mp h
    obtain ⟨hle,rfl⟩ := Checked.sub_ok.mp hsub
    by_cases hpos : 0 < env.blockHeight-s.cursor u
    · rw [if_pos hpos] at h
      obtain ⟨_,hmul,hadd⟩ := Checked.bind_ok.mp h
      rw [(Checked.mul_ok.mp hmul).2] at hadd
      have hsum := Checked.add_ok.mp hadd
      exact ⟨hle,fun _ => hsum.1,hsum.2⟩
    · rw [if_neg hpos] at h
      cases h
      rw [show env.blockHeight-s.cursor u = 0 by omega]
      exact ⟨hle,fun hlt => by omega,by omega⟩
  · rintro ⟨hle,hroom,rfl⟩
    by_cases hlt : s.cursor u < env.blockHeight
    · exact pendingReward_value hle (hroom hlt)
    · have hsub : Checked.sub env.blockHeight (s.cursor u) = .ok 0 :=
        Checked.sub_ok.mpr ⟨hle,by omega⟩
      simp only [getPendingReward,hsub,bind,Except.bind,lt_irrefl,if_false]
      rw [show env.blockHeight-s.cursor u = 0 by omega]
      simp [pure,Except.pure]

/-- A new rate leaves what the view shows alone exactly for a settled account. -/
theorem rate_pending_iff {s s' : DiamondMining} {env : Env} {r n : ℕ} {u : AccountId}
    (h : s.setRewardRate env r = .ok s') (hn : s.getPendingReward env u = .ok n) :
    s'.getPendingReward env u = .ok n ↔
      s.cursor u = env.blockHeight ∨ r = s.rewardRate := by
  obtain ⟨_,rfl⟩ := setRewardRate_ok h
  obtain ⟨hle,hroom,hvalue⟩ := pendingReward_ok.mp hn
  rw [pendingReward_ok]
  change s.cursor u ≤ env.blockHeight ∧ (s.cursor u < env.blockHeight →
    s.rewardOf u+(env.blockHeight-s.cursor u)*r < 2^128) ∧
      n = s.rewardOf u+(env.blockHeight-s.cursor u)*r ↔ _
  by_cases hlt : s.cursor u < env.blockHeight
  · have hpos : 0 < env.blockHeight-s.cursor u := by omega
    constructor
    · intro ⟨_,_,hnew⟩
      apply Or.inr
      apply Nat.eq_of_mul_eq_mul_left hpos
      omega
    · rintro (he | rfl)
      · omega
      · exact ⟨hle,hroom,hvalue⟩
  · have hzero : env.blockHeight-s.cursor u = 0 := by omega
    rw [hzero,Nat.zero_mul] at hvalue ⊢
    exact iff_of_true ⟨hle,fun hc => absurd hc hlt,hvalue⟩ (Or.inl (by omega))

/-- An account with a cursor of its own, or nothing accrued since the default. -/
def DefaultSettled (s : DiamondMining) (env : Env) (u : AccountId) : Prop :=
  (s.lastUpdate.lookup u).isSome ∨ s.lastRewardBlock ≤ env.blockHeight ∧
    (env.blockHeight-s.lastRewardBlock)*s.rewardRate = 0

theorem cursor_some {s : DiamondMining} {u : AccountId} (block : ℕ)
    (h : (s.lastUpdate.lookup u).isSome) :
    ({ s with lastRewardBlock := block } : DiamondMining).cursor u = s.cursor u := by
  obtain ⟨l,hl⟩ := Option.isSome_iff_exists.mp h
  simp [cursor,hl]

theorem cursor_none {s : DiamondMining} {u : AccountId}
    (h : (s.lastUpdate.lookup u).isSome = false) : s.cursor u = s.lastRewardBlock := by
  rw [Option.isSome_eq_false_iff,Option.isNone_iff_eq_none] at h
  simp [cursor,h]

/-- Moving the default block leaves what the view shows alone exactly for an
account with a cursor of its own or with nothing accrued. -/
theorem force_update_keeps_iff {s s' : DiamondMining} {env : Env} {u : AccountId}
    (hreward : s.rewardOf u < 2^128) (h : s.forceUpdateGlobalReward env = .ok s') :
    s'.getPendingReward env u = s.getPendingReward env u ↔ DefaultSettled s env u := by
  obtain ⟨_,rfl⟩ := forceUpdate_ok h
  unfold DefaultSettled
  cases hu : (s.lastUpdate.lookup u).isSome with
  | true =>
    apply iff_of_true _ (Or.inl rfl)
    simp only [getPendingReward,cursor_some env.blockHeight hu]
    rfl
  | false =>
    have hnew : ({ s with lastRewardBlock := env.blockHeight } : DiamondMining).cursor u =
        env.blockHeight := cursor_none hu
    have hafter : ({ s with lastRewardBlock := env.blockHeight } :
        DiamondMining).getPendingReward env u = .ok (s.rewardOf u) := by
      rw [pendingReward_ok,hnew]
      exact ⟨le_rfl,fun hc => absurd hc (lt_irrefl _),by simp [rewardOf]⟩
    rw [hafter,eq_comm,pendingReward_ok,cursor_none hu]
    constructor
    · rintro ⟨hle,_,hvalue⟩
      exact Or.inr ⟨hle,by omega⟩
    · rintro (hc | ⟨hle,hzero⟩)
      · cases hc
      · exact ⟨hle,fun _ => by omega,by omega⟩

theorem force_update_keeps_iff_settled :
    ∃ s s' : DiamondMining,
      (DiamondMining.new (envAt "owner.near" 1) "diamond.near").updateRewards
        (envAt "alice.near" 11) = .ok s ∧
      s.forceUpdateGlobalReward (envAt "owner.near" 21) = .ok s' ∧
      (s'.getPendingReward (envAt "owner.near" 21) "alice.near" =
          s.getPendingReward (envAt "owner.near" 21) "alice.near" ↔
        DefaultSettled s (envAt "owner.near" 21) "alice.near") :=
  ⟨_,_,rfl,rfl,force_update_keeps_iff (by decide) rfl⟩

/-- An account that has not interacted yet loses what ten blocks have earned it. -/
theorem forced_update_confiscates :
    ∃ s' : DiamondMining,
      (DiamondMining.new (envAt "owner.near" 1) "diamond.near").forceUpdateGlobalReward
        (envAt "owner.near" 11) = .ok s' ∧
      (DiamondMining.new (envAt "owner.near" 1) "diamond.near").getPendingReward
        (envAt "owner.near" 11) "alice.near" = .ok 100000000000000000000 ∧
      s'.getPendingReward (envAt "owner.near" 11) "alice.near" = .ok 0 := by
  refine ⟨_,rfl,?_,?_⟩ <;> decide

/-! ## Runs with changing rates -/

def System.earned (s : System) (u : AccountId) (block : ℕ) : ℕ :=
  s.contract.rewardOf u+dueTo u s.inflight+dueTo u s.paid+
    (block-s.contract.cursor u)*s.contract.rewardRate

def rateInForce : List Action → System → ℕ → ℕ
  | [], s, _ => s.contract.rewardRate
  | a::actions, s, block =>
    if a.env.blockHeight ≤ block then rateInForce actions (s.next a) block
    else s.contract.rewardRate

/-- A rate change or a move of the default block finds nothing of the account
unsettled, and a failed claim of the account fits when it is put back. -/
def System.Settles (u : AccountId) (s : System) : Action → Prop
  | .setRewardRate env rewardRate => env.predecessorAccountId = s.contract.ownerId →
      s.contract.cursor u = env.blockHeight ∨ rewardRate = s.contract.rewardRate
  | .forceUpdateGlobalReward env => env.predecessorAccountId = s.contract.ownerId →
      DefaultSettled s.contract env u
  | .resolve _ i .failed => ∀ p, s.inflight[i]? = some p → p.userId = u →
      s.contract.rewardOf u+p.amount < 2^128
  | _ => True

theorem accrued_earned {s : System} {c : DiamondMining} {env : Env} (u : AccountId)
    (h : Accrued s.contract env c) :
    System.earned { s with contract := c } u env.blockHeight = s.earned u env.blockHeight := by
  have hgain := gains_rewardOf (accrued_rewards h) u
  have hcursor := accrued_cursor h u
  have hrate := (accrued_same h).1
  simp only [System.earned,hrate]
  by_cases hu : u = env.predecessorAccountId
  · rw [if_pos hu] at hgain hcursor
    rw [hgain,hcursor,hu,Nat.sub_self,Nat.zero_mul]
    omega
  · rw [if_neg hu] at hgain hcursor
    rw [hgain,hcursor]
    rfl

theorem claimed_earned {s : System} {c : DiamondMining} {env : Env} (u : AccountId)
    (h : Accrued s.contract env c) :
    System.earned { s with
      contract := { c with rewards := c.rewards.insert env.predecessorAccountId 0 }
      inflight := s.inflight++[⟨c.diamondToken,env.predecessorAccountId,
        c.rewardOf env.predecessorAccountId⟩] } u env.blockHeight =
      s.earned u env.blockHeight := by
  rw [← accrued_earned u h]
  have hsent := dispatched_rewards c env.predecessorAccountId u
  have hdue := dueTo_append ⟨c.diamondToken,env.predecessorAccountId,
    c.rewardOf env.predecessorAccountId⟩ s.inflight u
  simp only [System.earned,cursor] at hsent hdue ⊢
  omega

theorem paid_earned {s : System} {i : ℕ} {p : Claim} (u : AccountId) (block : ℕ)
    (h : s.inflight[i]? = some p) :
    System.earned { s with
      inflight := s.inflight.eraseIdx i
      paid := s.paid++[p] } u block = s.earned u block := by
  have hout := dueTo_eraseIdx h u
  have hin := dueTo_append p s.paid u
  simp only [System.earned] at hout hin ⊢
  omega

theorem restored_earned {s : System} {i : ℕ} {p : Claim} (u : AccountId) (block : ℕ)
    (h : s.inflight[i]? = some p) :
    System.earned { s with
      contract := { s.contract with
        rewards := s.contract.rewards.insert p.userId (s.contract.rewardOf p.userId+p.amount) }
      inflight := s.inflight.eraseIdx i } u block = s.earned u block := by
  have hout := dueTo_eraseIdx h u
  have hback := restored_rewards s.contract p.userId p.amount u
  simp only [System.earned,cursor] at hout hback ⊢
  omega

theorem lost_earned {s : System} {i : ℕ} {p : Claim} {u : AccountId} (block : ℕ)
    (h : s.inflight[i]? = some p) (hu : p.userId ≠ u) :
    System.earned { s with inflight := s.inflight.eraseIdx i } u block = s.earned u block := by
  have hout := dueTo_eraseIdx h u
  rw [if_neg hu.symm] at hout
  simp only [System.earned] at hout ⊢
  omega

theorem resolve_earned {s : System} {env : Env} {i : ℕ} {result : PromiseResult}
    {u : AccountId} (hs : s.Settles u (.resolve env i result)) (block : ℕ) :
    (s.resolve i result).earned u block = s.earned u block := by
  rcases resolve_cases s i result with ⟨_,h⟩ | ⟨p,hp,⟨_,h⟩ | ⟨_,_,h⟩ | ⟨hresult,hover,h⟩⟩
  · rw [h]
  · rw [h]
    exact paid_earned u block hp
  · rw [h]
    exact restored_earned u block hp
  · rw [h]
    apply lost_earned block hp
    rintro rfl
    subst hresult
    exact absurd (hs p hp rfl) (not_lt.mpr hover)

theorem rate_earned {s : System} {env : Env} {r : ℕ} {u : AccountId}
    (h : s.contract.cursor u = env.blockHeight ∨ r = s.contract.rewardRate) :
    System.earned { s with contract := { s.contract with rewardRate := r } } u
      env.blockHeight = s.earned u env.blockHeight := by
  rcases h with hu | rfl
  · simp only [System.earned,rewardOf,cursor] at hu ⊢
    rw [hu,Nat.sub_self,Nat.zero_mul,Nat.zero_mul]
  · rfl

theorem default_earned {s : System} {env : Env} {u : AccountId}
    (h : DefaultSettled s.contract env u) :
    System.earned { s with
      contract := { s.contract with lastRewardBlock := env.blockHeight } } u env.blockHeight =
      s.earned u env.blockHeight := by
  cases hu : (s.contract.lastUpdate.lookup u).isSome with
  | true =>
    simp only [System.earned,cursor_some env.blockHeight hu]
    rfl
  | false =>
    have hzero := (h.resolve_left (by simp [hu])).2
    have hnew : ({ s.contract with lastRewardBlock := env.blockHeight } :
        DiamondMining).cursor u = env.blockHeight := cursor_none hu
    simp only [System.earned,hnew,cursor_none hu,hzero,Nat.sub_self,Nat.zero_mul]
    rfl

theorem setter_earned {s : System} {o : Outcome DiamondMining} {u : AccountId} (block : ℕ)
    (h : ∀ c, o = .ok c → System.earned { s with contract := c } u block = s.earned u block) :
    (s.call (o.map fun c => (c,[]))).earned u block = s.earned u block := by
  cases o with
  | error e => rfl
  | ok c => simpa [System.call,Except.map] using h c rfl

/-- An action moves what an account has earned between its places, and neither
adds to it nor loses any of it. -/
theorem next_earned {s : System} {a : Action} {u : AccountId} (hs : s.Settles u a) :
    (s.next a).earned u a.env.blockHeight = s.earned u a.env.blockHeight := by
  change (s.act a).earned u a.env.blockHeight = _
  cases a with
  | updateRewards env => exact setter_earned _ fun c hc => accrued_earned u (updateRewards_ok hc)
  | claimRewards env =>
    simp only [System.act]
    cases h : s.contract.claimRewards env with
    | error e => rfl
    | ok r =>
      obtain ⟨c,hc,rfl⟩ := claimRewards_ok h
      exact claimed_earned u hc
  | setRewardRate env r =>
    apply setter_earned
    intro c hc
    obtain ⟨howner,rfl⟩ := setRewardRate_ok hc
    exact rate_earned (hs howner)
  | forceUpdateGlobalReward env =>
    apply setter_earned
    intro c hc
    obtain ⟨howner,rfl⟩ := forceUpdate_ok hc
    exact default_earned (hs howner)
  | setDiamondToken env diamondToken =>
    apply setter_earned
    intro c hc
    rw [setDiamondToken_ok hc]
    rfl
  | transferOwnership env newOwner =>
    apply setter_earned
    intro c hc
    rw [transferOwnership_ok hc]
    rfl
  | resolve env i result => exact resolve_earned hs _

theorem setter_cursor {s : System} {o : Outcome DiamondMining} {u : AccountId} {block : ℕ}
    (h : ∀ c, o = .ok c → c.cursor u = s.contract.cursor u ∨ c.cursor u = block) :
    (s.call (o.map fun c => (c,[]))).contract.cursor u = s.contract.cursor u ∨
      (s.call (o.map fun c => (c,[]))).contract.cursor u = block := by
  cases o with
  | error e => exact Or.inl rfl
  | ok c => exact h c rfl

theorem resolve_cursor (s : System) (i : ℕ) (result : PromiseResult) (u : AccountId) :
    (s.resolve i result).contract.cursor u = s.contract.cursor u := by
  rcases resolve_cases s i result with ⟨_,h⟩ | ⟨p,_,⟨_,h⟩ | ⟨_,_,h⟩ | ⟨_,_,h⟩⟩
  · rw [h]
  · rw [h]
  · rw [h]
    rfl
  · rw [h]

/-- Whatever an action does, a cursor stays or moves to the current block. -/
theorem next_cursor (s : System) (a : Action) (u : AccountId) :
    (s.next a).contract.cursor u = s.contract.cursor u ∨
      (s.next a).contract.cursor u = a.env.blockHeight := by
  change (s.act a).contract.cursor u = _ ∨ (s.act a).contract.cursor u = _
  cases a with
  | updateRewards env => exact setter_cursor fun c hc => accrued_moves u (updateRewards_ok hc)
  | claimRewards env =>
    simp only [System.act]
    cases h : s.contract.claimRewards env with
    | error e => exact Or.inl rfl
    | ok r =>
      obtain ⟨c,hc,rfl⟩ := claimRewards_ok h
      exact (accrued_moves u hc :)
  | setRewardRate env r =>
    apply setter_cursor
    intro c hc
    rw [(setRewardRate_ok hc).2]
    exact Or.inl rfl
  | forceUpdateGlobalReward env =>
    apply setter_cursor
    intro c hc
    rw [(forceUpdate_ok hc).2]
    cases hu : (s.contract.lastUpdate.lookup u).isSome with
    | true => exact Or.inl (cursor_some _ hu)
    | false => exact Or.inr (cursor_none hu)
  | setDiamondToken env diamondToken =>
    apply setter_cursor
    intro c hc
    rw [setDiamondToken_ok hc]
    exact Or.inl rfl
  | transferOwnership env newOwner =>
    apply setter_cursor
    intro c hc
    rw [transferOwnership_ok hc]
    exact Or.inl rfl
  | resolve env i result => exact Or.inl (resolve_cursor s i result u)

theorem now_le_run {actions : List Action} {s : System}
    (h : AtomicRun.Along System.next System.Timely actions s) :
    s.now ≤ (AtomicRun.run System.next actions s).now := by
  induction actions generalizing s with
  | nil => exact le_rfl
  | cons a actions ih => exact h.1.trans (ih h.2)

theorem earned_later {s : System} {u : AccountId} {block : ℕ} (hc : s.contract.cursor u ≤ s.now)
    (hb : s.now ≤ block) :
    s.earned u block = s.earned u s.now+(block-s.now)*s.contract.rewardRate := by
  have hsplit : block-s.contract.cursor u = (s.now-s.contract.cursor u)+(block-s.now) := by
    omega
  rw [System.earned,hsplit,Nat.add_mul,System.earned]
  omega

theorem rateInForce_cons {a : Action} {actions : List Action} {s : System} {block : ℕ}
    (hnow : s.now ≤ a.env.blockHeight) (hb : a.env.blockHeight ≤ block) :
    ∑ b ∈ Finset.Ico s.now block, rateInForce (a::actions) s b =
      (a.env.blockHeight-s.now)*s.contract.rewardRate+
        ∑ b ∈ Finset.Ico a.env.blockHeight block, rateInForce actions (s.next a) b := by
  rw [← Finset.sum_Ico_consecutive _ hnow hb]
  congr 1
  · calc
      ∑ b ∈ Finset.Ico s.now a.env.blockHeight, rateInForce (a::actions) s b
      _ = ∑ b ∈ Finset.Ico s.now a.env.blockHeight, s.contract.rewardRate := by
        apply Finset.sum_congr rfl
        intro b hm
        exact if_neg (not_le.mpr (Finset.mem_Ico.mp hm).2)
      _ = (a.env.blockHeight-s.now)*s.contract.rewardRate := by simp
  · apply Finset.sum_congr rfl
    intro b hm
    exact if_pos (Finset.mem_Ico.mp hm).1

/-- Along a run that settles the account at every change, what it has earned
grows by the rate in force at each block. -/
theorem run_earned {u : AccountId} {actions : List Action} {s : System} {block : ℕ}
    (hc : s.contract.cursor u ≤ s.now)
    (ht : AtomicRun.Along System.next System.Timely actions s)
    (hs : AtomicRun.Along System.next (System.Settles u) actions s)
    (hb : (AtomicRun.run System.next actions s).now ≤ block) :
    (AtomicRun.run System.next actions s).earned u block =
      s.earned u s.now+∑ b ∈ Finset.Ico s.now block, rateInForce actions s b := by
  induction actions generalizing s with
  | nil =>
    rw [AtomicRun.run,earned_later hc hb]
    simp [rateInForce]
  | cons a actions ih =>
    have hnow : s.now ≤ a.env.blockHeight := ht.1
    have hlast : a.env.blockHeight ≤ block := (now_le_run ht.2).trans hb
    have hc' : (s.next a).contract.cursor u ≤ (s.next a).now := by
      rcases next_cursor s a u with he | he
      · rw [he]
        exact hc.trans hnow
      · exact he.le
    have hrun := ih hc' ht.2 hs.2 hb
    have hstep := next_earned hs.1
    have hwait := earned_later hc hnow
    rw [rateInForce_cons hnow hlast]
    change _ = (s.next a).earned u a.env.blockHeight+
      ∑ b ∈ Finset.Ico a.env.blockHeight block, rateInForce actions (s.next a) b at hrun
    rw [AtomicRun.run,hrun,hstep,hwait]
    omega

/-- A rate change shows at once in what an account is owed for the blocks since
its cursor. Along the runs in which every change finds the account settled, it
is owed the rate in force at each block since the deployment. -/
theorem rate_changes (u : AccountId) :
    (∀ (s s' : DiamondMining) (env : Env) (r n : ℕ), s.setRewardRate env r = .ok s' →
      s.getPendingReward env u = .ok n →
      (s'.getPendingReward env u = .ok n ↔
        s.cursor u = env.blockHeight ∨ r = s.rewardRate)) ∧
    ∀ (env view : Env) (diamondToken : AccountId) (actions : List Action) (n : ℕ),
      AtomicRun.Along System.next System.Timely actions (System.new env diamondToken) →
      AtomicRun.Along System.next (System.Settles u) actions (System.new env diamondToken) →
      (AtomicRun.run System.next actions (System.new env diamondToken)).now ≤ view.blockHeight →
      (AtomicRun.run System.next actions
        (System.new env diamondToken)).contract.getPendingReward view u = .ok n →
      n+dueTo u (AtomicRun.run System.next actions (System.new env diamondToken)).inflight+
          dueTo u (AtomicRun.run System.next actions (System.new env diamondToken)).paid =
        ∑ b ∈ Finset.Ico env.blockHeight view.blockHeight,
          rateInForce actions (System.new env diamondToken) b := by
  constructor
  · exact fun _ _ _ _ _ h hn => rate_pending_iff h hn
  · intro env view diamondToken actions n htimely hsettles hview hpending
    have hcursor : (System.new env diamondToken).contract.cursor u ≤
        (System.new env diamondToken).now := by simp [System.new,DiamondMining.new,cursor]
    have hrun := run_earned hcursor htimely hsettles hview
    have hzero : (System.new env diamondToken).earned u env.blockHeight = 0 := by
      simp [System.earned,System.new,DiamondMining.new,cursor,rewardOf,dueTo]
    have hvalue := (pendingReward_ok.mp hpending).2.2
    change _ = (System.new env diamondToken).earned u env.blockHeight+
      ∑ b ∈ Finset.Ico env.blockHeight view.blockHeight, _ at hrun
    rw [hzero,Nat.zero_add] at hrun
    rw [← hrun,hvalue,System.earned]
    omega

def settledChange : List Action := [
  .updateRewards (envAt "alice.near" 11),
  .setRewardRate (envAt "owner.near" 11) 20000000000000000000]

theorem rate_changes_settled :
    300000000000000000000 =
        ∑ b ∈ Finset.Ico 1 21, rateInForce settledChange
          (System.new (envAt "owner.near" 1) "diamond.near") b ∧
      ({ DiamondMining.new (envAt "owner.near" 1) "diamond.near" with rewardRate := 5 } :
        DiamondMining).getPendingReward (envAt "alice.near" 1) "alice.near" = .ok 0 := by
  constructor
  · exact (rate_changes "alice.near").2 (envAt "owner.near" 1) (envAt "alice.near" 21)
      "diamond.near" settledChange 300000000000000000000
      (by simp [settledChange,AtomicRun.Along,System.Timely,System.next,Action.env,envAt,
        System.new])
      ⟨trivial,fun _ => Or.inl (by decide),trivial⟩
      (by decide) (by decide)
  · exact ((rate_changes "alice.near").1 (DiamondMining.new (envAt "owner.near" 1) "diamond.near")
      _ (envAt "owner.near" 1) 5 0 rfl (by decide)).mpr (Or.inl (by decide))

/-- The owner doubles the rate ten blocks after the deployment. What an account
without a cursor is shown doubles with it. -/
theorem doubled_rate_reaches_back :
    ∃ s' : DiamondMining,
      (DiamondMining.new (envAt "owner.near" 1) "diamond.near").setRewardRate
        (envAt "owner.near" 11) 20000000000000000000 = .ok s' ∧
      (DiamondMining.new (envAt "owner.near" 1) "diamond.near").getPendingReward
        (envAt "owner.near" 11) "alice.near" = .ok 100000000000000000000 ∧
      s'.getPendingReward (envAt "owner.near" 11) "alice.near" =
        .ok 200000000000000000000 := by
  refine ⟨_,rfl,?_,?_⟩ <;> decide

end DiamondBot.DiamondMining
