import DiamondBot.Farming.StakeAccounting

/-!
# The history of credits and unstakes

Beside the system a history records every credit and every accepted unstake
with its block time. A step moves the principal of at most one account, and
creates a position only when it credits an account that has none.
-/

set_option autoImplicit false

namespace DiamondBot.Farming
open NearRuntime Library

structure Deposit where
  userId : AccountId
  amount : ℕ
  time : ℕ
  topUp : Bool

structure Withdrawal where
  userId : AccountId
  amount : ℕ
  time : ℕ

/-- What a step does to the principal of an account. -/
inductive Movement where
  | credit (userId : AccountId) (amount : ℕ) (topUp : Bool)
  | withdraw (userId : AccountId) (amount : ℕ)
  | pay (userId : AccountId) (amount : ℕ)
  | refuse (userId : AccountId) (amount : ℕ)
  | none

def Action.env : Action → Env
  | .stake env _ => env
  | .unstake env _ => env
  | .claimRewards env => env
  | .setRewardRate env _ => env
  | .setLockPeriod env _ => env
  | .transferOwnership env _ => env
  | .resolve env _ _ => env

def System.movement (s : System) : Action → Movement
  | .unstake env amount =>
    match s.contract.unstake env amount with
    | .ok _ => .withdraw env.predecessorAccountId amount
    | .error _ => .none
  | .resolve env i result =>
    match s.inflight[i]? with
    | none => .none
    | some p =>
      match p.callback,result with
      | .stakeCallback u n,.successful =>
        match s.contract.stakeCallback env .successful u n with
        | .ok _ => .credit u n (s.contract.stakes.lookup u).isSome
        | .error _ => .none
      | .unstakeCallback u n,.successful => .pay u n
      | .unstakeCallback u n,.failed => .refuse u n
      | _,_ => .none
  | _ => .none

structure History where
  system : System
  deposits : List Deposit
  withdrawals : List Withdrawal
  refused : AccountId → ℕ
  now : ℕ

namespace History

def new (env : Env) (stakingToken : AccountId) (lockPeriod : ℕ) : History where
  system := { System.new env stakingToken with
    contract := { Farming.new env stakingToken with lockPeriod } }
  deposits := []
  withdrawals := []
  refused := fun _ => 0
  now := env.blockTimestamp

def next (h : History) (a : Action) : History where
  system := h.system.next a
  deposits := match h.system.movement a with
    | .credit u n topUp => h.deposits++[⟨u,n,a.env.blockTimestamp,topUp⟩]
    | _ => h.deposits
  withdrawals := match h.system.movement a with
    | .withdraw u n => h.withdrawals++[⟨u,n,a.env.blockTimestamp⟩]
    | _ => h.withdrawals
  refused := match h.system.movement a with
    | .refuse u n => addAt u n h.refused
    | _ => h.refused
  now := a.env.blockTimestamp

end History

/-! ## What a movement does to the books -/

def Movement.Moves (b b' : Books) : Movement → Prop
  | .credit u n _ => b'.stake = addAt u n b.stake ∧ b'.unstaking = b.unstaking ∧
    b'.sent = b.sent ∧ b'.staked = addAt u n b.staked
  | .withdraw u n => b'.stake = b.stake ∧ b'.unstaking = addAt u n b.unstaking ∧
    b'.sent = b.sent ∧ b'.staked = b.staked
  | .pay u n => (b.stake = addAt u n b'.stake ∨ b.stake u < n) ∧
    b.unstaking = addAt u n b'.unstaking ∧ b'.sent = addAt u n b.sent ∧ b'.staked = b.staked
  | .refuse u n => b'.stake = b.stake ∧ b.unstaking = addAt u n b'.unstaking ∧
    b'.sent = b.sent ∧ b'.staked = b.staked
  | .none => b'.stake = b.stake ∧ b'.unstaking = b.unstaking ∧ b'.sent = b.sent ∧
    b'.staked = b.staked

theorem still_moves {b b' : Books} (h : b' = b) : Movement.Moves b b' .none := by
  rw [h]
  exact ⟨rfl,rfl,rfl,rfl⟩

theorem resolve_moves (s : System) (env : Env) (i : ℕ) (result : PromiseResult) :
    (s.movement (.resolve env i result)).Moves s.books (s.resolve env i result).books := by
  cases h : s.inflight[i]? with
  | none =>
    simp only [System.movement,h]
    apply still_moves
    simp only [System.resolve,h]
  | some p =>
    cases hcb : p.callback with
    | claimCallback u n =>
      simp only [System.movement,h,hcb]
      apply still_moves
      rw [claimed_books h hcb]
      exact consumed_idle h fun v k hk => by rw [hcb] at hk; cases hk
    | stakeCallback u n =>
      have hidle := consumed_idle h (fun v k hk => by rw [hcb] at hk; cases hk)
      cases result with
      | failed =>
        simp only [System.movement,h,hcb]
        apply still_moves
        rw [uncredited_books h hcb (by rintro c ⟨⟩),hidle]
      | successful =>
        cases ho : s.contract.stakeCallback env .successful u n with
        | error e =>
          simp only [System.movement,h,hcb,ho]
          apply still_moves
          rw [uncredited_books h hcb (by rintro c - hc; rw [ho] at hc; cases hc),hidle]
        | ok c =>
          simp only [System.movement,h,hcb,ho]
          rw [credited_books h hcb ho]
          exact ⟨rfl,rfl,rfl,rfl⟩
    | unstakeCallback u n =>
      cases result with
      | failed =>
        simp only [System.movement,h,hcb]
        rw [refused_books h hcb env]
        have hbefore := consumed_unstake h hcb
        exact ⟨(congrArg Books.stake hbefore).symm,congrArg Books.unstaking hbefore,
          (congrArg Books.sent hbefore).symm,(congrArg Books.staked hbefore).symm⟩
      | successful =>
        simp only [System.movement,h,hcb]
        obtain ⟨b,hafter,hpaid | ⟨hshort,hstuck⟩⟩ := paid_books h hcb env
        · rw [hafter,hpaid]
          exact ⟨.inl rfl,rfl,rfl,rfl⟩
        · refine ⟨.inr hshort,?_⟩
          rw [hafter,hstuck]
          exact ⟨rfl,rfl,rfl⟩

theorem unmoved_books (s : System) (a : Action) (hu : ∀ env n, a ≠ .unstake env n)
    (hr : ∀ env i result, a ≠ .resolve env i result) : (s.next a).books = s.books := by
  generalize hb : (s.next a).books = b
  have he : Effect s a b := hb ▸ next_effect s a
  cases he with
  | idle => rfl
  | unstake env n => exact absurd rfl (hu env n)
  | stake env i | pay env i | payStuck env i | refund env i | refundStuck env i =>
    exact absurd rfl (hr env i _)

theorem next_moves (s : System) (a : Action) :
    (s.movement a).Moves s.books (s.next a).books := by
  cases a with
  | unstake env n =>
    cases h : s.contract.unstake env n with
    | error e =>
      simp only [System.movement,h]
      apply still_moves
      simp only [System.next,h,System.call]
    | ok r =>
      simp only [System.movement,h]
      obtain ⟨b,hbefore,hafter⟩ := unstake_books h
      rw [hbefore,hafter]
      exact ⟨rfl,rfl,rfl,rfl⟩
  | resolve env i result => exact resolve_moves s env i result
  | stake | claimRewards | setRewardRate | setLockPeriod | transferOwnership =>
    exact still_moves (unmoved_books s _ (by rintro _ _ ⟨⟩) (by rintro _ _ _ ⟨⟩))

/-! ## What a movement does to the start times -/

def KeepsStart (m m' : LookupMap AccountId Stake) : Prop :=
  ∀ u st', m'.lookup u = some st' → ∃ st, m.lookup u = some st ∧ st'.startTime = st.startTime

theorem keepsStart_refl (m : LookupMap AccountId Stake) : KeepsStart m m :=
  fun _ st h => ⟨st,h,rfl⟩

theorem keepsStart_insert {m : LookupMap AccountId Stake} {u : AccountId} {st st' : Stake}
    (h : m.lookup u = some st) (hstart : st'.startTime = st.startTime) :
    KeepsStart m (m.insert u st') := by
  intro v x hx
  by_cases hv : v = u
  · subst hv
    rw [AList.lookup_insert] at hx
    cases hx
    exact ⟨st,h,hstart⟩
  · rw [AList.lookup_insert_ne hv] at hx
    exact ⟨x,hx,rfl⟩

theorem keepsStart_erase (m : LookupMap AccountId Stake) (u : AccountId) :
    KeepsStart m (m.erase u) := by
  intro v x hx
  by_cases hv : v = u
  · subst hv
    rw [AList.lookup_erase] at hx
    cases hx
  · rw [AList.lookup_erase_ne hv] at hx
    exact ⟨x,hx,rfl⟩

theorem claimRewards_start {s : Farming} {env : Env} {r : Farming × Promise}
    (h : s.claimRewards env = .ok r) : KeepsStart s.stakes r.1.stakes := by
  obtain ⟨st,hst,h⟩ := Checked.bind_ok.mp h
  obtain ⟨_,_,h⟩ := Checked.bind_ok.mp h
  obtain ⟨_,_,h⟩ := Checked.bind_ok.mp h
  cases h
  exact keepsStart_insert (Checked.expect_ok.mp hst) rfl

theorem unstake_start {s : Farming} {env : Env} {n : ℕ} {r : Farming × List Promise}
    (h : s.unstake env n = .ok r) : KeepsStart s.stakes r.1.stakes ∧
    ∃ st, s.stakes.lookup env.predecessorAccountId = some st ∧
      st.startTime+s.lockPeriod ≤ env.blockTimestamp := by
  obtain ⟨st,hst,h⟩ := Checked.bind_ok.mp h
  obtain ⟨_,_,h⟩ := Checked.bind_ok.mp h
  obtain ⟨unlocked,hadd,h⟩ := Checked.bind_ok.mp h
  obtain ⟨_,hlock,h⟩ := Checked.bind_ok.mp h
  obtain ⟨claimed,hclaim,h⟩ := Checked.bind_ok.mp h
  obtain ⟨_,_,h⟩ := Checked.bind_ok.mp h
  cases h
  obtain ⟨_,rfl⟩ := Checked.add_ok.mp hadd
  exact ⟨claimRewards_start hclaim,st,Checked.expect_ok.mp hst,Checked.require_ok.mp hlock⟩

theorem unstakeCallback_start {s s' : Farming} {env : Env} {result : PromiseResult}
    {u : AccountId} {n : ℕ} (h : s.unstakeCallback env result u n = .ok s') :
    KeepsStart s.stakes s'.stakes := by
  cases result with
  | failed =>
    obtain ⟨_,_,h⟩ := Checked.bind_ok.mp h
    cases h
    exact keepsStart_refl _
  | successful =>
    obtain ⟨st,hst,h⟩ := Checked.bind_ok.mp h
    obtain ⟨left,_,h⟩ := Checked.bind_ok.mp h
    cases h
    by_cases hleft : left = 0
    · simp only [hleft,if_true]
      exact keepsStart_erase _ _
    · simp only [hleft,if_false]
      exact keepsStart_insert (Checked.expect_ok.mp hst) rfl

theorem claimCallback_start (s : Farming) (result : PromiseResult) (u : AccountId) :
    KeepsStart s.stakes (s.claimCallback result u).stakes := by
  cases result with
  | successful => exact keepsStart_refl _
  | failed =>
    cases hst : s.stakes.lookup u with
    | none =>
      simp only [claimCallback,hst]
      exact keepsStart_refl _
    | some st =>
      simp only [claimCallback,hst]
      exact keepsStart_insert hst rfl

/-- A credit keeps the start time of a position and gives a new one the time
of the block. -/
theorem stakeCallback_start {s s' : Farming} {env : Env} {u v : AccountId} {n : ℕ} {st' : Stake}
    (h : s.stakeCallback env .successful u n = .ok s') (hst' : s'.stakes.lookup v = some st') :
    (∃ st, s.stakes.lookup v = some st ∧ st'.startTime = st.startTime) ∨
      v = u ∧ s.stakes.lookup u = none ∧ st'.startTime = env.blockTimestamp := by
  obtain ⟨x,hx,h⟩ := Checked.bind_ok.mp h
  obtain ⟨_,_,h⟩ := Checked.bind_ok.mp h
  cases h
  cases hl : s.stakes.lookup u with
  | some st =>
    rw [hl] at hx
    obtain ⟨_,_,hx⟩ := Checked.bind_ok.mp hx
    obtain ⟨_,_,hx⟩ := Checked.bind_ok.mp hx
    cases hx
    refine .inl (keepsStart_insert hl ?_ v st' hst')
    rfl
  | none =>
    rw [hl] at hx
    cases hx
    by_cases hv : v = u
    · subst hv
      rw [AList.lookup_insert] at hst'
      cases hst'
      exact .inr ⟨rfl,rfl,rfl⟩
    · rw [AList.lookup_insert_ne hv] at hst'
      exact .inl ⟨st',hst',rfl⟩

theorem call_start {s : System} {o : Outcome (Farming × List Promise)}
    (h : ∀ r, o = .ok r → KeepsStart s.contract.stakes r.1.stakes) :
    KeepsStart s.contract.stakes (s.call o).contract.stakes := by
  cases o with
  | ok r => exact h r rfl
  | error e => exact keepsStart_refl _

theorem setter_start {s : System} (env : Env) (c : Farming)
    (hstakes : c.stakes = s.contract.stakes) : KeepsStart s.contract.stakes
      (s.call ((s.contract.assertOwner env >>= fun _ => pure c).map
        fun c => (c,[]))).contract.stakes := by
  apply call_start
  intro r hr
  obtain ⟨c',hc,rfl⟩ := Checked.map_ok.mp hr
  obtain ⟨_,_,hc⟩ := Checked.bind_ok.mp hc
  cases hc
  rw [hstakes]
  exact keepsStart_refl _

/-- A callback keeps the start times, or creates the position it is for. -/
theorem resolve_start (s : System) (env : Env) (i : ℕ) (result : PromiseResult) {u : AccountId}
    {st' : Stake} (h : (s.next (.resolve env i result)).contract.stakes.lookup u = some st') :
    (∃ st, s.contract.stakes.lookup u = some st ∧ st'.startTime = st.startTime) ∨
      ∃ n, s.movement (.resolve env i result) = .credit u n false ∧
        st'.startTime = env.blockTimestamp := by
  cases hp : s.inflight[i]? with
  | none =>
    simp only [System.next,System.resolve,hp] at h
    exact .inl ⟨st',h,rfl⟩
  | some p =>
    simp only [System.next,System.resolve,hp] at h
    cases hcb : p.callback with
    | claimCallback v n =>
      simp only [hcb,callback,pure,Except.pure] at h
      exact .inl (claimCallback_start s.contract result v u st' h)
    | unstakeCallback v n =>
      simp only [hcb,callback] at h
      cases ho : s.contract.unstakeCallback env result v n with
      | error e =>
        rw [ho] at h
        exact .inl ⟨st',h,rfl⟩
      | ok c =>
        rw [ho] at h
        exact .inl (unstakeCallback_start ho u st' h)
    | stakeCallback v n =>
      simp only [hcb,callback] at h
      cases result with
      | failed => exact .inl ⟨st',h,rfl⟩
      | successful =>
        cases ho : s.contract.stakeCallback env .successful v n with
        | error e =>
          rw [ho] at h
          exact .inl ⟨st',h,rfl⟩
        | ok c =>
          rw [ho] at h
          rcases stakeCallback_start ho h with hold | ⟨rfl,hnone,hstart⟩
          · exact .inl hold
          · refine .inr ⟨n,?_,hstart⟩
            simp only [System.movement,hp,hcb,ho,hnone]
            rfl

/-- A position after a step was there before with its start time, or the step
has just created it. -/
theorem next_start (s : System) (a : Action) {u : AccountId} {st' : Stake}
    (h : (s.next a).contract.stakes.lookup u = some st') :
    (∃ st, s.contract.stakes.lookup u = some st ∧ st'.startTime = st.startTime) ∨
      ∃ n, s.movement a = .credit u n false ∧ st'.startTime = a.env.blockTimestamp := by
  cases a with
  | unstake env n => exact .inl (call_start (fun r hr => (unstake_start hr).1) u st' h)
  | claimRewards env =>
    refine .inl (call_start (fun r hr => ?_) u st' h)
    obtain ⟨q,hq,rfl⟩ := Checked.map_ok.mp hr
    exact claimRewards_start hq
  | stake env n =>
    refine .inl (call_start (fun r hr => ?_) u st' h)
    obtain ⟨q,_,rfl⟩ := Checked.map_ok.mp hr
    exact keepsStart_refl _
  | setRewardRate env rewardRate =>
    refine .inl (setter_start env _ ?_ u st' h)
    rfl
  | setLockPeriod env lockPeriod =>
    refine .inl (setter_start env _ ?_ u st' h)
    rfl
  | transferOwnership env newOwner =>
    refine .inl (setter_start env _ ?_ u st' h)
    rfl
  | resolve env i result => exact resolve_start s env i result h

/-! ## What a step adds to the history -/

namespace History

theorem next_deposit_mem {h : History} {a : Action} {d : Deposit}
    (hd : d ∈ (h.next a).deposits) : d ∈ h.deposits ∨
      h.system.movement a = .credit d.userId d.amount d.topUp ∧
        d.time = a.env.blockTimestamp := by
  cases hmov : h.system.movement a with
  | credit v n topUp =>
    simp only [next,hmov] at hd
    rcases List.mem_append.mp hd with hold | hnew
    · exact .inl hold
    · rw [List.mem_singleton.mp hnew]
      exact .inr ⟨rfl,rfl⟩
  | withdraw | pay | refuse | none =>
    simp only [next,hmov] at hd
    exact .inl hd

theorem next_withdrawal_mem {h : History} {a : Action} {w : Withdrawal}
    (hw : w ∈ (h.next a).withdrawals) : w ∈ h.withdrawals ∨ w.time = a.env.blockTimestamp := by
  cases hmov : h.system.movement a with
  | withdraw v n =>
    simp only [next,hmov] at hw
    rcases List.mem_append.mp hw with hold | hnew
    · exact .inl hold
    · rw [List.mem_singleton.mp hnew]
      exact .inr rfl
  | credit | pay | refuse | none =>
    simp only [next,hmov] at hw
    exact .inl hw

/-- A credit that is no top-up finds no position. -/
theorem credit_fresh {s : System} {a : Action} {u : AccountId} {n : ℕ} {topUp : Bool}
    (h : s.movement a = .credit u n topUp) : topUp = (s.contract.stakes.lookup u).isSome := by
  cases a with
  | unstake env k =>
    simp only [System.movement] at h
    cases ho : s.contract.unstake env k with
    | ok r => rw [ho] at h; cases h
    | error e => rw [ho] at h; cases h
  | resolve env i result =>
    simp only [System.movement] at h
    cases hp : s.inflight[i]? with
    | none => rw [hp] at h; cases h
    | some p =>
      rw [hp] at h
      simp only at h
      cases hcb : p.callback with
      | claimCallback v k => rw [hcb] at h; cases h
      | unstakeCallback v k => rw [hcb] at h; cases result <;> cases h
      | stakeCallback v k =>
        rw [hcb] at h
        cases result with
        | failed => cases h
        | successful =>
          simp only at h
          cases ho : s.contract.stakeCallback env .successful v k with
          | error e => rw [ho] at h; cases h
          | ok c => rw [ho] at h; cases h; rfl
  | stake | claimRewards | setRewardRate | setLockPeriod | transferOwnership => cases h

end History
end DiamondBot.Farming
