import DiamondBot.Farming.Rewards
import DiamondBot.Library.Lockstep

/-!
# A reward claim whose transfer fails

The contract is compared with itself without the claim. What other accounts do
goes the same way on both sides, so the two states differ at the claiming
account only, before the callback and after it. The callback copies the time of
the last update, which the claim has just overwritten with the system clock.
-/

set_option autoImplicit false

namespace DiamondBot.Farming
open NearRuntime Library Library.Lockstep

/-- What reaches the contract: a call of an account, or the callback of a
transfer with its outcome. -/
inductive Receipt where
  | stake (env : Env) (amount : ℕ)
  | unstake (env : Env) (amount : ℕ)
  | claimRewards (env : Env)
  | setRewardRate (env : Env) (rewardRate : ℕ)
  | setLockPeriod (env : Env) (lockPeriod : ℕ)
  | transferOwnership (env : Env) (newOwner : AccountId)
  | callback (env : Env) (result : PromiseResult) (c : Callback)

def receive (s : Farming) : Receipt → Outcome Farming
  | .stake env amount => (s.stake env amount).map fun _ => s
  | .unstake env amount => (s.unstake env amount).map Prod.fst
  | .claimRewards env => (s.claimRewards env).map Prod.fst
  | .setRewardRate env rewardRate => s.setRewardRate env rewardRate
  | .setLockPeriod env lockPeriod => s.setLockPeriod env lockPeriod
  | .transferOwnership env newOwner => s.transferOwnership env newOwner
  | .callback env result c => s.callback env result c

/-- A panicking receipt leaves the contract as it was. -/
def received : Farming → Receipt → Farming := AtomicRun.settle receive

/-- The receipt is not about the stake of an account. -/
def Receipt.Other (u : AccountId) : Receipt → Prop
  | .unstake env _ => env.predecessorAccountId ≠ u
  | .claimRewards env => env.predecessorAccountId ≠ u
  | .callback _ _ c => c.userId ≠ u
  | _ => True

theorem call_received {s : System} {o : Outcome (Farming × List Promise)} (a : Receipt)
    (h : receive s.contract a = o.map Prod.fst) :
    (s.call o).contract = AtomicRun.run received [a] s.contract := by
  change _ = AtomicRun.settle receive s.contract a
  unfold AtomicRun.settle
  rw [h]
  cases o with
  | ok r => rfl
  | error e => rfl

theorem map_first (o : Outcome Farming) : (o.map fun c => (c,([] : List Promise))).map Prod.fst = o := by
  cases o with
  | ok c => rfl
  | error e => rfl

theorem resolve_received {s : System} {i : ℕ} {p : Promise} (env : Env) (result : PromiseResult)
    (h : s.inflight[i]? = some p) :
    (s.resolve env i result).contract = received s.contract (.callback env result p.callback) := by
  unfold received AtomicRun.settle
  cases hc : s.contract.callback env result p.callback with
  | ok c => simp only [System.resolve,receive,h,hc]
  | error e => simp only [System.resolve,receive,h,hc]

/-- A step of the system is at most one receipt of the contract. -/
theorem next_received (s : System) (a : Action) : ∃ receipts : List Receipt,
    (s.next a).contract = AtomicRun.run received receipts s.contract := by
  cases a with
  | stake env amount =>
    refine ⟨[.stake env amount],call_received _ ?_⟩
    simp only [receive]
    cases s.contract.stake env amount with
    | ok p => rfl
    | error e => rfl
  | unstake env amount => exact ⟨[.unstake env amount],call_received _ rfl⟩
  | claimRewards env =>
    refine ⟨[.claimRewards env],call_received _ ?_⟩
    simp only [receive]
    cases s.contract.claimRewards env with
    | ok r => rfl
    | error e => rfl
  | setRewardRate env rewardRate =>
    exact ⟨[.setRewardRate env rewardRate],call_received _ (map_first _).symm⟩
  | setLockPeriod env lockPeriod =>
    exact ⟨[.setLockPeriod env lockPeriod],call_received _ (map_first _).symm⟩
  | transferOwnership env newOwner =>
    exact ⟨[.transferOwnership env newOwner],call_received _ (map_first _).symm⟩
  | resolve env i result =>
    cases h : s.inflight[i]? with
    | none =>
      refine ⟨[],?_⟩
      simp only [System.next,System.resolve,h]
      rfl
    | some p =>
      exact ⟨[.callback env result p.callback],resolve_received env result h⟩

theorem run_received (s : System) (actions : List Action) : ∃ receipts : List Receipt,
    (AtomicRun.run System.next actions s).contract =
      AtomicRun.run received receipts s.contract := by
  induction actions generalizing s with
  | nil => exact ⟨[],rfl⟩
  | cons a actions ih =>
    obtain ⟨first,hfirst⟩ := next_received s a
    obtain ⟨rest,hrest⟩ := ih (s.next a)
    refine ⟨first++rest,?_⟩
    rw [AtomicRun.run,hrest,hfirst,AtomicRun.run_append]

/-! ## The two sides -/

structure Apart (u : AccountId) (st st' : Stake) (m m' : LookupMap AccountId Stake) : Prop where
  others (v : AccountId) : v ≠ u → m'.lookup v = m.lookup v
  left : m.lookup u = some st
  right : m'.lookup u = some st'

theorem apart_insert {u v : AccountId} {st st' : Stake} {m m' : LookupMap AccountId Stake}
    (h : Apart u st st' m m') (hv : v ≠ u) (x : Stake) :
    Apart u st st' (m.insert v x) (m'.insert v x) := by
  refine ⟨fun w hw => ?_,?_,?_⟩
  · by_cases hwv : w = v
    · rw [hwv,AList.lookup_insert,AList.lookup_insert]
    · rw [AList.lookup_insert_ne hwv,AList.lookup_insert_ne hwv,h.others w hw]
  · rw [AList.lookup_insert_ne hv.symm,h.left]
  · rw [AList.lookup_insert_ne hv.symm,h.right]

theorem apart_erase {u v : AccountId} {st st' : Stake} {m m' : LookupMap AccountId Stake}
    (h : Apart u st st' m m') (hv : v ≠ u) :
    Apart u st st' (m.erase v) (m'.erase v) := by
  refine ⟨fun w hw => ?_,?_,?_⟩
  · by_cases hwv : w = v
    · rw [hwv,AList.lookup_erase,AList.lookup_erase]
    · rw [AList.lookup_erase_ne hwv,AList.lookup_erase_ne hwv,h.others w hw]
  · rw [AList.lookup_erase_ne hv.symm,h.left]
  · rw [AList.lookup_erase_ne hv.symm,h.right]

def AgreeBut (u : AccountId) (st st' : Stake) (s t : Farming) : Prop :=
  ∃ m, t = { s with stakes := m } ∧ Apart u st st' s.stakes m

theorem claimRewards_agree {s t : Farming} {u : AccountId} {st st' : Stake} {env : Env}
    (h : AgreeBut u st st' s t) (hother : env.predecessorAccountId ≠ u) :
    Together (fun r r' => AgreeBut u st st' r.1 r'.1) (s.claimRewards env)
      (t.claimRewards env) := by
  obtain ⟨m,rfl,h⟩ := h
  simp only [claimRewards,h.others _ hother]
  apply together_same
  intro userStake _
  apply together_same
  intro reward _
  apply together_same
  intro _ _
  exact ⟨_,rfl,apart_insert h hother _⟩

theorem unstake_agree {s t : Farming} {u : AccountId} {st st' : Stake} {env : Env} {amount : ℕ}
    (h : AgreeBut u st st' s t) (hother : env.predecessorAccountId ≠ u) :
    Together (fun r r' => AgreeBut u st st' r.1 r'.1) (s.unstake env amount)
      (t.unstake env amount) := by
  have hclaim := claimRewards_agree h hother
  obtain ⟨m,rfl,h⟩ := h
  simp only [unstake,h.others _ hother]
  apply together_same
  intro userStake _
  apply together_same
  intro _ _
  apply together_same
  intro _ _
  apply together_same
  intro _ _
  apply together_bind hclaim
  intro r r' hr
  obtain ⟨m',ht,h'⟩ := hr
  have htotal : r'.1.totalStaked = r.1.totalStaked := by rw [ht]
  rw [htotal]
  apply together_same
  intro totalStaked _
  exact ⟨m',by rw [ht],h'⟩

theorem callback_agree {s t : Farming} {u : AccountId} {st st' : Stake} {env : Env}
    {result : PromiseResult} {c : Callback} (h : AgreeBut u st st' s t)
    (hother : c.userId ≠ u) :
    Together (AgreeBut u st st') (s.callback env result c) (t.callback env result c) := by
  have hsame := h
  obtain ⟨m,rfl,h⟩ := h
  cases c with
  | stakeCallback v amount =>
    cases result with
    | failed => exact hsame
    | successful =>
      simp only [callback,stakeCallback,h.others v hother]
      apply together_same
      intro userStake _
      apply together_same
      intro totalStaked _
      exact ⟨_,rfl,apart_insert h hother _⟩
  | unstakeCallback v amount =>
    cases result with
    | failed =>
      apply together_same
      intro totalStaked _
      exact ⟨m,rfl,h⟩
    | successful =>
      simp only [callback,unstakeCallback,h.others v hother]
      apply together_same
      intro userStake _
      apply together_same
      intro left _
      by_cases hleft : left = 0
      · simp only [hleft,if_true]
        exact ⟨_,rfl,apart_erase h hother⟩
      · simp only [hleft,if_false]
        exact ⟨_,rfl,apart_insert h hother _⟩
  | claimCallback v amount =>
    cases result with
    | successful => exact hsame
    | failed =>
      simp only [callback,claimCallback,h.others v hother]
      cases s.stakes.lookup v with
      | none => exact hsame
      | some userStake => exact ⟨_,rfl,apart_insert h hother _⟩

theorem setter_agree {s t : Farming} {u : AccountId} {st st' : Stake} {env : Env}
    (h : AgreeBut u st st' s t) (f : Farming → Farming)
    (hf : ∀ m, f { s with stakes := m } = { f s with stakes := m })
    (hstakes : (f s).stakes = s.stakes) :
    Together (AgreeBut u st st') (s.assertOwner env >>= fun _ => pure (f s))
      (t.assertOwner env >>= fun _ => pure (f t)) := by
  obtain ⟨m,rfl,h⟩ := h
  apply together_same
  intro _ _
  exact ⟨m,hf m,by rw [hstakes]; exact h⟩

theorem receive_agree {s t : Farming} {u : AccountId} {st st' : Stake} (a : Receipt)
    (h : AgreeBut u st st' s t) (hother : a.Other u) :
    Together (AgreeBut u st st') (receive s a) (receive t a) := by
  cases a with
  | stake env amount =>
    have hsame := h
    obtain ⟨m,rfl,_⟩ := h
    simp only [receive,stake]
    exact together_map (r := fun _ _ => True) (together_same fun _ _ => trivial) fun _ _ _ => hsame
  | unstake env amount => exact together_map (unstake_agree h hother) fun _ _ hr => hr
  | claimRewards env => exact together_map (claimRewards_agree h hother) fun _ _ hr => hr
  | setRewardRate env rewardRate =>
    exact setter_agree h (fun s => { s with
      rewardRate
      lastUpdate := env.systemTime }) (fun _ => rfl) rfl
  | setLockPeriod env lockPeriod =>
    exact setter_agree h (fun s => { s with
      lockPeriod
      lastUpdate := env.systemTime }) (fun _ => rfl) rfl
  | transferOwnership env newOwner =>
    exact setter_agree h (fun s => { s with
      ownerId := newOwner
      lastUpdate := env.systemTime }) (fun _ => rfl) rfl
  | callback env result c => exact callback_agree h hother

theorem received_agree {s t : Farming} {u : AccountId} {st st' : Stake} (a : Receipt)
    (h : AgreeBut u st st' s t) (hother : a.Other u) :
    AgreeBut u st st' (received s a) (received t a) :=
  settle_together h (receive_agree a h hother)

theorem run_agree {s t : Farming} {u : AccountId} {st st' : Stake} {receipts : List Receipt}
    (h : AgreeBut u st st' s t) (hother : ∀ a ∈ receipts, a.Other u) :
    AgreeBut u st st' (AtomicRun.run received receipts s) (AtomicRun.run received receipts t) :=
  run_together (fun _ _ a => received_agree a) hother h

/-! ## The claim and its failure -/

def Stake.claimed (st : Stake) (env : Env) : Stake :=
  { st with
    lastClaim := env.blockTimestamp
    lastUpdate := env.systemTime }

def Stake.unclaimed (st : Stake) (env : Env) : Stake :=
  { st with
    lastClaim := env.systemTime
    lastUpdate := env.systemTime }

theorem claim_apart {s : Farming} {env : Env} {r : Farming × Promise}
    (h : s.claimRewards env = .ok r) : ∃ st reward,
    s.stakes.lookup env.predecessorAccountId = some st ∧ st.lastClaim ≤ env.blockTimestamp ∧
      r.2.callback = .claimCallback env.predecessorAccountId reward ∧
      AgreeBut env.predecessorAccountId st (Stake.claimed st env) s r.1 := by
  obtain ⟨st,hst,h⟩ := Checked.bind_ok.mp h
  obtain ⟨reward,hreward,h⟩ := Checked.bind_ok.mp h
  obtain ⟨_,_,h⟩ := Checked.bind_ok.mp h
  cases h
  have hst := Checked.expect_ok.mp hst
  refine ⟨st,reward,hst,(calculateReward_ok.mp hreward).1,rfl,_,rfl,?_⟩
  exact ⟨fun v hv => AList.lookup_insert_ne hv,hst,AList.lookup_insert _⟩

theorem failed_apart {s t : Farming} {env c : Env} {u : AccountId} {st : Stake} {n : ℕ}
    (h : AgreeBut u st (Stake.claimed st env) s t) :
    AgreeBut u st (Stake.unclaimed st env) s
      (received t (.callback c .failed (.claimCallback u n))) := by
  obtain ⟨m,rfl,h⟩ := h
  have hstep : received { s with stakes := m } (.callback c .failed (.claimCallback u n)) =
      { s with stakes := m.insert u (Stake.unclaimed st env) } := by
    apply AtomicRun.settle_ok
    simp only [receive,callback,claimCallback,h.right,pure,Except.pure]
    rfl
  rw [hstep]
  refine ⟨_,rfl,fun v hv => ?_,h.left,AList.lookup_insert _⟩
  rw [AList.lookup_insert_ne hv,h.others v hv]

theorem agree_pending_iff {s t : Farming} {env : Env} {u : AccountId} {st st' : Stake}
    (h : AgreeBut u st st' s t) (hamount : st'.amount = st.amount)
    (hle : st.lastClaim ≤ env.blockTimestamp) :
    t.getPendingReward env u = s.getPendingReward env u ↔
      st'.lastClaim ≤ env.blockTimestamp ∧
      SameReward s.rewardRate st.amount (env.blockTimestamp-st.lastClaim) st.amount
        (env.blockTimestamp-st'.lastClaim) := by
  obtain ⟨m,rfl,h⟩ := h
  have heq := @calculateReward_eq_iff s { s with stakes := m } env st st' rfl hle
  rw [hamount] at heq
  rw [pendingReward_some h.left,pendingReward_some (s := { s with stakes := m }) h.right]
  exact heq

/-- With the receipts of other accounts around it, a claim whose transfer fails
shows the reward it would have shown without the claim exactly when the formula
cannot tell the clock reading of the claim from the time of the last claim. -/
theorem failed_claim_undone_iff {s : Farming} {env : Env} {u : AccountId} {st : Stake}
    (hu : env.predecessorAccountId = u) (hst : s.stakes.lookup u = some st)
    {r : Farming × Promise} (hclaim : s.claimRewards env = .ok r)
    {before after : List Receipt} (hbefore : ∀ a ∈ before, a.Other u)
    (hafter : ∀ a ∈ after, a.Other u) (callbackEnv : Env) {view : Env}
    (hview : env.blockTimestamp ≤ view.blockTimestamp) :
    (AtomicRun.run received (before++.callback callbackEnv .failed r.2.callback::after) r.1
      ).getPendingReward view u =
      (AtomicRun.run received (before++after) s).getPendingReward view u ↔
    env.systemTime ≤ view.blockTimestamp ∧
      SameReward (AtomicRun.run received (before++after) s).rewardRate
        st.amount (view.blockTimestamp-st.lastClaim)
        st.amount (view.blockTimestamp-env.systemTime) := by
  subst hu
  obtain ⟨old,reward,hold,hle,hcallback,hagree⟩ := claim_apart hclaim
  rw [hst] at hold
  cases hold
  rw [AtomicRun.run_append,AtomicRun.run_append,AtomicRun.run,hcallback]
  have hfailed := failed_apart (c := callbackEnv) (n := reward) (run_agree hagree hbefore)
  exact agree_pending_iff (run_agree hfailed hafter) rfl (hle.trans hview)

/-- A call at a block time in nanoseconds, with the clock read in seconds. -/
def clockAt (accountId : AccountId) (time : UInt64) : Env :=
  { envAt accountId time with systemTime := time.toNat/1000000000 }

def smallStake : Farming :=
  (AtomicRun.run System.next [
    .stake (clockAt "alice.near" 1700000000000000000) 10,
    .resolve (clockAt "farm.near" 1700000000000000000) 0 .successful]
    (System.new (clockAt "owner.near" 1699999999000000000) "diamond.near")).contract

theorem failed_claim_undone_iff_smallStake : ∃ r,
    smallStake.claimRewards (clockAt "alice.near" 1700000001000000000) = .ok r ∧
    (AtomicRun.run received ([]++.callback (clockAt "farm.near" 1700000002000000000) .failed
      r.2.callback::[]) r.1).getPendingReward (clockAt "alice.near" 1700000002000000000)
        "alice.near" ≠
      (AtomicRun.run received ([]++[]) smallStake).getPendingReward
        (clockAt "alice.near" 1700000002000000000) "alice.near" := by
  refine ⟨_,rfl,?_⟩
  rw [ne_eq,@failed_claim_undone_iff smallStake (clockAt "alice.near" 1700000001000000000)
    "alice.near" ⟨10,1700000000000000000,1700000000000000000,1700000000⟩ rfl rfl _ rfl [] []
    (by simp) (by simp) (clockAt "farm.near" 1700000002000000000)
    (clockAt "alice.near" 1700000002000000000) (by decide)]
  rintro ⟨-,-,hsame⟩
  have hfloor := hsame (by unfold Fits; decide)
  revert hfloor
  decide

/-- Two seconds of reward become fifty years of it when the transfer fails. -/
theorem failed_claim_inflates : ∃ r,
    smallStake.claimRewards (clockAt "alice.near" 1700000001000000000) = .ok r ∧
    smallStake.getPendingReward (clockAt "alice.near" 1700000002000000000) "alice.near" =
      .ok 200000000 ∧
    (received r.1 (.callback (clockAt "farm.near" 1700000002000000000) .failed
      r.2.callback)).getPendingReward (clockAt "alice.near" 1700000002000000000) "alice.near" =
      .ok 170000000029999999 := by
  refine ⟨_,rfl,?_,?_⟩ <;> decide

end DiamondBot.Farming
