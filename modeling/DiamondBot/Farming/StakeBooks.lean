import DiamondBot.Farming.FarmingSystem

/-!
# The books kept over stakes and transfers in flight

The books hold, for each account, the principal staked, on its way back,
credited and sent, with the running total of the contract beside the true
totals. Each action of the system is one of a few entries in the books; the
entries that take an amount away are read from the books after it is gone.
-/

set_option autoImplicit false

namespace DiamondBot.Farming
open NearRuntime Library

structure Books where
  totalStaked : ℕ
  stake : AccountId → ℕ
  stakesTotal : ℕ
  unstaking : AccountId → ℕ
  unstakingTotal : ℕ
  staked : AccountId → ℕ
  sent : AccountId → ℕ

def System.books (s : System) : Books where
  totalStaked := s.contract.totalStaked
  stake := s.contract.stakeOf
  stakesTotal := s.contract.stakesTotal
  unstaking := s.unstaking
  unstakingTotal := s.unstakingTotal
  staked := s.staked
  sent := s.sent

/-- An unstake asks for no more than is left beside the unstakes in flight,
and a refund does not take the running total out of its type. -/
def KeepsBooks (s : System) : Action → Prop
  | .unstake env amount => (∃ r, s.contract.unstake env amount = .ok r) →
      s.unstaking env.predecessorAccountId+amount ≤
        s.contract.stakeOf env.predecessorAccountId
  | .resolve _ i .failed => ∀ p u n, s.inflight[i]? = some p →
      p.callback = .unstakeCallback u n → s.contract.totalStaked+n < 2^128
  | _ => True

inductive Effect (s : System) : Action → Books → Prop
  | idle (a : Action) (quiet : KeepsBooks s a) : Effect s a s.books
  | stake (env : Env) (i : ℕ) (u : AccountId) (n : ℕ) (room : s.books.totalStaked+n < 2^128) :
      Effect s (.resolve env i .successful) { s.books with
        totalStaked := s.books.totalStaked+n
        stake := addAt u n s.books.stake
        stakesTotal := s.books.stakesTotal+n
        staked := addAt u n s.books.staked }
  | unstake (env : Env) (n : ℕ) (accepted : ∃ r, s.contract.unstake env n = .ok r) (b : Books)
      (before : s.books = { b with totalStaked := b.totalStaked+n }) :
      Effect s (.unstake env n) { b with
        unstaking := addAt env.predecessorAccountId n b.unstaking
        unstakingTotal := b.unstakingTotal+n }
  | pay (env : Env) (i : ℕ) (u : AccountId) (n : ℕ) (b : Books)
      (before : s.books = { b with
        stake := addAt u n b.stake
        stakesTotal := b.stakesTotal+n
        unstaking := addAt u n b.unstaking
        unstakingTotal := b.unstakingTotal+n }) :
      Effect s (.resolve env i .successful) { b with sent := addAt u n b.sent }
  | payStuck (env : Env) (i : ℕ) (u : AccountId) (n : ℕ) (short : s.books.stake u < n)
      (b : Books) (before : s.books = { b with
        unstaking := addAt u n b.unstaking
        unstakingTotal := b.unstakingTotal+n }) :
      Effect s (.resolve env i .successful) { b with sent := addAt u n b.sent }
  | refund (env : Env) (i : ℕ) (p : Promise) (u : AccountId) (n : ℕ)
      (position : s.inflight[i]? = some p) (callback : p.callback = .unstakeCallback u n)
      (room : s.books.totalStaked+n < 2^128) (b : Books) (before : s.books = { b with
        unstaking := addAt u n b.unstaking
        unstakingTotal := b.unstakingTotal+n }) :
      Effect s (.resolve env i .failed) { b with totalStaked := b.totalStaked+n }
  | refundStuck (env : Env) (i : ℕ) (p : Promise) (u : AccountId) (n : ℕ)
      (position : s.inflight[i]? = some p) (callback : p.callback = .unstakeCallback u n)
      (overflow : 2^128 ≤ s.books.totalStaked+n) (b : Books) (before : s.books = { b with
        unstaking := addAt u n b.unstaking
        unstakingTotal := b.unstakingTotal+n }) :
      Effect s (.resolve env i .failed) b

theorem addAt_zero (u : AccountId) (f : AccountId → ℕ) : addAt u 0 f = f := by
  ext v
  simp [addAt]

/-! ## What the contract does to the stakes -/

theorem gains_stakeOf (s s' : Farming) {u : AccountId} {n : ℕ}
    (h : KeyedTotal.Gains (fun _ st => st.amount) u n s.stakes s'.stakes) :
    s'.stakeOf = addAt u n s.stakeOf ∧ s'.stakesTotal = s.stakesTotal+n :=
  ⟨funext h.1,h.2⟩

theorem retimed_stakes {s : Farming} {u : AccountId} {st : Stake} (st' : Stake)
    (hst : s.stakes.lookup u = some st) (ha : st'.amount = st.amount) :
    ({ s with stakes := s.stakes.insert u st' } : Farming).stakeOf = s.stakeOf ∧
      ({ s with stakes := s.stakes.insert u st' } : Farming).stakesTotal = s.stakesTotal := by
  have hb := gains_stakeOf s { s with stakes := s.stakes.insert u st' }
    (KeyedTotal.gains_insert (n := 0) (by rw [KeyedTotal.share_some hst]; exact ha))
  rwa [addAt_zero] at hb

theorem toppedUp_amount {s : Farming} {env : Env} {n : ℕ} {u : AccountId} {st : Stake}
    (h : s.toppedUp env n (s.stakes.lookup u) = .ok st) : st.amount = s.stakeOf u+n := by
  cases hl : s.stakes.lookup u with
  | none =>
    rw [hl] at h
    cases h
    simp [stakeOf,KeyedTotal.share_none hl]
  | some old =>
    rw [hl] at h
    obtain ⟨_,_,h⟩ := Checked.bind_ok.mp h
    obtain ⟨_,hadd,h⟩ := Checked.bind_ok.mp h
    cases h
    rw [stakeOf,KeyedTotal.share_some hl]
    exact (Checked.add_ok.mp hadd).2

theorem stakeCallback_ok {s s' : Farming} {env : Env} {u : AccountId} {n : ℕ}
    (h : s.stakeCallback env .successful u n = .ok s') :
    s'.stakeOf = addAt u n s.stakeOf ∧ s'.stakesTotal = s.stakesTotal+n ∧
      s'.totalStaked = s.totalStaked+n ∧ s.totalStaked+n < 2^128 := by
  obtain ⟨st,hst,h⟩ := Checked.bind_ok.mp h
  obtain ⟨_,hadd,h⟩ := Checked.bind_ok.mp h
  cases h
  have hsum := Checked.add_ok.mp hadd
  have hg := gains_stakeOf s { s with stakes := s.stakes.insert u st }
    (KeyedTotal.gains_insert (toppedUp_amount hst))
  exact ⟨hg.1,hg.2,hsum.2,hsum.1⟩

theorem claimRewards_ok {s : Farming} {env : Env} {r : Farming × Promise}
    (h : s.claimRewards env = .ok r) :
    r.1.stakeOf = s.stakeOf ∧ r.1.stakesTotal = s.stakesTotal ∧
      r.1.totalStaked = s.totalStaked ∧ ∃ u n, r.2.callback = .claimCallback u n := by
  obtain ⟨st,hst,h⟩ := Checked.bind_ok.mp h
  obtain ⟨_,_,h⟩ := Checked.bind_ok.mp h
  obtain ⟨_,_,h⟩ := Checked.bind_ok.mp h
  cases h
  have hb := retimed_stakes { st with
    lastClaim := env.blockTimestamp
    lastUpdate := env.systemTime } (Checked.expect_ok.mp hst) rfl
  exact ⟨hb.1,hb.2,rfl,_,_,rfl⟩

theorem claimCallback_stakes (s : Farming) (result : PromiseResult) (u : AccountId) :
    (s.claimCallback result u).stakeOf = s.stakeOf ∧
      (s.claimCallback result u).stakesTotal = s.stakesTotal ∧
      (s.claimCallback result u).totalStaked = s.totalStaked := by
  cases result with
  | successful => exact ⟨rfl,rfl,rfl⟩
  | failed =>
    simp only [claimCallback]
    split
    · rename_i st hst
      have hb := retimed_stakes { st with lastClaim := st.lastUpdate } hst rfl
      exact ⟨hb.1,hb.2,rfl⟩
    · exact ⟨rfl,rfl,rfl⟩

theorem unstake_ok {s : Farming} {env : Env} {n : ℕ} {r : Farming × List Promise}
    (h : s.unstake env n = .ok r) :
    r.1.stakeOf = s.stakeOf ∧ r.1.stakesTotal = s.stakesTotal ∧
      s.totalStaked = r.1.totalStaked+n ∧
      ∃ claim transfer u k, r.2 = [claim,transfer] ∧ claim.callback = .claimCallback u k ∧
        transfer.callback = .unstakeCallback env.predecessorAccountId n := by
  obtain ⟨_,_,h⟩ := Checked.bind_ok.mp h
  obtain ⟨_,_,h⟩ := Checked.bind_ok.mp h
  obtain ⟨_,_,h⟩ := Checked.bind_ok.mp h
  obtain ⟨_,_,h⟩ := Checked.bind_ok.mp h
  obtain ⟨claimed,hclaim,h⟩ := Checked.bind_ok.mp h
  obtain ⟨_,hsub,h⟩ := Checked.bind_ok.mp h
  cases h
  obtain ⟨hstake,htotal,hsame,u,k,hcb⟩ := claimRewards_ok hclaim
  have hd := Checked.sub_ok.mp hsub
  refine ⟨hstake,htotal,?_,_,_,u,k,rfl,hcb,rfl⟩
  rw [hsame] at hd
  simp only
  omega

theorem unstakeCallback_ok {s s' : Farming} {env : Env} {u : AccountId} {n : ℕ}
    (h : s.unstakeCallback env .successful u n = .ok s') :
    s.stakeOf = addAt u n s'.stakeOf ∧ s.stakesTotal = s'.stakesTotal+n ∧
      s'.totalStaked = s.totalStaked := by
  obtain ⟨st,hst,h⟩ := Checked.bind_ok.mp h
  obtain ⟨left,hsub,h⟩ := Checked.bind_ok.mp h
  cases h
  have hd := Checked.sub_ok.mp hsub
  have hshare := KeyedTotal.share_some (f := fun _ st => st.amount) (Checked.expect_ok.mp hst)
  by_cases hleft : left = 0
  · have hn : n = KeyedTotal.share (fun _ st => st.amount) s.stakes u := by omega
    have hg := gains_stakeOf { s with stakes := s.stakes.erase u } s
      (KeyedTotal.gains_of_erase (fun _ st => st.amount) s.stakes u)
    rw [← hn] at hg
    simp only [hleft,if_true]
    exact ⟨hg.1,hg.2,trivial⟩
  · have hg := gains_stakeOf { s with stakes := s.stakes.insert u { st with
      amount := left
      lastUpdate := env.systemTime } } s (KeyedTotal.gains_of_insert (n := n)
        (by rw [hshare]; simp only; omega))
    simp only [hleft,if_false]
    exact ⟨hg.1,hg.2,trivial⟩

theorem unstakeCallback_error {s : Farming} {env : Env} {u : AccountId} {n : ℕ} {e : String}
    (h : s.unstakeCallback env .successful u n = .error e) : s.stakeOf u < n ∨ n = 0 := by
  cases hl : s.stakes.lookup u with
  | none =>
    rw [stakeOf,KeyedTotal.share_none hl]
    omega
  | some st =>
    rw [stakeOf,KeyedTotal.share_some hl]
    by_contra hc
    have hsub : Checked.sub st.amount n = .ok (st.amount-n) := by
      apply Checked.sub_ok.mpr
      exact ⟨by omega,rfl⟩
    simp [unstakeCallback,hl,Checked.expect,hsub,bind,Except.bind,pure,Except.pure] at h

/-! ## What an action does to the books -/

theorem settled_unstaking {s : System} {i : ℕ} {p : Promise} (h : s.inflight[i]? = some p)
    (v : AccountId) : p.unstakes v+((s.inflight.eraseIdx i).map (Promise.unstakes v)).sum =
      s.unstaking v :=
  KeyedTotal.sum_eraseIdx _ _ i p h

theorem settled_unstakingTotal {s : System} {i : ℕ} {p : Promise}
    (h : s.inflight[i]? = some p) :
    p.unstaked+((s.inflight.eraseIdx i).map Promise.unstaked).sum = s.unstakingTotal :=
  KeyedTotal.sum_eraseIdx _ _ i p h

def System.consumed (s : System) (i : ℕ) : Books :=
  System.books { s with inflight := s.inflight.eraseIdx i }

def Promise.idle (p : Promise) : Prop := ∀ u n, p.callback ≠ .unstakeCallback u n

theorem idle_unstakes {p : Promise} (hp : p.idle) (v : AccountId) : p.unstakes v = 0 := by
  unfold Promise.unstakes
  cases hcb : p.callback with
  | unstakeCallback u n => exact absurd hcb (hp u n)
  | stakeCallback | claimCallback => rfl

theorem idle_unstaked {p : Promise} (hp : p.idle) : p.unstaked = 0 := by
  unfold Promise.unstaked
  cases hcb : p.callback with
  | unstakeCallback u n => exact absurd hcb (hp u n)
  | stakeCallback | claimCallback => rfl

theorem consumed_idle {s : System} {i : ℕ} {p : Promise} (h : s.inflight[i]? = some p)
    (hp : p.idle) : s.consumed i = s.books := by
  have hv : ({ s with inflight := s.inflight.eraseIdx i } : System).unstaking = s.unstaking := by
    ext v
    have hsum := settled_unstaking h v
    rwa [idle_unstakes hp,Nat.zero_add] at hsum
  have ht : ({ s with inflight := s.inflight.eraseIdx i } : System).unstakingTotal =
      s.unstakingTotal := by
    have hsum := settled_unstakingTotal h
    rwa [idle_unstaked hp,Nat.zero_add] at hsum
  simp only [System.consumed,System.books,hv,ht]

theorem consumed_unstake {s : System} {i : ℕ} {p : Promise} {u : AccountId} {n : ℕ}
    (h : s.inflight[i]? = some p) (hp : p.callback = .unstakeCallback u n) :
    s.books = { s.consumed i with
      unstaking := addAt u n (s.consumed i).unstaking
      unstakingTotal := (s.consumed i).unstakingTotal+n } := by
  have hv : s.unstaking = addAt u n (s.consumed i).unstaking := by
    ext v
    rw [← settled_unstaking h v,Promise.unstakes,hp,Nat.add_comm]
    rfl
  have ht : s.unstakingTotal = (s.consumed i).unstakingTotal+n := by
    rw [← settled_unstakingTotal h,Promise.unstaked,hp,Nat.add_comm]
    rfl
  simp only [System.books,hv,ht,System.consumed]

/-- A call that leaves the amounts alone and sends no principal keeps the books. -/
theorem call_idle {s : System} {o : Outcome (Farming × List Promise)}
    (h : ∀ r, o = .ok r → r.1.stakeOf = s.contract.stakeOf ∧
      r.1.stakesTotal = s.contract.stakesTotal ∧ r.1.totalStaked = s.contract.totalStaked ∧
      ∀ p ∈ r.2, p.idle) : (s.call o).books = s.books := by
  cases o with
  | error e => rfl
  | ok r =>
    obtain ⟨hstake,htotal,hsame,hidle⟩ := h r rfl
    have hv : (s.call (.ok r)).unstaking = s.unstaking := by
      ext v
      have hzero : (r.2.map (Promise.unstakes v)).sum = 0 :=
        List.sum_eq_zero (by simpa using fun p hp => idle_unstakes (hidle p hp) v)
      simp [System.call,System.unstaking,hzero]
    have ht : (s.call (.ok r)).unstakingTotal = s.unstakingTotal := by
      have hzero : (r.2.map Promise.unstaked).sum = 0 :=
        List.sum_eq_zero (by simpa using fun p hp => idle_unstaked (hidle p hp))
      simp [System.call,System.unstakingTotal,hzero]
    simp only [System.books,hv,ht]
    simp only [System.call,hstake,htotal,hsame]

theorem unstake_books {s : System} {env : Env} {n : ℕ} {r : Farming × List Promise}
    (h : s.contract.unstake env n = .ok r) : ∃ b : Books,
    s.books = { b with totalStaked := b.totalStaked+n } ∧
    (s.next (.unstake env n)).books = { b with
      unstaking := addAt env.predecessorAccountId n b.unstaking
      unstakingTotal := b.unstakingTotal+n } := by
  obtain ⟨hstake,htotal,hsame,claim,transfer,u,k,hps,hclaim,htransfer⟩ := unstake_ok h
  refine ⟨{ s.books with totalStaked := r.1.totalStaked },?_,?_⟩
  · simp only [System.books,hsame]
  · simp only [System.next,System.call,h,System.books,hstake,htotal,Books.mk.injEq,
      true_and,and_true]
    constructor
    · ext v
      simp [System.unstaking,hps,Promise.unstakes,hclaim,htransfer,addAt]
    · simp [System.unstakingTotal,hps,Promise.unstaked,hclaim,htransfer]

theorem unstake_effect (s : System) (env : Env) (n : ℕ) :
    Effect s (.unstake env n) (s.next (.unstake env n)).books := by
  cases h : s.contract.unstake env n with
  | error e =>
    rw [System.next,h]
    apply Effect.idle
    rintro ⟨r,hr⟩
    rw [h] at hr
    cases hr
  | ok r =>
    obtain ⟨b,hbefore,hafter⟩ := unstake_books h
    rw [hafter]
    exact .unstake env n ⟨r,h⟩ b hbefore

theorem idle_effect {s : System} {env : Env} {i : ℕ} {result : PromiseResult} {p : Promise}
    {b : Books} (h : s.inflight[i]? = some p) (hp : p.idle) (hb : b = s.consumed i) :
    Effect s (.resolve env i result) b := by
  rw [hb,consumed_idle h hp]
  apply Effect.idle
  cases result with
  | successful => trivial
  | failed =>
    intro q u n hq hcb
    rw [h] at hq
    cases hq
    exact absurd hcb (hp u n)

theorem credited_books {s : System} {env : Env} {i : ℕ} {p : Promise} {u : AccountId} {n : ℕ}
    {c : Farming} (h : s.inflight[i]? = some p) (hcb : p.callback = .stakeCallback u n)
    (ho : s.contract.stakeCallback env .successful u n = .ok c) :
    (s.resolve env i .successful).books = { s.books with
      totalStaked := s.books.totalStaked+n
      stake := addAt u n s.books.stake
      stakesTotal := s.books.stakesTotal+n
      staked := addAt u n s.books.staked } := by
  have hp : p.idle := fun v k hk => by rw [hcb] at hk; cases hk
  obtain ⟨hstake,htotal,hsame,_⟩ := stakeCallback_ok ho
  have hidle := consumed_idle h hp
  have hv := congrArg Books.unstaking hidle
  have ht := congrArg Books.unstakingTotal hidle
  simp only [System.resolve,h,hcb,callback,ho,System.books,hstake,htotal,hsame]
  exact congrArg₂ (fun v t => Books.mk _ _ _ v t _ _) hv ht

theorem uncredited_books {s : System} {env : Env} {i : ℕ} {result : PromiseResult} {p : Promise}
    {u : AccountId} {n : ℕ} (h : s.inflight[i]? = some p) (hcb : p.callback = .stakeCallback u n)
    (hno : ∀ c, result = .successful → s.contract.stakeCallback env .successful u n ≠ .ok c) :
    (s.resolve env i result).books = s.consumed i := by
  cases result with
  | failed => simp [System.resolve,h,hcb,callback,stakeCallback,pure,Except.pure,System.consumed]
  | successful =>
    cases ho : s.contract.stakeCallback env .successful u n with
    | error e => simp [System.resolve,h,hcb,callback,ho,System.consumed]
    | ok c => exact absurd ho (hno c rfl)

theorem resolve_stake {s : System} {i : ℕ} {p : Promise} {u : AccountId} {n : ℕ}
    (h : s.inflight[i]? = some p) (hcb : p.callback = .stakeCallback u n) (env : Env)
    (result : PromiseResult) : Effect s (.resolve env i result)
      (s.resolve env i result).books := by
  have hp : p.idle := fun v k hk => by rw [hcb] at hk; cases hk
  by_cases hok : ∃ c, result = .successful ∧
    s.contract.stakeCallback env .successful u n = .ok c
  · obtain ⟨c,rfl,ho⟩ := hok
    rw [credited_books h hcb ho]
    exact .stake env i u n (stakeCallback_ok ho).2.2.2
  · apply idle_effect h hp
    exact uncredited_books h hcb fun c hr ho => hok ⟨c,hr,ho⟩

theorem claimed_books {s : System} {i : ℕ} {p : Promise} {u : AccountId} {n : ℕ}
    (h : s.inflight[i]? = some p) (hcb : p.callback = .claimCallback u n) (env : Env)
    (result : PromiseResult) : (s.resolve env i result).books = s.consumed i := by
  obtain ⟨hstake,htotal,hsame⟩ := claimCallback_stakes s.contract result u
  simp [System.resolve,h,hcb,callback,pure,Except.pure,System.consumed,System.books,
    hstake,htotal,hsame]
  exact ⟨rfl,rfl⟩

theorem resolve_claim {s : System} {i : ℕ} {p : Promise} {u : AccountId} {n : ℕ}
    (h : s.inflight[i]? = some p) (hcb : p.callback = .claimCallback u n) (env : Env)
    (result : PromiseResult) : Effect s (.resolve env i result)
      (s.resolve env i result).books :=
  idle_effect h (fun v k hk => by rw [hcb] at hk; cases hk) (claimed_books h hcb env result)

theorem refused_books {s : System} {i : ℕ} {p : Promise} {u : AccountId} {n : ℕ}
    (h : s.inflight[i]? = some p) (hcb : p.callback = .unstakeCallback u n) (env : Env) :
    (s.resolve env i .failed).books = { s.consumed i with
      totalStaked := if s.books.totalStaked+n < 2^128 then s.books.totalStaked+n
        else s.books.totalStaked } := by
  by_cases hroom : s.books.totalStaked+n < 2^128
  · have hadd : addU128 s.contract.totalStaked n = .ok (s.contract.totalStaked+n) :=
      Checked.add_ok.mpr ⟨hroom,rfl⟩
    simp only [System.resolve,h,hcb,callback,unstakeCallback,hadd,bind,Except.bind,pure,
      Except.pure,hroom,if_true]
    rfl
  · have hadd : addU128 s.contract.totalStaked n = .error "attempt to add with overflow" :=
      if_neg hroom
    simp only [System.resolve,h,hcb,callback,unstakeCallback,hadd,bind,Except.bind,hroom,
      if_false]
    rfl

/-- A successful unstake is sent, and leaves the stake unless it is short. -/
theorem paid_books {s : System} {i : ℕ} {p : Promise} {u : AccountId} {n : ℕ}
    (h : s.inflight[i]? = some p) (hcb : p.callback = .unstakeCallback u n) (env : Env) :
    ∃ b : Books, (s.resolve env i .successful).books = { b with sent := addAt u n b.sent } ∧
      (s.books = { b with
        stake := addAt u n b.stake
        stakesTotal := b.stakesTotal+n
        unstaking := addAt u n b.unstaking
        unstakingTotal := b.unstakingTotal+n } ∨
      s.books.stake u < n ∧ s.books = { b with
        unstaking := addAt u n b.unstaking
        unstakingTotal := b.unstakingTotal+n }) := by
  have hbefore := consumed_unstake h hcb
  cases ho : s.contract.unstakeCallback env .successful u n with
  | error e =>
    refine ⟨s.consumed i,?_,?_⟩
    · simp only [System.resolve,h,hcb,callback,ho]
      rfl
    · rcases unstakeCallback_error ho with hshort | rfl
      · exact .inr ⟨hshort,hbefore⟩
      · exact .inl (by simpa only [addAt_zero,Nat.add_zero] using hbefore)
  | ok c =>
    obtain ⟨hstake,htotal,hsame⟩ := unstakeCallback_ok ho
    refine ⟨{ s.consumed i with
      stake := c.stakeOf
      stakesTotal := c.stakesTotal },?_,.inl ?_⟩
    · simp only [System.resolve,h,hcb,callback,ho,System.books,hsame]
      rfl
    · rw [hbefore]
      simp only [System.consumed,System.books,hstake,htotal]

theorem resolve_unstake {s : System} {i : ℕ} {p : Promise} {u : AccountId} {n : ℕ}
    (h : s.inflight[i]? = some p) (hcb : p.callback = .unstakeCallback u n) (env : Env)
    (result : PromiseResult) : Effect s (.resolve env i result)
      (s.resolve env i result).books := by
  have hbefore := consumed_unstake h hcb
  cases result with
  | failed =>
    rw [refused_books h hcb env]
    by_cases hroom : s.books.totalStaked+n < 2^128
    · simp only [hroom,if_true]
      exact .refund env i p u n h hcb hroom _ hbefore
    · simp only [hroom,if_false]
      exact .refundStuck env i p u n h hcb (not_lt.mp hroom) _ hbefore
  | successful =>
    obtain ⟨b,hafter,hpaid | ⟨hshort,hstuck⟩⟩ := paid_books h hcb env
    · rw [hafter]
      exact .pay env i u n b hpaid
    · rw [hafter]
      exact .payStuck env i u n hshort b hstuck

theorem resolve_effect (s : System) (env : Env) (i : ℕ) (result : PromiseResult) :
    Effect s (.resolve env i result) (s.resolve env i result).books := by
  cases h : s.inflight[i]? with
  | none =>
    simp only [System.resolve,h]
    apply Effect.idle
    cases result with
    | successful => trivial
    | failed =>
      intro p u n hp
      rw [h] at hp
      cases hp
  | some p =>
    cases hcb : p.callback with
    | stakeCallback u n => exact resolve_stake h hcb env result
    | unstakeCallback u n => exact resolve_unstake h hcb env result
    | claimCallback u n => exact resolve_claim h hcb env result

theorem unchanged_effect {s s' : System} {a : Action} (quiet : KeepsBooks s a)
    (h : s'.books = s.books) : Effect s a s'.books := by
  rw [h]
  exact .idle a quiet

theorem setter_effect {s : System} {a : Action} (env : Env) (c : Farming)
    (quiet : KeepsBooks s a) (hstakes : c.stakes = s.contract.stakes)
    (hsame : c.totalStaked = s.contract.totalStaked) :
    Effect s a (s.call ((s.contract.assertOwner env >>= fun _ => pure c).map
      fun c => (c,[]))).books := by
  apply unchanged_effect quiet
  apply call_idle
  intro r hr
  obtain ⟨c',hc,rfl⟩ := Checked.map_ok.mp hr
  obtain ⟨_,_,hc⟩ := Checked.bind_ok.mp hc
  cases hc
  refine ⟨?_,?_,hsame,by simp⟩
  · ext u
    simp only [stakeOf,hstakes]
  · simp only [stakesTotal,hstakes]

/-- Every action of the system is one of the listed entries in the books. -/
theorem next_effect (s : System) (a : Action) : Effect s a (s.next a).books := by
  cases a with
  | stake env amount =>
    refine unchanged_effect trivial ?_
    apply call_idle
    intro r hr
    obtain ⟨p,hp,rfl⟩ := Checked.map_ok.mp hr
    obtain ⟨_,_,hp⟩ := Checked.bind_ok.mp hp
    cases hp
    exact ⟨rfl,rfl,rfl,by simp [Promise.idle]⟩
  | unstake env amount => exact unstake_effect s env amount
  | claimRewards env =>
    refine unchanged_effect trivial ?_
    apply call_idle
    intro r hr
    obtain ⟨q,hq,rfl⟩ := Checked.map_ok.mp hr
    obtain ⟨hstake,htotal,hsame,u,n,hcb⟩ := claimRewards_ok hq
    exact ⟨hstake,htotal,hsame,by simp [Promise.idle,hcb]⟩
  | setRewardRate env rewardRate => exact setter_effect env _ trivial rfl rfl
  | setLockPeriod env lockPeriod => exact setter_effect env _ trivial rfl rfl
  | transferOwnership env newOwner => exact setter_effect env _ trivial rfl rfl
  | resolve env i result => exact resolve_effect s env i result

end DiamondBot.Farming
