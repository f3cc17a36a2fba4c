import DiamondBot.Farming.FailedClaim

/-!
# One balance for principal and rewards

The contract holds its tokens in one account of the token contract and pays
both rewards and principal from it. A payout in flight is executed by the token
contract when the balance allows it, and its callback runs later, so calls of
other accounts come before, between and after the two. Principal in flight is
still part of the stakes until the callback.
-/

set_option autoImplicit false

namespace DiamondBot.Farming
open NearRuntime Library

def TokenCall.amount : TokenCall → ℕ
  | .ftTransferCall _ amount _ _ => amount
  | .ftTransfer _ amount _ => amount

structure Pool where
  contract : Farming
  inflight : List Promise
  /-- Executed transfers whose callback has not run yet. -/
  executed : List (Promise × PromiseResult)
  balance : ℕ

inductive PoolAction where
  | claimRewards (env : Env)
  | unstake (env : Env) (amount : ℕ)
  | transfer (i : ℕ)
  | callback (env : Env) (i : ℕ)

namespace Pool

def call (s : Pool) : Outcome (Farming × List Promise) → Pool
  | .ok r => { s with
    contract := r.1
    inflight := s.inflight++r.2 }
  | .error _ => s

def transfer (s : Pool) (i : ℕ) : Pool :=
  match s.inflight[i]? with
  | none => s
  | some p =>
    if p.call.amount ≤ s.balance then { s with
      inflight := s.inflight.eraseIdx i
      executed := s.executed++[(p,.successful)]
      balance := s.balance-p.call.amount }
    else { s with
      inflight := s.inflight.eraseIdx i
      executed := s.executed++[(p,.failed)] }

def callback (s : Pool) (env : Env) (i : ℕ) : Pool :=
  match s.executed[i]? with
  | none => s
  | some (p,result) => { s with
    contract := match s.contract.callback env result p.callback with
      | .ok contract => contract
      | .error _ => s.contract
    executed := s.executed.eraseIdx i }

def next (s : Pool) : PoolAction → Pool
  | .claimRewards env => s.call ((s.contract.claimRewards env).map fun r => (r.1,[r.2]))
  | .unstake env amount => s.call (s.contract.unstake env amount)
  | .transfer i => s.transfer i
  | .callback env i => s.callback env i

def owed (s : Pool) : ℕ := s.contract.stakesTotal+(s.inflight.map Promise.unstaked).sum

def Solvent (s : Pool) : Prop := s.owed ≤ s.balance

/-- The balance covers the principal an unstake adds to what is owed, and the
reward a transfer takes from the balance. -/
def Funded (s : Pool) : PoolAction → Prop
  | .unstake env amount =>
    (∃ r, s.contract.unstake env amount = .ok r) → s.owed+amount ≤ s.balance
  | .transfer i => ∀ p u r, s.inflight[i]? = some p → p.callback = .claimCallback u r →
    r ≤ s.balance → s.owed+r ≤ s.balance
  | _ => True

end Pool

theorem callback_received {s : Pool} {i : ℕ} {p : Promise} {result : PromiseResult} (env : Env)
    (h : s.executed[i]? = some (p,result)) :
    (s.callback env i).contract = received s.contract (.callback env result p.callback) := by
  unfold received AtomicRun.settle
  cases hc : s.contract.callback env result p.callback with
  | ok c => simp only [Pool.callback,receive,h,hc]
  | error e => simp only [Pool.callback,receive,h,hc]

theorem transfer_contract (s : Pool) (i : ℕ) : (s.transfer i).contract = s.contract := by
  unfold Pool.transfer
  split
  · rfl
  · split
    · rfl
    · rfl

theorem transfer_executed {s : Pool} {i : ℕ} {p : Promise} (h : s.inflight[i]? = some p) :
    (s.transfer i).executed =
      s.executed++[(p,if p.call.amount ≤ s.balance then .successful else .failed)] := by
  by_cases hle : p.call.amount ≤ s.balance
  · simp only [Pool.transfer,h,hle,if_true]
  · simp only [Pool.transfer,h,hle,if_false]

theorem transfer_callback {s : Pool} {t : System} {i : ℕ} {p : Promise} (env : Env)
    (hp : s.inflight[i]? = some p) (hdone : s.executed = []) (hcontract : t.contract = s.contract)
    (hinflight : t.inflight = s.inflight) :
    ((s.transfer i).callback env 0).contract =
      (t.resolve env i (if p.call.amount ≤ s.balance then .successful else .failed)).contract := by
  have hexecuted := transfer_executed hp
  rw [hdone,List.nil_append] at hexecuted
  have hfirst : (s.transfer i).executed[0]? =
      some (p,if p.call.amount ≤ s.balance then .successful else .failed) := by
    rw [hexecuted]
    rfl
  have ht : t.inflight[i]? = some p := by rw [hinflight,hp]
  rw [callback_received env hfirst,resolve_received env _ ht,transfer_contract,hcontract]

def Promise.Pays (p : Promise) : Prop :=
  ∃ u n memo, p.call = .ftTransfer u n memo ∧
    (p.callback = .claimCallback u n ∨ p.callback = .unstakeCallback u n)

/-- What is in flight or executed is a payout. -/
def Pool.Paying (s : Pool) : Prop :=
  (∀ p ∈ s.inflight, p.Pays) ∧ ∀ x ∈ s.executed, x.1.Pays

theorem claimRewards_pays {s : Farming} {env : Env} {r : Farming × Promise}
    (h : s.claimRewards env = .ok r) : r.2.Pays ∧ r.2.unstaked = 0 := by
  obtain ⟨st,_,h⟩ := Checked.bind_ok.mp h
  obtain ⟨reward,_,h⟩ := Checked.bind_ok.mp h
  obtain ⟨_,_,h⟩ := Checked.bind_ok.mp h
  cases h
  exact ⟨⟨_,_,_,rfl,.inl rfl⟩,rfl⟩

theorem unstake_pays {s : Farming} {env : Env} {n : ℕ} {r : Farming × List Promise}
    (h : s.unstake env n = .ok r) : (∀ p ∈ r.2, p.Pays) ∧ (r.2.map Promise.unstaked).sum = n := by
  obtain ⟨_,_,h⟩ := Checked.bind_ok.mp h
  obtain ⟨_,_,h⟩ := Checked.bind_ok.mp h
  obtain ⟨_,_,h⟩ := Checked.bind_ok.mp h
  obtain ⟨_,_,h⟩ := Checked.bind_ok.mp h
  obtain ⟨claimed,hclaim,h⟩ := Checked.bind_ok.mp h
  obtain ⟨_,_,h⟩ := Checked.bind_ok.mp h
  cases h
  obtain ⟨hpays,hzero⟩ := claimRewards_pays hclaim
  constructor
  · intro p hp
    rcases List.mem_pair.mp hp with rfl | rfl
    · exact hpays
    · exact ⟨_,_,_,rfl,.inr rfl⟩
  · change claimed.2.unstaked+(n+0) = n
    omega

theorem payout_callback {s s' : Farming} {env : Env} {result : PromiseResult} {p : Promise}
    (hp : p.Pays) (h : s.callback env result p.callback = .ok s') :
    s'.stakesTotal ≤ s.stakesTotal := by
  obtain ⟨u,n,memo,_,hcb | hcb⟩ := hp
  · rw [hcb] at h
    cases h
    exact (claimCallback_stakes s result u).2.1.le
  · rw [hcb] at h
    cases result with
    | successful =>
      have htotal := (unstakeCallback_ok h).2.1
      omega
    | failed =>
      obtain ⟨_,_,h⟩ := Checked.bind_ok.mp h
      cases h
      exact le_rfl

namespace Pool

theorem call_paying {s : Pool} {o : Outcome (Farming × List Promise)} (hp : s.Paying)
    (h : ∀ r, o = .ok r → ∀ p ∈ r.2, p.Pays) : (s.call o).Paying := by
  cases o with
  | error e => exact hp
  | ok r =>
    refine ⟨fun p hmem => ?_,hp.2⟩
    rcases List.mem_append.mp hmem with hold | hnew
    · exact hp.1 p hold
    · exact h r rfl p hnew

theorem next_paying (s : Pool) (a : PoolAction) (hp : s.Paying) : (s.next a).Paying := by
  cases a with
  | claimRewards env =>
    apply call_paying hp
    intro r hr p hmem
    obtain ⟨q,hq,rfl⟩ := Checked.map_ok.mp hr
    rw [List.mem_singleton.mp hmem]
    exact (claimRewards_pays hq).1
  | unstake env amount => exact call_paying hp fun r hr => (unstake_pays hr).1
  | transfer i =>
    simp only [next,transfer]
    cases h : s.inflight[i]? with
    | none => exact hp
    | some p =>
      have hpays := hp.1 p (List.mem_of_getElem? h)
      have hleft : ∀ q ∈ s.inflight.eraseIdx i, q.Pays := fun q hq =>
        hp.1 q (List.mem_of_mem_eraseIdx hq)
      have hdone : ∀ result, ∀ x ∈ s.executed++[(p,result)], x.1.Pays := by
        intro result x hx
        rcases List.mem_append.mp hx with hold | hnew
        · exact hp.2 x hold
        · rw [List.mem_singleton.mp hnew]
          exact hpays
      by_cases hle : p.call.amount ≤ s.balance
      · simp only [hle,if_true]
        exact ⟨hleft,hdone _⟩
      · simp only [hle,if_false]
        exact ⟨hleft,hdone _⟩
  | callback env i =>
    simp only [next,callback]
    cases h : s.executed[i]? with
    | none => exact hp
    | some x => exact ⟨hp.1,fun y hy => hp.2 y (List.mem_of_mem_eraseIdx hy)⟩

theorem transfer_effect {s : Pool} {i : ℕ} {p : Promise} (h : s.inflight[i]? = some p) :
    (s.transfer i).owed+p.unstaked = s.owed ∧ (s.transfer i).balance =
      if p.call.amount ≤ s.balance then s.balance-p.call.amount else s.balance := by
  have hsum := KeyedTotal.sum_eraseIdx Promise.unstaked s.inflight i p h
  by_cases hle : p.call.amount ≤ s.balance
  · simp only [transfer,owed,h,hle,if_true,and_true]
    omega
  · simp only [transfer,owed,h,hle,if_false,and_true]
    omega

theorem unstake_solvent_iff {s : Pool} {env : Env} {amount : ℕ} (hs : s.Solvent) :
    (s.next (.unstake env amount)).Solvent ↔ s.Funded (.unstake env amount) := by
  simp only [next,Funded]
  cases h : s.contract.unstake env amount with
  | error e => exact iff_of_true hs (by rintro ⟨_,⟨⟩⟩)
  | ok r =>
    have htotal := (unstake_ok h).2.1
    have hsum := (unstake_pays h).2
    have howed : (s.call (.ok r)).owed = s.owed+amount := by
      simp only [call,owed,List.map_append,List.sum_append,htotal,hsum]
      omega
    unfold Solvent
    rw [howed]
    exact ⟨fun hle _ => hle,fun hle => hle ⟨r,rfl⟩⟩

theorem transfer_solvent_iff {s : Pool} {i : ℕ} (hp : s.Paying) (hs : s.Solvent) :
    (s.next (.transfer i)).Solvent ↔ s.Funded (.transfer i) := by
  cases h : s.inflight[i]? with
  | none =>
    simp only [next,transfer,Funded,h]
    exact iff_of_true hs (by rintro p u r ⟨⟩)
  | some p =>
    obtain ⟨howed,hbalance⟩ := transfer_effect h
    obtain ⟨u,n,memo,hcall,hcb⟩ := hp.1 p (List.mem_of_getElem? h)
    have hamount : p.call.amount = n := by rw [hcall]; rfl
    rw [hamount] at hbalance
    unfold Solvent at hs ⊢
    change (s.transfer i).owed ≤ (s.transfer i).balance ↔ _
    rw [hbalance]
    rcases hcb with hcb | hcb
    · -- a reward leaves the balance and lowers nothing that is owed
      have hzero : p.unstaked = 0 := by simp only [Promise.unstaked,hcb]
      constructor
      · intro hsolvent q v r hq hr hle
        rw [h] at hq
        cases hq
        rw [hcb] at hr
        cases hr
        rw [if_pos hle] at hsolvent
        omega
      · intro hfund
        have hcover := hfund p u n h hcb
        split
        · have := hcover ‹_›
          omega
        · omega
    · -- principal leaves the balance and what is owed together
      have hprincipal : p.unstaked = n := by simp only [Promise.unstaked,hcb]
      apply iff_of_true
      · split <;> omega
      · intro q v r hq hr
        rw [h] at hq
        cases hq
        rw [hcb] at hr
        cases hr

theorem callback_solvent {s : Pool} (env : Env) (i : ℕ) (hp : s.Paying) (hs : s.Solvent) :
    (s.next (.callback env i)).Solvent := by
  unfold Solvent owed at hs ⊢
  simp only [next,callback]
  cases h : s.executed[i]? with
  | none => exact hs
  | some x =>
    cases ho : s.contract.callback env x.2 x.1.callback with
    | error e => simpa only [ho] using hs
    | ok c =>
      have hle := payout_callback (hp.2 x (List.mem_of_getElem? h)) ho
      simp only [ho]
      omega

theorem next_solvent_iff (s : Pool) (a : PoolAction) (hp : s.Paying) (hs : s.Solvent) :
    (s.next a).Solvent ↔ s.Funded a := by
  cases a with
  | claimRewards env =>
    refine iff_of_true ?_ trivial
    simp only [next]
    cases h : s.contract.claimRewards env with
    | error e => exact hs
    | ok r =>
      have htotal := (claimRewards_ok h).2.1
      have hzero := (claimRewards_pays h).2
      unfold Solvent owed at hs ⊢
      simpa [Except.map,call,htotal,hzero] using hs
  | unstake env amount => exact unstake_solvent_iff hs
  | transfer i => exact transfer_solvent_iff hp hs
  | callback env i => exact iff_of_true (callback_solvent env i hp hs) trivial

end Pool

/-- From any state with a balance for what is owed, the balance stays enough
over a whole run exactly when each unstake accepted and each reward paid finds
its amount beside what is owed. -/
theorem solvent_throughout_iff {s : Pool} (hp : s.Paying) (hs : s.Solvent)
    (actions : List PoolAction) :
    AtomicRun.Throughout Pool.next Pool.Solvent actions s ↔
      AtomicRun.Along Pool.next Pool.Funded actions s :=
  AtomicRun.throughout_iff_along (J := Pool.Paying) Pool.next_paying
    (fun s a hp hs => Pool.next_solvent_iff s a hp hs) hp hs

/-- The stake of alice with a balance of the contract, and her reward one
nanosecond later. -/
def onePool (balance : ℕ) : Pool := ⟨oneStake.contract,[],[],balance⟩

def claimOnce : List PoolAction := [.claimRewards (envAt "alice.near" 3),.transfer 0]

theorem solvent_throughout_iff_onePool :
    AtomicRun.Throughout Pool.next Pool.Solvent claimOnce (onePool 1010) := by
  refine (@solvent_throughout_iff (onePool 1010) ⟨by rintro p ⟨⟩,by rintro p ⟨⟩⟩
    (by unfold Pool.Solvent; decide) claimOnce).mpr ⟨trivial,?_,trivial⟩
  intro p u r hp hr _
  cases hp
  cases hr
  decide

theorem reward_paid_from_principal : (onePool 1000).Solvent ∧
    ¬AtomicRun.Throughout Pool.next Pool.Solvent claimOnce (onePool 1000) := by
  refine ⟨by unfold Pool.Solvent; decide,fun h => ?_⟩
  have hend := AtomicRun.throughout_last h
  revert hend
  unfold Pool.Solvent
  decide

end DiamondBot.Farming
