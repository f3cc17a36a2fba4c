import DiamondBot.Token.TrackedSupply
import DiamondBot.Library.Tally

/-!
# Who pays for a bridge message

A call attaches a deposit, which joins the balance of the contract, and an
accepted bridge call forwards the fees its own arguments name. The host refuses
a promise that attaches more than the account holds. The fees are compared with
an estimate and never with the deposit. Calls that are refused because they
attach a deposit are left out, as they change neither side.
-/

set_option autoImplicit false

namespace DiamondBot.DiamondToken
open NearRuntime Library Library.Tally FungibleToken

variable {T : Type} [FungibleToken T]

structure PaidCall where
  call : Call
  attachedDeposit : ℕ

structure Payment where
  caller : AccountId
  attached : ℕ
  forwarded : ℕ

structure Treasury (T : Type) where
  contract : DiamondToken T
  nearBalance : ℕ
  payments : List Payment

namespace Treasury

def step (s : Treasury T) (c : PaidCall) : Outcome (Treasury T) :=
  match c.call.op with
  | .bridgeOut toAddress amount lzParams => do
    let (contract,message) ← s.contract.bridgeOut c.call.env toAddress amount lzParams
    Checked.require (message.deposit ≤ s.nearBalance+c.attachedDeposit)
      "Exceeded the account balance"
    pure {
      contract
      nearBalance := s.nearBalance+c.attachedDeposit-message.deposit
      payments := s.payments++
        [⟨c.call.env.predecessorAccountId,c.attachedDeposit,message.deposit⟩] }
  | _ => do
    let contract ← s.contract.step c.call
    pure { s with
      contract
      nearBalance := s.nearBalance+c.attachedDeposit }

/-- A call that fails is refunded its deposit. -/
def next : Treasury T → PaidCall → Treasury T := AtomicRun.settle step

def attachedBy (P : AccountId → Prop) [DecidablePred P] (s : Treasury T) : ℕ :=
  tally (fun x : Payment => P x.caller) Payment.attached s.payments

def forwardedBy (P : AccountId → Prop) [DecidablePred P] (s : Treasury T) : ℕ :=
  tally (fun x : Payment => P x.caller) Payment.forwarded s.payments

/-- No set of callers has had more forwarded than it attached, and the balance
the contract started with is untouched. -/
def FeesPaid (start : ℕ) (s : Treasury T) : Prop :=
  (∀ (P : AccountId → Prop) [DecidablePred P], s.forwardedBy P ≤ s.attachedBy P) ∧
    start ≤ s.nearBalance

/-- The fees of an accepted bridge call exceed its deposit by no more than the
caller attached too much before. -/
def CoversFees (s : Treasury T) (c : PaidCall) : Prop :=
  match c.call.op with
  | .bridgeOut _ _ lzParams => (∃ s', s.step c = .ok s') →
    s.forwardedBy (fun u => u = c.call.env.predecessorAccountId)+lzParams.fees ≤
      s.attachedBy (fun u => u = c.call.env.predecessorAccountId)+c.attachedDeposit
  | _ => True

/-- The balance accounts for the start, the deposits and what was forwarded. -/
def Accounted (start : ℕ) (s : Treasury T) : Prop :=
  start+s.attachedBy (fun _ => True) ≤ s.nearBalance+s.forwardedBy (fun _ => True)

/-- What an accepted call does: a bridge call adds a payment and moves the
balance by it, any other call only adds its deposit. -/
theorem step_ok {s s' : Treasury T} {c : PaidCall} (h : s.step c = .ok s') :
    (∃ toAddress amount lzParams, c.call.op = .bridgeOut toAddress amount lzParams ∧
      s'.payments = s.payments++
        [⟨c.call.env.predecessorAccountId,c.attachedDeposit,lzParams.fees⟩] ∧
      s'.nearBalance+lzParams.fees = s.nearBalance+c.attachedDeposit) ∨
    (∀ toAddress amount lzParams, c.call.op ≠ .bridgeOut toAddress amount lzParams) ∧
      s'.payments = s.payments ∧ s'.nearBalance = s.nearBalance+c.attachedDeposit := by
  unfold step at h
  split at h
  · rename_i toAddress amount lzParams hop
    obtain ⟨r,hr,h⟩ := Checked.bind_ok.mp h
    obtain ⟨_,hhost,h⟩ := Checked.bind_ok.mp h
    obtain ⟨_,token,tracker,_,_,_,rfl⟩ := bridgeOut_ok hr
    cases h
    refine .inl ⟨toAddress,amount,lzParams,hop,rfl,?_⟩
    exact Nat.sub_add_cancel (Checked.require_ok.mp hhost)
  · rename_i hop
    obtain ⟨_,_,h⟩ := Checked.bind_ok.mp h
    cases h
    exact .inr ⟨hop,rfl,rfl⟩

omit [FungibleToken T] in
theorem added_payment {s s' : Treasury T} {x : Payment}
    (h : s'.payments = s.payments++[x]) (P : AccountId → Prop) [DecidablePred P] :
    s'.forwardedBy P = s.forwardedBy P+(if P x.caller then x.forwarded else 0) ∧
      s'.attachedBy P = s.attachedBy P+(if P x.caller then x.attached else 0) := by
  unfold forwardedBy attachedBy
  rw [h]
  simp only [tally_append,tally_cons,tally_nil,Nat.add_zero,and_self]

omit [FungibleToken T] in
theorem same_payments {s s' : Treasury T} (h : s'.payments = s.payments)
    (P : AccountId → Prop) [DecidablePred P] :
    s'.forwardedBy P = s.forwardedBy P ∧ s'.attachedBy P = s.attachedBy P := by
  unfold forwardedBy attachedBy
  rw [h]
  exact ⟨rfl,rfl⟩

theorem step_accounted {start : ℕ} {s s' : Treasury T} {c : PaidCall}
    (hs : s.Accounted start) (h : s.step c = .ok s') : s'.Accounted start := by
  unfold Accounted at hs ⊢
  rcases step_ok h with ⟨_,_,lzParams,_,hpayments,hbalance⟩ | ⟨_,hpayments,hbalance⟩
  · obtain ⟨hforwarded,hattached⟩ := added_payment hpayments fun _ => True
    simp only [if_true] at hforwarded hattached
    omega
  · obtain ⟨hforwarded,hattached⟩ := same_payments hpayments fun _ => True
    omega

omit [FungibleToken T] in
/-- A payment keeps the totals of every set of callers apart exactly when it
keeps those of its own caller apart. -/
theorem paid_iff {start : ℕ} {s s' : Treasury T} {x : Payment} (hacc : s'.Accounted start)
    (hs : ∀ (P : AccountId → Prop) [DecidablePred P], s.forwardedBy P ≤ s.attachedBy P)
    (h : s'.payments = s.payments++[x]) :
    s'.FeesPaid start ↔ s.forwardedBy (fun u => u = x.caller)+x.forwarded ≤
      s.attachedBy (fun u => u = x.caller)+x.attached := by
  constructor
  · rintro ⟨hall,_⟩
    have hcaller := hall (fun u => u = x.caller)
    rw [(added_payment h _).1,(added_payment h _).2] at hcaller
    simpa using hcaller
  · intro hcover
    have hkey : ∀ u, s'.forwardedBy (fun v => v = u) ≤ s'.attachedBy (fun v => v = u) := by
      intro u
      rw [(added_payment h _).1,(added_payment h _).2]
      by_cases hu : x.caller = u
      · subst hu
        simpa using hcover
      · simpa [hu] using hs fun v => v = u
    have hall : ∀ (P : AccountId → Prop) [DecidablePred P], s'.forwardedBy P ≤ s'.attachedBy P :=
      fun P _ => tally_le_of_keys Payment.caller hkey P
    refine ⟨hall,?_⟩
    have htotal := hall fun _ => True
    unfold Accounted at hacc
    omega

theorem next_paid_iff {start : ℕ} (s : Treasury T) (c : PaidCall) (hacc : s.Accounted start)
    (hs : s.FeesPaid start) : (s.next c).FeesPaid start ↔ s.CoversFees c := by
  cases h : s.step c with
  | error e =>
    rw [next,AtomicRun.settle_error h]
    refine iff_of_true hs ?_
    unfold CoversFees
    split
    · rintro ⟨s',hs'⟩
      rw [h] at hs'
      cases hs'
    · trivial
  | ok s' =>
    rw [next,AtomicRun.settle_ok h]
    have hacc' := step_accounted hacc h
    unfold CoversFees
    rcases step_ok h with ⟨_,_,lzParams,hop,hpayments,_⟩ | ⟨hop,hpayments,hbalance⟩
    · rw [paid_iff hacc' hs.1 hpayments,hop]
      exact ⟨fun hle _ => hle,fun hle => hle ⟨s',h⟩⟩
    · refine iff_of_true ⟨fun P _ => ?_,?_⟩ ?_
      · rw [(same_payments hpayments P).1,(same_payments hpayments P).2]
        exact hs.1 P
      · rw [hbalance]
        exact hs.2.trans (Nat.le_add_right _ _)
      · split
        · rename_i hop'
          exact absurd hop' (hop _ _ _)
        · trivial

/-- Over a whole run no set of callers has more forwarded than it attached,
and the contract keeps its own balance, exactly when every accepted bridge call
brings its fees or its caller brought them before. -/
theorem fees_paid_iff (contract : DiamondToken T) (nearBalance : ℕ) (calls : List PaidCall) :
    AtomicRun.Throughout next (FeesPaid nearBalance) calls ⟨contract,nearBalance,[]⟩ ↔
      AtomicRun.Along next CoversFees calls ⟨contract,nearBalance,[]⟩ := by
  refine AtomicRun.throughout_iff_along (J := Accounted nearBalance) ?_ next_paid_iff
    (le_refl nearBalance) ⟨fun P _ => le_refl 0,le_refl nearBalance⟩
  exact fun s c hs => AtomicRun.settle_preserves hs fun _ h => step_accounted hs h

def unpaidBridge : List PaidCall := [
  ⟨callBy "owner.near" (.setChainConfig 1 ethereum),0⟩,
  ⟨callBy "lz.near" (.bridgeIn 1 "0xabc" "alice.near" 5),0⟩,
  ⟨callBy "alice.near" (.bridgeOut "0xabc" 5 ⟨1,[],1000000000000000000⟩),0⟩]

theorem contract_pays_bridge_fee :
    ∃ s : DiamondToken Ledger,
      new (firstBlock "owner.near" "diamond.near") "owner.near" "lz.near" 15 = .ok s ∧
      (AtomicRun.run next unpaidBridge ⟨s,2000000000000000000,[]⟩).nearBalance =
        1000000000000000000 ∧
      ¬AtomicRun.Throughout next (FeesPaid 2000000000000000000) unpaidBridge
        ⟨s,2000000000000000000,[]⟩ := by
  refine ⟨_,rfl,by decide,fun h => ?_⟩
  have hend := (AtomicRun.throughout_last h).2
  revert hend
  decide

end Treasury
end DiamondBot.DiamondToken
