import DiamondBot.Token.Observation
import DiamondBot.Token.TrackedSupply

/-!
# A bridge message that is not delivered

The tokens are burned before the message is sent, and the promise of the
message has no callback: its outcome takes the message out of flight and
changes nothing in the contract. A run in which the message fails is compared
with the run in which the call was never made.
-/

set_option autoImplicit false

namespace DiamondBot.DiamondToken
open NearRuntime Library Library.Lockstep FungibleToken SupplyTracker

variable {T : Type} [FungibleToken T]

/-- The contract with the messages whose outcome is not known yet. -/
structure Bridged (T : Type) where
  contract : DiamondToken T
  messages : List LzSend

inductive BridgeEvent where
  | call (c : Call)
  | outcome (i : ℕ) (result : PromiseResult)

def sentBy (s : DiamondToken T) (c : Call) : List LzSend :=
  match c.op with
  | .bridgeOut toAddress amount lzParams =>
    match s.bridgeOut c.env toAddress amount lzParams with
    | .ok r => [r.2]
    | .error _ => []
  | _ => []

namespace Bridged

def next (s : Bridged T) : BridgeEvent → Bridged T
  | .call c => ⟨s.contract.next c,s.messages++s.contract.sentBy c⟩
  | .outcome i _ => { s with messages := s.messages.eraseIdx i }

/-- However other calls and outcomes come between and after, the sender's
balance and the supply are those of the run without the call. -/
def GivenBack (s : Bridged T) (c : Call) : Prop :=
  ∀ (between after : List BridgeEvent) (i : ℕ),
    balance (AtomicRun.run next (.call c::between++.outcome i .failed::after) s
      ).contract.token c.env.predecessorAccountId =
      balance (AtomicRun.run next (between++after) s).contract.token
        c.env.predecessorAccountId ∧
    (AtomicRun.run next (.call c::between++.outcome i .failed::after) s
      ).contract.ftTotalSupply =
      (AtomicRun.run next (between++after) s).contract.ftTotalSupply

end Bridged

omit [FungibleToken T] in
/-- A record written back with the supply it had shows the same. -/
theorem adjust_zero {s : DiamondToken T} {env : Env} {tracker : SupplyTracker}
    (h : s.adjustNearSupply env (fun v => Checked.sub v 0) = .ok tracker) :
    SameFigures s.supplyTracker tracker := by
  unfold adjustNearSupply at h
  cases hc : s.supplyTracker.getChainSupply s.nearChainId with
  | none =>
    rw [hc] at h
    cases h
    exact sameFigures_refl _
  | some c =>
    rw [hc] at h
    obtain ⟨_,hsub,h⟩ := Checked.bind_ok.mp h
    obtain ⟨_,rfl⟩ := Checked.sub_ok.mp hsub
    cases h
    by_cases ho : env.predecessorAccountId = s.supplyTracker.ownerId
    · refine ⟨update_ownerId _ _ _ _ _,?_,?_,fun k => ?_⟩
      · rw [update_owner ho]
      · rw [update_owner ho]
      · by_cases hk : k = s.nearChainId
        · rw [hk,update_getChainSupply ho,hc]
          rfl
        · rw [update_getChainSupply_ne _ _ _ _ hk]
    · rw [update_other ho]
      exact sameFigures_refl _

variable [StandardToken T]

theorem bridgeOut_balances {s : DiamondToken T} {env : Env} {toAddress : String} {amount : ℕ}
    {lzParams : LayerZeroParams} {r : DiamondToken T × LzSend}
    (h : s.bridgeOut env toAddress amount lzParams = .ok r) :
    (balances s.token).withdraw env.predecessorAccountId amount = .ok (balances r.1.token) ∧
    ∃ tracker, s.adjustNearSupply env (fun v => Checked.sub v amount) = .ok tracker ∧
      r.1 = { s with token := r.1.token, supplyTracker := tracker } := by
  obtain ⟨_,token,tracker,_,htoken,htracker,rfl⟩ := bridgeOut_ok h
  exact ⟨shows_ok (StandardToken.withdraw_shows _ _ _) htoken,tracker,htracker,rfl⟩

theorem bridgeOut_zero_same {s : DiamondToken T} {env : Env} {toAddress : String}
    {lzParams : LayerZeroParams} {r : DiamondToken T × LzSend}
    (h : s.bridgeOut env toAddress 0 lzParams = .ok r) : SameShown s r.1 := by
  obtain ⟨hwithdraw,tracker,htracker,hr⟩ := bridgeOut_balances h
  exact ⟨r.1.token,tracker,hr,Balances.withdraw_zero hwithdraw,adjust_zero htracker⟩

namespace Bridged

theorem next_same {s t : Bridged T} (e : BridgeEvent) (h : SameShown s.contract t.contract) :
    SameShown (s.next e).contract (t.next e).contract := by
  cases e with
  | call c => exact DiamondToken.next_same c h
  | outcome i result => exact h

theorem run_same {s t : Bridged T} (events : List BridgeEvent)
    (h : SameShown s.contract t.contract) :
    SameShown (AtomicRun.run next events s).contract
      (AtomicRun.run next events t).contract :=
  run_together (r := fun s t : Bridged T => SameShown s.contract t.contract)
    (P := fun _ => True) (fun _ _ e hr _ => next_same e hr) (fun _ _ => trivial) h

/-- What an accepted bridge call burns is given back after a failed message
exactly when it burns nothing. -/
theorem given_back_iff {s : Bridged T} {env : Env} {toAddress : String} {amount : ℕ}
    {lzParams : LayerZeroParams}
    (h : ∃ r, s.contract.bridgeOut env toAddress amount lzParams = .ok r) :
    s.GivenBack ⟨env,.bridgeOut toAddress amount lzParams⟩ ↔ amount = 0 := by
  obtain ⟨r,hr⟩ := h
  have hnext : (s.next (.call ⟨env,.bridgeOut toAddress amount lzParams⟩)).contract = r.1 := by
    apply AtomicRun.settle_ok
    simp only [step,hr]
    rfl
  constructor
  · intro hback
    obtain ⟨_,_,_,hle,hb⟩ := Balances.withdraw_ok (bridgeOut_balances hr).1
    have hsupply := (hback [] [] 0).2
    change (s.next _).contract.ftTotalSupply = s.contract.ftTotalSupply at hsupply
    rw [hnext] at hsupply
    have hburned : r.1.ftTotalSupply = s.contract.ftTotalSupply-amount :=
      congrArg Balances.supply hb
    change amount ≤ s.contract.ftTotalSupply at hle
    omega
  · rintro rfl between after i
    have hsame : SameShown (AtomicRun.run next (between++after) s).contract
        (AtomicRun.run next (.call ⟨env,.bridgeOut toAddress 0 lzParams⟩::between++
          .outcome i .failed::after) s).contract := by
      rw [AtomicRun.run_append]
      change SameShown _ (AtomicRun.run next (between++.outcome i .failed::after) (s.next _)
        ).contract
      rw [AtomicRun.run_append]
      apply run_same
      change SameShown _ (AtomicRun.run next between (s.next _)).contract
      apply run_same
      rw [hnext]
      exact bridgeOut_zero_same hr
    obtain ⟨token,tracker,heq,htoken,_⟩ := hsame
    rw [heq]
    exact ⟨congrArg (fun b => Balances.account b _) htoken,congrArg Balances.supply htoken⟩

end Bridged

def toEthereum : LayerZeroParams where
  destChainId := 1
  adapterParams := []
  fees := 1000000000000000000

theorem given_back_iff_deployed :
    ∃ s : DiamondToken Ledger,
      new (firstBlock "owner.near" "diamond.near") "owner.near" "lz.near" 15 = .ok s ∧
      Bridged.GivenBack ⟨next s (callBy "owner.near" (.setChainConfig 1 ethereum)),[]⟩
        (callBy "owner.near" (.bridgeOut "0xabc" 0 toEthereum)) := by
  refine ⟨_,rfl,?_⟩
  exact (@Bridged.given_back_iff Ledger _ _ _ (firstBlock "owner.near" "diamond.near") "0xabc" 0
    toEthereum ⟨_,rfl⟩).mpr rfl

/-- The owner bridges out five units, the message fails, and they are gone. -/
theorem undelivered_burn_stays :
    ∃ s : DiamondToken Ledger,
      new (firstBlock "owner.near" "diamond.near") "owner.near" "lz.near" 15 = .ok s ∧
      (∃ r, (next s (callBy "owner.near" (.setChainConfig 1 ethereum))).bridgeOut
        (firstBlock "owner.near" "diamond.near") "0xabc" 5 toEthereum = .ok r) ∧
      ¬Bridged.GivenBack ⟨next s (callBy "owner.near" (.setChainConfig 1 ethereum)),[]⟩
        (callBy "owner.near" (.bridgeOut "0xabc" 5 toEthereum)) := by
  refine ⟨_,rfl,⟨_,rfl⟩,fun h => ?_⟩
  have hsupply := (h [] [] 0).2
  revert hsupply
  decide

end DiamondBot.DiamondToken
