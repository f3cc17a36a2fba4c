import DiamondBot.Token.SupplyEffects

/-!
# The tracker's NEAR record against the ledger

The tracker accepts writes from its owner only, and the token contract drops
the refusal. A call by anyone else that moves tokens in or out of the ledger
therefore leaves the record behind. The step lemma isolates these calls, and
the run lemma shows that they are the only way the two totals drift apart.
-/

set_option autoImplicit false

namespace DiamondBot.DiamondToken
open NearRuntime Library FungibleToken

variable {T : Type}

def Synced (s : DiamondToken T) : Prop := s.supplyTracker.ownerId = s.ownerId

def trackedSupply (s : DiamondToken T) : Option ℕ :=
  (s.supplyTracker.getChainSupply s.nearChainId).map ChainSupply.supply

theorem adjust_ownerId {s : DiamondToken T} {env : Env} {f : ℕ → Outcome ℕ}
    {t : SupplyTracker} (h : s.adjustNearSupply env f = .ok t) :
    t.ownerId = s.supplyTracker.ownerId := by
  unfold adjustNearSupply at h
  split at h
  · obtain ⟨_,_,h⟩ := Checked.bind_ok.mp h
    cases h
    exact SupplyTracker.update_ownerId _ _ _ _ _
  · cases h
    rfl

theorem adjust_remote {s : DiamondToken T} {env : Env} {f : ℕ → Outcome ℕ}
    {t : SupplyTracker} (h : s.adjustNearSupply env f = .ok t) :
    t.remote s.nearChainId = s.remoteRecord := by
  unfold adjustNearSupply at h
  split at h
  · obtain ⟨_,_,h⟩ := Checked.bind_ok.mp h
    cases h
    exact SupplyTracker.update_remote _ _ _ _ _
  · cases h
    rfl

theorem adjust_tracked {s : DiamondToken T} {env : Env} {f : ℕ → Outcome ℕ}
    {t : SupplyTracker} {n : ℕ} (h : s.adjustNearSupply env f = .ok t)
    (hn : s.trackedSupply = some n) :
    ∃ v, f n = .ok v ∧ (t.getChainSupply s.nearChainId).map ChainSupply.supply =
      some (if env.predecessorAccountId = s.supplyTracker.ownerId then v else n) := by
  obtain ⟨c,hc,rfl⟩ := Option.map_eq_some_iff.mp hn
  simp only [adjustNearSupply,hc] at h
  obtain ⟨v,hv,h⟩ := Checked.bind_ok.mp h
  cases h
  refine ⟨v,hv,?_⟩
  by_cases ho : env.predecessorAccountId = s.supplyTracker.ownerId
  · simp [SupplyTracker.update_getChainSupply ho,ho]
  · simp [SupplyTracker.update_other ho,hc,ho]

variable [FungibleToken T]

def Tracked (s : DiamondToken T) : Prop := s.trackedSupply = some s.ftTotalSupply

/-- The calls that keep the record: whoever moves a positive amount in or out
of the ledger is the owner, and a report about NEAR itself states the truth. -/
def KeepsRecord (s : DiamondToken T) (c : Call) : Prop :=
  match c.op with
  | .burn amount => amount = 0 ∨ c.env.predecessorAccountId = s.ownerId
  | .bridgeOut _ amount _ => amount = 0 ∨ c.env.predecessorAccountId = s.ownerId
  | .bridgeIn _ _ _ amount => amount = 0 ∨ c.env.predecessorAccountId = s.ownerId
  | .updateRemoteChainSupply chainId supply =>
    chainId = s.nearChainId → (s.chainConfigs.lookup chainId).isSome →
      c.env.predecessorAccountId = s.ownerId → supply = s.ftTotalSupply
  | _ => True

theorem grown_tracked_iff {s : DiamondToken T} {env : Env} {a : ℕ} {token : T}
    {tracker : SupplyTracker} (hs : Synced s) (hq : Tracked s)
    (htotal : totalSupply token = totalSupply s.token+a)
    (hrecord : s.adjustNearSupply env (fun v => addU128 v a) = .ok tracker) :
    (tracker.getChainSupply s.nearChainId).map ChainSupply.supply = some (totalSupply token) ↔
      a = 0 ∨ env.predecessorAccountId = s.ownerId := by
  obtain ⟨v,hv,ht⟩ := adjust_tracked hrecord hq
  have hv' : v = totalSupply s.token+a := (Checked.add_ok.mp hv).2
  rw [ht,htotal,hs,Option.some_inj]
  change (if _ then v else totalSupply s.token) = _ ↔ _
  split <;> simp_all

theorem shrunk_tracked_iff {s : DiamondToken T} {env : Env} {a : ℕ} {token : T}
    {tracker : SupplyTracker} (hs : Synced s) (hq : Tracked s)
    (htotal : totalSupply token+a = totalSupply s.token)
    (hrecord : s.adjustNearSupply env (fun v => Checked.sub v a) = .ok tracker) :
    (tracker.getChainSupply s.nearChainId).map ChainSupply.supply = some (totalSupply token) ↔
      a = 0 ∨ env.predecessorAccountId = s.ownerId := by
  obtain ⟨v,hv,ht⟩ := adjust_tracked hrecord hq
  have hv' : v+a = totalSupply s.token := by
    have := Checked.sub_ok.mp hv
    change a ≤ totalSupply s.token ∧ v = totalSupply s.token-a at this
    omega
  rw [ht,hs,Option.some_inj]
  change (if _ then v else totalSupply s.token) = _ ↔ _
  split <;> simp_all <;> omega

theorem effect_synced {s s' : DiamondToken T} {env : Env} {op : Op} (hs : Synced s)
    (h : Effect s env op s') : Synced s' := by
  cases h with
  | mint u a token tracker time owner room total record => exact (adjust_ownerId record).trans hs
  | bridgeIn k sender u a token tracker room total record =>
    exact (adjust_ownerId record).trans hs
  | burn a token tracker time total record => exact (adjust_ownerId record).trans hs
  | bridgeOut w a p token tracker total record => exact (adjust_ownerId record).trans hs
  | transferOwnership => rfl
  | setChainConfig k config tracker record =>
    rcases record with rfl | ⟨_,rfl⟩
    · exact hs
    · exact (SupplyTracker.update_ownerId _ _ _ _ _).trans hs
  | report => exact (SupplyTracker.update_ownerId _ _ _ _ _).trans hs
  | refusedReport => exact hs
  | quiet => exact hs

theorem report_tracked_iff {s : DiamondToken T} (hs : Synced s) (hq : Tracked s) (env : Env)
    (k : UInt16) (name : String) (v : ℕ) :
    ((s.supplyTracker.updateChainSupply env k name v).1.getChainSupply s.nearChainId).map
        ChainSupply.supply = some s.ftTotalSupply ↔
      (k = s.nearChainId → env.predecessorAccountId = s.ownerId → v = s.ftTotalSupply) := by
  have hq' : (s.supplyTracker.getChainSupply s.nearChainId).map ChainSupply.supply =
      some s.ftTotalSupply := hq
  by_cases hk : k = s.nearChainId
  · subst hk
    by_cases ho : env.predecessorAccountId = s.ownerId
    · rw [SupplyTracker.update_getChainSupply (ho.trans hs.symm)]
      simp [ho]
    · rw [SupplyTracker.update_other (fun h => ho (h.trans hs)),hq']
      simp [ho]
  · rw [SupplyTracker.update_getChainSupply_ne _ _ _ _ (Ne.symm hk),hq']
    simp [hk]

/-- From a state with a true record, exactly the calls above leave one. -/
theorem effect_tracked_iff {s s' : DiamondToken T} {env : Env} {op : Op} (hs : Synced s)
    (hq : Tracked s) (h : Effect s env op s') : Tracked s' ↔ KeepsRecord s ⟨env,op⟩ := by
  cases h with
  | mint u a token tracker time owner room total record =>
    have ht := (grown_tracked_iff hs hq total record).mpr (Or.inr owner)
    exact iff_of_true ht trivial
  | bridgeIn k sender u a token tracker room total record =>
    exact (grown_tracked_iff hs hq total record :)
  | burn a token tracker time total record =>
    exact (shrunk_tracked_iff hs hq total record :)
  | bridgeOut w a p token tracker total record =>
    exact (shrunk_tracked_iff hs hq total record :)
  | transferOwnership => exact iff_of_true hq trivial
  | setChainConfig k config tracker record =>
    apply iff_of_true _ trivial
    rcases record with rfl | ⟨hnone,rfl⟩
    · exact hq
    · have hk : s.nearChainId ≠ k := by
        intro hk
        change (s.supplyTracker.getChainSupply s.nearChainId).map _ = _ at hq
        rw [hk,hnone] at hq
        cases hq
      change (SupplyTracker.getChainSupply _ s.nearChainId).map _ = _
      rw [SupplyTracker.update_getChainSupply_ne _ _ _ _ hk]
      exact hq
  | report k v config known allowed =>
    have ht := report_tracked_iff hs hq env k config.chainName v
    simp only [KeepsRecord,known,Option.isSome_some,true_implies]
    exact ht
  | refusedReport k v refused =>
    apply iff_of_true hq
    intro hk hsome ho
    rcases refused with hnone | hno
    · rw [hnone] at hsome
      cases hsome
    · change env.predecessorAccountId = s.ownerId at ho
      exact absurd (by simp [isAuthorizedReporter,ho]) hno
  | quiet op token endpoint manager configs time hop total =>
    apply iff_of_true
    · change s.trackedSupply = some (totalSupply token)
      rw [total]
      exact hq
    · cases op <;> trivial

variable [LawfulFungibleToken T]

theorem next_synced (s : DiamondToken T) (c : Call) (hs : Synced s) : Synced (next s c) :=
  AtomicRun.settle_preserves hs fun _ h => effect_synced hs (step_effect h)

theorem next_tracked_iff (s : DiamondToken T) (c : Call) (hs : Synced s) (hq : Tracked s) :
    Tracked (next s c) ↔ (Accepted s c → KeepsRecord s c) :=
  AtomicRun.settle_iff hq fun _ h => effect_tracked_iff hs hq (step_effect h)

theorem new_tracked {env : Env} {ownerId lzEndpoint : AccountId} {nearChainId : UInt16}
    {s : DiamondToken T} (howner : env.predecessorAccountId = ownerId)
    (h : new env ownerId lzEndpoint nearChainId = .ok s) : Synced s ∧ Tracked s := by
  obtain ⟨_,hreg,h⟩ := Checked.bind_ok.mp h
  obtain ⟨_,hdep,h⟩ := Checked.bind_ok.mp h
  cases h
  constructor
  · exact SupplyTracker.update_ownerId _ _ _ _ _
  · change (SupplyTracker.getChainSupply _ nearChainId).map _ = some (totalSupply _)
    rw [SupplyTracker.update_getChainSupply howner,
      LawfulFungibleToken.deposit_totalSupply _ _ _ _ hdep,
      LawfulFungibleToken.register_totalSupply _ _ _ hreg,
      LawfulFungibleToken.new_totalSupply]
    simp

/-- Over a whole run from a deployment by the owner, the record agrees with
the ledger at every state exactly when every accepted call keeps it. -/
theorem tracked_supply_iff {env : Env} {ownerId lzEndpoint : AccountId} {nearChainId : UInt16}
    {s : DiamondToken T} (howner : env.predecessorAccountId = ownerId)
    (hnew : new env ownerId lzEndpoint nearChainId = .ok s) (calls : List Call) :
    AtomicRun.Throughout next Tracked calls s ↔
      AtomicRun.Along next (fun s c => Accepted s c → KeepsRecord s c) calls s :=
  AtomicRun.throughout_iff_along next_synced next_tracked_iff
    (new_tracked howner hnew).1 (new_tracked howner hnew).2

def callBy (accountId : AccountId) (op : Op) : Call where
  env := firstBlock accountId "diamond.near"
  op := op

def ethereum : ChainConfig where
  remoteChainId := 1
  remoteBridgeAddress := "0x1234567890123456789012345678901234567890"
  chainName := "Ethereum"
  enabled := true
  feeBasisPoints := 50
  minFee := 1000000000000000000
  maxFee := 100000000000000000000
  supplyOracle := none

theorem tracked_supply_iff_deployed :
    ∃ s : DiamondToken Ledger,
      new (firstBlock "owner.near" "diamond.near") "owner.near" "lz.near" 15 = .ok s ∧
      (AtomicRun.Throughout next Tracked [callBy "owner.near" (.burn 7)] s ↔
        AtomicRun.Along next (fun s c => Accepted s c → KeepsRecord s c)
          [callBy "owner.near" (.burn 7)] s) :=
  ⟨_,rfl,@tracked_supply_iff Ledger _ _ (firstBlock "owner.near" "diamond.near")
    "owner.near" "lz.near" 15 _ rfl rfl _⟩

/-- Tokens bridged in by the endpoint enter the ledger and not the tracker. -/
theorem bridged_in_untracked :
    ∃ s : DiamondToken Ledger,
      new (firstBlock "owner.near" "diamond.near") "owner.near" "lz.near" 15 = .ok s ∧
      ¬Tracked (AtomicRun.run next [
        callBy "owner.near" (.setChainConfig 1 ethereum),
        callBy "lz.near" (.bridgeIn 1 "0xabc" "alice.near" 5)] s) := by
  refine ⟨_,rfl,?_⟩
  unfold Tracked
  decide

end DiamondBot.DiamondToken
