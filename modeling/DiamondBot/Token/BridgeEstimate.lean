import DiamondBot.Token.TrackedSupply

/-!
# The fee estimate under an accepted configuration

The fee is a share of the amount brought between the two bounds of the chain's
configuration. The setter stores the bounds as they come, so the estimate is
between them exactly when they are in order.
-/

set_option autoImplicit false

namespace DiamondBot
open NearRuntime Library FungibleToken

namespace ChainConfig

def share (config : ChainConfig) (amount : ℕ) : ℕ :=
  amount*config.feeBasisPoints.toNat/10000

def feeOf (config : ChainConfig) (amount : ℕ) : ℕ :=
  if config.share amount < config.minFee then config.minFee
  else if config.share amount > config.maxFee then config.maxFee else config.share amount

theorem share_mono (config : ChainConfig) {a b : ℕ} (h : a ≤ b) :
    config.share a ≤ config.share b :=
  Nat.div_le_div_right (Nat.mul_le_mul_right _ h)

theorem feeOf_eq_clamp {config : ChainConfig} (h : config.minFee ≤ config.maxFee)
    (amount : ℕ) :
    config.feeOf amount = max config.minFee (min config.maxFee (config.share amount)) := by
  unfold feeOf
  split
  · rename_i hlow
    rw [min_eq_right (by omega),max_eq_left (by omega)]
  · split
    · rename_i hhigh
      rw [min_eq_left (by omega),max_eq_right h]
    · rw [min_eq_right (by omega),max_eq_right (by omega)]

theorem feeOf_mono {config : ChainConfig} (h : config.minFee ≤ config.maxFee) {a b : ℕ}
    (hab : a ≤ b) : config.feeOf a ≤ config.feeOf b := by
  rw [feeOf_eq_clamp h,feeOf_eq_clamp h]
  exact max_le_max le_rfl (min_le_min le_rfl (config.share_mono hab))

theorem share_fits (config : ChainConfig) {amount : ℕ} (h : amount ≤ DiamondToken.maxSupplyLimit) :
    amount*config.feeBasisPoints.toNat < 2^128 := by
  have hrate : config.feeBasisPoints.toNat ≤ 2^32-1 := Nat.le_sub_one_of_lt (UInt32.toNat_lt _)
  calc amount*config.feeBasisPoints.toNat
      ≤ DiamondToken.maxSupplyLimit*(2^32-1) := Nat.mul_le_mul h hrate
    _ < 2^128 := by decide

end ChainConfig

namespace DiamondToken

variable {T : Type}

/-- What the estimate promises for the amounts that can exist. -/
structure FeeBetweenBounds (s : DiamondToken T) (chainId : UInt16) (config : ChainConfig) :
    Prop where
  bounded : ∀ amount ≤ s.maxSupply, ∃ fee, s.estimateBridgeFee chainId amount = .ok fee ∧
    config.minFee ≤ fee ∧ fee ≤ config.maxFee ∧
    (config.minFee ≤ amount*config.feeBasisPoints.toNat/10000 →
      amount*config.feeBasisPoints.toNat/10000 ≤ config.maxFee →
      fee = amount*config.feeBasisPoints.toNat/10000)
  monotone : ∀ amount amount' fee fee', amount ≤ amount' → amount' ≤ s.maxSupply →
    s.estimateBridgeFee chainId amount = .ok fee →
    s.estimateBridgeFee chainId amount' = .ok fee' → fee ≤ fee'

theorem estimateBridgeFee_ok {s : DiamondToken T} {chainId : UInt16} {config : ChainConfig}
    (hconfig : s.chainConfigs.lookup chainId = some config) {amount : ℕ}
    (hamount : amount ≤ maxSupplyLimit) :
    s.estimateBridgeFee chainId amount = .ok (config.feeOf amount) := by
  have hmul : mulU128 amount config.feeBasisPoints.toNat =
      .ok (amount*config.feeBasisPoints.toNat) :=
    Checked.mul_ok.mpr ⟨config.share_fits hamount,rfl⟩
  simp only [estimateBridgeFee,hconfig,hmul]
  rfl

variable [FungibleToken T]

theorem effect_maxSupply {s s' : DiamondToken T} {env : Env} {op : Op}
    (h : Effect s env op s') : s'.maxSupply = s.maxSupply := by
  cases h <;> rfl

theorem new_maxSupply {env : Env} {ownerId lzEndpoint : AccountId} {nearChainId : UInt16}
    {s : DiamondToken T} (h : new env ownerId lzEndpoint nearChainId = .ok s) :
    s.maxSupply = maxSupplyLimit := by
  obtain ⟨_,_,h⟩ := Checked.bind_ok.mp h
  obtain ⟨_,_,h⟩ := Checked.bind_ok.mp h
  cases h
  rfl

variable [LawfulFungibleToken T]

theorem run_maxSupply {env : Env} {ownerId lzEndpoint : AccountId} {nearChainId : UInt16}
    {s : DiamondToken T} (hnew : new env ownerId lzEndpoint nearChainId = .ok s)
    (calls : List Call) : (AtomicRun.run next calls s).maxSupply = maxSupplyLimit := by
  have hstep : ∀ (t : DiamondToken T) (c : Call), t.maxSupply = maxSupplyLimit →
      (next t c).maxSupply = maxSupplyLimit := by
    intro t c ht
    exact AtomicRun.settle_preserves (Q := fun t => t.maxSupply = maxSupplyLimit) ht
      fun t' hok => (effect_maxSupply (step_effect hok)).trans ht
  exact AtomicRun.run_invariant hstep (new_maxSupply hnew) calls

/-- In every state a run reaches, a configuration the setter accepts gives
estimates as promised exactly when its bounds are in order. -/
theorem fee_between_bounds_iff {env : Env} {ownerId lzEndpoint : AccountId}
    {nearChainId : UInt16} {s₀ : DiamondToken T}
    (hnew : new env ownerId lzEndpoint nearChainId = .ok s₀) (calls : List Call)
    {caller : Env} {chainId : UInt16} {config : ChainConfig} {s : DiamondToken T}
    (hset : (AtomicRun.run next calls s₀).setChainConfig caller chainId config = .ok s) :
    s.FeeBetweenBounds chainId config ↔ config.minFee ≤ config.maxFee := by
  have hcap := run_maxSupply hnew calls
  have hconfig : s.chainConfigs.lookup chainId = some config ∧ s.maxSupply = maxSupplyLimit := by
    obtain ⟨_,_,hset⟩ := Checked.bind_ok.mp hset
    cases hset
    exact ⟨AList.lookup_insert _,hcap⟩
  have hfee : ∀ amount ≤ s.maxSupply,
      s.estimateBridgeFee chainId amount = .ok (config.feeOf amount) := by
    intro amount hamount
    exact estimateBridgeFee_ok hconfig.1 (hamount.trans_eq hconfig.2)
  constructor
  · intro h
    obtain ⟨fee,_,hlow,hhigh,_⟩ := h.bounded 0 (Nat.zero_le _)
    exact hlow.trans hhigh
  · intro h
    constructor
    · intro amount hamount
      refine ⟨_,hfee amount hamount,?_⟩
      rw [ChainConfig.feeOf_eq_clamp h]
      refine ⟨le_max_left _ _,max_le h (min_le_left _ _),fun hlow hhigh => ?_⟩
      rw [ChainConfig.share,min_eq_right hhigh,max_eq_right hlow]
    · intro amount amount' fee fee' hle hamount' hok hok'
      rw [hfee amount (hle.trans hamount')] at hok
      rw [hfee amount' hamount'] at hok'
      cases hok
      cases hok'
      exact ChainConfig.feeOf_mono h hle

theorem fee_between_bounds_iff_ethereum :
    ∃ s₀ s : DiamondToken Ledger,
      new (firstBlock "owner.near" "diamond.near") "owner.near" "lz.near" 15 = .ok s₀ ∧
      s₀.setChainConfig (firstBlock "owner.near" "diamond.near") 1 ethereum = .ok s ∧
      s.FeeBetweenBounds 1 ethereum :=
  ⟨_,_,rfl,rfl,(@fee_between_bounds_iff Ledger _ _ (firstBlock "owner.near" "diamond.near")
    "owner.near" "lz.near" 15 _ rfl [] (firstBlock "owner.near" "diamond.near") 1 ethereum _
    rfl).mpr (by decide)⟩

def crossedBounds : ChainConfig := { ethereum with minFee := 2, maxFee := 1 }

/-- The setter takes the crossed bounds, small amounts then cost more than the
upper bound, and larger ones cost less than small ones. -/
theorem crossed_bounds_accepted :
    ∃ s₀ s : DiamondToken Ledger,
      new (firstBlock "owner.near" "diamond.near") "owner.near" "lz.near" 15 = .ok s₀ ∧
      s₀.setChainConfig (firstBlock "owner.near" "diamond.near") 1 crossedBounds = .ok s ∧
      s.estimateBridgeFee 1 0 = .ok 2 ∧ s.estimateBridgeFee 1 1000 = .ok 1 ∧
      ¬s.FeeBetweenBounds 1 crossedBounds := by
  refine ⟨_,_,rfl,rfl,rfl,rfl,?_⟩
  intro h
  have hfee := h.monotone 0 1000 2 1 (by decide) (by decide) rfl rfl
  omega

end DiamondToken
end DiamondBot
