import DiamondBot.Near.Runtime
import DiamondBot.Library.KeyedTotal

/-!
# The tracker of supplies by chain

One record for each chain the tracker has heard of. An update by an account
other than the owner writes nothing and reports `false`; the callers in the
token contract drop that report.
-/

set_option autoImplicit false

namespace DiamondBot
open NearRuntime Library

structure ChainSupply where
  chainId : UInt16
  chainName : String
  supply : ℕ
  lastUpdated : ℕ

structure SupplyTracker where
  supplies : LookupMap UInt16 ChainSupply
  nearChainId : UInt16
  maxSupply : ℕ
  ownerId : AccountId

namespace SupplyTracker

def new (nearChainId : UInt16) (maxSupply : ℕ) (ownerId : AccountId) : SupplyTracker :=
  ⟨∅,nearChainId,maxSupply,ownerId⟩

def updateChainSupply (t : SupplyTracker) (env : Env) (chainId : UInt16)
    (chainName : String) (supply : ℕ) : SupplyTracker × Bool :=
  if env.predecessorAccountId ≠ t.ownerId then (t,false)
  else
    let chainSupply := ⟨chainId,chainName,supply,env.blockTimestamp⟩
    ({ t with supplies := t.supplies.insert chainId chainSupply },true)

def isAuthorizedOracle (t : SupplyTracker) (accountId : AccountId) : Bool :=
  accountId = t.ownerId

def getTotalCirculatingSupply (t : SupplyTracker) : Outcome ℕ :=
  Checked.sum 128 (t.supplies.entries.map fun e => e.2.supply) 0

def canMintAdditional (t : SupplyTracker) (amount : ℕ) : Outcome Bool := do
  let currentTotal ← t.getTotalCirculatingSupply
  pure (decide ((← addU128 currentTotal amount) ≤ t.maxSupply))

def getChainSupply (t : SupplyTracker) (chainId : UInt16) : Option ChainSupply :=
  t.supplies.lookup chainId

def getAllChainSupplies (t : SupplyTracker) : List ChainSupply :=
  t.supplies.entries.map fun e => e.2

def setNearChainId (t : SupplyTracker) (env : Env) (nearChainId : UInt16) :
    Outcome SupplyTracker := do
  Checked.require (env.predecessorAccountId = t.ownerId) "Only owner can update NEAR chain ID"
  pure { t with nearChainId }

def setMaxSupply (t : SupplyTracker) (env : Env) (maxSupply : ℕ) :
    Outcome SupplyTracker := do
  Checked.require (env.predecessorAccountId = t.ownerId) "Only owner can update max supply"
  pure { t with maxSupply }

def transferOwnership (t : SupplyTracker) (env : Env) (newOwnerId : AccountId) :
    Outcome SupplyTracker := do
  Checked.require (env.predecessorAccountId = t.ownerId) "Only owner can transfer ownership"
  pure { t with ownerId := newOwnerId }

def supplyOf (_ : UInt16) (c : ChainSupply) : ℕ := c.supply

def recorded (t : SupplyTracker) (chainId : UInt16) : ℕ :=
  KeyedTotal.share supplyOf t.supplies chainId

def remote (t : SupplyTracker) (chainId : UInt16) : ℕ :=
  KeyedTotal.total (KeyedTotal.without chainId supplyOf) t.supplies

theorem recorded_some {t : SupplyTracker} {k : UInt16} {c : ChainSupply}
    (h : t.getChainSupply k = some c) : t.recorded k = c.supply :=
  KeyedTotal.share_some h

theorem recorded_none {t : SupplyTracker} {k : UInt16}
    (h : t.getChainSupply k = none) : t.recorded k = 0 :=
  KeyedTotal.share_none h

@[simp] theorem new_remote (near k : UInt16) (cap : ℕ) (owner : AccountId) :
    (new near cap owner).remote k = 0 := rfl

theorem update_other {t : SupplyTracker} {env : Env} {k : UInt16} {name : String} {v : ℕ}
    (h : env.predecessorAccountId ≠ t.ownerId) :
    (t.updateChainSupply env k name v).1 = t := by
  simp [updateChainSupply,h]

theorem update_owner {t : SupplyTracker} {env : Env} {k : UInt16} {name : String} {v : ℕ}
    (h : env.predecessorAccountId = t.ownerId) :
    (t.updateChainSupply env k name v).1 =
      { t with supplies := t.supplies.insert k ⟨k,name,v,env.blockTimestamp⟩ } := by
  simp [updateChainSupply,h]

theorem update_ownerId (t : SupplyTracker) (env : Env) (k : UInt16) (name : String)
    (v : ℕ) : (t.updateChainSupply env k name v).1.ownerId = t.ownerId := by
  unfold updateChainSupply
  split <;> rfl

theorem update_getChainSupply {t : SupplyTracker} {env : Env} {k : UInt16} {name : String}
    {v : ℕ} (h : env.predecessorAccountId = t.ownerId) :
    (t.updateChainSupply env k name v).1.getChainSupply k =
      some ⟨k,name,v,env.blockTimestamp⟩ := by
  rw [update_owner h]
  simp [getChainSupply]

theorem update_getChainSupply_ne (t : SupplyTracker) (env : Env) {k j : UInt16}
    (name : String) (v : ℕ) (h : j ≠ k) :
    (t.updateChainSupply env k name v).1.getChainSupply j = t.getChainSupply j := by
  by_cases ho : env.predecessorAccountId = t.ownerId
  · rw [update_owner ho]
    simp [getChainSupply,AList.lookup_insert_ne h]
  · rw [update_other ho]

theorem update_remote (t : SupplyTracker) (env : Env) (k : UInt16) (name : String)
    (v : ℕ) : (t.updateChainSupply env k name v).1.remote k = t.remote k := by
  by_cases ho : env.predecessorAccountId = t.ownerId
  · rw [update_owner ho]
    exact KeyedTotal.total_without_insert k supplyOf t.supplies _
  · rw [update_other ho]

theorem update_zero_remote {t : SupplyTracker} {env : Env} {k : UInt16} {name : String}
    (j : UInt16) (h : t.getChainSupply k = none) :
    (t.updateChainSupply env k name 0).1.remote j = t.remote j := by
  by_cases ho : env.predecessorAccountId = t.ownerId
  · rw [update_owner ho]
    have hi := KeyedTotal.total_insert (KeyedTotal.without j supplyOf) t.supplies k
      ⟨k,name,0,env.blockTimestamp⟩
    rw [KeyedTotal.share_none h] at hi
    simpa [remote,KeyedTotal.without,supplyOf] using hi
  · rw [update_other ho]

theorem circulating_eq {t : SupplyTracker} {v : ℕ} (k : UInt16)
    (h : t.getTotalCirculatingSupply = .ok v) : v = t.recorded k+t.remote k := by
  have hs := Checked.sum_ok _ h
  rw [zero_add] at hs
  rw [hs]
  exact KeyedTotal.total_split k supplyOf t.supplies

end SupplyTracker
end DiamondBot
