import DiamondBot.Token.FungibleToken
import DiamondBot.Token.SupplyTracker
import DiamondBot.Token.ModuleManager
import DiamondBot.Token.Bridge
import DiamondBot.Library.AtomicRun

/-!
# The Diamond token contract

The contract moves its ledger and its supply tracker separately. Every entry
point that writes is one operation of a call; a call that panics writes
nothing. Values returned to the caller are dropped in the step of a run. The
entry points generated for the standard, transfers with a call and storage
accounts, are not among the operations.
-/

set_option autoImplicit false

namespace DiamondBot
open NearRuntime Library FungibleToken

structure DiamondToken (T : Type) where
  token : T
  ownerId : AccountId
  maxSupply : ℕ
  chainConfigs : LookupMap UInt16 ChainConfig
  lzEndpoint : AccountId
  supplyTracker : SupplyTracker
  nearChainId : UInt16
  moduleManager : ModuleManager
  lastUpdate : ℕ

namespace DiamondToken

def maxSupplyLimit : ℕ := 1000000000000000000000000000

def initialSupply : ℕ := 250000000000000000000000000

variable {T : Type} [FungibleToken T]

def ftTotalSupply (s : DiamondToken T) : ℕ := totalSupply s.token

def new (env : Env) (ownerId lzEndpoint : AccountId) (nearChainId : UInt16) :
    Outcome (DiamondToken T) := do
  let supplyTracker := SupplyTracker.new nearChainId maxSupplyLimit ownerId
  let token ← internalRegisterAccount (FungibleToken.new : T) ownerId
  let token ← internalDeposit token ownerId initialSupply
  pure {
    token
    ownerId
    maxSupply := maxSupplyLimit
    chainConfigs := ∅
    lzEndpoint
    supplyTracker :=
      (supplyTracker.updateChainSupply env nearChainId "NEAR Protocol" initialSupply).1
    nearChainId
    moduleManager := ModuleManager.new ownerId none
    lastUpdate := env.systemTime }

def assertOwner (s : DiamondToken T) (env : Env) : Outcome Unit :=
  Checked.require (env.predecessorAccountId = s.ownerId) "Only owner can call this method"

/-- The block repeated in `mint`, `burn` and both bridge directions: when the
tracker has a record of NEAR, it is asked to store the adjusted supply. -/
def adjustNearSupply (s : DiamondToken T) (env : Env) (adjust : ℕ → Outcome ℕ) :
    Outcome SupplyTracker :=
  match s.supplyTracker.getChainSupply s.nearChainId with
  | some chainSupply => do
    let newSupply ← adjust chainSupply.supply
    pure (s.supplyTracker.updateChainSupply env s.nearChainId chainSupply.chainName newSupply).1
  | none => pure s.supplyTracker

def ensureRegistered (token : T) (accountId : AccountId) : Outcome T :=
  if (balance token accountId).isSome then pure token
  else internalRegisterAccount token accountId

def ftTransfer (s : DiamondToken T) (env : Env) (receiverId : AccountId) (amount : ℕ)
    (memo : Option String) : Outcome (DiamondToken T) := do
  let token ← internalTransfer s.token env.predecessorAccountId receiverId amount memo
  pure { s with token, lastUpdate := env.systemTime }

def mint (s : DiamondToken T) (env : Env) (accountId : AccountId) (amount : ℕ) :
    Outcome (DiamondToken T) := do
  s.assertOwner env
  Checked.require ((← addU128 s.ftTotalSupply amount) ≤ s.maxSupply)
    "Cannot mint more than max supply"
  let totalCirculating ← s.supplyTracker.getTotalCirculatingSupply
  Checked.require ((← addU128 totalCirculating amount) ≤ s.maxSupply)
    "Cannot mint more than global max supply"
  let token ← internalDeposit s.token accountId amount
  let supplyTracker ← s.adjustNearSupply env (fun supply => addU128 supply amount)
  pure { s with token, supplyTracker, lastUpdate := env.systemTime }

def burn (s : DiamondToken T) (env : Env) (amount : ℕ) : Outcome (DiamondToken T) := do
  let token ← internalWithdraw s.token env.predecessorAccountId amount
  let supplyTracker ← s.adjustNearSupply env (fun supply => Checked.sub supply amount)
  pure { s with token, supplyTracker, lastUpdate := env.systemTime }

def setLzEndpoint (s : DiamondToken T) (env : Env) (lzEndpoint : AccountId) :
    Outcome (DiamondToken T) := do
  s.assertOwner env
  pure { s with lzEndpoint, lastUpdate := env.systemTime }

def getGlobalCirculatingSupply (s : DiamondToken T) : Outcome ℕ :=
  s.supplyTracker.getTotalCirculatingSupply

def getNearCirculatingSupply (s : DiamondToken T) : ℕ :=
  match s.supplyTracker.getChainSupply s.nearChainId with
  | some chainSupply => chainSupply.supply
  | none => 0

def addModuleAdmin (s : DiamondToken T) (env : Env) (adminId : AccountId) :
    Outcome (DiamondToken T × Bool) := do
  s.assertOwner env
  let (moduleManager,result) ← s.moduleManager.addAdmin env adminId
  pure ({ s with moduleManager, lastUpdate := env.systemTime },result)

def addModule (s : DiamondToken T) (env : Env) (newModule : Module) :
    Outcome (DiamondToken T × Bool) := do
  s.assertOwner env
  let (moduleManager,result) ← s.moduleManager.addModule env newModule
  pure ({ s with moduleManager, lastUpdate := env.systemTime },result)

def transferOwnership (s : DiamondToken T) (env : Env) (newOwnerId : AccountId) :
    Outcome (DiamondToken T) := do
  s.assertOwner env
  let supplyTracker ← s.supplyTracker.transferOwnership env newOwnerId
  let moduleManager ← s.moduleManager.transferOwnership env newOwnerId
  pure { s with
    supplyTracker
    moduleManager
    ownerId := newOwnerId
    lastUpdate := env.systemTime }

def callModuleFunction (s : DiamondToken T) (env : Env) (moduleName functionName args : String)
    (attachedDeposit remainingGas : ℕ) : Outcome ModuleCall := do
  s.assertOwner env
  let gas ← Checked.sub remainingGas 30000000000000
  s.moduleManager.callModuleFunction env moduleName functionName args attachedDeposit gas

def estimateBridgeFee (s : DiamondToken T) (destChainId : UInt16) (amount : ℕ) :
    Outcome ℕ :=
  match s.chainConfigs.lookup destChainId with
  | none => pure 0
  | some config => do
    let fee := (← mulU128 amount config.feeBasisPoints.toNat)/10000
    pure (if fee < config.minFee then config.minFee
      else if fee > config.maxFee then config.maxFee else fee)

def bridgeOut (s : DiamondToken T) (env : Env) (toAddress : String) (amount : ℕ)
    (lzParams : LayerZeroParams) : Outcome (DiamondToken T × LzSend) := do
  let senderId := env.predecessorAccountId
  let config ← Checked.expect (s.chainConfigs.lookup lzParams.destChainId) "Chain not supported"
  Checked.require config.enabled "Bridge to this chain is disabled"
  let feeAmount ← s.estimateBridgeFee lzParams.destChainId amount
  Checked.require (lzParams.fees ≥ feeAmount)
    ("Insufficient bridge fee. Required: " ++ toString feeAmount)
  let token ← internalWithdraw s.token senderId amount
  let supplyTracker ← s.adjustNearSupply env (fun supply => Checked.sub supply amount)
  pure ({ s with token, supplyTracker },
    lzSend s.lzEndpoint lzParams.destChainId config.remoteBridgeAddress.toUTF8
      ⟨senderId,toAddress,amount⟩ senderId lzParams.adapterParams lzParams.fees)

def bridgeIn (s : DiamondToken T) (env : Env) (fromChainId : UInt16) (_sender : String)
    (receiverId : AccountId) (amount : ℕ) : Outcome (DiamondToken T × Bool) := do
  Checked.require (env.predecessorAccountId = s.lzEndpoint)
    "Only LZ endpoint can call this method"
  let config ← Checked.expect (s.chainConfigs.lookup fromChainId) "Chain not supported"
  Checked.require config.enabled "Bridge from this chain is disabled"
  Checked.require ((← addU128 s.ftTotalSupply amount) ≤ s.maxSupply)
    "Bridge would exceed max supply"
  let totalCirculating ← s.supplyTracker.getTotalCirculatingSupply
  Checked.require ((← addU128 totalCirculating amount) ≤ s.maxSupply)
    "Bridge would exceed global max supply"
  let token ← ensureRegistered s.token receiverId
  let token ← internalDeposit token receiverId amount
  let supplyTracker ← s.adjustNearSupply env (fun supply => addU128 supply amount)
  pure ({ s with token, supplyTracker },true)

def setChainConfig (s : DiamondToken T) (env : Env) (chainId : UInt16) (config : ChainConfig) :
    Outcome (DiamondToken T) := do
  s.assertOwner env
  pure { s with
    chainConfigs := s.chainConfigs.insert chainId config
    supplyTracker := if (s.supplyTracker.getChainSupply chainId).isNone then
        (s.supplyTracker.updateChainSupply env chainId config.chainName 0).1
      else s.supplyTracker }

def getChainConfig (s : DiamondToken T) (chainId : UInt16) : Option ChainConfig :=
  s.chainConfigs.lookup chainId

def getChainSupplies (s : DiamondToken T) : List (UInt16 × String × ℕ) :=
  s.supplyTracker.getAllChainSupplies.map fun c => (c.chainId,c.chainName,c.supply)

def isAuthorizedReporter (s : DiamondToken T) (env : Env) (chainId : UInt16) : Bool :=
  s.ownerId = env.predecessorAccountId ||
    ((s.chainConfigs.lookup chainId).bind ChainConfig.supplyOracle).any
      fun oracle => oracle = env.predecessorAccountId

def updateRemoteChainSupply (s : DiamondToken T) (env : Env) (chainId : UInt16)
    (supply : ℕ) : DiamondToken T × Bool :=
  if ¬s.isAuthorizedReporter env chainId then (s,false)
  else match s.chainConfigs.lookup chainId with
    | some config =>
      ({ s with supplyTracker :=
        (s.supplyTracker.updateChainSupply env chainId config.chainName supply).1 },true)
    | none => (s,false)

def setSupplyOracle (s : DiamondToken T) (env : Env) (chainId : UInt16) (oracle : AccountId) :
    Outcome (DiamondToken T × Bool) := do
  s.assertOwner env
  match s.chainConfigs.lookup chainId with
  | some config =>
    pure ({ s with chainConfigs :=
      s.chainConfigs.insert chainId { config with supplyOracle := some oracle } },true)
  | none => pure (s,false)

inductive Op where
  | mint (accountId : AccountId) (amount : ℕ)
  | burn (amount : ℕ)
  | ftTransfer (receiverId : AccountId) (amount : ℕ) (memo : Option String)
  | setLzEndpoint (lzEndpoint : AccountId)
  | addModuleAdmin (adminId : AccountId)
  | addModule (newModule : Module)
  | transferOwnership (newOwnerId : AccountId)
  | bridgeOut (toAddress : String) (amount : ℕ) (lzParams : LayerZeroParams)
  | bridgeIn (fromChainId : UInt16) (sender : String) (receiverId : AccountId) (amount : ℕ)
  | setChainConfig (chainId : UInt16) (config : ChainConfig)
  | setSupplyOracle (chainId : UInt16) (oracle : AccountId)
  | updateRemoteChainSupply (chainId : UInt16) (supply : ℕ)

structure Call where
  env : Env
  op : Op

def step (s : DiamondToken T) (c : Call) : Outcome (DiamondToken T) :=
  match c.op with
  | .mint accountId amount => s.mint c.env accountId amount
  | .burn amount => s.burn c.env amount
  | .ftTransfer receiverId amount memo => s.ftTransfer c.env receiverId amount memo
  | .setLzEndpoint lzEndpoint => s.setLzEndpoint c.env lzEndpoint
  | .addModuleAdmin adminId => (s.addModuleAdmin c.env adminId).map Prod.fst
  | .addModule newModule => (s.addModule c.env newModule).map Prod.fst
  | .transferOwnership newOwnerId => s.transferOwnership c.env newOwnerId
  | .bridgeOut toAddress amount lzParams =>
    (s.bridgeOut c.env toAddress amount lzParams).map Prod.fst
  | .bridgeIn fromChainId sender receiverId amount =>
    (s.bridgeIn c.env fromChainId sender receiverId amount).map Prod.fst
  | .setChainConfig chainId config => s.setChainConfig c.env chainId config
  | .setSupplyOracle chainId oracle => (s.setSupplyOracle c.env chainId oracle).map Prod.fst
  | .updateRemoteChainSupply chainId supply =>
    .ok (s.updateRemoteChainSupply c.env chainId supply).1

/-- A panicking call leaves the contract as it was. -/
def next : DiamondToken T → Call → DiamondToken T := AtomicRun.settle step

end DiamondToken
end DiamondBot
