import DiamondBot.Near.Runtime
import DiamondBot.Library.AtomicRun

/-!
# The registry of extension modules

The owner always belongs to the administrators. Registered modules are kept
by name, with their names in order of registration.
-/

set_option autoImplicit false

namespace DiamondBot
open NearRuntime Library

inductive ModuleStatus where
  | active
  | paused
  | deprecated
  deriving DecidableEq, Repr

structure Module where
  name : String
  contractId : AccountId
  version : String
  status : ModuleStatus
  addedTimestamp : ℕ
  lastUpdated : ℕ
  metadata : String
  deriving DecidableEq, Repr

structure ModuleCall where
  contractId : AccountId
  functionName : String
  args : ByteArray
  deposit : ℕ
  gas : ℕ

structure ModuleManager where
  modules : LookupMap String Module
  moduleKeys : List String
  authorizedCallers : LookupMap AccountId (List String)
  ownerId : AccountId
  admins : List AccountId

namespace ModuleManager

def new (ownerId : AccountId) (initAdmins : Option (List AccountId)) : ModuleManager :=
  let admins := initAdmins.getD []
  { modules := ∅
    moduleKeys := []
    authorizedCallers := ∅
    ownerId
    admins := if ownerId ∈ admins then admins else admins++[ownerId] }

def isAdmin (m : ModuleManager) (accountId : AccountId) : Bool := accountId ∈ m.admins

def assertAdmin (m : ModuleManager) (env : Env) : Outcome Unit :=
  Checked.require (m.isAdmin env.predecessorAccountId) "Only admin can perform this action"

def addModule (m : ModuleManager) (env : Env) (newModule : Module) :
    Outcome (ModuleManager × Bool) := do
  m.assertAdmin env
  if (m.modules.lookup newModule.name).isSome then pure (m,false)
  else pure ({ m with
    moduleKeys := m.moduleKeys++[newModule.name]
    modules := m.modules.insert newModule.name newModule },true)

def updateModule (m : ModuleManager) (env : Env) (name : String) (updatedModule : Module) :
    Outcome (ModuleManager × Bool) := do
  m.assertAdmin env
  if (m.modules.lookup name).isNone then pure (m,false)
  else pure ({ m with modules := m.modules.insert name updatedModule },true)

def updateModuleStatus (m : ModuleManager) (env : Env) (name : String) (status : ModuleStatus) :
    Outcome (ModuleManager × Bool) := do
  m.assertAdmin env
  match m.modules.lookup name with
  | some stored =>
    let updated := { stored with
      status
      lastUpdated := env.blockTimestamp }
    pure ({ m with modules := m.modules.insert name updated },true)
  | none => pure (m,false)

def removeModule (m : ModuleManager) (env : Env) (name : String) :
    Outcome (ModuleManager × Bool) := do
  m.assertAdmin env
  if (m.modules.lookup name).isNone then pure (m,false)
  else pure ({ m with
    modules := m.modules.erase name
    moduleKeys := m.moduleKeys.filter fun key => key ≠ name },true)

/-- The loop of `authorize_caller`: a permission already held is not repeated. -/
def addPermissions : List String → List String → List String
  | current, [] => current
  | current, perm::perms =>
    addPermissions (if perm ∈ current then current else current++[perm]) perms

def authorizeCaller (m : ModuleManager) (env : Env) (contractId : AccountId)
    (permissions : List String) : Outcome (ModuleManager × Bool) := do
  m.assertAdmin env
  let currentPermissions := (m.authorizedCallers.lookup contractId).getD []
  pure ({ m with authorizedCallers :=
    m.authorizedCallers.insert contractId (addPermissions currentPermissions permissions) },true)

def revokeCaller (m : ModuleManager) (env : Env) (contractId : AccountId)
    (permissions : Option (List String)) : Outcome (ModuleManager × Bool) := do
  m.assertAdmin env
  match permissions with
  | some perms =>
    match m.authorizedCallers.lookup contractId with
    | some currentPermissions =>
      let kept := currentPermissions.filter fun p => p ∉ perms
      pure ({ m with authorizedCallers :=
        if kept.isEmpty then m.authorizedCallers.erase contractId
        else m.authorizedCallers.insert contractId kept },true)
    | none => pure (m,false)
  | none =>
    pure ({ m with authorizedCallers := m.authorizedCallers.erase contractId },
      (m.authorizedCallers.lookup contractId).isSome)

def hasPermission (m : ModuleManager) (contractId : AccountId) (permission : String) : Bool :=
  if contractId ∈ m.admins then true
  else match m.authorizedCallers.lookup contractId with
    | some permissions => permission ∈ permissions
    | none => false

def listModules (m : ModuleManager) (keep : Module → Bool) : List String → Outcome (List Module)
  | [] => pure []
  | key::keys => do
    let stored ← Checked.expect (m.modules.lookup key)
      "called `Option::unwrap()` on a `None` value"
    let rest ← m.listModules keep keys
    pure (if keep stored then stored::rest else rest)

def getActiveModules (m : ModuleManager) : Outcome (List Module) :=
  m.listModules (fun stored => stored.status = .active) m.moduleKeys

def getAllModules (m : ModuleManager) : Outcome (List Module) :=
  m.listModules (fun _ => true) m.moduleKeys

def callModuleFunction (m : ModuleManager) (env : Env) (moduleName functionName args : String)
    (deposit gas : ℕ) : Outcome ModuleCall := do
  m.assertAdmin env
  let stored ← Checked.expect (m.modules.lookup moduleName) "Module not found"
  Checked.require (stored.status = .active) "Module is not active"
  pure ⟨stored.contractId,functionName,args.toUTF8,deposit,gas⟩

def addAdmin (m : ModuleManager) (env : Env) (adminId : AccountId) :
    Outcome (ModuleManager × Bool) := do
  Checked.require (env.predecessorAccountId = m.ownerId) "Only owner can add admins"
  if adminId ∈ m.admins then pure (m,false)
  else pure ({ m with admins := m.admins++[adminId] },true)

def removeAdmin (m : ModuleManager) (env : Env) (adminId : AccountId) :
    Outcome (ModuleManager × Bool) := do
  Checked.require (env.predecessorAccountId = m.ownerId) "Only owner can remove admins"
  Checked.require (adminId ≠ m.ownerId) "Cannot remove owner from admins"
  let admins := m.admins.filter fun id => id ≠ adminId
  pure ({ m with admins },m.admins.length ≠ admins.length)

def transferOwnership (m : ModuleManager) (env : Env) (newOwnerId : AccountId) :
    Outcome ModuleManager := do
  Checked.require (env.predecessorAccountId = m.ownerId) "Only owner can transfer ownership"
  pure { m with
    admins := if newOwnerId ∈ m.admins then m.admins else m.admins++[newOwnerId]
    ownerId := newOwnerId }

inductive Op where
  | addModule (newModule : Module)
  | updateModule (name : String) (updatedModule : Module)
  | updateModuleStatus (name : String) (status : ModuleStatus)
  | removeModule (name : String)
  | authorizeCaller (contractId : AccountId) (permissions : List String)
  | revokeCaller (contractId : AccountId) (permissions : Option (List String))
  | addAdmin (adminId : AccountId)
  | removeAdmin (adminId : AccountId)
  | transferOwnership (newOwnerId : AccountId)

structure Call where
  env : Env
  op : Op

def step (m : ModuleManager) (c : Call) : Outcome ModuleManager :=
  match c.op with
  | .addModule newModule => (m.addModule c.env newModule).map Prod.fst
  | .updateModule name updatedModule => (m.updateModule c.env name updatedModule).map Prod.fst
  | .updateModuleStatus name status => (m.updateModuleStatus c.env name status).map Prod.fst
  | .removeModule name => (m.removeModule c.env name).map Prod.fst
  | .authorizeCaller contractId permissions =>
    (m.authorizeCaller c.env contractId permissions).map Prod.fst
  | .revokeCaller contractId permissions =>
    (m.revokeCaller c.env contractId permissions).map Prod.fst
  | .addAdmin adminId => (m.addAdmin c.env adminId).map Prod.fst
  | .removeAdmin adminId => (m.removeAdmin c.env adminId).map Prod.fst
  | .transferOwnership newOwnerId => m.transferOwnership c.env newOwnerId

/-- A panicking call leaves the registry as it was. -/
def next : ModuleManager → Call → ModuleManager := AtomicRun.settle step

end ModuleManager
end DiamondBot
