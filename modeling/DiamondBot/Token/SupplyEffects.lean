import DiamondBot.Token.DiamondToken

/-!
# What an accepted call does to the supplies

One lemma lists, for each operation, the guards an accepted call has passed
and the state it leaves. Later results about the ledger and the tracker read
this list and never unfold an entry point again.
-/

set_option autoImplicit false

namespace DiamondBot.DiamondToken
open NearRuntime Library FungibleToken

variable {T : Type}

def nearRecord (s : DiamondToken T) : ℕ := s.supplyTracker.recorded s.nearChainId

def remoteRecord (s : DiamondToken T) : ℕ := s.supplyTracker.remote s.nearChainId

theorem assertOwner_ok {s : DiamondToken T} {env : Env} {u : Unit}
    (h : s.assertOwner env = .ok u) : env.predecessorAccountId = s.ownerId :=
  Checked.require_ok.mp h

theorem circulating_room {s : DiamondToken T} {circulating amount checked : ℕ}
    (hc : s.supplyTracker.getTotalCirculatingSupply = .ok circulating)
    (ha : addU128 circulating amount = .ok checked) (hm : checked ≤ s.maxSupply) :
    s.nearRecord+s.remoteRecord+amount ≤ s.maxSupply := by
  have hs := SupplyTracker.circulating_eq s.nearChainId hc
  have hd := (Checked.add_ok.mp ha).2
  unfold nearRecord remoteRecord
  omega

variable [FungibleToken T]

def Accepted (s : DiamondToken T) (c : Call) : Prop := ∃ s', step s c = .ok s'

def Op.quiet : Op → Prop
  | .ftTransfer _ _ _ | .setLzEndpoint _ | .addModuleAdmin _ | .addModule _
  | .setSupplyOracle _ _ => True
  | _ => False

inductive Effect (s : DiamondToken T) (env : Env) : Op → DiamondToken T → Prop
  | mint (accountId : AccountId) (amount : ℕ) (token : T) (tracker : SupplyTracker)
      (time : ℕ) (owner : env.predecessorAccountId = s.ownerId)
      (room : s.nearRecord+s.remoteRecord+amount ≤ s.maxSupply)
      (total : totalSupply token = totalSupply s.token+amount)
      (record : s.adjustNearSupply env (fun v => addU128 v amount) = .ok tracker) :
      Effect s env (.mint accountId amount)
        { s with token, supplyTracker := tracker, lastUpdate := time }
  | bridgeIn (fromChainId : UInt16) (sender : String) (receiverId : AccountId)
      (amount : ℕ) (token : T) (tracker : SupplyTracker)
      (room : s.nearRecord+s.remoteRecord+amount ≤ s.maxSupply)
      (total : totalSupply token = totalSupply s.token+amount)
      (record : s.adjustNearSupply env (fun v => addU128 v amount) = .ok tracker) :
      Effect s env (.bridgeIn fromChainId sender receiverId amount)
        { s with token, supplyTracker := tracker }
  | burn (amount : ℕ) (token : T) (tracker : SupplyTracker) (time : ℕ)
      (total : totalSupply token+amount = totalSupply s.token)
      (record : s.adjustNearSupply env (fun v => Checked.sub v amount) = .ok tracker) :
      Effect s env (.burn amount)
        { s with token, supplyTracker := tracker, lastUpdate := time }
  | bridgeOut (toAddress : String) (amount : ℕ) (lzParams : LayerZeroParams)
      (token : T) (tracker : SupplyTracker)
      (total : totalSupply token+amount = totalSupply s.token)
      (record : s.adjustNearSupply env (fun v => Checked.sub v amount) = .ok tracker) :
      Effect s env (.bridgeOut toAddress amount lzParams)
        { s with token, supplyTracker := tracker }
  | transferOwnership (newOwnerId : AccountId) (manager : ModuleManager) (time : ℕ) :
      Effect s env (.transferOwnership newOwnerId)
        { s with
          supplyTracker := { s.supplyTracker with ownerId := newOwnerId }
          moduleManager := manager
          ownerId := newOwnerId
          lastUpdate := time }
  | setChainConfig (chainId : UInt16) (config : ChainConfig) (tracker : SupplyTracker)
      (record : tracker = s.supplyTracker ∨ s.supplyTracker.getChainSupply chainId = none ∧
        tracker = (s.supplyTracker.updateChainSupply env chainId config.chainName 0).1) :
      Effect s env (.setChainConfig chainId config)
        { s with
          chainConfigs := s.chainConfigs.insert chainId config
          supplyTracker := tracker }
  | report (chainId : UInt16) (supply : ℕ) (config : ChainConfig)
      (known : s.chainConfigs.lookup chainId = some config)
      (allowed : s.isAuthorizedReporter env chainId) :
      Effect s env (.updateRemoteChainSupply chainId supply)
        { s with supplyTracker :=
          (s.supplyTracker.updateChainSupply env chainId config.chainName supply).1 }
  | refusedReport (chainId : UInt16) (supply : ℕ)
      (refused : s.chainConfigs.lookup chainId = none ∨ ¬s.isAuthorizedReporter env chainId) :
      Effect s env (.updateRemoteChainSupply chainId supply) s
  | quiet (op : Op) (token : T) (endpoint : AccountId) (manager : ModuleManager)
      (configs : LookupMap UInt16 ChainConfig) (time : ℕ) (hop : op.quiet)
      (total : totalSupply token = totalSupply s.token) :
      Effect s env op
        { s with token, lzEndpoint := endpoint, moduleManager := manager,
                 chainConfigs := configs, lastUpdate := time }

/-! ## The entry points that move tokens -/

theorem mint_ok {s s' : DiamondToken T} {env : Env} {accountId : AccountId} {amount : ℕ}
    (h : s.mint env accountId amount = .ok s') :
    ∃ token tracker, env.predecessorAccountId = s.ownerId ∧
      s.nearRecord+s.remoteRecord+amount ≤ s.maxSupply ∧
      internalDeposit s.token accountId amount = .ok token ∧
      s.adjustNearSupply env (fun v => addU128 v amount) = .ok tracker ∧
      s' = { s with token, supplyTracker := tracker, lastUpdate := env.systemTime } := by
  obtain ⟨_,howner,h⟩ := Checked.bind_ok.mp h
  obtain ⟨_,_,h⟩ := Checked.bind_ok.mp h
  obtain ⟨_,_,h⟩ := Checked.bind_ok.mp h
  obtain ⟨_,hcirc,h⟩ := Checked.bind_ok.mp h
  obtain ⟨_,hadd,h⟩ := Checked.bind_ok.mp h
  obtain ⟨_,hmax,h⟩ := Checked.bind_ok.mp h
  obtain ⟨token,htoken,h⟩ := Checked.bind_ok.mp h
  obtain ⟨tracker,hrecord,h⟩ := Checked.bind_ok.mp h
  cases h
  exact ⟨token,tracker,assertOwner_ok howner,
    circulating_room hcirc hadd (Checked.require_ok.mp hmax),htoken,hrecord,rfl⟩

theorem burn_ok {s s' : DiamondToken T} {env : Env} {amount : ℕ}
    (h : s.burn env amount = .ok s') :
    ∃ token tracker, internalWithdraw s.token env.predecessorAccountId amount = .ok token ∧
      s.adjustNearSupply env (fun v => Checked.sub v amount) = .ok tracker ∧
      s' = { s with token, supplyTracker := tracker, lastUpdate := env.systemTime } := by
  obtain ⟨token,htoken,h⟩ := Checked.bind_ok.mp h
  obtain ⟨tracker,hrecord,h⟩ := Checked.bind_ok.mp h
  cases h
  exact ⟨token,tracker,htoken,hrecord,rfl⟩

theorem bridgeOut_ok {s : DiamondToken T} {env : Env} {toAddress : String} {amount : ℕ}
    {lzParams : LayerZeroParams} {r : DiamondToken T × LzSend}
    (h : s.bridgeOut env toAddress amount lzParams = .ok r) :
    ∃ config token tracker, s.chainConfigs.lookup lzParams.destChainId = some config ∧
      internalWithdraw s.token env.predecessorAccountId amount = .ok token ∧
      s.adjustNearSupply env (fun v => Checked.sub v amount) = .ok tracker ∧
      r = ({ s with token, supplyTracker := tracker },
        lzSend s.lzEndpoint lzParams.destChainId config.remoteBridgeAddress.toUTF8
          ⟨env.predecessorAccountId,toAddress,amount⟩ env.predecessorAccountId
          lzParams.adapterParams lzParams.fees) := by
  obtain ⟨config,hconfig,h⟩ := Checked.bind_ok.mp h
  obtain ⟨_,_,h⟩ := Checked.bind_ok.mp h
  obtain ⟨_,_,h⟩ := Checked.bind_ok.mp h
  obtain ⟨_,_,h⟩ := Checked.bind_ok.mp h
  obtain ⟨token,htoken,h⟩ := Checked.bind_ok.mp h
  obtain ⟨tracker,hrecord,h⟩ := Checked.bind_ok.mp h
  cases h
  exact ⟨config,token,tracker,Checked.expect_ok.mp hconfig,htoken,hrecord,rfl⟩

theorem bridgeIn_ok {s : DiamondToken T} {env : Env} {fromChainId : UInt16} {sender : String}
    {receiverId : AccountId} {amount : ℕ} {r : DiamondToken T × Bool}
    (h : s.bridgeIn env fromChainId sender receiverId amount = .ok r) :
    ∃ registered token tracker, s.nearRecord+s.remoteRecord+amount ≤ s.maxSupply ∧
      ensureRegistered s.token receiverId = .ok registered ∧
      internalDeposit registered receiverId amount = .ok token ∧
      s.adjustNearSupply env (fun v => addU128 v amount) = .ok tracker ∧
      r = ({ s with token, supplyTracker := tracker },true) := by
  obtain ⟨_,_,h⟩ := Checked.bind_ok.mp h
  obtain ⟨_,_,h⟩ := Checked.bind_ok.mp h
  obtain ⟨_,_,h⟩ := Checked.bind_ok.mp h
  obtain ⟨_,_,h⟩ := Checked.bind_ok.mp h
  obtain ⟨_,_,h⟩ := Checked.bind_ok.mp h
  obtain ⟨_,hcirc,h⟩ := Checked.bind_ok.mp h
  obtain ⟨_,hadd,h⟩ := Checked.bind_ok.mp h
  obtain ⟨_,hmax,h⟩ := Checked.bind_ok.mp h
  obtain ⟨registered,hreg,h⟩ := Checked.bind_ok.mp h
  obtain ⟨token,htoken,h⟩ := Checked.bind_ok.mp h
  obtain ⟨tracker,hrecord,h⟩ := Checked.bind_ok.mp h
  cases h
  exact ⟨registered,token,tracker,circulating_room hcirc hadd (Checked.require_ok.mp hmax),hreg,
    htoken,hrecord,rfl⟩

/-! ## The other entry points -/

theorem ftTransfer_ok {s s' : DiamondToken T} {env : Env} {receiverId : AccountId} {amount : ℕ}
    {memo : Option String} (h : s.ftTransfer env receiverId amount memo = .ok s') :
    ∃ token, internalTransfer s.token env.predecessorAccountId receiverId amount memo = .ok token ∧
      s' = { s with token, lastUpdate := env.systemTime } := by
  obtain ⟨token,htoken,h⟩ := Checked.bind_ok.mp h
  cases h
  exact ⟨token,htoken,rfl⟩

omit [FungibleToken T] in
theorem setLzEndpoint_ok {s s' : DiamondToken T} {env : Env} {lzEndpoint : AccountId}
    (h : s.setLzEndpoint env lzEndpoint = .ok s') :
    s' = { s with lzEndpoint, lastUpdate := env.systemTime } := by
  obtain ⟨_,_,h⟩ := Checked.bind_ok.mp h
  cases h
  rfl

omit [FungibleToken T] in
theorem addModuleAdmin_ok {s : DiamondToken T} {env : Env} {adminId : AccountId}
    {r : DiamondToken T × Bool} (h : s.addModuleAdmin env adminId = .ok r) :
    ∃ m, s.moduleManager.addAdmin env adminId = .ok m ∧
      r = ({ s with moduleManager := m.1, lastUpdate := env.systemTime },m.2) := by
  obtain ⟨_,_,h⟩ := Checked.bind_ok.mp h
  obtain ⟨m,hm,h⟩ := Checked.bind_ok.mp h
  cases h
  exact ⟨m,hm,rfl⟩

omit [FungibleToken T] in
theorem addModule_ok {s : DiamondToken T} {env : Env} {newModule : Module}
    {r : DiamondToken T × Bool} (h : s.addModule env newModule = .ok r) :
    ∃ m, s.moduleManager.addModule env newModule = .ok m ∧
      r = ({ s with moduleManager := m.1, lastUpdate := env.systemTime },m.2) := by
  obtain ⟨_,_,h⟩ := Checked.bind_ok.mp h
  obtain ⟨m,hm,h⟩ := Checked.bind_ok.mp h
  cases h
  exact ⟨m,hm,rfl⟩

omit [FungibleToken T] in
theorem transferOwnership_ok {s s' : DiamondToken T} {env : Env} {newOwnerId : AccountId}
    (h : s.transferOwnership env newOwnerId = .ok s') :
    ∃ manager, s.moduleManager.transferOwnership env newOwnerId = .ok manager ∧
      s' = { s with
        supplyTracker := { s.supplyTracker with ownerId := newOwnerId }
        moduleManager := manager
        ownerId := newOwnerId
        lastUpdate := env.systemTime } := by
  obtain ⟨_,_,h⟩ := Checked.bind_ok.mp h
  obtain ⟨_,htracker,h⟩ := Checked.bind_ok.mp h
  obtain ⟨manager,hmanager,h⟩ := Checked.bind_ok.mp h
  obtain ⟨_,_,htracker⟩ := Checked.bind_ok.mp htracker
  cases htracker
  cases h
  exact ⟨manager,hmanager,rfl⟩

omit [FungibleToken T] in
theorem setSupplyOracle_ok {s : DiamondToken T} {env : Env} {chainId : UInt16}
    {oracle : AccountId} {r : DiamondToken T × Bool}
    (h : s.setSupplyOracle env chainId oracle = .ok r) :
    ∃ chainConfigs, r.1 = { s with chainConfigs } := by
  obtain ⟨_,_,h⟩ := Checked.bind_ok.mp h
  split at h
  · cases h
    exact ⟨_,rfl⟩
  · cases h
    exact ⟨s.chainConfigs,rfl⟩

theorem transferOwnership_effect {s s' : DiamondToken T} {env : Env} {newOwnerId : AccountId}
    (h : s.transferOwnership env newOwnerId = .ok s') :
    Effect s env (.transferOwnership newOwnerId) s' := by
  obtain ⟨_,_,rfl⟩ := transferOwnership_ok h
  exact .transferOwnership _ _ _

theorem setChainConfig_effect {s s' : DiamondToken T} {env : Env} {chainId : UInt16}
    {config : ChainConfig} (h : s.setChainConfig env chainId config = .ok s') :
    Effect s env (.setChainConfig chainId config) s' := by
  obtain ⟨_,_,h⟩ := Checked.bind_ok.mp h
  cases h
  apply Effect.setChainConfig
  by_cases hn : (s.supplyTracker.getChainSupply chainId).isNone
  · exact Or.inr ⟨by simpa using hn,if_pos hn⟩
  · exact Or.inl (if_neg hn)

theorem updateRemoteChainSupply_effect (s : DiamondToken T) (env : Env) (chainId : UInt16)
    (supply : ℕ) : Effect s env (.updateRemoteChainSupply chainId supply)
      (s.updateRemoteChainSupply env chainId supply).1 := by
  unfold updateRemoteChainSupply
  by_cases ha : s.isAuthorizedReporter env chainId
  · rw [if_neg (not_not.mpr ha)]
    split
    · exact .report _ _ _ ‹_› ha
    · exact .refusedReport _ _ (Or.inl ‹_›)
  · rw [if_pos ha]
    exact .refusedReport _ _ (Or.inr ha)

theorem setSupplyOracle_effect {s : DiamondToken T} {env : Env} {chainId : UInt16}
    {oracle : AccountId} {r : DiamondToken T × Bool}
    (h : s.setSupplyOracle env chainId oracle = .ok r) :
    Effect s env (.setSupplyOracle chainId oracle) r.1 := by
  obtain ⟨_,hr⟩ := setSupplyOracle_ok h
  rw [hr]
  exact .quiet _ _ _ _ _ _ trivial rfl

variable [LawfulFungibleToken T]

theorem mint_effect {s s' : DiamondToken T} {env : Env} {accountId : AccountId}
    {amount : ℕ} (h : s.mint env accountId amount = .ok s') :
    Effect s env (.mint accountId amount) s' := by
  obtain ⟨token,tracker,howner,hroom,htoken,hrecord,rfl⟩ := mint_ok h
  exact .mint _ _ _ _ _ howner hroom
    (LawfulFungibleToken.deposit_totalSupply _ _ _ _ htoken) hrecord

theorem burn_effect {s s' : DiamondToken T} {env : Env} {amount : ℕ}
    (h : s.burn env amount = .ok s') : Effect s env (.burn amount) s' := by
  obtain ⟨token,tracker,htoken,hrecord,rfl⟩ := burn_ok h
  exact .burn _ _ _ _ (LawfulFungibleToken.withdraw_totalSupply _ _ _ _ htoken) hrecord

theorem bridgeOut_effect {s : DiamondToken T} {env : Env} {toAddress : String}
    {amount : ℕ} {lzParams : LayerZeroParams} {r : DiamondToken T × LzSend}
    (h : s.bridgeOut env toAddress amount lzParams = .ok r) :
    Effect s env (.bridgeOut toAddress amount lzParams) r.1 := by
  obtain ⟨_,token,tracker,_,htoken,hrecord,rfl⟩ := bridgeOut_ok h
  exact .bridgeOut _ _ _ _ _ (LawfulFungibleToken.withdraw_totalSupply _ _ _ _ htoken) hrecord

theorem registered_totalSupply {t t' : T} {u : AccountId}
    (h : ensureRegistered t u = .ok t') : totalSupply t' = totalSupply t := by
  unfold ensureRegistered at h
  split at h
  · cases h
    rfl
  · exact LawfulFungibleToken.register_totalSupply _ _ _ h

theorem bridgeIn_effect {s : DiamondToken T} {env : Env} {fromChainId : UInt16}
    {sender : String} {receiverId : AccountId} {amount : ℕ} {r : DiamondToken T × Bool}
    (h : s.bridgeIn env fromChainId sender receiverId amount = .ok r) :
    Effect s env (.bridgeIn fromChainId sender receiverId amount) r.1 := by
  obtain ⟨registered,token,tracker,hroom,hreg,htoken,hrecord,rfl⟩ := bridgeIn_ok h
  apply Effect.bridgeIn _ _ _ _ _ _ hroom
  · rw [LawfulFungibleToken.deposit_totalSupply _ _ _ _ htoken,registered_totalSupply hreg]
  · exact hrecord

/-- Every accepted call is one of the listed effects. -/
theorem step_effect {s s' : DiamondToken T} {c : Call} (h : step s c = .ok s') :
    Effect s c.env c.op s' := by
  obtain ⟨env,op⟩ := c
  cases op with
  | mint accountId amount => exact mint_effect h
  | burn amount => exact burn_effect h
  | ftTransfer receiverId amount memo =>
    obtain ⟨_,htoken,rfl⟩ := ftTransfer_ok h
    exact .quiet _ _ _ _ _ _ trivial
      (LawfulFungibleToken.transfer_totalSupply _ _ _ _ _ _ htoken)
  | setLzEndpoint lzEndpoint =>
    obtain rfl := setLzEndpoint_ok h
    exact .quiet _ _ _ _ _ _ trivial rfl
  | addModuleAdmin adminId =>
    obtain ⟨r,hr,rfl⟩ := Checked.map_ok.mp h
    obtain ⟨_,_,rfl⟩ := addModuleAdmin_ok hr
    exact .quiet _ _ _ _ _ _ trivial rfl
  | addModule newModule =>
    obtain ⟨r,hr,rfl⟩ := Checked.map_ok.mp h
    obtain ⟨_,_,rfl⟩ := addModule_ok hr
    exact .quiet _ _ _ _ _ _ trivial rfl
  | transferOwnership newOwnerId => exact transferOwnership_effect h
  | bridgeOut toAddress amount lzParams =>
    obtain ⟨r,hr,rfl⟩ := Checked.map_ok.mp h
    exact bridgeOut_effect hr
  | bridgeIn fromChainId sender receiverId amount =>
    obtain ⟨r,hr,rfl⟩ := Checked.map_ok.mp h
    exact bridgeIn_effect hr
  | setChainConfig chainId config => exact setChainConfig_effect h
  | setSupplyOracle chainId oracle =>
    obtain ⟨r,hr,rfl⟩ := Checked.map_ok.mp h
    exact setSupplyOracle_effect hr
  | updateRemoteChainSupply chainId supply =>
    cases h
    exact updateRemoteChainSupply_effect s env chainId supply

end DiamondBot.DiamondToken
