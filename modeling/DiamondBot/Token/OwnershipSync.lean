import DiamondBot.Token.TrackedSupply

/-!
# One owner in three components

The token contract, its supply tracker and its module registry each keep the
owner for themselves and check callers against their own copy. Every operation
keeps the three copies equal and the owner among the admins, so the checks of
the nested calls never refuse what the outer check has let through.
-/

set_option autoImplicit false

namespace DiamondBot.DiamondToken
open NearRuntime Library FungibleToken

variable {T : Type}

structure InSync (s : DiamondToken T) : Prop where
  tracker : Synced s
  manager : s.moduleManager.ownerId = s.ownerId
  admin : s.moduleManager.isAdmin s.ownerId

/-! ## The copies along a run -/

theorem addAdmin_owner {m : ModuleManager} {env : Env} {adminId : AccountId}
    {r : ModuleManager × Bool} (h : m.addAdmin env adminId = .ok r) :
    r.1.ownerId = m.ownerId ∧ ∀ u, m.isAdmin u → r.1.isAdmin u := by
  obtain ⟨_,_,h⟩ := Checked.bind_ok.mp h
  split at h
  · cases h
    exact ⟨rfl,fun _ hu => hu⟩
  · cases h
    refine ⟨rfl,fun u hu => ?_⟩
    simp only [ModuleManager.isAdmin,decide_eq_true_eq] at hu ⊢
    exact List.mem_append_left _ hu

theorem addModule_owner {m : ModuleManager} {env : Env} {x : Module} {r : ModuleManager × Bool}
    (h : m.addModule env x = .ok r) : r.1.ownerId = m.ownerId ∧ r.1.admins = m.admins := by
  obtain ⟨_,_,h⟩ := Checked.bind_ok.mp h
  split at h
  · cases h
    exact ⟨rfl,rfl⟩
  · cases h
    exact ⟨rfl,rfl⟩

theorem transferOwnership_admin {m m' : ModuleManager} {env : Env} {newOwnerId : AccountId}
    (h : m.transferOwnership env newOwnerId = .ok m') :
    m'.ownerId = newOwnerId ∧ m'.isAdmin newOwnerId := by
  obtain ⟨_,_,h⟩ := Checked.bind_ok.mp h
  cases h
  refine ⟨rfl,?_⟩
  simp only [ModuleManager.isAdmin,decide_eq_true_eq]
  split
  · assumption
  · simp

theorem transferOwnership_inSync {s s' : DiamondToken T} {env : Env} {newOwnerId : AccountId}
    (h : s.transferOwnership env newOwnerId = .ok s') : s'.ownerId = newOwnerId ∧ s'.InSync := by
  obtain ⟨manager,hmanager,rfl⟩ := transferOwnership_ok h
  obtain ⟨howner,hadmin⟩ := transferOwnership_admin hmanager
  exact ⟨rfl,⟨rfl,howner,hadmin⟩⟩

theorem adjusted_inSync {s s' : DiamondToken T} {env : Env} {f : ℕ → Outcome ℕ}
    {tracker : SupplyTracker} (hs : s.InSync) (h : s.adjustNearSupply env f = .ok tracker)
    (htracker : s'.supplyTracker = tracker) (hmanager : s'.moduleManager = s.moduleManager)
    (howner : s'.ownerId = s.ownerId) : s'.InSync := by
  refine ⟨?_,?_,?_⟩
  · rw [Synced,htracker,adjust_ownerId h,howner]
    exact hs.tracker
  · rw [hmanager,howner]
    exact hs.manager
  · rw [hmanager,howner]
    exact hs.admin

theorem setChainConfig_inSync {s s' : DiamondToken T} {env : Env} {chainId : UInt16}
    {config : ChainConfig} (hs : s.InSync) (h : s.setChainConfig env chainId config = .ok s') :
    s'.InSync := by
  obtain ⟨_,_,h⟩ := Checked.bind_ok.mp h
  cases h
  refine ⟨?_,hs.manager,hs.admin⟩
  unfold Synced
  simp only
  split
  · rw [SupplyTracker.update_ownerId]
    exact hs.tracker
  · exact hs.tracker

theorem updateRemoteChainSupply_inSync {s : DiamondToken T} (hs : s.InSync) (env : Env)
    (chainId : UInt16) (supply : ℕ) : (s.updateRemoteChainSupply env chainId supply).1.InSync := by
  unfold updateRemoteChainSupply
  split
  · exact hs
  · split
    · exact ⟨(SupplyTracker.update_ownerId _ _ _ _ _).trans hs.tracker,hs.manager,hs.admin⟩
    · exact hs

variable [FungibleToken T]

theorem new_inSync {env : Env} {ownerId lzEndpoint : AccountId} {nearChainId : UInt16}
    {s : DiamondToken T} (h : new env ownerId lzEndpoint nearChainId = .ok s) : s.InSync := by
  obtain ⟨_,_,h⟩ := Checked.bind_ok.mp h
  obtain ⟨_,_,h⟩ := Checked.bind_ok.mp h
  cases h
  refine ⟨SupplyTracker.update_ownerId _ _ _ _ _,rfl,?_⟩
  simp [ModuleManager.new,ModuleManager.isAdmin]

theorem step_inSync {s s' : DiamondToken T} {c : Call} (hs : s.InSync) (h : step s c = .ok s') :
    s'.InSync := by
  obtain ⟨env,op⟩ := c
  cases op with
  | mint accountId amount =>
    obtain ⟨token,tracker,_,_,_,hrecord,rfl⟩ := mint_ok h
    exact adjusted_inSync hs hrecord rfl rfl rfl
  | burn amount =>
    obtain ⟨token,tracker,_,hrecord,rfl⟩ := burn_ok h
    exact adjusted_inSync hs hrecord rfl rfl rfl
  | ftTransfer receiverId amount memo =>
    obtain ⟨_,_,rfl⟩ := ftTransfer_ok h
    exact ⟨hs.tracker,hs.manager,hs.admin⟩
  | setLzEndpoint lzEndpoint =>
    obtain rfl := setLzEndpoint_ok h
    exact ⟨hs.tracker,hs.manager,hs.admin⟩
  | addModuleAdmin adminId =>
    obtain ⟨r,hr,rfl⟩ := Checked.map_ok.mp h
    obtain ⟨m,hm,rfl⟩ := addModuleAdmin_ok hr
    obtain ⟨howner,hadmins⟩ := addAdmin_owner hm
    exact ⟨hs.tracker,howner.trans hs.manager,hadmins _ hs.admin⟩
  | addModule newModule =>
    obtain ⟨r,hr,rfl⟩ := Checked.map_ok.mp h
    obtain ⟨m,hm,rfl⟩ := addModule_ok hr
    obtain ⟨howner,hadmins⟩ := addModule_owner hm
    refine ⟨hs.tracker,howner.trans hs.manager,?_⟩
    have hadmin := hs.admin
    unfold ModuleManager.isAdmin at hadmin ⊢
    simp only
    rw [hadmins]
    exact hadmin
  | transferOwnership newOwnerId => exact (transferOwnership_inSync h).2
  | bridgeOut toAddress amount lzParams =>
    obtain ⟨r,hr,rfl⟩ := Checked.map_ok.mp h
    obtain ⟨_,token,tracker,_,_,hrecord,rfl⟩ := bridgeOut_ok hr
    exact adjusted_inSync hs hrecord rfl rfl rfl
  | bridgeIn fromChainId sender receiverId amount =>
    obtain ⟨r,hr,rfl⟩ := Checked.map_ok.mp h
    obtain ⟨_,token,tracker,_,_,_,hrecord,rfl⟩ := bridgeIn_ok hr
    exact adjusted_inSync hs hrecord rfl rfl rfl
  | setChainConfig chainId config => exact setChainConfig_inSync hs h
  | setSupplyOracle chainId oracle =>
    obtain ⟨r,hr,rfl⟩ := Checked.map_ok.mp h
    obtain ⟨_,hconfigs⟩ := setSupplyOracle_ok hr
    rw [hconfigs]
    exact ⟨hs.tracker,hs.manager,hs.admin⟩
  | updateRemoteChainSupply chainId supply =>
    cases h
    exact updateRemoteChainSupply_inSync hs env chainId supply

theorem run_inSync {s : DiamondToken T} (calls : List Call) (hs : s.InSync) :
    (AtomicRun.run next calls s).InSync :=
  AtomicRun.run_invariant (fun _ _ h => AtomicRun.settle_preserves h fun _ => step_inSync h)
    hs calls

/-! ## Who the owner's operations accept -/

def callerChecks : List String := [
  "Only owner can call this method",
  "Only owner can update NEAR chain ID",
  "Only owner can update max supply",
  "Only owner can transfer ownership",
  "Only owner can add admins",
  "Only owner can remove admins",
  "Only admin can perform this action"]

def Refused {α : Type} (o : Outcome α) : Prop := ∃ e ∈ callerChecks, o = .error e

/-- The operations of the three components that are for the owner. -/
inductive OwnerOp where
  | mint (accountId : AccountId) (amount : ℕ)
  | setLzEndpoint (lzEndpoint : AccountId)
  | addModuleAdmin (adminId : AccountId)
  | addModule (newModule : Module)
  | transferOwnership (newOwnerId : AccountId)
  | callModuleFunction (moduleName functionName args : String) (attachedDeposit remainingGas : ℕ)
  | setChainConfig (chainId : UInt16) (config : ChainConfig)
  | setSupplyOracle (chainId : UInt16) (oracle : AccountId)
  | trackerUpdateChainSupply (chainId : UInt16) (chainName : String) (supply : ℕ)
  | trackerSetNearChainId (nearChainId : UInt16)
  | trackerSetMaxSupply (maxSupply : ℕ)
  | trackerTransferOwnership (newOwnerId : AccountId)
  | managerAddAdmin (adminId : AccountId)
  | managerRemoveAdmin (adminId : AccountId)
  | managerTransferOwnership (newOwnerId : AccountId)

/-- The operation is refused because of who calls. -/
def RefusesCaller (s : DiamondToken T) (env : Env) : OwnerOp → Prop
  | .mint accountId amount => Refused (s.mint env accountId amount)
  | .setLzEndpoint lzEndpoint => Refused (s.setLzEndpoint env lzEndpoint)
  | .addModuleAdmin adminId => Refused (s.addModuleAdmin env adminId)
  | .addModule newModule => Refused (s.addModule env newModule)
  | .transferOwnership newOwnerId => Refused (s.transferOwnership env newOwnerId)
  | .callModuleFunction moduleName functionName args attachedDeposit remainingGas =>
    Refused (s.callModuleFunction env moduleName functionName args attachedDeposit remainingGas)
  | .setChainConfig chainId config => Refused (s.setChainConfig env chainId config)
  | .setSupplyOracle chainId oracle => Refused (s.setSupplyOracle env chainId oracle)
  | .trackerUpdateChainSupply chainId chainName supply =>
    (s.supplyTracker.updateChainSupply env chainId chainName supply).2 = false
  | .trackerSetNearChainId nearChainId => Refused (s.supplyTracker.setNearChainId env nearChainId)
  | .trackerSetMaxSupply maxSupply => Refused (s.supplyTracker.setMaxSupply env maxSupply)
  | .trackerTransferOwnership newOwnerId =>
    Refused (s.supplyTracker.transferOwnership env newOwnerId)
  | .managerAddAdmin adminId => Refused (s.moduleManager.addAdmin env adminId)
  | .managerRemoveAdmin adminId => Refused (s.moduleManager.removeAdmin env adminId)
  | .managerTransferOwnership newOwnerId =>
    Refused (s.moduleManager.transferOwnership env newOwnerId)

section Refusals

variable {α β : Type}

theorem not_refused_ok (a : α) : ¬Refused (.ok a : Outcome α) := by
  rintro ⟨e,_,⟨⟩⟩

theorem not_refused_bind {x : Outcome α} {f : α → Outcome β} (hx : ¬Refused x)
    (hf : ∀ a, x = .ok a → ¬Refused (f a)) : ¬Refused (x >>= f) := by
  cases h : x with
  | ok a => exact hf a h
  | error e =>
    rintro ⟨e',he',hbind⟩
    cases hbind
    exact hx ⟨e,he',h⟩

theorem not_refused_of_error {x : Outcome α} {message : String} (hmessage : message ∉ callerChecks)
    (hx : ∀ e, x = .error e → e = message) : ¬Refused x := by
  rintro ⟨e,he,h⟩
  rw [hx e h] at he
  exact hmessage he

theorem not_refused_add (a b : ℕ) : ¬Refused (addU128 a b) :=
  not_refused_of_error (by decide) fun _ => Checked.add_error

theorem refused_iff {p : Prop} [Decidable p] {message : String} {f : Unit → Outcome β}
    (hmessage : message ∈ callerChecks) (hf : p → ¬Refused (f ())) :
    Refused (Checked.require p message >>= f) ↔ ¬p := by
  unfold Checked.require
  by_cases hp : p
  · rw [if_pos hp]
    exact iff_of_false (hf hp) (not_not.mpr hp)
  · rw [if_neg hp]
    exact iff_of_true ⟨message,hmessage,rfl⟩ hp

end Refusals

section Managed

variable {m : ModuleManager} {env : Env}

theorem addAdmin_refused_iff (adminId : AccountId) :
    Refused (m.addAdmin env adminId) ↔ env.predecessorAccountId ≠ m.ownerId := by
  apply refused_iff (by decide)
  intro _
  split
  · exact not_refused_ok _
  · exact not_refused_ok _

theorem removeAdmin_refused_iff (adminId : AccountId) :
    Refused (m.removeAdmin env adminId) ↔ env.predecessorAccountId ≠ m.ownerId := by
  apply refused_iff (by decide)
  intro _
  apply not_refused_bind
  · exact not_refused_of_error (by decide) fun _ => Checked.require_error
  · exact fun _ _ => not_refused_ok _

theorem managerTransfer_refused_iff (newOwnerId : AccountId) :
    Refused (m.transferOwnership env newOwnerId) ↔ env.predecessorAccountId ≠ m.ownerId :=
  refused_iff (by decide) fun _ => not_refused_ok _

theorem not_refused_admin (h : m.isAdmin env.predecessorAccountId) :
    ¬Refused (m.assertAdmin env) := by
  rw [ModuleManager.assertAdmin,Checked.require,if_pos h]
  exact not_refused_ok _

theorem addModule_not_refused (h : m.isAdmin env.predecessorAccountId) (x : Module) :
    ¬Refused (m.addModule env x) := by
  apply not_refused_bind (not_refused_admin h)
  intro _ _
  split
  · exact not_refused_ok _
  · exact not_refused_ok _

theorem callModule_not_refused (h : m.isAdmin env.predecessorAccountId)
    (moduleName functionName args : String) (deposit gas : ℕ) :
    ¬Refused (m.callModuleFunction env moduleName functionName args deposit gas) := by
  apply not_refused_bind (not_refused_admin h)
  intro _ _
  apply not_refused_bind
  · exact not_refused_of_error (by decide) fun _ => Checked.expect_error
  · intro _ _
    apply not_refused_bind
    · exact not_refused_of_error (by decide) fun _ => Checked.require_error
    · exact fun _ _ => not_refused_ok _

end Managed

section Tracked

variable {t : SupplyTracker} {env : Env}

theorem setNearChainId_refused_iff (nearChainId : UInt16) :
    Refused (t.setNearChainId env nearChainId) ↔ env.predecessorAccountId ≠ t.ownerId :=
  refused_iff (by decide) fun _ => not_refused_ok _

theorem setMaxSupply_refused_iff (maxSupply : ℕ) :
    Refused (t.setMaxSupply env maxSupply) ↔ env.predecessorAccountId ≠ t.ownerId :=
  refused_iff (by decide) fun _ => not_refused_ok _

theorem trackerTransfer_refused_iff (newOwnerId : AccountId) :
    Refused (t.transferOwnership env newOwnerId) ↔ env.predecessorAccountId ≠ t.ownerId :=
  refused_iff (by decide) fun _ => not_refused_ok _

theorem updateChainSupply_refused_iff (chainId : UInt16) (chainName : String) (supply : ℕ) :
    (t.updateChainSupply env chainId chainName supply).2 = false ↔
      env.predecessorAccountId ≠ t.ownerId := by
  unfold SupplyTracker.updateChainSupply
  split
  · exact iff_of_true rfl ‹_›
  · exact iff_of_false (by simp) ‹_›

end Tracked

omit [FungibleToken T] in
theorem not_refused_adjust {s : DiamondToken T} {env : Env} {f : ℕ → Outcome ℕ}
    (hf : ∀ v, ¬Refused (f v)) : ¬Refused (s.adjustNearSupply env f) := by
  unfold adjustNearSupply
  split
  · exact not_refused_bind (hf _) fun _ _ => not_refused_ok _
  · exact not_refused_ok _

theorem mint_refused_iff {s : DiamondToken T} {env : Env} (accountId : AccountId) (amount : ℕ)
    (hdeposit : ∀ (t : T) (u : AccountId) (a : ℕ), ¬Refused (internalDeposit t u a)) :
    Refused (s.mint env accountId amount) ↔ env.predecessorAccountId ≠ s.ownerId := by
  apply refused_iff (by decide)
  intro _
  apply not_refused_bind (not_refused_add _ _)
  intro _ _
  apply not_refused_bind (not_refused_of_error (by decide) fun _ => Checked.require_error)
  intro _ _
  apply not_refused_bind (not_refused_of_error (by decide) fun _ => Checked.sum_error)
  intro _ _
  apply not_refused_bind (not_refused_add _ _)
  intro _ _
  apply not_refused_bind (not_refused_of_error (by decide) fun _ => Checked.require_error)
  intro _ _
  apply not_refused_bind (hdeposit _ _ _)
  intro _ _
  exact not_refused_bind (not_refused_adjust fun _ => not_refused_add _ _) fun _ _ =>
    not_refused_ok _

omit [FungibleToken T] in
theorem transferOwnership_refused_iff {s : DiamondToken T} {env : Env} (newOwnerId : AccountId)
    (hs : s.InSync) :
    Refused (s.transferOwnership env newOwnerId) ↔ env.predecessorAccountId ≠ s.ownerId := by
  apply refused_iff (by decide)
  intro howner
  apply not_refused_bind
  · rw [trackerTransfer_refused_iff,hs.tracker]
    exact not_not.mpr howner
  · intro _ _
    apply not_refused_bind
    · rw [managerTransfer_refused_iff,hs.manager]
      exact not_not.mpr howner
    · exact fun _ _ => not_refused_ok _

omit [FungibleToken T] in
theorem addModuleAdmin_refused_iff {s : DiamondToken T} {env : Env} (adminId : AccountId)
    (hs : s.InSync) :
    Refused (s.addModuleAdmin env adminId) ↔ env.predecessorAccountId ≠ s.ownerId := by
  apply refused_iff (by decide)
  intro howner
  apply not_refused_bind
  · rw [addAdmin_refused_iff,hs.manager]
    exact not_not.mpr howner
  · exact fun _ _ => not_refused_ok _

omit [FungibleToken T] in
theorem addModule_refused_iff {s : DiamondToken T} {env : Env} (newModule : Module)
    (hs : s.InSync) :
    Refused (s.addModule env newModule) ↔ env.predecessorAccountId ≠ s.ownerId := by
  apply refused_iff (by decide)
  intro howner
  exact not_refused_bind (addModule_not_refused (howner ▸ hs.admin) newModule) fun _ _ =>
    not_refused_ok _

omit [FungibleToken T] in
theorem callModuleFunction_refused_iff {s : DiamondToken T} {env : Env}
    (moduleName functionName args : String) (attachedDeposit remainingGas : ℕ) (hs : s.InSync) :
    Refused (s.callModuleFunction env moduleName functionName args attachedDeposit
      remainingGas) ↔ env.predecessorAccountId ≠ s.ownerId := by
  apply refused_iff (by decide)
  intro howner
  apply not_refused_bind
  · exact not_refused_of_error (by decide) fun _ => Checked.sub_error
  · exact fun _ _ => callModule_not_refused (howner ▸ hs.admin) _ _ _ _ _

omit [FungibleToken T] in
theorem setSupplyOracle_refused_iff {s : DiamondToken T} {env : Env} (chainId : UInt16)
    (oracle : AccountId) :
    Refused (s.setSupplyOracle env chainId oracle) ↔ env.predecessorAccountId ≠ s.ownerId := by
  apply refused_iff (by decide)
  intro _
  split
  · exact not_refused_ok _
  · exact not_refused_ok _

/-- While the copies agree, each of the owner's operations refuses exactly the
callers that are not the owner. -/
theorem refusesCaller_iff {s : DiamondToken T} (hs : s.InSync)
    (hdeposit : ∀ (t : T) (u : AccountId) (a : ℕ), ¬Refused (internalDeposit t u a))
    (env : Env) (op : OwnerOp) :
    s.RefusesCaller env op ↔ env.predecessorAccountId ≠ s.ownerId := by
  cases op with
  | mint accountId amount => exact mint_refused_iff accountId amount hdeposit
  | setLzEndpoint lzEndpoint => exact refused_iff (by decide) fun _ => not_refused_ok _
  | addModuleAdmin adminId => exact addModuleAdmin_refused_iff adminId hs
  | addModule newModule => exact addModule_refused_iff newModule hs
  | transferOwnership newOwnerId => exact transferOwnership_refused_iff newOwnerId hs
  | callModuleFunction moduleName functionName args attachedDeposit remainingGas =>
    exact callModuleFunction_refused_iff moduleName functionName args attachedDeposit
      remainingGas hs
  | setChainConfig chainId config => exact refused_iff (by decide) fun _ => not_refused_ok _
  | setSupplyOracle chainId oracle => exact setSupplyOracle_refused_iff chainId oracle
  | trackerUpdateChainSupply chainId chainName supply =>
    rw [← hs.tracker]
    exact updateChainSupply_refused_iff chainId chainName supply
  | trackerSetNearChainId nearChainId =>
    rw [← hs.tracker]
    exact setNearChainId_refused_iff nearChainId
  | trackerSetMaxSupply maxSupply =>
    rw [← hs.tracker]
    exact setMaxSupply_refused_iff maxSupply
  | trackerTransferOwnership newOwnerId =>
    rw [← hs.tracker]
    exact trackerTransfer_refused_iff newOwnerId
  | managerAddAdmin adminId =>
    rw [← hs.manager]
    exact addAdmin_refused_iff adminId
  | managerRemoveAdmin adminId =>
    rw [← hs.manager]
    exact removeAdmin_refused_iff adminId
  | managerTransferOwnership newOwnerId =>
    rw [← hs.manager]
    exact managerTransfer_refused_iff newOwnerId

omit [FungibleToken T] in
theorem transferOwnership_accepted {s : DiamondToken T} {env : Env} (newOwnerId : AccountId)
    (hs : s.InSync) (howner : env.predecessorAccountId = s.ownerId) :
    ∃ s', s.transferOwnership env newOwnerId = .ok s' := by
  have htracker : env.predecessorAccountId = s.supplyTracker.ownerId := by
    rw [hs.tracker]
    exact howner
  have hmanager : env.predecessorAccountId = s.moduleManager.ownerId := by
    rw [hs.manager]
    exact howner
  simp only [transferOwnership,assertOwner,SupplyTracker.transferOwnership,
    ModuleManager.transferOwnership,Checked.require,if_pos howner,if_pos htracker,
    if_pos hmanager,bind,Except.bind,pure,Except.pure]
  exact ⟨_,rfl⟩

/-- In every reachable state the three components agree on the owner, who is an
admin; a transfer by the owner goes through, and from then on each of the
owner's operations refuses exactly the callers that are not the new owner. -/
theorem ownership_in_sync {env : Env} {ownerId lzEndpoint : AccountId} {nearChainId : UInt16}
    {s : DiamondToken T} (hnew : new env ownerId lzEndpoint nearChainId = .ok s)
    (hdeposit : ∀ (t : T) (u : AccountId) (a : ℕ), ¬Refused (internalDeposit t u a))
    (calls : List Call) :
    (AtomicRun.run next calls s).InSync ∧
    ∀ (env : Env) (newOwnerId : AccountId),
      env.predecessorAccountId = (AtomicRun.run next calls s).ownerId →
      ∃ s', (AtomicRun.run next calls s).transferOwnership env newOwnerId = .ok s' ∧
        s'.ownerId = newOwnerId ∧ s'.InSync ∧
        ∀ (env : Env) (op : OwnerOp),
          s'.RefusesCaller env op ↔ env.predecessorAccountId ≠ newOwnerId := by
  have hrun := run_inSync calls (new_inSync hnew)
  refine ⟨hrun,fun env newOwnerId howner => ?_⟩
  obtain ⟨s',hs'⟩ := transferOwnership_accepted newOwnerId hrun howner
  obtain ⟨hnewOwner,hsync⟩ := transferOwnership_inSync hs'
  refine ⟨s',hs',hnewOwner,hsync,fun env op => ?_⟩
  rw [refusesCaller_iff hsync hdeposit,hnewOwner]

theorem unregistered_not_check (u : AccountId) :
    "The account "++u++" is not registered" ∉ callerChecks := by
  intro hmem
  have hfirst : ∀ e ∈ callerChecks, e.toList.head? = some 'O' := by decide +kernel
  have hhead := hfirst _ hmem
  rw [String.toList_append,String.toList_append] at hhead
  revert hhead
  simp

theorem ledger_deposit_not_refused (t : Ledger) (u : AccountId) (a : ℕ) :
    ¬Refused (internalDeposit t u a) := by
  change ¬Refused (t.deposit u a)
  apply not_refused_bind
  · exact not_refused_of_error (unregistered_not_check u) fun _ => Checked.expect_error
  · intro _ _
    apply not_refused_bind
    · exact not_refused_of_error (by decide) fun _ => Checked.require_error
    · intro _ _
      apply not_refused_bind
      · exact not_refused_of_error (by decide) fun _ => Checked.require_error
      · exact fun _ _ => not_refused_ok _

/-- The owner hands the contract over after a module admin was added. -/
theorem ownership_in_sync_handedOver : ∃ s s' : DiamondToken Ledger,
    new (firstBlock "owner.near" "diamond.near") "owner.near" "lz.near" 15 = .ok s ∧
    (next s (callBy "owner.near" (.addModuleAdmin "bob.near"))).transferOwnership
      (firstBlock "owner.near" "diamond.near") "alice.near" = .ok s' ∧
    s'.RefusesCaller (firstBlock "owner.near" "diamond.near") (.setLzEndpoint "lz.near") ∧
    ¬s'.RefusesCaller (firstBlock "alice.near" "diamond.near") (.setLzEndpoint "lz.near") := by
  obtain ⟨s,hs⟩ : ∃ s : DiamondToken Ledger,
      new (firstBlock "owner.near" "diamond.near") "owner.near" "lz.near" 15 = .ok s := ⟨_,rfl⟩
  obtain ⟨_,htransfer⟩ := ownership_in_sync hs ledger_deposit_not_refused
    [callBy "owner.near" (.addModuleAdmin "bob.near")]
  obtain ⟨s',hs',_,_,hops⟩ := htransfer (firstBlock "owner.near" "diamond.near") "alice.near"
    (by cases hs; rfl)
  exact ⟨s,s',hs,hs',(hops _ _).mpr (by decide),fun h => (hops _ _).mp h rfl⟩

end DiamondBot.DiamondToken
