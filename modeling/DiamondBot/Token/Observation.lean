import DiamondBot.Token.Balances
import DiamondBot.Token.DiamondToken

/-!
# States that answer every call alike

Two states of the contract that show the same balances and the same figures by
chain accept the same calls and go on showing the same, whatever the order of
the tracker's records and the times of their last updates.
-/

set_option autoImplicit false

namespace DiamondBot
open NearRuntime Library Library.Lockstep FungibleToken

namespace SupplyTracker

def figures (c : ChainSupply) : String × ℕ := (c.chainName,c.supply)

structure SameFigures (a b : SupplyTracker) : Prop where
  ownerId : b.ownerId = a.ownerId
  maxSupply : b.maxSupply = a.maxSupply
  nearChainId : b.nearChainId = a.nearChainId
  records (k : UInt16) : (b.getChainSupply k).map figures = (a.getChainSupply k).map figures

theorem sameFigures_refl (a : SupplyTracker) : SameFigures a a :=
  ⟨rfl,rfl,rfl,fun _ => rfl⟩

theorem update_same {a b : SupplyTracker} (h : SameFigures a b) (env : Env) (k : UInt16)
    (name : String) (v : ℕ) : SameFigures (a.updateChainSupply env k name v).1
      (b.updateChainSupply env k name v).1 := by
  by_cases ho : env.predecessorAccountId = a.ownerId
  · have ho' := ho.trans h.ownerId.symm
    refine ⟨?_,?_,?_,fun j => ?_⟩
    · rw [update_ownerId,update_ownerId,h.ownerId]
    · rw [update_owner ho,update_owner ho']
      exact h.maxSupply
    · rw [update_owner ho,update_owner ho']
      exact h.nearChainId
    · by_cases hj : j = k
      · rw [hj,update_getChainSupply ho,update_getChainSupply ho']
      · rw [update_getChainSupply_ne a env name v hj,update_getChainSupply_ne b env name v hj,
          h.records j]
  · have ho' : env.predecessorAccountId ≠ b.ownerId := by rwa [h.ownerId]
    rw [update_other ho,update_other ho']
    exact h

theorem circulating_same {a b : SupplyTracker} (h : SameFigures a b) :
    b.getTotalCirculatingSupply = a.getTotalCirculatingSupply := by
  have hshare : ∀ k, KeyedTotal.share supplyOf b.supplies k =
      KeyedTotal.share supplyOf a.supplies k := by
    intro k
    have hk := congrArg (fun o : Option (String × ℕ) => o.elim 0 Prod.snd) (h.records k)
    simp only [Option.elim_map] at hk
    exact hk
  have htotal : (b.supplies.entries.map fun e => e.2.supply).sum =
      (a.supplies.entries.map fun e => e.2.supply).sum := KeyedTotal.total_congr supplyOf hshare
  unfold getTotalCirculatingSupply
  rw [Checked.sum_zero,Checked.sum_zero,htotal]

end SupplyTracker

section Token

variable {T : Type} [FungibleToken T]

def SameBalances (t t' : T) : Prop := balances t' = balances t

theorem shows_same {x y : Outcome T} {b : Outcome Balances} (hx : Shows x b) (hy : Shows y b) :
    Together SameBalances x y := by
  cases b with
  | ok b =>
    cases x with
    | ok t =>
      cases y with
      | ok t' => exact Eq.trans hy hx.symm
      | error e => exact hy.elim
    | error e => exact hx.elim
  | error e =>
    cases x with
    | ok t => exact hx.elim
    | error e' =>
      cases y with
      | ok t' => exact hy.elim
      | error e'' => trivial

variable [StandardToken T]

theorem register_same {t t' : T} (h : SameBalances t t') (u : AccountId) :
    Together SameBalances (internalRegisterAccount t u) (internalRegisterAccount t' u) :=
  shows_same (StandardToken.register_shows t u) (h ▸ StandardToken.register_shows t' u)

theorem deposit_same {t t' : T} (h : SameBalances t t') (u : AccountId) (a : ℕ) :
    Together SameBalances (internalDeposit t u a) (internalDeposit t' u a) :=
  shows_same (StandardToken.deposit_shows t u a) (h ▸ StandardToken.deposit_shows t' u a)

theorem withdraw_same {t t' : T} (h : SameBalances t t') (u : AccountId) (a : ℕ) :
    Together SameBalances (internalWithdraw t u a) (internalWithdraw t' u a) :=
  shows_same (StandardToken.withdraw_shows t u a) (h ▸ StandardToken.withdraw_shows t' u a)

theorem transfer_same {t t' : T} (h : SameBalances t t') (u v : AccountId) (a : ℕ)
    (memo : Option String) :
    Together SameBalances (internalTransfer t u v a memo) (internalTransfer t' u v a memo) :=
  shows_same (StandardToken.transfer_shows t u v a memo)
    (h ▸ StandardToken.transfer_shows t' u v a memo)

theorem ensureRegistered_same {t t' : T} (h : SameBalances t t') (u : AccountId) :
    Together SameBalances (DiamondToken.ensureRegistered t u)
      (DiamondToken.ensureRegistered t' u) := by
  have hu : balance t' u = balance t u := congrArg (fun b => Balances.account b u) h
  unfold DiamondToken.ensureRegistered
  rw [hu]
  by_cases hsome : (balance t u).isSome
  · simp only [hsome,if_true]
    exact h
  · simp only [hsome]
    exact register_same h u

end Token

namespace DiamondToken
open SupplyTracker

variable {T : Type} [FungibleToken T]

def SameShown (s t : DiamondToken T) : Prop :=
  ∃ token tracker, t = { s with token, supplyTracker := tracker } ∧
    SameBalances s.token token ∧ SameFigures s.supplyTracker tracker

omit [FungibleToken T] in
theorem adjust_same {s : DiamondToken T} {tracker : SupplyTracker} (token : T)
    (h : SameFigures s.supplyTracker tracker) (env : Env) (adjust : ℕ → Outcome ℕ) :
    Together SameFigures (s.adjustNearSupply env adjust)
      (({ s with token, supplyTracker := tracker } : DiamondToken T).adjustNearSupply env
        adjust) := by
  have hrecord := h.records s.nearChainId
  unfold adjustNearSupply
  cases ha : s.supplyTracker.getChainSupply s.nearChainId with
  | none =>
    rw [ha,Option.map_none,Option.map_eq_none_iff] at hrecord
    simp only [hrecord]
    exact h
  | some c =>
    rw [ha,Option.map_some,Option.map_eq_some_iff] at hrecord
    obtain ⟨c',hc',hfigures⟩ := hrecord
    obtain ⟨hname,hsupply⟩ := Prod.mk.inj hfigures
    simp only [hc',hname,hsupply]
    apply together_same
    intro supply _
    exact update_same h env s.nearChainId c.chainName supply

theorem transferOwnership_same {s t : DiamondToken T} (h : SameShown s t) (env : Env)
    (newOwnerId : AccountId) :
    Together SameShown (s.transferOwnership env newOwnerId)
      (t.transferOwnership env newOwnerId) := by
  obtain ⟨token,tracker,rfl,htoken,htracker⟩ := h
  have hmoved : Together SameFigures (s.supplyTracker.transferOwnership env newOwnerId)
      (tracker.transferOwnership env newOwnerId) := by
    simp only [SupplyTracker.transferOwnership,htracker.ownerId]
    apply together_same
    intro _ _
    exact ⟨rfl,htracker.maxSupply,htracker.nearChainId,htracker.records⟩
  apply together_same
  intro _ _
  apply together_bind hmoved
  intro _ tracker' htracker'
  apply together_same
  intro manager _
  exact ⟨token,tracker',rfl,htoken,htracker'⟩

theorem setChainConfig_same {s t : DiamondToken T} (h : SameShown s t) (env : Env) (k : UInt16)
    (config : ChainConfig) :
    Together SameShown (s.setChainConfig env k config) (t.setChainConfig env k config) := by
  obtain ⟨token,tracker,rfl,htoken,htracker⟩ := h
  have hrecord : (tracker.getChainSupply k).isNone = (s.supplyTracker.getChainSupply k).isNone := by
    have hk := congrArg Option.isNone (htracker.records k)
    simpa only [Option.isNone_map] using hk
  apply together_same
  intro _ _
  refine ⟨token,_,rfl,htoken,?_⟩
  simp only [hrecord]
  by_cases hnone : (s.supplyTracker.getChainSupply k).isNone
  · simp only [hnone,if_true]
    exact update_same htracker env k config.chainName 0
  · simp only [hnone]
    exact htracker

theorem updateRemoteChainSupply_same {s t : DiamondToken T} (h : SameShown s t) (env : Env)
    (k : UInt16) (supply : ℕ) :
    SameShown (s.updateRemoteChainSupply env k supply).1
      (t.updateRemoteChainSupply env k supply).1 := by
  have hsame := h
  obtain ⟨token,tracker,rfl,htoken,htracker⟩ := h
  have hreporter : ({ s with token, supplyTracker := tracker } :
      DiamondToken T).isAuthorizedReporter env k = s.isAuthorizedReporter env k := rfl
  unfold updateRemoteChainSupply
  rw [hreporter]
  split
  · exact hsame
  · cases s.chainConfigs.lookup k with
    | none => exact hsame
    | some config => exact ⟨token,_,rfl,htoken,update_same htracker env k config.chainName supply⟩

variable [StandardToken T]

theorem mint_same {s t : DiamondToken T} (h : SameShown s t) (env : Env) (u : AccountId)
    (a : ℕ) : Together SameShown (s.mint env u a) (t.mint env u a) := by
  obtain ⟨token,tracker,rfl,htoken,htracker⟩ := h
  have htotal : totalSupply token = totalSupply s.token := congrArg Balances.supply htoken
  simp only [mint,ftTotalSupply,htotal,circulating_same htracker]
  apply together_same
  intro _ _
  apply together_same
  intro _ _
  apply together_same
  intro _ _
  apply together_same
  intro _ _
  apply together_same
  intro _ _
  apply together_same
  intro _ _
  apply together_bind (deposit_same htoken u a)
  intro _ token' htoken'
  apply together_bind (adjust_same token htracker env _)
  intro _ tracker' htracker'
  exact ⟨token',tracker',rfl,htoken',htracker'⟩

theorem burn_same {s t : DiamondToken T} (h : SameShown s t) (env : Env) (a : ℕ) :
    Together SameShown (s.burn env a) (t.burn env a) := by
  obtain ⟨token,tracker,rfl,htoken,htracker⟩ := h
  apply together_bind (withdraw_same htoken _ a)
  intro _ token' htoken'
  apply together_bind (adjust_same token htracker env _)
  intro _ tracker' htracker'
  exact ⟨token',tracker',rfl,htoken',htracker'⟩

theorem ftTransfer_same {s t : DiamondToken T} (h : SameShown s t) (env : Env) (v : AccountId)
    (a : ℕ) (memo : Option String) :
    Together SameShown (s.ftTransfer env v a memo) (t.ftTransfer env v a memo) := by
  obtain ⟨token,tracker,rfl,htoken,htracker⟩ := h
  apply together_bind (transfer_same htoken _ v a memo)
  intro _ token' htoken'
  exact ⟨token',tracker,rfl,htoken',htracker⟩

theorem bridgeOut_same {s t : DiamondToken T} (h : SameShown s t) (env : Env)
    (toAddress : String) (a : ℕ) (lzParams : LayerZeroParams) :
    Together (fun r r' => SameShown r.1 r'.1 ∧ r'.2 = r.2)
      (s.bridgeOut env toAddress a lzParams) (t.bridgeOut env toAddress a lzParams) := by
  obtain ⟨token,tracker,rfl,htoken,htracker⟩ := h
  apply together_same
  intro config _
  apply together_same
  intro _ _
  apply together_same
  intro fee _
  apply together_same
  intro _ _
  apply together_bind (withdraw_same htoken _ a)
  intro _ token' htoken'
  apply together_bind (adjust_same token htracker env _)
  intro _ tracker' htracker'
  exact ⟨⟨token',tracker',rfl,htoken',htracker'⟩,rfl⟩

theorem bridgeIn_same {s t : DiamondToken T} (h : SameShown s t) (env : Env) (k : UInt16)
    (sender : String) (u : AccountId) (a : ℕ) :
    Together (fun r r' => SameShown r.1 r'.1) (s.bridgeIn env k sender u a)
      (t.bridgeIn env k sender u a) := by
  obtain ⟨token,tracker,rfl,htoken,htracker⟩ := h
  have htotal : totalSupply token = totalSupply s.token := congrArg Balances.supply htoken
  simp only [bridgeIn,ftTotalSupply,htotal,circulating_same htracker]
  apply together_same
  intro _ _
  apply together_same
  intro config _
  apply together_same
  intro _ _
  apply together_same
  intro _ _
  apply together_same
  intro _ _
  apply together_same
  intro _ _
  apply together_same
  intro _ _
  apply together_same
  intro _ _
  apply together_bind (ensureRegistered_same htoken u)
  intro _ token₁ htoken₁
  apply together_bind (deposit_same htoken₁ u a)
  intro _ token' htoken'
  apply together_bind (adjust_same token htracker env _)
  intro _ tracker' htracker'
  exact ⟨token',tracker',rfl,htoken',htracker'⟩

/-- States that show the same answer a call alike and show the same after it. -/
theorem step_same {s t : DiamondToken T} (h : SameShown s t) (c : Call) :
    Together SameShown (step s c) (step t c) := by
  obtain ⟨env,op⟩ := c
  cases op with
  | mint u a => exact mint_same h env u a
  | burn a => exact burn_same h env a
  | ftTransfer v a memo => exact ftTransfer_same h env v a memo
  | bridgeOut toAddress a lzParams =>
    exact together_map (bridgeOut_same h env toAddress a lzParams) fun _ _ hr => hr.1
  | bridgeIn k sender u a =>
    exact together_map (bridgeIn_same h env k sender u a) fun _ _ hr => hr
  | transferOwnership newOwnerId => exact transferOwnership_same h env newOwnerId
  | setChainConfig k config => exact setChainConfig_same h env k config
  | updateRemoteChainSupply k supply => exact updateRemoteChainSupply_same h env k supply
  | setLzEndpoint lzEndpoint =>
    obtain ⟨token,tracker,rfl,htoken,htracker⟩ := h
    apply together_same
    intro _ _
    exact ⟨token,tracker,rfl,htoken,htracker⟩
  | addModuleAdmin adminId =>
    obtain ⟨token,tracker,rfl,htoken,htracker⟩ := h
    refine together_map (r := fun r r' => SameShown r.1 r'.1) ?_ fun _ _ hr => hr
    apply together_same
    intro _ _
    apply together_same
    intro manager _
    exact ⟨token,tracker,rfl,htoken,htracker⟩
  | addModule newModule =>
    obtain ⟨token,tracker,rfl,htoken,htracker⟩ := h
    refine together_map (r := fun r r' => SameShown r.1 r'.1) ?_ fun _ _ hr => hr
    apply together_same
    intro _ _
    apply together_same
    intro manager _
    exact ⟨token,tracker,rfl,htoken,htracker⟩
  | setSupplyOracle k oracle =>
    have hsame := h
    obtain ⟨token,tracker,rfl,htoken,htracker⟩ := h
    refine together_map (r := fun r r' => SameShown r.1 r'.1) ?_ fun _ _ hr => hr
    apply together_same
    intro _ _
    cases s.chainConfigs.lookup k with
    | none => exact hsame
    | some config => exact ⟨token,tracker,rfl,htoken,htracker⟩

theorem next_same {s t : DiamondToken T} (c : Call) (h : SameShown s t) :
    SameShown (next s c) (next t c) :=
  settle_together h (step_same h c)

end DiamondToken
end DiamondBot
