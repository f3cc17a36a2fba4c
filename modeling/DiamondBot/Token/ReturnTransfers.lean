import DiamondBot.Library.Shares
import DiamondBot.Token.Balances
import DiamondBot.Token.BridgeEstimate
import DiamondBot.Token.GlobalCap

/-!
# Tokens that come back from another chain

An incoming transfer is compared with the cap by adding its amount to the
recorded total, and for a chain that still reports the tokens that total has
them already. Everything else about the transfer goes through: the ledger holds
no more than its own total, so no balance leaves its type.
-/

set_option autoImplicit false

namespace DiamondBot
open NearRuntime Library Library.Shares FungibleToken

namespace Balances

/-- The balance of an account, zero for an unregistered one. -/
def held (b : Balances) (u : AccountId) : ℕ := (b.account u).getD 0

def Backed (b : Balances) : Prop := Within b.held b.supply

theorem held_update_ne {account : AccountId → Option ℕ} {u v : AccountId} {n supply : ℕ}
    (h : v ≠ u) : held ⟨Function.update account u (some n),supply⟩ v = (account v).getD 0 := by
  change (Function.update account u (some n) v).getD 0 = _
  rw [Function.update_of_ne h]

theorem held_update_self (account : AccountId → Option ℕ) (u : AccountId) (n supply : ℕ) :
    held ⟨Function.update account u (some n),supply⟩ u = n := by
  change (Function.update account u (some n) u).getD 0 = n
  rw [Function.update_self]
  rfl

theorem register_backed {b b' : Balances} {u : AccountId} (hb : b.Backed)
    (h : b.register u = .ok b') : b'.Backed := by
  unfold register at h
  split at h
  · cases h
  · rename_i hnone
    cases h
    have hzero : b.held u = 0 := by
      unfold held
      rw [Option.not_isSome_iff_eq_none.mp hnone]
      rfl
    apply within_moved (fun v hv => held_update_ne hv) _ hb
    rw [held_update_self]
    exact congrArg (·+b.supply) hzero.symm

theorem deposit_ok {b b' : Balances} {u : AccountId} {a : ℕ} (h : b.deposit u a = .ok b') :
    ∃ balance, b.account u = some balance ∧
      b' = ⟨Function.update b.account u (some (balance+a)),b.supply+a⟩ := by
  obtain ⟨balance,hbalance,h⟩ := Checked.bind_ok.mp h
  obtain ⟨_,_,h⟩ := Checked.bind_ok.mp h
  obtain ⟨_,_,h⟩ := Checked.bind_ok.mp h
  cases h
  exact ⟨balance,Checked.expect_ok.mp hbalance,rfl⟩

theorem held_some {b : Balances} {u : AccountId} {n : ℕ} (h : b.account u = some n) :
    b.held u = n := by
  unfold held
  rw [h]
  rfl

theorem deposit_backed {b b' : Balances} {u : AccountId} {a : ℕ} (hb : b.Backed)
    (h : b.deposit u a = .ok b') : b'.Backed := by
  obtain ⟨balance,hbalance,rfl⟩ := deposit_ok h
  apply within_moved (fun v hv => held_update_ne hv) _ hb
  rw [held_update_self]
  have hheld := held_some hbalance
  change balance+a+b.supply = b.held u+(b.supply+a)
  omega

theorem withdraw_backed {b b' : Balances} {u : AccountId} {a : ℕ} (hb : b.Backed)
    (h : b.withdraw u a = .ok b') : b'.Backed := by
  obtain ⟨balance,hbalance,hle,hsupply,rfl⟩ := withdraw_ok h
  apply within_moved (fun v hv => held_update_ne hv) _ hb
  rw [held_update_self]
  have hheld := held_some hbalance
  change balance-a+b.supply = b.held u+(b.supply-a)
  omega

theorem transfer_backed {b b' : Balances} {u v : AccountId} {a : ℕ} (hb : b.Backed)
    (h : b.transfer u v a = .ok b') : b'.Backed := by
  obtain ⟨_,_,h⟩ := Checked.bind_ok.mp h
  obtain ⟨_,_,h⟩ := Checked.bind_ok.mp h
  obtain ⟨w,hw,h⟩ := Checked.bind_ok.mp h
  exact deposit_backed (withdraw_backed hb hw) h

theorem deposit_accepted {b : Balances} {u : AccountId} {a : ℕ} (hb : b.Backed)
    (hu : (b.account u).isSome) (hfit : b.supply+a < 2^128) : ∃ b', b.deposit u a = .ok b' := by
  obtain ⟨balance,hbalance⟩ := Option.isSome_iff_exists.mp hu
  have hheld := held_some hbalance
  have hle := within_le hb u
  have hbalanceFit : balance+a < 2^128 := by omega
  exact ⟨_,Checked.bind_ok.mpr ⟨balance,Checked.expect_ok.mpr hbalance,
    Checked.bind_ok.mpr ⟨(),Checked.require_ok.mpr hbalanceFit,
      Checked.bind_ok.mpr ⟨(),Checked.require_ok.mpr hfit,rfl⟩⟩⟩⟩

theorem register_accepted {b : Balances} {u : AccountId} (hu : ¬(b.account u).isSome) :
    b.register u = .ok ⟨Function.update b.account u (some 0),b.supply⟩ :=
  if_neg hu

end Balances

namespace DiamondToken

variable {T : Type} [FungibleToken T] [StandardToken T]

theorem ensureRegistered_backed {t t' : T} {u : AccountId} (hb : (balances t).Backed)
    (h : ensureRegistered t u = .ok t') : (balances t').Backed := by
  unfold ensureRegistered at h
  split at h
  · cases h
    exact hb
  · exact Balances.register_backed hb (shows_ok (StandardToken.register_shows _ _) h)

theorem step_backed {s s' : DiamondToken T} {c : Call} (hb : (balances s.token).Backed)
    (h : step s c = .ok s') : (balances s'.token).Backed := by
  obtain ⟨env,op⟩ := c
  cases op with
  | mint accountId amount =>
    obtain ⟨_,_,_,_,htoken,_,rfl⟩ := mint_ok h
    exact Balances.deposit_backed hb (shows_ok (StandardToken.deposit_shows _ _ _) htoken)
  | burn amount =>
    obtain ⟨_,_,htoken,_,rfl⟩ := burn_ok h
    exact Balances.withdraw_backed hb (shows_ok (StandardToken.withdraw_shows _ _ _) htoken)
  | ftTransfer receiverId amount memo =>
    obtain ⟨_,htoken,rfl⟩ := ftTransfer_ok h
    exact Balances.transfer_backed hb (shows_ok (StandardToken.transfer_shows _ _ _ _ _) htoken)
  | setLzEndpoint lzEndpoint =>
    obtain rfl := setLzEndpoint_ok h
    exact hb
  | addModuleAdmin adminId =>
    obtain ⟨r,hr,rfl⟩ := Checked.map_ok.mp h
    obtain ⟨_,_,rfl⟩ := addModuleAdmin_ok hr
    exact hb
  | addModule newModule =>
    obtain ⟨r,hr,rfl⟩ := Checked.map_ok.mp h
    obtain ⟨_,_,rfl⟩ := addModule_ok hr
    exact hb
  | transferOwnership newOwnerId =>
    obtain ⟨_,_,rfl⟩ := transferOwnership_ok h
    exact hb
  | bridgeOut toAddress amount lzParams =>
    obtain ⟨r,hr,rfl⟩ := Checked.map_ok.mp h
    obtain ⟨_,_,_,_,htoken,_,rfl⟩ := bridgeOut_ok hr
    exact Balances.withdraw_backed hb (shows_ok (StandardToken.withdraw_shows _ _ _) htoken)
  | bridgeIn fromChainId sender receiverId amount =>
    obtain ⟨r,hr,rfl⟩ := Checked.map_ok.mp h
    obtain ⟨_,_,_,_,hreg,htoken,_,rfl⟩ := bridgeIn_ok hr
    exact Balances.deposit_backed (ensureRegistered_backed hb hreg)
      (shows_ok (StandardToken.deposit_shows _ _ _) htoken)
  | setChainConfig chainId config =>
    obtain ⟨_,_,h⟩ := Checked.bind_ok.mp h
    cases h
    exact hb
  | setSupplyOracle chainId oracle =>
    obtain ⟨r,hr,rfl⟩ := Checked.map_ok.mp h
    obtain ⟨_,hconfigs⟩ := setSupplyOracle_ok hr
    rw [hconfigs]
    exact hb
  | updateRemoteChainSupply chainId supply =>
    cases h
    unfold updateRemoteChainSupply
    split
    · exact hb
    · split <;> exact hb

theorem new_backed {env : Env} {ownerId lzEndpoint : AccountId} {nearChainId : UInt16}
    {s : DiamondToken T} (hempty : ∀ u, balance (FungibleToken.new : T) u = none)
    (h : new env ownerId lzEndpoint nearChainId = .ok s) : (balances s.token).Backed := by
  obtain ⟨_,hreg,h⟩ := Checked.bind_ok.mp h
  obtain ⟨_,hdep,h⟩ := Checked.bind_ok.mp h
  cases h
  have hnone : (balances (FungibleToken.new : T)).held = fun _ => 0 := by
    funext u
    change (balance (FungibleToken.new : T) u).getD 0 = 0
    rw [hempty u]
    rfl
  have hstart : (balances (FungibleToken.new : T)).Backed := by
    unfold Balances.Backed
    rw [hnone]
    exact within_zero _
  exact Balances.deposit_backed
    (Balances.register_backed hstart (shows_ok (StandardToken.register_shows _ _) hreg))
    (shows_ok (StandardToken.deposit_shows _ _ _) hdep)

theorem run_backed {env : Env} {ownerId lzEndpoint : AccountId} {nearChainId : UInt16}
    {s : DiamondToken T} (hempty : ∀ u, balance (FungibleToken.new : T) u = none)
    (hnew : new env ownerId lzEndpoint nearChainId = .ok s) (calls : List Call) :
    (balances (AtomicRun.run next calls s).token).Backed := by
  have hstep : ∀ (t : DiamondToken T) (c : Call), (balances t.token).Backed →
      (balances (next t c).token).Backed := by
    intro t c ht
    exact AtomicRun.settle_preserves (Q := fun t : DiamondToken T => (balances t.token).Backed) ht
      fun t' hok => step_backed ht hok
  exact AtomicRun.run_invariant hstep (new_backed hempty hnew) calls

/-! ## The transfers that are accepted -/

/-- The receiver gets its account and its tokens when the total supply stays in its type. -/
theorem received {t : T} {u : AccountId} {a : ℕ} (hb : (balances t).Backed)
    (hfit : totalSupply t+a < 2^128) : ∃ registered token,
      ensureRegistered t u = .ok registered ∧ internalDeposit registered u a = .ok token := by
  have hdeposit : ∀ t' : T, (balances t').Backed → ((balances t').account u).isSome →
      (balances t').supply = totalSupply t → ∃ token, internalDeposit t' u a = .ok token := by
    intro t' hb' hu hsupply
    obtain ⟨b,hok⟩ := Balances.deposit_accepted hb' hu (hsupply.symm ▸ hfit)
    obtain ⟨token,htoken,_⟩ := ok_of_shows (StandardToken.deposit_shows t' u a) hok
    exact ⟨token,htoken⟩
  by_cases hu : (balance t u).isSome
  · obtain ⟨token,htoken⟩ := hdeposit t hb hu rfl
    exact ⟨t,token,if_pos hu,htoken⟩
  · obtain ⟨t',ht',hshown⟩ := ok_of_shows (StandardToken.register_shows t u)
      (Balances.register_accepted (b := balances t) hu)
    have hsome : ((balances t').account u).isSome := by
      rw [hshown]
      change (Function.update (balances t).account u (some 0) u).isSome
      rw [Function.update_self]
      rfl
    have hkept : (balances t').Backed :=
      Balances.register_backed hb (shows_ok (StandardToken.register_shows t u) ht')
    obtain ⟨token,htoken⟩ := hdeposit t' hkept hsome (by rw [hshown]; rfl)
    exact ⟨t',token,(if_neg hu).trans ht',htoken⟩

omit [FungibleToken T] [StandardToken T] in
theorem circulating_ok (s : DiamondToken T) (h : s.nearRecord+s.remoteRecord < 2^128) :
    s.supplyTracker.getTotalCirculatingSupply = .ok (s.nearRecord+s.remoteRecord) := by
  have htotal : (s.supplyTracker.supplies.entries.map fun e => e.2.supply).sum =
      s.nearRecord+s.remoteRecord :=
    KeyedTotal.total_split s.nearChainId SupplyTracker.supplyOf s.supplyTracker.supplies
  unfold SupplyTracker.getTotalCirculatingSupply
  rw [Checked.sum_zero,htotal,if_pos h]

omit [FungibleToken T] [StandardToken T] in
theorem adjust_accepted (s : DiamondToken T) (env : Env) {a : ℕ}
    (h : s.nearRecord+a < 2^128) :
    ∃ tracker, s.adjustNearSupply env (fun v => addU128 v a) = .ok tracker := by
  unfold adjustNearSupply
  cases hc : s.supplyTracker.getChainSupply s.nearChainId with
  | none => exact ⟨_,rfl⟩
  | some c =>
    have hrecord : s.nearRecord = c.supply := SupplyTracker.recorded_some hc
    have hadd : addU128 c.supply a = .ok (c.supply+a) :=
      Checked.add_ok.mpr ⟨by omega,rfl⟩
    exact ⟨_,Checked.bind_ok.mpr ⟨_,hadd,rfl⟩⟩

/-- A transfer that fits under the cap next to everything recorded goes through. -/
theorem bridgeIn_accepted {s : DiamondToken T} {env : Env} {fromChainId : UInt16}
    {config : ChainConfig} (sender : String) (receiverId : AccountId) {amount : ℕ}
    (hb : (balances s.token).Backed) (hmax : s.maxSupply = maxSupplyLimit)
    (hcaller : env.predecessorAccountId = s.lzEndpoint)
    (hconfig : s.chainConfigs.lookup fromChainId = some config) (henabled : config.enabled = true)
    (hledger : s.ftTotalSupply+amount ≤ s.maxSupply)
    (hroom : s.nearRecord+s.remoteRecord+amount ≤ s.maxSupply) :
    ∃ r, s.bridgeIn env fromChainId sender receiverId amount = .ok r := by
  have hlimit : maxSupplyLimit < 2^128 := by decide
  have hsupply : addU128 s.ftTotalSupply amount = .ok (s.ftTotalSupply+amount) :=
    Checked.add_ok.mpr ⟨by omega,rfl⟩
  have htotal := s.circulating_ok (by omega)
  have hadd : addU128 (s.nearRecord+s.remoteRecord) amount =
      .ok (s.nearRecord+s.remoteRecord+amount) := Checked.add_ok.mpr ⟨by omega,rfl⟩
  obtain ⟨registered,token,hreg,htoken⟩ := received (u := receiverId) hb
    (show totalSupply s.token+amount < 2^128 from by
      change s.ftTotalSupply+amount < 2^128
      omega)
  obtain ⟨tracker,htracker⟩ := adjust_accepted s env (a := amount) (by omega)
  exact ⟨({ s with token, supplyTracker := tracker },true),
    Checked.bind_ok.mpr ⟨(),Checked.require_ok.mpr hcaller,
    Checked.bind_ok.mpr ⟨config,Checked.expect_ok.mpr hconfig,
    Checked.bind_ok.mpr ⟨(),Checked.require_ok.mpr henabled,
    Checked.bind_ok.mpr ⟨_,hsupply,
    Checked.bind_ok.mpr ⟨(),Checked.require_ok.mpr hledger,
    Checked.bind_ok.mpr ⟨_,htotal,
    Checked.bind_ok.mpr ⟨_,hadd,
    Checked.bind_ok.mpr ⟨(),Checked.require_ok.mpr hroom,
    Checked.bind_ok.mpr ⟨registered,hreg,
    Checked.bind_ok.mpr ⟨token,htoken,
    Checked.bind_ok.mpr ⟨tracker,htracker,rfl⟩⟩⟩⟩⟩⟩⟩⟩⟩⟩⟩⟩

/-- In every state a run reaches with a true tracker, the endpoint's transfer from
an enabled chain is accepted exactly when the recorded total leaves room for the
amount, whatever part of it that total has for the chain already. -/
theorem returned_tokens_accepted_iff [LawfulFungibleToken T] {env : Env}
    {ownerId lzEndpoint : AccountId} {nearChainId : UInt16} {s₀ s : DiamondToken T}
    (hempty : ∀ u, balance (FungibleToken.new : T) u = none)
    (hnew : new env ownerId lzEndpoint nearChainId = .ok s₀) (calls : List Call)
    (hs : s = AtomicRun.run next calls s₀) (htracked : Tracked s)
    {caller : Env} (hcaller : caller.predecessorAccountId = s.lzEndpoint)
    {fromChainId : UInt16} {config : ChainConfig}
    (hconfig : s.chainConfigs.lookup fromChainId = some config) (henabled : config.enabled = true)
    (sender : String) (receiverId : AccountId) (amount : ℕ) :
    Accepted s ⟨caller,.bridgeIn fromChainId sender receiverId amount⟩ ↔
      s.nearRecord+s.remoteRecord+amount ≤ s.maxSupply := by
  constructor
  · rintro ⟨s',h⟩
    obtain ⟨r,hr,_⟩ := Checked.map_ok.mp h
    obtain ⟨_,_,_,hroom,_⟩ := bridgeIn_ok hr
    exact hroom
  · intro hroom
    have hnear : s.nearRecord = s.ftTotalSupply := nearRecord_of_tracked htracked
    have hbacked : (balances s.token).Backed := hs ▸ run_backed hempty hnew calls
    have hmax : s.maxSupply = maxSupplyLimit := hs ▸ run_maxSupply hnew calls
    obtain ⟨r,hr⟩ := bridgeIn_accepted sender receiverId hbacked hmax hcaller hconfig henabled
      (by omega) hroom
    exact ⟨r.1,Checked.map_ok.mpr ⟨r,hr,rfl⟩⟩

def ethereumReports (supply : ℕ) : List Call := [
  callBy "owner.near" (.setChainConfig 1 ethereum),
  callBy "owner.near" (.updateRemoteChainSupply 1 supply)]

theorem returned_tokens_accepted_iff_ethereum :
    ∃ s₀ : DiamondToken Ledger,
      new (firstBlock "owner.near" "diamond.near") "owner.near" "lz.near" 15 = .ok s₀ ∧
      Accepted (AtomicRun.run next (ethereumReports 1000) s₀)
        (callBy "lz.near" (.bridgeIn 1 "0xabc" "alice.near" 1000)) := by
  refine ⟨_,rfl,?_⟩
  exact (@returned_tokens_accepted_iff Ledger _ _ _ (firstBlock "owner.near" "diamond.near")
    "owner.near" "lz.near" 15 _ _ (fun _ => rfl) rfl (ethereumReports 1000) rfl rfl
    (firstBlock "lz.near" "diamond.near") rfl 1 ethereum rfl rfl "0xabc" "alice.near" 1000).mpr
    (by decide)

/-- With the rest of the cap reported on Ethereum no token of it can come back. -/
theorem returned_token_refused :
    ∃ s₀ : DiamondToken Ledger,
      new (firstBlock "owner.near" "diamond.near") "owner.near" "lz.near" 15 = .ok s₀ ∧
      let s := AtomicRun.run next (ethereumReports 750000000000000000000000000) s₀
      Tracked s ∧ s.nearRecord+s.remoteRecord ≤ s.maxSupply ∧
      s.chainConfigs.lookup 1 = some ethereum ∧ ethereum.enabled = true ∧
      1 ≤ s.supplyTracker.recorded 1 ∧
      step s (callBy "lz.near" (.bridgeIn 1 "0xabc" "alice.near" 1)) =
        .error "Bridge would exceed global max supply" := by
  refine ⟨_,rfl,rfl,?_,rfl,rfl,?_,rfl⟩
  · decide
  · decide

end DiamondToken
end DiamondBot
