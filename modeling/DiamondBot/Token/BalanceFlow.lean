import DiamondBot.Token.ReturnTransfers
import DiamondBot.Library.Flows

/-!
# Where the tokens of an account come from and go to

An accepted call takes tokens from the account that makes it or creates them,
and gives them to an account or destroys them. Over any run the balance of an
account is therefore what it received less what its own calls spent, and the
balances of all accounts make up the total supply at every moment.
-/

set_option autoImplicit false

namespace DiamondBot
open NearRuntime Library Library.AtomicRun Library.Flows

namespace Balances

def only (u : AccountId) (a : ℕ) (v : AccountId) : ℕ := if v = u then a else 0

@[simp] theorem only_self (u : AccountId) (a : ℕ) : only u a u = a := if_pos rfl

theorem only_zero (u : AccountId) : only u 0 = fun _ => 0 := funext fun _ => ite_self 0

theorem only_other {u v : AccountId} (a : ℕ) (h : v ≠ u) : only u a v = 0 := if_neg h

theorem held_update (b : Balances) (u : AccountId) (n supply : ℕ) (v : AccountId) :
    held ⟨Function.update b.account u (some n),supply⟩ v = if v = u then n else b.held v := by
  by_cases hv : v = u
  · rw [if_pos hv,hv,held_update_self]
  · rw [if_neg hv,held_update_ne hv]
    rfl

structure Moved (b b' : Balances) (gain loss : AccountId → ℕ) (made gone : ℕ) : Prop where
  account : ∀ u, b'.held u+loss u = b.held u+gain u
  supply : b'.supply+gone = b.supply+made
  whole : Shares.Exactly b.held b.supply → Shares.Exactly b'.held b'.supply

theorem moved_refl (b : Balances) : Moved b b (fun _ => 0) (fun _ => 0) 0 0 :=
  ⟨fun _ => rfl,rfl,id⟩

theorem moved_one {b b' : Balances} {u : AccountId} {gain loss : ℕ}
    (hother : ∀ v ≠ u, b'.held v = b.held v) (hself : b'.held u+loss = b.held u+gain)
    (hsupply : b'.supply+loss = b.supply+gain) :
    Moved b b' (only u gain) (only u loss) gain loss := by
  refine ⟨fun v => ?_,hsupply,fun h => Shares.exactly_moved hother ?_ h⟩
  · by_cases hv : v = u
    · rw [hv,only_self,only_self,hself]
    · rw [only_other _ hv,only_other _ hv,hother v hv]
  · omega

theorem register_moved {b b' : Balances} {u : AccountId} (h : b.register u = .ok b') :
    Moved b b' (fun _ => 0) (fun _ => 0) 0 0 := by
  unfold register at h
  split at h
  · cases h
  · next hnone =>
    cases h
    have hsame : ∀ v, held { b with account := Function.update b.account u (some 0) } v =
        b.held v := by
      intro v
      rw [held_update]
      split
      · next hv => rw [hv,held,Option.not_isSome_iff_eq_none.mp hnone]; rfl
      · rfl
    refine ⟨fun v => by rw [hsame v],rfl,fun h => ?_⟩
    rwa [funext hsame]

theorem deposit_moved {b b' : Balances} {u : AccountId} {a : ℕ} (h : b.deposit u a = .ok b') :
    Moved b b' (only u a) (fun _ => 0) a 0 := by
  obtain ⟨balance,hbalance,rfl⟩ := deposit_ok h
  rw [← only_zero u]
  apply moved_one
  · intro v hv
    rw [held_update,if_neg hv]
  · rw [held_update,if_pos rfl,held_some hbalance,Nat.add_zero]
  · rfl

theorem withdraw_moved {b b' : Balances} {u : AccountId} {a : ℕ}
    (h : b.withdraw u a = .ok b') : Moved b b' (fun _ => 0) (only u a) 0 a := by
  obtain ⟨balance,hbalance,hle,hsupply,rfl⟩ := withdraw_ok h
  rw [← only_zero u]
  apply moved_one
  · intro v hv
    rw [held_update,if_neg hv]
  · rw [held_update,if_pos rfl,held_some hbalance,Nat.add_zero]
    exact Nat.sub_add_cancel hle
  · exact Nat.sub_add_cancel hsupply

theorem moved_trans {b c d : Balances} {gain loss gain' loss' : AccountId → ℕ}
    {made gone made' gone' : ℕ} (h : Moved b c gain loss made gone)
    (h' : Moved c d gain' loss' made' gone') :
    Moved b d (fun u => gain u+gain' u) (fun u => loss u+loss' u) (made+made') (gone+gone') := by
  refine ⟨fun u => ?_,?_,fun hb => h'.whole (h.whole hb)⟩
  · have hfirst := h.account u
    have hsecond := h'.account u
    omega
  · have hfirst := h.supply
    have hsecond := h'.supply
    omega

theorem transfer_moved {b b' : Balances} {u v : AccountId} {a : ℕ}
    (h : b.transfer u v a = .ok b') : Moved b b' (only v a) (only u a) 0 0 := by
  obtain ⟨_,_,h⟩ := Checked.bind_ok.mp h
  obtain ⟨_,_,h⟩ := Checked.bind_ok.mp h
  obtain ⟨c,hout,hin⟩ := Checked.bind_ok.mp h
  have hboth := moved_trans (withdraw_moved hout) (deposit_moved hin)
  refine ⟨fun w => ?_,?_,hboth.whole⟩
  · simpa [only] using hboth.account w
  · have := hboth.supply
    omega

end Balances

namespace DiamondToken
open FungibleToken Balances

def Op.received : Op → AccountId → ℕ
  | .mint accountId amount | .bridgeIn _ _ accountId amount => only accountId amount
  | .ftTransfer receiverId amount _ => only receiverId amount
  | _ => fun _ => 0

def Call.spent (c : Call) : AccountId → ℕ :=
  match c.op with
  | .burn amount | .ftTransfer _ amount _ | .bridgeOut _ amount _ =>
    only c.env.predecessorAccountId amount
  | _ => fun _ => 0

def Call.received (c : Call) : AccountId → ℕ := c.op.received

def Call.issued (c : Call) : ℕ :=
  match c.op with
  | .mint _ amount | .bridgeIn _ _ _ amount => amount
  | _ => 0

def Call.retired (c : Call) : ℕ :=
  match c.op with
  | .burn amount | .bridgeOut _ amount _ => amount
  | _ => 0

theorem spent_other {c : Call} {u : AccountId} (h : c.env.predecessorAccountId ≠ u) :
    c.spent u = 0 := by
  obtain ⟨env,op⟩ := c
  cases op with
  | burn | ftTransfer | bridgeOut => exact only_other _ (Ne.symm h)
  | _ => rfl

variable {T : Type} [FungibleToken T]

def ftBalanceOf (s : DiamondToken T) (u : AccountId) : ℕ := (balances s.token).held u

def counted (f : Call → ℕ) (s : DiamondToken T) (c : Call) : ℕ :=
  match step s c with
  | .ok _ => f c
  | .error _ => 0

variable [StandardToken T]

omit [StandardToken T] in
theorem unmoved {s s' : DiamondToken T} (h : s'.token = s.token) :
    Moved (balances s.token) (balances s'.token) (fun _ => 0) (fun _ => 0) 0 0 := by
  rw [h]
  exact moved_refl _

theorem deposit_balances_moved {t t' : T} {u : AccountId} {a : ℕ}
    (h : internalDeposit t u a = .ok t') :
    Moved (balances t) (balances t') (only u a) (fun _ => 0) a 0 :=
  deposit_moved (shows_ok (StandardToken.deposit_shows t u a) h)

theorem withdraw_balances_moved {t t' : T} {u : AccountId} {a : ℕ}
    (h : internalWithdraw t u a = .ok t') :
    Moved (balances t) (balances t') (fun _ => 0) (only u a) 0 a :=
  withdraw_moved (shows_ok (StandardToken.withdraw_shows t u a) h)

theorem registered_balances_moved {t t' : T} {u : AccountId}
    (h : ensureRegistered t u = .ok t') :
    Moved (balances t) (balances t') (fun _ => 0) (fun _ => 0) 0 0 := by
  unfold ensureRegistered at h
  split at h
  · cases h
    exact moved_refl _
  · exact register_moved (shows_ok (StandardToken.register_shows t u) h)

/-- The account of every accepted call. -/
theorem step_moved {s s' : DiamondToken T} {c : Call} (h : step s c = .ok s') :
    Moved (balances s.token) (balances s'.token) c.received c.spent c.issued c.retired := by
  obtain ⟨env,op⟩ := c
  cases op with
  | mint accountId amount =>
    obtain ⟨_,_,_,_,htoken,_,rfl⟩ := mint_ok h
    exact deposit_balances_moved htoken
  | burn amount =>
    obtain ⟨_,_,htoken,_,rfl⟩ := burn_ok h
    exact withdraw_balances_moved htoken
  | ftTransfer receiverId amount memo =>
    obtain ⟨_,htoken,rfl⟩ := ftTransfer_ok h
    exact transfer_moved (shows_ok (StandardToken.transfer_shows _ _ _ _ memo) htoken)
  | setLzEndpoint lzEndpoint =>
    obtain rfl := setLzEndpoint_ok h
    exact unmoved rfl
  | addModuleAdmin adminId =>
    obtain ⟨_,hr,rfl⟩ := Checked.map_ok.mp h
    obtain ⟨_,_,rfl⟩ := addModuleAdmin_ok hr
    exact unmoved rfl
  | addModule newModule =>
    obtain ⟨_,hr,rfl⟩ := Checked.map_ok.mp h
    obtain ⟨_,_,rfl⟩ := addModule_ok hr
    exact unmoved rfl
  | transferOwnership newOwnerId =>
    obtain ⟨_,_,rfl⟩ := transferOwnership_ok h
    exact unmoved rfl
  | bridgeOut toAddress amount lzParams =>
    obtain ⟨_,hr,rfl⟩ := Checked.map_ok.mp h
    obtain ⟨_,_,_,_,htoken,_,rfl⟩ := bridgeOut_ok hr
    exact withdraw_balances_moved htoken
  | bridgeIn fromChainId sender receiverId amount =>
    obtain ⟨_,hr,rfl⟩ := Checked.map_ok.mp h
    obtain ⟨_,_,_,_,hreg,htoken,_,rfl⟩ := bridgeIn_ok hr
    have hboth := moved_trans (registered_balances_moved hreg) (deposit_balances_moved htoken)
    simp only [Nat.zero_add] at hboth
    exact hboth
  | setChainConfig chainId config =>
    obtain ⟨_,_,h⟩ := Checked.bind_ok.mp h
    cases h
    exact unmoved rfl
  | setSupplyOracle chainId oracle =>
    obtain ⟨_,hr,rfl⟩ := Checked.map_ok.mp h
    obtain ⟨_,hs⟩ := setSupplyOracle_ok hr
    rw [hs]
    exact unmoved rfl
  | updateRemoteChainSupply chainId supply =>
    cases h
    refine unmoved ?_
    unfold updateRemoteChainSupply
    split
    · rfl
    · split <;> rfl

theorem next_moved (s : DiamondToken T) (c : Call) :
    Moved (balances s.token) (balances (next s c).token)
      (fun u => counted (fun c => c.received u) s c) (fun u => counted (fun c => c.spent u) s c)
      (counted Call.issued s c) (counted Call.retired s c) := by
  unfold counted
  cases h : step s c with
  | ok s' =>
    rw [next,settle_ok h]
    exact step_moved h
  | error e =>
    rw [next,settle_error h]
    exact moved_refl _

theorem balance_flow (s : DiamondToken T) (calls : List Call) (u : AccountId) :
    (run next calls s).ftBalanceOf u+sumAlong next (counted fun c => c.spent u) calls s =
      s.ftBalanceOf u+sumAlong next (counted fun c => c.received u) calls s := by
  have hstep : ∀ (s : DiamondToken T) (c : Call), True → True →
      (next s c).ftBalanceOf u+counted (fun c => c.spent u) s c =
        s.ftBalanceOf u+counted (fun c => c.received u) s c :=
    fun s c _ _ => (next_moved s c).account u
  exact run_flow (J := fun _ => True) (fun s => s.ftBalanceOf u) (fun _ _ _ _ => trivial)
    hstep trivial (along_trivial calls s)

theorem supply_flow (s : DiamondToken T) (calls : List Call) :
    (run next calls s).ftTotalSupply+sumAlong next (counted Call.retired) calls s =
      s.ftTotalSupply+sumAlong next (counted Call.issued) calls s := by
  have hstep : ∀ (s : DiamondToken T) (c : Call), True → True →
      (next s c).ftTotalSupply+counted Call.retired s c =
        s.ftTotalSupply+counted Call.issued s c :=
    fun s c _ _ => (next_moved s c).supply
  exact run_flow (J := fun _ => True) ftTotalSupply (fun _ _ _ _ => trivial)
    hstep trivial (along_trivial calls s)

omit [StandardToken T] in
theorem nothing_spent {u : AccountId} {calls : List Call}
    (h : ∀ c ∈ calls, c.env.predecessorAccountId ≠ u) (s : DiamondToken T) :
    sumAlong next (counted fun c => c.spent u) calls s = 0 := by
  refine sumAlong_zero ?_
  have hcallers : Along next (fun _ c => c.env.predecessorAccountId ≠ u) calls s :=
    (along_const calls s).mpr h
  refine along_mono (J := fun _ => True) (fun _ _ _ => trivial) (fun s c _ hc => ?_) trivial
    hcallers
  unfold counted
  split
  · exact spent_other hc
  · rfl

/-- The balance of an account is its history, and without a call of its own it
only ever receives. -/
theorem account_history (s : DiamondToken T) (calls : List Call) (u : AccountId) :
    (run next calls s).ftBalanceOf u+sumAlong next (counted fun c => c.spent u) calls s =
        s.ftBalanceOf u+sumAlong next (counted fun c => c.received u) calls s ∧
      ((∀ c ∈ calls, c.env.predecessorAccountId ≠ u) →
        (run next calls s).ftBalanceOf u =
          s.ftBalanceOf u+sumAlong next (counted fun c => c.received u) calls s) := by
  refine ⟨balance_flow s calls u,fun h => ?_⟩
  have hflow := balance_flow s calls u
  rwa [nothing_spent h s,Nat.add_zero] at hflow

theorem account_history_deployed : ∃ s : DiamondToken Ledger,
    new (firstBlock "owner.near" "diamond.near") "owner.near" "lz.near" 1 = .ok s ∧
    (run next [⟨firstBlock "owner.near" "diamond.near",.burn 5⟩,
        ⟨firstBlock "owner.near" "diamond.near",.mint "owner.near" 7⟩] s).ftBalanceOf
        "lz.near" =
      s.ftBalanceOf "lz.near"+sumAlong next (counted fun c => c.received "lz.near")
        [⟨firstBlock "owner.near" "diamond.near",.burn 5⟩,
          ⟨firstBlock "owner.near" "diamond.near",.mint "owner.near" 7⟩] s :=
  ⟨_,rfl,(account_history _ _ _).2 (by decide)⟩

omit [StandardToken T] in
theorem fresh_held [LawfulFungibleToken T]
    (hfresh : ∀ u, FungibleToken.balance (FungibleToken.new : T) u = none) :
    Shares.Exactly (balances (FungibleToken.new : T)).held
      (balances (FungibleToken.new : T)).supply := by
  have hzero : (balances (FungibleToken.new : T)).held = fun _ => 0 := by
    funext u
    change (balance FungibleToken.new u).getD 0 = 0
    rw [hfresh u]
    rfl
  rw [hzero]
  change Shares.Exactly _ (totalSupply (FungibleToken.new : T))
  rw [LawfulFungibleToken.new_totalSupply]
  exact Shares.exactly_zero

theorem new_held [LawfulFungibleToken T] {env : Env} {ownerId lzEndpoint : AccountId}
    {nearChainId : UInt16} {s : DiamondToken T}
    (hfresh : ∀ u, FungibleToken.balance (FungibleToken.new : T) u = none)
    (hnew : new env ownerId lzEndpoint nearChainId = .ok s) :
    Shares.Exactly s.ftBalanceOf s.ftTotalSupply ∧ s.ftTotalSupply = initialSupply := by
  obtain ⟨registered,hreg,hnew⟩ := Checked.bind_ok.mp hnew
  obtain ⟨token,hdep,hnew⟩ := Checked.bind_ok.mp hnew
  cases hnew
  have hmoved := moved_trans
    (register_moved (shows_ok (StandardToken.register_shows _ ownerId) hreg))
    (deposit_balances_moved hdep)
  refine ⟨hmoved.whole (fresh_held hfresh),?_⟩
  have hsupply := hmoved.supply
  have hzero : (balances (FungibleToken.new : T)).supply = 0 :=
    LawfulFungibleToken.new_totalSupply
  rw [hzero,Nat.zero_add,Nat.zero_add] at hsupply
  exact hsupply

/-- All balances together are the total supply, which is what was issued and
not yet retired. -/
theorem supply_is_held [LawfulFungibleToken T] {env : Env} {ownerId lzEndpoint : AccountId}
    {nearChainId : UInt16} {s : DiamondToken T}
    (hfresh : ∀ u, FungibleToken.balance (FungibleToken.new : T) u = none)
    (hnew : new env ownerId lzEndpoint nearChainId = .ok s) (calls : List Call) :
    Shares.Exactly (run next calls s).ftBalanceOf (run next calls s).ftTotalSupply ∧
      (run next calls s).ftTotalSupply+sumAlong next (counted Call.retired) calls s =
        initialSupply+sumAlong next (counted Call.issued) calls s := by
  obtain ⟨hheld,hsupply⟩ := new_held hfresh hnew
  refine ⟨?_,by rw [supply_flow,hsupply]⟩
  exact run_invariant (I := fun s : DiamondToken T =>
    Shares.Exactly s.ftBalanceOf s.ftTotalSupply)
    (fun s c h => (next_moved s c).whole h) hheld calls

theorem supply_is_held_deployed : ∃ s : DiamondToken Ledger,
    new (firstBlock "owner.near" "diamond.near") "owner.near" "lz.near" 1 = .ok s ∧
    Shares.Exactly
      (run next [⟨firstBlock "owner.near" "diamond.near",.burn 5⟩] s).ftBalanceOf
      (run next [⟨firstBlock "owner.near" "diamond.near",.burn 5⟩] s).ftTotalSupply :=
  ⟨_,rfl,(@supply_is_held Ledger _ _ _ (firstBlock "owner.near" "diamond.near")
    "owner.near" "lz.near" 1 _ (fun _ => rfl) rfl _).1⟩

end DiamondToken
end DiamondBot
