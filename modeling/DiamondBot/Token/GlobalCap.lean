import DiamondBot.Token.TrackedSupply

/-!
# The cap on the supply over all chains

A mint or an incoming transfer is checked against the tracker's total, while
the cap speaks about the ledger's. The two checks compose as long as the
tracker does not record less for NEAR than the ledger holds. Incoming
transfers by an endpoint that is not the owner are the calls that make it
record less.
-/

set_option autoImplicit false

namespace DiamondBot.DiamondToken
open NearRuntime Library FungibleToken

variable {T : Type}

theorem nearCirculating_eq (s : DiamondToken T) : s.getNearCirculatingSupply = s.nearRecord := by
  unfold getNearCirculatingSupply nearRecord
  split
  · exact (SupplyTracker.recorded_some ‹_›).symm
  · exact (SupplyTracker.recorded_none ‹_›).symm

theorem nearRecord_of_tracked {s : DiamondToken T} {n : ℕ} (h : s.trackedSupply = some n) :
    s.nearRecord = n := by
  obtain ⟨c,hc,rfl⟩ := Option.map_eq_some_iff.mp h
  exact SupplyTracker.recorded_some hc

variable [FungibleToken T]

def Capped (s : DiamondToken T) : Prop := s.ftTotalSupply+s.remoteRecord ≤ s.maxSupply

/-- An accepted report is about another chain and leaves the cap intact. -/
def ReportFits (s : DiamondToken T) (c : Call) : Prop :=
  match c.op with
  | .updateRemoteChainSupply chainId supply =>
    (s.updateRemoteChainSupply c.env chainId supply).2 = true →
      chainId ≠ s.nearChainId ∧ Capped (s.updateRemoteChainSupply c.env chainId supply).1
  | _ => True

/-- New tokens enter the ledger only while the tracker's figure for NEAR
covers what the ledger already holds. -/
def CoversLedger (s : DiamondToken T) (c : Call) : Prop :=
  match c.op with
  | .mint _ amount => amount = 0 ∨ s.ftTotalSupply ≤ s.getNearCirculatingSupply
  | .bridgeIn _ _ _ amount => amount = 0 ∨ s.ftTotalSupply ≤ s.getNearCirculatingSupply
  | _ => True

theorem grown_capped {s : DiamondToken T} {env : Env} {a : ℕ} {token : T}
    {tracker : SupplyTracker} (hq : Capped s)
    (room : s.nearRecord+s.remoteRecord+a ≤ s.maxSupply)
    (total : totalSupply token = totalSupply s.token+a)
    (record : s.adjustNearSupply env (fun v => addU128 v a) = .ok tracker)
    (hc : a = 0 ∨ s.ftTotalSupply ≤ s.getNearCirculatingSupply) :
    totalSupply token+tracker.remote s.nearChainId ≤ s.maxSupply := by
  rw [nearCirculating_eq] at hc
  rw [adjust_remote record,total]
  change totalSupply s.token+s.remoteRecord ≤ s.maxSupply at hq
  change a = 0 ∨ totalSupply s.token ≤ s.nearRecord at hc
  omega

theorem shrunk_capped {s : DiamondToken T} {env : Env} {a : ℕ} {token : T}
    {tracker : SupplyTracker} (hq : Capped s)
    (total : totalSupply token+a = totalSupply s.token)
    (record : s.adjustNearSupply env (fun v => Checked.sub v a) = .ok tracker) :
    totalSupply token+tracker.remote s.nearChainId ≤ s.maxSupply := by
  rw [adjust_remote record]
  change totalSupply s.token+s.remoteRecord ≤ s.maxSupply at hq
  omega

theorem effect_capped {s s' : DiamondToken T} {env : Env} {op : Op} (hq : Capped s)
    (hr : ReportFits s ⟨env,op⟩) (hc : CoversLedger s ⟨env,op⟩) (h : Effect s env op s') :
    Capped s' := by
  cases h with
  | mint u a token tracker time owner room total record =>
    exact (grown_capped hq room total record hc :)
  | bridgeIn k sender u a token tracker room total record =>
    exact (grown_capped hq room total record hc :)
  | burn a token tracker time total record =>
    exact (shrunk_capped hq total record :)
  | bridgeOut w a p token tracker total record =>
    exact (shrunk_capped hq total record :)
  | transferOwnership => exact hq
  | setChainConfig k config tracker record =>
    rcases record with rfl | ⟨hnone,rfl⟩
    · exact hq
    · change s.ftTotalSupply+SupplyTracker.remote _ s.nearChainId ≤ s.maxSupply
      rw [SupplyTracker.update_zero_remote _ hnone]
      exact hq
  | report k v config known allowed =>
    have hu : s.updateRemoteChainSupply env k v = ({ s with supplyTracker :=
        (s.supplyTracker.updateChainSupply env k config.chainName v).1 },true) := by
      simp [updateRemoteChainSupply,allowed,known]
    have hfit := hr (by rw [hu])
    rw [hu] at hfit
    exact hfit.2
  | refusedReport => exact hq
  | quiet op token endpoint manager configs time hop total =>
    change totalSupply token+s.remoteRecord ≤ s.maxSupply
    rw [total]
    exact hq

variable [LawfulFungibleToken T]

theorem next_capped (s : DiamondToken T) (c : Call) (hq : Capped s)
    (hc : ReportFits s c ∧ (Accepted s c → CoversLedger s c)) : Capped (next s c) :=
  AtomicRun.settle_preserves hq
    fun s' h => effect_capped hq hc.1 (hc.2 ⟨s',h⟩) (step_effect h)

theorem new_capped {env : Env} {ownerId lzEndpoint : AccountId} {nearChainId : UInt16}
    {s : DiamondToken T} (h : new env ownerId lzEndpoint nearChainId = .ok s) : Capped s := by
  obtain ⟨_,hreg,h⟩ := Checked.bind_ok.mp h
  obtain ⟨_,hdep,h⟩ := Checked.bind_ok.mp h
  cases h
  change totalSupply _+SupplyTracker.remote _ nearChainId ≤ maxSupplyLimit
  rw [SupplyTracker.update_remote,LawfulFungibleToken.deposit_totalSupply _ _ _ _ hdep,
    LawfulFungibleToken.register_totalSupply _ _ _ hreg,LawfulFungibleToken.new_totalSupply,
    SupplyTracker.new_remote]
  decide

/-- The cap holds throughout every run with fitting reports in which no
accepted mint or incoming transfer meets a tracker that falls short of the
ledger. Whoever deployed the contract, the bound starts at the first state. -/
theorem capped_throughout {env : Env} {ownerId lzEndpoint : AccountId} {nearChainId : UInt16}
    {s : DiamondToken T} (hnew : new env ownerId lzEndpoint nearChainId = .ok s)
    (calls : List Call) (hreports : AtomicRun.Along next ReportFits calls s)
    (hcovers : AtomicRun.Along next (fun s c => Accepted s c → CoversLedger s c) calls s) :
    AtomicRun.Throughout next Capped calls s :=
  AtomicRun.throughout_of_along next_capped (new_capped hnew)
    (AtomicRun.along_and hreports hcovers)

theorem capped_throughout_minted :
    ∃ s : DiamondToken Ledger,
      new (firstBlock "owner.near" "diamond.near") "owner.near" "lz.near" 15 = .ok s ∧
      AtomicRun.Throughout next Capped [callBy "owner.near" (.mint "owner.near" 7)] s :=
  ⟨_,rfl,@capped_throughout Ledger _ _ (firstBlock "owner.near" "diamond.near")
    "owner.near" "lz.near" 15 _ rfl [callBy "owner.near" (.mint "owner.near" 7)]
    ⟨trivial,trivial⟩ ⟨fun _ => Or.inr (by decide),trivial⟩⟩

def capOverrun : List Call := [
  callBy "owner.near" (.setChainConfig 1 ethereum),
  callBy "lz.near" (.bridgeIn 1 "0xabc" "alice.near" 500000000000000000000000000),
  callBy "owner.near" (.updateRemoteChainSupply 1 250000000000000000000000000),
  callBy "lz.near" (.bridgeIn 1 "0xabc" "alice.near" 250000000000000000000000000)]

theorem bridged_in_over_cap :
    ∃ s : DiamondToken Ledger,
      new (firstBlock "owner.near" "diamond.near") "owner.near" "lz.near" 15 = .ok s ∧
      AtomicRun.Along next ReportFits capOverrun s ∧
      ¬Capped (AtomicRun.run next capOverrun s) := by
  refine ⟨_,rfl,⟨trivial,trivial,?_,trivial,trivial⟩,?_⟩
  · intro _
    unfold Capped
    decide
  · unfold Capped
    decide

def OwnerBridgesIn (s : DiamondToken T) (c : Call) : Prop :=
  match c.op with
  | .bridgeIn _ _ _ amount => amount = 0 ∨ c.env.predecessorAccountId = s.ownerId
  | _ => True

def Covered (s : DiamondToken T) : Prop :=
  ∃ n, s.trackedSupply = some n ∧ s.ftTotalSupply ≤ n

omit [LawfulFungibleToken T] in
theorem grown_covered {s : DiamondToken T} {env : Env} {a : ℕ} {token : T}
    {tracker : SupplyTracker} (hs : Synced s) (hq : Covered s)
    (total : totalSupply token = totalSupply s.token+a)
    (record : s.adjustNearSupply env (fun v => addU128 v a) = .ok tracker)
    (ho : a = 0 ∨ env.predecessorAccountId = s.ownerId) :
    ∃ n, (tracker.getChainSupply s.nearChainId).map ChainSupply.supply = some n ∧
      totalSupply token ≤ n := by
  obtain ⟨n,hn,hle⟩ := hq
  obtain ⟨v,hv,ht⟩ := adjust_tracked record hn
  have hv' := (Checked.add_ok.mp hv).2
  change totalSupply s.token ≤ n at hle
  refine ⟨_,ht,?_⟩
  split_ifs with h
  · omega
  · have ha : a = 0 := ho.resolve_right (fun he => h (he.trans hs.symm))
    omega

omit [LawfulFungibleToken T] in
theorem shrunk_covered {s : DiamondToken T} {env : Env} {a : ℕ} {token : T}
    {tracker : SupplyTracker} (hq : Covered s)
    (total : totalSupply token+a = totalSupply s.token)
    (record : s.adjustNearSupply env (fun v => Checked.sub v a) = .ok tracker) :
    ∃ n, (tracker.getChainSupply s.nearChainId).map ChainSupply.supply = some n ∧
      totalSupply token ≤ n := by
  obtain ⟨n,hn,hle⟩ := hq
  obtain ⟨v,hv,ht⟩ := adjust_tracked record hn
  have hv' := (Checked.sub_ok.mp hv).2
  change totalSupply s.token ≤ n at hle
  refine ⟨_,ht,?_⟩
  split_ifs <;> omega

omit [LawfulFungibleToken T] in
theorem effect_covered {s s' : DiamondToken T} {env : Env} {op : Op} (hs : Synced s)
    (hq : Covered s) (hr : ReportFits s ⟨env,op⟩) (ho : OwnerBridgesIn s ⟨env,op⟩)
    (h : Effect s env op s') : Covered s' := by
  have ⟨n,hn,hle⟩ := hq
  cases h with
  | mint u a token tracker time owner room total record =>
    exact (grown_covered hs hq total record (Or.inr owner) :)
  | bridgeIn k sender u a token tracker room total record =>
    exact (grown_covered hs hq total record ho :)
  | burn a token tracker time total record =>
    exact (shrunk_covered hq total record :)
  | bridgeOut w a p token tracker total record =>
    exact (shrunk_covered hq total record :)
  | transferOwnership => exact hq
  | setChainConfig k config tracker record =>
    rcases record with rfl | ⟨hnone,rfl⟩
    · exact hq
    · have hk : s.nearChainId ≠ k := by
        intro hk
        change (s.supplyTracker.getChainSupply s.nearChainId).map _ = _ at hn
        rw [hk,hnone] at hn
        cases hn
      refine ⟨n,?_,hle⟩
      change (SupplyTracker.getChainSupply _ s.nearChainId).map _ = _
      rw [SupplyTracker.update_getChainSupply_ne _ _ _ _ hk]
      exact hn
  | report k v config known allowed =>
    have hu : (s.updateRemoteChainSupply env k v).2 = true := by
      simp [updateRemoteChainSupply,allowed,known]
    refine ⟨n,?_,hle⟩
    change (SupplyTracker.getChainSupply _ s.nearChainId).map _ = _
    rw [SupplyTracker.update_getChainSupply_ne _ _ _ _ (Ne.symm (hr hu).1)]
    exact hn
  | refusedReport => exact hq
  | quiet op token endpoint manager configs time hop total =>
    refine ⟨n,hn,?_⟩
    change totalSupply token ≤ n
    rw [total]
    exact hle

theorem covered_throughout {env : Env} {ownerId lzEndpoint : AccountId} {nearChainId : UInt16}
    {s : DiamondToken T} (howner : env.predecessorAccountId = ownerId)
    (hnew : new env ownerId lzEndpoint nearChainId = .ok s) {calls : List Call}
    (hreports : AtomicRun.Along next ReportFits calls s)
    (howns : AtomicRun.Along next (fun s c => Accepted s c → OwnerBridgesIn s c) calls s) :
    AtomicRun.Throughout next Covered calls s := by
  obtain ⟨hs,hq⟩ := new_tracked howner hnew
  have hrun := AtomicRun.throughout_of_along (I := fun s => Synced s ∧ Covered s)
    (fun s c h hc => ⟨next_synced s c h.1,AtomicRun.settle_preserves h.2 fun s' hok =>
      effect_covered h.1 h.2 hc.1 (hc.2 ⟨s',hok⟩) (step_effect hok)⟩)
    ⟨hs,_,hq,le_refl _⟩ (AtomicRun.along_and hreports howns)
  exact AtomicRun.throughout_mono (fun s h => h.2) hrun

omit [LawfulFungibleToken T] in
theorem covers_of_covered {s : DiamondToken T} (c : Call) (hq : Covered s) :
    CoversLedger s c := by
  obtain ⟨n,hn,hle⟩ := hq
  have hnear : s.ftTotalSupply ≤ s.getNearCirculatingSupply := by
    rw [nearCirculating_eq,nearRecord_of_tracked hn]
    exact hle
  obtain ⟨env,op⟩ := c
  cases op with
  | mint => exact Or.inr hnear
  | bridgeIn => exact Or.inr hnear
  | _ => trivial

theorem capped_of_owner_bridging {env : Env} {ownerId lzEndpoint : AccountId}
    {nearChainId : UInt16} {s : DiamondToken T} (howner : env.predecessorAccountId = ownerId)
    (hnew : new env ownerId lzEndpoint nearChainId = .ok s) {calls : List Call}
    (hreports : AtomicRun.Along next ReportFits calls s)
    (howns : AtomicRun.Along next (fun s c => Accepted s c → OwnerBridgesIn s c) calls s) :
    AtomicRun.Throughout next Capped calls s := by
  have hcovers := AtomicRun.along_of_states (covered_throughout howner hnew hreports howns)
    (fun s c hq => covers_of_covered c hq)
  exact AtomicRun.throughout_of_along (fun s c h hc => next_capped s c h ⟨hc.1,fun _ => hc.2⟩)
    (new_capped hnew) (AtomicRun.along_and hreports hcovers)

end DiamondBot.DiamondToken
