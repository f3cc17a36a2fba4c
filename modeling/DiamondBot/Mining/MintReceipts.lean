import DiamondBot.Mining.RewardConservation
import DiamondBot.Token.BalanceFlow
import DiamondBot.Library.Projection

/-!
# The mining contract and the token contract together

A claim leaves the mining contract as a mint call. Its receipt is executed by
the token contract in some later block, and the callback reads the outcome in
a later one still; calls of anyone to either contract come in between. Each
contract runs as it would alone, so what is known of each of them adds up.
-/

set_option autoImplicit false

namespace DiamondBot.DiamondMining
open NearRuntime Library Library.AtomicRun Library.Flows Library.Projection

/-- A mint call on its way, and its outcome once it has been executed. -/
structure Receipt where
  claim : Claim
  outcome : Option PromiseResult

structure Joint (T : Type) where
  mining : DiamondMining
  receipts : List Receipt
  token : DiamondToken T
  /-- The claims whose mint was accepted. -/
  minted : List Claim
  /-- The claims whose callback has read an accepted mint. -/
  paid : List Claim
  now : ℕ

def Action.made (s : DiamondMining) : Action → Option (Outcome (DiamondMining × List Claim))
  | .updateRewards env => some ((s.updateRewards env).map fun c => (c,[]))
  | .claimRewards env => some ((s.claimRewards env).map fun r => (r.1,[r.2]))
  | .setRewardRate env rewardRate => some ((s.setRewardRate env rewardRate).map fun c => (c,[]))
  | .forceUpdateGlobalReward env => some ((s.forceUpdateGlobalReward env).map fun c => (c,[]))
  | .setDiamondToken env diamondToken =>
    some ((s.setDiamondToken env diamondToken).map fun c => (c,[]))
  | .transferOwnership env newOwner => some ((s.transferOwnership env newOwner).map fun c => (c,[]))
  | .resolve _ _ _ => none

namespace Joint

inductive Event where
  | mining (a : Action)
  | token (c : DiamondToken.Call)
  /-- A contract that is not the token answers a mint call as it likes. -/
  | execute (env : Env) (i : ℕ) (elsewhere : PromiseResult)

variable {T : Type}

def start (env : Env) (diamondToken : AccountId) (token : DiamondToken T) : Joint T where
  mining := DiamondMining.new env diamondToken
  receipts := []
  token := token
  minted := []
  paid := []
  now := env.blockHeight

def system (s : Joint T) : System where
  contract := s.mining
  inflight := s.receipts.map Receipt.claim
  paid := s.paid
  now := s.now

def Ready (s : Joint T) : Action → Prop
  | .resolve _ i result => (s.receipts[i]?).bind Receipt.outcome = some result
  | _ => True

instance (s : Joint T) : (a : Action) → Decidable (s.Ready a)
  | .resolve _ i result =>
    inferInstanceAs (Decidable ((s.receipts[i]?).bind Receipt.outcome = some result))
  | .updateRewards _ | .claimRewards _ | .setRewardRate _ _ | .forceUpdateGlobalReward _
  | .setDiamondToken _ _ | .transferOwnership _ _ => inferInstanceAs (Decidable True)

def called (s : Joint T) : Outcome (DiamondMining × List Claim) → Joint T
  | .ok r => { s with
    mining := r.1
    receipts := s.receipts++r.2.map fun p => ⟨p,none⟩ }
  | .error _ => s

def settled (s : Joint T) (i : ℕ) (result : PromiseResult) : Joint T where
  mining := (s.system.resolve i result).contract
  receipts := s.receipts.eraseIdx i
  token := s.token
  minted := s.minted
  paid := (s.system.resolve i result).paid
  now := s.now

def act (s : Joint T) (a : Action) : Joint T :=
  match a.made s.mining, a with
  | some outcome, _ => s.called outcome
  | none, .resolve _ i result => s.settled i result
  | none, _ => s

def executed (s : Joint T) (i : ℕ) (p : Claim) (result : PromiseResult) : Joint T where
  mining := s.mining
  receipts := s.receipts.set i ⟨p,some result⟩
  token := s.token
  minted := match result with
    | .successful => s.minted++[p]
    | .failed => s.minted
  paid := s.paid
  now := s.now

variable [FungibleToken T] (miningId tokenId : AccountId)

def mintCall (env : Env) (p : Claim) : DiamondToken.Call where
  env := { env with predecessorAccountId := miningId }
  op := .mint p.userId p.amount

def execute (s : Joint T) (env : Env) (i : ℕ) (elsewhere : PromiseResult) : Joint T :=
  match s.receipts[i]? with
  | some ⟨p,none⟩ =>
    if p.diamondToken = tokenId then
      match DiamondToken.step s.token (mintCall miningId env p) with
      | .ok token => { s with token }.executed i p .successful
      | .error _ => s.executed i p .failed
    else s.executed i p elsewhere
  | _ => s

def next (s : Joint T) : Event → Joint T
  | .mining a => if s.Ready a then { s.act a with now := a.env.blockHeight } else s
  | .token c => { s with token := DiamondToken.next s.token c }
  | .execute env i elsewhere => s.execute miningId tokenId env i elsewhere

def miningActions (s : Joint T) : Event → List Action
  | .mining a => if s.Ready a then [a] else []
  | .token _ | .execute _ _ _ => []

def mintCalls (s : Joint T) (env : Env) (i : ℕ) : List DiamondToken.Call :=
  match s.receipts[i]? with
  | some ⟨p,none⟩ => if p.diamondToken = tokenId then [mintCall miningId env p] else []
  | _ => []

def tokenCalls (s : Joint T) : Event → List DiamondToken.Call
  | .mining _ => []
  | .token c => [c]
  | .execute env i _ => s.mintCalls miningId tokenId env i

end Joint

/-! ## Each contract runs as it would alone -/

theorem act_made {s : System} {a : Action} {outcome : Outcome (DiamondMining × List Claim)}
    (h : a.made s.contract = some outcome) : s.act a = s.call outcome := by
  cases a with
  | resolve => cases h
  | _ => cases h; rfl

namespace Joint

variable {T : Type}

theorem called_system (s : Joint T) (outcome : Outcome (DiamondMining × List Claim)) :
    (s.called outcome).system = s.system.call outcome := by
  cases outcome with
  | ok r =>
    simp only [called,system,System.call,List.map_append,List.map_map]
    congr 2
    exact List.map_id' r.2
  | error e => rfl

theorem settled_system {s : Joint T} {i : ℕ} {r : Receipt} (h : s.receipts[i]? = some r)
    (result : PromiseResult) : (s.settled i result).system = s.system.resolve i result := by
  have hclaim : s.system.inflight[i]? = some r.claim := by
    simp only [system,List.getElem?_map,h,Option.map_some]
  have herase : (s.receipts.eraseIdx i).map Receipt.claim = s.system.inflight.eraseIdx i :=
    (List.eraseIdx_map Receipt.claim s.receipts i).symm
  have hresolve : (s.system.resolve i result).inflight = s.system.inflight.eraseIdx i ∧
      (s.system.resolve i result).now = s.now := by
    unfold System.resolve
    rw [hclaim]
    exact ⟨rfl,rfl⟩
  change System.mk _ ((s.receipts.eraseIdx i).map Receipt.claim) _ s.now = _
  rw [herase,← hresolve.1,← hresolve.2]
  rfl

theorem ready_outcome {s : Joint T} {env : Env} {i : ℕ} {result : PromiseResult}
    (h : s.Ready (.resolve env i result)) :
    ∃ p, s.receipts[i]? = some ⟨p,some result⟩ := by
  obtain ⟨⟨p,outcome⟩,hr,ho⟩ := Option.bind_eq_some_iff.mp h
  cases ho
  exact ⟨p,hr⟩

theorem act_system {s : Joint T} {a : Action} (h : s.Ready a) :
    (s.act a).system = s.system.act a := by
  unfold act
  cases hmade : a.made s.mining with
  | some outcome =>
    rw [act_made (s := s.system) hmade]
    exact called_system s outcome
  | none =>
    cases a with
    | resolve env i result =>
      obtain ⟨p,hp⟩ := ready_outcome h
      exact settled_system hp result
    | _ => cases hmade

theorem act_same (s : Joint T) (a : Action) :
    (s.act a).token = s.token ∧ (s.act a).minted = s.minted := by
  unfold act
  cases a.made s.mining with
  | some outcome => cases outcome <;> exact ⟨rfl,rfl⟩
  | none => cases a <;> exact ⟨rfl,rfl⟩

variable [FungibleToken T] {miningId tokenId : AccountId}

omit [FungibleToken T] in
theorem executed_system {s : Joint T} {i : ℕ} {p : Claim} (h : s.receipts[i]? = some ⟨p,none⟩)
    (result : PromiseResult) : (s.executed i p result).system = s.system := by
  have hset : (s.receipts.set i ⟨p,some result⟩).map Receipt.claim =
      s.receipts.map Receipt.claim := by
    have hi := (List.getElem?_eq_some_iff.mp h).1
    apply List.ext_getElem?
    intro j
    rw [List.getElem?_map,List.getElem?_map,List.getElem?_set]
    by_cases hj : i = j
    · rw [if_pos hj,if_pos hi,← hj,h]
      rfl
    · rw [if_neg hj]
  simp only [executed,system,hset]

/-- What executing a receipt can do. -/
theorem execute_cases (s : Joint T) (env : Env) (i : ℕ) (elsewhere : PromiseResult) :
    s.execute miningId tokenId env i elsewhere = s ∧
        s.mintCalls miningId tokenId env i = [] ∨
      ∃ p, s.receipts[i]? = some ⟨p,none⟩ ∧
        (p.diamondToken = tokenId ∧
          s.mintCalls miningId tokenId env i = [mintCall miningId env p] ∧
          ((∃ token, DiamondToken.step s.token (mintCall miningId env p) = .ok token ∧
              s.execute miningId tokenId env i elsewhere =
                { s with token }.executed i p .successful) ∨
            (∃ e, DiamondToken.step s.token (mintCall miningId env p) = .error e ∧
              s.execute miningId tokenId env i elsewhere = s.executed i p .failed)) ∨
        p.diamondToken ≠ tokenId ∧
          s.mintCalls miningId tokenId env i = [] ∧
          s.execute miningId tokenId env i elsewhere = s.executed i p elsewhere) := by
  unfold execute mintCalls
  split
  · next p hp =>
    refine Or.inr ⟨p,hp,?_⟩
    by_cases hhere : p.diamondToken = tokenId
    · refine Or.inl ⟨hhere,if_pos hhere,?_⟩
      rw [if_pos hhere]
      cases hstep : DiamondToken.step s.token (mintCall miningId env p) with
      | ok token => exact Or.inl ⟨token,rfl,rfl⟩
      | error e => exact Or.inr ⟨e,rfl,rfl⟩
    · exact Or.inr ⟨hhere,if_neg hhere,if_neg hhere⟩
  · exact Or.inl ⟨rfl,rfl⟩

theorem mining_projects :
    Projects (next miningId tokenId) System.next (system : Joint T → System)
      miningActions := by
  intro s e
  cases e with
  | mining a =>
    change (if s.Ready a then { s.act a with now := a.env.blockHeight } else s).system =
      run System.next (if s.Ready a then [a] else []) s.system
    by_cases hr : s.Ready a
    · rw [if_pos hr,if_pos hr]
      change ({ (s.act a).system with now := a.env.blockHeight } : System) = _
      rw [act_system hr]
      rfl
    · rw [if_neg hr,if_neg hr]
      rfl
  | token c => rfl
  | execute env i elsewhere =>
    change (s.execute miningId tokenId env i elsewhere).system = s.system
    obtain ⟨hsame,_⟩ | ⟨p,hp,⟨_,_,⟨token,_,hs⟩ | ⟨_,_,hs⟩⟩ | ⟨_,_,hs⟩⟩ :=
      execute_cases s env i elsewhere
    · rw [hsame]
    · rw [hs]
      exact executed_system (s := { s with token }) hp _
    · rw [hs,executed_system hp]
    · rw [hs,executed_system hp]

theorem token_projects :
    Projects (next miningId tokenId) DiamondToken.next (fun s : Joint T => s.token)
      (tokenCalls miningId tokenId) := by
  intro s e
  cases e with
  | mining a =>
    change (if s.Ready a then { s.act a with now := a.env.blockHeight } else s).token = s.token
    split
    · exact (act_same s a).1
    · rfl
  | token c => rfl
  | execute env i elsewhere =>
    change (s.execute miningId tokenId env i elsewhere).token =
      run DiamondToken.next (s.mintCalls miningId tokenId env i) s.token
    obtain ⟨hsame,hcalls⟩ | ⟨p,hp,⟨_,hcalls,⟨token,hstep,hs⟩ | ⟨_,hstep,hs⟩⟩ | ⟨_,hcalls,hs⟩⟩ :=
      execute_cases s env i elsewhere
    · rw [hsame,hcalls]
      rfl
    · rw [hs,hcalls]
      exact (settle_ok hstep).symm
    · rw [hs,hcalls]
      exact (settle_error hstep).symm
    · rw [hs,hcalls]
      rfl

/-! ## What the receipts say about the tokens -/

omit [FungibleToken T] in
theorem settled_paid {s : Joint T} {i : ℕ} {r : Receipt} (h : s.receipts[i]? = some r)
    (result : PromiseResult) : (s.settled i result).paid = match result with
      | .successful => s.paid++[r.claim]
      | .failed => s.paid := by
  have hclaim : s.system.inflight[i]? = some r.claim := by
    simp only [system,List.getElem?_map,h,Option.map_some]
  unfold settled System.resolve
  rw [hclaim]
  rfl

end Joint

def Receipt.waits (u : AccountId) (r : Receipt) : ℕ :=
  if r.outcome = some .successful then 0 else r.claim.due u

def Receipt.brought (u : AccountId) (r : Receipt) : ℕ :=
  if r.outcome = some .successful then r.claim.due u else 0

@[simp] theorem brought_none (u : AccountId) (p : Claim) : Receipt.brought u ⟨p,none⟩ = 0 := by
  simp [Receipt.brought]

@[simp] theorem brought_failed (u : AccountId) (p : Claim) :
    Receipt.brought u ⟨p,some .failed⟩ = 0 := by
  simp [Receipt.brought]

@[simp] theorem brought_successful (u : AccountId) (p : Claim) :
    Receipt.brought u ⟨p,some .successful⟩ = p.due u := by
  simp [Receipt.brought]

theorem waits_brought (u : AccountId) (r : Receipt) :
    r.waits u+r.brought u = r.claim.due u := by
  unfold Receipt.waits Receipt.brought
  split <;> omega

theorem dueTo_claims (u : AccountId) (receipts : List Receipt) :
    dueTo u (receipts.map Receipt.claim) =
      (receipts.map (Receipt.waits u)).sum+(receipts.map (Receipt.brought u)).sum := by
  rw [← List.sum_map_add,dueTo,List.map_map]
  exact congrArg List.sum (List.map_congr_left fun r _ => (waits_brought u r).symm)

theorem dueTo_snoc (u : AccountId) (claims : List Claim) (p : Claim) :
    dueTo u (claims++[p]) = dueTo u claims+p.due u := by
  simp [dueTo]

theorem sent_brought (u : AccountId) (claims : List Claim) :
    ((claims.map fun p => Receipt.mk p none).map (Receipt.brought u)).sum = 0 := by
  rw [List.map_map]
  exact List.sum_eq_zero (by simp [Receipt.brought])

namespace Joint

variable {T : Type}

def waiting (s : Joint T) (u : AccountId) : ℕ := (s.receipts.map (Receipt.waits u)).sum

def Matched (s : Joint T) : Prop := ∀ u,
  dueTo u s.minted = dueTo u s.paid+(s.receipts.map (Receipt.brought u)).sum

theorem called_matched {s : Joint T} (h : s.Matched)
    (outcome : Outcome (DiamondMining × List Claim)) : (s.called outcome).Matched := by
  cases outcome with
  | ok r =>
    intro u
    have hsent := sent_brought u r.2
    simp only [called,List.map_append,List.sum_append]
    rw [hsent,Nat.add_zero]
    exact h u
  | error e => exact h

theorem settled_matched {s : Joint T} (h : s.Matched) {i : ℕ} {p : Claim}
    {result : PromiseResult} (hp : s.receipts[i]? = some ⟨p,some result⟩) :
    (s.settled i result).Matched := by
  intro u
  have herase := KeyedTotal.sum_eraseIdx (Receipt.brought u) s.receipts i _ hp
  have hall := h u
  rw [settled_paid hp]
  change dueTo u s.minted = _+((s.receipts.eraseIdx i).map (Receipt.brought u)).sum
  cases result with
  | successful =>
    change _ = dueTo u (s.paid++[p])+_
    rw [brought_successful] at herase
    rw [dueTo_snoc]
    omega
  | failed =>
    change _ = dueTo u s.paid+_
    rw [brought_failed] at herase
    omega

theorem executed_matched {s : Joint T} (h : s.Matched) {i : ℕ} {p : Claim}
    (hp : s.receipts[i]? = some ⟨p,none⟩) (result : PromiseResult) :
    (s.executed i p result).Matched := by
  intro u
  have hset := KeyedTotal.sum_set (Receipt.brought u) s.receipts i _ ⟨p,some result⟩ hp
  rw [brought_none] at hset
  have hall := h u
  cases result with
  | successful =>
    rw [brought_successful] at hset
    change dueTo u (s.minted++[p]) = dueTo u s.paid+
      ((s.receipts.set i ⟨p,some .successful⟩).map (Receipt.brought u)).sum
    rw [dueTo_snoc]
    omega
  | failed =>
    rw [brought_failed] at hset
    change dueTo u s.minted = dueTo u s.paid+
      ((s.receipts.set i ⟨p,some .failed⟩).map (Receipt.brought u)).sum
    omega

theorem act_matched {s : Joint T} (h : s.Matched) {a : Action} (hr : s.Ready a) :
    (s.act a).Matched := by
  unfold act
  cases hmade : a.made s.mining with
  | some outcome => exact called_matched h outcome
  | none =>
    cases a with
    | resolve env i result =>
      obtain ⟨p,hp⟩ := ready_outcome hr
      exact settled_matched h hp
    | _ => cases hmade

variable [FungibleToken T] {miningId tokenId : AccountId}

theorem next_matched (s : Joint T) (e : Event) (h : s.Matched) :
    (next miningId tokenId s e).Matched := by
  cases e with
  | mining a =>
    unfold next
    by_cases hr : s.Ready a
    · simp only [if_pos hr]
      exact act_matched h hr
    · simp only [if_neg hr]
      exact h
  | token c => exact h
  | execute env i elsewhere =>
    change (s.execute miningId tokenId env i elsewhere).Matched
    obtain ⟨hsame,_⟩ | ⟨p,hp,⟨_,_,⟨token,_,hs⟩ | ⟨_,_,hs⟩⟩ | ⟨_,_,hs⟩⟩ :=
      execute_cases s env i elsewhere
    · rwa [hsame]
    · rw [hs]
      exact executed_matched (s := { s with token }) h hp _
    · rw [hs]
      exact executed_matched h hp _
    · rw [hs]
      exact executed_matched h hp _

/-! ## The books of both contracts -/

def mintedBy (tokenId : AccountId) (s : Joint T) : List Claim :=
  s.minted.filter fun p => p.diamondToken = tokenId

def directly (f : DiamondToken.Call → ℕ) (s : Joint T) : Event → ℕ
  | .token c => DiamondToken.counted f s.token c
  | .mining _ | .execute _ _ _ => 0

/-- Block heights do not decrease, and the mining contract's rate and shared
block stay what they are. -/
def Regular (s : Joint T) : Event → Prop
  | .mining a => s.system.Timely a ∧ s.system.Steady a
  | .token _ | .execute _ _ _ => True

omit [FungibleToken T] in
theorem mintedBy_here {s : Joint T} {i : ℕ} {p : Claim} (h : p.diamondToken = tokenId)
    (u : AccountId) : dueTo u (mintedBy tokenId (s.executed i p .successful)) =
      dueTo u (mintedBy tokenId s)+p.due u := by
  change dueTo u ((s.minted++[p]).filter _) = _
  rw [List.filter_append,List.filter_cons_of_pos (by simpa using h)]
  exact dueTo_snoc u _ p

omit [FungibleToken T] in
theorem mintedBy_elsewhere {s : Joint T} {i : ℕ} {p : Claim} (h : p.diamondToken ≠ tokenId)
    (result : PromiseResult) :
    mintedBy tokenId (s.executed i p result) = mintedBy tokenId s := by
  cases result with
  | successful =>
    change (s.minted++[p]).filter _ = _
    rw [List.filter_append,List.filter_cons_of_neg (by simpa using h)]
    exact List.append_nil _
  | failed => rfl

theorem mint_received (env : Env) (p : Claim) (u : AccountId) :
    (mintCall miningId env p).received u = p.due u := rfl

theorem mint_spent (env : Env) (p : Claim) (u : AccountId) :
    (mintCall miningId env p).spent u = 0 := rfl

variable [StandardToken T]

/-- A balance moves by the direct calls and by what the claims had minted. -/
theorem next_balance (s : Joint T) (e : Event) (u : AccountId) :
    (next miningId tokenId s e).token.ftBalanceOf u+directly (fun c => c.spent u) s e+
        dueTo u (mintedBy tokenId s) =
      s.token.ftBalanceOf u+directly (fun c => c.received u) s e+
        dueTo u (mintedBy tokenId (next miningId tokenId s e)) := by
  cases e with
  | mining a =>
    unfold next
    by_cases hr : s.Ready a
    · simp only [if_pos hr,mintedBy]
      rw [(act_same s a).1,(act_same s a).2]
      rfl
    · simp only [if_neg hr]
      rfl
  | token c =>
    have hmoved := (DiamondToken.next_moved s.token c).account u
    exact congrArg (·+dueTo u (mintedBy tokenId s)) hmoved
  | execute env i elsewhere =>
    change (s.execute miningId tokenId env i elsewhere).token.ftBalanceOf u+0+_ =
      s.token.ftBalanceOf u+0+dueTo u (mintedBy tokenId (s.execute miningId tokenId env i elsewhere))
    obtain ⟨hsame,_⟩ | ⟨p,hp,⟨hhere,_,⟨token,hstep,hs⟩ | ⟨_,_,hs⟩⟩ | ⟨haway,_,hs⟩⟩ :=
      execute_cases s env i elsewhere
    · rw [hsame]
    · have hmoved := (DiamondToken.step_moved hstep).account u
      rw [mint_received,mint_spent] at hmoved
      have hminted := mintedBy_here (s := { s with token }) (i := i) hhere u
      rw [hs,hminted]
      change token.ftBalanceOf u+0 = s.token.ftBalanceOf u+p.due u at hmoved
      change token.ftBalanceOf u+0+dueTo u (mintedBy tokenId s) =
        s.token.ftBalanceOf u+0+(dueTo u (mintedBy tokenId s)+p.due u)
      omega
    · rw [hs]
      rfl
    · rw [hs,mintedBy_elsewhere haway]
      rfl

theorem run_balance (s : Joint T) (events : List Event) (u : AccountId) :
    (run (next miningId tokenId) events s).token.ftBalanceOf u+
        sumAlong (next miningId tokenId) (directly fun c => c.spent u) events s+
        dueTo u (mintedBy tokenId s) =
      s.token.ftBalanceOf u+
        sumAlong (next miningId tokenId) (directly fun c => c.received u) events s+
        dueTo u (mintedBy tokenId (run (next miningId tokenId) events s)) :=
  run_exchange (J := fun _ => True) (fun s => s.token.ftBalanceOf u)
    (fun s => dueTo u (mintedBy tokenId s)) (fun _ _ _ _ => trivial)
    (fun s e _ _ => next_balance s e u) trivial (along_trivial events s)

omit [FungibleToken T] [StandardToken T] in
theorem regular_actions {s : Joint T} {e : Event} (h : s.Regular e) :
    Along System.next (fun s a => s.Timely a ∧ s.Steady a) (miningActions s e) s.system := by
  cases e with
  | mining a =>
    unfold miningActions
    by_cases hr : s.Ready a
    · simp only [if_pos hr]
      exact ⟨h,trivial⟩
    · simp only [if_neg hr]
      trivial
  | token c => trivial
  | execute env i elsewhere => trivial

omit [StandardToken T] in
theorem run_sound_mining (env : Env) (diamondToken : AccountId) (token : DiamondToken T)
    {events : List Event} (hregular : Along (next miningId tokenId) Regular events
      (start env diamondToken token)) :
    Sound 10000000000000000000 env.blockHeight
      (run (next miningId tokenId) events (start env diamondToken token)).system := by
  have hactions := along_projected mining_projects (along_mono (J := fun _ => True)
    (fun _ _ _ => trivial) (fun s e _ h => regular_actions h) trivial hregular)
  rw [run_projected mining_projects]
  exact run_invariant_along (next_sound (by decide)) (new_sound env diamondToken) hactions

omit [StandardToken T] in
theorem run_matched (env : Env) (diamondToken : AccountId) (token : DiamondToken T)
    (events : List Event) :
    (run (next miningId tokenId) events (start env diamondToken token)).Matched :=
  run_invariant (I := fun s : Joint T => s.Matched) next_matched (fun _ => rfl) events

omit [FungibleToken T] [StandardToken T] in
theorem rewards_split {s : Joint T} {rate createdAt : ℕ} (hs : Sound rate createdAt s.system)
    (hm : s.Matched) (u : AccountId) :
    s.mining.rewardOf u+s.waiting u+dueTo u s.minted =
      rate*(s.mining.cursor u-createdAt) := by
  have hcons := hs.conserved u
  have hdue := dueTo_claims u s.receipts
  have hminted := hm u
  change s.mining.rewardOf u+dueTo u (s.receipts.map Receipt.claim)+dueTo u s.paid =
    rate*(s.mining.cursor u-createdAt) at hcons
  unfold waiting
  omega

/-- Through any interleaving of both contracts' calls, the mint receipts and
their callbacks, at a constant rate, a credited reward is recorded, waiting or
minted, and a balance is what its account's calls and its claims make it. -/
theorem rewards_reach_the_token (env : Env) (diamondToken : AccountId) (token : DiamondToken T)
    {events : List Event} (hregular : Along (next miningId tokenId) Regular events
      (start env diamondToken token)) (u : AccountId) :
    (run (next miningId tokenId) events (start env diamondToken token)).mining.rewardOf u+
          (run (next miningId tokenId) events (start env diamondToken token)).waiting u+
          dueTo u (run (next miningId tokenId) events (start env diamondToken token)).minted =
        10000000000000000000*
          ((run (next miningId tokenId) events (start env diamondToken token)).mining.cursor u-
            env.blockHeight) ∧
      (run (next miningId tokenId) events (start env diamondToken token)).token.ftBalanceOf u+
          sumAlong (next miningId tokenId) (directly fun c => c.spent u) events
            (start env diamondToken token) =
        token.ftBalanceOf u+
          sumAlong (next miningId tokenId) (directly fun c => c.received u) events
            (start env diamondToken token)+
          dueTo u (mintedBy tokenId
            (run (next miningId tokenId) events (start env diamondToken token))) := by
  refine ⟨rewards_split (run_sound_mining env diamondToken token hregular)
    (run_matched env diamondToken token events) u,?_⟩
  exact run_balance (start env diamondToken token) events u

instance (s : System) (a : Action) : Decidable (s.Timely a) :=
  inferInstanceAs (Decidable (s.now ≤ a.env.blockHeight))

def tokenOwnedBy (ownerId : AccountId) : DiamondToken Ledger where
  token := ⟨(∅ : LookupMap AccountId ℕ).insert "alice.near" 0,0⟩
  ownerId := ownerId
  maxSupply := DiamondToken.maxSupplyLimit
  chainConfigs := ∅
  lzEndpoint := "lz.near"
  supplyTracker := SupplyTracker.new 1 DiamondToken.maxSupplyLimit ownerId
  nearChainId := 1
  moduleManager := ModuleManager.new ownerId none
  lastUpdate := 0

def claimedOnce (result : PromiseResult) : List Event := [
  .mining (.claimRewards (envAt "alice.near" 5)),
  .execute (envAt "mining.near" 6) 0 .failed,
  .token ⟨envAt "bob.near" 6,.ftTransfer "alice.near" 3 none⟩,
  .mining (.resolve (envAt "mining.near" 7) 0 result)]

theorem rewards_reach_the_token_claimedOnce :
    (run (next "mining.near" "diamond.near") (claimedOnce .successful)
        (start (envAt "owner.near" 1) "diamond.near" (tokenOwnedBy "mining.near"))).mining.rewardOf
        "alice.near"+
      (run (next "mining.near" "diamond.near") (claimedOnce .successful)
        (start (envAt "owner.near" 1) "diamond.near" (tokenOwnedBy "mining.near"))).waiting
        "alice.near"+
      dueTo "alice.near" (run (next "mining.near" "diamond.near") (claimedOnce .successful)
        (start (envAt "owner.near" 1) "diamond.near" (tokenOwnedBy "mining.near"))).minted =
    10000000000000000000*
      ((run (next "mining.near" "diamond.near") (claimedOnce .successful)
        (start (envAt "owner.near" 1) "diamond.near" (tokenOwnedBy "mining.near"))).mining.cursor
        "alice.near"-1) := by
  refine (@rewards_reach_the_token Ledger _ "mining.near" "diamond.near" _ (envAt "owner.near" 1)
    "diamond.near" (tokenOwnedBy "mining.near") (claimedOnce .successful) ?_ "alice.near").1
  exact ⟨⟨by decide,trivial⟩,trivial,trivial,⟨by decide,trivial⟩,trivial⟩

/-! ## A token that belongs to someone else -/

/-- The mining contract is not pointed at another token. -/
def Pointed (tokenId : AccountId) (s : Joint T) : Event → Prop
  | .mining (.setDiamondToken env diamondToken) =>
    env.predecessorAccountId = s.mining.ownerId → diamondToken = tokenId
  | _ => True

structure Unpaid (tokenId : AccountId) (s : Joint T) : Prop where
  contract : s.mining.diamondToken = tokenId
  claims : ∀ r ∈ s.receipts, r.claim.diamondToken = tokenId ∧ r.outcome ≠ some .successful
  minted : s.minted = []
  paid : s.paid = []

omit [FungibleToken T] [StandardToken T] in
theorem accrued_diamondToken {s c : DiamondMining} {env : Env} (h : Accrued s env c) :
    c.diamondToken = s.diamondToken := by
  cases h <;> rfl

omit [FungibleToken T] [StandardToken T] in
theorem made_pointed {s : Joint T} {a : Action} {r : DiamondMining × List Claim}
    (hp : s.Pointed tokenId (.mining a)) (hs : s.mining.diamondToken = tokenId)
    (h : a.made s.mining = some (.ok r)) :
    r.1.diamondToken = tokenId ∧ ∀ p ∈ r.2, p.diamondToken = tokenId := by
  have hempty : ∀ p ∈ ([] : List Claim), p.diamondToken = tokenId := by simp
  cases a with
  | updateRewards env =>
    obtain ⟨c,hc,rfl⟩ := Checked.map_ok.mp (Option.some.inj h)
    exact ⟨(accrued_diamondToken (updateRewards_ok hc)).trans hs,hempty⟩
  | claimRewards env =>
    obtain ⟨q,hq,rfl⟩ := Checked.map_ok.mp (Option.some.inj h)
    obtain ⟨c,hc,rfl⟩ := claimRewards_ok hq
    have htoken := (accrued_diamondToken hc).trans hs
    refine ⟨htoken,fun p hmem => ?_⟩
    rw [List.mem_singleton.mp hmem]
    exact htoken
  | setRewardRate env rewardRate =>
    obtain ⟨c,hc,rfl⟩ := Checked.map_ok.mp (Option.some.inj h)
    obtain ⟨_,rfl⟩ := setRewardRate_ok hc
    exact ⟨hs,hempty⟩
  | forceUpdateGlobalReward env =>
    obtain ⟨c,hc,rfl⟩ := Checked.map_ok.mp (Option.some.inj h)
    obtain ⟨_,rfl⟩ := forceUpdate_ok hc
    exact ⟨hs,hempty⟩
  | setDiamondToken env diamondToken =>
    obtain ⟨c,hc,rfl⟩ := Checked.map_ok.mp (Option.some.inj h)
    obtain ⟨_,howner,_⟩ := Checked.bind_ok.mp hc
    rw [setDiamondToken_ok hc]
    exact ⟨hp (Checked.require_ok.mp howner),hempty⟩
  | transferOwnership env newOwner =>
    obtain ⟨c,hc,rfl⟩ := Checked.map_ok.mp (Option.some.inj h)
    rw [transferOwnership_ok hc]
    exact ⟨hs,hempty⟩
  | resolve => cases h

omit [FungibleToken T] [StandardToken T] in
theorem act_unpaid {s : Joint T} (h : s.Unpaid tokenId) {a : Action} (hr : s.Ready a)
    (hp : s.Pointed tokenId (.mining a)) : (s.act a).Unpaid tokenId := by
  unfold act
  cases hmade : a.made s.mining with
  | some outcome =>
    cases outcome with
    | error e => exact h
    | ok r =>
      obtain ⟨hcontract,hclaims⟩ := made_pointed hp h.contract hmade
      refine ⟨hcontract,fun q hq => ?_,h.minted,h.paid⟩
      rcases List.mem_append.mp hq with hq | hq
      · exact h.claims q hq
      · obtain ⟨p,hmem,rfl⟩ := List.mem_map.mp hq
        exact ⟨hclaims p hmem,nofun⟩
  | none =>
    cases a with
    | resolve env i result =>
      obtain ⟨p,hreceipt⟩ := ready_outcome hr
      cases result with
      | successful => exact absurd rfl (h.claims _ (List.mem_of_getElem? hreceipt)).2
      | failed =>
        refine ⟨?_,fun q hq => h.claims q (List.mem_of_mem_eraseIdx hq),h.minted,?_⟩
        · change (s.system.resolve i .failed).contract.diamondToken = tokenId
          rcases resolve_cases s.system i .failed with ⟨_,hs⟩ | ⟨p,_,⟨⟨⟩,_⟩ | ⟨_,_,hs⟩ | ⟨_,_,hs⟩⟩
          all_goals
            rw [hs]
            exact h.contract
        · exact (settled_paid hreceipt .failed).trans h.paid
    | _ => cases hmade

omit [FungibleToken T] [StandardToken T] in
theorem failed_unpaid {s : Joint T} (h : s.Unpaid tokenId) {i : ℕ} {p : Claim}
    (hp : s.receipts[i]? = some ⟨p,none⟩) : (s.executed i p .failed).Unpaid tokenId := by
  refine ⟨h.contract,fun q hq => ?_,h.minted,h.paid⟩
  rcases List.mem_or_eq_of_mem_set hq with hq | rfl
  · exact h.claims q hq
  · exact ⟨(h.claims _ (List.mem_of_getElem? hp)).1,nofun⟩

omit [StandardToken T] in
theorem mint_refused {token token' : DiamondToken T} {env : Env} {p : Claim}
    (h : token.ownerId ≠ miningId) :
    DiamondToken.step token (mintCall miningId env p) ≠ .ok token' := by
  intro hstep
  obtain ⟨_,_,howner,_⟩ := DiamondToken.mint_ok hstep
  exact h howner.symm

omit [StandardToken T] in
theorem next_unpaid (s : Joint T) (e : Event) (h : s.Unpaid tokenId)
    (hguard : s.token.ownerId ≠ miningId ∧ s.Pointed tokenId e) :
    (next miningId tokenId s e).Unpaid tokenId := by
  obtain ⟨howner,hpointed⟩ := hguard
  cases e with
  | mining a =>
    unfold next
    by_cases hr : s.Ready a
    · simp only [if_pos hr]
      obtain ⟨hcontract,hclaims,hminted,hpaid⟩ := act_unpaid h hr hpointed
      exact ⟨hcontract,hclaims,hminted,hpaid⟩
    · simp only [if_neg hr]
      exact h
  | token c => exact ⟨h.contract,h.claims,h.minted,h.paid⟩
  | execute env i elsewhere =>
    change (s.execute miningId tokenId env i elsewhere).Unpaid tokenId
    obtain ⟨hsame,_⟩ | ⟨p,hp,⟨_,_,⟨token,hstep,_⟩ | ⟨_,_,hs⟩⟩ | ⟨haway,_⟩⟩ :=
      execute_cases s env i elsewhere
    · rwa [hsame]
    · exact absurd hstep (mint_refused howner)
    · rw [hs]
      exact failed_unpaid h hp
    · exact absurd (h.claims _ (List.mem_of_getElem? hp)).1 haway

omit [StandardToken T] in
/-- While the token contract belongs to an account other than the mining
contract nothing is minted for a claim, and every reward comes back. -/
theorem unpaid_while_owned_elsewhere (env : Env) (token : DiamondToken T)
    {events : List Event} (hregular : Along (next miningId tokenId) Regular events
      (start env tokenId token))
    (hpointed : Along (next miningId tokenId) (Pointed tokenId) events (start env tokenId token))
    (howner : Along (next miningId tokenId) (fun s _ => s.token.ownerId ≠ miningId) events
      (start env tokenId token)) :
    (run (next miningId tokenId) events (start env tokenId token)).minted = [] ∧
      (run (next miningId tokenId) events (start env tokenId token)).paid = [] ∧
      ∀ u, (run (next miningId tokenId) events (start env tokenId token)).mining.rewardOf u+
          dueTo u ((run (next miningId tokenId) events
            (start env tokenId token)).receipts.map Receipt.claim) =
        10000000000000000000*
          ((run (next miningId tokenId) events (start env tokenId token)).mining.cursor u-
            env.blockHeight) := by
  have hunpaid := run_invariant_along next_unpaid
    (show (start env tokenId token).Unpaid tokenId from ⟨rfl,by simp [start],rfl,rfl⟩)
    (along_and howner hpointed)
  have hsound := run_sound_mining env tokenId token hregular
  refine ⟨hunpaid.minted,hunpaid.paid,fun u => ?_⟩
  have hcons := hsound.conserved u
  change _+dueTo u _+dueTo u (run (next miningId tokenId) events
    (start env tokenId token)).paid = _ at hcons
  rw [hunpaid.paid] at hcons
  exact hcons

theorem unpaid_while_owned_elsewhere_claimedOnce :
    (run (next "mining.near" "diamond.near") (claimedOnce .failed)
      (start (envAt "owner.near" 1) "diamond.near" (tokenOwnedBy "owner.near"))).minted = [] := by
  refine (@unpaid_while_owned_elsewhere Ledger _ "mining.near" "diamond.near"
    (envAt "owner.near" 1) (tokenOwnedBy "owner.near") (claimedOnce .failed) ?_ ?_ ?_).1
  · exact ⟨⟨by decide,trivial⟩,trivial,trivial,⟨by decide,trivial⟩,trivial⟩
  · exact ⟨trivial,trivial,trivial,trivial,trivial⟩
  · exact ⟨by decide,by decide,by decide,by decide,trivial⟩

end Joint
end DiamondBot.DiamondMining
