import DiamondBot.Library.Retry
import Mathlib.Algebra.Order.Ring.Nat
import Mathlib.Data.List.Range

/-!
# One request to snipe

The service runs `snipe` again after an error, and `snipe` runs its swap again
after an error. A swap can fail after the node has taken its transaction: the
call that waits for the receipt fails, and the transaction is mined all the same.
What the node answers is open. The floating point numbers of the request only
decide the contents of a transaction and whether the request is valid.
-/

set_option autoImplicit false

namespace DiamondBot.SnipeBot

open Library

structure SnipeRequest (F : Type) where
  tokenAddress : String
  amount : String
  gasLimit : ℕ
  gasPrice : ℕ
  slippage : F

structure SnipeResponse where
  transactionHash : String
  success : Bool
  error : String
  deriving DecidableEq

inductive Status
  | invalidArgument (message : String)
  | internal (message : String)
  deriving DecidableEq

structure TransactionReceipt where
  transactionHash : String
  deriving DecidableEq

structure SnipeResult where
  transactionHash : Option String
  success : Bool
  error : Option String
  deriving DecidableEq

/-- How `snipe` ends without a result. -/
inductive SnipeFault
  | error (text : String)
  | panic
  deriving DecidableEq

/-- What becomes of one swap. Only of the last four has a transaction been broadcast. -/
inductive SwapOutcome
  | notSent (error : String)
  | mined (receipt : TransactionReceipt)
  | receiptLost
  | minedLater
  | neverMined
  deriving DecidableEq

def SwapOutcome.isMined : SwapOutcome → Bool
  | .mined _ => true
  | .receiptLost => true
  | .minedLater => true
  | .notSent _ => false
  | .neverMined => false

def SwapOutcome.confirmed : SwapOutcome → Bool
  | .mined _ => true
  | _ => false

structure SwapTx where
  nonce : ℕ
  tokenAddress : String
  amountIn : ℕ
  deadline : ℕ
  mined : Bool
  deriving DecidableEq

/-- How often `snipe` and the swap have been called for the request, the nonce that the
node has next, and the swaps broadcast. -/
structure Purchases where
  snipes : ℕ
  swaps : ℕ
  nextNonce : ℕ
  broadcast : List SwapTx
  deriving DecidableEq

structure SnipeReads where
  amountsOut : Except String (List ℕ)
  now : Except String ℕ

/-- The service, what it reads in each call of `snipe`, and what becomes of each swap.
`retry_blockchain_tx` runs a swap at most `retries` more times. -/
structure SnipeService (F : Type) where
  slippageOutOfRange : F → Bool
  parseEther : String → Except String ℕ
  retries : ℕ
  reads : ℕ → SnipeReads
  outcomes : ℕ → SwapOutcome

def maxRetries : ℕ := 3

def Purchases.start (nextNonce : ℕ) : Purchases := ⟨0,0,nextNonce,[]⟩

def Purchases.send (s : Purchases) (tokenAddress : String) (amountIn deadline : ℕ)
    (mined : Bool) : Purchases :=
  { s with
    nextNonce := s.nextNonce+1
    broadcast := s.broadcast++[⟨s.nextNonce,tokenAddress,amountIn,deadline,mined⟩] }

namespace SnipeService

variable {F : Type} (g : SnipeService F)

def validateSnipeRequest (req : SnipeRequest F) : Except Status Unit :=
  if req.tokenAddress = "" then
    .error (.invalidArgument "Token address không được để trống")
  else if req.amount = "" then
    .error (.invalidArgument "Số lượng token không được để trống")
  else if req.gasLimit = 0 then .error (.invalidArgument "Gas limit phải lớn hơn 0")
  else if req.gasPrice = 0 then .error (.invalidArgument "Gas price phải lớn hơn 0")
  else if g.slippageOutOfRange req.slippage then
    .error (.invalidArgument "Slippage phải nằm trong khoảng 0-100")
  else .ok ()

def swapExactEthForTokens (tokenAddress : String) (amountIn deadline : ℕ) (s : Purchases) :
    Except String (Option TransactionReceipt) × Purchases :=
  let called := { s with swaps := s.swaps+1 }
  let sent := called.send tokenAddress amountIn deadline (g.outcomes s.swaps).isMined
  match g.outcomes s.swaps with
  | .notSent error => (.error error,called)
  | .mined receipt => (.ok (some receipt),sent)
  | .receiptLost => (.error "Lỗi khi lấy biên lai giao dịch",sent)
  | .minedLater => (.error "Lỗi khi lấy biên lai giao dịch",sent)
  | .neverMined => (.error "Lỗi khi lấy biên lai giao dịch",sent)

/-- The closure that `snipe` hands to `retry_blockchain_tx`. -/
def swapOnce (tokenAddress : String) (amountIn deadline : ℕ) (s : Purchases) :
    Except String TransactionReceipt × Purchases :=
  match g.swapExactEthForTokens tokenAddress amountIn deadline s with
  | (.error e,s) => (.error e,s)
  | (.ok (some r),s) => (.ok r,s)
  | (.ok none,s) => (.error "Không nhận được transaction receipt",s)

def retryBlockchainTx (operation : Purchases → Except String TransactionReceipt × Purchases)
    (s : Purchases) : Except String TransactionReceipt × Purchases :=
  Retry.attempts operation (fun _ => true) g.retries s

/-- The deadline, when the amount that comes out can be estimated and fits into the 128
bits that `as_u128` has. -/
def prepare (reads : SnipeReads) (timeout : ℕ) : Except SnipeFault ℕ :=
  match reads.amountsOut with
  | .error e => .error (.error e)
  | .ok amounts =>
    match amounts.getLast? with
    | none => .error (.error "Không thể ước tính amount_out")
    | some amountOut =>
      if 2^128 ≤ amountOut then .error .panic
      else
        match reads.now with
        | .error e => .error (.error e)
        | .ok now => .ok (now+timeout)

def snipe (tokenAddress : String) (amountIn timeout : ℕ) (s : Purchases) :
    Except SnipeFault SnipeResult × Purchases :=
  let called := { s with snipes := s.snipes+1 }
  match prepare (g.reads s.snipes) timeout with
  | .error fault => (.error fault,called)
  | .ok deadline =>
    match g.retryBlockchainTx (g.swapOnce tokenAddress amountIn deadline) called with
    | (.ok receipt,s) => (.ok ⟨some receipt.transactionHash,true,none⟩,s)
    | (.error e,s) => (.error (.error e),s)

def isError : SnipeFault → Bool
  | .error _ => true
  | .panic => false

def parseAmount (amount : String) : Except String ℕ :=
  (Retry.attempts (fun _ : Unit => (g.parseEther amount,())) (fun _ => true)
    (maxRetries-1) ()).1

/-- `none` when the handler panics. -/
def executeSnipe (req : SnipeRequest F) (s : Purchases) :
    Option (Except Status SnipeResponse) × Purchases :=
  match g.validateSnipeRequest req with
  | .error status => (some (.error status),s)
  | .ok () =>
    match g.parseAmount req.amount with
    | .error e => (some (.error (.invalidArgument s!"Số lượng token không hợp lệ: {e}")),s)
    | .ok amount =>
      match Retry.attempts (g.snipe req.tokenAddress amount 60) isError (maxRetries-1) s with
      | (.ok result,s) =>
        (some (.ok ⟨result.transactionHash.getD "",result.success,result.error.getD ""⟩),s)
      | (.error (.error e),s) =>
        (some (.error (.internal s!"Lỗi khi thực hiện snipe: {e}")),s)
      | (.error .panic,s) => (none,s)

/-! ## The swaps called -/

def swapBudget : ℕ → ℕ → ℕ
  | 0,_ => 0
  | rounds+1,snipes =>
    match prepare (g.reads snipes) 60 with
    | .ok _ => g.retries+1+swapBudget rounds (snipes+1)
    | .error (.error _) => swapBudget rounds (snipes+1)
    | .error .panic => 0

def swapsAllowed (req : SnipeRequest F) : ℕ :=
  match g.validateSnipeRequest req,g.parseEther req.amount with
  | .ok (),.ok _ => g.swapBudget maxRetries 0
  | _,_ => 0

def Unconfirmed (s : Purchases) : Prop :=
  ∀ k < s.swaps, (g.outcomes k).confirmed = false

/-- The swaps called are the ones up to the first that returned a receipt, and at most
`b`. -/
def CalledUpTo (b : ℕ) (s : Purchases) : Prop :=
  ∀ j, j < s.swaps ↔ j < b ∧ ∀ k < j, (g.outcomes k).confirmed = false

/-- The last swap called, one of the first `b`, is the only one to return a receipt. -/
def Bought (b : ℕ) (s : Purchases) : Prop :=
  ∃ last, s.swaps = last+1 ∧ last < b ∧ (g.outcomes last).confirmed = true ∧
    ∀ k < last, (g.outcomes k).confirmed = false

variable {g}

theorem calledUpTo_of_unconfirmed {s : Purchases} (h : g.Unconfirmed s) :
    g.CalledUpTo s.swaps s := by
  intro j
  constructor
  · intro hj
    exact ⟨hj,fun k hk => h k (by omega)⟩
  · intro hj
    exact hj.1

theorem calledUpTo_of_bought {b c : ℕ} {s : Purchases} (h : g.Bought b s) (hle : b ≤ c) :
    g.CalledUpTo c s := by
  obtain ⟨last,hswaps,hlast,hconfirmed,hbefore⟩ := h
  intro j
  constructor
  · intro hj
    exact ⟨by omega,fun k hk => hbefore k (by omega)⟩
  · intro hj
    by_contra hover
    have hfailed := hj.2 last (by omega)
    simp [hconfirmed] at hfailed

theorem swapOnce_ok {tokenAddress : String} {amountIn deadline : ℕ} {s s' : Purchases}
    {receipt : TransactionReceipt}
    (h : g.swapOnce tokenAddress amountIn deadline s = (.ok receipt,s')) :
    s'.swaps = s.swaps+1 ∧ (g.outcomes s.swaps).confirmed = true := by
  unfold swapOnce swapExactEthForTokens at h
  cases houtcome : g.outcomes s.swaps with
  | mined receipt =>
    simp only [houtcome,Prod.mk.injEq] at h
    obtain ⟨_,rfl⟩ := h
    exact ⟨rfl,rfl⟩
  | _ => simp [houtcome] at h

theorem swapOnce_error {tokenAddress : String} {amountIn deadline : ℕ} {s s' : Purchases}
    {e : String} (h : g.swapOnce tokenAddress amountIn deadline s = (.error e,s')) :
    s'.swaps = s.swaps+1 ∧ s'.snipes = s.snipes ∧
      (g.outcomes s.swaps).confirmed = false := by
  unfold swapOnce swapExactEthForTokens at h
  cases houtcome : g.outcomes s.swaps with
  | mined receipt => simp [houtcome] at h
  | _ =>
    simp only [houtcome,Prod.mk.injEq] at h
    obtain ⟨_,rfl⟩ := h
    exact ⟨rfl,rfl,rfl⟩

def SwapEnd (g : SnipeService F) (b snipes : ℕ) : Except String TransactionReceipt → Purchases → Prop
  | .ok _,s => g.Bought b s
  | .error _,s => s.snipes = snipes ∧ s.swaps = b ∧ g.Unconfirmed s

theorem unconfirmed_succ {s s' : Purchases} (h : g.Unconfirmed s)
    (hswaps : s'.swaps = s.swaps+1) (hfailed : (g.outcomes s.swaps).confirmed = false) :
    g.Unconfirmed s' := by
  intro k hk
  by_cases hlast : k = s.swaps
  · rwa [hlast]
  · exact h k (by omega)

theorem retryBlockchainTx_end (tokenAddress : String) (amountIn deadline : ℕ)
    (s : Purchases) (h : g.Unconfirmed s) :
    g.SwapEnd (s.swaps+g.retries+1) s.snipes
      (g.retryBlockchainTx (g.swapOnce tokenAddress amountIn deadline) s).1
      (g.retryBlockchainTx (g.swapOnce tokenAddress amountIn deadline) s).2 := by
  apply Retry.attempts_rule (I := fun n t =>
    t.snipes = s.snipes ∧ t.swaps+n+1 = s.swaps+g.retries+1 ∧ g.Unconfirmed t)
  · intro n t receipt t' ht hop
    obtain ⟨hswaps,hconfirmed⟩ := swapOnce_ok hop
    exact ⟨t.swaps,hswaps,by omega,hconfirmed,ht.2.2⟩
  · intro n t e t' ht hop hn
    obtain ⟨hswaps,hsnipes,hfailed⟩ := swapOnce_error hop
    have hlast := hn rfl
    exact ⟨hsnipes.trans ht.1,by omega,unconfirmed_succ ht.2.2 hswaps hfailed⟩
  · intro n t e t' ht hop _
    obtain ⟨hswaps,hsnipes,hfailed⟩ := swapOnce_error hop
    exact ⟨hsnipes.trans ht.1,by omega,unconfirmed_succ ht.2.2 hswaps hfailed⟩
  · exact ⟨rfl,rfl,h⟩

/-- How a call of `snipe` ends when no swap has returned a receipt yet. -/
def SnipeEnd (g : SnipeService F) (s : Purchases) : Except SnipeFault SnipeResult → Purchases → Prop
  | .ok _,s' => (∃ deadline, prepare (g.reads s.snipes) 60 = .ok deadline) ∧
      g.Bought (s.swaps+g.retries+1) s'
  | .error fault,s' => s'.snipes = s.snipes+1 ∧ g.Unconfirmed s' ∧
      ((prepare (g.reads s.snipes) 60 = .error fault ∧ s'.swaps = s.swaps) ∨
        (isError fault = true ∧ (∃ deadline, prepare (g.reads s.snipes) 60 = .ok deadline) ∧
          s'.swaps = s.swaps+g.retries+1))

theorem snipe_end (tokenAddress : String) (amountIn : ℕ) (s : Purchases)
    (h : g.Unconfirmed s) :
    g.SnipeEnd s (g.snipe tokenAddress amountIn 60 s).1
      (g.snipe tokenAddress amountIn 60 s).2 := by
  unfold snipe
  cases hprepare : prepare (g.reads s.snipes) 60 with
  | error fault => exact ⟨rfl,h,Or.inl ⟨hprepare,rfl⟩⟩
  | ok deadline =>
    have hend := retryBlockchainTx_end tokenAddress amountIn deadline
      { s with snipes := s.snipes+1 } h
    rcases hretry : g.retryBlockchainTx (g.swapOnce tokenAddress amountIn deadline)
      { s with snipes := s.snipes+1 } with ⟨e | receipt,s'⟩
    · rw [hretry] at hend
      obtain ⟨hsnipes,hswaps,hfailed⟩ := hend
      simp only [hretry]
      exact ⟨hsnipes,hfailed,Or.inr ⟨rfl,⟨deadline,hprepare⟩,hswaps⟩⟩
    · rw [hretry] at hend
      simp only [hretry]
      exact ⟨⟨deadline,hprepare⟩,hend⟩

theorem swapBudget_ready {snipes deadline : ℕ}
    (h : prepare (g.reads snipes) 60 = .ok deadline) (rounds : ℕ) :
    g.swapBudget (rounds+1) snipes = g.retries+1+g.swapBudget rounds (snipes+1) := by
  simp only [swapBudget,h]

theorem snipe_error_budget {tokenAddress : String} {amountIn : ℕ} {s s' : Purchases}
    {fault : SnipeFault} (h : g.Unconfirmed s)
    (hsnipe : g.snipe tokenAddress amountIn 60 s = (.error fault,s')) (rounds : ℕ) :
    g.Unconfirmed s' ∧ s.swaps+g.swapBudget (rounds+1) s.snipes =
      s'.swaps+if isError fault then g.swapBudget rounds s'.snipes else 0 := by
  have hend := snipe_end tokenAddress amountIn s h
  rw [hsnipe] at hend
  obtain ⟨hsnipes,hfailed,hcause⟩ := hend
  change s'.snipes = s.snipes+1 at hsnipes
  refine ⟨hfailed,?_⟩
  rcases hcause with ⟨hfault,hswaps⟩ | ⟨herror,⟨deadline,hready⟩,hswaps⟩
  · change s'.swaps = s.swaps at hswaps
    cases fault with
    | error e => simp [swapBudget,hfault,isError,hsnipes,hswaps]
    | panic => simp [swapBudget,hfault,isError,hswaps]
  · change s'.swaps = s.swaps+g.retries+1 at hswaps
    rw [if_pos herror,swapBudget_ready hready,hsnipes,hswaps]
    omega

theorem snipes_calledUpTo (tokenAddress : String) (amountIn n : ℕ) (s : Purchases)
    (h : g.Unconfirmed s) :
    g.CalledUpTo (s.swaps+g.swapBudget (n+1) s.snipes)
      (Retry.attempts (g.snipe tokenAddress amountIn 60) isError n s).2 := by
  apply Retry.attempts_rule (P := fun _ => g.CalledUpTo _)
    (I := fun m t => g.Unconfirmed t ∧
      t.swaps+g.swapBudget (m+1) t.snipes = s.swaps+g.swapBudget (n+1) s.snipes)
  · intro m t result t' ht hop
    have hend := snipe_end tokenAddress amountIn t ht.1
    rw [hop] at hend
    obtain ⟨⟨deadline,hready⟩,hbought⟩ := hend
    have hbudget := swapBudget_ready hready m
    exact calledUpTo_of_bought hbought (by omega)
  · intro m t fault t' ht hop hm
    obtain ⟨hfailed,hbudget⟩ := snipe_error_budget ht.1 hop m
    have hnone : (if isError fault then g.swapBudget m t'.snipes else 0) = 0 := by
      by_cases herror : isError fault = true
      · rw [if_pos herror,hm herror]
        rfl
      · exact if_neg herror
    have hused : s.swaps+g.swapBudget (n+1) s.snipes = t'.swaps := by omega
    rw [hused]
    exact calledUpTo_of_unconfirmed hfailed
  · intro m t fault t' ht hop herror
    obtain ⟨hfailed,hbudget⟩ := snipe_error_budget ht.1 hop (m+1)
    rw [if_pos herror] at hbudget
    exact ⟨hfailed,hbudget.symm.trans ht.2⟩
  · exact ⟨h,rfl⟩

theorem parseAmount_eq (amount : String) : g.parseAmount amount = g.parseEther amount := by
  unfold parseAmount
  rw [Retry.attempts_fixed rfl]

theorem executeSnipe_run {req : SnipeRequest F} {amount : ℕ}
    (hvalid : g.validateSnipeRequest req = .ok ()) (hparse : g.parseEther req.amount = .ok amount)
    (s : Purchases) : (g.executeSnipe req s).2 =
      (Retry.attempts (g.snipe req.tokenAddress amount 60) isError (maxRetries-1) s).2 := by
  unfold executeSnipe
  rw [parseAmount_eq,hvalid,hparse]
  rcases hrun : Retry.attempts (g.snipe req.tokenAddress amount 60) isError (maxRetries-1) s
    with ⟨(_ | _) | _,_⟩
  all_goals simp only [hrun]

theorem executeSnipe_refused {req : SnipeRequest F}
    (h : ∀ amount, g.validateSnipeRequest req = .ok () →
      g.parseEther req.amount ≠ .ok amount) (s : Purchases) :
    (g.executeSnipe req s).2 = s ∧ g.swapsAllowed req = 0 := by
  unfold executeSnipe swapsAllowed
  rw [parseAmount_eq]
  cases hvalid : g.validateSnipeRequest req with
  | error status => exact ⟨rfl,rfl⟩
  | ok _ =>
    cases hparse : g.parseEther req.amount with
    | error e => exact ⟨rfl,rfl⟩
    | ok amount => exact absurd hparse (h amount hvalid)

/-- A request calls a swap if and only if the swap is one of those allowed and every swap
before it failed. -/
theorem executeSnipe_calledUpTo (req : SnipeRequest F) (nextNonce : ℕ) :
    g.CalledUpTo (g.swapsAllowed req) (g.executeSnipe req (Purchases.start nextNonce)).2 := by
  have hstart : g.Unconfirmed (Purchases.start nextNonce) :=
    fun k hk => absurd hk (Nat.not_lt_zero k)
  by_cases hrun : ∃ amount, g.validateSnipeRequest req = .ok () ∧
      g.parseEther req.amount = .ok amount
  · obtain ⟨amount,hvalid,hparse⟩ := hrun
    have hcalled := snipes_calledUpTo req.tokenAddress amount (maxRetries-1)
      (Purchases.start nextNonce) hstart
    have hallowed : g.swapsAllowed req = 0+g.swapBudget maxRetries 0 := by
      simp only [swapsAllowed,hvalid,hparse,Nat.zero_add]
    rw [executeSnipe_run hvalid hparse,hallowed]
    exact hcalled
  · have hrefused : ∀ amount, g.validateSnipeRequest req = .ok () →
        g.parseEther req.amount ≠ .ok amount :=
      fun amount hvalid hparse => hrun ⟨amount,hvalid,hparse⟩
    obtain ⟨hstate,hallowed⟩ := executeSnipe_refused hrefused (Purchases.start nextNonce)
    rw [hstate,hallowed]
    exact calledUpTo_of_unconfirmed hstart

/-! ## The swaps mined -/

theorem executeSnipe_preserves {J : Purchases → Prop}
    (hswap : ∀ tokenAddress amountIn deadline s, J s →
      J (g.swapExactEthForTokens tokenAddress amountIn deadline s).2)
    (hsnipes : ∀ s snipes, J s → J { s with snipes := snipes })
    (req : SnipeRequest F) {s : Purchases} (h : J s) : J (g.executeSnipe req s).2 := by
  have honce : ∀ tokenAddress amountIn deadline s, J s →
      J (g.swapOnce tokenAddress amountIn deadline s).2 := by
    intro tokenAddress amountIn deadline s hs
    have hkept := hswap tokenAddress amountIn deadline s hs
    unfold swapOnce
    rcases hcall : g.swapExactEthForTokens tokenAddress amountIn deadline s
      with ⟨_ | _ | _,s'⟩
    all_goals
      rw [hcall] at hkept
      exact hkept
  have hsnipe : ∀ tokenAddress amountIn s, J s →
      J (g.snipe tokenAddress amountIn 60 s).2 := by
    intro tokenAddress amountIn s hs
    have hcalled := hsnipes s (s.snipes+1) hs
    unfold snipe
    cases prepare (g.reads s.snipes) 60 with
    | error fault => exact hcalled
    | ok deadline =>
      have hkept : J (g.retryBlockchainTx (g.swapOnce tokenAddress amountIn deadline)
          { s with snipes := s.snipes+1 }).2 :=
        Retry.attempts_preserves (honce tokenAddress amountIn deadline) g.retries hcalled
      rcases hretry : g.retryBlockchainTx (g.swapOnce tokenAddress amountIn deadline)
        { s with snipes := s.snipes+1 } with ⟨_ | _,s'⟩
      all_goals
        rw [hretry] at hkept
        simp only [hretry]
        exact hkept
  by_cases hrun : ∃ amount, g.validateSnipeRequest req = .ok () ∧
      g.parseEther req.amount = .ok amount
  · obtain ⟨amount,hvalid,hparse⟩ := hrun
    rw [executeSnipe_run hvalid hparse]
    exact Retry.attempts_preserves (hsnipe req.tokenAddress amount) (maxRetries-1) h
  · rw [(executeSnipe_refused
      (fun amount hvalid hparse => hrun ⟨amount,hvalid,hparse⟩) s).1]
    exact h

theorem broadcast_nonces (req : SnipeRequest F) (nextNonce : ℕ) :
    let s := (g.executeSnipe req (Purchases.start nextNonce)).2
    s.broadcast.map SwapTx.nonce = List.range' nextNonce s.broadcast.length := by
  have hkept := executeSnipe_preserves (g := g) (J := fun s =>
    s.broadcast.map SwapTx.nonce = List.range' nextNonce s.broadcast.length ∧
      s.nextNonce = nextNonce+s.broadcast.length) ?_ ?_ req
    (s := Purchases.start nextNonce) ⟨rfl,rfl⟩
  · exact hkept.1
  · intro tokenAddress amountIn deadline s hs
    unfold swapExactEthForTokens
    cases g.outcomes s.swaps with
    | notSent e => exact hs
    | _ =>
      refine ⟨?_,?_⟩
      · simp [Purchases.send,hs.1,hs.2,List.range'_1_concat]
      · simp [Purchases.send,hs.2]
        omega
  · exact fun _ _ hs => hs

def Booked (g : SnipeService F) (s : Purchases) : Prop :=
  (s.broadcast.filter SwapTx.mined).length =
    ((List.range s.swaps).filter fun k => (g.outcomes k).isMined).length

theorem swap_booked (tokenAddress : String) (amountIn deadline : ℕ) (s : Purchases)
    (h : g.Booked s) :
    g.Booked (g.swapExactEthForTokens tokenAddress amountIn deadline s).2 := by
  unfold Booked at h
  unfold swapExactEthForTokens Booked
  cases houtcome : g.outcomes s.swaps with
  | notSent e => simp [List.range_succ,houtcome,SwapOutcome.isMined,h]
  | _ => simp [Purchases.send,List.range_succ,houtcome,SwapOutcome.isMined,h]

theorem filter_range_le_one_iff (p : ℕ → Bool) (n : ℕ) :
    ((List.range n).filter p).length ≤ 1 ↔
      ∀ i j, i < j → j < n → p i = true → p j = false := by
  induction n with
  | zero => simp
  | succ n ih =>
    rw [List.range_succ,List.filter_append,List.length_append]
    cases hlast : p n with
    | false =>
      have hsingle : ([n].filter p).length = 0 := by simp [hlast]
      rw [hsingle,Nat.add_zero,ih]
      constructor
      · intro h i j hij hj hi
        by_cases hn : j = n
        · rwa [hn]
        · exact h i j hij (by omega) hi
      · intro h i j hij hj hi
        exact h i j hij (by omega) hi
    | true =>
      have hsingle : ([n].filter p).length = 1 := by simp [hlast]
      rw [hsingle]
      constructor
      · intro h
        have hnone : (List.range n).filter p = [] := List.length_eq_zero_iff.mp (by omega)
        intro i j hij hj hi
        have hmem : i ∈ (List.range n).filter p :=
          List.mem_filter.mpr ⟨List.mem_range.mpr (by omega),hi⟩
        rw [hnone] at hmem
        exact absurd hmem List.not_mem_nil
      · intro h
        have hnone : (List.range n).filter p = [] := by
          apply List.filter_eq_nil_iff.mpr
          intro i hmem hi
          have hfalse := h i n (List.mem_range.mp hmem) (by omega) hi
          rw [hlast] at hfalse
          exact Bool.noConfusion hfalse
        rw [hnone]
        exact le_refl 1

/-- At most one swap broadcast for a request is ever mined if and only if, among the swaps
it can call, no mined one is followed by another mined one while every swap before that
one failed. -/
theorem mined_at_most_once_iff (g : SnipeService F) (req : SnipeRequest F)
    (nextNonce : ℕ) :
    ((g.executeSnipe req (Purchases.start nextNonce)).2.broadcast.filter
        SwapTx.mined).length ≤ 1 ↔
      ∀ i j, i < j → j < g.swapsAllowed req →
        (∀ k < j, (g.outcomes k).confirmed = false) →
        (g.outcomes i).isMined = true → (g.outcomes j).isMined = false := by
  have hbooked := executeSnipe_preserves (J := g.Booked)
    swap_booked (fun _ _ hs => hs) req (s := Purchases.start nextNonce) rfl
  have hcalled := executeSnipe_calledUpTo (g := g) req nextNonce
  unfold Booked at hbooked
  rw [hbooked,filter_range_le_one_iff]
  constructor
  · intro h i j hij hj hfailed
    exact h i j hij ((hcalled j).mpr ⟨hj,hfailed⟩)
  · intro h i j hij hj
    exact h i j hij ((hcalled j).mp hj).1 ((hcalled j).mp hj).2

/-- The receipt of the first swap is lost, so the swap is made again, and both are mined. -/
theorem bought_twice :
    let g : SnipeService ℕ := {
      slippageOutOfRange := fun percent => percent = 0 || percent > 100
      parseEther := fun text => if text = "1" then .ok (10^18) else .error "Invalid input"
      retries := 2
      reads := fun _ => ⟨.ok [10^18,5000],.ok 1700000000⟩
      outcomes := fun k => if k = 0 then .receiptLost else .mined ⟨"0xab"⟩ }
    let req : SnipeRequest ℕ := ⟨"0xB0B","1",300000,5,2⟩
    let s := (g.executeSnipe req (Purchases.start 7)).2
    s.broadcast.map (fun tx => (tx.nonce,tx.mined)) = [(7,true),(8,true)] ∧
      ¬(s.broadcast.filter SwapTx.mined).length ≤ 1 := by
  decide

end SnipeService

end DiamondBot.SnipeBot
