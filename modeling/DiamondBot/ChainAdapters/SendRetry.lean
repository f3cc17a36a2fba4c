import DiamondBot.ChainAdapters.NonceManager
import Mathlib.Data.List.Infix

/-!
# Sending a transaction with retries

One call is a loop of attempts. An attempt takes a nonce from the manager,
hands a transaction to the node and waits for its receipt, and each of these
is answered later: between two answers other tasks use the manager, blocks are
mined and time passes. The text of an error decides what follows it.
-/

set_option autoImplicit false

namespace DiamondBot.SendRetry

/-! ## Errors and the decision to retry -/

inductive BlockchainError
  | rpcConnection (text : String)
  | transactionRejected (text : String)
  | lowGas (text : String)
  | invalidNonce (text : String)
  | insufficientBalance (text : String)
  | contractError (text : String)
  | timeout (text : String)
  | other (text : String)
  deriving DecidableEq

def contains (text pattern : String) : Bool :=
  pattern.toList <:+: text.toList

def BlockchainError.ofText (errorStr : String) : BlockchainError :=
  if contains errorStr "insufficient funds" then .insufficientBalance errorStr
  else if contains errorStr "gas required exceeds allowance" then .insufficientBalance errorStr
  else if contains errorStr "nonce" then .invalidNonce errorStr
  else if contains errorStr "underpriced" || contains errorStr "gas price" then .lowGas errorStr
  else if contains errorStr "execution reverted" then .contractError errorStr
  else if contains errorStr "connection" || contains errorStr "timeout" ||
    contains errorStr "rate limit" then .rpcConnection errorStr
  else .other errorStr

def isRetryable : BlockchainError → Bool
  | .rpcConnection _ => true
  | .lowGas _ => true
  | .invalidNonce _ => true
  | .timeout _ => true
  | _ => false

def adjustGasForRetry (error : BlockchainError) (currentGasPrice : ℕ) : ℕ :=
  match error with
  | .lowGas _ => currentGasPrice+currentGasPrice*20/100
  | _ => currentGasPrice

structure Retry where
  currentGasPrice : Option ℕ
  retries : ℕ
  maxRetries : ℕ
  deriving DecidableEq

def Retry.start (initialGasPrice : Option ℕ) (maxRetries : ℕ) : Retry where
  currentGasPrice := initialGasPrice
  retries := 0
  maxRetries := if maxRetries = 0 then 3 else maxRetries

/-- The loop after a failed attempt: it gives up with the error, or goes on
after a wait in milliseconds. -/
def Retry.afterError (r : Retry) (errorStr : String) : Except BlockchainError (Retry × ℕ) :=
  let blockchainError := BlockchainError.ofText errorStr
  let retries := r.retries+1
  if r.maxRetries ≤ retries ∨ isRetryable blockchainError = false then .error blockchainError
  else .ok ({ r with
    currentGasPrice := r.currentGasPrice.map (adjustGasForRetry blockchainError)
    retries },min (retries^2 % 2^64*500 % 2^64) 30000)

/-! ## Transactions and calls -/

structure TypedTransaction where
  toAddress : Option Address
  value : ℕ
  data : List (BitVec 8)
  gas : Option ℕ
  gasPrice : Option ℕ
  nonce : Option ℕ
  deriving DecidableEq

/-- The arguments of a call. -/
structure Request where
  tx : TypedTransaction
  gasLimit : Option ℕ
  gasPrice : Option ℕ
  operationName : String
  maxRetries : ℕ
  deriving DecidableEq

def sendTransactionWithRetry (tx : TypedTransaction) (gasLimit gasPrice : Option ℕ)
    (operationName : String) : Request :=
  ⟨tx,gasLimit,gasPrice,operationName,3⟩

def Request.modifiedTx (r : Request) : TypedTransaction :=
  match r.gasLimit with
  | some limit => { r.tx with gas := some limit }
  | none => r.tx

def Request.txToSend (r : Request) (defaultGasPrice : ℕ) (gasOverride : Option ℕ) (nonce : ℕ) :
    TypedTransaction :=
  { r.modifiedTx with
    nonce := some nonce
    gasPrice := some (gasOverride.getD (r.gasPrice.getD defaultGasPrice)) }

structure Receipt where
  transactionNonce : Option ℕ
  deriving DecidableEq

inductive Outcome
  | noWallet (text : String)
  | confirmed (receipt : Receipt)
  | failed (operationName : String) (error : BlockchainError)
  | panicked
  deriving DecidableEq

/-- What a call is waiting for. -/
inductive Phase
  | idle
  | asking
  | sending (tx : TypedTransaction)
  | resetting (errorStr : String)
  | waiting (tx : TypedTransaction)
  | updating (receipt : Receipt) (newNonce : ℕ)
  | sleeping (wake : ℕ)
  | returned (outcome : Outcome)
  deriving DecidableEq

structure Sender where
  nonces : NonceManager.System
  wallet : Option Address
  defaultGasPrice : ℕ
  request : Request
  retry : Retry
  phase : Phase
  broadcast : List TypedTransaction

/-- One answer to the call, or a step of the rest of the world. -/
inductive Action
  | call (request : Request)
  | nonce (failure : Option String)
  | send (rejection : Option String)
  | reset (failure : Option String)
  | receipt (answer : Except String (Option Receipt))
  | update
  | wake
  | other (a : NonceManager.Action)

namespace Sender

def walletAddress (s : Sender) : Address := s.wallet.getD 0

def needsReset (errorStr : String) : Bool :=
  contains errorStr "nonce too low" || contains errorStr "already known" ||
    contains errorStr "replacement transaction underpriced"

def attemptFailed (s : Sender) (errorStr : String) : Sender :=
  match s.retry.afterError errorStr with
  | .ok (retry,waitTime) => { s with retry, phase := .sleeping (s.nonces.now+waitTime*10^6) }
  | .error e => { s with phase := .returned (.failed s.request.operationName e) }

def begin (s : Sender) (request : Request) : Sender :=
  match s.wallet with
  | none => { s with
      request
      broadcast := []
      phase := .returned (.noWallet "Không có ví để thực hiện giao dịch") }
  | some _ => { s with
      request
      retry := Retry.start request.gasPrice request.maxRetries
      broadcast := []
      phase := .asking }

def takeNonce (s : Sender) (failure : Option String) : Sender :=
  match s.nonces.getNextNonce s.walletAddress failure with
  | (.ok nonce,nonces) => { s with
      nonces
      phase := .sending (s.request.txToSend s.defaultGasPrice s.retry.currentGasPrice nonce) }
  | (.error (.error text),nonces) => attemptFailed { s with nonces } text
  | (.error .overflow,nonces) => { s with nonces, phase := .returned .panicked }

def sent (s : Sender) (tx : TypedTransaction) : Option String → Sender
  | none => { s with broadcast := s.broadcast++[tx], phase := .waiting tx }
  | some errorStr =>
    if needsReset errorStr then { s with phase := .resetting errorStr }
    else s.attemptFailed errorStr

def resetNonce (s : Sender) (errorStr : String) (failure : Option String) : Sender :=
  attemptFailed { s with nonces := (s.nonces.resetNonce s.walletAddress failure).2 } errorStr

def received (s : Sender) : Except String (Option Receipt) → Sender
  | .error errorStr => s.attemptFailed errorStr
  | .ok none => s.attemptFailed "Không có transaction receipt"
  | .ok (some receipt) =>
    match receipt.transactionNonce with
    | none => { s with phase := .returned (.confirmed receipt) }
    | some txNonce =>
      if txNonce+1 < 2^256 then { s with phase := .updating receipt (txNonce+1) }
      else { s with phase := .returned .panicked }

def next (s : Sender) : Action → Sender
  | .call request =>
    match s.phase with
    | .idle => s.begin request
    | .returned _ => s.begin request
    | _ => s
  | .nonce failure =>
    match s.phase with
    | .asking => s.takeNonce failure
    | _ => s
  | .send rejection =>
    match s.phase with
    | .sending tx => s.sent tx rejection
    | _ => s
  | .reset failure =>
    match s.phase with
    | .resetting errorStr => s.resetNonce errorStr failure
    | _ => s
  | .receipt answer =>
    match s.phase with
    | .waiting _ => s.received answer
    | _ => s
  | .update =>
    match s.phase with
    | .updating receipt newNonce => { s with
        nonces := s.nonces.updateNonce s.walletAddress newNonce
        phase := .returned (.confirmed receipt) }
    | _ => s
  | .wake =>
    match s.phase with
    | .sleeping wake => if wake ≤ s.nonces.now then { s with phase := .asking } else s
    | _ => s
  | .other a => { s with nonces := s.nonces.next a }

/-! ## What a step can do -/

def nonceAction (s : Sender) : Action → Option NonceManager.Action
  | .nonce failure =>
    match s.phase with
    | .asking => some (.getNextNonce s.walletAddress failure)
    | _ => none
  | .reset failure =>
    match s.phase with
    | .resetting _ => some (.resetNonce s.walletAddress failure)
    | _ => none
  | .update =>
    match s.phase with
    | .updating _ newNonce => some (.updateNonce s.walletAddress newNonce)
    | _ => none
  | .other a => some a
  | _ => none

def Resting : Phase → Prop
  | .sleeping _ => True
  | .returned _ => True
  | _ => False

inductive Moves (s : Sender) : Action → Sender → Prop
  | began (request : Request) (retry : Retry) (phase : Phase)
      (free : ∀ tx, s.phase ≠ .sending tx) (opened : phase = .asking ∨ Resting phase) :
      Moves s (.call request) { s with request, retry, phase, broadcast := [] }
  | nonceTaken (failure : Option String) (n : ℕ) (nonces : NonceManager.System)
      (tx : TypedTransaction) (asking : s.phase = .asking)
      (answer : s.nonces.Asked s.walletAddress failure (.ok n) nonces)
      (carries : tx.nonce = some n) :
      Moves s (.nonce failure) { s with nonces, phase := .sending tx }
  | nonceFailed (failure : Option String) (e : Fault) (nonces : NonceManager.System)
      (retry : Retry) (phase : Phase) (asking : s.phase = .asking)
      (answer : s.nonces.Asked s.walletAddress failure (.error e) nonces)
      (resting : Resting phase) : Moves s (.nonce failure) { s with nonces, retry, phase }
  | accepted (tx : TypedTransaction) (sending : s.phase = .sending tx) :
      Moves s (.send none) { s with broadcast := s.broadcast++[tx], phase := .waiting tx }
  | rejected (tx : TypedTransaction) (errorStr : String) (sending : s.phase = .sending tx)
      (resets : needsReset errorStr = true) :
      Moves s (.send (some errorStr)) { s with phase := .resetting errorStr }
  | dropped (tx : TypedTransaction) (errorStr : String) (retry : Retry) (phase : Phase)
      (sending : s.phase = .sending tx) (keeps : needsReset errorStr = false)
      (resting : Resting phase) : Moves s (.send (some errorStr)) { s with retry, phase }
  | reset (errorStr : String) (failure : Option String) (retry : Retry) (phase : Phase)
      (resetting : s.phase = .resetting errorStr) (resting : Resting phase) :
      Moves s (.reset failure) { s with
        nonces := (s.nonces.resetNonce s.walletAddress failure).2
        retry
        phase }
  | finished (tx : TypedTransaction) (answer : Except String (Option Receipt)) (retry : Retry)
      (phase : Phase) (waiting : s.phase = .waiting tx) (resting : Resting phase) :
      Moves s (.receipt answer) { s with retry, phase }
  | received (tx : TypedTransaction) (receipt : Receipt) (n : ℕ) (waiting : s.phase = .waiting tx)
      (carries : receipt.transactionNonce = some n) :
      Moves s (.receipt (.ok (some receipt))) { s with phase := .updating receipt (n+1) }
  | updated (receipt : Receipt) (newNonce : ℕ) (updating : s.phase = .updating receipt newNonce) :
      Moves s .update { s with
        nonces := s.nonces.updateNonce s.walletAddress newNonce
        phase := .returned (.confirmed receipt) }
  | woken (wake : ℕ) (sleeping : s.phase = .sleeping wake) : Moves s .wake { s with phase := .asking }
  | other (a : NonceManager.Action) : Moves s (.other a) { s with nonces := s.nonces.next a }
  | ignored (a : Action) (unasked : ∀ tx rejection, a = .send rejection → s.phase ≠ .sending tx)
      (quiet : s.nonceAction a = none) : Moves s a s

theorem attemptFailed_eq (s : Sender) (errorStr : String) :
    ∃ retry phase, s.attemptFailed errorStr = { s with retry, phase } ∧ Resting phase := by
  unfold attemptFailed
  cases s.retry.afterError errorStr with
  | ok r => exact ⟨_,_,rfl,trivial⟩
  | error e => exact ⟨s.retry,_,rfl,trivial⟩

theorem begin_moves {s : Sender} (request : Request) (h : ∀ tx, s.phase ≠ .sending tx) :
    s.Moves (.call request) (s.begin request) := by
  unfold begin
  split
  · exact Moves.began request s.retry (.returned (.noWallet _)) h (Or.inr trivial)
  · exact Moves.began request _ .asking h (Or.inl rfl)

theorem takeNonce_moves {s : Sender} (failure : Option String) (h : s.phase = .asking) :
    s.Moves (.nonce failure) (s.takeNonce failure) := by
  have hasked := s.nonces.getNextNonce_asked s.walletAddress failure
  unfold takeNonce
  generalize s.nonces.getNextNonce s.walletAddress failure = answer at hasked ⊢
  obtain ⟨r,nonces⟩ := answer
  cases r with
  | ok n => exact Moves.nonceTaken failure n nonces _ h hasked rfl
  | error e =>
    cases e with
    | error text =>
      obtain ⟨retry,phase,heq,hresting⟩ := attemptFailed_eq { s with nonces } text
      simp only [heq]
      exact Moves.nonceFailed failure _ nonces retry phase h hasked hresting
    | overflow => exact Moves.nonceFailed failure _ nonces s.retry _ h hasked trivial

theorem sent_moves {s : Sender} {tx : TypedTransaction} (rejection : Option String)
    (h : s.phase = .sending tx) : s.Moves (.send rejection) (s.sent tx rejection) := by
  cases rejection with
  | none => exact Moves.accepted tx h
  | some errorStr =>
    cases hreset : needsReset errorStr with
    | true =>
      rw [show s.sent tx (some errorStr) = { s with phase := .resetting errorStr } from
        if_pos hreset]
      exact Moves.rejected tx errorStr h hreset
    | false =>
      obtain ⟨retry,phase,heq,hresting⟩ := attemptFailed_eq s errorStr
      rw [show s.sent tx (some errorStr) = s.attemptFailed errorStr from
        if_neg (by rw [hreset]; exact Bool.false_ne_true),heq]
      exact Moves.dropped tx errorStr retry phase h hreset hresting

theorem received_moves {s : Sender} {tx : TypedTransaction}
    (answer : Except String (Option Receipt)) (h : s.phase = .waiting tx) :
    s.Moves (.receipt answer) (s.received answer) := by
  unfold received
  cases answer with
  | error errorStr =>
    obtain ⟨retry,phase,heq,hresting⟩ := attemptFailed_eq s errorStr
    simp only [heq]
    exact Moves.finished tx _ retry phase h hresting
  | ok found =>
    cases found with
    | none =>
      obtain ⟨retry,phase,heq,hresting⟩ := attemptFailed_eq s "Không có transaction receipt"
      simp only [heq]
      exact Moves.finished tx _ retry phase h hresting
    | some receipt =>
      cases hnonce : receipt.transactionNonce with
      | none =>
        simp only [hnonce]
        exact Moves.finished tx _ s.retry _ h trivial
      | some n =>
        simp only [hnonce]
        split
        · exact Moves.received tx receipt n h hnonce
        · exact Moves.finished tx _ s.retry _ h trivial

theorem next_moves (s : Sender) (a : Action) : s.Moves a (s.next a) := by
  cases a with
  | call request =>
    simp only [next]
    split
    · rename_i h
      exact begin_moves request fun tx htx => nomatch h.symm.trans htx
    · rename_i h
      exact begin_moves request fun tx htx => nomatch h.symm.trans htx
    · exact Moves.ignored _ (fun _ _ h => nomatch h) rfl
  | nonce failure =>
    simp only [next]
    split
    · rename_i h
      exact takeNonce_moves failure h
    · rename_i hother
      refine Moves.ignored _ (fun _ _ h => nomatch h) ?_
      simp only [nonceAction]
  | send rejection =>
    simp only [next]
    split
    · rename_i tx h
      exact sent_moves rejection h
    · rename_i hother
      exact Moves.ignored _ (fun tx _ _ => hother tx) rfl
  | reset failure =>
    simp only [next]
    split
    · rename_i errorStr h
      obtain ⟨retry,phase,heq,hresting⟩ := attemptFailed_eq
        { s with nonces := (s.nonces.resetNonce s.walletAddress failure).2 } errorStr
      simp only [resetNonce,heq]
      exact Moves.reset errorStr failure retry phase h hresting
    · rename_i hother
      refine Moves.ignored _ (fun _ _ h => nomatch h) ?_
      simp only [nonceAction]
  | receipt answer =>
    simp only [next]
    split
    · rename_i tx h
      exact received_moves answer h
    · exact Moves.ignored _ (fun _ _ h => nomatch h) rfl
  | update =>
    simp only [next]
    split
    · rename_i receipt newNonce h
      exact Moves.updated receipt newNonce h
    · rename_i hother
      refine Moves.ignored _ (fun _ _ h => nomatch h) ?_
      simp only [nonceAction]
  | wake =>
    simp only [next]
    split
    · rename_i wake h
      split
      · exact Moves.woken wake h
      · exact Moves.ignored _ (fun _ _ h => nomatch h) rfl
    · exact Moves.ignored _ (fun _ _ h => nomatch h) rfl
  | other a => exact Moves.other a

theorem attemptFailed_nonces (s : Sender) (errorStr : String) :
    (s.attemptFailed errorStr).nonces = s.nonces := by
  obtain ⟨retry,phase,heq,_⟩ := attemptFailed_eq s errorStr
  rw [heq]

theorem takeNonce_nonces (s : Sender) (failure : Option String) :
    (s.takeNonce failure).nonces = (s.nonces.getNextNonce s.walletAddress failure).2 := by
  unfold takeNonce
  generalize s.nonces.getNextNonce s.walletAddress failure = answer
  obtain ⟨r,nonces⟩ := answer
  cases r with
  | ok n => rfl
  | error e =>
    cases e with
    | error text => exact attemptFailed_nonces { s with nonces } text
    | overflow => rfl

/-- Seen from the manager, a step of a call is a step of one more task. -/
theorem next_nonces (s : Sender) (a : Action) :
    (s.next a).nonces = (s.nonceAction a).elim s.nonces s.nonces.next := by
  have hmoves := next_moves s a
  generalize hs' : s.next a = s' at hmoves
  cases hmoves with
  | nonceTaken failure n nonces tx asking answer carries =>
    rw [← hs']
    simp only [next,nonceAction,asking]
    exact takeNonce_nonces s failure
  | nonceFailed failure e nonces retry phase asking answer resting =>
    rw [← hs']
    simp only [next,nonceAction,asking]
    exact takeNonce_nonces s failure
  | reset errorStr failure retry phase resetting resting =>
    simp only [nonceAction,resetting]
    rfl
  | updated receipt newNonce updating =>
    simp only [nonceAction,updating]
    rfl
  | ignored a unasked quiet =>
    rw [quiet]
    rfl
  | _ => rfl

end Sender

def transfer : TypedTransaction where
  toAddress := some 0xB0B
  value := 1
  data := []
  gas := none
  gasPrice := none
  nonce := none

def transferRequest : Request :=
  sendTransactionWithRetry transfer (some 21000) (some 1000000000) "transfer"

end DiamondBot.SendRetry
