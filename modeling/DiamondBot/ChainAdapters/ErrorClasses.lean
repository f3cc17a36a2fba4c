import DiamondBot.Library.DecimalText
import DiamondBot.Library.Substring

/-!
# Two readings of an error text

An error that arrives with a text only is classified by the words it contains.
Two functions do so, each by its own list of words in its own order, the first
that is found deciding. Transaction hashes are parsed by a parameter.
-/

set_option autoImplicit false

namespace DiamondBot.ErrorClasses
open Library Substring

variable {H256 : Type}

inductive ChainError (H256 : Type) where
  | connectionError (text : String)
  | timeoutError (ms : ℕ)
  | rateLimitExceeded (text : String)
  | transactionError (text : String)
  | gasEstimationError (text : String)
  | nonceError (text : String)
  | invalidChainId (id : ℕ)
  | unsupportedOperation (text : String)
  | contractCallError (text : String)
  | tokenError (text : String)
  | abiDecodeError (text : String)
  | circuitBreakerTriggered (text : String)
  | providerNotAvailable
  | walletNotConfigured
  | userCancelled
  | unsupportedChain (id : ℕ)
  | invalidAddress (text : String)
  | contractError (text : String)
  | approvalError (text : String)
  | insufficientBalance (text : String)
  | invalidSignature (text : String)
  | blockNotFound (text : String)
  | receiptNotFound (hash : H256)
  | insufficientGas (text : String)
  | revert (text : String)
  | underpriced
  | gasCap
  | transactionNotFound (text : String)
  | contractNotFound (text : String)
  | maxRetryReached (text : String)
  | unknown (text : String)

/-- An error of the library is one of these already, or has a text only. -/
inductive AnyhowError (H256 : Type) where
  | chain (e : ChainError H256)
  | text (m : String)

namespace ChainError

def isGasRelated : ChainError H256 → Bool
  | .gasEstimationError _ => true
  | .insufficientGas _ => true
  | .underpriced => true
  | .gasCap => true
  | _ => false

def isRetryable : ChainError H256 → Bool
  | .connectionError _ => true
  | .timeoutError _ => true
  | .rateLimitExceeded _ => true
  | .providerNotAvailable => true
  | .underpriced => true
  | _ => false

def extractChainId (errString : String) : Option ℕ :=
  match (secondPiece errString "chain id ").or
      ((secondPiece errString "chain: ").or (secondPiece errString "chainId: ")) with
  | some idStr =>
    match DecimalText.parseUnsigned 64 (idStr.takeWhile Char.isDigit) with
    | .ok id => some id
    | .error _ => none
  | none => none

def ofUnsupported (errString : String) : ChainError H256 :=
  match extractChainId errString with
  | some id => .unsupportedChain id
  | none => .unsupportedOperation errString

def ofReceipt (parseHash : List Char → Option H256) (errString : String) : ChainError H256 :=
  match (secondPiece errString "receipt not found for ").bind parseHash with
  | some hash => .receiptNotFound hash
  | none => .transactionError errString

def ofText (parseHash : List Char → Option H256) (errString : String) : ChainError H256 :=
  if contains errString "could not connect to server" || contains errString "connection error" then
    .connectionError errString
  else if contains errString "rate limit" then .rateLimitExceeded errString
  else if contains errString "nonce too low" || contains errString "nonce" then
    .nonceError errString
  else if contains errString "gas required exceeds" || contains errString "gas price" then
    .gasEstimationError errString
  else if contains errString "timeout" then .timeoutError 30000
  else if contains errString "transaction" then .transactionError errString
  else if contains errString "contract call" || contains errString "execution reverted" then
    .contractCallError errString
  else if contains errString "token" then .tokenError errString
  else if contains errString "decode" || contains errString "encode" then .abiDecodeError errString
  else if contains errString "unsupported chain" then ofUnsupported errString
  else if contains errString "invalid address" then .invalidAddress errString
  else if contains errString "insufficient funds" || contains errString "insufficient balance" then
    .insufficientBalance errString
  else if contains errString "approval" then .approvalError errString
  else if contains errString "signature" then .invalidSignature errString
  else if contains errString "block not found" then .blockNotFound errString
  else if contains errString "receipt not found" then ofReceipt parseHash errString
  else if contains errString "reverted" then .revert errString
  else if contains errString "underpriced" then .underpriced
  else if contains errString "gas required exceeds" then .insufficientGas errString
  else if contains errString "gas cap" then .gasCap
  else if contains errString "max retry" then .maxRetryReached errString
  else if contains errString "rpc" then .connectionError errString
  else .unknown errString

def fromAnyhow (parseHash : List Char → Option H256) : AnyhowError H256 → ChainError H256
  | .chain e => e
  | .text errString => ofText parseHash errString

end ChainError

def parseErrorMessage (errorMessage : String) : ChainError H256 :=
  if contains errorMessage "insufficient funds" ||
      contains errorMessage "gas required exceeds allowance" then .insufficientGas errorMessage
  else if contains errorMessage "nonce too low" || contains errorMessage "nonce too high" then
    .nonceError errorMessage
  else if contains errorMessage "underpriced" || contains errorMessage "gas price too low" then
    .underpriced
  else if contains errorMessage "reverted" then .revert errorMessage
  else if contains errorMessage "connection" || contains errorMessage "network" then
    .connectionError errorMessage
  else if contains errorMessage "timed out" || contains errorMessage "timeout" then
    .timeoutError 30000
  else if contains errorMessage "rate limit" || contains errorMessage "too many requests" then
    .rateLimitExceeded errorMessage
  else if contains errorMessage "not found" && contains errorMessage "block" then
    .blockNotFound errorMessage
  else if contains errorMessage "not found" && contains errorMessage "transaction" then
    .transactionNotFound errorMessage
  else if contains errorMessage "not found" && contains errorMessage "contract" then
    .contractNotFound errorMessage
  else if contains errorMessage "circuit breaker" then .circuitBreakerTriggered errorMessage
  else if contains errorMessage "max retry" || contains errorMessage "retry limit" then
    .maxRetryReached errorMessage
  else if contains errorMessage "invalid transaction" then .transactionError errorMessage
  else if contains errorMessage "gas cap" || contains errorMessage "gas limit exceeded" then .gasCap
  else .unknown errorMessage

/-! ## The words that decide -/

def ChainError.verdict (e : ChainError H256) : Bool × Bool := (e.isRetryable,e.isGasRelated)

def connecting : List String := ["could not connect to server","connection error","rate limit"]

def pricing : List String := ["gas required exceeds","gas price"]

def named : List String := ["transaction","contract call","token","decode","encode",
  "unsupported chain","invalid address","insufficient funds","insufficient balance","approval",
  "signature","block not found","receipt not found","reverted"]

def starved : List String := ["insufficient funds","gas required exceeds allowance"]

def misnumbered : List String := ["nonce too low","nonce too high"]

def underpaid : List String := ["underpriced","gas price too low"]

def unreachable : List String := ["connection","network","timed out","timeout","rate limit",
  "too many requests"]

def ended : List String := ["circuit breaker","max retry","retry limit","invalid transaction"]

def capped : List String := ["gas cap","gas limit exceeded"]

def missing (m : String) : Bool :=
  contains m "not found" && containsAny m ["block","transaction","contract"]

theorem verdict_ite {c : Bool} {e e' : ChainError H256} :
    (if c then e else e').verdict = if c then e.verdict else e'.verdict := by
  cases c <;> rfl

theorem ite_or {A : Type} {a b : Bool} {x y : A} :
    (if a then x else if b then x else y) = if a || b then x else y := by
  cases a <;> rfl

theorem contains_reverted {m : String} (h : contains m "execution reverted" = true) :
    contains m "reverted" = true :=
  contains_within (by decide +kernel) h

theorem contains_nonce {m : String} (h : contains m "nonce too low" = true) :
    contains m "nonce" = true :=
  contains_within (by decide +kernel) h

theorem verdict_unsupported (m : String) :
    (ChainError.ofUnsupported m : ChainError H256).verdict = (false,false) := by
  unfold ChainError.ofUnsupported
  split <;> rfl

theorem verdict_receipt (parseHash : List Char → Option H256) (m : String) :
    (ChainError.ofReceipt parseHash m).verdict = (false,false) := by
  unfold ChainError.ofReceipt
  split <;> rfl

theorem ofText_verdict (parseHash : List Char → Option H256) (m : String) :
    (ChainError.ofText parseHash m).verdict =
      if containsAny m connecting then (true,false)
      else if contains m "nonce" then (false,false)
      else if containsAny m pricing then (false,true)
      else if contains m "timeout" then (true,false)
      else if containsAny m named then (false,false)
      else if contains m "underpriced" then (true,true)
      else if contains m "gas cap" then (false,true)
      else if contains m "max retry" then (false,false)
      else if contains m "rpc" then (true,false)
      else (false,false) := by
  have hreverted := contains_reverted (m := m)
  have hnonce := contains_nonce (m := m)
  unfold ChainError.ofText
  simp only [verdict_ite,verdict_unsupported,verdict_receipt]
  simp only [ChainError.verdict,ChainError.isRetryable,ChainError.isGasRelated,ite_or,containsAny,
    connecting,pricing,named,List.any_cons,List.any_nil,Bool.or_false]
  grind

theorem parse_verdict (m : String) :
    (parseErrorMessage m : ChainError H256).verdict =
      if containsAny m starved then (false,true)
      else if containsAny m misnumbered then (false,false)
      else if containsAny m underpaid then (true,true)
      else if contains m "reverted" then (false,false)
      else if containsAny m unreachable then (true,false)
      else if missing m || containsAny m ended then (false,false)
      else if containsAny m capped then (false,true)
      else (false,false) := by
  unfold parseErrorMessage
  simp only [verdict_ite]
  simp only [ChainError.verdict,ChainError.isRetryable,ChainError.isGasRelated,ite_or,containsAny,
    starved,misnumbered,underpaid,unreachable,ended,capped,missing,List.any_cons,List.any_nil,
    Bool.or_false]
  grind

/-! ## Where the two agree -/

def Agree (parseHash : List Char → Option H256) (m : String) : Prop :=
  (ChainError.fromAnyhow parseHash (.text m)).isRetryable =
      (parseErrorMessage m : ChainError H256).isRetryable ∧
    (ChainError.fromAnyhow parseHash (.text m)).isGasRelated =
      (parseErrorMessage m : ChainError H256).isGasRelated

def RetryAndRaise (m : String) : Bool :=
  contains m "underpriced" && !(containsAny m connecting || contains m "nonce" ||
    containsAny m pricing || contains m "timeout" || containsAny m named)

def RaiseOnly (m : String) : Bool :=
  !(containsAny m connecting || contains m "nonce") &&
    (containsAny m pricing && (containsAny m starved ||
        containsAny m capped && !(containsAny m underpaid || contains m "reverted" ||
          containsAny m unreachable || missing m || containsAny m ended)) ||
      contains m "gas cap" && !(containsAny m pricing || containsAny m named ||
        contains m "underpriced" || containsAny m unreachable || missing m || containsAny m ended))

def RetryOnly (m : String) : Bool :=
  containsAny m unreachable && !(containsAny m starved || containsAny m misnumbered ||
      containsAny m underpaid || contains m "reverted") &&
    (containsAny m connecting || !(contains m "nonce" || containsAny m pricing) &&
      (contains m "timeout" ||
        contains m "rpc" && !(containsAny m named || contains m "gas cap" || contains m "max retry")))

def GiveUp (m : String) : Bool :=
  !(containsAny m connecting || containsAny m starved) &&
    (contains m "nonce" || !(containsAny m pricing || contains m "timeout") &&
      (containsAny m named || !(contains m "underpriced" || contains m "gas cap") &&
        (contains m "max retry" || !contains m "rpc"))) &&
    (containsAny m misnumbered || !containsAny m underpaid &&
      (contains m "reverted" || !containsAny m unreachable &&
        (missing m || containsAny m ended || !containsAny m capped)))

theorem containsAny_of {m p : String} {ps : List String} (hp : p ∈ ps)
    (h : contains m p = true) : containsAny m ps = true :=
  containsAny_iff.mpr ⟨p,hp,h⟩

theorem starved_elsewhere {m : String} (h : containsAny m starved = true) :
    containsAny m pricing = true ∨ containsAny m named = true := by
  obtain ⟨p,hp,hcontains⟩ := containsAny_iff.mp h
  rcases List.mem_pair.mp hp with rfl | rfl
  · exact Or.inr (containsAny_of (by decide) hcontains)
  · exact Or.inl (containsAny_of (p := "gas required exceeds") (by decide)
      (contains_within (by decide +kernel) hcontains))

theorem misnumbered_nonce {m : String} (h : containsAny m misnumbered = true) :
    contains m "nonce" = true := by
  obtain ⟨p,hp,hcontains⟩ := containsAny_iff.mp h
  rcases List.mem_pair.mp hp with rfl | rfl
  · exact contains_within (by decide +kernel) hcontains
  · exact contains_within (by decide +kernel) hcontains

theorem underpaid_elsewhere {m : String} (h : containsAny m underpaid = true) :
    contains m "underpriced" = true ∨ containsAny m pricing = true := by
  obtain ⟨p,hp,hcontains⟩ := containsAny_iff.mp h
  rcases List.mem_pair.mp hp with rfl | rfl
  · exact Or.inl hcontains
  · exact Or.inr (containsAny_of (p := "gas price") (by decide)
      (contains_within (by decide +kernel) hcontains))

structure Overlaps (m : String) : Prop where
  fromStarved : containsAny m starved = true → containsAny m pricing = true ∨ containsAny m named = true
  fromMisnumbered : containsAny m misnumbered = true → contains m "nonce" = true
  fromUnderpaid : containsAny m underpaid = true →
    contains m "underpriced" = true ∨ containsAny m pricing = true
  fromUnderpriced : contains m "underpriced" = true → containsAny m underpaid = true
  fromReverted : contains m "reverted" = true → containsAny m named = true
  fromTimeout : contains m "timeout" = true → containsAny m unreachable = true
  fromGasCap : contains m "gas cap" = true → containsAny m capped = true
  fromMaxRetry : contains m "max retry" = true → containsAny m ended = true

theorem overlaps (m : String) : Overlaps m where
  fromStarved := starved_elsewhere
  fromMisnumbered := misnumbered_nonce
  fromUnderpaid := underpaid_elsewhere
  fromUnderpriced := containsAny_of (by decide)
  fromReverted := containsAny_of (by decide)
  fromTimeout := containsAny_of (by decide)
  fromGasCap := containsAny_of (by decide)
  fromMaxRetry := containsAny_of (by decide)

section Outcomes

variable (parseHash : List Char → Option H256) (m : String)

theorem ofText_retryAndRaise : (ChainError.ofText parseHash m).verdict = (true,true) ↔
    RetryAndRaise m = true := by
  rw [ofText_verdict,RetryAndRaise]
  grind

theorem ofText_raiseOnly : (ChainError.ofText parseHash m).verdict = (false,true) ↔
    (!(containsAny m connecting || contains m "nonce") && (containsAny m pricing ||
      contains m "gas cap" && !(contains m "timeout" || containsAny m named ||
        contains m "underpriced"))) = true := by
  rw [ofText_verdict]
  grind

theorem ofText_retryOnly : (ChainError.ofText parseHash m).verdict = (true,false) ↔
    (containsAny m connecting || !(contains m "nonce" || containsAny m pricing) &&
      (contains m "timeout" || contains m "rpc" && !(containsAny m named ||
        contains m "underpriced" || contains m "gas cap" || contains m "max retry"))) = true := by
  rw [ofText_verdict]
  grind

theorem ofText_giveUp : (ChainError.ofText parseHash m).verdict = (false,false) ↔
    (!containsAny m connecting && (contains m "nonce" ||
      !(containsAny m pricing || contains m "timeout") && (containsAny m named ||
        !(contains m "underpriced" || contains m "gas cap") &&
          (contains m "max retry" || !contains m "rpc")))) = true := by
  rw [ofText_verdict]
  grind

theorem parse_retryAndRaise : (parseErrorMessage m : ChainError H256).verdict = (true,true) ↔
    (containsAny m underpaid && !(containsAny m starved || containsAny m misnumbered)) = true := by
  rw [parse_verdict]
  grind

theorem parse_raiseOnly : (parseErrorMessage m : ChainError H256).verdict = (false,true) ↔
    (containsAny m starved || containsAny m capped && !(containsAny m misnumbered ||
      containsAny m underpaid || contains m "reverted" || containsAny m unreachable ||
      missing m || containsAny m ended)) = true := by
  rw [parse_verdict]
  grind

theorem parse_retryOnly : (parseErrorMessage m : ChainError H256).verdict = (true,false) ↔
    (containsAny m unreachable && !(containsAny m starved || containsAny m misnumbered ||
      containsAny m underpaid || contains m "reverted")) = true := by
  rw [parse_verdict]
  grind

theorem parse_giveUp : (parseErrorMessage m : ChainError H256).verdict = (false,false) ↔
    (!containsAny m starved && (containsAny m misnumbered || !containsAny m underpaid &&
      (contains m "reverted" || !containsAny m unreachable &&
        (missing m || containsAny m ended || !containsAny m capped)))) = true := by
  rw [parse_verdict]
  grind

theorem retryAndRaise_iff : (ChainError.ofText parseHash m).verdict = (true,true) ∧
    (parseErrorMessage m : ChainError H256).verdict = (true,true) ↔ RetryAndRaise m = true := by
  obtain ⟨_,_,_,_,_,_,_,_⟩ := overlaps m
  rw [ofText_retryAndRaise,parse_retryAndRaise,RetryAndRaise]
  grind

theorem raiseOnly_iff : (ChainError.ofText parseHash m).verdict = (false,true) ∧
    (parseErrorMessage m : ChainError H256).verdict = (false,true) ↔ RaiseOnly m = true := by
  obtain ⟨_,_,_,_,_,_,_,_⟩ := overlaps m
  rw [ofText_raiseOnly,parse_raiseOnly,RaiseOnly]
  grind

theorem retryOnly_iff : (ChainError.ofText parseHash m).verdict = (true,false) ∧
    (parseErrorMessage m : ChainError H256).verdict = (true,false) ↔ RetryOnly m = true := by
  obtain ⟨_,_,_,_,_,_,_,_⟩ := overlaps m
  rw [ofText_retryOnly,parse_retryOnly,RetryOnly]
  grind

theorem giveUp_iff : (ChainError.ofText parseHash m).verdict = (false,false) ∧
    (parseErrorMessage m : ChainError H256).verdict = (false,false) ↔ GiveUp m = true := by
  rw [ofText_giveUp,parse_giveUp,GiveUp]
  grind

end Outcomes

theorem eq_iff_outcomes (v w : Bool × Bool) : v = w ↔
    v = (true,true) ∧ w = (true,true) ∨ v = (false,true) ∧ w = (false,true) ∨
      v = (true,false) ∧ w = (true,false) ∨ v = (false,false) ∧ w = (false,false) := by
  obtain ⟨a,b⟩ := v
  obtain ⟨c,d⟩ := w
  revert a b c d
  decide

/-- Exactly these texts mean the same on both ways. -/
theorem agree_iff (parseHash : List Char → Option H256) (m : String) :
    Agree parseHash m ↔
      RetryAndRaise m = true ∨ RaiseOnly m = true ∨ RetryOnly m = true ∨ GiveUp m = true := by
  have hverdict : Agree parseHash m ↔
      (ChainError.ofText parseHash m).verdict = (parseErrorMessage m : ChainError H256).verdict :=
    Prod.mk_inj.symm
  rw [hverdict,eq_iff_outcomes,retryAndRaise_iff,raiseOnly_iff,retryOnly_iff,giveUp_iff]

/-- A sender without funds has the gas raised on one way only. -/
theorem agree_counterexample :
    ¬∀ (parseHash : List Char → Option ℕ) (m : String), Agree parseHash m := by
  intro h
  have hgas := (h (fun _ => none) "insufficient funds for gas * price + value").2
  revert hgas
  decide +kernel

end DiamondBot.ErrorClasses
