import DiamondBot.Library.Substring

/-!
# Errors by their words

A failed transaction is classified by words in the lower-case form of its error
text, the first rule that applies deciding, and the class says how to recover.
The lower-case form of a text is a parameter.
-/

set_option autoImplicit false

namespace DiamondBot.ErrorHandling
open Library Substring

inductive TransactionError where
  | connectionError (text : String)
  | insufficientGas (text : String)
  | slippageError (text : String)
  | lowLiquidity (text : String)
  | tokenRevert (text : String)
  | transactionTimeout (text : String)
  | insufficientBalance (text : String)
  | approvalFailed (text : String)
  | honeypotToken (text : String)
  | withdrawalFailed (text : String)
  | unknown (text : String)
  deriving DecidableEq

inductive RecoveryAction where
  | retry
  | increaseGas
  | reduceAmount
  | abortTransaction
  | waitAndRetry
  | emergencySell
  deriving DecidableEq

structure TransactionRecoveryInfo where
  shouldRetry : Bool
  increaseGas : Bool
  increaseGasPercent : ℕ
  decreaseSlippage : Bool
  waitTimeBeforeRetryMs : ℕ
  suggestedAction : RecoveryAction
  deriving DecidableEq

def lacksGas (lower : String) : Bool :=
  contains lower "gas" && (contains lower "low" || contains lower "insufficient")

def classifyLowercase (errorMsg lower : String) : TransactionError :=
  if lacksGas lower then .insufficientGas errorMsg
  else if contains lower "slippage" || contains lower "k" ||
      contains lower "amount out" || contains lower "output amount" then .slippageError errorMsg
  else if contains lower "liquidity" then .lowLiquidity errorMsg
  else if contains lower "revert" || contains lower "execution reverted" then .tokenRevert errorMsg
  else if contains lower "timeout" || contains lower "not mined" then .transactionTimeout errorMsg
  else if contains lower "balance" && contains lower "insufficient" then
    .insufficientBalance errorMsg
  else if contains lower "approve" || contains lower "allowance" then .approvalFailed errorMsg
  else if contains lower "cannot estimate" || contains lower "transfer" then .honeypotToken errorMsg
  else if contains lower "withdraw" then .withdrawalFailed errorMsg
  else if contains lower "connect" || contains lower "rpc" ||
      contains lower "timeout" || contains lower "unavailable" then .connectionError errorMsg
  else .unknown errorMsg

def classifyBlockchainError (toLowercase : String → String) (errorMsg : String) :
    TransactionError :=
  classifyLowercase errorMsg (toLowercase errorMsg)

def getRecoveryInfo : TransactionError → TransactionRecoveryInfo
  | .insufficientGas _ => ⟨true,true,30,false,2000,.increaseGas⟩
  | .slippageError _ => ⟨true,false,0,true,1000,.retry⟩
  | .lowLiquidity _ => ⟨false,false,0,false,0,.abortTransaction⟩
  | .tokenRevert _ => ⟨true,true,20,true,3000,.retry⟩
  | .transactionTimeout _ => ⟨true,true,50,false,5000,.increaseGas⟩
  | .insufficientBalance _ => ⟨false,false,0,false,0,.abortTransaction⟩
  | .approvalFailed _ => ⟨true,true,30,false,2000,.retry⟩
  | .honeypotToken _ => ⟨false,false,0,false,0,.emergencySell⟩
  | .connectionError _ => ⟨true,false,0,false,5000,.waitAndRetry⟩
  | _ => ⟨true,true,10,true,2000,.retry⟩

/-! ## What counts as slippage -/

def slippagePhrase (lower : String) : Bool :=
  containsAny lower ["slippage","amount out","output amount"]

def otherKeyword (lower : String) : Bool :=
  lacksGas lower || containsAny lower ["liquidity","revert","timeout","not mined"] ||
    contains lower "balance" && contains lower "insufficient" ||
    containsAny lower ["approve","allowance","cannot estimate","transfer","withdraw"]

def unreachable (lower : String) : Bool := containsAny lower ["connect","rpc","unavailable"]

theorem classify_slippage_iff (errorMsg lower : String) :
    (∃ text, classifyLowercase errorMsg lower = .slippageError text) ↔
      lacksGas lower = false ∧ (slippagePhrase lower = true ∨ contains lower "k" = true) := by
  have hphrase : slippagePhrase lower = true ∨ contains lower "k" = true ↔
      (contains lower "slippage" || contains lower "k" ||
        contains lower "amount out" || contains lower "output amount") = true := by
    simp only [slippagePhrase,containsAny,List.any_cons,List.any_nil,Bool.or_false]
    grind
  rw [hphrase]
  unfold classifyLowercase
  by_cases hgas : lacksGas lower = true
  · rw [if_pos hgas,hgas]
    simp
  · rw [if_neg hgas]
    by_cases hslippage : (contains lower "slippage" || contains lower "k" ||
        contains lower "amount out" || contains lower "output amount") = true
    · rw [if_pos hslippage]
      simp [hgas,hslippage]
    · rw [if_neg hslippage]
      apply iff_of_false _ fun h => hslippage h.2
      rintro ⟨text,htext⟩
      grind

theorem classify_connection {errorMsg lower : String} (hphrase : slippagePhrase lower = false)
    (hk : contains lower "k" = false) (hother : otherKeyword lower = false)
    (h : unreachable lower = true) : classifyLowercase errorMsg lower = .connectionError errorMsg := by
  have hreverted : contains lower "execution reverted" = true → contains lower "revert" = true :=
    contains_within (by decide +kernel)
  simp only [slippagePhrase,otherKeyword,unreachable,containsAny,List.any_cons,List.any_nil,
    Bool.or_false,Bool.or_eq_false_iff] at hphrase hother h
  obtain ⟨⟨⟨hgas,hwords⟩,hbalance⟩,hwords'⟩ := hother
  simp only [classifyLowercase,hgas,hphrase,hk,hwords,hwords',hbalance]
  grind

/-! ## Messages without slippage -/

section Messages

variable (toLowercase : String → String) (kInvariant : String → Prop)

/-- A message that is not about slippage is not taken for one that is. Which
messages report the invariant K is left open. -/
def NotSlippage (errorMsg : String) : Prop :=
  slippagePhrase (toLowercase errorMsg) = false → ¬kInvariant errorMsg →
    ∀ text, classifyBlockchainError toLowercase errorMsg ≠ .slippageError text

/-- An unreachable node is waited for, at the same slippage. -/
def WaitsForConnection (errorMsg : String) : Prop :=
  slippagePhrase (toLowercase errorMsg) = false → ¬kInvariant errorMsg →
    unreachable (toLowercase errorMsg) = true → otherKeyword (toLowercase errorMsg) = false →
    classifyBlockchainError toLowercase errorMsg = .connectionError errorMsg ∧
      (getRecoveryInfo (classifyBlockchainError toLowercase errorMsg)).shouldRetry = true ∧
      (getRecoveryInfo (classifyBlockchainError toLowercase errorMsg)).suggestedAction =
        .waitAndRetry ∧
      (getRecoveryInfo (classifyBlockchainError toLowercase errorMsg)).decreaseSlippage = false

/-- A letter k makes a message one about slippage, unless it is about gas. -/
theorem classify_iff (errorMsg : String) :
    NotSlippage toLowercase kInvariant errorMsg ∧
        WaitsForConnection toLowercase kInvariant errorMsg ↔
      slippagePhrase (toLowercase errorMsg) = true ∨ kInvariant errorMsg ∨
        contains (toLowercase errorMsg) "k" = false ∨ lacksGas (toLowercase errorMsg) = true := by
  have hiff := classify_slippage_iff errorMsg (toLowercase errorMsg)
  constructor
  · rintro ⟨hnot,_⟩
    by_contra hnone
    simp only [not_or,Bool.not_eq_true,Bool.not_eq_false] at hnone
    obtain ⟨hphrase,hinvariant,hk,hgas⟩ := hnone
    obtain ⟨text,htext⟩ := hiff.mpr ⟨hgas,Or.inr hk⟩
    exact hnot hphrase hinvariant text htext
  · intro hcases
    constructor
    · intro hphrase hinvariant text htext
      obtain ⟨hgas,hslippage⟩ := hiff.mp ⟨text,htext⟩
      rw [hphrase,hgas] at hcases
      rw [hphrase] at hslippage
      rcases hslippage with hslippage | hk
      · cases hslippage
      · rw [hk] at hcases
        simp [hinvariant] at hcases
    · intro hphrase hinvariant hconnect hother
      have hgas : lacksGas (toLowercase errorMsg) = false := by
        simp only [otherKeyword,Bool.or_eq_false_iff] at hother
        exact hother.1.1.1
      have hk : contains (toLowercase errorMsg) "k" = false := by
        rw [hphrase,hgas] at hcases
        simpa [hinvariant] using hcases
      rw [classifyBlockchainError,classify_connection hphrase hk hother hconnect]
      exact ⟨rfl,rfl,rfl,rfl⟩

end Messages

def asciiLowercase (s : String) : String := String.ofList (s.toList.map Char.toLower)

theorem classify_counterexample :
    ¬∀ errorMsg, NotSlippage asciiLowercase (fun m => contains (asciiLowercase m) "uniswapv2: k")
      errorMsg ∧ WaitsForConnection asciiLowercase
        (fun m => contains (asciiLowercase m) "uniswapv2: k") errorMsg := by
  intro h
  have hnot := (h "Network unavailable").1 (by decide +kernel) (by decide +kernel)
    "Network unavailable"
  exact hnot (by decide +kernel)

end DiamondBot.ErrorHandling
