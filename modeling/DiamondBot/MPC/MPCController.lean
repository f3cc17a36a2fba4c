import DiamondBot.Near.Runtime
import DiamondBot.Library.AtomicRun

/-!
# The multi-party bridge controller

Transactions are kept in one list for good; a signature goes to the first open
transaction under its id, and completion is looked at only there. The owner
manages signers, threshold and chains.
-/

set_option autoImplicit false

namespace DiamondBot
open NearRuntime Library

structure SupportedChain where
  chainId : UInt16
  chainName : String
  bridgeAddress : String
  enabled : Bool
  deriving DecidableEq, Repr

structure MPCTransaction where
  txId : String
  fromChain : UInt16
  toChain : UInt16
  sender : String
  receiver : String
  amount : ℕ
  signatures : List (AccountId × List UInt8)
  completed : Bool
  timestamp : ℕ
  memo : Option String
  deriving DecidableEq, Repr

structure MPCController where
  authorizedSigners : List AccountId
  threshold : UInt8
  pendingTransactions : List MPCTransaction
  supportedChains : List SupportedChain
  ownerId : AccountId
  deriving DecidableEq, Repr

namespace MPCTransaction

def signers (tx : MPCTransaction) : List AccountId := tx.signatures.map Prod.fst

/-- The record `create_transaction` stores: unsigned and not completed. -/
def create (env : Env) (txId : String) (fromChain toChain : UInt16) (sender receiver : String)
    (amount : ℕ) (memo : Option String) : MPCTransaction where
  txId := txId
  fromChain := fromChain
  toChain := toChain
  sender := sender
  receiver := receiver
  amount := amount
  signatures := []
  completed := false
  timestamp := env.blockTimestamp
  memo := memo

def sign (tx : MPCTransaction) (signerId : AccountId) (signature : List UInt8)
    (threshold : UInt8) : MPCTransaction :=
  let signed := { tx with signatures := tx.signatures++[(signerId,signature)] }
  if threshold.toNat ≤ signed.signatures.length then { signed with completed := true }
  else signed

theorem sign_signatures (tx : MPCTransaction) (signerId : AccountId) (signature : List UInt8)
    (threshold : UInt8) :
    (tx.sign signerId signature threshold).signatures =
      tx.signatures++[(signerId,signature)] := by
  simp only [sign]
  split <;> rfl

theorem sign_signers (tx : MPCTransaction) (signerId : AccountId) (signature : List UInt8)
    (threshold : UInt8) :
    (tx.sign signerId signature threshold).signers = tx.signers++[signerId] := by
  simp [signers,sign_signatures]

theorem sign_txId (tx : MPCTransaction) (signerId : AccountId) (signature : List UInt8)
    (threshold : UInt8) : (tx.sign signerId signature threshold).txId = tx.txId := by
  simp only [sign]
  split <;> rfl

theorem sign_completed {tx : MPCTransaction} (h : tx.completed = false)
    (signerId : AccountId) (signature : List UInt8) (threshold : UInt8) :
    (tx.sign signerId signature threshold).completed = true ↔
      threshold.toNat ≤ tx.signers.length+1 := by
  simp only [sign,List.length_append,List.length_singleton,signers,List.length_map]
  split <;> simp_all

end MPCTransaction

namespace MPCController

def new (authorizedSigners : List AccountId) (threshold : UInt8) (ownerId : AccountId) :
    Outcome MPCController := do
  Checked.require (0 < threshold.toNat ∧ threshold.toNat ≤ authorizedSigners.length)
    "Invalid threshold"
  pure ⟨authorizedSigners,threshold,[],[],ownerId⟩

def addSupportedChain (s : MPCController) (env : Env) (chain : SupportedChain) :
    Outcome (MPCController × Bool) := do
  Checked.require (env.predecessorAccountId = s.ownerId) "Only owner can add supported chains"
  if s.supportedChains.any fun c => c.chainId = chain.chainId then pure (s,false)
  else pure ({ s with supportedChains := s.supportedChains++[chain] },true)

/-- The loop of `update_supported_chain`: the first entry under the id is replaced. -/
def replaceChain (chainId : UInt16) (chain : SupportedChain) :
    List SupportedChain → List SupportedChain × Bool
  | [] => ([],false)
  | c::rest =>
    if c.chainId = chainId then (chain::rest,true)
    else
      let r := replaceChain chainId chain rest
      (c::r.1,r.2)

def updateSupportedChain (s : MPCController) (env : Env) (chainId : UInt16)
    (chain : SupportedChain) : Outcome (MPCController × Bool) := do
  Checked.require (env.predecessorAccountId = s.ownerId) "Only owner can update supported chains"
  let r := replaceChain chainId chain s.supportedChains
  pure ({ s with supportedChains := r.1 },r.2)

def isChainSupported (s : MPCController) (chainId : UInt16) : Bool :=
  s.supportedChains.any fun c => c.chainId = chainId && c.enabled

def createTransaction (s : MPCController) (env : Env) (txId : String) (fromChain toChain : UInt16)
    (sender receiver : String) (amount : ℕ) (memo : Option String) :
    Outcome (MPCController × Bool) := do
  Checked.require (¬s.pendingTransactions.any fun tx => tx.txId = txId)
    "Transaction already exists"
  Checked.require (s.isChainSupported fromChain && s.isChainSupported toChain)
    "Chain not supported"
  let transaction := MPCTransaction.create env txId fromChain toChain sender receiver amount memo
  pure ({ s with pendingTransactions := s.pendingTransactions++[transaction] },true)

/-- The loop of `sign_transaction`: the first open transaction under the id
takes the signature, unless this signer's is already there. -/
def signFirst (txId : String) (signerId : AccountId) (signature : List UInt8)
    (threshold : UInt8) : List MPCTransaction → List MPCTransaction × Bool
  | [] => ([],false)
  | tx::rest =>
    if tx.txId = txId ∧ tx.completed = false then
      if tx.signatures.any fun s => s.1 = signerId then (tx::rest,false)
      else (tx.sign signerId signature threshold::rest,true)
    else
      let r := signFirst txId signerId signature threshold rest
      (tx::r.1,r.2)

def signTransaction (s : MPCController) (env : Env) (txId : String) (signature : List UInt8) :
    Outcome (MPCController × Bool) := do
  let signerId := env.predecessorAccountId
  Checked.require (signerId ∈ s.authorizedSigners) "Signer not authorized"
  let r := signFirst txId signerId signature s.threshold s.pendingTransactions
  pure ({ s with pendingTransactions := r.1 },r.2)

def getTransaction (s : MPCController) (txId : String) : Option MPCTransaction :=
  s.pendingTransactions.find? fun tx => tx.txId = txId

def getPendingTransactions (s : MPCController) : List MPCTransaction :=
  s.pendingTransactions.filter fun tx => !tx.completed

def getCompletedTransactions (s : MPCController) (limit : UInt32) : List MPCTransaction :=
  (s.pendingTransactions.filter fun tx => tx.completed).reverse.take limit.toNat

def addAuthorizedSigner (s : MPCController) (env : Env) (signerId : AccountId) :
    Outcome (MPCController × Bool) := do
  Checked.require (env.predecessorAccountId = s.ownerId) "Only owner can add signers"
  if signerId ∉ s.authorizedSigners then
    pure ({ s with authorizedSigners := s.authorizedSigners++[signerId] },true)
  else pure (s,false)

def removeAuthorizedSigner (s : MPCController) (env : Env) (signerId : AccountId) :
    Outcome (MPCController × Bool) := do
  Checked.require (env.predecessorAccountId = s.ownerId) "Only owner can remove signers"
  let remaining := s.authorizedSigners.filter fun id => id ≠ signerId
  Checked.require (remaining.length ≥ s.threshold.toNat)
    "Cannot remove signer: would make threshold unachievable"
  pure ({ s with authorizedSigners := remaining },
    s.authorizedSigners.length ≠ remaining.length)

def setThreshold (s : MPCController) (env : Env) (threshold : UInt8) :
    Outcome (MPCController × Bool) := do
  Checked.require (env.predecessorAccountId = s.ownerId) "Only owner can change threshold"
  Checked.require (0 < threshold.toNat ∧ threshold.toNat ≤ s.authorizedSigners.length)
    "Invalid threshold"
  pure ({ s with threshold },true)

def transferOwnership (s : MPCController) (env : Env) (newOwnerId : AccountId) :
    Outcome MPCController := do
  Checked.require (env.predecessorAccountId = s.ownerId) "Only owner can transfer ownership"
  pure { s with ownerId := newOwnerId }

inductive Op where
  | addSupportedChain (chain : SupportedChain)
  | updateSupportedChain (chainId : UInt16) (chain : SupportedChain)
  | createTransaction (txId : String) (fromChain toChain : UInt16) (sender receiver : String)
      (amount : ℕ) (memo : Option String)
  | signTransaction (txId : String) (signature : List UInt8)
  | addAuthorizedSigner (signerId : AccountId)
  | removeAuthorizedSigner (signerId : AccountId)
  | setThreshold (threshold : UInt8)
  | transferOwnership (newOwnerId : AccountId)

structure Call where
  env : Env
  op : Op

def step (s : MPCController) (c : Call) : Outcome MPCController :=
  match c.op with
  | .addSupportedChain chain => (s.addSupportedChain c.env chain).map Prod.fst
  | .updateSupportedChain chainId chain =>
    (s.updateSupportedChain c.env chainId chain).map Prod.fst
  | .createTransaction txId fromChain toChain sender receiver amount memo =>
    (s.createTransaction c.env txId fromChain toChain sender receiver amount memo).map Prod.fst
  | .signTransaction txId signature => (s.signTransaction c.env txId signature).map Prod.fst
  | .addAuthorizedSigner signerId => (s.addAuthorizedSigner c.env signerId).map Prod.fst
  | .removeAuthorizedSigner signerId => (s.removeAuthorizedSigner c.env signerId).map Prod.fst
  | .setThreshold threshold => (s.setThreshold c.env threshold).map Prod.fst
  | .transferOwnership newOwnerId => s.transferOwnership c.env newOwnerId

def next : MPCController → Call → MPCController := AtomicRun.settle step

def openTransaction (s : MPCController) (txId : String) : Option MPCTransaction :=
  s.pendingTransactions.find? fun tx => tx.txId = txId && !tx.completed

def callBy (accountId : AccountId) (op : Op) : Call where
  env := firstBlock accountId "mpc.near"
  op := op

def nearChain : SupportedChain where
  chainId := 15
  chainName := "NEAR"
  bridgeAddress := "bridge.near"
  enabled := true

def openTransfer : List Call := [
  callBy "owner.near" (.addSupportedChain nearChain),
  callBy "owner.near" (.createTransaction "tx" 15 15 "alice" "bob" 5 none)]

end MPCController
end DiamondBot
