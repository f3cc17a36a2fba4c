import DiamondBot.ChainAdapters.NonceManager

/-!
# Sending from a wallet

The two methods that send for a wallet and take the nonce from the chain. Each
is a program that asks the adapter or the signer one thing after another and
goes on with the answer; a program stops with a result, an error or a panic.
Gas prices, gas limits and nonces have 256 bits, configured limits 64.
-/

set_option autoImplicit false

namespace DiamondBot

/-- The errors the methods build themselves; those of the adapter are passed on. -/
inductive ChainError
  | unsupportedChain (chainId : ℕ)
  | walletNotConfigured
  | invalidAddress (text : String)
  | transactionError (text : String)
  | gasLimitExceeded (gas : ℕ)
  | adapter (text : String)
  deriving DecidableEq

structure TransactionRequest where
  fromAddress : Option Address
  toAddress : Option Address
  value : Option ℕ
  data : Option (List (BitVec 8))
  gas : Option ℕ
  gasPrice : Option ℕ
  nonce : Option ℕ
  chainId : Option ℕ
  deriving DecidableEq

namespace WalletSend

/-- What a method asks for. -/
inductive Request
  | getGasPrice
  | estimateGas (tx : TransactionRequest)
  | getTransactionCount (address : Address)
  | signTransaction (tx : TransactionRequest)
  | sendRawTransaction (tx : TransactionRequest)
  | sendTransaction (tx : TransactionRequest)

def Request.Answer : Request → Type
  | .signTransaction _ => Except String ℕ
  | .sendRawTransaction _ => Except String ℕ
  | _ => Except ChainError ℕ

inductive Outcome
  | sent (txHash : ℕ)
  | failed (e : ChainError)
  | panicked
  deriving DecidableEq

inductive Program
  | done (outcome : Outcome)
  | ask (request : Request) (resume : request.Answer → Program)

def orFail (resume : ℕ → Program) : Except ChainError ℕ → Program
  | .ok n => resume n
  | .error e => .done (.failed e)

def gasPriceOr (gasPrice : Option ℕ) (resume : ℕ → Program) : Program :=
  match gasPrice with
  | some gp => resume gp
  | none => .ask .getGasPrice (orFail resume)

end WalletSend

open WalletSend

structure WalletIntegration where
  chainAdapters : List ℕ
  wallets : List Address
  gasLimit : ℕ
  reparse : Address → Option Address

namespace WalletIntegration

def adjustedGas (w : WalletIntegration) (resume : ℕ → Program) : Except ChainError ℕ → Program
  | .ok gas =>
    if w.gasLimit < gas then
      if gas < 2^64 then .done (.failed (.gasLimitExceeded gas)) else .done .panicked
    else resume (gas*12 % 2^64/10)
  | .error _ => resume w.gasLimit

def gasLimitOr (w : WalletIntegration) (walletAddress : Address) (toAddress : Option Address)
    (value : ℕ) (data : Option (List (BitVec 8))) (gasLimit : Option ℕ) (resume : ℕ → Program) :
    Program :=
  match gasLimit with
  | some gl => resume gl
  | none =>
    match toAddress.bind w.reparse with
    | none => .done .panicked
    | some recipient =>
      .ask (.estimateGas {
        fromAddress := some walletAddress
        toAddress := some recipient
        value := some value
        data
        gas := none
        gasPrice := none
        nonce := none
        chainId := none }) (w.adjustedGas resume)

def sendTransaction (w : WalletIntegration) (walletAddress : Address) (chainId : ℕ)
    (toAddress : Option Address) (value : ℕ) (data : Option (List (BitVec 8)))
    (gasPrice gasLimit : Option ℕ) : Program :=
  if chainId ∉ w.chainAdapters then .done (.failed (.unsupportedChain chainId))
  else if walletAddress ∉ w.wallets then .done (.failed .walletNotConfigured)
  else
    gasPriceOr gasPrice fun actualGasPrice =>
    w.gasLimitOr walletAddress toAddress value data gasLimit fun actualGasLimit =>
    .ask (.getTransactionCount walletAddress) (orFail fun nonce =>
    let tx : TransactionRequest := {
      fromAddress := some walletAddress
      toAddress
      value := some value
      data
      gas := some actualGasLimit
      gasPrice := some actualGasPrice
      nonce := some nonce
      chainId := none }
    .ask (.signTransaction tx) fun
      | .error e => .done (.failed (.transactionError s!"Failed to sign: {e}"))
      | .ok _ => .ask (.sendRawTransaction tx) fun
        | .error e => .done (.failed (.transactionError s!"Failed to send: {e}"))
        | .ok txHash => .done (.sent txHash))

end WalletIntegration

structure TransactionManager where
  registry : List ℕ
  validateWalletAddress : String → Except String Unit
  parseAddress : String → Except String Address

namespace TransactionManager

def nonceOr (m : TransactionManager) (walletAddress : String) (nonce : Option ℕ)
    (resume : ℕ → Program) : Program :=
  match nonce with
  | some n => resume n
  | none =>
    match m.parseAddress walletAddress with
    | .error e => .done (.failed (.invalidAddress e))
    | .ok address => .ask (.getTransactionCount address) (orFail resume)

def gasLimitOr (tx : TransactionRequest) (gasLimit : Option ℕ) (resume : ℕ → Program) : Program :=
  match gasLimit with
  | some gl => resume gl
  | none => .ask (.estimateGas tx) (orFail resume)

def sendTransaction (m : TransactionManager) (chainId : ℕ) (walletAddress recipient : String)
    (value : Option ℕ) (data : Option (List (BitVec 8))) (gasLimit gasPrice nonce : Option ℕ) :
    Program :=
  if chainId ∉ m.registry then .done (.failed (.unsupportedChain chainId))
  else
    match m.validateWalletAddress walletAddress,m.validateWalletAddress recipient,
      m.parseAddress recipient with
    | .error e,_,_ => .done (.failed (.invalidAddress e))
    | _,.error e,_ => .done (.failed (.invalidAddress e))
    | _,_,.error e => .done (.failed (.invalidAddress e))
    | .ok _,.ok _,.ok toAddress =>
      m.nonceOr walletAddress nonce fun nonce =>
      gasPriceOr gasPrice fun gasPrice =>
      let tx : TransactionRequest := {
        fromAddress := none
        toAddress := some toAddress
        value
        data
        gas := gasLimit
        gasPrice := some gasPrice
        nonce := some nonce
        chainId := some chainId }
      gasLimitOr tx gasLimit fun gasLimit =>
      .ask (.sendTransaction { tx with gas := some gasLimit })
        (orFail fun txHash => .done (.sent txHash))

end TransactionManager

end DiamondBot
