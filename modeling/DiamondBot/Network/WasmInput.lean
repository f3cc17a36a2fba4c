import DiamondBot.Library.DecimalText
import DiamondBot.Library.HexText

/-!
# What a module is told of a transaction

Some fields of a transaction are turned into text: bytes become hexadecimal
digits, amounts decimal ones, and a gas price that is missing is written as none
at all, which is zero. How an account is shown is that of its type.
-/

set_option autoImplicit false

namespace DiamondBot.Network
open Library HexText

structure Transaction where
  hash : FixedHash 32
  nonce : ℕ
  blockHash : Option (FixedHash 32)
  blockNumber : Option ℕ
  transactionIndex : Option ℕ
  transactionType : Option ℕ
  maxFeePerGas : Option ℕ
  maxPriorityFeePerGas : Option ℕ
  input : List UInt8
  receiver : Option (FixedHash 20)
  sender : FixedHash 20
  value : ℕ
  gasPrice : Option ℕ
  gas : ℕ
  chainId : Option ℕ

structure WasmInput where
  transactionData : List Char
  tokenAddress : Option (List Char)
  methodId : List Char
  sender : List Char
  receiver : List Char
  value : List Char
  gasPrice : List Char
  gasLimit : List Char
  chainId : Option ℕ
  deriving DecidableEq

def mark : List Char := ['0','x']

def decimal (n : ℕ) : List Char := Nat.toDigits 10 n

def asU64 (n : ℕ) : Except String ℕ :=
  if n < 2^64 then .ok n else .error "Integer overflow when casting to u64"

def chainIdOf : Option ℕ → Except String (Option ℕ)
  | none => .ok none
  | some id => (asU64 id).map some

def prepareWasmInput (debug : FixedHash 20 → List Char) (tx : Transaction) : Except String WasmInput := do
  let methodId := if 4 ≤ tx.input.length then mark++encode (tx.input.take 4) else mark
  let chainId ← chainIdOf tx.chainId
  pure {
    transactionData := mark++encode tx.input
    tokenAddress := tx.receiver.map debug
    methodId
    sender := debug tx.sender
    receiver := (tx.receiver.map debug).getD mark
    value := decimal tx.value
    gasPrice := decimal (tx.gasPrice.getD 0)
    gasLimit := decimal tx.gas
    chainId }

theorem decimal_injective {m n : ℕ} (h : decimal m = decimal n) : m = n := by
  rw [← DecimalText.value_toDigits m,← DecimalText.value_toDigits n]
  exact congrArg DecimalText.value h

theorem chainIdOf_ok {id r : Option ℕ} (h : chainIdOf id = .ok r) : r = id := by
  cases id with
  | none =>
    cases h
    rfl
  | some id =>
    obtain ⟨n,hn,rfl⟩ := Checked.map_ok.mp h
    unfold asU64 at hn
    split at hn
    · cases hn
      rfl
    · cases hn

def Transaction.told (tx : Transaction) :
    List UInt8 × Option (FixedHash 20) × FixedHash 20 × ℕ × ℕ × ℕ × Option ℕ :=
  (tx.input,tx.receiver,tx.sender,tx.value,tx.gasPrice.getD 0,tx.gas,tx.chainId)

/-- The module is told the same of two transactions exactly when they have the same
data, accounts, value, gas and chain, and the same gas price, none being zero. -/
theorem prepareWasmInput_same {debug : FixedHash 20 → List Char}
    (hdebug : Function.Injective debug) {tx tx' : Transaction} {w w' : WasmInput}
    (h : prepareWasmInput debug tx = .ok w) (h' : prepareWasmInput debug tx' = .ok w') :
    w = w' ↔ tx.told = tx'.told := by
  obtain ⟨c,hc,h⟩ := Checked.bind_ok.mp h
  obtain ⟨c',hc',h'⟩ := Checked.bind_ok.mp h'
  cases h
  cases h'
  rw [chainIdOf_ok hc,chainIdOf_ok hc']
  simp only [Transaction.told,Prod.mk.injEq]
  constructor
  · intro hw
    simp only [WasmInput.mk.injEq] at hw
    obtain ⟨hdata,hto,_,hsender,_,hvalue,hprice,hgas,hchain⟩ := hw
    have hinput := encode_injective (List.append_cancel_left hdata)
    have hto := Option.map_injective hdebug hto
    exact ⟨hinput,hto,hdebug hsender,decimal_injective hvalue,decimal_injective hprice,
      decimal_injective hgas,hchain⟩
  · rintro ⟨hinput,hto,hsender,hvalue,hprice,hgas,hchain⟩
    simp only [hinput,hto,hsender,hvalue,hprice,hgas,hchain]

def creation (nonce : ℕ) (gasPrice : Option ℕ) : Transaction where
  hash := ⟨List.replicate 32 nonce.toUInt8,by simp⟩
  nonce
  blockHash := none
  blockNumber := none
  transactionIndex := none
  transactionType := none
  maxFeePerGas := none
  maxPriorityFeePerGas := none
  input := [96,128,96,64,82]
  receiver := none
  sender := ⟨List.replicate 20 7,rfl⟩
  value := 0
  gasPrice
  gas := 21000
  chainId := some 1

def markedDebug (a : FixedHash 20) : List Char := mark++encode a.bytes

theorem markedDebug_injective : Function.Injective markedDebug :=
  fun _ _ h => FixedHash.ext_encode (List.append_cancel_left h)

/-- With another nonce, and with a gas price of zero or none, the module is told the same. -/
theorem prepareWasmInput_same_creation : ∃ w,
    prepareWasmInput markedDebug (creation 1 none) = .ok w ∧
      prepareWasmInput markedDebug (creation 2 (some 0)) = .ok w := by
  obtain ⟨w,hw⟩ : ∃ w, prepareWasmInput markedDebug (creation 1 none) = .ok w := ⟨_,rfl⟩
  obtain ⟨w',hw'⟩ : ∃ w, prepareWasmInput markedDebug (creation 2 (some 0)) = .ok w := ⟨_,rfl⟩
  have hsame := (prepareWasmInput_same markedDebug_injective hw hw').mpr rfl
  exact ⟨w,hw,hsame ▸ hw'⟩

end DiamondBot.Network
