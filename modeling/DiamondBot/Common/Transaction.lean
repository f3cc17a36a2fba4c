import DiamondBot.Library.Checked
import Mathlib.Data.UInt

/-!
# Transactions and their receipts

A record is made from a receipt, or an older record is brought up to date with
one. The two paths write the fields of the receipt one by one. The update writes
most of them before it looks for the status, leaves one field out, and the fee
is computed with the price the record was made with.
-/

set_option autoImplicit false

namespace DiamondBot.Common
open Library

inductive TransactionStatus
  | pending
  | confirmed
  | failed
  | cancelled
  | replaced
  deriving DecidableEq

/-- Hashes, addresses and logs are of types of their own. -/
structure TransactionReceipt (H A L : Type) where
  transactionHash : H
  transactionIndex : UInt64
  blockHash : Option H
  blockNumber : Option UInt64
  cumulativeGasUsed : ℕ
  gasUsed : Option ℕ
  contractAddress : Option A
  logs : List L
  status : Option UInt64
  root : Option H
  transactionType : Option UInt64
  effectiveGasPrice : Option ℕ

/-- How hashes, addresses and logs are written. -/
structure Texts (H A L : Type) where
  hash : H → String
  address : A → String
  log : L → String
  zeroAddress : String

structure Transaction where
  id : String
  hash : String
  fromAddress : String
  toAddress : Option String
  value : ℕ
  nonce : UInt64
  data : List UInt8
  gasPrice : ℕ
  gasLimit : ℕ
  gasUsed : Option ℕ
  transactionType : Option UInt64
  status : TransactionStatus
  blockNumber : Option UInt64
  blockHash : Option String
  createdAt : ℕ
  updatedAt : ℕ
  transactionIndex : Option UInt64
  accessList : Option (List (String × List String))
  maxPriorityFeePerGas : Option ℕ
  maxFeePerGas : Option ℕ
  chainId : Option UInt64
  v : UInt64
  r : ℕ
  s : ℕ
  input : List UInt8
  contractAddress : Option String
  logs : Option (List String)
  cumulativeGasUsed : Option ℕ
  effectiveGasPrice : Option ℕ
  root : Option String
  type_ : Option UInt64

namespace Transaction

variable {H A L : Type}

def statusOf (status : UInt64) : TransactionStatus :=
  if status = 1 then .confirmed else .failed

def updateFromReceipt (texts : Texts H A L) (t : Transaction)
    (receipt : TransactionReceipt H A L) (now : ℕ) : Transaction × Except String Unit :=
  let t := { t with
    gasUsed := receipt.gasUsed
    blockNumber := receipt.blockNumber
    blockHash := receipt.blockHash.map texts.hash
    transactionIndex := some receipt.transactionIndex
    contractAddress := receipt.contractAddress.map texts.address
    logs := some (receipt.logs.map texts.log)
    cumulativeGasUsed := some receipt.cumulativeGasUsed
    effectiveGasPrice := receipt.effectiveGasPrice
    root := receipt.root.map texts.hash
    type_ := receipt.transactionType }
  match receipt.status with
  | some status => ({ t with status := statusOf status, updatedAt := now },.ok ())
  | none => (t,.error "No status in receipt")

def calculateFee (t : Transaction) : Except String (Option ℕ) :=
  match t.gasUsed with
  | some used => (Checked.mul 256 used t.gasPrice).map some
  | none => .ok none

def fromReceipt (texts : Texts H A L) (receipt : TransactionReceipt H A L) (id : String)
    (now : ℕ) : Transaction where
  id
  hash := texts.hash receipt.transactionHash
  fromAddress := texts.zeroAddress
  toAddress := none
  value := 0
  nonce := 0
  data := []
  gasPrice := 0
  gasLimit := 0
  gasUsed := receipt.gasUsed
  transactionType := receipt.transactionType
  status := match receipt.status with
    | some status => statusOf status
    | none => .pending
  blockNumber := receipt.blockNumber
  blockHash := receipt.blockHash.map texts.hash
  createdAt := now
  updatedAt := now
  transactionIndex := some receipt.transactionIndex
  accessList := none
  maxPriorityFeePerGas := none
  maxFeePerGas := none
  chainId := none
  v := 0
  r := 0
  s := 0
  input := []
  contractAddress := receipt.contractAddress.map texts.address
  logs := some (receipt.logs.map texts.log)
  cumulativeGasUsed := some receipt.cumulativeGasUsed
  effectiveGasPrice := receipt.effectiveGasPrice
  root := receipt.root.map texts.hash
  type_ := receipt.transactionType

structure ReceiptFieldsEqual (t u : Transaction) : Prop where
  status : t.status = u.status
  gasUsed : t.gasUsed = u.gasUsed
  blockNumber : t.blockNumber = u.blockNumber
  blockHash : t.blockHash = u.blockHash
  transactionIndex : t.transactionIndex = u.transactionIndex
  contractAddress : t.contractAddress = u.contractAddress
  logs : t.logs = u.logs
  cumulativeGasUsed : t.cumulativeGasUsed = u.cumulativeGasUsed
  effectiveGasPrice : t.effectiveGasPrice = u.effectiveGasPrice
  root : t.root = u.root
  type_ : t.type_ = u.type_
  transactionType : t.transactionType = u.transactionType

def OthersKept (t t' : Transaction) : Prop :=
  t' = { t with
    status := t'.status
    gasUsed := t'.gasUsed
    blockNumber := t'.blockNumber
    blockHash := t'.blockHash
    transactionIndex := t'.transactionIndex
    contractAddress := t'.contractAddress
    logs := t'.logs
    cumulativeGasUsed := t'.cumulativeGasUsed
    effectiveGasPrice := t'.effectiveGasPrice
    root := t'.root
    type_ := t'.type_
    transactionType := t'.transactionType
    updatedAt := t'.updatedAt }

/-- The fee is that of the receipt, where it tells the gas and its price. -/
def FeeOf (receipt : TransactionReceipt H A L) (t : Transaction) : Prop :=
  ∀ used price, receipt.gasUsed = some used → receipt.effectiveGasPrice = some price →
    t.calculateFee = .ok (some (used*price))

/-- What is asked of an update: all or nothing. -/
def Applied (texts : Texts H A L) (t : Transaction) (receipt : TransactionReceipt H A L) :
    Transaction × Except String Unit → Prop
  | (t',.error _) => t' = t
  | (t',.ok _) => (∀ id now, t'.ReceiptFieldsEqual (fromReceipt texts receipt id now)) ∧
      t.OthersKept t' ∧ FeeOf receipt t'

/-- The fields that the update writes hold the receipt's values already. -/
structure Holds (texts : Texts H A L) (t : Transaction) (receipt : TransactionReceipt H A L) :
    Prop where
  gasUsed : t.gasUsed = receipt.gasUsed
  blockNumber : t.blockNumber = receipt.blockNumber
  blockHash : t.blockHash = receipt.blockHash.map texts.hash
  transactionIndex : t.transactionIndex = some receipt.transactionIndex
  contractAddress : t.contractAddress = receipt.contractAddress.map texts.address
  logs : t.logs = some (receipt.logs.map texts.log)
  cumulativeGasUsed : t.cumulativeGasUsed = some receipt.cumulativeGasUsed
  effectiveGasPrice : t.effectiveGasPrice = receipt.effectiveGasPrice
  root : t.root = receipt.root.map texts.hash
  type_ : t.type_ = receipt.transactionType

/-- The receipt has a status, the record its type already, and the price of the
record is the receipt's where a fee can be told, and small enough. -/
structure Fits (t : Transaction) (receipt : TransactionReceipt H A L) : Prop where
  status : receipt.status ≠ none
  transactionType : t.transactionType = receipt.transactionType
  fee : ∀ used price, receipt.gasUsed = some used → receipt.effectiveGasPrice = some price →
    (used = 0 ∨ t.gasPrice = price) ∧ used*price < 2^256

theorem feeOf_iff {receipt : TransactionReceipt H A L} {t : Transaction}
    (h : t.gasUsed = receipt.gasUsed) : FeeOf receipt t ↔
      ∀ used price, receipt.gasUsed = some used → receipt.effectiveGasPrice = some price →
        (used = 0 ∨ t.gasPrice = price) ∧ used*price < 2^256 := by
  refine forall_congr' fun used => forall_congr' fun price => imp_congr_right fun hused =>
    imp_congr_right fun _ => ?_
  rw [calculateFee,h,hused]
  change (Checked.mul 256 used t.gasPrice).map some = .ok (some (used*price)) ↔ _
  rw [Checked.map_ok]
  constructor
  · rintro ⟨fee,hfee,hprice⟩
    obtain ⟨hfits,rfl⟩ := Checked.mul_ok.mp hfee
    have heq : used*t.gasPrice = used*price := Option.some.inj hprice
    rw [heq] at hfits
    exact ⟨(mul_eq_mul_left_iff.mp heq).symm,hfits⟩
  · rintro ⟨hsame,hfits⟩
    have heq : used*t.gasPrice = used*price := mul_eq_mul_left_iff.mpr hsame.symm
    exact ⟨used*price,Checked.mul_ok.mpr ⟨by rw [heq]; exact hfits,heq.symm⟩,rfl⟩

theorem statusless_applied_iff (texts : Texts H A L) (t : Transaction)
    {receipt : TransactionReceipt H A L} (hstatus : receipt.status = none) (now : ℕ) :
    Applied texts t receipt (t.updateFromReceipt texts receipt now) ↔ t.Holds texts receipt := by
  have hresult : Applied texts t receipt (t.updateFromReceipt texts receipt now) ↔
      (t.updateFromReceipt texts receipt now).1 = t := by
    simp only [updateFromReceipt,hstatus,Applied]
  rw [hresult]
  simp only [updateFromReceipt,hstatus]
  constructor
  · intro hsame
    rw [← hsame]
    exact ⟨rfl,rfl,rfl,rfl,rfl,rfl,rfl,rfl,rfl,rfl⟩
  · rintro ⟨h1,h2,h3,h4,h5,h6,h7,h8,h9,h10⟩
    simp only [← h1,← h2,← h3,← h4,← h5,← h6,← h7,← h8,← h9,← h10]

theorem status_applied_iff (texts : Texts H A L) (t : Transaction)
    {receipt : TransactionReceipt H A L} {status : UInt64} (hstatus : receipt.status = some status)
    (now : ℕ) : Applied texts t receipt (t.updateFromReceipt texts receipt now) ↔
      t.transactionType = receipt.transactionType ∧
        ∀ used price, receipt.gasUsed = some used → receipt.effectiveGasPrice = some price →
          (used = 0 ∨ t.gasPrice = price) ∧ used*price < 2^256 := by
  have hgas : (t.updateFromReceipt texts receipt now).1.gasUsed = receipt.gasUsed ∧
      (t.updateFromReceipt texts receipt now).1.gasPrice = t.gasPrice := by
    simp only [updateFromReceipt,hstatus,and_self]
  rw [← hgas.2,← feeOf_iff hgas.1]
  simp only [updateFromReceipt,hstatus,Applied]
  constructor
  · rintro ⟨hequal,_,hfee⟩
    exact ⟨(hequal "" 0).transactionType,hfee⟩
  · rintro ⟨htype,hfee⟩
    refine ⟨fun id now => ⟨?_,rfl,rfl,rfl,rfl,rfl,rfl,rfl,rfl,rfl,rfl,htype⟩,rfl,hfee⟩
    simp only [fromReceipt,hstatus]

/-- An update does what is asked exactly when the receipt fits the record, or
has no status and brings nothing new. -/
theorem updateFromReceipt_applied_iff (texts : Texts H A L) (t : Transaction)
    (receipt : TransactionReceipt H A L) (now : ℕ) :
    Applied texts t receipt (t.updateFromReceipt texts receipt now) ↔
      t.Fits receipt ∨ receipt.status = none ∧ t.Holds texts receipt := by
  cases hstatus : receipt.status with
  | none =>
    have hunfit : ¬t.Fits receipt := fun hfits => hfits.status hstatus
    rw [statusless_applied_iff texts t hstatus,or_iff_right hunfit,and_iff_right rfl]
  | some status =>
    have hsome : receipt.status ≠ none := by
      rw [hstatus]
      exact Option.some_ne_none _
    rw [status_applied_iff texts t hstatus,or_iff_left fun hnone => Option.some_ne_none _ hnone.1]
    exact ⟨fun ⟨htype,hfee⟩ => ⟨hsome,htype,hfee⟩,fun hfits => ⟨hfits.transactionType,hfits.fee⟩⟩

def plainTexts : Texts String String String where
  hash text := text
  address text := text
  log text := text
  zeroAddress := "0x0000…0000"

def transferReceipt : TransactionReceipt String String String where
  transactionHash := "0x1a"
  transactionIndex := 3
  blockHash := some "0x2b"
  blockNumber := some 19000000
  cumulativeGasUsed := 500000
  gasUsed := some 21000
  contractAddress := none
  logs := []
  status := some 1
  root := none
  transactionType := some 2
  effectiveGasPrice := some 12000000000

def earlierRecord : Transaction :=
  fromReceipt plainTexts { transferReceipt with blockNumber := some 18999999 } "1" 0

theorem statusless_update_writes : ¬Applied plainTexts earlierRecord
    { transferReceipt with status := none }
    (earlierRecord.updateFromReceipt plainTexts { transferReceipt with status := none } 1) := by
  intro h
  have hblock := congrArg Transaction.blockNumber h
  exact absurd hblock (by decide)

end Transaction

end DiamondBot.Common
