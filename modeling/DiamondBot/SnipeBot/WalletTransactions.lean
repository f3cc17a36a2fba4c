import DiamondBot.Library.Checked
import DiamondBot.Library.DecimalText
import DiamondBot.Library.Paging
import DiamondBot.Library.Ranking

/-!
# The transactions of a wallet, page by page

The page and its length are read from the query. All pages are cut from one
list, which is made anew at every request from what the storage holds.
-/

set_option autoImplicit false

namespace DiamondBot.WalletTransactions
open Library Paging

/-- What the handler reads of a stored transaction. -/
structure Transaction where
  transactionHash : String
  blockNumber : UInt64
  timestamp : UInt64
  fromAddress : String
  toAddress : String
  value : String
  gasUsed : UInt64
  gasPrice : String
  success : Bool

structure TransactionInfo where
  hash : String
  blockNumber : UInt64
  timestamp : UInt64
  fromAddress : String
  toAddress : String
  value : String
  gasUsed : UInt64
  gasPrice : String
  status : String

structure ApiResponse (T : Type) where
  status : String
  message : String
  data : Option T
  timestamp : UInt64

/-- The order of the transactions is that of the storage. A vector has fewer than `2^63`
elements. -/
structure Storage where
  allTransactions : List Transaction
  fits : allTransactions.length < 2^63

def ApiResponse.success {T : Type} (now : UInt64) (data : T) : ApiResponse T where
  status := "success"
  message := "Operation successful"
  data := some data
  timestamp := now

def TransactionInfo.of (tx : Transaction) : TransactionInfo where
  hash := tx.transactionHash
  blockNumber := tx.blockNumber
  timestamp := tx.timestamp
  fromAddress := tx.fromAddress
  toAddress := tx.toAddress
  value := tx.value
  gasUsed := tx.gasUsed
  gasPrice := tx.gasPrice
  status := if tx.success then "Success" else "Failed"

/-- A number of the query, or the default when it is missing or cannot be read. -/
def numberOf (params : String → Option String) (name : String) (default : ℕ) : ℕ :=
  match params name with
  | none => default
  | some text =>
    match DecimalText.parseUnsigned 64 text.toList with
    | .ok n => n
    | .error _ => default

def pageOf (params : String → Option String) : ℕ := numberOf params "page" 1

def limitOf (params : String → Option String) : ℕ := numberOf params "limit" 10

def ofWallet (storage : Storage) (walletAddress : String) : List TransactionInfo :=
  (storage.allTransactions.filter fun tx =>
    tx.fromAddress = walletAddress ∨ tx.toAddress = walletAddress).map .of

def NewestFirst (a b : TransactionInfo) : Prop := b.timestamp ≤ a.timestamp

instance (a b : TransactionInfo) : Decidable (NewestFirst a b) :=
  inferInstanceAs (Decidable (b.timestamp ≤ a.timestamp))

def sorted (storage : Storage) (walletAddress : String) : List TransactionInfo :=
  (ofWallet storage walletAddress).mergeSort fun a b => NewestFirst a b

def paged (transactions : List TransactionInfo) (page limit : ℕ) :
    Except String (List TransactionInfo) := do
  let before ← Checked.sub page 1
  let start ← Checked.mul 64 before limit
  let _end ← Checked.add 64 start limit
  return (transactions.drop start).take limit

def getWalletTransactions (storage : Storage) (wallets : List String)
    (params : String → Option String) (now : UInt64) :
    Except String (ApiResponse (List TransactionInfo)) := do
  let walletAddress := wallets.head?.getD ""
  let data ← paged (sorted storage walletAddress) (pageOf params) (limitOf params)
  return .success now data

/-! ## One page -/

theorem paged_ok {transactions : List TransactionInfo} {page limit : ℕ}
    {data : List TransactionInfo} : paged transactions page limit = .ok data ↔
      (1 ≤ page ∧ page*limit < 2^64) ∧ data = Paging.page transactions limit (page-1) := by
  have hend {before : ℕ} (h : 1 ≤ page ∧ before = page-1) :
      before*limit+limit = page*limit := by
    rw [← Nat.succ_mul,h.2,Nat.succ_eq_add_one,Nat.sub_add_cancel h.1]
  unfold paged
  rw [Checked.bind_ok]
  constructor
  · rintro ⟨before,hbefore,h⟩
    obtain ⟨start,hstart,h⟩ := Checked.bind_ok.mp h
    obtain ⟨_,hlast,h⟩ := Checked.bind_ok.mp h
    rw [Checked.sub_ok] at hbefore
    rw [Checked.mul_ok] at hstart
    rw [Checked.add_ok,hstart.2,hend hbefore] at hlast
    cases h
    rw [hstart.2,hbefore.2]
    exact ⟨⟨hbefore.1,hlast.1⟩,rfl⟩
  · rintro ⟨⟨hpage,hfits⟩,rfl⟩
    have hsum := hend ⟨hpage,rfl⟩
    refine ⟨page-1,Checked.sub_ok.mpr ⟨hpage,rfl⟩,?_⟩
    refine Checked.bind_ok.mpr ⟨(page-1)*limit,Checked.mul_ok.mpr ⟨by omega,rfl⟩,?_⟩
    exact Checked.bind_ok.mpr ⟨page*limit,Checked.add_ok.mpr ⟨by omega,hsum.symm⟩,rfl⟩

/-- The request neither underflows nor overflows. -/
def Served (storage : Storage) (wallets : List String) (params : String → Option String)
    (now : UInt64) : Prop :=
  ∃ response, getWalletTransactions storage wallets params now = .ok response

theorem served_iff (storage : Storage) (wallets : List String) (params : String → Option String)
    (now : UInt64) : Served storage wallets params now ↔
      1 ≤ pageOf params ∧ pageOf params*limitOf params < 2^64 := by
  constructor
  · rintro ⟨response,h⟩
    obtain ⟨data,hdata,_⟩ := Checked.bind_ok.mp h
    exact (paged_ok.mp hdata).1
  · intro h
    exact ⟨_,Checked.bind_ok.mpr ⟨_,paged_ok.mpr ⟨h,rfl⟩,rfl⟩⟩

/-! ## All pages -/

/-- The pages of one length, from the first on, are all transactions of the wallet. -/
structure Covers (storage : Storage) (wallets : List String) (limit : ℕ)
    (pages : List (List TransactionInfo)) : Prop where
  served : ∀ params now k (h : k < pages.length), limitOf params = limit → pageOf params = k+1 →
    getWalletTransactions storage wallets params now = .ok (.success now pages[k])
  complete : pages.flatten.Perm (ofWallet storage (wallets.head?.getD ""))
  ordered : pages.flatten.Pairwise NewestFirst
  beyond : ∀ params now response, limitOf params = limit → pages.length < pageOf params →
    getWalletTransactions storage wallets params now = .ok response → response.data = some []

theorem numberOf_lt (params : String → Option String) (name : String) {default : ℕ}
    (h : default < 2^64) : numberOf params name default < 2^64 := by
  unfold numberOf
  split
  · exact h
  · split
    · next hparse => exact (DecimalText.parseUnsigned_ok.mp hparse).2
    · exact h

theorem sorted_ordered (storage : Storage) (walletAddress : String) :
    (sorted storage walletAddress).Pairwise NewestFirst := by
  have hsorted : Ranking.GreatestFirst (fun tx => tx.timestamp.toNat)
      (sorted storage walletAddress) :=
    Ranking.mergeSort_greatestFirst _ fun _ _ _ _ => decide_eq_decide.mpr UInt64.le_iff_toNat_le
  exact hsorted.imp UInt64.le_iff_toNat_le.mpr

theorem length_sorted (storage : Storage) (walletAddress : String) :
    (sorted storage walletAddress).length < 2^63 := by
  rw [sorted,List.length_mergeSort,ofWallet,List.length_map]
  exact (List.length_filter_le _ _).trans_lt storage.fits

theorem covers_pages (storage : Storage) (wallets : List String) {limit count : ℕ}
    (hfits : count*limit < 2^64)
    (hall : (sorted storage (wallets.head?.getD "")).length ≤ count*limit) :
    Covers storage wallets limit (pages (sorted storage (wallets.head?.getD "")) limit count) where
  served := by
    rintro params now k h rfl hpage
    rw [length_pages] at h
    have hlast : (k+1)*limitOf params ≤ count*limitOf params := Nat.mul_le_mul_right _ h
    refine Checked.bind_ok.mpr ⟨_,paged_ok.mpr ⟨⟨by omega,?_⟩,rfl⟩,?_⟩
    · rw [hpage]
      exact hlast.trans_lt hfits
    · rw [getElem_pages,hpage]
      rfl
  complete := by
    rw [flatten_pages,List.take_of_length_le hall]
    exact List.mergeSort_perm _ _
  ordered := by
    rw [flatten_pages,List.take_of_length_le hall]
    exact sorted_ordered storage _
  beyond := by
    rintro params now response rfl hbeyond h
    obtain ⟨data,hdata,hresponse⟩ := Checked.bind_ok.mp h
    rw [length_pages] at hbeyond
    have hlast : count*limitOf params ≤ (pageOf params-1)*limitOf params :=
      Nat.mul_le_mul_right _ (by omega)
    rw [(paged_ok.mp hdata).2,page_beyond (hall.trans hlast)] at hresponse
    cases hresponse
    rfl

/-- A request is served unless its page is 0 or ends beyond `2^64`, and the pages of one
length are all transactions of the wallet, newest first. -/
theorem transactions_paged (storage : Storage) (wallets : List String)
    (params : String → Option String) (now : UInt64) :
    (Served storage wallets params now ↔
      1 ≤ pageOf params ∧ pageOf params*limitOf params < 2^64) ∧
    (1 ≤ limitOf params → ∃ pages, Covers storage wallets (limitOf params) pages) := by
  refine ⟨served_iff storage wallets params now,fun hpos => ?_⟩
  have hlimit : limitOf params < 2^64 := numberOf_lt params "limit" (by decide)
  have hlength := length_sorted storage (wallets.head?.getD "")
  have hhalf : 2*(sorted storage (wallets.head?.getD "")).length ≤ 2^64 := by omega
  obtain ⟨count,hfits,hall⟩ := exists_covering hpos hlimit hhalf
  exact ⟨_,covers_pages storage wallets hfits hall⟩

def queryOf (page limit name : String) : Option String :=
  if name = "page" then some page else if name = "limit" then some limit else none

def twoTransfers : Storage where
  allTransactions := [⟨"0x01",1,10,"0xaa","0xbb","5",21000,"1",true⟩,
    ⟨"0x02",2,20,"0xbb","0xaa","7",21000,"1",false⟩]
  fits := by decide

theorem transactions_paged_by_one : ∃ pages, Covers twoTransfers ["0xaa"] 1 pages :=
  (transactions_paged twoTransfers ["0xaa"] (queryOf "1" "1") 0).2 (by decide)

/-- The page 0 is computed by an underflow. -/
theorem transactions_paged_counterexample :
    ¬Served twoTransfers ["0xaa"] (queryOf "0" "10") 0 := by
  rw [served_iff]
  exact fun h => absurd h.1 (by decide)

end DiamondBot.WalletTransactions
