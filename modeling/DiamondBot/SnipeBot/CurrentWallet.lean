import DiamondBot.Library.AtomicCalls
import DiamondBot.Library.AtomicRun
import DiamondBot.SnipeBot.AutoTrade
import DiamondBot.Wallet.SecureStorage

/-!
# The wallet that is shown and the wallet that signs

The bot keeps its current wallet in three places: the stored description, an
address, and the signer installed in the chain adapter. Three operations change
them, with calls in between that can fail. The wallet manager, the connection to
a chain and the text form of addresses are parameters; what they answer is open,
and depends on the world at the time of the call.
-/

set_option autoImplicit false

namespace DiamondBot.CurrentWallet
open Library AutoTrade
open Wallet (WalletInfo)

structure SafeWalletView where
  address : String
  chainId : ℕ
  createdAt : ℕ
  lastUsed : ℕ
  balance : Option String
  hasPrivateKey : Bool
  hasMnemonic : Bool
  name : Option String
  tags : List String
  isHardware : Bool

inductive ChainName
  | ethereum
  | bsc
  | base
  | avalanche
  | monad
  deriving DecidableEq

/-- Addresses and their texts, the signers of a wallet, the wallet manager and the chains.
`display` is the debug text of an address. -/
structure WalletLibrary (Address LocalWallet World : Type) where
  addressFromStr : String → Except String Address
  display : Address → String
  address : LocalWallet → Address
  createNewWallet : World → Except String SafeWalletView
  saveWallets : World → Except String Unit
  getWalletByAddress : World → String → Option WalletInfo
  toLocalWallet : World → WalletInfo → Except String LocalWallet
  connect : World → ChainName → Except String Unit

variable {Address LocalWallet World : Type}

namespace WalletLibrary

/-- An address reads back, a wallet found has the address asked for, and the signer made of
a description has its address. -/
structure Lawful (library : WalletLibrary Address LocalWallet World) : Prop where
  reads_display : ∀ a, library.addressFromStr (library.display a) = .ok a
  finds : ∀ w address info, library.getWalletByAddress w address = some info →
    library.addressFromStr info.address = library.addressFromStr address
  signs : ∀ w info wallet, library.toLocalWallet w info = .ok wallet →
    library.addressFromStr info.address = .ok (library.address wallet)

end WalletLibrary

structure ChainAdapter (LocalWallet : Type) where
  chain : ChainName
  wallet : Option LocalWallet

def ChainAdapter.setWallet (adapter : ChainAdapter LocalWallet) (wallet : LocalWallet) :
    ChainAdapter LocalWallet :=
  { adapter with wallet := some wallet }

structure SnipeBot (LocalWallet : Type) where
  chainAdapter : ChainAdapter LocalWallet
  currentWalletInfo : Option WalletInfo
  currentWalletAddress : Option String
  botMode : BotMode
  routerAddress : String
  defaultGasLimit : ℕ

namespace SnipeBot

variable (library : WalletLibrary Address LocalWallet World)

def chainNamed (chainName : String) : Except String ChainName :=
  match chainName.toLower with
  | "ethereum" => .ok .ethereum
  | "bsc" => .ok .bsc
  | "base" => .ok .base
  | "avalanche" => .ok .avalanche
  | "monad" => .ok .monad
  | _ => .error ("Unsupported chain: "++chainName)

def createChainAdapter (w : World) (chainName : String) :
    Except String (ChainAdapter LocalWallet) := do
  let chain ← chainNamed chainName
  library.connect w chain
  return ⟨chain,none⟩

def validateWalletAddress (address : String) : Except String Unit :=
  match library.addressFromStr address with
  | .ok _ => .ok ()
  | .error e => .error ("Địa chỉ ví không hợp lệ: "++e)

def switchChain (s : SnipeBot LocalWallet) (w : World) (chainName : String) :
    Except String Unit × SnipeBot LocalWallet :=
  match createChainAdapter library w chainName with
  | .error e => (.error e,s)
  | .ok newAdapter =>
    match s.currentWalletInfo with
    | some walletInfo =>
      match library.toLocalWallet w walletInfo with
      | .error e => (.error e,s)
      | .ok wallet => (.ok (),{ s with chainAdapter := newAdapter.setWallet wallet })
    | none => (.ok (),{ s with chainAdapter := newAdapter })

def switchWallet (s : SnipeBot LocalWallet) (w : World) (address : String) :
    Except String Unit × SnipeBot LocalWallet :=
  match validateWalletAddress library address with
  | .error e => (.error e,s)
  | .ok () =>
    match library.getWalletByAddress w address with
    | none => (.error ("Không tìm thấy ví với địa chỉ "++address),s)
    | some walletInfo =>
      let chosen := { s with
        currentWalletInfo := some walletInfo
        currentWalletAddress := some address }
      match library.toLocalWallet w walletInfo with
      | .error e => (.error e,chosen)
      | .ok wallet => (.ok (),{ chosen with chainAdapter := s.chainAdapter.setWallet wallet })

def createAndSwitchWallet (s : SnipeBot LocalWallet) (w : World) :
    Except String SafeWalletView × SnipeBot LocalWallet :=
  match library.createNewWallet w with
  | .error e => (.error e,s)
  | .ok walletView =>
    match library.saveWallets w with
    | .error e => (.error e,s)
    | .ok () =>
      match library.getWalletByAddress w walletView.address with
      | none => (.error "Không tìm thấy ví vừa tạo",s)
      | some walletInfo =>
        match library.toLocalWallet w walletInfo with
        | .error e => (.error e,s)
        | .ok wallet => (.ok walletView,{ s with
            chainAdapter := s.chainAdapter.setWallet wallet
            currentWalletAddress := some walletView.address })

def getCurrentWalletAddress (s : SnipeBot LocalWallet) : String :=
  match s.currentWalletInfo with
  | some walletInfo => walletInfo.address
  | none =>
    match s.chainAdapter.wallet with
    | some wallet => library.display (library.address wallet)
    | none => "0x0000000000000000000000000000000000000000"

end SnipeBot

/-! ## Selling by hand -/

def u64Max : ℕ := 2^64-1
def u256Max : ℕ := 2^256-1

def saturatingMul (a b : ℕ) : ℕ := min (a*b) u256Max

structure SnipeResult where
  transactionHash : Option String
  success : Bool
  tokenAddress : String
  amountIn : String
  estimatedAmountOut : Option String
  error : Option String
  timestamp : ℕ

/-- The calls of the chain adapter and of the storage. -/
inductive SellCommand
  | getTokenBalance (tokenAddress account : String)
  | getGasPrice
  | checkTokenAllowance (tokenAddress spender account : String)
  | approveToken (tokenAddress spender : String) (amount gasLimit gasPrice : ℕ)
  | swapExactTokensForEth (tokenAddress : String) (amountIn minAmountOut : ℕ)
      (recipient : String) (deadline gasLimit gasPrice : ℕ)
  | addTransaction (result : SnipeResult)

namespace SellCommand

def Reply : SellCommand → Type
  | getTokenBalance .. => ℕ
  | getGasPrice => ℕ
  | checkTokenAllowance .. => ℕ
  | approveToken .. => Unit
  | swapExactTokensForEth .. => Option String
  | addTransaction _ => Unit

def accounts : SellCommand → List String
  | getTokenBalance _ account => [account]
  | checkTokenAllowance _ _ account => [account]
  | swapExactTokensForEth _ _ _ recipient _ _ _ => [recipient]
  | _ => []

end SellCommand

abbrev selling : Interface where
  Command := SellCommand
  Reply := SellCommand.Reply
  Clock := Option ℕ

abbrev Sell (A : Type) := Call selling A

namespace Sell

def send (c : SellCommand) : Sell c.Reply := Call.send (I := selling) c

def sendOr (text : String) (c : SellCommand) : Sell c.Reply :=
  .command c fun reply => .done (reply.mapError (text++·))

def attempt (c : SellCommand) : Sell Unit := .command c fun _ => .done (.ok ())

def now : Sell (Option ℕ) := Call.now

def ensure (condition : Bool) (text : String) : Sell Unit :=
  .done (if condition then .ok () else .error text)

/-- `as_u64` panics on a larger number. -/
def asU64 (n : ℕ) : Sell ℕ :=
  .done (if n ≤ u64Max then .ok n else .error "Integer overflow when casting to u64")

end Sell

namespace SnipeBot

variable (library : WalletLibrary Address LocalWallet World)

def approveFor (s : SnipeBot LocalWallet) (tokenAddress : String)
    (allowance amountToSell gasPrice : ℕ) : Sell Unit :=
  if allowance < amountToSell then do
    let price ← Sell.asU64 gasPrice
    Sell.sendOr "Không thể approve token: "
      (.approveToken tokenAddress s.routerAddress u256Max s.defaultGasLimit price)
  else Call.done (.ok ())

def sellResult (tokenAddress : String) (amountToSell : ℕ) (receipt : Option String)
    (timestamp : ℕ) : SnipeResult where
  transactionHash := receipt
  success := receipt.isSome
  tokenAddress
  amountIn := toString amountToSell
  estimatedAmountOut := none
  error := if receipt.isNone then some "Giao dịch bán thất bại" else none
  timestamp

def manualSell (s : SnipeBot LocalWallet) (tokenAddress : String)
    (amountPercent gasPricePercent : ℕ) : Sell SnipeResult := do
  let account := s.getCurrentWalletAddress library
  Sell.ensure (s.botMode = .manual) "Chỉ có thể sử dụng manual_sell trong chế độ Manual"
  Sell.ensure (1 ≤ amountPercent ∧ amountPercent ≤ 100) "Phần trăm bán phải từ 1-100"
  let tokenBalance : ℕ ←
    Sell.sendOr "Không thể lấy số dư token: " (.getTokenBalance tokenAddress account)
  Sell.ensure (tokenBalance ≠ 0) "Không có token để bán"
  let amountToSell := saturatingMul tokenBalance amountPercent/100
  let networkPrice : ℕ ← Sell.send .getGasPrice
  let gasPrice := if gasPricePercent > 0 then saturatingMul networkPrice gasPricePercent/100
    else networkPrice
  let clock ← Sell.now
  let deadline := (clock.map (·+300)).getD (u64Max/2)
  let allowance : ℕ ← Sell.send (.checkTokenAllowance tokenAddress s.routerAddress account)
  s.approveFor tokenAddress allowance amountToSell gasPrice
  let price ← Sell.asU64 gasPrice
  let receipt : Option String ← Sell.send (.swapExactTokensForEth tokenAddress amountToSell 0 account deadline
    s.defaultGasLimit price)
  let clock ← Sell.now
  let result := sellResult tokenAddress amountToSell receipt (clock.getD 0)
  Sell.attempt (.addTransaction result)
  return result

/-! ## Whose wallet is shown -/

def OfSigner (s : SnipeBot LocalWallet) (text : String) : Prop :=
  ∃ wallet, s.chainAdapter.wallet = some wallet ∧
    library.addressFromStr text = .ok (library.address wallet)

/-- What is shown, and each place that is set, names the installed signer. -/
structure Agree (s : SnipeBot LocalWallet) : Prop where
  shown : s.OfSigner library (s.getCurrentWalletAddress library)
  address : ∀ text, s.currentWalletAddress = some text → s.OfSigner library text
  info : ∀ walletInfo, s.currentWalletInfo = some walletInfo →
    s.OfSigner library walletInfo.address

/-- Every account a sale reads or pays is the signer's. -/
def SellsOwn (s : SnipeBot LocalWallet) : Prop :=
  ∀ tokenAddress amountPercent gasPricePercent,
    (s.manualSell library tokenAddress amountPercent gasPricePercent).Sends
      fun c : SellCommand => ∀ account ∈ c.accounts, s.OfSigner library account

theorem done_sends {A : Type} {allowed : SellCommand → Prop} (result : Except String A) :
    (Call.done result : Sell A).Sends allowed := Call.sends_done result

theorem command_sends {A : Type} {allowed : SellCommand → Prop} {c : SellCommand}
    {f : Except String c.Reply → Except String A} (h : allowed c) :
    (Call.command c fun reply => .done (f reply) : Sell A).Sends allowed :=
  ⟨h,fun _ => Call.sends_done _,fun _ _ => Call.sends_done _⟩

theorem approveFor_sends (s : SnipeBot LocalWallet) {allowed : SellCommand → Prop}
    (h : ∀ tokenAddress spender amount gasLimit gasPrice,
      allowed (.approveToken tokenAddress spender amount gasLimit gasPrice))
    (tokenAddress : String) (allowance amountToSell gasPrice : ℕ) :
    (s.approveFor tokenAddress allowance amountToSell gasPrice).Sends allowed := by
  unfold approveFor
  split
  · apply Call.sends_bind (done_sends _)
    intro price
    exact command_sends (h _ _ _ _ _)
  · exact done_sends _

/-- A sale names one account, the one that is shown. -/
theorem manualSell_sends (s : SnipeBot LocalWallet) (tokenAddress : String)
    (amountPercent gasPricePercent : ℕ) :
    (s.manualSell library tokenAddress amountPercent gasPricePercent).Sends
      fun c : SellCommand => ∀ account ∈ c.accounts, account = s.getCurrentWalletAddress library := by
  unfold manualSell
  apply Call.sends_bind (done_sends _)
  intro _
  apply Call.sends_bind (done_sends _)
  intro _
  apply Call.sends_bind (command_sends (by simp [SellCommand.accounts]))
  intro tokenBalance
  apply Call.sends_bind (done_sends _)
  intro _
  apply Call.sends_bind (Call.sends_send (by simp [SellCommand.accounts]))
  intro networkPrice
  apply Call.sends_now
  intro clock
  apply Call.sends_bind (Call.sends_send (by simp [SellCommand.accounts]))
  intro allowance
  apply Call.sends_bind (approveFor_sends s (by simp [SellCommand.accounts]) _ _ _ _)
  intro _
  apply Call.sends_bind (done_sends _)
  intro price
  apply Call.sends_bind (Call.sends_send (by simp [SellCommand.accounts]))
  intro receipt
  apply Call.sends_now
  intro later
  apply Call.sends_bind (command_sends (by simp [SellCommand.accounts]))
  intro _
  exact done_sends _

theorem agree_sellsOwn {s : SnipeBot LocalWallet} (h : s.Agree library) : s.SellsOwn library := by
  intro tokenAddress amountPercent gasPricePercent
  apply Call.sends_mono (manualSell_sends library s tokenAddress amountPercent gasPricePercent)
  intro c hshown account haccount
  rw [hshown account haccount]
  exact h.shown

/-! ## Switching chains and wallets -/

inductive Action (World : Type)
  | switchChain (w : World) (chainName : String)
  | switchWallet (w : World) (address : String)
  | createAndSwitchWallet (w : World)

def next (s : SnipeBot LocalWallet) : Action World → SnipeBot LocalWallet
  | .switchChain w chainName => (s.switchChain library w chainName).2
  | .switchWallet w address => (s.switchWallet library w address).2
  | .createAndSwitchWallet w => (s.createAndSwitchWallet library w).2

def Creates (w : World)
    (walletView : SafeWalletView) (walletInfo : WalletInfo) (wallet : LocalWallet) : Prop :=
  library.createNewWallet w = .ok walletView ∧ library.saveWallets w = .ok () ∧
    library.getWalletByAddress w walletView.address = some walletInfo ∧
    library.toLocalWallet w walletInfo = .ok wallet

/-- The chain is not switched without a stored description; a wallet that is chosen can
sign, or is the signer's; a wallet that is created takes the place of no other. -/
def KeepsAgreement (s : SnipeBot LocalWallet) : Action World → Prop
  | .switchChain w chainName => s.currentWalletInfo = none →
    ∀ adapter : ChainAdapter LocalWallet, createChainAdapter library w chainName ≠ .ok adapter
  | .switchWallet w address => ∀ walletInfo e, validateWalletAddress library address = .ok () →
    library.getWalletByAddress w address = some walletInfo →
    library.toLocalWallet w walletInfo = .error e → s.OfSigner library address
  | .createAndSwitchWallet w => ∀ walletView walletInfo wallet,
    Creates library w walletView walletInfo wallet →
    s.currentWalletInfo = none ∨ s.OfSigner library walletView.address

/-- A switched chain has the signer it had. -/
def ReinstallsSigner (s : SnipeBot LocalWallet) : Action World → Prop
  | .switchChain w chainName =>
    (s.switchChain library w chainName).2.chainAdapter.wallet.map library.address =
      s.chainAdapter.wallet.map library.address
  | _ => True

theorem ofSigner_iff {s : SnipeBot LocalWallet} {wallet : LocalWallet}
    (h : s.chainAdapter.wallet = some wallet) (text : String) :
    s.OfSigner library text ↔ library.addressFromStr text = .ok (library.address wallet) := by
  unfold OfSigner
  simp [h]

theorem created_wallet {w : World} {chainName : String} {adapter : ChainAdapter LocalWallet}
    (h : createChainAdapter library w chainName = .ok adapter) : adapter.wallet = none := by
  unfold createChainAdapter at h
  cases hchain : chainNamed chainName with
  | error e => simp [hchain,bind,Except.bind] at h
  | ok chain =>
    cases hconnect : library.connect w chain with
    | error e => simp [hchain,hconnect,bind,Except.bind] at h
    | ok u =>
      simp [hchain,hconnect,bind,Except.bind,pure,Except.pure] at h
      rw [← h]

variable {library}

theorem agree_of {s : SnipeBot LocalWallet} {wallet : LocalWallet} (hlawful : library.Lawful)
    (hwallet : s.chainAdapter.wallet = some wallet)
    (haddress : ∀ text, s.currentWalletAddress = some text →
      library.addressFromStr text = .ok (library.address wallet))
    (hinfo : ∀ walletInfo, s.currentWalletInfo = some walletInfo →
      library.addressFromStr walletInfo.address = .ok (library.address wallet)) :
    s.Agree library where
  shown := by
    rw [ofSigner_iff library hwallet]
    unfold getCurrentWalletAddress
    cases hcurrent : s.currentWalletInfo with
    | some walletInfo => exact hinfo walletInfo hcurrent
    | none =>
      simp only [hwallet]
      exact hlawful.reads_display _
  address text htext := (ofSigner_iff library hwallet text).mpr (haddress text htext)
  info walletInfo hcurrent :=
    (ofSigner_iff library hwallet walletInfo.address).mpr (hinfo walletInfo hcurrent)

theorem agree_wallet {s : SnipeBot LocalWallet} (h : s.Agree library) :
    ∃ wallet, s.chainAdapter.wallet = some wallet := by
  obtain ⟨wallet,hwallet,_⟩ := h.shown
  exact ⟨wallet,hwallet⟩

/-! ### What each operation does -/

theorem switchChain_cases (library : WalletLibrary Address LocalWallet World)
    (s : SnipeBot LocalWallet) (w : World) (chainName : String) :
    ((s.switchChain library w chainName).2 = s ∧ (s.currentWalletInfo = none →
      ∀ adapter : ChainAdapter LocalWallet, createChainAdapter library w chainName ≠ .ok adapter)) ∨
    (∃ adapter : ChainAdapter LocalWallet, createChainAdapter library w chainName = .ok adapter ∧
      s.currentWalletInfo = none ∧
      (s.switchChain library w chainName).2 = { s with chainAdapter := adapter }) ∨
    ∃ (adapter : ChainAdapter LocalWallet) (walletInfo : WalletInfo) (wallet : LocalWallet),
      s.currentWalletInfo = some walletInfo ∧ library.toLocalWallet w walletInfo = .ok wallet ∧
      (s.switchChain library w chainName).2 = { s with chainAdapter := adapter.setWallet wallet } := by
  unfold switchChain
  cases hcreated : (createChainAdapter library w chainName : Except String (ChainAdapter LocalWallet)) with
  | error e => exact .inl ⟨rfl,fun _ _ => by simp⟩
  | ok adapter =>
    cases hcurrent : s.currentWalletInfo with
    | none => exact .inr (.inl ⟨adapter,rfl,rfl,rfl⟩)
    | some walletInfo =>
      dsimp only
      cases hlocal : library.toLocalWallet w walletInfo with
      | error e => exact .inl ⟨rfl,fun hnone => by simp at hnone⟩
      | ok wallet => exact .inr (.inr ⟨adapter,walletInfo,wallet,rfl,hlocal,rfl⟩)

theorem switchWallet_cases (library : WalletLibrary Address LocalWallet World)
    (s : SnipeBot LocalWallet) (w : World) (address : String) :
    ((s.switchWallet library w address).2 = s ∧ ∀ walletInfo,
      validateWalletAddress library address = .ok () →
        library.getWalletByAddress w address ≠ some walletInfo) ∨
    ∃ walletInfo, validateWalletAddress library address = .ok () ∧
      library.getWalletByAddress w address = some walletInfo ∧
      ((∃ e, library.toLocalWallet w walletInfo = .error e) ∧
        (s.switchWallet library w address).2 = { s with
          currentWalletInfo := some walletInfo
          currentWalletAddress := some address } ∨
      ∃ wallet, library.toLocalWallet w walletInfo = .ok wallet ∧
        (s.switchWallet library w address).2 = { s with
          currentWalletInfo := some walletInfo
          currentWalletAddress := some address
          chainAdapter := s.chainAdapter.setWallet wallet }) := by
  unfold switchWallet
  cases hvalid : validateWalletAddress library address with
  | error e => exact .inl ⟨rfl,fun _ hok => by simp at hok⟩
  | ok u =>
    cases hfound : library.getWalletByAddress w address with
    | none => exact .inl ⟨rfl,fun _ _ => by simp⟩
    | some walletInfo =>
      refine .inr ⟨walletInfo,rfl,rfl,?_⟩
      dsimp only
      cases hlocal : library.toLocalWallet w walletInfo with
      | error e => exact .inl ⟨⟨e,rfl⟩,rfl⟩
      | ok wallet => exact .inr ⟨wallet,rfl,rfl⟩

theorem createAndSwitchWallet_cases (library : WalletLibrary Address LocalWallet World)
    (s : SnipeBot LocalWallet) (w : World) :
    ((s.createAndSwitchWallet library w).2 = s ∧
      ∀ walletView walletInfo wallet, ¬Creates library w walletView walletInfo wallet) ∨
    ∃ walletView walletInfo wallet, Creates library w walletView walletInfo wallet ∧
      (s.createAndSwitchWallet library w).2 = { s with
        chainAdapter := s.chainAdapter.setWallet wallet
        currentWalletAddress := some walletView.address } := by
  unfold createAndSwitchWallet Creates
  cases hnew : library.createNewWallet w with
  | error e => exact .inl ⟨rfl,by simp⟩
  | ok walletView =>
    cases hsaved : library.saveWallets w with
    | error e => exact .inl ⟨rfl,by simp⟩
    | ok u =>
      dsimp only
      cases hfound : library.getWalletByAddress w walletView.address with
      | none =>
        refine .inl ⟨rfl,?_⟩
        rintro view walletInfo wallet ⟨hok,_,hsome,_⟩
        obtain rfl := Except.ok.inj hok
        rw [hfound] at hsome
        simp at hsome
      | some walletInfo =>
        dsimp only
        cases hlocal : library.toLocalWallet w walletInfo with
        | error e =>
          refine .inl ⟨rfl,?_⟩
          rintro view other wallet ⟨hok,_,hsome,hwallet⟩
          obtain rfl := Except.ok.inj hok
          rw [hfound] at hsome
          obtain rfl := Option.some.inj hsome
          rw [hlocal] at hwallet
          simp at hwallet
        | ok wallet => exact .inr ⟨walletView,walletInfo,wallet,⟨rfl,rfl,hfound,hlocal⟩,rfl⟩

theorem creates_unique {w : World} {walletView walletView' : SafeWalletView}
    {walletInfo walletInfo' : WalletInfo} {wallet wallet' : LocalWallet}
    (h : Creates library w walletView walletInfo wallet)
    (h' : Creates library w walletView' walletInfo' wallet') : walletView = walletView' := by
  have hsame := h.1.symm.trans h'.1
  exact Except.ok.inj hsame

/-! ### The agreement over runs -/

theorem agree_signer {s : SnipeBot LocalWallet} (h : s.Agree library) :
    ∃ signer, s.chainAdapter.wallet = some signer ∧
      (∀ text, s.currentWalletAddress = some text →
        library.addressFromStr text = .ok (library.address signer)) ∧
      ∀ walletInfo, s.currentWalletInfo = some walletInfo →
        library.addressFromStr walletInfo.address = .ok (library.address signer) := by
  obtain ⟨signer,hsigner⟩ := agree_wallet h
  refine ⟨signer,hsigner,fun text htext => ?_,fun walletInfo hinfo => ?_⟩
  · exact (ofSigner_iff library hsigner text).mp (h.address text htext)
  · exact (ofSigner_iff library hsigner _).mp (h.info walletInfo hinfo)

theorem switchChain_agree (hlawful : library.Lawful) {s : SnipeBot LocalWallet}
    (h : s.Agree library) (w : World) (chainName : String) :
    ((s.switchChain library w chainName).2.Agree library ↔
      s.KeepsAgreement library (.switchChain w chainName)) ∧
    ((s.switchChain library w chainName).2.Agree library →
      (s.switchChain library w chainName).2.chainAdapter.wallet.map library.address =
        s.chainAdapter.wallet.map library.address) := by
  obtain ⟨signer,hsigner,haddress,hinfo⟩ := agree_signer h
  rcases switchChain_cases library s w chainName with
    ⟨hsame,hkept⟩ | ⟨adapter,hcreated,hnone,hnext⟩ | ⟨adapter,walletInfo,wallet,hsome,hlocal,hnext⟩
  · rw [hsame]
    exact ⟨iff_of_true h hkept,fun _ => rfl⟩
  · -- the new adapter has no signer
    have hnot : ¬(s.switchChain library w chainName).2.Agree library := by
      intro hagree
      obtain ⟨wallet,hwallet⟩ := agree_wallet hagree
      rw [hnext] at hwallet
      change adapter.wallet = some wallet at hwallet
      rw [created_wallet library hcreated] at hwallet
      simp at hwallet
    refine ⟨iff_of_false hnot fun hkept => ?_,fun hagree => absurd hagree hnot⟩
    exact hkept hnone adapter hcreated
  · have haddresses : library.address wallet = library.address signer := by
      have hsigns := hlawful.signs w walletInfo wallet hlocal
      rw [hinfo walletInfo hsome] at hsigns
      exact (Except.ok.inj hsigns).symm
    have hwallet : (adapter.setWallet wallet).wallet = some wallet := rfl
    rw [hnext]
    refine ⟨iff_of_true ?_ fun hnone => ?_,fun _ => ?_⟩
    · apply agree_of hlawful hwallet
      · rw [haddresses]
        exact haddress
      · rw [haddresses]
        exact hinfo
    · rw [hsome] at hnone
      simp at hnone
    · simp only [hwallet,hsigner,Option.map_some,haddresses]

theorem switchWallet_agree (hlawful : library.Lawful) {s : SnipeBot LocalWallet}
    (h : s.Agree library) (w : World) (address : String) :
    (s.switchWallet library w address).2.Agree library ↔
      s.KeepsAgreement library (.switchWallet w address) := by
  obtain ⟨signer,hsigner,_,_⟩ := agree_signer h
  rcases switchWallet_cases library s w address with
    ⟨hsame,hnone⟩ | ⟨walletInfo,hvalid,hfound,hlocal⟩
  · rw [hsame]
    exact iff_of_true h fun walletInfo _ hvalid hfound _ => absurd hfound (hnone walletInfo hvalid)
  · have hfinds := hlawful.finds w address walletInfo hfound
    rcases hlocal with ⟨⟨e,herror⟩,hnext⟩ | ⟨wallet,hok,hnext⟩
    · -- the wallet is chosen and the signer is the old one
      rw [hnext]
      constructor
      · intro hagree _ _ _ _ _
        exact hagree.address address rfl
      · intro hkept
        have hof := hkept walletInfo e hvalid hfound herror
        have hread := (ofSigner_iff library hsigner address).mp hof
        refine agree_of (s := { s with
          currentWalletInfo := some walletInfo
          currentWalletAddress := some address }) hlawful hsigner ?_ ?_
        · rintro text ⟨rfl⟩
          exact hread
        · rintro other ⟨rfl⟩
          rwa [hfinds]
    · have hsigns := hlawful.signs w walletInfo wallet hok
      have hwallet : (s.chainAdapter.setWallet wallet).wallet = some wallet := rfl
      rw [hnext]
      refine iff_of_true ?_ fun other e _ hsome herror => ?_
      · apply agree_of hlawful hwallet
        · rintro text ⟨rfl⟩
          rwa [← hfinds]
        · rintro other ⟨rfl⟩
          exact hsigns
      · rw [hfound] at hsome
        obtain rfl := Option.some.inj hsome
        rw [hok] at herror
        simp at herror

theorem createAndSwitchWallet_agree (hlawful : library.Lawful) {s : SnipeBot LocalWallet}
    (h : s.Agree library) (w : World) :
    (s.createAndSwitchWallet library w).2.Agree library ↔
      s.KeepsAgreement library (.createAndSwitchWallet w) := by
  obtain ⟨signer,hsigner,haddress,hinfo⟩ := agree_signer h
  rcases createAndSwitchWallet_cases library s w with
    ⟨hsame,hnone⟩ | ⟨walletView,walletInfo,wallet,hcreates,hnext⟩
  · rw [hsame]
    exact iff_of_true h fun view info wallet hcreates => absurd hcreates (hnone view info wallet)
  · have hread : library.addressFromStr walletView.address = .ok (library.address wallet) := by
      rw [← hlawful.finds w walletView.address walletInfo hcreates.2.2.1]
      exact hlawful.signs w walletInfo wallet hcreates.2.2.2
    have hwallet : (s.chainAdapter.setWallet wallet).wallet = some wallet := rfl
    rw [hnext]
    constructor
    · intro hagree view info other hcreates'
      obtain rfl := creates_unique hcreates hcreates'
      cases hcurrent : s.currentWalletInfo with
      | none => exact .inl rfl
      | some current =>
        -- the old description must name the new signer
        have hnew := (ofSigner_iff (s := { s with
          chainAdapter := s.chainAdapter.setWallet wallet
          currentWalletAddress := some walletView.address }) library hwallet _).mp
          (hagree.info current hcurrent)
        refine .inr ((ofSigner_iff library hsigner _).mpr ?_)
        rw [hread,← hnew]
        exact hinfo current hcurrent
    · intro hkept
      apply agree_of hlawful hwallet
      · rintro text ⟨rfl⟩
        exact hread
      · intro current hcurrent
        rcases hkept walletView walletInfo wallet hcreates with hnone | hof
        · change s.currentWalletInfo = some current at hcurrent
          rw [hnone] at hcurrent
          simp at hcurrent
        · have hold := (ofSigner_iff library hsigner _).mp hof
          rw [hread] at hold
          rw [Except.ok.inj hold]
          exact hinfo current hcurrent

theorem next_agree_iff (hlawful : library.Lawful) {s : SnipeBot LocalWallet} (a : Action World)
    (h : s.Agree library) : (s.next library a).Agree library ↔ s.KeepsAgreement library a := by
  cases a with
  | switchChain w chainName => exact (switchChain_agree hlawful h w chainName).1
  | switchWallet w address => exact switchWallet_agree hlawful h w address
  | createAndSwitchWallet w => exact createAndSwitchWallet_agree hlawful h w

theorem next_reinstalls (hlawful : library.Lawful) {s : SnipeBot LocalWallet} (a : Action World)
    (h : s.Agree library) (hnext : (s.next library a).Agree library) :
    s.ReinstallsSigner library a := by
  cases a with
  | switchChain w chainName => exact (switchChain_agree hlawful h w chainName).2 hnext
  | switchWallet w address => trivial
  | createAndSwitchWallet w => trivial

/-- In every run from a bot that agrees, what is shown stays the signer's, sales use the
signer's accounts and switched chains keep the signer, exactly when no operation breaks the
agreement. -/
theorem shown_wallet_signs_iff (library : WalletLibrary Address LocalWallet World)
    (hlawful : library.Lawful) (s : SnipeBot LocalWallet) (h : s.Agree library)
    (actions : List (Action World)) :
    (AtomicRun.Throughout (next library) (fun s => s.Agree library ∧ s.SellsOwn library) actions s ∧
      AtomicRun.Along (next library) (ReinstallsSigner library) actions s) ↔
    AtomicRun.Along (next library) (KeepsAgreement library) actions s := by
  have hagree : AtomicRun.Throughout (next library) (Agree library) actions s ↔ _ :=
    AtomicRun.throughout_iff_along (J := fun _ => True) (fun _ _ _ => trivial)
      (fun _ a _ hs => next_agree_iff hlawful a hs) trivial h
  rw [← hagree]
  constructor
  · rintro ⟨hall,_⟩
    exact AtomicRun.throughout_mono (fun _ hs => hs.1) hall
  · intro hall
    refine ⟨AtomicRun.throughout_mono (fun _ hs => ⟨hs,agree_sellsOwn library hs⟩) hall,?_⟩
    exact AtomicRun.along_of_throughout (J := fun _ => True) (Q := Agree library)
      (fun _ _ _ => trivial) (fun _ a _ hs hnext => next_reinstalls hlawful a hs hnext) trivial hall

/-! ### A bot with one wallet -/

def walletAt (address : String) : WalletInfo :=
  ⟨address,none,none,56,0,0,none,none,[],false⟩

def plainLibrary : WalletLibrary String String Bool where
  addressFromStr := .ok
  display := id
  address := id
  createNewWallet _ := .ok ⟨"0xbb",56,0,0,none,true,true,none,[],false⟩
  saveWallets _ := .ok ()
  getWalletByAddress _ address := some (walletAt address)
  toLocalWallet w walletInfo :=
    if w then .ok walletInfo.address else .error "Wallet does not have a private key"
  connect _ _ := .ok ()

theorem plainLibrary_lawful : plainLibrary.Lawful where
  reads_display _ := rfl
  finds w address info h := by
    obtain rfl := Option.some.inj h
    rfl
  signs w info wallet h := by
    cases w with
    | false => simp [plainLibrary] at h
    | true =>
      obtain rfl := Except.ok.inj h
      rfl

def oneWallet : SnipeBot String where
  chainAdapter := ⟨.bsc,some "0xaa"⟩
  currentWalletInfo := some (walletAt "0xaa")
  currentWalletAddress := none
  botMode := .manual
  routerAddress := "0xcc"
  defaultGasLimit := 500000

theorem oneWallet_agree : oneWallet.Agree plainLibrary := by
  apply agree_of (s := oneWallet) plainLibrary_lawful rfl
  · intro text htext
    simp [oneWallet] at htext
  · rintro walletInfo ⟨rfl⟩
    rfl

/-- A chosen wallet that can sign, the same wallet once more, and another chain. -/
def orderly : List (Action Bool) :=
  [.switchWallet true "0xdd",.switchWallet false "0xdd",.switchChain true "Ethereum"]

theorem shown_wallet_signs_orderly :
    AtomicRun.Throughout (next plainLibrary)
        (fun s => s.Agree plainLibrary ∧ s.SellsOwn plainLibrary) orderly oneWallet ∧
      AtomicRun.Along (next plainLibrary) (ReinstallsSigner plainLibrary) orderly oneWallet := by
  apply (shown_wallet_signs_iff plainLibrary plainLibrary_lawful oneWallet oneWallet_agree
    orderly).mpr
  refine ⟨?_,?_,?_,trivial⟩
  · intro walletInfo e _ _ herror
    simp [plainLibrary] at herror
  · intro walletInfo e _ _ _
    exact ⟨"0xdd",rfl,rfl⟩
  · intro hnone
    simp [next,switchWallet,oneWallet,plainLibrary,validateWalletAddress] at hnone

/-- A chosen wallet that cannot sign is shown, and a created wallet that signs is not. -/
theorem shown_wallet_differs :
    oneWallet.Agree plainLibrary ∧
    ¬AtomicRun.Throughout (next plainLibrary) (Agree plainLibrary)
      [.switchWallet false "0xdd"] oneWallet ∧
    ¬AtomicRun.Throughout (next plainLibrary) (Agree plainLibrary)
      [.createAndSwitchWallet true] oneWallet := by
  refine ⟨oneWallet_agree,fun hall => ?_,fun hall => ?_⟩
  · obtain ⟨wallet,hwallet,hread⟩ := (AtomicRun.throughout_last hall).shown
    obtain rfl := Option.some.inj hwallet
    exact absurd (Except.ok.inj hread) (by decide)
  · obtain ⟨wallet,hwallet,hread⟩ := (AtomicRun.throughout_last hall).shown
    obtain rfl := Option.some.inj hwallet
    exact absurd (Except.ok.inj hread) (by decide)

end SnipeBot

end DiamondBot.CurrentWallet
