import DiamondBot.Library.Binary64
import DiamondBot.Library.Checked
import DiamondBot.SnipeBot.CurrentWallet

/-!
# Amounts given by percentages

A sale by hand takes a percentage of a balance and of a gas price, and a swap takes a
percentage off the amount it expects.
-/

set_option autoImplicit false

namespace DiamondBot.CurrentWallet
open Library AutoTrade

variable {Address LocalWallet World : Type}

/-! ## Rules for the steps of a sale -/

namespace Sell

variable {allowed : SellCommand → Prop} {promised : (c : SellCommand) → c.Reply → Prop}

theorem ensure_obeys {condition : Bool} {text : String} {returns : Unit → Prop}
    (h : condition = true) :
    (ensure condition text).Obeys allowed promised returns ↔ returns () := by
  rw [h]
  rfl

theorem ensure_completes {condition : Bool} {text : String} {returns : Unit → Prop}
    (h : condition = true) : (ensure condition text).Completes promised returns ↔ returns () := by
  rw [h]
  rfl

theorem asU64_obeys {n : ℕ} {returns : ℕ → Prop} :
    (asU64 n).Obeys allowed promised returns ↔ (n ≤ u64Max → returns n) := by
  unfold asU64
  split
  · next h => exact ⟨fun h' _ => h',fun h' => h' h⟩
  · next h => exact iff_of_true trivial fun h' => absurd h' h

theorem asU64_completes {n : ℕ} {returns : ℕ → Prop} :
    (asU64 n).Completes promised returns ↔ n ≤ u64Max ∧ returns n := by
  unfold asU64
  split
  · next h => exact (and_iff_right h).symm
  · next h => exact iff_of_false id fun h' => h h'.1

theorem send_obeys {c : SellCommand} {returns : c.Reply → Prop} (h : allowed c) :
    (send c).Obeys allowed promised returns ↔ ∀ reply, promised c reply → returns reply :=
  (and_iff_right h).trans (and_iff_right fun _ => trivial)

theorem sendOr_obeys {c : SellCommand} {text : String} {returns : c.Reply → Prop}
    (h : allowed c) :
    (sendOr text c).Obeys allowed promised returns ↔ ∀ reply, promised c reply → returns reply :=
  (and_iff_right h).trans (and_iff_right fun _ => trivial)

theorem send_completes {c : SellCommand} {returns : c.Reply → Prop} :
    (send c).Completes promised returns ↔ ∀ reply, promised c reply → returns reply := Iff.rfl

theorem sendOr_completes {c : SellCommand} {text : String} {returns : c.Reply → Prop} :
    (sendOr text c).Completes promised returns ↔ ∀ reply, promised c reply → returns reply :=
  Iff.rfl

end Sell

/-! ## What is sold, and the price of gas -/

/-- A swap is of the amount. -/
def Sells (amount : ℕ) : SellCommand → Prop
  | .swapExactTokensForEth _ amountIn _ _ _ _ _ => amountIn = amount
  | _ => True

def BalanceIs (balance : ℕ) : (c : SellCommand) → c.Reply → Prop
  | .getTokenBalance _ _,reply => reply = balance
  | _,_ => True

/-- There is something to sell, at a price of gas. -/
def PriceIs (price : ℕ) : (c : SellCommand) → c.Reply → Prop
  | .getTokenBalance _ _,reply => reply ≠ (0 : ℕ)
  | .getGasPrice,reply => reply = price
  | _,_ => True

def gasPriceFor (networkPrice gasPricePercent : ℕ) : ℕ :=
  if gasPricePercent > 0 then saturatingMul networkPrice gasPricePercent/100 else networkPrice

namespace SnipeBot

variable (library : WalletLibrary Address LocalWallet World) (s : SnipeBot LocalWallet)

def sellFor (tokenAddress account : String) (amountToSell gasPrice : ℕ) : Sell SnipeResult := do
  let clock ← Sell.now
  let deadline := (clock.map (·+300)).getD (u64Max/2)
  let allowance : ℕ ← Sell.send (.checkTokenAllowance tokenAddress s.routerAddress account)
  s.approveFor tokenAddress allowance amountToSell gasPrice
  let price ← Sell.asU64 gasPrice
  let receipt : Option String ← Sell.send (.swapExactTokensForEth tokenAddress amountToSell 0
    account deadline s.defaultGasLimit price)
  let clock ← Sell.now
  let result := sellResult tokenAddress amountToSell receipt (clock.getD 0)
  Sell.attempt (.addTransaction result)
  return result

theorem manualSell_eq (tokenAddress : String) (amountPercent gasPricePercent : ℕ) :
    s.manualSell library tokenAddress amountPercent gasPricePercent = (do
      Sell.ensure (s.botMode = .manual) "Chỉ có thể sử dụng manual_sell trong chế độ Manual"
      Sell.ensure (1 ≤ amountPercent ∧ amountPercent ≤ 100) "Phần trăm bán phải từ 1-100"
      let tokenBalance : ℕ ← Sell.sendOr "Không thể lấy số dư token: "
        (.getTokenBalance tokenAddress (s.getCurrentWalletAddress library))
      Sell.ensure (tokenBalance ≠ 0) "Không có token để bán"
      let networkPrice : ℕ ← Sell.send .getGasPrice
      s.sellFor tokenAddress (s.getCurrentWalletAddress library)
        (saturatingMul tokenBalance amountPercent/100)
        (gasPriceFor networkPrice gasPricePercent)) := rfl

theorem approveFor_enough (tokenAddress : String) {allowance amountToSell : ℕ}
    (h : amountToSell ≤ allowance) (gasPrice : ℕ) :
    s.approveFor tokenAddress allowance amountToSell gasPrice = .done (.ok ()) :=
  if_neg (Nat.not_lt.mpr h)

theorem approveFor_obeys {amount balance : ℕ} {returns : Unit → Prop} (h : returns ())
    (tokenAddress : String) (allowance amountToSell gasPrice : ℕ) :
    (s.approveFor tokenAddress allowance amountToSell gasPrice).Obeys (Sells amount)
      (BalanceIs balance) returns := by
  unfold approveFor
  split
  · apply Call.obeys_bind_iff.mpr
    apply Sell.asU64_obeys.mpr
    intro _
    exact (Sell.sendOr_obeys trivial).mpr fun _ _ => h
  · exact h

/-- The swap is reached unless the price of gas is too large. -/
theorem sellFor_sells (tokenAddress account : String) (amountToSell gasPrice balance amount : ℕ) :
    (s.sellFor tokenAddress account amountToSell gasPrice).Obeys (Sells amount)
        (BalanceIs balance) (fun _ => True) ↔
      (gasPrice ≤ u64Max → amountToSell = amount) := by
  constructor
  · intro h hprice
    have hallowance := (Sell.send_obeys trivial).mp (Call.obeys_bind_iff.mp (h none))
      amountToSell trivial
    have happrove := Call.obeys_bind_iff.mp hallowance
    rw [approveFor_enough s tokenAddress le_rfl] at happrove
    have hswap := Sell.asU64_obeys.mp (Call.obeys_bind_iff.mp happrove) hprice
    exact (Call.obeys_bind_iff.mp hswap).1
  · intro h clock
    refine Call.obeys_bind_iff.mpr ((Sell.send_obeys trivial).mpr fun allowance _ => ?_)
    change (s.approveFor tokenAddress allowance amountToSell gasPrice >>= _).Obeys _ _ _
    refine Call.obeys_bind_iff.mpr (approveFor_obeys s ?_ tokenAddress _ amountToSell gasPrice)
    refine Call.obeys_bind_iff.mpr (Sell.asU64_obeys.mpr fun hprice => ?_)
    refine Call.obeys_bind_iff.mpr ((Sell.send_obeys (h hprice)).mpr fun receipt _ => ?_)
    exact fun clock' => ⟨trivial,fun _ => trivial,fun _ _ => trivial⟩

theorem approveFor_completes {gasPrice price : ℕ} (hprice : gasPrice ≤ u64Max)
    {returns : Unit → Prop} (h : returns ()) (tokenAddress : String)
    (allowance amountToSell : ℕ) :
    (s.approveFor tokenAddress allowance amountToSell gasPrice).Completes (PriceIs price)
      returns := by
  unfold approveFor
  split
  · refine Call.completes_bind_iff.mpr (Sell.asU64_completes.mpr ⟨hprice,?_⟩)
    exact Sell.sendOr_completes.mpr fun _ _ => h
  · exact h

theorem sellFor_completes (tokenAddress account : String) (amountToSell gasPrice price : ℕ) :
    (s.sellFor tokenAddress account amountToSell gasPrice).Completes (PriceIs price)
      (fun _ => True) ↔ gasPrice ≤ u64Max := by
  constructor
  · intro h
    have hallowance := Sell.send_completes.mp (Call.completes_bind_iff.mp (h none))
      amountToSell trivial
    have happrove := Call.completes_bind_iff.mp hallowance
    rw [approveFor_enough s tokenAddress le_rfl] at happrove
    exact (Sell.asU64_completes.mp (Call.completes_bind_iff.mp happrove)).1
  · intro hprice clock
    refine Call.completes_bind_iff.mpr (Sell.send_completes.mpr fun allowance _ => ?_)
    change (s.approveFor tokenAddress allowance amountToSell gasPrice >>= _).Completes _ _
    refine Call.completes_bind_iff.mpr (approveFor_completes s hprice ?_ tokenAddress _ _)
    refine Call.completes_bind_iff.mpr (Sell.asU64_completes.mpr ⟨hprice,?_⟩)
    refine Call.completes_bind_iff.mpr (Sell.send_completes.mpr fun receipt _ => ?_)
    exact fun clock' _ _ => trivial

/-- What a sale of a balance sells. -/
theorem manualSell_sells (hmode : s.botMode = .manual) (tokenAddress : String)
    {amountPercent : ℕ} (hp : 1 ≤ amountPercent ∧ amountPercent ≤ 100) (gasPricePercent : ℕ)
    {balance : ℕ} (hb : balance ≠ 0) (amount : ℕ) :
    (s.manualSell library tokenAddress amountPercent gasPricePercent).Obeys (Sells amount)
        (BalanceIs balance) (fun _ => True) ↔
      saturatingMul balance amountPercent/100 = amount := by
  rw [manualSell_eq]
  refine Call.obeys_bind_iff.trans ((Sell.ensure_obeys (decide_eq_true hmode)).trans ?_)
  refine Call.obeys_bind_iff.trans ((Sell.ensure_obeys (decide_eq_true hp)).trans ?_)
  refine Call.obeys_bind_iff.trans ((Sell.sendOr_obeys trivial).trans (forall_eq.trans ?_))
  refine Call.obeys_bind_iff.trans ((Sell.ensure_obeys (decide_eq_true hb)).trans ?_)
  refine Call.obeys_bind_iff.trans ((Sell.send_obeys trivial).trans ?_)
  constructor
  · intro h
    have hzero : gasPriceFor 0 gasPricePercent ≤ u64Max := by
      simp [gasPriceFor,saturatingMul]
    exact (sellFor_sells s _ _ _ _ _ _).mp (h (0 : ℕ) trivial) hzero
  · intro h networkPrice _
    exact (sellFor_sells s _ _ _ _ _ _).mpr fun _ => h

theorem manualSell_completes (hmode : s.botMode = .manual) (tokenAddress : String)
    {amountPercent : ℕ} (hp : 1 ≤ amountPercent ∧ amountPercent ≤ 100)
    (gasPricePercent price : ℕ) :
    (s.manualSell library tokenAddress amountPercent gasPricePercent).Completes (PriceIs price)
        (fun _ => True) ↔ gasPriceFor price gasPricePercent ≤ u64Max := by
  rw [manualSell_eq]
  refine Call.completes_bind_iff.trans ((Sell.ensure_completes (decide_eq_true hmode)).trans ?_)
  refine Call.completes_bind_iff.trans ((Sell.ensure_completes (decide_eq_true hp)).trans ?_)
  refine Call.completes_bind_iff.trans (Sell.sendOr_completes.trans ?_)
  constructor
  · intro h
    have hone := Call.completes_bind_iff.mp (h (1 : ℕ) Nat.one_ne_zero)
    have hchecked := (Sell.ensure_completes rfl).mp hone
    exact (sellFor_completes s _ _ _ _ _).mp
      (Sell.send_completes.mp (Call.completes_bind_iff.mp hchecked) price rfl)
  · intro h (balance : ℕ) (hb : balance ≠ 0)
    refine Call.completes_bind_iff.mpr ((Sell.ensure_completes (decide_eq_true hb)).mpr ?_)
    refine Call.completes_bind_iff.mpr (Sell.send_completes.mpr ?_)
    rintro networkPrice rfl
    exact (sellFor_completes s _ _ _ _ _).mpr h

end SnipeBot

/-! ## The least amount of a swap -/

def slippageOf (basisPoints : UInt64) : Float := basisPoints.toFloat/100.0

def u256Mul (a b : ℕ) : Except String ℕ :=
  if a*b < 2^256 then .ok (a*b) else .error "arithmetic operation overflow"

def u256Sub (a b : ℕ) : Except String ℕ :=
  if b ≤ a then .ok (a-b) else .error "arithmetic operation overflow"

def minAmountOut (amounts : List ℕ) (slippage : Float) : Except String ℕ :=
  if amounts.length > 1 then do
    let amountOut := amounts.getD (amounts.length-1) 0
    let product ← u256Mul amountOut (slippage*100.0).toUInt64.toNat
    u256Sub amountOut (product/10000)
  else .error "Swap path không hợp lệ"

def FallsShort (basisPoints : UInt64) : Prop :=
  slippageOf basisPoints*100.0 < basisPoints.toFloat

instance (basisPoints : UInt64) : Decidable (FallsShort basisPoints) :=
  inferInstanceAs (Decidable (slippageOf basisPoints*100.0 < basisPoints.toFloat))

def kept (basisPoints : UInt64) : ℕ :=
  if FallsShort basisPoints then basisPoints.toNat-1 else basisPoints.toNat

theorem hundred_hasValue : Binary64.HasValue 100.0 100 := by
  rcases Binary64.toFloat_hasValue (n := 100) (by decide) (by decide) with
    ⟨m,e,h,hunpack,hm,hm',hvalue⟩
  exact ⟨m,e,h,hunpack,hm,hm',by rw [← hvalue]; rfl⟩

/-- The product of the slippage and a hundred is near the basis points. -/
theorem slippageOf_mul {basisPoints : UInt64} (hpos : 0 < basisPoints.toNat)
    (hle : basisPoints.toNat ≤ 10000) :
    ∃ u : ℚ, Binary64.HasValue (slippageOf basisPoints*100.0) u ∧
      basisPoints.toNat-1/2 ≤ u ∧ u ≤ basisPoints.toNat+1/2 := by
  rcases Binary64.div_rounds (b := 100) hpos (by omega) (by decide) (by decide) with
    ⟨r,e,hquot,_,hrounds⟩
  have hposq : (1 : ℚ) ≤ basisPoints.toNat := by exact_mod_cast hpos
  have hleq : (basisPoints.toNat : ℚ) ≤ 10000 := by exact_mod_cast hle
  have hhundred : (((100 : UInt64).toNat : ℕ) : ℚ) = 100 := rfl
  have hlow := hrounds.low
  have hbelow := hrounds.below
  have habove := hrounds.above
  rw [hhundred] at hlow hbelow habove
  generalize (r : ℚ)*2^e = v at *
  generalize (2 : ℚ)^e = unit at *
  have hleast : (2 : ℚ)^(-900 : ℤ) ≤ 2^(-1 : ℤ) := Binary64.unit_le (by decide)
  have hmost : (2 : ℚ)^(15 : ℤ) ≤ 2^(900 : ℤ) := Binary64.unit_le (by decide)
  have hhalf : (2 : ℚ)^(-1 : ℤ) = 1/2 := by norm_num
  have hlarge : (2 : ℚ)^(15 : ℤ) = 32768 := by norm_num
  rw [hhalf] at hleast
  rw [hlarge] at hmost
  have hlower : 1/2 ≤ v*100 := by linarith
  have hupper : v*100 ≤ 32768 := by linarith
  rcases Binary64.mul_within hquot hundred_hasValue (hleast.trans hlower)
    (hupper.trans hmost) with ⟨u,hu,habove',hbelow'⟩
  exact ⟨u,hu,by linarith,by linarith⟩

theorem kept_eq {basisPoints : UInt64} (hle : basisPoints.toNat ≤ 10000) :
    (slippageOf basisPoints*100.0).toUInt64.toNat = kept basisPoints := by
  rcases Nat.eq_zero_or_pos basisPoints.toNat with hzero | hpos
  · obtain rfl : basisPoints = 0 := UInt64.toNat_inj.mp hzero
    decide +kernel
  · rcases slippageOf_mul hpos hle with ⟨u,hu,hlower,hupper⟩
    have hposq : (1 : ℚ) ≤ basisPoints.toNat := by exact_mod_cast hpos
    have hleq : (basisPoints.toNat : ℚ) ≤ 10000 := by exact_mod_cast hle
    have hshort : FallsShort basisPoints ↔ u < basisPoints.toNat :=
      Binary64.lt_iff hu (Binary64.toFloat_hasValue hpos (by omega))
    rw [Binary64.toUInt64_floor hu (by linarith),kept,Nat.floor_eq_iff (by linarith)]
    by_cases hlt : u < basisPoints.toNat
    · rw [if_pos (hshort.mpr hlt)]
      push_cast [Nat.cast_sub hpos]
      exact ⟨by linarith,by linarith⟩
    · rw [if_neg (hlt ∘ hshort.mp)]
      exact ⟨not_lt.mp hlt,by linarith⟩

theorem kept_le (basisPoints : UInt64) : kept basisPoints ≤ basisPoints.toNat := by
  unfold kept
  split
  · exact Nat.sub_le _ _
  · exact le_rfl

theorem minAmountOut_eq (first : ℕ) (rest : List ℕ) (amountOut : ℕ) {basisPoints : UInt64}
    (hle : basisPoints.toNat ≤ 10000) :
    minAmountOut (first::(rest++[amountOut])) (slippageOf basisPoints) =
      if amountOut*kept basisPoints < 2^256 then
        .ok (amountOut-amountOut*kept basisPoints/10000)
      else .error "arithmetic operation overflow" := by
  have hlast : (first::(rest++[amountOut])).getD ((first::(rest++[amountOut])).length-1) 0 =
      amountOut := by
    simp
  have hfits : amountOut*kept basisPoints/10000 ≤ amountOut := by
    apply Nat.div_le_of_le_mul
    rw [Nat.mul_comm]
    exact Nat.mul_le_mul_right _ ((kept_le basisPoints).trans hle)
  have hlength : (first::(rest++[amountOut])).length > 1 := by simp
  rw [minAmountOut,if_pos hlength,hlast,kept_eq hle]
  dsimp only
  by_cases hlt : amountOut*kept basisPoints < 2^256
  · have hmul : u256Mul amountOut (kept basisPoints) = .ok (amountOut*kept basisPoints) :=
      if_pos hlt
    rw [if_pos hlt,hmul]
    exact if_pos hfits
  · have hmul : u256Mul amountOut (kept basisPoints) = .error "arithmetic operation overflow" :=
      if_neg hlt
    rw [if_neg hlt,hmul]
    rfl

theorem minAmountOut_iff (first : ℕ) (rest : List ℕ) (amountOut : ℕ) {basisPoints : UInt64}
    (hle : basisPoints.toNat ≤ 10000) :
    minAmountOut (first::(rest++[amountOut])) (slippageOf basisPoints) =
        .ok (amountOut-amountOut*basisPoints.toNat/10000) ↔
      amountOut*kept basisPoints < 2^256 ∧
        amountOut*kept basisPoints/10000 = amountOut*basisPoints.toNat/10000 := by
  have hkept : amountOut*kept basisPoints/10000 ≤ amountOut*basisPoints.toNat/10000 :=
    Nat.div_le_div_right (Nat.mul_le_mul_left _ (kept_le basisPoints))
  have hfits : amountOut*basisPoints.toNat/10000 ≤ amountOut := by
    apply Nat.div_le_of_le_mul
    rw [Nat.mul_comm]
    exact Nat.mul_le_mul_right _ hle
  rw [minAmountOut_eq first rest amountOut hle]
  split
  · next hlt =>
    rw [Except.ok.injEq,and_iff_right hlt]
    omega
  · next hge => exact iff_of_false (by rintro ⟨⟩) fun h => hge h.1

/-! ## All amounts -/

theorem saturated_iff (a b : ℕ) : saturatingMul a b/100 = a*b/100 ↔ a*b < 2^256+64 := by
  unfold saturatingMul u256Max
  omega

theorem price_iff (networkPrice gasPricePercent : ℕ) :
    gasPriceFor networkPrice gasPricePercent ≤ u64Max ↔
      (gasPricePercent = 0 → networkPrice < 2^64) ∧
        (0 < gasPricePercent → networkPrice*gasPricePercent < 100*2^64) := by
  unfold gasPriceFor saturatingMul u64Max u256Max
  split
  · omega
  · omega

/-- The amounts are exact just as long as the products fit, and the slippage in percent does
not fall short of its basis points where that matters. -/
theorem percentAmounts_iff (library : WalletLibrary Address LocalWallet World)
    (s : SnipeBot LocalWallet) (hmode : s.botMode = .manual) (tokenAddress : String)
    (amountPercent : ℕ) (hp : 1 ≤ amountPercent ∧ amountPercent ≤ 100) (gasPricePercent : ℕ)
    (balance : ℕ) (hb : balance ≠ 0) (price first : ℕ) (rest : List ℕ) (amountOut : ℕ)
    (basisPoints : UInt64) (hle : basisPoints.toNat ≤ 10000) :
    ((s.manualSell library tokenAddress amountPercent gasPricePercent).Obeys
        (Sells (balance*amountPercent/100)) (BalanceIs balance) (fun _ => True) ↔
      balance*amountPercent < 2^256+64) ∧
    ((s.manualSell library tokenAddress amountPercent gasPricePercent).Completes (PriceIs price)
        (fun _ => True) ↔
      (gasPricePercent = 0 → price < 2^64) ∧
        (0 < gasPricePercent → price*gasPricePercent < 100*2^64)) ∧
    (minAmountOut (first::(rest++[amountOut])) (slippageOf basisPoints) =
        .ok (amountOut-amountOut*basisPoints.toNat/10000) ↔
      amountOut*kept basisPoints < 2^256 ∧
        amountOut*kept basisPoints/10000 = amountOut*basisPoints.toNat/10000) := by
  refine ⟨?_,?_,minAmountOut_iff first rest amountOut hle⟩
  · rw [SnipeBot.manualSell_sells library s hmode tokenAddress hp gasPricePercent hb]
    exact saturated_iff balance amountPercent
  · rw [SnipeBot.manualSell_completes library s hmode tokenAddress hp gasPricePercent price]
    exact price_iff price gasPricePercent

/-- Half of seven tokens, half as much again for the gas, and 50 basis points. -/
theorem percentAmounts_iff_example :
    (SnipeBot.oneWallet.manualSell SnipeBot.plainLibrary "0xdd" 50 150).Obeys (Sells (7*50/100))
        (BalanceIs 7) (fun _ => True) ∧
      (SnipeBot.oneWallet.manualSell SnipeBot.plainLibrary "0xdd" 50 150).Completes
        (PriceIs (10^11)) (fun _ => True) ∧
      minAmountOut [1,10000] (slippageOf 50) = .ok 9950 :=
  have h := percentAmounts_iff SnipeBot.plainLibrary SnipeBot.oneWallet rfl "0xdd" 50 (by decide)
    150 7 (by decide) (10^11) 1 [] 10000 50 (by decide)
  ⟨h.1.mpr (by decide),h.2.1.mpr (by decide),h.2.2.mpr (by decide +kernel)⟩

/-- Half of a large balance, a large price of gas, and a slippage of 29 basis points. -/
theorem percentAmounts_counterexample :
    ¬(SnipeBot.oneWallet.manualSell SnipeBot.plainLibrary "0xdd" 50 0).Obeys
        (Sells (2^255*50/100)) (BalanceIs (2^255)) (fun _ => True) ∧
      ¬(SnipeBot.oneWallet.manualSell SnipeBot.plainLibrary "0xdd" 50 200).Completes
        (PriceIs (2^63)) (fun _ => True) ∧
      minAmountOut [1,10000] (slippageOf 29) = .ok 9972 := by
  refine ⟨?_,?_,?_⟩
  · rw [SnipeBot.manualSell_sells SnipeBot.plainLibrary SnipeBot.oneWallet rfl "0xdd" (by decide) 0
      (by decide),saturated_iff]
    decide
  · rw [SnipeBot.manualSell_completes SnipeBot.plainLibrary SnipeBot.oneWallet rfl "0xdd"
      (by decide),price_iff]
    decide
  · have hkept : kept 29 = 28 := by decide +kernel
    rw [← List.nil_append [10000],minAmountOut_eq 1 [] 10000 (by decide),hkept]
    rfl

end DiamondBot.CurrentWallet
