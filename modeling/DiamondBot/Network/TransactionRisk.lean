import DiamondBot.Library.DecimalText
import DiamondBot.Library.Substring

/-!
# Risk of a transaction

Points are summed over independent signs of risk. A number given as text counts
only as far as the integer type it is read into holds it.
-/

set_option autoImplicit false

namespace DiamondBot.Network
open Library DecimalText Substring

structure TransactionInput where
  methodId : String
  fromAddress : String
  toAddress : String
  value : String
  gasPrice : String
  transactionData : String
  tokenAddress : Option String
  chainId : ℕ
  deriving DecidableEq

structure ContractAnalysis where
  isVerified : Bool
  isProxy : Bool
  hasKnownVulnerabilities : Bool
  creatorAddress : String
  creationDate : String
  riskFactors : List String

structure WasmAnalysisResult where
  isScam : Bool
  confidence : ℕ
  riskFactors : List String
  safeToProceed : Bool
  contractAnalysis : Option ContractAnalysis

structure Risk where
  riskFactors : List String
  confidence : ℕ

def Risk.note (r : Risk) (present : Bool) (factor : String) (points : ℕ) : Except String Risk :=
  if present then (Checked.add 8 r.confidence points).map fun c => ⟨r.riskFactors++[factor],c⟩
  else .ok r

def unknownMethod (methodId : String) : Bool :=
  methodId != "0x23b872dd" && methodId != "0xa9059cbb" && methodId != "0x095ea7b3"

def analyzeMethodId (methodId : String) (r : Risk) : Except String Risk :=
  r.note (unknownMethod methodId) ("Method ID "++methodId++" không phổ biến, cần kiểm tra kỹ") 10

def analyzeTransactionDataContent (data : String) (r : Risk) : Except String Risk :=
  if data.utf8ByteSize < 10 then .ok r
  else do
    let r ← r.note (contains data "setApprovalForAll")
      "Giao dịch setApprovalForAll có thể nguy hiểm nếu người nhận không đáng tin" 30
    let r ← r.note (contains data "transferOwnership")
      "Giao dịch chuyển quyền sở hữu contract, cẩn thận!" 40
    r.note (data.utf8ByteSize > 1000)
      "Calldata rất dài và phức tạp, khó xác minh mục đích" 15

def analyzeData (data : String) (r : Risk) : Except String Risk :=
  if data.utf8ByteSize > 10 then analyzeTransactionDataContent data r else .ok r

/-- A text that the type cannot read exceeds nothing. -/
def exceeds (bits limit : ℕ) (text : String) : Bool :=
  match parseUnsigned bits text.toList with
  | .ok n => n > limit
  | .error _ => false

def analyzeContract (_tokenAddress : String) : ContractAnalysis :=
  ⟨false,false,false,"0x0000000000000000000000000000000000000000","Unknown",[]⟩

def analyzeTransactionData (input : TransactionInput) : Except String WasmAnalysisResult := do
  let r ← analyzeMethodId input.methodId ⟨[],0⟩
  let r ← analyzeData input.transactionData r
  let r ← r.note (exceeds 64 500000000000 input.gasPrice)
    "Gas price rất cao, có thể là front-running attack" 10
  let r ← r.note (exceeds 128 1000000000000000000000 input.value)
    "Giá trị giao dịch cực lớn, cần xác minh kỹ" 5
  .ok ⟨r.confidence > 50,r.confidence,r.riskFactors,r.confidence < 30,
    input.tokenAddress.map analyzeContract⟩

/-! ## The points of an input -/

def worth (present : Bool) (points : ℕ) : ℕ := if present then points else 0

theorem worth_le (present : Bool) (points : ℕ) : worth present points ≤ points := by
  cases present
  · exact Nat.zero_le points
  · exact le_rfl

def contentPoints (data : String) : ℕ :=
  if data.utf8ByteSize > 10 then
    worth (contains data "setApprovalForAll") 30+worth (contains data "transferOwnership") 40+
      worth (data.utf8ByteSize > 1000) 15
  else 0

def points (input : TransactionInput) : ℕ :=
  worth (unknownMethod input.methodId) 10+contentPoints input.transactionData+
    worth (exceeds 64 500000000000 input.gasPrice) 10+
    worth (exceeds 128 1000000000000000000000 input.value) 5

theorem note_ok (r : Risk) (present : Bool) (factor : String) {n : ℕ}
    (h : r.confidence+n < 2^8) :
    ∃ factors, r.note present factor n = .ok ⟨factors,r.confidence+worth present n⟩ := by
  cases present with
  | false => exact ⟨r.riskFactors,rfl⟩
  | true =>
    refine ⟨r.riskFactors++[factor],?_⟩
    rw [Risk.note,if_pos rfl,Checked.add_ok.mpr ⟨h,rfl⟩]
    rfl

theorem data_ok (data : String) (r : Risk) (h : r.confidence ≤ 10) :
    ∃ factors, analyzeData data r = .ok ⟨factors,r.confidence+contentPoints data⟩ := by
  unfold analyzeData contentPoints
  split
  · next hlong =>
    obtain ⟨fs,hfirst⟩ := note_ok r (contains data "setApprovalForAll")
      "Giao dịch setApprovalForAll có thể nguy hiểm nếu người nhận không đáng tin"
      (n := 30) (by omega)
    have h₁ := worth_le (contains data "setApprovalForAll") 30
    obtain ⟨fs',hsecond⟩ := note_ok ⟨fs,_⟩ (contains data "transferOwnership")
      "Giao dịch chuyển quyền sở hữu contract, cẩn thận!" (n := 40)
      (show r.confidence+worth (contains data "setApprovalForAll") 30+40 < 2^8 by omega)
    have h₂ := worth_le (contains data "transferOwnership") 40
    obtain ⟨fs'',hthird⟩ := note_ok ⟨fs',_⟩ (data.utf8ByteSize > 1000)
      "Calldata rất dài và phức tạp, khó xác minh mục đích" (n := 15)
      (show r.confidence+worth (contains data "setApprovalForAll") 30+
        worth (contains data "transferOwnership") 40+15 < 2^8 by omega)
    refine ⟨fs'',?_⟩
    rw [analyzeTransactionDataContent,if_neg (by omega),hfirst]
    change (do
      let r ← Risk.note ⟨fs,_⟩ _ _ 40
      r.note _ _ 15) = _
    rw [hsecond]
    change Risk.note ⟨fs',_⟩ _ _ 15 = _
    rw [hthird]
    simp only [Nat.add_assoc]
  · exact ⟨r.riskFactors,rfl⟩

theorem content_le (data : String) : contentPoints data ≤ 85 := by
  have h₁ := worth_le (contains data "setApprovalForAll") 30
  have h₂ := worth_le (contains data "transferOwnership") 40
  have h₃ := worth_le (data.utf8ByteSize > 1000) 15
  unfold contentPoints
  split <;> omega

theorem content_result (input : TransactionInput) :
    ∃ factors, (analyzeMethodId input.methodId ⟨[],0⟩ >>= analyzeData input.transactionData) =
      .ok ⟨factors,worth (unknownMethod input.methodId) 10+
        contentPoints input.transactionData⟩ := by
  obtain ⟨fs,hmethod⟩ := note_ok ⟨[],0⟩ (unknownMethod input.methodId)
    ("Method ID "++input.methodId++" không phổ biến, cần kiểm tra kỹ") (n := 10) (by decide)
  obtain ⟨fs',hdata⟩ := data_ok input.transactionData ⟨fs,_⟩
    ((Nat.zero_add _).trans_le (worth_le (unknownMethod input.methodId) 10))
  refine ⟨fs',?_⟩
  rw [analyzeMethodId,hmethod]
  change analyzeData input.transactionData ⟨fs,_⟩ = _
  rw [hdata,Nat.zero_add]

/-- The sum stays within eight bits. -/
theorem analyze_ok (input : TransactionInput) :
    ∃ factors, analyzeTransactionData input = .ok ⟨points input > 50,points input,factors,
      points input < 30,input.tokenAddress.map analyzeContract⟩ := by
  have hmethod := worth_le (unknownMethod input.methodId) 10
  have hcontent := content_le input.transactionData
  have hgas := worth_le (exceeds 64 500000000000 input.gasPrice) 10
  obtain ⟨fs,hfirst⟩ := content_result input
  obtain ⟨fs',hsecond⟩ := note_ok ⟨fs,_⟩ (exceeds 64 500000000000 input.gasPrice)
    "Gas price rất cao, có thể là front-running attack" (n := 10)
    (show worth (unknownMethod input.methodId) 10+contentPoints input.transactionData+10 < 2^8
      by omega)
  obtain ⟨fs'',hthird⟩ := note_ok ⟨fs',_⟩ (exceeds 128 1000000000000000000000 input.value)
    "Giá trị giao dịch cực lớn, cần xác minh kỹ" (n := 5)
    (show worth (unknownMethod input.methodId) 10+contentPoints input.transactionData+
      worth (exceeds 64 500000000000 input.gasPrice) 10+5 < 2^8 by omega)
  refine ⟨fs'',?_⟩
  unfold analyzeTransactionData
  rw [← bind_assoc,hfirst]
  change (Risk.note ⟨fs,_⟩ _ _ 10 >>= _) = _
  rw [hsecond]
  change (Risk.note ⟨fs',_⟩ _ _ 5 >>= _) = _
  rw [hthird]
  rfl

/-! ## Larger numbers -/

def Larger (s t : String) : Prop :=
  ∃ a b, number s.toList = some a ∧ number t.toList = some b ∧ a < b

/-- The inputs differ in a larger gas price or a larger value only. -/
structure Raised (first second : TransactionInput) : Prop where
  rest : second = {first with gasPrice := second.gasPrice, value := second.value}
  gasPrice : second.gasPrice = first.gasPrice ∨ Larger first.gasPrice second.gasPrice
  value : second.value = first.value ∨ Larger first.value second.value

/-- There is a result, and it is not both a scam and safe. -/
def Judged (input : TransactionInput) : Prop :=
  ∃ r, analyzeTransactionData input = .ok r ∧ r.confidence < 2^8 ∧ ¬(r.isScam ∧ r.safeToProceed)

/-- The second is at least as much of a risk as the first, and a scam if the first is. -/
def NoLessRisk (first second : TransactionInput) : Prop :=
  ∃ r r', analyzeTransactionData first = .ok r ∧ analyzeTransactionData second = .ok r' ∧
    r.confidence ≤ r'.confidence ∧ (r.isScam → r'.isScam)

/-- A number over the limit becomes too large for the type. -/
def Outgrows (bits limit : ℕ) (s t : String) : Prop :=
  ∃ a b, number s.toList = some a ∧ number t.toList = some b ∧
    limit < a ∧ a < 2^bits ∧ 2^bits ≤ b

/-- A number comes over the limit and stays within the type. -/
def Rises (bits limit : ℕ) (s t : String) : Prop :=
  ∃ a b, number s.toList = some a ∧ number t.toList = some b ∧
    a ≤ limit ∧ limit < b ∧ b < 2^bits

theorem exceeds_iff {bits limit : ℕ} {s : String} :
    exceeds bits limit s = true ↔ ∃ n, number s.toList = some n ∧ limit < n ∧ n < 2^bits := by
  cases hs : parseUnsigned bits s.toList with
  | ok n =>
    obtain ⟨hnum,hn⟩ := parseUnsigned_ok.mp hs
    rw [exceeds,hs,hnum]
    simp only [gt_iff_lt,decide_eq_true_eq,Option.some.injEq,exists_eq_left',hn,and_true]
  | error e =>
    rw [exceeds,hs]
    constructor
    · intro h
      cases h
    · rintro ⟨n,hnum,_,hn⟩
      rw [parseUnsigned_ok.mpr ⟨hnum,hn⟩] at hs
      cases hs

section numbers
variable {bits limit : ℕ} {s t : String}

theorem outgrows_iff (h : t = s ∨ Larger s t) :
    Outgrows bits limit s t ↔ exceeds bits limit s = true ∧ exceeds bits limit t = false := by
  rw [← Bool.not_eq_true,exceeds_iff,exceeds_iff]
  constructor
  · rintro ⟨a,b,ha,hb,hover,hfits,hout⟩
    refine ⟨⟨a,ha,hover,hfits⟩,?_⟩
    rintro ⟨n,hn,_,hlt⟩
    cases hb.symm.trans hn
    exact absurd hlt (by omega)
  · rintro ⟨⟨a,ha,hover,hfits⟩,hnot⟩
    rcases h with rfl | ⟨a',b,ha',hb,hlt⟩
    · exact absurd ⟨a,ha,hover,hfits⟩ hnot
    · cases ha.symm.trans ha'
      by_cases hb' : b < 2^bits
      · exact absurd ⟨b,hb,by omega,hb'⟩ hnot
      · exact ⟨a,b,ha,hb,hover,hfits,by omega⟩

theorem rises_iff (h : t = s ∨ Larger s t) :
    Rises bits limit s t ↔ exceeds bits limit s = false ∧ exceeds bits limit t = true := by
  rw [← Bool.not_eq_true,exceeds_iff,exceeds_iff]
  constructor
  · rintro ⟨a,b,ha,hb,hle,hover,hfits⟩
    refine ⟨?_,⟨b,hb,hover,hfits⟩⟩
    rintro ⟨n,hn,hn',_⟩
    cases ha.symm.trans hn
    exact absurd hle (by omega)
  · rintro ⟨hnot,⟨b,hb,hover,hfits⟩⟩
    rcases h with rfl | ⟨a,b',ha,hb',hlt⟩
    · exact absurd ⟨b,hb,hover,hfits⟩ hnot
    · cases hb.symm.trans hb'
      by_cases ha' : a ≤ limit
      · exact ⟨a,b,ha,hb,ha',hover,hfits⟩
      · exact absurd ⟨a,ha,by omega,by omega⟩ hnot

end numbers

theorem judged (input : TransactionInput) : Judged input := by
  obtain ⟨fs,h⟩ := analyze_ok input
  have hmethod := worth_le (unknownMethod input.methodId) 10
  have hcontent := content_le input.transactionData
  have hgas := worth_le (exceeds 64 500000000000 input.gasPrice) 10
  have hvalue := worth_le (exceeds 128 1000000000000000000000 input.value) 5
  refine ⟨_,h,?_,?_⟩
  · change points input < 2^8
    unfold points
    omega
  · simp only [decide_eq_true_eq]
    omega

theorem noLessRisk_iff {first second : TransactionInput} :
    NoLessRisk first second ↔ points first ≤ points second := by
  obtain ⟨fs,h⟩ := analyze_ok first
  obtain ⟨fs',h'⟩ := analyze_ok second
  constructor
  · rintro ⟨r,r',hr,hr',hle,_⟩
    cases h.symm.trans hr
    cases h'.symm.trans hr'
    exact hle
  · intro hle
    refine ⟨_,_,h,h',hle,?_⟩
    simp only [decide_eq_true_eq]
    omega

/-- The risk does not fall unless a number leaves its type: the gas price never
may, the value only when the gas price comes over its limit instead. -/
theorem analyze_monotone_iff {first second : TransactionInput} (h : Raised first second) :
    Judged first ∧ Judged second ∧ NoLessRisk first second ↔
      ¬Outgrows 64 500000000000 first.gasPrice second.gasPrice ∧
      (Outgrows 128 1000000000000000000000 first.value second.value →
        Rises 64 500000000000 first.gasPrice second.gasPrice) := by
  have hmethod : second.methodId = first.methodId := by rw [h.rest]
  have hdata : second.transactionData = first.transactionData := by rw [h.rest]
  rw [and_iff_right (judged first),and_iff_right (judged second),noLessRisk_iff,
    outgrows_iff h.gasPrice,outgrows_iff h.value,rises_iff h.gasPrice,points,points,hmethod,hdata]
  generalize exceeds 64 500000000000 first.gasPrice = gas
  generalize exceeds 64 500000000000 second.gasPrice = gas'
  generalize exceeds 128 1000000000000000000000 first.value = value
  generalize exceeds 128 1000000000000000000000 second.value = value'
  rw [Nat.add_assoc,Nat.add_assoc (_+_),Nat.add_le_add_iff_left]
  revert gas gas' value value'
  decide

def transferAt (gasPrice : String) : TransactionInput :=
  ⟨"0xa9059cbb","0x1234","0x0987","1000000000000000000",gasPrice,"0xa9059cbb0000",none,1⟩

theorem transfer_raised :
    Raised (transferAt "400000000000") (transferAt "600000000000") :=
  ⟨rfl,Or.inr ⟨400000000000,600000000000,by decide +kernel,by decide +kernel,by decide⟩,Or.inl rfl⟩

theorem analyze_monotone_transfer :
    Raised (transferAt "400000000000") (transferAt "600000000000") ∧
      (Judged (transferAt "400000000000") ∧ Judged (transferAt "600000000000") ∧
        NoLessRisk (transferAt "400000000000") (transferAt "600000000000") ↔
      ¬Outgrows 64 500000000000 "400000000000" "600000000000" ∧
      (Outgrows 128 1000000000000000000000 "1000000000000000000" "1000000000000000000" →
        Rises 64 500000000000 "400000000000" "600000000000")) :=
  ⟨transfer_raised,analyze_monotone_iff transfer_raised⟩

theorem analyze_monotone_counterexample :
    ¬∀ first second, Raised first second →
      Judged first ∧ Judged second ∧ NoLessRisk first second := by
  intro h
  have hraised : Raised (transferAt "600000000000") (transferAt "18446744073709551616") :=
    ⟨rfl,Or.inr ⟨600000000000,18446744073709551616,by decide +kernel,by decide +kernel,by decide⟩,
      Or.inl rfl⟩
  have hle := noLessRisk_iff.mp (h _ _ hraised).2.2
  exact absurd hle (by decide +kernel)

end DiamondBot.Network
