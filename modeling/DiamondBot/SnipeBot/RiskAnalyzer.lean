import DiamondBot.Library.Substring
import Mathlib.Algebra.Order.Field.Rat
import Mathlib.Data.Rat.Floor

/-!
# The cached analysis of a token

An analysis is kept as one bit, whether the token is safe, and a later answer is rebuilt from
the bit. The analysis behind the cache stays the same over time, and any call of it may fail.
-/

set_option autoImplicit false

namespace DiamondBot.TokenAnalysis
open Library Substring

structure TokenRiskAnalysis where
  riskScore : ℚ
  dangerousFunctions : List String
  risks : List String
  score_nonneg : 0 ≤ riskScore
  score_le : riskScore ≤ 100

structure TokenAnalysisResult where
  address : String
  isHoneypot : Bool
  isMintable : Bool
  hasBlacklist : Bool
  hasWhitelist : Bool
  hasTradingCooldown : Bool
  hasAntiWhale : Bool
  hasHighFee : Bool
  riskScore : UInt8
  notes : List String
  deriving DecidableEq

variable {Address : Type} [DecidableEq Address]

abbrev SafetyCache (Address : Type) := Address → Option Bool

def safe (analysis : TokenRiskAnalysis) : Bool := analysis.riskScore < 50

def mentions (risks : List String) (pattern : String) : Bool :=
  risks.any fun r => contains r pattern

def cachedResult (tokenAddress : String) (isSafe : Bool) : TokenAnalysisResult where
  address := tokenAddress
  isHoneypot := !isSafe
  isMintable := false
  hasBlacklist := false
  hasWhitelist := false
  hasTradingCooldown := false
  hasAntiWhale := false
  hasHighFee := false
  riskScore := if isSafe then 0 else 100
  notes := []

def freshResult (tokenAddress : String) (analysis : TokenRiskAnalysis) :
    TokenAnalysisResult where
  address := tokenAddress
  isHoneypot := analysis.riskScore > 80
  isMintable := analysis.dangerousFunctions.contains "mint"
  hasBlacklist := analysis.dangerousFunctions.contains "blacklist"
  hasWhitelist := analysis.dangerousFunctions.contains "whitelist"
  hasTradingCooldown := mentions analysis.risks "cooldown"
  hasAntiWhale := mentions analysis.risks "anti-whale"
  hasHighFee := mentions analysis.risks "high fee"
  riskScore := .ofNat analysis.riskScore.floor.toNat
  notes := analysis.risks

def analyzeTokenByAddress (fromStr : String → Except String Address)
    (analyzeToken : Address → Except String TokenRiskAnalysis) (cache : SafetyCache Address)
    (tokenAddress : String) : Except String TokenAnalysisResult×SafetyCache Address :=
  match fromStr tokenAddress with
  | .error e => (.error ("Địa chỉ token không hợp lệ: "++e),cache)
  | .ok address =>
    match cache address with
    | some isSafe => (.ok (cachedResult tokenAddress isSafe),cache)
    | none =>
      match analyzeToken address with
      | .error e => (.error ("Lỗi khi phân tích token: "++e),cache)
      | .ok analysis =>
        (.ok (freshResult tokenAddress analysis),
          Function.update cache address (some (safe analysis)))

def isTokenSafe (fromStr : String → Except String Address)
    (analyzeToken : Address → Except String TokenRiskAnalysis) (cache : SafetyCache Address)
    (tokenAddress : String) : Except String Bool×SafetyCache Address :=
  match fromStr tokenAddress with
  | .error e => (.error ("Địa chỉ token không hợp lệ: "++e),cache)
  | .ok address =>
    match cache address with
    | some isSafe => (.ok isSafe,cache)
    | none =>
      match analyzeTokenByAddress fromStr analyzeToken cache tokenAddress with
      | (.error e,cache) => (.error e,cache)
      | (.ok analysis,cache) =>
        (.ok (analysis.riskScore < 50),
          Function.update cache address (some (analysis.riskScore < 50)))

/-! ## Calls over time -/

inductive Question
  | analyze
  | isSafe
  deriving DecidableEq

/-- A call, with the error of the analysis should it be asked and fail. -/
structure Call where
  question : Question
  tokenAddress : String
  failure : Option String

inductive Answer
  | analysis (result : Except String TokenAnalysisResult)
  | isSafe (result : Except String Bool)

/-- The texts of addresses, and what the analysis gives when it does not fail. -/
structure Setting (Address : Type) where
  fromStr : String → Except String Address
  analysis : Address → TokenRiskAnalysis

namespace Setting

variable (g : Setting Address)

def analyzeToken (failure : Option String) (address : Address) :
    Except String TokenRiskAnalysis :=
  match failure with
  | some e => .error e
  | none => .ok (g.analysis address)

def step (cache : SafetyCache Address) (c : Call) : Answer×SafetyCache Address :=
  match c.question with
  | .analyze =>
    let r := analyzeTokenByAddress g.fromStr (g.analyzeToken c.failure) cache c.tokenAddress
    (.analysis r.1,r.2)
  | .isSafe =>
    let r := isTokenSafe g.fromStr (g.analyzeToken c.failure) cache c.tokenAddress
    (.isSafe r.1,r.2)

def answers : SafetyCache Address → List Call → List (Call×Answer)
  | _,[] => []
  | cache,c::calls => (c,(g.step cache c).1)::answers (g.step cache c).2 calls

end Setting

/-! ## Agreement -/

@[ext]
structure Verdict where
  isHoneypot : Bool
  isMintable : Bool
  hasBlacklist : Bool
  hasWhitelist : Bool
  hasTradingCooldown : Bool
  hasAntiWhale : Bool
  hasHighFee : Bool
  isSafe : Bool
  deriving DecidableEq

def TokenAnalysisResult.verdict (r : TokenAnalysisResult) : Verdict where
  isHoneypot := r.isHoneypot
  isMintable := r.isMintable
  hasBlacklist := r.hasBlacklist
  hasWhitelist := r.hasWhitelist
  hasTradingCooldown := r.hasTradingCooldown
  hasAntiWhale := r.hasAntiWhale
  hasHighFee := r.hasHighFee
  isSafe := r.riskScore < 50

def Answer.Matches (v : Verdict) : Answer → Prop
  | .analysis (.ok r) => r.verdict = v
  | .isSafe (.ok b) => b = v.isSafe
  | _ => True

namespace Setting

variable (g : Setting Address)

def About (address : Address) (c : Call) : Prop := g.fromStr c.tokenAddress = .ok address

instance (address : Address) (c : Call) : Decidable (g.About address c) :=
  inferInstanceAs (Decidable (g.fromStr c.tokenAddress = .ok address))

/-- All answers about a token that are not errors say the same. -/
def Agrees (address : Address) (log : List (Call×Answer)) : Prop :=
  ∃ v : Verdict, ∀ e ∈ log, g.About address e.1 → e.2.Matches v

/-- The first call that gets an analysis is one of `analyze`, and so is some call after it. -/
def Reanalyzes (address : Address) : List Call → Prop
  | [] => False
  | c::calls =>
    if g.About address c ∧ c.failure = none then
      c.question = .analyze ∧ ∃ d ∈ calls, g.About address d ∧ d.question = .analyze
    else Reanalyzes address calls

end Setting

/-- There is nothing that the bit does not tell: no flag is set, and the score is not between
the two limits. -/
structure TokenRiskAnalysis.Plain (analysis : TokenRiskAnalysis) : Prop where
  functions : ∀ f ∈ ["mint","blacklist","whitelist"], f ∉ analysis.dangerousFunctions
  risks : ∀ p ∈ ["cooldown","anti-whale","high fee"], mentions analysis.risks p = false
  score : analysis.riskScore < 50 ∨ 80 < analysis.riskScore

/-! ## The two answers -/

def cachedVerdict (isSafe : Bool) : Verdict := (cachedResult "" isSafe).verdict

def freshVerdict (analysis : TokenRiskAnalysis) : Verdict := (freshResult "" analysis).verdict

theorem score_lt_iff (analysis : TokenRiskAnalysis) :
    UInt8.ofNat analysis.riskScore.floor.toNat < 50 ↔ analysis.riskScore < 50 := by
  have hnonneg : 0 ≤ analysis.riskScore.floor := Rat.le_floor_iff.mpr analysis.score_nonneg
  have hle : analysis.riskScore.floor ≤ 100 := by
    have hcast : (analysis.riskScore.floor : ℚ) ≤ 100 :=
      (Rat.floor_le _).trans analysis.score_le
    exact_mod_cast hcast
  rw [UInt8.lt_iff_toNat_lt,UInt8.toNat_ofNat',Nat.mod_eq_of_lt (by omega)]
  change analysis.riskScore.floor.toNat < 50 ↔ _
  rw [Int.toNat_lt hnonneg]
  exact Rat.floor_lt_iff

theorem freshVerdict_isSafe (analysis : TokenRiskAnalysis) :
    (freshVerdict analysis).isSafe = safe analysis := decide_eq_decide.mpr (score_lt_iff analysis)

theorem cachedVerdict_isSafe (isSafe : Bool) : (cachedVerdict isSafe).isSafe = isSafe := by
  cases isSafe with
  | false => rfl
  | true => rfl

theorem honeypot_iff (analysis : TokenRiskAnalysis) :
    (!safe analysis) = decide (analysis.riskScore > 80) ↔
      analysis.riskScore < 50 ∨ 80 < analysis.riskScore := by
  unfold safe
  rw [Bool.eq_iff_iff,Bool.not_eq_true',decide_eq_false_iff_not,decide_eq_true_iff]
  constructor
  · intro h
    by_cases hlow : analysis.riskScore < 50
    · exact Or.inl hlow
    · exact Or.inr (h.mp hlow)
  · rintro (hlow | hhigh)
    · exact iff_of_false (not_not.mpr hlow) (by linarith)
    · exact iff_of_true (by linarith) hhigh

theorem contains_eq_false {functions : List String} {f : String} :
    false = functions.contains f ↔ f ∉ functions := by
  rw [eq_comm,← Bool.not_eq_true,List.contains_iff_mem]

theorem verdict_eq_iff (analysis : TokenRiskAnalysis) :
    cachedVerdict (safe analysis) = freshVerdict analysis ↔ analysis.Plain := by
  constructor
  · intro h
    refine ⟨?_,?_,(honeypot_iff analysis).mp (congrArg Verdict.isHoneypot h)⟩
    · rw [List.forall_mem_cons,List.forall_mem_cons,List.forall_mem_singleton]
      exact ⟨contains_eq_false.mp (congrArg Verdict.isMintable h),
        contains_eq_false.mp (congrArg Verdict.hasBlacklist h),
        contains_eq_false.mp (congrArg Verdict.hasWhitelist h)⟩
    · rw [List.forall_mem_cons,List.forall_mem_cons,List.forall_mem_singleton]
      exact ⟨(congrArg Verdict.hasTradingCooldown h).symm,(congrArg Verdict.hasAntiWhale h).symm,
        (congrArg Verdict.hasHighFee h).symm⟩
  · rintro ⟨hfunctions,hrisks,hscore⟩
    rw [List.forall_mem_cons,List.forall_mem_cons,List.forall_mem_singleton] at hfunctions hrisks
    ext
    · exact (honeypot_iff analysis).mpr hscore
    · exact contains_eq_false.mpr hfunctions.1
    · exact contains_eq_false.mpr hfunctions.2.1
    · exact contains_eq_false.mpr hfunctions.2.2
    · exact hrisks.1.symm
    · exact hrisks.2.1.symm
    · exact hrisks.2.2.symm
    · rw [cachedVerdict_isSafe,freshVerdict_isSafe]

/-! ## One call -/

namespace Setting

variable {g : Setting Address} {address : Address} {cache : SafetyCache Address} {c : Call}

theorem analyze_hit {tokenAddress : String} {failure : Option String} {isSafe : Bool}
    (habout : g.fromStr tokenAddress = .ok address) (hcache : cache address = some isSafe) :
    analyzeTokenByAddress g.fromStr (g.analyzeToken failure) cache tokenAddress =
      (.ok (cachedResult tokenAddress isSafe),cache) := by
  simp only [analyzeTokenByAddress,habout,hcache]

theorem analyze_fails {tokenAddress e : String} (habout : g.fromStr tokenAddress = .ok address)
    (hcache : cache address = none) :
    analyzeTokenByAddress g.fromStr (g.analyzeToken (some e)) cache tokenAddress =
      (.error ("Lỗi khi phân tích token: "++e),cache) := by
  simp only [analyzeTokenByAddress,habout,hcache,analyzeToken]

theorem analyze_fresh {tokenAddress : String} (habout : g.fromStr tokenAddress = .ok address)
    (hcache : cache address = none) :
    analyzeTokenByAddress g.fromStr (g.analyzeToken none) cache tokenAddress =
      (.ok (freshResult tokenAddress (g.analysis address)),
        Function.update cache address (some (safe (g.analysis address)))) := by
  simp only [analyzeTokenByAddress,habout,hcache,analyzeToken]

theorem isSafe_hit {tokenAddress : String} {failure : Option String} {isSafe : Bool}
    (habout : g.fromStr tokenAddress = .ok address) (hcache : cache address = some isSafe) :
    isTokenSafe g.fromStr (g.analyzeToken failure) cache tokenAddress = (.ok isSafe,cache) := by
  simp only [isTokenSafe,habout,hcache]

theorem isSafe_fails {tokenAddress e : String} (habout : g.fromStr tokenAddress = .ok address)
    (hcache : cache address = none) :
    isTokenSafe g.fromStr (g.analyzeToken (some e)) cache tokenAddress =
      (.error ("Lỗi khi phân tích token: "++e),cache) := by
  simp only [isTokenSafe,habout,hcache,analyze_fails habout hcache]

theorem isSafe_fresh {tokenAddress : String} (habout : g.fromStr tokenAddress = .ok address)
    (hcache : cache address = none) :
    isTokenSafe g.fromStr (g.analyzeToken none) cache tokenAddress =
      (.ok (safe (g.analysis address)),
        Function.update cache address (some (safe (g.analysis address)))) := by
  have hside : decide ((freshResult tokenAddress (g.analysis address)).riskScore < 50) =
      safe (g.analysis address) := freshVerdict_isSafe _
  simp only [isTokenSafe,habout,hcache,analyze_fresh habout hcache,hside,Function.update_idem]

/-- A call about one token leaves what is kept of another. -/
theorem step_other (h : ¬g.About address c) : (g.step cache c).2 address = cache address := by
  obtain ⟨question,tokenAddress,failure⟩ := c
  cases hparse : g.fromStr tokenAddress with
  | error e =>
    cases question with
    | analyze => simp only [step,analyzeTokenByAddress,hparse]
    | isSafe => simp only [step,isTokenSafe,hparse]
  | ok other =>
    have hne : address ≠ other := by
      rintro rfl
      exact h hparse
    cases hcache : cache other with
    | some isSafe =>
      cases question with
      | analyze => simp only [step,analyze_hit hparse hcache]
      | isSafe => simp only [step,isSafe_hit hparse hcache]
    | none =>
      cases failure with
      | some e =>
        cases question with
        | analyze => simp only [step,analyze_fails hparse hcache]
        | isSafe => simp only [step,isSafe_fails hparse hcache]
      | none =>
        cases question with
        | analyze => simp only [step,analyze_fresh hparse hcache,Function.update_of_ne hne]
        | isSafe => simp only [step,isSafe_fresh hparse hcache,Function.update_of_ne hne]

theorem step_hit {isSafe : Bool} (habout : g.About address c) (hcache : cache address = some isSafe)
    {v : Verdict} (hside : isSafe = v.isSafe) :
    (g.step cache c).2 = cache ∧ ((g.step cache c).1.Matches v ↔
      (c.question = .analyze → cachedVerdict isSafe = v)) := by
  obtain ⟨question,tokenAddress,failure⟩ := c
  cases question with
  | analyze =>
    simp only [step,analyze_hit habout hcache]
    exact ⟨trivial,⟨fun h _ => h,fun h => h trivial⟩⟩
  | isSafe =>
    simp only [step,isSafe_hit habout hcache]
    exact ⟨trivial,iff_of_true hside fun h => by cases h⟩

theorem step_fails {e : String} (habout : g.About address c) (hcache : cache address = none)
    (hfailure : c.failure = some e) (v : Verdict) :
    (g.step cache c).2 = cache ∧ (g.step cache c).1.Matches v := by
  obtain ⟨question,tokenAddress,failure⟩ := c
  cases hfailure
  cases question with
  | analyze =>
    simp only [step,analyze_fails habout hcache]
    exact ⟨trivial,trivial⟩
  | isSafe =>
    simp only [step,isSafe_fails habout hcache]
    exact ⟨trivial,trivial⟩

theorem step_fresh (habout : g.About address c) (hcache : cache address = none)
    (hfailure : c.failure = none) (v : Verdict) :
    (g.step cache c).2 address = some (safe (g.analysis address)) ∧
      ((g.step cache c).1.Matches v ↔ match c.question with
        | .analyze => freshVerdict (g.analysis address) = v
        | .isSafe => safe (g.analysis address) = v.isSafe) := by
  obtain ⟨question,tokenAddress,failure⟩ := c
  cases hfailure
  cases question with
  | analyze =>
    simp only [step,analyze_fresh habout hcache,Function.update_self]
    exact ⟨trivial,Iff.rfl⟩
  | isSafe =>
    simp only [step,isSafe_fresh habout hcache,Function.update_self]
    exact ⟨trivial,Iff.rfl⟩

/-! ## All calls -/

/-- Once the bit is kept, the answers match a verdict of the right side unless an analysis
gives the one that is rebuilt. -/
theorem answers_kept {calls : List Call} {isSafe : Bool} (hcache : cache address = some isSafe)
    {v : Verdict} (hside : isSafe = v.isSafe) :
    (∀ e ∈ g.answers cache calls, g.About address e.1 → e.2.Matches v) ↔
      ((∃ d ∈ calls, g.About address d ∧ d.question = .analyze) → cachedVerdict isSafe = v) := by
  induction calls generalizing cache with
  | nil => exact iff_of_true (fun _ he => absurd he List.not_mem_nil) (by rintro ⟨_,hd,_⟩; cases hd)
  | cons c calls ih =>
    rw [answers,List.forall_mem_cons]
    by_cases habout : g.About address c
    · rcases step_hit habout hcache hside with ⟨hsame,hmatches⟩
      rw [hsame,ih hcache,forall_prop_of_true habout,hmatches,List.exists_mem_cons_iff]
      constructor
      · rintro ⟨hc,hcalls⟩ (⟨_,hanalyze⟩ | hlater)
        · exact hc hanalyze
        · exact hcalls hlater
      · intro h
        exact ⟨fun hanalyze => h (Or.inl ⟨habout,hanalyze⟩),fun hlater => h (Or.inr hlater)⟩
    · rw [ih ((step_other habout).trans hcache),List.exists_mem_cons_iff,
        and_iff_right fun h => absurd h habout,or_iff_right fun h => habout h.1]

theorem agrees_skip {calls : List Call}
    (h : ∀ v, g.About address c → (g.step cache c).1.Matches v) :
    g.Agrees address (g.answers cache (c::calls)) ↔
      g.Agrees address (g.answers (g.step cache c).2 calls) := by
  rw [answers,Agrees,Agrees]
  constructor
  · rintro ⟨v,hall⟩
    exact ⟨v,(List.forall_mem_cons.mp hall).2⟩
  · rintro ⟨v,hall⟩
    exact ⟨v,List.forall_mem_cons.mpr ⟨h v,hall⟩⟩

theorem reanalyzes_skip {calls : List Call} (h : ¬(g.About address c ∧ c.failure = none)) :
    g.Reanalyzes address (c::calls) ↔ g.Reanalyzes address calls := by
  rw [Reanalyzes,if_neg h]

theorem agrees_fresh {calls : List Call} (habout : g.About address c)
    (hcache : cache address = none) (hfailure : c.failure = none) :
    g.Agrees address (g.answers cache (c::calls)) ↔
      (g.Reanalyzes address (c::calls) → (g.analysis address).Plain) := by
  rw [Reanalyzes,if_pos ⟨habout,hfailure⟩,answers,Agrees]
  have hkept := (step_fresh habout hcache hfailure (freshVerdict (g.analysis address))).1
  cases hquestion : c.question with
  | analyze =>
    rw [and_iff_right rfl,← verdict_eq_iff,
      ← answers_kept hkept (freshVerdict_isSafe (g.analysis address)).symm]
    constructor
    · rintro ⟨v,hall⟩
      rcases List.forall_mem_cons.mp hall with ⟨hfirst,hcalls⟩
      have hmatches := (step_fresh habout hcache hfailure v).2.mp (hfirst habout)
      rw [hquestion] at hmatches
      rwa [hmatches]
    · intro hcalls
      refine ⟨_,List.forall_mem_cons.mpr ⟨fun _ => ?_,hcalls⟩⟩
      rw [(step_fresh habout hcache hfailure _).2,hquestion]
  | isSafe =>
    have hside := (cachedVerdict_isSafe (safe (g.analysis address))).symm
    apply iff_of_true
    · refine ⟨cachedVerdict (safe (g.analysis address)),
        List.forall_mem_cons.mpr ⟨fun _ => ?_,(answers_kept hkept hside).mpr fun _ => rfl⟩⟩
      rw [(step_fresh habout hcache hfailure _).2,hquestion]
      exact hside
    · rintro ⟨hanalyze,_⟩
      cases hanalyze

theorem agrees_iff (hcache : cache address = none) (calls : List Call) :
    g.Agrees address (g.answers cache calls) ↔
      (g.Reanalyzes address calls → (g.analysis address).Plain) := by
  induction calls generalizing cache with
  | nil =>
    exact iff_of_true ⟨cachedVerdict true,fun _ he => absurd he List.not_mem_nil⟩ False.elim
  | cons c calls ih =>
    by_cases habout : g.About address c
    · cases hfailure : c.failure with
      | none => exact agrees_fresh habout hcache hfailure
      | some e =>
        have hfails := step_fails habout hcache hfailure
        have hskip : ¬(g.About address c ∧ c.failure = none) := by
          rw [hfailure]
          exact fun h => by cases h.2
        rw [agrees_skip fun v _ => (hfails v).2,reanalyzes_skip hskip,
          (hfails (cachedVerdict true)).1]
        exact ih hcache
    · rw [agrees_skip fun v h => absurd h habout,reanalyzes_skip fun h => habout h.1]
      exact ih ((step_other habout).trans hcache)

/-- The answers about a token agree just if it is not analysed again after an analysis, or there
is nothing that the bit does not tell. -/
theorem answers_agree_iff (g : Setting Address) (address : Address) (calls : List Call) :
    g.Agrees address (g.answers (fun _ => none) calls) ↔
      (g.Reanalyzes address calls → (g.analysis address).Plain) :=
  agrees_iff rfl calls

/-- The analysis that is in place gives every token fifty and no flag, and the token is no
honeypot at the first call and one at the second. -/
theorem answers_agree_counterexample :
    let g : Setting String := ⟨.ok,fun _ => ⟨50,[],["Test risk"],by decide,by decide⟩⟩
    let calls : List Call := [⟨.analyze,"0xaa",none⟩,⟨.analyze,"0xaa",none⟩]
    ¬g.Agrees "0xaa" (g.answers (fun _ => none) calls) := by
  intro g calls
  rw [agrees_iff rfl]
  intro h
  have hplain := h ⟨rfl,_,List.mem_singleton.mpr rfl,rfl,rfl⟩
  rcases hplain.score with hlow | hhigh
  · exact absurd hlow (by decide)
  · exact absurd hhigh (by decide)

end Setting

end DiamondBot.TokenAnalysis
