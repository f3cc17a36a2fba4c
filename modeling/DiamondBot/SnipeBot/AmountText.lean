import DiamondBot.Library.DecimalText

/-!
# Token amounts as text

An amount is shown as a whole part and a fraction cut to the number of decimals
asked for, and read back by cutting or filling up the fraction to the decimals
of the token. How 256-bit numbers are written and read is that of their type.
-/

set_option autoImplicit false

namespace DiamondBot.Utils
open Library Utf8 DecimalText

def shownDecimals (decimalPart : List Char) (displayDecimals : ℕ) : Except String (List Char) :=
  if byteLen decimalPart > displayDecimals then sliceTo decimalPart displayDecimals
  else .ok decimalPart

/-- A fraction of zeros only is left out, unless the amount is below one token. -/
def formatTokenAmount (toText : ℕ → List Char) (amount decimals displayDecimals : ℕ) :
    Except String (List Char) :=
  if amount = 0 then .ok ['0']
  else if byteLen (toText amount) ≤ decimals then do
    let formattedDecimal ← shownDecimals
      (zeros (decimals-byteLen (toText amount))++toText amount) displayDecimals
    .ok (['0'] ++ '.'::formattedDecimal)
  else do
    let integerPart ← sliceTo (toText amount) (byteLen (toText amount)-decimals)
    let decimalPart ← sliceFrom (toText amount) (byteLen (toText amount)-decimals)
    let formattedDecimal ← shownDecimals decimalPart displayDecimals
    if displayDecimals > 0 ∧ formattedDecimal ≠ [] ∧
        formattedDecimal ≠ zeros (byteLen formattedDecimal) then
      .ok (integerPart ++ '.'::formattedDecimal)
    else .ok integerPart

def fitted (decimalPart : List Char) (decimals : ℕ) : Except String (List Char) :=
  if byteLen decimalPart > decimals then sliceTo decimalPart decimals
  else if byteLen decimalPart < decimals then
    .ok (decimalPart++zeros (decimals-byteLen decimalPart))
  else .ok decimalPart

def orZero (fromDecStr : List Char → Option ℕ) (amountStr : List Char) : ℕ :=
  (fromDecStr amountStr).getD 0

def parseDecimalU256 (fromDecStr : List Char → Option ℕ) (amount : List Char) (decimals : ℕ) :
    Except String ℕ :=
  match amount.splitOn '.' with
  | [whole] => .ok (orZero fromDecStr (whole++zeros decimals))
  | [integerPart,fraction] => do
    let decimalPart ← fitted fraction decimals
    .ok (orZero fromDecStr (integerPart++decimalPart))
  | _ => .ok 0

/-- A 256-bit number is written in decimal digits, without zeros in front. -/
def WritesDecimal (toText : ℕ → List Char) : Prop :=
  ∀ amount < 2^256, toText amount = Nat.toDigits 10 amount

/-- What is read as a 256-bit number: digits of a value that fits, also none. -/
def ReadsDecimal (fromDecStr : List Char → Option ℕ) : Prop :=
  ∀ s, fromDecStr s = if Digits s ∧ value s < 2^256 then some (value s) else none

/-- The number, rounded down to so many decimals, if it is one and fits, and else zero. -/
structure Parses (s : List Char) (decimals : ℕ) (result : Except String ℕ) : Prop where
  exact : ∀ v, Numeral s v → ⌊v*10^decimals⌋₊ < 2^256 → result = .ok ⌊v*10^decimals⌋₊
  zero : (∀ v, Numeral s v → 2^256 ≤ ⌊v*10^decimals⌋₊) → result = .ok 0

/-- Where the fraction after a single point is longer than the decimals, it is
cut between two characters, and what is cut off are digits, unless what stays
reads as zero or not at all. -/
def CutsCleanly (s : List Char) (decimals : ℕ) : Prop :=
  ∀ i f, s = i ++ '.'::f → '.' ∉ i → '.' ∉ f → decimals < byteLen f →
    ∃ p t, f = p++t ∧ byteLen p = decimals ∧
      (Digits t ∨ ¬(Digits (i++p) ∧ 0 < value (i++p) ∧ value (i++p) < 2^256))

/-! ## The parts of an amount -/

theorem dots_cases (s : List Char) :
    '.' ∉ s ∨ (∃ i f, s = i ++ '.'::f ∧ '.' ∉ i ∧ '.' ∉ f) ∨
      ∃ i f g, s = i ++ '.'::(f ++ '.'::g) ∧ '.' ∉ i ∧ '.' ∉ f := by
  by_cases hs : '.' ∈ s
  · obtain ⟨i,rest,rfl,hi⟩ := List.eq_append_cons_of_mem hs
    by_cases hrest : '.' ∈ rest
    · obtain ⟨f,g,rfl,hf⟩ := List.eq_append_cons_of_mem hrest
      exact Or.inr (Or.inr ⟨i,f,g,rfl,hi,hf⟩)
    · exact Or.inr (Or.inl ⟨i,rest,rfl,hi,hrest⟩)
  · exact Or.inl hs

variable {fromDecStr : List Char → Option ℕ} {s i f : List Char} {d : ℕ}

theorem parse_whole (h : '.' ∉ s) :
    parseDecimalU256 fromDecStr s d = .ok (orZero fromDecStr (s++zeros d)) := by
  rw [parseDecimalU256,splitOn_whole h]

theorem parse_short (hi : '.' ∉ i) (hf : '.' ∉ f) (h : byteLen f ≤ d) :
    parseDecimalU256 fromDecStr (i ++ '.'::f) d =
      .ok (orZero fromDecStr (i++(f++zeros (d-byteLen f)))) := by
  have hfitted : fitted f d = .ok (f++zeros (d-byteLen f)) := by
    rw [fitted,if_neg (by omega)]
    split
    · rfl
    · rw [show d-byteLen f = 0 by omega,zeros,List.replicate_zero,List.append_nil]
  rw [parseDecimalU256,splitOn_point hi,splitOn_whole hf]
  simp only [hfitted,bind,Except.bind]

theorem parse_long (hi : '.' ∉ i) (hf : '.' ∉ f) (h : d < byteLen f) :
    parseDecimalU256 fromDecStr (i ++ '.'::f) d =
      (sliceTo f d).map fun p => orZero fromDecStr (i++p) := by
  rw [parseDecimalU256,splitOn_point hi,splitOn_whole hf]
  simp only [fitted,if_pos h]
  cases sliceTo f d <;> rfl

theorem parse_more {g : List Char} (hi : '.' ∉ i) (hf : '.' ∉ f) :
    parseDecimalU256 fromDecStr (i ++ '.'::(f ++ '.'::g)) d = .ok 0 := by
  rw [parseDecimalU256,splitOn_point hi,splitOn_point hf]
  cases hg : g.splitOn '.' with
  | nil => exact absurd hg (List.splitOn_ne_nil _ _)
  | cons first rest => rfl

/-! ## Reading -/

theorem orZero_eq (hread : ReadsDecimal fromDecStr) (s : List Char) :
    orZero fromDecStr s = if Digits s ∧ value s < 2^256 then value s else 0 := by
  rw [orZero,hread]
  split <;> rfl

/-- What is asked of a text of which it is known when it is a numeral, and which. -/
theorem parses_iff {P : Prop} [Decidable P] {q : ℚ} {n : ℕ} {result : Except String ℕ}
    (hnum : ∀ v, Numeral s v ↔ P ∧ v = q) (hn : P → ⌊q*10^d⌋₊ = n) :
    Parses s d result ↔ result = .ok (if P ∧ n < 2^256 then n else 0) := by
  constructor
  · intro h
    split
    next hfits =>
      have hfloor := hn hfits.1
      have hexact := h.exact q ((hnum q).mpr ⟨hfits.1,rfl⟩) (by rw [hfloor]; exact hfits.2)
      rwa [hfloor] at hexact
    next hnot =>
      refine h.zero fun v hv => ?_
      obtain ⟨hp,rfl⟩ := (hnum v).mp hv
      rw [hn hp]
      exact not_lt.mp fun hlt => hnot ⟨hp,hlt⟩
  · rintro rfl
    refine ⟨fun v hv hlt => ?_,fun hlarge => ?_⟩
    · obtain ⟨hp,rfl⟩ := (hnum v).mp hv
      rw [hn hp] at hlt ⊢
      rw [if_pos ⟨hp,hlt⟩]
    · rw [if_neg]
      rintro ⟨hp,hlt⟩
      have hle := hlarge q ((hnum q).mpr ⟨hp,rfl⟩)
      rw [hn hp] at hle
      omega

theorem whole_parses (hread : ReadsDecimal fromDecStr) (h : '.' ∉ s) :
    Parses s d (parseDecimalU256 fromDecStr s d) := by
  have hfloor : ⌊(value s : ℚ)*10^d⌋₊ = value s*10^d := by
    have hcast : (value s : ℚ)*10^d = ((value s*10^d : ℕ) : ℚ) := by push_cast; rfl
    rw [hcast,Nat.floor_natCast]
  have hdigits : Digits (s++zeros d) ↔ Digits s := by
    rw [digits_append,and_iff_left (digits_zeros d)]
  rw [parses_iff (fun _ => numeral_whole h) (fun _ => hfloor),parse_whole h,orZero_eq hread,
    value_shift]
  simp only [hdigits]

theorem short_parses (hread : ReadsDecimal fromDecStr) (hi : '.' ∉ i) (hf : '.' ∉ f)
    (h : byteLen f ≤ d) :
    Parses (i ++ '.'::f) d (parseDecimalU256 fromDecStr (i ++ '.'::f) d) := by
  have hdigits : Digits (i++(f++zeros (d-byteLen f))) ↔ Digits i ∧ Digits f := by
    rw [digits_append,digits_append,and_iff_left (digits_zeros _)]
  have hvalue : value (i++(f++zeros (d-byteLen f))) = value (i++f)*10^(d-byteLen f) := by
    rw [← List.append_assoc,value_shift]
  have hfloor (hp : Digits i ∧ Digits f) :
      ⌊(value (i++f)/10^f.length : ℚ)*10^d⌋₊ = value (i++f)*10^(d-byteLen f) := by
    have hlen := byteLen_digits hp.2
    rw [hlen] at h ⊢
    exact floor_short h
  rw [parses_iff (fun _ => numeral_point) hfloor,parse_short hi hf h,orZero_eq hread,hvalue]
  simp only [hdigits]

theorem more_parses {g : List Char} (hi : '.' ∉ i) (hf : '.' ∉ f) :
    Parses (i ++ '.'::(f ++ '.'::g)) d
      (parseDecimalU256 fromDecStr (i ++ '.'::(f ++ '.'::g)) d) := by
  have hnot (v : ℚ) : ¬Numeral (i ++ '.'::(f ++ '.'::g)) v := by
    rw [numeral_point]
    rintro ⟨⟨_,hd⟩,_⟩
    exact not_mem_digits hd (List.mem_append_right _ List.mem_cons_self)
  rw [parse_more hi hf]
  exact ⟨fun v hv => absurd hv (hnot v),fun _ => rfl⟩

theorem same_value_iff {P Q : Prop} [Decidable P] [Decidable Q] {n m : ℕ} :
    (if P ∧ n < m then n else 0) = (if (P ∧ Q) ∧ n < m then n else 0) ↔
      Q ∨ ¬(P ∧ 0 < n ∧ n < m) := by
  by_cases hq : Q
  · simp only [hq,and_true,true_or]
  · have hzero : (if (P ∧ Q) ∧ n < m then n else 0) = 0 := if_neg fun h => hq h.1.2
    rw [hzero,or_iff_right hq]
    split
    next h => exact ⟨fun hn hall => absurd hall.2.1 (by omega),fun hall => by
      by_contra hn
      exact hall ⟨h.1,by omega,h.2⟩⟩
    next h => exact iff_of_true rfl fun hall => h ⟨hall.1,hall.2.2⟩

theorem cut_parses_iff (hread : ReadsDecimal fromDecStr) (i p t : List Char) :
    Parses (i ++ '.'::(p++t)) (byteLen p) (.ok (orZero fromDecStr (i++p))) ↔
      Digits t ∨ ¬(Digits (i++p) ∧ 0 < value (i++p) ∧ value (i++p) < 2^256) := by
  have hfloor (hp : Digits i ∧ Digits (p++t)) :
      ⌊(value (i++(p++t))/10^(p++t).length : ℚ)*10^byteLen p⌋₊ = value (i++p) := by
    obtain ⟨hdp,hdt⟩ := digits_append.mp hp.2
    rw [byteLen_digits hdp]
    exact floor_long hdt
  have hdigits : Digits i ∧ Digits (p++t) ↔ Digits (i++p) ∧ Digits t := by
    rw [digits_append,digits_append,and_assoc]
  rw [parses_iff (fun _ => numeral_point) hfloor,Except.ok.injEq,orZero_eq hread]
  simp only [hdigits]
  exact same_value_iff

theorem long_parses_iff (hread : ReadsDecimal fromDecStr) (hi : '.' ∉ i) (hf : '.' ∉ f)
    (h : d < byteLen f) :
    Parses (i ++ '.'::f) d (parseDecimalU256 fromDecStr (i ++ '.'::f) d) ↔
      ∃ p t, f = p++t ∧ byteLen p = d ∧
        (Digits t ∨ ¬(Digits (i++p) ∧ 0 < value (i++p) ∧ value (i++p) < 2^256)) := by
  rw [parse_long hi hf h]
  by_cases hcut : Boundary f d
  · obtain ⟨p,t,rfl,rfl⟩ := hcut
    have hslice : sliceTo (p++t) (byteLen p) = .ok p := sliceTo_ok.mpr ⟨t,rfl,rfl⟩
    rw [hslice]
    refine (cut_parses_iff hread i p t).trans ⟨fun hclean => ⟨p,t,rfl,rfl,hclean⟩,?_⟩
    rintro ⟨p',t',hsplit,hlen,hclean⟩
    obtain ⟨rfl,rfl⟩ := cut_unique hsplit hlen
    exact hclean
  · rw [sliceTo_panics hcut]
    refine iff_of_false (fun hparses => ?_) fun ⟨p,t,hsplit,hlen,_⟩ => hcut ⟨p,t,hsplit,hlen⟩
    have hok := (parses_iff (fun _ => numeral_point) fun _ => rfl).mp hparses
    cases hok

/-- Reading an amount never panics and gives the number or zero, exactly where a
longer fraction is cut cleanly. -/
theorem parse_correct_iff (hread : ReadsDecimal fromDecStr) (s : List Char) (d : ℕ) :
    Parses s d (parseDecimalU256 fromDecStr s d) ↔ CutsCleanly s d := by
  have hdot {g g' : List Char} : '.' ∈ g ++ '.'::g' := List.mem_append_right _ List.mem_cons_self
  rcases dots_cases s with hs | ⟨i,f,rfl,hi,hf⟩ | ⟨i,f,g,rfl,hi,hf⟩
  · refine iff_of_true (whole_parses hread hs) ?_
    rintro i f rfl
    exact absurd hdot hs
  · have honly : CutsCleanly (i ++ '.'::f) d ↔ (d < byteLen f → ∃ p t, f = p++t ∧ byteLen p = d ∧
        (Digits t ∨ ¬(Digits (i++p) ∧ 0 < value (i++p) ∧ value (i++p) < 2^256))) := by
      refine ⟨fun h => h i f rfl hi hf,fun h i' f' hsplit hi' hf' => ?_⟩
      obtain ⟨rfl,_,rfl⟩ := (List.append_cons_inj_of_notMem hi hf).mp hsplit
      exact h
    rw [honly]
    by_cases hlen : d < byteLen f
    · rw [long_parses_iff hread hi hf hlen,forall_prop_of_true hlen]
    · exact iff_of_true (short_parses hread hi hf (not_lt.mp hlen)) fun h => absurd h hlen
  · refine iff_of_true (more_parses hi hf) ?_
    intro i' f' hsplit hi' hf'
    obtain ⟨rfl,_,rfl⟩ := (List.append_cons_inj_of_notMem hi' hf').mp hsplit.symm
    exact absurd hdot hf'

def readDigits (s : List Char) : Option ℕ :=
  if Digits s ∧ value s < 2^256 then some (value s) else none

theorem readDigits_reads : ReadsDecimal readDigits := fun _ => rfl

theorem two_places_parses :
    Parses ['1','.','2','5'] 1 (parseDecimalU256 readDigits ['1','.','2','5'] 1) := by
  refine (parse_correct_iff readDigits_reads _ _).mpr fun i f hsplit _ _ _ => ?_
  have hwhole : '.' ∉ ['1'] := by decide
  have hfraction : '.' ∉ ['2','5'] := by decide
  have hsame : ['1'] ++ '.'::['2','5'] = i ++ '.'::f := hsplit
  obtain ⟨rfl,_,rfl⟩ := (List.append_cons_inj_of_notMem hwhole hfraction).mp hsame
  exact ⟨['2'],['5'],rfl,rfl,Or.inl (by decide)⟩

/-- One decimal of `1.é` lies inside a character, and behind that of `1.2x` is no digit. -/
theorem foreign_fraction_not_parsed :
    ¬Parses ['1','.','é'] 1 (parseDecimalU256 readDigits ['1','.','é'] 1) ∧
      ¬Parses ['1','.','2','x'] 1 (parseDecimalU256 readDigits ['1','.','2','x'] 1) := by
  have hnot (f : List Char) (hf : ¬Digits f) (v : ℚ) : ¬Numeral (['1'] ++ '.'::f) v :=
    fun hv => hf (numeral_point.mp hv).1.2
  refine ⟨fun h => ?_,fun h => ?_⟩
  · have hzero := h.zero fun v hv => absurd hv (hnot ['é'] (by decide) v)
    cases hzero
  · have hzero := h.zero fun v hv => absurd hv (hnot ['2','x'] (by decide) v)
    cases hzero

/-! ## What is shown is read again -/

variable {toText : ℕ → List Char} {i dp : List Char} {a k : ℕ}

theorem shown_digits (h : Digits dp) : shownDecimals dp k = .ok (dp.take k) := by
  rw [shownDecimals,byteLen_digits h]
  split
  next hlong => exact sliceTo_digits h hlong.le
  next hshort => rw [List.take_of_length_le (not_lt.mp hshort)]

theorem value_shown (hdp : Digits dp) (hd : dp.length = d) (ha : value (i++dp) = a) :
    value (i++dp.take k) = a/10^(d-k) := by
  have hdrop : Digits (dp.drop k) := fun c hc => hdp c (List.mem_of_mem_drop hc)
  have hlen : (dp.drop k).length = d-k := by rw [List.length_drop,hd]
  have hdiv := value_div (s := i++dp.take k) hdrop
  rwa [List.append_assoc,List.take_append_drop,ha,hlen,eq_comm] at hdiv

theorem cut_lt (ha : a < 2^256) : a/10^(d-k)*10^(d-k) < 2^256 :=
  (Nat.div_mul_le_self _ _).trans_lt ha

theorem parse_shown (hread : ReadsDecimal fromDecStr) (hi : Digits i) (hdp : Digits dp)
    (hd : dp.length = d) (ha : value (i++dp) = a) (hfits : a < 2^256) :
    parseDecimalU256 fromDecStr (i ++ '.'::dp.take k) d = .ok (a/10^(d-k)*10^(d-k)) := by
  have htake : Digits (dp.take k) := fun c hc => hdp c (List.mem_of_mem_take hc)
  have hlen : byteLen (dp.take k) = min k d := by
    rw [byteLen_digits htake,List.length_take,hd]
  have hvalue : value (i++(dp.take k++zeros (d-min k d))) = a/10^(d-k)*10^(d-k) := by
    rw [← List.append_assoc,value_shift,value_shown hdp hd ha,show d-min k d = d-k by omega]
  have hdigits : Digits (i++(dp.take k++zeros (d-min k d))) :=
    digits_append.mpr ⟨hi,digits_append.mpr ⟨htake,digits_zeros _⟩⟩
  rw [parse_short (not_mem_digits hi) (not_mem_digits htake) (by omega),hlen,orZero_eq hread,
    if_pos ⟨hdigits,hvalue ▸ cut_lt hfits⟩,hvalue]

theorem parse_left_out (hread : ReadsDecimal fromDecStr) (hi : Digits i) (hdp : Digits dp)
    (hd : dp.length = d) (ha : value (i++dp) = a) (hfits : a < 2^256)
    (hzeros : dp.take k = zeros (min k d)) :
    parseDecimalU256 fromDecStr i d = .ok (a/10^(d-k)*10^(d-k)) := by
  have hshown := value_shown (k := k) hdp hd ha
  rw [hzeros,value_shift] at hshown
  have hvalue : value (i++zeros d) = a/10^(d-k)*10^(d-k) := by
    calc value (i++zeros d) = value i*10^d := value_shift i d
      _ = value i*(10^min k d*10^(d-k)) := by rw [← pow_add,show min k d+(d-k) = d by omega]
      _ = a/10^(d-k)*10^(d-k) := by rw [← Nat.mul_assoc,hshown]
  have hdigits : Digits (i++zeros d) := digits_append.mpr ⟨hi,digits_zeros d⟩
  rw [parse_whole (not_mem_digits hi),orZero_eq hread,
    if_pos ⟨hdigits,hvalue ▸ cut_lt hfits⟩,hvalue]

theorem format_zero : formatTokenAmount toText 0 d k = .ok ['0'] := rfl

theorem format_below (ha : a ≠ 0) (hw : Digits (toText a)) (hlen : (toText a).length ≤ d) :
    formatTokenAmount toText a d k =
      .ok (['0'] ++ '.'::(zeros (d-(toText a).length)++toText a).take k) := by
  have hdp := digits_append.mpr ⟨digits_zeros (d-(toText a).length),hw⟩
  rw [formatTokenAmount,if_neg ha,byteLen_digits hw,if_pos hlen,shown_digits hdp]
  rfl

/-- From one token on the fraction is shown unless it is left out. -/
theorem format_above (ha : a ≠ 0) (htext : toText a = i++dp) (hi : Digits i) (hdp : Digits dp)
    (hd : dp.length = d) (hpos : i ≠ []) :
    formatTokenAmount toText a d k = .ok (i ++ '.'::dp.take k) ∨
      formatTokenAmount toText a d k = .ok i ∧ dp.take k = zeros (min k d) := by
  have htake : Digits (dp.take k) := fun c hc => hdp c (List.mem_of_mem_take hc)
  have hlen : (dp.take k).length = min k d := by rw [List.length_take,hd]
  have hi0 := List.length_pos_iff.mpr hpos
  have hbytes : byteLen (i++dp) = i.length+d := by
    rw [byteLen_append,byteLen_digits hi,byteLen_digits hdp,hd]
  have hcut : byteLen i = i.length+d-d := by rw [byteLen_digits hi,Nat.add_sub_cancel]
  have hwhole : sliceTo (i++dp) (i.length+d-d) = .ok i := sliceTo_ok.mpr ⟨dp,rfl,hcut⟩
  have hfraction : sliceFrom (i++dp) (i.length+d-d) = .ok dp := sliceFrom_ok.mpr ⟨i,rfl,hcut⟩
  rw [formatTokenAmount,if_neg ha,htext,hbytes,if_neg (by omega),hwhole,hfraction]
  simp only [bind,Except.bind,shown_digits hdp,byteLen_digits htake,hlen]
  split
  next => exact Or.inl rfl
  next hzeros =>
    refine Or.inr ⟨rfl,?_⟩
    by_contra hne
    have hmin : min k d ≠ 0 := by
      intro hnone
      rw [hnone] at hlen hne
      exact hne (List.length_eq_zero_iff.mp hlen)
    refine hzeros ⟨by omega,fun hnil => hmin ?_,hne⟩
    rw [← hlen,hnil,List.length_nil]

/-- Read back, an amount is itself with the decimals that were not shown replaced by zeros. -/
theorem format_reads (hwrite : WritesDecimal toText) (hread : ReadsDecimal fromDecStr)
    (hfits : a < 2^256) (d k : ℕ) :
    ∃ text, formatTokenAmount toText a d k = .ok text ∧
      parseDecimalU256 fromDecStr text d = .ok (a/10^(d-k)*10^(d-k)) := by
  by_cases ha : a = 0
  · subst ha
    have hzero : value (['0']++zeros d) = 0 := (value_pad 1 (zeros d)).trans (value_zeros d)
    exact ⟨['0'],format_zero,parse_left_out hread (by decide) (digits_zeros d) (length_zeros d)
      hzero hfits List.take_replicate⟩
  have hvalue : value (toText a) = a := by rw [hwrite a hfits,value_toDigits]
  have hw : Digits (toText a) := hwrite a hfits ▸ digits_toDigits a
  rcases Nat.lt_or_ge d (toText a).length with hlen | hlen
  · have hsplit := (List.take_append_drop ((toText a).length-d) (toText a)).symm
    have hi : ((toText a).take ((toText a).length-d)).length = (toText a).length-d :=
      List.length_take_of_le (Nat.sub_le _ _)
    have hd : ((toText a).drop ((toText a).length-d)).length = d := by
      rw [List.length_drop]
      omega
    generalize (toText a).take ((toText a).length-d) = i at hsplit hi
    generalize (toText a).drop ((toText a).length-d) = dp at hsplit hd
    rw [hsplit] at hw hvalue
    obtain ⟨hdi,hdp⟩ := digits_append.mp hw
    have hpos : i ≠ [] := List.length_pos_iff.mp (by omega)
    rcases format_above (k := k) ha hsplit hdi hdp hd hpos with hform | ⟨hform,hzeros⟩
    · exact ⟨_,hform,parse_shown hread hdi hdp hd hvalue hfits⟩
    · exact ⟨_,hform,parse_left_out hread hdi hdp hd hvalue hfits hzeros⟩
  · have hdp := digits_append.mpr ⟨digits_zeros (d-(toText a).length),hw⟩
    have hd : (zeros (d-(toText a).length)++toText a).length = d := by
      rw [List.length_append,length_zeros]
      omega
    have hfilled : value (['0']++(zeros (d-(toText a).length)++toText a)) = a :=
      (value_pad 1 _).trans ((value_pad _ _).trans hvalue)
    exact ⟨_,format_below ha hw hlen,parse_shown hread (by decide) hdp hd hfilled hfits⟩

/-- An amount comes back whole when all its decimals are shown, and else with
zeros for those that are not. -/
theorem format_round_trips (hwrite : WritesDecimal toText) (hread : ReadsDecimal fromDecStr)
    (hfits : a < 2^256) (d k : ℕ) :
    ∃ text, formatTokenAmount toText a d k = .ok text ∧
      (d ≤ k → parseDecimalU256 fromDecStr text d = .ok a) ∧
      (k < d → parseDecimalU256 fromDecStr text d = .ok (a/10^(d-k)*10^(d-k))) := by
  obtain ⟨text,hform,hparse⟩ := format_reads hwrite hread hfits d k
  refine ⟨text,hform,fun hall => ?_,fun _ => hparse⟩
  rwa [Nat.sub_eq_zero_of_le hall,pow_zero,Nat.div_one,Nat.mul_one] at hparse

/-- Three of six decimals shown. -/
theorem three_places_round_trip :
    ∃ text, formatTokenAmount (Nat.toDigits 10) 1234567 6 3 = .ok text ∧
      parseDecimalU256 readDigits text 6 = .ok 1234000 := by
  have hwrite : WritesDecimal (Nat.toDigits 10) := fun _ _ => rfl
  obtain ⟨text,hform,_,hcut⟩ := format_round_trips hwrite readDigits_reads (a := 1234567)
    (by norm_num) 6 3
  exact ⟨text,hform,hcut (by decide)⟩

end DiamondBot.Utils
