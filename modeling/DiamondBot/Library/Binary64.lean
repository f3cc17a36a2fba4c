import Mathlib

/-!
# Quotients and products of numbers as binary64 floats

A natural number below `2^53` is a float, and the division of two of them is
the exact quotient rounded to 53 bits, to a nearest number and on a tie to the
even one. What follows is said of the model of the floating point unit that the
operations are defined by. Comparing a rounded quotient with a constant is then
comparing the exact one, up to half a unit of the constant. A product of two
floats is the exact one up to a unit, and a float is cut to a whole number.
-/

set_option autoImplicit false

namespace Library.Binary64
open Float.Model UnpackedFloat

/-! ## Mantissas of 53 bits -/

theorem normal_log {m : ℕ} (h : 2^52 ≤ m) (h' : m < 2^53) : m.log2 = 52 :=
  (Nat.log2_eq_iff (by omega)).mpr ⟨h,h'⟩

theorem implicit_bit {m : ℕ} (hm : 2^52 ≤ m) (hm' : m < 2^53) :
    (1#1 ++ BitVec.ofNat 52 m).toNat = m := by
  have hone : 1%2^1 = 1 := rfl
  rw [BitVec.toNat_append,BitVec.toNat_ofNat,BitVec.toNat_ofNat,hone,Nat.shiftLeft_eq,Nat.mul_comm,
    ← Nat.two_pow_add_eq_or_of_lt (Nat.mod_lt _ (by omega))]
  omega

theorem unpack_pack {m : ℕ} {e : ℤ} (h : 0 < m) (hm : 2^52 ≤ m) (hm' : m < 2^53)
    (he : -1074 ≤ e) (he' : e ≤ 971) :
    (Float.Model.pack (.finite .positive m e h)).unpack = .finite .positive m e h := by
  obtain ⟨b,hb⟩ : ∃ b : ℕ, e+1075 = b := ⟨_,(Int.toNat_of_nonneg (by omega)).symm⟩
  have hbias : (e+((2^(11-1)-1 : ℕ) : ℤ)+(52 : ℕ)).toNat = b := by omega
  have hexp : (BitVec.ofNat 11 b).toNat = b := by rw [BitVec.toNat_ofNat]; omega
  have hinf : BitVec.ofNat 11 b ≠ -1#11 := fun h => by
    have := congrArg BitVec.toNat h
    rw [hexp] at this
    have h' : (-1#11).toNat = 2047 := rfl
    omega
  have hsub : BitVec.ofNat 11 b ≠ 0#11 := fun h => by
    have := congrArg BitVec.toNat h
    rw [hexp] at this
    have h' : (0#11).toNat = 0 := rfl
    omega
  simp only [Float.Model.unpack,Float.Model.pack,UnpackedFloat.pack,Format.exponentBias,
    Format.mantissaBits,normal_log hm hm',hbias]
  rw [if_neg (by omega),if_pos trivial]
  simp only [UnpackedFloat.unpack,unpackExponent_packComponents,unpackMantissa_packComponents,
    unpackSign_packComponents,Sign.ofBitVec_toBitVec,if_neg hinf,if_neg hsub,implicit_bit hm hm',hexp,Format.exponentBias]
  congr 1
  omega

/-! ## Rounding -/

theorem target_eq {m : ℕ} {e : ℤ} (h : -1022 ≤ m.log2+e) :
    Format.binary64.targetExponent (totalExponent m e) = m.log2+e-52 := by
  have hmin : Format.binary64.minExponent = -1074 := rfl
  have hbits : (Format.binary64.mantissaBits : ℤ) = 53 := rfl
  rw [Format.targetExponent,hmin,hbits,totalExponent]
  omega

theorem shift_eq {m k : ℕ} {e : ℤ} (a : Accuracy) (hlog : m.log2 = 52+k) (he : -1074 ≤ e) :
    shiftToTargetExponent Format.binary64 m e a =
      (ExtendedMantissa.ofMantissaAndAccuracy m a >>> k,e+k) := by
  have hshift : ((m.log2 : ℤ)+e-52-e).toNat = k := by omega
  simp only [shiftToTargetExponent,target_eq (m := m) (e := e) (by omega),shiftToExponent,hshift]

theorem shift_normal {m : ℕ} {e : ℤ} (hm : 2^52 ≤ m) (hm' : m < 2^53) (he : -1074 ≤ e) :
    shiftToTargetExponent Format.binary64 m e .exact = (⟨m,false,false⟩,e) := by
  rw [shift_eq (k := 0) .exact (normal_log hm hm') he,Nat.cast_zero,add_zero]
  rfl

theorem shift_carry {e : ℤ} (he : -1074 ≤ e) :
    shiftToTargetExponent Format.binary64 (2^53) e .exact = (⟨2^52,false,false⟩,e+1) := by
  rw [shift_eq (k := 1) .exact Nat.log2_two_pow he,Nat.cast_one]
  rfl

theorem roundWithAccuracy_normal {m r : ℕ} {e e' : ℤ} {a : Accuracy} {em : ExtendedMantissa}
    (hshift : shiftToTargetExponent Format.binary64 m e a = (em,e'))
    (hround : em.roundedMantissa = r) (h : 0 < r) (hr : 2^52 ≤ r) (hr' : r < 2^53)
    (he : -1074 ≤ e') :
    roundWithAccuracy Format.binary64 .positive m e a = .finite .positive r e' h := by
  simp only [roundWithAccuracy,hshift,hround,shift_normal hr hr' he,
    dif_neg (show r ≠ 0 by omega)]

theorem roundWithAccuracy_carry {m : ℕ} {e e' : ℤ} {a : Accuracy} {em : ExtendedMantissa}
    (hshift : shiftToTargetExponent Format.binary64 m e a = (em,e'))
    (hround : em.roundedMantissa = 2^53) (he : -1074 ≤ e') :
    roundWithAccuracy Format.binary64 .positive m e a =
      .finite .positive (2^52) (e'+1) (by decide) := by
  simp only [roundWithAccuracy,hshift,hround,shift_carry he]
  rfl

/-! ## Natural numbers -/

theorem shiftLeft_normal {n : ℕ} (h : 0 < n) (h' : n < 2^53) :
    2^52 ≤ n <<< (52-n.log2) ∧ n <<< (52-n.log2) < 2^53 := by
  have hlog : n.log2 < 53 := (Nat.log2_lt (by omega)).mpr h'
  have hle := Nat.log2_self_le (n := n) (by omega)
  have hlt := Nat.lt_log2_self (n := n)
  rw [Nat.shiftLeft_eq]
  constructor
  · calc 2^52 = 2^n.log2*2^(52-n.log2) := by rw [← pow_add]; congr 1; omega
      _ ≤ n*2^(52-n.log2) := Nat.mul_le_mul_right _ hle
  · calc n*2^(52-n.log2) < 2^(n.log2+1)*2^(52-n.log2) :=
        Nat.mul_lt_mul_of_pos_right hlt (Nat.two_pow_pos _)
      _ = 2^53 := by rw [← pow_add]; congr 1; omega

theorem toFloat_unpack {n : UInt64} (h : 0 < n.toNat) (h' : n.toNat < 2^53) :
    n.toFloat.toModel.unpack = .finite .positive (n.toNat <<< (52-n.toNat.log2)) (n.toNat.log2-52)
      (Nat.shiftLeft_pos_iff.mpr h) := by
  obtain ⟨hlow,hhigh⟩ := shiftLeft_normal h h'
  have hlog : n.toNat.log2 < 53 := (Nat.log2_lt (by omega)).mpr h'
  have hround : UnpackedFloat.ofUInt64 Format.binary64 n = .finite .positive
      (n.toNat <<< (52-n.toNat.log2)) (n.toNat.log2-52) (Nat.shiftLeft_pos_iff.mpr h) := by
    have hshift : (0-((n.toNat.log2 : ℤ)+0-52)).toNat = 52-n.toNat.log2 := by omega
    have hexp : (0 : ℤ)-((52-n.toNat.log2 : ℕ) : ℤ) = n.toNat.log2-52 := by omega
    rw [UnpackedFloat.ofUInt64,UnpackedFloat.ofNat,UnpackedFloat.ofInt,
      UnpackedFloat.normalize,Int.compare_eq_gt.mpr (by omega)]
    simp only [Int.toNat_natCast,UnpackedFloat.round,target_eq (e := 0) (m := n.toNat) (by omega),
      decreaseExponent,hshift,hexp]
    exact roundWithAccuracy_normal (shift_normal hlow hhigh (by omega)) rfl _ hlow hhigh (by omega)
  change (Float.Model.pack (UnpackedFloat.ofUInt64 Format.binary64 n)).unpack = _
  rw [hround]
  exact unpack_pack _ hlow hhigh (by omega) (by omega)

/-! ## Quotients -/

/-- `r` is a nearest integer to the fraction. -/
def Nearest (num den r : ℕ) : Prop := 2*num ≤ (2*r+1)*den ∧ 2*r*den ≤ 2*num+den

theorem nearest_below {den q r : ℕ} (h : 2*r ≤ den) : Nearest (den*q+r) den q := by
  constructor <;> nlinarith

theorem nearest_above {den q r : ℕ} (h : den ≤ 2*r) (hlt : r < den) :
    Nearest (den*q+r) den (q+1) := by
  constructor <;> nlinarith

theorem nearest_round (num : ℕ) {den : ℕ} (h : 0 < den) :
    Nearest num den ((accuracyOfFraction (num%den) den).roundToNearestEven (num/den)) := by
  have hdiv := Nat.div_add_mod num den
  have hlt := Nat.mod_lt num h
  generalize num/den = q at *
  generalize num%den = r at *
  subst hdiv
  unfold accuracyOfFraction
  split
  next hr => exact nearest_below (by omega)
  next hr =>
    rcases lt_trichotomy (2*r) den with hbelow | htie | habove
    · rw [Nat.compare_eq_lt.mpr hbelow]
      exact nearest_below hbelow.le
    · rw [Nat.compare_eq_eq.mpr htie]
      have heven : (Accuracy.inexact .eq).roundToNearestEven q = q ∨
          (Accuracy.inexact .eq).roundToNearestEven q = q+1 := by
        simp only [Accuracy.roundToNearestEven]
        omega
      rcases heven with heven | heven
      · rw [heven]
        exact nearest_below htie.le
      · rw [heven]
        exact nearest_above htie.ge hlt
    · rw [Nat.compare_eq_gt.mpr habove]
      exact nearest_above habove.le hlt

/-- One bit dropped before rounding leaves the fraction over twice the denominator. -/
theorem shiftRightOne_round {num den : ℕ} (h : 0 < den) :
    (ExtendedMantissa.ofMantissaAndAccuracy (num/den)
      (accuracyOfFraction (num%den) den)).shiftRightOne.roundedMantissa =
    (accuracyOfFraction (num%(den*2)) (den*2)).roundToNearestEven (num/(den*2)) := by
  have hlt := Nat.mod_lt num h
  rw [← Nat.div_div_eq_div_mul,Nat.mod_mul]
  generalize num/den = q
  generalize num%den = r at *
  have hrest : accuracyOfFraction r den = .exact ∧ r = 0 ∨
      ∃ o, accuracyOfFraction r den = .inexact o ∧ 0 < r := by
    unfold accuracyOfFraction
    split
    next hr => exact Or.inl ⟨rfl,hr⟩
    next hr => exact Or.inr ⟨_,rfl,by omega⟩
  rcases Nat.mod_two_eq_zero_or_one q with hq | hq
  · rcases hrest with ⟨hacc,hr⟩ | ⟨o,hacc,hr⟩
    · rw [hacc,hq,hr]
      simp [ExtendedMantissa.ofMantissaAndAccuracy,ExtendedMantissa.shiftRightOne,hq,
        ExtendedMantissa.roundedMantissa,ExtendedMantissa.accuracy,accuracyOfFraction]
    · have hcompare : compare (2*(r+den*0)) (den*2) = .lt := Nat.compare_eq_lt.mpr (by omega)
      rw [hacc,hq,accuracyOfFraction,if_neg (by omega),hcompare]
      cases o <;> simp [ExtendedMantissa.ofMantissaAndAccuracy,ExtendedMantissa.shiftRightOne,hq,
        ExtendedMantissa.roundedMantissa,ExtendedMantissa.accuracy]
  · rcases hrest with ⟨hacc,hr⟩ | ⟨o,hacc,hr⟩
    · have hcompare : compare (2*(0+den*1)) (den*2) = .eq := Nat.compare_eq_eq.mpr (by omega)
      rw [hacc,hq,hr,accuracyOfFraction,if_neg (by omega),hcompare]
      simp [ExtendedMantissa.ofMantissaAndAccuracy,ExtendedMantissa.shiftRightOne,hq,
        ExtendedMantissa.roundedMantissa,ExtendedMantissa.accuracy]
    · have hcompare : compare (2*(r+den*1)) (den*2) = .gt := Nat.compare_eq_gt.mpr (by omega)
      rw [hacc,hq,accuracyOfFraction,if_neg (by omega),hcompare]
      cases o <;> simp [ExtendedMantissa.ofMantissaAndAccuracy,ExtendedMantissa.shiftRightOne,hq,
        ExtendedMantissa.roundedMantissa,ExtendedMantissa.accuracy]

theorem ofMantissaAndAccuracy_round (m : ℕ) (a : Accuracy) :
    (ExtendedMantissa.ofMantissaAndAccuracy m a).roundedMantissa = a.roundToNearestEven m := by
  cases a with
  | exact => rfl
  | inexact o => cases o <;> rfl

theorem roundWithAccuracy_eq {m r : ℕ} {e e' : ℤ} {a : Accuracy} {em : ExtendedMantissa}
    (hshift : shiftToTargetExponent Format.binary64 m e a = (em,e'))
    (hround : em.roundedMantissa = r) (hr : 2^52 ≤ r) (hr' : r ≤ 2^53) (he : -1074 ≤ e') :
    ∃ (m' : ℕ) (E : ℤ) (h : 0 < m'), 2^52 ≤ m' ∧ m' < 2^53 ∧
      (m' = r ∧ E = e' ∨ r = 2^53 ∧ m' = 2^52 ∧ E = e'+1) ∧
      roundWithAccuracy Format.binary64 .positive m e a = .finite .positive m' E h := by
  rcases Nat.lt_or_ge r (2^53) with hlt | hge
  · exact ⟨r,e',by omega,hr,hlt,Or.inl ⟨rfl,rfl⟩,
      roundWithAccuracy_normal hshift hround (by omega) hr hlt he⟩
  · obtain rfl : r = 2^53 := by omega
    exact ⟨2^52,e'+1,by decide,le_rfl,by decide,Or.inr ⟨rfl,rfl,rfl⟩,
      roundWithAccuracy_carry hshift hround he⟩

theorem nearest_bounds {num den r a b : ℕ} (h : Nearest num den r) (hden : 0 < den)
    (ha : a*den ≤ num) (hb : num < b*den) : a ≤ r ∧ r ≤ b := by
  obtain ⟨hlow,hhigh⟩ := h
  constructor
  · by_contra hlt
    have hle : (2*r+2)*den ≤ 2*a*den := Nat.mul_le_mul_right _ (by omega)
    nlinarith
  · by_contra hlt
    have hle : (2*b+2)*den ≤ 2*r*den := Nat.mul_le_mul_right _ (by omega)
    nlinarith

/-- The quotient of two mantissas of 53 bits: a nearest integer to the fraction,
brought to 53 bits by one more shift or none. -/
theorem divide_normal {M N : ℕ} (hM : 2^52 ≤ M) (hM' : M < 2^53) (hN : 2^52 ≤ N)
    (hN' : N < 2^53) {e : ℤ} (he : -1074 ≤ e) :
    ∃ (k r m : ℕ) (E : ℤ) (h : 0 < m), 2^52*(N*2^k) ≤ M*2^53 ∧ M*2^53 < 2^53*(N*2^k) ∧
      Nearest (M*2^53) (N*2^k) r ∧ k ≤ 1 ∧ 2^52 ≤ m ∧ m < 2^53 ∧
      (m = r ∧ E = e+k ∨ r = 2^53 ∧ m = 2^52 ∧ E = e+k+1) ∧
      roundWithAccuracy Format.binary64 .positive (M*2^53/N) e
        (accuracyOfFraction (M*2^53%N) N) = .finite .positive m E h := by
  have hpos : 0 < N := by omega
  rcases Nat.lt_or_ge M N with hlt | hge
  · have hlow : 2^52*(N*2^0) ≤ M*2^53 := by omega
    have hhigh : M*2^53 < 2^53*(N*2^0) := by omega
    have hnear := nearest_round (M*2^53) hpos
    have hlog : (M*2^53/N).log2 = 52+0 := by
      refine (Nat.log2_eq_iff (Nat.ne_of_gt (Nat.div_pos (by omega) hpos))).mpr ⟨?_,?_⟩
      · exact (Nat.le_div_iff_mul_le hpos).mpr (by omega)
      · exact (Nat.div_lt_iff_lt_mul hpos).mpr (by omega)
    rw [pow_zero,Nat.mul_one] at hlow hhigh
    obtain ⟨hr,hr'⟩ := nearest_bounds hnear hpos hlow hhigh
    obtain ⟨m,E,h,hm,hm',hE,hround⟩ := roundWithAccuracy_eq
      (shift_eq (accuracyOfFraction (M*2^53%N) N) hlog he)
      (ofMantissaAndAccuracy_round _ _) hr hr' (by omega)
    refine ⟨0,_,m,E,h,?_,?_,?_,by omega,hm,hm',hE,hround⟩ <;> rw [pow_zero,Nat.mul_one]
    exacts [hlow,hhigh,hnear]
  · have hpos2 : 0 < N*2 := by omega
    have hlow : 2^52*(N*2) ≤ M*2^53 := by omega
    have hhigh : M*2^53 < 2^53*(N*2) := by omega
    have hnear := nearest_round (M*2^53) hpos2
    have hlog : (M*2^53/N).log2 = 52+1 := by
      refine (Nat.log2_eq_iff (Nat.ne_of_gt (Nat.div_pos (by omega) hpos))).mpr ⟨?_,?_⟩
      · exact (Nat.le_div_iff_mul_le hpos).mpr (by omega)
      · exact (Nat.div_lt_iff_lt_mul hpos).mpr (by omega)
    obtain ⟨hr,hr'⟩ := nearest_bounds hnear hpos2 hlow hhigh
    obtain ⟨m,E,h,hm,hm',hE,hround⟩ := roundWithAccuracy_eq
      (shift_eq (accuracyOfFraction (M*2^53%N) N) hlog he)
      (shiftRightOne_round hpos) hr hr' (by omega)
    refine ⟨1,_,m,E,h,?_,?_,?_,le_rfl,hm,hm',hE,hround⟩ <;> rw [pow_one]
    exacts [hlow,hhigh,hnear]

/-! ## Values -/

/-- The float is positive, has 53 bits and stands for the number. -/
def HasValue (f : Float) (v : ℚ) : Prop :=
  ∃ (m : ℕ) (e : ℤ) (h : 0 < m), f.toModel.unpack = .finite .positive m e h ∧
    2^52 ≤ m ∧ m < 2^53 ∧ v = m*2^e

/-- The number lies among those of 53 bits over `2^e`, and `r` is a nearest of them. -/
structure Rounds (x : ℚ) (r : ℕ) (e : ℤ) : Prop where
  low : 2^52*2^e ≤ x
  high : x < 2^53*2^e
  below : x ≤ r*2^e+2^e/2
  above : r*2^e-2^e/2 ≤ x

theorem unit_pos (e : ℤ) : (0 : ℚ) < 2^e := zpow_pos (by norm_num) e

theorem unit_le {e e' : ℤ} (h : e ≤ e') : (2 : ℚ)^e ≤ 2^e' :=
  zpow_le_zpow_right₀ (by norm_num) h

theorem unit_lt {e e' : ℤ} (h : e < e') : (2 : ℚ)*2^e ≤ 2^e' := by
  rw [← zpow_one_add₀ (by norm_num)]
  exact unit_le (by omega)

theorem mantissa_le {m : ℕ} (h : m < 2^53) : (m : ℚ) ≤ 2^53-1 := by
  have hle : ((m+1 : ℕ) : ℚ) ≤ ((2^53 : ℕ) : ℚ) := by exact_mod_cast h
  push_cast at hle
  linarith

theorem exponent_lt {m n : ℕ} {e e' : ℤ} (hm : m < 2^53) (hn : 2^52 ≤ n) (he : e < e') :
    (m : ℚ)*2^e < n*2^e' := by
  have hnq : (2^52 : ℚ) ≤ n := by exact_mod_cast hn
  have hmq := mantissa_le hm
  have hpos := unit_pos e
  have hunit := unit_lt he
  calc (m : ℚ)*2^e < 2^52*(2*2^e) := by nlinarith
    _ ≤ 2^52*2^e' := mul_le_mul_of_nonneg_left hunit (by norm_num)
    _ ≤ n*2^e' := mul_le_mul_of_nonneg_right hnq (unit_pos e').le

theorem finite_lt {m m' : ℕ} {e e' : ℤ} (hm : 2^52 ≤ m) (hm' : m < 2^53) (hn : 2^52 ≤ m')
    (hn' : m' < 2^53) :
    (compare e e').then (compare m m') = .lt ↔ (m : ℚ)*2^e < m'*2^e' := by
  rcases lt_trichotomy e e' with hlt | heq | hgt
  · rw [Int.compare_eq_lt.mpr hlt]
    exact iff_of_true rfl (exponent_lt hm' hn hlt)
  · subst heq
    rw [Int.compare_eq_eq.mpr rfl,mul_lt_mul_iff_left₀ (unit_pos e),Nat.cast_lt]
    exact Nat.compare_eq_lt
  · rw [Int.compare_eq_gt.mpr hgt]
    exact iff_of_false (fun h => nomatch h) (not_lt.mpr (exponent_lt hn' hm hgt).le)

theorem lt_def (f g : Float) :
    f < g ↔ UnpackedFloat.lt f.toModel.unpack g.toModel.unpack = true :=
  decide_eq_true_iff

theorem lt_iff {f g : Float} {v w : ℚ} (hf : HasValue f v) (hg : HasValue g w) :
    f < g ↔ v < w := by
  obtain ⟨m,e,h,hf,hm,hm',rfl⟩ := hf
  obtain ⟨n,e',h',hg,hn,hn',rfl⟩ := hg
  rw [← finite_lt hm hm' hn hn',lt_def,hf,hg,UnpackedFloat.lt,UnpackedFloat.compare,beq_iff_eq,
    Option.some_inj]

theorem mantissa_cast {n : ℕ} (h : 0 < n) (h' : n < 2^53) :
    ((n <<< (52-n.log2) : ℕ) : ℚ)*2^((n.log2 : ℤ)-52) = n := by
  have hlog : n.log2 < 53 := (Nat.log2_lt (by omega)).mpr h'
  have hexp : (n.log2 : ℤ)-52 = -((52-n.log2 : ℕ) : ℤ) := by omega
  rw [Nat.shiftLeft_eq,Nat.cast_mul,Nat.cast_pow,Nat.cast_ofNat,hexp,zpow_neg,zpow_natCast]
  field_simp

theorem divCore_eq {M N : ℕ} (hM : M.log2 = 52) (hN : N.log2 = 52) {e f : ℤ}
    (h : -1000 ≤ e-f) : divCore Format.binary64 M e N f =
      (M*2^53/N,e-f-53,accuracyOfFraction (M*2^53%N) N) := by
  have htarget : Format.binary64.targetExponent (totalExponent M e-totalExponent N f) =
      e-f-53 := by
    have hmin : Format.binary64.minExponent = -1074 := rfl
    have hbits : (Format.binary64.mantissaBits : ℤ) = 53 := rfl
    rw [Format.targetExponent,hmin,hbits,totalExponent,totalExponent,hM,hN]
    omega
  have hmin : min (e-f) (e-f-53) = e-f-53 := by omega
  have hshift : (e-f-(e-f-53)).toNat = 53 := by omega
  simp only [divCore,htarget,hmin,hshift,Nat.shiftLeft_eq]

theorem rounds_of_nearest {A D r : ℕ} {x : ℚ} {e : ℤ} (hD : 0 < D) (hx : x*D = A*2^e)
    (hlow : 2^52*D ≤ A) (hhigh : A < 2^53*D) (hnear : Nearest A D r) : Rounds x r e := by
  have hpos := unit_pos e
  have hDq : (0 : ℚ) < D := by exact_mod_cast hD
  have hlowq : (2^52 : ℚ)*D ≤ A := by exact_mod_cast hlow
  have hhighq : (A : ℚ) < 2^53*D := by exact_mod_cast hhigh
  have hbelow : (2 : ℚ)*A ≤ (2*r+1)*D := by exact_mod_cast hnear.1
  have habove : (2 : ℚ)*r*D ≤ 2*A+D := by exact_mod_cast hnear.2
  refine ⟨le_of_mul_le_mul_right ?_ hDq,lt_of_mul_lt_mul_right ?_ hDq.le,
    le_of_mul_le_mul_right ?_ hDq,le_of_mul_le_mul_right ?_ hDq⟩ <;> rw [hx]
  · linarith [mul_le_mul_of_nonneg_right hlowq hpos.le]
  · linarith [mul_lt_mul_of_pos_right hhighq hpos]
  · linarith [mul_le_mul_of_nonneg_right hbelow hpos.le]
  · linarith [mul_le_mul_of_nonneg_right habove hpos.le]

theorem quotient_scaled {a b M N : ℚ} {i j : ℤ} (k : ℕ) (hb : b ≠ 0) (ha : M*2^i = a)
    (hN : N*2^j = b) : a/b*(N*2^k) = M*2^53*2^(i-j-53+k) := by
  have htwo : (2 : ℚ) ≠ 0 := by norm_num
  have hN0 : N ≠ 0 := fun h => hb (by rw [← hN,h,zero_mul])
  have h53 : (2 : ℚ)^(53 : ℤ) = 2^53 := by norm_num
  rw [← ha,← hN,zpow_add₀ htwo,zpow_sub₀ htwo,zpow_sub₀ htwo,zpow_natCast,h53]
  field_simp

theorem toFloat_value {n : UInt64} (h : 0 < n.toNat) (h' : n.toNat < 2^53) :
    ∃ (m : ℕ) (e : ℤ) (hm : 0 < m), n.toFloat.toModel.unpack = .finite .positive m e hm ∧
      2^52 ≤ m ∧ m < 2^53 ∧ (m : ℚ)*2^e = n.toNat ∧ -52 ≤ e ∧ e ≤ 0 := by
  obtain ⟨hlow,hhigh⟩ := shiftLeft_normal h h'
  have hlog : n.toNat.log2 < 53 := (Nat.log2_lt (by omega)).mpr h'
  exact ⟨_,_,_,toFloat_unpack h h',hlow,hhigh,mantissa_cast h h',by omega,by omega⟩

theorem carried_value {m r : ℕ} {e E : ℤ} (h : m = r ∧ E = e ∨ r = 2^53 ∧ m = 2^52 ∧ E = e+1) :
    (r : ℚ)*2^e = m*2^E := by
  rcases h with ⟨rfl,rfl⟩ | ⟨rfl,rfl,rfl⟩
  · rfl
  · rw [zpow_add_one₀ (by norm_num)]
    push_cast
    ring

/-- The division of two natural numbers rounds their exact quotient. -/
theorem div_rounds {a b : UInt64} (ha : 0 < a.toNat) (ha' : a.toNat < 2^53)
    (hb : 0 < b.toNat) (hb' : b.toNat < 2^53) :
    ∃ (r : ℕ) (e : ℤ), HasValue (a.toFloat/b.toFloat) (r*2^e) ∧ 2^52 ≤ r ∧
      Rounds (a.toNat/b.toNat) r e := by
  obtain ⟨M,i,hM0,hunpackM,hM,hM',hcastM,hi,hi'⟩ := toFloat_value ha ha'
  obtain ⟨N,j,hN0,hunpackN,hN,hN',hcastN,hj,hj'⟩ := toFloat_value hb hb'
  have hbq : (b.toNat : ℚ) ≠ 0 := by exact_mod_cast hb.ne'
  obtain ⟨k,r,m,E,h,hlow,hhigh,hnear,hk,hm,hm',hE,hround⟩ :=
    divide_normal hM hM' hN hN' (e := i-j-53) (by omega)
  have hD : 0 < N*2^k := Nat.mul_pos hN0 (Nat.two_pow_pos k)
  have hunpack : (a.toFloat/b.toFloat).toModel.unpack = .finite .positive m E h := by
    have hdiv : UnpackedFloat.div Format.binary64 a.toFloat.toModel.unpack
        b.toFloat.toModel.unpack = .finite .positive m E h := by
      rw [hunpackM,hunpackN,UnpackedFloat.div,
        divCore_eq (normal_log hM hM') (normal_log hN hN') (by omega)]
      exact hround
    change (Float.Model.pack (UnpackedFloat.div Format.binary64 a.toFloat.toModel.unpack
      b.toFloat.toModel.unpack)).unpack = _
    rw [hdiv]
    exact unpack_pack h hm hm' (by omega) (by omega)
  refine ⟨r,i-j-53+k,⟨m,E,h,hunpack,hm,hm',carried_value hE⟩,(nearest_bounds hnear hD hlow hhigh).1,?_⟩
  exact rounds_of_nearest hD (by push_cast; exact quotient_scaled k hbq hcastM hcastN) hlow hhigh
    hnear

/-! ## Comparing a rounded number -/

variable {x : ℚ} {r c : ℕ} {e e' : ℤ}

theorem Rounds.le (h : Rounds x r e) (hc : c < 2^53) (hx : x ≤ c*2^e') :
    (r : ℚ)*2^e ≤ c*2^e' := by
  have hpos := unit_pos e
  rcases lt_or_ge e' e with hlt | hle
  · have htop : (c : ℚ)*2^e' < ((2^52 : ℕ) : ℚ)*2^e := exponent_lt hc le_rfl hlt
    push_cast at htop
    linarith [h.low]
  · -- the bound is a multiple of the unit, and a nearest integer is not above it
    obtain ⟨n,rfl⟩ : ∃ n : ℕ, e' = e+n := ⟨(e'-e).toNat,by omega⟩
    rw [zpow_add₀ (by norm_num),zpow_natCast] at hx ⊢
    have hr : (r : ℚ) < ((c*2^n+1 : ℕ) : ℚ) := by
      refine lt_of_mul_lt_mul_right ?_ hpos.le
      push_cast
      linarith [h.above]
    have hrn : r ≤ c*2^n := Nat.lt_succ_iff.mp (by exact_mod_cast hr)
    have hrq : (r : ℚ) ≤ c*2^n := by exact_mod_cast hrn
    linarith [mul_le_mul_of_nonneg_right hrq hpos.le]

theorem Rounds.lt_above (h : Rounds x r e) (hr : 2^52 ≤ r) (hc : c < 2^53)
    (hx : c*2^e'+2^e'/2 < x) : (c : ℚ)*2^e' < r*2^e := by
  rcases lt_or_ge e' e with hlt | hle
  · exact exponent_lt hc hr hlt
  · linarith [h.below,unit_le hle]

theorem Rounds.lt_below (h : Rounds x r e) (hc : c < 2^53)
    (hx : x < c*2^e'-2^e'/2) : (r : ℚ)*2^e < c*2^e' := by
  rcases lt_or_ge e' e with hlt | hle
  · have htop : (c : ℚ)*2^e' < ((2^52 : ℕ) : ℚ)*2^e := exponent_lt hc le_rfl hlt
    push_cast at htop
    linarith [h.low,unit_pos e']
  · linarith [h.above,unit_le hle]

theorem Rounds.ge (h : Rounds x r e) (hr : 2^52 ≤ r) (hc : c < 2^53)
    (hx : 2^52*2^e' ≤ x) (hx' : c*2^e'-2^e'/2 < x) : (c : ℚ)*2^e' ≤ r*2^e := by
  have hpos := unit_pos e
  rcases lt_trichotomy e' e with hlt | rfl | hgt
  · exact (exponent_lt hc hr hlt).le
  · have hcr : (c : ℚ) < ((r+1 : ℕ) : ℚ) := by
      refine lt_of_mul_lt_mul_right ?_ hpos.le
      push_cast
      linarith [h.below]
    have hcrn : c ≤ r := Nat.lt_succ_iff.mp (by exact_mod_cast hcr)
    exact mul_le_mul_of_nonneg_right (by exact_mod_cast hcrn) hpos.le
  · linarith [h.high,unit_lt hgt]

theorem zero_div_lt {b : UInt64} (hb : 0 < b.toNat) (hb' : b.toNat < 2^53) {f : Float} {w : ℚ}
    (hf : HasValue f w) :
    (0 : UInt64).toFloat/b.toFloat < f ∧ ¬f < (0 : UInt64).toFloat/b.toFloat := by
  obtain ⟨m,e,h,hf,_⟩ := hf
  obtain ⟨N,j,hN0,hunpack,_⟩ := toFloat_value hb hb'
  have hzero : (0 : UInt64).toFloat.toModel.unpack = .zero .positive := rfl
  have hquot : ((0 : UInt64).toFloat/b.toFloat).toModel.unpack = .zero .positive := by
    change (Float.Model.pack (UnpackedFloat.div Format.binary64
      (0 : UInt64).toFloat.toModel.unpack b.toFloat.toModel.unpack)).unpack = _
    rw [hzero,hunpack,UnpackedFloat.div]
    rfl
  rw [lt_def,lt_def,hquot,hf]
  exact ⟨rfl,Bool.false_ne_true⟩

/-! ## Products -/

theorem shiftRight_mantissa (em : ExtendedMantissa) (k : ℕ) :
    (em >>> k).mantissa = em.mantissa/2^k := by
  induction k with
  | zero => exact (Nat.div_one _).symm
  | succ k ih =>
    change (em >>> k).mantissa/2 = _
    rw [ih,Nat.div_div_eq_div_mul,pow_succ]

theorem roundedMantissa_bounds (em : ExtendedMantissa) :
    em.mantissa ≤ em.roundedMantissa ∧ em.roundedMantissa ≤ em.mantissa+1 := by
  obtain ⟨m,_ | _,_ | _⟩ := em <;>
    simp only [ExtendedMantissa.roundedMantissa,ExtendedMantissa.accuracy,
      Accuracy.roundToNearestEven] <;> omega

theorem shiftRight_rounds {m k : ℕ} (hpos : m ≠ 0) (hlog : m.log2 = 52+k) :
    let r := (ExtendedMantissa.ofMantissaAndAccuracy m .exact >>> k).roundedMantissa
    m/2^k ≤ r ∧ r ≤ m/2^k+1 ∧ 2^52 ≤ r ∧ r ≤ 2^53 := by
  intro r
  obtain ⟨hself,hnext⟩ := (Nat.log2_eq_iff hpos).mp hlog
  have hunit := Nat.two_pow_pos k
  have hquot : 2^52 ≤ m/2^k ∧ m/2^k < 2^53 := by
    constructor
    · rw [Nat.le_div_iff_mul_le hunit,← pow_add]
      exact hself
    · rw [Nat.div_lt_iff_lt_mul hunit,← pow_add,Nat.add_right_comm] at *
      exact hnext
  obtain ⟨hr,hr'⟩ := roundedMantissa_bounds (ExtendedMantissa.ofMantissaAndAccuracy m .exact >>> k)
  rw [shiftRight_mantissa] at hr hr'
  change m/2^k ≤ r at hr
  change r ≤ m/2^k+1 at hr'
  exact ⟨hr,hr',hquot.1.trans hr,hr'.trans hquot.2⟩

/-- The product of two mantissas of 53 bits, brought to 53 bits, is off by less than a unit. -/
theorem multiply_normal {M N : ℕ} (hM : 2^52 ≤ M) (hM' : M < 2^53) (hN : 2^52 ≤ N)
    (hN' : N < 2^53) {e : ℤ} (he : -1074 ≤ e) :
    ∃ (k r m : ℕ) (E : ℤ) (h : 0 < m), 2^52*2^k ≤ M*N ∧ r*2^k ≤ M*N+2^k ∧ M*N ≤ r*2^k+2^k ∧
      k ≤ 53 ∧ 2^52 ≤ m ∧ m < 2^53 ∧
      (m = r ∧ E = e+k ∨ r = 2^53 ∧ m = 2^52 ∧ E = e+k+1) ∧
      roundWithAccuracy Format.binary64 .positive (M*N) e .exact = .finite .positive m E h := by
  have hlow : 2^52*2^52 ≤ M*N := Nat.mul_le_mul hM hN
  have hhigh : M*N < 2^53*2^53 := Nat.mul_lt_mul'' hM' hN'
  have hpos : M*N ≠ 0 := by omega
  obtain ⟨k,hlog,hk⟩ : ∃ k, (M*N).log2 = 52+k ∧ k ≤ 53 := by
    have hge : 104 ≤ (M*N).log2 := (Nat.le_log2 hpos).mpr (by rw [← pow_add] at hlow; exact hlow)
    have hlt : (M*N).log2 < 106 := (Nat.log2_lt hpos).mpr (by rw [← pow_add] at hhigh; exact hhigh)
    exact ⟨(M*N).log2-52,by omega,by omega⟩
  obtain ⟨hr,hr',hr52,hr53⟩ := shiftRight_rounds hpos hlog
  obtain ⟨m,E,h,hm,hm',hE,hround⟩ := roundWithAccuracy_eq (shift_eq .exact hlog he) rfl hr52 hr53
    (by omega)
  have hdiv := Nat.div_add_mod' (M*N) (2^k)
  have hmod := Nat.mod_lt (M*N) (Nat.two_pow_pos k)
  have hbelow := Nat.mul_le_mul_right (2^k) hr
  have habove := Nat.mul_le_mul_right (2^k) hr'
  rw [Nat.succ_mul] at habove
  refine ⟨k,_,m,E,h,?_,?_,?_,hk,hm,hm',hE,hround⟩
  · rw [← pow_add]
    exact ((Nat.log2_eq_iff hpos).mp hlog).1
  · omega
  · omega

theorem product_scaled (m n : ℚ) (e e' : ℤ) : m*2^e*(n*2^e') = m*n*2^(e+e') := by
  rw [zpow_add₀ (by norm_num)]
  ring

/-- The exponents of two floats are bounded by their product. -/
theorem product_exponent {m n : ℕ} {e e' : ℤ} (hm : 2^52 ≤ m) (hm' : m < 2^53) (hn : 2^52 ≤ n)
    (hn' : n < 2^53) (hlow : (2 : ℚ)^(-900 : ℤ) ≤ m*2^e*(n*2^e'))
    (hhigh : (m : ℚ)*2^e*(n*2^e') ≤ 2^(900 : ℤ)) : -1074 ≤ e+e' ∧ e+e' ≤ 900 := by
  have hpos := unit_pos (e+e')
  have hlarge : (2 : ℚ)^(104 : ℤ) ≤ m*n := by
    exact_mod_cast Nat.mul_le_mul hm hn
  have hsmall : (m : ℚ)*n < 2^(106 : ℤ) := by
    exact_mod_cast Nat.mul_lt_mul'' hm' hn'
  rw [product_scaled] at hlow hhigh
  have hbelow : (2 : ℚ)^(-900 : ℤ) < 2^(106+(e+e')) := by
    rw [zpow_add₀ (by norm_num)]
    exact hlow.trans_lt (mul_lt_mul_of_pos_right hsmall hpos)
  have habove : (2 : ℚ)^(104+(e+e')) ≤ 2^(900 : ℤ) := by
    rw [zpow_add₀ (by norm_num)]
    exact (mul_le_mul_of_nonneg_right hlarge hpos.le).trans hhigh
  rw [zpow_lt_zpow_iff_right₀ (by norm_num)] at hbelow
  rw [zpow_le_zpow_iff_right₀ (by norm_num)] at habove
  constructor
  · omega
  · omega

/-- The multiplication of two floats is off by less than the last of 52 bits. -/
theorem mul_within {f g : Float} {v w : ℚ} (hf : HasValue f v) (hg : HasValue g w)
    (hlow : (2 : ℚ)^(-900 : ℤ) ≤ v*w) (hhigh : v*w ≤ 2^(900 : ℤ)) :
    ∃ u, HasValue (f*g) u ∧ u ≤ v*w+v*w/2^52 ∧ v*w ≤ u+v*w/2^52 := by
  obtain ⟨M,i,hM0,hf,hM,hM',rfl⟩ := hf
  obtain ⟨N,j,hN0,hg,hN,hN',rfl⟩ := hg
  obtain ⟨hexp,hexp'⟩ := product_exponent hM hM' hN hN' hlow hhigh
  obtain ⟨k,r,m,E,h,hleast,habove,hbelow,hk,hm,hm',hE,hround⟩ :=
    multiply_normal hM hM' hN hN' hexp
  have hunpack : (f*g).toModel.unpack = .finite .positive m E h := by
    have hmul : UnpackedFloat.mul Format.binary64 f.toModel.unpack g.toModel.unpack =
        .finite .positive m E h := by
      rw [hf,hg,UnpackedFloat.mul]
      exact hround
    change (Float.Model.pack (UnpackedFloat.mul Format.binary64 f.toModel.unpack
      g.toModel.unpack)).unpack = _
    rw [hmul]
    exact unpack_pack h hm hm' (by omega) (by omega)
  have hvalue : (m : ℚ)*2^E = r*2^k*2^(i+j) := by
    rw [← carried_value hE,zpow_add₀ (by norm_num),zpow_natCast]
    ring
  have hpos := unit_pos (i+j)
  have hleastq : (2 : ℚ)^52*2^k ≤ M*N := by exact_mod_cast hleast
  have haboveq : (r : ℚ)*2^k ≤ M*N+2^k := by exact_mod_cast habove
  have hbelowq : (M : ℚ)*N ≤ r*2^k+2^k := by exact_mod_cast hbelow
  -- a unit is no more than the last of 52 bits
  have hlast : (2 : ℚ)^k*2^(i+j) ≤ M*N*2^(i+j)/2^52 := by
    rw [le_div_iff₀ (by norm_num)]
    linarith [mul_le_mul_of_nonneg_right hleastq hpos.le]
  refine ⟨_,⟨m,E,h,hunpack,hm,hm',rfl⟩,?_,?_⟩
  · rw [hvalue,product_scaled]
    linarith [mul_le_mul_of_nonneg_right haboveq hpos.le]
  · rw [hvalue,product_scaled]
    linarith [mul_le_mul_of_nonneg_right hbelowq hpos.le]

/-! ## Whole numbers -/

theorem toFloat_hasValue {n : UInt64} (h : 0 < n.toNat) (h' : n.toNat < 2^53) :
    HasValue n.toFloat n.toNat := by
  obtain ⟨m,e,hm0,hunpack,hm,hm',hvalue,_⟩ := toFloat_value h h'
  exact ⟨m,e,hm0,hunpack,hm,hm',hvalue.symm⟩

/-- From `2^53` on a number is rounded to a float. -/
theorem exists_hasValue {n : UInt64} (h : 0 < n.toNat) : ∃ v, HasValue n.toFloat v := by
  rcases Nat.lt_or_ge n.toNat (2^53) with hlt | hge
  · exact ⟨_,toFloat_hasValue h hlt⟩
  · have hpos : n.toNat ≠ 0 := h.ne'
    obtain ⟨k,hlog,hk⟩ : ∃ k, n.toNat.log2 = 52+k ∧ k ≤ 11 := by
      have hge : 53 ≤ n.toNat.log2 := (Nat.le_log2 hpos).mpr hge
      have hlt : n.toNat.log2 < 64 := (Nat.log2_lt hpos).mpr n.toNat_lt
      exact ⟨n.toNat.log2-52,by omega,by omega⟩
    obtain ⟨_,_,hr52,hr53⟩ := shiftRight_rounds hpos hlog
    obtain ⟨m,E,hm0,hm,hm',hE,hround⟩ := roundWithAccuracy_eq (e := 0) (shift_eq .exact hlog
      (by omega)) rfl hr52 hr53 (by omega)
    have hofNat : UnpackedFloat.ofUInt64 Format.binary64 n = .finite .positive m E hm0 := by
      have hshift : (0-((n.toNat.log2 : ℤ)+0-52)).toNat = 0 := by omega
      rw [UnpackedFloat.ofUInt64,UnpackedFloat.ofNat,UnpackedFloat.ofInt,
        UnpackedFloat.normalize,Int.compare_eq_gt.mpr (by omega)]
      simp only [Int.toNat_natCast,UnpackedFloat.round,target_eq (e := 0) (m := n.toNat) (by omega),
        decreaseExponent,hshift,Nat.shiftLeft_zero]
      exact hround
    refine ⟨_,m,E,hm0,?_,hm,hm',rfl⟩
    change (Float.Model.pack (UnpackedFloat.ofUInt64 Format.binary64 n)).unpack = _
    rw [hofNat]
    exact unpack_pack _ hm hm' (by omega) (by omega)

/-- A float that is not too large is cut to the whole number below. -/
theorem toUInt64_floor {f : Float} {v : ℚ} (hf : HasValue f v) (hv : v < 2^53) :
    f.toUInt64.toNat = ⌊v⌋₊ := by
  obtain ⟨m,e,h,hf,hm,hm',rfl⟩ := hf
  have he : e ≤ 0 := by
    by_contra hgt
    have hunit : (2 : ℚ)^(1 : ℤ) ≤ 2^e := unit_le (by omega)
    have hmq : ((2^52 : ℕ) : ℚ) ≤ m := by exact_mod_cast hm
    push_cast at hmq
    rw [zpow_one] at hunit
    nlinarith
  obtain ⟨k,rfl⟩ : ∃ k : ℕ, e = -(k : ℤ) := ⟨(-e).toNat,by omega⟩
  have hfloor : ⌊(m : ℚ)*2^(-(k : ℤ))⌋₊ = m/2^k := by
    rw [zpow_neg,zpow_natCast,← div_eq_mul_inv]
    exact_mod_cast Nat.floor_div_eq_div (K := ℚ) m (2^k)
  have hround : roundToInt .positive m (-(k : ℤ)) = ((m/2^k : ℕ) : ℤ) := by
    have hzero : (-(k : ℤ)-0).toNat = 0 := by omega
    have hshift : (0-(-(k : ℤ)-((0 : ℕ) : ℤ))).toNat = k := by omega
    simp only [roundToInt,decreaseExponent,shiftToExponent,hzero,hshift,shiftRight_mantissa]
    rfl
  change (UnpackedFloat.toUInt64 f.toModel.unpack).toNat = _
  rw [hf,hfloor,UnpackedFloat.toUInt64,UnpackedFloat.toInt,hround,Int.toNat_natCast]
  apply UInt64.toNat_ofNatClamp_of_lt
  have hle : m/2^k ≤ m := Nat.div_le_self m (2^k)
  have hsize : UInt64.size = 2^64 := rfl
  omega

theorem zero_lt_toFloat {n : UInt64} (h : 0 < n.toNat) :
    (0 : UInt64).toFloat < n.toFloat ∧ ¬n.toFloat < (0 : UInt64).toFloat := by
  obtain ⟨v,m,e,hm,hunpack,_⟩ := exists_hasValue h
  have hzero : (0 : UInt64).toFloat.toModel.unpack = .zero .positive := rfl
  rw [lt_def,lt_def,hzero,hunpack]
  exact ⟨rfl,Bool.false_ne_true⟩

theorem value_pos {f : Float} {v : ℚ} (h : HasValue f v) : 0 < v := by
  obtain ⟨m,e,hm,_,_,_,rfl⟩ := h
  exact mul_pos (by exact_mod_cast hm) (unit_pos e)

theorem exists_order : ∃ value : UInt64 → ℚ, ∀ m n, m.toFloat < n.toFloat ↔ value m < value n := by
  have hvalue : ∀ n : UInt64, ∃ v, n = 0 ∧ v = 0 ∨ 0 < n.toNat ∧ HasValue n.toFloat v := by
    intro n
    rcases Nat.eq_zero_or_pos n.toNat with hzero | hpos
    · exact ⟨0,Or.inl ⟨UInt64.toNat_inj.mp hzero,rfl⟩⟩
    · obtain ⟨v,hv⟩ := exists_hasValue hpos
      exact ⟨v,Or.inr ⟨hpos,hv⟩⟩
  choose value hvalue using hvalue
  refine ⟨value,fun m n => ?_⟩
  rcases hvalue m with ⟨rfl,hm⟩ | ⟨hmpos,hm⟩ <;> rcases hvalue n with ⟨rfl,hn⟩ | ⟨hnpos,hn⟩
  · exact iff_of_false Bool.false_ne_true (lt_irrefl _)
  · rw [hm]
    exact iff_of_true (zero_lt_toFloat hnpos).1 (value_pos hn)
  · rw [hn]
    exact iff_of_false (zero_lt_toFloat hmpos).2 (value_pos hm).not_gt
  · exact lt_iff hm hn

theorem toFloat_lt_iff {m n : UInt64} (hm : m.toNat < 2^53) (hn : n.toNat < 2^53) :
    m.toFloat < n.toFloat ↔ m.toNat < n.toNat := by
  rcases Nat.eq_zero_or_pos m.toNat with hzero | hmpos
  · obtain rfl : m = 0 := UInt64.toNat_inj.mp hzero
    rcases Nat.eq_zero_or_pos n.toNat with hzero | hnpos
    · obtain rfl : n = 0 := UInt64.toNat_inj.mp hzero
      exact iff_of_false Bool.false_ne_true (lt_irrefl _)
    · exact iff_of_true (zero_lt_toFloat hnpos).1 hnpos
  · rcases Nat.eq_zero_or_pos n.toNat with hzero | hnpos
    · obtain rfl : n = 0 := UInt64.toNat_inj.mp hzero
      exact iff_of_false (zero_lt_toFloat hmpos).2 (Nat.not_lt_zero _)
    · rw [lt_iff (toFloat_hasValue hmpos hm) (toFloat_hasValue hnpos hn),Nat.cast_lt]

end Library.Binary64
