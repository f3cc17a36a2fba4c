import DiamondBot.Library.Utf8
import Mathlib.Algebra.Order.Floor.Semifield
import Mathlib.Data.List.Basic
import Mathlib.Data.Rat.Floor

/-!
# Decimal numerals

A digit string stands for a number. Zeros behind it scale the number, and what
stands before its last digits is the number without them. A numeral has at most
one point among its digits and stands for the number without the point over a
power of ten.
-/

set_option autoImplicit false

namespace Library.DecimalText
open Utf8

def Digits (s : List Char) : Prop := ∀ c ∈ s, c.isDigit = true

instance (s : List Char) : Decidable (Digits s) := List.decidableBAll _ s

def value (s : List Char) : ℕ := Nat.ofDigitChars 10 s 0

def zeros (k : ℕ) : List Char := List.replicate k '0'

theorem digits_append {s t : List Char} : Digits (s++t) ↔ Digits s ∧ Digits t :=
  List.forall_mem_append

theorem digits_zeros (k : ℕ) : Digits (zeros k) := by
  intro c hc
  rw [List.eq_of_mem_replicate hc]
  rfl

theorem digits_toDigits (n : ℕ) : Digits (Nat.toDigits 10 n) :=
  fun _ hc => Nat.isDigit_of_mem_toDigits (by decide) (by decide) hc

theorem length_zeros (k : ℕ) : (zeros k).length = k := List.length_replicate

theorem value_toDigits (n : ℕ) : value (Nat.toDigits 10 n) = n := Nat.ofDigitChars_ten_toDigits

theorem value_append (s t : List Char) : value (s++t) = 10^t.length*value s+value t := by
  rw [value,Nat.ofDigitChars_append,Nat.ofDigitChars_eq_ofDigitChars_zero]
  rfl

theorem value_zeros (k : ℕ) : value (zeros k) = 0 := by
  rw [value,zeros,Nat.ofDigitChars_replicate_zero,Nat.mul_zero]

theorem value_pad (k : ℕ) (s : List Char) : value (zeros k++s) = value s := by
  rw [value_append,value_zeros,Nat.mul_zero,Nat.zero_add]

theorem value_shift (s : List Char) (k : ℕ) : value (s++zeros k) = value s*10^k := by
  rw [value_append,value_zeros,length_zeros,Nat.add_zero,Nat.mul_comm]

theorem value_singleton {c : Char} (h : c.isDigit = true) : value [c] < 10 := by
  have hrange : 48 ≤ c.toNat ∧ c.toNat ≤ 57 := by
    simp only [Char.isDigit,Bool.and_eq_true,decide_eq_true_eq] at h
    exact h
  change 10*0+(c.toNat-48) < 10
  omega

theorem value_lt {s : List Char} (h : Digits s) : value s < 10^s.length := by
  induction s with
  | nil => exact Nat.one_pos
  | cons c s ih =>
    obtain ⟨hc,hs⟩ := List.forall_mem_cons.mp h
    have hlast := ih hs
    have hfirst := value_singleton hc
    rw [← List.singleton_append,value_append,List.length_append,List.length_singleton,pow_add,
      pow_one]
    calc 10^s.length*value [c]+value s < 10^s.length*value [c]+10^s.length := by omega
      _ = 10^s.length*(value [c]+1) := by rw [Nat.mul_add,Nat.mul_one]
      _ ≤ 10^s.length*10 := Nat.mul_le_mul_left _ (by omega)
      _ = 10*10^s.length := Nat.mul_comm _ _

theorem value_div {s t : List Char} (h : Digits t) : value (s++t)/10^t.length = value s := by
  rw [value_append,Nat.mul_add_div (Nat.pow_pos (by decide)),Nat.div_eq_of_lt (value_lt h),
    Nat.add_zero]

theorem byteLen_digits {s : List Char} (h : Digits s) : byteLen s = s.length := by
  induction s with
  | nil => rfl
  | cons c s ih =>
    obtain ⟨hc,hs⟩ := List.forall_mem_cons.mp h
    have hsize : c.utf8Size = 1 := by
      simp only [Char.isDigit,Bool.and_eq_true,decide_eq_true_eq] at hc
      have hle : c.val.toNat ≤ 57 := hc.2
      exact Char.utf8Size_eq_one_iff.mpr (UInt32.le_iff_toNat_le.mpr (hle.trans (by decide)))
    change byteLen s+c.utf8Size = s.length+1
    rw [ih hs,hsize]

theorem sliceTo_digits {s : List Char} (h : Digits s) {n : ℕ} (hn : n ≤ s.length) :
    sliceTo s n = .ok (s.take n) := by
  have htake : Digits (s.take n) := fun c hc => h c (List.mem_of_mem_take hc)
  refine sliceTo_ok.mpr ⟨s.drop n,(List.take_append_drop n s).symm,?_⟩
  rw [byteLen_digits htake,List.length_take_of_le hn]

/-! ## Numerals -/

/-- Digits with at most one point among them, and the number they stand for. -/
inductive Numeral : List Char → ℚ → Prop
  | whole {i : List Char} (hi : Digits i) : Numeral i (value i)
  | point {i f : List Char} (hi : Digits i) (hf : Digits f) :
      Numeral (i ++ '.'::f) (value (i++f)/10^f.length)

theorem not_mem_digits {s : List Char} (h : Digits s) : '.' ∉ s :=
  fun hmem => absurd (h '.' hmem) (by decide)

theorem floor_scaled (n k d : ℕ) : ⌊(n/10^k : ℚ)*10^d⌋₊ = n*10^d/10^k := by
  rw [div_mul_eq_mul_div]
  have hcast : ((n : ℚ)*10^d/10^k) = ((n*10^d : ℕ) : ℚ)/((10^k : ℕ) : ℚ) := by push_cast; rfl
  rw [hcast,Nat.floor_div_eq_div]

theorem floor_short {i f : List Char} {d : ℕ} (h : f.length ≤ d) :
    ⌊(value (i++f)/10^f.length : ℚ)*10^d⌋₊ = value (i++f)*10^(d-f.length) := by
  have hsplit : 10^d = 10^f.length*10^(d-f.length) := by rw [← pow_add,Nat.add_sub_of_le h]
  rw [floor_scaled,hsplit,Nat.mul_left_comm,
    Nat.mul_div_cancel_left _ (Nat.pow_pos (by decide))]

theorem floor_long {i p t : List Char} (h : Digits t) :
    ⌊(value (i++(p++t))/10^(p++t).length : ℚ)*10^p.length⌋₊ = value (i++p) := by
  rw [floor_scaled,List.length_append,pow_add,Nat.mul_comm,
    Nat.mul_div_mul_left _ _ (Nat.pow_pos (by decide)),← List.append_assoc,value_div h]

theorem numeral_whole {s : List Char} (h : '.' ∉ s) {v : ℚ} :
    Numeral s v ↔ Digits s ∧ v = value s := by
  constructor
  · intro hnum
    cases hnum with
    | whole hi => exact ⟨hi,rfl⟩
    | point hi hf => exact absurd (List.mem_append_right _ List.mem_cons_self) h
  · rintro ⟨hs,rfl⟩
    exact .whole hs

theorem numeral_point {i f : List Char} {v : ℚ} :
    Numeral (i ++ '.'::f) v ↔ (Digits i ∧ Digits f) ∧ v = value (i++f)/10^f.length := by
  constructor
  · generalize hs : i ++ '.'::f = s
    intro hnum
    cases hnum with
    | whole hd =>
      rw [← hs] at hd
      exact absurd (List.mem_append_right _ List.mem_cons_self) (not_mem_digits hd)
    | point hd hd' =>
      obtain ⟨rfl,_,rfl⟩ :=
        (List.append_cons_inj_of_notMem (not_mem_digits hd) (not_mem_digits hd')).mp hs.symm
      exact ⟨⟨hd,hd'⟩,rfl⟩
  · rintro ⟨⟨hi,hf⟩,rfl⟩
    exact .point hi hf

theorem beq_dot {s : List Char} (h : '.' ∉ s) : ∀ c ∈ s, (c == '.') = false :=
  fun _ hc => beq_false_of_ne fun he => h (he ▸ hc)

theorem splitOn_whole {s : List Char} (h : '.' ∉ s) : s.splitOn '.' = [s] :=
  List.splitOnP_eq_singleton (beq_dot h)

theorem splitOn_point {i : List Char} (h : '.' ∉ i) (rest : List Char) :
    (i ++ '.'::rest).splitOn '.' = i::rest.splitOn '.' :=
  List.splitOnP_append_cons_of_forall_mem (beq_dot h) '.' rfl rest

/-! ## Unsigned integers -/

def readDigits (bits : ℕ) : List Char → ℕ → Except String ℕ
  | [],n => .ok n
  | c::s,n =>
    if ¬c.isDigit then .error "invalid digit found in string"
    else if 2^bits ≤ 10*n+(c.toNat-48) then .error "number too large to fit in target type"
    else readDigits bits s (10*n+(c.toNat-48))

def parseUnsigned (bits : ℕ) : List Char → Except String ℕ
  | [] => .error "cannot parse integer from empty string"
  | ['+'] => .error "invalid digit found in string"
  | '+'::s => readDigits bits s 0
  | s => readDigits bits s 0

def withoutPlus : List Char → List Char
  | '+'::s => s
  | s => s

def number (s : List Char) : Option ℕ :=
  if withoutPlus s ≠ [] ∧ Digits (withoutPlus s) then some (value (withoutPlus s)) else none

theorem withoutPlus_eq {s : List Char} (h : ∀ t, s ≠ '+'::t) : withoutPlus s = s := by
  unfold withoutPlus
  split
  · exact absurd rfl (h _)
  · rfl

theorem withoutPlus_digits {s : List Char} (h : Digits s) : withoutPlus s = s := by
  apply withoutPlus_eq
  rintro t rfl
  exact absurd (h '+' List.mem_cons_self) (by decide)

theorem readDigits_ok {bits n m : ℕ} {s : List Char} (hn : n < 2^bits) :
    readDigits bits s n = .ok m ↔ Digits s ∧ m = Nat.ofDigitChars 10 s n ∧ m < 2^bits := by
  induction s generalizing n with
  | nil =>
    constructor
    · intro h
      cases h
      exact ⟨fun _ hc => absurd hc List.not_mem_nil,rfl,hn⟩
    · rintro ⟨_,rfl,_⟩
      rfl
  | cons c s ih =>
    have hmore : 10*n+(c.toNat-48) ≤ Nat.ofDigitChars 10 (c::s) n := by
      change _ ≤ Nat.ofDigitChars 10 s _
      rw [Nat.ofDigitChars_eq_ofDigitChars_zero]
      exact (Nat.le_mul_of_pos_left _ (Nat.pow_pos (by decide))).trans (Nat.le_add_right _ _)
    rw [readDigits]
    by_cases hc : c.isDigit
    · rw [if_neg (not_not.mpr hc)]
      by_cases hbig : 2^bits ≤ 10*n+(c.toNat-48)
      · rw [if_pos hbig]
        constructor
        · intro h
          cases h
        · rintro ⟨_,rfl,hlt⟩
          exact absurd (hbig.trans hmore) hlt.not_ge
      · rw [if_neg hbig,ih (by omega)]
        exact and_congr_left' ⟨fun h => List.forall_mem_cons.mpr ⟨hc,h⟩,
          fun h => (List.forall_mem_cons.mp h).2⟩
    · rw [if_pos hc]
      constructor
      · intro h
        cases h
      · rintro ⟨hd,_⟩
        exact absurd (hd c List.mem_cons_self) hc

/-- A number is read if the type holds it. -/
theorem parseUnsigned_ok {bits : ℕ} {s : List Char} {n : ℕ} :
    parseUnsigned bits s = .ok n ↔ number s = some n ∧ n < 2^bits := by
  have hpos : 0 < 2^bits := Nat.pow_pos (by decide)
  have hread : ∀ t : List Char, t ≠ [] → (readDigits bits t 0 = .ok n ↔
      (if t ≠ [] ∧ Digits t then some (value t) else none) = some n ∧ n < 2^bits) := by
    intro t ht
    rw [readDigits_ok hpos]
    by_cases hd : Digits t
    · rw [if_pos ⟨ht,hd⟩,Option.some_inj,eq_comm (a := n)]
      exact and_iff_right hd
    · rw [if_neg fun h => hd h.2]
      constructor
      · rintro ⟨h,_⟩
        exact absurd h hd
      · rintro ⟨h,_⟩
        cases h
  unfold parseUnsigned number
  split
  · simp [withoutPlus]
  · simp [withoutPlus]
  · next s hs => exact hread s fun h => hs (by rw [h])
  · next hnil _ hplus =>
    rw [withoutPlus_eq fun t ht => hplus t ht]
    exact hread s hnil

theorem number_digits {s : List Char} {n : ℕ} (h : number s = some n) :
    Digits (withoutPlus s) ∧ n = value (withoutPlus s) := by
  unfold number at h
  split at h
  · next hs =>
    cases h
    exact ⟨hs.2,rfl⟩
  · cases h

theorem dot_not_mem_number {s : List Char} {n : ℕ} (h : number s = some n) : '.' ∉ s := by
  have hd := not_mem_digits (number_digits h).1
  unfold withoutPlus at hd
  split at hd
  · intro hmem
    cases hmem with
    | tail _ hmem => exact hd hmem
  · exact hd

theorem number_toDigits (n : ℕ) : number (Nat.toDigits 10 n) = some n := by
  have hd := digits_toDigits n
  rw [number,withoutPlus_digits hd,if_pos ⟨Nat.toDigits_ne_nil,hd⟩,value_toDigits]

end Library.DecimalText
