import DiamondBot.Library.Averages
import Mathlib.Data.Fin.Basic

/-!
# The average of numbers of 256 bits

The sum is kept within its type by taking the largest number for one that is
too large, and the average is made of what is kept.
-/

set_option autoImplicit false

namespace DiamondBot.MathUtils
open Library.Averages

abbrev U256 := Fin (2^256)

namespace U256

def maxValue : U256 := ⟨2^256-1,by decide⟩

def checkedAdd (a b : U256) : Option U256 :=
  if h : a.val+b.val < 2^256 then some ⟨a.val+b.val,h⟩ else none

def divLen (sum : U256) (len : ℕ) : U256 :=
  ⟨sum.val/len,(Nat.div_le_self _ _).trans_lt sum.isLt⟩

end U256

def safeAddU256 (a b : U256) : U256 :=
  match a.checkedAdd b with
  | some result => result
  | none => U256.maxValue

def averageU256 (values : List U256) : U256 :=
  if values.isEmpty then ⟨0,by decide⟩
  else U256.divLen (values.foldl safeAddU256 ⟨0,by decide⟩) values.length

theorem safeAddU256_val (a b : U256) :
    (safeAddU256 a b).val = min (a.val+b.val) (2^256-1) := by
  unfold safeAddU256 U256.checkedAdd
  by_cases h : a.val+b.val < 2^256
  · rw [dif_pos h]
    exact (min_eq_left (Nat.le_pred_of_lt h)).symm
  · rw [dif_neg h]
    exact (min_eq_right (by omega)).symm

theorem foldl_safeAddU256 (values : List U256) (sum : U256) :
    (values.foldl safeAddU256 sum).val =
      min (sum.val+(values.map Fin.val).sum) (2^256-1) := by
  induction values generalizing sum with
  | nil => exact (min_eq_left (Nat.le_pred_of_lt sum.isLt)).symm
  | cons value values ih =>
    rw [List.foldl_cons,ih,safeAddU256_val,List.map_cons,List.sum_cons]
    omega

theorem averageU256_val (values : List U256) :
    (averageU256 values).val = min (values.map Fin.val).sum (2^256-1)/values.length := by
  unfold averageU256
  cases values with
  | nil => rfl
  | cons value values =>
    have hsum := foldl_safeAddU256 (value::values) ⟨0,by decide⟩
    rw [Nat.zero_add] at hsum
    exact congrArg (·/(value::values).length) hsum

theorem between_val (values : List U256) (average : U256) :
    Between values average ↔ Between (values.map Fin.val) average.val := by
  simp only [Between,List.mem_map,exists_exists_and_eq_and,Fin.val_fin_le]

/-- The average lies between the smallest and the largest element unless as many times the
smallest one as there are elements is too large. -/
theorem averageU256_between_iff (values : List U256) :
    Between values (averageU256 values) ↔ ∃ v ∈ values, v.val*values.length < 2^256 := by
  have hlength : (values.map Fin.val).length = values.length := List.length_map _
  rw [between_val,averageU256_val,← hlength,between_capped_iff]
  simp only [List.mem_map,exists_exists_and_eq_and]
  exact exists_congr fun v => and_congr_right fun _ => Nat.le_pred_iff_lt (Nat.two_pow_pos 256)

/-- Two elements of `2^256-1` have an average of `2^255-1`. -/
theorem averageU256_counterexample :
    ¬Between [U256.maxValue,U256.maxValue] (averageU256 [U256.maxValue,U256.maxValue]) := by
  rw [between_val,averageU256_val]
  rintro ⟨⟨v,hv,hle⟩,_⟩
  have hmax : v = 2^256-1 := by simpa [U256.maxValue] using hv
  have hcut : v ≤ (2^256-1)/2 := hle.trans (Nat.div_le_div_right (min_le_right _ _))
  omega

end DiamondBot.MathUtils
