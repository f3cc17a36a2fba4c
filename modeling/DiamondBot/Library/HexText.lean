import Mathlib.Algebra.Order.Ring.Nat
import Mathlib.Data.List.Basic
import Mathlib.Data.List.Induction

/-!
# Bytes as hexadecimal digits

A byte is written as two digits in lower case and read from two digits in
either. What is read from a text is the bytes whose text it is in lower case,
so a text is read in one way only and every text written is read back.
-/

set_option autoImplicit false

namespace Library.HexText

def hexDigits : List Char := "0123456789abcdef".toList

def IsHexDigit (c : Char) : Prop := c.toLower ∈ hexDigits

instance (c : Char) : Decidable (IsHexDigit c) := inferInstanceAs (Decidable (_ ∈ _))

def hexDigit (n : ℕ) : Char := hexDigits.getD n '0'

def hexValue (c : Char) : Option ℕ :=
  if IsHexDigit c then some (hexDigits.idxOf c.toLower) else none

def encodeByte (b : UInt8) : List Char := [hexDigit (b.toNat/16),hexDigit (b.toNat%16)]

def encode (bytes : List UInt8) : List Char := bytes.flatMap encodeByte

def decode : List Char → Option (List UInt8)
  | [] => some []
  | [_] => none
  | high::low::rest =>
    (hexValue high).bind fun h => (hexValue low).bind fun l =>
      (decode rest).map fun bytes => UInt8.ofNat (16*h+l)::bytes

def lower (s : List Char) : List Char := s.map Char.toLower

theorem hexValue_iff {c : Char} {n : ℕ} :
    hexValue c = some n ↔ n < 16 ∧ hexDigit n = c.toLower := by
  have hindex : ∀ m < 16, hexDigit m ∈ hexDigits ∧ hexDigits.idxOf (hexDigit m) = m := by decide
  unfold hexValue
  constructor
  · intro h
    split at h
    · next hc =>
      cases h
      have hlt : hexDigits.idxOf c.toLower < hexDigits.length := List.idxOf_lt_length_of_mem hc
      refine ⟨hlt,?_⟩
      rw [hexDigit,List.getD_eq_getElem?_getD,List.getElem?_eq_getElem hlt,List.getElem_idxOf]
      rfl
    · cases h
  · rintro ⟨hn,hdigit⟩
    obtain ⟨hmem,hidx⟩ := hindex n hn
    rw [hdigit] at hmem hidx
    rw [if_pos (show IsHexDigit c from hmem),hidx]

theorem hexDigit_lower {n : ℕ} (h : n < 16) : (hexDigit n).toLower = hexDigit n := by
  have hall : ∀ m < 16, (hexDigit m).toLower = hexDigit m := by decide
  exact hall n h

theorem encode_lower (bytes : List UInt8) : lower (encode bytes) = encode bytes := by
  induction bytes with
  | nil => rfl
  | cons b bytes ih =>
    have hb := b.toNat_lt
    have hhigh := hexDigit_lower (show b.toNat/16 < 16 by omega)
    have hlow := hexDigit_lower (show b.toNat%16 < 16 by omega)
    simp only [lower,encode,List.flatMap_cons,encodeByte,List.map_append,List.map_cons,
      List.map_nil,hhigh,hlow]
    exact congrArg _ ih

theorem decode_pair {high low : Char} {rest : List Char} {bytes : List UInt8} :
    decode (high::low::rest) = some bytes ↔ ∃ h l bytes', hexValue high = some h ∧
      hexValue low = some l ∧ decode rest = some bytes' ∧
      UInt8.ofNat (16*h+l)::bytes' = bytes := by
  simp only [decode,Option.bind_eq_some_iff,Option.map_eq_some_iff]
  constructor
  · rintro ⟨h,hh,l,hl,bytes',hrest,hcons⟩
    exact ⟨h,l,bytes',hh,hl,hrest,hcons⟩
  · rintro ⟨h,l,bytes',hh,hl,hrest,hcons⟩
    exact ⟨h,hh,l,hl,bytes',hrest,hcons⟩

theorem decode_length {s : List Char} {bytes : List UInt8} (h : decode s = some bytes) :
    s.length = 2*bytes.length := by
  induction s using List.twoStepInduction generalizing bytes with
  | nil => cases h; rfl
  | singleton c => cases h
  | cons_cons high low rest ih _ =>
    obtain ⟨_,_,bytes',_,_,hrest,rfl⟩ := decode_pair.mp h
    have hlength := ih hrest
    simp only [List.length_cons]
    omega

/-- A text is read as the bytes whose text it is in lower case. -/
theorem decode_iff {s : List Char} {bytes : List UInt8} :
    decode s = some bytes ↔ lower s = encode bytes := by
  induction s using List.twoStepInduction generalizing bytes with
  | nil => cases bytes <;> simp [decode,lower,encode,encodeByte]
  | singleton c =>
    cases bytes with
    | nil => simp [decode,lower,encode]
    | cons b bytes => simp [decode,lower,encode,encodeByte]
  | cons_cons high low rest ih _ =>
    rw [decode_pair]
    constructor
    · rintro ⟨n,l,bytes',hhigh,hlow,hrest,rfl⟩
      obtain ⟨hn,hhigh⟩ := hexValue_iff.mp hhigh
      obtain ⟨hl,hlow⟩ := hexValue_iff.mp hlow
      have hbyte : (UInt8.ofNat (16*n+l)).toNat = 16*n+l := by
        rw [UInt8.toNat_ofNat']
        omega
      have htail := ih.mp hrest
      simp only [lower,List.map_cons,encode,List.flatMap_cons,encodeByte,hbyte,
        List.cons_append,List.nil_append]
      rw [show (16*n+l)/16 = n by omega,show (16*n+l)%16 = l by omega,hhigh,hlow]
      exact congrArg (fun t => high.toLower::low.toLower::t) htail
    · intro h
      cases bytes with
      | nil => simp [lower,encode] at h
      | cons b bytes =>
        have hb := b.toNat_lt
        simp only [lower,List.map_cons,encode,List.flatMap_cons,encodeByte,List.cons_append,
          List.nil_append,List.cons.injEq] at h
        obtain ⟨hhigh,hlow,hrest⟩ := h
        refine ⟨b.toNat/16,b.toNat%16,bytes,hexValue_iff.mpr ⟨by omega,hhigh.symm⟩,
          hexValue_iff.mpr ⟨by omega,hlow.symm⟩,ih.mpr hrest,?_⟩
        rw [show 16*(b.toNat/16)+b.toNat%16 = b.toNat by omega,UInt8.ofNat_toNat]

theorem decode_encode (bytes : List UInt8) : decode (encode bytes) = some bytes :=
  decode_iff.mpr (encode_lower bytes)

theorem encode_injective {bytes bytes' : List UInt8} (h : encode bytes = encode bytes') :
    bytes = bytes' := by
  have hback := decode_encode bytes
  rw [h,decode_encode] at hback
  exact (Option.some.inj hback).symm

theorem hexDigit_of_value {c : Char} {n : ℕ} (h : hexValue c = some n) : IsHexDigit c := by
  by_contra hnot
  rw [hexValue,if_neg hnot] at h
  cases h

theorem decode_hexDigits {s : List Char} {bytes : List UInt8} (h : decode s = some bytes) :
    ∀ c ∈ s, IsHexDigit c := by
  induction s using List.twoStepInduction generalizing bytes with
  | nil => nofun
  | singleton c => cases h
  | cons_cons high low rest ih _ =>
    obtain ⟨_,_,bytes',hhigh,hlow,hrest,_⟩ := decode_pair.mp h
    exact List.forall_mem_cons.mpr ⟨hexDigit_of_value hhigh,
      List.forall_mem_cons.mpr ⟨hexDigit_of_value hlow,ih hrest⟩⟩

theorem hexValue_of_digit {c : Char} (h : IsHexDigit c) : ∃ n, hexValue c = some n :=
  ⟨_,if_pos h⟩

theorem exists_decode {s : List Char} (hlength : s.length%2 = 0) (h : ∀ c ∈ s, IsHexDigit c) :
    ∃ bytes, decode s = some bytes := by
  induction s using List.twoStepInduction with
  | nil => exact ⟨[],rfl⟩
  | singleton c => simp at hlength
  | cons_cons high low rest ih _ =>
    obtain ⟨hhigh,hrest⟩ := List.forall_mem_cons.mp h
    obtain ⟨hlow,hrest⟩ := List.forall_mem_cons.mp hrest
    obtain ⟨bytes,hbytes⟩ := ih (by simp only [List.length_cons] at hlength; omega) hrest
    obtain ⟨a,ha⟩ := hexValue_of_digit hhigh
    obtain ⟨b,hb⟩ := hexValue_of_digit hlow
    exact ⟨_,decode_pair.mpr ⟨a,b,bytes,ha,hb,hbytes,rfl⟩⟩

/-! ## Names of a fixed length -/

structure FixedHash (n : ℕ) where
  bytes : List UInt8
  length : bytes.length = n
  deriving DecidableEq

namespace FixedHash

variable {n : ℕ}

def ofBytes (bytes : List UInt8) : Option (FixedHash n) :=
  if h : bytes.length = n then some ⟨bytes,h⟩ else none

theorem ext_encode {a b : FixedHash n} (h : encode a.bytes = encode b.bytes) : a = b := by
  have hbytes := encode_injective h
  cases a
  cases b
  cases hbytes
  rfl

end FixedHash

end Library.HexText
