import DiamondBot.Library.HexText

/-!
# Addresses and hashes as text

A text is an address when it is forty hexadecimal digits, with or without `0x`
before them, and a hash when it is sixty-four. The text is then read by the
parser of the fixed-size type, which gets `0x` put before it where it lacks it.
How that parser reads marked digits is that of the type.
-/

set_option autoImplicit false

namespace DiamondBot.Utils
open Library.HexText

abbrev Address := FixedHash 20
abbrev H256 := FixedHash 32

def hexMark : List Char := ['0','x']

/-- What stands before the digits may be left out. -/
def digitsOf (s : List Char) : List Char :=
  match s with
  | '0' :: 'x' :: rest => rest
  | s => s

/-- The regular expression: `0x` or nothing, then so many digits and no more. -/
def isHexText (digits : ℕ) (s : List Char) : Bool :=
  (digitsOf s).length == digits && (digitsOf s).all fun c => IsHexDigit c

def withMark (s : List Char) : List Char := if hexMark.isPrefixOf s then s else hexMark++s

def parseHex (n : ℕ) (fromStr : List Char → Option (FixedHash n)) (s : List Char) :
    Option (FixedHash n) :=
  if isHexText (2*n) s then fromStr (withMark s) else none

def parseAddress (fromStr : List Char → Option Address) (addressStr : List Char) :
    Option Address :=
  parseHex 20 fromStr addressStr

def parseHash (fromStr : List Char → Option H256) (hashStr : List Char) : Option H256 :=
  parseHex 32 fromStr hashStr

/-- Digits of the full length behind a mark are read as the bytes they write. -/
def ReadsHex {n : ℕ} (fromStr : List Char → Option (FixedHash n)) : Prop :=
  ∀ digits, digits.length = 2*n → (∀ c ∈ digits, IsHexDigit c) →
    ∃ a, fromStr (hexMark++digits) = some a ∧ encode a.bytes = lower digits

theorem digitsOf_mark (s : List Char) : digitsOf (hexMark++s) = s := rfl

theorem withMark_digits (s : List Char) : withMark s = hexMark++digitsOf s := by
  unfold withMark
  split
  · next h =>
    obtain ⟨rest,rfl⟩ := List.isPrefixOf_iff_prefix.mp h
    rw [digitsOf_mark]
  · next h =>
    unfold digitsOf
    split
    · simp [hexMark] at h
    · rfl

theorem isHexText_of_lower {n : ℕ} {s : List Char} {a : FixedHash n}
    (h : lower (digitsOf s) = encode a.bytes) : isHexText (2*n) s = true := by
  have hdecode := decode_iff.mpr h
  have hlength := decode_length hdecode
  rw [a.length] at hlength
  rw [isHexText,hlength,beq_self_eq_true,Bool.true_and,List.all_eq_true]
  exact fun c hc => decide_eq_true (decode_hexDigits hdecode c hc)

theorem parseHex_iff {n : ℕ} {fromStr : List Char → Option (FixedHash n)}
    (hreads : ReadsHex fromStr) {s : List Char} {a : FixedHash n} :
    parseHex n fromStr s = some a ↔ lower (digitsOf s) = encode a.bytes := by
  -- the parser is only asked about texts it is known to read
  have hread : isHexText (2*n) s = true →
      ∃ b, fromStr (withMark s) = some b ∧ encode b.bytes = lower (digitsOf s) := by
    intro h
    rw [isHexText,Bool.and_eq_true,beq_iff_eq,List.all_eq_true] at h
    rw [withMark_digits]
    exact hreads _ h.1 fun c hc => of_decide_eq_true (h.2 c hc)
  rw [parseHex]
  constructor
  · intro h
    split at h
    · next htext =>
      obtain ⟨b,hb,hdigits⟩ := hread htext
      rw [hb] at h
      cases h
      exact hdigits.symm
    · cases h
  · intro h
    have htext := isHexText_of_lower h
    obtain ⟨b,hb,hdigits⟩ := hread htext
    rw [if_pos htext,hb,FixedHash.ext_encode (hdigits.trans h)]

section Texts

variable {addressFromStr : List Char → Option Address} {hashFromStr : List Char → Option H256}

/-- A text stands for an address or a hash when it is its digits in either case,
marked or not, so the digits of a value are read back and two texts name one
value exactly when they differ in case and mark only. -/
theorem hex_text_iff (haddress : ReadsHex addressFromStr) (hhash : ReadsHex hashFromStr)
    (s t : List Char) (a : Address) (b : H256) :
    (parseAddress addressFromStr s = some a ↔ lower (digitsOf s) = encode a.bytes) ∧
      (parseHash hashFromStr s = some b ↔ lower (digitsOf s) = encode b.bytes) ∧
      parseAddress addressFromStr (hexMark++encode a.bytes) = some a ∧
      parseHash hashFromStr (hexMark++encode b.bytes) = some b ∧
      (parseAddress addressFromStr s = some a → (parseAddress addressFromStr t = some a ↔
        lower (digitsOf t) = lower (digitsOf s))) := by
  refine ⟨parseHex_iff haddress,parseHex_iff hhash,(parseHex_iff haddress).mpr (encode_lower _),
    (parseHex_iff hhash).mpr (encode_lower _),fun h => ?_⟩
  have hs := (parseHex_iff haddress).mp h
  rw [hs]
  exact parseHex_iff haddress

end Texts

def markedFromStr (n : ℕ) : List Char → Option (FixedHash n)
  | '0' :: 'x' :: digits => (decode digits).bind FixedHash.ofBytes
  | _ => none

theorem markedFromStr_reads (n : ℕ) : ReadsHex (markedFromStr n) := by
  intro digits hlength hdigits
  obtain ⟨bytes,hdecode⟩ := exists_decode (by omega) hdigits
  have hbytes : bytes.length = n := by
    have hdouble := decode_length hdecode
    omega
  refine ⟨⟨bytes,hbytes⟩,?_,(decode_iff.mp hdecode).symm⟩
  show (decode digits).bind FixedHash.ofBytes = _
  rw [hdecode,Option.bind_some,FixedHash.ofBytes,dif_pos hbytes]

/-- An address in upper case, and the same address with its mark. -/
theorem hex_text_iff_upper :
    parseAddress (markedFromStr 20) (List.replicate 40 'A') = some ⟨List.replicate 20 170,rfl⟩ ∧
      parseAddress (markedFromStr 20) (hexMark++List.replicate 40 'a') =
        some ⟨List.replicate 20 170,rfl⟩ := by
  have hresult := hex_text_iff (markedFromStr_reads 20) (markedFromStr_reads 32)
    (List.replicate 40 'A') (hexMark++List.replicate 40 'a') ⟨List.replicate 20 170,rfl⟩
    ⟨List.replicate 32 0,rfl⟩
  have hupper := hresult.1.mpr (by decide)
  exact ⟨hupper,(hresult.2.2.2.2 hupper).mpr (by decide)⟩

end DiamondBot.Utils
