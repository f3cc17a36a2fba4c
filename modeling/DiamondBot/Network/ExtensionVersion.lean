import DiamondBot.Library.DecimalText

/-!
# Versions of extensions

A version is compatible with those of its major number up to its own minor
number. It is written as three numbers with dots between them, and read from
any three numerals that 32 bits hold.
-/

set_option autoImplicit false

namespace DiamondBot.Network
open Library DecimalText

structure ExtensionVersion where
  major : UInt32
  minor : UInt32
  patch : UInt32
  deriving DecidableEq

namespace ExtensionVersion

def digits (n : UInt32) : List Char := Nat.toDigits 10 n.toNat

def toString (v : ExtensionVersion) : List Char :=
  digits v.major ++ '.'::(digits v.minor ++ '.'::digits v.patch)

def fromString (versionStr : List Char) : Except String ExtensionVersion :=
  match versionStr.splitOn '.' with
  | [x,y,z] => do
    let major ← parseUnsigned 32 x
    let minor ← parseUnsigned 32 y
    let patch ← parseUnsigned 32 z
    .ok ⟨.ofNat major,.ofNat minor,.ofNat patch⟩
  | _ => .error "Invalid version format. Expected x.y.z"

def isCompatibleWith (self other : ExtensionVersion) : Bool :=
  if self.major ≠ other.major then false
  else if self.minor < other.minor then false
  else true

/-- The order of versions, number by number. -/
def AtLeast (a b : ExtensionVersion) : Prop :=
  b.major < a.major ∨ b.major = a.major ∧
    (b.minor < a.minor ∨ b.minor = a.minor ∧ b.patch ≤ a.patch)

instance (a b : ExtensionVersion) : Decidable (AtLeast a b) :=
  inferInstanceAs (Decidable (_ ∨ _))

/-! ## Compatibility -/

theorem isCompatibleWith_iff {a b : ExtensionVersion} :
    isCompatibleWith a b = true ↔ a.major = b.major ∧ b.minor ≤ a.minor := by
  unfold isCompatibleWith
  by_cases hmajor : a.major = b.major
  · rw [if_neg (not_not.mpr hmajor),and_iff_right hmajor,← UInt32.not_lt]
    by_cases hminor : a.minor < b.minor
    · simp [hminor]
    · simp [hminor]
  · simp [hmajor]

theorem compatible_refl (a : ExtensionVersion) : isCompatibleWith a a = true :=
  isCompatibleWith_iff.mpr ⟨rfl,UInt32.le_refl _⟩

theorem compatible_trans {a b c : ExtensionVersion} (h : isCompatibleWith a b = true)
    (h' : isCompatibleWith b c = true) : isCompatibleWith a c = true := by
  obtain ⟨hmajor,hminor⟩ := isCompatibleWith_iff.mp h
  obtain ⟨hmajor',hminor'⟩ := isCompatibleWith_iff.mp h'
  exact isCompatibleWith_iff.mpr ⟨hmajor.trans hmajor',UInt32.le_trans hminor' hminor⟩

theorem compatible_of_atLeast {a b : ExtensionVersion} (hmajor : a.major = b.major)
    (h : AtLeast a b) : isCompatibleWith a b = true := by
  apply isCompatibleWith_iff.mpr ⟨hmajor,?_⟩
  rcases h with h | ⟨_,h | ⟨h,_⟩⟩
  · rw [hmajor] at h
    exact absurd h (UInt32.lt_irrefl _)
  · exact UInt32.le_of_lt h
  · rw [h]
    exact UInt32.le_refl _

theorem compatible_below_iff {a b : ExtensionVersion} :
    isCompatibleWith a b = true ∧ ¬AtLeast a b ↔
      a.major = b.major ∧ a.minor = b.minor ∧ a.patch < b.patch := by
  rw [isCompatibleWith_iff]
  simp only [AtLeast,← UInt32.toNat_inj,UInt32.lt_iff_toNat_lt,UInt32.le_iff_toNat_le]
  omega

/-! ## Text -/

theorem splitOn_three {x y z : List Char} (hx : '.' ∉ x) (hy : '.' ∉ y) (hz : '.' ∉ z) :
    (x ++ '.'::(y ++ '.'::z)).splitOn '.' = [x,y,z] := by
  rw [splitOn_point hx,splitOn_point hy,splitOn_whole hz]

theorem number_of_parse {s : List Char} {n : ℕ} (h : parseUnsigned 32 s = .ok n) :
    number s = some (UInt32.ofNat n).toNat := by
  obtain ⟨hs,hn⟩ := parseUnsigned_ok.mp h
  rw [hs,UInt32.toNat_ofNat_of_lt' hn]

theorem parse_of_number {s : List Char} {w : UInt32} (h : number s = some w.toNat) :
    parseUnsigned 32 s = .ok w.toNat :=
  parseUnsigned_ok.mpr ⟨h,w.toNat_lt⟩

/-- What is read are three numerals, with or without plus signs and zeros in front. -/
theorem fromString_ok {s : List Char} {v : ExtensionVersion} :
    fromString s = .ok v ↔ ∃ x y z, s = x ++ '.'::(y ++ '.'::z) ∧
      number x = some v.major.toNat ∧ number y = some v.minor.toNat ∧
      number z = some v.patch.toNat := by
  constructor
  · intro h
    unfold fromString at h
    split at h
    · next x y z hs =>
      obtain ⟨major,hx,h⟩ := Checked.bind_ok.mp h
      obtain ⟨minor,hy,h⟩ := Checked.bind_ok.mp h
      obtain ⟨patch,hz,h⟩ := Checked.bind_ok.mp h
      cases h
      have hjoin : ['.'].intercalate (s.splitOn '.') = s := List.intercalate_splitOn '.'
      rw [hs] at hjoin
      refine ⟨x,y,z,?_,number_of_parse hx,number_of_parse hy,number_of_parse hz⟩
      rw [← hjoin]
      simp [List.intercalate]
    · cases h
  · rintro ⟨x,y,z,rfl,hx,hy,hz⟩
    rw [fromString,splitOn_three (dot_not_mem_number hx) (dot_not_mem_number hy)
      (dot_not_mem_number hz)]
    simp only [parse_of_number hx,parse_of_number hy,parse_of_number hz,bind,Except.bind,
      UInt32.ofNat_toNat]

theorem fromString_toString (v : ExtensionVersion) : fromString (toString v) = .ok v :=
  fromString_ok.mpr ⟨_,_,_,rfl,number_toDigits _,number_toDigits _,number_toDigits _⟩

/-- Compatibility is a preorder that refines the order up to the patch number,
and reading takes every three numerals, those that are written among them. -/
theorem compatible_and_read :
    (∀ a, isCompatibleWith a a = true) ∧
    (∀ a b c, isCompatibleWith a b = true → isCompatibleWith b c = true →
      isCompatibleWith a c = true) ∧
    (∀ a b, isCompatibleWith a b = true ↔ a.major = b.major ∧ AtLeast a {b with patch := 0}) ∧
    (∀ a b, isCompatibleWith a b = true ∧ ¬AtLeast a b ↔
      a.major = b.major ∧ a.minor = b.minor ∧ a.patch < b.patch) ∧
    (∀ s v, fromString s = .ok v ↔ ∃ x y z, s = x ++ '.'::(y ++ '.'::z) ∧
      number x = some v.major.toNat ∧ number y = some v.minor.toNat ∧
      number z = some v.patch.toNat) ∧
    ∀ v, fromString (toString v) = .ok v := by
  refine ⟨compatible_refl,fun _ _ _ => compatible_trans,?_,fun _ _ => compatible_below_iff,
    fun _ _ => fromString_ok,fromString_toString⟩
  intro a b
  rw [isCompatibleWith_iff]
  simp only [AtLeast,← UInt32.toNat_inj,UInt32.lt_iff_toNat_lt,UInt32.le_iff_toNat_le,
    UInt32.toNat_zero]
  omega

/-- A lower patch number is compatible, and a text with a zero in front is read. -/
theorem compatible_and_read_counterexample :
    (isCompatibleWith ⟨1,0,0⟩ ⟨1,0,5⟩ = true ∧ ¬AtLeast ⟨1,0,0⟩ ⟨1,0,5⟩) ∧
      fromString "01.0.0".toList = .ok ⟨1,0,0⟩ ∧ ∀ v, toString v ≠ "01.0.0".toList := by
  refine ⟨by decide,by decide +kernel,?_⟩
  intro v hv
  have hread := fromString_toString v
  rw [hv,show fromString "01.0.0".toList = .ok ⟨1,0,0⟩ by decide +kernel] at hread
  cases hread
  exact absurd hv (by decide +kernel)

end ExtensionVersion
end DiamondBot.Network
