import DiamondBot.Library.Checked
import Mathlib.Data.String.Basic

/-!
# Cutting text at a byte

A text is the list of its characters, and its length is that of their UTF-8
encodings. A cut at a byte succeeds only on the boundary of a character. Both
parts of a cut are then determined by the length of the first.
-/

set_option autoImplicit false

namespace Library.Utf8

abbrev byteLen (s : List Char) : ℕ := String.utf8Len s

/-- The text before and from byte `n`, if a character ends there. -/
def cut : ℕ → List Char → Option (List Char × List Char)
  | 0, s => some ([],s)
  | _+1, [] => none
  | n+1, c::s =>
    if c.utf8Size ≤ n+1 then (cut (n+1-c.utf8Size) s).map fun (p,t) => (c::p,t) else none

theorem cut_append (p t : List Char) : cut (byteLen p) (p++t) = some (p,t) := by
  induction p with
  | nil => cases t <;> rfl
  | cons c p ih =>
    have hpos := c.utf8Size_pos
    obtain ⟨n,hn⟩ : ∃ n, byteLen p+c.utf8Size = n+1 := ⟨byteLen p+c.utf8Size-1,by omega⟩
    have hrest : n+1-c.utf8Size = byteLen p := by omega
    change cut (byteLen p+c.utf8Size) (c::(p++t)) = _
    rw [hn,cut,if_pos (by omega),hrest,ih]
    rfl

theorem cut_eq_some {n : ℕ} {s p t : List Char} :
    cut n s = some (p,t) ↔ s = p++t ∧ byteLen p = n := by
  refine ⟨fun h => ?_,?_⟩
  · induction s generalizing n p with
    | nil =>
      cases n with
      | zero => cases h; exact ⟨rfl,rfl⟩
      | succ n => cases h
    | cons c s ih =>
      cases n with
      | zero => cases h; exact ⟨rfl,rfl⟩
      | succ n =>
        rw [cut] at h
        split at h
        next hc =>
          obtain ⟨⟨p',t'⟩,hcut,heq⟩ := Option.map_eq_some_iff.mp h
          cases heq
          obtain ⟨rfl,hlen⟩ := ih hcut
          refine ⟨rfl,?_⟩
          change byteLen p'+c.utf8Size = n+1
          omega
        next => cases h
  · rintro ⟨rfl,rfl⟩
    exact cut_append p t

theorem cut_unique {p t p' t' : List Char} (h : p++t = p'++t') (hlen : byteLen p' = byteLen p) :
    p' = p ∧ t' = t := by
  have hcut := cut_append p' t'
  rw [hlen,← h,cut_append] at hcut
  cases hcut
  exact ⟨rfl,rfl⟩

/-- A character ends at byte `n` of the text. -/
def Boundary (s : List Char) (n : ℕ) : Prop := ∃ p t, s = p++t ∧ byteLen p = n

theorem boundary_iff {s : List Char} {n : ℕ} : Boundary s n ↔ ∃ parts, cut n s = some parts := by
  constructor
  · rintro ⟨p,t,hs,hlen⟩
    exact ⟨(p,t),cut_eq_some.mpr ⟨hs,hlen⟩⟩
  · rintro ⟨⟨p,t⟩,hcut⟩
    exact ⟨p,t,cut_eq_some.mp hcut⟩

theorem not_boundary {s : List Char} {n : ℕ} : ¬Boundary s n ↔ cut n s = none := by
  rw [boundary_iff,← Option.isSome_iff_exists,Option.not_isSome_iff_eq_none]

theorem byteLen_append (s t : List Char) : byteLen (s++t) = byteLen s+byteLen t :=
  String.utf8Len_append s t

/-- The text before byte `n`. -/
def sliceTo (s : List Char) (n : ℕ) : Except String (List Char) := do
  let parts ← Checked.expect (cut n s) "byte index is not a char boundary"
  .ok parts.1

/-- The text from byte `n` on. -/
def sliceFrom (s : List Char) (n : ℕ) : Except String (List Char) := do
  let parts ← Checked.expect (cut n s) "byte index is not a char boundary"
  .ok parts.2

theorem sliceTo_ok {s p : List Char} {n : ℕ} :
    sliceTo s n = .ok p ↔ ∃ t, s = p++t ∧ byteLen p = n := by
  rw [sliceTo,Checked.bind_ok]
  constructor
  · rintro ⟨⟨p',t⟩,hcut,heq⟩
    cases heq
    exact ⟨t,cut_eq_some.mp (Checked.expect_ok.mp hcut)⟩
  · rintro ⟨t,h⟩
    exact ⟨(p,t),Checked.expect_ok.mpr (cut_eq_some.mpr h),rfl⟩

theorem sliceTo_panics {s : List Char} {n : ℕ} (h : ¬Boundary s n) :
    sliceTo s n = .error "byte index is not a char boundary" := by
  rw [sliceTo,not_boundary.mp h]
  rfl

theorem sliceFrom_ok {s t : List Char} {n : ℕ} :
    sliceFrom s n = .ok t ↔ ∃ p, s = p++t ∧ byteLen p = n := by
  rw [sliceFrom,Checked.bind_ok]
  constructor
  · rintro ⟨⟨p,t'⟩,hcut,heq⟩
    cases heq
    exact ⟨p,cut_eq_some.mp (Checked.expect_ok.mp hcut)⟩
  · rintro ⟨p,h⟩
    exact ⟨(p,t),Checked.expect_ok.mpr (cut_eq_some.mpr h),rfl⟩

/-! ## Searching from the end -/

def rfind (pattern : List Char) : List Char → Option ℕ
  | [] => if pattern.isEmpty then some 0 else none
  | c::s =>
    match rfind pattern s with
    | some n => some (n+c.utf8Size)
    | none => if pattern.isPrefixOf (c::s) then some 0 else none

structure LastOccurrence (pattern s t : List Char) : Prop where
  ends : t <:+ s
  begins : pattern <+: t
  last : ∀ u, u <:+ s → pattern <+: u → t <:+ u

theorem LastOccurrence.unique {pattern s t t' : List Char} (h : LastOccurrence pattern s t)
    (h' : LastOccurrence pattern s t') : t' = t :=
  (h'.last t h.ends h.begins).eq_of_length_le (h.last t' h'.ends h'.begins).length_le

theorem rfind_none {pattern s : List Char} (h : rfind pattern s = none) :
    ∀ u, u <:+ s → ¬pattern <+: u := by
  induction s with
  | nil =>
    rw [rfind] at h
    split at h
    next => cases h
    next hpattern =>
      intro u hu hbegins
      rw [List.suffix_nil.mp hu,List.prefix_nil] at hbegins
      exact hpattern (List.isEmpty_iff.mpr hbegins)
  | cons c s ih =>
    rw [rfind] at h
    split at h
    next => cases h
    next hrest =>
      split at h
      next => cases h
      next hhere =>
        intro u hu hbegins
        rcases List.suffix_cons_iff.mp hu with rfl | hu
        · exact hhere (List.isPrefixOf_iff_prefix.mpr hbegins)
        · exact ih hrest u hu hbegins

theorem rfind_some {pattern s : List Char} {n : ℕ} (h : rfind pattern s = some n) :
    ∃ p t, s = p++t ∧ byteLen p = n ∧ LastOccurrence pattern s t := by
  induction s generalizing n with
  | nil =>
    rw [rfind] at h
    split at h
    next hpattern =>
      cases h
      exact ⟨[],[],rfl,rfl,List.suffix_rfl,List.isEmpty_iff.mp hpattern ▸ List.prefix_rfl,
        fun _ _ _ => List.nil_suffix⟩
    next => cases h
  | cons c s ih =>
    rw [rfind] at h
    split at h
    next m hm =>
      cases h
      obtain ⟨p,t,rfl,rfl,hlast⟩ := ih hm
      have hends : t <:+ c::(p++t) := hlast.ends.trans (List.suffix_cons c _)
      refine ⟨c::p,t,rfl,rfl,hends,hlast.begins,fun u hu hbegins => ?_⟩
      rcases List.suffix_cons_iff.mp hu with rfl | hu
      · exact hends
      · exact hlast.last u hu hbegins
    next hrest =>
      split at h
      next hhere =>
        cases h
        refine ⟨[],c::s,rfl,rfl,List.suffix_rfl,List.isPrefixOf_iff_prefix.mp hhere,
          fun u hu hbegins => ?_⟩
        rcases List.suffix_cons_iff.mp hu with rfl | hu
        · exact List.suffix_rfl
        · exact absurd hbegins (rfind_none hrest u hu)
      next => cases h

end Library.Utf8
