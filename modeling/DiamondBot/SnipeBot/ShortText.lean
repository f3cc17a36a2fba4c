import DiamondBot.Library.Utf8

/-!
# Texts cut short

A long text is shown by its two ends, and an error by the bytes from its last
error mark on. Lengths and places are bytes, so that a place can lie inside a
character.
-/

set_option autoImplicit false

namespace DiamondBot.Utils
open Library Utf8

def ellipsis : List Char := ['.','.','.']

def errorMark : List Char := ['e','r','r','o','r',':']

def truncateString (s : List Char) (maxLen : ℕ) : Except String (List Char) :=
  if byteLen s ≤ maxLen then .ok s
  else do
    let room ← Checked.sub maxLen 3
    let head ← sliceTo s (room/2)
    let start ← Checked.sub (byteLen s) (room/2)
    let tail ← sliceFrom s start
    .ok (head++ellipsis++tail)

def firstBytes (text : List Char) : Except String (List Char) := do
  let head ← sliceTo text 97
  .ok (head++ellipsis)

def shortenedError (lastError : List Char) : Except String (List Char) :=
  if byteLen lastError ≤ 100 then .ok lastError else firstBytes lastError

def formatError (error : List Char) : Except String (List Char) :=
  if byteLen error ≤ 100 then .ok error
  else match rfind errorMark error with
    | some lastErrorIdx => do
      let lastError ← sliceFrom error lastErrorIdx
      shortenedError lastError
    | none => firstBytes error

/-- A text that fits stays, and of another both ends are shown. -/
structure Truncates (s : List Char) (maxLen : ℕ) (result : Except String (List Char)) :
    Prop where
  fits : byteLen s ≤ maxLen → result = .ok s
  ends : maxLen < byteLen s → ∃ head tail, head <+: s ∧ tail <:+ s ∧
    result = .ok (head++ellipsis++tail) ∧ byteLen (head++ellipsis++tail) ≤ maxLen

/-- A text of at most 100 bytes is returned. -/
def Shortened (result : Except String (List Char)) : Prop :=
  ∃ text, result = .ok text ∧ byteLen text ≤ 100

/-- What of an error is shown: the end from its last mark on, and all of one without. -/
def Reported (error text : List Char) : Prop :=
  LastOccurrence errorMark error text ∨
    (∀ u, u <:+ error → ¬errorMark <+: u) ∧ text = error

/-! ## Both ends -/

theorem byteLen_ellipsis : byteLen ellipsis = 3 := by decide

theorem truncate_fits {s : List Char} {maxLen : ℕ} (h : byteLen s ≤ maxLen) :
    truncateString s maxLen = .ok s := if_pos h

theorem truncate_ok {s text : List Char} {maxLen : ℕ} (h : maxLen < byteLen s) :
    truncateString s maxLen = .ok text ↔ 3 ≤ maxLen ∧ ∃ head tail,
      (∃ t, s = head++t ∧ byteLen head = (maxLen-3)/2) ∧
      (∃ p, s = p++tail ∧ byteLen p = byteLen s-(maxLen-3)/2) ∧
      text = head++ellipsis++tail := by
  rw [truncateString,if_neg (not_le.mpr h)]
  constructor
  · intro hok
    obtain ⟨room,hroom,hok⟩ := Checked.bind_ok.mp hok
    obtain ⟨hthree,rfl⟩ := Checked.sub_ok.mp hroom
    obtain ⟨head,hhead,hok⟩ := Checked.bind_ok.mp hok
    obtain ⟨start,hstart,hok⟩ := Checked.bind_ok.mp hok
    obtain ⟨_,rfl⟩ := Checked.sub_ok.mp hstart
    obtain ⟨tail,htail,hok⟩ := Checked.bind_ok.mp hok
    cases hok
    exact ⟨hthree,head,tail,sliceTo_ok.mp hhead,sliceFrom_ok.mp htail,rfl⟩
  · rintro ⟨hthree,head,tail,hhead,htail,rfl⟩
    refine Checked.bind_ok.mpr ⟨maxLen-3,Checked.sub_ok.mpr ⟨hthree,rfl⟩,?_⟩
    refine Checked.bind_ok.mpr ⟨head,sliceTo_ok.mpr hhead,?_⟩
    have hstart : Checked.sub (byteLen s) ((maxLen-3)/2) = .ok (byteLen s-(maxLen-3)/2) :=
      Checked.sub_ok.mpr ⟨by omega,rfl⟩
    refine Checked.bind_ok.mpr ⟨_,hstart,?_⟩
    exact Checked.bind_ok.mpr ⟨tail,sliceFrom_ok.mpr htail,rfl⟩

theorem ends_fit {s head tail p : List Char} {maxLen : ℕ} (hthree : 3 ≤ maxLen)
    (hhead : byteLen head = (maxLen-3)/2) (hs : s = p++tail)
    (hp : byteLen p = byteLen s-(maxLen-3)/2) : byteLen (head++ellipsis++tail) ≤ maxLen := by
  have hsum : byteLen s = byteLen p+byteLen tail := by rw [hs,byteLen_append]
  rw [byteLen_append,byteLen_append,byteLen_ellipsis,hhead]
  omega

theorem truncates_iff (s : List Char) (maxLen : ℕ) :
    Truncates s maxLen (truncateString s maxLen) ↔ byteLen s ≤ maxLen ∨
      3 ≤ maxLen ∧ Boundary s ((maxLen-3)/2) ∧ Boundary s (byteLen s-(maxLen-3)/2) := by
  constructor
  · intro htruncates
    rcases Nat.lt_or_ge maxLen (byteLen s) with h | h
    · obtain ⟨head,tail,_,_,hok,_⟩ := htruncates.ends h
      obtain ⟨hthree,head,tail,⟨t,hhead⟩,⟨p,htail⟩,_⟩ := (truncate_ok h).mp hok
      exact Or.inr ⟨hthree,⟨head,t,hhead⟩,⟨p,tail,htail⟩⟩
    · exact Or.inl h
  · intro hcond
    refine ⟨truncate_fits,fun h => ?_⟩
    obtain ⟨hthree,⟨head,t,hhead,hlen⟩,⟨p,tail,htail,hp⟩⟩ := hcond.resolve_left (not_le.mpr h)
    exact ⟨head,tail,⟨t,hhead.symm⟩,⟨p,htail.symm⟩,
      (truncate_ok h).mpr ⟨hthree,head,tail,⟨t,hhead,hlen⟩,⟨p,htail,hp⟩,rfl⟩,
      ends_fit hthree hlen htail hp⟩

/-! ## The last error -/

theorem firstBytes_shortened (text : List Char) :
    Shortened (firstBytes text) ↔ Boundary text 97 := by
  constructor
  · rintro ⟨shown,hok,_⟩
    obtain ⟨head,hhead,_⟩ := Checked.bind_ok.mp hok
    obtain ⟨t,hsplit⟩ := sliceTo_ok.mp hhead
    exact ⟨head,t,hsplit⟩
  · rintro ⟨head,t,hsplit⟩
    refine ⟨head++ellipsis,Checked.bind_ok.mpr ⟨head,sliceTo_ok.mpr ⟨t,hsplit⟩,rfl⟩,?_⟩
    rw [byteLen_append,byteLen_ellipsis,hsplit.2]

theorem shortenedError_shortened (text : List Char) :
    Shortened (shortenedError text) ↔ byteLen text ≤ 100 ∨ Boundary text 97 := by
  rw [shortenedError]
  split
  next h => exact iff_of_true ⟨text,rfl,h⟩ (Or.inl h)
  next h => rw [firstBytes_shortened,or_iff_right h]

theorem reported_exists (error : List Char) : ∃ text, Reported error text := by
  cases h : rfind errorMark error with
  | none => exact ⟨error,Or.inr ⟨rfind_none h,rfl⟩⟩
  | some n =>
    obtain ⟨_,text,_,_,hlast⟩ := rfind_some h
    exact ⟨text,Or.inl hlast⟩

theorem formatError_reported {error text : List Char} (h : 100 < byteLen error)
    (ht : Reported error text) : formatError error = shortenedError text := by
  rw [formatError,if_neg (not_le.mpr h)]
  split
  next n hn =>
    obtain ⟨p,t,hsplit,hlen,hlast⟩ := rfind_some hn
    rcases ht with hmark | ⟨hnone,_⟩
    · have hslice : sliceFrom error n = .ok text :=
        sliceFrom_ok.mpr ⟨p,hlast.unique hmark ▸ hsplit,hlen⟩
      rw [hslice]
      rfl
    · exact absurd hlast.begins (hnone t hlast.ends)
  next hn =>
    rcases ht with hmark | ⟨_,rfl⟩
    · exact absurd hmark.begins (rfind_none hn text hmark.ends)
    · rw [shortenedError,if_neg (not_le.mpr h)]

theorem formatError_shortened_iff (error : List Char) :
    Shortened (formatError error) ↔ byteLen error ≤ 100 ∨
      ∃ text, Reported error text ∧ (byteLen text ≤ 100 ∨ Boundary text 97) := by
  rcases Nat.lt_or_ge 100 (byteLen error) with h | h
  · rw [or_iff_right (not_le.mpr h)]
    constructor
    · intro hshort
      obtain ⟨text,ht⟩ := reported_exists error
      rw [formatError_reported h ht,shortenedError_shortened] at hshort
      exact ⟨text,ht,hshort⟩
    · rintro ⟨text,ht,hcond⟩
      rw [formatError_reported h ht,shortenedError_shortened]
      exact hcond
  · exact iff_of_true ⟨error,if_pos h,h⟩ (Or.inl h)

/-- Cutting short never panics and stays within its limit, exactly where there is
room for the ellipsis and the places to cut at lie between two characters. -/
theorem cut_short_iff (s error : List Char) (maxLen : ℕ) :
    (Truncates s maxLen (truncateString s maxLen) ↔ byteLen s ≤ maxLen ∨
      3 ≤ maxLen ∧ Boundary s ((maxLen-3)/2) ∧ Boundary s (byteLen s-(maxLen-3)/2)) ∧
    (Shortened (formatError error) ↔ byteLen error ≤ 100 ∨
      ∃ text, Reported error text ∧ (byteLen text ≤ 100 ∨ Boundary text 97)) :=
  ⟨truncates_iff s maxLen,formatError_shortened_iff error⟩

/-- No room for the ellipsis, and a place to cut at inside a character. -/
theorem short_limit_panics :
    ¬Truncates ['a','b','c'] 2 (truncateString ['a','b','c'] 2) ∧
      ¬Truncates ['é','é','é'] 5 (truncateString ['é','é','é'] 5) ∧
      ¬Shortened (formatError (List.replicate 51 'é')) := by
  refine ⟨fun h => ?_,fun h => ?_,?_⟩
  · obtain ⟨_,_,_,_,hok,_⟩ := h.ends (by decide)
    cases hok
  · obtain ⟨_,_,_,_,hok,_⟩ := h.ends (by decide)
    cases hok
  · rintro ⟨_,hok,_⟩
    cases hok

end DiamondBot.Utils
