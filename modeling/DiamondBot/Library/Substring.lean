import Mathlib.Data.List.Infix

/-!
# Texts within texts
-/

set_option autoImplicit false

namespace Library.Substring

def contains (text pattern : String) : Bool := pattern.toList <:+: text.toList

theorem contains_iff {text pattern : String} :
    contains text pattern = true ↔ pattern.toList <:+: text.toList := decide_eq_true_iff

theorem contains_within {text pattern part : String} (hpart : contains pattern part = true)
    (h : contains text pattern = true) : contains text part = true :=
  contains_iff.mpr ((contains_iff.mp hpart).trans (contains_iff.mp h))

def containsAny (text : String) (patterns : List String) : Bool := patterns.any (contains text)

theorem containsAny_iff {text : String} {patterns : List String} :
    containsAny text patterns = true ↔ ∃ p ∈ patterns, contains text p = true := List.any_eq_true

/-! ## Pieces between occurrences of a pattern -/

def afterFirst (pattern : List Char) : List Char → Option (List Char)
  | [] => if pattern = [] then some [] else none
  | c::s => if pattern <+: c::s then some ((c::s).drop pattern.length) else afterFirst pattern s

def beforeFirst (pattern : List Char) : List Char → List Char
  | [] => []
  | c::s => if pattern <+: c::s then [] else c::beforeFirst pattern s

def secondPiece (text pattern : String) : Option (List Char) :=
  (afterFirst pattern.toList text.toList).map (beforeFirst pattern.toList)

end Library.Substring
