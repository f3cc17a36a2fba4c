import Mathlib.Data.List.Basic
import Mathlib.Logic.Equiv.List
import Mathlib.Order.Defs.LinearOrder

/-!
# JSON texts

A codec turns the values of a type into JSON texts and reads them back. The
text of a string is the string between quotation marks, with quotation marks,
backslashes and control characters escaped; the reader also takes the escapes
the writer does not use.
-/

set_option autoImplicit false

namespace Library

/-- The JSON text of the values of a type, and the values read back. -/
structure Json (V : Type) where
  toText : V → Except String String
  fromText : String → Except String V
  roundTrip : ∀ v text, toText v = .ok text → fromText text = .ok v

theorem fromUTF8_toByteArray (text : String) : String.fromUTF8? text.toByteArray = some text := by
  rw [String.fromUTF8?,dif_pos text.isValidUTF8]
  rfl

namespace Json

def bool : Json Bool where
  toText b := .ok (if b then "true" else "false")
  fromText text :=
    if text = "true" then .ok true
    else if text = "false" then .ok false
    else .error "expected a boolean"
  roundTrip := by
    rintro (_ | _) _ ⟨⟩
    · rfl
    · rfl

/-! ## Writing strings -/

def quoteMark : Char := Char.ofNat 34
def backslash : Char := Char.ofNat 92

def shortEscapes : List (Char × Char) :=
  [(Char.ofNat 8,'b'),(Char.ofNat 12,'f'),(Char.ofNat 10,'n'),(Char.ofNat 13,'r'),
    (Char.ofNat 9,'t')]

def hexDigit (n : ℕ) : Char := Char.ofNat (if n < 10 then 48+n else 87+n)

def escape (c : Char) : List Char :=
  if c = quoteMark ∨ c = backslash then [backslash,c]
  else
    match shortEscapes.find? fun p => p.1 = c with
    | some p => [backslash,p.2]
    | none =>
      if c.toNat < 32 then
        [backslash,'u','0','0',hexDigit (c.toNat/16),hexDigit (c.toNat%16)]
      else [c]

def quote (s : List Char) : List Char := quoteMark::(s.flatMap escape++[quoteMark])

/-! ## Reading strings -/

def isSpace (c : Char) : Bool := c.toNat ∈ [32,10,9,13]

def hexValue (c : Char) : Option ℕ :=
  if 48 ≤ c.toNat ∧ c.toNat < 58 then some (c.toNat-48)
  else if 97 ≤ c.toNat ∧ c.toNat < 103 then some (c.toNat-87)
  else if 65 ≤ c.toNat ∧ c.toNat < 71 then some (c.toNat-55)
  else none

def hex4 : List Char → Option (ℕ × List Char)
  | a::b::c::d::rest =>
    match hexValue a,hexValue b,hexValue c,hexValue d with
    | some a,some b,some c,some d => some (a*4096+b*256+c*16+d,rest)
    | _,_,_,_ => none
  | _ => none

def lowSurrogate : List Char → Option (ℕ × List Char)
  | b::u::rest =>
    if b = backslash ∧ u = 'u' then
      match hex4 rest with
      | some (low,rest) => if 0xDC00 ≤ low ∧ low < 0xE000 then some (low-0xDC00,rest) else none
      | none => none
    else none
  | _ => none

def readUnicode (rest : List Char) : Option (Char × List Char) :=
  match hex4 rest with
  | none => none
  | some (n,rest) =>
    if 0xD800 ≤ n ∧ n < 0xDC00 then
      (lowSurrogate rest).map fun low => (Char.ofNat (0x10000+(n-0xD800)*1024+low.1),low.2)
    else if 0xDC00 ≤ n ∧ n < 0xE000 then none
    else some (Char.ofNat n,rest)

def readEscape : List Char → Option (Char × List Char)
  | [] => none
  | e::rest =>
    if e = 'u' then readUnicode rest
    else if e = quoteMark ∨ e = backslash ∨ e = '/' then some (e,rest)
    else (shortEscapes.find? fun p => p.2 = e).map fun p => (p.1,rest)

def readChar : List Char → Option (Char × List Char)
  | [] => none
  | c::rest =>
    if c = backslash then readEscape rest
    else if c.toNat < 32 then none
    else some (c,rest)

def readBody : ℕ → List Char → Option (List Char × List Char)
  | 0,_ => none
  | _+1,[] => none
  | n+1,c::rest =>
    if c = quoteMark then some ([],rest)
    else
      match readChar (c::rest) with
      | none => none
      | some (d,rest) => (readBody n rest).map fun body => (d::body.1,body.2)

def unquote (text : List Char) : Option (List Char) :=
  match text.dropWhile isSpace with
  | [] => none
  | c::rest =>
    if c = quoteMark then
      match readBody text.length rest with
      | some (s,rest) => if rest.all isSpace then some s else none
      | none => none
    else none

/-! ## Round trip -/

theorem hexValue_hexDigit : ∀ n < 16, hexValue (hexDigit n) = some n := by decide

theorem shortEscape_read {p : Char × Char} (hp : p ∈ shortEscapes) (rest : List Char) :
    readChar (backslash::p.2::rest) = some (p.1,rest) := by
  simp only [shortEscapes,List.mem_cons,List.not_mem_nil,or_false] at hp
  rcases hp with rfl | rfl | rfl | rfl | rfl <;> rfl

theorem readChar_escape (c : Char) (rest : List Char) :
    readChar (escape c++rest) = some (c,rest) := by
  unfold escape
  split
  · rename_i h
    rcases h with rfl | rfl
    · rfl
    · rfl
  · rename_i hplain
    rw [not_or] at hplain
    split
    · rename_i p hp
      have hread := shortEscape_read (List.mem_of_find?_eq_some hp) rest
      have hc := List.find?_some hp
      rw [of_decide_eq_true hc] at hread
      exact hread
    · split
      · rename_i hcontrol
        have hhigh := hexValue_hexDigit (c.toNat/16) (by omega)
        have hlow := hexValue_hexDigit (c.toNat%16) (Nat.mod_lt _ (by decide))
        have hcode : 0*4096+0*256+c.toNat/16*16+c.toNat%16 = c.toNat := by omega
        have hzero : hexValue '0' = some 0 := rfl
        have hhex : hex4 ('0':: '0'::hexDigit (c.toNat/16)::hexDigit (c.toNat%16)::rest) =
            some (c.toNat,rest) := by
          rw [hex4,hzero,hhigh,hlow]
          dsimp only
          rw [hcode]
        change readUnicode
          ('0':: '0'::hexDigit (c.toNat/16)::hexDigit (c.toNat%16)::rest) = _
        rw [readUnicode,hhex]
        dsimp only
        rw [if_neg (by omega),if_neg (by omega),Char.ofNat_toNat]
      · rename_i hcontrol
        change readChar (c::rest) = _
        rw [readChar,if_neg hplain.2,if_neg hcontrol]

theorem escape_head (c : Char) : ∃ d l, escape c = d::l ∧ d ≠ quoteMark := by
  have hb : backslash ≠ quoteMark := by decide
  unfold escape
  split
  · exact ⟨_,_,rfl,hb⟩
  · rename_i hplain
    split
    · exact ⟨_,_,rfl,hb⟩
    · split
      · exact ⟨_,_,rfl,hb⟩
      · exact ⟨_,_,rfl,fun h => hplain (Or.inl h)⟩

theorem readBody_escape (s rest : List Char) {n : ℕ} (hn : s.length < n) :
    readBody n (s.flatMap escape++quoteMark::rest) = some (s,rest) := by
  induction s generalizing n with
  | nil =>
    obtain ⟨m,rfl⟩ := Nat.exists_eq_add_of_lt hn
    rfl
  | cons c s ih =>
    obtain ⟨m,rfl⟩ := Nat.exists_eq_add_of_lt hn
    obtain ⟨d,l,hd,hne⟩ := escape_head c
    have hread := readChar_escape c (s.flatMap escape++quoteMark::rest)
    rw [hd,List.cons_append] at hread
    rw [List.flatMap_cons,hd,List.append_assoc,List.cons_append,readBody,if_neg hne,hread]
    dsimp only
    rw [ih (by simp only [List.length_cons]; omega)]
    rfl

theorem length_escape (c : Char) : 1 ≤ (escape c).length := by
  obtain ⟨d,l,hd,_⟩ := escape_head c
  rw [hd,List.length_cons]
  omega

theorem length_le_flatMap_escape (s : List Char) : s.length ≤ (s.flatMap escape).length := by
  induction s with
  | nil => exact Nat.zero_le _
  | cons c s ih =>
    have hc := length_escape c
    rw [List.flatMap_cons,List.length_append,List.length_cons]
    omega

theorem unquote_quote (s : List Char) : unquote (quote s) = some s := by
  have hlen := length_le_flatMap_escape s
  have hbody : readBody (quote s).length (s.flatMap escape++quoteMark::[]) = some (s,[]) := by
    apply readBody_escape
    simp only [quote,List.length_cons,List.length_append]
    omega
  have hdrop : (quote s).dropWhile isSpace = quote s := rfl
  rw [unquote,hdrop]
  change (if quoteMark = quoteMark then _ else _) = _
  rw [if_pos rfl,hbody]
  rfl

def string : Json String where
  toText s := .ok (String.ofList (quote s.toList))
  fromText text :=
    match unquote text.toList with
    | some s => .ok (String.ofList s)
    | none => .error "expected a string"
  roundTrip := by
    rintro s _ ⟨⟩
    rw [String.toList_ofList,unquote_quote]
    dsimp only
    rw [String.ofList_toList]

def ofList {V : Type} [DecidableEq V] (values : List V) (text : V → String)
    (h : ∀ v ∈ values, ∀ w ∈ values, text v = text w → v = w) : Json V where
  toText v := if v ∈ values then .ok (text v) else .error "unknown value"
  fromText t :=
    match values.find? fun v => text v = t with
    | some v => .ok v
    | none => .error "unknown text"
  roundTrip := by
    intro v t hv
    split at hv
    · rename_i hmem
      cases hv
      cases hfind : values.find? fun w => text w = text v with
      | none => exact absurd (List.find?_eq_none.mp hfind v hmem) (by simp)
      | some w =>
        have hw := List.find?_some hfind
        rw [h w (List.mem_of_find?_eq_some hfind) v hmem (of_decide_eq_true hw)]
    · cases hv

/-! ## Numbers -/

instance : Encodable Char := Encodable.ofLeftInverse Char.toNat Char.ofNat Char.ofNat_toNat

instance : Encodable String :=
  Encodable.ofLeftInverse String.toList String.ofList fun _ => String.ofList_toList

def number (V : Type) [Encodable V] : Json V where
  toText v := .ok (String.ofList (Nat.toDigits 10 (Encodable.encode v)))
  fromText text :=
    match Encodable.decode (Nat.ofDigitChars 10 text.toList 0) with
    | some v => .ok v
    | none => .error "unknown number"
  roundTrip := by
    rintro v _ ⟨⟩
    rw [String.toList_ofList,Nat.ofDigitChars_ten_toDigits,Encodable.encodek]

/-! ## Commas -/

/-- No escape contains a comma. -/
theorem comma_mem_escape {c : Char} : ',' ∈ escape c ↔ c = ',' := by
  have hshort : ∀ p ∈ shortEscapes, p.1 ≠ ',' ∧ p.2 ≠ ',' := by decide
  have hhex : ∀ n < 16, hexDigit n ≠ ',' := by decide
  unfold escape
  split
  · rename_i h
    rcases h with rfl | rfl <;> decide
  · split
    · rename_i p hp
      have hmem := List.mem_of_find?_eq_some hp
      have hfound := List.find?_some hp
      have hc := of_decide_eq_true hfound
      apply iff_of_false
      · simp only [List.mem_cons,List.not_mem_nil,or_false,not_or]
        exact ⟨by decide,fun h => (hshort p hmem).2 h.symm⟩
      · rw [← hc]
        exact (hshort p hmem).1
    · split
      · rename_i hcontrol
        have hhigh := hhex (c.toNat/16) (by omega)
        have hlow := hhex (c.toNat%16) (Nat.mod_lt _ (by decide))
        apply iff_of_false
        · simp only [List.mem_cons,List.not_mem_nil,or_false,not_or]
          exact ⟨by decide,by decide,by decide,by decide,fun h => hhigh h.symm,fun h => hlow h.symm⟩
        · rintro rfl
          exact absurd hcontrol (by decide)
      · rw [List.mem_singleton,eq_comm]

theorem comma_mem_quote {s : List Char} : ',' ∈ quote s ↔ ',' ∈ s := by
  have hmark : ',' ≠ quoteMark := by decide
  simp only [quote,List.mem_cons,List.mem_append,List.mem_flatMap,List.not_mem_nil,or_false,
    hmark,false_or,comma_mem_escape]
  constructor
  · rintro ⟨c,hc,rfl⟩
    exact hc
  · exact fun h => ⟨',',h,rfl⟩

end Json

end Library
