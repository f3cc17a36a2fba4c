import DiamondBot.Common.ByteCache

/-!
# The byte codec of numbers and strings

Numbers take eight bytes, the least significant first. A string is its length
in bytes, as such a number, and its bytes.
-/

set_option autoImplicit false

namespace DiamondBot.ByteCache.Bincode

def littleEndian : ℕ → ℕ → List UInt8
  | 0,_ => []
  | k+1,n => UInt8.ofNat n::littleEndian k (n/256)

def readLittleEndian : ℕ → List UInt8 → Option (ℕ × List UInt8)
  | 0,bytes => some (0,bytes)
  | _+1,[] => none
  | k+1,b::bytes => (readLittleEndian k bytes).map fun r => (b.toNat+256*r.1,r.2)

theorem readLittleEndian_append (k n : ℕ) (rest : List UInt8) :
    readLittleEndian k (littleEndian k n++rest) = some (n%256^k,rest) := by
  induction k generalizing n with
  | zero =>
    rw [pow_zero,Nat.mod_one]
    rfl
  | succ k ih =>
    rw [littleEndian,List.cons_append,readLittleEndian,ih]
    have hn : (UInt8.ofNat n).toNat+256*(n/256%256^k) = n%256^(k+1) := by
      have hbyte : (UInt8.ofNat n).toNat = n%256 := UInt8.toNat_ofNat'
      rw [hbyte,pow_succ',Nat.mod_mul]
    rw [Option.map_some,hn]

def i64 : Bincode Int64 where
  encode n := .ok (littleEndian 8 n.toUInt64.toNat)
  decode bytes :=
    match readLittleEndian 8 bytes with
    | some (n,rest) => .ok ((UInt64.ofNat n).toInt64,rest)
    | none => .error "unexpected end of file"
  roundTrip := by
    rintro n _ rest ⟨⟩
    have hn : n.toUInt64.toNat%256^8 = n.toUInt64.toNat := Nat.mod_eq_of_lt n.toUInt64.toNat_lt
    rw [readLittleEndian_append,hn]
    dsimp only
    rw [UInt64.ofNat_toNat,Int64.toInt64_toUInt64]

def stringBytes (s : String) : List UInt8 :=
  littleEndian 8 s.toByteArray.size++s.toByteArray.data.toList

def string : Bincode String where
  encode s :=
    if s.toByteArray.size < 2^64 then .ok (stringBytes s)
    else .error "the size limit has been reached"
  decode bytes :=
    match readLittleEndian 8 bytes with
    | some (n,rest) =>
      if n ≤ rest.length then
        match String.fromUTF8? (rest.take n).toByteArray with
        | some s => .ok (s,rest.drop n)
        | none => .error "string is not valid utf8"
      else .error "unexpected end of file"
    | none => .error "unexpected end of file"
  roundTrip := by
    intro s bytes rest h
    split at h
    · rename_i hsize
      cases h
      have hlen : s.toByteArray.size%256^8 = s.toByteArray.size := Nat.mod_eq_of_lt hsize
      have hbytes : s.toByteArray.data.toList.length = s.toByteArray.size := rfl
      have hdata : s.toByteArray.data.toList.toByteArray = s.toByteArray := by
        apply ByteArray.ext
        rw [List.data_toByteArray,Array.toArray_toList]
      rw [stringBytes,List.append_assoc,readLittleEndian_append,hlen]
      dsimp only
      rw [if_pos (by rw [List.length_append,hbytes]; omega),← hbytes,List.take_left,
        List.drop_left,hdata,String.fromUTF8?,dif_pos s.isValidUTF8]
      rfl
    · cases h

theorem string_encode {s : String} (h : s.toByteArray.size < 2^64) :
    string.encode s = .ok (stringBytes s) := if_pos h

end DiamondBot.ByteCache.Bincode
