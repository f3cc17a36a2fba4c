import DiamondBot.Library.Checked
import DiamondBot.Library.KeyStream

/-!
# Encryption and signatures

Three copies of one loop combine a text with a key that starts over at its end.
Two of them index the key, and fail on a text when the key is empty; the third
takes the key from an iterator, and then drops the whole text.
-/

set_option autoImplicit false

namespace DiamondBot.Security
open Library Library.KeyStream

abbrev Bytes := List UInt8

def indexedLoop (key : Bytes) : ℕ → Bytes → Except String Bytes
  | _, [] => .ok []
  | i, b::data => do
    let j ← Checked.rem i key.length
    let k ← Checked.expect key[j]? "index out of bounds"
    pure ((b^^^k)::(← indexedLoop key (i+1) data))

namespace Common

def xorEncryptDecrypt (data key : Bytes) : Except String Bytes := indexedLoop key 0 data

end Common

namespace Network

def xorEncryptDecrypt (data key : Bytes) : Bytes :=
  List.zipWith (· ^^^ ·) data (cycle key data.length)

end Network

structure SecurityConfig where
  encryptionKey : Bytes
  signingKey : Bytes

namespace BasicSecurity

variable (config : SecurityConfig)

def encrypt (data : Bytes) : Except String Bytes := indexedLoop config.encryptionKey 0 data

def decrypt (data : Bytes) : Except String Bytes := indexedLoop config.encryptionKey 0 data

def sign (data : Bytes) : Except String Bytes := indexedLoop config.signingKey 0 data

def verify (data signature : Bytes) : Except String Bool := do
  let expected ← indexedLoop config.signingKey 0 data
  pure (expected == signature)

end BasicSecurity

theorem xor_off (a k : UInt8) : (a^^^k)^^^k = a := by
  rw [UInt8.xor_assoc,UInt8.xor_self,UInt8.xor_zero]

theorem xor_shown (a k : UInt8) : a^^^(a^^^k) = k := by
  rw [← UInt8.xor_assoc,UInt8.xor_self,UInt8.zero_xor]

theorem indexedLoop_masked {key : Bytes} (h : key ≠ []) (i : ℕ) (data : Bytes) :
    indexedLoop key i data = .ok (masked (· ^^^ ·) (fun j => stream key h (i+j)) data) := by
  induction data generalizing i with
  | nil => rfl
  | cons b data ih =>
    have hpos := List.length_pos_of_ne_nil h
    have hrem : Checked.rem i key.length = .ok (i%key.length) :=
      Checked.rem_ok.mpr ⟨hpos.ne',rfl⟩
    have hkey : Checked.expect key[i%key.length]? "index out of bounds" = .ok (stream key h i) :=
      Checked.expect_ok.mpr (List.getElem?_eq_getElem (Nat.mod_lt i hpos))
    rw [indexedLoop,hrem]
    change (Checked.expect key[i%key.length]? "index out of bounds" >>= _) = _
    rw [hkey]
    change (do pure ((b^^^stream key h i)::(← indexedLoop key (i+1) data))) = _
    rw [ih (i+1)]
    simp only [masked,List.mapIdx_cons,Nat.add_zero]
    refine congrArg (fun t => Except.ok ((b^^^stream key h i)::t)) ?_
    congr 1
    funext j d
    rw [Nat.add_assoc,Nat.add_comm 1 j]

theorem indexedLoop_ok {key : Bytes} (h : key ≠ []) (data : Bytes) :
    indexedLoop key 0 data = .ok (masked (· ^^^ ·) (stream key h) data) := by
  have hloop := indexedLoop_masked h 0 data
  simp only [Nat.zero_add] at hloop
  exact hloop

theorem indexedLoop_empty {data : Bytes} (h : data ≠ []) :
    indexedLoop [] 0 data =
      .error "attempt to calculate the remainder with a divisor of zero" := by
  obtain ⟨b,data,rfl⟩ := List.exists_cons_of_ne_nil h
  rfl

theorem network_masked {key : Bytes} (h : key ≠ []) (data : Bytes) :
    Network.xorEncryptDecrypt data key = masked (· ^^^ ·) (stream key h) data :=
  zipWith_cycle h data

theorem network_empty (data : Bytes) : Network.xorEncryptDecrypt data [] = [] := by
  rw [Network.xorEncryptDecrypt,cycle_nil,List.zipWith_nil_right]

/-- The copies do the same, and undo what they did, exactly when there is a key
or nothing to do. -/
theorem xor_copies_iff (data key : Bytes) :
    (Common.xorEncryptDecrypt data key = .ok (Network.xorEncryptDecrypt data key) ↔
        key ≠ [] ∨ data = []) ∧
      (Network.xorEncryptDecrypt (Network.xorEncryptDecrypt data key) key = data ↔
        key ≠ [] ∨ data = []) ∧
      ((Common.xorEncryptDecrypt data key >>= fun c => Common.xorEncryptDecrypt c key) = .ok data ↔
        key ≠ [] ∨ data = []) := by
  by_cases hkey : key = []
  · subst hkey
    rw [network_empty,network_empty]
    by_cases hdata : data = []
    · subst hdata
      simp [Common.xorEncryptDecrypt,indexedLoop,bind,Except.bind]
    · have herror := indexedLoop_empty hdata
      simp [Common.xorEncryptDecrypt,herror,hdata,bind,Except.bind,Ne.symm hdata]
  · have hcommon := indexedLoop_ok hkey
    have hback := masked_masked xor_off (stream key hkey) data
    simp only [Common.xorEncryptDecrypt,hcommon,network_masked hkey,bind,Except.bind,hback]
    simp [hkey]

/-- What was encrypted is decrypted, and of all signatures only the one made is
verified. One signature of a text as long as the key signs every other text, for
whoever knows how long the key is. -/
theorem signatures_forged {config : SecurityConfig} (hkey : config.signingKey ≠ [])
    {data signature : Bytes} (hsign : BasicSecurity.sign config data = .ok signature) :
    (∀ s, BasicSecurity.verify config data s = .ok (decide (s = signature))) ∧
      (config.signingKey.length ≤ data.length → ∀ text, BasicSecurity.verify config text
        (Network.xorEncryptDecrypt text
          ((List.zipWith (· ^^^ ·) data signature).take config.signingKey.length)) =
          .ok true) := by
  have hloop := indexedLoop_ok hkey
  have hsignature : masked (· ^^^ ·) (stream config.signingKey hkey) data = signature :=
    Except.ok.inj ((hloop data).symm.trans hsign)
  constructor
  · intro s
    simp only [BasicSecurity.verify,hloop,hsignature,bind,Except.bind,pure,Except.pure]
    by_cases hs : s = signature
    · simp [hs]
    · simp [hs,Ne.symm hs]
  · intro hlong text
    rw [← hsignature,key_of_masked xor_shown hkey hlong,network_masked hkey]
    simp only [BasicSecurity.verify,hloop,bind,Except.bind,pure,Except.pure,beq_self_eq_true]

theorem signatures_forged_short :
    BasicSecurity.sign ⟨[1,2,3],[4,5,6]⟩ [104,101,121] = .ok [108,96,127] ∧
      BasicSecurity.verify ⟨[1,2,3],[4,5,6]⟩ [98,121,101,98,121,101]
        (Network.xorEncryptDecrypt [98,121,101,98,121,101]
          ((List.zipWith (· ^^^ ·) [104,101,121] [108,96,127]).take 3)) = .ok true := by
  have hsign : BasicSecurity.sign ⟨[1,2,3],[4,5,6]⟩ [104,101,121] = .ok [108,96,127] := by decide
  exact ⟨hsign,(signatures_forged (List.cons_ne_nil 4 [5,6]) hsign).2 (by decide) _⟩

end DiamondBot.Security
