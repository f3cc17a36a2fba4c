import DiamondBot.Common.ErrorHandling
import DiamondBot.Library.AtomicRun
import DiamondBot.Library.DecimalText
import Mathlib.Data.List.AList

/-!
# The log of errors

An error is kept under the name of its class and the second it was handled in.
Instants are nanoseconds. How recovery information is written as text is a
parameter, as is the lower-case form of a message.
-/

set_option autoImplicit false

namespace DiamondBot.ErrorHandling
open Library DecimalText AtomicRun

inductive ErrorStatus where
  | pending
  | processing
  | resolved
  | error
  deriving DecidableEq

structure BlockchainError where
  errorId : String
  name : String
  description : String
  status : ErrorStatus
  transactionError : Option String
  recoveryInfo : Option String
  createdAt : ℤ
  updatedAt : ℤ
  deriving DecidableEq

namespace TransactionError

def display : TransactionError → String
  | .connectionError text => "Lỗi kết nối blockchain: "++text
  | .insufficientGas text => "Lỗi gas không đủ: "++text
  | .slippageError text => "Lỗi slippage quá thấp: "++text
  | .lowLiquidity text => "Lỗi thanh khoản không đủ: "++text
  | .tokenRevert text => "Lỗi token bị revert: "++text
  | .transactionTimeout text => "Lỗi chờ giao dịch quá lâu (timeout): "++text
  | .insufficientBalance text => "Lỗi wallet không đủ số dư: "++text
  | .approvalFailed text => "Lỗi approve token thất bại: "++text
  | .honeypotToken text => "Lỗi honeypot token: "++text
  | .withdrawalFailed text => "Lỗi rút token thất bại: "++text
  | .unknown text => "Lỗi không xác định: "++text

def errorName : TransactionError → String
  | .connectionError _ => "CONNECTION_ERROR"
  | .insufficientGas _ => "INSUFFICIENT_GAS"
  | .slippageError _ => "SLIPPAGE_ERROR"
  | .lowLiquidity _ => "LOW_LIQUIDITY"
  | .tokenRevert _ => "TOKEN_REVERT"
  | .transactionTimeout _ => "TRANSACTION_TIMEOUT"
  | .insufficientBalance _ => "INSUFFICIENT_BALANCE"
  | .approvalFailed _ => "APPROVAL_FAILED"
  | .honeypotToken _ => "HONEYPOT_TOKEN"
  | .withdrawalFailed _ => "WITHDRAWAL_FAILED"
  | .unknown _ => "UNKNOWN_ERROR"

end TransactionError

structure Times where
  id : ℤ
  created : ℤ
  updated : ℤ
  deriving DecidableEq

def timestamp (instant : ℤ) : ℤ := instant/10^9

def secondsText (seconds : ℤ) : List Char :=
  if seconds < 0 then '-'::Nat.toDigits 10 seconds.natAbs else Nat.toDigits 10 seconds.natAbs

def errorIdOf (name : String) (seconds : ℤ) : String :=
  String.ofList (name.toList ++ '_'::secondsText seconds)

def BlockchainError.ofTransaction (recoveryText : TransactionRecoveryInfo → String)
    (times : Times) (error : TransactionError) : BlockchainError where
  errorId := errorIdOf error.errorName (timestamp times.id)
  name := error.errorName
  description := error.display
  status := .pending
  transactionError := some error.display
  recoveryInfo := some (recoveryText (getRecoveryInfo error))
  createdAt := times.created
  updatedAt := times.updated

structure BasicErrorHandler where
  errors : AList fun _ : String => BlockchainError

namespace BasicErrorHandler

def new : BasicErrorHandler := ⟨∅⟩

def addError (h : BasicErrorHandler) (error : BlockchainError) : BasicErrorHandler :=
  ⟨h.errors.insert error.errorId error⟩

def getError (h : BasicErrorHandler) (errorId : String) : Option BlockchainError :=
  h.errors.lookup errorId

def getErrors (h : BasicErrorHandler) : List BlockchainError := h.errors.entries.map (·.2)

section Handling

variable (toLowercase : String → String) (recoveryText : TransactionRecoveryInfo → String)

def handleTransactionError (h : BasicErrorHandler) (errorMsg : String) (times : Times) :
    TransactionRecoveryInfo × BasicErrorHandler :=
  (getRecoveryInfo (classifyBlockchainError toLowercase errorMsg),
    h.addError (.ofTransaction recoveryText times (classifyBlockchainError toLowercase errorMsg)))

def updateErrorStatus (h : BasicErrorHandler) (errorId : String) (newStatus : ErrorStatus)
    (now : ℤ) : Except String BasicErrorHandler :=
  match h.getError errorId with
  | some error => .ok (h.addError {error with status := newStatus, updatedAt := now})
  | none => .error ("Không tìm thấy lỗi với ID: "++errorId)

inductive Action where
  | handle (errorMsg : String) (times : Times)
  | update (errorId : String) (newStatus : ErrorStatus) (now : ℤ)
  deriving DecidableEq

def next (h : BasicErrorHandler) : Action → BasicErrorHandler
  | .handle errorMsg times => (h.handleTransactionError toLowercase recoveryText errorMsg times).2
  | .update errorId newStatus now =>
    match h.updateErrorStatus errorId newStatus now with
    | .ok h' => h'
    | .error _ => h

/-! ## What is to be kept -/

def handled : List Action → List (TransactionError × Times)
  | [] => []
  | .handle errorMsg times::actions =>
    (classifyBlockchainError toLowercase errorMsg,times)::handled actions
  | .update _ _ _::actions => handled actions

def idOf (call : TransactionError × Times) : String :=
  errorIdOf call.1.errorName (timestamp call.2.id)

/-- A record for every call, found under its id with its message. -/
structure KeepsAll (calls : List (TransactionError × Times)) (h : BasicErrorHandler) : Prop where
  count : h.getErrors.length = calls.length
  found : ∀ call ∈ calls, ∃ error, h.getError (idOf call) = some error ∧
    error.errorId = idOf call ∧ error.description = call.1.display ∧
      error.transactionError = some call.1.display

def classAndSecond (call : TransactionError × Times) : String × ℤ :=
  (call.1.errorName,timestamp call.2.id)

end Handling

/-! ## The id of an error -/

theorem underscore_seconds (seconds : ℤ) : '_' ∉ secondsText seconds := by
  have hdigits : '_' ∉ Nat.toDigits 10 seconds.natAbs := fun hmem =>
    absurd (digits_toDigits _ '_' hmem) (by decide)
  unfold secondsText
  split
  · intro hmem
    cases hmem with
    | tail _ hmem => exact hdigits hmem
  · exact hdigits

theorem minus_digits (n : ℕ) : '-' ∉ Nat.toDigits 10 n := fun hmem =>
  absurd (digits_toDigits n '-' hmem) (by decide)

theorem toDigits_inj {m n : ℕ} (h : Nat.toDigits 10 m = Nat.toDigits 10 n) : m = n := by
  rw [← value_toDigits m,h,value_toDigits]

theorem secondsText_inj {s t : ℤ} (h : secondsText s = secondsText t) : s = t := by
  unfold secondsText at h
  split at h <;> split at h
  · have hdigits := toDigits_inj (List.cons.inj h).2
    omega
  · exact absurd (h ▸ List.mem_cons_self) (minus_digits t.natAbs)
  · exact absurd (h ▸ List.mem_cons_self) (minus_digits s.natAbs)
  · have hdigits := toDigits_inj h
    omega

theorem append_cons_first {A : Type} {a : A} {s s' t t' : List A} (hs : a ∉ s) (hs' : a ∉ s')
    (h : s++a::t = s'++a::t') : s = s' ∧ t = t' := by
  induction s generalizing s' with
  | nil =>
    cases s' with
    | nil => exact ⟨rfl,(List.cons.inj h).2⟩
    | cons b s' => exact absurd ((List.cons.inj h).1 ▸ List.mem_cons_self) hs'
  | cons b s ih =>
    cases s' with
    | nil => exact absurd ((List.cons.inj h).1 ▸ List.mem_cons_self) hs
    | cons b' s' =>
      obtain ⟨rfl,hrest⟩ := List.cons.inj h
      obtain ⟨rfl,ht⟩ := ih (fun hmem => hs (List.mem_cons_of_mem _ hmem))
        (fun hmem => hs' (List.mem_cons_of_mem _ hmem)) hrest
      exact ⟨rfl,ht⟩

theorem errorIdOf_inj {name name' : String} {s t : ℤ}
    (h : errorIdOf name s = errorIdOf name' t) : name = name' ∧ s = t := by
  have hlist : name.toList ++ '_'::secondsText s = name'.toList ++ '_'::secondsText t :=
    String.ofList_injective h
  have hreverse := congrArg List.reverse hlist
  simp only [List.reverse_append,List.reverse_cons,List.append_assoc,List.singleton_append]
    at hreverse
  have hs : '_' ∉ (secondsText s).reverse := fun hmem =>
    underscore_seconds s (List.mem_reverse.mp hmem)
  have ht : '_' ∉ (secondsText t).reverse := fun hmem =>
    underscore_seconds t (List.mem_reverse.mp hmem)
  obtain ⟨hseconds,hname⟩ := append_cons_first hs ht hreverse
  exact ⟨String.toList_injective (List.reverse_injective hname),
    secondsText_inj (List.reverse_injective hseconds)⟩

theorem idOf_nodup {calls : List (TransactionError × Times)} :
    (calls.map idOf).Nodup ↔ (calls.map classAndSecond).Nodup := by
  have hmap : calls.map idOf = (calls.map classAndSecond).map fun c => errorIdOf c.1 c.2 := by
    rw [List.map_map]
    rfl
  rw [hmap]
  apply List.nodup_map_iff
  intro c c' hid
  obtain ⟨hname,hseconds⟩ := errorIdOf_inj hid
  exact Prod.ext hname hseconds

/-! ## Runs -/

section Runs

variable (toLowercase : String → String) (recoveryText : TransactionRecoveryInfo → String)

/-- Every record is that of a call, under the id of the call. -/
structure Logged (calls : List (TransactionError × Times)) (h : BasicErrorHandler) : Prop where
  keys : ∀ id, id ∈ h.errors ↔ id ∈ calls.map idOf
  records : ∀ id error, h.getError id = some error → error.errorId = id ∧
    ∃ call ∈ calls, idOf call = id ∧ error.description = call.1.display ∧
      error.transactionError = some call.1.display

variable {toLowercase recoveryText}

theorem handled_append (as bs : List Action) :
    handled toLowercase (as++bs) = handled toLowercase as++handled toLowercase bs := by
  induction as with
  | nil => rfl
  | cons a as ih =>
    cases a with
    | handle errorMsg times => exact congrArg (_::·) ih
    | update errorId newStatus now => exact ih

theorem getError_addError (h : BasicErrorHandler) (error : BlockchainError) (id : String) :
    (h.addError error).getError id = if id = error.errorId then some error else h.getError id := by
  unfold addError getError
  split
  · next hid => rw [hid,AList.lookup_insert]
  · next hid => exact AList.lookup_insert_ne hid

theorem mem_addError (h : BasicErrorHandler) (error : BlockchainError) (id : String) :
    id ∈ (h.addError error).errors ↔ id = error.errorId ∨ id ∈ h.errors := AList.mem_insert _

theorem handle_logged {calls : List (TransactionError × Times)} {h : BasicErrorHandler}
    (hlogged : Logged calls h) (error : TransactionError) (times : Times) :
    Logged (calls++[(error,times)]) (h.addError (.ofTransaction recoveryText times error)) where
  keys id := by
    rw [mem_addError,hlogged.keys,List.map_append,List.mem_append,or_comm]
    exact or_congr_right List.mem_singleton.symm
  records id e he := by
    rw [getError_addError] at he
    split at he
    · next hid =>
      cases he
      exact ⟨hid.symm,(error,times),List.mem_append_right _ List.mem_cons_self,hid.symm,rfl,rfl⟩
    · obtain ⟨hkey,call,hcall,hrecord⟩ := hlogged.records id e he
      exact ⟨hkey,call,List.mem_append_left _ hcall,hrecord⟩

/-- A new status leaves the record where it is. -/
theorem update_logged {calls : List (TransactionError × Times)} {h h' : BasicErrorHandler}
    (hlogged : Logged calls h) {errorId : String} {newStatus : ErrorStatus} {now : ℤ}
    (hupdate : h.updateErrorStatus errorId newStatus now = .ok h') : Logged calls h' := by
  unfold updateErrorStatus at hupdate
  cases hget : h.getError errorId with
  | none =>
    rw [hget] at hupdate
    cases hupdate
  | some error =>
    rw [hget] at hupdate
    cases hupdate
    obtain ⟨hkey,hrecord⟩ := hlogged.records errorId error hget
    have hthere : error.errorId ∈ h.errors := by
      rw [hkey]
      exact AList.lookup_isSome.mp (Option.isSome_of_eq_some hget)
    constructor
    · intro id
      rw [mem_addError,← hlogged.keys]
      exact or_iff_right_of_imp fun hid => by rw [hid]; exact hthere
    · intro id e he
      rw [getError_addError] at he
      split at he
      · next hid =>
        cases he
        dsimp only at hid
        rw [hid,hkey]
        exact ⟨rfl,hrecord⟩
      · exact hlogged.records id e he

theorem run_logged (actions : List Action) :
    Logged (handled toLowercase actions) (run (next toLowercase recoveryText) actions new) := by
  apply run_trace (I := fun as h => Logged (handled toLowercase as) h)
  · constructor
    · intro id
      exact iff_of_false (AList.notMem_empty id) List.not_mem_nil
    · intro id error herror
      cases herror
  · intro as a hlogged
    rw [handled_append]
    cases a with
    | handle errorMsg times => exact handle_logged hlogged _ times
    | update errorId newStatus now =>
      rw [handled,handled,List.append_nil]
      unfold next
      dsimp only
      split
      · next h' hupdate => exact update_logged hlogged hupdate
      · exact hlogged

theorem keepsAll_iff {calls : List (TransactionError × Times)} {h : BasicErrorHandler}
    (hlogged : Logged calls h) : KeepsAll calls h ↔ (calls.map idOf).Nodup := by
  have hlength : h.getErrors.length = h.errors.keys.length := by
    rw [getErrors,List.length_map,AList.keys,List.keys,List.length_map]
  have hsub : h.errors.keys ⊆ calls.map idOf := fun id hid =>
    (hlogged.keys id).mp (AList.mem_keys.mpr hid)
  have hperm := List.subperm_of_subset h.errors.keys_nodup hsub
  constructor
  · intro hkeeps
    have hle : (calls.map idOf).length ≤ h.errors.keys.length := by
      rw [List.length_map,← hlength,hkeeps.count]
    exact (hperm.perm_of_length_le hle).nodup_iff.mp h.errors.keys_nodup
  · intro hnodup
    have hback : calls.map idOf ⊆ h.errors.keys := fun id hid =>
      AList.mem_keys.mp ((hlogged.keys id).mpr hid)
    constructor
    · have hle := (List.subperm_of_subset hnodup hback).length_le
      have hge := hperm.length_le
      rw [List.length_map] at hle hge
      omega
    · intro call hcall
      have hthere := (hlogged.keys (idOf call)).mpr (List.mem_map_of_mem hcall)
      obtain ⟨error,herror⟩ := Option.isSome_iff_exists.mp (AList.lookup_isSome.mpr hthere)
      obtain ⟨hkey,call',hcall',hid,hrecord⟩ := hlogged.records _ _ herror
      cases List.inj_on_of_nodup_map hnodup hcall' hcall hid
      exact ⟨error,herror,hkey,hrecord⟩

/-- All errors are kept if and only if no two of one class came in one second. -/
theorem run_keepsAll_iff (toLowercase : String → String)
    (recoveryText : TransactionRecoveryInfo → String) (actions : List Action) :
    KeepsAll (handled toLowercase actions) (run (next toLowercase recoveryText) actions new) ↔
      ((handled toLowercase actions).map classAndSecond).Nodup := by
  rw [keepsAll_iff (run_logged actions),idOf_nodup]

end Runs

/-- The same error at one moment and half a second later leaves one record. -/
theorem run_keepsAll_counterexample :
    ¬∀ actions, KeepsAll (handled asciiLowercase actions)
      (run (next asciiLowercase fun _ => "") actions new) := by
  intro h
  have hcount := (h [.handle "Gas too low" ⟨0,0,0⟩,
    .handle "Gas limit too low" ⟨5*10^8,5*10^8,5*10^8⟩]).count
  revert hcount
  decide +kernel

end BasicErrorHandler
end DiamondBot.ErrorHandling
