import DiamondBot.Library.Checked
import Mathlib.Data.List.AList

/-!
# The contract runtime seen by a call

Every entry point reads the account that called it, the block it runs in and
the system clock. A panic ends a call with its message and discards whatever
the call wrote. Account ids are the strings the host hands over; a persistent
lookup map holds at most one value for a key. The release profile of the
contracts turns overflow checks on, so u64 and u128 arithmetic is checked.
-/

set_option autoImplicit false

namespace DiamondBot.NearRuntime
open Library

abbrev AccountId := String
abbrev Outcome (α : Type) := Except String α
abbrev LookupMap (K V : Type) [DecidableEq K] := AList (fun _ : K => V)

structure Env where
  predecessorAccountId : AccountId
  currentAccountId : AccountId
  blockHeight : ℕ
  blockTimestamp : ℕ
  /-- Seconds since the Unix epoch, as the contracts read them from the system clock. -/
  systemTime : ℕ
  prepaidGas : ℕ
  blockHeight_lt : blockHeight < 2^64 := by decide
  blockTimestamp_lt : blockTimestamp < 2^64 := by decide

def firstBlock (predecessorAccountId currentAccountId : AccountId) : Env where
  predecessorAccountId := predecessorAccountId
  currentAccountId := currentAccountId
  blockHeight := 1
  blockTimestamp := 1
  systemTime := 1
  prepaidGas := 300000000000000

inductive PromiseResult where
  | successful
  | failed
  deriving DecidableEq, Repr

def addU64 : ℕ → ℕ → Outcome ℕ := Checked.add 64
def addU128 : ℕ → ℕ → Outcome ℕ := Checked.add 128
def mulU128 : ℕ → ℕ → Outcome ℕ := Checked.mul 128

end DiamondBot.NearRuntime
