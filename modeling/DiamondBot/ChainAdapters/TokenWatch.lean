import DiamondBot.ChainAdapters.SendRetry
import DiamondBot.Library.AtomicRun
import DiamondBot.Library.Json
import Mathlib.Algebra.Order.BigOperators.Group.List

/-!
# Watching a token by polling

A loop asks for the height of the chain and, when it has grown, for each block
above the last height seen. The transactions of a block that go to the token, or
to the router with the token in their input, are handed to a callback. A call
that fails is passed over: the loop goes on, and the height it has read becomes
the last height all the same.
-/

set_option autoImplicit false

namespace DiamondBot

open Library

structure Transaction where
  hash : BitVec 256
  toAddress : Option Address
  input : Option (List (BitVec 8))
  deriving DecidableEq

/-- What a fetch of a block gives: the block, nothing, or an error. -/
inductive BlockFetch
  | fetched
  | absent
  | failed (error : String)
  deriving DecidableEq

/-- One turn of the loop: the height, unless asking for it failed, and what a fetch of
each block gives. -/
structure Poll where
  height : Option ℕ
  fetch : ℕ → BlockFetch

structure Watched where
  lastBlock : ℕ
  reported : List Transaction
  deriving DecidableEq

def hexEncode (input : List (BitVec 8)) : String :=
  String.ofList (input.flatMap fun b =>
    [Json.hexDigit (b.toNat/16),Json.hexDigit (b.toNat%16)])

/-- The addresses that the loop looks for, and the text of the token's address without
its first two characters. -/
structure TokenWatch where
  routerAddr : Address
  tokenAddr : Address
  tokenText : String

namespace TokenWatch

variable (w : TokenWatch) (chain : ℕ → List Transaction)

def passes (tx : Transaction) : Bool :=
  if tx.toAddress = some w.routerAddr then
    match tx.input with
    | some input => SendRetry.contains (hexEncode input) w.tokenText
    | none => false
  else tx.toAddress = some w.tokenAddr

def callback (reported : List Transaction) (tx : Transaction) : List Transaction :=
  if w.passes tx then reported++[tx] else reported

def visitBlock (fetch : ℕ → BlockFetch) (reported : List Transaction) (blockNum : ℕ) :
    List Transaction :=
  match fetch blockNum with
  | .fetched => (chain blockNum).foldl w.callback reported
  | .absent => reported
  | .failed _ => reported

def start : Watched := ⟨0,[]⟩

def next (s : Watched) (poll : Poll) : Watched :=
  match poll.height with
  | none => s
  | some currentBlock =>
    if currentBlock > s.lastBlock then
      { lastBlock := currentBlock
        reported := (List.range' (s.lastBlock+1) (currentBlock-s.lastBlock)).foldl
          (w.visitBlock chain poll.fetch) s.reported }
    else s

def due (blockNum : ℕ) : List Transaction := (chain blockNum).filter w.passes

/-- The callback was given the passing transactions of the blocks up to the last one
seen: each once, and in the order of the blocks. -/
def Reported (s : Watched) : Prop :=
  s.reported = (List.range' 1 s.lastBlock).flatMap (w.due chain)

/-- Each block that the turn steps over and that has a passing transaction is fetched. -/
def FetchesDue (s : Watched) (poll : Poll) : Prop :=
  ∀ currentBlock, poll.height = some currentBlock →
    ∀ blockNum, s.lastBlock < blockNum → blockNum ≤ currentBlock →
      w.due chain blockNum ≠ [] → poll.fetch blockNum = .fetched

def delivered (fetch : ℕ → BlockFetch) (blockNum : ℕ) : List Transaction :=
  if fetch blockNum = .fetched then w.due chain blockNum else []

variable {w chain}

/-! ## A turn of the loop -/

theorem foldl_callback (txs reported : List Transaction) :
    txs.foldl w.callback reported = reported++txs.filter w.passes := by
  induction txs generalizing reported with
  | nil => simp
  | cons tx txs ih =>
    rw [List.foldl_cons,ih,callback]
    cases hpasses : w.passes tx with
    | true => simp [hpasses]
    | false => simp [hpasses]

theorem visitBlock_eq (fetch : ℕ → BlockFetch) (reported : List Transaction)
    (blockNum : ℕ) : w.visitBlock chain fetch reported blockNum =
      reported++w.delivered chain fetch blockNum := by
  cases hfetch : fetch blockNum with
  | fetched => simp [visitBlock,delivered,due,hfetch,foldl_callback]
  | absent => simp [visitBlock,delivered,hfetch]
  | failed error => simp [visitBlock,delivered,hfetch]

theorem foldl_visitBlock (fetch : ℕ → BlockFetch) (blocks : List ℕ)
    (reported : List Transaction) :
    blocks.foldl (w.visitBlock chain fetch) reported =
      reported++blocks.flatMap (w.delivered chain fetch) := by
  induction blocks generalizing reported with
  | nil => simp
  | cons blockNum blocks ih => simp [ih,visitBlock_eq]

/-- Blocks are missed one by one: the callback is given all that is due of a range if and
only if it is given all that is due of each block. -/
theorem flatMap_delivered_iff (fetch : ℕ → BlockFetch) (blocks : List ℕ) :
    blocks.flatMap (w.delivered chain fetch) = blocks.flatMap (w.due chain) ↔
      ∀ blockNum ∈ blocks, w.due chain blockNum ≠ [] → fetch blockNum = .fetched := by
  constructor
  · intro h blockNum hmem hdue
    by_contra hfetch
    -- nothing was given of this block, and of no block more than is due
    have hle : ∀ n ∈ blocks,
        (w.delivered chain fetch n).length ≤ (w.due chain n).length := by
      intro n _
      unfold delivered
      split
      · exact le_refl _
      · exact Nat.zero_le _
    have hlt : (w.delivered chain fetch blockNum).length <
        (w.due chain blockNum).length := by
      rw [delivered,if_neg hfetch]
      exact List.length_pos_iff.mpr hdue
    have hsum := List.sum_lt_sum _ _ hle ⟨blockNum,hmem,hlt⟩
    have hlength := congrArg List.length h
    rw [List.length_flatMap,List.length_flatMap] at hlength
    omega
  · intro h
    apply List.flatMap_congr
    intro blockNum hmem
    by_cases hdue : w.due chain blockNum = []
    · simp [delivered,hdue]
    · rw [delivered,if_pos (h blockNum hmem hdue)]

/-- A turn keeps the reports complete if and only if it fetches every block with a
passing transaction that it steps over. -/
theorem next_reported_iff {s : Watched} (h : w.Reported chain s) (poll : Poll) :
    w.Reported chain (w.next chain s poll) ↔ w.FetchesDue chain s poll := by
  unfold next FetchesDue
  cases hheight : poll.height with
  | none => exact iff_of_true h (by simp)
  | some currentBlock =>
    simp only [Option.some_inj,forall_eq']
    by_cases hgrown : currentBlock > s.lastBlock
    · obtain ⟨n,rfl⟩ := Nat.exists_eq_add_of_lt hgrown
      have hsplit : List.range' 1 (s.lastBlock+n+1) =
          List.range' 1 s.lastBlock++List.range' (s.lastBlock+1) (n+1) := by
        rw [Nat.add_comm s.lastBlock 1,List.range'_append_1,Nat.add_assoc]
      rw [if_pos hgrown,Reported,h,foldl_visitBlock,hsplit,List.flatMap_append,
        List.append_cancel_left_eq,show s.lastBlock+n+1-s.lastBlock = n+1 by omega,
        flatMap_delivered_iff]
      constructor
      · intro hfetches blockNum hlow hhigh
        exact hfetches blockNum (List.mem_range'_1.mpr (by omega))
      · intro hfetches blockNum hmem
        have hbounds := List.mem_range'_1.mp hmem
        exact hfetches blockNum (by omega) (by omega)
    · rw [if_neg hgrown]
      apply iff_of_true h
      intro blockNum hlow hhigh
      omega

/-! ## The loop -/

/-- At every boundary of the loop each passing transaction of each block up to the last
one seen has been handed to the callback once, in the order of the blocks, if and only if
every turn fetches the blocks with passing transactions that it steps over. -/
theorem reported_throughout_iff (w : TokenWatch) (chain : ℕ → List Transaction)
    (polls : List Poll) :
    AtomicRun.Throughout (w.next chain) (w.Reported chain) polls start ↔
      AtomicRun.Along (w.next chain) (w.FetchesDue chain) polls start :=
  AtomicRun.throughout_iff_along (J := fun _ => True) (fun _ _ _ => trivial)
    (fun _ poll _ h => next_reported_iff h poll) trivial rfl

/-- The only block with a transaction to the token is not fetched when the height first
reaches it, and it is not asked for again. -/
theorem missed_block :
    let w : TokenWatch := ⟨7,8,"0000…0008"⟩
    let chain : ℕ → List Transaction := fun blockNum =>
      if blockNum = 1 then [⟨5,some 8,none⟩] else []
    let s := AtomicRun.run (w.next chain)
      [⟨some 1,fun _ => .failed "timeout"⟩,⟨some 2,fun _ => .fetched⟩] start
    s.lastBlock = 2 ∧ s.reported = [] ∧ ¬ w.Reported chain s := by
  unfold Reported
  decide

end TokenWatch

end DiamondBot
