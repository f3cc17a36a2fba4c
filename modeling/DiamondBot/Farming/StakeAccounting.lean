import DiamondBot.Farming.StakeBooks
import DiamondBot.Library.Escrow

/-!
# Whether the stakes cover the transfers in flight

An unstake is checked against the whole stake, although part of it may be on
its way back already. The books stay balanced exactly along the runs in which
no unstake asks for more than is left beside those in flight. Along them the
contract is an escrow: each stake is held, returned or refunded once.
-/

set_option autoImplicit false

namespace DiamondBot.Farming
open NearRuntime Library

/-- The running total and the unstakes in flight make up the stakes, every
account's unstakes in flight are within its stake, and nobody is sent more
principal than was credited. -/
def Accounted (s : System) : Prop :=
  s.contract.totalStaked+s.unstakingTotal = s.contract.stakesTotal ∧
  (∀ u, s.unstaking u ≤ s.contract.stakeOf u) ∧
  ∀ u, s.sent u+s.unstaking u ≤ s.staked u

def Balanced (b : Books) : Prop :=
  b.totalStaked+b.unstakingTotal = b.stakesTotal ∧ ∀ u, b.unstaking u ≤ b.stake u

def Books.accounts (b : Books) : Escrow.Accounts AccountId where
  available u := b.stake u-b.unstaking u
  pending := b.unstaking
  paid := b.sent
  credited := b.staked

theorem addAt_apply (u : AccountId) (n : ℕ) (f : AccountId → ℕ) (v : AccountId) :
    addAt u n f v = f v+if v = u then n else 0 := rfl

theorem addAt_adds (u : AccountId) (n : ℕ) (f : AccountId → ℕ) :
    Escrow.Adds u n f (addAt u n f) := fun _ => rfl

section Cover

variable {u : AccountId} {n : ℕ} {f g : AccountId → ℕ}

theorem le_addAt (h : ∀ v, f v ≤ g v) (v : AccountId) : f v ≤ addAt u n g v := by
  have hv := h v
  rw [addAt_apply]
  omega

theorem of_addAt_le (h : ∀ v, addAt u n f v ≤ g v) (v : AccountId) : f v ≤ g v := by
  have hv := h v
  rw [addAt_apply] at hv
  omega

theorem of_addAt_le_addAt (h : ∀ v, addAt u n f v ≤ addAt u n g v) (v : AccountId) :
    f v ≤ g v := by
  have hv := h v
  rw [addAt_apply,addAt_apply] at hv
  omega

theorem amount_le (h : ∀ v, addAt u n f v ≤ g v) : n ≤ g u := by
  have hu := h u
  rw [addAt_apply,if_pos rfl] at hu
  omega

theorem addAt_le (h : ∀ v, f v ≤ g v) (hu : f u+n ≤ g u) (v : AccountId) :
    addAt u n f v ≤ g v := by
  have hv := h v
  rw [addAt_apply]
  by_cases hsame : v = u
  · rw [hsame,if_pos rfl]
    exact hu
  · rw [if_neg hsame]
    omega

end Cover

theorem effect_balanced {s : System} {a : Action} {b' : Books} (hb : Balanced s.books)
    (hk : KeepsBooks s a) (h : Effect s a b') : Balanced b' := by
  obtain ⟨htotal,hcover⟩ := hb
  cases h with
  | idle => exact ⟨htotal,hcover⟩
  | stake env i u n room =>
    refine ⟨?_,le_addAt hcover⟩
    simp only
    omega
  | unstake env n accepted b before =>
    have hroom : s.books.unstaking env.predecessorAccountId+n ≤
      s.books.stake env.predecessorAccountId := hk accepted
    rw [before] at htotal hcover hroom
    refine ⟨?_,addAt_le hcover hroom⟩
    simp only at htotal ⊢
    omega
  | pay env i u n b before =>
    rw [before] at htotal hcover
    refine ⟨?_,of_addAt_le_addAt hcover⟩
    simp only at htotal ⊢
    omega
  | payStuck env i u n short b before =>
    rw [before] at hcover short
    exact absurd (amount_le hcover) (not_le.mpr short)
  | refund env i p u n position callback room b before =>
    rw [before] at htotal hcover
    refine ⟨?_,of_addAt_le hcover⟩
    simp only at htotal ⊢
    omega
  | refundStuck env i p u n position callback overflow b before =>
    have hroom : s.books.totalStaked+n < 2^128 := hk p u n position callback
    omega

/-- Each entry that keeps the books is at most one step of the escrow. -/
theorem effect_escrow {s : System} {a : Action} {b' : Books} (hb : Balanced s.books)
    (hk : KeepsBooks s a) (h : Effect s a b') :
    Escrow.Reaches s.books.accounts b'.accounts := by
  have hcover := hb.2
  cases h with
  | idle => exact Relation.ReflTransGen.refl
  | stake env i u n room =>
    apply Relation.ReflTransGen.single
    refine .credit u n ?_ rfl rfl (addAt_adds u n _)
    intro v
    have := hcover v
    simp only [Books.accounts,addAt_apply]
    omega
  | unstake env n accepted b before =>
    have hroom : s.books.unstaking env.predecessorAccountId+n ≤
      s.books.stake env.predecessorAccountId := hk accepted
    rw [before] at hcover hroom ⊢
    apply Relation.ReflTransGen.single
    refine .dispatch env.predecessorAccountId n ?_ (addAt_adds _ n _) rfl rfl
    intro v
    have := hcover v
    simp only [Books.accounts,addAt_apply] at this hroom ⊢
    by_cases hv : v = env.predecessorAccountId
    · simp only [hv,if_true]
      omega
    · simp [hv]
  | pay env i u n b before =>
    rw [before] at hcover ⊢
    apply Relation.ReflTransGen.single
    refine .confirm u n ?_ (addAt_adds u n _) (addAt_adds u n _) rfl
    ext v
    have := hcover v
    simp only [Books.accounts,addAt_apply] at this ⊢
    omega
  | payStuck env i u n short b before =>
    rw [before] at hcover short
    exact absurd (amount_le hcover) (not_le.mpr short)
  | refund env i p u n position callback room b before =>
    rw [before] at hcover ⊢
    apply Relation.ReflTransGen.single
    refine .refund u n ?_ (addAt_adds u n _) rfl rfl
    intro v
    have := hcover v
    simp only [Books.accounts,addAt_apply] at this ⊢
    omega
  | refundStuck env i p u n position callback overflow b before =>
    have hroom : s.books.totalStaked+n < 2^128 := hk p u n position callback
    omega

theorem effect_capacity {s : System} {a : Action} {b' : Books}
    (hs : s.books.totalStaked < 2^128) (h : Effect s a b') : b'.totalStaked < 2^128 := by
  cases h with
  | idle => exact hs
  | stake env i u n room => exact room
  | unstake env n accepted b before =>
    rw [before] at hs
    simp only at hs ⊢
    omega
  | pay env i u n b before => rw [before] at hs; exact hs
  | payStuck env i u n short b before => rw [before] at hs; exact hs
  | refund env i p u n position callback room b before => rw [before] at room; exact room
  | refundStuck env i p u n position callback overflow b before => rw [before] at hs; exact hs

/-- Balanced books after an entry show that it met the condition. -/
theorem effect_keeps {s : System} {a : Action} {b' : Books}
    (hs : s.books.totalStaked < 2^128) (hb : Balanced s.books) (h : Effect s a b')
    (hb' : Balanced b') : KeepsBooks s a := by
  cases h with
  | idle a quiet => exact quiet
  | stake | pay | payStuck => trivial
  | unstake env n accepted b before =>
    intro _
    change s.books.unstaking _+n ≤ s.books.stake _
    have := hb'.2 env.predecessorAccountId
    rw [before]
    simpa [addAt_apply] using this
  | refund env i p u n position callback room b before =>
    intro q v k hq hcb
    rw [position] at hq
    cases hq
    rw [callback] at hcb
    cases hcb
    exact room
  | refundStuck env i p u n position callback overflow b before =>
    have h₁ := hb.1
    have h₂ := hb'.1
    rw [before] at h₁ hs overflow
    simp only at h₁ hs overflow
    omega

theorem balanced_of_accounted {s : System} (h : Accounted s) : Balanced s.books :=
  ⟨h.1,h.2.1⟩

theorem accounted_of_conserved {s : System} (hb : Balanced s.books)
    (hc : Escrow.Conserved s.books.accounts) : Accounted s := by
  refine ⟨hb.1,hb.2,?_⟩
  intro u
  have hu := Escrow.sent_le_credited hc u
  rw [Nat.add_comm]
  exact hu

def Escrowed (s : System) : Prop :=
  Balanced s.books ∧ Escrow.Conserved s.books.accounts

theorem next_conserved (s : System) (a : Action) (hs : Escrowed s) (hk : KeepsBooks s a) :
    Escrowed (s.next a) := by
  have he := next_effect s a
  exact ⟨effect_balanced hs.1 hk he,
    Escrow.reaches_conserved hs.2 (effect_escrow hs.1 hk he)⟩

theorem new_conserved (env : Env) (stakingToken : AccountId) :
    Escrowed (System.new env stakingToken) :=
  ⟨⟨rfl,fun _ => le_rfl⟩,fun _ => rfl⟩

/-- Over a whole run from deployment the stakes account for every transfer in
flight and paid exactly when each unstake leaves room for those in flight and
no refund overflows. -/
theorem stakes_accounted_iff (env : Env) (stakingToken : AccountId) (actions : List Action) :
    AtomicRun.Throughout System.next Accounted actions (System.new env stakingToken) ↔
      AtomicRun.Along System.next KeepsBooks actions (System.new env stakingToken) := by
  constructor
  · apply AtomicRun.along_of_throughout (J := fun s => s.books.totalStaked < 2^128)
    · exact fun s a hs => effect_capacity hs (next_effect s a)
    · exact fun s a hs hq hq' => effect_keeps hs (balanced_of_accounted hq) (next_effect s a)
        (balanced_of_accounted hq')
    · change 0 < 2^128
      norm_num
  · intro h
    have hrun := AtomicRun.throughout_of_along next_conserved (new_conserved env stakingToken) h
    exact AtomicRun.throughout_mono (fun s hs => accounted_of_conserved hs.1 hs.2) hrun

def envAt (accountId : AccountId) (time : UInt64) : Env :=
  { firstBlock accountId "farm.near" with
    blockTimestamp := time.toNat
    blockTimestamp_lt := time.toNat_lt }

def doubleUnstake : List Action := [
  .stake (envAt "alice.near" 1) 1000,
  .resolve (envAt "farm.near" 2) 0 .successful,
  .stake (envAt "bob.near" 3) 1000,
  .resolve (envAt "farm.near" 4) 0 .successful,
  .unstake (envAt "alice.near" 2592000000000010) 1000,
  .unstake (envAt "alice.near" 2592000000000011) 1000,
  .resolve (envAt "farm.near" 2592000000000012) 1 .successful,
  .resolve (envAt "farm.near" 2592000000000013) 2 .successful]

theorem double_unstake_overpays :
    ¬AtomicRun.Throughout System.next Accounted doubleUnstake
      (System.new (envAt "owner.near" 0) "diamond.near") := by
  intro h
  have hsent := (AtomicRun.throughout_last h).2.2 "alice.near"
  revert hsent
  decide

end DiamondBot.Farming
