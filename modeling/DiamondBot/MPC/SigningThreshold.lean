import DiamondBot.MPC.MPCEffects
import DiamondBot.Library.Quorum

/-!
# Whether a transaction can still be completed

A transaction waits while it has fewer signatures than the threshold. Only a
change of the threshold can end the wait without completing it. The signers
are counted by the length of their list, so the threshold stays within reach
of distinct accounts exactly when the list started without repetitions.
-/

set_option autoImplicit false

namespace DiamondBot.MPCController
open NearRuntime Library

def Waiting (s : MPCController) : Prop :=
  ∀ tx ∈ s.pendingTransactions, tx.completed = false →
    tx.signatures.length < s.threshold.toNat

def SignedByAll (s : MPCController) (tx : MPCTransaction) : Prop :=
  ∀ a ∈ s.authorizedSigners, a ∈ tx.signers

/-- Open transactions are short of the threshold, and nothing signed by all
authorised accounts is left open. -/
def NotStuck (s : MPCController) : Prop :=
  Waiting s ∧ ∀ tx ∈ s.pendingTransactions, SignedByAll s tx → tx.completed = true

/-- A new threshold is above the number of signatures of every open transaction. -/
def KeepsWaiting (s : MPCController) (c : Call) : Prop :=
  match c.op with
  | .setThreshold threshold => ∀ tx ∈ s.pendingTransactions, tx.completed = false →
      tx.signatures.length < threshold.toNat
  | _ => True

def ThresholdInRange (s : MPCController) : Prop :=
  0 < s.threshold.toNat ∧ s.threshold.toNat ≤ s.authorizedSigners.length

theorem effect_inRange {s s' : MPCController} {env : Env} {op : Op}
    (hs : ThresholdInRange s) (h : Effect s env op s') : ThresholdInRange s' := by
  have hpos := hs.1
  have hlen := hs.2
  cases h with
  | addSigner signerId fresh =>
    constructor
    · exact hpos
    · simp only [List.length_append]
      omega
  | removeSigner signerId enough => exact ⟨hpos,enough⟩
  | setThreshold threshold positive enough => exact ⟨positive,enough⟩
  | addChain | addKnownChain | updateChain | updateUnknownChain | create | sign
  | signNothing | addKnownSigner | transferOwnership => exact hs

theorem effect_nodup {s s' : MPCController} {env : Env} {op : Op}
    (hs : s.authorizedSigners.Nodup) (h : Effect s env op s') :
    s'.authorizedSigners.Nodup := by
  cases h with
  | addSigner signerId fresh =>
    exact hs.append (List.nodup_singleton _) (by simpa using fresh)
  | removeSigner signerId enough => exact hs.filter _
  | addChain | addKnownChain | updateChain | updateUnknownChain | create | sign
  | signNothing | addKnownSigner | setThreshold | transferOwnership => exact hs

theorem new_inRange {authorizedSigners : List AccountId} {threshold : UInt8}
    {ownerId : AccountId} {s : MPCController}
    (h : new authorizedSigners threshold ownerId = .ok s) : ThresholdInRange s := by
  obtain ⟨hvalid,rfl⟩ := new_ok h
  exact hvalid

theorem next_inRange (s : MPCController) (c : Call) (hs : ThresholdInRange s) :
    ThresholdInRange (next s c) :=
  AtomicRun.settle_preserves hs fun _ h => effect_inRange hs (step_effect h)

theorem next_nodup (s : MPCController) (c : Call) (hs : s.authorizedSigners.Nodup) :
    (next s c).authorizedSigners.Nodup :=
  AtomicRun.settle_preserves (Q := fun s => s.authorizedSigners.Nodup) hs
    fun _ h => effect_nodup hs (step_effect h)

theorem effect_waiting_iff {s s' : MPCController} {env : Env} {op : Op}
    (hpos : 0 < s.threshold.toNat) (hs : Waiting s) (h : Effect s env op s') :
    Waiting s' ↔ KeepsWaiting s ⟨env,op⟩ := by
  cases h with
  | create =>
    apply iff_of_true _ trivial
    intro tx htx hopen
    rcases List.mem_append.mp htx with htx | htx
    · exact hs tx htx hopen
    · rw [List.mem_singleton.mp htx]
      exact hpos
  | sign txId signature i tx authorized found position unsigned =>
    apply iff_of_true _ trivial
    intro tx' htx' hopen
    rcases List.mem_or_eq_of_mem_set htx' with htx' | rfl
    · exact hs tx' htx' hopen
    · have hshort := mt (MPCTransaction.sign_completed (open_txId found).2
        env.predecessorAccountId signature s.threshold).mpr (by simp [hopen])
      simp only [MPCTransaction.sign_signatures,MPCTransaction.signers,List.length_append,
        List.length_map,List.length_singleton] at hshort ⊢
      omega
  | setThreshold => exact Iff.rfl
  | addChain | addKnownChain | updateChain | updateUnknownChain | signNothing | addSigner
  | addKnownSigner | removeSigner | transferOwnership => exact iff_of_true hs trivial

theorem completed_of_signedByAll {s : MPCController} (hr : ThresholdInRange s)
    (hn : s.authorizedSigners.Nodup) (hw : Waiting s) {tx : MPCTransaction}
    (htx : tx ∈ s.pendingTransactions) (hall : SignedByAll s tx) : tx.completed = true := by
  by_contra hopen
  have hshort := hw tx htx (by simpa using hopen)
  have hmany : s.authorizedSigners.length ≤ tx.signers.length := by
    rw [← Quorum.distinct_of_nodup hn]
    exact (Quorum.distinct_le_of_subset hall).trans (Quorum.distinct_le_length _)
  have hlen : tx.signers.length = tx.signatures.length := by simp [MPCTransaction.signers]
  have hin := hr.2
  omega

theorem notStuck_iff {s : MPCController} (hr : ThresholdInRange s)
    (hn : s.authorizedSigners.Nodup) : NotStuck s ↔ Waiting s := by
  constructor
  · exact And.left
  · intro hw
    exact ⟨hw,fun tx htx hall => completed_of_signedByAll hr hn hw htx hall⟩

theorem effect_notStuck_iff {s s' : MPCController} {env : Env} {op : Op}
    (hr : ThresholdInRange s) (hn : s.authorizedSigners.Nodup) (hw : Waiting s)
    (h : Effect s env op s') : NotStuck s' ↔ KeepsWaiting s ⟨env,op⟩ := by
  rw [notStuck_iff (effect_inRange hr h) (effect_nodup hn h)]
  exact effect_waiting_iff hr.1 hw h

theorem next_notStuck_iff (s : MPCController) (c : Call)
    (hJ : ThresholdInRange s ∧ s.authorizedSigners.Nodup) (hq : NotStuck s) :
    NotStuck (next s c) ↔ (Accepted s c → KeepsWaiting s c) :=
  AtomicRun.settle_iff hq fun _ h => effect_notStuck_iff hJ.1 hJ.2 hq.1 (step_effect h)

/-- From a list of distinct signers no transaction is ever stuck exactly when
no accepted threshold falls to the signatures of an open transaction. -/
theorem never_stuck_iff {authorizedSigners : List AccountId} {threshold : UInt8}
    {ownerId : AccountId} {s : MPCController}
    (hnew : new authorizedSigners threshold ownerId = .ok s)
    (hdistinct : authorizedSigners.Nodup) (calls : List Call) :
    AtomicRun.Throughout next NotStuck calls s ↔
      AtomicRun.Along next (fun s c => Accepted s c → KeepsWaiting s c) calls s := by
  have hr := new_inRange hnew
  have hn : s.authorizedSigners.Nodup := by simpa [(new_ok hnew).2] using hdistinct
  have hw : Waiting s := by simp [(new_ok hnew).2,Waiting]
  apply AtomicRun.throughout_iff_along
    (J := fun s => ThresholdInRange s ∧ s.authorizedSigners.Nodup)
  · exact fun s c h => ⟨next_inRange s c h.1,next_nodup s c h.2⟩
  · exact next_notStuck_iff
  · exact ⟨hr,hn⟩
  · exact (notStuck_iff hr hn).mpr hw

theorem never_stuck_iff_lowered :
    ∃ s : MPCController, new ["a.near","b.near"] 2 "owner.near" = .ok s ∧
      (AtomicRun.Throughout next NotStuck
          (openTransfer++[callBy "owner.near" (.setThreshold 1)]) s ↔
        AtomicRun.Along next (fun s c => Accepted s c → KeepsWaiting s c)
          (openTransfer++[callBy "owner.near" (.setThreshold 1)]) s) :=
  ⟨_,rfl,@never_stuck_iff ["a.near","b.near"] 2 "owner.near" _ rfl (by decide) _⟩

/-- Two of three signers sign, the threshold falls to two, and the third signer
is removed: everyone has signed and nobody can complete the transaction. -/
theorem lowered_threshold_strands :
    ∃ s : MPCController, new ["a.near","b.near","c.near"] 3 "owner.near" = .ok s ∧
      ¬NotStuck (AtomicRun.run next (openTransfer++[
        callBy "a.near" (.signTransaction "tx" [1]),
        callBy "b.near" (.signTransaction "tx" [2]),
        callBy "owner.near" (.setThreshold 2),
        callBy "owner.near" (.removeAuthorizedSigner "c.near")]) s) := by
  refine ⟨_,rfl,?_⟩
  unfold NotStuck Waiting SignedByAll
  decide

/-- The threshold can be met by that many different accounts. -/
def Achievable (s : MPCController) : Prop :=
  1 ≤ s.threshold.toNat ∧ s.threshold.toNat ≤ Quorum.distinct s.authorizedSigners

theorem achievable_of_nodup {s : MPCController} (hr : ThresholdInRange s)
    (hn : s.authorizedSigners.Nodup) : Achievable s := by
  constructor
  · exact hr.1
  · rw [Quorum.distinct_of_nodup hn]
    exact hr.2

theorem owner_setThreshold {s : MPCController} {t : UInt8}
    (h : 0 < t.toNat ∧ t.toNat ≤ s.authorizedSigners.length) :
    next s (callBy s.ownerId (.setThreshold t)) = { s with threshold := t } := by
  apply AtomicRun.settle_ok
  simp only [step,setThreshold,callBy,firstBlock,Checked.require,if_pos h,if_true]
  rfl

theorem owner_removeSigner {s : MPCController} {signerId : AccountId}
    (h : s.threshold.toNat ≤ (s.authorizedSigners.filter fun id => id ≠ signerId).length) :
    next s (callBy s.ownerId (.removeAuthorizedSigner signerId)) =
      { s with authorizedSigners := s.authorizedSigners.filter fun id => id ≠ signerId } := by
  apply AtomicRun.settle_ok
  simp only [step,removeAuthorizedSigner,callBy,firstBlock,Checked.require,ge_iff_le,if_pos h,
    if_true]
  rfl

/-- With the threshold at one, the owner can remove everyone but one account. -/
theorem run_removals {a : AccountId} (removed : List AccountId) {s : MPCController}
    (ht : s.threshold.toNat = 1) (ha : a ∈ s.authorizedSigners) (hr : a ∉ removed) :
    AtomicRun.run next
        (removed.map fun b => callBy s.ownerId (.removeAuthorizedSigner b)) s =
      { s with authorizedSigners := s.authorizedSigners.filter fun id => id ∉ removed } := by
  induction removed generalizing s with
  | nil => simp [AtomicRun.run]
  | cons b removed ih =>
    have hab : a ≠ b := fun h => hr (by simp [h])
    have hkept : a ∈ s.authorizedSigners.filter fun id => id ≠ b := by simp [ha,hab]
    have hpos := List.length_pos_of_mem hkept
    rw [List.map_cons,AtomicRun.run,owner_removeSigner (by omega)]
    have hrun := ih (s := { s with
      authorizedSigners := s.authorizedSigners.filter fun id => id ≠ b }) ht hkept
      (fun h => hr (by simp [h]))
    rw [hrun]
    simp only [List.filter_filter,MPCController.mk.injEq,and_true]
    apply List.filter_congr
    intro x _
    simp [Bool.and_comm]

/-- A repeated account can be made the only one left, with a threshold of two. -/
theorem repeated_unachievable {s : MPCController} {a : AccountId}
    (ha : 1 < s.authorizedSigners.count a) :
    ∃ calls, ¬Achievable (AtomicRun.run next calls s) := by
  let others := s.authorizedSigners.filter fun id => id ≠ a
  let removals := others.map fun b => callBy s.ownerId (.removeAuthorizedSigner b)
  have hmem : a ∈ s.authorizedSigners := List.count_pos_iff.mp (by omega)
  have hpos := List.length_pos_of_mem hmem
  have hrun := run_removals others (s := { s with threshold := 1 }) rfl hmem (by simp [others])
  have hleft : (s.authorizedSigners.filter fun id => id ∉ others) =
      s.authorizedSigners.filter fun id => id == a := by
    apply List.filter_congr
    intro x hx
    simp [others,hx,beq_eq_decide]
  have hmany : 2 ≤ (s.authorizedSigners.filter fun id => id ∉ others).length := by
    rw [hleft,← List.count_eq_length_filter]
    exact ha
  have hone : Quorum.distinct (s.authorizedSigners.filter fun id => id ∉ others) ≤ 1 := by
    apply (Quorum.distinct_le_of_subset (k := [a]) _).trans (Quorum.distinct_le_length _)
    intro x hx
    rw [hleft] at hx
    simpa using (List.mem_filter.mp hx).2
  refine ⟨callBy s.ownerId (.setThreshold 1)::removals++[callBy s.ownerId (.setThreshold 2)],?_⟩
  have hfirst : next s (callBy s.ownerId (.setThreshold 1)) = { s with threshold := 1 } :=
    owner_setThreshold ⟨by decide,hpos⟩
  have hlast := owner_setThreshold (t := 2) (s := { s with
    authorizedSigners := s.authorizedSigners.filter fun id => id ∉ others
    threshold := 1 }) ⟨by decide,hmany⟩
  rw [List.cons_append,AtomicRun.run,hfirst,AtomicRun.run_append,hrun,AtomicRun.run,hlast]
  intro h
  have htwo : 2 ≤ Quorum.distinct (s.authorizedSigners.filter fun id => id ∉ others) := h.2
  omega

/-- Every reachable threshold is achievable by distinct accounts exactly when
the list given at deployment has no repetition. -/
theorem achievable_iff_nodup {authorizedSigners : List AccountId} {threshold : UInt8}
    {ownerId : AccountId} {s : MPCController}
    (hnew : new authorizedSigners threshold ownerId = .ok s) :
    (∀ calls, Achievable (AtomicRun.run next calls s)) ↔ authorizedSigners.Nodup := by
  have hsigners : s.authorizedSigners = authorizedSigners := by rw [(new_ok hnew).2]
  constructor
  · intro h
    rw [List.nodup_iff_count_le_one]
    intro a
    by_contra ha
    obtain ⟨calls,hc⟩ := repeated_unachievable (s := s) (a := a) (by rw [hsigners]; omega)
    exact hc (h calls)
  · intro hn calls
    have hJ := AtomicRun.run_invariant
      (I := fun s => ThresholdInRange s ∧ s.authorizedSigners.Nodup)
      (fun s c h => ⟨next_inRange s c h.1,next_nodup s c h.2⟩)
      ⟨new_inRange hnew,hsigners ▸ hn⟩ calls
    exact achievable_of_nodup hJ.1 hJ.2

theorem achievable_iff_nodup_pair :
    ∃ s : MPCController, new ["a.near","b.near"] 2 "owner.near" = .ok s ∧
      ((∀ calls, Achievable (AtomicRun.run next calls s)) ↔ ["a.near","b.near"].Nodup) :=
  ⟨_,rfl,@achievable_iff_nodup ["a.near","b.near"] 2 "owner.near" _ rfl⟩

/-- The same account twice is accepted with a threshold of two. -/
theorem repeated_signer_accepted :
    ∃ s : MPCController, new ["a.near","a.near"] 2 "owner.near" = .ok s ∧
      ¬Achievable (AtomicRun.run next [] s) := by
  refine ⟨_,rfl,?_⟩
  unfold Achievable
  decide

end DiamondBot.MPCController
