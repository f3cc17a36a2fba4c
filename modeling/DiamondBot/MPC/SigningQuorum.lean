import DiamondBot.MPC.MPCEffects
import DiamondBot.Library.Quorum

/-!
# Which signers complete a transaction

Completion compares the number of signatures with the threshold; it does not
ask whether the earlier signers are still authorised. Since the signers of a
transaction are distinct, the backing it has left at completion is a count,
and the calls that complete without a quorum are read off at each signature.
-/

set_option autoImplicit false

namespace DiamondBot.MPCController
open NearRuntime Library

def SignersDistinct (s : MPCController) : Prop :=
  ∀ tx ∈ s.pendingTransactions, tx.signers.Nodup

/-- Every transaction that becomes completed in a step has the threshold in
signatures of distinct accounts authorised at that very step. -/
def CompletesBacked (s s' : MPCController) : Prop :=
  ∀ (i : ℕ) (tx' : MPCTransaction), s'.pendingTransactions[i]? = some tx' →
    tx'.completed = true →
    (∀ tx, s.pendingTransactions[i]? = some tx → tx.completed = false) →
    Quorum.Backed s'.authorizedSigners tx'.signers s'.threshold.toNat

/-- A signature that reaches the threshold comes with at least as many
signatures beyond it as there are signatures of accounts since removed. -/
def SurplusCoversRevoked (s : MPCController) (c : Call) : Prop :=
  match c.op with
  | .signTransaction txId _ => ∀ tx, s.openTransaction txId = some tx →
      c.env.predecessorAccountId ∉ tx.signers →
      s.threshold.toNat ≤ tx.signers.length+1 →
      s.threshold.toNat+Quorum.revoked s.authorizedSigners tx.signers ≤ tx.signers.length+1
  | _ => True

theorem signed_nodup {tx : MPCTransaction} {signerId : AccountId} (signature : List UInt8)
    (threshold : UInt8) (htx : tx.signers.Nodup) (hnew : signerId ∉ tx.signers) :
    (tx.sign signerId signature threshold).signers.Nodup := by
  rw [MPCTransaction.sign_signers]
  exact htx.append (List.nodup_singleton _) (by simpa using hnew)

theorem effect_signersDistinct {s s' : MPCController} {env : Env} {op : Op}
    (hs : SignersDistinct s) (h : Effect s env op s') : SignersDistinct s' := by
  cases h with
  | create =>
    intro tx htx
    rcases List.mem_append.mp htx with htx | htx
    · exact hs tx htx
    · rw [List.mem_singleton.mp htx]
      exact List.nodup_nil
  | sign txId signature i tx authorized found position unsigned =>
    intro tx' htx'
    rcases List.mem_or_eq_of_mem_set htx' with htx' | rfl
    · exact hs tx' htx'
    · exact signed_nodup _ _ (hs tx (List.mem_of_getElem? position)) unsigned
  | addChain | addKnownChain | updateChain | updateUnknownChain | signNothing | addSigner
  | addKnownSigner | removeSigner | setThreshold | transferOwnership => exact hs

theorem next_signersDistinct (s : MPCController) (c : Call) (hs : SignersDistinct s) :
    SignersDistinct (next s c) :=
  AtomicRun.settle_preserves hs fun _ h => effect_signersDistinct hs (step_effect h)

theorem unchanged_backed {s s' : MPCController}
    (h : s'.pendingTransactions = s.pendingTransactions) : CompletesBacked s s' := by
  intro i tx' htx' hdone hopen
  rw [h] at htx'
  rw [hopen tx' htx'] at hdone
  cases hdone

theorem create_backed {s s' : MPCController} {tx : MPCTransaction} (htx : tx.completed = false)
    (h : s'.pendingTransactions = s.pendingTransactions++[tx]) : CompletesBacked s s' := by
  intro i tx' htx' hdone hopen
  rw [h] at htx'
  by_cases hi : i < s.pendingTransactions.length
  · rw [List.getElem?_append_left hi] at htx'
    rw [hopen tx' htx'] at hdone
    cases hdone
  · rw [List.getElem?_append_right (by omega)] at htx'
    have hmem := List.mem_of_getElem? htx'
    rw [List.mem_singleton.mp hmem,htx] at hdone
    cases hdone

theorem signed_backed_iff {members : List AccountId} {tx : MPCTransaction}
    {signerId : AccountId} (signature : List UInt8) (threshold : UInt8)
    (hmem : signerId ∈ members) (htx : tx.signers.Nodup) (hnew : signerId ∉ tx.signers) :
    Quorum.Backed members (tx.sign signerId signature threshold).signers threshold.toNat ↔
      threshold.toNat+Quorum.revoked members tx.signers ≤ tx.signers.length+1 := by
  rw [Quorum.backed_iff (signed_nodup _ _ htx hnew),MPCTransaction.sign_signers,
    Quorum.revoked_append_member hmem]
  simp

theorem effect_backed_iff {s s' : MPCController} {env : Env} {op : Op}
    (hs : SignersDistinct s) (h : Effect s env op s') :
    CompletesBacked s s' ↔ SurplusCoversRevoked s ⟨env,op⟩ := by
  cases h with
  | create => exact iff_of_true (create_backed rfl rfl) trivial
  | sign txId signature i tx authorized found position unsigned =>
    have hopen := (open_txId found).2
    have hlen := (List.getElem?_eq_some_iff.mp position).1
    have hback := signed_backed_iff signature s.threshold authorized
      (hs tx (List.mem_of_getElem? position)) unsigned
    constructor
    · intro h tx₀ hfound _ hreach
      have he : tx = tx₀ := Option.some.inj (found.symm.trans hfound)
      subst he
      apply hback.mp
      apply h i _ (List.getElem?_set_self hlen)
      · exact (MPCTransaction.sign_completed hopen _ _ _).mpr hreach
      · intro tx₀ htx₀
        have he : tx = tx₀ := Option.some.inj (position.symm.trans htx₀)
        exact he ▸ hopen
    · intro h j tx' htx' hdone hbefore
      by_cases hj : i = j
      · subst hj
        rw [List.getElem?_set_self hlen] at htx'
        have he := Option.some.inj htx'
        subst he
        apply hback.mpr
        exact h tx found unsigned ((MPCTransaction.sign_completed hopen _ _ _).mp hdone)
      · rw [List.getElem?_set_ne hj] at htx'
        rw [hbefore tx' htx'] at hdone
        cases hdone
  | signNothing txId signature signed =>
    apply iff_of_true (unchanged_backed rfl)
    intro tx hfound hnew
    exact absurd (signed tx hfound) hnew
  | addChain | addKnownChain | updateChain | updateUnknownChain | addSigner
  | addKnownSigner | removeSigner | setThreshold | transferOwnership =>
    exact iff_of_true (unchanged_backed rfl) trivial

theorem next_backed_iff (s : MPCController) (c : Call) (hs : SignersDistinct s) :
    CompletesBacked s (next s c) ↔ (Accepted s c → SurplusCoversRevoked s c) :=
  AtomicRun.settle_iff (Q := CompletesBacked s) (unchanged_backed rfl)
    fun _ h => effect_backed_iff hs (step_effect h)

theorem new_signersDistinct {authorizedSigners : List AccountId} {threshold : UInt8}
    {ownerId : AccountId} {s : MPCController}
    (h : new authorizedSigners threshold ownerId = .ok s) : SignersDistinct s := by
  obtain ⟨_,rfl⟩ := new_ok h
  intro tx htx
  cases htx

/-- Over a whole run, every completion has its quorum exactly when every
accepted signature that completes a transaction outweighs the removed signers. -/
theorem completions_backed_iff {authorizedSigners : List AccountId} {threshold : UInt8}
    {ownerId : AccountId} {s : MPCController}
    (hnew : new authorizedSigners threshold ownerId = .ok s) (calls : List Call) :
    AtomicRun.Along next (fun s c => CompletesBacked s (next s c)) calls s ↔
      AtomicRun.Along next (fun s c => Accepted s c → SurplusCoversRevoked s c) calls s := by
  have hs := new_signersDistinct hnew
  constructor
  · exact AtomicRun.along_mono next_signersDistinct
      (fun s c hd => (next_backed_iff s c hd).mp) hs
  · exact AtomicRun.along_mono next_signersDistinct
      (fun s c hd => (next_backed_iff s c hd).mpr) hs

theorem completions_backed_iff_signed :
    ∃ s : MPCController, new ["a.near","b.near"] 1 "owner.near" = .ok s ∧
      (AtomicRun.Along next (fun s c => CompletesBacked s (next s c))
          (openTransfer++[callBy "a.near" (.signTransaction "tx" [1])]) s ↔
        AtomicRun.Along next (fun s c => Accepted s c → SurplusCoversRevoked s c)
          (openTransfer++[callBy "a.near" (.signTransaction "tx" [1])]) s) :=
  ⟨_,rfl,@completions_backed_iff ["a.near","b.near"] 1 "owner.near" _ rfl _⟩

def removedSigner : List Call := openTransfer++[
  callBy "a.near" (.signTransaction "tx" [1]),
  callBy "owner.near" (.removeAuthorizedSigner "a.near"),
  callBy "b.near" (.signTransaction "tx" [2])]

theorem removed_signer_completes :
    ∃ s : MPCController, new ["a.near","b.near","c.near"] 2 "owner.near" = .ok s ∧
      ¬AtomicRun.Along next (fun s c => CompletesBacked s (next s c)) removedSigner s := by
  refine ⟨_,rfl,?_⟩
  intro h
  have hlast := h.2.2.2.2.1 0
    { MPCTransaction.create (firstBlock "owner.near" "mpc.near")
        "tx" 15 15 "alice" "bob" 5 none with
      signatures := [("a.near",[1]),("b.near",[2])]
      completed := true }
    (by decide) rfl (by decide)
  exact absurd ((Quorum.backed_iff (by decide)).mp hlast) (by decide)

def RemovesUnsigned (s : MPCController) (c : Call) : Prop :=
  match c.op with
  | .removeAuthorizedSigner signerId => ∀ tx ∈ s.pendingTransactions,
      tx.completed = false → signerId ∉ tx.signers
  | _ => True

def OpenAuthorized (s : MPCController) : Prop :=
  ∀ tx ∈ s.pendingTransactions, tx.completed = false →
    ∀ a ∈ tx.signers, a ∈ s.authorizedSigners

theorem effect_openAuthorized {s s' : MPCController} {env : Env} {op : Op}
    (hs : OpenAuthorized s) (hr : RemovesUnsigned s ⟨env,op⟩) (h : Effect s env op s') :
    OpenAuthorized s' := by
  cases h with
  | create =>
    intro tx htx hopen a ha
    rcases List.mem_append.mp htx with htx | htx
    · exact hs tx htx hopen a ha
    · rw [List.mem_singleton.mp htx] at ha
      simp [MPCTransaction.signers,MPCTransaction.create] at ha
  | sign txId signature i tx authorized found position unsigned =>
    intro tx' htx' hopen a ha
    rcases List.mem_or_eq_of_mem_set htx' with htx' | rfl
    · exact hs tx' htx' hopen a ha
    · rw [MPCTransaction.sign_signers] at ha
      rcases List.mem_append.mp ha with ha | ha
      · exact hs tx (List.mem_of_getElem? position) (open_txId found).2 a ha
      · rw [List.mem_singleton.mp ha]
        exact authorized
  | addSigner signerId fresh =>
    intro tx htx hopen a ha
    exact List.mem_append_left _ (hs tx htx hopen a ha)
  | removeSigner signerId enough =>
    intro tx htx hopen a ha
    have hne : a ≠ signerId := by
      intro he
      exact hr tx htx hopen (he ▸ ha)
    simpa [hne] using hs tx htx hopen a ha
  | addChain | addKnownChain | updateChain | updateUnknownChain | signNothing
  | addKnownSigner | setThreshold | transferOwnership => exact hs

theorem surplus_of_authorized {s : MPCController} (hs : OpenAuthorized s) (c : Call) :
    SurplusCoversRevoked s c := by
  obtain ⟨env,op⟩ := c
  cases op with
  | signTransaction txId signature =>
    intro tx hfound _ hreach
    have hmem := List.mem_of_find?_eq_some hfound
    have hzero : Quorum.revoked s.authorizedSigners tx.signers = 0 := by
      simpa [Quorum.revoked] using hs tx hmem (open_txId hfound).2
    omega
  | _ => trivial

theorem backed_of_unsigned_removals {authorizedSigners : List AccountId} {threshold : UInt8}
    {ownerId : AccountId} {s : MPCController}
    (hnew : new authorizedSigners threshold ownerId = .ok s) {calls : List Call}
    (h : AtomicRun.Along next (fun s c => Accepted s c → RemovesUnsigned s c) calls s) :
    AtomicRun.Along next (fun s c => CompletesBacked s (next s c)) calls s := by
  have hopen : OpenAuthorized s := by
    obtain ⟨_,rfl⟩ := new_ok hnew
    intro tx htx
    cases htx
  have hrun := AtomicRun.throughout_of_along
    (I := fun s => SignersDistinct s ∧ OpenAuthorized s)
    (fun s c hI hr => ⟨next_signersDistinct s c hI.1,AtomicRun.settle_preserves hI.2
      fun s' hs' => effect_openAuthorized hI.2 (hr ⟨s',hs'⟩) (step_effect hs')⟩)
    ⟨new_signersDistinct hnew,hopen⟩ h
  exact AtomicRun.along_of_states hrun fun s c hI =>
    (next_backed_iff s c hI.1).mpr fun _ => surplus_of_authorized hI.2 c

end DiamondBot.MPCController
