import DiamondBot.MPC.MPCController
import Mathlib.Data.List.Nodup

/-!
# What an accepted call does to the controller

The two searching loops are read back as a change at one position. One lemma
then lists, for each operation, the guards an accepted call has passed and the
state it leaves; the results about signers, thresholds, transactions and
chains read this list.
-/

set_option autoImplicit false

namespace DiamondBot.MPCController
open NearRuntime Library

def Accepted (s : MPCController) (c : Call) : Prop := ∃ s', step s c = .ok s'

theorem new_ok {authorizedSigners : List AccountId} {threshold : UInt8} {ownerId : AccountId}
    {s : MPCController} (h : new authorizedSigners threshold ownerId = .ok s) :
    (0 < threshold.toNat ∧ threshold.toNat ≤ authorizedSigners.length) ∧
      s = ⟨authorizedSigners,threshold,[],[],ownerId⟩ := by
  obtain ⟨_,hvalid,h⟩ := Checked.bind_ok.mp h
  cases h
  exact ⟨Checked.require_ok.mp hvalid,rfl⟩

theorem open_txId {s : MPCController} {txId : String} {tx : MPCTransaction}
    (h : s.openTransaction txId = some tx) : tx.txId = txId ∧ tx.completed = false := by
  simpa using List.find?_some h

/-- The loop stops at the first open transaction under the id. -/
theorem signFirst_open (txId : String) (signerId : AccountId) (signature : List UInt8)
    (threshold : UInt8) (l : List MPCTransaction) {tx : MPCTransaction}
    (h : l.find? (fun tx => tx.txId = txId && !tx.completed) = some tx) :
    ∃ i : ℕ, l[i]? = some tx ∧ (signFirst txId signerId signature threshold l).1 =
      if signerId ∈ tx.signers then l
      else l.set i (tx.sign signerId signature threshold) := by
  induction l with
  | nil => simp at h
  | cons t rest ih =>
    by_cases ht : t.txId = txId ∧ t.completed = false
    · have he : t = tx := by simpa [ht] using h
      subst he
      refine ⟨0,rfl,?_⟩
      have hs : (t.signatures.any fun s => s.1 = signerId) = true ↔ signerId ∈ t.signers := by
        simp [MPCTransaction.signers]
      by_cases hm : signerId ∈ t.signers
      · simp only [signFirst,if_pos ht,if_pos hm,if_pos (hs.mpr hm)]
      · simp only [signFirst,if_pos ht,if_neg hm,if_neg (mt hs.mp hm),List.set_cons_zero]
    · have hr : rest.find? (fun tx => tx.txId = txId && !tx.completed) = some tx := by
        simpa [List.find?_cons,ht] using h
      obtain ⟨i,hi,hset⟩ := ih hr
      refine ⟨i+1,hi,?_⟩
      simp only [signFirst,if_neg ht,hset]
      split <;> simp

theorem signFirst_none (txId : String) (signerId : AccountId) (signature : List UInt8)
    (threshold : UInt8) (l : List MPCTransaction)
    (h : l.find? (fun tx => tx.txId = txId && !tx.completed) = none) :
    (signFirst txId signerId signature threshold l).1 = l := by
  induction l with
  | nil => rfl
  | cons t rest ih =>
    have ht : ¬(t.txId = txId ∧ t.completed = false) := by
      intro ht
      simp [ht] at h
    have hr : rest.find? (fun tx => tx.txId = txId && !tx.completed) = none := by
      simpa [List.find?_cons,ht] using h
    simp only [signFirst,if_neg ht,ih hr]

theorem replaceChain_cases (chainId : UInt16) (chain : SupportedChain)
    (l : List SupportedChain) :
    (∃ pre c post, l = pre++c::post ∧ c.chainId = chainId ∧
      replaceChain chainId chain l = (pre++chain::post,true)) ∨
    (∀ c ∈ l, c.chainId ≠ chainId) ∧ replaceChain chainId chain l = (l,false) := by
  induction l with
  | nil => exact Or.inr ⟨by simp,rfl⟩
  | cons c rest ih =>
    by_cases hc : c.chainId = chainId
    · exact Or.inl ⟨[],c,rest,rfl,hc,by simp [replaceChain,hc]⟩
    · rcases ih with ⟨pre,d,post,hl,hd,hr⟩ | ⟨hn,hr⟩
      · exact Or.inl ⟨c::pre,d,post,by simp [hl],hd,by simp [replaceChain,hc,hr]⟩
      · exact Or.inr ⟨by simpa [hc] using hn,by simp [replaceChain,hc,hr]⟩

inductive Effect (s : MPCController) (env : Env) : Op → MPCController → Prop
  | addChain (chain : SupportedChain)
      (fresh : ∀ c ∈ s.supportedChains, c.chainId ≠ chain.chainId) :
      Effect s env (.addSupportedChain chain)
        { s with supportedChains := s.supportedChains++[chain] }
  | addKnownChain (chain : SupportedChain) : Effect s env (.addSupportedChain chain) s
  | updateChain (chainId : UInt16) (chain : SupportedChain) (pre : List SupportedChain)
      (c : SupportedChain) (post : List SupportedChain)
      (split : s.supportedChains = pre++c::post) (key : c.chainId = chainId) :
      Effect s env (.updateSupportedChain chainId chain)
        { s with supportedChains := pre++chain::post }
  | updateUnknownChain (chainId : UInt16) (chain : SupportedChain)
      (unknown : ∀ c ∈ s.supportedChains, c.chainId ≠ chainId) :
      Effect s env (.updateSupportedChain chainId chain) s
  | create (txId : String) (fromChain toChain : UInt16) (sender receiver : String)
      (amount : ℕ) (memo : Option String)
      (fresh : ∀ tx ∈ s.pendingTransactions, tx.txId ≠ txId)
      (supported : s.isChainSupported fromChain ∧ s.isChainSupported toChain) :
      Effect s env (.createTransaction txId fromChain toChain sender receiver amount memo)
        { s with pendingTransactions := s.pendingTransactions++
          [MPCTransaction.create env txId fromChain toChain sender receiver amount memo] }
  | sign (txId : String) (signature : List UInt8) (i : ℕ) (tx : MPCTransaction)
      (authorized : env.predecessorAccountId ∈ s.authorizedSigners)
      (found : s.openTransaction txId = some tx)
      (position : s.pendingTransactions[i]? = some tx)
      (unsigned : env.predecessorAccountId ∉ tx.signers) :
      Effect s env (.signTransaction txId signature)
        { s with
          pendingTransactions := s.pendingTransactions.set i
            (tx.sign env.predecessorAccountId signature s.threshold) }
  | signNothing (txId : String) (signature : List UInt8)
      (signed : ∀ tx, s.openTransaction txId = some tx →
        env.predecessorAccountId ∈ tx.signers) :
      Effect s env (.signTransaction txId signature) s
  | addSigner (signerId : AccountId) (fresh : signerId ∉ s.authorizedSigners) :
      Effect s env (.addAuthorizedSigner signerId)
        { s with authorizedSigners := s.authorizedSigners++[signerId] }
  | addKnownSigner (signerId : AccountId) : Effect s env (.addAuthorizedSigner signerId) s
  | removeSigner (signerId : AccountId)
      (enough : s.threshold.toNat ≤
        (s.authorizedSigners.filter fun id => id ≠ signerId).length) :
      Effect s env (.removeAuthorizedSigner signerId)
        { s with authorizedSigners := s.authorizedSigners.filter fun id => id ≠ signerId }
  | setThreshold (threshold : UInt8) (positive : 0 < threshold.toNat)
      (enough : threshold.toNat ≤ s.authorizedSigners.length) :
      Effect s env (.setThreshold threshold) { s with threshold }
  | transferOwnership (newOwnerId : AccountId) :
      Effect s env (.transferOwnership newOwnerId) { s with ownerId := newOwnerId }

theorem addSupportedChain_effect {s : MPCController} {env : Env} {chain : SupportedChain}
    {r : MPCController × Bool} (h : s.addSupportedChain env chain = .ok r) :
    Effect s env (.addSupportedChain chain) r.1 := by
  obtain ⟨_,_,h⟩ := Checked.bind_ok.mp h
  by_cases hk : s.supportedChains.any fun c => c.chainId = chain.chainId
  · rw [if_pos hk] at h
    cases h
    exact .addKnownChain _
  · rw [if_neg hk] at h
    cases h
    exact .addChain _ (by simpa using hk)

theorem updateSupportedChain_effect {s : MPCController} {env : Env} {chainId : UInt16}
    {chain : SupportedChain} {r : MPCController × Bool}
    (h : s.updateSupportedChain env chainId chain = .ok r) :
    Effect s env (.updateSupportedChain chainId chain) r.1 := by
  obtain ⟨_,_,h⟩ := Checked.bind_ok.mp h
  cases h
  rcases replaceChain_cases chainId chain s.supportedChains with
    ⟨pre,c,post,hl,hc,hr⟩ | ⟨hn,hr⟩
  · rw [hr]
    exact .updateChain _ _ pre c post hl hc
  · rw [hr]
    exact .updateUnknownChain _ _ hn

theorem createTransaction_effect {s : MPCController} {env : Env} {txId : String}
    {fromChain toChain : UInt16} {sender receiver : String} {amount : ℕ}
    {memo : Option String} {r : MPCController × Bool}
    (h : s.createTransaction env txId fromChain toChain sender receiver amount memo = .ok r) :
    Effect s env (.createTransaction txId fromChain toChain sender receiver amount memo)
      r.1 := by
  obtain ⟨_,hfresh,h⟩ := Checked.bind_ok.mp h
  obtain ⟨_,hsupported,h⟩ := Checked.bind_ok.mp h
  cases h
  apply Effect.create
  · simpa using Checked.require_ok.mp hfresh
  · simpa using Checked.require_ok.mp hsupported

theorem signTransaction_effect {s : MPCController} {env : Env} {txId : String}
    {signature : List UInt8} {r : MPCController × Bool}
    (h : s.signTransaction env txId signature = .ok r) :
    Effect s env (.signTransaction txId signature) r.1 := by
  obtain ⟨_,hmem,h⟩ := Checked.bind_ok.mp h
  cases h
  cases ho : s.openTransaction txId with
  | none =>
    rw [signFirst_none _ _ _ _ _ ho]
    exact .signNothing _ _ (by simp [ho])
  | some tx =>
    obtain ⟨i,hi,hset⟩ :=
      signFirst_open txId env.predecessorAccountId signature s.threshold _ ho
    rw [hset]
    by_cases hs : env.predecessorAccountId ∈ tx.signers
    · rw [if_pos hs]
      exact .signNothing _ _ (by simpa [ho] using hs)
    · rw [if_neg hs]
      exact .sign _ _ i tx (Checked.require_ok.mp hmem) ho hi hs

theorem addAuthorizedSigner_effect {s : MPCController} {env : Env} {signerId : AccountId}
    {r : MPCController × Bool} (h : s.addAuthorizedSigner env signerId = .ok r) :
    Effect s env (.addAuthorizedSigner signerId) r.1 := by
  obtain ⟨_,_,h⟩ := Checked.bind_ok.mp h
  by_cases hk : signerId ∉ s.authorizedSigners
  · rw [if_pos hk] at h
    cases h
    exact .addSigner _ hk
  · rw [if_neg hk] at h
    cases h
    exact .addKnownSigner _

/-- Every accepted call is one of the listed effects. -/
theorem step_effect {s s' : MPCController} {c : Call} (h : step s c = .ok s') :
    Effect s c.env c.op s' := by
  obtain ⟨env,op⟩ := c
  cases op with
  | addSupportedChain chain =>
    obtain ⟨r,hr,rfl⟩ := Checked.map_ok.mp h
    exact addSupportedChain_effect hr
  | updateSupportedChain chainId chain =>
    obtain ⟨r,hr,rfl⟩ := Checked.map_ok.mp h
    exact updateSupportedChain_effect hr
  | createTransaction txId fromChain toChain sender receiver amount memo =>
    obtain ⟨r,hr,rfl⟩ := Checked.map_ok.mp h
    exact createTransaction_effect hr
  | signTransaction txId signature =>
    obtain ⟨r,hr,rfl⟩ := Checked.map_ok.mp h
    exact signTransaction_effect hr
  | addAuthorizedSigner signerId =>
    obtain ⟨r,hr,rfl⟩ := Checked.map_ok.mp h
    exact addAuthorizedSigner_effect hr
  | removeAuthorizedSigner signerId =>
    obtain ⟨r,hr,rfl⟩ := Checked.map_ok.mp h
    obtain ⟨_,_,hr⟩ := Checked.bind_ok.mp hr
    obtain ⟨_,henough,hr⟩ := Checked.bind_ok.mp hr
    cases hr
    exact .removeSigner _ (Checked.require_ok.mp henough)
  | setThreshold threshold =>
    obtain ⟨r,hr,rfl⟩ := Checked.map_ok.mp h
    obtain ⟨_,_,hr⟩ := Checked.bind_ok.mp hr
    obtain ⟨_,hvalid,hr⟩ := Checked.bind_ok.mp hr
    cases hr
    exact .setThreshold _ (Checked.require_ok.mp hvalid).1 (Checked.require_ok.mp hvalid).2
  | transferOwnership newOwnerId =>
    obtain ⟨_,_,h⟩ := Checked.bind_ok.mp h
    cases h
    exact .transferOwnership _

end DiamondBot.MPCController
