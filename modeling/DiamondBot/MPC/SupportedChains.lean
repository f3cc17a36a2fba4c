import DiamondBot.MPC.MPCEffects

/-!
# Supported chains under their ids

Adding a chain refuses an id that is already listed, while an update writes
any replacement over the first entry under its key. The ids stay distinct as
long as no update renames an entry to the id of another one, and only then
does switching a chain off keep it off.
-/

set_option autoImplicit false

namespace DiamondBot.MPCController
open NearRuntime Library

def ChainsDistinct (s : MPCController) : Prop :=
  (s.supportedChains.map SupportedChain.chainId).Nodup

/-- An update that replaces an entry keeps its id or moves it to a free one. -/
def KeepsChainIds (s : MPCController) (c : Call) : Prop :=
  match c.op with
  | .updateSupportedChain chainId chain => (∃ c ∈ s.supportedChains, c.chainId = chainId) →
      chain.chainId = chainId ∨ ∀ c ∈ s.supportedChains, c.chainId ≠ chain.chainId
  | _ => True

/-- A successful update that switches a chain off makes it unsupported. -/
def DisablesChain (s : MPCController) (c : Call) : Prop :=
  match c.op with
  | .updateSupportedChain chainId chain => ∀ s', chain.chainId = chainId →
      chain.enabled = false →
      s.updateSupportedChain c.env chainId chain = .ok (s',true) →
      s'.isChainSupported chainId = false
  | _ => True

theorem replaced_nodup_iff {pre post : List SupportedChain} {c : SupportedChain}
    (chain : SupportedChain)
    (h : ((pre++c::post).map SupportedChain.chainId).Nodup) :
    ((pre++chain::post).map SupportedChain.chainId).Nodup ↔
      chain.chainId = c.chainId ∨ ∀ d ∈ pre++c::post, d.chainId ≠ chain.chainId := by
  simp only [List.map_append,List.map_cons,List.nodup_middle,List.nodup_cons,
    List.mem_append,List.mem_map] at h ⊢
  constructor
  · intro h'
    by_cases he : chain.chainId = c.chainId
    · exact Or.inl he
    · apply Or.inr
      intro d hd hdc
      rcases hd with hd | hd
      · exact h'.1 (Or.inl ⟨d,hd,hdc⟩)
      · rcases List.mem_cons.mp hd with rfl | hd
        · exact he hdc.symm
        · exact h'.1 (Or.inr ⟨d,hd,hdc⟩)
  · intro h'
    refine ⟨?_,h.2⟩
    rcases h' with he | hne
    · rw [he]
      exact h.1
    · rintro (⟨d,hd,hdc⟩ | ⟨d,hd,hdc⟩)
      · exact hne d (Or.inl hd) hdc
      · exact hne d (Or.inr (List.mem_cons_of_mem _ hd)) hdc

theorem effect_chainsDistinct_iff {s s' : MPCController} {env : Env} {op : Op}
    (hs : ChainsDistinct s) (h : Effect s env op s') :
    ChainsDistinct s' ↔ KeepsChainIds s ⟨env,op⟩ := by
  cases h with
  | addChain chain fresh =>
    apply iff_of_true _ trivial
    rw [ChainsDistinct,List.map_append]
    apply List.Nodup.append hs (List.nodup_singleton _)
    simpa using fresh
  | updateChain chainId chain pre c post split key =>
    have hc : ∃ d ∈ s.supportedChains, d.chainId = chainId := ⟨c,by simp [split],key⟩
    simp only [KeepsChainIds,hc,true_implies]
    rw [ChainsDistinct,split] at hs
    rw [ChainsDistinct,replaced_nodup_iff chain hs,split,key]
  | updateUnknownChain chainId chain unknown =>
    apply iff_of_true hs
    rintro ⟨c,hc,hk⟩
    exact absurd hk (unknown c hc)
  | addKnownChain | create | sign | signNothing | addSigner | addKnownSigner
  | removeSigner | setThreshold | transferOwnership => exact iff_of_true hs trivial

theorem next_chainsDistinct_iff (s : MPCController) (c : Call) (hs : ChainsDistinct s) :
    ChainsDistinct (next s c) ↔ (Accepted s c → KeepsChainIds s c) :=
  AtomicRun.settle_iff hs fun _ h => effect_chainsDistinct_iff hs (step_effect h)

/-- With distinct ids the entry switched off is the only one under its id. -/
theorem distinct_disables (s : MPCController) (c : Call) (hs : ChainsDistinct s) :
    DisablesChain s c := by
  obtain ⟨env,op⟩ := c
  cases op with
  | updateSupportedChain chainId chain =>
    intro s' hkey hoff h
    obtain ⟨_,_,h⟩ := Checked.bind_ok.mp h
    rcases replaceChain_cases chainId chain s.supportedChains with
      ⟨pre,c,post,hl,hc,hr⟩ | ⟨hn,hr⟩
    · rw [hr] at h
      cases h
      rw [ChainsDistinct,hl] at hs
      simp only [List.map_append,List.map_cons,List.nodup_middle,List.nodup_cons,
        List.mem_append,List.mem_map,hc] at hs
      simp only [isChainSupported,List.any_eq_false,List.mem_append,List.mem_cons]
      intro d hd
      by_cases hdc : d.chainId = chainId
      · rcases hd with hd | rfl | hd
        · exact absurd (Or.inl ⟨d,hd,hdc⟩) hs.1
        · simp [hoff]
        · exact absurd (Or.inr ⟨d,hd,hdc⟩) hs.1
      · simp [hdc]
    · rw [hr] at h
      cases h
  | _ => trivial

/-- Over a whole run, ids stay distinct and switching off always works exactly
when no accepted update takes over the id of another entry. -/
theorem chains_distinct_iff {authorizedSigners : List AccountId} {threshold : UInt8}
    {ownerId : AccountId} {s : MPCController}
    (hnew : new authorizedSigners threshold ownerId = .ok s) (calls : List Call) :
    (AtomicRun.Throughout next ChainsDistinct calls s ∧
      AtomicRun.Along next DisablesChain calls s) ↔
      AtomicRun.Along next (fun s c => Accepted s c → KeepsChainIds s c) calls s := by
  have hs : ChainsDistinct s := by simp [(new_ok hnew).2,ChainsDistinct]
  have hiff : AtomicRun.Throughout next ChainsDistinct calls s ↔
      AtomicRun.Along next (fun s c => Accepted s c → KeepsChainIds s c) calls s :=
    AtomicRun.throughout_iff_along (J := fun _ => True) (fun _ _ _ => trivial)
      (fun s c _ => next_chainsDistinct_iff s c) trivial hs
  constructor
  · exact fun h => hiff.mp h.1
  · intro h
    have hd := hiff.mpr h
    exact ⟨hd,AtomicRun.along_of_states hd distinct_disables⟩

def switchedOff : List Call := [
  callBy "owner.near" (.addSupportedChain nearChain),
  callBy "owner.near" (.updateSupportedChain 15 { nearChain with enabled := false })]

theorem chains_distinct_iff_switched :
    ∃ s : MPCController, new ["a.near"] 1 "owner.near" = .ok s ∧
      ((AtomicRun.Throughout next ChainsDistinct switchedOff s ∧
        AtomicRun.Along next DisablesChain switchedOff s) ↔
        AtomicRun.Along next (fun s c => Accepted s c → KeepsChainIds s c) switchedOff s) :=
  ⟨_,rfl,@chains_distinct_iff ["a.near"] 1 "owner.near" _ rfl _⟩

def chainUnder (chainId : UInt16) : SupportedChain := { nearChain with chainId := chainId }

def renamedChain : List Call := [
  callBy "owner.near" (.addSupportedChain (chainUnder 1)),
  callBy "owner.near" (.addSupportedChain (chainUnder 2)),
  callBy "owner.near" (.updateSupportedChain 1 (chainUnder 2))]

/-- Switching chain two off then succeeds and leaves it supported. -/
theorem renamed_chain_stays_supported :
    ∃ s s' : MPCController, new ["a.near"] 1 "owner.near" = .ok s ∧
      ¬ChainsDistinct (AtomicRun.run next renamedChain s) ∧
      (AtomicRun.run next renamedChain s).updateSupportedChain
          (firstBlock "owner.near" "mpc.near") 2 { chainUnder 2 with enabled := false } =
        .ok (s',true) ∧
      s'.isChainSupported 2 = true := by
  refine ⟨_,_,rfl,?_,rfl,?_⟩
  · unfold ChainsDistinct
    decide
  · decide

end DiamondBot.MPCController
