import DiamondBot.ChainAdapters.NonceManager
import DiamondBot.Library.Dispenser

/-!
# Nonces are handed out once

Seen from one address the manager is a dispenser: a nonce handed out takes a
number, a count stored in the cache loads one, an update raises the counter and
a cleanup forgets it. The count of mined transactions says nothing about the
nonces handed out and still pending, so a load may fall back behind them.
-/

set_option autoImplicit false

namespace DiamondBot.NonceManager.System
open Library

def view (s : System) (address : Address) : Dispenser where
  next := s.manager.nonces.lookup address
  given := s.handed address

/-- No two calls for one address have returned the same nonce. -/
def Unique (s : System) : Prop := ∀ address, (s.handed address).Nodup

/-- A nonce stored from outside the cache lies above every nonce handed out: a
count read by a refresh or a reset, and an update that finds no entry. -/
def Counted (s : System) : Action → Prop
  | .getNextNonce address none => s.manager.cached s.now address = none →
      ∀ k ∈ s.handed address, k < s.mined address
  | .resetNonce address none => ∀ k ∈ s.handed address, k < s.mined address
  | .updateNonce address newNonce => s.manager.nonces.lookup address = none →
      ∀ k ∈ s.handed address, k < newNonce
  | _ => True

/-- The counter of an address is neither stored from outside the cache nor dropped. -/
def Kept (s : System) (address : Address) : Action → Prop
  | .getNextNonce d none => d = address → s.manager.cached s.now d ≠ none
  | .resetNonce d none => d ≠ address
  | .updateNonce d _ => d = address → s.manager.nonces.lookup d ≠ none
  | .cleanupCache => address ∉ s.manager.expiredAddresses s.now
  | _ => True

instance (s : System) (address : Address) : (a : Action) → Decidable (s.Kept address a)
  | .getNextNonce d none =>
    inferInstanceAs (Decidable (d = address → s.manager.cached s.now d ≠ none))
  | .resetNonce d none => inferInstanceAs (Decidable (d ≠ address))
  | .updateNonce d _ => inferInstanceAs (Decidable (d = address → s.manager.nonces.lookup d ≠ none))
  | .cleanupCache => inferInstanceAs (Decidable (address ∉ s.manager.expiredAddresses s.now))
  | .getNextNonce _ (some _) => isTrue trivial
  | .resetNonce _ (some _) => isTrue trivial
  | .mine _ => isTrue trivial
  | .wait _ => isTrue trivial

/-- A nonce handed out leaves room for its successor. -/
def Bounded (s : System) : Prop := ∀ address, ∀ k ∈ s.handed address, k+1 < 2^256

/-! ## One step -/

def Acts (s s' : System) (counted kept : Prop) (address : Address) : Prop :=
  ∃ ops, s'.view address = AtomicRun.run Dispenser.apply ops (s.view address) ∧
    (counted → AtomicRun.Along Dispenser.apply Dispenser.Admits ops (s.view address)) ∧
    (kept → ∀ op ∈ ops, Dispenser.Keeps op)

theorem acts_nothing {s s' : System} {counted kept : Prop} {address : Address}
    (h : s'.view address = s.view address) : Acts s s' counted kept address :=
  ⟨[],h,fun _ => trivial,fun _ _ hop => nomatch hop⟩

theorem acts_kept {s s' : System} {counted kept : Prop} {address : Address}
    (op : Dispenser.Op) (hop : Dispenser.Keeps op) (h : s'.view address = (s.view address).apply op) :
    Acts s s' counted kept address := by
  refine ⟨[op],h,fun _ => ⟨?_,trivial⟩,fun _ => ?_⟩
  · cases op with
    | load n => cases hop
    | _ => trivial
  · rintro _ (_ | ⟨_,⟨⟩⟩)
    exact hop

theorem acts_elsewhere {s s' : System} {counted kept : Prop} {d : Address} (address : Address)
    (hothers : ∀ d ≠ address, s'.view d = s.view d)
    (hself : d = address → Acts s s' counted kept address) : Acts s s' counted kept d := by
  by_cases hd : d = address
  · rw [hd]
    exact hself hd
  · exact acts_nothing (hothers d hd)

theorem stored_acts {s s' : System} {address d : Address} {n : ℕ} {counted kept : Prop}
    (hnonces : s'.manager.nonces = s.manager.nonces.insert address n)
    (hhanded : s'.handed = s.handed) (hcounted : counted → ∀ k ∈ s.handed address, k < n)
    (hkept : kept → d ≠ address) : Acts s s' counted kept d := by
  apply acts_elsewhere address
  · intro d hd
    unfold view
    rw [hnonces,hhanded,AList.lookup_insert_ne hd]
  · intro hd
    refine ⟨[.load n],?_,fun h => ⟨hcounted h,trivial⟩,fun hk => absurd hd (hkept hk)⟩
    unfold view
    rw [hnonces,hhanded,AList.lookup_insert]
    rfl

theorem asked_acts {s s' : System} {address d : Address} {failure : Option String}
    {r : Except Fault ℕ} (h : s.Asked address failure r s') :
    Acts s s' (s.Counted (.getNextNonce address failure))
      (s.Kept d (.getNextNonce address failure)) d := by
  cases h with
  | fromCache n hcached _ =>
    apply acts_elsewhere address
    · intro d hd
      simp only [view,AList.lookup_insert_ne hd,Function.update_of_ne hd]
    · intro _
      apply acts_kept .take trivial
      simp only [view,AList.lookup_insert,Function.update_self,Dispenser.apply,
        cached_some hcached]
  | fromChain habsent hanswered _ =>
    apply acts_elsewhere address
    · intro d hd
      simp only [view,AList.lookup_insert_ne hd,Function.update_of_ne hd]
    · intro hd
      subst hanswered
      refine ⟨[.load (s.mined address),.take],?_,fun hc => ⟨hc habsent,trivial,trivial⟩,
        fun hk => absurd habsent (hk hd.symm)⟩
      simp only [view,AList.lookup_insert,Function.update_self,AtomicRun.run,Dispenser.apply]
  | cacheFull _ _ _ => exact acts_nothing rfl
  | chainFull habsent hanswered _ =>
    subst hanswered
    refine stored_acts rfl rfl ?_ ?_
    · exact fun hc => hc habsent
    · exact fun hk hd => hk hd.symm habsent
  | chainFailed _ _ _ => exact acts_nothing rfl

theorem next_acts (s : System) (a : Action) (d : Address) :
    Acts s (s.next a) (s.Counted a) (s.Kept d a) d := by
  cases a with
  | getNextNonce address failure => exact asked_acts (s.getNextNonce_asked address failure)
  | updateNonce address newNonce =>
    cases hlookup : s.manager.nonces.lookup address with
    | none =>
      have hnonces : (s.next (.updateNonce address newNonce)).manager.nonces =
          s.manager.nonces.insert address newNonce := by
        simp only [next,updateNonce,NonceManager.updateNonce,hlookup,store_nonces]
      refine stored_acts hnonces rfl ?_ ?_
      · exact fun hc => hc hlookup
      · exact fun hk hd => hk hd.symm hlookup
    | some nonce =>
      have hnonces : (s.next (.updateNonce address newNonce)).manager.nonces =
          s.manager.nonces.insert address (max nonce newNonce) := by
        simp only [next,updateNonce,NonceManager.updateNonce,hlookup,store_nonces]
      apply acts_elsewhere address
      · intro d hd
        unfold view
        rw [hnonces,AList.lookup_insert_ne hd]
        rfl
      · intro _
        apply acts_kept (.raise newNonce) trivial
        unfold view
        rw [hnonces,AList.lookup_insert]
        simp only [Dispenser.apply,hlookup]
        rfl
  | resetNonce address failure =>
    cases failure with
    | some err => exact acts_nothing rfl
    | none => exact stored_acts rfl rfl id fun hk hd => hk hd.symm
  | cleanupCache =>
    have hlookup := cleanupCache_nonces s.manager s.now d
    by_cases hd : d ∈ s.manager.expiredAddresses s.now
    · rw [if_pos hd] at hlookup
      refine ⟨[.forget],?_,fun _ => ⟨trivial,trivial⟩,fun hk => absurd hd hk⟩
      exact congrArg (fun x => Dispenser.mk x (s.handed d)) hlookup
    · rw [if_neg hd] at hlookup
      exact acts_nothing (congrArg (fun x => Dispenser.mk x (s.handed d)) hlookup)
  | mine address => exact acts_nothing rfl
  | wait duration => exact acts_nothing rfl

theorem next_kept {s : System} {a : Action} {address : Address} {n : ℕ}
    (h : s.manager.nonces.lookup address = some n) (hkept : s.Kept address a) :
    ∃ n', (s.next a).manager.nonces.lookup address = some n' ∧ n ≤ n' := by
  obtain ⟨ops,hview,_,hkeeps⟩ := next_acts s a address
  obtain ⟨n',hn',hle⟩ := Dispenser.run_keeps (d := s.view address) h (hkeeps hkept)
  rw [← hview] at hn'
  exact ⟨n',hn',hle⟩

def Ahead (s : System) : Prop := ∀ address, (s.view address).Ahead

theorem next_ahead (s : System) (a : Action) (h : s.Ahead) (hc : s.Counted a) :
    (s.next a).Ahead := by
  intro address
  obtain ⟨ops,hview,hadmits,_⟩ := next_acts s a address
  rw [hview]
  exact Dispenser.run_ahead (h address) (hadmits hc)

theorem asked_bounded {s s' : System} {address : Address} {failure : Option String}
    {r : Except Fault ℕ} (h : s.Asked address failure r s') (hb : s.Bounded) : s'.Bounded := by
  have hgrown : ∀ n, n+1 < 2^256 → ∀ d,
      ∀ k ∈ Function.update s.handed address (s.handed address++[n]) d, k+1 < 2^256 := by
    intro n hn d k hk
    by_cases hd : d = address
    · rw [hd,Function.update_self] at hk
      rcases List.mem_append.mp hk with hk | hk
      · exact hb address k hk
      · rwa [List.mem_singleton.mp hk]
    · rw [Function.update_of_ne hd] at hk
      exact hb d k hk
  cases h with
  | fromCache n _ hroom => exact hgrown n hroom
  | fromChain _ _ hroom => exact hgrown _ hroom
  | cacheFull _ _ _ => exact hb
  | chainFull _ _ _ => exact hb
  | chainFailed _ _ _ => exact hb

theorem next_bounded (s : System) (a : Action) (h : s.Bounded) : (s.next a).Bounded := by
  cases a with
  | getNextNonce address failure => exact asked_bounded (s.getNextNonce_asked address failure) h
  | _ => exact h

/-! ## A count behind the nonces handed out -/

theorem cached_advanced {m : NonceManager} {now n : ℕ} {address : Address} (n' : ℕ)
    (h : m.cached now address = some n) :
    ({ m with nonces := m.nonces.insert address n' } : NonceManager).cached now address =
      some n' := by
  unfold cached at h ⊢
  split at h
  · cases h
  · rename_i hfresh
    rw [AList.lookup_insert]
    exact if_neg hfresh

theorem getNextNonce_cached {s : System} {address : Address} {n : ℕ}
    (h : s.manager.cached s.now address = some n) (hroom : n+1 < 2^256) :
    s.next (.getNextNonce address none) = { s with
      manager := { s.manager with nonces := s.manager.nonces.insert address (n+1) }
      handed := Function.update s.handed address (s.handed address++[n]) } := by
  simp only [next,getNextNonce,NonceManager.getNextNonce,h,advance,if_pos hroom]

theorem getNextNonce_loaded {s : System} {address : Address}
    (h : s.manager.cached s.now address = none) (hroom : s.mined address+1 < 2^256) :
    s.next (.getNextNonce address none) = { s with
      manager := { s.manager.store s.now address (s.mined address) with
        nonces := (s.manager.nonces.insert address (s.mined address)).insert address
          (s.mined address+1) }
      handed := Function.update s.handed address (s.handed address++[s.mined address]) } := by
  simp only [next,getNextNonce,NonceManager.getNextNonce,h,transactionCount,getNonceFromChain,
    advance,if_pos hroom,store_nonces]

theorem gets_take (count : ℕ) {s : System} {address : Address} {n : ℕ}
    (h : s.manager.cached s.now address = some n) (hroom : n+count < 2^256) :
    (AtomicRun.run next (List.replicate count (.getNextNonce address none)) s).view address =
      AtomicRun.run Dispenser.apply (List.replicate count .take) (s.view address) := by
  induction count generalizing s n with
  | zero => rfl
  | succ count ih =>
    have hnext := getNextNonce_cached h (by omega)
    have hcached : (s.next (.getNextNonce address none)).manager.cached
        (s.next (.getNextNonce address none)).now address = some (n+1) := by
      rw [hnext]
      exact cached_advanced (n+1) h
    have htake : (s.next (.getNextNonce address none)).view address =
        (s.view address).apply .take := by
      rw [hnext]
      simp only [view,AList.lookup_insert,Function.update_self,Dispenser.apply,cached_some h]
    rw [List.replicate_succ,List.replicate_succ,AtomicRun.run,AtomicRun.run,
      ih hcached (by omega),htake]

theorem loaded_repeats {s s' : System} {address : Address} {c k j : ℕ} (hb : s.Bounded)
    (hk : k ∈ s.handed address) (hle : c ≤ k) (hj : j ≤ k+1-c)
    (hview : s'.view address = AtomicRun.run Dispenser.apply (List.replicate j .take)
      ((s.view address).apply (.load c)))
    (hcached : s'.manager.cached s'.now address = some (c+j)) :
    ∃ count, ¬Unique (AtomicRun.run next
      (List.replicate count (.getNextNonce address none)) s') := by
  have hroom := hb address k hk
  refine ⟨k+1-c-j,fun hunique => ?_⟩
  have hgets := gets_take (k+1-c-j) hcached (by omega)
  rw [hview,← AtomicRun.run_append,← List.replicate_add,show j+(k+1-c-j) = k+1-c by omega]
    at hgets
  apply Dispenser.takes_repeat (d := (s.view address).apply (.load c)) rfl hk hle
  rw [← hgets]
  exact hunique address

theorem uncounted_repeats {s : System} {a : Action} (hb : s.Bounded) (ha : ¬s.Counted a) :
    ∃ address count, ¬Unique (AtomicRun.run next
      (a::List.replicate count (.getNextNonce address none)) s) := by
  cases a with
  | getNextNonce address failure =>
    cases failure with
    | some err => exact absurd trivial ha
    | none =>
      simp only [Counted,not_forall,not_lt] at ha
      obtain ⟨habsent,k,hk,hle⟩ := ha
      have hroom := hb address k hk
      have hnext := getNextNonce_loaded habsent (by omega)
      refine ⟨address,loaded_repeats (j := 1) hb hk hle (by omega) ?_ ?_⟩
      · rw [hnext]
        simp only [view,AList.lookup_insert,Function.update_self]
        rfl
      · rw [hnext]
        exact cached_advanced _ (store_cached s.manager s.now address (s.mined address))
  | updateNonce address newNonce =>
    simp only [Counted,not_forall,not_lt] at ha
    obtain ⟨habsent,k,hk,hle⟩ := ha
    have hnext : s.next (.updateNonce address newNonce) =
        { s with manager := s.manager.store s.now address newNonce } := by
      simp only [next,updateNonce,NonceManager.updateNonce,habsent]
    refine ⟨address,loaded_repeats (j := 0) hb hk hle (by omega) ?_ ?_⟩
    · rw [hnext]
      simp only [view,store_nonces,AList.lookup_insert]
      rfl
    · rw [hnext]
      exact store_cached s.manager s.now address newNonce
  | resetNonce address failure =>
    cases failure with
    | some err => exact absurd trivial ha
    | none =>
      simp only [Counted,not_forall,not_lt] at ha
      obtain ⟨k,hk,hle⟩ := ha
      refine ⟨address,loaded_repeats (j := 0) hb hk hle (by omega) ?_ ?_⟩
      · simp only [next,resetNonce,NonceManager.resetNonce,transactionCount,getNonceFromChain,
          view,store_nonces,AList.lookup_insert]
        rfl
      · exact store_cached s.manager s.now address (s.mined address)
  | _ => exact absurd trivial ha

/-! ## All runs -/

theorem start_ahead (cacheSeconds : ℕ) (mined : Address → ℕ) (now : ℕ) :
    (start cacheSeconds mined now).Ahead := by
  intro address
  refine ⟨List.nodup_nil,?_⟩
  rintro _ ⟨⟩

/-- While every count stored in the cache has left all nonces handed out behind,
no nonce is handed out twice; the first step that stores another count is
followed by a repeated nonce as soon as enough nonces are asked for. -/
theorem nonces_unique {cacheSeconds : ℕ} {mined : Address → ℕ} {now : ℕ}
    {actions : List Action}
    (h : AtomicRun.Along next Counted actions (start cacheSeconds mined now)) :
    AtomicRun.Throughout next Unique actions (start cacheSeconds mined now) ∧
      ∀ a, ¬Counted (AtomicRun.run next actions (start cacheSeconds mined now)) a →
        ∃ address count, ¬Unique (AtomicRun.run next
          (actions++a::List.replicate count (.getNextNonce address none))
          (start cacheSeconds mined now)) := by
  constructor
  · apply AtomicRun.throughout_mono _
      (AtomicRun.throughout_of_along next_ahead (start_ahead cacheSeconds mined now) h)
    exact fun s hs address => (hs address).distinct
  · intro a ha
    have hb : Bounded (AtomicRun.run next actions (start cacheSeconds mined now)) := by
      apply AtomicRun.run_invariant next_bounded
      rintro address k ⟨⟩
    obtain ⟨address,count,hrepeats⟩ := uncounted_repeats hb ha
    refine ⟨address,count,?_⟩
    rwa [AtomicRun.run_append]

def wallet : Address := 0xA11CE

def minedInTime : List Action :=
  [.getNextNonce wallet none,.mine wallet,.wait (61*10^9),.getNextNonce wallet none]

theorem nonces_unique_mined :
    (AtomicRun.run next minedInTime (start 60 (fun _ => 0) 0)).handed wallet = [0,1] ∧
      Unique (AtomicRun.run next minedInTime (start 60 (fun _ => 0) 0)) := by
  have hcounted : AtomicRun.Along next Counted minedInTime (start 60 (fun _ => 0) 0) := by
    refine ⟨fun _ k hk => ?_,trivial,trivial,fun _ => ?_,trivial⟩
    · cases hk
    · decide
  exact ⟨by decide,AtomicRun.throughout_last (nonces_unique hcounted).1⟩

def pendingTooLong : List Action :=
  [.getNextNonce wallet none,.wait (61*10^9),.getNextNonce wallet none]

theorem pending_nonce_repeated :
    (AtomicRun.run next pendingTooLong (start 60 (fun _ => 0) 0)).handed wallet = [0,0] ∧
      ¬AtomicRun.Throughout next Unique pendingTooLong (start 60 (fun _ => 0) 0) := by
  have hhanded : (AtomicRun.run next pendingTooLong (start 60 (fun _ => 0) 0)).handed wallet =
      [0,0] := by decide
  refine ⟨hhanded,fun h => ?_⟩
  have hnodup := AtomicRun.throughout_last h wallet
  rw [hhanded] at hnodup
  revert hnodup
  decide

end DiamondBot.NonceManager.System
