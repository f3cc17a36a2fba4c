import DiamondBot.Library.Checked
import DiamondBot.Library.Ranking
import Mathlib.Data.List.AList

/-!
# Tracked tokens that are given up

The tracker forgets tokens that were last updated too long ago, and when there
are too many of them the ones updated longest ago. A token without a time counts
as updated at time zero, but never as too old.
-/

set_option autoImplicit false

namespace DiamondBot.TokenTracking
open Library

variable {Rest : Type}

/-- What else is known of a token does not matter here. -/
structure TokenStatus (Rest : Type) where
  lastUpdated : Option ℕ
  rest : Rest

abbrev Tracked (Rest : Type) := AList fun _ : String => TokenStatus Rest

structure TokenStatusTracker (Rest : Type) where
  trackedTokens : Tracked Rest

def size (tokens : Tracked Rest) : ℕ := tokens.keys.length

namespace TokenStatusTracker

def isOld (currentTime maxAgeSeconds : ℕ) (status : TokenStatus Rest) : Except String Bool :=
  match status.lastUpdated with
  | none => .ok false
  | some lastUpdated =>
    if currentTime > lastUpdated then
      (Checked.sub currentTime lastUpdated).map fun age => age > maxAgeSeconds
    else .ok false

def tokensToRemove (currentTime maxAgeSeconds : ℕ) :
    List ((_ : String) × TokenStatus Rest) → Except String (List String)
  | [] => .ok []
  | token::tokens => do
    let old ← isOld currentTime maxAgeSeconds token.2
    let others ← tokensToRemove currentTime maxAgeSeconds tokens
    .ok (if old then token.1::others else others)

def removeAll (tokens : Tracked Rest) (addresses : List String) : Tracked Rest :=
  addresses.foldl (fun tokens address => tokens.erase address) tokens

def cleanupOldTokens (tracker : TokenStatusTracker Rest) (currentTime maxAgeSeconds : ℕ) :
    Except String (ℕ × TokenStatusTracker Rest) :=
  (tokensToRemove currentTime maxAgeSeconds tracker.trackedTokens.entries).map fun tokens =>
    (tokens.length,⟨removeAll tracker.trackedTokens tokens⟩)

def tokensWithTime (tokens : Tracked Rest) : List (String × ℕ) :=
  tokens.entries.map fun token => (token.1,token.2.lastUpdated.getD 0)

def oldestFirst (tokens : Tracked Rest) : List (String × ℕ) :=
  (tokensWithTime tokens).mergeSort fun a b => a.2 ≤ b.2

def removeAt (sorted : List (String × ℕ)) (tokens : Tracked Rest) (i : ℕ) : Tracked Rest :=
  match sorted[i]? with
  | some token => tokens.erase token.1
  | none => tokens

def reduceCacheSize (tracker : TokenStatusTracker Rest) (targetSize : ℕ) :
    Except String (ℕ × TokenStatusTracker Rest) :=
  if size tracker.trackedTokens ≤ targetSize then .ok (0,tracker)
  else
    (Checked.sub (size tracker.trackedTokens) targetSize).map fun toRemove =>
      (toRemove,⟨(List.range toRemove).foldl (removeAt (oldestFirst tracker.trackedTokens))
        tracker.trackedTokens⟩)

/-! ## Removing by key -/

theorem lookup_removeAll (tokens : Tracked Rest) (addresses : List String) (address : String) :
    (removeAll tokens addresses).lookup address =
      if address ∈ addresses then none else tokens.lookup address := by
  induction addresses generalizing tokens with
  | nil => rfl
  | cons a addresses ih =>
    change (removeAll (tokens.erase a) addresses).lookup address = _
    rw [ih]
    by_cases hmem : address ∈ addresses
    · rw [if_pos hmem,if_pos (List.mem_cons_of_mem _ hmem)]
    · rw [if_neg hmem]
      by_cases hsame : address = a
      · rw [if_pos (by rw [hsame]; exact List.mem_cons_self),hsame,AList.lookup_erase]
      · rw [if_neg (List.not_mem_cons_of_ne_of_not_mem hsame hmem),AList.lookup_erase_ne hsame]

theorem mem_removeAll {tokens : Tracked Rest} {addresses : List String} {address : String} :
    address ∈ removeAll tokens addresses ↔ address ∉ addresses ∧ address ∈ tokens := by
  rw [← AList.lookup_isSome,lookup_removeAll,← AList.lookup_isSome]
  by_cases hmem : address ∈ addresses
  · simp [hmem]
  · simp [hmem]

theorem removeAll_same {tokens : Tracked Rest} {addresses : List String} {address : String}
    (h : address ∈ removeAll tokens addresses) :
    (removeAll tokens addresses).lookup address = tokens.lookup address := by
  rw [lookup_removeAll,if_neg (mem_removeAll.mp h).1]

theorem size_removeAll (tokens : Tracked Rest) {addresses : List String}
    (hnodup : addresses.Nodup) (h : ∀ a ∈ addresses, a ∈ tokens) :
    size (removeAll tokens addresses)+addresses.length = size tokens := by
  induction addresses generalizing tokens with
  | nil => rfl
  | cons a addresses ih =>
    obtain ⟨ha,hrest⟩ := List.forall_mem_cons.mp h
    obtain ⟨hnot,hnodup⟩ := List.nodup_cons.mp hnodup
    have hone : size (tokens.erase a)+1 = size tokens := by
      rw [size,AList.keys_erase,List.length_erase_of_mem (AList.mem_keys.mp ha)]
      exact Nat.sub_add_cancel (List.length_pos_of_mem (AList.mem_keys.mp ha))
    have hstill : ∀ b ∈ addresses, b ∈ tokens.erase a := fun b hb =>
      AList.mem_erase.mpr ⟨fun hsame => hnot (hsame ▸ hb),hrest b hb⟩
    change size (removeAll (tokens.erase a) addresses)+(addresses.length+1) = _
    rw [← Nat.add_assoc,ih (tokens.erase a) hnodup hstill,hone]

theorem removeAt_range (sorted : List (String × ℕ)) (n : ℕ) (hn : n ≤ sorted.length)
    (tokens : Tracked Rest) :
    (List.range n).foldl (removeAt sorted) tokens =
      removeAll tokens ((sorted.take n).map Prod.fst) := by
  induction n with
  | zero => rfl
  | succ n ih =>
    have hget : sorted[n]? = some sorted[n] := List.getElem?_eq_getElem hn
    rw [List.range_succ,List.foldl_append,ih (by omega),List.take_succ_eq_append_getElem hn,
      List.map_append,removeAll,removeAll,List.foldl_append]
    simp only [List.foldl_cons,List.foldl_nil,List.map_cons,List.map_nil,removeAt,hget]

/-! ## Too many tokens -/

def timeOf (tokens : Tracked Rest) (address : String) : ℕ :=
  ((tokens.lookup address).bind (·.lastUpdated)).getD 0

/-- The target is met by giving up tokens none of which is newer than one that stays. -/
structure Reduced (tokens left : Tracked Rest) (targetSize removed : ℕ) : Prop where
  size_eq : size left = min (size tokens) targetSize
  count : removed+size left = size tokens
  same : ∀ a ∈ left, left.lookup a = tokens.lookup a
  oldest : ∀ kept ∈ left, ∀ gone ∈ tokens, gone ∉ left → timeOf tokens gone ≤ timeOf tokens kept

theorem oldestFirst_perm (tokens : Tracked Rest) :
    (oldestFirst tokens).Perm (tokensWithTime tokens) :=
  List.mergeSort_perm _ _

theorem oldestFirst_keys (tokens : Tracked Rest) :
    ((oldestFirst tokens).map Prod.fst).Perm tokens.keys := by
  have hkeys : (tokensWithTime tokens).map Prod.fst = tokens.keys := by
    rw [tokensWithTime,List.map_map]
    rfl
  rw [← hkeys]
  exact (oldestFirst_perm tokens).map Prod.fst

theorem oldestFirst_sorted (tokens : Tracked Rest) :
    (oldestFirst tokens).Pairwise fun a b => a.2 ≤ b.2 := by
  have hsorted : Ranking.GreatestFirst (fun token => OrderDual.toDual token.2)
      (oldestFirst tokens) :=
    Ranking.mergeSort_greatestFirst _ fun _ _ _ _ => rfl
  exact hsorted.imp OrderDual.toDual_le_toDual.mp

theorem oldestFirst_time (tokens : Tracked Rest) {token : String × ℕ}
    (h : token ∈ oldestFirst tokens) : token.2 = timeOf tokens token.1 := by
  obtain ⟨entry,hentry,rfl⟩ := List.mem_map.mp ((oldestFirst_perm tokens).mem_iff.mp h)
  have hlookup : tokens.lookup entry.1 = some entry.2 := AList.mem_lookup_iff.mpr hentry
  rw [timeOf,hlookup]
  rfl

theorem mem_oldestFirst {tokens : Tracked Rest} {address : String} (h : address ∈ tokens) :
    ∃ token ∈ oldestFirst tokens, token.1 = address :=
  List.mem_map.mp ((oldestFirst_keys tokens).mem_iff.mpr (AList.mem_keys.mp h))

theorem removed_first (tokens : Tracked Rest) {n : ℕ} (hn : n ≤ size tokens) :
    size (removeAll tokens (((oldestFirst tokens).take n).map Prod.fst))+n = size tokens := by
  have hlength : (oldestFirst tokens).length = size tokens := by
    rw [← List.length_map (f := Prod.fst),(oldestFirst_keys tokens).length_eq]
    rfl
  have hsub : (((oldestFirst tokens).take n).map Prod.fst).Sublist
      ((oldestFirst tokens).map Prod.fst) := (List.take_sublist n _).map Prod.fst
  have hnodup := hsub.nodup ((oldestFirst_keys tokens).nodup_iff.mpr tokens.keys_nodup)
  have hsize := size_removeAll tokens hnodup fun a ha =>
    AList.mem_keys.mpr ((oldestFirst_keys tokens).mem_iff.mp (hsub.subset ha))
  rw [List.length_map,List.length_take,hlength,Nat.min_eq_left hn] at hsize
  exact hsize

theorem removed_oldest (tokens : Tracked Rest) {n : ℕ} {kept gone : String}
    (hkept : kept ∈ tokens) (hstays : kept ∉ ((oldestFirst tokens).take n).map Prod.fst)
    (hgoes : gone ∈ ((oldestFirst tokens).take n).map Prod.fst) :
    timeOf tokens gone ≤ timeOf tokens kept := by
  obtain ⟨old,hold,rfl⟩ := List.mem_map.mp hgoes
  obtain ⟨new,hnew,rfl⟩ := mem_oldestFirst hkept
  have htimes : old.2 = timeOf tokens old.1 ∧ new.2 = timeOf tokens new.1 :=
    ⟨oldestFirst_time tokens (List.mem_of_mem_take hold),oldestFirst_time tokens hnew⟩
  have hsorted := oldestFirst_sorted tokens
  rw [← List.take_append_drop n (oldestFirst tokens)] at hsorted hnew
  rw [← htimes.1,← htimes.2]
  rcases List.mem_append.mp hnew with hfirst | hlater
  · exact absurd (List.mem_map_of_mem hfirst) hstays
  · exact (List.pairwise_append.mp hsorted).2.2 old hold new hlater

theorem reduceCacheSize_large (tracker : TokenStatusTracker Rest) {targetSize : ℕ}
    (hlarge : targetSize < size tracker.trackedTokens) :
    tracker.reduceCacheSize targetSize = .ok (size tracker.trackedTokens-targetSize,
      ⟨removeAll tracker.trackedTokens (((oldestFirst tracker.trackedTokens).take
        (size tracker.trackedTokens-targetSize)).map Prod.fst)⟩) := by
  have hsub : Checked.sub (size tracker.trackedTokens) targetSize =
      .ok (size tracker.trackedTokens-targetSize) := Checked.sub_ok.mpr ⟨by omega,rfl⟩
  have hlength : size tracker.trackedTokens-targetSize ≤
      (oldestFirst tracker.trackedTokens).length := by
    have hkeys := (oldestFirst_keys tracker.trackedTokens).length_eq
    rw [List.length_map] at hkeys
    rw [hkeys]
    exact Nat.sub_le _ _
  rw [reduceCacheSize,if_neg (by omega),hsub,← removeAt_range _ _ hlength]
  rfl

theorem reduceCacheSize_reduced (tracker : TokenStatusTracker Rest) (targetSize : ℕ) :
    ∃ removed left, tracker.reduceCacheSize targetSize = .ok (removed,left) ∧
      Reduced tracker.trackedTokens left.trackedTokens targetSize removed := by
  by_cases hlarge : targetSize < size tracker.trackedTokens
  · have hleft := removed_first tracker.trackedTokens (n := size tracker.trackedTokens-targetSize)
      (by omega)
    refine ⟨_,_,reduceCacheSize_large tracker hlarge,?_,?_,fun a ha => removeAll_same ha,?_⟩
    · dsimp only
      omega
    · dsimp only
      omega
    · intro kept hkept gone hgone hnot
      obtain ⟨hstays,hkept⟩ := mem_removeAll.mp hkept
      have hgoes := not_not.mp fun hnone => hnot (mem_removeAll.mpr ⟨hnone,hgone⟩)
      exact removed_oldest tracker.trackedTokens hkept hstays hgoes
  · have hsmall := not_lt.mp hlarge
    refine ⟨0,tracker,if_pos hsmall,(Nat.min_eq_left hsmall).symm,Nat.zero_add _,
      fun _ _ => rfl,?_⟩
    intro _ _ gone hgone hnot
    exact absurd hgone hnot

/-! ## Tokens that are too old -/

def tooOld (currentTime maxAgeSeconds : ℕ) (status : TokenStatus Rest) : Bool :=
  match status.lastUpdated with
  | none => false
  | some lastUpdated => lastUpdated+maxAgeSeconds < currentTime

theorem isOld_eq (currentTime maxAgeSeconds : ℕ) (status : TokenStatus Rest) :
    isOld currentTime maxAgeSeconds status = .ok (tooOld currentTime maxAgeSeconds status) := by
  unfold isOld tooOld
  split
  · rfl
  · next lastUpdated _ =>
    split
    · next hlater =>
      rw [Checked.sub_ok.mpr ⟨hlater.le,rfl⟩]
      refine congrArg Except.ok (decide_eq_decide.mpr ?_)
      omega
    · next hearlier =>
      refine congrArg Except.ok (decide_eq_false ?_).symm
      omega

theorem tokensToRemove_eq (currentTime maxAgeSeconds : ℕ)
    (tokens : List ((_ : String) × TokenStatus Rest)) :
    tokensToRemove currentTime maxAgeSeconds tokens =
      .ok ((tokens.filter fun token => tooOld currentTime maxAgeSeconds token.2).map Sigma.fst) := by
  induction tokens with
  | nil => rfl
  | cons token tokens ih =>
    rw [tokensToRemove,isOld_eq,ih]
    cases hold : tooOld currentTime maxAgeSeconds token.2 with
    | true =>
      rw [List.filter_cons_of_pos (by simpa using hold)]
      rfl
    | false =>
      rw [List.filter_cons_of_neg (by simpa using hold)]
      rfl

/-- Exactly the tokens with a time too long ago are given up. -/
structure CleanedUp (tokens left : Tracked Rest) (currentTime maxAgeSeconds removed : ℕ) :
    Prop where
  mem_iff : ∀ a, a ∈ left ↔ a ∈ tokens ∧ ¬∃ status lastUpdated, tokens.lookup a = some status ∧
    status.lastUpdated = some lastUpdated ∧ lastUpdated+maxAgeSeconds < currentTime
  count : removed+size left = size tokens
  same : ∀ a ∈ left, left.lookup a = tokens.lookup a

theorem tooOld_iff {currentTime maxAgeSeconds : ℕ} {status : TokenStatus Rest} :
    tooOld currentTime maxAgeSeconds status = true ↔ ∃ lastUpdated,
      status.lastUpdated = some lastUpdated ∧ lastUpdated+maxAgeSeconds < currentTime := by
  unfold tooOld
  split
  · next h => simp [h]
  · next h => simp [h]

theorem mem_removed {tokens : Tracked Rest} {currentTime maxAgeSeconds : ℕ} {a : String} :
    a ∈ (tokens.entries.filter fun token =>
        tooOld currentTime maxAgeSeconds token.2).map Sigma.fst ↔
      ∃ status lastUpdated, tokens.lookup a = some status ∧
        status.lastUpdated = some lastUpdated ∧ lastUpdated+maxAgeSeconds < currentTime := by
  simp only [List.mem_map,List.mem_filter]
  constructor
  · rintro ⟨token,⟨hmem,hold⟩,rfl⟩
    obtain ⟨lastUpdated,htime⟩ := tooOld_iff.mp hold
    exact ⟨token.2,lastUpdated,AList.mem_lookup_iff.mpr hmem,htime⟩
  · rintro ⟨status,lastUpdated,hlookup,htime⟩
    exact ⟨⟨a,status⟩,⟨AList.mem_lookup_iff.mp hlookup,tooOld_iff.mpr ⟨lastUpdated,htime⟩⟩,rfl⟩

theorem cleanupOldTokens_cleanedUp (tracker : TokenStatusTracker Rest)
    (currentTime maxAgeSeconds : ℕ) :
    ∃ removed left, tracker.cleanupOldTokens currentTime maxAgeSeconds = .ok (removed,left) ∧
      CleanedUp tracker.trackedTokens left.trackedTokens currentTime maxAgeSeconds removed := by
  rw [cleanupOldTokens,tokensToRemove_eq]
  refine ⟨_,_,rfl,?_,?_,fun a ha => removeAll_same ha⟩
  · intro a
    rw [mem_removeAll,mem_removed,and_comm]
  · rw [Nat.add_comm]
    apply size_removeAll
    · exact (List.filter_sublist.map Sigma.fst).nodup tracker.trackedTokens.keys_nodup
    · intro a ha
      obtain ⟨status,_,hlookup,_⟩ := mem_removed.mp ha
      exact AList.lookup_isSome.mp (by rw [hlookup]; rfl)

/-- Both ways of giving up tokens succeed and take exactly the tokens they should. -/
theorem tokens_given_up (tracker : TokenStatusTracker Rest) :
    (∀ targetSize, ∃ removed left, tracker.reduceCacheSize targetSize = .ok (removed,left) ∧
      Reduced tracker.trackedTokens left.trackedTokens targetSize removed) ∧
    ∀ currentTime maxAgeSeconds, ∃ removed left,
      tracker.cleanupOldTokens currentTime maxAgeSeconds = .ok (removed,left) ∧
        CleanedUp tracker.trackedTokens left.trackedTokens currentTime maxAgeSeconds removed :=
  ⟨reduceCacheSize_reduced tracker,cleanupOldTokens_cleanedUp tracker⟩

end TokenStatusTracker
end DiamondBot.TokenTracking
