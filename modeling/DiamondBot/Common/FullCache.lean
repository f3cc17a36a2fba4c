import DiamondBot.Common.AsyncCache

/-!
# Writes into a full cache

Whether a cache is full is asked before anything is known of the key. As long as
every entry is live the cleanup takes none of them, and a write is refused even
when it would only put a new value in the place of the old one.
-/

set_option autoImplicit false

namespace DiamondBot.Common
open Library AtomicRun

theorem erase_absent {V : Type} {m : AList fun _ : String => V} {key : String} (h : key ∉ m) :
    m.erase key = m :=
  AList.ext (List.kerase_of_notMem_keys h)

namespace BasicCache

/-- No entry has expired by then. -/
def Live (b : BasicCache) (now : ℕ) : Prop := ∀ key ∈ b.entries, b.isExpired now key = false

/-- The write succeeds and the key has the text of the new value. -/
def Overwrites {V : Type} (json : Json V) (b : BasicCache) (cleanupNow now : ℕ) (key : String)
    (value : V) (ttlSeconds : ℕ) : Prop :=
  (b.set json cleanupNow now key value ttlSeconds).1 = .ok () ∧
    ∃ jsonStr, json.toText value = .ok jsonStr ∧
      (b.set json cleanupNow now key value ttlSeconds).2.entries.lookup key = some jsonStr

theorem isExpired_of_expiredKeys {b : BasicCache} {now : ℕ} {key : String}
    (h : key ∈ b.expiredKeys now) : b.isExpired now key = true := by
  obtain ⟨last,hlast,hlt⟩ := mem_expiredKeys.mp h
  simp only [isExpired,hlast,decide_eq_true_eq]
  exact hlt

theorem removeAll_absent (keys : List String) (b : BasicCache) (h : ∀ key ∈ keys, key ∉ b.entries) :
    (keys.foldl remove b).entries = b.entries := by
  induction keys generalizing b with
  | nil => rfl
  | cons key keys ih =>
    obtain ⟨hkey,hkeys⟩ := List.forall_mem_cons.mp h
    have hsame : (b.remove key).entries = b.entries := erase_absent hkey
    rw [List.foldl_cons,ih (b.remove key) (by rwa [hsame]),hsame]

theorem makeRoom_live {b : BasicCache} {now : ℕ} (h : b.Live now) :
    (b.makeRoom now).entries = b.entries := by
  unfold makeRoom
  split
  · apply removeAll_absent
    intro key hexpired hkey
    have hlive := h key hkey
    rw [isExpired_of_expiredKeys hexpired] at hlive
    cases hlive
  · rfl

theorem makeRoom_full {b : BasicCache} {now : ℕ} (hfull : b.isFull = true) (h : b.Live now) :
    (b.makeRoom now).isFull = true := by
  rw [isFull,len,makeRoom_config,makeRoom_live h]
  exact hfull

theorem set_full {V : Type} (json : Json V) {b : BasicCache} {cleanupNow : ℕ}
    (hfull : b.isFull = true) (h : b.Live cleanupNow) (now : ℕ) (key : String) (value : V)
    (ttlSeconds : ℕ) : b.set json cleanupNow now key value ttlSeconds =
      (.error "Cache đã đầy, không thể thêm giá trị mới",b.makeRoom cleanupNow) := by
  rw [set,if_pos (makeRoom_full hfull h)]

end BasicCache

/-! ## One client of the asynchronous cache -/

variable {Kind : Type} {Value : Kind → Type}

def AsyncCache.Live (c : AsyncCache) (now : ℕ) : Prop :=
  ∀ key ∈ c.entries, c.isExpired now key = false

theorem AsyncCache.live_earlier {c : AsyncCache} {now last : ℕ} (h : c.Live last)
    (hnow : now ≤ last) : c.Live now := by
  intro key hkey
  have hlast := h key hkey
  unfold isExpired at hlast ⊢
  cases he : c.expirations.lookup key with
  | none =>
    rw [he] at hlast
    cases hlast
  | some e =>
    simp only [he,decide_eq_false_iff_not] at hlast ⊢
    omega

theorem AsyncCache.expiredKeys_absent {c : AsyncCache} {now : ℕ} (h : c.Live now) :
    ∀ key ∈ c.expiredKeys now, key ∉ c.entries := by
  intro key hexpired hkey
  have hbasic := BasicCache.isExpired_of_expiredKeys
    (b := ⟨c.entries,c.expirations,c.config⟩) hexpired
  cases hbasic.symm.trans (h key hkey)

namespace AsyncSystem

variable (json : (kind : Kind) → Json (Value kind))

def alone (call : ℕ) (pauses : List ℕ) : List (AsyncAction Value) :=
  pauses.flatMap fun pause => [.wait pause,.step call]

/-- A write that succeeds leaves a promise about its key. -/
def Promised (s : AsyncSystem Value) (key : String) : Prop := ∃ p ∈ s.kept, p.key = key

/-- The phases of a write on its way to being refused. -/
inductive Refusing (c : AsyncCache) (last : ℕ) (write : Write Value) : Phase Value → Prop
  | readingClock (h : c.Live last) : Refusing c last write (.readingClock write)
  | collecting (now : ℕ) (h : c.Live now) : Refusing c last write (.collecting now (some write))
  | erasingEntry (key : String) (keys : List String) (h : key ∉ c.entries)
      (hkeys : ∀ k ∈ keys, k ∉ c.entries) :
      Refusing c last write (.erasingEntry key (.cleanUp keys (some write)))
  | erasingExpiry (key : String) (keys : List String) (hkeys : ∀ k ∈ keys, k ∉ c.entries) :
      Refusing c last write (.erasingExpiry key (.cleanUp keys (some write)))
  | rechecking : Refusing c last write (.rechecking write)
  | returned : Refusing c last write .returned

def sectionsLeft (n : ℕ) : Phase Value → ℕ
  | .readingClock _ => 2*n+3
  | .collecting _ _ => 2*n+2
  | .erasingEntry _ (.cleanUp keys _) => 2*keys.length+3
  | .erasingExpiry _ (.cleanUp keys _) => 2*keys.length+2
  | .rechecking _ => 1
  | _ => 0

structure Refused (write : Write Value) (call last left : ℕ) (s₀ s : AsyncSystem Value) :
    Prop where
  entries : s.cache.entries = s₀.cache.entries
  config : s.cache.config = s₀.cache.config
  kept : s.kept = s₀.kept
  expirations : s.cache.expirations.entries.length ≤ s₀.cache.expirations.entries.length
  phase : ∃ phase, s.calls[call]? = some phase ∧ Refusing s.cache last write phase ∧
    sectionsLeft s₀.cache.expirations.entries.length phase ≤ left

theorem cleanUp_refusing {c : AsyncCache} (last : ℕ) (write : Write Value)
    {keys : List String} (h : ∀ k ∈ keys, k ∉ c.entries) (n : ℕ) :
    Refusing c last write (cleanUp keys (some write)) ∧
      sectionsLeft n (cleanUp keys (some write)) ≤ 2*keys.length+1 := by
  cases keys with
  | nil => exact ⟨.rechecking,le_rfl⟩
  | cons key keys =>
    obtain ⟨hkey,hkeys⟩ := List.forall_mem_cons.mp h
    exact ⟨.erasingEntry key keys hkey hkeys,le_rfl⟩

/-- A section on the way takes no entry and leads on. -/
theorem effect_refused {s : AsyncSystem Value} {write : Write Value} {call last left : ℕ}
    {s₀ : AsyncSystem Value} (h : Refused write call last (left+1) s₀ s)
    (hfull : s.cache.isFull = true) (hnow : s.now ≤ last) :
    Refused write call last left s₀ (s.step json call) := by
  obtain ⟨phase,hphase,hrefusing,hleft⟩ := h.phase
  have hcall : call < s.calls.length := (List.getElem?_eq_some_iff.mp hphase).1
  have hset : ∀ p : Phase Value, (s.calls.set call p)[call]? = some p :=
    fun p => by rw [List.getElem?_set_self hcall]
  rw [step,hphase]
  cases hrefusing with
  | readingClock hlive =>
    refine ⟨h.entries,h.config,h.kept,h.expirations,_,hset _,
      .collecting s.now (AsyncCache.live_earlier hlive hnow),?_⟩
    change 2*_+3 ≤ left+1 at hleft
    change 2*_+2 ≤ left
    omega
  | collecting now hlive =>
    obtain ⟨hnext,hn⟩ := cleanUp_refusing last write
      (AsyncCache.expiredKeys_absent hlive) s₀.cache.expirations.entries.length
    have hkeys : (s.cache.expiredKeys now).length ≤ s.cache.expirations.entries.length := by
      rw [AsyncCache.expiredKeys,List.length_map]
      exact List.length_filter_le _ _
    have hless := h.expirations
    refine ⟨h.entries,h.config,h.kept,h.expirations,_,hset _,hnext,?_⟩
    change 2*_+2 ≤ left+1 at hleft
    change sectionsLeft _ (cleanUp (s.cache.expiredKeys now) (some write)) ≤ left
    omega
  | erasingEntry key keys hkey hkeys =>
    have hsame : s.cache.entries.erase key = s.cache.entries := erase_absent hkey
    refine ⟨hsame.trans h.entries,h.config,h.kept,h.expirations,_,hset _,
      .erasingExpiry key keys ?_,?_⟩
    · change ∀ k ∈ keys, k ∉ s.cache.entries.erase key
      rwa [hsame]
    · change 2*keys.length+3 ≤ left+1 at hleft
      change 2*keys.length+2 ≤ left
      omega
  | erasingExpiry key keys hkeys =>
    obtain ⟨hnext,hn⟩ := cleanUp_refusing (c := s.cache.eraseExpiry key) last
      write hkeys s₀.cache.expirations.entries.length
    refine ⟨h.entries,h.config,h.kept,?_,_,hset _,hnext,?_⟩
    · refine le_trans ?_ h.expirations
      exact (List.kerase_sublist key s.cache.expirations.entries).length_le
    · change 2*keys.length+2 ≤ left+1 at hleft
      change sectionsLeft _ (cleanUp keys (some write)) ≤ left
      omega
  | rechecking =>
    refine ⟨h.entries,h.config,h.kept,h.expirations,_,hset _,?_,?_⟩
    · rw [phaseAfter,if_pos hfull]
      exact .returned
    · rw [phaseAfter,if_pos hfull]
      exact Nat.zero_le _
  | returned =>
    exact ⟨h.entries,h.config,h.kept,h.expirations,_,hset _,.returned,Nat.zero_le _⟩

theorem refused_more {write : Write Value} {call last left left' : ℕ} {s₀ s : AsyncSystem Value}
    (h : Refused write call last left s₀ s) (hle : left ≤ left') :
    Refused write call last left' s₀ s := by
  obtain ⟨phase,hphase,hrefusing,hleft⟩ := h.phase
  exact ⟨h.entries,h.config,h.kept,h.expirations,phase,hphase,hrefusing,hleft.trans hle⟩

theorem step_now (s : AsyncSystem Value) (call : ℕ) : (s.step json call).now = s.now := by
  unfold step
  split
  · rfl
  · next phase _ =>
    cases phase with
    | erasingExpiry key afterwards => cases afterwards <;> rfl
    | _ => rfl

/-- However long the pauses, as long as no entry expires in them. -/
theorem alone_refused {write : Write Value} {call last : ℕ} {s₀ : AsyncSystem Value}
    (hfull : s₀.cache.isFull = true) (pauses : List ℕ) {left : ℕ} {s : AsyncSystem Value}
    (h : Refused write call last left s₀ s) (hnow : s.now+pauses.sum ≤ last) :
    Refused write call last (left-pauses.length) s₀ (run (next json) (alone call pauses) s) := by
  induction pauses generalizing s left with
  | nil => exact h
  | cons pause pauses ih =>
    rw [List.sum_cons] at hnow
    have hwaited : Refused write call last (left-1+1) s₀ {s with now := s.now+pause} := by
      obtain ⟨hentries,hconfig,hkept,hexpirations,hphase⟩ := refused_more h
        (show left ≤ left-1+1 by omega)
      exact ⟨hentries,hconfig,hkept,hexpirations,hphase⟩
    have hstill : AsyncCache.isFull s.cache = true := by
      rw [AsyncCache.isFull,h.entries,h.config]
      exact hfull
    have hstep := effect_refused json hwaited hstill (show s.now+pause ≤ last by omega)
    have hrest := ih hstep (by rw [step_now]; change s.now+pause+pauses.sum ≤ last; omega)
    rw [List.length_cons,Nat.add_comm pauses.length,← Nat.sub_sub]
    exact hrest

theorem set_refused {s : AsyncSystem Value} {write : Write Value} {last : ℕ}
    (hfull : s.cache.isFull = true) (hlive : s.cache.Live last) :
    Refused write s.calls.length last (2*s.cache.expirations.entries.length+3) (s.set write)
      (s.set write) := by
  refine ⟨rfl,rfl,rfl,le_rfl,.readingClock write,?_,.readingClock hlive,le_rfl⟩
  rw [set,if_pos hfull]
  exact List.getElem?_concat_length

theorem returned_of_none {c : AsyncCache} {last n : ℕ} {write : Write Value} {phase : Phase Value}
    (h : Refusing c last write phase) (hleft : sectionsLeft n phase = 0) : phase = .returned := by
  cases h with
  | returned => rfl
  | _ => cases hleft

end AsyncSystem

/-- In a full cache of live entries no write of a stored key succeeds, neither in one
piece nor as the only call that runs: it returns, and the entries are as they were. -/
theorem full_refuses_overwrite :
    (∀ {V : Type} (json : Json V) (b : BasicCache) (cleanupNow now : ℕ) (key : String) (value : V)
      (ttlSeconds : ℕ), b.isFull = true → b.Live cleanupNow → key ∈ b.entries →
      ¬BasicCache.Overwrites json b cleanupNow now key value ttlSeconds ∧
      (b.set json cleanupNow now key value ttlSeconds).2.entries = b.entries) ∧
    ∀ (json : (kind : Kind) → Json (Value kind)) (s : AsyncSystem Value) (write : Write Value)
      (pauses : List ℕ), s.cache.isFull = true → s.cache.Live (s.now+pauses.sum) →
      write.key ∈ s.cache.entries →
      let s' := run (AsyncSystem.next json) (AsyncSystem.alone s.calls.length pauses) (s.set write)
      ¬s'.Promised write.key ∧ s'.cache.entries = s.cache.entries ∧
        (2*s.cache.expirations.entries.length+3 ≤ pauses.length →
          s'.calls[s.calls.length]? = some .returned) := by
  constructor
  · intro V json b cleanupNow now key value ttlSeconds hfull hlive _
    rw [BasicCache.Overwrites,BasicCache.set_full json hfull hlive]
    refine ⟨?_,BasicCache.makeRoom_live hlive⟩
    rintro ⟨hok,_⟩
    cases hok
  · intro json s write pauses hfull hlive _
    have hfull' : (s.set write).cache.isFull = true := hfull
    have h := AsyncSystem.alone_refused json hfull' pauses
      (AsyncSystem.set_refused hfull hlive) le_rfl
    refine ⟨?_,h.entries,?_⟩
    · rintro ⟨p,hp,hkey⟩
      rw [h.kept] at hp
      have hvoid := (List.mem_filter.mp hp).2
      simp [hkey] at hvoid
    · intro hlong
      obtain ⟨phase,hphase,hrefusing,hleft⟩ := h.phase
      change AsyncSystem.sectionsLeft s.cache.expirations.entries.length phase ≤ _ at hleft
      rw [hphase,AsyncSystem.returned_of_none (n := s.cache.expirations.entries.length)
        hrefusing (by omega)]

def oneFlag : BasicCache where
  entries := (∅ : AList fun _ : String => String).insert "flag" "true"
  expirations := (∅ : AList fun _ : String => ℕ).insert "flag" 10
  config := ⟨300,1,3600⟩

def oneFlagShared : AsyncSystem fun _ : Unit => Bool where
  cache := ⟨oneFlag.entries,oneFlag.expirations,oneFlag.config⟩
  now := 0
  calls := []
  kept := []
  reads := []

theorem full_refuses_counterexample :
    (¬∀ (b : BasicCache) (cleanupNow now : ℕ) (key : String) (value : Bool) (ttlSeconds : ℕ),
      b.isFull = true → b.Live cleanupNow → key ∈ b.entries →
      b.Overwrites Json.bool cleanupNow now key value ttlSeconds) ∧
    ¬∀ (s : AsyncSystem fun _ : Unit => Bool) (write : Write fun _ : Unit => Bool)
      (pauses : List ℕ), s.cache.isFull = true → s.cache.Live (s.now+pauses.sum) →
      write.key ∈ s.cache.entries →
      let s' := run (AsyncSystem.next fun _ => Json.bool)
        (AsyncSystem.alone s.calls.length pauses) (s.set write)
      s'.calls[s.calls.length]? = some .returned → s'.Promised write.key := by
  have hlive : oneFlag.Live 0 := by
    intro key hkey
    rw [oneFlag,AList.mem_insert] at hkey
    rcases hkey with rfl | hkey
    · rfl
    · exact absurd hkey (AList.notMem_empty key)
  constructor
  · intro h
    have hok := (h oneFlag 0 0 "flag" false 5 rfl hlive ((AList.mem_insert _).mpr (Or.inl rfl))).1
    cases hok
  · intro h
    obtain ⟨p,hp,_⟩ := h oneFlagShared ⟨"flag",(),false,5⟩ [0,0,0] rfl hlive
      ((AList.mem_insert _).mpr (Or.inl rfl)) rfl
    cases hp

end DiamondBot.Common
