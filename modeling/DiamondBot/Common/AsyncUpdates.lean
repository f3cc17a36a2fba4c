import DiamondBot.Common.AsyncCache

/-!
# Updates under way through the asynchronous cache

A read or a cleanup decides to remove a key in one section and removes it in
later ones, so it may remove what was written in between; and a write under way
may store over one that succeeded before it. The promises of successful writes
are kept exactly when no such section meets a promise that still counts.
-/

set_option autoImplicit false

namespace DiamondBot.Common.AsyncSystem
open Library

variable {Kind : Type} {Value : Kind → Type} (json : (kind : Kind) → Json (Value kind))

/-! ## Promises and what keeps them -/

def Readable (s : AsyncSystem Value) (p : Promise Value) : Prop :=
  ∀ time, s.now ≤ time → time ≤ p.last →
    s.cache.getAlone (json p.kind) time p.key = .ok (some p.value)

def ReadRight (r : Read Value) : Prop :=
  ∀ p ∈ r.held, p ∈ r.kept → p.key = r.key → r.time ≤ p.last →
    BasicCache.readText (json p.kind) r.text = .ok (some p.value)

/-- No update is lost: every read so far has returned the value it had to, and
so would a read made now. -/
def NoUpdateLost (s : AsyncSystem Value) : Prop :=
  (∀ p ∈ s.kept, s.Readable json p) ∧ ∀ r ∈ s.reads, ReadRight json r

def PromisesAt (s : AsyncSystem Value) (key : String) (P : Promise Value → Prop) : Prop :=
  ∀ p ∈ s.kept, p.key = key → s.now ≤ p.last → P p

def TextOf (p : Promise Value) (jsonStr : String) : Prop :=
  (json p.kind).fromText jsonStr = .ok p.value

def SparesPhase (s : AsyncSystem Value) : Phase Value → Prop
  | .erasingEntry key _ => s.PromisesAt key fun _ => False
  | .erasingExpiry key _ => s.PromisesAt key fun _ => False
  | .clearingExpiries => ∀ key, s.PromisesAt key fun _ => False
  | .storingEntry write jsonStr _ => s.PromisesAt write.key fun p => TextOf json p jsonStr
  | .storingExpiry write expiresAt =>
    (s.PromisesAt write.key fun p => p.last ≤ expiresAt) ∧
    (s.now ≤ expiresAt → ∃ jsonStr, s.cache.entries.lookup write.key = some jsonStr ∧
      (json write.kind).fromText jsonStr = .ok write.value)
  | _ => True

def Spares (s : AsyncSystem Value) : AsyncAction Value → Prop
  | .step call => ∀ phase, s.calls[call]? = some phase → s.SparesPhase json phase
  | _ => True

/-! ## What a promise needs of the two maps -/

def Stored (c : AsyncCache) (p : Promise Value) : Prop :=
  ∃ jsonStr expiresAt, c.entries.lookup p.key = some jsonStr ∧ TextOf json p jsonStr ∧
    c.expirations.lookup p.key = some expiresAt ∧ p.last ≤ expiresAt

variable {json}

theorem readText_some {V : Type} {j : Json V} {text : Option String} {value : V} :
    BasicCache.readText j text = .ok (some value) ↔
      ∃ jsonStr, text = some jsonStr ∧ j.fromText jsonStr = .ok value := by
  cases text with
  | none => simp [BasicCache.readText]
  | some jsonStr =>
    cases h : j.fromText jsonStr with
    | ok v => simp [BasicCache.readText,h]
    | error e => simp [BasicCache.readText,h]

theorem getAlone_some {V : Type} {j : Json V} {c : AsyncCache} {now : ℕ} {key : String}
    {value : V} : c.getAlone j now key = .ok (some value) ↔
      ∃ jsonStr expiresAt, c.entries.lookup key = some jsonStr ∧ j.fromText jsonStr = .ok value ∧
        c.expirations.lookup key = some expiresAt ∧ now ≤ expiresAt := by
  unfold AsyncCache.getAlone AsyncCache.isExpired
  cases c.expirations.lookup key with
  | none => simp
  | some expiresAt =>
    by_cases hlt : expiresAt < now
    · simp only [hlt,decide_true,if_true]
      constructor
      · rintro ⟨⟩
      · rintro ⟨jsonStr,e,_,_,⟨⟩,hle⟩
        omega
    · simp only [hlt,decide_false,Bool.false_eq_true,if_false,readText_some]
      constructor
      · rintro ⟨jsonStr,htext,hvalue⟩
        exact ⟨jsonStr,expiresAt,htext,hvalue,rfl,not_lt.mp hlt⟩
      · rintro ⟨jsonStr,e,htext,hvalue,_,_⟩
        exact ⟨jsonStr,htext,hvalue⟩

theorem readable_iff {s : AsyncSystem Value} {p : Promise Value} :
    s.Readable json p ↔ (s.now ≤ p.last → Stored json s.cache p) := by
  constructor
  · intro h hlast
    exact getAlone_some.mp (h p.last hlast le_rfl)
  · intro h time hnow htime
    obtain ⟨jsonStr,expiresAt,htext,hvalue,hexpiry,hle⟩ := h (hnow.trans htime)
    exact getAlone_some.mpr ⟨jsonStr,expiresAt,htext,hvalue,hexpiry,htime.trans hle⟩

theorem stored_congr {c c' : AsyncCache} {p : Promise Value}
    (hentry : c'.entries.lookup p.key = c.entries.lookup p.key)
    (hexpiry : c'.expirations.lookup p.key = c.expirations.lookup p.key) :
    Stored json c' p ↔ Stored json c p := by
  unfold Stored
  rw [hentry,hexpiry]

theorem isExpired_of_stored {c : AsyncCache} {p : Promise Value} {now : ℕ}
    (h : Stored json c p) (hlast : now ≤ p.last) : c.isExpired now p.key = false := by
  obtain ⟨jsonStr,expiresAt,_,_,hexpiry,hle⟩ := h
  unfold AsyncCache.isExpired
  rw [hexpiry]
  exact decide_eq_false (Nat.not_lt_of_le (hlast.trans hle))

/-! ## One section -/

theorem readable_change_iff {s : AsyncSystem Value} {c : AsyncCache} {key : String}
    {P : Promise Value → Prop} (hkept : ∀ p ∈ s.kept, s.Readable json p)
    (hother : ∀ p, p.key ≠ key → (Stored json c p ↔ Stored json s.cache p))
    (hsame : ∀ p, p.key = key → Stored json s.cache p → (Stored json c p ↔ P p)) :
    (∀ p ∈ s.kept, ({ s with cache := c } : AsyncSystem Value).Readable json p) ↔
      s.PromisesAt key P := by
  unfold PromisesAt
  apply forall₂_congr
  intro p hp
  have hold := readable_iff.mp (hkept p hp)
  rw [readable_iff]
  constructor
  · intro hnew hkey hlast
    exact (hsame p hkey (hold hlast)).mp (hnew hlast)
  · intro hP hlast
    by_cases hkey : p.key = key
    · exact (hsame p hkey (hold hlast)).mpr (hP hkey hlast)
    · exact (hother p hkey).mpr (hold hlast)

theorem eraseEntry_iff {s : AsyncSystem Value} (hkept : ∀ p ∈ s.kept, s.Readable json p)
    (key : String) : (∀ p ∈ s.kept,
      ({ s with cache := s.cache.eraseEntry key } : AsyncSystem Value).Readable json p) ↔
      s.PromisesAt key fun _ => False := by
  apply readable_change_iff hkept
  · intro p hp
    exact stored_congr (AList.lookup_erase_ne hp) rfl
  · rintro p rfl _
    apply iff_of_false _ not_false
    rintro ⟨jsonStr,_,htext,_⟩
    rw [AsyncCache.eraseEntry,AList.lookup_erase] at htext
    cases htext

theorem eraseExpiry_iff {s : AsyncSystem Value} (hkept : ∀ p ∈ s.kept, s.Readable json p)
    (key : String) : (∀ p ∈ s.kept,
      ({ s with cache := s.cache.eraseExpiry key } : AsyncSystem Value).Readable json p) ↔
      s.PromisesAt key fun _ => False := by
  apply readable_change_iff hkept
  · intro p hp
    exact stored_congr rfl (AList.lookup_erase_ne hp)
  · rintro p rfl _
    apply iff_of_false _ not_false
    rintro ⟨_,expiresAt,_,_,hexpiry,_⟩
    rw [AsyncCache.eraseExpiry,AList.lookup_erase] at hexpiry
    cases hexpiry

theorem clearExpiries_iff {s : AsyncSystem Value} : (∀ p ∈ s.kept,
      ({ s with cache := s.cache.clearExpiries } : AsyncSystem Value).Readable json p) ↔
      ∀ key, s.PromisesAt key fun _ => False := by
  constructor
  · intro h key p hp _ hlast
    obtain ⟨_,expiresAt,_,_,hexpiry,_⟩ := readable_iff.mp (h p hp) hlast
    rw [AsyncCache.clearExpiries,AList.lookup_empty] at hexpiry
    cases hexpiry
  · intro h p hp
    exact readable_iff.mpr fun hlast => (h p.key p hp rfl hlast).elim

theorem insertEntry_iff {s : AsyncSystem Value} (hkept : ∀ p ∈ s.kept, s.Readable json p)
    (key jsonStr : String) : (∀ p ∈ s.kept,
      ({ s with cache := s.cache.insertEntry key jsonStr } : AsyncSystem Value).Readable json p) ↔
      s.PromisesAt key fun p => TextOf json p jsonStr := by
  apply readable_change_iff hkept
  · intro p hp
    exact stored_congr (AList.lookup_insert_ne hp) rfl
  · rintro p rfl ⟨_,expiresAt,_,_,hexpiry,hle⟩
    unfold Stored AsyncCache.insertEntry
    rw [AList.lookup_insert]
    constructor
    · rintro ⟨_,_,⟨⟩,hvalue,_⟩
      exact hvalue
    · intro hvalue
      exact ⟨jsonStr,expiresAt,rfl,hvalue,hexpiry,hle⟩

theorem insertExpiry_iff {s : AsyncSystem Value} (hkept : ∀ p ∈ s.kept, s.Readable json p)
    (key : String) (expiresAt : ℕ) : (∀ p ∈ s.kept,
      ({ s with cache := s.cache.insertExpiry key expiresAt } : AsyncSystem Value).Readable json p) ↔
      s.PromisesAt key fun p => p.last ≤ expiresAt := by
  apply readable_change_iff hkept
  · intro p hp
    exact stored_congr rfl (AList.lookup_insert_ne hp)
  · rintro p rfl ⟨jsonStr,_,htext,hvalue,_⟩
    unfold Stored AsyncCache.insertExpiry
    rw [AList.lookup_insert]
    constructor
    · rintro ⟨_,_,_,_,⟨⟩,hle⟩
      exact hle
    · intro hle
      exact ⟨jsonStr,expiresAt,htext,hvalue,rfl,hle⟩

theorem promised_iff {s : AsyncSystem Value} {p : Promise Value} :
    ({ s with cache := s.cache.insertExpiry p.key p.last } : AsyncSystem Value).Readable json p ↔
      (s.now ≤ p.last → ∃ jsonStr, s.cache.entries.lookup p.key = some jsonStr ∧
        TextOf json p jsonStr) := by
  rw [readable_iff]
  apply imp_congr_right
  intro _
  unfold Stored AsyncCache.insertExpiry
  rw [AList.lookup_insert]
  constructor
  · rintro ⟨jsonStr,_,htext,hvalue,_⟩
    exact ⟨jsonStr,htext,hvalue⟩
  · rintro ⟨jsonStr,htext,hvalue⟩
    exact ⟨jsonStr,p.last,htext,hvalue,rfl,le_rfl⟩

def HeldExpired (s : AsyncSystem Value) : Phase Value → Prop
  | .erasingEntry _ (.readNothing held) => ∀ p ∈ held, p.last < s.now
  | .erasingExpiry _ (.readNothing held) => ∀ p ∈ held, p.last < s.now
  | _ => True

theorem readRight_append {s : AsyncSystem Value} (h : ∀ r ∈ s.reads, ReadRight json r)
    {key : String} {held : List (Promise Value)} {text : Option String}
    (hr : ReadRight json ⟨key,text,held,s.kept,s.now⟩) :
    ∀ r ∈ (s.finishRead key held text).reads, ReadRight json r := by
  intro r hmem
  rcases List.mem_append.mp hmem with hmem | hmem
  · exact h r hmem
  · rw [List.mem_singleton.mp hmem]
    exact hr

/-- A section loses no update exactly when it spares the promises. -/
theorem effect_iff {s : AsyncSystem Value} (h : s.NoUpdateLost json) (call : ℕ)
    {phase : Phase Value} (hheld : s.HeldExpired phase) :
    (s.effect call phase).NoUpdateLost json ↔ s.SparesPhase json phase := by
  obtain ⟨hkept,hreads⟩ := h
  cases phase with
  | reading key held =>
    refine iff_of_true ⟨hkept,readRight_append hreads ?_⟩ trivial
    rintro p _ hp rfl hlast
    obtain ⟨jsonStr,_,htext,hvalue,_⟩ := readable_iff.mp (hkept p hp) hlast
    exact readText_some.mpr ⟨jsonStr,htext,hvalue⟩
  | erasingEntry key afterwards =>
    exact (and_iff_left hreads).trans (eraseEntry_iff hkept key)
  | erasingExpiry key afterwards =>
    have hnone : ∀ held, afterwards = .readNothing held →
        ReadRight json ⟨key,none,held,s.kept,s.now⟩ := by
      rintro held rfl p hp _ _ hlast
      exact absurd hlast (Nat.not_le_of_lt (hheld p hp))
    cases afterwards with
    | readNothing held =>
      have hreads' := readRight_append hreads (hnone held rfl)
      exact (and_iff_left hreads').trans (eraseExpiry_iff hkept key)
    | finish => exact (and_iff_left hreads).trans (eraseExpiry_iff hkept key)
    | cleanUp keys forWrite => exact (and_iff_left hreads).trans (eraseExpiry_iff hkept key)
  | clearingExpiries => exact (and_iff_left hreads).trans clearExpiries_iff
  | storingEntry write jsonStr expiresAt =>
    exact (and_iff_left hreads).trans (insertEntry_iff hkept write.key jsonStr)
  | storingExpiry write expiresAt =>
    refine (and_iff_left hreads).trans ?_
    change (∀ p ∈ s.kept++[_], _) ↔ _
    rw [List.forall_mem_append,List.forall_mem_singleton]
    exact and_congr (insertExpiry_iff hkept write.key expiresAt)
      (promised_iff (p := ⟨call,write.key,write.kind,write.value,expiresAt⟩))
  | _ => exact iff_of_true ⟨hkept,hreads⟩ trivial

/-! ## One step -/

def Decided (s : AsyncSystem Value) : Prop := ∀ phase ∈ s.calls, s.HeldExpired phase

theorem heldExpired_later {s s' : AsyncSystem Value} (hnow : s.now ≤ s'.now)
    {phase : Phase Value} (h : s.HeldExpired phase) : s'.HeldExpired phase := by
  unfold HeldExpired at h ⊢
  split
  · exact fun p hp => (h p hp).trans_le hnow
  · exact fun p hp => (h p hp).trans_le hnow
  · trivial

theorem decided_enter {s s' : AsyncSystem Value} (h : s.Decided) (hnow : s'.now = s.now)
    (phase : Phase Value) (hcalls : s'.calls = s.calls++[phase]) (hphase : s.HeldExpired phase) :
    s'.Decided := by
  intro phase' hmem
  rw [hcalls] at hmem
  rcases List.mem_append.mp hmem with hmem | hmem
  · exact heldExpired_later hnow.ge (h phase' hmem)
  · rw [List.mem_singleton.mp hmem]
    exact heldExpired_later hnow.ge hphase

theorem cleanUp_heldExpired (s : AsyncSystem Value) (keys : List String)
    (forWrite : Option (Write Value)) : s.HeldExpired (cleanUp keys forWrite) := by
  cases keys with
  | nil => cases forWrite <;> trivial
  | cons key rest => trivial

theorem phaseAfter_heldExpired {s : AsyncSystem Value} {phase : Phase Value}
    (h : s.HeldExpired phase) : s.HeldExpired (s.phaseAfter json phase) := by
  cases phase with
  | erasingEntry key afterwards => cases afterwards <;> exact h
  | erasingExpiry key afterwards =>
    cases afterwards with
    | cleanUp keys forWrite => exact cleanUp_heldExpired s keys forWrite
    | _ => trivial
  | collecting now forWrite => exact cleanUp_heldExpired s _ forWrite
  | rechecking write =>
    change s.HeldExpired (if s.cache.isFull then .returned else .serializing write)
    split <;> trivial
  | serializing write =>
    change s.HeldExpired (serialize json s.now write)
    unfold serialize
    split <;> trivial
  | _ => trivial

theorem effect_now (s : AsyncSystem Value) (call : ℕ) (phase : Phase Value) :
    (s.effect call phase).now = s.now := by
  cases phase with
  | erasingExpiry key afterwards => cases afterwards <;> rfl
  | _ => rfl

theorem step_decided {s : AsyncSystem Value} (h : s.Decided) (call : ℕ) :
    (s.step json call).Decided := by
  unfold step
  split
  · exact h
  · rename_i phase hphase
    have hnow : s.now ≤ (s.effect call phase).now := (effect_now s call phase).ge
    intro phase' hmem
    rcases List.mem_or_eq_of_mem_set hmem with hmem | rfl
    · exact heldExpired_later hnow (h phase' hmem)
    · exact heldExpired_later hnow
        (phaseAfter_heldExpired (h phase (List.mem_of_getElem? hphase)))

theorem get_decided {s : AsyncSystem Value} (hkept : ∀ p ∈ s.kept, s.Readable json p)
    (h : s.Decided) (key : String) : (s.get key).Decided := by
  unfold get
  split
  · rename_i hexpired
    refine decided_enter h rfl _ rfl fun p hp => ?_
    obtain ⟨hmem,hkey⟩ := List.mem_filter.mp hp
    by_contra hlast
    rw [not_lt] at hlast
    have hfresh := isExpired_of_stored (readable_iff.mp (hkept p hmem) hlast) hlast
    rw [of_decide_eq_true hkey,hexpired] at hfresh
    cases hfresh
  · exact decided_enter h rfl _ rfl trivial

theorem next_decided {s : AsyncSystem Value} (a : AsyncAction Value) (h : s.Decided)
    (hkept : ∀ p ∈ s.kept, s.Readable json p) : (s.next json a).Decided := by
  cases a with
  | get key => exact get_decided hkept h key
  | set write =>
    refine decided_enter h rfl _ rfl ?_
    split <;> trivial
  | remove key => exact decided_enter h rfl (.erasingExpiry key .finish) rfl trivial
  | clear => exact decided_enter h rfl .clearingExpiries rfl trivial
  | cleanup => exact decided_enter h rfl (.collecting s.now none) rfl trivial
  | step call => exact step_decided h call
  | wait duration =>
    exact fun phase hmem => heldExpired_later (Nat.le_add_right _ _) (h phase hmem)

theorem get_noUpdateLost {s : AsyncSystem Value} (h : s.NoUpdateLost json) (key : String) :
    (s.get key).NoUpdateLost json := by
  unfold get
  split
  · exact h
  · exact h

theorem step_noUpdateLost_iff {s : AsyncSystem Value} (hs : s.Decided)
    (h : s.NoUpdateLost json) (call : ℕ) :
    (s.step json call).NoUpdateLost json ↔ s.Spares json (.step call) := by
  unfold step Spares
  cases hphase : s.calls[call]? with
  | none =>
    refine iff_of_true h fun phase hsome => ?_
    rw [hphase] at hsome
    cases hsome
  | some phase =>
    refine (effect_iff h call (hs phase (List.mem_of_getElem? hphase))).trans ?_
    constructor
    · intro hspares phase' hsome
      rw [hphase] at hsome
      cases hsome
      exact hspares
    · exact fun hspares => hspares phase hphase

theorem next_noUpdateLost_iff {s : AsyncSystem Value} (a : AsyncAction Value) (hs : s.Decided)
    (h : s.NoUpdateLost json) : (s.next json a).NoUpdateLost json ↔ s.Spares json a := by
  cases a with
  | get key => exact iff_of_true (get_noUpdateLost h key) trivial
  | set write =>
    exact iff_of_true ⟨fun p hp => h.1 p (List.mem_of_mem_filter hp),h.2⟩ trivial
  | remove key =>
    refine iff_of_true ⟨fun p hp => ?_,h.2⟩ trivial
    obtain ⟨hp,hkey⟩ := List.mem_filter.mp hp
    have hkey : p.key ≠ key := of_decide_eq_true hkey
    have hstored : Stored json (s.cache.eraseEntry key) p ↔ Stored json s.cache p :=
      stored_congr (AList.lookup_erase_ne hkey) rfl
    exact readable_iff.mpr fun hlast => hstored.mpr (readable_iff.mp (h.1 p hp) hlast)
  | clear => exact iff_of_true ⟨fun p hp => (nomatch hp),h.2⟩ trivial
  | cleanup => exact iff_of_true h trivial
  | step call =>
    exact step_noUpdateLost_iff hs h call
  | wait duration =>
    refine iff_of_true ⟨fun p hp time hnow => ?_,h.2⟩ trivial
    exact h.1 p hp time ((Nat.le_add_right _ _).trans hnow)

/-! ## All runs -/

/-- In every interleaving of the sections of any calls no update is lost
exactly when every section spares the promises in force. -/
theorem no_update_lost_iff (json : (kind : Kind) → Json (Value kind))
    (config : Option CacheConfig) (now : ℕ) (actions : List (AsyncAction Value)) :
    AtomicRun.Throughout (next json) (NoUpdateLost json) actions (start config now) ↔
      AtomicRun.Along (next json) (Spares json) actions (start config now) := by
  apply AtomicRun.throughout_iff_along_of (J := Decided) (A := fun _ _ => True)
  · exact fun s a hs h _ => next_decided a hs h.1
  · exact fun s a hs h _ => next_noUpdateLost_iff a hs h
  · exact fun phase hmem => nomatch hmem
  · exact ⟨fun p hp => (nomatch hp),fun r hr => (nomatch hr)⟩
  · exact AtomicRun.along_trivial actions _

def readMeetsWrite : List (AsyncAction fun _ : Unit => Bool) := [
  .get "flag",.set ⟨"flag",(),true,60⟩,.step 1,.step 1,.step 1,.step 0,.get "flag",.step 2]

theorem written_flag_lost : ∃ r ∈ (AtomicRun.run (next fun _ : Unit => Json.bool)
    readMeetsWrite (start none 0)).reads, ∃ p ∈ r.held, p ∈ r.kept ∧ p.key = r.key ∧
      r.time ≤ p.last ∧ p.value = true ∧
      BasicCache.readText Json.bool r.text ≠ .ok (some true) := by
  have hreads : (AtomicRun.run (next fun _ : Unit => Json.bool) readMeetsWrite
      (start none 0)).reads =
        [⟨"flag",none,[⟨1,"flag",(),true,60⟩],[⟨1,"flag",(),true,60⟩],0⟩] := rfl
  rw [hreads]
  refine ⟨_,List.mem_singleton_self _,_,List.mem_singleton_self _,
    List.mem_singleton_self _,rfl,Nat.zero_le _,rfl,?_⟩
  exact fun h => nomatch h

end DiamondBot.Common.AsyncSystem
