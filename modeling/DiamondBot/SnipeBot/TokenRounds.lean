import DiamondBot.Library.AtomicRun
import DiamondBot.Library.Completions
import DiamondBot.SnipeBot.TokenStatus

/-!
# Rounds that update all tracked tokens

A round starts one task for each tracked token and takes in what the tasks bring
until all ended or the time is up: a new status each, or an error. Then it gives
up the tokens that were not updated for a day, and the oldest of what is still
too many.
-/

set_option autoImplicit false

namespace DiamondBot.TokenTracking
open Library AtomicRun Completions

variable {Rest Alert Callback : Type}

abbrev Arrival (Rest : Type) := String × Option (TokenStatus Rest)

structure Round (Rest Alert Callback : Type) where
  tokens : Tracked Rest
  alerts : List Alert
  notified : List (Callback × Alert)

/-- Whether a change of status is worth an alert; the code for it is not there. -/
abbrev CheckPriceAlert (Rest Alert : Type) :=
  String → TokenStatus Rest → TokenStatus Rest → Option Alert

section Rounds

variable (checkPriceAlert : CheckPriceAlert Rest Alert) (alertCallbacks : List Callback)

/-- `old` holds the statuses from when the tasks were started. -/
def onArrival (old : Tracked Rest) (round : Round Rest Alert Callback) :
    Arrival Rest → Round Rest Alert Callback
  | (_,none) => round
  | (address,some newStatus) =>
    let round := { round with tokens := round.tokens.insert address newStatus }
    match (old.lookup address).bind fun oldStatus =>
      checkPriceAlert address oldStatus newStatus with
    | none => round
    | some alert => { round with
        alerts := round.alerts++[alert]
        notified := round.notified++alertCallbacks.map fun callback => (callback,alert) }

def collect (old : Tracked Rest) (arrivals : List (Arrival Rest))
    (round : Round Rest Alert Callback) : Round Rest Alert Callback :=
  arrivals.foldl (onArrival checkPriceAlert alertCallbacks old) round

def capTokens (tracker : TokenStatusTracker Rest) : Except String (TokenStatusTracker Rest) :=
  if size tracker.trackedTokens > 1000 then (tracker.reduceCacheSize 1000).map (·.2)
  else .ok tracker

def updateAllTokens (tracker : TokenStatusTracker Rest) (arrivals : List (Arrival Rest))
    (currentTime : ℕ) :
    Except String (List Alert × List (Callback × Alert) × TokenStatusTracker Rest) := do
  let round := collect checkPriceAlert alertCallbacks tracker.trackedTokens arrivals
    ⟨tracker.trackedTokens,[],[]⟩
  let (_,tracker) ← TokenStatusTracker.cleanupOldTokens ⟨round.tokens⟩ currentTime (24*3600)
  let tracker ← capTokens tracker
  .ok (round.alerts,round.notified,tracker)

def updates (arrivals : List (Arrival Rest)) : List (String × TokenStatus Rest) :=
  arrivals.filterMap fun arrival => arrival.2.map fun status => (arrival.1,status)

def alertOf (old : Tracked Rest) (update : String × TokenStatus Rest) : Option Alert :=
  (old.lookup update.1).bind fun oldStatus => checkPriceAlert update.1 oldStatus update.2

theorem collect_eq (old : Tracked Rest) (arrivals : List (Arrival Rest))
    (round : Round Rest Alert Callback) :
    collect checkPriceAlert alertCallbacks old arrivals round =
      ⟨deliver round.tokens (updates arrivals),
        round.alerts++(updates arrivals).filterMap (alertOf checkPriceAlert old),
        round.notified++((updates arrivals).filterMap (alertOf checkPriceAlert old)).flatMap
          fun alert => alertCallbacks.map fun callback => (callback,alert)⟩ := by
  induction arrivals generalizing round with
  | nil => simp [collect,updates,deliver]
  | cons arrival arrivals ih =>
    obtain ⟨address,brought⟩ := arrival
    change collect checkPriceAlert alertCallbacks old arrivals
      (onArrival checkPriceAlert alertCallbacks old round (address,brought)) = _
    rw [ih]
    cases brought with
    | none => rfl
    | some newStatus =>
      have hupdates : updates ((address,some newStatus)::arrivals) =
          (address,newStatus)::updates arrivals := rfl
      rw [hupdates,deliver_cons]
      cases halert : alertOf checkPriceAlert old (address,newStatus) with
      | none =>
        rw [List.filterMap_cons_none halert]
        simp only [alertOf] at halert
        simp only [onArrival,halert]
      | some alert =>
        rw [List.filterMap_cons_some halert]
        simp only [alertOf] at halert
        simp only [onArrival,halert,List.flatMap_cons,List.append_assoc,List.singleton_append]

/-- What a round keeps of the tokens it has collected. -/
structure Kept (tokens left : Tracked Rest) (currentTime : ℕ) : Prop where
  same : ∀ a ∈ left, a ∈ tokens ∧ left.lookup a = tokens.lookup a
  fresh : ∀ a ∈ left, ∀ status, tokens.lookup a = some status →
    TokenStatusTracker.tooOld currentTime (24*3600) status = false
  size_le : size left ≤ 1000
  all : size tokens ≤ 1000 → ∀ a status, tokens.lookup a = some status →
    TokenStatusTracker.tooOld currentTime (24*3600) status = false → a ∈ left
  oldest : ∀ kept ∈ left, ∀ gone status, tokens.lookup gone = some status →
    TokenStatusTracker.tooOld currentTime (24*3600) status = false → gone ∉ left →
    TokenStatusTracker.timeOf tokens gone ≤ TokenStatusTracker.timeOf tokens kept

theorem timeOf_same {tokens left : Tracked Rest} {a : String}
    (h : left.lookup a = tokens.lookup a) :
    TokenStatusTracker.timeOf left a = TokenStatusTracker.timeOf tokens a := by
  rw [TokenStatusTracker.timeOf,h]
  rfl

theorem cleanedUp_iff {tokens left : Tracked Rest} {currentTime maxAgeSeconds removed : ℕ}
    (h : TokenStatusTracker.CleanedUp tokens left currentTime maxAgeSeconds removed) {a : String}
    {status : TokenStatus Rest} (hstatus : tokens.lookup a = some status) :
    a ∈ left ↔ TokenStatusTracker.tooOld currentTime maxAgeSeconds status = false := by
  have ha : a ∈ tokens := AList.lookup_isSome.mp (by rw [hstatus]; rfl)
  rw [h.mem_iff,← Bool.not_eq_true,TokenStatusTracker.tooOld_iff,hstatus]
  constructor
  · rintro ⟨_,hnot⟩ ⟨lastUpdated,htime⟩
    exact hnot ⟨status,lastUpdated,rfl,htime⟩
  · rintro hnot
    refine ⟨ha,?_⟩
    rintro ⟨_,lastUpdated,⟨⟩,htime⟩
    exact hnot ⟨lastUpdated,htime⟩

/-- A round succeeds; its alerts and its calls go by the order of arrival. -/
theorem updateAllTokens_ok (tracker : TokenStatusTracker Rest) (arrivals : List (Arrival Rest))
    (currentTime : ℕ) :
    ∃ left, updateAllTokens checkPriceAlert alertCallbacks tracker arrivals currentTime =
        .ok ((updates arrivals).filterMap (alertOf checkPriceAlert tracker.trackedTokens),
          ((updates arrivals).filterMap (alertOf checkPriceAlert tracker.trackedTokens)).flatMap
            fun alert => alertCallbacks.map fun callback => (callback,alert),left) ∧
      Kept (deliver tracker.trackedTokens (updates arrivals)) left.trackedTokens currentTime := by
  obtain ⟨removed,cleaned,hcleanup,hcleaned⟩ := TokenStatusTracker.cleanupOldTokens_cleanedUp
    ⟨deliver tracker.trackedTokens (updates arrivals)⟩ currentTime (24*3600)
  obtain ⟨removed',left,hreduce,hreduced⟩ := TokenStatusTracker.reduceCacheSize_reduced cleaned 1000
  have hsmall : size cleaned.trackedTokens ≤ 1000 → left = cleaned := by
    intro h
    rw [TokenStatusTracker.reduceCacheSize,if_pos h] at hreduce
    cases hreduce
    rfl
  have hleft : capTokens cleaned = .ok left := by
    unfold capTokens
    by_cases h : size cleaned.trackedTokens ≤ 1000
    · rw [if_neg (Nat.not_lt.mpr h),hsmall h]
    · rw [if_pos (Nat.lt_of_not_le h),hreduce]
      rfl
  have hmem : ∀ a ∈ left.trackedTokens, a ∈ cleaned.trackedTokens := fun a ha => by
    rw [← AList.lookup_isSome,← hreduced.same a ha,AList.lookup_isSome]
    exact ha
  refine ⟨left,?_,?_,?_,?_,?_,?_⟩
  · rw [updateAllTokens,collect_eq]
    simp only [hcleanup,List.nil_append,bind,Except.bind,hleft]
  · intro a ha
    exact ⟨((hcleaned.mem_iff a).mp (hmem a ha)).1,
      (hreduced.same a ha).trans (hcleaned.same a (hmem a ha))⟩
  · intro a ha status hstatus
    exact (cleanedUp_iff hcleaned hstatus).mp (hmem a ha)
  · rw [hreduced.size_eq]
    exact Nat.min_le_right _ _
  · intro hsize a status hstatus hfresh
    have hcount : removed+size cleaned.trackedTokens =
        size (deliver tracker.trackedTokens (updates arrivals)) := hcleaned.count
    rw [hsmall (by omega)]
    exact (cleanedUp_iff hcleaned hstatus).mpr hfresh
  · intro kept hkept gone status hstatus hfresh hgone
    have hstill := (cleanedUp_iff hcleaned hstatus).mpr hfresh
    have holder := hreduced.oldest kept hkept gone hstill hgone
    rw [timeOf_same (hcleaned.same gone hstill),
      timeOf_same (hcleaned.same kept (hmem kept hkept))] at holder
    exact holder

/-- Each task ends at most once, and there are tasks for tracked tokens only. -/
structure Arrived (tokens : Tracked Rest) (arrivals : List (Arrival Rest)) : Prop where
  once : (arrivals.map Prod.fst).Nodup
  tracked : ∀ a ∈ arrivals.map Prod.fst, a ∈ tokens

theorem updates_sublist (arrivals : List (Arrival Rest)) :
    ((updates arrivals).map Prod.fst).Sublist (arrivals.map Prod.fst) := by
  induction arrivals with
  | nil => exact List.Sublist.slnil
  | cons arrival arrivals ih =>
    obtain ⟨address,brought⟩ := arrival
    cases brought with
    | none => exact ih.cons address
    | some status => exact ih.cons_cons address

theorem size_insert {tokens : Tracked Rest} {a : String} (ha : a ∈ tokens)
    (status : TokenStatus Rest) : size (tokens.insert a status) = size tokens := by
  have hpos := List.length_pos_of_mem (AList.mem_keys.mp ha)
  rw [size,AList.keys_insert,List.length_cons,List.length_erase_of_mem (AList.mem_keys.mp ha),size]
  omega

theorem size_deliver {tokens : Tracked Rest} {results : List (String × TokenStatus Rest)}
    (h : ∀ a ∈ results.map Prod.fst, a ∈ tokens) : size (deliver tokens results) = size tokens := by
  induction results generalizing tokens with
  | nil => rfl
  | cons result results ih =>
    obtain ⟨hhead,hrest⟩ := List.forall_mem_cons.mp h
    rw [deliver_cons,ih fun a ha => AList.mem_insert _ |>.mpr (Or.inr (hrest a ha)),
      size_insert hhead]

theorem Arrived.size_eq {tokens : Tracked Rest} {arrivals : List (Arrival Rest)}
    (h : Arrived tokens arrivals) : size (deliver tokens (updates arrivals)) = size tokens :=
  size_deliver fun a ha => h.tracked a ((updates_sublist arrivals).subset ha)

theorem Kept.lookup {tokens left : Tracked Rest} {currentTime : ℕ}
    (h : Kept tokens left currentTime) (hsize : size tokens ≤ 1000) (a : String) :
    left.lookup a = (tokens.lookup a).filter fun status =>
      !TokenStatusTracker.tooOld currentTime (24*3600) status := by
  by_cases ha : a ∈ left
  · obtain ⟨status,hstatus⟩ := Option.isSome_iff_exists.mp (AList.lookup_isSome.mpr ha)
    have hold := (h.same a ha).2.symm.trans hstatus
    rw [hstatus,hold,Option.filter_some,h.fresh a ha status hold]
    rfl
  · rw [AList.lookup_eq_none.mpr ha]
    cases hstatus : tokens.lookup a with
    | none => rfl
    | some status =>
      have hold : TokenStatusTracker.tooOld currentTime (24*3600) status = true := by
        by_contra hfresh
        exact ha (h.all hsize a status hstatus (Bool.not_eq_true _ ▸ hfresh))
      rw [Option.filter_some,hold]
      rfl

/-- Of at most a thousand tokens, the order in which the tasks end decides the order of
the alerts and nothing else. -/
theorem rounds_commute {tracker : TokenStatusTracker Rest}
    {arrivals arrivals' : List (Arrival Rest)} (hperm : arrivals.Perm arrivals')
    (harrived : Arrived tracker.trackedTokens arrivals)
    (hsize : size tracker.trackedTokens ≤ 1000) (currentTime : ℕ) :
    ∃ alerts notified left alerts' notified' left',
      updateAllTokens checkPriceAlert alertCallbacks tracker arrivals currentTime =
        .ok (alerts,notified,left) ∧
      updateAllTokens checkPriceAlert alertCallbacks tracker arrivals' currentTime =
        .ok (alerts',notified',left') ∧
      alerts.Perm alerts' ∧ notified.Perm notified' ∧
      ∀ a, left.trackedTokens.lookup a = left'.trackedTokens.lookup a := by
  obtain ⟨left,hround,hkept⟩ := updateAllTokens_ok checkPriceAlert alertCallbacks tracker arrivals
    currentTime
  obtain ⟨left',hround',hkept'⟩ := updateAllTokens_ok checkPriceAlert alertCallbacks tracker
    arrivals' currentTime
  have hupdates : (updates arrivals).Perm (updates arrivals') := hperm.filterMap _
  have halerts := hupdates.filterMap (alertOf checkPriceAlert tracker.trackedTokens)
  have harrived' : Arrived tracker.trackedTokens arrivals' :=
    ⟨(hperm.map _).nodup_iff.mp harrived.once,
      fun a ha => harrived.tracked a ((hperm.map _).mem_iff.mpr ha)⟩
  refine ⟨_,_,left,_,_,left',hround,hround',halerts,halerts.flatMap_right _,fun a => ?_⟩
  rw [hkept.lookup (by rwa [harrived.size_eq]),hkept'.lookup (by rwa [harrived'.size_eq]),
    deliver_perm hupdates ((updates_sublist arrivals).nodup harrived.once)]

end Rounds

def twoTokens : TokenStatusTracker Unit :=
  ⟨(AList.insert "a" ⟨some 10000,()⟩ ∅).insert "b" ⟨some 99000,()⟩⟩

theorem rounds_commute_two :
    let check : CheckPriceAlert Unit String := fun address _ _ => some address
    let arrivals : List (Arrival Unit) := [("a",some ⟨some 100000,()⟩),("b",none)]
    ∃ alerts notified left alerts' notified' left',
      updateAllTokens check [1,2] twoTokens arrivals 100000 = .ok (alerts,notified,left) ∧
      updateAllTokens check [1,2] twoTokens arrivals.reverse 100000 =
        .ok (alerts',notified',left') ∧
      alerts.Perm alerts' ∧ notified.Perm notified' ∧
      ∀ a, left.trackedTokens.lookup a = left'.trackedTokens.lookup a :=
  rounds_commute _ _ (List.reverse_perm _).symm ⟨by decide,by decide⟩ (by decide) 100000

/-! ## A token over many rounds -/

/-- `status` is what the chain says of a token that is added, if it answers. -/
inductive TrackerEvent (Rest : Type)
  | updateAllTokens (arrivals : List (Arrival Rest)) (currentTime : ℕ)
  | addToken (address : String) (status : Option (TokenStatus Rest))
  | removeToken (address : String)

variable (checkPriceAlert : CheckPriceAlert Rest Alert) (alertCallbacks : List Callback)

def next (tracker : TokenStatusTracker Rest) : TrackerEvent Rest → TokenStatusTracker Rest
  | .updateAllTokens arrivals currentTime =>
    match updateAllTokens checkPriceAlert alertCallbacks tracker arrivals currentTime with
    | .ok (_,_,tracker) => tracker
    | .error _ => tracker
  | .addToken address (some status) => ⟨tracker.trackedTokens.insert address status⟩
  | .addToken _ none => tracker
  | .removeToken address => ⟨tracker.trackedTokens.erase address⟩

def reported (a : String) : TrackerEvent Rest → Option (TokenStatus Rest)
  | .updateAllTokens arrivals _ => ((updates arrivals).find? fun update => update.1 = a).map (·.2)
  | _ => none

def latest (a : String) (events : List (TrackerEvent Rest)) (status : TokenStatus Rest) :
    TokenStatus Rest :=
  ((events.filterMap (reported a)).getLast?).getD status

/-- What is known of the token was never a day old at the end of a round. -/
def NeverOld (a : String) (events : List (TrackerEvent Rest)) (status : TokenStatus Rest) : Prop :=
  ∀ before arrivals currentTime after,
    events = before++.updateAllTokens arrivals currentTime::after →
    TokenStatusTracker.tooOld currentTime (24*3600)
      (latest a (before++[.updateAllTokens arrivals currentTime]) status) = false

/-- The token is neither added nor removed by hand. -/
def HandsOff (a : String) : TrackerEvent Rest → Prop
  | .addToken address _ => address ≠ a
  | .removeToken address => address ≠ a
  | .updateAllTokens _ _ => True

/-- A round has tasks for its tokens, and no more tokens than it may keep. -/
def Possible (tracker : TokenStatusTracker Rest) : TrackerEvent Rest → Prop
  | .updateAllTokens arrivals _ => Arrived tracker.trackedTokens arrivals ∧
      size tracker.trackedTokens ≤ 1000
  | _ => True

theorem latest_append (a : String) (events : List (TrackerEvent Rest)) (e : TrackerEvent Rest)
    (status : TokenStatus Rest) :
    latest a (events++[e]) status = (reported a e).getD (latest a events status) := by
  unfold latest
  rw [List.filterMap_append]
  cases hreported : reported a e with
  | none => simp [hreported]
  | some new => simp [hreported]

theorem neverOld_append {a : String} {events : List (TrackerEvent Rest)} {e : TrackerEvent Rest}
    {status : TokenStatus Rest} : NeverOld a (events++[e]) status ↔ NeverOld a events status ∧
      ∀ arrivals currentTime, e = .updateAllTokens arrivals currentTime →
        TokenStatusTracker.tooOld currentTime (24*3600)
          (latest a (events++[e]) status) = false := by
  constructor
  · intro h
    refine ⟨fun before arrivals currentTime after hsplit => ?_,fun arrivals currentTime he => ?_⟩
    · exact h before arrivals currentTime (after++[e]) (by rw [hsplit,List.append_assoc]; rfl)
    · subst he
      exact h events arrivals currentTime [] rfl
  · rintro ⟨hevents,hlast⟩ before arrivals currentTime after hsplit
    rcases concat_split.mp hsplit with ⟨rfl,rfl,_⟩ | ⟨after',hinit,_⟩
    · exact hlast arrivals currentTime rfl
    · exact hevents before arrivals currentTime after' hinit

variable {checkPriceAlert alertCallbacks}

theorem lookup_updates {a : String} {tokens : Tracked Rest} {arrivals : List (Arrival Rest)}
    (h : Arrived tokens arrivals) (currentTime : ℕ) :
    (deliver tokens (updates arrivals)).lookup a = (tokens.lookup a).map
      fun status => (reported a (.updateAllTokens arrivals currentTime)).getD status := by
  have hnodup := (updates_sublist arrivals).nodup h.once
  cases hfind : (updates arrivals).find? fun update => update.1 = a with
  | none =>
    have hnot : a ∉ (updates arrivals).map Prod.fst := by
      intro hmem
      obtain ⟨update,hupdate,rfl⟩ := List.mem_map.mp hmem
      simpa using List.find?_eq_none.mp hfind update hupdate
    rw [lookup_deliver_other hnot]
    simp [reported,hfind]
  | some update =>
    have hkey : update.1 = a := by simpa using List.find?_some hfind
    have hmem := List.mem_of_find?_eq_some hfind
    subst hkey
    have htracked := h.tracked update.1
      ((updates_sublist arrivals).subset (List.mem_map_of_mem hmem))
    obtain ⟨status,hstatus⟩ := Option.isSome_iff_exists.mp (AList.lookup_isSome.mpr htracked)
    rw [lookup_deliver hnodup hmem,hstatus]
    simp [reported,hfind]

/-- One event, for a token that nobody adds or removes. -/
theorem lookup_next {a : String} {tracker : TokenStatusTracker Rest} {e : TrackerEvent Rest}
    (hpossible : Possible tracker e) (hhands : HandsOff a e) (status : TokenStatus Rest) :
    (next checkPriceAlert alertCallbacks tracker e).trackedTokens.lookup a = some status ↔
      ∃ old, tracker.trackedTokens.lookup a = some old ∧ status = (reported a e).getD old ∧
        ∀ arrivals currentTime, e = .updateAllTokens arrivals currentTime →
          TokenStatusTracker.tooOld currentTime (24*3600) status = false := by
  cases e with
  | updateAllTokens arrivals currentTime =>
    obtain ⟨harrived,hsize⟩ := hpossible
    obtain ⟨left,hround,hkept⟩ := updateAllTokens_ok checkPriceAlert alertCallbacks tracker arrivals
      currentTime
    simp only [next,hround]
    rw [hkept.lookup (by rwa [harrived.size_eq]),lookup_updates harrived currentTime,
      Option.filter_eq_some_iff,Option.map_eq_some_iff]
    constructor
    · rintro ⟨⟨old,hold,rfl⟩,hfresh⟩
      refine ⟨old,hold,rfl,?_⟩
      rintro _ _ ⟨⟩
      simpa using hfresh
    · rintro ⟨old,hold,rfl,hfresh⟩
      exact ⟨⟨old,hold,rfl⟩,by simpa using hfresh arrivals currentTime rfl⟩
  | addToken address brought =>
    have hsame : (next checkPriceAlert alertCallbacks tracker
        (.addToken address brought)).trackedTokens.lookup a = tracker.trackedTokens.lookup a := by
      cases brought with
      | none => rfl
      | some new => exact AList.lookup_insert_ne (Ne.symm hhands)
    rw [hsame]
    constructor
    · exact fun h => ⟨status,h,rfl,nofun⟩
    · rintro ⟨old,hold,rfl,_⟩
      exact hold
  | removeToken address =>
    have hsame : (next checkPriceAlert alertCallbacks tracker
        (.removeToken address)).trackedTokens.lookup a = tracker.trackedTokens.lookup a :=
      AList.lookup_erase_ne (Ne.symm hhands)
    rw [hsame]
    constructor
    · exact fun h => ⟨status,h,rfl,nofun⟩
    · rintro ⟨old,hold,rfl,_⟩
      exact hold

/-- One of at most a thousand tracked tokens stays tracked, with the status that came in
last, exactly as long as at the end of every round that status is at most a day old or
without a time. -/
theorem tracked_iff_neverOld {a : String} {tracker : TokenStatusTracker Rest}
    {status : TokenStatus Rest} (htracked : tracker.trackedTokens.lookup a = some status)
    {events : List (TrackerEvent Rest)}
    (hpossible : Along (next checkPriceAlert alertCallbacks) Possible events tracker)
    (hhands : ∀ e ∈ events, HandsOff a e) (last : TokenStatus Rest) :
    (run (next checkPriceAlert alertCallbacks) events tracker).trackedTokens.lookup a = some last ↔
      NeverOld a events status ∧ last = latest a events status := by
  induction events using List.reverseRecOn generalizing last with
  | nil =>
    have hnever : NeverOld a [] status := by
      intro before arrivals currentTime after hsplit
      simp at hsplit
    change tracker.trackedTokens.lookup a = some last ↔ _
    rw [htracked,Option.some_inj,eq_comm]
    exact (and_iff_right hnever).symm
  | append_singleton events e ih =>
    obtain ⟨hbefore,hlast⟩ := along_append_iff.mp hpossible
    have hih := fun old => ih hbefore (fun e he => hhands e (List.mem_append_left _ he)) old
    rw [run_append]
    change (next checkPriceAlert alertCallbacks (run (next checkPriceAlert alertCallbacks) events
      tracker) e).trackedTokens.lookup a = some last ↔ _
    rw [lookup_next hlast.1 (hhands e (by simp)),neverOld_append,latest_append]
    constructor
    · rintro ⟨old,hold,rfl,hfresh⟩
      obtain ⟨hnever,rfl⟩ := (hih old).mp hold
      exact ⟨⟨hnever,hfresh⟩,rfl⟩
    · rintro ⟨⟨hnever,hfresh⟩,rfl⟩
      exact ⟨_,(hih _).mpr ⟨hnever,rfl⟩,rfl,hfresh⟩

/-- The update of one of two tokens fails. -/
theorem tracked_iff_neverOld_failed :
    let check : CheckPriceAlert Unit String := fun address _ _ => some address
    let events : List (TrackerEvent Unit) :=
      [.updateAllTokens [("b",some ⟨some 100000,()⟩),("a",none)] 100000]
    (run (next check [1]) events twoTokens).trackedTokens.lookup "a" = some ⟨some 10000,()⟩ ↔
      NeverOld "a" events ⟨some 10000,()⟩ ∧
        ⟨some 10000,()⟩ = latest "a" events ⟨some 10000,()⟩ := by
  intro check events
  have hpossible : Along (next check [1]) Possible events twoTokens :=
    ⟨⟨⟨by decide,by decide⟩,by decide⟩,trivial⟩
  exact tracked_iff_neverOld rfl hpossible (by simp [events,HandsOff]) _

end DiamondBot.TokenTracking
