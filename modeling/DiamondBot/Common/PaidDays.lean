import DiamondBot.Common.SubscriptionManager

/-!
# Days paid for

Users buy levels and extensions at any times, and ended subscriptions are cleaned
up now and then. An extension is counted from the end of the subscription, and a
new level changes no date, also when that end has passed.
-/

set_option autoImplicit false

namespace DiamondBot.Subscriptions
open Library SubscriptionManager

structure Managed where
  now : ℕ
  manager : SubscriptionManager

inductive Action
  | updateUserLevel (userId : String) (level : SubscriptionLevel)
  | extendSubscription (userId : String) (additionalDays : ℕ)
  | cleanupExpiredSubscriptions
  | wait (seconds : ℕ)

namespace Managed

def step (s : Managed) : Action → Except String Managed
  | .updateUserLevel userId level =>
    (s.manager.updateUserLevel s.now userId level).map fun manager => { s with manager }
  | .extendSubscription userId additionalDays =>
    (s.manager.extendSubscription userId additionalDays).map fun manager => { s with manager }
  | .cleanupExpiredSubscriptions =>
    .ok { s with manager := s.manager.cleanupExpiredSubscriptions s.now }
  | .wait seconds => .ok { s with now := s.now+seconds }

def next : Managed → Action → Managed := AtomicRun.settle step

def start (now : ℕ) : Managed := ⟨now,.new⟩

def subscription (s : Managed) (userId : String) : Option UserSubscription :=
  s.manager.getUserSubscription userId

def Prolongs (s s' : Managed) (userId : String) (seconds : ℕ) : Prop :=
  ∃ sub', s'.subscription userId = some sub' ∧ sub'.isActive (s.now+seconds) = true ∧
    ∀ sub, s.subscription userId = some sub → sub.isActive s.now = true →
      sub'.endDate = sub.endDate+seconds

def Keeps (s s' : Managed) : Action → Prop
  | .updateUserLevel userId _ => s.Prolongs s' userId 0 ∧
      ∀ other, other ≠ userId → s'.subscription other = s.subscription other
  | .extendSubscription userId additionalDays => s.Prolongs s' userId (additionalDays*86400) ∧
      ∀ other, other ≠ userId → s'.subscription other = s.subscription other
  | .cleanupExpiredSubscriptions => ∀ userId,
      s'.subscription userId = (s.subscription userId).filter (·.isActive s.now)
  | .wait _ => ∀ userId, s'.subscription userId = s.subscription userId

def LosesNoDay (s : Managed) (a : Action) : Prop := ∀ s', s.step a = .ok s' → s.Keeps s' a

/-- A subscription that is given a level or an extension has not ended, or has been
cleaned up. -/
def FindsActive (s : Managed) : Action → Prop
  | .updateUserLevel userId _ => ∀ sub, s.subscription userId = some sub →
      sub.isActive s.now = true
  | .extendSubscription userId _ => ∀ sub, s.subscription userId = some sub →
      sub.isActive s.now = true
  | _ => True

def Accepted (s : Managed) (a : Action) : Prop := ∃ s', s.step a = .ok s'

variable {s s' : Managed} {userId : String}

theorem isActive_iff (sub : UserSubscription) (now : ℕ) :
    sub.isActive now = true ↔ now ≤ sub.endDate := decide_eq_true_iff

/-! ## One operation -/

theorem update_step {level : SubscriptionLevel}
    (h : s.step (.updateUserLevel userId level) = .ok s') :
    ∃ manager, s.manager.updateUserLevel s.now userId level = .ok manager ∧
      s' = { s with manager } := by
  obtain ⟨manager,hmanager,h⟩ := Checked.map_ok.mp h
  exact ⟨manager,hmanager,h.symm⟩

theorem extend_step {days : ℕ} (h : s.step (.extendSubscription userId days) = .ok s') :
    ∃ manager, s.manager.extendSubscription userId days = .ok manager ∧
      s' = { s with manager } := by
  obtain ⟨manager,hmanager,h⟩ := Checked.map_ok.mp h
  exact ⟨manager,hmanager,h.symm⟩

/-- A level prolongs a subscription by nothing, so it must not have ended. -/
theorem update_keeps_iff {level : SubscriptionLevel}
    (h : s.step (.updateUserLevel userId level) = .ok s') :
    s.Keeps s' (.updateUserLevel userId level) ↔
      s.FindsActive (.updateUserLevel userId level) := by
  obtain ⟨manager,hmanager,rfl⟩ := update_step h
  have hfind := updateUserLevel_find hmanager
  constructor
  · rintro ⟨⟨sub',hsub',hactive,_⟩,_⟩ sub hsub
    change manager.getUserSubscription userId = some sub' at hsub'
    change s.manager.getUserSubscription userId = some sub at hsub
    rw [hfind,if_pos rfl,hsub] at hsub'
    cases hsub'
    exact hactive
  · intro hfinds
    refine ⟨⟨_,(hfind userId).trans (if_pos rfl),?_,?_⟩,fun other hother => ?_⟩
    · cases hsub : s.manager.getUserSubscription userId with
      | some sub => exact hfinds sub hsub
      | none =>
        rw [isActive_iff]
        exact Nat.add_le_add_left (Nat.zero_le _) _
    · intro sub hsub _
      change s.manager.getUserSubscription userId = some sub at hsub
      rw [hsub]
      rfl
    · exact (hfind other).trans (if_neg hother)

/-- Days counted from the end reach as far as days counted from now exactly when the end
has not passed. -/
theorem extend_keeps_iff {days : ℕ} (h : s.step (.extendSubscription userId days) = .ok s') :
    s.Keeps s' (.extendSubscription userId days) ↔
      s.FindsActive (.extendSubscription userId days) := by
  obtain ⟨manager,hmanager,rfl⟩ := extend_step h
  obtain ⟨sub,hsub,hfind⟩ := extendSubscription_find hmanager
  constructor
  · rintro ⟨⟨sub',hsub',hactive,_⟩,_⟩ found hfound
    cases hsub.symm.trans hfound
    change manager.getUserSubscription userId = some sub' at hsub'
    rw [hfind,if_pos rfl] at hsub'
    cases hsub'
    rw [isActive_iff] at hactive ⊢
    exact Nat.le_of_add_le_add_right hactive
  · intro hfinds
    refine ⟨⟨_,(hfind userId).trans (if_pos rfl),?_,?_⟩,fun other hother => ?_⟩
    · have hactive := (isActive_iff sub s.now).mp (hfinds sub hsub)
      rw [isActive_iff]
      exact Nat.add_le_add_right hactive _
    · intro found hfound _
      cases hsub.symm.trans hfound
      rfl
    · exact (hfind other).trans (if_neg hother)

def Distinct (s : Managed) : Prop := s.manager.Distinct

theorem step_distinct (hs : s.Distinct) {a : Action} (h : s.step a = .ok s') : s'.Distinct := by
  cases a with
  | updateUserLevel userId level =>
    obtain ⟨manager,hmanager,rfl⟩ := update_step h
    exact updateUserLevel_distinct hs hmanager
  | extendSubscription userId days =>
    obtain ⟨manager,hmanager,rfl⟩ := extend_step h
    exact extendSubscription_distinct hs hmanager
  | cleanupExpiredSubscriptions =>
    cases h
    exact KeyedRecords.distinct_filter hs _
  | wait seconds =>
    cases h
    exact hs

theorem losesNoDay_iff (hs : s.Distinct) (a : Action) :
    s.LosesNoDay a ↔ (s.Accepted a → s.FindsActive a) := by
  have haccepted : (∀ s', s.step a = .ok s' → (s.Keeps s' a ↔ s.FindsActive a)) →
      (s.LosesNoDay a ↔ (s.Accepted a → s.FindsActive a)) := by
    intro hiff
    constructor
    · rintro hloses ⟨s',hs'⟩
      exact (hiff s' hs').mp (hloses s' hs')
    · intro hfinds s' hs'
      exact (hiff s' hs').mpr (hfinds ⟨s',hs'⟩)
  apply haccepted
  intro s' hs'
  cases a with
  | updateUserLevel userId level => exact update_keeps_iff hs'
  | extendSubscription userId days => exact extend_keeps_iff hs'
  | cleanupExpiredSubscriptions =>
    cases hs'
    exact iff_of_true (cleanup_find hs s.now) trivial
  | wait seconds =>
    cases hs'
    exact iff_of_true (fun _ => rfl) trivial

/-! ## All runs -/

theorem next_distinct (s : Managed) (a : Action) (hs : s.Distinct) : (s.next a).Distinct :=
  AtomicRun.settle_preserves hs fun _ h => step_distinct hs h

/-- No day is lost in a run exactly when each level and each extension is given to a
subscription that has not ended, or to none. -/
theorem no_day_lost_iff (now : ℕ) (actions : List Action) :
    AtomicRun.Along next LosesNoDay actions (start now) ↔
      AtomicRun.Along next (fun s a => s.Accepted a → s.FindsActive a) actions (start now) := by
  have hstart : (start now).Distinct := List.nodup_nil
  constructor
  · exact AtomicRun.along_mono next_distinct (fun s a hs => (losesNoDay_iff hs a).mp) hstart
  · exact AtomicRun.along_mono next_distinct (fun s a hs => (losesNoDay_iff hs a).mpr) hstart

/-- A day bought a day after the end has passed before it is bought. -/
theorem no_day_lost_counterexample :
    ¬∀ now actions, AtomicRun.Along next LosesNoDay actions (start now) := by
  intro h
  have hruns := h 0 [.updateUserLevel "ann" .premium,.wait (31*86400),.extendSubscription "ann" 1]
  obtain ⟨⟨sub',hsub',hactive,_⟩,_⟩ := hruns.2.2.1 _ rfl
  cases hsub'
  exact absurd ((isActive_iff _ _).mp hactive) (by decide)

end Managed

end DiamondBot.Subscriptions
