import DiamondBot.Common.User
import DiamondBot.Library.AtomicRun
import DiamondBot.Library.Tally

/-!
# What a user's purchases are worth

A subscription has one expiry and one level. A purchase while it is active adds
its days to the expiry and makes its level the level of all the time left, so
time bought at one level can be enjoyed at another; none is lost.
-/

set_option autoImplicit false

namespace DiamondBot.Common

open Library Library.Tally

namespace Subscription

def remaining (s : Subscription) (now : ℕ) : ℕ := if s.active then s.expiryDate-now else 0

def activeSeconds (s : Subscription) (now seconds : ℕ) : ℕ :=
  (List.range seconds).countP fun i => s.isActive (now+i)

theorem isActive_iff {s : Subscription} (now : ℕ) : s.isActive now = true ↔ 0 < s.remaining now := by
  unfold isActive remaining
  cases s.active with
  | true =>
    simp only [Bool.true_and,decide_eq_true_eq,if_true]
    exact Nat.sub_pos_iff_lt.symm
  | false => simp

/-- What is used up is no longer left. -/
theorem activeSeconds_remaining (s : Subscription) (now seconds : ℕ) :
    s.activeSeconds now seconds+s.remaining (now+seconds) = s.remaining now := by
  induction seconds with
  | zero => simp [activeSeconds]
  | succ n ih =>
    have hlast : s.activeSeconds now (n+1) =
        s.activeSeconds now n+(if s.isActive (now+n) then 1 else 0) := by
      rw [activeSeconds,List.range_succ,List.countP_append,List.countP_singleton]
      rfl
    have hstep : (if s.isActive (now+n) then 1 else 0)+s.remaining (now+(n+1)) =
        s.remaining (now+n) := by
      unfold isActive remaining
      cases s.active with
      | true =>
        by_cases hopen : now+n < s.expiryDate
        · simp [hopen]
          omega
        · simp [hopen]
          omega
      | false => simp
    omega

theorem remaining_over {s : Subscription} {now seconds : ℕ} (h : s.remaining now ≤ seconds) :
    s.remaining (now+seconds) = 0 := by
  unfold remaining at h ⊢
  cases hactive : s.active with
  | true =>
    rw [hactive,if_pos rfl] at h
    rw [if_pos rfl]
    omega
  | false => rfl

theorem new_remaining (now : ℕ) (level : SubscriptionLevel) (days : ℕ) :
    (new now level days).remaining now = days*86400 := by
  simp [new,remaining]

theorem extend_active (s : Subscription) (now days : ℕ) : (s.extend now days).active = true := by
  unfold extend
  split
  · rfl
  · rfl

theorem extend_remaining {s : Subscription} (h : s.active = true) (now days : ℕ) :
    (s.extend now days).remaining now = s.remaining now+days*86400 := by
  unfold extend remaining
  by_cases hlate : now > s.expiryDate
  · simp [hlate,h]
    omega
  · simp [hlate,h]
    omega

end Subscription

structure Entitlement where
  now : ℕ
  user : User
  used : List (SubscriptionLevel × ℕ)
  bought : List (SubscriptionLevel × ℕ)
  carried : List (SubscriptionLevel × ℕ)

inductive PlanAction where
  | updateSubscription (level : SubscriptionLevel) (durationDays pause : ℕ)
  | wait (seconds : ℕ)
deriving DecidableEq

namespace Entitlement

def start (now : ℕ) (user : User) : Entitlement := ⟨now,user,[],[],[]⟩

def pass (s : Entitlement) (seconds : ℕ) : Entitlement :=
  { s with
    now := s.now+seconds
    used := s.used++match s.user.subscription with
      | some subscription => [(subscription.level,subscription.activeSeconds s.now seconds)]
      | none => [] }

def takenOver (s : Entitlement) (level : SubscriptionLevel) (pause : ℕ) : ℕ :=
  match s.user.subscription with
  | some subscription =>
    if subscription.isActive s.now ∧ subscription.level ≠ level then
      subscription.remaining (s.now+pause)
    else 0
  | none => 0

def next (s : Entitlement) : PlanAction → Entitlement
  | .updateSubscription level durationDays pause =>
    { s.pass pause with
      user := s.user.updateSubscription s.now pause level durationDays
      bought := s.bought++[(level,durationDays)]
      carried := s.carried++[(level,s.takenOver level pause)] }
  | .wait seconds => s.pass seconds

def remaining (s : Entitlement) : ℕ := s.user.subscription.elim 0 fun sub => sub.remaining s.now

def ofLevel (level : SubscriptionLevel) (log : List (SubscriptionLevel × ℕ)) : ℕ :=
  tally (fun e => e.1 = level) Prod.snd log

def ofAll (log : List (SubscriptionLevel × ℕ)) : ℕ := tally (fun _ => True) Prod.snd log

theorem ofLevel_snoc (level other : SubscriptionLevel) (log : List (SubscriptionLevel × ℕ))
    (n : ℕ) : ofLevel level (log++[(other,n)]) = ofLevel level log+if other = level then n else 0 := by
  simp [ofLevel,tally_append,tally_cons]

theorem ofAll_snoc (level : SubscriptionLevel) (log : List (SubscriptionLevel × ℕ)) (n : ℕ) :
    ofAll (log++[(level,n)]) = ofAll log+n := by
  simp [ofAll,tally_append,tally_cons]

structure Balanced (s : Entitlement) (sub : Subscription) : Prop where
  subscribed : s.user.subscription = some sub
  active : sub.active = true
  total : ofAll s.used+sub.remaining s.now = 86400*(365+ofAll s.bought)
  level : ∀ level, level ≠ .free →
    ofLevel level s.used+(if sub.level = level then sub.remaining s.now else 0) ≤
      86400*ofLevel level s.bought+ofLevel level s.carried

theorem pass_balanced {s : Entitlement} {sub : Subscription} (h : s.Balanced sub)
    (seconds : ℕ) : (s.pass seconds).Balanced sub := by
  have hused : (s.pass seconds).used = s.used++[(sub.level,sub.activeSeconds s.now seconds)] := by
    simp only [pass,h.subscribed]
  have hleft := sub.activeSeconds_remaining s.now seconds
  constructor
  · exact h.subscribed
  · exact h.active
  · have htotal := h.total
    rw [hused,ofAll_snoc]
    show ofAll s.used+sub.activeSeconds s.now seconds+sub.remaining (s.now+seconds) =
      86400*(365+ofAll s.bought)
    omega
  · intro level hlevel
    have hbound := h.level level hlevel
    rw [hused,ofLevel_snoc]
    show ofLevel level s.used+(if sub.level = level then sub.activeSeconds s.now seconds else 0)+
        (if sub.level = level then sub.remaining (s.now+seconds) else 0) ≤
      86400*ofLevel level s.bought+ofLevel level s.carried
    by_cases hsame : sub.level = level
    · simp only [hsame,if_true] at hbound ⊢
      omega
    · simp only [hsame,if_false] at hbound ⊢
      omega

def renewed (sub : Subscription) (now pause : ℕ) (level : SubscriptionLevel)
    (durationDays : ℕ) : Subscription :=
  if sub.isActive now then (sub.extend (now+pause) durationDays).updateLevel level
  else Subscription.new (now+pause) level durationDays

theorem renewed_active {sub : Subscription} (now pause : ℕ) (level : SubscriptionLevel)
    (durationDays : ℕ) : (renewed sub now pause level durationDays).active = true := by
  unfold renewed
  split
  · exact sub.extend_active _ _
  · rfl

theorem renewed_level (sub : Subscription) (now pause : ℕ) (level : SubscriptionLevel)
    (durationDays : ℕ) : (renewed sub now pause level durationDays).level = level := by
  unfold renewed
  split
  · rfl
  · rfl

theorem renewed_remaining {sub : Subscription} (h : sub.active = true) (now pause : ℕ)
    (level : SubscriptionLevel) (durationDays : ℕ) :
    (renewed sub now pause level durationDays).remaining (now+pause) =
      sub.remaining (now+pause)+durationDays*86400 := by
  unfold renewed
  by_cases hactive : sub.isActive now = true
  · rw [if_pos hactive]
    exact Subscription.extend_remaining h _ _
  · rw [if_neg hactive,Subscription.new_remaining]
    have hover := mt (Subscription.isActive_iff now).mpr hactive
    have hless := sub.activeSeconds_remaining now pause
    omega

theorem takenOver_remaining {s : Entitlement} {sub : Subscription}
    (hsub : s.user.subscription = some sub) {level : SubscriptionLevel} (h : sub.level ≠ level)
    (pause : ℕ) : s.takenOver level pause = sub.remaining (s.now+pause) := by
  simp only [takenOver,hsub]
  by_cases hactive : sub.isActive s.now = true
  · rw [if_pos ⟨hactive,h⟩]
  · rw [if_neg fun hboth => hactive hboth.1]
    have hover := mt (Subscription.isActive_iff s.now).mpr hactive
    have hless := sub.activeSeconds_remaining s.now pause
    omega

theorem update_balanced {s : Entitlement} {sub : Subscription} (h : s.Balanced sub)
    (level : SubscriptionLevel) (durationDays pause : ℕ) :
    (s.next (.updateSubscription level durationDays pause)).Balanced
      (renewed sub s.now pause level durationDays) := by
  have hpassed := pass_balanced h pause
  have hleft := renewed_remaining h.active s.now pause level durationDays
  have hlevel := renewed_level sub s.now pause level durationDays
  constructor
  · simp only [next,User.updateSubscription,h.subscribed,renewed]
  · exact renewed_active s.now pause level durationDays
  · have htotal := hpassed.total
    simp only [next]
    rw [ofAll_snoc]
    change ofAll (s.pass pause).used+sub.remaining (s.now+pause) = _ at htotal
    show ofAll (s.pass pause).used+
      (renewed sub s.now pause level durationDays).remaining (s.now+pause) = _
    change _ = 86400*(365+ofAll s.bought) at htotal
    omega
  · intro other hother
    have hbound := hpassed.level other hother
    simp only [next]
    rw [ofLevel_snoc,ofLevel_snoc,hlevel]
    change ofLevel other (s.pass pause).used+
      (if sub.level = other then sub.remaining (s.now+pause) else 0) ≤
        86400*ofLevel other s.bought+ofLevel other s.carried at hbound
    show ofLevel other (s.pass pause).used+
      (if level = other then (renewed sub s.now pause level durationDays).remaining (s.now+pause)
        else 0) ≤ _
    by_cases hnew : level = other
    · subst hnew
      simp only [if_true]
      by_cases hsame : sub.level = level
      · simp only [hsame,if_true] at hbound
        omega
      · rw [takenOver_remaining h.subscribed hsame]
        simp only [hsame,if_false] at hbound
        omega
    · simp only [hnew,if_false]
      omega

theorem next_balanced {s : Entitlement} (h : ∃ sub, s.Balanced sub) (a : PlanAction) :
    ∃ sub, (s.next a).Balanced sub := by
  obtain ⟨sub,hsub⟩ := h
  cases a with
  | updateSubscription level durationDays pause =>
    exact ⟨_,update_balanced hsub level durationDays pause⟩
  | wait seconds => exact ⟨sub,pass_balanced hsub seconds⟩

theorem start_balanced (now : ℕ) {user : User}
    (h : user.subscription = some (Subscription.new now .free 365)) :
    (start now user).Balanced (Subscription.new now .free 365) := by
  constructor
  · exact h
  · rfl
  · show 0+(Subscription.new now .free 365).remaining now = 86400*(365+0)
    rw [Subscription.new_remaining]
  · intro level hlevel
    rw [if_neg (show (Subscription.new now .free 365).level ≠ level from hlevel.symm)]
    exact Nat.zero_le _

theorem new_subscription {bcrypt : PasswordHash} {fresh : Fresh} {username email password : String}
    {user : User} (h : User.new bcrypt fresh username email password = .ok user) :
    user.subscription = some (Subscription.new fresh.now .free 365) := by
  unfold User.new at h
  split at h
  · simp at h
  · cases h
    rfl

/-- The seconds with a level are bounded by what was bought at the level and what
purchases at it took over, and every day bought is served. -/
theorem entitled {bcrypt : PasswordHash} {fresh : Fresh} {username email password : String}
    {user : User} (h : User.new bcrypt fresh username email password = .ok user)
    (actions : List PlanAction) :
    let s := AtomicRun.run next actions (start fresh.now user)
    (∀ level, level ≠ .free →
      ofLevel level s.used ≤ 86400*ofLevel level s.bought+ofLevel level s.carried) ∧
      ∀ seconds, s.remaining ≤ seconds →
        ofAll (s.pass seconds).used = 86400*(365+ofAll s.bought) := by
  intro s
  have hstart : ∃ sub, (start fresh.now user).Balanced sub :=
    ⟨_,start_balanced fresh.now (new_subscription h)⟩
  obtain ⟨sub,hsub⟩ : ∃ sub, s.Balanced sub :=
    AtomicRun.run_invariant (I := fun s : Entitlement => ∃ sub, s.Balanced sub)
      (fun _ a hb => next_balanced hb a) hstart actions
  constructor
  · intro level hlevel
    have hbound := hsub.level level hlevel
    omega
  · intro seconds hover
    have hpassed := (pass_balanced hsub seconds).total
    have hleft : s.remaining = sub.remaining s.now := by
      rw [remaining,hsub.subscribed]
      rfl
    have hdone : sub.remaining (s.now+seconds) = 0 :=
      Subscription.remaining_over (hleft ▸ hover)
    change ofAll (s.pass seconds).used+sub.remaining (s.now+seconds) = _ at hpassed
    rw [hdone] at hpassed
    exact hpassed

def plainHash : PasswordHash where
  hash password salt := .ok (salt++password)
  verify password hash := .ok (decide (hash = "salt"++password))

def newUser : User := ⟨"id","ann","ann@example.com","saltpw","2024",1000,none,some "key",["user"],[],
  none,some .user,[],true,some (Subscription.new 1000 .free 365)⟩

theorem new_newUser : User.new plainHash ⟨1000,"2024","id","key","salt"⟩ "ann" "ann@example.com"
    "pw" = .ok newUser := by decide

theorem entitled_newUser :
    let s := AtomicRun.run next [.updateSubscription .vip 30 0,.wait 100] (start 1000 newUser)
    (∀ level, level ≠ .free →
      ofLevel level s.used ≤ 86400*ofLevel level s.bought+ofLevel level s.carried) ∧
      ∀ seconds, s.remaining ≤ seconds →
        ofAll (s.pass seconds).used = 86400*(365+ofAll s.bought) :=
  entitled new_newUser [.updateSubscription .vip 30 0,.wait 100]

theorem vip_used {seconds : ℕ} (h : 366*86400 ≤ seconds) :
    let s := AtomicRun.run next [.updateSubscription .vip 1 0,.wait seconds] (start 1000 newUser)
    ofLevel .vip s.bought = 1 ∧ ofLevel .vip s.used = 366*86400 := by
  intro s
  let sub : Subscription := ⟨.vip,1000,1000+366*86400,true⟩
  have hused : s.used = [(.free,0),(.vip,sub.activeSeconds 1000 seconds)] := rfl
  have hall : sub.remaining 1000 = 366*86400 := by decide
  have hactive := sub.activeSeconds_remaining 1000 seconds
  rw [Subscription.remaining_over (hall ▸ h),hall,Nat.add_zero] at hactive
  constructor
  · rfl
  · rw [hused,hactive]
    rfl

theorem vip_for_a_year :
    let s := AtomicRun.run next [.updateSubscription .vip 1 0,.wait (366*86400)]
      (start 1000 newUser)
    ¬ ofLevel .vip s.used ≤ 86400*ofLevel .vip s.bought := by
  intro s hle
  have hboth := vip_used (Nat.le_refl (366*86400))
  rw [hboth.1,hboth.2] at hle
  exact absurd hle (by decide)

end Entitlement

end DiamondBot.Common
