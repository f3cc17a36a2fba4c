import DiamondBot.Library.AtomicRun
import DiamondBot.Network.RedisCache

/-!
# The default time to live

Without a time to live the server is told the default one, while the entry itself
is made to expire at once. What a read obeys is neither of them but the instant
restored for the skipped expiry, and the deadline of the server.
-/

set_option autoImplicit false

namespace DiamondBot.Network
open Library ByteCache AtomicRun

/-! ## What others do -/

/-- A command of another client, or time passing. -/
inductive Meanwhile
  | command (n : ℕ) (c : Command)
  | wait (duration utc : ℕ)

namespace Meanwhile

def next (r : Redis) : Meanwhile → Redis
  | .command n c =>
    match Redis.server.answer n c r with
    | some (_,r') => r'
    | none => r
  | .wait duration utc => r.wait duration utc

/-- The command does not write the key. -/
def Spares (key : String) : Meanwhile → Prop
  | .command _ (.set k _) => k ≠ key
  | .command _ (.expire k _) => k ≠ key
  | .command _ (.del k) => k ≠ key
  | _ => True

def duration : Meanwhile → ℕ
  | .command _ _ => 0
  | .wait duration _ => duration

def elapsed (others : List Meanwhile) : ℕ := (others.map duration).sum

theorem next_instant (r : Redis) (a : Meanwhile) :
    (next r a).clock.instant = r.clock.instant+a.duration := by
  cases a with
  | wait duration utc => rfl
  | command n c =>
    unfold next
    dsimp only
    split
    · next reply r' hanswer =>
      cases Redis.answered_of hanswer <;> rfl
    · rfl

theorem run_instant (others : List Meanwhile) (r : Redis) :
    (run next others r).clock.instant = r.clock.instant+elapsed others := by
  induction others generalizing r with
  | nil => rfl
  | cons a others ih =>
    change (run next others (next r a)).clock.instant = _
    rw [ih,next_instant,Nat.add_assoc]
    rfl

theorem next_spares {r : Redis} {a : Meanwhile} {key : String} (h : a.Spares key) :
    (next r a).values key = r.values key ∧ (next r a).deadlines key = r.deadlines key := by
  cases a with
  | wait duration utc => exact ⟨rfl,rfl⟩
  | command n c =>
    unfold next
    dsimp only
    split
    · next reply r' hanswer =>
      cases Redis.answered_of hanswer with
      | set k data => exact ⟨Function.update_of_ne (Ne.symm h) _ _,Function.update_of_ne (Ne.symm h) _ _⟩
      | expire k seconds => exact ⟨rfl,Function.update_of_ne (Ne.symm h) _ _⟩
      | del k => exact ⟨Function.update_of_ne (Ne.symm h) _ _,rfl⟩
      | _ => exact ⟨rfl,rfl⟩
    · exact ⟨rfl,rfl⟩

theorem run_spares {others : List Meanwhile} {r : Redis} {key : String}
    (h : ∀ a ∈ others, a.Spares key) :
    (run next others r).values key = r.values key ∧
      (run next others r).deadlines key = r.deadlines key := by
  induction others generalizing r with
  | nil => exact ⟨rfl,rfl⟩
  | cons a others ih =>
    obtain ⟨ha,hrest⟩ := List.forall_mem_cons.mp h
    obtain ⟨hvalue,hdeadline⟩ := next_spares (r := r) ha
    obtain ⟨hvalue',hdeadline'⟩ := ih (r := next r a) hrest
    exact ⟨hvalue'.trans hvalue,hdeadline'.trans hdeadline⟩

end Meanwhile

/-! ## A value set and read -/

namespace RedisCacheService

variable {V : Type} (service : RedisCacheService) (codec : Bincode V) (key : String) (value : V)
  (ttl : Option ℕ)

def setThenGet : Call interface (Option V) := do
  service.set codec key value ttl
  service.get codec key

/-- The seconds the server is told. -/
def lifetime : ℕ := if ttl.getD 0 > 0 then ttl.getD 0 else service.redisCache.defaultTtl

/-- When setting takes no time, the deadline of the server is the expiry of the entry. -/
def SameLifetime (r : Redis) : Prop :=
  ∃ entry r', CacheEntry.new service.redisCache.platform r.clock.instant value (ttl.getD 0) =
      .ok entry ∧
    Redis.server.amid 0 (service.set codec key value ttl) [] r = some (.ok (),r') ∧
    r'.deadlines key = some entry.expiresAt

/-- What is set is read, whatever others do to other keys meanwhile. -/
def ReadsBack (r : Redis) (before between meanwhile after : List Meanwhile) : Prop :=
  ∃ r', Redis.server.amid 0 (service.setThenGet codec key value ttl)
    [run Meanwhile.next before,run Meanwhile.next between,run Meanwhile.next meanwhile,
      run Meanwhile.next after] r = some (.ok (some value),r')

section Stored

variable {service codec key value ttl} {data : List UInt8} {A : Type}

def written (r : Redis) (key : String) (data : List UInt8) : Redis := { r with
  values := Function.update r.values key (some data)
  deadlines := Function.update r.deadlines key none }

def expiring (r : Redis) (key : String) (seconds : ℕ) : Redis := { r with
  deadlines := Function.update r.deadlines key (some (r.clock.instant+10^9*seconds)) }

theorem read_unlimited {r : Redis} (hvalue : r.values key = some data)
    (hdeadline : r.deadlines key = none) : r.read key = some data := by
  simp only [Redis.read,Redis.expired,hdeadline,Bool.false_eq_true,if_false,hvalue]

theorem amid_set (hdata : codec.encode value = .ok data) {r : Redis}
    (hlimit : r.clock.instant+10^9*ttl.getD 0 < service.redisCache.platform.limit)
    (others : List (Redis → Redis)) (f : Unit → Call interface A)
    (hvalue : (others.tail.headD id (written (others.headD id r) key data)).values key = some data)
    (hdeadline : (others.tail.headD id (written (others.headD id r) key data)).deadlines key =
      none) :
    Redis.server.amid 0 (service.set codec key value ttl >>= f) others r =
      Redis.server.amid 0 (f ()) others.tail.tail
        (expiring (others.tail.headD id (written (others.headD id r) key data)) key
          (service.lifetime ttl)) := by
  rw [← Server.amid_settle,set]
  change Redis.server.amid 0 ((service.redisCache.storeInCache codec key value (ttl.getD 0)
    >>= f).settle r.clock) others r = _
  rw [RedisCache.storeInCache_settle _ hdata,if_pos hlimit]
  change Redis.server.amid 0 (f ()) others.tail.tail
    (if ((others.tail.headD id (written (others.headD id r) key data)).read key).isSome then
      expiring _ key _ else _) = _
  rw [read_unlimited hvalue hdeadline,Option.isSome_some,if_pos rfl]
  rfl

theorem lifetime_same_iff (hdefault : 0 < service.redisCache.defaultTtl) :
    service.lifetime ttl = ttl.getD 0 ↔ ∃ n, ttl = some n ∧ 0 < n := by
  unfold lifetime
  cases ttl with
  | none =>
    simp only [Option.getD_none,gt_iff_lt,lt_self_iff_false,if_false,reduceCtorEq,false_and,
      exists_false,iff_false]
    omega
  | some n =>
    simp only [Option.getD_some,Option.some.injEq,exists_eq_left']
    split <;> omega

theorem sameLifetime_iff (hdefault : 0 < service.redisCache.defaultTtl)
    (hdata : codec.encode value = .ok data) {r : Redis}
    (hlimit : r.clock.instant+10^9*ttl.getD 0 < service.redisCache.platform.limit) :
    service.SameLifetime codec key value ttl r ↔ ∃ n, ttl = some n ∧ 0 < n := by
  have hnew : CacheEntry.new service.redisCache.platform r.clock.instant value (ttl.getD 0) =
      .ok ⟨value,r.clock.instant+10^9*ttl.getD 0⟩ := by rw [CacheEntry.new,if_pos hlimit]
  have hset : Redis.server.amid 0 (service.set codec key value ttl) [] r =
      some (.ok (),expiring (written r key data) key (service.lifetime ttl)) := by
    rw [← Call.bind_pure (service.set codec key value ttl),
      amid_set hdata hlimit [] _ (Function.update_self _ _ _) (Function.update_self _ _ _)]
    rfl
  have hdeadline : (expiring (written r key data) key (service.lifetime ttl)).deadlines key =
      some (r.clock.instant+10^9*service.lifetime ttl) := Function.update_self _ _ _
  rw [← lifetime_same_iff hdefault]
  constructor
  · rintro ⟨entry,r',hentry,hr',hsame⟩
    cases hnew.symm.trans hentry
    cases hset.symm.trans hr'
    have hinstants := Option.some.inj (hdeadline.symm.trans hsame)
    dsimp only at hinstants
    omega
  · intro hsame
    exact ⟨_,_,hnew,hset,by rw [hdeadline,hsame]⟩

theorem readEntry_amid {cache : RedisCache} (hdata : codec.encode value = .ok data)
    (others : List (Redis → Redis)) (r : Redis) :
    (∃ r', Redis.server.amid 0 (cache.readEntry codec key (some data)) others r =
      some (.ok (some value),r')) ↔ r.clock.instant < cache.platform.restored := by
  have hread : CacheEntry.deserialize cache.platform codec data =
      .ok ⟨value,cache.platform.restored⟩ :=
    CacheEntry.deserialize_serialize (e := ⟨value,0⟩) hdata
  have hsettle : (cache.readEntry codec key (some data) >>= fun found =>
      (.done (.ok found) : Call interface (Option V))).settle r.clock =
      if r.clock.instant < cache.platform.restored then .done (.ok (some value))
      else Redis.del key >>= fun _ => .done (.ok none) := by
    rw [RedisCache.readEntry_settle,hread]
    rfl
  rw [← Call.bind_pure (cache.readEntry codec key (some data)),← Server.amid_settle]
  change (∃ r', Redis.server.amid 0 (Call.settle r.clock _) others r = _) ↔ _
  rw [hsettle]
  split
  · next hlive => exact iff_of_true ⟨r,rfl⟩ hlive
  · next hpast =>
    apply iff_of_false _ hpast
    rintro ⟨r',hr'⟩
    cases hr'

/-- A read before the deadline depends on the restored instant only. -/
theorem readsBack_iff (hdata : codec.encode value = .ok data) {r : Redis}
    (hlimit : r.clock.instant+10^9*ttl.getD 0 < service.redisCache.platform.limit)
    {before between meanwhile after : List Meanwhile} (hbetween : ∀ a ∈ between, a.Spares key)
    (hmeanwhile : ∀ a ∈ meanwhile, a.Spares key)
    (hearly : Meanwhile.elapsed meanwhile < 10^9*service.lifetime ttl) :
    service.ReadsBack codec key value ttl r before between meanwhile after ↔
      r.clock.instant+Meanwhile.elapsed before+Meanwhile.elapsed between+
        Meanwhile.elapsed meanwhile < service.redisCache.platform.restored := by
  have hset := Meanwhile.run_spares (r := written (run Meanwhile.next before r) key data) hbetween
  have hvalue := hset.1.trans (Function.update_self _ _ _)
  have hnone := hset.2.trans (Function.update_self _ _ _)
  generalize hstored : expiring (run Meanwhile.next between
    (written (run Meanwhile.next before r) key data)) key (service.lifetime ttl) = stored
  have hinstant : stored.clock.instant =
      r.clock.instant+Meanwhile.elapsed before+Meanwhile.elapsed between := by
    rw [← hstored]
    change (run Meanwhile.next between _).clock.instant = _
    rw [Meanwhile.run_instant]
    change (run Meanwhile.next before r).clock.instant+_ = _
    rw [Meanwhile.run_instant]
  have hkept := Meanwhile.run_spares (r := stored) hmeanwhile
  have hread : (run Meanwhile.next meanwhile stored).read key = some data := by
    have hdeadline : (run Meanwhile.next meanwhile stored).deadlines key =
        some (stored.clock.instant+10^9*service.lifetime ttl) := by
      rw [hkept.2,← hstored]
      exact Function.update_self _ _ _
    have hnot : ¬stored.clock.instant+10^9*service.lifetime ttl ≤
        (run Meanwhile.next meanwhile stored).clock.instant := by
      rw [Meanwhile.run_instant]
      omega
    simp only [Redis.read,Redis.expired,hdeadline,hnot,decide_false,Bool.false_eq_true,if_false]
    rw [hkept.1,← hstored]
    exact hvalue
  rw [ReadsBack,setThenGet,amid_set hdata hlimit [run Meanwhile.next before,
    run Meanwhile.next between,run Meanwhile.next meanwhile,run Meanwhile.next after] _ hvalue hnone]
  simp only [List.tail_cons,List.headD_cons,hstored]
  change (∃ r', Redis.server.amid 0 (service.redisCache.readEntry codec key
    ((run Meanwhile.next meanwhile stored).read key)) [run Meanwhile.next after]
      (run Meanwhile.next meanwhile stored) = _) ↔ _
  rw [hread,readEntry_amid hdata,Meanwhile.run_instant,hinstant]

/-- The two lifetimes agree if and only if one is asked for, and what is set is read
before the deadline if and only if that is before the restored instant. What an
increment writes is set without a time to live. -/
theorem default_ttl_iff (hdefault : 0 < service.redisCache.defaultTtl)
    (hdata : codec.encode value = .ok data) {r : Redis}
    (hlimit : r.clock.instant+10^9*ttl.getD 0 < service.redisCache.platform.limit)
    {before between meanwhile after : List Meanwhile} (hbetween : ∀ a ∈ between, a.Spares key)
    (hmeanwhile : ∀ a ∈ meanwhile, a.Spares key)
    (hearly : Meanwhile.elapsed meanwhile < 10^9*service.lifetime ttl) :
    (service.SameLifetime codec key value ttl r ↔ ∃ n, ttl = some n ∧ 0 < n) ∧
    (service.ReadsBack codec key value ttl r before between meanwhile after ↔
      r.clock.instant+Meanwhile.elapsed before+Meanwhile.elapsed between+
        Meanwhile.elapsed meanwhile < service.redisCache.platform.restored) ∧
    ∀ delta, service.incr key delta = do
      let current ← service.get Bincode.i64 key
      service.set Bincode.i64 key (current.getD 0+delta) none
      return current.getD 0+delta :=
  ⟨sameLifetime_iff hdefault hdata hlimit,
    readsBack_iff hdata hlimit hbetween hmeanwhile hearly,fun _ => rfl⟩

end Stored

/-- The restored instant is the fifth nanosecond. -/
def hourService : RedisCacheService := ⟨⟨⟨10^18,5⟩,3600⟩⟩

theorem default_ttl_flag :
    (hourService.SameLifetime Bincode.bool "flag" true none (Redis.empty ⟨0,0⟩) ↔
      ∃ n : ℕ, none = some n ∧ 0 < n) ∧
    (hourService.ReadsBack Bincode.bool "flag" true none (Redis.empty ⟨0,0⟩) [] []
      [.wait 3 0] [] ↔ 0+0+0+3 < 5) ∧
    ∀ delta, hourService.incr "flag" delta = do
      let current ← hourService.get Bincode.i64 "flag"
      hourService.set Bincode.i64 "flag" (current.getD 0+delta) none
      return current.getD 0+delta :=
  default_ttl_iff (by decide) rfl (by decide) (fun _ h => by cases h)
    (by
      intro a ha
      rw [List.mem_singleton.mp ha]
      trivial)
    (by decide)

/-- Without a time to live the entry is made to expire at once, an hour before
its deadline, and a millisecond later it is no longer read. -/
theorem default_ttl_counterexample :
    ¬hourService.SameLifetime Bincode.bool "flag" true none (Redis.empty ⟨0,0⟩) ∧
      ¬hourService.ReadsBack Bincode.bool "flag" true none (Redis.empty ⟨0,0⟩) [] []
        [.wait (10^6) 0] [] := by
  constructor
  · rintro ⟨entry,r',hentry,hr',hsame⟩
    cases hentry
    cases hr'
    cases hsame
  · rintro ⟨r',hr'⟩
    cases hr'

end RedisCacheService

end DiamondBot.Network
